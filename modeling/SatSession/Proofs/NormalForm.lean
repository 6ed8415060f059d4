import SatSession.Proofs.Capacity

set_option autoImplicit false

namespace SatSession

namespace Dimacs

namespace Reader

end Reader

end Dimacs

end SatSession
