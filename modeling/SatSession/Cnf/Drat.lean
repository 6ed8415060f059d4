import SatSession.Cnf.Basic
import SatSession.Destination

set_option autoImplicit false

namespace SatSession.Cnf.Drat

def stepText (c : Clause) : String :=
  String.join (c.map fun l => toString l.number ++ " ") ++ "0\n"

def literalCode (l : Literal) : Nat := 2 * l.var + if l.positive then 0 else 1

-- In base 128 with the low digits first, and the high bit set in all digits but the last.
def codeBytes (n : Nat) : Bytes :=
  if n < 128 then [n.toUInt8] else (n % 128 + 128).toUInt8 :: codeBytes (n / 128)
termination_by n

def stepBytes (c : Clause) : Bytes :=
  0x61 :: (c.flatMap (fun l => codeBytes (literalCode l)) ++ [0])

end SatSession.Cnf.Drat
