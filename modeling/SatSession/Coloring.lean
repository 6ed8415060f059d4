import SatSession.Engine.Replay
import SatSession.Cnf.Search
import SatSession.Session
import SatSession.Minimize

set_option autoImplicit false

namespace SatSession

structure Graph where
  vertices : Nat
  edges : List (Nat × Nat)

namespace Graph

def number (k vertex color : Nat) : Int := vertex * k + color + 1

def coloring (g : Graph) (k : Nat) : List (List Int) :=
  ((List.range g.vertices).map fun v => (List.range k).map (number k v)) ++
    g.edges.flatMap fun (u, v) =>
      (List.range k).map fun c => [-number k u c, -number k v c]

def isColorable (g : Graph) (k : Int) : Outcome Error (Status × Option Assignment) :=
  let E := Replay.engine Cnf.Search.solver
  match Session.create E {} {} with
  | (.error e, _) => .error e
  | (.panic p, _) => .panic p
  | (.ok s, _) =>
      ((do
        Session.addClauses E (g.coloring k.toNat)
        Session.solve E : Session.Op Replay.State _) s).1

def family (g : Graph) (lower upper : Int) : Family := ⟨lower, upper, g.isColorable, fun _ => none⟩

end Graph

end SatSession
