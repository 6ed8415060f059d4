import SatSession.Assignment
import SatSession.Error
import SatSession.Status

/-!
The smallest feasible parameter of a family of problems, by bisection. A searching party checks
parameters and puts each result into a queue; a recorder takes the results out. `apply` says what
one move of either party does, `minimize` runs the search first and then the recorder.
-/

set_option autoImplicit false

namespace SatSession

structure Finding where
  parameter : Int
  status : Status
  solution : Option Assignment
deriving DecidableEq

structure Family where
  lower : Int
  upper : Int
  isFeasible : Int → Outcome Error (Status × Option Assignment)
  recordPanic : Finding → Option Panic

structure Minimum where
  value : Int
  optimal : Bool
  feasible : Bool
deriving DecidableEq

structure Bisection where
  lo : Int
  hi : Int
  optimal : Bool
  started : Bool
deriving DecidableEq

namespace Bisection

def start (lower upper : Int) : Bisection := ⟨lower, upper, false, false⟩

inductive Next where
  | check (k : Int)
  | done (m : Minimum)
  | overflow
deriving DecidableEq

def farthest : Int := 9223372036854775808

def next (b : Bisection) : Next :=
  if !b.started then .check b.hi
  else if b.lo < b.hi then
    if b.hi - b.lo < farthest then .check (b.lo + (b.hi - b.lo) / 2) else .overflow
  else .done ⟨b.hi, b.optimal, true⟩

def learn (b : Bisection) (k : Int) (feasible : Bool) : Option Bisection :=
  match b.started, feasible with
  | false, false => none
  | false, true => some { b with started := true }
  | true, true => some { b with hi := k }
  | true, false => some { b with lo := k + 1, optimal := true }

end Bisection

namespace Minimize

inductive Recorder where
  | running
  | ended (panic : Option Panic)
deriving DecidableEq

structure State where
  search : Bisection
  result : Option (Outcome Error Minimum)
  checked : List Int
  queue : List Finding
  recorder : Recorder
  recorded : List Finding

inductive Move where
  | search
  | record
deriving DecidableEq

def start (F : Family) : State := ⟨.start F.lower F.upper, none, [], [], .running, []⟩

def finish (s : State) (r : Outcome Error Minimum) : State := { s with result := some r }

-- A finding goes into the queue while there is a recorder to receive it.
def send (s : State) (f : Finding) : State :=
  if s.recorder = .running then { s with queue := s.queue ++ [f] } else s

def applySearch (F : Family) (s : State) : State :=
  match s.search.next with
  | .done m => finish s (.ok m)
  | .overflow => finish s (.panic (.text "attempt to subtract with overflow"))
  | .check k =>
      let s := { s with checked := s.checked ++ [k] }
      match F.isFeasible k with
      | .error e => finish s (.error e)
      | .panic p => finish s (.panic p)
      | .ok (status, solution) =>
          let s := send s ⟨k, status, solution⟩
          match s.search.learn k (status = .satisfiable) with
          | some b => { s with search := b }
          | none => finish s (.ok ⟨k, false, false⟩)

def apply (F : Family) (s : State) : Move → Option State
  | .search => if s.result.isNone then some (applySearch F s) else none
  | .record =>
      match s.recorder, s.queue with
      | .ended _, _ => none
      | .running, [] => if s.result.isSome then some { s with recorder := .ended none } else none
      | .running, f :: q =>
          match F.recordPanic f with
          | some p => some { s with queue := [], recorder := .ended (some p) }
          | none => some { s with queue := q, recorded := s.recorded ++ [f] }

def outcome? (s : State) : Option (Outcome Error Minimum) :=
  match s.result, s.recorder with
  | some (.panic p), .ended _ => some (.panic p)
  | some _, .ended (some p) => some (.panic p)
  | some r, .ended none => some r
  | _, _ => none

def runFor (F : Family) : Nat → State → State
  | 0, s => s
  | fuel + 1, s =>
      match apply F s .search with
      | some t => runFor F fuel t
      | none =>
          match apply F s .record with
          | some t => runFor F fuel t
          | none => s

def moves (F : Family) : Nat := 2 * ((F.upper - F.lower).toNat + 3)

def run (F : Family) : State := runFor F (moves F) (start F)

end Minimize

def minimize (F : Family) : Outcome Error Minimum × Minimize.State :=
  if F.upper < F.lower then (.error (.invalidBounds F.lower F.upper), Minimize.start F)
  else
    let s := Minimize.run F
    ((Minimize.outcome? s).getD (.panic .outOfRange), s)

end SatSession
