import SatSession.Status

set_option autoImplicit false

namespace SatSession

inductive Window where
  | opened
  | closed
deriving DecidableEq

inductive SolveState where
  | noResult
  | satisfiable
  | unknown
  | unsatisfiable (window : Window)
deriving DecidableEq

inductive Event where
  | ingest
  | assume
  | solved (status : Status)
  | subsetQuery
deriving DecidableEq

namespace SolveState

/-- The status survives all but another solve call; the window closes at any event. -/
def next (s : SolveState) : Event → SolveState
  | .solved .satisfiable => satisfiable
  | .solved .unknown => unknown
  | .solved .unsatisfiable => unsatisfiable .opened
  | _ =>
      match s with
      | unsatisfiable _ => unsatisfiable .closed
      | s => s

def status : SolveState → Option Status
  | noResult => none
  | satisfiable => some .satisfiable
  | unknown => some .unknown
  | unsatisfiable _ => some .unsatisfiable

def windowOpen (s : SolveState) : Bool := s == unsatisfiable .opened

def text : SolveState → String
  | noResult => "NoResultYet"
  | satisfiable => "Satisfiable"
  | unknown => "Unknown"
  | unsatisfiable .opened => "Unsatisfiable(Open)"
  | unsatisfiable .closed => "Unsatisfiable(Closed)"

theorem status_next (s : SolveState) (e : Event) :
    (s.next e).status = match e with | .solved t => some t | _ => s.status := by
  cases e with
  | solved t => cases t <;> rfl
  | _ => cases s <;> rfl

theorem windowOpen_next (s : SolveState) (e : Event) :
    (s.next e).windowOpen = (e == .solved .unsatisfiable) := by
  cases e with
  | solved t => cases t <;> rfl
  | _ => cases s <;> rfl

end SolveState

end SatSession
