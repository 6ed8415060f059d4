import SatSession.Destination

set_option autoImplicit false

namespace SatSession

inductive EngineError where
  | message (text : String)
  | io (cause : IoError)
  | wrapped (context : String) (cause : IoError)
deriving DecidableEq

inductive Error where
  | notReady
  | poisoned
  | invalidLiteral (number : Int)
  | solutionLength (actual varCount : Nat)
  | unassignedVariable (var : Nat)
  | unterminatedBuffer (maxLength : Nat)
  | notUnsatisfiable
  | tracingDisabled
  | invalidBounds (lower upper : Int)
  | io (cause : IoError)
  | engine (message : String)
deriving DecidableEq

namespace Error

/-- Only an I/O error handed on as it is stays one. -/
def ofEngine : EngineError → Error
  | .message t => engine t
  | .io e => io e
  | .wrapped context e => engine (context ++ ": " ++ e.message)

def message : Error → String
  | notReady => "Session is not ready: its engine has been released"
  | poisoned => "Session is poisoned: an earlier call panicked"
  | invalidLiteral n => toString n ++ " is not a valid literal"
  | solutionLength actual varCount =>
      "Solution has length " ++ toString actual ++ " but the formula has " ++ toString varCount ++
        " variables (expected length " ++ toString (varCount + 1) ++ ")"
  | unassignedVariable v =>
      "Variable " ++ toString v ++ " is unassigned in a satisfying assignment"
  | unterminatedBuffer n =>
      "No terminator within the first " ++ toString n ++ " literals of an engine result buffer"
  | notUnsatisfiable => "Report requires the last solve call to be unsatisfiable"
  | tracingDisabled =>
      "Report requires trace generation to be enabled when the session is created"
  | invalidBounds lower upper =>
      "Upper bound " ++ toString upper ++ " is less than lower bound " ++ toString lower
  | io e => "Error redirecting engine output: " ++ e.message
  | engine m => "Engine error: " ++ m

def IsFault : Error → Prop
  | poisoned | unassignedVariable _ | unterminatedBuffer _ => True
  | _ => False

theorem not_isFault_ofEngine (e : EngineError) : ¬(ofEngine e).IsFault := by
  cases e <;> exact id

end Error

def Outcome.Safe {α : Type} : Outcome Error α → Prop
  | .ok _ => True
  | .error e => ¬e.IsFault
  | .panic _ => False

theorem Outcome.isPanic_of_safe {α : Type} {x : Outcome Error α} (safe : x.Safe) :
    x.isPanic = false := by
  cases x with
  | panic p => exact safe.elim
  | _ => rfl

theorem Outcome.safe_ofEngine {α : Type} {x : Outcome EngineError α} (quiet : x.isPanic = false) :
    (x.mapError Error.ofEngine).Safe := by
  cases x with
  | ok a => trivial
  | error e => exact Error.not_isFault_ofEngine e
  | panic p => simp [isPanic] at quiet

end SatSession
