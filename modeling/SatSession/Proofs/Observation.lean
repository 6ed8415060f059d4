import SatSession.Engine

set_option autoImplicit false

namespace SatSession

-- Answers are kept where a later call can depend on them.
inductive EngineCall where
  | add (number : Int)
  | assume (number : Int)
  | solve (answer : Outcome EngineError Status)
  | value (number : Int) (answer : Outcome Empty Int)
  | varCount (answer : Outcome Empty Nat)
  | clauseCount
  | failedAssumption (number : Int)
  | failedAssumptions
  | inconsistent (answer : Outcome Empty Bool)
  | satisfiableSubset (next : Bool)
  | setPropagationLimit (limit : Nat)
  | setVerbosity (level : Nat)
  | setLead (lead : String)
  | setOutput (output : Output)
  | enableTracing (answer : Outcome EngineError Unit)
  | report (kind : ReportKind)
  | release
deriving DecidableEq

structure Observed (σ : Type) where
  engine : σ
  calls : List EngineCall

variable {σ ε α : Type}

def observe (record : Outcome ε α → EngineCall) (x : Step σ ε α) : Step (Observed σ) ε α :=
  fun s => ((x s.engine).1, ⟨(x s.engine).2, record (x s.engine).1 :: s.calls⟩)

def Engine.observed (E : Engine σ) : Engine (Observed σ) where
  add n := observe (fun _ => .add n) (E.add n)
  assume n := observe (fun _ => .assume n) (E.assume n)
  solve := observe .solve E.solve
  value n := observe (.value n) (E.value n)
  varCount := observe .varCount E.varCount
  clauseCount := observe (fun _ => .clauseCount) E.clauseCount
  failedAssumption n := observe (fun _ => .failedAssumption n) (E.failedAssumption n)
  failedAssumptions := observe (fun _ => .failedAssumptions) E.failedAssumptions
  inconsistent := observe .inconsistent E.inconsistent
  satisfiableSubset next := observe (fun _ => .satisfiableSubset next) (E.satisfiableSubset next)
  setPropagationLimit n := observe (fun _ => .setPropagationLimit n) (E.setPropagationLimit n)
  setVerbosity n := observe (fun _ => .setVerbosity n) (E.setVerbosity n)
  setLead t := observe (fun _ => .setLead t) (E.setLead t)
  setOutput o := observe (fun _ => .setOutput o) (E.setOutput o)
  enableTracing := observe .enableTracing E.enableTracing
  report k := observe (fun _ => .report k) (E.report k)
  release s := ⟨E.release s.engine, .release :: s.calls⟩

namespace EngineCall

def standing : List EngineCall → Option Status
  | [] => none
  | .solve (.ok st) :: _ => some st
  | .solve _ :: _ | .add _ :: _ | .assume _ :: _ | .satisfiableSubset _ :: _ => none
  | _ :: calls => standing calls

def atBoundary : List EngineCall → Bool
  | [] => true
  | .add n :: _ => n == 0
  | _ :: calls => atBoundary calls

def traced : List EngineCall → Bool
  | [] => false
  | .enableTracing (.ok _) :: _ => true
  | _ :: calls => traced calls

-- Whether the engine was asked if it is inconsistent and denied it, and has only been queried
-- since.
def knownConsistent : List EngineCall → Bool
  | .inconsistent (.ok false) :: _ => true
  | .value _ _ :: calls | .varCount _ :: calls | .clauseCount :: calls
  | .failedAssumption _ :: calls => knownConsistent calls
  | _ => false

def Permitted (calls : List EngineCall) : EngineCall → Prop
  | .value _ _ => standing calls = some .satisfiable
  | .failedAssumption _ | .failedAssumptions => standing calls = some .unsatisfiable
  | .satisfiableSubset _ => knownConsistent calls = true ∧ atBoundary calls = true
  | .solve _ | .assume _ | .report .formula => atBoundary calls = true
  | .report _ =>
      atBoundary calls = true ∧ standing calls = some .unsatisfiable ∧ traced calls = true
  | .enableTracing _ => ∀ n, .add n ∉ calls
  | _ => True

def Lawful : List EngineCall → Prop
  | [] => True
  | c :: calls => Permitted calls c ∧ Lawful calls

theorem lawful_adds (ns : List Int) {calls : List EngineCall} (lawful : Lawful calls) :
    Lawful (ns.map .add ++ calls) := by
  induction ns with
  | nil => exact lawful
  | cons n ns ih => exact ⟨trivial, ih⟩

theorem lawful_suffix {newer older : List EngineCall} (lawful : Lawful (newer ++ older)) :
    Lawful older := by
  induction newer with
  | nil => exact lawful
  | cons c newer ih => exact ih lawful.2

theorem traced_adds (ns : List Int) (calls : List EngineCall) :
    traced (ns.map .add ++ calls) = traced calls := by
  induction ns with
  | nil => rfl
  | cons n ns ih => exact ih

end EngineCall

end SatSession
