import SatSession.Engine

set_option autoImplicit false

namespace SatSession.Scripted

inductive Result where
  | status (status : Status)
  | error (cause : EngineError)
  | panic (message : String)

structure Script where
  model : Array Int := #[0]
  failed : List Int := [0]
  subset : List Int := [0]
  inconsistent : Bool := false
  varCount : Option Nat := none
  limitError : Option EngineError := none
  traceError : Option EngineError := none
  subsetError : Option EngineError := none
  panicOn : List (Int × String) := []
  report : Production := ⟨[], .ok (), none⟩

structure State where
  script : Script
  results : List Result
  largest : Nat := 0
  clauses : Nat := 0
  last : Option Status := none
  changed : Bool := false
  tracing : Bool := false
  calls : List String := []

namespace State

def record (s : State) (call : String) : State := { s with calls := call :: s.calls }

def touch (s : State) (n : Int) : State :=
  { s with changed := true, largest := max s.largest n.natAbs }

end State

variable {ε α : Type}

def note (call : String) : Step State ε Unit := Step.modify (·.record call)

def panicAt (n : Int) : Step State ε Unit := do
  match (← Step.get).script.panicOn.lookup n with
  | some m => Step.abandon m
  | none => pure ()

def failWith? (e : Option EngineError) : Step State EngineError Unit :=
  match e with
  | some e => Step.fail e
  | none => pure ()

def need (st : Status) : Step State ε Unit := do
  let s ← Step.get
  if s.last = some st ∧ s.changed = false then pure ()
  else Step.abandon ("engine aborted: expected to be in " ++ st.text ++ " state")

def add (n : Int) : Call State Unit := do
  note ("add " ++ toString n)
  panicAt n
  Step.modify (·.touch n)
  if n = 0 then Step.modify fun s => { s with clauses := s.clauses + 1 }

def assume (n : Int) : Call State Unit := do
  note ("assume " ++ toString n)
  panicAt n
  Step.modify (·.touch n)

def solve : Step State EngineError Status := do
  note "solve"
  match (← Step.get).results with
  | [] => Step.fail (.message "no scripted status left")
  | r :: rest =>
      Step.modify fun s => { s with results := rest }
      match r with
      | .status st =>
          Step.modify fun s => { s with last := some st, changed := false }
          pure st
      | .error e => Step.fail e
      | .panic m => Step.abandon m

-- The model lists values by variable number; its entry counts for the positive literal.
def value (n : Int) : Call State Int := do
  need .satisfiable
  match (← Step.get).script.model[n.natAbs]? with
  | some v => pure (if n < 0 then -v else v)
  | none => Step.abandon ("engine aborted: no value for " ++ toString n)

def varCount : Call State Nat := do
  let s ← Step.get
  pure (s.script.varCount.getD s.largest)

def failedAssumption (n : Int) : Call State Bool := do
  note ("failed_assumption " ++ toString n)
  panicAt n
  need .unsatisfiable
  pure ((← Step.get).script.failed.contains n)

def failedAssumptions : Call State (List Int) := do
  note "failed_assumptions"
  need .unsatisfiable
  pure (← Step.get).script.failed

def satisfiableSubset (next : Bool) : Step State EngineError (List Int) := do
  note (if next then "next_subset" else "subset")
  let script := (← Step.get).script
  if script.inconsistent then Step.abandon "engine aborted: formula is inconsistent"
  failWith? script.subsetError
  Step.modify fun s =>
    { s with changed := true, clauses := if next then s.clauses + 1 else s.clauses }
  pure script.subset

def outputName : Output → String
  | .log => "Log"
  | .stdout => "Stdout"
  | .stderr => "Stderr"

def reportName : ReportKind → String
  | .formula => "print"
  | .clausalCore => "clausal_core"
  | .compactTrace => "compact_trace"
  | .extendedTrace => "extended_trace"

def report (k : ReportKind) : Call State Production := do
  note (reportName k)
  if k ≠ .formula then
    need .unsatisfiable
    if !(← Step.get).tracing then Step.abandon "engine aborted: tracing not enabled"
  pure (← Step.get).script.report

def engine : Engine State where
  add := add
  assume := assume
  solve := solve
  value := value
  varCount := varCount
  clauseCount := do pure (← Step.get).clauses
  failedAssumption := failedAssumption
  failedAssumptions := failedAssumptions
  inconsistent := do pure (← Step.get).script.inconsistent
  satisfiableSubset := satisfiableSubset
  setPropagationLimit := fun n => do
    note ("propagation_limit " ++ toString n)
    failWith? (← Step.get).script.limitError
  setVerbosity := fun n => note ("verbosity " ++ toString n)
  setLead := fun t => note ("prefix " ++ t)
  setOutput := fun o => note ("output " ++ outputName o)
  enableTracing := do
    note "trace_generation"
    failWith? (← Step.get).script.traceError
    Step.modify fun s => { s with tracing := true }
  report := report
  release := fun s => s.record "dropped"

end SatSession.Scripted
