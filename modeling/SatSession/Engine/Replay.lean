import SatSession.Engine
import SatSession.Assignment
import SatSession.Dimacs.Writer
import SatSession.Cnf.Drat
import SatSession.Cnf.Solver

/-!
An engine that keeps a clause log and hands it to a fresh solver whenever a result is needed.
Assumptions hold for the next solve call only; they stay in place after it for queries, until the
next call that adds, assumes or solves.
-/

set_option autoImplicit false

namespace SatSession.Replay

inductive LastResult where
  | cleared
  | satisfiable (values : Array Bool)
  | unsatisfiable (failed : List Lit)
  | unknown

structure Message where
  output : Output
  text : String
deriving DecidableEq

structure State where
  formula : Formula := .empty
  clause : Array Lit := #[]
  varCount : Nat := 0
  assumptions : List Lit := []
  consumed : Bool := false
  outcome : LastResult := .cleared
  inconsistent : Bool := false
  limit : Nat := 0
  tracing : Bool := false
  verbosity : Nat := 0
  lead : String := "c "
  output : Output := .log
  messages : List Message := []

namespace State

def say (s : State) (level : Nat) (text : String) : State :=
  if s.verbosity < level then s
  else { s with messages := ⟨s.output, s.lead ++ text⟩ :: s.messages }

def touch (s : State) (n : Int) : State := { s with varCount := max s.varCount n.natAbs }

-- Starts a new list of assumptions if the current one was used by a solve call.
def renew (s : State) : State :=
  if s.consumed then { s with assumptions := [], consumed := false } else s

def pending (s : State) : List Lit := s.renew.assumptions

def pushClause (s : State) (c : Clause) : State :=
  { s with formula := s.formula.add c, inconsistent := s.inconsistent || c.isEmpty }

def clauses (s : State) : List Cnf.Clause := Cnf.ofClauses s.formula.clauses

end State

variable {ε : Type}

def litsText (ls : List Lit) : String := "[" ++ ", ".intercalate (ls.map Lit.text) ++ "]"

def add (n : Int) : Call State Unit := do
  Step.modify fun s => { s.renew with outcome := .cleared }
  if n = 0 then
    Step.modify fun s => { s.pushClause s.clause.toList with clause := #[] }
  else
    Step.modify (·.touch n)
    let l ← Step.ofOutcome (Lit.ofNumber n)
    Step.modify fun s => { s with clause := s.clause.push l }

def assume (n : Int) : Call State Unit := do
  Step.modify fun s => { s.renew with outcome := .cleared }
  Step.modify (·.touch n)
  let l ← Step.ofOutcome (Lit.ofNumber n)
  Step.modify fun s => { s with assumptions := s.assumptions ++ [l] }

-- The values of the variables up to `n`; a variable the model leaves out is false.
def valuesOf (n : Nat) (model : List Cnf.Literal) : Array Bool :=
  model.foldl (fun vs l => vs.setIfInBounds l.var l.positive) (Array.replicate (n + 1) false)

def conclude (s : State) : Cnf.Verdict → Status × State
  | .model lits => (.satisfiable, { s with outcome := .satisfiable (valuesOf s.varCount lits) })
  | .refuted failed =>
      let blamed := (s.assumptions.filter fun l => failed.contains (.ofLit l)).eraseDups
      (.unsatisfiable,
        { s with outcome := .unsatisfiable blamed, inconsistent := s.inconsistent || failed.isEmpty })
  | .exhausted => (.unknown, { s with outcome := .unknown })

def summary (status : Status) (s : State) : String :=
  status.text ++ " with " ++ toString s.assumptions.length ++ " assumptions, " ++
    toString s.varCount ++ " variables, " ++ toString s.formula.size ++ " clauses"

def solve (S : Cnf.Solver) : Step State EngineError Status := do
  if !(← Step.get).clause.isEmpty then Step.abandon "solve with an unterminated clause"
  Step.modify fun s => { s.renew with consumed := true }
  let s ← Step.get
  let (status, s) := conclude s (S.run s.limit s.clauses (s.assumptions.map .ofLit))
  Step.modify fun _ => s.say 1 (summary status s)
  pure status

def value (n : Int) : Call State Int := do
  match (← Step.get).outcome with
  | .satisfiable values =>
      let l ← Step.ofOutcome (Lit.ofNumber n)
      match values[l.var.number]? with
      | some b => pure (if b == l.isPositive then 1 else -1)
      | none => Step.ofOutcome (.panic .outOfRange)
  | _ => Step.abandon "deref requires a satisfiable result"

def refutation : Step State ε (List Lit) := do
  match (← Step.get).outcome with
  | .unsatisfiable failed => pure failed
  | _ => Step.abandon "failed assumption query requires an unsatisfiable result"

def failedAssumption (n : Int) : Call State Bool := do
  let failed ← refutation
  let l ← Step.ofOutcome (Lit.ofNumber n)
  pure (failed.contains l)

def buffer (ls : List Lit) : List Int := ls.map (·.number) ++ [0]

def searchFailed : EngineError := .message "propagation limit reached during subset search"

def greedy (S : Cnf.Solver) (s : State) (chosen : List Lit) :
    List Lit → Except EngineError (List Lit)
  | [] => .ok chosen
  | a :: as =>
      if chosen.contains a then greedy S s chosen as
      else
        match S.run s.limit s.clauses ((chosen ++ [a]).map .ofLit) with
        | .model _ => greedy S s (chosen ++ [a]) as
        | .refuted _ => greedy S s chosen as
        | .exhausted => .error searchFailed

def maximalSubset (S : Cnf.Solver) : Step State EngineError (List Lit) := do
  let s ← Step.get
  if s.inconsistent then Step.abandon "maximal satisfiable subset of an inconsistent formula"
  match S.run s.limit s.clauses [] with
  | .exhausted => Step.fail searchFailed
  | .refuted _ =>
      Step.modify fun s => { s with inconsistent := true }.say 2 "formula is inconsistent"
      pure []
  | .model _ =>
      match greedy S s [] s.assumptions with
      | .error e => Step.fail e
      | .ok subset =>
          Step.modify (·.say 2 ("maximal satisfiable subset of " ++
            toString s.assumptions.length ++ " assumptions: " ++ litsText subset))
          pure subset

def blocking (assumptions subset : List Lit) : Clause :=
  (assumptions.filter (!subset.contains ·)).eraseDups

def satisfiableSubset (S : Cnf.Solver) (next : Bool) : Step State EngineError (List Int) := do
  let subset ← maximalSubset S
  Step.modify fun s => { s with outcome := .cleared }
  let s ← Step.get
  if next && !s.inconsistent then
    let c := blocking s.assumptions subset
    Step.modify fun s => (s.say 2 ("blocking subset with " ++ litsText c)).pushClause c
  pure (buffer subset)

structure Core where
  clauses : List Clause
  failed : List Lit

def selector (base i : Nat) : Cnf.Literal := ⟨base + i + 1, true⟩

def selected (base : Nat) (cs : List Cnf.Clause) : List Cnf.Clause :=
  cs.zipIdx.map fun (c, i) => c ++ [(selector base i).neg]

def coreOf (s : State) (failed : List Cnf.Literal) : Outcome EngineError Core := do
  let (names, assumed) := failed.partition (s.varCount < ·.var)
  if names.any (s.varCount + s.formula.size < ·.var) then .panic .outOfRange
  else
    let ls ← Lit.ofNumbers (assumed.map Cnf.Literal.number)
    let cs := s.formula.clauses.zipIdx.filter fun (_, i) =>
      names.any fun l => l.var == s.varCount + i + 1
    pure ⟨cs.map (·.1), ls⟩

def core (S : Cnf.Solver) : Step State EngineError Core := do
  let s ← Step.get
  if !s.tracing then Step.abandon "clausal core requires trace generation to be enabled"
  if !(s.outcome matches .unsatisfiable _) then
    Step.abandon "clausal core requires an unsatisfiable result"
  let selectors := (List.range s.formula.size).map (selector s.varCount)
  match S.run 0 (selected s.varCount s.clauses) (selectors ++ s.assumptions.map .ofLit) with
  | .refuted failed =>
      let c ← Step.ofOutcome (coreOf s failed)
      Step.modify (·.say 2 ("clausal core of " ++ toString c.clauses.length ++ " out of " ++
        toString s.formula.size ++ " clauses"))
      pure c
  | _ => Step.fail (.message "clause log is satisfiable under the failed assumptions")

def producing (x : Step State EngineError Production) : Call State Production := fun s =>
  match x s with
  | (.ok p, s) => (.ok p, s)
  | (.error e, s) => (.ok ⟨[], .error e, none⟩, s)
  | (.panic p, s) => (.panic p, s)

def dimacs (h : Dimacs.Header) (cs : List Clause) : Production :=
  ⟨(Dimacs.pieces h cs).map Bytes.ofString, .ok (), none⟩

def traceOf (S : Cnf.Solver) (stepBytes : Cnf.Clause → Bytes) (c : Core) :
    Except EngineError Production :=
  match S.prove (Cnf.ofClauses c.clauses ++ Cnf.units (c.failed.map .ofLit)) with
  | none => .error (.message "clausal core is satisfiable")
  | some cs => .ok ⟨cs.map stepBytes, .ok (), some "Error writing proof file"⟩

def writeTrace (S : Cnf.Solver) (stepBytes : Cnf.Clause → Bytes) :
    Step State EngineError Production := do
  match traceOf S stepBytes (← core S) with
  | .ok p => pure p
  | .error e => Step.fail e

def report (S : Cnf.Solver) : ReportKind → Call State Production
  | .formula => do
      let s ← Step.get
      pure (dimacs ⟨s.varCount, s.formula.size⟩ s.formula.clauses)
  | .clausalCore => producing do
      let c ← core S
      pure (dimacs ⟨(← Step.get).varCount, c.clauses.length⟩ c.clauses)
  | .compactTrace => producing (writeTrace S Cnf.Drat.stepBytes)
  | .extendedTrace => producing (writeTrace S fun c => Bytes.ofString (Cnf.Drat.stepText c))

def enableTracing : Step State EngineError Unit := do
  let s ← Step.get
  if s.formula.size ≠ 0 ∨ s.clause.isEmpty = false then
    Step.fail (.message "trace generation must be enabled before adding clauses")
  else Step.modify fun s => { s with tracing := true }

def engine (S : Cnf.Solver) : Engine State where
  add := add
  assume := assume
  solve := solve S
  value := value
  varCount := do pure (← Step.get).varCount
  clauseCount := do pure (← Step.get).formula.size
  failedAssumption := failedAssumption
  failedAssumptions := do pure (buffer (← refutation))
  inconsistent := do pure (← Step.get).inconsistent
  satisfiableSubset := satisfiableSubset S
  setPropagationLimit := fun n => Step.modify fun s => { s with limit := n }
  setVerbosity := fun n => Step.modify fun s => { s with verbosity := n }
  setLead := fun t => Step.modify fun s => { s with lead := t }
  setOutput := fun o => Step.modify fun s => { s with output := o }
  enableTracing := enableTracing
  report := report S
  release := id

end SatSession.Replay
