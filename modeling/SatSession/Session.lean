import SatSession.Engine
import SatSession.SolveState
import SatSession.Stream
import SatSession.Transfer

/-!
Sessions: serialized access to an engine. A session knows the engine's solve state and answers
queries that are undefined in it without calling the engine. An operation under the exclusive
lock that panics poisons the session; a deleted session holds no engine any more.
-/

set_option autoImplicit false

namespace SatSession

def Production.toReport (p : Production) : Report :=
  ⟨p.chunks, p.ending.mapError .ofEngine, p.wrapping⟩

structure Session (σ : Type) where
  -- The engine's last state; of an engine that was released it is only a record.
  engine : σ
  released : Bool
  poisoned : Bool
  state : SolveState
  tracing : Bool
  measureAllCalls : Bool
  timedCalls : Nat
  stream : List Int

namespace Session

variable {σ α : Type}

def configure (E : Engine σ) (c : Config) : Step σ EngineError Unit := do
  if 0 < c.propagationLimit then E.setPropagationLimit c.propagationLimit
  (E.setVerbosity c.verbosity).widen
  (E.setLead c.lead).widen
  (E.setOutput c.output).widen
  if c.traceGeneration then E.enableTracing

def create (E : Engine σ) (c : Config) (engine : σ) : Outcome Error (Session σ) × σ :=
  match configure E c engine with
  | (.ok _, e) => (.ok ⟨e, false, false, .noResult, c.traceGeneration, c.measureAllCalls, 0, []⟩, e)
  | (.error x, e) => (.error (.ofEngine x), E.release e)
  | (.panic p, e) => (.panic p, E.release e)

abbrev Op (σ α : Type) := Step (Session σ) Error α

def call (x : Call σ α) : Op σ α :=
  Step.zoom engine (fun s e => { s with engine := e }) x.widen

def callFallible (x : Step σ EngineError α) : Op σ α :=
  Step.zoom engine (fun s e => { s with engine := e }) (x.mapError Error.ofEngine)

def ready : Op σ Unit := fun s => if s.released then (.error .notReady, s) else (.ok (), s)

def event (e : Event) : Op σ Unit := Step.modify fun s => { s with state := s.state.next e }

def charge (timed : Bool) (s : Session σ) : Session σ :=
  if timed || s.measureAllCalls then { s with timedCalls := s.timedCalls + 1 } else s

def poison (s : Session σ) : Session σ := { s with poisoned := true }

def exclusive (timed : Bool) (x : Op σ α) : Op σ α := fun s =>
  if s.poisoned then (.error .poisoned, s)
  else
    match x s with
    | (.panic p, s) => (.panic p, s.poison)
    | (r, s) => (r, s.charge timed)

-- Runs an operation under the shared lock, which a panic does not poison.
def shared (x : Op σ α) : Op σ α := fun s =>
  if s.poisoned then (.error .poisoned, s) else x s

def addNumbers (E : Engine σ) : List Int → Call σ Unit
  | [] => pure ()
  | n :: ns => do
      E.add n
      addNumbers E ns

def flushStream (E : Engine σ) : Op σ Unit := do
  ready
  call (addNumbers E (← Step.get).stream)
  Step.modify fun s => { s with stream := [] }
  event .ingest

def append (ns : List Int) : Op σ Unit := Step.modify fun s => { s with stream := s.stream ++ ns }

def ingestClauses (E : Engine σ) (cs : List (List Int)) : Op σ Unit := do
  ready
  append (cs.flatMap Stream.encodeClause)
  match Stream.invalid? (← Step.get).stream with
  | some n =>
      Step.modify fun s => { s with stream := [] }
      Step.fail (.invalidLiteral n)
  | none => flushStream E

def ingestLits (E : Engine σ) (cs : List Clause) : Op σ Unit := do
  ready
  append (cs.flatMap Stream.encodeLits)
  flushStream E

def ingestBlocking (E : Engine σ) (a : Assignment) : Op σ Unit := do
  ready
  let n ← call E.varCount
  if a.size ≠ n + 1 then Step.fail (.solutionLength a.size n)
  else
    append (Stream.blockingClause a)
    flushStream E

def readValues (E : Engine σ) (v : Nat) : Nat → Op σ (List Bool)
  | 0 => pure []
  | n + 1 => do
      let x ← call (E.value v)
      if x = 0 then Step.fail (.unassignedVariable v)
      else
        let bs ← readValues E (v + 1) n
        pure (decide (0 < x) :: bs)

def readAssignment (E : Engine σ) : Op σ Assignment := do
  ready
  let n ← call E.varCount
  let bs ← readValues E 1 n
  pure (.ofList (false :: bs))

-- A solve call that fails leaves no result to query.
def callSolve (E : Engine σ) : Op σ Status := fun s =>
  match callFallible E.solve s with
  | (.ok st, s) => (.ok st, { s with state := s.state.next (.solved st) })
  | (.error e, s) => (.error e, { s with state := s.state.next (.solved .unknown) })
  | (.panic p, s) => (.panic p, s)

def runSolve (E : Engine σ) : Op σ (Status × Option Assignment) := do
  ready
  let st ← callSolve E
  if st = .satisfiable then
    let a ← readAssignment E
    pure (st, some a)
  else pure (st, none)

def runNext (E : Engine σ) : Op σ (Option Assignment) := do
  match ← runSolve E with
  | (.satisfiable, some a) =>
      ingestBlocking E a
      pure (some a)
  | _ => pure none

def runAssume (E : Engine σ) (l : Lit) : Op σ Unit := do
  ready
  call (E.assume l.number)
  event .assume

-- A bound for buffers of literals: each variable in both polarities.
def distinctLits (varCount : Nat) : Nat := 2 * varCount

def takeBuffer (varCount : Nat) (buffer : List Int) : Op σ (List Lit) :=
  match Stream.readBuffer buffer (distinctLits varCount) with
  | .ok ls => pure ls
  | .error e => Step.fail e

def runFailedAssumptions (E : Engine σ) : Op σ (List Lit) := do
  let windowOpen := (← Step.get).state.windowOpen
  ready
  if windowOpen then
    let n ← call E.varCount
    let buffer ← call E.failedAssumptions
    takeBuffer n buffer
  else pure []

def settling (e : Event) (x : Op σ α) : Op σ α := fun s =>
  match x s with
  | (.panic p, s) => (.panic p, s)
  | (r, s) => (r, { s with state := s.state.next e })

def querySubset (E : Engine σ) (next : Bool) (varCount : Nat) : Op σ (List Lit) := do
  let buffer ← callFallible (E.satisfiableSubset next)
  takeBuffer varCount buffer

def runSubset (E : Engine σ) (next : Bool) : Op σ (List Lit) := do
  ready
  if ← call E.inconsistent then pure []
  else
    let n ← call E.varCount
    settling .subsetQuery (querySubset E next n)

def admits (k : ReportKind) : Op σ Unit := fun s =>
  match k with
  | .formula =>
      if s.state.status = some .unsatisfiable then (.ok (), s) else (.error .notUnsatisfiable, s)
  | _ =>
      if !s.state.windowOpen then (.error .notUnsatisfiable, s)
      else if !s.tracing then (.error .tracingDisabled, s)
      else (.ok (), s)

def callReport (E : Engine σ) (k : ReportKind) : Op σ Report := fun s =>
  match E.report k s.engine with
  | (.ok p, e) => (.ok p.toReport, { s with engine := e })
  | (.panic p, e) => (.ok ⟨[], .panic p, none⟩, { s with engine := e })

def produce (E : Engine σ) (k : ReportKind) : Op σ Report := do
  ready
  admits k
  callReport E k

def runReport (E : Engine σ) (k : ReportKind) (d : Destination) (s : Session σ) :
    (Outcome Error Unit × Destination) × Session σ :=
  match produce E k s with
  | (.ok r, s) => (Transfer.redirect r d, s)
  | (.error e, s) => ((.error e, d), s)
  | (.panic p, s) => ((.panic p, d), s)

def addClauses (E : Engine σ) (cs : List (List Int)) : Op σ Unit :=
  exclusive false (ingestClauses E cs)

def addFormula (E : Engine σ) (f : Formula) : Op σ Unit :=
  exclusive false (ingestLits E f.clauses)

def addClause (E : Engine σ) (c : Clause) : Op σ Unit := exclusive false (ingestLits E [c])

def blockSolution (E : Engine σ) (a : Assignment) : Op σ Unit :=
  exclusive false (ingestBlocking E a)

def solve (E : Engine σ) : Op σ (Status × Option Assignment) := exclusive true (runSolve E)

def nextSolution (E : Engine σ) : Op σ (Option Assignment) := exclusive true (runNext E)

def assume (E : Engine σ) (l : Lit) : Op σ Unit := exclusive false (runAssume E l)

def failedAssumption (E : Engine σ) (l : Lit) : Op σ Bool := shared do
  ready
  if (← Step.get).state.windowOpen then call (E.failedAssumption l.number) else pure false

def failedAssumptions (E : Engine σ) : Op σ (List Lit) := exclusive false (runFailedAssumptions E)

def satisfiableSubset (E : Engine σ) (next : Bool) : Op σ (List Lit) :=
  exclusive false (runSubset E next)

def writeReport (E : Engine σ) (k : ReportKind) (d : Destination) (s : Session σ) :
    (Outcome Error Unit × Destination) × Session σ :=
  if s.poisoned then ((.error .poisoned, d), s)
  else
    match runReport E k d s with
    | ((.panic p, d), s) => ((.panic p, d), s.poison)
    | (r, s) => (r, s.charge false)

def varCount (E : Engine σ) : Op σ Nat := shared do
  ready
  call E.varCount

def clauseCount (E : Engine σ) : Op σ Nat := shared do
  ready
  call E.clauseCount

def lastStatus : Op σ (Option Status) := shared do
  ready
  pure (← Step.get).state.status

def elapsedIsZero : Op σ Bool := shared do
  ready
  pure ((← Step.get).timedCalls == 0)

def delete (E : Engine σ) (s : Session σ) : Bool × Session σ :=
  if s.released then (false, s)
  else (true, { s with engine := E.release s.engine, released := true })

def drop (E : Engine σ) (s : Session σ) : Session σ := (delete E s).2

theorem ready_held {s : Session σ} (held : s.released = false) : ready s = (.ok (), s) := by
  simp [ready, held]

theorem ready_released {s : Session σ} (released : s.released = true) :
    ready s = (.error .notReady, s) := by
  simp [ready, released]

theorem create_ok {E : Engine σ} {c : Config} {e e' : σ} {s : Session σ}
    (created : create E c e = (.ok s, e')) :
    s = ⟨e', false, false, .noResult, c.traceGeneration, c.measureAllCalls, 0, []⟩ := by
  unfold create at created
  split at created
  · cases created
    rfl
  · cases created
  · cases created

theorem charge_eq (timed : Bool) (s : Session σ) :
    ∃ calls, s.charge timed = { s with timedCalls := calls } := by
  unfold charge
  split
  · exact ⟨_, rfl⟩
  · exact ⟨s.timedCalls, rfl⟩

theorem exclusive_poisoned {s : Session σ} (poisoned : s.poisoned = true) (timed : Bool)
    (x : Op σ α) : exclusive timed x s = (.error .poisoned, s) := if_pos poisoned

theorem exclusive_sound {s : Session σ} (sound : s.poisoned = false) (timed : Bool) (x : Op σ α) :
    ∃ calls, exclusive timed x s = ((x s).1, { (x s).2 with
      poisoned := (x s).2.poisoned || (x s).1.isPanic, timedCalls := calls }) := by
  rw [exclusive, if_neg (by simp [sound])]
  rcases x s with ⟨a | e | p, t⟩
  · obtain ⟨calls, charged⟩ := charge_eq timed t
    exact ⟨calls, by simp [charged, Outcome.isPanic]⟩
  · obtain ⟨calls, charged⟩ := charge_eq timed t
    exact ⟨calls, by simp [charged, Outcome.isPanic]⟩
  · exact ⟨t.timedCalls, by simp [poison, Outcome.isPanic]⟩

theorem exclusive_ok {s t : Session σ} {x : Op σ α} {a : α} (sound : s.poisoned = false)
    (done : x s = (.ok a, t)) (timed : Bool) :
    ∃ calls, exclusive timed x s = (.ok a, { t with timedCalls := calls }) := by
  obtain ⟨calls, unlocked⟩ := exclusive_sound sound timed x
  refine ⟨calls, ?_⟩
  rw [unlocked, done]
  simp [Outcome.isPanic]

theorem exclusive_error {s t : Session σ} {x : Op σ α} {e : Error} (sound : s.poisoned = false)
    (failed : x s = (.error e, t)) (timed : Bool) :
    ∃ calls, exclusive timed x s = (.error e, { t with timedCalls := calls }) := by
  obtain ⟨calls, unlocked⟩ := exclusive_sound sound timed x
  refine ⟨calls, ?_⟩
  rw [unlocked, failed]
  simp [Outcome.isPanic]

theorem shared_poisoned {s : Session σ} (poisoned : s.poisoned = true) (x : Op σ α) :
    shared x s = (.error .poisoned, s) := if_pos poisoned

theorem shared_sound {s : Session σ} (sound : s.poisoned = false) (x : Op σ α) :
    shared x s = x s := if_neg (by simp [sound])

theorem ready_answered {β : Type} {s : Session σ} {f : Unit → Op σ β} {b : β}
    (answered : ((ready >>= f) s).1 = .ok b) : s.released = false := by
  cases released : s.released with
  | false => rfl
  | true =>
    rw [Step.bind_error (ready_released released)] at answered
    cases answered

theorem exclusive_answered {s : Session σ} {timed : Bool} {x : Op σ α} {a : α}
    (answered : (exclusive timed x s).1 = .ok a) : s.poisoned = false ∧ (x s).1 = .ok a := by
  cases poisoned : s.poisoned with
  | true =>
    rw [exclusive_poisoned poisoned] at answered
    cases answered
  | false =>
    obtain ⟨calls, unlocked⟩ := exclusive_sound poisoned timed x
    rw [unlocked] at answered
    exact ⟨rfl, answered⟩

theorem shared_answered {s : Session σ} {x : Op σ α} {a : α}
    (answered : (shared x s).1 = .ok a) : s.poisoned = false ∧ (x s).1 = .ok a := by
  cases poisoned : s.poisoned with
  | true =>
    rw [shared_poisoned poisoned] at answered
    cases answered
  | false =>
    rw [shared_sound poisoned] at answered
    exact ⟨rfl, answered⟩

theorem writeReport_poisoned {s : Session σ} (poisoned : s.poisoned = true) (E : Engine σ)
    (k : ReportKind) (d : Destination) : writeReport E k d s = ((.error .poisoned, d), s) :=
  if_pos poisoned

theorem writeReport_sound {s : Session σ} (sound : s.poisoned = false) (E : Engine σ)
    (k : ReportKind) (d : Destination) :
    ∃ calls, (writeReport E k d s).2 = { (produce E k s).2 with
      poisoned := (produce E k s).2.poisoned || (writeReport E k d s).1.1.isPanic,
      timedCalls := calls } := by
  have charged (t : Session σ) : ∃ calls, t.charge false =
      { t with poisoned := t.poisoned || false, timedCalls := calls } := by
    simpa using charge_eq false t
  have dropped (t : Session σ) : ∃ calls, t.poison =
      { t with poisoned := t.poisoned || true, timedCalls := calls } :=
    ⟨t.timedCalls, by simp [poison]⟩
  rw [writeReport, if_neg (by simp [sound]), runReport]
  rcases produce E k s with ⟨r | e | p, t⟩
  · rcases sent : Transfer.redirect r d with ⟨a | e | p, d'⟩ <;> simp only [sent]
    · exact charged t
    · exact charged t
    · exact dropped t
  · exact charged t
  · exact dropped t

end Session

end SatSession
