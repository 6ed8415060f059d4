import SatSession.Proofs.Safety

set_option autoImplicit false

namespace SatSession

open Replay

def Operation.given? : Operation → Option (List (List Int))
  | .addClauses cs => some (cs.map fun c => c.takeWhile (· != 0))
  | .addFormula f => some (f.clauses.map (·.map Lit.number))
  | .addClause c => some [c.map Lit.number]
  | _ => none

def Operation.Asks : Operation → Prop
  | .failedAssumption _ | .failedAssumptions | .report _ _ | .varCount | .clauseCount | .lastStatus
  | .elapsedIsZero | .delete => True
  | _ => False

inductive Effect (S : Cnf.Solver) (e : Replay.State) (state : SolveState) :
    Operation → Outcome Error Reply → Replay.State → SolveState → Prop
  | refused (o : Operation) (x : Error) : Effect S e state o (.error x) e state
  | asked {o : Operation} (asks : o.Asks) (r : Outcome Error Reply) : Effect S e state o r e state
  | ingested {o : Operation} (cs : List Clause)
      (given : o.given? = some (cs.map (·.map Lit.number))) :
      Effect S e state o (.ok .done) (e.ingestAll cs) (state.next .ingest)
  | blocked (a : Assignment) (size : a.size = e.varCount + 1) :
      Effect S e state (.blockSolution a) (.ok .done) (e.ingest a.blocker) (state.next .ingest)
  | assumed (l : Lit) :
      Effect S e state (.assume l) (.ok .done) (e.assumed l) (state.next .assume)
  | solved : Effect S e state .solve
      (.ok (.solved (e.decided S).1 ((e.verdict S).solution? e.varCount))) (e.decided S).2
      (state.next (.solved (e.decided S).1))
  | idle (i : Nat) : Effect S e state (.advance i) (.ok (.item none)) e state
  | yielded (i : Nat) {lits : List Cnf.Literal} (found : e.verdict S = .model lits) :
      Effect S e state (.advance i) (.ok (.item (some (.ofModel e.varCount lits))))
        ((e.decided S).2.ingest (Assignment.ofModel e.varCount lits).blocker)
        ((state.next (.solved .satisfiable)).next .ingest)
  | ended (i : Nat) : Effect S e state (.advance i) (.ok (.item none)) (e.decided S).2
      (state.next (.solved (e.decided S).1))
  | inconsistent (next : Bool) (known : e.inconsistent = true) :
      Effect S e state (.satisfiableSubset next) (.ok (.literals [])) e state
  | interrupted (next : Bool) (x : Error) :
      Effect S e state (.satisfiableSubset next) (.error x) e (state.next .subsetQuery)
  | refuted (next : Bool) {failed : List Cnf.Literal} (consistent : e.inconsistent = false)
      (found : S.run e.limit e.clauses [] = .refuted failed) :
      Effect S e state (.satisfiableSubset next) (.ok (.literals []))
        { e with outcome := .cleared, inconsistent := true } (state.next .subsetQuery)
  | extended (next : Bool) {lits : List Cnf.Literal} {subset : List Lit}
      (consistent : e.inconsistent = false) (found : S.run e.limit e.clauses [] = .model lits)
      (search : greedy S e [] e.assumptions = .ok subset) :
      Effect S e state (.satisfiableSubset next) (.ok (.literals subset))
        (if next then e.blocked subset else { e with outcome := .cleared })
        (state.next .subsetQuery)

namespace Session

variable {S : Cnf.Solver} {limit : Nat} {s t : Session Replay.State} {o : Operation}
  {r : Outcome Error Reply}

-- An operation ends with one of the effects; only the messages of the engine are not told.
def Ends (S : Cnf.Solver) (s : Session Replay.State) (o : Operation) (r : Outcome Error Reply)
    (t : Session Replay.State) : Prop :=
  ∃ e state messages, Effect S s.engine s.state o r e state ∧
    t.engine = { e with messages := messages } ∧ t.state = state

theorem Ends.refused (x : Error) : Ends S s o (.error x) s :=
  ⟨_, _, _, .refused o x, rfl, rfl⟩

theorem Ends.asked (asks : o.Asks) (messages : List Message)
    (engine : t.engine = { s.engine with messages := messages }) (state : t.state = s.state) :
    Ends S s o r t :=
  ⟨_, _, messages, .asked asks r, engine, state⟩

section Locks

variable {α : Type} {x : Op Replay.State α} {reply : α → Reply}

theorem Ends.exclusive (ends : Ends S s o (reply <$> (x s).1) (x s).2) (timed : Bool) :
    Ends S s o (reply <$> (exclusive timed x s).1) (exclusive timed x s).2 := by
  cases poisoned : s.poisoned with
  | true =>
    rw [exclusive_poisoned poisoned]
    exact Ends.refused .poisoned
  | false =>
    obtain ⟨calls, unlocked⟩ := exclusive_sound poisoned timed x
    rw [unlocked]
    exact ends

theorem Ends.shared (asks : o.Asks) (same : (x s).2 = s) :
    Ends S s o (reply <$> (shared x s).1) (shared x s).2 := by
  have left : (Session.shared x s).2 = s := by
    unfold Session.shared
    split
    · rfl
    · exact same
  exact Ends.asked asks s.engine.messages (by rw [left]) (by rw [left])

theorem ends_of_held (refuses : s.released = true → x s = (.error .notReady, s))
    (held : s.released = false → Ends S s o (reply <$> (x s).1) (x s).2) :
    Ends S s o (reply <$> (x s).1) (x s).2 := by
  cases released : s.released with
  | true =>
    rw [refuses released]
    exact Ends.refused .notReady
  | false => exact held released

end Locks

section Operations

variable (sound : Sound S limit s)

include sound

theorem ingestLits_ends {o : Operation} {cs : List Clause}
    (given : o.given? = some (cs.map (·.map Lit.number))) :
    Ends S s o ((fun _ => .done) <$> (ingestLits (Replay.engine S) cs s).1)
      (ingestLits (Replay.engine S) cs s).2 := by
  refine ends_of_held (fun released => Step.bind_error (ready_released released) _) fun held => ?_
  rw [ingestLits_eq S sound.engine.toFit held sound.idle cs]
  exact ⟨_, _, _, .ingested cs given, rfl, rfl⟩

theorem ingestClauses_ends (cs : List (List Int)) :
    Ends S s (.addClauses cs) ((fun _ => .done) <$> (ingestClauses (Replay.engine S) cs s).1)
      (ingestClauses (Replay.engine S) cs s).2 := by
  refine ends_of_held (fun released => Step.bind_error (ready_released released) _) fun held => ?_
  rw [ingestClauses_eq S sound.engine.toFit held sound.idle cs]
  cases checked : Stream.invalid? (cs.flatMap Stream.encodeClause) with
  | some n => exact Ends.refused (.invalidLiteral n)
  | none =>
    have given : (Operation.addClauses cs).given? =
        some ((clausesOf cs).map (·.map Lit.number)) := by
      rw [numbers_clausesOf checked]
      rfl
    exact ⟨_, _, _, .ingested _ given, rfl, rfl⟩

theorem ingestBlocking_ends (a : Assignment) :
    Ends S s (.blockSolution a) ((fun _ => .done) <$> (ingestBlocking (Replay.engine S) a s).1)
      (ingestBlocking (Replay.engine S) a s).2 := by
  refine ends_of_held (fun released => Step.bind_error (ready_released released) _) fun held => ?_
  rw [ingestBlocking_eq S sound.engine.toFit held sound.idle a]
  by_cases size : a.size ≠ s.engine.varCount + 1
  · rw [if_pos size]
    exact Ends.refused _
  · rw [if_neg size]
    exact ⟨_, _, _, .blocked a (not_not.mp size), rfl, rfl⟩

theorem runSolve_ends :
    Ends S s .solve ((fun (st, a) => .solved st a) <$> (runSolve (Replay.engine S) s).1)
      (runSolve (Replay.engine S) s).2 := by
  refine ends_of_held (fun released => Step.bind_error (ready_released released) _) fun held => ?_
  obtain ⟨messages, solved⟩ := runSolve_eq S sound.engine.toFit held
  rw [solved]
  exact ⟨_, _, messages, .solved, rfl, rfl⟩

theorem runNext_ends (i : Nat) :
    Ends S s (.advance i) (.item <$> (runNext (Replay.engine S) s).1)
      (runNext (Replay.engine S) s).2 := by
  have refuses (released : s.released = true) :
      runNext (Replay.engine S) s = (.error .notReady, s) :=
    Step.bind_error (Step.bind_error (ready_released released) _) _
  refine ends_of_held refuses fun held => ?_
  have stops (unsolved : (s.engine.verdict S).solution? s.engine.varCount = none) :
      Ends S s (.advance i) (.item <$> (runNext (Replay.engine S) s).1)
        (runNext (Replay.engine S) s).2 := by
    obtain ⟨messages, run⟩ := runNext_ended S sound.engine.toFit held unsolved
    rw [run]
    exact ⟨_, _, messages, .ended i, rfl, rfl⟩
  cases verdict : s.engine.verdict S with
  | model lits =>
    obtain ⟨messages, run⟩ := runNext_found S sound.engine.toFit held sound.idle verdict
    rw [run]
    refine ⟨_, _, messages, .yielded i verdict, ?_, rfl⟩
    rw [State.decided_model verdict]
    rfl
  | refuted failed => exact stops (by rw [verdict]; rfl)
  | exhausted => exact stops (by rw [verdict]; rfl)

omit sound in
theorem runAssume_ends (l : Lit) :
    Ends S s (.assume l) ((fun _ => .done) <$> (runAssume (Replay.engine S) l s).1)
      (runAssume (Replay.engine S) l s).2 := by
  refine ends_of_held (fun released => Step.bind_error (ready_released released) _) fun held => ?_
  rw [runAssume_eq S held l]
  exact ⟨_, _, _, .assumed l, rfl, rfl⟩

theorem runFailedAssumptions_ends :
    Ends S s .failedAssumptions (.literals <$> (runFailedAssumptions (Replay.engine S) s).1)
      (runFailedAssumptions (Replay.engine S) s).2 := by
  have refuses (released : s.released = true) :
      runFailedAssumptions (Replay.engine S) s = (.error .notReady, s) :=
    (Step.bind_ok (Step.get_apply s) _).trans (Step.bind_error (ready_released released) _)
  refine ends_of_held refuses fun held => ?_
  obtain ⟨failed, known⟩ := runFailedAssumptions_known sound held
  rw [known]
  exact Ends.asked trivial s.engine.messages rfl rfl

theorem runSubset_ends (next : Bool) :
    Ends S s (.satisfiableSubset next) (.literals <$> (runSubset (Replay.engine S) next s).1)
      (runSubset (Replay.engine S) next s).2 := by
  refine ends_of_held (fun released => Step.bind_error (ready_released released) _) fun held => ?_
  cases consistent : s.engine.inconsistent with
  | true =>
    rw [runSubset_inconsistent S held consistent next]
    exact ⟨_, _, _, .inconsistent next consistent, rfl, rfl⟩
  | false =>
    rcases runSubset_cases S sound.engine.toFit held consistent next with
      ⟨_, run⟩ | ⟨failed, messages, found, run⟩ | ⟨lits, subset, messages, found, search, run⟩
    · rw [run]
      exact ⟨_, _, _, .interrupted next _, rfl, rfl⟩
    · rw [run]
      exact ⟨_, _, messages, .refuted next consistent found, rfl, rfl⟩
    · rw [run]
      exact ⟨_, _, messages, .extended next consistent found search, rfl, rfl⟩

theorem writeReport_ends (k : ReportKind) (d : Destination) (r : Outcome Error Reply) :
    Ends S s (.report k d) r (writeReport (Replay.engine S) k d s).2 := by
  obtain ⟨messages, left⟩ := produce_leaves sound k
  cases poisoned : s.poisoned with
  | true =>
    rw [writeReport_poisoned poisoned]
    exact Ends.asked trivial s.engine.messages rfl rfl
  | false =>
    obtain ⟨calls, unlocked⟩ := writeReport_sound poisoned (Replay.engine S) k d
    rw [unlocked, left]
    exact Ends.asked trivial messages rfl rfl

end Operations

end Session

namespace Client

open Session

variable {S : Cnf.Solver} {limit : Nat} {c : Client Replay.State} {o : Operation} {α : Type}

theorem answer_ends {x : Op Replay.State α} {reply : α → Reply}
    (ends : Ends S c.session o (reply <$> (x c.session).1) (x c.session).2) :
    Ends S c.session o (c.answer x reply).1.result (c.answer x reply).2.session := by
  unfold answer
  rcases run : x c.session with ⟨a | e | p, t⟩ <;> rw [run] at ends <;> exact ends

theorem advance_ends (sound : Sound S limit c.session) (i : Nat) :
    Ends S c.session (.advance i) (c.advance (Replay.engine S) i).1.result
      (c.advance (Replay.engine S) i).2.session := by
  have ends := (runNext_ends sound i).exclusive true
  change Ends S c.session _ (.item <$> (nextSolution (Replay.engine S) c.session).1)
    (nextSolution (Replay.engine S) c.session).2 at ends
  unfold advance
  split
  · exact ⟨_, _, c.session.engine.messages, .idle i, rfl, rfl⟩
  · rcases run : nextSolution (Replay.engine S) c.session with ⟨(_ | a) | e | p, t⟩ <;>
      rw [run] at ends <;> exact ends

/-- Every operation ends with one of the effects. -/
theorem perform_ends (sound : Sound S limit c.session) (o : Operation) :
    Ends S c.session o (c.perform (Replay.engine S) o).1.result
      (c.perform (Replay.engine S) o).2.session := by
  have query {β : Type} {f : Op Replay.State β} (known : ∃ a, f c.session = (.ok a, c.session)) :
      (((ready : Op Replay.State Unit) >>= fun _ => f) c.session).2 = c.session := by
    obtain ⟨a, answered⟩ := known
    cases released : c.session.released with
    | true => rw [Step.bind_error (ready_released released)]
    | false => rw [Step.bind_ok (ready_held released), answered]
  cases o with
  | addClauses cs => exact answer_ends ((ingestClauses_ends sound cs).exclusive false)
  | addFormula f => exact answer_ends ((ingestLits_ends sound rfl).exclusive false)
  | addClause k => exact answer_ends ((ingestLits_ends sound rfl).exclusive false)
  | blockSolution a => exact answer_ends ((ingestBlocking_ends sound a).exclusive false)
  | solve => exact answer_ends ((runSolve_ends sound).exclusive true)
  | advance i => exact advance_ends sound i
  | assume l => exact answer_ends ((runAssume_ends l).exclusive false)
  | failedAssumption l =>
    exact answer_ends (Ends.shared trivial (query (failedAssumption_known sound l)))
  | failedAssumptions => exact answer_ends ((runFailedAssumptions_ends sound).exclusive false)
  | satisfiableSubset next => exact answer_ends ((runSubset_ends sound next).exclusive false)
  | report k d =>
    exact report_session _ c k d ▸ writeReport_ends sound k d _
  | varCount => exact answer_ends (Ends.shared trivial (query ⟨_, rfl⟩))
  | clauseCount => exact answer_ends (Ends.shared trivial (query ⟨_, rfl⟩))
  | lastStatus => exact answer_ends (Ends.shared trivial (query ⟨_, rfl⟩))
  | elapsedIsZero => exact answer_ends (Ends.shared trivial (query ⟨_, rfl⟩))
  | delete =>
    refine Ends.asked trivial c.session.engine.messages ?_ ?_
    · simp only [perform, withSession, delete]
      split <;> rfl
    · simp only [perform, withSession, delete]
      split <;> rfl

end Client

end SatSession
