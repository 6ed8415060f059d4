import SatSession.Proofs.Replay

set_option autoImplicit false

namespace SatSession

-- What holds of the engine whenever a session is not in the middle of an operation.
structure Replay.State.Fit (s : Replay.State) : Prop where
  closed : s.clause = #[]
  small : s.varCount ≤ maxVar
  covers : s.formula.varCount ≤ s.varCount
  assumed : ∀ l ∈ s.assumptions, l.var.number ≤ s.varCount

theorem Replay.State.Fit.decided {S : Cnf.Solver} {s : Replay.State} (fit : s.Fit)
    (messages : List Replay.Message) :
    ({ (s.decided S).2 with messages := messages } : Replay.State).Fit := by
  have assumed : ∀ l ∈ s.pending, l.var.number ≤ s.varCount :=
    fun l hl => fit.assumed l (State.mem_of_mem_pending hl)
  unfold State.decided
  cases s.verdict S <;> exact ⟨fit.closed, fit.small, fit.covers, assumed⟩

namespace Assignment

def blocker (a : Assignment) : Clause := Clause.ofNumbers (a.numbers.map (- ·))

theorem numbers_blocker {a : Assignment} (small : a.size ≤ maxVar + 1) :
    a.blocker.map Lit.number = a.numbers.map (- ·) := by
  refine Clause.map_number_ofNumbers fun n hn => ?_
  obtain ⟨m, hm, rfl⟩ := List.mem_map.mp hn
  have range : m.natAbs ∈ List.range' 1 (a.size - 1) :=
    a.natAbs_numbers ▸ List.mem_map_of_mem hm
  rw [List.mem_range'_1] at range
  rw [ne_eq, Lit.ofNumber?_eq_none]
  omega

theorem encodeLits_blocker {a : Assignment} (small : a.size ≤ maxVar + 1) :
    Stream.encodeLits a.blocker = Stream.blockingClause a := by
  rw [Stream.encodeLits, numbers_blocker small, Stream.blockingClause]

def ofModel (n : Nat) (lits : List Cnf.Literal) : Assignment :=
  .ofList (false :: (Replay.valuesOf n lits).toList.drop 1)

end Assignment

theorem Replay.size_valuesOf (n : Nat) (lits : List Cnf.Literal) :
    (Replay.valuesOf n lits).size = n + 1 := by
  unfold Replay.valuesOf
  generalize initial : Array.replicate (n + 1) false = values
  have size : values.size = n + 1 := by rw [← initial, Array.size_replicate]
  clear initial
  induction lits generalizing values with
  | nil => exact size
  | cons l lits ih => exact ih _ (by rw [Array.size_setIfInBounds, size])

theorem Assignment.size_ofModel (n : Nat) (lits : List Cnf.Literal) :
    (Assignment.ofModel n lits).size = n + 1 := by
  simp [ofModel, ofList, size, Replay.size_valuesOf]

def Cnf.Verdict.solution? (n : Nat) : Cnf.Verdict → Option Assignment
  | .model lits => some (.ofModel n lits)
  | _ => none

namespace Session

open Replay

section Calls

variable {σ α : Type} {s : Session σ}

theorem call_ok {x : Call σ α} {a : α} {e : σ} (done : x s.engine = (.ok a, e)) :
    call x s = (.ok a, { s with engine := e }) := by
  simp only [call, Step.zoom, Step.widen, done, Outcome.widen]

theorem callFallible_ok {x : Step σ EngineError α} {a : α} {e : σ}
    (done : x s.engine = (.ok a, e)) : callFallible x s = (.ok a, { s with engine := e }) := by
  simp only [callFallible, Step.zoom, Step.mapError, done, Outcome.mapError]

theorem callFallible_error {x : Step σ EngineError α} {c : EngineError} {e : σ}
    (failed : x s.engine = (.error c, e)) :
    callFallible x s = (.error (.ofEngine c), { s with engine := e }) := by
  simp only [callFallible, Step.zoom, Step.mapError, failed, Outcome.mapError]

theorem takeBuffer_lits {n : Nat} {ls : List Lit} (distinct : ls.Nodup)
    (small : ∀ l ∈ ls, l.var.number ≤ n) : takeBuffer n (Replay.buffer ls) s = (.ok ls, s) := by
  have read := Stream.readBuffer_encodeLits ls [] (length_le_of_nodup distinct small)
  have whole : Replay.buffer ls = Stream.encodeLits ls ++ [] := by rw [List.append_nil]; rfl
  rw [takeBuffer, whole, read]
  rfl

-- A batch that is rejected has only been in the stream, which is empty again.
theorem ingestClauses_invalid (E : Engine σ) (held : s.released = false) (idle : s.stream = [])
    {cs : List (List Int)} {n : Int}
    (invalid : Stream.invalid? (cs.flatMap Stream.encodeClause) = some n) :
    ingestClauses E cs s = (.error (.invalidLiteral n), s) := by
  have stream : s.stream ++ cs.flatMap Stream.encodeClause = cs.flatMap Stream.encodeClause := by
    rw [idle, List.nil_append]
  rw [ingestClauses, Step.bind_ok (ready_held held)]
  simp only [append, Step.bind_apply, Step.modify_apply, Step.get_apply, stream, invalid,
    Step.fail_apply]
  rw [← idle]

end Calls

variable (S : Cnf.Solver) {s : Session Replay.State} (fit : s.engine.Fit)
  (held : s.released = false)

theorem varCount_call : call (Replay.engine S).varCount s = (.ok s.engine.varCount, s) := rfl

include fit held

theorem flushStream_clauses (cs : List Clause) (stream : s.stream = cs.flatMap Stream.encodeLits) :
    flushStream (Replay.engine S) s = (.ok (), { s with
      engine := s.engine.ingestAll cs
      stream := []
      state := s.state.next .ingest }) := by
  have sent : call (addNumbers (Replay.engine S) s.stream) s =
      (.ok (), { s with engine := s.engine.ingestAll cs }) := by
    refine call_ok ?_
    rw [stream]
    exact addNumbers_clauses S cs fit.closed
  rw [flushStream, Step.bind_ok (ready_held held), Step.bind_ok (Step.get_apply s),
    Step.bind_ok sent]
  rfl

variable (idle : s.stream = [])

include idle

theorem ingestLits_eq (cs : List Clause) :
    ingestLits (Replay.engine S) cs s = (.ok (), { s with
      engine := s.engine.ingestAll cs
      state := s.state.next .ingest }) := by
  let loaded : Session Replay.State := { s with stream := s.stream ++ cs.flatMap Stream.encodeLits }
  have sent := flushStream_clauses S (s := loaded) fit held cs (by simp [loaded, idle])
  rw [ingestLits, Step.bind_ok (ready_held held)]
  refine Eq.trans sent ?_
  simp only [loaded, ← idle]

def clausesOf (cs : List (List Int)) : List Clause :=
  cs.map fun c => Clause.ofNumbers (c.takeWhile (· != 0))

omit fit held idle in
theorem numbers_clausesOf {cs : List (List Int)}
    (accepted : Stream.invalid? (cs.flatMap Stream.encodeClause) = none) :
    (clausesOf cs).map (·.map Lit.number) = cs.map fun c => c.takeWhile (· != 0) := by
  simp only [clausesOf, List.map_map]
  refine List.map_congr_left fun c hc => Clause.map_number_ofNumbers fun n hn none' => ?_
  have nonzero := List.all_eq_true.mp List.all_takeWhile n hn
  have within : n ∈ cs.flatMap Stream.encodeClause :=
    List.mem_flatMap.mpr ⟨c, hc, List.mem_append_left _ hn⟩
  have valid := List.find?_eq_none.mp accepted n within
  simp [none'] at valid
  simp [valid] at nonzero

theorem ingestClauses_eq (cs : List (List Int)) :
    ingestClauses (Replay.engine S) cs s =
      match Stream.invalid? (cs.flatMap Stream.encodeClause) with
      | some n => (.error (.invalidLiteral n), s)
      | none => (.ok (), { s with
          engine := s.engine.ingestAll (clausesOf cs)
          state := s.state.next .ingest }) := by
  cases checked : Stream.invalid? (cs.flatMap Stream.encodeClause) with
  | some n => exact ingestClauses_invalid (Replay.engine S) held idle checked
  | none =>
    let loaded : Session Replay.State := { s with stream := cs.flatMap Stream.encodeClause }
    have stream : s.stream ++ cs.flatMap Stream.encodeClause = loaded.stream := by
      rw [idle, List.nil_append]
    have load : ingestClauses (Replay.engine S) cs s = flushStream (Replay.engine S) loaded := by
      rw [ingestClauses, Step.bind_ok (ready_held held)]
      simp only [append, Step.bind_apply, Step.modify_apply, Step.get_apply, stream, loaded, checked]
    have encoded : (clausesOf cs).flatMap Stream.encodeLits = cs.flatMap Stream.encodeClause := by
      have encode (ds : List Clause) : ds.flatMap Stream.encodeLits =
          (ds.map (·.map Lit.number)).flatMap (· ++ [0]) := by
        rw [List.flatMap_map]
        rfl
      rw [encode, numbers_clausesOf checked, List.flatMap_map]
      rfl
    have sent := flushStream_clauses S (s := loaded) fit held (clausesOf cs) encoded.symm
    refine (load.trans sent).trans ?_
    simp only [loaded, ← idle]

theorem ingestBlocking_eq (a : Assignment) :
    ingestBlocking (Replay.engine S) a s =
      if a.size ≠ s.engine.varCount + 1 then (.error (.solutionLength a.size s.engine.varCount), s)
      else (.ok (), { s with
        engine := s.engine.ingest a.blocker
        state := s.state.next .ingest }) := by
  rw [ingestBlocking, Step.bind_ok (ready_held held), Step.bind_ok (varCount_call S)]
  by_cases size : a.size ≠ s.engine.varCount + 1
  · simp only [if_pos size, Step.fail_apply]
  · let loaded : Session Replay.State := { s with stream := s.stream ++ Stream.blockingClause a }
    have small : a.size ≤ maxVar + 1 := by
      have := fit.small
      omega
    have sent := flushStream_clauses S (s := loaded) fit held [a.blocker]
      (by simp [loaded, idle, Assignment.encodeLits_blocker small])
    simp only [if_neg size]
    refine Eq.trans sent ?_
    simp only [loaded, ← idle]
    rfl

omit fit held idle

theorem readValues_eq {values : Array Bool} (found : s.engine.outcome = .satisfiable values)
    (size : values.size ≤ maxVar + 1) {v n : Nat} (positive : 0 < v) (rest : v + n = values.size) :
    readValues (Replay.engine S) v n s = (.ok (values.toList.drop v), s) := by
  induction n generalizing v with
  | zero =>
    have nothing : values.toList.drop v = [] := List.drop_eq_nil_of_le (by simp; omega)
    rw [readValues, nothing]
    rfl
  | succ n ih =>
    have within : v < values.size := by omega
    have value := call_ok (s := s) (value_assigned found positive (by omega) within)
    have first : values.toList.drop v = values[v] :: values.toList.drop (v + 1) := by
      rw [List.drop_eq_getElem_cons (by simpa using within), Array.getElem_toList]
    have later := ih (v := v + 1) (by omega) (by omega)
    change readValues (Replay.engine S) (v + 1) n s = _ at later
    rw [readValues]
    refine (Step.bind_ok value _).trans ?_
    rw [first]
    cases values[v]
    · exact Step.bind_ok later _
    · exact Step.bind_ok later _

theorem readAssignment_eq {lits : List Cnf.Literal} (held : s.released = false)
    (small : s.engine.varCount ≤ maxVar)
    (found : s.engine.outcome = .satisfiable (valuesOf s.engine.varCount lits)) :
    readAssignment (Replay.engine S) s = (.ok (.ofModel s.engine.varCount lits), s) := by
  have size := size_valuesOf s.engine.varCount lits
  have values := readValues_eq S (n := s.engine.varCount) found (by omega) Nat.one_pos (by omega)
  rw [readAssignment, Step.bind_ok (ready_held held), Step.bind_ok (varCount_call S),
    Step.bind_ok values]
  rfl

include fit held

theorem runSolve_eq : ∃ messages, runSolve (Replay.engine S) s =
    (.ok ((s.engine.decided S).1, (s.engine.verdict S).solution? s.engine.varCount), { s with
      engine := { (s.engine.decided S).2 with messages := messages }
      state := s.state.next (.solved (s.engine.decided S).1) }) := by
  obtain ⟨messages, solved⟩ := solve_decided S fit.closed
  have called : callSolve (Replay.engine S) s = (.ok (s.engine.decided S).1, { s with
      engine := { (s.engine.decided S).2 with messages := messages }
      state := s.state.next (.solved (s.engine.decided S).1) }) := by
    have call := callFallible_ok (s := s) (x := (Replay.engine S).solve) solved
    simp only [callSolve, call]
  refine ⟨messages, ?_⟩
  rw [runSolve, Step.bind_ok (ready_held held), Step.bind_ok called]
  cases verdict : s.engine.verdict S with
  | model lits =>
    simp only [State.decided, verdict, conclude, if_true, Cnf.Verdict.solution?]
    refine Step.bind_ok (readAssignment_eq S ?_ ?_ ?_) _
    · exact held
    · exact fit.small
    · rfl
  | refuted failed => simp [State.decided, verdict, conclude, Cnf.Verdict.solution?]
  | exhausted => simp [State.decided, verdict, conclude, Cnf.Verdict.solution?]

include idle in
theorem runNext_found {lits : List Cnf.Literal} (found : s.engine.verdict S = .model lits) :
    ∃ messages, runNext (Replay.engine S) s =
      (.ok (some (.ofModel s.engine.varCount lits)), { s with
        engine := ({ (s.engine.decided S).2 with messages := messages } : Replay.State).ingest
          (Assignment.ofModel s.engine.varCount lits).blocker
        state := (s.state.next (.solved .satisfiable)).next .ingest }) := by
  obtain ⟨messages, solved⟩ := runSolve_eq S fit held
  have status : (s.engine.decided S).1 = .satisfiable := by rw [State.decided, found]; rfl
  have count : (s.engine.decided S).2.varCount = s.engine.varCount := by
    rw [State.decided, found]; rfl
  rw [found, status] at solved
  refine ⟨messages, ?_⟩
  rw [runNext, Step.bind_ok solved]
  simp only [Cnf.Verdict.solution?]
  have blocked := ingestBlocking_eq S (s := { s with
    engine := { (s.engine.decided S).2 with messages := messages }
    state := s.state.next (.solved .satisfiable) }) (fit.decided messages) held idle
    (.ofModel s.engine.varCount lits)
  have size : ¬(Assignment.ofModel s.engine.varCount lits).size ≠
      (s.engine.decided S).2.varCount + 1 := by
    rw [Assignment.size_ofModel, count, not_not]
  rw [if_neg size] at blocked
  rw [Step.bind_ok blocked]
  rfl

theorem runNext_ended (unsolved : (s.engine.verdict S).solution? s.engine.varCount = none) :
    ∃ messages, runNext (Replay.engine S) s = (.ok none, { s with
      engine := { (s.engine.decided S).2 with messages := messages }
      state := s.state.next (.solved (s.engine.decided S).1) }) := by
  obtain ⟨messages, solved⟩ := runSolve_eq S fit held
  rw [unsolved] at solved
  refine ⟨messages, ?_⟩
  rw [runNext, Step.bind_ok solved]
  cases (s.engine.decided S).1 <;> rfl

omit fit in
theorem runAssume_eq (l : Lit) :
    runAssume (Replay.engine S) l s = (.ok (), { s with
      engine := s.engine.assumed l
      state := s.state.next .assume }) := by
  have assumed := call_ok (s := s) (x := (Replay.engine S).assume l.number)
    (assume_number s.engine l)
  rw [runAssume, Step.bind_ok (ready_held held), Step.bind_ok assumed]
  rfl

def Blamed (s : Replay.State) (failed : List Lit) : Prop :=
  s.outcome = .unsatisfiable failed ∧ failed.Nodup ∧ ∀ l ∈ failed, l ∈ s.assumptions

theorem runFailedAssumptions_eq {failed : List Lit}
    (blamed : s.state.windowOpen = true → Blamed s.engine failed) :
    runFailedAssumptions (Replay.engine S) s =
      (.ok (if s.state.windowOpen then failed else []), s) := by
  rw [runFailedAssumptions, Step.bind_ok (Step.get_apply s), Step.bind_ok (ready_held held)]
  cases isOpen : s.state.windowOpen
  · rfl
  · obtain ⟨refuted, distinct, within⟩ := blamed isOpen
    have asked : call (Replay.engine S).failedAssumptions s = (.ok (Replay.buffer failed), s) := by
      refine call_ok (e := s.engine) ?_
      exact Step.bind_ok (refutation_known refuted) _
    simp only [if_true]
    rw [Step.bind_ok (varCount_call S), Step.bind_ok asked]
    exact takeBuffer_lits distinct fun l hl => fit.assumed l (within l hl)

omit fit held in
theorem failedAssumption_eq {failed : List Lit}
    (blamed : s.state.windowOpen = true → s.engine.outcome = .unsatisfiable failed) (l : Lit) :
    (do
      if (← Step.get).state.windowOpen then call ((Replay.engine S).failedAssumption l.number)
      else pure false : Op Replay.State Bool) s =
        (.ok (s.state.windowOpen && failed.contains l), s) := by
  rw [Step.bind_ok (Step.get_apply s)]
  cases isOpen : s.state.windowOpen with
  | false => rfl
  | true =>
    have asked : (Replay.engine S).failedAssumption l.number s.engine =
        (.ok (failed.contains l), s.engine) := by
      refine (Step.bind_ok (refutation_known (blamed isOpen)) _).trans ?_
      refine Step.bind_ok (t := s.engine) ?_ _
      simp [Step.ofOutcome, ofNumber_number]
    exact call_ok asked

omit fit held in
theorem inconsistent_call :
    call (Replay.engine S).inconsistent s = (.ok s.engine.inconsistent, s) := rfl

omit fit in
theorem runSubset_inconsistent (inconsistent : s.engine.inconsistent = true) (next : Bool) :
    runSubset (Replay.engine S) next s = (.ok [], s) := by
  rw [runSubset, Step.bind_ok (ready_held held), Step.bind_ok (inconsistent_call S)]
  simp only [inconsistent, if_true]
  rfl

omit fit in
theorem runSubset_consistent (consistent : s.engine.inconsistent = false) (next : Bool) :
    runSubset (Replay.engine S) next s =
      settling .subsetQuery (querySubset (Replay.engine S) next s.engine.varCount) s := by
  rw [runSubset, Step.bind_ok (ready_held held), Step.bind_ok (inconsistent_call S)]
  simp only [consistent, Bool.false_eq_true, if_false]
  exact Step.bind_ok (varCount_call S) _

omit fit in
theorem runSubset_error (consistent : s.engine.inconsistent = false) {next : Bool} {e : EngineError}
    (failed : Replay.satisfiableSubset S next s.engine = (.error e, s.engine)) :
    runSubset (Replay.engine S) next s =
      (.error (.ofEngine e), { s with state := s.state.next .subsetQuery }) := by
  have call := callFallible_error (s := s) (x := (Replay.engine S).satisfiableSubset next) failed
  rw [runSubset_consistent S held consistent, settling, querySubset, Step.bind_error call]

omit fit in
theorem runSubset_ok (consistent : s.engine.inconsistent = false) {next : Bool} {subset : List Lit}
    {e : Replay.State} (found : Replay.satisfiableSubset S next s.engine = (.ok (Replay.buffer subset), e))
    (distinct : subset.Nodup) (small : ∀ l ∈ subset, l.var.number ≤ s.engine.varCount) :
    runSubset (Replay.engine S) next s = (.ok subset, { s with
      engine := e
      state := s.state.next .subsetQuery }) := by
  have call := callFallible_ok (s := s) (x := (Replay.engine S).satisfiableSubset next) found
  rw [runSubset_consistent S held consistent, settling, querySubset, Step.bind_ok call,
    takeBuffer_lits distinct small]

theorem runSubset_cases (consistent : s.engine.inconsistent = false) (next : Bool) :
    (S.run s.engine.limit s.engine.clauses [] = .exhausted ∨
        (∃ model, S.run s.engine.limit s.engine.clauses [] = .model model) ∧
          greedy S s.engine [] s.engine.assumptions = .error searchFailed) ∧
      runSubset (Replay.engine S) next s =
        (.error (.ofEngine searchFailed), { s with state := s.state.next .subsetQuery }) ∨
    (∃ failed messages, S.run s.engine.limit s.engine.clauses [] = .refuted failed ∧
      runSubset (Replay.engine S) next s = (.ok [], { s with
        engine := { s.engine with
          outcome := .cleared
          inconsistent := true
          messages := messages }
        state := s.state.next .subsetQuery })) ∨
    ∃ model subset messages, S.run s.engine.limit s.engine.clauses [] = .model model ∧
      greedy S s.engine [] s.engine.assumptions = .ok subset ∧
      runSubset (Replay.engine S) next s = (.ok subset, { s with
        engine := { (if next then s.engine.blocked subset
          else { s.engine with outcome := .cleared } : Replay.State) with messages := messages }
        state := s.state.next .subsetQuery }) := by
  cases found : S.run s.engine.limit s.engine.clauses [] with
  | exhausted =>
    exact .inl ⟨.inl rfl, runSubset_error S held consistent (subset_exhausted consistent next found)⟩
  | refuted failed =>
    obtain ⟨messages, run⟩ := subset_refuted consistent next found
    refine .inr (.inl ⟨failed, messages, rfl, ?_⟩)
    exact runSubset_ok S held consistent run List.nodup_nil fun l hl => by simp at hl
  | model model =>
    cases search : greedy S s.engine [] s.engine.assumptions with
    | error e =>
      obtain rfl := greedy_error search
      have failed := subset_failed consistent next found search
      exact .inl ⟨.inr ⟨⟨model, rfl⟩, rfl⟩, runSubset_error S held consistent failed⟩
    | ok subset =>
      obtain ⟨messages, run⟩ := subset_found consistent next found search
      obtain ⟨within, distinct⟩ := greedy_within search
      refine .inr (.inr ⟨model, subset, messages, rfl, rfl, ?_⟩)
      refine runSubset_ok S held consistent run (distinct List.nodup_nil) fun l hl => ?_
      exact fit.assumed l ((within l hl).resolve_left List.not_mem_nil)

theorem produce_cases (k : ReportKind) (traced : s.tracing = true → s.engine.tracing = true)
    (blamed : s.state.windowOpen = true → ∃ failed, s.engine.outcome = .unsatisfiable failed) :
    (∃ e, (e = .notUnsatisfiable ∨ e = .tracingDisabled) ∧
      produce (Replay.engine S) k s = (.error e, s)) ∨
    ∃ r messages, (S.BlamesAssumptions → r.ending.Safe) ∧ produce (Replay.engine S) k s =
      (.ok r, { s with engine := { s.engine with messages := messages } }) := by
  have admitted : admits k s = (.ok (), s) ∧
      (k ≠ .formula → s.engine.tracing = true ∧ ∃ failed, s.engine.outcome = .unsatisfiable failed) ∨
      ∃ e, (e = .notUnsatisfiable ∨ e = .tracingDisabled) ∧ admits k s = (.error e, s) := by
    unfold admits
    split
    · split
      · exact .inl ⟨rfl, fun h => absurd rfl h⟩
      · exact .inr ⟨_, .inl rfl, rfl⟩
    · cases isOpen : s.state.windowOpen
      · exact .inr ⟨_, .inl rfl, rfl⟩
      · cases on : s.tracing
        · exact .inr ⟨_, .inr rfl, rfl⟩
        · exact .inl ⟨rfl, fun _ => ⟨traced on, blamed isOpen⟩⟩
  rcases admitted with ⟨pass, needs⟩ | ⟨e, kind, refused⟩
  · obtain ⟨messages, left⟩ := quiet_report S k s.engine
    have run : produce (Replay.engine S) k s = callReport (Replay.engine S) k s := by
      rw [produce, Step.bind_ok (ready_held held), Step.bind_ok pass]
    have called : (Replay.engine S).report k s.engine = Replay.report S k s.engine := rfl
    rw [run, callReport, called]
    rcases made : Replay.report S k s.engine with ⟨p | e | x, t⟩ <;> rw [made] at left <;>
      subst left
    · refine .inr ⟨p.toReport, messages, fun blames => Outcome.safe_ofEngine ?_, rfl⟩
      obtain ⟨p', produced, calm⟩ := report_produced blames k fit.assumed needs
      rw [made] at produced
      rwa [Outcome.ok.inj produced]
    · exact e.elim
    · refine .inr ⟨⟨[], .panic x, none⟩, messages, fun blames => ?_, rfl⟩
      obtain ⟨p', produced, _⟩ := report_produced blames k fit.assumed needs
      simp [made] at produced
  · refine .inl ⟨e, kind, ?_⟩
    rw [produce, Step.bind_ok (ready_held held), Step.bind_error refused]

end Session

end SatSession
