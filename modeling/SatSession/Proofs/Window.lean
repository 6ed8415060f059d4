import Mathlib.Data.List.Induction
import SatSession.Proofs.Confluence
import SatSession.Proofs.Lifecycle

set_option autoImplicit false

namespace SatSession

variable {σ ε α β : Type}

def Outcome.isOk : Outcome ε α → Bool
  | .ok _ => true
  | _ => false

namespace EngineCall

def verdict? : EngineCall → Option Status
  | .solve (.ok st) => some st
  | .solve (.error _) => some .unknown
  | _ => none

def isSubsetQuery : EngineCall → Bool
  | .satisfiableSubset _ => true
  | _ => false

theorem Quiet.verdict? {k : EngineCall} (quiet : k.Quiet) : k.verdict? = none := by
  cases k <;> first | rfl | exact quiet.elim

theorem Quiet.isSubsetQuery {k : EngineCall} (quiet : k.Quiet) : k.isSubsetQuery = false := by
  cases k <;> first | rfl | exact quiet.elim

end EngineCall

def Operation.adds : Operation → Bool
  | .addClauses _ | .addFormula _ | .addClause _ | .blockSolution _ | .assume _ => true
  | _ => false

def Operation.solves : Operation → Bool
  | .solve | .advance _ => true
  | _ => false

namespace Entry

def solved? (x : Entry) : Option Status := x.calls.findSome? EngineCall.verdict?

def changes (x : Entry) : Bool :=
  x.operation.adds && x.answer.result.isOk || x.calls.any EngineCall.isSubsetQuery

def next (x : Entry) (s : SolveState) : SolveState :=
  match x.solved? with
  | some st => s.next (.solved st)
  | none => if x.changes then s.next .ingest else s

def Spares (x : Entry) : Prop :=
  x.operation.solves = false ∧
    (x.operation.adds = true → ∃ e, x.answer.result = .error e) ∧
    ∀ next, x.operation = .satisfiableSubset next → .inconsistent (.ok true) ∈ x.calls

end Entry

def lastSolve (past : List Entry) : Option Status := past.reverse.findSome? Entry.solved?

def RefutationStands (past : List Entry) : Prop :=
  ∃ before x after, past = before ++ x :: after ∧ x.solved? = some .unsatisfiable ∧
    ∀ y ∈ after, y.solved? = none ∧ y.changes = false

structure Entry.Follows (past : List Entry) (x : Entry) : Prop where
  lastStatus : x.operation = .lastStatus → x.answer.result = .ok (.status (lastSolve past))
  failedAssumption : ∀ l, x.operation = .failedAssumption l →
    (.failedAssumption l.number ∈ x.calls ↔ RefutationStands past) ∧
      (¬RefutationStands past → x.answer.result = .ok (.flag false) ∧ x.calls = [])
  failedAssumptions : x.operation = .failedAssumptions →
    (.failedAssumptions ∈ x.calls ↔ RefutationStands past) ∧
      (¬RefutationStands past → x.answer.result = .ok (.literals []) ∧ x.calls = [])
  report : ∀ k d, x.operation = .report k d → k ≠ .formula →
    (x.answer.result ≠ .error .notUnsatisfiable ↔ RefutationStands past)
  spares : x.Spares → lastSolve (past ++ [x]) = lastSolve past ∧
    (RefutationStands (past ++ [x]) ↔ RefutationStands past)

theorem lastSolve_concat (past : List Entry) (x : Entry) :
    lastSolve (past ++ [x]) = x.solved?.or (lastSolve past) := by
  rw [lastSolve, List.reverse_append, List.findSome?_append]
  cases solved : x.solved? <;> simp [solved, lastSolve]

theorem refutationStands_concat (past : List Entry) (x : Entry) :
    RefutationStands (past ++ [x]) ↔ x.solved? = some .unsatisfiable ∨
      x.solved? = none ∧ x.changes = false ∧ RefutationStands past := by
  constructor
  · rintro ⟨before, y, after, split, refuted, kept⟩
    rcases List.eq_nil_or_concat after with rfl | ⟨init, z, rfl⟩
    · obtain ⟨-, same⟩ := List.append_inj' split rfl
      obtain rfl := List.head_eq_of_cons_eq same
      exact .inl refuted
    · have cut : past ++ [x] = (before ++ y :: init) ++ [z] := by simp [split]
      obtain ⟨rfl, same⟩ := List.append_inj' cut rfl
      obtain rfl := List.head_eq_of_cons_eq same
      obtain ⟨unsolved, unchanged⟩ := kept x (by simp)
      have others : ∀ w ∈ init, w.solved? = none ∧ w.changes = false :=
        fun w hw => kept w (by simp [hw])
      exact .inr ⟨unsolved, unchanged, before, y, init, rfl, refuted, others⟩
  · rintro (refuted | ⟨unsolved, unchanged, before, y, after, rfl, refuted, kept⟩)
    · exact ⟨past, x, [], rfl, refuted, by simp⟩
    · refine ⟨before, y, after ++ [x], by simp, refuted, fun z hz => ?_⟩
      rcases List.mem_append.mp hz with earlier | last
      · exact kept z earlier
      · obtain rfl := List.mem_singleton.mp last
        exact ⟨unsolved, unchanged⟩

theorem not_refutationStands_nil : ¬RefutationStands [] := by
  rintro ⟨before, x, after, split, -⟩
  simp at split

def stateAfter (past : List Entry) : SolveState := past.foldl (fun s x => x.next s) .noResult

theorem stateAfter_concat (past : List Entry) (x : Entry) :
    stateAfter (past ++ [x]) = x.next (stateAfter past) := by
  rw [stateAfter, List.foldl_append]
  rfl

theorem status_stateAfter (past : List Entry) : (stateAfter past).status = lastSolve past := by
  induction past using List.reverseRecOn with
  | nil => rfl
  | append_singleton past x ih =>
    rw [stateAfter_concat, lastSolve_concat, ← ih, Entry.next]
    cases x.solved? with
    | some st => exact SolveState.status_next _ _
    | none =>
      cases x.changes <;> simp [SolveState.status_next]

theorem windowOpen_stateAfter (past : List Entry) :
    (stateAfter past).windowOpen = true ↔ RefutationStands past := by
  induction past using List.reverseRecOn with
  | nil => exact iff_of_false nofun not_refutationStands_nil
  | append_singleton past x ih =>
    rw [stateAfter_concat, refutationStands_concat, ← ih, Entry.next]
    cases x.solved? with
    | some st => simp [SolveState.windowOpen_next]
    | none => cases x.changes <;> simp [SolveState.windowOpen_next]

/-- What an operation does with the solve state, and the calls that show it. -/
inductive Entry.Accounts (x : Entry) (s t : SolveState) : Prop
  | quiet (quiet : ∀ k ∈ x.calls, k.Quiet)
      (state : t = if x.operation.adds && x.answer.result.isOk then s.next .ingest else s)
  | solved {st : Status} (solves : x.operation.solves = true) (solved : x.solved? = some st)
      (state : t = s.next (.solved st))
  | searched {next : Bool} (search : x.operation = .satisfiableSubset next)
      (consistent : .inconsistent (.ok true) ∉ x.calls) (unsolved : x.solved? = none)
      (searched : x.calls.any EngineCall.isSubsetQuery = true) (state : t = s.next .ingest)

namespace Entry

variable {x : Entry} {s t : SolveState}

theorem solved?_quiet (quiet : ∀ k ∈ x.calls, k.Quiet) : x.solved? = none :=
  List.findSome?_eq_none_iff.mpr fun k hk => (quiet k hk).verdict?

theorem searched_quiet (quiet : ∀ k ∈ x.calls, k.Quiet) :
    x.calls.any EngineCall.isSubsetQuery = false := by
  simpa using fun k hk => (quiet k hk).isSubsetQuery

theorem Accounts.next (accounts : x.Accounts s t) : t = x.next s := by
  rw [Entry.next]
  cases accounts with
  | quiet quiet state =>
    rw [solved?_quiet quiet, changes, searched_quiet quiet, Bool.or_false]
    exact state
  | solved solves solved state => simp only [solved, state]
  | searched search consistent unsolved searched state =>
    simp only [unsolved, changes, searched, Bool.or_true, if_true, state]

theorem Accounts.spares (accounts : x.Accounts s t) (spares : x.Spares) :
    x.solved? = none ∧ x.changes = false := by
  obtain ⟨idle, rejected, inconsistent⟩ := spares
  cases accounts with
  | quiet quiet state =>
    refine ⟨solved?_quiet quiet, ?_⟩
    rw [changes, searched_quiet quiet]
    cases adds : x.operation.adds
    · rfl
    · obtain ⟨e, failed⟩ := rejected adds
      simp [failed, Outcome.isOk]
  | solved solves => simp [idle] at solves
  | searched search consistent => exact absurd (inconsistent _ search) consistent

end Entry

namespace Session

variable {E : Engine σ} {state : SolveState}

structure Steady (state : SolveState) (s : Session (Observed σ)) : Prop where
  live : s.released = false
  quiet : ∀ k ∈ s.engine.calls, k.Quiet
  state : s.state = state

theorem steady_stable (state : SolveState) : Stable (σ := σ) (Steady state) where
  call quiet _ steady := ⟨steady.live, List.forall_mem_cons.mpr ⟨quiet, steady.quiet⟩, steady.state⟩
  stream _ steady := ⟨steady.live, steady.quiet, steady.state⟩

theorem Steady.event {s : Session (Observed σ)} (steady : Steady state s) (e : Event) :
    Steady (state.next e) { s with state := s.state.next e } :=
  ⟨steady.live, steady.quiet, congrArg (·.next e) steady.state⟩

structure Concluded (st : Status) (s : Session (Observed σ)) : Prop where
  solved : s.engine.calls.findSome? EngineCall.verdict? = some st
  state : s.state = SolveState.noResult.next (.solved st)

structure Searched (state : SolveState) (s : Session (Observed σ)) : Prop where
  consistent : .inconsistent (.ok true) ∉ s.engine.calls
  unsolved : s.engine.calls.findSome? EngineCall.verdict? = none
  searched : s.engine.calls.any EngineCall.isSubsetQuery = true
  state : s.state = state.next .ingest

theorem next_solved (s t : SolveState) (st : Status) :
    s.next (.solved st) = t.next (.solved st) := by
  cases st <;> rfl

theorem concluded_stable (st : Status) : Stable (σ := σ) (Concluded st) where
  call quiet _ concluded :=
    ⟨by rw [List.findSome?_cons, quiet.verdict?]; exact concluded.solved, concluded.state⟩
  stream _ concluded := ⟨concluded.solved, concluded.state⟩

theorem steady_solves (state : SolveState) :
    Solves (σ := σ) (Steady state) Concluded fun _ => True where
  answered st _ _ := ⟨rfl, next_solved _ _ st⟩
  failed _ _ _ := ⟨rfl, rfl⟩
  abandoned _ _ _ := trivial
  stable := concluded_stable
  blocked concluded := ⟨concluded.solved, by rw [concluded.state]; rfl⟩
  weaken _ _ := trivial

theorem querySubset_session (next : Bool) (n : Nat) (s : Session (Observed σ)) :
    ∃ e, (querySubset E.observed next n s).2 =
      { s with engine := ⟨e, .satisfiableSubset next :: s.engine.calls⟩ } := by
  have query : E.observed.satisfiableSubset next =
    observe (fun _ => .satisfiableSubset next) (E.satisfiableSubset next) := rfl
  simp only [querySubset, Step.bind_apply, callFallible, Step.zoom, Step.mapError, query, observe]
  rcases E.satisfiableSubset next s.engine.engine with ⟨buffer | e | p, t⟩
  · simp only [Outcome.mapError, takeBuffer]
    cases Stream.readBuffer buffer (distinctLits n) <;> exact ⟨t, rfl⟩
  · exact ⟨t, rfl⟩
  · exact ⟨t, rfl⟩

def called (I : α → Session (Observed σ) → Prop) : Outcome Error α → Session (Observed σ) → Prop
  | .ok a, s => I a s
  | .error _, _ => False
  | .panic _, _ => True

def calmly (I : Session (Observed σ) → Prop) (r : Outcome Error α) (s : Session (Observed σ)) :
    Prop := r.isPanic = false → I s

theorem calmly_panic {I : Session (Observed σ) → Prop} (p : Panic) (s : Session (Observed σ)) :
    calmly (α := α) I (.panic p) s := fun calm => Bool.noConfusion calm

theorem yields_call (record : Outcome Empty α → EngineCall) {x : Call σ α}
    {I : Session (Observed σ) → Prop} {J : α → Session (Observed σ) → Prop}
    (after : ∀ s a e, I s → J a { s with engine := ⟨e, record (.ok a) :: s.engine.calls⟩ }) :
    Yields I (call (observe record x)) (called J) := by
  intro s hs
  simp only [call, Step.zoom, Step.widen, observe]
  rcases x s.engine.engine with ⟨a | e | p, t⟩
  · exact after s a t hs
  · exact e.elim
  · trivial

theorem calmly_bind {I : Session (Observed σ) → Prop} {J : α → Session (Observed σ) → Prop}
    {K : Session (Observed σ) → Prop} {x : Op (Observed σ) α} {f : α → Op (Observed σ) β}
    (first : Yields I x (called J)) (rest : ∀ a, Yields (J a) (f a) (calmly K)) :
    Yields I (x >>= f) (calmly K) :=
  yields_bind first rest (fun _ _ h => h.elim) fun p s _ => calmly_panic p s

structure Asked (state : SolveState) (calls : List EngineCall) (s : Session (Observed σ)) : Prop
    extends Steady state s where
  calls : s.engine.calls = calls

theorem Asked.call {calls : List EngineCall} {s : Session (Observed σ)}
    (asked : Asked state calls s) {k : EngineCall} (quiet : k.Quiet) (e : σ) :
    Asked state (k :: calls) { s with engine := ⟨e, k :: s.engine.calls⟩ } :=
  ⟨(steady_stable _).call quiet e asked.toSteady, congrArg (k :: ·) asked.calls⟩

theorem runSubset_searches (state : SolveState) (next : Bool) :
    Yields (Asked state []) (runSubset E.observed next)
      (calmly fun s => Steady state s ∨ Searched state s) := by
  have checked : Yields (σ := σ) (Asked state []) (call E.observed.inconsistent)
      (called fun known => Asked state [.inconsistent (.ok known)]) :=
    yields_call .inconsistent fun _ known e asked =>
      asked.call (k := .inconsistent (.ok known)) trivial e
  intro s asked
  rw [runSubset, Step.bind_ok (ready_held asked.live)]
  refine calmly_bind checked (fun known => ?_) s asked
  split
  next => exact fun _ asked _ => .inl asked.toSteady
  next consistent =>
  have counted : Yields (Asked state [.inconsistent (.ok known)]) (call E.observed.varCount)
      (called fun n => Asked state [.varCount (.ok n), .inconsistent (.ok known)]) :=
    yields_call .varCount fun _ n e asked => asked.call (k := .varCount (.ok n)) trivial e
  refine calmly_bind counted fun n => ?_
  intro s asked
  obtain ⟨e, queried⟩ := querySubset_session (E := E) next n s
  have searched : Searched state { s with
      engine := ⟨e, .satisfiableSubset next :: s.engine.calls⟩
      state := s.state.next .subsetQuery } := by
    refine ⟨?_, ?_, ?_, congrArg (·.next .subsetQuery) asked.state⟩
    · simp [asked.calls, consistent]
    · simp [asked.calls, EngineCall.verdict?]
    · simp [EngineCall.isSubsetQuery]
  unfold settling
  rcases result : querySubset E.observed next n s with ⟨a | x | p, t⟩ <;> rw [result] at queried
  · obtain rfl : t = _ := queried
    exact fun _ => .inr searched
  · obtain rfl : t = _ := queried
    exact fun _ => .inr searched
  · exact calmly_panic p t

theorem Steady.lasting {s : Session (Observed σ)} (steady : Steady state s) (p : Bool) (n : Nat) :
    Steady state { s with poisoned := p, timedCalls := n } :=
  ⟨steady.live, steady.quiet, steady.state⟩

-- The lock changes nothing that a relation without locks and times says.
theorem Yields.exclusive {I : Session (Observed σ) → Prop} {x : Op (Observed σ) α}
    {Q : Outcome Error α → Session (Observed σ) → Prop} (yields : Yields I x Q)
    (lasting : ∀ r s p n, Q r s → Q r { s with poisoned := p, timedCalls := n }) (timed : Bool)
    {s : Session (Observed σ)} (hs : I s) (sound : s.poisoned = false) :
    Q (Session.exclusive timed x s).1 (Session.exclusive timed x s).2 := by
  obtain ⟨n, unlocked⟩ := exclusive_sound sound timed x
  rw [unlocked]
  exact lasting _ _ _ n (yields s hs)

end Session

namespace Client

open Session

variable {E : Engine σ}

theorem answer_committed {I J : Session (Observed σ) → Prop} {c : Client (Observed σ)}
    {x : Op (Observed σ) α} (ends : committed I J (x c.session).1 (x c.session).2)
    (reply : α → Reply) :
    committed I J (c.answer x reply).1.result (c.answer x reply).2.session := by
  unfold answer
  rcases result : x c.session with ⟨a | e | p, s⟩ <;> rw [result] at ends <;> exact ends

theorem answer_concluded {J : Status → Session (Observed σ) → Prop} {c : Client (Observed σ)}
    {x : Op (Observed σ) α} {status : α → Status → Prop} {reply : α → Reply}
    (ends : concluded J (fun _ => True) status (x c.session).1 (x c.session).2)
    (calm : (c.answer x reply).1.result.isPanic = false) :
    ∃ st, J st (c.answer x reply).2.session := by
  unfold answer at calm ⊢
  rcases result : x c.session with ⟨a | e | p, s⟩ <;> rw [result] at ends calm
  · exact ends.imp fun _ h => h.2
  · exact ends
  · exact Bool.noConfusion calm

section Accounts

variable {c : Client σ} {o : Operation} {state : SolveState}

theorem accounts_adds (adds : o.adds = true)
    (ends : committed (Steady state) (Steady (state.next .ingest))
      (c.observe.perform E.observed o).1.result (c.observe.perform E.observed o).2.session) :
    (c.entry E o).Accounts state (c.observe.perform E.observed o).2.session.state := by
  have same : (c.entry E o).operation = o := rfl
  rw [← entry_answer] at ends
  rcases result : (c.entry E o).answer.result with a | e | p <;> rw [result] at ends
  · exact .quiet ends.quiet (by rw [same, adds, result]; exact ends.state)
  · exact .quiet ends.quiet (by rw [same, adds, result]; exact ends.state)
  · exact .quiet ends.quiet (by rw [same, adds, result]; exact ends.state)

theorem accounts_query (other : o.adds = false)
    (steady : Steady state (c.observe.perform E.observed o).2.session) :
    (c.entry E o).Accounts state (c.observe.perform E.observed o).2.session.state :=
  .quiet steady.quiet (by rw [entry, other, steady.state]; rfl)

theorem accounts_solves (solves : o.solves = true)
    (concluded : ∃ st, Concluded st (c.observe.perform E.observed o).2.session) :
    (c.entry E o).Accounts state (c.observe.perform E.observed o).2.session.state :=
  have ⟨_, concluded⟩ := concluded
  .solved solves concluded.solved (concluded.state.trans (next_solved _ _ _))

theorem accounts_subset {next : Bool} (ends :
      Steady state (c.observe.perform E.observed (.satisfiableSubset next)).2.session ∨
        Searched state (c.observe.perform E.observed (.satisfiableSubset next)).2.session) :
    (c.entry E (.satisfiableSubset next)).Accounts state
      (c.observe.perform E.observed (.satisfiableSubset next)).2.session.state := by
  rcases ends with steady | searched
  · exact accounts_query rfl steady
  · exact .searched rfl searched.consistent searched.unsolved searched.searched searched.state

end Accounts

theorem committed_lasting {state t : SolveState} (r : Outcome Error α) (s : Session (Observed σ))
    (p : Bool) (n : Nat) (ends : committed (Steady state) (Steady t) r s) :
    committed (Steady state) (Steady t) r { s with poisoned := p, timedCalls := n } := by
  rcases r with a | e | q <;> exact ends.lasting p n

theorem concluded_lasting {status : α → Status → Prop} (r : Outcome Error α)
    (s : Session (Observed σ)) (p : Bool) (n : Nat)
    (ends : concluded Concluded (fun _ => True) status r s) :
    concluded Concluded (fun _ => True) status r { s with poisoned := p, timedCalls := n } := by
  rcases r with a | e | q
  · exact ends.imp fun _ h => ⟨h.1, h.2.solved, h.2.state⟩
  · exact ends.imp fun _ h => ⟨h.solved, h.state⟩
  · trivial

theorem calmly_lasting {state : SolveState} (r : Outcome Error α) (s : Session (Observed σ))
    (p : Bool) (n : Nat) (ends : calmly (fun s => Steady state s ∨ Searched state s) r s) :
    calmly (fun s => Steady state s ∨ Searched state s) r
      { s with poisoned := p, timedCalls := n } := fun calm =>
  (ends calm).imp (·.lasting p n) fun h => ⟨h.consistent, h.unsolved, h.searched, h.state⟩

theorem answer_calm {c : Client (Observed σ)} {x : Op (Observed σ) α} {reply : α → Reply}
    (calm : (c.answer x reply).1.result.isPanic = false) : (x c.session).1.isPanic = false := by
  unfold answer at calm
  rcases result : x c.session with ⟨a | e | p, s⟩ <;> rw [result] at calm <;> exact calm

theorem steady_writeReport {state : SolveState} {s : Session (Observed σ)} (steady : Steady state s)
    (sound : s.poisoned = false) (k : ReportKind) (d : Destination) :
    Steady state (writeReport E.observed k d s).2 := by
  obtain ⟨n, unlocked⟩ := writeReport_sound sound E.observed k d
  rw [unlocked]
  exact Steady.lasting (preserves_produce (steady_stable state) k s steady) _ n

theorem steady_shared {state : SolveState} {s : Session (Observed σ)} (steady : Steady state s)
    {f : Op (Observed σ) α} (preserves : Preserves (Steady state) f) :
    Steady state (shared (ready >>= fun _ => f) s).2 := by
  unfold Session.shared
  split
  · exact steady
  · exact preserves_bind preserves_ready (fun _ => preserves) s steady

theorem perform_accounts {c : Client σ} (live : c.session.released = false)
    (sound : c.session.poisoned = false) {o : Operation} (kept : o ≠ .delete)
    (calm : (c.entry E o).answer.result.isPanic = false) :
    (c.entry E o).Accounts c.session.state (c.perform E o).2.session.state := by
  have steady : Steady c.session.state c.observe.session := ⟨live, nofun, rfl⟩
  have stable := steady_stable (σ := σ) c.session.state
  have solves := steady_solves (σ := σ) c.session.state
  have settled (t : Session (Observed σ)) (steady : Steady c.session.state t) :=
    steady.event .ingest
  have adds {x : Op (Observed σ) Unit} (commits : Yields (Steady c.session.state) x
      (committed (Steady c.session.state) (Steady (c.session.state.next .ingest)))) :=
    commits.exclusive committed_lasting false steady sound
  rw [entry_answer] at calm
  rw [perform_session]
  change (c.entry E o).Accounts c.session.state (c.observe.perform E.observed o).2.session.state
  cases o with
  | addClauses cs =>
    exact accounts_adds rfl (answer_committed (adds (ingestClauses_commits stable settled cs)) _)
  | addFormula f =>
    exact accounts_adds rfl (answer_committed (adds (ingestLits_commits stable settled _)) _)
  | addClause k =>
    exact accounts_adds rfl (answer_committed (adds (ingestLits_commits stable settled _)) _)
  | blockSolution a =>
    exact accounts_adds rfl (answer_committed (adds (ingestBlocking_commits stable settled a)) _)
  | assume l =>
    exact accounts_adds rfl (answer_committed (adds (runAssume_commits stable settled l)) _)
  | solve =>
    have ends := (runSolve_concludes (E := E) solves fun _ h => h.live).exclusive concluded_lasting
      true steady sound
    exact accounts_solves rfl (answer_concluded ends calm)
  | advance i =>
    by_cases ended : i ∈ c.observe.ended
    · refine accounts_query rfl ?_
      rw [perform_ended_iterator ended]
      exact steady
    · have ends := (runNext_concludes (E := E) solves fun _ h => h.live).exclusive concluded_lasting
        true steady sound
      refine accounts_solves rfl ?_
      simp only [perform, advance, if_neg ended, nextSolution] at calm ⊢
      rcases result : exclusive true (runNext E.observed) c.observe.session with
        ⟨(a | a) | e | p, t⟩ <;> rw [result] at ends calm
      · exact ends.imp fun _ h => h.2
      · exact ends.imp fun _ h => h.2
      · exact ends
      · exact Bool.noConfusion calm
  | failedAssumption l =>
    refine accounts_query rfl (answer_session c.observe _ _ ▸ steady_shared steady ?_)
    refine yields_get fun s => preserves_ite ?_ (preserves_pure _)
    exact preserves_call stable (fun _ => .failedAssumption l.number) fun _ => trivial
  | failedAssumptions =>
    have ends := Yields.exclusive (preserves_runFailedAssumptions (E := E) stable)
      (fun _ _ p n h => h.lasting p n) false steady sound
    exact accounts_query rfl (answer_session c.observe _ _ ▸ ends)
  | satisfiableSubset next =>
    have ends := (runSubset_searches (E := E) c.session.state next).exclusive
      calmly_lasting false ⟨steady, rfl⟩ sound
    exact accounts_subset (answer_session c.observe _ _ ▸ ends (answer_calm calm))
  | report k d =>
    exact accounts_query rfl (report_session _ _ k d ▸ steady_writeReport steady sound k d)
  | varCount =>
    refine accounts_query rfl (answer_session c.observe _ _ ▸ steady_shared steady ?_)
    exact preserves_varCount stable
  | clauseCount =>
    refine accounts_query rfl (answer_session c.observe _ _ ▸ steady_shared steady ?_)
    exact preserves_call stable (fun _ => .clauseCount) fun _ => trivial
  | lastStatus =>
    refine accounts_query rfl (answer_session c.observe _ _ ▸ steady_shared steady ?_)
    exact yields_get fun s => preserves_pure _
  | elapsedIsZero =>
    refine accounts_query rfl (answer_session c.observe _ _ ▸ steady_shared steady ?_)
    exact yields_get fun s => preserves_pure _
  | delete => exact absurd rfl kept

structure Tracks (past : List Entry) (c : Client σ) : Prop where
  live : c.session.released = false
  sound : c.session.poisoned = false
  state : c.session.state = stateAfter past

theorem Tracks.perform {past : List Entry} {c : Client σ} (tracks : Tracks past c) {o : Operation}
    (kept : o ≠ .delete) (calm : (c.entry E o).answer.result.isPanic = false) :
    Tracks (past ++ [c.entry E o]) (c.perform E o).2 := by
  obtain ⟨released, poisoned⟩ := perform_flags (E := E) c o
  refine ⟨?_, ?_, ?_⟩
  · simpa [tracks.live, kept] using released
  · simpa [tracks.sound, calm] using poisoned
  · rw [stateAfter_concat, ← tracks.state]
    exact (perform_accounts tracks.live tracks.sound kept calm).next

theorem Tracks.windowOpen {past : List Entry} {c : Client σ} (tracks : Tracks past c) :
    c.session.state.windowOpen = true ↔ RefutationStands past := by
  rw [tracks.state, windowOpen_stateAfter]

theorem lastStatus_live {s : Session σ} (live : s.released = false) (sound : s.poisoned = false) :
    lastStatus s = (.ok s.state.status, s) := by
  rw [lastStatus, shared, if_neg (by simp [sound]), Step.bind_ok (ready_held live)]
  rfl

theorem failedAssumption_live {s : Session σ} (live : s.released = false)
    (sound : s.poisoned = false) (l : Lit) : failedAssumption E l s =
      if s.state.windowOpen then call (E.failedAssumption l.number) s else (.ok false, s) := by
  rw [failedAssumption, shared, if_neg (by simp [sound]), Step.bind_ok (ready_held live),
    Step.bind_ok (Step.get_apply s)]
  split <;> rfl

theorem runFailedAssumptions_closed {s : Session σ} (live : s.released = false)
    (closed : s.state.windowOpen = false) : runFailedAssumptions E s = (.ok [], s) := by
  rw [runFailedAssumptions, Step.bind_ok (Step.get_apply s), Step.bind_ok (ready_held live), closed]
  rfl

theorem runFailedAssumptions_open {s : Session (Observed σ)} (live : s.released = false)
    (isOpen : s.state.windowOpen = true) :
    calmly (fun s => .failedAssumptions ∈ s.engine.calls) (runFailedAssumptions E.observed s).1
      (runFailedAssumptions E.observed s).2 := by
  rw [runFailedAssumptions, Step.bind_ok (Step.get_apply s), Step.bind_ok (ready_held live),
    if_pos isOpen]
  refine calmly_bind (I := fun _ => True) (J := fun _ _ => True)
    (yields_call .varCount fun _ _ _ _ => trivial) (fun n => ?_) s trivial
  refine calmly_bind (J := fun _ s => .failedAssumptions ∈ s.engine.calls)
    (yields_call (fun _ => .failedAssumptions) fun _ _ _ _ => List.mem_cons_self) fun buffer => ?_
  exact fun s asked _ => preserves_takeBuffer (I := fun s => .failedAssumptions ∈ s.engine.calls)
    n buffer s asked

theorem produce_closed {s : Session σ} (live : s.released = false)
    (closed : s.state.windowOpen = false) {k : ReportKind} (kind : k ≠ .formula) :
    produce E k s = (.error .notUnsatisfiable, s) := by
  have refused : admits k s = (.error .notUnsatisfiable, s) := by
    cases k with
    | formula => exact absurd rfl kind
    | _ => simp [admits, closed]
  rw [produce, Step.bind_ok (ready_held live), Step.bind_error refused]

theorem produce_open {s : Session σ} (live : s.released = false)
    (isOpen : s.state.windowOpen = true) {k : ReportKind} (kind : k ≠ .formula) :
    produce E k s = (.error .tracingDisabled, s) ∨ ∃ r t, produce E k s = (.ok r, t) ∧
      ∀ e, r.ending = .error e → ∃ x, e = .ofEngine x := by
  rw [produce, Step.bind_ok (ready_held live)]
  cases on : s.tracing
  · have refused : admits k s = (.error .tracingDisabled, s) := by
      cases k with
      | formula => exact absurd rfl kind
      | _ => simp [admits, isOpen, on]
    exact .inl (Step.bind_error refused _)
  · have admitted : admits k s = (.ok (), s) := by
      cases k with
      | formula => exact absurd rfl kind
      | _ => simp [admits, isOpen, on]
    rw [Step.bind_ok admitted, callReport]
    rcases E.report k s.engine with ⟨p | x | p, e⟩
    · refine .inr ⟨_, _, rfl, fun x failed => ?_⟩
      cases ending : p.ending <;> simp [Production.toReport, ending, Outcome.mapError] at failed
      exact ⟨_, failed.symm⟩
    · exact x.elim
    · exact .inr ⟨_, _, rfl, fun _ failed => by cases failed⟩

theorem report_guarded {c : Client σ} (live : c.session.released = false)
    (sound : c.session.poisoned = false) {k : ReportKind} (kind : k ≠ .formula) (d : Destination) :
    (c.perform E (.report k d)).1.result ≠ .error .notUnsatisfiable ↔
      c.session.state.windowOpen = true := by
  cases isOpen : c.session.state.windowOpen
  · rw [perform_report_refused sound (produce_closed live isOpen kind)]
    simp
  · refine iff_of_true (fun refused => ?_) rfl
    rcases produce_open (E := E) live isOpen kind with disabled | ⟨r, t, produced, own⟩
    · rw [perform_report_refused sound disabled] at refused
      simp at refused
    · rw [perform_report sound produced] at refused
      rcases sent : Transfer.redirect r d with ⟨a | e | p, d'⟩ <;> simp only [sent] at refused
      · cases refused
      · obtain ⟨x, rfl⟩ := Transfer.redirect_error own (congrArg Prod.fst sent)
        cases x <;> simp [Error.ofEngine] at refused
      · cases refused

theorem entry_lastStatus {c : Client σ} (live : c.session.released = false)
    (sound : c.session.poisoned = false) : c.entry E .lastStatus =
      ⟨.lastStatus, ⟨.ok (.status c.session.state.status), []⟩, []⟩ := by
  have known := lastStatus_live (s := c.observe.session) live sound
  have performed : c.observe.perform E.observed .lastStatus = _ := answer_ok known .status
  exact entry_eq performed

section Asking

variable {c : Client σ} (live : c.session.released = false) (sound : c.session.poisoned = false)

include live sound

theorem failedAssumption_asks (isOpen : c.session.state.windowOpen = true) (l : Lit) :
    (c.entry E (.failedAssumption l)).calls = [.failedAssumption l.number] := by
  have asked := failedAssumption_live (E := E.observed) (s := c.observe.session) live sound l
  have calls : (c.entry E (.failedAssumption l)).calls =
      (failedAssumption E.observed l c.observe.session).2.engine.calls :=
    congrArg (·.engine.calls) (answer_session c.observe _ _)
  rw [calls, asked, if_pos (show c.observe.session.state.windowOpen = true from isOpen)]
  rfl

theorem failedAssumption_denies (closed : c.session.state.windowOpen = false) (l : Lit) :
    c.entry E (.failedAssumption l) = ⟨.failedAssumption l, ⟨.ok (.flag false), []⟩, []⟩ := by
  have asked := failedAssumption_live (E := E.observed) (s := c.observe.session) live sound l
  rw [if_neg (Bool.not_eq_true _ ▸ closed)] at asked
  have performed : c.observe.perform E.observed (.failedAssumption l) = _ := answer_ok asked .flag
  exact entry_eq performed

theorem failedAssumptions_asks (isOpen : c.session.state.windowOpen = true)
    (calm : (c.entry E .failedAssumptions).answer.result.isPanic = false) :
    .failedAssumptions ∈ (c.entry E .failedAssumptions).calls := by
  have asked : Yields (fun s => s.released = false ∧ s.state.windowOpen = true)
      (runFailedAssumptions E.observed) (calmly fun s => .failedAssumptions ∈ s.engine.calls) :=
    fun s hs => runFailedAssumptions_open hs.1 hs.2
  have ends := asked.exclusive (fun _ _ _ _ h => h) false (s := c.observe.session)
    ⟨live, isOpen⟩ sound
  rw [entry_answer] at calm
  have calls : (c.entry E .failedAssumptions).calls =
      (exclusive false (runFailedAssumptions E.observed) c.observe.session).2.engine.calls :=
    congrArg (·.engine.calls) (answer_session c.observe _ _)
  rw [calls]
  exact ends (answer_calm calm)

theorem failedAssumptions_deny (closed : c.session.state.windowOpen = false) :
    c.entry E .failedAssumptions = ⟨.failedAssumptions, ⟨.ok (.literals []), []⟩, []⟩ := by
  have known := runFailedAssumptions_closed (E := E.observed) (s := c.observe.session) live closed
  obtain ⟨n, unlocked⟩ := exclusive_sound (s := c.observe.session) sound false
    (runFailedAssumptions E.observed)
  rw [known] at unlocked
  have performed : c.observe.perform E.observed .failedAssumptions = _ :=
    answer_ok unlocked .literals
  exact entry_eq performed

end Asking

theorem Tracks.follows {past : List Entry} {c : Client σ} (tracks : Tracks past c) {o : Operation}
    (kept : o ≠ .delete) (calm : (c.entry E o).answer.result.isPanic = false) :
    (c.entry E o).Follows past where
  lastStatus same := by
    obtain rfl : o = .lastStatus := same
    rw [entry_lastStatus tracks.live tracks.sound, tracks.state, status_stateAfter]
  failedAssumption l same := by
    obtain rfl : o = .failedAssumption l := same
    rw [← tracks.windowOpen]
    cases isOpen : c.session.state.windowOpen
    · simp [failedAssumption_denies tracks.live tracks.sound isOpen]
    · simp [failedAssumption_asks tracks.live tracks.sound isOpen]
  failedAssumptions same := by
    obtain rfl : o = .failedAssumptions := same
    rw [← tracks.windowOpen]
    cases isOpen : c.session.state.windowOpen
    · simp [failedAssumptions_deny tracks.live tracks.sound isOpen]
    · simp [failedAssumptions_asks tracks.live tracks.sound isOpen calm]
  report k d same kind := by
    obtain rfl : o = .report k d := same
    rw [← tracks.windowOpen]
    exact report_guarded tracks.live tracks.sound kind d
  spares spares := by
    have accounts := perform_accounts tracks.live tracks.sound kept calm
    obtain ⟨unsolved, unchanged⟩ := accounts.spares spares
    rw [lastSolve_concat, refutationStands_concat, unsolved, unchanged]
    simp

end Client

/-- In every history of a session that is not deleted, and in which nothing panics, the last status
is that of the most recent solve call, and a refutation is queried or reported exactly as long as no
operation since has changed what it is about. Operations that add nothing leave both as they are. -/
theorem window_follows {E : Engine σ} {options : Config} {e e' : σ} {s : Session σ}
    (created : Session.create E options e = (.ok s, e')) {os : List Operation}
    (kept : .delete ∉ os)
    (calm : ∀ a ∈ (Client.run E ⟨s, []⟩ os).1, a.result.isPanic = false) :
    ∀ past x rest, Client.chronicle E ⟨s, []⟩ os = past ++ x :: rest → x.Follows past := by
  intro past x rest split
  have all : ∀ y ∈ Client.chronicle E ⟨s, []⟩ os,
      y.operation ≠ .delete ∧ y.answer.result.isPanic = false := by
    intro y hy
    constructor
    · rintro same
      rw [← Client.chronicle_operations E os ⟨s, []⟩] at kept
      exact kept (List.mem_map.mpr ⟨y, hy, same⟩)
    · rw [← Client.chronicle_answers] at calm
      exact calm _ (List.mem_map_of_mem hy)
  rw [split] at all
  obtain ⟨before, o, after, -, rfl, rfl⟩ := Client.chronicle_split split
  obtain rfl := Session.create_ok created
  have initial : Client.Tracks [] (⟨⟨e', false, false, .noResult, options.traceGeneration,
    options.measureAllCalls, 0, []⟩, []⟩ : Client σ) := ⟨rfl, rfl, rfl⟩
  have step (past : List Entry) (c : Client σ) (o : Operation) (tracks : Client.Tracks past c)
      (allowed : o ≠ .delete ∧ (c.entry E o).answer.result.isPanic = false) :=
    tracks.perform allowed.1 allowed.2
  have tracks := Client.chronicle_invariant step initial before
    fun y hy => all y (List.mem_append_left _ hy)
  obtain ⟨other, quiet⟩ := all _ (List.mem_append_right _ List.mem_cons_self)
  exact tracks.follows other quiet

-- A refutation that a clause ends, and a solve call that fails.
theorem window_closes :
    let e : Scripted.State :=
      ⟨{ failed := [-1, 0] }, [.status .unsatisfiable, .error (.message "limit")], 0, 0, none,
        false, false, []⟩
    let query := Operation.failedAssumption ⟨-1, by decide, by decide⟩
    let os : List Operation := [.lastStatus, .solve, query, .addClauses [], query, .lastStatus,
      .solve, .lastStatus]
    ∃ s e', Session.create Scripted.engine {} e = (.ok s, e') ∧ .delete ∉ os ∧
      (∀ a ∈ (Client.run Scripted.engine ⟨s, []⟩ os).1, a.result.isPanic = false) ∧
      (Client.run Scripted.engine ⟨s, []⟩ os).1.map (·.result) =
        [.ok (.status none), .ok (.solved .unsatisfiable none), .ok (.flag true), .ok .done,
          .ok (.flag false), .ok (.status (some .unsatisfiable)), .error (.engine "limit"),
          .ok (.status (some .unknown))] ∧
      ∀ past x rest, Client.chronicle Scripted.engine ⟨s, []⟩ os = past ++ x :: rest →
        x.Follows past := by
  intro e query os
  have created := (rfl : Session.create Scripted.engine {} e = (.ok _, _))
  have kept : .delete ∉ os := by simp [os, query]
  refine ⟨_, _, created, kept, ?_, rfl, window_follows created kept ?_⟩
  · decide
  · decide

end SatSession
