import SatSession.Engine.Scripted
import SatSession.Proofs.Chronicle

set_option autoImplicit false

namespace SatSession

variable {σ α β : Type}

def Operation.exclusive : Operation → Bool
  | .failedAssumption _ | .varCount | .clauseCount | .lastStatus | .elapsedIsZero | .delete => false
  | _ => true

inductive Phase where
  | ready
  | deleted
  -- Deleted later or not.
  | poisoned
deriving DecidableEq

namespace Phase

def next (p : Phase) (x : Entry) : Phase :=
  match p, x.operation with
  | ready, .delete => deleted
  | ready, o => if o.exclusive && x.answer.result.isPanic then poisoned else ready
  | p, _ => p

def refusal? : Phase → Option Error
  | ready => none
  | deleted => some .notReady
  | poisoned => some .poisoned

def after (past : List Entry) : Phase := past.foldl next ready

theorem after_concat (past : List Entry) (x : Entry) :
    after (past ++ [x]) = (after past).next x := by
  rw [after, List.foldl_append]
  rfl

theorem next_other {x : Entry} (other : x.operation ≠ .delete) (p : Phase) : p.next x =
    if p = ready ∧ x.operation.exclusive ∧ x.answer.result.isPanic then poisoned else p := by
  unfold next
  split <;> simp_all

end Phase

def Entry.Ends (i : Nat) (x : Entry) : Prop :=
  x.operation = .advance i ∧
    (x.answer.result = .ok (.item none) ∨ ∃ e, x.answer.result = .error e)

structure Entry.Orderly (past : List Entry) (x : Entry) : Prop where
  refused : ∀ e, (Phase.after past).refusal? = some e → x.operation ≠ .delete →
    (∀ i, x.operation = .advance i → ∀ y ∈ past, ¬y.Ends i) →
    x.answer.result = .error e ∧ x.calls = []
  ended : ∀ i, x.operation = .advance i → (∃ y ∈ past, y.Ends i) →
    x.answer.result = .ok (.item none) ∧ x.calls = []
  firstDelete : x.operation = .delete → (∀ y ∈ past, y.operation ≠ .delete) →
    x.answer.result = .ok (.flag true) ∧ x.calls = [.release]
  deleteAgain : x.operation = .delete → (∃ y ∈ past, y.operation = .delete) →
    x.answer.result = .ok (.flag false) ∧ x.calls = []

namespace Session

variable {E : Engine σ}

def phase (s : Session σ) : Phase :=
  if s.poisoned then .poisoned else if s.released then .deleted else .ready

structure Held (s : Session (Observed σ)) : Prop where
  live : s.released = false
  sound : s.poisoned = false
  kept : EngineCall.release ∉ s.engine.calls

theorem Held.call {s : Session (Observed σ)} (held : Held s) {k : EngineCall} (e : σ)
    (other : k ≠ .release) : Held { s with engine := ⟨e, k :: s.engine.calls⟩ } where
  live := held.live
  sound := held.sound
  kept same := (List.mem_cons.mp same).elim (fun h => other h.symm) held.kept

theorem Held.state {s : Session (Observed σ)} (held : Held s) (state : SolveState) :
    Held { s with state := state } := ⟨held.live, held.sound, held.kept⟩

theorem held_stable : Stable (σ := σ) Held where
  call quiet e held := held.call e (by rintro rfl; exact quiet)
  stream _ held := ⟨held.live, held.sound, held.kept⟩

theorem held_solves : Solves (σ := σ) Held (fun _ => Held) Held where
  answered st e held := (held.call (k := .solve (.ok st)) e nofun).state _
  failed x e held := (held.call (k := .solve (.error x)) e nofun).state _
  abandoned _ e held := held.call e nofun
  stable _ := held_stable
  blocked held := held.state _
  weaken _ held := held

theorem preserves_of_concludes {x : Op (Observed σ) α} {status : α → Status → Prop}
    (concludes : Yields Held x (concluded (fun _ => Held) Held status)) : Preserves Held x := by
  intro s held
  have ends := concludes s held
  rcases result : x s with ⟨a | e | p, t⟩ <;> rw [result] at ends
  · exact ends.elim fun _ h => h.2
  · exact ends.elim fun _ h => h
  · exact ends

theorem held_runSubset (next : Bool) : Preserves Held (runSubset E.observed next) := by
  refine preserves_bind preserves_ready fun _ => preserves_bind ?_ fun known => ?_
  · exact preserves_call held_stable .inconsistent fun _ => trivial
  refine preserves_ite (preserves_pure []) ?_
  refine preserves_bind (preserves_varCount held_stable) fun n => ?_
  have queried : Preserves Held (querySubset E.observed next n) := by
    refine preserves_bind ?_ fun buffer => preserves_takeBuffer n buffer
    exact fun s held => held.call _ nofun
  intro s held
  have kept := queried s held
  unfold settling
  rcases result : querySubset E.observed next n s with ⟨a | e | p, t⟩ <;> rw [result] at kept
  · exact kept.state _
  · exact kept.state _
  · exact kept

structure Guarded (x : Op (Observed σ) α) : Prop where
  refuses : ∀ s, s.released = true → x s = (.error .notReady, s)
  holds : Preserves Held x

theorem guarded_ready {f : Unit → Op (Observed σ) α} (holds : Preserves Held (ready >>= f)) :
    Guarded (ready >>= f) where
  refuses _ released := Step.bind_error (ready_released released) f
  holds := holds

theorem guarded_query {f : Op (Observed σ) α} (holds : Preserves Held f) :
    Guarded (ready >>= fun _ => f) :=
  guarded_ready (preserves_bind preserves_ready fun _ => holds)

theorem guarded_ingestClauses (cs : List (List Int)) : Guarded (ingestClauses E.observed cs) :=
  guarded_ready <| preserves_of_commits <|
    ingestClauses_commits held_stable (fun _ held => held.state _) cs

theorem guarded_ingestLits (cs : List Clause) : Guarded (ingestLits E.observed cs) :=
  guarded_ready <| preserves_of_commits <|
    ingestLits_commits held_stable (fun _ held => held.state _) cs

theorem guarded_ingestBlocking (a : Assignment) : Guarded (ingestBlocking E.observed a) :=
  guarded_ready <| preserves_of_commits <|
    ingestBlocking_commits held_stable (fun _ held => held.state _) a

theorem guarded_runSolve : Guarded (runSolve E.observed) :=
  guarded_ready <| preserves_of_concludes <| runSolve_concludes held_solves fun _ held => held.live

theorem guarded_runNext : Guarded (runNext E.observed) where
  refuses s released := Step.bind_error (guarded_runSolve.refuses s released) _
  holds := preserves_of_concludes <| runNext_concludes held_solves fun _ held => held.live

theorem guarded_runAssume (l : Lit) : Guarded (runAssume E.observed l) :=
  guarded_ready <| preserves_of_commits <|
    runAssume_commits held_stable (fun _ held => held.state _) l

theorem guarded_runFailedAssumptions : Guarded (runFailedAssumptions E.observed) where
  refuses _ released := Step.bind_error (ready_released released) _
  holds := preserves_runFailedAssumptions held_stable

theorem guarded_runSubset (next : Bool) : Guarded (runSubset E.observed next) :=
  guarded_ready (held_runSubset next)

theorem guarded_produce (k : ReportKind) : Guarded (produce E.observed k) :=
  guarded_ready (preserves_produce held_stable k)

/-- One operation on a session, from the lock to its result: what it does depends on whether the
session is poisoned, and then on whether it is deleted. -/
structure Turn (exclusive : Bool) (s : Session (Observed σ)) (r : Outcome Error α)
    (t : Session (Observed σ)) : Prop where
  poisoned : s.poisoned = true → r = .error .poisoned ∧ t = s
  deleted : s.poisoned = false → s.released = true →
    r = .error .notReady ∧ ∃ calls, t = { s with timedCalls := calls }
  held : Held s → t.released = false ∧ t.poisoned = (exclusive && r.isPanic) ∧
    EngineCall.release ∉ t.engine.calls

theorem Turn.flags {exclusive : Bool} {s t : Session (Observed σ)} {r : Outcome Error α}
    (turn : Turn exclusive s r t) (kept : EngineCall.release ∉ s.engine.calls) :
    t.released = s.released ∧
      t.poisoned = (s.poisoned || (!s.released && exclusive && r.isPanic)) := by
  cases poisoned : s.poisoned
  · cases released : s.released
    · obtain ⟨live, sound, -⟩ := turn.held ⟨released, poisoned, kept⟩
      exact ⟨live, sound⟩
    · obtain ⟨-, calls, rfl⟩ := turn.deleted poisoned released
      exact ⟨released, poisoned⟩
  · obtain ⟨-, rfl⟩ := turn.poisoned poisoned
    exact ⟨rfl, poisoned⟩

theorem Turn.reply {exclusive : Bool} {s t : Session (Observed σ)} {r : Outcome Error α}
    {r' : Outcome Error β} (turn : Turn exclusive s r t)
    (errors : ∀ e, r = .error e → r' = .error e) (panics : r'.isPanic = r.isPanic) :
    Turn exclusive s r' t where
  poisoned poisoned := (turn.poisoned poisoned).imp_left (errors _)
  deleted sound released := (turn.deleted sound released).imp_left (errors _)
  held held := panics ▸ turn.held held

theorem Guarded.exclusive {x : Op (Observed σ) α} (guarded : Guarded x) (timed : Bool)
    (s : Session (Observed σ)) :
    Turn true s (exclusive timed x s).1 (exclusive timed x s).2 where
  poisoned poisoned := by simp only [exclusive_poisoned poisoned, and_self]
  deleted sound released := by
    obtain ⟨calls, unlocked⟩ := exclusive_sound sound timed x
    rw [unlocked, guarded.refuses s released]
    exact ⟨rfl, calls, by simp [Outcome.isPanic]⟩
  held held := by
    obtain ⟨calls, unlocked⟩ := exclusive_sound held.sound timed x
    have kept := guarded.holds s held
    rw [unlocked]
    exact ⟨kept.live, by simp [kept.sound], kept.kept⟩

theorem Guarded.shared {x : Op (Observed σ) α} (guarded : Guarded x) (s : Session (Observed σ)) :
    Turn false s (shared x s).1 (shared x s).2 where
  poisoned poisoned := by simp only [shared_poisoned poisoned, and_self]
  deleted sound released := by
    rw [shared_sound sound, guarded.refuses s released]
    exact ⟨rfl, s.timedCalls, rfl⟩
  held held := by
    have kept := guarded.holds s held
    rw [shared_sound held.sound]
    exact ⟨kept.live, kept.sound, kept.kept⟩

theorem turn_writeReport (k : ReportKind) (d : Destination) (s : Session (Observed σ)) :
    Turn true s (writeReport E.observed k d s).1.1 (writeReport E.observed k d s).2 where
  poisoned poisoned := by simp only [writeReport_poisoned poisoned, and_self]
  deleted sound released := by
    have refused : writeReport E.observed k d s = ((.error .notReady, d), s.charge false) := by
      rw [writeReport, if_neg (by simp [sound]), runReport, (guarded_produce k).refuses s released]
    rw [refused]
    exact ⟨rfl, charge_eq false s⟩
  held held := by
    obtain ⟨calls, unlocked⟩ := writeReport_sound held.sound E.observed k d
    have kept := (guarded_produce (E := E) k).holds s held
    rw [unlocked]
    exact ⟨kept.live, by simp [kept.sound], kept.kept⟩

end Session

namespace Client

open Session

variable {E : Engine σ}

theorem turn_answer {c : Client (Observed σ)} {x : Op (Observed σ) α} {exclusive : Bool}
    (turn : Turn exclusive c.session (x c.session).1 (x c.session).2) (reply : α → Reply) :
    Turn exclusive c.session (c.answer x reply).1.result (c.answer x reply).2.session := by
  unfold answer
  rcases result : x c.session with ⟨a | e | p, t⟩ <;> rw [result] at turn
  · exact turn.reply nofun rfl
  · exact turn.reply (fun _ h => by cases h; rfl) rfl
  · exact turn.reply nofun rfl

theorem perform_turn (c : Client (Observed σ)) {o : Operation} (other : o ≠ .delete)
    (running : ∀ i, o = .advance i → i ∉ c.ended) :
    Turn o.exclusive c.session (c.perform E.observed o).1.result
      (c.perform E.observed o).2.session := by
  cases o with
  | addClauses cs => exact turn_answer ((guarded_ingestClauses cs).exclusive false _) _
  | addFormula f => exact turn_answer ((guarded_ingestLits _).exclusive false _) _
  | addClause k => exact turn_answer ((guarded_ingestLits _).exclusive false _) _
  | blockSolution a => exact turn_answer ((guarded_ingestBlocking a).exclusive false _) _
  | solve => exact turn_answer (guarded_runSolve.exclusive true _) _
  | advance i =>
    have turn : Turn true c.session (nextSolution E.observed c.session).1
      (nextSolution E.observed c.session).2 := guarded_runNext.exclusive true c.session
    simp only [perform, advance, if_neg (running i rfl)]
    rcases result : nextSolution E.observed c.session with ⟨(a | a) | e | p, t⟩ <;>
      rw [result] at turn
    · exact turn.reply (fun _ h => by cases h) rfl
    · exact turn.reply (fun _ h => by cases h) rfl
    · exact turn.reply (fun _ h => by cases h; rfl) rfl
    · exact turn.reply (fun _ h => by cases h) rfl
  | assume l => exact turn_answer ((guarded_runAssume l).exclusive false _) _
  | failedAssumption l =>
    refine turn_answer ((guarded_query ?_).shared _) _
    refine yields_get fun s => preserves_ite ?_ (preserves_pure _)
    exact preserves_call held_stable (fun _ => .failedAssumption l.number) fun _ => trivial
  | failedAssumptions => exact turn_answer (guarded_runFailedAssumptions.exclusive false _) _
  | satisfiableSubset next => exact turn_answer ((guarded_runSubset next).exclusive false _) _
  | report k d =>
    have turn := turn_writeReport (E := E) k d c.session
    simp only [perform]
    rcases result : writeReport E.observed k d c.session with ⟨⟨a | e | p, d'⟩, t⟩ <;>
      rw [result] at turn
    · exact turn.reply (fun _ h => by cases h) rfl
    · exact turn.reply (fun _ h => by cases h; rfl) rfl
    · exact turn.reply (fun _ h => by cases h) rfl
  | varCount => exact turn_answer ((guarded_query (preserves_varCount held_stable)).shared _) _
  | clauseCount =>
    refine turn_answer ((guarded_query ?_).shared _) _
    exact preserves_call held_stable (fun _ => .clauseCount) fun _ => trivial
  | lastStatus =>
    exact turn_answer ((guarded_query (yields_get fun s => preserves_pure _)).shared _) _
  | elapsedIsZero =>
    exact turn_answer ((guarded_query (yields_get fun s => preserves_pure _)).shared _) _
  | delete => exact absurd rfl other

theorem answer_ended (c : Client σ) (x : Op σ α) (reply : α → Reply) :
    (c.answer x reply).2.ended = c.ended := by
  unfold answer
  rcases x c.session with ⟨a | e | p, s⟩ <;> rfl

theorem mem_ended_advance (c : Client σ) (i : Nat) {j : Nat} :
    j ∈ (c.advance E i).2.ended ↔ j ∈ c.ended ∨ i = j ∧
      ((c.advance E i).1.result = .ok (.item none) ∨ ∃ e, (c.advance E i).1.result = .error e) := by
  unfold advance
  by_cases ended : i ∈ c.ended
  · simp only [if_pos ended]
    exact ⟨.inl, fun h => h.elim id fun same => same.1 ▸ ended⟩
  · simp only [if_neg ended]
    rcases nextSolution E c.session with ⟨(_ | a) | e | p, s⟩ <;>
      simp [withSession, or_comm, eq_comm]

theorem mem_ended_perform (c : Client σ) (o : Operation) (i : Nat) :
    i ∈ (c.perform E o).2.ended ↔ i ∈ c.ended ∨ (c.entry E o).Ends i := by
  cases o with
  | advance j =>
    rw [perform, mem_ended_advance]
    simp [Entry.Ends, entry, perform]
  | report k d =>
    have kept : (c.perform E (.report k d)).2.ended = c.ended := by
      simp only [perform]
      rcases writeReport E k d c.session with ⟨⟨a | e | p, d'⟩, s⟩ <;> rfl
    simp [kept, Entry.Ends, entry]
  | delete => simp [perform, withSession, Entry.Ends, entry]
  | _ =>
    simp only [perform, answer_ended]
    simp [Entry.Ends, entry]

theorem entry_turn (E : Engine σ) (c : Client σ) {o : Operation} (other : o ≠ .delete)
    (running : ∀ i, o = .advance i → i ∉ c.ended) :
    Turn o.exclusive c.observe.session (c.entry E o).answer.result
      (c.observe.perform E.observed o).2.session :=
  entry_answer E c o ▸ perform_turn c.observe other running

theorem perform_session (E : Engine σ) (c : Client σ) (o : Operation) :
    (c.perform E o).2.session =
      (c.observe.perform E.observed o).2.session.mapEngine Observed.engine :=
  congrArg (Prod.snd · |>.session) (perform_observed E c o)

theorem perform_delete (c : Client σ) : (c.perform E .delete).2.session =
    if c.session.released then c.session
    else { c.session with engine := E.release c.session.engine, released := true } := by
  simp only [perform, delete, withSession]
  split <;> rfl

theorem entry_delete (c : Client σ) : c.entry E .delete =
    if c.session.released then ⟨.delete, ⟨.ok (.flag false), []⟩, []⟩
    else ⟨.delete, ⟨.ok (.flag true), []⟩, [.release]⟩ := by
  have seen : c.observe.session.released = c.session.released := rfl
  rw [entry, perform_delete, seen]
  simp only [perform, delete]
  split <;> rfl

theorem perform_ended_iterator {c : Client σ} {i : Nat} (ended : i ∈ c.ended) :
    c.perform E (.advance i) = (⟨.ok (.item none), []⟩, c) := if_pos ended

theorem perform_flags (c : Client σ) (o : Operation) :
    ((c.perform E o).2.session.released = true ↔ c.session.released = true ∨ o = .delete) ∧
      (c.perform E o).2.session.poisoned = (c.session.poisoned ||
        (!c.session.released && o.exclusive && (c.entry E o).answer.result.isPanic)) := by
  by_cases deletes : o = .delete
  · subst deletes
    rw [perform_delete]
    cases released : c.session.released <;> simp [Operation.exclusive, released]
  by_cases stopped : ∃ i, o = .advance i ∧ i ∈ c.ended
  · obtain ⟨i, rfl, ended⟩ := stopped
    simp [entry, perform_ended_iterator ended, Outcome.isPanic]
  have turn := entry_turn E c deletes fun i same ended => stopped ⟨i, same, ended⟩
  obtain ⟨released, poisoned⟩ := turn.flags List.not_mem_nil
  rw [perform_session, or_iff_left deletes]
  exact ⟨iff_of_eq (congrArg (· = true) released), poisoned⟩

theorem perform_phase (c : Client σ) (o : Operation) :
    (c.perform E o).2.session.phase = c.session.phase.next (c.entry E o) := by
  obtain ⟨released, poisoned⟩ := perform_flags (E := E) c o
  by_cases deletes : o = .delete
  · subst deletes
    have deleted := released.mpr (.inr rfl)
    simp only [phase, deleted, poisoned, Operation.exclusive]
    cases c.session.poisoned <;> cases c.session.released <;> rfl
  · have same : (c.perform E o).2.session.released = c.session.released :=
      Bool.eq_iff_iff.mpr (released.trans (or_iff_left deletes))
    rw [Phase.next_other deletes, phase, phase, same, poisoned]
    cases c.session.poisoned <;> cases c.session.released <;> simp [entry]

structure Stands (past : List Entry) (c : Client σ) : Prop where
  ended : ∀ i, i ∈ c.ended ↔ ∃ x ∈ past, x.Ends i
  phase : Phase.after past = c.session.phase
  released : c.session.released = true ↔ ∃ x ∈ past, x.operation = .delete

theorem Stands.perform {past : List Entry} {c : Client σ} (stands : Stands past c)
    (o : Operation) : Stands (past ++ [c.entry E o]) (c.perform E o).2 where
  ended i := by simp [mem_ended_perform, stands.ended, or_and_right, exists_or]
  phase := by rw [Phase.after_concat, perform_phase, stands.phase]
  released := by simp [perform_flags, stands.released, or_and_right, exists_or, entry]

theorem Stands.orderly {past : List Entry} {c : Client σ} (stands : Stands past c)
    (o : Operation) : (c.entry E o).Orderly past where
  refused e refusal other running := by
    have turn := entry_turn E c other fun i same ended => by
      obtain ⟨y, earlier, ends⟩ := (stands.ended i).mp ended
      exact running i same y earlier ends
    rw [stands.phase] at refusal
    cases poisoned : c.session.poisoned
    · cases released : c.session.released
      · simp [Session.phase, poisoned, released, Phase.refusal?] at refusal
      · obtain ⟨refused, calls, same⟩ := turn.deleted poisoned released
        obtain rfl : .notReady = e := by
          simpa [Session.phase, poisoned, released, Phase.refusal?] using refusal
        exact ⟨refused, congrArg (·.engine.calls) same⟩
    · obtain ⟨refused, same⟩ := turn.poisoned poisoned
      obtain rfl : .poisoned = e := by simpa [Session.phase, poisoned, Phase.refusal?] using refusal
      exact ⟨refused, congrArg (·.engine.calls) same⟩
  ended i same before := by
    obtain rfl : o = .advance i := same
    have ended : i ∈ c.ended := (stands.ended i).mpr before
    have still : i ∈ c.observe.ended := ended
    rw [entry, perform_ended_iterator ended, perform_ended_iterator still]
    exact ⟨rfl, rfl⟩
  firstDelete same first := by
    obtain rfl : o = .delete := same
    have live : c.session.released ≠ true := by
      intro released
      obtain ⟨y, earlier, deletes⟩ := stands.released.mp released
      exact first y earlier deletes
    rw [entry_delete, if_neg live]
    exact ⟨rfl, rfl⟩
  deleteAgain same before := by
    obtain rfl : o = .delete := same
    rw [entry_delete, if_pos (stands.released.mpr before)]
    exact ⟨rfl, rfl⟩

end Client

namespace Session

variable {E : Engine σ}

-- The engine is released at most once, and nothing reaches it afterwards.
structure Once (s : Session (Observed σ)) : Prop where
  held : s.released = false → EngineCall.release ∉ s.engine.calls
  released : s.released = true →
    ∃ earlier, s.engine.calls = .release :: earlier ∧ EngineCall.release ∉ earlier

theorem Once.delete {s : Session (Observed σ)} (once : Once s) : Once (delete E.observed s).2 := by
  unfold Session.delete
  cases released : s.released
  · exact ⟨nofun, fun _ => ⟨_, rfl, once.held released⟩⟩
  · exact once

theorem Turn.once {exclusive : Bool} {s t : Session (Observed σ)} {r : Outcome Error α}
    (turn : Turn exclusive s r t) (once : Once s) : Once t := by
  cases poisoned : s.poisoned
  · cases released : s.released
    · obtain ⟨live, -, kept⟩ := turn.held ⟨released, poisoned, once.held released⟩
      exact ⟨fun _ => kept, fun h => by simp [live] at h⟩
    · obtain ⟨-, calls, rfl⟩ := turn.deleted poisoned released
      exact ⟨once.held, once.released⟩
  · obtain ⟨-, rfl⟩ := turn.poisoned poisoned
    exact once

theorem Once.drop {s : Session (Observed σ)} (once : Once s) :
    ∃ earlier, (s.drop E.observed).engine.calls = .release :: earlier ∧
      EngineCall.release ∉ earlier := by
  refine (once.delete (E := E)).released ?_
  unfold Session.delete
  cases released : s.released <;> simp [released]

end Session

namespace Client

open Session

variable {E : Engine σ}

theorem perform_once {c : Client (Observed σ)} (once : Once c.session) (o : Operation) :
    Once (c.perform E.observed o).2.session := by
  by_cases deletes : o = .delete
  · subst deletes
    exact once.delete
  by_cases stopped : ∃ i, o = .advance i ∧ i ∈ c.ended
  · obtain ⟨i, rfl, ended⟩ := stopped
    rw [perform_ended_iterator ended]
    exact once
  · exact (perform_turn c deletes fun i same ended => stopped ⟨i, same, ended⟩).once once

theorem run_once {c : Client (Observed σ)} (once : Once c.session) (os : List Operation) :
    Once (c.run E.observed os).2.session := by
  induction os generalizing c with
  | nil => exact once
  | cons o os ih => exact ih (perform_once once o)

theorem answer_client (c : Client σ) (x : Op σ α) (reply : α → Reply) :
    (c.answer x reply).2 = c.withSession (x c.session).2 := by
  unfold answer
  rcases x c.session with ⟨a | e | p, s⟩ <;> rfl

-- A panic of this query passes a lock that is only shared.
theorem failedAssumption_client (E : Engine σ) (c : Client σ) (l : Lit) :
    (c.perform E (.failedAssumption l)).2 = c ∨
      (c.perform E (.failedAssumption l)).2 = c.withSession
        { c.session with engine := (E.failedAssumption l.number c.session.engine).2 } := by
  have asked : (failedAssumption E l c.session).2 = c.session ∨ (failedAssumption E l c.session).2 =
      { c.session with engine := (E.failedAssumption l.number c.session.engine).2 } := by
    unfold failedAssumption shared
    split
    · exact .inl rfl
    cases released : c.session.released
    · rw [Step.bind_ok (ready_held released), Step.bind_ok (Step.get_apply _)]
      split
      · exact .inr rfl
      · exact .inl rfl
    · rw [Step.bind_error (ready_released released)]
      exact .inl rfl
  rw [perform, answer_client]
  exact asked.imp (congrArg c.withSession) (congrArg c.withSession)

-- An engine may take note of the query, as long as no answer depends on the note.
theorem failedAssumption_forgotten {τ : Type} {view : σ → τ} {F : Engine τ} (maps : E.Maps view F)
    {c : Client σ} {before after : List Operation} {l : Lit}
    (kept : view (E.failedAssumption l.number (c.run E before).2.session.engine).2 =
      view (c.run E before).2.session.engine) :
    (c.run E (before ++ .failedAssumption l :: after)).1.eraseIdx before.length =
      (c.run E (before ++ after)).1 := by
  have same : ((c.run E before).2.perform E (.failedAssumption l)).2.mapEngine view =
      (c.run E before).2.mapEngine view := by
    rcases failedAssumption_client E (c.run E before).2 l with same | same
    · rw [same]
    · rw [same]
      simp only [mapEngine, Session.mapEngine, withSession, kept]
  have answers (d : Client σ) : (d.run E after).1 = ((d.mapEngine view).run F after).1 :=
    (congrArg Prod.fst (run_maps maps after d)).symm
  have count := length_run E before c
  rw [run_append, run_append, ← count, List.eraseIdx_append_of_length_le (Nat.le_refl _),
    Nat.sub_self]
  change (c.run E before).1 ++
    (((c.run E before).2.perform E (.failedAssumption l)).2.run E after).1 = _
  rw [answers, same, ← answers]

end Client

/-- A session is ready until it is deleted or a panic under the exclusive lock poisons it. From then
on every operation but a delete fails with one error and without a call, an iterator once, and a
delete after a delete does nothing. The engine is released once, by the first delete or when the
session is dropped, and not called any more. A query for a failed assumption does not poison, and if
it changes nothing that the engine answers by, the other answers are as without it. -/
theorem lifecycle {E : Engine σ} {options : Config} {e e' : σ} {s : Session σ}
    (created : Session.create E options e = (.ok s, e')) (os : List Operation) :
    (∀ past x rest, Client.chronicle E ⟨s, []⟩ os = past ++ x :: rest → x.Orderly past) ∧
    (∃ earlier, .release ∉ earlier ∧
      (((Client.observe ⟨s, []⟩).run E.observed os).2.session.drop E.observed).engine.calls =
        .release :: earlier) ∧
    ∀ before l after, os = before ++ .failedAssumption l :: after →
      let c := (Client.run E ⟨s, []⟩ before).2
      (c.perform E (.failedAssumption l)).2.session.poisoned = c.session.poisoned ∧
      ∀ {τ : Type} {view : σ → τ} {F : Engine τ}, E.Maps view F →
        view (E.failedAssumption l.number c.session.engine).2 = view c.session.engine →
        (Client.run E ⟨s, []⟩ os).1.eraseIdx before.length =
          (Client.run E ⟨s, []⟩ (before ++ after)).1 := by
  obtain rfl := Session.create_ok created
  refine ⟨fun past x rest split => ?_, ?_, ?_⟩
  · obtain ⟨before, o, after, -, rfl, rfl⟩ := Client.chronicle_split split
    have initial : Client.Stands [] (⟨⟨e', false, false, .noResult, options.traceGeneration,
      options.measureAllCalls, 0, []⟩, []⟩ : Client σ) := ⟨by simp, rfl, by simp⟩
    exact (Client.chronicle_invariant (P := fun _ => True)
      (fun _ _ o stands _ => stands.perform o) initial before fun _ _ => trivial).orderly o
  · have unreleased : (Client.observe (⟨⟨e', false, false, .noResult, options.traceGeneration,
      options.measureAllCalls, 0, []⟩, []⟩ : Client σ)).session.Once :=
        ⟨fun _ => List.not_mem_nil, nofun⟩
    obtain ⟨earlier, calls, once⟩ := (Client.run_once (E := E) unreleased os).drop (E := E)
    exact ⟨earlier, once, calls⟩
  · rintro before l after rfl
    refine ⟨?_, fun maps kept => Client.failedAssumption_forgotten maps kept⟩
    rw [(Client.perform_flags _ _).2]
    simp [Operation.exclusive]

-- The query panics and does no harm; a number that is added panics, and poisons.
def Scripted.unsteady : Engine Scripted.State :=
  { Scripted.engine with failedAssumption := fun _ => Step.abandon "query panicked" }

theorem poisoned_once :
    let e : Scripted.State :=
      ⟨{ panicOn := [(1, "add panicked")] }, [.status .unsatisfiable], 0, 0, none, false, false, []⟩
    let query := Operation.failedAssumption ⟨-1, by decide, by decide⟩
    let os : List Operation := [.addClauses [[1]], .varCount, .advance 0, .advance 0, .delete,
      .delete, .solve]
    ∃ s e', Session.create Scripted.unsteady {} e = (.ok s, e') ∧
      (Client.run Scripted.unsteady ⟨s, []⟩ (.solve :: query :: os)).1.map (·.result) =
        [.ok (.solved .unsatisfiable none), .panic (.text "query panicked"),
          .panic (.text "add panicked"), .error .poisoned, .error .poisoned, .ok (.item none),
          .ok (.flag true), .ok (.flag false), .error .poisoned] ∧
      (∃ earlier, .release ∉ earlier ∧
        (((Client.observe ⟨s, []⟩).run Scripted.unsteady.observed
          (.solve :: query :: os)).2.session.drop Scripted.unsteady.observed).engine.calls =
            .release :: earlier) ∧
      (Client.run Scripted.unsteady ⟨s, []⟩ (.solve :: query :: os)).1.eraseIdx 1 =
        (Client.run Scripted.unsteady ⟨s, []⟩ (.solve :: os)).1 := by
  intro e query os
  have created := (rfl : Session.create Scripted.unsteady {} e = (.ok _, _))
  obtain ⟨-, once, forgotten⟩ := lifecycle created (.solve :: query :: os)
  exact ⟨_, _, created, rfl, once, (forgotten [.solve] _ os rfl).2 (Engine.maps_id _) rfl⟩

end SatSession
