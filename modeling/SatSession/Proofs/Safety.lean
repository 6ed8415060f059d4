import SatSession.Session.History
import SatSession.Proofs.Confluence
import SatSession.Proofs.Operations
import SatSession.Proofs.Search

/-!
A session whose engine replays its clause log never panics by itself, so it is never poisoned, and
it never takes the engine to have failed. `Sound` is what all its operations keep.
-/

set_option autoImplicit false

namespace SatSession

open Replay

variable (S : Cnf.Solver) (limit : Nat)

structure Replay.State.Sound (s : Replay.State) : Prop extends State.Fit s where
  limited : s.limit = limit
  known : S.Correct → s.inconsistent = true → ¬Cnf.Satisfiable s.clauses

structure Session.Sound (s : Session Replay.State) : Prop where
  engine : s.engine.Sound S limit
  idle : s.stream = []
  traced : s.tracing = true → s.engine.tracing = true
  blamed : s.state.windowOpen = true → ∃ failed, Blamed s.engine failed
  refuted : S.Correct → s.state.windowOpen = true →
    ¬Cnf.Satisfiable (s.engine.clauses ++ Cnf.units (s.engine.assumptions.map .ofLit))

namespace Replay.State

variable {S limit} {s : Replay.State}

theorem clauses_add (f : Formula) (c : Clause) :
    Cnf.ofClauses (f.add c).clauses = Cnf.ofClauses f.clauses ++ [Cnf.ofClause c] := by
  simp [Cnf.ofClauses]

theorem not_satisfiable_append {cs ds : List Cnf.Clause} (refuted : ¬Cnf.Satisfiable cs) :
    ¬Cnf.Satisfiable (cs ++ ds) := by
  rintro ⟨v, hv⟩
  rw [Cnf.holdsAll_append, Bool.and_eq_true] at hv
  exact refuted ⟨v, hv.1⟩

theorem not_satisfiable_empty (cs : List Cnf.Clause) : ¬Cnf.Satisfiable (cs ++ [[]]) := by
  rintro ⟨v, hv⟩
  simp [Cnf.holdsAll, Cnf.Clause.holds] at hv

theorem known_add (known : S.Correct → s.inconsistent = true → ¬Cnf.Satisfiable s.clauses)
    (c : Clause) (correct : S.Correct) (inconsistent : (s.inconsistent || c.isEmpty) = true) :
    ¬Cnf.Satisfiable (Cnf.ofClauses (s.formula.add c).clauses) := by
  rw [clauses_add]
  rcases Bool.or_eq_true _ _ ▸ inconsistent with before | empty
  · exact not_satisfiable_append (known correct before)
  · rw [List.isEmpty_iff] at empty
    rw [empty]
    exact not_satisfiable_empty _

theorem Sound.ingest (sound : s.Sound S limit) (c : Clause) : (s.ingest c).Sound S limit where
  closed := rfl
  small := Nat.max_le.mpr ⟨sound.small, Clause.maxVar_le_iff.mpr fun l _ => l.var.le_max⟩
  covers := Formula.varCount_add_le_iff.mpr
    ⟨Nat.le_trans sound.covers (Nat.le_max_left _ _), Nat.le_max_right _ _⟩
  assumed l hl := Nat.le_trans (sound.assumed l (mem_of_mem_pending hl)) (Nat.le_max_left _ _)
  limited := sound.limited
  known := known_add sound.known c

theorem Sound.ingestAll (sound : s.Sound S limit) (cs : List Clause) :
    (s.ingestAll cs).Sound S limit := by
  induction cs generalizing s with
  | nil => exact sound
  | cons c cs ih => exact ih (sound.ingest c)

theorem tracing_ingestAll (s : Replay.State) (cs : List Clause) :
    (s.ingestAll cs).tracing = s.tracing := by
  induction cs generalizing s with
  | nil => rfl
  | cons c cs ih => exact ih (s.ingest c)

theorem Sound.assume (sound : s.Sound S limit) (l : Lit) : (s.assumed l).Sound S limit where
  closed := sound.closed
  small := Nat.max_le.mpr ⟨sound.small, l.var.le_max⟩
  covers := Nat.le_trans sound.covers (Nat.le_max_left _ _)
  assumed := by
    intro k hk
    rcases List.mem_append.mp hk with old | new
    · exact Nat.le_trans (sound.assumed k (mem_of_mem_pending old)) (Nat.le_max_left _ _)
    · rw [List.mem_singleton.mp new]
      exact Nat.le_max_right _ _
  limited := sound.limited
  known := sound.known

theorem Sound.report (sound : s.Sound S limit) (outcome : LastResult) (messages : List Message) :
    ({ s with outcome := outcome, messages := messages } : Replay.State).Sound S limit :=
  ⟨⟨sound.closed, sound.small, sound.covers, sound.assumed⟩, sound.limited, sound.known⟩

theorem Sound.refuted (sound : s.Sound S limit)
    (found : S.Correct → ¬Cnf.Satisfiable s.clauses) (outcome : LastResult)
    (messages : List Message) :
    ({ s with
      outcome := outcome
      inconsistent := true
      messages := messages } : Replay.State).Sound S limit :=
  ⟨⟨sound.closed, sound.small, sound.covers, sound.assumed⟩, sound.limited,
    fun correct _ => found correct⟩

theorem Sound.blocked (sound : s.Sound S limit) (subset : List Lit) :
    (s.blocked subset).Sound S limit where
  closed := sound.closed
  small := sound.small
  covers := by
    refine Formula.varCount_add_le_iff.mpr ⟨sound.covers, Clause.maxVar_le_iff.mpr fun l hl => ?_⟩
    rw [blocking, List.mem_eraseDups] at hl
    exact sound.assumed l (List.mem_filter.mp hl).1
  assumed := sound.assumed
  limited := sound.limited
  known := known_add sound.known _

theorem Sound.decided (sound : s.Sound S limit) (messages : List Message) :
    ({ (s.decided S).2 with messages := messages } : Replay.State).Sound S limit := by
  refine ⟨sound.toFit.decided messages, ?_, ?_⟩
  · unfold State.decided
    cases s.verdict S <;> exact sound.limited
  unfold State.decided
  cases verdict : s.verdict S with
  | model lits => exact sound.known
  | exhausted => exact sound.known
  | refuted failed =>
    intro correct inconsistent
    rcases Bool.or_eq_true _ _ ▸ inconsistent with before | empty
    · exact sound.known correct before
    · -- The solver needed no assumption for its refutation.
      have refutation := correct.refuted_unsat verdict
      rw [List.isEmpty_iff] at empty
      rw [empty, Cnf.units, List.map_nil, List.append_nil] at refutation
      exact refutation

theorem decided_blamed (S : Cnf.Solver) (s : Replay.State) (messages : List Message)
    (unsatisfiable : (s.decided S).1 = .unsatisfiable) :
    ∃ failed, Session.Blamed { (s.decided S).2 with messages := messages } failed := by
  unfold State.decided at unsatisfiable ⊢
  cases verdict : s.verdict S <;> simp only [verdict, conclude, reduceCtorEq] at unsatisfiable ⊢
  case refuted named =>
    refine ⟨_, rfl, nodup_eraseDups _, fun l hl => ?_⟩
    rw [List.mem_eraseDups] at hl
    exact (List.mem_filter.mp hl).1

theorem decided_unsat (correct : S.Correct) (unsatisfiable : (s.decided S).1 = .unsatisfiable) :
    ¬Cnf.Satisfiable
      ((s.decided S).2.clauses ++ Cnf.units ((s.decided S).2.assumptions.map .ofLit)) := by
  unfold State.decided at unsatisfiable ⊢
  cases verdict : s.verdict S <;> simp only [verdict, conclude, reduceCtorEq] at unsatisfiable ⊢
  case refuted named => exact correct.refutes verdict

theorem tracing_decided (S : Cnf.Solver) (s : Replay.State) :
    (s.decided S).2.tracing = s.tracing := by
  unfold State.decided
  cases s.verdict S <;> rfl

end Replay.State

namespace Session

variable {S limit} {α : Type} {s : Session Replay.State}

def Behaves (S : Cnf.Solver) (limit : Nat) (s : Session Replay.State)
    (r : Outcome Error α × Session Replay.State) : Prop :=
  Sound S limit r.2 ∧ (s.poisoned = false → r.1.Safe ∧ r.2.poisoned = false)

theorem Sound.settle (sound : Sound S limit s) {e : Replay.State} (engine : e.Sound S limit)
    (tracing : e.tracing = s.engine.tracing) {event : Event}
    (closes : event ≠ .solved .unsatisfiable) :
    Sound S limit { s with engine := e, state := s.state.next event } where
  engine := engine
  idle := sound.idle
  traced on := tracing.trans (sound.traced on)
  blamed isOpen := by
    rw [SolveState.windowOpen_next, beq_iff_eq] at isOpen
    exact absurd isOpen closes
  refuted _ isOpen := by
    rw [SolveState.windowOpen_next, beq_iff_eq] at isOpen
    exact absurd isOpen closes

theorem Sound.refute (sound : Sound S limit s) {e : Replay.State} (engine : e.Sound S limit)
    (tracing : e.tracing = s.engine.tracing) (blamed : ∃ failed, Blamed e failed)
    (refuted : S.Correct → ¬Cnf.Satisfiable (e.clauses ++ Cnf.units (e.assumptions.map .ofLit)))
    (event : Event) : Sound S limit { s with engine := e, state := s.state.next event } where
  engine := engine
  idle := sound.idle
  traced on := tracing.trans (sound.traced on)
  blamed _ := blamed
  refuted correct _ := refuted correct

theorem shared_ok {f : Op Replay.State α} {a : α} (fresh : s.poisoned = false)
    (live : s.released = false) (answers : f s = (.ok a, s)) :
    shared (ready >>= fun _ => f) s = (.ok a, s) := by
  rw [shared, if_neg (by simp [fresh]), Step.bind_ok (ready_held live), answers]

theorem Sound.silent (sound : Sound S limit s) (messages : List Message) :
    Sound S limit { s with engine := { s.engine with messages := messages } } :=
  ⟨sound.engine.report s.engine.outcome messages, sound.idle, sound.traced, sound.blamed,
    sound.refuted⟩

theorem Sound.unlocked (sound : Sound S limit s) (p : Bool) (calls : Nat) :
    Sound S limit { s with poisoned := p, timedCalls := calls } :=
  ⟨sound.engine, sound.idle, sound.traced, sound.blamed, sound.refuted⟩

def Proper (S : Cnf.Solver) (limit : Nat) (x : Op Replay.State α) : Prop :=
  ∀ s, Sound S limit s → (x s).1.Safe ∧ Sound S limit (x s).2 ∧ (x s).2.poisoned = s.poisoned

theorem proper_of_held {x : Op Replay.State α}
    (refuses : ∀ s, s.released = true → x s = (.error .notReady, s))
    (held : ∀ s, Sound S limit s → s.released = false →
      (x s).1.Safe ∧ Sound S limit (x s).2 ∧ (x s).2.poisoned = s.poisoned) :
    Proper S limit x := by
  intro s sound
  cases released : s.released
  · exact held s sound released
  · rw [refuses s released]
    exact ⟨id, sound, rfl⟩

theorem Proper.exclusive {x : Op Replay.State α} (proper : Proper S limit x) (timed : Bool)
    (sound : Sound S limit s) : Behaves S limit s (Session.exclusive timed x s) := by
  cases poisoned : s.poisoned
  · obtain ⟨safe, after, same⟩ := proper s sound
    obtain ⟨calls, unlocked⟩ := exclusive_sound poisoned timed x
    rw [unlocked]
    refine ⟨after.unlocked _ calls, fun _ => ⟨safe, ?_⟩⟩
    simp [same, poisoned, Outcome.isPanic_of_safe safe]
  · rw [exclusive_poisoned poisoned]
    exact ⟨sound, fun h => by simp [poisoned] at h⟩

variable (S limit) in
structure Live (s : Session Replay.State) : Prop where
  sound : Sound S limit s
  held : s.released = false
  fresh : s.poisoned = false

theorem Live.silent (live : s.Live S limit) (messages : List Message) :
    ({ s with engine := { s.engine with messages := messages } } : Session Replay.State).Live
      S limit :=
  ⟨live.sound.silent messages, live.held, live.fresh⟩

theorem Live.charged (live : s.Live S limit) (calls : Nat) :
    ({ s with timedCalls := calls } : Session Replay.State).Live S limit :=
  ⟨live.sound.unlocked s.poisoned calls, live.held, live.fresh⟩

theorem Live.exclusive {x : Op Replay.State α} {a : α} {t : Session Replay.State}
    (live : s.Live S limit) (proper : Proper S limit x) (run : x s = (.ok a, t))
    (held : t.released = false) (timed : Bool) :
    ∃ calls, Session.exclusive timed x s = (.ok a, { t with timedCalls := calls }) ∧
      ({ t with timedCalls := calls } : Session Replay.State).Live S limit := by
  obtain ⟨_, after, same⟩ := proper s live.sound
  rw [run] at after same
  obtain ⟨calls, done⟩ := exclusive_ok live.fresh run timed
  exact ⟨calls, done, Live.charged ⟨after, held, same.trans live.fresh⟩ calls⟩

theorem Proper.shared {x : Op Replay.State α} (proper : Proper S limit x)
    (sound : Sound S limit s) : Behaves S limit s (Session.shared x s) := by
  unfold Session.shared
  cases poisoned : s.poisoned
  · obtain ⟨safe, after, same⟩ := proper s sound
    exact ⟨after, fun _ => ⟨safe, same.trans poisoned⟩⟩
  · exact ⟨sound, fun h => by simp [poisoned] at h⟩

theorem proper_ingestLits (cs : List Clause) :
    Proper S limit (ingestLits (Replay.engine S) cs) := by
  refine proper_of_held (fun s h => Step.bind_error (ready_released h) _) fun s sound held => ?_
  rw [ingestLits_eq S sound.engine.toFit held sound.idle cs]
  have engine := sound.engine.ingestAll cs
  exact ⟨trivial, sound.settle engine (State.tracing_ingestAll _ cs) (by simp), rfl⟩

theorem proper_ingestClauses (cs : List (List Int)) :
    Proper S limit (ingestClauses (Replay.engine S) cs) := by
  refine proper_of_held (fun s h => Step.bind_error (ready_released h) _) fun s sound held => ?_
  rw [ingestClauses_eq S sound.engine.toFit held sound.idle cs]
  cases Stream.invalid? (cs.flatMap Stream.encodeClause) with
  | some n => exact ⟨id, sound, rfl⟩
  | none =>
    have engine := sound.engine.ingestAll (clausesOf cs)
    exact ⟨trivial, sound.settle engine (State.tracing_ingestAll _ _) (by simp), rfl⟩

theorem proper_ingestBlocking (a : Assignment) :
    Proper S limit (ingestBlocking (Replay.engine S) a) := by
  refine proper_of_held (fun s h => Step.bind_error (ready_released h) _) fun s sound held => ?_
  rw [ingestBlocking_eq S sound.engine.toFit held sound.idle a]
  by_cases size : a.size ≠ s.engine.varCount + 1
  · rw [if_pos size]
    exact ⟨id, sound, rfl⟩
  · rw [if_neg size]
    exact ⟨trivial, sound.settle (sound.engine.ingest _) rfl (by simp), rfl⟩

theorem Sound.decide (sound : Sound S limit s) (messages : List Message) :
    Sound S limit { s with
      engine := { (s.engine.decided S).2 with messages := messages }
      state := s.state.next (.solved (s.engine.decided S).1) } := by
  have engine := sound.engine.decided messages
  have tracing := State.tracing_decided S s.engine
  by_cases refuted : (s.engine.decided S).1 = .unsatisfiable
  · exact sound.refute engine tracing (State.decided_blamed S s.engine messages refuted)
      (fun correct => State.decided_unsat correct refuted) _
  · exact sound.settle engine tracing (by simpa using refuted)

theorem proper_runSolve : Proper S limit (runSolve (Replay.engine S)) := by
  refine proper_of_held (fun s h => Step.bind_error (ready_released h) _) fun s sound held => ?_
  obtain ⟨messages, solved⟩ := runSolve_eq S sound.engine.toFit held
  rw [solved]
  exact ⟨trivial, sound.decide messages, rfl⟩

theorem proper_runNext : Proper S limit (runNext (Replay.engine S)) := by
  have refuses (s : Session Replay.State) (released : s.released = true) :
      runNext (Replay.engine S) s = (.error .notReady, s) :=
    Step.bind_error (Step.bind_error (ready_released released) _) _
  refine proper_of_held refuses fun s sound held => ?_
  cases verdict : (s.engine.verdict S) with
  | model lits =>
    obtain ⟨messages, found⟩ := runNext_found S sound.engine.toFit held sound.idle verdict
    have solved := sound.decide messages
    have status : (s.engine.decided S).1 = .satisfiable := by rw [State.decided, verdict]; rfl
    rw [status] at solved
    rw [found]
    exact ⟨trivial, solved.settle (solved.engine.ingest _) rfl (by simp), rfl⟩
  | refuted failed =>
    obtain ⟨messages, ended⟩ := runNext_ended S sound.engine.toFit held (by rw [verdict]; rfl)
    rw [ended]
    exact ⟨trivial, sound.decide messages, rfl⟩
  | exhausted =>
    obtain ⟨messages, ended⟩ := runNext_ended S sound.engine.toFit held (by rw [verdict]; rfl)
    rw [ended]
    exact ⟨trivial, sound.decide messages, rfl⟩

theorem proper_runAssume (l : Lit) : Proper S limit (runAssume (Replay.engine S) l) := by
  refine proper_of_held (fun s h => Step.bind_error (ready_released h) _) fun s sound held => ?_
  rw [runAssume_eq S held l]
  exact ⟨trivial, sound.settle (sound.engine.assume l) rfl (by simp), rfl⟩

theorem runFailedAssumptions_known (sound : Sound S limit s) (held : s.released = false) :
    ∃ failed, runFailedAssumptions (Replay.engine S) s = (.ok failed, s) := by
  cases isOpen : s.state.windowOpen with
  | false =>
    have none (h : s.state.windowOpen = true) : Blamed s.engine [] := by simp [isOpen] at h
    exact ⟨_, runFailedAssumptions_eq S sound.engine.toFit held none⟩
  | true =>
    obtain ⟨failed, blamed⟩ := sound.blamed isOpen
    exact ⟨_, runFailedAssumptions_eq S sound.engine.toFit held fun _ => blamed⟩

theorem proper_runFailedAssumptions :
    Proper S limit (runFailedAssumptions (Replay.engine S)) := by
  have refuses (s : Session Replay.State) (released : s.released = true) :
      runFailedAssumptions (Replay.engine S) s = (.error .notReady, s) :=
    (Step.bind_ok (Step.get_apply s) _).trans (Step.bind_error (ready_released released) _)
  refine proper_of_held refuses fun s sound held => ?_
  obtain ⟨failed, known⟩ := runFailedAssumptions_known sound held
  rw [known]
  exact ⟨trivial, sound, rfl⟩

theorem proper_runSubset (next : Bool) : Proper S limit (runSubset (Replay.engine S) next) := by
  refine proper_of_held (fun s h => Step.bind_error (ready_released h) _) fun s sound held => ?_
  cases consistent : s.engine.inconsistent with
  | true =>
    rw [runSubset_inconsistent S held consistent next]
    exact ⟨trivial, sound, rfl⟩
  | false =>
    rcases runSubset_cases S sound.engine.toFit held consistent next with
      ⟨_, run⟩ | ⟨failed, messages, refuted, run⟩ | ⟨model, subset, messages, _, _, run⟩
    · rw [run]
      exact ⟨id, sound.settle sound.engine rfl (by simp), rfl⟩
    · have unsatisfiable (correct : S.Correct) : ¬Cnf.Satisfiable s.engine.clauses := by
        have refutation := correct.refutes refuted
        rwa [Cnf.units, List.map_nil, List.append_nil] at refutation
      rw [run]
      exact ⟨trivial, sound.settle (sound.engine.refuted unsatisfiable _ _) rfl (by simp), rfl⟩
    · rw [run]
      refine ⟨trivial, sound.settle ?_ ?_ (by simp), rfl⟩
      · cases next
        · exact sound.engine.report .cleared messages
        · exact (sound.engine.blocked subset).report .cleared messages
      · cases next <;> rfl

theorem proper_query {f : Op Replay.State α}
    (answers : ∀ s, Sound S limit s → ∃ a, f s = (.ok a, s)) :
    Proper S limit (ready >>= fun _ => f) := by
  refine proper_of_held (fun s h => Step.bind_error (ready_released h) _) fun s sound held => ?_
  obtain ⟨a, answer⟩ := answers s sound
  rw [Step.bind_ok (ready_held held), answer]
  exact ⟨trivial, sound, rfl⟩

theorem failedAssumption_known (sound : Sound S limit s) (l : Lit) :
    ∃ answer, (do
      if (← Step.get).state.windowOpen then call ((Replay.engine S).failedAssumption l.number)
      else pure false : Op Replay.State Bool) s = (.ok answer, s) := by
  cases isOpen : s.state.windowOpen with
  | false =>
    have none (h : s.state.windowOpen = true) : s.engine.outcome = .unsatisfiable [] := by
      simp [isOpen] at h
    exact ⟨_, failedAssumption_eq S none l⟩
  | true =>
    obtain ⟨failed, refuted, _⟩ := sound.blamed isOpen
    exact ⟨_, failedAssumption_eq S (fun _ => refuted) l⟩

theorem produce_leaves {s : Session Replay.State} (sound : Sound S limit s) (k : ReportKind) :
    ∃ messages, (produce (Replay.engine S) k s).2 =
      { s with engine := { s.engine with messages := messages } } := by
  rcases Bool.eq_false_or_eq_true s.released with released | held
  · have refused : produce (Replay.engine S) k s = (.error .notReady, s) :=
      Step.bind_error (ready_released released) _
    exact ⟨s.engine.messages, by rw [refused]⟩
  · rcases produce_cases S sound.engine.toFit held k sound.traced fun isOpen =>
      (sound.blamed isOpen).imp fun _ blamed => blamed.1 with ⟨e, _, run⟩ | ⟨r, messages, _, run⟩
    · exact ⟨s.engine.messages, by rw [run]⟩
    · exact ⟨messages, by rw [run]⟩

theorem proper_produce (k : ReportKind) :
    Proper S limit (produce (Replay.engine S) k) ∧
      ∀ s r t, S.BlamesAssumptions → Sound S limit s → produce (Replay.engine S) k s = (.ok r, t) →
        r.ending.Safe := by
  have cases (s : Session Replay.State) (sound : Sound S limit s) (held : s.released = false) :=
    produce_cases S sound.engine.toFit held k sound.traced fun isOpen =>
      (sound.blamed isOpen).imp fun _ blamed => blamed.1
  have refuses (s : Session Replay.State) (released : s.released = true) :
      produce (Replay.engine S) k s = (.error .notReady, s) :=
    Step.bind_error (ready_released released) _
  refine ⟨proper_of_held refuses fun s sound held => ?_, fun s r t blames sound produced => ?_⟩
  · rcases cases s sound held with ⟨e, kind, run⟩ | ⟨r, messages, _, run⟩ <;> rw [run]
    · refine ⟨?_, sound, rfl⟩
      rcases kind with rfl | rfl <;> exact id
    · exact ⟨trivial, sound.silent messages, rfl⟩
  · cases released : s.released with
    | true =>
      rw [refuses s released] at produced
      simp at produced
    | false =>
      rcases cases s sound released with ⟨e, kind, run⟩ | ⟨r', messages, safe, run⟩ <;>
        rw [run] at produced
      · simp at produced
      · obtain ⟨same, _⟩ := Prod.mk.inj produced
        rw [← Outcome.ok.inj same]
        exact safe blames

theorem writeReport_behaves (sound : Sound S limit s) (k : ReportKind) (d : Destination) :
    Sound S limit (writeReport (Replay.engine S) k d s).2 ∧
      (S.BlamesAssumptions → s.poisoned = false → d.Calm →
        (writeReport (Replay.engine S) k d s).1.1.Safe ∧
          (writeReport (Replay.engine S) k d s).2.poisoned = false) := by
  cases poisoned : s.poisoned
  · obtain ⟨proper, ends⟩ : Proper S limit _ ∧ _ := proper_produce k
    obtain ⟨safe, after, same⟩ := proper s sound
    obtain ⟨calls, unlocked⟩ := writeReport_sound poisoned (Replay.engine S) k d
    refine ⟨unlocked ▸ after.unlocked _ calls, fun blames _ calm => ?_⟩
    have safely : (writeReport (Replay.engine S) k d s).1.1.Safe := by
      rw [writeReport, if_neg (by simp [poisoned]), runReport]
      rcases produced : produce (Replay.engine S) k s with ⟨r | e | p, t⟩ <;> rw [produced] at safe
      · have delivers := Transfer.redirect_safe (ends s r t blames sound produced) calm
        rcases sent : Transfer.redirect r d with ⟨a | e | p, d'⟩ <;>
          simp only [sent] at delivers ⊢ <;> exact delivers
      · exact safe
      · exact safe.elim
    refine ⟨safely, ?_⟩
    rw [unlocked]
    simp [same, poisoned, Outcome.isPanic_of_safe safely]
  · rw [writeReport_poisoned poisoned]
    exact ⟨sound, fun _ h => by simp at h⟩

theorem delete_sound (sound : Sound S limit s) :
    Sound S limit (delete (Replay.engine S) s).2 ∧
      (delete (Replay.engine S) s).2.poisoned = s.poisoned := by
  unfold delete
  split
  · exact ⟨sound, rfl⟩
  · exact ⟨⟨sound.engine, sound.idle, sound.traced, sound.blamed, sound.refuted⟩, rfl⟩

theorem configure_eq (S : Cnf.Solver) (options : Config) :
    configure (Replay.engine S) options {} = (.ok (), {
      limit := options.propagationLimit
      verbosity := options.verbosity
      lead := options.lead
      output := options.output
      tracing := options.traceGeneration }) := by
  obtain ⟨limit, output, verbosity, lead, measureAllCalls, tracing⟩ := options
  rcases Nat.eq_zero_or_pos limit with rfl | bounded
  · cases tracing <;> rfl
  · simp only [configure, bounded, if_true]
    cases tracing <;> rfl

theorem create_sound (S : Cnf.Solver) (options : Config) :
    ∃ s, (create (Replay.engine S) options {}).1 = .ok s ∧
      Sound S options.propagationLimit s ∧ s.poisoned = false := by
  refine ⟨_, by rw [create, configure_eq],
    ⟨⟨⟨rfl, ?_, ?_, ?_⟩, rfl, ?_⟩, rfl, fun on => on, ?_, ?_⟩, rfl⟩
  · exact Nat.zero_le _
  · exact Nat.le_refl 0
  · intro l hl
    simp at hl
  · intro _ inconsistent
    simp at inconsistent
  · intro isOpen
    simp [SolveState.windowOpen] at isOpen
  · intro _ isOpen
    simp [SolveState.windowOpen] at isOpen

end Session

def Operation.Calm : Operation → Prop
  | .report _ d => d.Calm
  | _ => True

namespace Client

open Session

variable {S limit} {α : Type} {c : Client Replay.State}

theorem answer_safe {x : Op Replay.State α} (reply : α → Reply)
    (behaves : Behaves S limit c.session (x c.session)) :
    Sound S limit (c.answer x reply).2.session ∧ (c.session.poisoned = false →
      (c.answer x reply).1.result.Safe ∧ (c.answer x reply).2.session.poisoned = false) := by
  unfold answer
  rcases ends : x c.session with ⟨a | e | p, t⟩ <;> rw [ends] at behaves <;> exact behaves

theorem advance_safe (sound : Sound S limit c.session) (i : Nat) :
    Sound S limit (c.advance (Replay.engine S) i).2.session ∧ (c.session.poisoned = false →
      (c.advance (Replay.engine S) i).1.result.Safe ∧
        (c.advance (Replay.engine S) i).2.session.poisoned = false) := by
  have behaves := proper_runNext.exclusive true sound
  unfold advance
  split
  · exact ⟨sound, fun fresh => ⟨trivial, fresh⟩⟩
  · change Behaves S limit c.session (nextSolution (Replay.engine S) c.session) at behaves
    rcases ends : nextSolution (Replay.engine S) c.session with ⟨(a | a) | e | p, t⟩ <;>
      rw [ends] at behaves <;> exact behaves

theorem perform_safe (sound : Sound S limit c.session) (o : Operation) :
    Sound S limit (c.perform (Replay.engine S) o).2.session ∧
      (S.BlamesAssumptions → c.session.poisoned = false → o.Calm →
        (c.perform (Replay.engine S) o).1.result.Safe ∧
          (c.perform (Replay.engine S) o).2.session.poisoned = false) := by
  have quietly {r : Answer × Client Replay.State} (safe : Sound S limit r.2.session ∧
      (c.session.poisoned = false → r.1.result.Safe ∧ r.2.session.poisoned = false)) :
      Sound S limit r.2.session ∧ (S.BlamesAssumptions → c.session.poisoned = false → o.Calm →
        r.1.result.Safe ∧ r.2.session.poisoned = false) :=
    ⟨safe.1, fun _ fresh _ => safe.2 fresh⟩
  cases o with
  | addClauses cs => exact quietly (answer_safe _ ((proper_ingestClauses cs).exclusive false sound))
  | addFormula f =>
    exact quietly (answer_safe _ ((proper_ingestLits f.clauses).exclusive false sound))
  | addClause k => exact quietly (answer_safe _ ((proper_ingestLits [k]).exclusive false sound))
  | blockSolution a =>
    exact quietly (answer_safe _ ((proper_ingestBlocking a).exclusive false sound))
  | solve => exact quietly (answer_safe _ (proper_runSolve.exclusive true sound))
  | advance i => exact quietly (advance_safe sound i)
  | assume l => exact quietly (answer_safe _ ((proper_runAssume l).exclusive false sound))
  | failedAssumption l =>
    have proper := proper_query fun s (sound : Sound S limit s) => failedAssumption_known sound l
    exact quietly (answer_safe _ (proper.shared sound))
  | failedAssumptions =>
    exact quietly (answer_safe _ (proper_runFailedAssumptions.exclusive false sound))
  | satisfiableSubset next =>
    exact quietly (answer_safe _ ((proper_runSubset next).exclusive false sound))
  | varCount => exact quietly (answer_safe _ ((proper_query fun s _ => ⟨_, rfl⟩).shared sound))
  | clauseCount => exact quietly (answer_safe _ ((proper_query fun s _ => ⟨_, rfl⟩).shared sound))
  | lastStatus => exact quietly (answer_safe _ ((proper_query fun s _ => ⟨_, rfl⟩).shared sound))
  | elapsedIsZero => exact quietly (answer_safe _ ((proper_query fun s _ => ⟨_, rfl⟩).shared sound))
  | delete =>
    obtain ⟨after, same⟩ := delete_sound sound
    exact ⟨after, fun _ fresh _ => ⟨trivial, same.trans fresh⟩⟩
  | report k d =>
    have reported := writeReport_behaves sound k d
    simp only [perform]
    rcases ends : writeReport (Replay.engine S) k d c.session with ⟨⟨a | e | p, d'⟩, t⟩ <;>
      rw [ends] at reported <;> exact reported

theorem run_sound (sound : Sound S limit c.session)
    (os : List Operation) : Sound S limit (c.run (Replay.engine S) os).2.session := by
  induction os generalizing c with
  | nil => exact sound
  | cons o os ih => exact ih (perform_safe sound o).1

theorem run_safe (blames : S.BlamesAssumptions) (sound : Sound S limit c.session)
    (fresh : c.session.poisoned = false) {os : List Operation} (calm : ∀ o ∈ os, o.Calm) :
    (∀ a ∈ (c.run (Replay.engine S) os).1, a.result.Safe) ∧
      (c.run (Replay.engine S) os).2.session.poisoned = false := by
  induction os generalizing c with
  | nil => exact ⟨fun a ha => by simp [run] at ha, fresh⟩
  | cons o os ih =>
    obtain ⟨after, safely⟩ := perform_safe sound o
    obtain ⟨safe, still⟩ := safely blames fresh (calm o List.mem_cons_self)
    obtain ⟨rest, final⟩ := ih after still fun o' ho => calm o' (List.mem_cons_of_mem o ho)
    exact ⟨List.forall_mem_cons.mpr ⟨safe, rest⟩, final⟩

def Reachable (S : Cnf.Solver) (options : Config) (c : Client Replay.State) : Prop :=
  ∃ s os, (create (Replay.engine S) options {}).1 = .ok s ∧
    (run (Replay.engine S) ⟨s, []⟩ os).2 = c

theorem Reachable.sound {options : Config} (reachable : Reachable S options c) :
    Sound S options.propagationLimit c.session := by
  obtain ⟨s, os, created, rfl⟩ := reachable
  obtain ⟨s', created', sound, _⟩ := create_sound S options
  obtain rfl := Outcome.ok.inj (created.symm.trans created')
  exact run_sound sound os

end Client

/-- With a solver that blames only assumptions, every session can be created, and no sequence of
operations panics, poisons the session, or finds the engine's answers unusable. -/
theorem operations_safe {S : Cnf.Solver} (blames : S.BlamesAssumptions) (options : Config)
    (os : List Operation) (calm : ∀ o ∈ os, o.Calm) :
    ∃ s, (Session.create (Replay.engine S) options {}).1 = .ok s ∧
      (∀ a ∈ (Client.run (Replay.engine S) ⟨s, []⟩ os).1, a.result.Safe) ∧
      (Client.run (Replay.engine S) ⟨s, []⟩ os).2.session.poisoned = false := by
  obtain ⟨s, created, sound, fresh⟩ := Session.create_sound S options
  exact ⟨s, created, Client.run_safe blames sound fresh calm⟩

-- The destination takes three bytes of the core and refuses the rest.
theorem refuted_session_safe :
    ∃ s, (Session.create (Replay.engine Cnf.Search.solver) { traceGeneration := true } {}).1 = .ok s ∧
      (∀ a ∈ (Client.run (Replay.engine Cnf.Search.solver) ⟨s, []⟩
          [.addClauses [[1, -2], [2]], .assume ⟨-1, by decide, by decide⟩, .solve,
            .failedAssumptions, .report .clausalCore { capacity := some 3 }]).1, a.result.Safe) ∧
      (Client.run (Replay.engine Cnf.Search.solver) ⟨s, []⟩
          [.addClauses [[1, -2], [2]], .assume ⟨-1, by decide, by decide⟩, .solve,
            .failedAssumptions, .report .clausalCore { capacity := some 3 }]).2.session.poisoned =
        false :=
  operations_safe Cnf.Search.solver_blames _ _ (by simp [Operation.Calm, Destination.Calm])

end SatSession
