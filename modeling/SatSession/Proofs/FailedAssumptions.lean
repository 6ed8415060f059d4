import SatSession.Proofs.Assumptions
import SatSession.Proofs.Cores
import SatSession.Proofs.Effects

set_option autoImplicit false

namespace SatSession

open Cnf Replay

structure Cnf.Solver.Explains (S : Cnf.Solver) : Prop where
  blames : S.BlamesAssumptions
  refutes : ∀ {limit cs as failed}, S.run limit cs as = .refuted failed →
    ¬Satisfiable (cs ++ units failed)

theorem Cnf.Solver.Correct.explains {S : Cnf.Solver} (correct : S.Correct) : S.Explains :=
  ⟨correct.refuted_subset, correct.refuted_unsat⟩

namespace Replay.State

variable {S : Cnf.Solver} {s : Replay.State}

structure Refuted (S : Cnf.Solver) (s : Replay.State) (named : List Cnf.Literal) : Prop where
  consumed : s.consumed = true
  verdict : S.run s.limit s.clauses (s.assumptions.map .ofLit) = .refuted named
  outcome : s.outcome =
    .unsatisfiable (s.assumptions.filter fun l => named.contains (.ofLit l)).eraseDups
  inconsistent : named = [] → s.inconsistent = true

theorem Refuted.said {named : List Cnf.Literal} (refuted : s.Refuted S named)
    (messages : List Message) : ({ s with messages := messages } : Replay.State).Refuted S named :=
  ⟨refuted.consumed, refuted.verdict, refuted.outcome, refuted.inconsistent⟩

theorem refuted_decided (unsatisfiable : (s.decided S).1 = .unsatisfiable) :
    ∃ named, (s.decided S).2.Refuted S named := by
  cases found : s.verdict S with
  | refuted named =>
    rw [decided_refuted found]
    refine ⟨named, rfl, found, rfl, fun none => ?_⟩
    simp [none]
  | model lits => simp [decided_model found] at unsatisfiable
  | exhausted =>
    rw [State.decided, found] at unsatisfiable
    cases unsatisfiable

structure Blames (s : Replay.State) (failed : List Lit) : Prop where
  outcome : s.outcome = .unsatisfiable failed
  ordered : failed.Sublist s.assumptions.eraseDups
  incompatible : ¬Compatible s.formula.clauses failed
  inconsistent : failed = [] → s.inconsistent = true

theorem Refuted.blames (explains : S.Explains) {named : List Cnf.Literal}
    (refuted : s.Refuted S named) : ∃ failed, s.Blames failed := by
  let failed := (s.assumptions.filter fun l => named.contains (.ofLit l)).eraseDups
  have all : ∀ k ∈ named, ∃ l ∈ failed, k = .ofLit l := by
    intro k hk
    obtain ⟨l, hl, rfl⟩ := List.mem_map.mp (explains.blames refuted.verdict k hk)
    have blamed : l ∈ s.assumptions.filter fun l => named.contains (.ofLit l) :=
      List.mem_filter.mpr ⟨hl, List.contains_iff_mem.mpr hk⟩
    exact ⟨l, List.mem_eraseDups.mpr blamed, rfl⟩
  refine ⟨failed, refuted.outcome, ?_, ?_, ?_⟩
  · have filtered : failed = s.assumptions.eraseDups.filter fun l => named.contains (.ofLit l) :=
      eraseDups_filter _ _
    rw [filtered]
    exact List.filter_sublist
  · intro compatible
    obtain ⟨v, clauses, assumed⟩ := compatible_iff.mp compatible
    apply explains.refutes refuted.verdict
    refine ⟨v, ?_⟩
    rw [holdsAll_append, Bool.and_eq_true]
    refine ⟨clauses, holdsAll_units_iff.mpr fun k hk => ?_⟩
    obtain ⟨l, hl, rfl⟩ := all k hk
    exact assumed l hl
  · intro none
    apply refuted.inconsistent
    rw [List.eq_nil_iff_forall_not_mem]
    intro k hk
    obtain ⟨l, hl, -⟩ := all k hk
    simp [none] at hl

end Replay.State

namespace Client

open Session

variable {S : Cnf.Solver} {limit : Nat} {c : Client Replay.State}

-- A refutation that can be queried is still that of the engine.
def Recalls (S : Cnf.Solver) (c : Client Replay.State) : Prop :=
  c.session.state.windowOpen = true → ∃ named, c.session.engine.Refuted S named

theorem recalls_perform (sound : Sound S limit c.session) (recalls : c.Recalls S)
    (o : Operation) : (c.perform (Replay.engine S) o).2.Recalls S := by
  obtain ⟨e, state, messages, effect, engine, known⟩ := perform_ends sound o
  intro isOpen
  rw [known] at isOpen
  have kept : ∃ named, e.Refuted S named := by
    generalize (c.perform (Replay.engine S) o).1.result = answer at effect
    cases effect with
    | refused | asked | idle | inconsistent => exact recalls isOpen
    | solved | ended =>
      rw [SolveState.windowOpen_next, beq_iff_eq, Event.solved.injEq] at isOpen
      exact State.refuted_decided isOpen
    | ingested | blocked | assumed | yielded | interrupted | refuted | extended =>
      rw [SolveState.windowOpen_next] at isOpen
      cases isOpen
  obtain ⟨named, refuted⟩ := kept
  rw [engine]
  exact ⟨named, refuted.said messages⟩

theorem recalls_run (sound : Sound S limit c.session) (recalls : c.Recalls S)
    (os : List Operation) : (c.run (Replay.engine S) os).2.Recalls S := by
  induction os generalizing c with
  | nil => exact recalls
  | cons o os ih => exact ih (perform_safe sound o).1 (recalls_perform sound recalls o)

theorem Reachable.recalls {options : Config} (reachable : Reachable S options c) :
    c.Recalls S := by
  obtain ⟨s, os, created, rfl⟩ := reachable
  obtain ⟨s', created', sound, -⟩ := create_sound S options
  obtain rfl := Outcome.ok.inj (created.symm.trans created')
  refine recalls_run sound (fun isOpen => ?_) os
  have unsolved : s.state = .noResult := by
    rw [create, configure_eq] at created
    cases created
    rfl
  rw [unsolved] at isOpen
  cases isOpen

theorem failed_answered (fit : c.session.engine.Fit) (live : c.session.released = false)
    (fresh : c.session.poisoned = false) {failed : List Lit}
    (blamed : c.session.state.windowOpen = true → Blamed c.session.engine failed)
    (closed : c.session.state.windowOpen = false → failed = []) :
    (c.perform (Replay.engine S) .failedAssumptions).1.result = .ok (.literals failed) ∧
      ∀ l, (c.perform (Replay.engine S) (.failedAssumption l)).1.result =
        .ok (.flag (decide (l ∈ failed))) := by
  have listed := runFailedAssumptions_eq S fit live blamed
  obtain ⟨calls, unlocked⟩ := exclusive_ok fresh listed false
  constructor
  · have answer := answer_ok unlocked .literals
    rw [perform, failedAssumptions, answer]
    cases isOpen : c.session.state.windowOpen <;> simp [closed, isOpen]
  · intro l
    have asked := failedAssumption_eq S (fun isOpen => (blamed isOpen).1) l
    have answer := answer_ok (shared_ok fresh live asked) .flag
    rw [perform, Session.failedAssumption, answer]
    cases isOpen : c.session.state.windowOpen <;> simp [closed, isOpen]

end Client

/-- In a session that is neither deleted nor poisoned the query for one failed assumption agrees
with their list. The list is a part of what the last solve call assumed, in the order of the first
time each was assumed. While a refutation can be queried, the clauses do not allow these literals
together, and an empty list means that they are inconsistent by themselves. -/
theorem failed_assumptions_agree {S : Cnf.Solver} (explains : S.Explains) {options : Config}
    {s : Session Replay.State} (created : (Session.create (Replay.engine S) options {}).1 = .ok s)
    (os : List Operation) :
    let past := Client.chronicle (Replay.engine S) ⟨s, []⟩ os
    let c := (Client.run (Replay.engine S) ⟨s, []⟩ os).2
    let e := c.session.engine
    c.session.released = false → c.session.poisoned = false →
    ∃ failed,
      (c.perform (Replay.engine S) .failedAssumptions).1.result = .ok (.literals failed) ∧
      (∀ l, (c.perform (Replay.engine S) (.failedAssumption l)).1.result =
        .ok (.flag (decide (l ∈ failed)))) ∧
      failed.Nodup ∧ failed.Sublist (solvedAssumptions (recorded past)).eraseDups ∧
      (c.session.state.windowOpen = true → ¬Compatible e.formula.clauses failed ∧
        (failed = [] → ¬Satisfiable e.clauses ∧
          ((Replay.engine S).inconsistent e).1 = .ok true)) := by
  intro past c e live fresh
  have reachable : c.Reachable S options := ⟨s, os, created, rfl⟩
  have sound := reachable.sound
  obtain ⟨since, counting⟩ : e.pending = assumedSince (recorded past) ∧
      e.assumptions = countingAssumptions (recorded past) := run_heeds created os
  cases isOpen : c.session.state.windowOpen with
  | false =>
    obtain ⟨listed, asked⟩ := Client.failed_answered sound.engine.toFit live fresh
      (by simp [isOpen]) fun _ => rfl
    exact ⟨[], listed, asked, List.nodup_nil, List.nil_sublist _, nofun⟩
  | true =>
    obtain ⟨named, refuted⟩ := reachable.recalls isOpen
    obtain ⟨failed, blames⟩ := refuted.blames explains
    have distinct : failed.Nodup := blames.ordered.nodup (nodup_eraseDups _)
    have within : ∀ l ∈ failed, l ∈ e.assumptions :=
      fun l hl => List.mem_eraseDups.mp (blames.ordered.subset hl)
    obtain ⟨listed, asked⟩ := Client.failed_answered sound.engine.toFit live fresh
      (fun _ => ⟨blames.outcome, distinct, within⟩) (by simp [isOpen])
    have ordered : failed.Sublist (solvedAssumptions (recorded past)).eraseDups := by
      have ordered := blames.ordered
      rcases countingAssumptions_cases (recorded past) with pending | solved
      · -- None are pending after a solve call, so it has blamed nothing.
        have none : e.assumptions = [] := by
          rw [counting, pending, ← since]
          exact State.pending_of_consumed refuted.consumed
        rw [none] at ordered
        rw [List.sublist_nil.mp ordered]
        exact List.nil_sublist _
      · rwa [counting, solved] at ordered
    refine ⟨failed, listed, asked, distinct, ordered, fun _ => ?_⟩
    refine ⟨blames.incompatible, fun none => ?_⟩
    have incompatible := blames.incompatible
    rw [none, compatible_nil] at incompatible
    exact ⟨incompatible, congrArg Outcome.ok (blames.inconsistent none)⟩

-- Repeated and complementary assumptions, of which two are to blame.
theorem complementary_assumptions_fail :
    let l : Lit := ⟨1, by decide, by decide⟩
    let k : Lit := ⟨2, by decide, by decide⟩
    let os : List Operation := [.addClauses [[3]], .assume k, .assume l, .assume l, .assume l.neg,
      .solve]
    ∃ s, (Session.create (Replay.engine Search.solver) {} {}).1 = .ok s ∧
      let past := Client.chronicle (Replay.engine Search.solver) ⟨s, []⟩ os
      let c := (Client.run (Replay.engine Search.solver) ⟨s, []⟩ os).2
      c.session.released = false ∧ c.session.poisoned = false ∧
        c.session.state.windowOpen = true ∧ solvedAssumptions (recorded past) = [k, l, l, l.neg] ∧
      ∃ failed,
        (c.perform (Replay.engine Search.solver) .failedAssumptions).1.result =
          .ok (.literals failed) ∧
        (∀ m, (c.perform (Replay.engine Search.solver) (.failedAssumption m)).1.result =
          .ok (.flag (decide (m ∈ failed)))) ∧
        failed.Sublist [k, l, l.neg] ∧ ¬Compatible c.session.engine.formula.clauses failed := by
  intro l k os
  have created := (rfl : (Session.create (Replay.engine Search.solver) {} {}).1 = .ok _)
  refine ⟨_, created, ?_⟩
  intro past c
  obtain ⟨live, fresh, isOpen, assumed⟩ : c.session.released = false ∧
      c.session.poisoned = false ∧ c.session.state.windowOpen = true ∧
      solvedAssumptions (recorded past) = [k, l, l, l.neg] := by
    simp only [c, past, os, l, k]
    decide +kernel
  obtain ⟨failed, listed, asked, _, ordered, refuted⟩ :=
    failed_assumptions_agree Search.solver_correct.explains created os live fresh
  have once : (solvedAssumptions (recorded past)).eraseDups = [k, l, l.neg] := by
    rw [assumed]
    decide
  rw [once] at ordered
  exact ⟨live, fresh, isOpen, assumed, failed, listed, asked, ordered, (refuted isOpen).1⟩

end SatSession
