import SatSession.Proofs.Safety
import SatSession.Proofs.Solutions

/-!
Iterators over the solutions of one session. However their steps are interleaved, each step takes
one solution away from those that are left, so together they yield every solution once and all of
them come to an end.
-/

set_option autoImplicit false

namespace SatSession

open Replay Cnf

structure Remaining (S : Cnf.Solver) (limit : Nat) (solutions : List Assignment)
    (s : Session Replay.State) : Prop extends s.Live S limit where
  distinct : solutions.Nodup
  exact : ∀ a, a ∈ solutions ↔
    isSolution s.engine.formula.clauses [] s.engine.varCount a = true

structure Enumerating (S : Cnf.Solver) (solutions : List Assignment) (s : Session Replay.State) :
    Prop extends Remaining S 0 solutions s where
  compatible : s.engine.pending = [] ∨ Cnf.Compatible s.engine.formula.clauses s.engine.pending

namespace Session

variable {S : Cnf.Solver} {limit : Nat} {s : Session Replay.State} {solutions : List Assignment}

theorem nextSolution_found (remaining : Remaining S limit solutions s) (correct : S.Correct)
    {lits : List Cnf.Literal} (found : s.engine.verdict S = .model lits) :
    ∃ a t, nextSolution (Replay.engine S) s = (.ok (some a), t) ∧ a ∈ solutions ∧
      isSolution s.engine.formula.clauses s.engine.pending s.engine.varCount a = true ∧
      Remaining S limit (solutions.erase a) t ∧ t.engine.pending = [] ∧
      t.engine.formula.size = s.engine.formula.size + 1 := by
  have sound := remaining.sound
  have within := sound.engine.within
  obtain ⟨messages, run⟩ := runNext_found S sound.engine.toFit remaining.held sound.idle found
  rw [State.decided_model found] at run
  obtain ⟨calls, next, after⟩ := remaining.exclusive proper_runNext run remaining.held true
  obtain ⟨consistent, covers, assumed⟩ := correct.model_covers found
  let a := Assignment.ofModel s.engine.varCount lits
  have solves : isSolution s.engine.formula.clauses s.engine.pending s.engine.varCount a = true :=
    isSolution_ofModel within consistent covers assumed
  have free : isSolution s.engine.formula.clauses [] s.engine.varCount a = true :=
    isSolution_ofModel within.free consistent covers (by simp)
  have size : a.size = s.engine.varCount + 1 := Assignment.size_ofModel _ _
  have count : max s.engine.varCount a.blocker.maxVar = s.engine.varCount :=
    Nat.max_eq_left (Clause.maxVar_le_iff.mpr fun l hl => var_le_of_mem_blocker size hl)
  refine ⟨a, _, next, (remaining.exact a).mpr free, solves, ?_,
    (State.pending_of_fresh rfl).trans (State.pending_of_consumed rfl), Formula.size_add _ _⟩
  refine ⟨after, remaining.distinct.erase a, fun b => ?_⟩
  change _ ↔ isSolution (s.engine.formula.add a.blocker).clauses []
    (max s.engine.varCount a.blocker.maxVar) b = true
  rw [Formula.clauses_add, count, isSolution_blocked within.free sound.engine.small free, and_comm,
    remaining.distinct.mem_erase_iff, remaining.exact]

-- The assumptions of the first step are no obstacle, and later steps have none.
theorem nextSolution_ended (enumerating : Enumerating S solutions s) (correct : S.Correct)
    {failed : List Cnf.Literal} (found : s.engine.verdict S = .refuted failed) :
    solutions = [] ∧ ∃ t, nextSolution (Replay.engine S) s = (.ok none, t) ∧
      Enumerating S [] t ∧ t.engine.formula.size = s.engine.formula.size ∧
      t.state.status = some .unsatisfiable := by
  have sound := enumerating.sound
  have within := sound.engine.within
  have refuted : ¬Cnf.Compatible s.engine.formula.clauses s.engine.pending := correct.refutes found
  have unassuming : s.engine.pending = [] := enumerating.compatible.resolve_right refuted
  have none : solutions = [] := by
    refine List.eq_nil_iff_forall_not_mem.mpr fun a ha => refuted ?_
    rw [unassuming]
    exact (compatible_iff_isSolution within.free).mpr ⟨a, (enumerating.exact a).mp ha⟩
  obtain ⟨messages, run⟩ :=
    runNext_ended S sound.engine.toFit enumerating.held (by rw [found]; rfl)
  rw [State.decided_refuted found] at run
  obtain ⟨calls, next, after⟩ := enumerating.exclusive proper_runNext run enumerating.held true
  refine ⟨none, _, next, ?_, rfl, rfl⟩
  exact ⟨⟨after, List.nodup_nil, none ▸ enumerating.exact⟩, .inl (State.pending_of_consumed rfl)⟩

theorem nextSolution_cases (enumerating : Enumerating S solutions s) (correct : S.Correct) :
    (∃ a t, nextSolution (Replay.engine S) s = (.ok (some a), t) ∧ a ∈ solutions ∧
      isSolution s.engine.formula.clauses s.engine.pending s.engine.varCount a = true ∧
      Enumerating S (solutions.erase a) t ∧
      t.engine.formula.size = s.engine.formula.size + 1) ∨
    solutions = [] ∧ ∃ t, nextSolution (Replay.engine S) s = (.ok none, t) ∧
      Enumerating S [] t ∧ t.engine.formula.size = s.engine.formula.size ∧
      t.state.status = some .unsatisfiable := by
  cases found : s.engine.verdict S with
  | model lits =>
    obtain ⟨a, t, next, mem, solves, left, unassuming, grown⟩ :=
      nextSolution_found enumerating.toRemaining correct found
    exact .inl ⟨a, t, next, mem, solves, ⟨left, .inl unassuming⟩, grown⟩
  | refuted failed => exact .inr (nextSolution_ended enumerating correct found)
  | exhausted =>
    unfold State.verdict at found
    rw [enumerating.sound.engine.limited] at found
    exact absurd found correct.decides

end Session

def Answer.solution? (a : Answer) : Option Assignment :=
  match a.result with
  | .ok (.item solution) => solution
  | _ => none

def yielded (answers : List Answer) : List Assignment := answers.filterMap Answer.solution?

@[simp] theorem yielded_some (a : Assignment) (answers : List Answer) :
    yielded (⟨.ok (.item (some a)), []⟩ :: answers) = a :: yielded answers := rfl

@[simp] theorem yielded_none (answers : List Answer) :
    yielded (⟨.ok (.item none), []⟩ :: answers) = yielded answers := rfl

namespace Client

variable {S : Cnf.Solver} {c : Client Replay.State} {solutions : List Assignment}

theorem advance_ended {i : Nat} (ended : i ∈ c.ended) :
    c.advance (Replay.engine S) i = (⟨.ok (.item none), []⟩, c) := by
  rw [advance, if_pos ended]

theorem advance_found {i : Nat} (running : i ∉ c.ended) {a : Assignment}
    {t : Session Replay.State}
    (next : Session.nextSolution (Replay.engine S) c.session = (.ok (some a), t)) :
    c.advance (Replay.engine S) i = (⟨.ok (.item (some a)), []⟩, ⟨t, c.ended⟩) := by
  rw [advance, if_neg running, next]
  rfl

theorem advance_none {i : Nat} (running : i ∉ c.ended) {t : Session Replay.State}
    (next : Session.nextSolution (Replay.engine S) c.session = (.ok none, t)) :
    c.advance (Replay.engine S) i = (⟨.ok (.item none), []⟩, ⟨t, i :: c.ended⟩) := by
  rw [advance, if_neg running, next]

/-- What a schedule of iterators has done, with `rest` for the solutions that it left. -/
structure Enumerated (S : Cnf.Solver) (c : Client Replay.State) (solutions : List Assignment)
    (schedule : List Nat) (rest : List Assignment) (r : List Answer × Client Replay.State) :
    Prop where
  left : Enumerating S rest r.2.session
  items : ∀ a ∈ r.1, ∃ solution, a.result = .ok (.item solution)
  shared : (yielded r.1 ++ rest).Perm solutions
  added : r.2.session.engine.formula.size =
    c.session.engine.formula.size + (yielded r.1).length
  first : ∀ a, (yielded r.1).head? = some a → isSolution c.session.engine.formula.clauses
    c.session.engine.pending c.session.engine.varCount a = true
  kept : ∀ i ∈ c.ended, i ∈ r.2.ended
  counted : ∀ i, i ∉ r.2.ended → schedule.count i ≤ (yielded r.1).length
  -- Once an iterator has ended there is nothing left, for the others too.
  done : (∃ i ∈ r.2.ended, i ∉ c.ended) ∨
      solutions = [] ∧ c.session.state.status = some .unsatisfiable →
    rest = [] ∧ r.2.session.state.status = some .unsatisfiable

variable {schedule : List Nat} {rest : List Assignment} {r : List Answer × Client Replay.State}

theorem Enumerated.skip (later : Enumerated S c solutions schedule rest r) {i : Nat}
    (ended : i ∈ c.ended) :
    Enumerated S c solutions (i :: schedule) rest (⟨.ok (.item none), []⟩ :: r.1, r.2) where
  left := later.left
  items := List.forall_mem_cons.mpr ⟨⟨none, rfl⟩, later.items⟩
  shared := later.shared
  added := later.added
  first := later.first
  kept := later.kept
  counted j running := by
    have other : i ≠ j := by
      rintro rfl
      exact running (later.kept i ended)
    rw [List.count_cons_of_ne other]
    exact later.counted j running
  done := later.done

theorem Enumerated.yield {i : Nat} {a : Assignment} {t : Session Replay.State}
    (later : Enumerated S ⟨t, c.ended⟩ (solutions.erase a) schedule rest r) (mem : a ∈ solutions)
    (solves : isSolution c.session.engine.formula.clauses c.session.engine.pending
      c.session.engine.varCount a = true)
    (grown : t.engine.formula.size = c.session.engine.formula.size + 1) :
    Enumerated S c solutions (i :: schedule) rest
      (⟨.ok (.item (some a)), []⟩ :: r.1, r.2) where
  left := later.left
  items := List.forall_mem_cons.mpr ⟨⟨some a, rfl⟩, later.items⟩
  shared := (later.shared.cons a).trans (List.perm_cons_erase mem).symm
  added := by
    rw [later.added, yielded_some, List.length_cons, grown]
    omega
  first b hb := by
    obtain rfl : a = b := Option.some.inj hb
    exact solves
  kept := later.kept
  counted j running := by
    have rest := later.counted j running
    rw [yielded_some, List.length_cons, List.count_cons]
    split <;> omega
  done ended := by
    refine later.done (.inl (ended.resolve_right ?_))
    rintro ⟨none, _⟩
    simp [none] at mem

theorem Enumerated.finish {i : Nat} {t : Session Replay.State}
    (later : Enumerated S ⟨t, i :: c.ended⟩ [] schedule rest r)
    (same : t.engine.formula.size = c.session.engine.formula.size)
    (status : t.state.status = some .unsatisfiable) :
    Enumerated S c [] (i :: schedule) rest (⟨.ok (.item none), []⟩ :: r.1, r.2) where
  left := later.left
  items := List.forall_mem_cons.mpr ⟨⟨none, rfl⟩, later.items⟩
  shared := later.shared
  added := by rw [later.added, yielded_none, same]
  first a ha := by
    have nothing : yielded r.1 = [] := (List.append_eq_nil_iff.mp later.shared.eq_nil).1
    rw [yielded_none, nothing] at ha
    simp at ha
  kept j ended := later.kept j (List.mem_cons_of_mem i ended)
  counted j running := by
    have other : i ≠ j := by
      rintro rfl
      exact running (later.kept i List.mem_cons_self)
    rw [List.count_cons_of_ne other]
    exact later.counted j running
  done _ := later.done (.inr ⟨rfl, status⟩)

theorem run_advances (correct : S.Correct) (schedule : List Nat) {c : Client Replay.State}
    {solutions : List Assignment} (enumerating : Enumerating S solutions c.session) :
    ∃ rest, Enumerated S c solutions schedule rest
      (c.run (Replay.engine S) (schedule.map .advance)) := by
  induction schedule generalizing c solutions with
  | nil =>
    refine ⟨solutions, enumerating, ?_, List.Perm.refl _, rfl, ?_, fun _ ended => ended,
      fun _ _ => Nat.zero_le _, ?_⟩
    · intro a ha
      simp [run] at ha
    · intro a ha
      simp [run, yielded] at ha
    · rintro (⟨i, hi, new⟩ | done)
      · exact absurd hi new
      · exact done
  | cons i schedule ih =>
    have step : c.run (Replay.engine S) ((i :: schedule).map .advance) =
        ((c.advance (Replay.engine S) i).1 ::
          ((c.advance (Replay.engine S) i).2.run (Replay.engine S) (schedule.map .advance)).1,
        ((c.advance (Replay.engine S) i).2.run (Replay.engine S) (schedule.map .advance)).2) := rfl
    rw [step]
    by_cases ended : i ∈ c.ended
    · rw [advance_ended ended]
      obtain ⟨rest, later⟩ := ih enumerating
      exact ⟨rest, later.skip ended⟩
    · rcases Session.nextSolution_cases enumerating correct with
        ⟨a, t, next, mem, solves, left, grown⟩ | ⟨rfl, t, next, left, same, status⟩
      · rw [advance_found ended next]
        obtain ⟨rest, later⟩ := ih (c := ⟨t, c.ended⟩) left
        exact ⟨rest, later.yield mem solves grown⟩
      · rw [advance_none ended next]
        obtain ⟨rest, later⟩ := ih (c := ⟨t, i :: c.ended⟩) left
        exact ⟨rest, later.finish same status⟩

theorem run_exhausted (correct : S.Correct) (left : Enumerating S [] c.session)
    (status : c.session.state.status = some .unsatisfiable) (j : Nat) :
    (c.run (Replay.engine S) [.clauseCount, .lastStatus, .advance j]).1 =
      [⟨.ok (.count c.session.engine.formula.size), []⟩, ⟨.ok (.status (some .unsatisfiable)), []⟩,
        ⟨.ok (.item none), []⟩] := by
  have count : c.perform (Replay.engine S) .clauseCount =
      (⟨.ok (.count c.session.engine.formula.size), []⟩, c) :=
    answer_ok (Session.shared_ok (f := Session.call (Replay.engine S).clauseCount)
      left.fresh left.held rfl) .count
  have last : c.perform (Replay.engine S) .lastStatus =
      (⟨.ok (.status (some .unsatisfiable)), []⟩, c) := by
    refine answer_ok (Session.shared_ok left.fresh left.held ?_) .status
    rw [Step.bind_ok (Step.get_apply _), status]
    rfl
  have item : (c.perform (Replay.engine S) (.advance j)).1 = ⟨.ok (.item none), []⟩ := by
    change (c.advance (Replay.engine S) j).1 = _
    by_cases ended : j ∈ c.ended
    · rw [advance_ended ended]
    · rcases Session.nextSolution_cases left correct with
        ⟨a, t, _, mem, _⟩ | ⟨_, t, next, _⟩
      · exact absurd mem List.not_mem_nil
      · rw [advance_none ended next]
  simp only [run, count, last, item]

end Client

/-- Iterators on a session yield its solutions between them, in any interleaving of their steps:
no step fails, each comes to an end, and by then every solution was yielded exactly once. -/
theorem interleaved_iterators {S : Cnf.Solver} (correct : S.Correct) {options : Config}
    (unlimited : options.propagationLimit = 0) {c : Client Replay.State}
    (reachable : c.Reachable S options) (live : c.session.released = false)
    (fresh : c.session.poisoned = false)
    (compatible : c.session.engine.pending = [] ∨
      Cnf.Compatible c.session.engine.formula.clauses c.session.engine.pending)
    {iterators : List Nat} (nonempty : iterators ≠ []) (running : ∀ i ∈ iterators, i ∉ c.ended) :
    ∃ solutions : List Assignment, solutions.Nodup ∧
      (∀ a, a ∈ solutions ↔
        isSolution c.session.engine.formula.clauses [] c.session.engine.varCount a = true) ∧
      ∀ schedule : List Nat, (∀ i ∈ schedule, i ∈ iterators) →
        let r := c.run (Replay.engine S) (schedule.map .advance)
        (∀ a ∈ r.1, ∃ solution, a.result = .ok (.item solution)) ∧
        (yielded r.1).Subperm solutions ∧
        (∀ a, (yielded r.1).head? = some a → isSolution c.session.engine.formula.clauses
          c.session.engine.pending c.session.engine.varCount a = true) ∧
        ((∀ i ∈ iterators, solutions.length < schedule.count i) →
          ∀ i ∈ iterators, i ∈ r.2.ended) ∧
        ((∀ i ∈ iterators, i ∈ r.2.ended) →
          (yielded r.1).Perm solutions ∧
          ∀ j, (r.2.run (Replay.engine S) [.clauseCount, .lastStatus, .advance j]).1 =
            [⟨.ok (.count (c.session.engine.formula.size + solutions.length)), []⟩,
              ⟨.ok (.status (some .unsatisfiable)), []⟩, ⟨.ok (.item none), []⟩]) := by
  have sound := reachable.sound
  rw [unlimited] at sound
  obtain ⟨solutions, distinct, exact⟩ :=
    exists_solutions c.session.engine.formula.clauses [] c.session.engine.varCount
  have enumerating : Enumerating S solutions c.session :=
    ⟨⟨⟨sound, live, fresh⟩, distinct, exact⟩, compatible⟩
  refine ⟨solutions, distinct, exact, fun schedule _ => ?_⟩
  obtain ⟨rest, all⟩ := Client.run_advances correct schedule enumerating
  have total := all.shared.length_eq
  rw [List.length_append] at total
  have part := (List.sublist_append_left (yielded _) rest).subperm.trans all.shared.subperm
  refine ⟨all.items, part, all.first, fun fair i mem => ?_, fun ended => ?_⟩
  · by_contra unfinished
    have steps := all.counted i unfinished
    have enough := fair i mem
    omega
  · obtain ⟨i, mem⟩ := List.exists_mem_of_ne_nil iterators nonempty
    obtain ⟨rfl, status⟩ := all.done (.inl ⟨i, ended i mem, running i mem⟩)
    have grown := all.added
    rw [List.length_nil, Nat.add_zero] at total
    rw [total] at grown
    refine ⟨by simpa using all.shared, fun j => ?_⟩
    rw [← grown]
    exact Client.run_exhausted correct all.left status j

theorem two_iterators_share :
    ∃ s, (Session.create (Replay.engine Cnf.Search.solver) {} {}).1 = .ok s ∧
      let c := (Client.run (Replay.engine Cnf.Search.solver) ⟨s, []⟩
        [.addClauses [[1, 2]], .assume ⟨1, by decide, by decide⟩]).2
      ∃ solutions : List Assignment, solutions.Nodup ∧
        ∀ schedule : List Nat, (∀ i ∈ schedule, i ∈ [0, 1]) →
          (∀ i ∈ [0, 1], solutions.length < schedule.count i) →
          (yielded (c.run (Replay.engine Cnf.Search.solver) (schedule.map .advance)).1).Perm
            solutions := by
  refine ⟨_, rfl, ?_⟩
  intro c
  have reachable : c.Reachable Cnf.Search.solver {} := ⟨_, _, rfl, rfl⟩
  have compatible : c.session.engine.pending = [] ∨
      Cnf.Compatible c.session.engine.formula.clauses c.session.engine.pending :=
    .inr ⟨fun _ => true, by decide⟩
  have running : ∀ i ∈ [0, 1], i ∉ c.ended := by decide
  obtain ⟨solutions, distinct, _, all⟩ := interleaved_iterators Cnf.Search.solver_correct rfl
    reachable rfl rfl compatible (List.cons_ne_nil 0 [1]) running
  refine ⟨solutions, distinct, fun schedule only fair => ?_⟩
  obtain ⟨_, _, _, ends, exact⟩ := all schedule only
  exact (exact (ends fair)).1

end SatSession
