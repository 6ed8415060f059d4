import SatSession.Proofs.Subsets

/-!
The literals that a subset query chooses. It goes through the assumptions in their order and takes
each that the clauses allow with those taken before; since clauses that refute some literals also
refute more, none of the others can be taken later.
-/

set_option autoImplicit false

namespace SatSession

open Cnf

variable {cs : List SatSession.Clause} {chosen as ls ms subset : List Lit} {a l : Lit}

theorem SameSet.compatible_iff (same : SameSet ls ms) : Compatible cs ls ↔ Compatible cs ms := by
  constructor
  next => exact fun compatible => compatible.mono fun l member => (same l).mpr member
  next => exact fun compatible => compatible.mono fun l member => (same l).mp member

inductive Greedy (cs : List SatSession.Clause) : List Lit → List Lit → List Lit → Prop where
  | done {chosen : List Lit} : Greedy cs chosen [] chosen
  | known {chosen as subset : List Lit} {a : Lit} (taken : a ∈ chosen)
      (rest : Greedy cs chosen as subset) : Greedy cs chosen (a :: as) subset
  | take {chosen as subset : List Lit} {a : Lit} (new : a ∉ chosen)
      (fits : Compatible cs (chosen ++ [a])) (rest : Greedy cs (chosen ++ [a]) as subset) :
      Greedy cs chosen (a :: as) subset
  | refuse {chosen as subset : List Lit} {a : Lit} (new : a ∉ chosen)
      (refused : ¬Compatible cs (chosen ++ [a])) (rest : Greedy cs chosen as subset) :
      Greedy cs chosen (a :: as) subset

theorem Replay.greedy_follows {S : Cnf.Solver} {s : Replay.State} (correct : S.Correct)
    (unlimited : s.limit = 0) (search : greedy S s chosen as = .ok subset) :
    Greedy s.formula.clauses chosen as subset := by
  induction as generalizing chosen with
  | nil =>
    obtain rfl := Except.ok.inj search
    exact .done
  | cons a as ih =>
    have answer := run_model_iff correct unlimited (chosen ++ [a])
    rw [greedy] at search
    by_cases taken : a ∈ chosen
    next =>
      rw [if_pos (by simpa using taken)] at search
      exact .known taken (ih search)
    next =>
      rw [if_neg (by simpa using taken)] at search
      split at search
      next lits found => exact .take taken (answer.mp ⟨lits, found⟩) (ih search)
      next failed found =>
        have refused : ¬Compatible s.formula.clauses (chosen ++ [a]) := by
          intro fits
          obtain ⟨lits, found'⟩ := answer.mpr fits
          rw [found] at found'
          cases found'
        exact .refuse taken refused (ih search)
      next => cases search

namespace Greedy

theorem kept (greedy : Greedy cs chosen as subset) : chosen ⊆ subset := by
  induction greedy with
  | done => exact List.Subset.refl _
  | known taken rest ih => exact ih
  | take new fits rest ih => exact (List.append_subset.mp ih).1
  | refuse new refused rest ih => exact ih

theorem compatible (greedy : Greedy cs chosen as subset) (start : Compatible cs chosen) :
    Compatible cs subset := by
  induction greedy with
  | done => exact start
  | known taken rest ih => exact ih start
  | take new fits rest ih => exact ih fits
  | refuse new refused rest ih => exact ih start

-- A literal once refused would contradict those chosen by then.
theorem not_mem_of_refused (greedy : Greedy cs chosen as subset) (start : Compatible cs chosen)
    (refused : ¬Compatible cs (chosen ++ [a])) : a ∉ subset := by
  intro member
  have within : chosen ++ [a] ⊆ subset :=
    List.append_subset.mpr ⟨greedy.kept, List.cons_subset.mpr ⟨member, List.nil_subset _⟩⟩
  exact refused ((greedy.compatible start).mono within)

theorem eraseDups_offered (new : a ∉ chosen) :
    ((a :: as).filter fun l => !chosen.contains l).eraseDups =
      a :: (as.filter fun l => !chosen.contains l).eraseDups.filter fun l => !l == a := by
  have offered : ((a :: as).filter fun l => !chosen.contains l) =
      a :: as.filter fun l => !chosen.contains l :=
    List.filter_cons_of_pos (by simpa using new)
  rw [offered, List.eraseDups_cons, eraseDups_filter]

theorem ordered (greedy : Greedy cs chosen as subset) (start : Compatible cs chosen) :
    ∃ new, subset = chosen ++ new ∧
      new.Sublist (as.filter fun l => !chosen.contains l).eraseDups := by
  induction greedy with
  | done => exact ⟨[], (List.append_nil _).symm, List.nil_sublist _⟩
  | @known chosen as subset a taken rest ih =>
    obtain ⟨new, split, sublist⟩ := ih start
    have skipped : ((a :: as).filter fun l => !chosen.contains l) =
        as.filter fun l => !chosen.contains l :=
      List.filter_cons_of_neg (by simpa using taken)
    exact ⟨new, split, skipped ▸ sublist⟩
  | @take chosen as subset a new fits rest ih =>
    obtain ⟨later, split, sublist⟩ := ih fits
    have others : ((as.filter fun l => !chosen.contains l).filter fun l => !l == a) =
        as.filter fun l => !(chosen ++ [a]).contains l := by
      rw [List.filter_filter]
      refine List.filter_congr fun l _ => ?_
      by_cases same : l = a <;> simp [same]
    refine ⟨a :: later, by rw [split]; simp, ?_⟩
    rw [eraseDups_offered new, ← eraseDups_filter, others]
    exact sublist.cons_cons a
  | @refuse chosen as subset a new refused rest ih =>
    obtain ⟨later, split, sublist⟩ := ih start
    have absent : later.filter (fun l => !l == a) = later := by
      refine List.filter_eq_self.mpr fun l member => ?_
      have left : a ∉ subset := rest.not_mem_of_refused start refused
      have other : l ≠ a := by
        rintro rfl
        exact left (split ▸ List.mem_append_right chosen member)
      simpa using other
    refine ⟨later, split, ?_⟩
    rw [eraseDups_offered new]
    have fewer := sublist.filter fun l => !l == a
    rw [absent] at fewer
    exact fewer.cons a

theorem choice (greedy : Greedy cs chosen as subset) (start : Compatible cs chosen)
    (before after : List Lit) (place : as = before ++ l :: after) :
    l ∈ subset ↔ Compatible cs (chosen ++ (before.filter subset.contains ++ [l])) := by
  induction greedy generalizing before with
  | done => simp at place
  | @known chosen as subset a taken rest ih =>
    cases before with
    | nil =>
      obtain ⟨rfl, -⟩ := List.cons.inj place
      have same : SameSet (chosen ++ [a]) chosen := by
        intro l
        simp only [List.mem_append, List.mem_singleton]
        exact ⟨fun member => member.elim id (· ▸ taken), .inl⟩
      exact iff_of_true (rest.kept taken) (same.compatible_iff.mpr start)
    | cons b before =>
      obtain ⟨rfl, later⟩ := List.cons.inj place
      have same : SameSet (chosen ++ ((a :: before).filter subset.contains ++ [l]))
          (chosen ++ (before.filter subset.contains ++ [l])) := by
        intro k
        by_cases eq : k = a <;> simp [rest.kept taken, eq, taken]
      rw [same.compatible_iff]
      exact ih start before later
  | @take chosen as subset a new fits rest ih =>
    have taken : a ∈ subset := rest.kept (by simp)
    cases before with
    | nil =>
      obtain ⟨rfl, -⟩ := List.cons.inj place
      exact iff_of_true taken fits
    | cons b before =>
      obtain ⟨rfl, later⟩ := List.cons.inj place
      have same : chosen ++ ((a :: before).filter subset.contains ++ [l]) =
          chosen ++ [a] ++ (before.filter subset.contains ++ [l]) := by
        simp [taken]
      rw [same]
      exact ih fits before later
  | @refuse chosen as subset a new refused rest ih =>
    have left : a ∉ subset := rest.not_mem_of_refused start refused
    cases before with
    | nil =>
      obtain ⟨rfl, -⟩ := List.cons.inj place
      exact iff_of_false left refused
    | cons b before =>
      obtain ⟨rfl, later⟩ := List.cons.inj place
      have same : (a :: before).filter subset.contains = before.filter subset.contains :=
        List.filter_cons_of_neg (by simpa using left)
      rw [same]
      exact ih start before later

end Greedy

/-- What a query chooses: a greatest list of assumptions that the clauses allow, with the earlier
assumption preferred to the later. -/
structure GreedyChoice (cs : List SatSession.Clause) (as subset : List Lit) : Prop where
  distinct : subset.Nodup
  ordered : subset.Sublist as.eraseDups
  compatible : Compatible cs subset
  maximal : ∀ l ∈ as, l ∉ subset → ¬Compatible cs (l :: subset)
  choice : ∀ before l after, as = before ++ l :: after →
    (l ∈ subset ↔ Compatible cs (before.filter subset.contains ++ [l]))
  all : (∀ l ∈ as, l ∈ subset) ↔ Compatible cs as

theorem Greedy.greedyChoice (greedy : Greedy cs [] as subset) (start : Compatible cs []) :
    GreedyChoice cs as subset := by
  have compatible := greedy.compatible start
  have ordered : subset.Sublist as.eraseDups := by
    obtain ⟨new, split, sublist⟩ := greedy.ordered start
    rw [List.nil_append] at split
    have unfiltered : as.filter (fun l => !([] : List Lit).contains l) = as :=
      List.filter_eq_self.mpr fun l _ => by simp
    rwa [split, ← unfiltered]
  have choice (before : List Lit) (l : Lit) (after : List Lit) (place : as = before ++ l :: after) :
      l ∈ subset ↔ Compatible cs (before.filter subset.contains ++ [l]) :=
    greedy.choice start before after place
  have chosen_before (before : List Lit) (l : Lit) :
      before.filter subset.contains ++ [l] ⊆ l :: subset := by
    intro k member
    simp only [List.mem_append, List.mem_filter, List.contains_eq_mem, decide_eq_true_eq,
      List.mem_singleton] at member
    rcases member with ⟨-, chosen⟩ | rfl
    · exact List.mem_cons_of_mem l chosen
    · exact List.mem_cons_self
  exact {
    distinct := ordered.nodup (nodup_eraseDups as)
    ordered := ordered
    compatible := compatible
    maximal := by
      intro l assumed absent more
      obtain ⟨before, after, place⟩ := List.append_of_mem assumed
      exact absent ((choice before l after place).mpr (more.mono (chosen_before before l)))
    choice := choice
    all := by
      constructor
      next => exact fun all => compatible.mono fun l assumed => all l assumed
      next =>
        intro fits l assumed
        obtain ⟨before, after, place⟩ := List.append_of_mem assumed
        refine (choice before l after place).mpr (fits.mono fun k member => ?_)
        rw [place]
        rcases List.mem_append.mp member with earlier | now
        · exact List.mem_append_left _ (List.mem_filter.mp earlier).1
        · rw [List.mem_singleton.mp now]
          exact List.mem_append_right _ List.mem_cons_self }

theorem Session.satisfiableSubset_chooses {S : Cnf.Solver} {s : Session Replay.State}
    (correct : S.Correct) (sound : s.Sound S 0) (live : s.released = false)
    (fresh : s.poisoned = false) (next : Bool) :
    ∃ subset t, satisfiableSubset (Replay.engine S) next s = (.ok subset, t) ∧
      (¬Satisfiable (ofClauses s.engine.formula.clauses) → subset = []) ∧
      (Satisfiable (ofClauses s.engine.formula.clauses) →
        GreedyChoice s.engine.formula.clauses s.engine.assumptions subset) := by
  have unlimited := sound.engine.limited
  cases consistent : s.engine.inconsistent with
  | true =>
    have refuted := sound.engine.known correct consistent
    have run := runSubset_inconsistent S live consistent next
    obtain ⟨calls, answered⟩ := exclusive_ok fresh run false
    exact ⟨[], _, answered, fun _ => rfl, fun satisfiable => absurd satisfiable refuted⟩
  | false =>
    rcases runSubset_cases S sound.engine.toFit live consistent next with
      ⟨gaveUp, -⟩ | ⟨failed, messages, found, run⟩ | ⟨model, subset, messages, found, search, run⟩
    · rcases gaveUp with exhausted | ⟨⟨model, found⟩, error⟩
      · rw [unlimited] at exhausted
        exact absurd exhausted correct.decides
      · have start : Compatible s.engine.formula.clauses [] := ⟨_, correct.satisfies found⟩
        obtain ⟨subset, search, -⟩ := Replay.greedy_ok correct unlimited start
        rw [search] at error
        cases error
    · have refuted : ¬Compatible s.engine.formula.clauses [] := correct.refutes found
      rw [compatible_nil] at refuted
      obtain ⟨calls, answered⟩ := exclusive_ok fresh run false
      exact ⟨[], _, answered, fun _ => rfl, fun satisfiable => absurd satisfiable refuted⟩
    · have start : Compatible s.engine.formula.clauses [] := ⟨_, correct.satisfies found⟩
      have satisfiable := compatible_nil.mp start
      have greedy := Replay.greedy_follows correct unlimited search
      obtain ⟨calls, answered⟩ := exclusive_ok fresh run false
      exact ⟨subset, _, answered, fun refuted => absurd satisfiable refuted,
        fun _ => greedy.greedyChoice start⟩

/-- A subset query on a session in use answers with the greedy choice from its assumptions, and
with none of them if its clauses are unsatisfiable, whether or not its engine knew. -/
theorem greedy_subset_answered {S : Cnf.Solver} (correct : S.Correct) {options : Config}
    (unlimited : options.propagationLimit = 0) {c : Client Replay.State}
    (reachable : c.Reachable S options) (live : c.session.released = false)
    (fresh : c.session.poisoned = false) :
    let F := c.session.engine.formula.clauses
    let A := c.session.engine.assumptions
    (c.session.engine.inconsistent = true → ¬Satisfiable (ofClauses F)) ∧
      ∀ next, ∃ subset,
        (c.perform (Replay.engine S) (.satisfiableSubset next)).1 =
          ⟨.ok (.literals subset), []⟩ ∧
        (¬Satisfiable (ofClauses F) → subset = []) ∧
        (Satisfiable (ofClauses F) → GreedyChoice F A subset) ∧
        (next = false →
          let e := (c.perform (Replay.engine S) (.satisfiableSubset next)).2.session.engine
          e.formula = c.session.engine.formula ∧ e.assumptions = A) := by
  intro F A
  have sound := reachable.sound
  rw [unlimited] at sound
  refine ⟨sound.engine.known correct, fun next => ?_⟩
  obtain ⟨subset, t, answered, none, chosen⟩ :=
    Session.satisfiableSubset_chooses correct sound live fresh next
  have answer : c.perform (Replay.engine S) (.satisfiableSubset next) =
      (⟨.ok (.literals subset), []⟩, ⟨t, c.ended⟩) := Client.answer_ok answered .literals
  refine ⟨subset, by rw [answer], none, chosen, ?_⟩
  rintro rfl
  have untouched := Client.perform_query sound live (o := .satisfiableSubset false) trivial
  exact ⟨untouched.formula, untouched.assumptions⟩

-- Complementary and repeated assumptions, one of which the others rule out.
theorem repeated_assumptions_chosen :
    ∃ s, (Session.create (Replay.engine Search.solver) {} {}).1 = .ok s ∧
      let c := (Client.run (Replay.engine Search.solver) ⟨s, []⟩
        [.addClauses [[-1, -2]], .assume ⟨2, by decide, by decide⟩,
          .assume ⟨-2, by decide, by decide⟩, .assume ⟨1, by decide, by decide⟩,
          .assume ⟨2, by decide, by decide⟩]).2
      ∃ subset, (c.perform (Replay.engine Search.solver) (.satisfiableSubset true)).1 =
          ⟨.ok (.literals subset), []⟩ ∧
        GreedyChoice c.session.engine.formula.clauses c.session.engine.assumptions subset := by
  refine ⟨_, rfl, ?_⟩
  intro c
  have reachable : c.Reachable Search.solver {} := ⟨_, _, rfl, rfl⟩
  obtain ⟨-, answers⟩ := greedy_subset_answered Search.solver_correct rfl reachable rfl rfl
  obtain ⟨subset, answered, -, chosen, -⟩ := answers true
  exact ⟨subset, answered, chosen ⟨fun _ => false, rfl⟩⟩

end SatSession
