import Mathlib.Data.Finset.Powerset
import SatSession.Proofs.Queries
import SatSession.Proofs.Solutions

/-!
Enumerating the maximal sets of assumptions that the clauses allow. Each query finds one that is
maximal for the clauses so far and blocks it. It is maximal for the clauses at the start too:
whatever satisfies the blocking clauses already holds a literal outside each earlier set.
-/

set_option autoImplicit false

namespace SatSession

open Cnf

variable {cs : List SatSession.Clause} {as ls ms : List Lit}

structure MaximalCompatible (cs : List SatSession.Clause) (as ls : List Lit) : Prop where
  within : ls ⊆ as
  compatible : Compatible cs ls
  maximal : ∀ ms, ms ⊆ as → ls ⊆ ms → Compatible cs ms → ms ⊆ ls

def SameSet (ls ms : List Lit) : Prop := ∀ l, l ∈ ls ↔ l ∈ ms

theorem compatible_iff : Compatible cs ls ↔
    ∃ v, holdsAll v (ofClauses cs) = true ∧ ∀ l ∈ ls, (Literal.ofLit l).holds v = true := by
  refine exists_congr fun v => ?_
  rw [holdsAll_append, Bool.and_eq_true, holdsAll_units, List.all_map, List.all_eq_true]
  rfl

theorem compatible_nil : Compatible cs [] ↔ Satisfiable (ofClauses cs) := by
  rw [Compatible, List.map_nil, units, List.map_nil, List.append_nil]

theorem Cnf.Compatible.mono (compatible : Compatible cs ls) (subset : ms ⊆ ls) : Compatible cs ms := by
  rw [compatible_iff] at compatible ⊢
  obtain ⟨v, models, holds⟩ := compatible
  exact ⟨v, models, fun l hl => holds l (subset hl)⟩

theorem holdsAll_blocked {v : Valuation} : holdsAll v (ofClauses (cs ++ [Replay.blocking as ls])) =
    true ↔ holdsAll v (ofClauses cs) = true ∧
      ∃ a ∈ as, a ∉ ls ∧ (Literal.ofLit a).holds v = true := by
  have mem (a : Lit) : a ∈ Replay.blocking as ls ↔ a ∈ as ∧ a ∉ ls := by
    simp [Replay.blocking, List.mem_eraseDups]
  have single : holdsAll v (ofClauses [Replay.blocking as ls]) = true ↔
      ∃ a ∈ as, a ∉ ls ∧ (Literal.ofLit a).holds v = true := by
    simp [ofClauses, ofClause, holdsAll, Clause.holds, mem, and_assoc]
  rw [ofClauses_append, holdsAll_append, Bool.and_eq_true, single]

theorem compatible_blocked_iff : Compatible (cs ++ [Replay.blocking as ls]) ms ↔
    ∃ a ∈ as, a ∉ ls ∧ Compatible cs (a :: ms) := by
  simp only [compatible_iff, holdsAll_blocked, List.forall_mem_cons]
  constructor
  · rintro ⟨v, ⟨models, a, ha, outside, holds⟩, all⟩
    exact ⟨a, ha, outside, v, models, holds, all⟩
  · rintro ⟨a, ha, outside, v, models, holds, all⟩
    exact ⟨v, ⟨models, a, ha, outside, holds⟩, all⟩

theorem Cnf.Compatible.unblocked (compatible : Compatible (cs ++ [Replay.blocking as ls]) ms) :
    Compatible cs ms := by
  obtain ⟨a, _, _, extended⟩ := compatible_blocked_iff.mp compatible
  exact extended.mono (List.subset_cons_self a ms)

namespace MaximalCompatible

theorem outside (maximal : MaximalCompatible cs as ls) {a : Lit} (assumed : a ∈ as)
    (absent : a ∉ ls) : ¬Compatible cs (a :: ls) := by
  intro compatible
  have within : a :: ls ⊆ as := List.cons_subset.mpr ⟨assumed, maximal.within⟩
  have greater := maximal.maximal (a :: ls) within (List.subset_cons_self a ls) compatible
  exact absent (greater List.mem_cons_self)

theorem not_blocked (maximal : MaximalCompatible cs as ls) :
    ¬Compatible (cs ++ [Replay.blocking as ls]) ls := by
  intro compatible
  obtain ⟨a, assumed, absent, extended⟩ := compatible_blocked_iff.mp compatible
  exact maximal.outside assumed absent extended

-- Of a set that is maximal under the blocking clause some literal is outside the blocked set.
theorem mem_outside (maximal : MaximalCompatible (cs ++ [Replay.blocking as ls]) as ms) :
    ∃ a ∈ ms, a ∈ as ∧ a ∉ ls := by
  obtain ⟨a, assumed, absent, extended⟩ := compatible_blocked_iff.mp maximal.compatible
  have blocked : Compatible (cs ++ [Replay.blocking as ls]) (a :: ms) :=
    compatible_blocked_iff.mpr ⟨a, assumed, absent, extended.mono (by simp)⟩
  have within : a :: ms ⊆ as := List.cons_subset.mpr ⟨assumed, maximal.within⟩
  have greater := maximal.maximal (a :: ms) within (List.subset_cons_self a ms) blocked
  exact ⟨a, greater List.mem_cons_self, assumed, absent⟩

theorem of_blocked (maximal : MaximalCompatible (cs ++ [Replay.blocking as ls]) as ms) :
    MaximalCompatible cs as ms where
  within := maximal.within
  compatible := maximal.compatible.unblocked
  maximal greater within subset compatible := by
    obtain ⟨a, mem, assumed, absent⟩ := maximal.mem_outside
    refine maximal.maximal greater within subset ?_
    refine compatible_blocked_iff.mpr ⟨a, assumed, absent, compatible.mono ?_⟩
    exact List.cons_subset.mpr ⟨subset mem, List.Subset.refl greater⟩

theorem blocked_or_same (found : MaximalCompatible cs as ls) (maximal : MaximalCompatible cs as ms) :
    SameSet ls ms ∨ MaximalCompatible (cs ++ [Replay.blocking as ls]) as ms := by
  by_cases subset : ms ⊆ ls
  · have greater := maximal.maximal ls found.within subset found.compatible
    exact .inl fun l => ⟨fun h => greater h, fun h => subset h⟩
  · obtain ⟨a, mem, absent⟩ : ∃ a ∈ ms, a ∉ ls := by
      by_contra none
      push Not at none
      exact subset fun a ha => none a ha
    refine .inr ⟨maximal.within, ?_, fun greater within subset compatible => ?_⟩
    · refine compatible_blocked_iff.mpr ⟨a, maximal.within mem, absent, maximal.compatible.mono ?_⟩
      exact List.cons_subset.mpr ⟨mem, List.Subset.refl ms⟩
    · exact maximal.maximal greater within subset compatible.unblocked

end MaximalCompatible

namespace Replay

variable {S : Cnf.Solver} {s t : State} {chosen subset : List Lit}

theorem greedy_congr (limit : s.limit = t.limit) (clauses : s.clauses = t.clauses)
    (chosen as : List Lit) : greedy S s chosen as = greedy S t chosen as := by
  induction as generalizing chosen with
  | nil => rfl
  | cons a as ih => simp only [greedy, limit, clauses, ih]

theorem run_model_iff (correct : S.Correct) (unlimited : s.limit = 0) (ls : List Lit) :
    (∃ lits, S.run s.limit s.clauses (ls.map .ofLit) = .model lits) ↔
      Compatible s.formula.clauses ls := by
  constructor
  · rintro ⟨lits, found⟩
    exact ⟨_, correct.satisfies found⟩
  · intro compatible
    cases found : S.run s.limit s.clauses (ls.map .ofLit) with
    | model lits => exact ⟨lits, rfl⟩
    | refuted failed => exact absurd compatible (correct.refutes found)
    | exhausted =>
      rw [unlimited] at found
      exact absurd found correct.decides

theorem greedy_maximal (correct : S.Correct) (unlimited : s.limit = 0)
    (start : Compatible s.formula.clauses chosen) :
    ∃ subset, greedy S s chosen as = .ok subset ∧ chosen ⊆ subset ∧
      Compatible s.formula.clauses subset ∧
      ∀ a ∈ as, a ∈ subset ∨ ¬Compatible s.formula.clauses (a :: subset) := by
  induction as generalizing chosen with
  | nil => exact ⟨chosen, rfl, List.Subset.refl chosen, start, fun a ha => by simp at ha⟩
  | cons a as ih =>
    have answer := run_model_iff correct unlimited (chosen ++ [a])
    by_cases known : chosen.contains a = true
    · obtain ⟨subset, search, kept, compatible, rest⟩ := ih start
      have mem : a ∈ chosen := by simpa using known
      refine ⟨subset, by rw [greedy, if_pos known, search], kept, compatible, ?_⟩
      exact List.forall_mem_cons.mpr ⟨.inl (kept mem), rest⟩
    · by_cases fits : Compatible s.formula.clauses (chosen ++ [a])
      · obtain ⟨lits, found⟩ := answer.mpr fits
        obtain ⟨subset, search, kept, compatible, rest⟩ := ih fits
        obtain ⟨keptChosen, keptNew⟩ := List.append_subset.mp kept
        refine ⟨subset, by rw [greedy, if_neg known, found]; exact search, keptChosen, compatible, ?_⟩
        exact List.forall_mem_cons.mpr ⟨.inl (keptNew List.mem_cons_self), rest⟩
      · obtain ⟨subset, search, kept, compatible, rest⟩ := ih start
        have skipped : greedy S s chosen (a :: as) = greedy S s chosen as := by
          rw [greedy, if_neg known]
          cases found : S.run s.limit s.clauses ((chosen ++ [a]).map .ofLit) with
          | model lits => exact absurd (answer.mp ⟨lits, found⟩) fits
          | refuted failed => rfl
          | exhausted =>
            rw [unlimited] at found
            exact absurd found correct.decides
        refine ⟨subset, by rw [skipped, search], kept, compatible, ?_⟩
        refine List.forall_mem_cons.mpr ⟨.inr fun both => fits (both.mono ?_), rest⟩
        intro l hl
        rcases List.mem_append.mp hl with hl | hl
        · exact List.mem_cons_of_mem a (kept hl)
        · rw [List.mem_singleton.mp hl]
          exact List.mem_cons_self

theorem greedy_ok (correct : S.Correct) (unlimited : s.limit = 0)
    (compatible : Compatible s.formula.clauses []) :
    ∃ subset, greedy S s [] as = .ok subset ∧
      MaximalCompatible s.formula.clauses as subset := by
  obtain ⟨subset, search, _, extended, rest⟩ := greedy_maximal correct unlimited compatible
  obtain ⟨within, _⟩ := greedy_within search
  refine ⟨subset, search, fun l hl => (within l hl).resolve_left List.not_mem_nil, extended, ?_⟩
  intro ms inside greater allowed a ha
  refine (rest a (inside ha)).resolve_right fun refused => refused (allowed.mono ?_)
  exact List.cons_subset.mpr ⟨ha, greater⟩

end Replay

inductive Subsets (S : Cnf.Solver) (as : List Lit) :
    List SatSession.Clause → List (List Lit) → Prop where
  | ended {cs : List SatSession.Clause} (refuted : ¬Compatible cs []) : Subsets S as cs []
  | next {cs : List SatSession.Clause} {subset : List Lit} {rest : List (List Lit)}
      (compatible : Compatible cs []) (maximal : MaximalCompatible cs as subset)
      (search : ∀ s : Replay.State, s.limit = 0 → s.formula.clauses = cs →
        Replay.greedy S s [] as = .ok subset)
      (later : Subsets S as (cs ++ [Replay.blocking as subset]) rest) :
      Subsets S as cs (subset :: rest)

namespace Subsets

variable {S : Cnf.Solver} {results : List (List Lit)}

theorem maximal (subsets : Subsets S as cs results) : ∀ ls ∈ results, MaximalCompatible cs as ls := by
  induction subsets with
  | ended refuted => simp
  | next compatible maximal search later ih =>
    exact List.forall_mem_cons.mpr ⟨maximal, fun ls hl => (ih ls hl).of_blocked⟩

theorem complete (subsets : Subsets S as cs results) (found : MaximalCompatible cs as ms) :
    ∃ ls ∈ results, SameSet ls ms := by
  induction subsets with
  | ended refuted => exact absurd (found.compatible.mono (List.nil_subset ms)) refuted
  | next compatible maximal search later ih =>
    rcases maximal.blocked_or_same found with same | left
    · exact ⟨_, List.mem_cons_self, same⟩
    · obtain ⟨ls, mem, same⟩ := ih left
      exact ⟨ls, List.mem_cons_of_mem _ mem, same⟩

theorem distinct (subsets : Subsets S as cs results) :
    results.Pairwise fun ls ms => ¬SameSet ls ms := by
  induction subsets with
  | ended refuted => exact List.Pairwise.nil
  | next compatible maximal search later ih =>
    refine List.pairwise_cons.mpr ⟨fun ms hm same => ?_, ih⟩
    have blocked := (later.maximal ms hm).compatible
    exact maximal.not_blocked (blocked.mono fun l hl => (same l).mp hl)

-- The queries come to an end: each leaves fewer sets of assumptions that the clauses allow.
theorem exist (correct : S.Correct) (as : List Lit) (cs : List SatSession.Clause) :
    ∃ results, Subsets S as cs results := by
  classical
  let allowed (cs : List SatSession.Clause) : Finset (Finset Lit) :=
    as.toFinset.powerset.filter fun t => Compatible cs t.toList
  induction size : (allowed cs).card using Nat.strong_induction_on generalizing cs with
  | _ bound ih =>
    by_cases compatible : Compatible cs []
    · let e : Replay.State := { formula := Formula.ofClauses cs }
      have log : e.formula.clauses = cs := Formula.clauses_ofClauses cs
      obtain ⟨subset, search, maximal⟩ : ∃ subset, Replay.greedy S e [] as = .ok subset ∧
          MaximalCompatible e.formula.clauses as subset :=
        Replay.greedy_ok correct rfl (log.symm ▸ compatible)
      rw [log] at maximal
      have same (s : Replay.State) (unlimited : s.limit = 0) (clauses : s.formula.clauses = cs) :
          Replay.greedy S s [] as = .ok subset := by
        rw [← search]
        refine Replay.greedy_congr unlimited ?_ [] as
        rw [Replay.State.clauses, Replay.State.clauses, clauses, log]
      have fewer : (allowed (cs ++ [Replay.blocking as subset])).card < bound := by
        rw [← size]
        refine Finset.card_lt_card (Finset.ssubset_iff_of_subset ?_ |>.mpr ⟨subset.toFinset, ?_, ?_⟩)
        · intro t ht
          obtain ⟨within, blocked⟩ := Finset.mem_filter.mp ht
          exact Finset.mem_filter.mpr ⟨within, blocked.unblocked⟩
        · refine Finset.mem_filter.mpr ⟨?_, maximal.compatible.mono fun l hl => by simpa using hl⟩
          exact Finset.mem_powerset.mpr fun l hl => by simpa using maximal.within (by simpa using hl)
        · intro still
          have blocked := (Finset.mem_filter.mp still).2
          exact maximal.not_blocked (blocked.mono fun l hl => by simpa using hl)
      obtain ⟨rest, later⟩ := ih _ fewer _ rfl
      exact ⟨subset :: rest, .next compatible maximal same later⟩
    · exact ⟨[], .ended compatible⟩

end Subsets

structure Exploring (S : Cnf.Solver) (as : List Lit) (results : List (List Lit))
    (s : Session Replay.State) : Prop where
  sound : s.Sound S 0
  live : s.released = false
  fresh : s.poisoned = false
  assumed : s.engine.assumptions = as
  subsets : Subsets S as s.engine.formula.clauses results

section Queries

variable {S : Cnf.Solver} {s : Session Replay.State} {subset : List Lit}
  {results : List (List Lit)}

theorem Exploring.consistent (exploring : Exploring S as (subset :: results) s)
    (correct : S.Correct) : s.engine.inconsistent = false := by
  cases known : s.engine.inconsistent with
  | false => rfl
  | true =>
    have refuted := exploring.sound.engine.known correct known
    cases exploring.subsets with
    | next compatible => exact absurd (compatible_nil.mp compatible) refuted

theorem Exploring.next (exploring : Exploring S as (subset :: results) s) (correct : S.Correct) :
    ∃ t, Session.satisfiableSubset (Replay.engine S) true s = (.ok subset, t) ∧
      Exploring S as results t ∧ t.engine.formula.size = s.engine.formula.size + 1 := by
  have sound := exploring.sound
  have unlimited := sound.engine.limited
  have consistent := exploring.consistent correct
  have after := (Session.proper_runSubset true s sound).2.1
  cases exploring.subsets with
  | next compatible maximal search later =>
    have found := search s.engine unlimited rfl
    rw [← exploring.assumed] at found
    rcases Session.runSubset_cases S sound.engine.toFit exploring.live consistent true with
      ⟨gaveUp, _⟩ | ⟨failed, _, refuted, _⟩ | ⟨model, subset', messages, _, found', run⟩
    · rcases gaveUp with exhausted | ⟨_, error⟩
      · rw [unlimited] at exhausted
        exact absurd exhausted correct.decides
      · rw [found] at error
        cases error
    · exact absurd compatible (correct.refutes refuted)
    · obtain rfl : subset' = subset := Except.ok.inj (found'.symm.trans found)
      obtain ⟨calls, answered⟩ := Session.exclusive_ok exploring.fresh run false
      rw [run] at after
      refine ⟨_, answered, ?_, Formula.size_add _ _⟩
      exact {
        sound := after.unlocked _ calls
        live := exploring.live
        fresh := exploring.fresh
        assumed := exploring.assumed
        subsets := by
          change Subsets S as (s.engine.formula.add _).clauses results
          rw [Formula.clauses_add, exploring.assumed]
          exact later }

-- A query without a set to find tells that the engine is inconsistent, and adds no clause.
theorem Exploring.ended (exploring : Exploring S as [] s) (correct : S.Correct) :
    ∃ t, Session.satisfiableSubset (Replay.engine S) true s = (.ok [], t) ∧ Exploring S as [] t ∧
      t.engine.formula.size = s.engine.formula.size ∧ t.engine.inconsistent = true := by
  have sound := exploring.sound
  have unlimited := sound.engine.limited
  cases consistent : s.engine.inconsistent with
  | true =>
    have run := Session.runSubset_inconsistent S exploring.live consistent true
    obtain ⟨calls, answered⟩ := Session.exclusive_ok exploring.fresh run false
    refine ⟨_, answered, ?_, rfl, consistent⟩
    exact ⟨sound.unlocked _ calls, exploring.live, exploring.fresh, exploring.assumed, exploring.subsets⟩
  | false =>
    have after := (Session.proper_runSubset true s sound).2.1
    cases exploring.subsets with
    | ended refuted =>
      rcases Session.runSubset_cases S sound.engine.toFit exploring.live consistent true with
        ⟨gaveUp, _⟩ | ⟨failed, messages, _, run⟩ | ⟨model, subset, messages, found, _, run⟩
      · rcases gaveUp with exhausted | ⟨⟨model, found⟩, _⟩
        · rw [unlimited] at exhausted
          exact absurd exhausted correct.decides
        · exact absurd ⟨_, correct.satisfies found⟩ refuted
      · obtain ⟨calls, answered⟩ := Session.exclusive_ok exploring.fresh run false
        rw [run] at after
        refine ⟨_, answered, ?_, rfl, rfl⟩
        exact ⟨after.unlocked _ calls, exploring.live, exploring.fresh, exploring.assumed,
          exploring.subsets⟩
      · exact absurd ⟨_, correct.satisfies found⟩ refuted

end Queries

def Operation.isNext : Operation → Bool
  | .satisfiableSubset next => next
  | _ => false

def nextAnswers (os : List Operation) (answers : List Answer) : List Answer :=
  ((os.zip answers).filter (·.1.isNext)).map (·.2)

def subsetAnswer (results : List (List Lit)) (i : Nat) : Answer :=
  ⟨.ok (.literals (results.getD i [])), []⟩

namespace Client

variable {S : Cnf.Solver} {c : Client Replay.State} {results : List (List Lit)}

structure Explored (S : Cnf.Solver) (as : List Lit) (c : Client Replay.State)
    (results : List (List Lit)) (n : Nat) (answers : List Answer) (d : Client Replay.State) :
    Prop where
  left : Exploring S as (results.drop n) d.session
  answered : answers = (List.range n).map (subsetAnswer results)
  added : d.session.engine.formula.size = c.session.engine.formula.size + min n results.length
  spent : results.length < n ∨ c.session.engine.inconsistent = true →
    d.session.engine.inconsistent = true

theorem Explored.trans {d e : Client Replay.State} {n m : Nat} {first rest : List Answer}
    (explored : Explored S as c results n first d)
    (later : Explored S as d (results.drop n) m rest e) :
    Explored S as c results (n + m) (first ++ rest) e where
  left := by
    rw [← List.drop_drop]
    exact later.left
  answered := by
    have shift : subsetAnswer (results.drop n) = fun i => subsetAnswer results (n + i) := by
      funext i
      rw [subsetAnswer, subsetAnswer, List.getD_eq_getElem?_getD, List.getD_eq_getElem?_getD,
        List.getElem?_drop]
    rw [explored.answered, later.answered, shift, List.range_add, List.map_append, List.map_map]
    rfl
  added := by
    rw [later.added, explored.added, List.length_drop]
    omega
  spent := by
    intro spent
    by_cases early : results.length < n ∨ c.session.engine.inconsistent = true
    · exact later.spent (.inr (explored.spent early))
    · refine later.spent (.inl ?_)
      have late := spent.resolve_right fun h => early (.inr h)
      have notEarly : ¬results.length < n := fun h => early (.inl h)
      rw [List.length_drop]
      omega

theorem perform_next (correct : S.Correct) (exploring : Exploring S as results c.session) :
    Explored S as c results 1 [(c.perform (Replay.engine S) (.satisfiableSubset true)).1]
      (c.perform (Replay.engine S) (.satisfiableSubset true)).2 := by
  cases results with
  | nil =>
    obtain ⟨t, run, left, same, inconsistent⟩ := exploring.ended correct
    have answer : c.perform (Replay.engine S) (.satisfiableSubset true) =
      (⟨.ok (.literals []), []⟩, ⟨t, c.ended⟩) := answer_ok run .literals
    rw [answer]
    exact ⟨left, rfl, same, fun _ => inconsistent⟩
  | cons subset rest =>
    obtain ⟨t, run, left, grown⟩ := exploring.next correct
    have answer : c.perform (Replay.engine S) (.satisfiableSubset true) =
      (⟨.ok (.literals subset), []⟩, ⟨t, c.ended⟩) := answer_ok run .literals
    have consistent := exploring.consistent correct
    rw [answer]
    refine ⟨left, rfl, ?_, fun spent => ?_⟩
    · rw [grown, List.length_cons]
      omega
    · rcases spent with short | inconsistent
      · rw [List.length_cons] at short
        omega
      · simp [consistent] at inconsistent

theorem perform_passive (correct : S.Correct) (exploring : Exploring S as results c.session)
    {o : Operation} (query : o.IsQuery) (calm : o.Calm) :
    Explored S as c results 0 [] (c.perform (Replay.engine S) o).2 := by
  obtain ⟨sound, safely⟩ := perform_safe exploring.sound o
  have untouched := perform_query exploring.sound exploring.live query
  refine ⟨⟨sound, ?_, (safely correct.refuted_subset exploring.fresh calm).2, ?_, ?_⟩, rfl, ?_, fun spent => ?_⟩
  · rw [untouched.released, exploring.live]
  · rw [untouched.assumptions, exploring.assumed]
  · rw [untouched.formula]
    exact exploring.subsets
  · rw [untouched.formula, Nat.zero_min, Nat.add_zero]
  · exact untouched.inconsistent (spent.resolve_left (Nat.not_lt_zero _))

theorem run_explored (correct : S.Correct) {os : List Operation}
    (only : ∀ o ∈ os, o = .satisfiableSubset true ∨ o.IsQuery ∧ o.Calm)
    {c : Client Replay.State} {results : List (List Lit)}
    (exploring : Exploring S as results c.session) :
    Explored S as c results (os.countP (·.isNext))
      (nextAnswers os (c.run (Replay.engine S) os).1) (c.run (Replay.engine S) os).2 := by
  induction os generalizing c results with
  | nil => exact ⟨exploring, rfl, by simp [run], fun spent => spent.resolve_left (by simp)⟩
  | cons o os ih =>
    have others : ∀ o' ∈ os, o' = .satisfiableSubset true ∨ o'.IsQuery ∧ o'.Calm :=
      fun o' ho => only o' (List.mem_cons_of_mem o ho)
    rcases only o List.mem_cons_self with rfl | ⟨query, calm⟩
    · have first := perform_next correct exploring
      have count : (Operation.satisfiableSubset true :: os).countP (·.isNext) =
          1 + os.countP (·.isNext) := by
        rw [List.countP_cons_of_pos rfl, Nat.add_comm]
      rw [count]
      exact first.trans (ih others first.left)
    · have first := perform_passive correct exploring query calm
      have passive : o.isNext = false := by
        cases o with
        | satisfiableSubset next => cases next <;> first | rfl | exact query.elim
        | _ => rfl
      have count : (o :: os).countP (·.isNext) = 0 + os.countP (·.isNext) := by
        rw [List.countP_cons_of_neg (by simp [passive]), Nat.zero_add]
      have answers : nextAnswers (o :: os) (c.run (Replay.engine S) (o :: os)).1 =
          [] ++ nextAnswers os ((c.perform (Replay.engine S) o).2.run (Replay.engine S) os).1 := by
        simp [nextAnswers, run, passive]
      rw [count, answers]
      exact first.trans (ih others first.left)

end Client

/-- Repeated subset queries find all maximal sets of assumptions that the clauses of the start
allow, each once and with one clause to block it; after that they find nothing and add nothing. -/
theorem maximal_subsets_enumerated {S : Cnf.Solver} (correct : S.Correct) {options : Config}
    (unlimited : options.propagationLimit = 0) {c : Client Replay.State}
    (reachable : c.Reachable S options) (live : c.session.released = false)
    (fresh : c.session.poisoned = false) :
    ∃ results : List (List Lit),
      (∀ ls ∈ results, MaximalCompatible c.session.engine.formula.clauses
        c.session.engine.assumptions ls) ∧
      (∀ ms, MaximalCompatible c.session.engine.formula.clauses
        c.session.engine.assumptions ms → ∃ ls ∈ results, SameSet ls ms) ∧
      results.Pairwise (fun ls ms => ¬SameSet ls ms) ∧
      ∀ os : List Operation, (∀ o ∈ os, o = .satisfiableSubset true ∨ o.IsQuery ∧ o.Calm) →
        let n := os.countP (·.isNext)
        let r := c.run (Replay.engine S) os
        nextAnswers os r.1 = (List.range n).map (subsetAnswer results) ∧
        r.2.session.engine.formula.size =
          c.session.engine.formula.size + min n results.length ∧
        (n < results.length → r.2.session.engine.inconsistent = false) ∧
        (results.length < n → r.2.session.engine.inconsistent = true) := by
  have sound := reachable.sound
  rw [unlimited] at sound
  obtain ⟨results, subsets⟩ :=
    Subsets.exist correct c.session.engine.assumptions c.session.engine.formula.clauses
  have exploring : Exploring S c.session.engine.assumptions results c.session :=
    ⟨sound, live, fresh, rfl, subsets⟩
  refine ⟨results, subsets.maximal, fun ms => subsets.complete, subsets.distinct, ?_⟩
  intro os only n r
  have explored := Client.run_explored correct only exploring
  refine ⟨explored.answered, explored.added, fun more => ?_, fun past => explored.spent (.inl past)⟩
  have left := explored.left
  rw [List.drop_eq_getElem_cons more] at left
  exact left.consistent correct

theorem conflicting_assumptions_enumerated :
    ∃ s, (Session.create (Replay.engine Search.solver) {} {}).1 = .ok s ∧
      let c := (Client.run (Replay.engine Search.solver) ⟨s, []⟩
        [.addClauses [[-1, -2]], .assume ⟨1, by decide, by decide⟩,
          .assume ⟨2, by decide, by decide⟩]).2
      ∃ results : List (List Lit), results.Pairwise (fun ls ms => ¬SameSet ls ms) ∧
        ∀ n, nextAnswers (List.replicate n (.satisfiableSubset true))
          (c.run (Replay.engine Search.solver) (List.replicate n (.satisfiableSubset true))).1 =
            (List.range n).map (subsetAnswer results) := by
  refine ⟨_, rfl, ?_⟩
  intro c
  have reachable : c.Reachable Search.solver {} := ⟨_, _, rfl, rfl⟩
  obtain ⟨results, _, _, distinct, all⟩ :=
    maximal_subsets_enumerated Search.solver_correct rfl reachable rfl rfl
  refine ⟨results, distinct, fun n => ?_⟩
  obtain ⟨answered, _⟩ := all (List.replicate n (.satisfiableSubset true)) fun o ho =>
    .inl (List.eq_of_mem_replicate ho)
  have count : (List.replicate n (Operation.satisfiableSubset true)).countP (·.isNext) = n := by
    rw [List.countP_replicate]
    rfl
  rwa [count] at answered

end SatSession
