import Mathlib.Data.Fintype.BigOperators
import SatSession.Proofs.Operations

set_option autoImplicit false

namespace SatSession

namespace Cnf

def isSolution (cs : List SatSession.Clause) (as : List Lit) (n : Nat) (a : Assignment) : Bool :=
  a.size = n + 1 && a.slots[0]? = some false &&
    (a.satisfies (ε := Empty) (as.map ([·]) ++ cs) matches .ok true)

theorem Literal.holds_ofLit (v : Valuation) (l : Lit) :
    (Literal.ofLit l).holds v = (v l.var.number == l.isPositive) := rfl

theorem holdsAll_congr {v w : Valuation} {cs : List Clause}
    (same : ∀ c ∈ cs, ∀ l ∈ c, v l.var = w l.var) : holdsAll v cs = holdsAll w cs := by
  rw [Bool.eq_iff_iff, holdsAll, holdsAll, List.all_eq_true, List.all_eq_true]
  refine forall₂_congr fun c hc => ?_
  rw [Clause.holds, Clause.holds, List.any_eq_true, List.any_eq_true]
  refine exists_congr fun l => and_congr_right fun hl => ?_
  rw [Literal.holds, Literal.holds, same c hc l hl]

theorem ofClauses_append (cs ds : List SatSession.Clause) :
    ofClauses (cs ++ ds) = ofClauses cs ++ ofClauses ds := List.map_append

theorem ofClauses_units (as : List Lit) :
    ofClauses (as.map ([·])) = units (as.map Literal.ofLit) := by
  simp [ofClauses, ofClause, units]

structure Within (n : Nat) (cs : List SatSession.Clause) (as : List Lit) : Prop where
  clauses : ∀ c ∈ cs, ∀ l ∈ c, l.var.number ≤ n
  assumptions : ∀ l ∈ as, l.var.number ≤ n

def Compatible (cs : List SatSession.Clause) (ls : List Lit) : Prop :=
  Satisfiable (ofClauses cs ++ units (ls.map .ofLit))

variable {n : Nat} {cs : List SatSession.Clause} {as : List Lit}

theorem Within.var_range (within : Within n cs as) {c : Clause}
    (hc : c ∈ ofClauses cs ++ units (as.map Literal.ofLit)) {l : Literal} (hl : l ∈ c) :
    0 < l.var ∧ l.var ≤ n := by
  have range (k : Lit) (small : k.var.number ≤ n) :
      0 < (Literal.ofLit k).var ∧ (Literal.ofLit k).var ≤ n := ⟨k.var.pos, small⟩
  rcases List.mem_append.mp hc with hc | hc
  · obtain ⟨d, hd, rfl⟩ := List.mem_map.mp hc
    obtain ⟨k, hk, rfl⟩ := List.mem_map.mp hl
    exact range k (within.clauses d hd k hk)
  · obtain ⟨m, hm, rfl⟩ := List.mem_map.mp hc
    obtain ⟨k, hk, rfl⟩ := List.mem_map.mp hm
    rw [List.mem_singleton.mp hl]
    exact range k (within.assumptions k hk)

theorem Within.free (within : Within n cs as) : Within n cs [] :=
  ⟨within.clauses, fun l hl => by simp at hl⟩

end Cnf

theorem Replay.State.Fit.within {s : Replay.State} (fit : s.Fit) :
    Cnf.Within s.varCount s.formula.clauses s.pending where
  clauses _ hc _ hl := Nat.le_trans (Formula.var_le_of_mem hc hl) fit.covers
  assumptions l hl := fit.assumed l (State.mem_of_mem_pending hl)

namespace Assignment

def valuation (a : Assignment) : Cnf.Valuation := fun v => a.slots.getD v false

def ofValuation (n : Nat) (v : Cnf.Valuation) : Assignment :=
  .ofList (false :: (List.range n).map fun i => v (i + 1))

theorem size_ofValuation (n : Nat) (v : Cnf.Valuation) : (ofValuation n v).size = n + 1 := by
  simp [ofValuation, ofList, size]

theorem valuation_ofValuation {n : Nat} (v : Cnf.Valuation) {i : Nat} (positive : 0 < i)
    (small : i ≤ n) : (ofValuation n v).valuation i = v i := by
  obtain ⟨i, rfl⟩ := Nat.exists_eq_succ_of_ne_zero (Nat.ne_of_gt positive)
  have within : i < n := small
  simp [valuation, ofValuation, ofList, within]

theorem slot_eq {a : Assignment} {v : Nat} (within : v < a.size) :
    a.slots[v]? = some (a.valuation v) := by
  have inside : v < a.slots.size := within
  simp [valuation, inside]

theorem holds_eq {ε : Type} {a : Assignment} {l : Lit} (within : l.var.number < a.size) :
    (a.holds l : Outcome ε Bool) = .ok ((Cnf.Literal.ofLit l).holds a.valuation) := by
  simp only [holds, value, get, slot_eq within, Outcome.bind_ok, Cnf.Literal.holds_ofLit]
  rfl

theorem holdsAny_eq {ε : Type} {a : Assignment} {c : Clause}
    (within : ∀ l ∈ c, l.var.number < a.size) :
    (a.holdsAny c : Outcome ε Bool) = .ok (Cnf.Clause.holds a.valuation (Cnf.ofClause c)) := by
  induction c with
  | nil => rfl
  | cons l c ih =>
    have rest := ih fun k hk => within k (List.mem_cons_of_mem l hk)
    rw [holdsAny, holds_eq (within l List.mem_cons_self), Outcome.bind_ok, rest]
    simp only [Cnf.Clause.holds, Cnf.ofClause, List.map_cons, List.any_cons]
    cases (Cnf.Literal.ofLit l).holds a.valuation <;> rfl

theorem satisfies_eq {ε : Type} {a : Assignment} {cs : List Clause}
    (within : ∀ c ∈ cs, ∀ l ∈ c, l.var.number < a.size) :
    (a.satisfies cs : Outcome ε Bool) = .ok (Cnf.holdsAll a.valuation (Cnf.ofClauses cs)) := by
  induction cs with
  | nil => rfl
  | cons c cs ih =>
    have rest := ih fun d hd => within d (List.mem_cons_of_mem c hd)
    rw [satisfies, holdsAny_eq (within c List.mem_cons_self), Outcome.bind_ok, rest]
    simp only [Cnf.holdsAll, Cnf.ofClauses, List.map_cons, List.all_cons]
    cases Cnf.Clause.holds a.valuation (Cnf.ofClause c) <;> rfl

end Assignment

open Cnf

variable {n : Nat} {cs : List Clause} {as : List Lit}

theorem isSolution_iff (within : Within n cs as) {a : Assignment} :
    isSolution cs as n a = true ↔ a.size = n + 1 ∧ a.slots[0]? = some false ∧
      holdsAll a.valuation (ofClauses cs ++ units (as.map .ofLit)) = true := by
  by_cases size : a.size = n + 1
  · have bounds : ∀ c ∈ as.map ([·]) ++ cs, ∀ l ∈ c, l.var.number < a.size := by
      intro c hc l hl
      rcases List.mem_append.mp hc with hc | hc
      · obtain ⟨k, hk, rfl⟩ := List.mem_map.mp hc
        have small := within.assumptions k hk
        rw [List.mem_singleton.mp hl]
        omega
      · have small := within.clauses c hc l hl
        omega
    have value := Assignment.satisfies_eq (ε := Empty) bounds
    rw [ofClauses_append, ofClauses_units, holdsAll_append, Bool.and_comm, ← holdsAll_append]
      at value
    simp only [isSolution, value, size, decide_true, Bool.true_and, true_and, Bool.and_eq_true,
      decide_eq_true_eq]
    cases holdsAll a.valuation (ofClauses cs ++ units (as.map .ofLit)) <;> simp
  · simp [isSolution, size]

theorem isSolution_ofValuation (within : Within n cs as) {v : Valuation}
    (models : holdsAll v (ofClauses cs ++ units (as.map .ofLit)) = true) :
    isSolution cs as n (.ofValuation n v) = true := by
  rw [isSolution_iff within]
  refine ⟨Assignment.size_ofValuation n v, by simp [Assignment.ofValuation, Assignment.ofList], ?_⟩
  rw [← models]
  refine holdsAll_congr fun c hc l hl => ?_
  obtain ⟨positive, small⟩ := within.var_range hc hl
  exact Assignment.valuation_ofValuation v positive small

theorem compatible_iff_isSolution (within : Within n cs as) :
    Compatible cs as ↔ ∃ a, isSolution cs as n a = true := by
  constructor
  · rintro ⟨v, models⟩
    exact ⟨.ofValuation n v, isSolution_ofValuation within models⟩
  · rintro ⟨a, solves⟩
    exact ⟨a.valuation, ((isSolution_iff within).mp solves).2.2⟩

theorem foldl_values {lits : List Literal} {values : Array Bool} {l : Literal}
    (inside : l.var < values.size) (consistent : l.neg ∉ lits)
    (known : l ∈ lits ∨ values[l.var]? = some l.positive) :
    (lits.foldl (fun vs k => vs.setIfInBounds k.var k.positive) values)[l.var]? =
      some l.positive := by
  induction lits generalizing values with
  | nil => exact known.resolve_left List.not_mem_nil
  | cons k lits ih =>
    have later : l.neg ∉ lits := fun h => consistent (List.mem_cons_of_mem k h)
    refine ih (by rwa [Array.size_setIfInBounds]) later ?_
    by_cases same : k.var = l.var
    · have equal : k = l := by
        by_contra different
        refine consistent (List.mem_cons.mpr (.inl ?_))
        obtain ⟨n, b⟩ := k
        obtain ⟨m, d⟩ := l
        obtain rfl : n = m := same
        cases b <;> cases d <;> simp [Literal.neg] at different ⊢
      exact .inr (by simp [equal, inside])
    · rcases known with mem | value
      · rcases List.mem_cons.mp mem with rfl | mem
        · exact absurd rfl same
        · exact .inl mem
      · exact .inr (by rw [Array.getElem?_setIfInBounds_ne same, value])

theorem holds_ofModel {lits : List Literal} (consistent : Consistent lits) {l : Literal}
    (known : l ∈ lits) (positive : 0 < l.var) (small : l.var ≤ n) :
    l.holds (Assignment.ofModel n lits).valuation = true := by
  have size := Replay.size_valuesOf n lits
  have value : (Replay.valuesOf n lits)[l.var]? = some l.positive :=
    foldl_values (by rw [Array.size_replicate]; omega) (consistent l known) (.inl known)
  obtain ⟨i, hi⟩ := Nat.exists_eq_succ_of_ne_zero (Nat.ne_of_gt positive)
  have slot : (Assignment.ofModel n lits).slots[l.var]? = some l.positive := by
    rw [hi] at value ⊢
    simpa [Assignment.ofModel, Assignment.ofList, Nat.add_comm] using value
  simp [Literal.holds, Assignment.valuation, Array.getD_eq_getD_getElem?, slot]

theorem isSolution_ofModel (within : Within n cs as) {lits : List Literal}
    (consistent : Consistent lits) (covers : Covers lits (ofClauses cs))
    (assumed : ∀ k ∈ as.map Literal.ofLit, k ∈ lits) :
    isSolution cs as n (.ofModel n lits) = true := by
  rw [isSolution_iff within]
  refine ⟨Assignment.size_ofModel n lits, by simp [Assignment.ofModel, Assignment.ofList], ?_⟩
  simp only [holdsAll, List.all_eq_true, Clause.holds, List.any_eq_true]
  intro c hc
  obtain ⟨l, hl, known⟩ : ∃ l ∈ c, l ∈ lits := by
    rcases List.mem_append.mp hc with hc | hc
    · exact covers c hc
    · obtain ⟨k, hk, rfl⟩ := List.mem_map.mp hc
      exact ⟨k, List.mem_singleton_self k, assumed k hk⟩
  obtain ⟨positive, small⟩ := within.var_range hc hl
  exact ⟨l, hl, holds_ofModel consistent known positive small⟩

theorem mem_ofNumbers {ns : List Int} {l : Lit} : l ∈ Clause.ofNumbers ns ↔ l.number ∈ ns := by
  rw [Clause.ofNumbers, List.mem_filterMap]
  constructor
  · rintro ⟨n, hn, found⟩
    rwa [Clause.number_of_ofNumber? found]
  · intro hn
    exact ⟨l.number, hn, Lit.ofNumber?_number l⟩

theorem mem_blocker {a : Assignment} {l : Lit} :
    l ∈ a.blocker ↔ a.slots[l.var.number]? = some (!l.isPositive) := by
  have opposite : l.number ∈ a.numbers.map (- ·) ↔ l.neg.number ∈ a.numbers := by
    rw [List.mem_map]
    constructor
    · rintro ⟨n, hn, same⟩
      have number : l.neg.number = n := Int.neg_eq_comm.mp same
      rwa [number]
    · exact fun hn => ⟨_, hn, Int.neg_neg _⟩
  rw [Assignment.blocker, mem_ofNumbers, opposite, Assignment.mem_numbers, Lit.var_neg,
    Lit.isPositive_neg]

theorem var_le_of_mem_blocker {a : Assignment} (size : a.size = n + 1) {l : Lit}
    (mem : l ∈ a.blocker) : l.var.number ≤ n := by
  obtain ⟨inside, _⟩ := Array.getElem?_eq_some_iff.mp (mem_blocker.mp mem)
  have length : a.slots.size = n + 1 := size
  omega

-- Some of the first `n` variables has different values. Slot 0 is of no variable.
def Assignment.Differ (n : Nat) (a b : Assignment) : Prop :=
  ∃ v, 0 < v ∧ v ≤ n ∧ a.slots[v]? ≠ b.slots[v]?

theorem Assignment.slot_congr {a b : Assignment} (sizeA : a.size = n + 1) (sizeB : b.size = n + 1)
    (agree : ¬a.Differ n b) {v : Nat} (positive : 0 < v) : a.slots[v]? = b.slots[v]? := by
  by_cases within : v ≤ n
  · by_contra differs
    exact agree ⟨v, positive, within, differs⟩
  · have beyondA : a.slots.size ≤ v := sizeA.trans_le (Nat.lt_of_not_le within)
    have beyondB : b.slots.size ≤ v := sizeB.trans_le (Nat.lt_of_not_le within)
    rw [Array.getElem?_eq_none beyondA, Array.getElem?_eq_none beyondB]

theorem Assignment.differ_iff_ne {a b : Assignment} (sizeA : a.size = n + 1)
    (sizeB : b.size = n + 1) (heads : a.slots[0]? = b.slots[0]?) : a.Differ n b ↔ b ≠ a := by
  constructor
  · rintro ⟨v, _, _, differs⟩ rfl
    exact differs rfl
  · intro different
    by_contra agree
    have slots : b.slots = a.slots := by
      refine Array.ext_getElem? fun v => ?_
      rcases Nat.eq_zero_or_pos v with rfl | positive
      · exact heads.symm
      · exact (slot_congr sizeA sizeB agree positive).symm
    cases a
    cases b
    exact different (congrArg Assignment.mk slots)

theorem holds_blocker_iff {a b : Assignment} (small : n ≤ maxVar) (sizeA : a.size = n + 1)
    (sizeB : b.size = n + 1) :
    Clause.holds b.valuation (ofClause a.blocker) = true ↔ a.Differ n b := by
  simp only [Clause.holds, ofClause, List.any_map, List.any_eq_true, Function.comp_apply,
    Literal.holds_ofLit, beq_iff_eq]
  constructor
  · rintro ⟨l, mem, holds⟩
    have within := var_le_of_mem_blocker sizeA mem
    refine ⟨l.var.number, l.var.pos, within, ?_⟩
    rw [mem_blocker.mp mem, Assignment.slot_eq (by omega), holds]
    simp
  · rintro ⟨v, positive, within, differs⟩
    let l := Var.lit ⟨v, positive, Nat.le_trans within small⟩ (b.valuation v)
    have index : l.var.number = v := by rw [Lit.lit_var]
    have sign : l.isPositive = b.valuation v := Lit.isPositive_lit _ _
    refine ⟨l, mem_blocker.mpr ?_, by rw [index, sign]⟩
    have slotA : a.slots[v]? = some (a.valuation v) := Assignment.slot_eq (by omega)
    have slotB : b.slots[v]? = some (b.valuation v) := Assignment.slot_eq (by omega)
    rw [slotA, slotB] at differs
    rw [index, sign, slotA, Bool.eq_not_of_ne fun same => differs (congrArg some same)]

theorem holds_blocker {a b : Assignment} (small : n ≤ maxVar) (sizeA : a.size = n + 1)
    (sizeB : b.size = n + 1) (headA : a.slots[0]? = some false) (headB : b.slots[0]? = some false) :
    Clause.holds b.valuation (ofClause a.blocker) = true ↔ b ≠ a := by
  rw [holds_blocker_iff small sizeA sizeB,
    Assignment.differ_iff_ne sizeA sizeB (headA.trans headB.symm)]

theorem isSolution_blocked (within : Within n cs []) (small : n ≤ maxVar) {a b : Assignment}
    (solves : isSolution cs [] n a = true) :
    isSolution (cs ++ [a.blocker]) [] n b = true ↔ isSolution cs [] n b = true ∧ b ≠ a := by
  obtain ⟨sizeA, headA, _⟩ := (isSolution_iff within).mp solves
  have extended : Within n (cs ++ [a.blocker]) [] := by
    refine ⟨fun c hc l hl => ?_, within.assumptions⟩
    rcases List.mem_append.mp hc with hc | hc
    · exact within.clauses c hc l hl
    · rw [List.mem_singleton.mp hc] at hl
      exact var_le_of_mem_blocker sizeA hl
  have blocker : ofClauses [a.blocker] = [ofClause a.blocker] := rfl
  rw [isSolution_iff extended, isSolution_iff within, ofClauses_append, blocker, holdsAll_append,
    holdsAll_append, holdsAll_append, Bool.and_eq_true, Bool.and_eq_true, Bool.and_eq_true]
  have excludes (sizeB : b.size = n + 1) (headB : b.slots[0]? = some false) :
      holdsAll b.valuation [ofClause a.blocker] = true ↔ b ≠ a := by
    rw [holdsAll, List.all_cons, List.all_nil, Bool.and_true]
    exact holds_blocker small sizeA sizeB headA headB
  constructor
  · rintro ⟨sizeB, headB, ⟨rest, blocks⟩, units⟩
    exact ⟨⟨sizeB, headB, rest, units⟩, (excludes sizeB headB).mp blocks⟩
  · rintro ⟨⟨sizeB, headB, rest, units⟩, different⟩
    exact ⟨sizeB, headB, ⟨rest, (excludes sizeB headB).mpr different⟩, units⟩

namespace Assignment

noncomputable def all (n : Nat) : List Assignment :=
  (Finset.univ : Finset (Fin n → Bool)).toList.map fun f => .ofList (false :: List.ofFn f)

theorem nodup_all (n : Nat) : (all n).Nodup := by
  refine List.Nodup.map (fun f g same => ?_) (Finset.nodup_toList _)
  simp only [ofList, Assignment.mk.injEq] at same
  exact List.ofFn_injective (List.cons.inj (List.toArray_inj same)).2

theorem length_all (n : Nat) : (all n).length = 2 ^ n := by
  simp [all]

theorem mem_all {a : Assignment} (size : a.size = n + 1) (head : a.slots[0]? = some false) :
    a ∈ all n := by
  have length : a.slots.size = n + 1 := size
  refine List.mem_map.mpr ⟨fun i => a.slots[i.val + 1], ?_, ?_⟩
  · exact Finset.mem_toList.mpr (Finset.mem_univ _)
  have slots : (false :: List.ofFn fun i : Fin n => a.slots[i.val + 1]).toArray = a.slots := by
    refine Array.ext (by simp [length]) fun i _ hi => ?_
    cases i with
    | zero => simpa [hi] using head.symm
    | succ i => simp
  cases a
  exact congrArg Assignment.mk slots

end Assignment

theorem mem_all_of_isSolution {a : Assignment} (solves : isSolution cs as n a = true) :
    a ∈ Assignment.all n := by
  simp only [isSolution, Bool.and_eq_true, decide_eq_true_eq] at solves
  exact Assignment.mem_all solves.1.1 solves.1.2

theorem exists_solutions (cs : List Clause) (as : List Lit) (n : Nat) :
    ∃ solutions : List Assignment, solutions.Nodup ∧
      ∀ a, a ∈ solutions ↔ isSolution cs as n a = true := by
  refine ⟨(Assignment.all n).filter (isSolution cs as n), (Assignment.nodup_all n).filter _,
    fun a => ?_⟩
  rw [List.mem_filter, and_iff_right_iff_imp]
  exact mem_all_of_isSolution

theorem length_solutions_le {solutions : List Assignment} (distinct : solutions.Nodup)
    (solve : ∀ a ∈ solutions, isSolution cs as n a = true) : solutions.length ≤ 2 ^ n := by
  rw [← Assignment.length_all]
  exact (List.subperm_of_subset distinct fun a ha => mem_all_of_isSolution (solve a ha)).length_le

end SatSession
