import SatSession.Proofs.Solutions

set_option autoImplicit false

namespace SatSession

namespace Assignment

variable {ε : Type} {n : Nat} {a b : Assignment}

theorem satisfies_cons {c : Clause} {cs : List Clause} :
    (a.satisfies (c :: cs) : Outcome ε Bool) = .ok true ↔
      (a.holdsAny c : Outcome ε Bool) = .ok true ∧ (a.satisfies cs : Outcome ε Bool) = .ok true := by
  rw [satisfies]
  cases (a.holdsAny c : Outcome ε Bool) with
  | ok held => cases held <;> simp [pure]
  | error e => simp
  | panic p => simp

theorem satisfies_append {cs ds : List Clause} :
    (a.satisfies (cs ++ ds) : Outcome ε Bool) = .ok true ↔
      (a.satisfies cs : Outcome ε Bool) = .ok true ∧
        (a.satisfies ds : Outcome ε Bool) = .ok true := by
  induction cs with
  | nil => simp [satisfies, pure]
  | cons c cs ih => rw [List.cons_append, satisfies_cons, satisfies_cons, ih, and_assoc]

section Agreement

variable (sizeA : a.size = n + 1) (sizeB : b.size = n + 1) (agree : ¬a.Differ n b)

include sizeA sizeB agree

theorem holdsAny_congr (c : Clause) : (a.holdsAny c : Outcome ε Bool) = b.holdsAny c := by
  induction c with
  | nil => rfl
  | cons l c ih =>
    have slot := slot_congr sizeA sizeB agree l.var.pos
    rw [holdsAny, holdsAny, ih]
    simp only [holds, value, get, slot]

theorem satisfies_congr (cs : List Clause) : (a.satisfies cs : Outcome ε Bool) = b.satisfies cs := by
  induction cs with
  | nil => rfl
  | cons c cs ih => rw [satisfies, satisfies, holdsAny_congr sizeA sizeB agree, ih]

theorem numbers_congr : a.numbers = b.numbers := by
  have values : a.slots.toList.drop 1 = b.slots.toList.drop 1 := by
    refine List.ext_getElem? fun i => ?_
    rw [List.getElem?_drop, List.getElem?_drop, Array.getElem?_toList, Array.getElem?_toList]
    exact slot_congr sizeA sizeB agree (by omega)
  rw [numbers, numbers, values]

end Agreement

theorem blocker_eq {ls : List Lit} (small : a.size ≤ maxVar + 1)
    (numbers : ls.map Lit.number = a.numbers) : a.blocker = ls.map Lit.neg := by
  refine Lit.number_injective.list_map ?_
  rw [numbers_blocker small, ← numbers, List.map_map, List.map_map]
  rfl

theorem satisfies_blocker (small : n ≤ maxVar) (sizeA : a.size = n + 1) (sizeB : b.size = n + 1) :
    ∃ held : Bool, (b.satisfies [a.blocker] : Outcome ε Bool) = .ok held ∧
      (held = true ↔ a.Differ n b) := by
  have within : ∀ c ∈ [a.blocker], ∀ l ∈ c, l.var.number < b.size := by
    intro c hc l hl
    rw [List.mem_singleton.mp hc] at hl
    have := var_le_of_mem_blocker sizeA hl
    omega
  refine ⟨_, satisfies_eq within, ?_⟩
  rw [← holds_blocker_iff small sizeA sizeB]
  simp [Cnf.holdsAll, Cnf.ofClauses]

end Assignment

/-- The clause that blocks an assignment of `n` variables has the negation of each literal that the
assignment makes true, in their order. An assignment of these variables satisfies it if it has
another value of one of them. So of the assignments that satisfy some clauses just those that agree
with the given one on all variables are excluded. -/
theorem blockingClause_excludes {ε : Type} {n : Nat} (small : n ≤ maxVar) {a : Assignment}
    (size : a.size = n + 1) :
    ∃ ls, a.literals? = some ls ∧
      Stream.blockingClause a = ls.map (fun l => l.neg.number) ++ [0] ∧
      (ls.map fun l => l.neg.var.number) = List.range' 1 n ∧
      Stream.invalid? (Stream.blockingClause a) = none ∧
      ∀ b : Assignment, b.size = n + 1 →
        ((b.satisfies [ls.map Lit.neg] : Outcome ε Bool) = .ok true ↔ a.Differ n b) ∧
        ((b.satisfies [ls.map Lit.neg] : Outcome ε Bool) = .ok false ↔ ¬a.Differ n b) ∧
        (¬a.Differ n b → Stream.blockingClause b = Stream.blockingClause a ∧
          ∀ cs, (b.satisfies cs : Outcome ε Bool) = a.satisfies cs) ∧
        (a.slots[0]? = b.slots[0]? → (a.Differ n b ↔ b ≠ a)) ∧
        ∀ cs, (b.satisfies (cs ++ [ls.map Lit.neg]) : Outcome ε Bool) = .ok true ↔
          (b.satisfies cs : Outcome ε Bool) = .ok true ∧ a.Differ n b := by
  have bound : a.size ≤ maxVar + 1 := by omega
  obtain ⟨ls, literals, numbers⟩ := Assignment.numbers_literals bound
  have blocker := Assignment.blocker_eq bound numbers
  have clause : Stream.blockingClause a = ls.map (fun l => l.neg.number) ++ [0] := by
    rw [← Assignment.encodeLits_blocker bound, blocker, Stream.encodeLits, List.map_map]
    rfl
  have total : (ls.map fun l => l.neg.var.number) = List.range' 1 n := by
    have entries := congrArg (List.map Int.natAbs) numbers
    rw [List.map_map, Assignment.natAbs_numbers, size, Nat.add_sub_cancel] at entries
    rw [← entries]
    exact List.map_congr_left fun l _ => congrArg Var.number (Lit.var_neg l)
  have valid : Stream.invalid? (Stream.blockingClause a) = none := by
    rw [← Assignment.encodeLits_blocker bound, Stream.invalid?_encodeLits]
  refine ⟨ls, literals, clause, total, valid, fun b sizeB => ?_⟩
  rw [← blocker]
  obtain ⟨held, value, holds⟩ := Assignment.satisfies_blocker (ε := ε) small size sizeB
  have satisfied : (b.satisfies [a.blocker] : Outcome ε Bool) = .ok true ↔ a.Differ n b := by
    rw [value, ← holds, Outcome.ok.injEq]
  have refused : (b.satisfies [a.blocker] : Outcome ε Bool) = .ok false ↔ ¬a.Differ n b := by
    rw [value, ← holds, Outcome.ok.injEq, Bool.not_eq_true]
  refine ⟨satisfied, refused, fun agree => ⟨?_, fun cs => ?_⟩,
    Assignment.differ_iff_ne size sizeB, fun cs => ?_⟩
  · rw [Stream.blockingClause, Stream.blockingClause, Assignment.numbers_congr size sizeB agree]
  · rw [Assignment.satisfies_congr size sizeB agree]
  · rw [Assignment.satisfies_append, satisfied]

-- Variable 1 is true and 2 is false; the same values with another slot 0 are excluded as well.
theorem true_false_excluded :
    let a := Assignment.ofList [true, true, false]
    let same := Assignment.ofList [false, true, false]
    let other := Assignment.ofList [false, true, true]
    2 ≤ maxVar ∧ a.size = 2 + 1 ∧ same.size = 2 + 1 ∧ other.size = 2 + 1 ∧
      Stream.blockingClause a = [-1, 2, 0] ∧ ∃ ls, a.literals? = some ls ∧
        (same.satisfies [ls.map Lit.neg] : Outcome Empty Bool) = .ok false ∧
        ∀ cs, (other.satisfies (cs ++ [ls.map Lit.neg]) : Outcome Empty Bool) = .ok true ↔
          (other.satisfies cs : Outcome Empty Bool) = .ok true := by
  intro a same other
  obtain ⟨ls, literals, _, _, _, excludes⟩ :=
    blockingClause_excludes (ε := Empty) (n := 2) (by decide) (a := a) rfl
  have agree : ¬a.Differ 2 same := by
    rintro ⟨v, positive, within, differs⟩
    have values : v = 1 ∨ v = 2 := by omega
    rcases values with rfl | rfl <;> exact differs rfl
  have differ : a.Differ 2 other := ⟨2, by decide, by decide, by decide⟩
  obtain ⟨_, refused, _⟩ := excludes same rfl
  obtain ⟨_, _, _, _, taken⟩ := excludes other rfl
  refine ⟨by decide, rfl, rfl, rfl, rfl, ls, literals, refused.mpr agree, fun cs => ?_⟩
  rw [taken cs, and_iff_left differ]

end SatSession
