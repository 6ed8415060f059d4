import SatSession.Cnf.Search

set_option autoImplicit false

namespace SatSession.Cnf

namespace Search

theorem mem_assign {l : Literal} {cs : List Clause} {d : Clause} :
    d ∈ assign l cs ↔ ∃ c ∈ cs, l ∉ c ∧ d = c.filter (· != l.neg) := by
  induction cs with
  | nil => simp [assign]
  | cons c cs ih =>
    rw [assign]
    split
    next satisfied =>
      have holds : l ∈ c := by simpa using satisfied
      simp [ih, holds]
    next open' =>
      have fails : l ∉ c := by simpa using open'
      simp [ih, fails]

theorem occurs_of_assign {l k : Literal} {cs : List Clause} (occurs : Occurs k (assign l cs)) :
    Occurs k cs ∧ k ≠ l ∧ k ≠ l.neg := by
  obtain ⟨d, hd, hk⟩ := occurs
  obtain ⟨c, hc, fails, rfl⟩ := mem_assign.mp hd
  simp only [List.mem_filter, bne_iff_ne] at hk
  refine ⟨⟨c, hc, hk.1⟩, ?_, hk.2⟩
  rintro rfl
  exact fails hk.1

theorem covers_of_assign {l : Literal} {cs : List Clause} {lits : List Literal}
    (covers : Covers lits (assign l cs)) (known : l ∈ lits) : Covers lits cs := by
  intro c hc
  by_cases satisfied : l ∈ c
  · exact ⟨l, satisfied, known⟩
  · obtain ⟨k, hk, found⟩ := covers _ (mem_assign.mpr ⟨c, hc, satisfied, rfl⟩)
    exact ⟨k, (List.mem_filter.mp hk).1, found⟩

theorem eq_nil_of_shortest? {cs : List Clause} (none : shortest? cs = none)
    (full : hasEmpty cs = false) : cs = [] := by
  cases cs with
  | nil => rfl
  | cons c cs =>
    cases c with
    | nil => simp [hasEmpty] at full
    | cons l c =>
      simp only [shortest?] at none
      split at none
      · split at none <;> simp at none
      · simp at none

-- A trail over variables that no longer occur in the clauses.
structure Settled (trail : List Literal) (cs : List Clause) : Prop where
  consistent : Consistent trail
  gone : ∀ l ∈ trail, ¬Occurs l cs ∧ ¬Occurs l.neg cs

theorem Settled.assign {trail : List Literal} {cs : List Clause} (settled : Settled trail cs)
    {l : Literal} (occurs : Occurs l cs ∨ Occurs l.neg cs) :
    Settled (l :: trail) (assign l cs) := by
  have fresh : l ∉ trail ∧ l.neg ∉ trail := by
    refine ⟨fun h => ?_, fun h => ?_⟩
    · exact occurs.elim (settled.gone l h).1 (settled.gone l h).2
    · have gone := settled.gone l.neg h
      rw [Literal.neg_neg] at gone
      exact occurs.elim gone.2 gone.1
  refine ⟨?_, ?_⟩
  · intro k hk hn
    rcases List.mem_cons.mp hk with rfl | hk
    · rcases List.mem_cons.mp hn with same | hn
      · exact Literal.neg_ne k same
      · exact fresh.2 hn
    · rcases List.mem_cons.mp hn with same | hn
      · refine fresh.2 ?_
        rwa [← same, Literal.neg_neg]
      · exact settled.consistent k hk hn
  · intro k hk
    rcases List.mem_cons.mp hk with rfl | hk
    · exact ⟨fun h => (occurs_of_assign h).2.1 rfl, fun h => (occurs_of_assign h).2.2 rfl⟩
    · obtain ⟨gone, negGone⟩ := settled.gone k hk
      exact ⟨fun h => gone (occurs_of_assign h).1, fun h => negGone (occurs_of_assign h).1⟩

theorem search_model {limit : Nat} {cs : List Clause} {decisions trail lits : List Literal}
    {learned : List Clause} (found : search limit cs decisions trail learned = .model lits)
    (settled : Settled trail cs) :
    Consistent lits ∧ Covers lits cs ∧ ∀ l ∈ trail, l ∈ lits := by
  -- What the rest of the search covers is covered together with the literal assigned last.
  have assigned {cs : List Clause} {trail : List Literal} {l : Literal}
      (rest : Consistent lits ∧ Covers lits (assign l cs) ∧ ∀ k ∈ l :: trail, k ∈ lits) :
      Consistent lits ∧ Covers lits cs ∧ ∀ k ∈ trail, k ∈ lits := by
    obtain ⟨consistent, covers, kept⟩ := rest
    have known := kept l List.mem_cons_self
    exact ⟨consistent, covers_of_assign covers known, fun k hk => kept k (List.mem_cons_of_mem l hk)⟩
  fun_induction search limit cs decisions trail learned with
  | case1 => simp at found
  | case2 cs decisions trail learned full l unit ih =>
    exact assigned (ih found (settled.assign (.inl (occurs_of_unit? unit))))
  | case3 cs decisions trail learned full unit short =>
    obtain rfl := Result.model.inj found
    have none := eq_nil_of_shortest? short (by simpa using full)
    subst none
    exact ⟨settled.consistent, fun c hc => by simp at hc, fun l hl => hl⟩
  | case4 => simp at found
  | case5 cs decisions trail learned full unit n l short more refuted spent ih ih' =>
    have occurs := occurs_of_shortest? short
    exact assigned (ih' found (settled.assign (.inr (by simpa using occurs))))
  | case6 cs decisions trail learned full unit n l short notRefuted ih =>
    exact assigned (ih found (settled.assign (.inl (occurs_of_shortest? short))))

theorem search_refuted {limit : Nat} {cs : List Clause} {decisions trail : List Literal}
    {learned more : List Clause} (found : search limit cs decisions trail learned = .refuted more)
    (v : Valuation) : holdsAll v cs = false := by
  fun_induction search limit cs decisions trail learned generalizing more with
  | case1 cs decisions trail learned empty => exact holdsAll_of_hasEmpty empty
  | case2 cs decisions trail learned full l unit ih =>
    cases holds : l.holds v with
    | true => rw [← holdsAll_assign holds]; exact ih found
    | false =>
      cases all : holdsAll v cs with
      | false => rfl
      | true => rw [holds_of_unit? unit all] at holds; cases holds
  | case3 => simp at found
  | case4 => simp at found
  | case5 cs decisions trail learned full unit n l short first refuted spent ih ih' =>
    -- One of the two literals of the decided variable holds.
    cases holds : l.holds v with
    | true => rw [← holdsAll_assign holds]; exact ih refuted
    | false =>
      have negHolds : l.neg.holds v = true := by rw [Literal.holds_neg, holds]; rfl
      rw [← holdsAll_assign negHolds]
      exact ih' found
  | case6 cs decisions trail learned full unit n l short notRefuted ih =>
    exact absurd found (notRefuted more)

theorem search_decides (cs : List Clause) (decisions trail : List Literal)
    (learned : List Clause) : search 0 cs decisions trail learned ≠ .exhausted := by
  fun_induction search 0 cs decisions trail learned with
  | case1 => simp
  | case2 cs decisions trail learned full l unit ih => exact ih
  | case3 => simp
  | case4 cs decisions trail learned full unit n l short first refuted spent ih =>
    simp [Search.spent] at spent
  | case5 cs decisions trail learned full unit n l short first refuted spent ih ih' => exact ih'
  | case6 cs decisions trail learned full unit n l short notRefuted ih => exact ih

theorem solve_model {limit : Nat} {cs : List Clause} {lits : List Literal}
    (found : solve limit cs = .model lits) : Consistent lits ∧ Covers lits cs := by
  have start : Settled [] cs := ⟨fun l hl => by simp at hl, fun l hl => by simp at hl⟩
  obtain ⟨consistent, covers, _⟩ := search_model found start
  exact ⟨consistent, covers⟩

theorem solve_refuted {limit : Nat} {cs : List Clause} {learned : List Clause}
    (found : solve limit cs = .refuted learned) : ¬Satisfiable cs := by
  rintro ⟨v, hv⟩
  rw [search_refuted found v] at hv
  cases hv

theorem not_satisfiable_of_refutes {limit : Nat} {cs : List Clause} {as : List Literal}
    (refuted : refutes limit cs as = true) : ¬Satisfiable (units as ++ cs) := by
  unfold refutes at refuted
  split at refuted
  · exact solve_refuted ‹_›
  · simp at refuted

theorem shrink_subset {limit : Nat} {cs : List Clause} {kept as : List Literal} :
    ∀ l ∈ shrink limit cs kept as, l ∈ kept ∨ l ∈ as := by
  fun_induction shrink limit cs kept as with
  | case1 kept => simp
  | case2 kept a as refuted ih =>
    intro l hl
    exact (ih l hl).imp_right (List.mem_cons_of_mem a)
  | case3 kept a as needed ih =>
    intro l hl
    rcases ih l hl with h | h
    · rcases List.mem_cons.mp h with rfl | h
      · exact .inr List.mem_cons_self
      · exact .inl h
    · exact .inr (List.mem_cons_of_mem a h)

theorem shrink_refuted {limit : Nat} {cs : List Clause} {kept as : List Literal}
    (refuted : ¬Satisfiable (units (kept.reverse ++ as) ++ cs)) :
    ¬Satisfiable (units (shrink limit cs kept as) ++ cs) := by
  fun_induction shrink limit cs kept as with
  | case1 kept => simpa using refuted
  | case2 kept a as still ih => exact ih (not_satisfiable_of_refutes still)
  | case3 kept a as needed ih => exact ih (by simpa using refuted)

theorem run_refuted {limit : Nat} {cs : List Clause} {as failed : List Literal}
    (found : run limit cs as = .refuted failed) :
    (∀ l ∈ failed, l ∈ as) ∧ ¬Satisfiable (cs ++ units failed) := by
  unfold run at found
  split at found
  · simp at found
  · next learned refuted =>
    obtain rfl := Verdict.refuted.inj found
    refine ⟨fun l hl => (shrink_subset l hl).resolve_left List.not_mem_nil, ?_⟩
    rintro ⟨v, hv⟩
    rw [holdsAll_append, Bool.and_comm, ← holdsAll_append] at hv
    have all : ¬Satisfiable (units ([].reverse ++ as) ++ cs) := solve_refuted refuted
    exact shrink_refuted all ⟨v, hv⟩
  · simp at found

theorem solver_blames : solver.BlamesAssumptions := fun found => (run_refuted found).1

theorem run_model {limit : Nat} {cs : List Clause} {as lits : List Literal}
    (found : run limit cs as = .model lits) :
    Consistent lits ∧ Covers lits cs ∧ ∀ a ∈ as, a ∈ lits := by
  unfold run at found
  split at found
  · next trail model =>
    obtain rfl := Verdict.model.inj found
    obtain ⟨consistent, covers⟩ := solve_model model
    refine ⟨consistent, fun c hc => covers c (List.mem_append_right _ hc), fun a ha => ?_⟩
    have unit : [a] ∈ units as ++ cs := List.mem_append_left _ (List.mem_map.mpr ⟨a, ha, rfl⟩)
    obtain ⟨l, hl, known⟩ := covers [a] unit
    rwa [← List.mem_singleton.mp hl]
  · simp at found
  · simp at found

theorem run_decides (cs : List Clause) (as : List Literal) : run 0 cs as ≠ .exhausted := by
  unfold run
  split
  · simp
  · simp
  · next exhausted => exact absurd exhausted (search_decides _ _ _ _)

theorem prove_isSome {cs : List Clause} : (prove cs).isSome = true ↔ ¬Satisfiable cs := by
  unfold prove
  cases found : solve 0 cs with
  | model lits =>
    obtain ⟨consistent, covers⟩ := solve_model found
    have model : Satisfiable cs := ⟨_, holdsAll_valuationOf consistent covers⟩
    simp [model]
  | refuted learned => simp [solve_refuted found]
  | exhausted => exact absurd found (search_decides _ _ _ _)

theorem solver_correct : solver.Correct where
  model_covers := run_model
  refuted_subset := solver_blames
  refuted_unsat found := (run_refuted found).2
  decides := run_decides _ _
  proves := prove_isSome

end Search

end SatSession.Cnf
