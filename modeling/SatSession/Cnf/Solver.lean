import SatSession.Cnf.Basic

set_option autoImplicit false

namespace SatSession.Cnf

inductive Verdict where
  | model (lits : List Literal)
  | refuted (failed : List Literal)
  | exhausted
deriving DecidableEq

structure Solver where
  run : (limit : Nat) → (clauses : List Clause) → (assumptions : List Literal) → Verdict
  -- Clauses by which unit propagation refutes the given ones; `none` if they are satisfiable.
  prove : (clauses : List Clause) → Option (List Clause)

def Covers (lits : List Literal) (cs : List Clause) : Prop := ∀ c ∈ cs, ∃ l ∈ c, l ∈ lits

def Consistent (lits : List Literal) : Prop := ∀ l ∈ lits, l.neg ∉ lits

def Solver.BlamesAssumptions (S : Solver) : Prop :=
  ∀ {limit cs as failed}, S.run limit cs as = .refuted failed → ∀ l ∈ failed, l ∈ as

/-- A solver that answers rightly, gives up only under a limit, and blames only assumptions. -/
structure Solver.Correct (S : Solver) : Prop where
  model_covers : ∀ {limit cs as lits}, S.run limit cs as = .model lits →
    Consistent lits ∧ Covers lits cs ∧ ∀ a ∈ as, a ∈ lits
  refuted_subset : S.BlamesAssumptions
  refuted_unsat : ∀ {limit cs as failed}, S.run limit cs as = .refuted failed →
    ¬Satisfiable (cs ++ units failed)
  decides : ∀ {cs as}, S.run 0 cs as ≠ .exhausted
  proves : ∀ {cs}, (S.prove cs).isSome = true ↔ ¬Satisfiable cs

def valuationOf (lits : List Literal) : Valuation := fun n => decide (⟨n, true⟩ ∈ lits)

theorem holds_valuationOf {lits : List Literal} (consistent : Consistent lits) {l : Literal}
    (known : l ∈ lits) : l.holds (valuationOf lits) = true := by
  obtain ⟨n, b⟩ := l
  cases b
  · have absent : (⟨n, true⟩ : Literal) ∉ lits := consistent ⟨n, false⟩ known
    simp [Literal.holds, valuationOf, absent]
  · simp [Literal.holds, valuationOf, known]

theorem holdsAll_valuationOf {lits : List Literal} (consistent : Consistent lits)
    {cs : List Clause} (covers : Covers lits cs) : holdsAll (valuationOf lits) cs = true := by
  simp only [holdsAll, List.all_eq_true, Clause.holds, List.any_eq_true]
  intro c hc
  obtain ⟨l, hl, known⟩ := covers c hc
  exact ⟨l, hl, holds_valuationOf consistent known⟩

namespace Solver.Correct

variable {S : Solver} {limit : Nat} {cs : List Clause} {as failed lits : List Literal}

theorem satisfies (correct : S.Correct) (found : S.run limit cs as = .model lits) :
    holdsAll (valuationOf lits) (cs ++ units as) = true := by
  obtain ⟨consistent, covers, assumed⟩ := correct.model_covers found
  rw [holdsAll_append, holdsAll_valuationOf consistent covers, Bool.true_and, holdsAll_units,
    List.all_eq_true]
  exact fun a ha => holds_valuationOf consistent (assumed a ha)

theorem refutes (correct : S.Correct) (found : S.run limit cs as = .refuted failed) :
    ¬Satisfiable (cs ++ units as) := by
  rintro ⟨v, hv⟩
  rw [holdsAll_append, Bool.and_eq_true, holdsAll_units, List.all_eq_true] at hv
  refine correct.refuted_unsat found ⟨v, ?_⟩
  rw [holdsAll_append, hv.1, Bool.true_and, holdsAll_units, List.all_eq_true]
  exact fun l hl => hv.2 l (correct.refuted_subset found l hl)

end Solver.Correct

end SatSession.Cnf
