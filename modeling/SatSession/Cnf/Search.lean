import SatSession.Cnf.Propagation
import SatSession.Cnf.Solver

/-!
A splitting search with unit propagation. Each decision that fails is recorded as a learned
clause, the negation of the decisions that led to it; the learned clauses in their order let unit
propagation alone refute the input. The number of learned clauses is the search's work.
-/

set_option autoImplicit false

namespace SatSession.Cnf

inductive Search.Result where
  | model (trail : List Literal)
  -- The learned clauses, the last one first.
  | refuted (learned : List Clause)
  | exhausted

def shortest? : List Clause → Option (Nat × Literal)
  | [] => none
  | [] :: cs => shortest? cs
  | (l :: c) :: cs =>
      match shortest? cs with
      | some (n, k) => if n < c.length then some (n, k) else some (c.length, l)
      | none => some (c.length, l)

theorem occurs_of_shortest? {cs : List Clause} {n : Nat} {l : Literal}
    (h : shortest? cs = some (n, l)) : Occurs l cs := by
  fun_induction shortest? cs generalizing n l with
  | case1 => simp at h
  | case2 cs ih =>
      obtain ⟨d, hd, hl⟩ := ih h
      exact ⟨d, by simp [hd], hl⟩
  | case3 k c cs m k' hs hm ih =>
      simp only [Option.some.injEq, Prod.mk.injEq] at h
      obtain ⟨d, hd, hl⟩ := ih (h.1 ▸ h.2 ▸ hs)
      exact ⟨d, by simp [hd], hl⟩
  | case4 k c cs m k' hs hm ih =>
      simp only [Option.some.injEq, Prod.mk.injEq] at h
      exact ⟨k :: c, by simp, by simp [← h.2]⟩
  | case5 k c cs hs ih =>
      simp only [Option.some.injEq, Prod.mk.injEq] at h
      exact ⟨k :: c, by simp, by simp [← h.2]⟩

namespace Search

def spent (limit : Nat) (learned : List Clause) : Bool := limit != 0 && limit ≤ learned.length

/-- Searches a model of the clauses that are left. The trail holds the literals made true, the
decisions those of them that were chosen. -/
def search (limit : Nat) (cs : List Clause) (decisions trail : List Literal)
    (learned : List Clause) : Result :=
  if hasEmpty cs then .refuted learned
  else
    match _hu : unit? cs with
    | some l => search limit (assign l cs) decisions (l :: trail) learned
    | none =>
        match _hs : shortest? cs with
        | none => .model trail
        | some (_, l) =>
            match search limit (assign l cs) (l :: decisions) (l :: trail) learned with
            | .refuted learned =>
                if spent limit learned then .exhausted
                else
                  search limit (assign l.neg cs) decisions (l.neg :: trail)
                    ((l :: decisions).map Literal.neg :: learned)
            | r => r
termination_by occurrences cs
decreasing_by
  · exact occurrences_assign_lt (.inl (occurs_of_unit? _hu))
  · exact occurrences_assign_lt (.inl (occurs_of_shortest? _hs))
  · exact occurrences_assign_lt (.inr (by simpa using occurs_of_shortest? _hs))

def solve (limit : Nat) (cs : List Clause) : Result := search limit cs [] [] []

def refutes (limit : Nat) (cs : List Clause) (as : List Literal) : Bool :=
  match solve limit (units as ++ cs) with
  | .refuted _ => true
  | _ => false

-- Drops each assumption in turn if the others are refuted without it.
def shrink (limit : Nat) (cs : List Clause) (kept : List Literal) : List Literal → List Literal
  | [] => kept.reverse
  | a :: as =>
      if refutes limit cs (kept.reverse ++ as) then shrink limit cs kept as
      else shrink limit cs (a :: kept) as

def run (limit : Nat) (cs : List Clause) (as : List Literal) : Verdict :=
  match solve limit (units as ++ cs) with
  | .model trail => .model trail
  | .refuted _ => .refuted (shrink limit cs [] as)
  | .exhausted => .exhausted

def prove (cs : List Clause) : Option (List Clause) :=
  match solve 0 cs with
  | .refuted learned => some (([] :: learned).reverse)
  | _ => none

def solver : Solver := ⟨run, prove⟩

end Search

end SatSession.Cnf
