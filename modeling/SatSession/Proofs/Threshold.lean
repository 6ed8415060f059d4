import Mathlib.Data.Nat.Log
import SatSession.Proofs.Recording

/-!
What a minimization finds. While the search goes on, its upper end was checked and is feasible, and
its lower end is the lower bound or follows a parameter that was checked and is not. Neither needs
the family to be monotone. Each check halves the distance of the ends.
-/

set_option autoImplicit false

namespace SatSession

namespace Family

def Answers (F : Family) (k : Int) : Prop := ∃ answer, F.isFeasible k = .ok answer

def Accepts (F : Family) (k : Int) : Prop :=
  ∃ solution, F.isFeasible k = .ok (.satisfiable, solution)

def Rejects (F : Family) (k : Int) : Prop :=
  ∃ status solution, F.isFeasible k = .ok (status, solution) ∧ status ≠ .satisfiable

variable {F : Family} {k : Int}

theorem Accepts.answers (accepts : F.Accepts k) : F.Answers k := by
  obtain ⟨solution, checked⟩ := accepts
  exact ⟨_, checked⟩

theorem Rejects.answers (rejects : F.Rejects k) : F.Answers k := by
  obtain ⟨status, solution, checked, -⟩ := rejects
  exact ⟨_, checked⟩

theorem Answers.ne_error (answers : F.Answers k) (e : Error) : F.isFeasible k ≠ .error e := by
  obtain ⟨answer, checked⟩ := answers
  simp [checked]

theorem Answers.ne_panic (answers : F.Answers k) (p : Panic) : F.isFeasible k ≠ .panic p := by
  obtain ⟨answer, checked⟩ := answers
  simp [checked]

theorem Rejects.not_accepts (rejects : F.Rejects k) : ¬F.Accepts k := by
  intro accepts
  obtain ⟨status, solution, checked, other⟩ := rejects
  obtain ⟨solution', checked'⟩ := accepts
  rw [checked] at checked'
  cases checked'
  exact other rfl

end Family

structure Minimum.Justified (F : Family) (checked : List Int) (m : Minimum) : Prop where
  feasible : m.feasible = true ↔ F.Accepts F.upper
  infeasible : m.feasible = false → m.value = F.upper ∧ m.optimal = false ∧ checked = [F.upper]
  reached : m.feasible = true →
    m.value ∈ checked ∧ F.Accepts m.value ∧ (m.optimal = true ↔ F.lower < m.value)
  optimal : m.optimal = true → m.value - 1 ∈ checked ∧ F.Rejects (m.value - 1)

theorem Minimum.Justified.threshold {F : Family} {checked : List Int} {m : Minimum}
    (justified : m.Justified F checked) (ordered : F.lower ≤ F.upper)
    (within : ∀ k ∈ checked, F.lower ≤ k ∧ k ≤ F.upper) {K : Int} (below : K ≤ F.upper)
    (monotone : ∀ k, F.lower ≤ k → k ≤ F.upper → (F.Accepts k ↔ K ≤ k)) :
    m.value = max F.lower K := by
  have feasible : m.feasible = true :=
    justified.feasible.mpr ((monotone F.upper ordered (Int.le_refl _)).mpr below)
  obtain ⟨checked, accepts, optimal⟩ := justified.reached feasible
  obtain ⟨least, most⟩ := within m.value checked
  have above : K ≤ m.value := (monotone m.value least most).mp accepts
  by_cases higher : F.lower < m.value
  next =>
    obtain ⟨checked', rejects⟩ := justified.optimal (optimal.mpr higher)
    obtain ⟨least', most'⟩ := within (m.value - 1) checked'
    have next_below : ¬K ≤ m.value - 1 := by
      intro reaches
      exact rejects.not_accepts ((monotone (m.value - 1) least' most').mpr reaches)
    omega
  next => omega

namespace Bisection

variable {b : Bisection} {k : Int} {feasible : Bool}

theorem next_midpoint (next : b.next = .check k) (started : b.started = true) :
    b.lo < b.hi ∧ b.hi - b.lo < farthest ∧ k = b.lo + (b.hi - b.lo) / 2 := by
  simp only [Bisection.next, started, Bool.not_true, Bool.false_eq_true, if_false] at next
  split at next
  next apart =>
    split at next
    next near => exact ⟨apart, near, (Next.check.inj next).symm⟩
    next => cases next
  next => cases next

theorem next_done {m : Minimum} (next : b.next = .done m) :
    b.started = true ∧ b.hi ≤ b.lo ∧ m = ⟨b.hi, b.optimal, true⟩ := by
  unfold Bisection.next at next
  split at next
  next => cases next
  next started =>
    split at next
    next => split at next <;> cases next
    next met =>
      have result := Next.done.inj next
      exact ⟨by simpa using started, by omega, result.symm⟩

theorem next_overflow_iff :
    b.next = .overflow ↔ b.started = true ∧ farthest ≤ b.hi - b.lo := by
  cases started : b.started with
  | false => simp [Bisection.next, started]
  | true =>
    by_cases far : farthest ≤ b.hi - b.lo
    next =>
      have apart : b.lo < b.hi := by
        simp only [farthest] at far
        omega
      simp [Bisection.next, started, apart, far]
    next =>
      by_cases apart : b.lo < b.hi
      next => simp [Bisection.next, started, apart, far, Int.not_le.mp far]
      next => simp [Bisection.next, started, apart, far]

theorem learn_fresh (fresh : b.started = false) :
    b.learn k feasible = if feasible then some { b with started := true } else none := by
  cases feasible <;> simp [learn, fresh]

theorem learn_started (started : b.started = true) :
    b.learn k feasible =
      some (if feasible then { b with hi := k } else { b with lo := k + 1, optimal := true }) := by
  cases feasible <;> simp [learn, started]

end Bisection

namespace Minimize

variable {F : Family} {s t : State} {b : Bisection} {checked : List Int} {k : Int}
  {r : Outcome Error Minimum}

section Brackets

def checks (F : Family) : Nat := 1 + Nat.clog 2 (F.upper - F.lower + 1).toNat

structure Probed (F : Family) (checked : List Int) : Prop where
  first : checked.head? = some F.upper
  near : F.upper - F.lower < Bisection.farthest ∨ checked = [F.upper]
  within : ∀ k ∈ checked, F.lower ≤ k ∧ k ≤ F.upper
  few : checked.length ≤ checks F

theorem Probed.upper (ordered : F.lower ≤ F.upper) : Probed F [F.upper] where
  first := rfl
  near := .inr rfl
  within k member := by
    obtain rfl := List.mem_singleton.mp member
    exact ⟨ordered, Int.le_refl _⟩
  few := by simp [checks]

/-- A search past its first check. `halved` counts the checks that are left to it with those it has
made. -/
structure Bracketed (F : Family) (b : Bisection) (checked : List Int) : Prop where
  started : b.started = true
  ordered : b.lo ≤ b.hi
  above : F.lower ≤ b.lo
  below : b.hi ≤ F.upper
  first : checked.head? = some F.upper
  near : F.upper - F.lower < Bisection.farthest ∨
    checked = [F.upper] ∧ b.lo = F.lower ∧ b.hi = F.upper
  within : ∀ k ∈ checked, F.lower ≤ k ∧ k ≤ F.upper
  answered : ∀ k ∈ checked, F.Answers k
  opened : F.Accepts F.upper
  reached : b.hi ∈ checked ∧ F.Accepts b.hi
  lowest : b.optimal = false → b.lo = F.lower
  raised : b.optimal = true → F.lower < b.lo ∧ b.lo - 1 ∈ checked ∧ F.Rejects (b.lo - 1)
  halved : checked.length + Nat.clog 2 (b.hi - b.lo + 1).toNat ≤ checks F

theorem Bracketed.start (ordered : F.lower ≤ F.upper) (opened : F.Accepts F.upper) :
    Bracketed F { Bisection.start F.lower F.upper with started := true } [F.upper] where
  started := rfl
  ordered := ordered
  above := Int.le_refl _
  below := Int.le_refl _
  first := rfl
  near := .inr ⟨rfl, rfl, rfl⟩
  within := (Probed.upper ordered).within
  answered k member := by
    obtain rfl := List.mem_singleton.mp member
    exact opened.answers
  opened := opened
  reached := ⟨List.mem_singleton.mpr rfl, opened⟩
  lowest _ := rfl
  raised optimal := by cases optimal
  halved := by simp [Bisection.start, checks]

theorem Bracketed.probed (bracketed : Bracketed F b checked) : Probed F checked where
  first := bracketed.first
  near := bracketed.near.imp_right And.left
  within := bracketed.within
  few := by
    have halved := bracketed.halved
    omega

-- A check halves what is left, to whichever side.
theorem clog_half {rest size : Nat} (large : 2 ≤ size) (half : rest ≤ (size + 1) / 2) :
    Nat.clog 2 rest + 1 ≤ Nat.clog 2 size := by
  rw [Nat.clog_of_two_le (Nat.lt_succ_self 1) large]
  have smaller := Nat.clog_mono_right 2 half
  simpa using smaller

theorem Bracketed.near_of_next (bracketed : Bracketed F b checked) (next : b.next = .check k) :
    F.upper - F.lower < Bisection.farthest := by
  obtain ⟨apart, close, middle⟩ := Bisection.next_midpoint next bracketed.started
  rcases bracketed.near with near | ⟨-, lowest, highest⟩
  · exact near
  · rwa [lowest, highest] at close

theorem Bracketed.halves (bracketed : Bracketed F b checked) (apart : b.lo < b.hi) {rest : Nat}
    (half : rest ≤ ((b.hi - b.lo + 1).toNat + 1) / 2) :
    (checked ++ [k]).length + Nat.clog 2 rest ≤ checks F := by
  have left : Nat.clog 2 rest + 1 ≤ Nat.clog 2 (b.hi - b.lo + 1).toNat :=
    clog_half (by omega) half
  have halved := bracketed.halved
  rw [List.length_append, List.length_singleton]
  omega

theorem Bracketed.probe (bracketed : Bracketed F b checked) (next : b.next = .check k) :
    Probed F (checked ++ [k]) := by
  obtain ⟨apart, close, middle⟩ := Bisection.next_midpoint next bracketed.started
  have above := bracketed.above
  have below := bracketed.below
  constructor
  next => simp [bracketed.first]
  next => exact .inl (bracketed.near_of_next next)
  next =>
    intro j member
    rcases List.mem_append.mp member with earlier | now
    · exact bracketed.within j earlier
    · have same := List.mem_singleton.mp now
      omega
  next =>
    have enough : (checked ++ [k]).length + Nat.clog 2 0 ≤ checks F :=
      bracketed.halves apart (Nat.zero_le _)
    exact Nat.le_of_add_right_le enough

theorem Bracketed.answer (bracketed : Bracketed F b checked) (answers : F.Answers k) :
    ∀ j ∈ checked ++ [k], F.Answers j := by
  intro j member
  rcases List.mem_append.mp member with earlier | now
  · exact bracketed.answered j earlier
  · exact List.mem_singleton.mp now ▸ answers

theorem Bracketed.accept (bracketed : Bracketed F b checked) (next : b.next = .check k)
    (accepts : F.Accepts k) : Bracketed F { b with hi := k } (checked ++ [k]) := by
  obtain ⟨apart, close, middle⟩ := Bisection.next_midpoint next bracketed.started
  have probed := bracketed.probe next
  have above := bracketed.above
  have below := bracketed.below
  exact {
    started := bracketed.started
    ordered := by simp only; omega
    above := above
    below := by simp only; omega
    first := probed.first
    near := .inl (bracketed.near_of_next next)
    within := probed.within
    answered := bracketed.answer accepts.answers
    opened := bracketed.opened
    reached := ⟨by simp, accepts⟩
    lowest := bracketed.lowest
    raised := fun optimal => by
      obtain ⟨higher, member, rejects⟩ := bracketed.raised optimal
      exact ⟨higher, List.mem_append_left _ member, rejects⟩
    halved := bracketed.halves apart (by simp only; omega) }

theorem Bracketed.reject (bracketed : Bracketed F b checked) (next : b.next = .check k)
    (rejects : F.Rejects k) :
    Bracketed F { b with lo := k + 1, optimal := true } (checked ++ [k]) := by
  obtain ⟨apart, close, middle⟩ := Bisection.next_midpoint next bracketed.started
  have probed := bracketed.probe next
  have above := bracketed.above
  have below := bracketed.below
  exact {
    started := bracketed.started
    ordered := by simp only; omega
    above := by simp only; omega
    below := below
    first := probed.first
    near := .inl (bracketed.near_of_next next)
    within := probed.within
    answered := bracketed.answer rejects.answers
    opened := bracketed.opened
    reached := ⟨List.mem_append_left _ bracketed.reached.1, bracketed.reached.2⟩
    lowest := fun optimal => by cases optimal
    raised := fun _ => by
      simp only [Int.add_sub_cancel]
      exact ⟨by omega, by simp, rejects⟩
    halved := bracketed.halves apart (by simp only; omega) }

end Brackets

section Conclusions

inductive Concluded (F : Family) : List Int → Outcome Error Minimum → Prop where
  | refused (ordered : F.lower ≤ F.upper) (rejects : F.Rejects F.upper) :
      Concluded F [F.upper] (.ok ⟨F.upper, false, false⟩)
  | found {b : Bisection} {checked : List Int} (bracketed : Bracketed F b checked)
      (met : b.hi ≤ b.lo) : Concluded F checked (.ok ⟨b.hi, b.optimal, true⟩)
  | failed {checked : List Int} {k : Int} {e : Error} (probed : Probed F (checked ++ [k]))
      (answered : ∀ j ∈ checked, F.Answers j)
      (fails : F.isFeasible k = .error e) : Concluded F (checked ++ [k]) (.error e)
  | raised {checked : List Int} {k : Int} {p : Panic} (probed : Probed F (checked ++ [k]))
      (answered : ∀ j ∈ checked, F.Answers j)
      (raises : F.isFeasible k = .panic p) : Concluded F (checked ++ [k]) (.panic p)
  | overflowed {b : Bisection} {checked : List Int} (bracketed : Bracketed F b checked)
      (far : Bisection.farthest ≤ b.hi - b.lo) :
      Concluded F checked (.panic (.text "attempt to subtract with overflow"))

theorem Concluded.probed (concluded : Concluded F checked r) : Probed F checked := by
  cases concluded with
  | refused ordered rejects => exact .upper ordered
  | found bracketed met => exact bracketed.probed
  | failed probed answered fails => exact probed
  | raised probed answered raises => exact probed
  | overflowed bracketed far => exact bracketed.probed

theorem Concluded.justified {m : Minimum} (concluded : Concluded F checked (.ok m)) :
    m.Justified F checked := by
  cases concluded with
  | refused ordered rejects =>
    constructor
    next => simp [rejects.not_accepts]
    next => simp
    next => intro feasible; cases feasible
    next => intro optimal; cases optimal
  | @found b checked bracketed met =>
    have ordered := bracketed.ordered
    have ends : b.lo = b.hi := by omega
    constructor
    next => simp [bracketed.opened]
    next => intro infeasible; cases infeasible
    next =>
      intro _
      refine ⟨bracketed.reached.1, bracketed.reached.2, ?_⟩
      simp only
      cases optimal : b.optimal with
      | false =>
        have lowest := bracketed.lowest optimal
        simp only [Bool.false_eq_true, false_iff]
        omega
      | true =>
        have higher := (bracketed.raised optimal).1
        simp only [true_iff]
        omega
    next =>
      intro optimal
      have raised := (bracketed.raised optimal).2
      rwa [ends] at raised

theorem Concluded.succeeds (near : F.upper - F.lower < Bisection.farthest)
    (concluded : Concluded F checked r) (answered : ∀ k ∈ checked, F.Answers k) :
    ∃ m, r = .ok m := by
  cases concluded with
  | refused ordered rejects => exact ⟨_, rfl⟩
  | found bracketed met => exact ⟨_, rfl⟩
  | @failed checked k e probed earlier fails =>
    have answers : F.Answers k := answered k (by simp)
    exact absurd fails (answers.ne_error e)
  | @raised checked k p probed earlier raises =>
    have answers : F.Answers k := answered k (by simp)
    exact absurd raises (answers.ne_panic p)
  | overflowed bracketed far =>
    have above := bracketed.above
    have below := bracketed.below
    omega

theorem eq_last {j : Int} (answered : ∀ j ∈ checked, F.Answers j) {e : Error}
    (fails : F.isFeasible k = .error e) (member : k ∈ checked ++ [j]) : k = j := by
  rcases List.mem_append.mp member with earlier | now
  · exact absurd fails ((answered k earlier).ne_error e)
  · exact List.mem_singleton.mp now

theorem Concluded.stops {e : Error} (concluded : Concluded F checked r) (member : k ∈ checked)
    (fails : F.isFeasible k = .error e) : checked.getLast? = some k ∧ r = .error e := by
  cases concluded with
  | refused ordered rejects =>
    rw [List.mem_singleton.mp member] at fails
    exact absurd fails (rejects.answers.ne_error e)
  | found bracketed met => exact absurd fails ((bracketed.answered k member).ne_error e)
  | failed probed answered fails' =>
    obtain rfl := eq_last answered fails member
    rw [fails] at fails'
    cases fails'
    exact ⟨List.getLast?_concat, rfl⟩
  | raised probed answered raises =>
    obtain rfl := eq_last answered fails member
    rw [fails] at raises
    cases raises
  | overflowed bracketed far => exact absurd fails ((bracketed.answered k member).ne_error e)

end Conclusions

section Runs

inductive Surveyed (F : Family) (s : State) : Prop where
  | fresh (searching : s.result = none) (search : s.search = .start F.lower F.upper)
      (unchecked : s.checked = [])
  | bracketed (searching : s.result = none) (bracketed : Bracketed F s.search s.checked)
  | concluded {r : Outcome Error Minimum} (ended : s.result = some r)
      (concluded : Concluded F s.checked r)

theorem Surveyed.running (surveyed : Surveyed F s) (searching : s.result = none) :
    s.search = .start F.lower F.upper ∧ s.checked = [] ∨ Bracketed F s.search s.checked := by
  cases surveyed with
  | fresh _ search unchecked => exact .inl ⟨search, unchecked⟩
  | bracketed _ bracketed => exact .inr bracketed
  | concluded ended => simp [searching] at ended

theorem Surveyed.of_started (surveyed : Surveyed F s) (searching : s.result = none)
    (started : s.search.started = true) : Bracketed F s.search s.checked := by
  rcases surveyed.running searching with ⟨search, -⟩ | bracketed
  · simp [search, Bisection.start] at started
  · exact bracketed

theorem Surveyed.probe (surveyed : Surveyed F s) (ordered : F.lower ≤ F.upper)
    (searching : s.result = none) (next : s.search.next = .check k) :
    Probed F (s.checked ++ [k]) ∧ ∀ j ∈ s.checked, F.Answers j := by
  rcases surveyed.running searching with ⟨search, unchecked⟩ | bracketed
  · rw [search] at next
    have first : k = F.upper := (Bisection.Next.check.inj next).symm
    rw [unchecked, first]
    exact ⟨Probed.upper ordered, fun j member => absurd member List.not_mem_nil⟩
  · exact ⟨bracketed.probe next, bracketed.answered⟩

theorem accepts_or_rejects {status : Status} {solution : Option Assignment}
    (answer : F.isFeasible k = .ok (status, solution)) :
    if status = .satisfiable then F.Accepts k else F.Rejects k := by
  split
  next satisfiable => exact ⟨solution, satisfiable ▸ answer⟩
  next other => exact ⟨status, solution, answer, other⟩

section Answers

variable {status : Status} {solution : Option Assignment}

theorem Surveyed.learn (surveyed : Surveyed F s) (ordered : F.lower ≤ F.upper)
    (searching : s.result = none) (next : s.search.next = .check k)
    (answer : F.isFeasible k = .ok (status, solution))
    (learned : s.search.learn k (status = .satisfiable) = some b) :
    Bracketed F b (s.checked ++ [k]) := by
  have verdict := accepts_or_rejects answer
  rcases surveyed.running searching with ⟨search, unchecked⟩ | bracketed
  · rw [search] at next learned
    obtain rfl : F.upper = k := Bisection.Next.check.inj next
    rw [Bisection.learn_fresh rfl] at learned
    by_cases satisfiable : status = .satisfiable
    next =>
      simp only [satisfiable, decide_true, if_true, Option.some.injEq] at learned verdict
      subst learned
      simpa [unchecked] using Bracketed.start ordered verdict
    next => simp [satisfiable] at learned
  · rw [Bisection.learn_started bracketed.started] at learned
    by_cases satisfiable : status = .satisfiable
    next =>
      simp only [satisfiable, decide_true, if_true, Option.some.injEq] at learned verdict
      subst learned
      exact bracketed.accept next verdict
    next =>
      simp only [satisfiable, decide_false, Bool.false_eq_true, if_false,
        Option.some.injEq] at learned verdict
      subst learned
      exact bracketed.reject next verdict

-- Only the first check can leave a search with nothing to learn.
theorem Surveyed.refuse (surveyed : Surveyed F s) (ordered : F.lower ≤ F.upper)
    (searching : s.result = none) (next : s.search.next = .check k)
    (answer : F.isFeasible k = .ok (status, solution))
    (refused : s.search.learn k (status = .satisfiable) = none) :
    Concluded F (s.checked ++ [k]) (.ok ⟨k, false, false⟩) := by
  have verdict := accepts_or_rejects answer
  rcases surveyed.running searching with ⟨search, unchecked⟩ | bracketed
  · rw [search] at next refused
    obtain rfl : F.upper = k := Bisection.Next.check.inj next
    rw [Bisection.learn_fresh rfl] at refused
    by_cases satisfiable : status = .satisfiable
    next => simp [satisfiable] at refused
    next =>
      rw [if_neg satisfiable] at verdict
      simpa [unchecked] using Concluded.refused ordered verdict
  · simp [Bisection.learn_started bracketed.started] at refused

end Answers

theorem Surveyed.moved (ordered : F.lower ≤ F.upper) (surveyed : Surveyed F s)
    (moved : Moved F s t) : Surveyed F t := by
  cases moved with
  | @learn k status solution b searching next checked learned =>
    obtain ⟨queue, -, sent⟩ := send_eq (s.check k) ⟨k, status, solution⟩
    rw [sent]
    exact .bracketed searching (surveyed.learn ordered searching next checked learned)
  | @infeasible k status solution searching next checked refused =>
    obtain ⟨queue, -, sent⟩ := send_eq (s.check k) ⟨k, status, solution⟩
    rw [sent]
    exact .concluded rfl (surveyed.refuse ordered searching next checked refused)
  | fail searching next checked =>
    obtain ⟨probed, answered⟩ := surveyed.probe ordered searching next
    exact .concluded rfl (.failed probed answered checked)
  | raise searching next checked =>
    obtain ⟨probed, answered⟩ := surveyed.probe ordered searching next
    exact .concluded rfl (.raised probed answered checked)
  | done searching next =>
    obtain ⟨started, met, rfl⟩ := Bisection.next_done next
    exact .concluded rfl (.found (surveyed.of_started searching started) met)
  | overflow searching next =>
    obtain ⟨started, far⟩ := Bisection.next_overflow_iff.mp next
    exact .concluded rfl (.overflowed (surveyed.of_started searching started) far)
  | receive | crash | close =>
    cases surveyed with
    | fresh searching search unchecked => exact .fresh searching search unchecked
    | bracketed searching bracketed => exact .bracketed searching bracketed
    | concluded ended concluded => exact .concluded ended concluded

theorem follow_surveyed {ms : List Move} (ordered : F.lower ≤ F.upper)
    (followed : follow F (start F) ms = some s) : Surveyed F s :=
  follow_keeps (fun _ _ => Surveyed.moved ordered) (.fresh rfl rfl rfl) followed

theorem follow_concluded {ms : List Move} (ordered : F.lower ≤ F.upper)
    (followed : follow F (start F) ms = some s) (ended : s.result = some r) :
    Concluded F s.checked r := by
  cases follow_surveyed ordered followed with
  | fresh searching => simp [searching] at ended
  | bracketed searching => simp [searching] at ended
  | concluded ended' concluded =>
    obtain rfl := Option.some.inj (ended.symm.trans ended')
    exact concluded

end Runs

/-- Every search comes to a result, and whatever schedule takes it there the checks are few: the
upper bound first, no parameter twice. If all of them succeed the result is a minimum, justified by
two of them, and in a monotone family the threshold. A check that fails is the last. -/
theorem finds_threshold (F : Family) (ordered : F.lower ≤ F.upper)
    (near : F.upper - F.lower < Bisection.farthest) :
    (∃ ms r, follow F (start F) ms = some (run F) ∧ (run F).result = some r ∧
        ((∀ f, F.recordPanic f = none) → (minimize F).1 = r)) ∧
      ∀ ms s r, follow F (start F) ms = some s → s.result = some r →
        s.checked.head? = some F.upper ∧ s.checked.Nodup ∧
        s.checked.length ≤ 1 + Nat.clog 2 (F.upper - F.lower + 1).toNat ∧
        (∀ k ∈ s.checked, F.lower ≤ k ∧ k ≤ F.upper) ∧
        ((∀ k ∈ s.checked, F.Answers k) → ∃ m, r = .ok m ∧ m.Justified F s.checked ∧
          ∀ K ≤ F.upper, (∀ k, F.lower ≤ k → k ≤ F.upper → (F.Accepts k ↔ K ≤ k)) →
            m.value = max F.lower K) ∧
        ∀ k ∈ s.checked, ∀ e, F.isFeasible k = .error e →
          s.checked.getLast? = some k ∧ r = .error e := by
  constructor
  next =>
    obtain ⟨ms, r, followed, returned⟩ :=
      follow_runFor (F := F) (s := start F) ordered (work_start F)
    have relayed := follow_keeps (fun _ _ => Relayed.moved) (Relayed.start F) followed
    obtain ⟨ended, answered⟩ := outcome_cases returned
    obtain ⟨r', result⟩ := Option.isSome_iff_exists.mp ended
    refine ⟨ms, r', followed, result, ?_⟩
    intro quiet
    have answer : (minimize F).1 = r := by
      simp only [minimize, if_neg (Int.not_lt.mpr ordered), run, returned, Option.getD_some]
    rcases answered with ⟨-, result'⟩ | ⟨p, crashed, -⟩
    · rw [answer]
      exact Option.some.inj (result'.symm.trans result)
    · obtain ⟨f, dropped, -, panics⟩ := relayed.crashed p crashed
      simp [quiet f] at panics
  next =>
    intro ms s r followed ended
    have concluded := follow_concluded ordered followed ended
    have searched := follow_searched (Searched.start ordered near) followed
    have probed := concluded.probed
    refine ⟨probed.first, searched.distinct, probed.few, probed.within, ?_, ?_⟩
    · intro answered
      obtain ⟨m, rfl⟩ := concluded.succeeds near answered
      have justified := concluded.justified
      refine ⟨m, rfl, justified, ?_⟩
      intro K below monotone
      exact justified.threshold ordered probed.within below monotone
    · intro k member e fails
      exact concluded.stops member fails

-- Feasible at -2, 2 and 4 alone.
def scattered : Family where
  lower := -3
  upper := 4
  isFeasible k := .ok (if k = -2 ∨ k = 2 ∨ k = 4 then .satisfiable else .unsatisfiable, none)
  recordPanic _ := none

-- The search comes to 2, although a smaller parameter is feasible.
theorem scattered_justified : (minimize scattered).1 = .ok ⟨2, true, true⟩ ∧
    (run scattered).checked = [4, 0, 2, 1] ∧
    Minimum.Justified scattered [4, 0, 2, 1] ⟨2, true, true⟩ := by
  have found : (run scattered).result = some (.ok ⟨2, true, true⟩) := by rfl
  have checked : (run scattered).checked = [4, 0, 2, 1] := by rfl
  obtain ⟨⟨ms, r, followed, ended, returned⟩, runs⟩ :=
    finds_threshold scattered (by decide) (by decide)
  obtain ⟨-, -, -, -, minimum, -⟩ := runs ms _ r followed ended
  obtain ⟨m, rfl, justified, -⟩ := minimum fun k _ => ⟨_, rfl⟩
  obtain rfl : ⟨2, true, true⟩ = m := by
    rw [found] at ended
    simpa using ended
  exact ⟨returned fun _ => rfl, checked, checked ▸ justified⟩

end Minimize

end SatSession
