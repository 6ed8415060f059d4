import SatSession.Proofs.Threshold

set_option autoImplicit false

namespace SatSession

namespace Bisection

variable {b : Bisection}

def Word (n : Int) : Prop := -farthest ≤ n ∧ n < farthest

def computed (b : Bisection) : List Int :=
  if b.started = true ∧ b.lo < b.hi then
    [b.hi - b.lo, (b.hi - b.lo) / 2, b.lo + (b.hi - b.lo) / 2, b.lo + (b.hi - b.lo) / 2 + 1]
  else []

theorem overflow_iff_computed (low : Word b.lo) (high : Word b.hi) :
    b.next = .overflow ↔ ∃ n ∈ b.computed, ¬Word n := by
  rw [next_overflow_iff]
  obtain ⟨least, -⟩ := low
  obtain ⟨-, most⟩ := high
  constructor
  next =>
    rintro ⟨started, far⟩
    have apart : b.lo < b.hi := by
      simp only [farthest] at far
      omega
    have computes : b.hi - b.lo ∈ b.computed := by simp [computed, started, apart]
    exact ⟨b.hi - b.lo, computes, fun word => by have less := word.2; omega⟩
  next =>
    rintro ⟨n, computes, wide⟩
    by_cases going : b.started = true ∧ b.lo < b.hi
    next =>
      have apart := going.2
      refine ⟨going.1, ?_⟩
      by_contra near
      simp only [computed, if_pos going, List.mem_cons, List.not_mem_nil, or_false] at computes
      simp only [Word, farthest] at *
      omega
    next => simp [computed, going] at computes

end Bisection

namespace Minimize

variable {F : Family} {s : State} {checked : List Int} {r : Outcome Error Minimum}

theorem Concluded.overflows (concluded : Concluded F checked r) (accepts : F.Accepts F.upper)
    (far : Bisection.farthest ≤ F.upper - F.lower) :
    checked = [F.upper] ∧ r = .panic (.text "attempt to subtract with overflow") := by
  have lone : checked = [F.upper] := by
    rcases concluded.probed.near with near | lone
    · omega
    · exact lone
  refine ⟨lone, ?_⟩
  cases concluded with
  | refused ordered rejects => exact absurd accepts rejects.not_accepts
  | found bracketed met =>
    simp only [Bisection.farthest] at far
    rcases bracketed.near with near | ⟨-, lowest, highest⟩
    · simp only [Bisection.farthest] at near
      omega
    · omega
  | @failed checked k e probed answered fails =>
    obtain rfl : k = F.upper := by simpa using congrArg List.getLast? lone
    exact absurd fails (accepts.answers.ne_error e)
  | @raised checked k p probed answered raises =>
    obtain rfl : k = F.upper := by simpa using congrArg List.getLast? lone
    exact absurd raises (accepts.answers.ne_panic p)
  | overflowed bracketed far => rfl

theorem Surveyed.within (surveyed : Surveyed F s) : ∀ k ∈ s.checked, F.lower ≤ k ∧ k ≤ F.upper := by
  cases surveyed with
  | fresh searching search unchecked => simp [unchecked]
  | bracketed searching bracketed => exact bracketed.within
  | concluded ended concluded => exact concluded.probed.within

theorem Surveyed.words (surveyed : Surveyed F s) (searching : s.result = none)
    (low : Bisection.Word F.lower) (high : Bisection.Word F.upper) :
    Bisection.Word s.search.lo ∧ Bisection.Word s.search.hi := by
  rcases surveyed.running searching with ⟨search, -⟩ | bracketed
  · rw [search]
    exact ⟨low, high⟩
  · obtain ⟨least, -⟩ := low
    obtain ⟨-, most⟩ := high
    have ordered := bracketed.ordered
    have above := bracketed.above
    have below := bracketed.below
    constructor
    next => exact ⟨by omega, by omega⟩
    next => exact ⟨by omega, by omega⟩

theorem Surveyed.far (surveyed : Surveyed F s) (searching : s.result = none)
    (overflow : s.search.next = .overflow) :
    F.Accepts F.upper ∧ Bisection.farthest ≤ F.upper - F.lower := by
  obtain ⟨started, far⟩ := Bisection.next_overflow_iff.mp overflow
  have bracketed := surveyed.of_started searching started
  have above := bracketed.above
  have below := bracketed.below
  exact ⟨bracketed.opened, by omega⟩

-- A feasible upper bound leaves a search with all of its range.
theorem follow_first (accepts : F.Accepts F.upper) : ∃ s, follow F (start F) [.search] = some s ∧
    s.result = none ∧ s.search = ⟨F.lower, F.upper, false, true⟩ := by
  obtain ⟨solution, checked⟩ := accepts
  have next : (start F).search.next = .check F.upper := rfl
  have moved : applySearch F (start F) =
      { send ((start F).check F.upper) ⟨F.upper, .satisfiable, solution⟩ with
        search := ⟨F.lower, F.upper, false, true⟩ } := by
    simp only [applySearch, next, checked, send_search]
    rfl
  refine ⟨applySearch F (start F), rfl, ?_, ?_⟩
  · rw [moved]
    exact send_result _ _
  · rw [moved]

/-- Once its upper bound is found feasible, the first thing a search computes is the distance of the
bounds, which need not be a word. If it is none the search panics, after its one check. No other
number that it computes is out of range, no parameter it checks is outside the bounds, and every
search comes to an end. -/
theorem overflow_iff_far (F : Family) (ordered : F.lower ≤ F.upper)
    (low : Bisection.Word F.lower) (high : Bisection.Word F.upper) :
    (∃ ms r, follow F (start F) ms = some (run F) ∧ outcome? (run F) = some r) ∧
      ((∃ ms s, follow F (start F) ms = some s ∧ s.result = none ∧
          ∃ n ∈ s.search.computed, ¬Bisection.Word n) ↔
        F.Accepts F.upper ∧ Bisection.farthest ≤ F.upper - F.lower) ∧
      ∀ ms s, follow F (start F) ms = some s →
        ms.length ≤ moves F ∧ ((∀ m, apply F s m = none) → ∃ r, outcome? s = some r) ∧
        (∀ k ∈ s.checked, F.lower ≤ k ∧ k ≤ F.upper) ∧
        (s.result = none →
          (s.search.next = .overflow ↔ ∃ n ∈ s.search.computed, ¬Bisection.Word n)) ∧
        (F.Accepts F.upper → Bisection.farthest ≤ F.upper - F.lower → ∀ r, s.result = some r →
          s.checked = [F.upper] ∧ r = .panic (.text "attempt to subtract with overflow")) := by
  refine ⟨follow_runFor (F := F) (s := start F) ordered (work_start F), ⟨?_, ?_⟩, ?_⟩
  · rintro ⟨ms, s, followed, searching, wide⟩
    have surveyed := follow_surveyed ordered followed
    obtain ⟨lowWord, highWord⟩ := surveyed.words searching low high
    exact surveyed.far searching ((Bisection.overflow_iff_computed lowWord highWord).mpr wide)
  · rintro ⟨accepts, far⟩
    obtain ⟨s, followed, searching, search⟩ := follow_first accepts
    have overflow : s.search.next = .overflow := by
      rw [search]
      exact Bisection.next_overflow_iff.mpr ⟨rfl, far⟩
    have surveyed := follow_surveyed ordered followed
    obtain ⟨lowWord, highWord⟩ := surveyed.words searching low high
    have wide := (Bisection.overflow_iff_computed lowWord highWord).mp overflow
    exact ⟨_, s, followed, searching, wide⟩
  · intro ms s followed
    have surveyed := follow_surveyed ordered followed
    have bound := length_follow (s := start F) ordered followed
    have enough := work_start F
    refine ⟨by omega, ?_, surveyed.within, ?_, ?_⟩
    · intro stuck
      cases running : outcome? s with
      | some r => exact ⟨r, rfl⟩
      | none =>
        obtain ⟨m, t, moved, -⟩ := next_possible (F := F) running
        simp [stuck m] at moved
    · intro searching
      obtain ⟨lowWord, highWord⟩ := surveyed.words searching low high
      exact Bisection.overflow_iff_computed lowWord highWord
    · intro accepts far r ended
      exact (follow_concluded ordered followed ended).overflows accepts far

def lenient (lower upper : Int) : Family where
  lower := lower
  upper := upper
  isFeasible _ := .ok (.satisfiable, none)
  recordPanic _ := none

-- The distance of the least and the greatest word is none.
theorem extremes_overflow : ¬∀ F : Family, F.lower ≤ F.upper →
    Bisection.Word F.lower → Bisection.Word F.upper →
    ∀ ms s, follow F (start F) ms = some s → s.result = none →
      ∀ n ∈ s.search.computed, Bisection.Word n := by
  intro safe
  have within := safe (lenient (-9223372036854775808) 9223372036854775807) (by decide)
    ⟨by decide, by decide⟩ ⟨by decide, by decide⟩ [.search] _ rfl rfl
  have less : (18446744073709551615 : Int) < Bisection.farthest :=
    (within 18446744073709551615 (by decide)).2
  exact absurd less (by decide)

-- From the least word it is as far to -1 as a word can tell.
theorem negatives_no_overflow :
    let F := lenient (-9223372036854775808) (-1)
    (∃ r, outcome? (run F) = some r) ∧
      ∀ ms s, follow F (start F) ms = some s → s.result = none →
        ∀ n ∈ s.search.computed, Bisection.Word n := by
  intro F
  obtain ⟨⟨ms, r, -, ended⟩, far, -⟩ :=
    overflow_iff_far F (by decide) ⟨by decide, by decide⟩ ⟨by decide, by decide⟩
  refine ⟨⟨r, ended⟩, ?_⟩
  intro ms s followed searching n computes
  by_contra wide
  have apart := (far.mp ⟨ms, s, followed, searching, n, computes, wide⟩).2
  exact absurd apart (by decide)

end Minimize

end SatSession
