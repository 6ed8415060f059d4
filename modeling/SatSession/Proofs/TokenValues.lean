import SatSession.Proofs.Intake

set_option autoImplicit false

namespace SatSession.Dimacs

open Text

namespace Reader

variable {line : Nat} {t : List Char}

theorem literalOf_wide {n : Int} (number : IsInteger t n) (width : InWidth 64 n)
    (wide : maxVar < n.natAbs) :
    literalOf line t = .error (.outOfRange line (String.ofList t)) := by
  have nonzero : n ≠ 0 := by
    rintro rfl
    exact absurd wide (Nat.not_lt_zero _)
  simp only [literalOf, signedOfWidth?_eq_some_iff.mpr ⟨number, width⟩, nonzero, if_false,
    Lit.ofNumber?_eq_none.mpr (.inr wide)]

theorem literalOf_noLiteral_iff {s : String} : literalOf line t = .error (.noLiteral line s) ↔
    s = String.ofList t ∧ ∀ n, IsInteger t n → ¬InWidth 64 n := by
  constructor
  · intro refused
    unfold literalOf at refused
    split at refused
    next unread =>
      have token := (ReadError.noLiteral.inj (Except.error.inj refused)).2
      refine ⟨token.symm, fun n number width => ?_⟩
      simp [signedOfWidth?_eq_some_iff.mpr ⟨number, width⟩] at unread
    next =>
      split at refused
      next => simp at refused
      next => split at refused <;> simp at refused
  · rintro ⟨rfl, wide⟩
    have unread : signedOfWidth? 64 t = none := by
      refine Option.eq_none_iff_forall_ne_some.mpr fun n read => ?_
      obtain ⟨number, width⟩ := signedOfWidth?_eq_some_iff.mp read
      exact wide n number width
    simp only [literalOf, unread]

theorem tokens_error {r : Reader} {ts : List (List Char)} {e : ReadError}
    (refused : (r.tokens ts).1 = .error e) : ∃ bad ∈ ts, literalOf r.line bad = .error e := by
  rcases r.tokens_cases ts with ⟨ns, numbers⟩ | ⟨good, bad, rest, ns, e', rfl, -, told, taken⟩
  · simp [tokens_numbers numbers r] at refused
  · obtain rfl : e' = e := by simpa [taken] using refused
    exact ⟨bad, by simp, told⟩

theorem line_take (r : Reader) (x : Option Lit) : (r.take x).line = r.line := by
  cases x <;> rfl

-- A line fails with its own token only: another one that is refused reads differently.
theorem tokens_noLiteral_iff {r : Reader} {ts : List (List Char)} :
    (r.tokens (t :: ts)).1 = .error (.noLiteral r.line (String.ofList t)) ↔
      ∀ n, IsInteger t n → ¬InWidth 64 n := by
  have blamed : literalOf r.line t = .error (.noLiteral r.line (String.ofList t)) ↔
      ∀ n, IsInteger t n → ¬InWidth 64 n := by
    rw [literalOf_noLiteral_iff, and_iff_right rfl]
  rw [← blamed, tokens]
  cases read : literalOf r.line t with
  | error e => simp
  | ok x =>
    refine iff_of_false (fun refused => ?_) (by simp)
    obtain ⟨bad, -, told⟩ := tokens_error refused
    rw [line_take, literalOf_noLiteral_iff, String.ofList_inj] at told
    obtain ⟨rfl, wide⟩ := told
    rw [literalOf_noLiteral_iff.mpr ⟨rfl, wide⟩] at read
    cases read

theorem line_feedAll {ls : List (List Char)} (running : (start.feedAll ls).2.done = false) :
    (start.feedAll ls).2.line = ls.length := by
  obtain ⟨left, a, run, small, ends, -⟩ :=
    Intake.exists_run (a := {}) (by simp [Intake.Small]) ls
  have same : (Intake.reader {}) = start := rfl
  rw [same] at run ends
  rw [ends] at running ⊢
  exact (run.lines running).2.trans (Nat.zero_add _)

end Reader

open Reader in
/-- A token of a line of clauses, with only numbers before it on its line. If it is an integer of 64
bits then its value decides: 0 ends the clause, a number that can be negated in 32 bits is a
literal, and another is out of range. Any other token is said to be no literal. The error has the
line and the token as it is written. -/
theorem token_by_value {ls : List (List Char)} {cs token : List Char}
    {good rest : List (List Char)} {ns : List Int}
    (running : (start.feedAll ls).2.done = false) (clausal : IsClausal (tokens cs))
    (cut : tokens cs = good ++ token :: rest) (reached : IsNumbers good ns) :
    let r := (start.feedAll ls).2
    let s : Reader := { r.takeAll ns with line := ls.length + 1 }
    (IsInteger token 0 → r.feed cs =
      Reader.tokens { s with formula := s.formula.add s.pending.toList, pending := #[] } rest) ∧
    (∀ n, IsInteger token n → 1 ≤ n.natAbs → n.natAbs ≤ Nat.pow 2 31 - 1 → ∃ l : Lit, l.number = n ∧
      r.feed cs = Reader.tokens { s with pending := s.pending.push l } rest) ∧
    (∀ n, IsInteger token n → Nat.pow 2 31 - 1 < n.natAbs → InWidth 64 n →
      r.feed cs = (.error (.outOfRange (ls.length + 1) (String.ofList token)), s)) ∧
    ((r.feed cs).1 = .error (.noLiteral (ls.length + 1) (String.ofList token)) ↔
      ∀ n, IsInteger token n → ¬InWidth 64 n) := by
  intro r s
  have arrived : r.feed cs = s.tokens (token :: rest) := by
    rw [← words_eq_tokens] at clausal cut
    rw [feed_numbers running clausal.noMark clausal.counted clausal.noHeader, cut,
      tokens_after reached, takeAll_line, line_feedAll running]
  have taken {n : Int} (number : IsInteger token n) (small : n.natAbs ≤ maxVar) :
      r.feed cs = (s.take (Lit.ofNumber? n)).tokens rest := by
    rw [arrived, Reader.tokens, literalOf_number number small]
  refine ⟨fun zero => taken zero (Nat.zero_le _), fun n number some' small => ?_,
    fun n number large width => ?_, ?_⟩
  · rcases Lit.ofNumber?_cases small with ⟨rfl, -⟩ | ⟨l, value, known⟩
    · simp at some'
    · exact ⟨l, value, by rw [taken number small, known]; rfl⟩
  · rw [arrived, Reader.tokens, literalOf_wide number width large]
  · rw [arrived]
    exact tokens_noLiteral_iff (r := s)

-- The number without a negation in 32 bits, after an open clause and a number with leading zeros.
theorem least_number_out_of_range :
    let ls : List (List Char) := ["4 0 1".toList]
    let cs : List Char := "+00000000000000000000000007 -2147483648 0".toList
    let r := (Reader.start.feedAll ls).2
    r.done = false ∧ IsClausal (tokens cs) ∧
      tokens cs = ["+00000000000000000000000007".toList] ++ "-2147483648".toList :: ["0".toList] ∧
      IsNumbers ["+00000000000000000000000007".toList] [7] ∧
      IsInteger "-2147483648".toList (-2147483648) ∧ InWidth 64 (-2147483648) ∧
      (r.feed cs).1 = .error (.outOfRange 2 "-2147483648") ∧
      (r.feed cs).2.clauseNumbers = [[4], [1, 7]] := by
  intro ls cs r
  have running : r.done = false := by decide
  have cut : tokens cs =
      ["+00000000000000000000000007".toList] ++ "-2147483648".toList :: ["0".toList] := by decide
  have clausal : IsClausal (tokens cs) := by
    rw [cut]
    exact ⟨rfl, by decide, rfl⟩
  have reached : IsNumbers ["+00000000000000000000000007".toList] [7] :=
    ⟨.cons (signed?_eq_some_iff.mp (by decide)) .nil, by decide⟩
  have number : IsInteger "-2147483648".toList (-2147483648) :=
    signed?_eq_some_iff.mp (by decide)
  have width : InWidth 64 (-2147483648) := by
    unfold InWidth
    decide
  have refused := (token_by_value running clausal cut reached).2.2.1 _ number (by decide) width
  refine ⟨running, clausal, cut, reached, number, width, congrArg Prod.fst refused, ?_⟩
  rw [refused]
  decide

/-- An integer of more than 64 bits is out of range as well, but it is said to be no literal. -/
theorem wide_number_called_no_literal :
    let cs : List Char := "9223372036854775808 0".toList
    IsClausal (tokens cs) ∧ tokens cs = [] ++ "9223372036854775808".toList :: ["0".toList] ∧
      IsInteger "9223372036854775808".toList 9223372036854775808 ∧
      Nat.pow 2 31 - 1 < (9223372036854775808 : Int).natAbs ∧
      (Reader.start.feed cs).1 = .error (.noLiteral 1 "9223372036854775808") ∧
      (Reader.start.feed cs).1 ≠ .error (.outOfRange 1 "9223372036854775808") := by
  intro cs
  have cut : tokens cs = [] ++ "9223372036854775808".toList :: ["0".toList] := by decide
  have clausal : IsClausal (tokens cs) := by
    rw [cut]
    exact ⟨rfl, by decide, rfl⟩
  have number : IsInteger "9223372036854775808".toList 9223372036854775808 :=
    signed?_eq_some_iff.mp (by decide)
  have told : (Reader.start.feed cs).1 = .error (.noLiteral 1 "9223372036854775808") := by decide
  exact ⟨clausal, cut, number, by decide, told, by rw [told]; simp⟩

end SatSession.Dimacs
