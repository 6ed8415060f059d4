import Mathlib.Data.List.Forall2
import Mathlib.Order.Nat
import SatSession.Proofs.RoundTrip

set_option autoImplicit false

namespace SatSession

namespace Text

def tokens (cs : List Char) : List (List Char) := (cs.splitOnP isBlank).filter (!·.isEmpty)

structure IsDigits (cs : List Char) : Prop where
  nonempty : cs ≠ []
  digits : ∀ c ∈ cs, c.isDigit = true

inductive IsNatural : List Char → Nat → Prop
  | plain {cs : List Char} (digits : IsDigits cs) : IsNatural cs (Nat.ofDigitChars 10 cs 0)
  | plus {cs : List Char} (digits : IsDigits cs) : IsNatural ('+' :: cs) (Nat.ofDigitChars 10 cs 0)

inductive IsInteger : List Char → Int → Prop
  | natural {cs : List Char} {n : Nat} (number : IsNatural cs n) : IsInteger cs n
  | minus {cs : List Char} (digits : IsDigits cs) :
      IsInteger ('-' :: cs) (-(Nat.ofDigitChars 10 cs 0 : Nat))

def InWidth (bits : Nat) (n : Int) : Prop :=
  -(Nat.pow 2 (bits - 1) : Int) ≤ n ∧ n < (Nat.pow 2 (bits - 1) : Int)

theorem tokens_append {b : Char} (blank : isBlank b = true) (cs ds : List Char) :
    tokens (cs ++ b :: ds) = tokens cs ++ tokens ds := by
  rw [tokens, List.splitOnP_append_cons cs ds blank, List.filter_append]
  rfl

theorem tokens_newline (cs : List Char) : tokens (cs ++ ['\n']) = tokens cs := by
  rw [tokens_append rfl]
  simp [tokens]

theorem tokens_solid {cs : List Char} (solid : ∀ c ∈ cs, isBlank c = false) :
    tokens cs = if cs.isEmpty then [] else [cs] := by
  rw [tokens, List.splitOnP_eq_singleton solid]
  cases cs <;> rfl

theorem wordsFrom_eq {word : List Char} (solid : ∀ c ∈ word, isBlank c = false) (cs : List Char) :
    wordsFrom word [] cs = tokens (word.reverse ++ cs) := by
  have closed {word : List Char} (solid : ∀ c ∈ word, isBlank c = false) :
      (closeWord word []).reverse = tokens word.reverse := by
    rw [tokens_solid fun c hc => solid c (List.mem_reverse.mp hc), List.isEmpty_reverse, closeWord]
    split <;> rfl
  induction cs generalizing word with
  | nil => rw [wordsFrom, closed solid, List.append_nil]
  | cons c cs ih =>
    rw [wordsFrom]
    split
    next blank =>
      rw [wordsFrom_found, ih (fun _ hd => absurd hd List.not_mem_nil), closed solid,
        tokens_append blank]
      rfl
    next letter =>
      rw [ih (List.forall_mem_cons.mpr ⟨by simpa using letter, solid⟩)]
      simp

theorem words_eq_tokens (cs : List Char) : words cs = tokens cs :=
  wordsFrom_eq (fun _ hc => absurd hc List.not_mem_nil) cs

theorem digits?_eq_some_iff {cs : List Char} {n : Nat} :
    digits? cs = some n ↔ IsDigits cs ∧ n = Nat.ofDigitChars 10 cs 0 := by
  constructor
  · intro read
    have nonempty : cs ≠ [] := by
      rintro rfl
      simp [digits?] at read
    have folded : cs.foldlM appendDigit? 0 = some n := by
      cases cs with
      | nil => exact absurd rfl nonempty
      | cons c cs => exact read
    have digits : ∀ c ∈ cs, c.isDigit = true := by
      clear read nonempty
      generalize 0 = start at folded
      induction cs generalizing start with
      | nil => simp
      | cons c cs ih =>
        rw [List.foldlM_cons, appendDigit?] at folded
        split at folded
        next digit => exact List.forall_mem_cons.mpr ⟨digit, ih _ folded⟩
        next => simp at folded
    rw [foldlM_appendDigit? digits] at folded
    exact ⟨⟨nonempty, digits⟩, (Option.some.inj folded).symm⟩
  · rintro ⟨⟨nonempty, digits⟩, rfl⟩
    cases cs with
    | nil => exact absurd rfl nonempty
    | cons c cs => exact foldlM_appendDigit? digits 0

theorem not_isDigits_of_sign {c : Char} {cs : List Char} (sign : c.isDigit = false) :
    ¬IsDigits (c :: cs) := by
  intro digits
  simp [digits.digits c List.mem_cons_self] at sign

theorem unsigned?_eq_some_iff {cs : List Char} {n : Nat} :
    unsigned? cs = some n ↔ IsNatural cs n := by
  constructor
  · intro read
    unfold unsigned? at read
    split at read
    · obtain ⟨digits, rfl⟩ := digits?_eq_some_iff.mp read
      exact .plus digits
    · obtain ⟨digits, rfl⟩ := digits?_eq_some_iff.mp read
      exact .plain digits
  · rintro (digits | digits)
    · have read := digits?_eq_some_iff.mpr ⟨digits, rfl⟩
      unfold unsigned?
      split
      · exact absurd digits (not_isDigits_of_sign rfl)
      · exact read
    · exact digits?_eq_some_iff.mpr ⟨digits, rfl⟩

theorem signed?_minus (cs : List Char) :
    signed? ('-' :: cs) = (digits? cs).map fun n : Nat => -(n : Int) := by
  rw [signed?]
  cases digits? cs <;> rfl

theorem signed?_eq_some_iff {cs : List Char} {n : Int} : signed? cs = some n ↔ IsInteger cs n := by
  constructor
  · intro read
    by_cases minus : ∃ ds, cs = '-' :: ds
    · obtain ⟨ds, rfl⟩ := minus
      rw [signed?_minus] at read
      obtain ⟨m, number, rfl⟩ := Option.map_eq_some_iff.mp read
      obtain ⟨digits, rfl⟩ := digits?_eq_some_iff.mp number
      exact .minus digits
    · rw [signed?.eq_2 _ fun ds same => minus ⟨ds, same⟩] at read
      obtain ⟨m, number, rfl⟩ := Option.map_eq_some_iff.mp read
      exact .natural (unsigned?_eq_some_iff.mp number)
  · rintro (number | digits)
    · have read := unsigned?_eq_some_iff.mpr number
      unfold signed?
      split
      next cs =>
        rcases number with digits | digits
        exact absurd digits (not_isDigits_of_sign rfl)
      next => rw [read]; rfl
    · rw [signed?_minus, digits?_eq_some_iff.mpr ⟨digits, rfl⟩, Option.map_some]

theorem signedOfWidth?_eq_some_iff {bits : Nat} {cs : List Char} {n : Int} :
    signedOfWidth? bits cs = some n ↔ IsInteger cs n ∧ InWidth bits n := by
  rw [signedOfWidth?, Option.filter_eq_some_iff, signed?_eq_some_iff, Bool.and_eq_true,
    decide_eq_true_eq, decide_eq_true_eq]
  rfl

end Text

theorem Lit.ofNumber?_cases {n : Int} (small : n.natAbs ≤ maxVar) :
    n = 0 ∧ Lit.ofNumber? n = none ∨ ∃ l : Lit, l.number = n ∧ Lit.ofNumber? n = some l := by
  cases known : Lit.ofNumber? n with
  | none => exact .inl ⟨(Lit.ofNumber?_eq_none.mp known).resolve_right (by omega), rfl⟩
  | some l => exact .inr ⟨l, Clause.number_of_ofNumber? known, rfl⟩

namespace Dimacs

open Text

def startsWith (c : Char) : List (List Char) → Bool
  | (d :: _) :: _ => d == c
  | _ => false

/-- The texts of the lines up to the end mark, which must be UTF-8. What follows the mark need not
be text. -/
inductive Texts : List Bytes → List (List Char) → Prop
  | nil : Texts [] []
  | mark {cs : List Char} {ls : List Bytes} (marked : (tokens cs).head? = some ['%']) :
      Texts (Bytes.ofChars cs :: ls) []
  | line {cs : List Char} {ls : List Bytes} {ts : List (List Char)}
      (unmarked : (tokens cs).head? ≠ some ['%']) (rest : Texts ls ts) :
      Texts (Bytes.ofChars cs :: ls) (cs :: ts)

def counts (l : List (List Char)) : Bool := !l.isEmpty && !startsWith 'c' l

def content (ts : List (List Char)) : List (List (List Char)) := (ts.map tokens).filter counts

inductive IsHeader : List (List Char) → Header → Prop
  | intro {vars clauses : List Char} {h : Header} (varCount : IsNatural vars h.varCount)
      (clauseCount : IsNatural clauses h.clauseCount) (small : h.varCount ≤ maxVar)
      (counted : h.clauseCount < UInt64.size) : IsHeader [['p'], ['c', 'n', 'f'], vars, clauses] h

theorem IsHeader.small {l : List (List Char)} {h : Header} : IsHeader l h → h.varCount ≤ maxVar
  | .intro _ _ small _ => small

theorem IsHeader.startsWith {l : List (List Char)} {h : Header} :
    IsHeader l h → startsWith 'p' l = true
  | .intro _ _ _ _ => rfl

structure IsNumbers (ts : List (List Char)) (ns : List Int) : Prop where
  numbers : List.Forall₂ IsInteger ts ns
  small : ∀ n ∈ ns, n.natAbs ≤ maxVar

structure IsBody (ls : List (List (List Char))) (ns : List Int) : Prop
    extends IsNumbers ls.flatten ns where
  plain : ∀ l ∈ ls, startsWith 'p' l = false
  closed : ns = [] ∨ ns.getLast? = some 0

/-- A header may come first, and must count what follows it. -/
inductive Grammar : List (List (List Char)) → Option Header → List Int → Prop
  | bare {ls : List (List (List Char))} {ns : List Int} (body : IsBody ls ns) : Grammar ls none ns
  | headed {l : List (List Char)} {ls : List (List (List Char))} {h : Header} {ns : List Int}
      (header : IsHeader l h) (body : IsBody ls ns) (within : ∀ n ∈ ns, n.natAbs ≤ h.varCount)
      (zeros : ns.count 0 = h.clauseCount) : Grammar (l :: ls) (some h) ns

def largest (ns : List Int) : Nat := (ns.map Int.natAbs).foldr max 0

theorem largest_le_iff {ns : List Int} {k : Nat} : largest ns ≤ k ↔ ∀ n ∈ ns, n.natAbs ≤ k := by
  induction ns with
  | nil => simp [largest]
  | cons n ns ih =>
    rw [List.forall_mem_cons, ← ih, ← Nat.max_le]
    rfl

theorem largest_append (ms ns : List Int) :
    largest (ms ++ ns) = max (largest ms) (largest ns) := by
  apply eq_of_forall_ge_iff
  intro k
  rw [Nat.max_le, largest_le_iff, largest_le_iff, largest_le_iff, List.forall_mem_append]

theorem largest_number (c : Clause) : largest (c.map Lit.number) = c.maxVar := by
  apply eq_of_forall_ge_iff
  intro k
  rw [largest_le_iff, Clause.maxVar_le_iff, List.forall_mem_map]
  rfl

theorem isNumbers_append {ts us : List (List Char)} {ns : List Int} :
    IsNumbers (ts ++ us) ns ↔ ∃ ms ks, ns = ms ++ ks ∧ IsNumbers ts ms ∧ IsNumbers us ks := by
  constructor
  · intro ⟨numbers, small⟩
    have cut := List.forall₂_take_append ns ts us numbers.flip
    have rest := List.forall₂_drop_append ns ts us numbers.flip
    refine ⟨ns.take ts.length, ns.drop ts.length, (List.take_append_drop _ _).symm, ⟨cut.flip, ?_⟩,
      ⟨rest.flip, ?_⟩⟩
    · exact fun n hn => small n (List.mem_of_mem_take hn)
    · exact fun n hn => small n (List.mem_of_mem_drop hn)
  · rintro ⟨ms, ks, rfl, first, second⟩
    refine ⟨List.rel_append first.numbers second.numbers, fun n hn => ?_⟩
    exact (List.mem_append.mp hn).elim (first.small n) (second.small n)

namespace Reader

def takeAll (r : Reader) (ns : List Int) : Reader :=
  ns.foldl (fun r n => r.take (Lit.ofNumber? n)) r

theorem literalOf_number {line : Nat} {t : List Char} {n : Int} (number : IsInteger t n)
    (small : n.natAbs ≤ maxVar) : literalOf line t = .ok (Lit.ofNumber? n) := by
  have width : InWidth 64 n := by
    have wide : (maxVar : Int) < (Nat.pow 2 (64 - 1) : Nat) := by decide
    unfold InWidth
    omega
  simp only [literalOf, signedOfWidth?_eq_some_iff.mpr ⟨number, width⟩]
  split
  next zero => rw [Lit.ofNumber?_eq_none.mpr (.inl zero)]
  next nonzero =>
    cases known : Lit.ofNumber? n with
    | none => exact absurd (Lit.ofNumber?_eq_none.mp known) (by omega)
    | some l => rfl

theorem number_of_literalOf {line : Nat} {t : List Char} {x : Option Lit}
    (read : literalOf line t = .ok x) :
    ∃ n : Int, IsInteger t n ∧ n.natAbs ≤ maxVar ∧ x = Lit.ofNumber? n := by
  unfold literalOf at read
  split at read
  next => simp at read
  next n width =>
    have number := (signedOfWidth?_eq_some_iff.mp width).1
    split at read
    next zero =>
      refine ⟨n, number, by omega, ?_⟩
      rw [← Except.ok.inj read, Lit.ofNumber?_eq_none.mpr (.inl zero)]
    next nonzero =>
      split at read
      next => simp at read
      next l known =>
        refine ⟨n, number, ?_, by rw [← Except.ok.inj read, known]⟩
        have number := Clause.number_of_ofNumber? known
        exact number ▸ l.le_max

theorem tokens_after {ts : List (List Char)} {ns : List Int} (numbers : IsNumbers ts ns)
    (r : Reader) (us : List (List Char)) : r.tokens (ts ++ us) = (r.takeAll ns).tokens us := by
  obtain ⟨numbers, small⟩ := numbers
  induction numbers generalizing r with
  | nil => rfl
  | cons number rest ih =>
    obtain ⟨first, others⟩ := List.forall_mem_cons.mp small
    rw [List.cons_append, tokens, literalOf_number number first]
    exact ih _ others

theorem tokens_numbers {ts : List (List Char)} {ns : List Int} (numbers : IsNumbers ts ns)
    (r : Reader) : r.tokens ts = (.ok (), r.takeAll ns) := by
  have whole := tokens_after numbers r []
  rwa [List.append_nil] at whole

theorem numbers_of_tokens {r s : Reader} {ts : List (List Char)}
    (read : r.tokens ts = (.ok (), s)) : ∃ ns, IsNumbers ts ns := by
  induction ts generalizing r with
  | nil => exact ⟨[], .nil, by simp⟩
  | cons t ts ih =>
    rw [Reader.tokens] at read
    split at read
    next x known =>
      obtain ⟨n, number, small, _⟩ := number_of_literalOf known
      obtain ⟨ns, numbers⟩ := ih read
      exact ⟨n :: ns, .cons number numbers.numbers, List.forall_mem_cons.mpr ⟨small, numbers.small⟩⟩
    next => simp at read

def Begun (r : Reader) : Prop :=
  (r.header.isSome || r.formula.size != 0 || !r.pending.isEmpty) = true

theorem begun_take (r : Reader) (x : Option Lit) : (r.take x).Begun := by
  cases x <;> simp [Begun, take]

theorem begun_takeAll {r : Reader} (begun : r.Begun) (ns : List Int) : (r.takeAll ns).Begun := by
  induction ns generalizing r with
  | nil => exact begun
  | cons n ns ih => exact ih (begun_take r _)

theorem begun_of_numbers {r : Reader} {ts : List (List Char)} {ns : List Int}
    (numbers : IsNumbers ts ns) (some : ts ≠ []) : (r.takeAll ns).Begun := by
  cases ns with
  | nil => exact absurd (List.forall₂_nil_right_iff.mp numbers.numbers) some
  | cons n ns => exact begun_takeAll (begun_take r _) ns

theorem takeAll_append (r : Reader) (ms ns : List Int) :
    r.takeAll (ms ++ ns) = (r.takeAll ms).takeAll ns := List.foldl_append

theorem takeAll_cons (r : Reader) (n : Int) (ns : List Int) :
    r.takeAll (n :: ns) = (r.take (Lit.ofNumber? n)).takeAll ns := rfl

theorem done_takeAll (r : Reader) (ns : List Int) : (r.takeAll ns).done = r.done := by
  induction ns generalizing r with
  | nil => rfl
  | cons n ns ih =>
    rw [takeAll_cons, ih]
    cases Lit.ofNumber? n <;> rfl

theorem takeAll_line (r : Reader) (line : Nat) (ns : List Int) :
    takeAll { r with line := line } ns = { r.takeAll ns with line := line } := by
  induction ns generalizing r with
  | nil => rfl
  | cons n ns ih =>
    rw [takeAll_cons, takeAll_cons, ← ih]
    cases Lit.ofNumber? n <;> rfl

variable {r : Reader} {cs : List Char}

theorem feed_mark (running : r.done = false) (marked : (words cs).head? = some ['%']) :
    r.feed cs = (.ok (), { r with line := r.line + 1, done := true }) := by
  obtain ⟨ts, read⟩ := List.head?_eq_some_iff.mp marked
  simp [feed, running, read]

theorem feed_skipped (running : r.done = false) (skipped : counts (words cs) = false) :
    r.feed cs = (.ok (), { r with line := r.line + 1 }) := by
  simp only [feed, running, Bool.false_eq_true, if_false]
  generalize words cs = l at skipped
  rcases l with _ | ⟨_ | ⟨c, w⟩, ts⟩
  · rfl
  · simp [counts, startsWith] at skipped
  · obtain rfl : c = 'c' := by simpa [counts, startsWith] using skipped
    rfl

theorem feed_header_line (running : r.done = false) (header : startsWith 'p' (words cs) = true) :
    r.feed cs = match headerLine { r with line := r.line + 1 } cs with
      | .ok t => (.ok (), t)
      | .error e => (.error e, { r with line := r.line + 1 }) := by
  simp only [feed, running, Bool.false_eq_true, if_false]
  generalize words cs = l at header
  rcases l with _ | ⟨_ | ⟨c, w⟩, ts⟩
  · simp [startsWith] at header
  · simp [startsWith] at header
  · obtain rfl : c = 'p' := by simpa [startsWith] using header
    rfl

theorem feed_numbers (running : r.done = false) (unmarked : (words cs).head? ≠ some ['%'])
    (counted : counts (words cs) = true) (plain : startsWith 'p' (words cs) = false) :
    r.feed cs = tokens { r with line := r.line + 1 } (words cs) := by
  simp only [feed, running, Bool.false_eq_true, if_false]
  generalize words cs = l at *
  rcases l with _ | ⟨_ | ⟨c, w⟩, ts⟩
  · simp [counts] at counted
  · rfl
  · have noComment : c ≠ 'c' := by simpa [counts, startsWith] using counted
    have noHeader : c ≠ 'p' := by simpa [startsWith] using plain
    have noMark : ¬(c = '%' ∧ w = []) := by simpa using unmarked
    split <;> simp_all

theorem headerOfWords?_eq_some_iff {ts : List (List Char)} {h : Header}
    (small : h.varCount ≤ maxVar) : headerOfWords? ts = some h ↔ IsHeader ts h := by
  have number {cs : List Char} {n : Nat} :
      unsignedOfWidth? 64 cs = some n ↔ IsNatural cs n ∧ n < UInt64.size := by
    rw [unsignedOfWidth?, Option.filter_eq_some_iff, unsigned?_eq_some_iff, decide_eq_true_eq]
  constructor
  · intro read
    unfold headerOfWords? at read
    split at read
    next p cnf vars clauses =>
      split at read
      next names =>
        obtain ⟨rfl, rfl⟩ := names
        obtain ⟨v, varCount, rest⟩ := Option.bind_eq_some_iff.mp read
        obtain ⟨c, clauseCount, same⟩ := Option.bind_eq_some_iff.mp rest
        obtain rfl := Option.some.inj same
        exact ⟨(number.mp varCount).1, (number.mp clauseCount).1, small, (number.mp clauseCount).2⟩
      next => simp at read
    next => simp at read
  · rintro ⟨varCount, clauseCount, small, counted⟩
    have wide : h.varCount < UInt64.size := Nat.lt_of_le_of_lt small (by decide)
    rw [headerOfWords?, if_pos ⟨rfl, rfl⟩, number.mpr ⟨varCount, wide⟩,
      number.mpr ⟨clauseCount, counted⟩]
    rfl

def headed (r : Reader) (h : Header) : Reader :=
  { r with formula := r.formula.reserve h.varCount, header := some h }

theorem headerLine_eq_ok_iff (fresh : ¬r.Begun) {t : Reader} :
    r.headerLine cs = .ok t ↔ ∃ h, IsHeader (words cs) h ∧ t = r.headed h := by
  unfold Begun at fresh
  rw [headerLine, if_neg fresh]
  constructor
  · intro accepted
    split at accepted
    next => simp at accepted
    next h known =>
      split at accepted
      next small =>
        exact ⟨h, (headerOfWords?_eq_some_iff small).mp known, (Except.ok.inj accepted).symm⟩
      next => simp at accepted
  · rintro ⟨h, header, rfl⟩
    have small := header.small
    rw [(headerOfWords?_eq_some_iff small).mpr header]
    simp only [small, if_true, headed]

def Completes (r : Reader) (ls : List (List (List Char))) (x : Option Header × Formula) : Prop :=
  (∀ l ∈ ls, startsWith 'p' l = false) ∧
    ∃ ns, IsNumbers ls.flatten ns ∧ (r.takeAll ns).finish = .ok x

theorem finish_eq_ok_iff {header : Option Header} {f : Formula} : r.finish = .ok (header, f) ↔
    r.pending = #[] ∧ r.header = header ∧ r.formula = f ∧
      ∀ h, header = some h → f.varCount = h.varCount ∧ f.size = h.clauseCount := by
  unfold finish
  by_cases ended : r.pending = #[]
  · simp only [ended, Array.isEmpty_empty, Bool.not_true, Bool.false_eq_true, if_false, true_and]
    cases known : r.header with
    | none => grind
    | some h => grind
  · simp [ended]

theorem finish_line {line : Nat} {x : Option Header × Formula} :
    finish { r with line := line } = .ok x ↔ r.finish = .ok x := by
  rw [finish_eq_ok_iff, finish_eq_ok_iff]

variable {x : Option Header × Formula} {l : List (List Char)} {ls : List (List (List Char))}

theorem completes_nil : r.Completes [] x ↔ r.finish = .ok x := by
  constructor
  · rintro ⟨_, ns, numbers, finished⟩
    obtain rfl := List.forall₂_nil_left_iff.mp numbers.numbers
    exact finished
  · exact fun finished => ⟨by simp, [], ⟨.nil, by simp⟩, finished⟩

theorem completes_cons (plain : startsWith 'p' l = false) :
    r.Completes (l :: ls) x ↔ ∃ ms, IsNumbers l ms ∧ (r.takeAll ms).Completes ls x := by
  simp only [Completes, List.forall_mem_cons, plain, true_and, List.flatten_cons, isNumbers_append]
  constructor
  · rintro ⟨rest, _, ⟨ms, ks, rfl, first, second⟩, finished⟩
    exact ⟨ms, first, rest, ks, second, takeAll_append r ms ks ▸ finished⟩
  · rintro ⟨ms, first, rest, ks, second, finished⟩
    exact ⟨rest, _, ⟨ms, ks, rfl, first, second⟩, takeAll_append r ms ks ▸ finished⟩

theorem completes_line {line : Nat} :
    Completes { r with line := line } ls x ↔ r.Completes ls x := by
  simp only [Completes, takeAll_line, finish_line]

end Reader

inductive Fed : List Bytes → List (List (List Char)) → Prop
  | nil : Fed [] []
  | mark {cs : List Char} {ls : List Bytes} (marked : (words cs).head? = some ['%']) :
      Fed (Bytes.ofChars cs :: ls) []
  | line {cs : List Char} {ls : List Bytes} {tss : List (List (List Char))}
      (unmarked : (words cs).head? ≠ some ['%']) (rest : Fed ls tss) :
      Fed (Bytes.ofChars cs :: ls) (words cs :: tss)

theorem lines_last {l : List UInt8} (whole : 10 ∉ l) :
    lines l = if l.isEmpty then [] else [l] := by
  have all := linesFrom_whole whole [] []
  simp only [List.append_nil] at all
  rw [lines, all, linesFrom]
  cases l <;> simp

theorem splitOn_cases (bs : Bytes) : (10 ∉ bs ∧ bs.splitOn 10 = [bs]) ∨
    ∃ l rest, 10 ∉ l ∧ bs = l ++ 10 :: rest ∧ bs.splitOn 10 = l :: rest.splitOn 10 := by
  by_cases feed : 10 ∈ bs
  · obtain ⟨l, rest, rfl, whole⟩ := List.eq_append_cons_of_mem feed
    exact .inr ⟨l, rest, whole, rfl, List.splitOn_append_cons_self_of_not_mem whole rest⟩
  · exact .inl ⟨feed, List.splitOn_eq_singleton feed⟩

theorem ofChars_eq_nil {cs : List Char} (empty : Bytes.ofChars cs = []) : cs = [] := by
  have decoded := decode?_ofChars cs
  rw [empty] at decoded
  exact Option.some.inj (decoded.symm.trans (decode?_ofChars []))

-- The reader is fed with the line feed as well, if there is one, but that changes no token.
theorem fed_lines {bs : Bytes} {ts : List (List Char)} (texts : Texts (bs.splitOn 10) ts) :
    ∃ tss, Fed (lines bs) tss ∧ tss.filter counts = content ts := by
  generalize cut : bs.splitOn 10 = ps at texts
  induction texts generalizing bs with
  | nil => exact absurd cut (List.splitOn_ne_nil 10 bs)
  | @mark cs ls marked =>
    refine ⟨[], ?_, rfl⟩
    rcases splitOn_cases bs with ⟨whole, single⟩ | ⟨l, rest, whole, rfl, split⟩
    · obtain ⟨rfl, -⟩ := List.cons.inj (single.symm.trans cut)
      have some : Bytes.ofChars cs ≠ [] := by
        intro empty
        simp [ofChars_eq_nil empty, tokens] at marked
      rw [lines_last whole, if_neg (by simpa using some)]
      exact .mark (by rw [words_eq_tokens, marked])
    · obtain ⟨rfl, -⟩ := List.cons.inj (split.symm.trans cut)
      rw [lines_whole whole, ← ofChars_newline]
      exact .mark (by rw [words_eq_tokens, tokens_newline, marked])
  | @line cs ls ts unmarked texts ih =>
    rcases splitOn_cases bs with ⟨whole, single⟩ | ⟨l, rest, whole, rfl, split⟩
    · obtain ⟨rfl, rfl⟩ := List.cons.inj (single.symm.trans cut)
      cases texts
      rw [lines_last whole]
      split
      next empty =>
        obtain rfl := ofChars_eq_nil (by simpa using empty)
        exact ⟨[], .nil, by simp [content, tokens, counts]⟩
      next =>
        refine ⟨[words cs], .line (by rw [words_eq_tokens]; exact unmarked) .nil, ?_⟩
        rw [words_eq_tokens]
        rfl
    · obtain ⟨rfl, rfl⟩ := List.cons.inj (split.symm.trans cut)
      obtain ⟨tss, fed, same⟩ := ih rfl
      refine ⟨tokens cs :: tss, ?_, by simp [content, List.filter_cons, same]⟩
      rw [lines_whole whole, ← ofChars_newline, ← tokens_newline, ← words_eq_tokens]
      exact .line (by rw [words_eq_tokens, tokens_newline]; exact unmarked) fed

open Reader

variable {r : Reader} {lns : List Bytes} {tss : List (List (List Char))}
  {x : Option Header × Formula}

theorem readLines_mark {cs : List Char} (running : r.done = false)
    (marked : (words cs).head? = some ['%']) :
    readLines r (Bytes.ofChars cs :: lns) = .ok x ↔ r.finish = .ok x := by
  obtain ⟨header, f⟩ := x
  have stopped (t : Reader) (done : t.done = true) : readLines t lns = t.finish := by
    cases lns <;> simp [readLines, done]
  rw [readLines_feed running (feed_mark running marked), stopped _ rfl, finish_eq_ok_iff,
    finish_eq_ok_iff]

theorem readLines_numbers {cs : List Char} (running : r.done = false)
    (unmarked : (words cs).head? ≠ some ['%']) (counted : counts (words cs) = true)
    (plain : startsWith 'p' (words cs) = false) :
    readLines r (Bytes.ofChars cs :: lns) = .ok x ↔ ∃ ms, IsNumbers (words cs) ms ∧
      readLines { r.takeAll ms with line := r.line + 1 } lns = .ok x := by
  have fed := feed_numbers running unmarked counted plain
  constructor
  · intro accepted
    rcases taken : Reader.tokens { r with line := r.line + 1 } (words cs) with ⟨e | u, t⟩
    · rw [readLines_error running (by rw [fed, taken])] at accepted
      simp at accepted
    · obtain ⟨ms, numbers⟩ := numbers_of_tokens taken
      rw [readLines_feed running (fed.trans (tokens_numbers numbers _)), takeAll_line] at accepted
      exact ⟨ms, numbers, accepted⟩
  · rintro ⟨ms, numbers, accepted⟩
    rwa [readLines_feed running (fed.trans (tokens_numbers numbers _)), takeAll_line]

theorem readLines_header {cs : List Char} (running : r.done = false) (fresh : ¬r.Begun)
    (header : startsWith 'p' (words cs) = true) :
    readLines r (Bytes.ofChars cs :: lns) = .ok x ↔ ∃ h, IsHeader (words cs) h ∧
      readLines { r.headed h with line := r.line + 1 } lns = .ok x := by
  have fed := feed_header_line running header
  have still : ¬Reader.Begun { r with line := r.line + 1 } := fresh
  have accepts {t : Reader} : Reader.headerLine { r with line := r.line + 1 } cs = .ok t ↔
      ∃ h, IsHeader (words cs) h ∧ t = Reader.headed { r with line := r.line + 1 } h :=
    headerLine_eq_ok_iff still
  constructor
  · intro accepted
    rcases taken : Reader.headerLine { r with line := r.line + 1 } cs with e | t
    · rw [readLines_error running (by rw [fed, taken])] at accepted
      simp at accepted
    · obtain ⟨h, known, rfl⟩ := accepts.mp taken
      rw [readLines_feed running (by rw [fed, taken])] at accepted
      exact ⟨h, known, accepted⟩
  · rintro ⟨h, known, accepted⟩
    rwa [readLines_feed running (by rw [fed, accepts.mpr ⟨h, known, rfl⟩])]

theorem readLines_begun (fed : Fed lns tss) (running : r.done = false) (begun : r.Begun) :
    readLines r lns = .ok x ↔ r.Completes (tss.filter counts) x := by
  induction fed generalizing r with
  | nil => exact completes_nil.symm
  | mark marked => rw [readLines_mark running marked, List.filter_nil, completes_nil]
  | @line cs ls tss unmarked fed ih =>
    cases counted : counts (words cs) with
    | false =>
      have later := ih (r := { r with line := r.line + 1 }) running begun
      rw [readLines_feed running (feed_skipped running counted), later, completes_line,
        List.filter_cons_of_neg (by simp [counted])]
    | true =>
      rw [List.filter_cons_of_pos counted]
      cases header : startsWith 'p' (words cs) with
      | true =>
        have refused : Reader.headerLine { r with line := r.line + 1 } cs =
            .error (.misplacedHeader (r.line + 1)) := if_pos begun
        rw [readLines_error (e := .misplacedHeader (r.line + 1)) running
          (by rw [feed_header_line running header, refused])]
        simp [Completes, header]
      | false =>
        rw [readLines_numbers running unmarked counted header, completes_cons header]
        refine exists_congr fun ms => and_congr_right fun _ => ?_
        have later := ih (r := { r.takeAll ms with line := r.line + 1 })
          ((done_takeAll r ms).trans running) (begun_takeAll begun ms)
        rw [later, completes_line]

theorem readLines_fresh (fed : Fed lns tss) (running : r.done = false) (fresh : ¬r.Begun) :
    readLines r lns = .ok x ↔ r.Completes (tss.filter counts) x ∨
      ∃ l ls h, tss.filter counts = l :: ls ∧ IsHeader l h ∧ (r.headed h).Completes ls x := by
  induction fed generalizing r with
  | nil => simp [readLines, completes_nil]
  | mark marked => simp [readLines_mark running marked, completes_nil]
  | @line cs ls tss unmarked fed ih =>
    cases counted : counts (words cs) with
    | false =>
      have later := ih (r := { r with line := r.line + 1 }) running fresh
      have same (h : Header) : Reader.headed { r with line := r.line + 1 } h =
        { r.headed h with line := r.line + 1 } := rfl
      simp only [readLines_feed running (feed_skipped running counted), later, completes_line, same,
        List.filter_cons_of_neg (show ¬counts (words cs) = true by simp [counted])]
    | true =>
      rw [List.filter_cons_of_pos counted]
      cases header : startsWith 'p' (words cs) with
      | true =>
        have begun (h : Header) : Begun { r.headed h with line := r.line + 1 } := by
          simp [Begun, headed]
        simp only [readLines_header running fresh header,
          readLines_begun fed (r := { r.headed _ with line := r.line + 1 }) running (begun _),
          completes_line]
        constructor
        · rintro ⟨h, known, completes⟩
          exact .inr ⟨_, _, h, rfl, known, completes⟩
        · rintro (⟨plain, _⟩ | ⟨_, _, h, same, known, completes⟩)
          · have first := plain _ List.mem_cons_self
            simp [header] at first
          · obtain ⟨rfl, rfl⟩ := List.cons.inj same
            exact ⟨h, known, completes⟩
      | false =>
        have noHeader : ¬∃ l ls h, words cs :: tss.filter counts = l :: ls ∧ IsHeader l h ∧
            (r.headed h).Completes ls x := by
          rintro ⟨_, _, h, same, known, _⟩
          obtain ⟨rfl, -⟩ := List.cons.inj same
          simp [known.startsWith] at header
        rw [readLines_numbers running unmarked counted header, completes_cons header,
          or_iff_left noHeader]
        refine exists_congr fun ms => and_congr_right fun numbers => ?_
        have some : words cs ≠ [] := by
          intro empty
          simp [empty, counts] at counted
        have later := readLines_begun fed (r := { r.takeAll ms with line := r.line + 1 }) (x := x)
          ((done_takeAll r ms).trans running) (begun_of_numbers numbers some)
        rw [later, completes_line]

namespace Reader

theorem header_takeAll (r : Reader) (ns : List Int) : (r.takeAll ns).header = r.header := by
  induction ns generalizing r with
  | nil => rfl
  | cons n ns ih =>
    rw [takeAll_cons, ih]
    cases Lit.ofNumber? n <;> rfl

def clauseNumbers (r : Reader) : List (List Int) :=
  r.formula.clauses.map (·.map Lit.number) ++ [r.pending.toList.map Lit.number]

theorem zero_not_mem (c : Clause) : 0 ∉ c.map Lit.number := by
  intro mem
  obtain ⟨l, _, zero⟩ := List.mem_map.mp mem
  exact l.ne_zero zero

theorem clauseNumbers_takeAll (r : Reader) {ns : List Int} (small : ∀ n ∈ ns, n.natAbs ≤ maxVar) :
    (r.takeAll ns).clauseNumbers = r.formula.clauses.map (·.map Lit.number) ++
      (r.pending.toList.map Lit.number ++ ns).splitOn 0 := by
  induction ns generalizing r with
  | nil =>
    rw [List.append_nil, List.splitOn_eq_singleton (zero_not_mem _)]
    rfl
  | cons n ns ih =>
    obtain ⟨first, others⟩ := List.forall_mem_cons.mp small
    rw [takeAll_cons, ih _ others]
    rcases Lit.ofNumber?_cases first with ⟨rfl, known⟩ | ⟨l, rfl, known⟩
    · rw [List.splitOn_append_cons_self_of_not_mem (zero_not_mem _), known]
      simp [take]
    · simp [take, known]

theorem pending_takeAll (r : Reader) {ns : List Int} (small : ∀ n ∈ ns, n.natAbs ≤ maxVar) :
    (r.takeAll ns).pending = #[] ↔ ns = [] ∧ r.pending = #[] ∨ ns.getLast? = some 0 := by
  rcases List.eq_nil_or_concat ns with rfl | ⟨init, n, rfl⟩
  · simp [takeAll]
  · have last : r.takeAll (init.concat n) = (r.takeAll init).take (Lit.ofNumber? n) := by
      rw [List.concat_eq_append, takeAll_append]
      rfl
    rw [last]
    rcases Lit.ofNumber?_cases (small n (by simp)) with ⟨rfl, known⟩ | ⟨l, rfl, known⟩
    · simp [take, known]
    · simp [take, known, l.ne_zero]

theorem size_takeAll (r : Reader) {ns : List Int} (small : ∀ n ∈ ns, n.natAbs ≤ maxVar) :
    (r.takeAll ns).formula.size = r.formula.size + ns.count 0 := by
  induction ns generalizing r with
  | nil => rfl
  | cons n ns ih =>
    obtain ⟨first, others⟩ := List.forall_mem_cons.mp small
    rw [takeAll_cons, ih _ others]
    rcases Lit.ofNumber?_cases first with ⟨rfl, known⟩ | ⟨l, rfl, known⟩
    · simp only [known, take, Formula.size_add, List.count_cons_self]
      omega
    · simp [take, known, l.ne_zero]

-- The open clause counts too, although its variables do not belong to the formula yet.
theorem varCount_takeAll (r : Reader) {ns : List Int} (small : ∀ n ∈ ns, n.natAbs ≤ maxVar) :
    max (r.takeAll ns).formula.varCount (Clause.maxVar (r.takeAll ns).pending.toList) =
      max (max r.formula.varCount (Clause.maxVar r.pending.toList)) (largest ns) := by
  induction ns generalizing r with
  | nil => simp [takeAll, largest]
  | cons n ns ih =>
    obtain ⟨first, others⟩ := List.forall_mem_cons.mp small
    have grown : largest (n :: ns) = max n.natAbs (largest ns) := rfl
    rw [takeAll_cons, ih _ others, grown, ← Nat.max_assoc]
    rcases Lit.ofNumber?_cases first with ⟨rfl, known⟩ | ⟨l, rfl, known⟩
    · simp [known, take, Formula.varCount_add, Clause.maxVar]
    · have longer : Clause.maxVar (r.pending.push l).toList =
          max (Clause.maxVar r.pending.toList) l.number.natAbs := by
        simp [Clause.maxVar, Lit.var]
      simp only [known, take, longer, Nat.max_assoc]

structure Idle (r : Reader) : Prop where
  pending : r.pending = #[]
  formula : r.formula.size = 0

variable {r : Reader} {ls : List (List (List Char))} {ns : List Int} {header : Option Header}
  {f : Formula}

theorem formula_takeAll (idle : r.Idle) (body : IsBody ls ns) :
    (r.takeAll ns).formula.clauses.map (·.map Lit.number) = (ns.splitOn 0).dropLast ∧
      (r.takeAll ns).formula.varCount = max r.formula.varCount (largest ns) ∧
      (r.takeAll ns).formula.size = ns.count 0 := by
  have ended : (r.takeAll ns).pending = #[] :=
    (pending_takeAll r body.small).mpr (body.closed.imp_left fun empty => ⟨empty, idle.pending⟩)
  have clauses := clauseNumbers_takeAll r body.small
  have varCount := varCount_takeAll r body.small
  have size := size_takeAll r body.small
  have noClauses : r.formula.clauses = [] := by
    rw [← List.length_eq_zero_iff, Storage.length_clauses, idle.formula]
  simp only [clauseNumbers, ended, noClauses, idle.pending, List.map_nil,
    List.nil_append] at clauses
  simp only [ended, idle.pending] at varCount
  refine ⟨?_, by simpa [Clause.maxVar] using varCount, by rw [size, idle.formula, Nat.zero_add]⟩
  rw [← clauses, List.dropLast_concat]

theorem completes_iff (idle : r.Idle) : r.Completes ls (header, f) ↔ r.header = header ∧
    ∃ ns, IsBody ls ns ∧ (r.takeAll ns).formula = f ∧
      ∀ h, header = some h → f.varCount = h.varCount ∧ f.size = h.clauseCount := by
  constructor
  · rintro ⟨plain, ns, numbers, finished⟩
    obtain ⟨ended, same, formula, counts⟩ := finish_eq_ok_iff.mp finished
    have closed := ((pending_takeAll r numbers.small).mp ended).imp_left And.left
    exact ⟨header_takeAll r ns ▸ same, ns, ⟨numbers, plain, closed⟩, formula, counts⟩
  · rintro ⟨same, ns, body, formula, counts⟩
    have ended := (pending_takeAll r body.small).mpr
      (body.closed.imp_left fun empty => ⟨empty, idle.pending⟩)
    refine ⟨body.plain, ns, body.toIsNumbers, finish_eq_ok_iff.mpr ⟨ended, ?_, formula, counts⟩⟩
    rw [header_takeAll, same]

def startWith : Option Header → Reader
  | none => start
  | some h => start.headed h

theorem idle_startWith (header : Option Header) : (startWith header).Idle := by
  cases header <;> exact ⟨rfl, rfl⟩

theorem counts_match_iff {h : Header} (body : IsBody ls ns)
    (formula : ((start.headed h).takeAll ns).formula = f) :
    f.varCount = h.varCount ∧ f.size = h.clauseCount ↔
      (∀ n ∈ ns, n.natAbs ≤ h.varCount) ∧ ns.count 0 = h.clauseCount := by
  obtain ⟨_, varCount, size⟩ := formula_takeAll (idle_startWith (some h)) body
  have declared : (start.headed h).formula.varCount = h.varCount := Nat.zero_max _
  rw [startWith, formula] at varCount size
  have most : max h.varCount (largest ns) = h.varCount ↔ largest ns ≤ h.varCount := by omega
  rw [varCount, size, declared, most, largest_le_iff]

end Reader

theorem read_eq_ok_iff {bs : Bytes} {ts : List (List Char)} (texts : Texts (bs.splitOn 10) ts)
    {header : Option Header} {f : Formula} : read bs = .ok (header, f) ↔
      ∃ ns, Grammar (content ts) header ns ∧ ((startWith header).takeAll ns).formula = f := by
  obtain ⟨tss, fed, same⟩ := fed_lines texts
  have idle : start.Idle := idle_startWith none
  have idleHeaded (h : Header) : (start.headed h).Idle := idle_startWith (some h)
  rw [read, readLines_fresh fed rfl (by simp [Begun, start]), same, completes_iff idle]
  simp only [completes_iff (idleHeaded _)]
  generalize content ts = ls
  constructor
  · rintro (⟨rfl, ns, body, formula, _⟩ | ⟨l, ls, h, rfl, known, rfl, ns, body, formula, counts⟩)
    · exact ⟨ns, .bare body, formula⟩
    · obtain ⟨within, zeros⟩ := (counts_match_iff body formula).mp (counts h rfl)
      exact ⟨ns, .headed known body within zeros, formula⟩
  · rintro ⟨ns, grammar, formula⟩
    cases grammar with
    | bare body => exact .inl ⟨rfl, ns, body, formula, by simp⟩
    | @headed l ls h _ known body within zeros =>
      refine .inr ⟨l, ls, h, rfl, known, rfl, ns, body, formula, ?_⟩
      rintro _ ⟨⟩
      exact (counts_match_iff body formula).mpr ⟨within, zeros⟩

/-- The texts of the grammar are accepted, and no others. The result has the header, the clauses
that end at the zeros, and the declared number of variables, or the largest variable without a
header. -/
theorem accepts_grammar {bs : Bytes} {ts : List (List Char)} (texts : Texts (bs.splitOn 10) ts) :
    ((∃ result, read bs = .ok result) ↔ ∃ header ns, Grammar (content ts) header ns) ∧
    ∀ header f, read bs = .ok (header, f) → ∃ ns, Grammar (content ts) header ns ∧
      f.clauses.map (·.map Lit.number) = (ns.splitOn 0).dropLast ∧
      f.varCount = match header with
        | some h => h.varCount
        | none => largest ns := by
  constructor
  · constructor
    · rintro ⟨⟨header, f⟩, accepted⟩
      obtain ⟨ns, grammar, _⟩ := (read_eq_ok_iff texts).mp accepted
      exact ⟨header, ns, grammar⟩
    · rintro ⟨header, ns, grammar⟩
      exact ⟨_, (read_eq_ok_iff texts).mpr ⟨ns, grammar, rfl⟩⟩
  · intro header f accepted
    obtain ⟨ns, grammar, rfl⟩ := (read_eq_ok_iff texts).mp accepted
    refine ⟨ns, grammar, ?_⟩
    generalize content ts = ls at grammar
    cases grammar with
    | bare body =>
      obtain ⟨clauses, varCount, _⟩ := formula_takeAll (idle_startWith none) body
      exact ⟨clauses, varCount.trans (Nat.zero_max _)⟩
    | @headed l ls h _ known body within zeros =>
      obtain ⟨clauses, _⟩ := formula_takeAll (idle_startWith (some h)) body
      exact ⟨clauses, ((counts_match_iff body rfl).mpr ⟨within, zeros⟩).1⟩

-- A comment, a header, a clause of two lines, the end mark, and a line that is no text.
theorem marked_text_accepted :
    let bs : Bytes :=
      [99, 10, 112, 32, 99, 110, 102, 32, 49, 32, 49, 10, 45, 49, 10, 48, 10, 37, 10, 255]
    let ts : List (List Char) :=
      [['c'], ['p', ' ', 'c', 'n', 'f', ' ', '1', ' ', '1'], ['-', '1'], ['0']]
    Texts (bs.splitOn 10) ts ∧ Grammar (content ts) (some ⟨1, 1⟩) [-1, 0] ∧
      (∃ result, read bs = .ok result) ∧
      ∀ header f, read bs = .ok (header, f) → ∃ ns, Grammar (content ts) header ns ∧
        f.clauses.map (·.map Lit.number) = (ns.splitOn 0).dropLast := by
  intro bs ts
  have cut : bs.splitOn 10 = ts.map Bytes.ofChars ++ [Bytes.ofChars ['%'], [255]] := by decide
  have texts : Texts (bs.splitOn 10) ts := by
    rw [cut]
    exact .line (by decide) <| .line (by decide) <| .line (by decide) <| .line (by decide) <|
      .mark (by decide)
  have one : IsDigits ['1'] := ⟨by simp, by simp⟩
  have zero : IsDigits ['0'] := ⟨by simp, by simp⟩
  have grammar : Grammar (content ts) (some ⟨1, 1⟩) [-1, 0] :=
    @Grammar.headed [['p'], ['c', 'n', 'f'], ['1'], ['1']] [[['-', '1']], [['0']]] _ _
      ⟨.plain one, .plain one, by decide, by decide⟩
      ⟨⟨.cons (.minus one) (.cons (.natural (.plain zero)) .nil), by decide⟩, by decide, by decide⟩
      (by decide) (by decide)
  obtain ⟨accepted, described⟩ := accepts_grammar texts
  refine ⟨texts, grammar, accepted.mpr ⟨_, _, grammar⟩, fun header f read => ?_⟩
  obtain ⟨ns, grammar, clauses, _⟩ := described header f read
  exact ⟨ns, grammar, clauses⟩

end Dimacs
end SatSession
