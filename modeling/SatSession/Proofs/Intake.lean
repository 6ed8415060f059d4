import SatSession.Proofs.Grammar

set_option autoImplicit false

namespace SatSession.Dimacs

open Text

def ReadError.line? : ReadError → Option Nat
  | noLiteral line _ | outOfRange line _ | malformedHeader line _ | misplacedHeader line
  | unterminatedClause line => some line
  | headerMismatch _ _ _ | notText => none

def Reader.feedAll (r : Reader) : List (List Char) → List (Except ReadError Unit) × Reader
  | [] => ([], r)
  | cs :: ls =>
      let (x, t) := r.feed cs
      let (xs, u) := t.feedAll ls
      (x :: xs, u)

/-- What has been accepted: a header, the numbers of the lines of clauses, and the lines themselves
up to the end mark. -/
structure Intake where
  header : Option Header := none
  numbers : List Int := []
  lines : Nat := 0
  ended : Bool := false

structure IsClausal (l : List (List Char)) : Prop where
  counted : counts l = true
  noMark : l.head? ≠ some ['%']
  noHeader : startsWith 'p' l = false

theorem IsClausal.start {k l : List (List Char)} (clausal : IsClausal (k ++ l))
    (nonempty : k ≠ []) : IsClausal k := by
  obtain ⟨t, ts, rfl⟩ := List.exists_cons_of_ne_nil nonempty
  cases t <;> exact ⟨clausal.counted, clausal.noMark, clausal.noHeader⟩

namespace Intake

def Open (a : Intake) : Prop := a.header = none ∧ a.numbers = []

def next (a : Intake) : Intake := { a with lines := a.lines + 1 }

/-- How a line is taken: the line that is left of it if what is refused is cut away, the answer, and
what has been accepted then. -/
inductive Takes (a : Intake) : List Char → List Char → Except ReadError Unit → Intake → Prop
  | ignored {cs : List Char} (ended : a.ended = true) : Takes a cs cs (.ok ()) a
  | mark {cs : List Char} (running : a.ended = false) (marked : (tokens cs).head? = some ['%']) :
      Takes a cs cs (.ok ()) { a.next with ended := true }
  | skipped {cs : List Char} (running : a.ended = false) (skipped : counts (tokens cs) = false) :
      Takes a cs cs (.ok ()) a.next
  | header {cs : List Char} {h : Header} (running : a.ended = false) (first : a.Open)
      (header : IsHeader (tokens cs) h) : Takes a cs cs (.ok ()) { a.next with header := some h }
  | late {cs : List Char} (running : a.ended = false) (header : startsWith 'p' (tokens cs) = true)
      (late : ¬a.Open) : Takes a cs [] (.error (.misplacedHeader (a.lines + 1))) a.next
  | malformed {cs : List Char} {e : ReadError} (running : a.ended = false) (first : a.Open)
      (header : startsWith 'p' (tokens cs) = true) (malformed : ∀ h, ¬IsHeader (tokens cs) h)
      (refused : e = .malformedHeader (a.lines + 1) (String.ofList (trim cs)) ∨
        ∃ n, maxVar < n ∧ e = .outOfRange (a.lines + 1) (toString n)) :
      Takes a cs [] (.error e) a.next
  | numbers {cs : List Char} {ns : List Int} (running : a.ended = false)
      (clausal : IsClausal (tokens cs)) (numbers : IsNumbers (tokens cs) ns) :
      Takes a cs cs (.ok ()) { a.next with numbers := a.numbers ++ ns }
  | broken {cs kept token : List Char} {good rest : List (List Char)} {ns : List Int}
      {e : ReadError} (running : a.ended = false) (clausal : IsClausal (tokens cs))
      (cut : tokens cs = good ++ token :: rest) (left : tokens kept = good)
      (numbers : IsNumbers good ns) (bad : ∀ n, IsInteger token n → maxVar < n.natAbs)
      (refused : e = .noLiteral (a.lines + 1) (String.ofList token) ∨
        e = .outOfRange (a.lines + 1) (String.ofList token)) :
      Takes a cs kept (.error e) { a.next with numbers := a.numbers ++ ns }

inductive Run : Intake → List (List Char) → List (List Char) → List (Except ReadError Unit) →
    Intake → Prop
  | nil {a : Intake} : Run a [] [] [] a
  | cons {a b c : Intake} {cs kept : List Char} {ls left : List (List Char)}
      {x : Except ReadError Unit} {xs : List (Except ReadError Unit)} (taken : Takes a cs kept x b)
      (rest : Run b ls left xs c) : Run a (cs :: ls) (kept :: left) (x :: xs) c

structure Held (a : Intake) (r : Reader) : Prop where
  header : r.header = a.header
  clauses : r.clauseNumbers = a.numbers.splitOn 0
  varCount : r.formula.varCount =
    max (a.header.elim 0 Header.varCount) (largest (a.numbers.splitOn 0).dropLast.flatten)
  line : r.line = a.lines
  done : r.done = a.ended

structure Complete (a : Intake) : Prop where
  closed : a.numbers = [] ∨ a.numbers.getLast? = some 0
  counted : ∀ h, a.header = some h →
    (∀ n ∈ a.numbers, n.natAbs ≤ h.varCount) ∧ a.numbers.count 0 = h.clauseCount

def reader (a : Intake) : Reader :=
  { (Reader.startWith a.header).takeAll a.numbers with line := a.lines, done := a.ended }

def Small (a : Intake) : Prop := ∀ n ∈ a.numbers, n.natAbs ≤ maxVar

end Intake

theorem isWord_of_isDigits {cs : List Char} (digits : IsDigits cs) : IsWord cs :=
  ⟨digits.nonempty, fun c hc => not_isBlank_of_isDigit (digits.digits c hc)⟩

theorem isWord_cons {c : Char} {cs : List Char} (solid : isBlank c = false) (word : IsWord cs) :
    IsWord (c :: cs) :=
  ⟨List.cons_ne_nil c cs, List.forall_mem_cons.mpr ⟨solid, word.solid⟩⟩

theorem isWord_of_isInteger {t : List Char} {n : Int} (number : IsInteger t n) : IsWord t := by
  rcases number with (digits | digits) | digits
  · exact isWord_of_isDigits digits
  · exact isWord_cons rfl (isWord_of_isDigits digits)
  · exact isWord_cons rfl (isWord_of_isDigits digits)

theorem exists_tokens {ts : List (List Char)} {ns : List Int} (numbers : IsNumbers ts ns) :
    ∃ cs, tokens cs = ts := by
  obtain ⟨numbers, -⟩ := numbers
  induction numbers with
  | nil => exact ⟨[], rfl⟩
  | @cons t n ts ns number rest ih =>
    obtain ⟨cs, written⟩ := ih
    refine ⟨t ++ ' ' :: cs, ?_⟩
    rw [← words_eq_tokens, words_append (isWord_of_isInteger number) rfl, words_eq_tokens, written]

theorem exists_body {ns : List Int} (small : ∀ n ∈ ns, n.natAbs ≤ maxVar)
    (closed : ns = [] ∨ ns.getLast? = some 0) : ∃ ls, IsBody ls ns := by
  refine ⟨ns.map fun n => [(toString n).toList], ⟨⟨?_, small⟩, ?_, closed⟩⟩
  · rw [← List.flatMap_def, ← List.map_eq_flatMap, List.forall₂_map_left_iff, List.forall₂_same]
    exact fun n _ => signed?_eq_some_iff.mp (signed?_toString n)
  · intro l hl
    obtain ⟨n, -, rfl⟩ := List.mem_map.mp hl
    obtain ⟨c, cs, text, first⟩ := head_ofInt n
    rw [text]
    simp only [startsWith, beq_eq_false_iff_ne]
    rintro rfl
    simp [Char.isDigit] at first

namespace Reader

theorem literalOf_error {line : Nat} {t : List Char} {e : ReadError}
    (refused : literalOf line t = .error e) : (∀ n, IsInteger t n → maxVar < n.natAbs) ∧
      (e = .noLiteral line (String.ofList t) ∨ e = .outOfRange line (String.ofList t)) := by
  constructor
  · intro n number
    by_contra small
    rw [literalOf_number number (Nat.not_lt.mp small)] at refused
    simp at refused
  · unfold literalOf at refused
    split at refused
    next => exact .inl (Except.error.inj refused).symm
    next =>
      split at refused
      next => simp at refused
      next =>
        split at refused
        next => exact .inr (Except.error.inj refused).symm
        next => simp at refused

theorem tokens_cases (r : Reader) (ts : List (List Char)) :
    (∃ ns, IsNumbers ts ns) ∨ ∃ good bad rest ns e, ts = good ++ bad :: rest ∧ IsNumbers good ns ∧
      literalOf r.line bad = .error e ∧ r.tokens ts = (.error e, r.takeAll ns) := by
  induction ts generalizing r with
  | nil => exact .inl ⟨[], .nil, by simp⟩
  | cons t ts ih =>
    rw [Reader.tokens]
    rcases read : literalOf r.line t with e | x
    · exact .inr ⟨[], t, ts, [], e, rfl, ⟨.nil, by simp⟩, read, rfl⟩
    · obtain ⟨n, number, small, rfl⟩ := number_of_literalOf read
      have line : (r.take (Lit.ofNumber? n)).line = r.line := by cases Lit.ofNumber? n <;> rfl
      rcases ih (r.take (Lit.ofNumber? n)) with ⟨ns, numbers⟩ | ⟨good, bad, rest, ns, e, found⟩
      · exact .inl ⟨n :: ns, .cons number numbers.numbers,
          List.forall_mem_cons.mpr ⟨small, numbers.small⟩⟩
      · obtain ⟨rfl, numbers, refused, taken⟩ := found
        exact .inr ⟨t :: good, bad, rest, n :: ns, e, rfl, ⟨.cons number numbers.numbers,
          List.forall_mem_cons.mpr ⟨small, numbers.small⟩⟩, line ▸ refused, taken⟩

theorem headerLine_error {r : Reader} {cs : List Char} {e : ReadError} (fresh : ¬r.Begun)
    (refused : r.headerLine cs = .error e) :
    e = .malformedHeader r.line (String.ofList (trim cs)) ∨
      ∃ n, maxVar < n ∧ e = .outOfRange r.line (toString n) := by
  unfold Begun at fresh
  rw [headerLine, if_neg fresh] at refused
  split at refused
  next => exact .inl (Except.error.inj refused).symm
  next h known =>
    split at refused
    next => simp at refused
    next large => exact .inr ⟨_, Nat.not_le.mp large, (Except.error.inj refused).symm⟩

theorem varCount_ended {n : Nat} {r : Reader} (counted : r.formula.varCount =
      max n (largest (r.formula.clauses.map (·.map Lit.number)).flatten)) (ns : List Int) :
    (r.takeAll ns).formula.varCount =
      max n (largest ((r.takeAll ns).formula.clauses.map (·.map Lit.number)).flatten) := by
  induction ns generalizing r with
  | nil => exact counted
  | cons k ns ih =>
    rw [takeAll_cons]
    apply ih
    cases Lit.ofNumber? k with
    | some l => exact counted
    | none =>
      have grown : (r.take none).formula.varCount =
        max r.formula.varCount (Clause.maxVar r.pending.toList) := Formula.varCount_add _ _
      rw [grown, counted]
      simp only [take, Formula.clauses_add, List.map_append, List.flatten_append, List.map_cons,
        List.map_nil, List.flatten_cons, List.flatten_nil, List.append_nil, largest_append,
        largest_number, Nat.max_assoc]

end Reader

namespace Intake

variable {a b c : Intake} {cs kept : List Char} {x : Except ReadError Unit}

theorem reader_takeAll (a : Intake) (ns : List Int) :
    a.reader.takeAll ns = ({ a with numbers := a.numbers ++ ns } : Intake).reader := by
  induction ns generalizing a with
  | nil => simp [reader, Reader.takeAll]
  | cons n ns ih =>
    have taken : a.reader.take (Lit.ofNumber? n) =
        ({ a with numbers := a.numbers ++ [n] } : Intake).reader := by
      simp only [reader, Reader.takeAll_append]
      cases known : Lit.ofNumber? n <;> simp [Reader.takeAll, Reader.take, known]
    rw [Reader.takeAll_cons, taken, ih]
    simp

theorem begun_reader : a.reader.Begun ↔ ¬a.Open := by
  constructor
  · rintro begun ⟨noHeader, noNumbers⟩
    simp [reader, noHeader, noNumbers, Reader.startWith, Reader.takeAll, Reader.Begun,
      Reader.start] at begun
  · intro late
    rcases known : a.header with _ | h
    · obtain ⟨n, ns, taken⟩ := List.exists_cons_of_ne_nil fun none => late ⟨known, none⟩
      have begun := Reader.begun_takeAll
        (Reader.begun_take (Reader.startWith a.header) (Lit.ofNumber? n)) ns
      rwa [← Reader.takeAll_cons, ← taken] at begun
    · have header : a.reader.header = some h := by
        rw [reader, Reader.header_takeAll, known]
        rfl
      simp [Reader.Begun, header]

theorem reader_headed {h : Header} (first : a.Open) :
    a.reader.headed h = ({ a with header := some h } : Intake).reader := by
  obtain ⟨noHeader, noNumbers⟩ := first
  simp only [reader, noHeader, noNumbers]
  rfl

theorem feed_clausal (running : a.ended = false) (clausal : IsClausal (tokens cs)) :
    a.reader.feed cs = a.next.reader.tokens (tokens cs) := by
  rw [← words_eq_tokens] at clausal ⊢
  exact Reader.feed_numbers running clausal.noMark clausal.counted clausal.noHeader

theorem feed_header (running : a.ended = false) (header : startsWith 'p' (tokens cs) = true) :
    a.reader.feed cs = match a.next.reader.headerLine cs with
      | .ok t => (.ok (), t)
      | .error e => (.error e, a.next.reader) :=
  Reader.feed_header_line running (words_eq_tokens cs ▸ header)

theorem headerLine_eq_ok_iff (first : a.Open) {t : Reader} :
    a.reader.headerLine cs = .ok t ↔
      ∃ h, IsHeader (tokens cs) h ∧ t = ({ a with header := some h } : Intake).reader := by
  rw [Reader.headerLine_eq_ok_iff fun begun => begun_reader.mp begun first, words_eq_tokens]
  simp only [reader_headed first]

theorem Takes.feed_kept (taken : Takes a cs kept x b) :
    a.reader.feed kept = (.ok (), b.reader) := by
  have skip {cs : List Char} (running : a.ended = false) (skipped : counts (tokens cs) = false) :
      a.reader.feed cs = (.ok (), a.next.reader) :=
    Reader.feed_skipped running (words_eq_tokens cs ▸ skipped)
  cases taken with
  | ignored ended => exact if_pos ended
  | mark running marked => exact Reader.feed_mark running (words_eq_tokens cs ▸ marked)
  | skipped running skipped => exact skip running skipped
  | header running first header =>
    rw [feed_header running header.startsWith,
      (headerLine_eq_ok_iff (a := a.next) first).mpr ⟨_, header, rfl⟩]
  | late running | malformed running => exact skip running rfl
  | numbers running clausal numbers =>
    rw [feed_clausal running clausal, Reader.tokens_numbers numbers, reader_takeAll]
    rfl
  | broken running clausal cut left numbers =>
    obtain rfl := left
    by_cases empty : tokens kept = []
    · rw [empty] at numbers
      obtain rfl := List.forall₂_nil_left_iff.mp numbers.numbers
      rw [skip running (by rw [empty]; rfl), List.append_nil]
      rfl
    · -- What is left starts as the line did.
      have still : IsClausal (tokens kept) := by
        rw [cut] at clausal
        exact clausal.start empty
      rw [feed_clausal running still, Reader.tokens_numbers numbers, reader_takeAll]
      rfl

theorem Takes.small (taken : Takes a cs kept x b) (small : a.Small) : b.Small := by
  cases taken with
  | numbers _ _ numbers | broken _ _ _ _ numbers =>
    exact List.forall_mem_append.mpr ⟨small, numbers.small⟩
  | _ => exact small

theorem exists_takes (a : Intake) (cs : List Char) :
    ∃ kept x b, Takes a cs kept x b ∧ a.reader.feed cs = (x, b.reader) := by
  have accepted {b : Intake} (taken : Takes a cs cs (.ok ()) b) :
      ∃ kept x b, Takes a cs kept x b ∧ a.reader.feed cs = (x, b.reader) :=
    ⟨_, _, _, taken, taken.feed_kept⟩
  by_cases running : a.ended = false
  case neg => exact accepted (.ignored (by simpa using running))
  by_cases marked : (tokens cs).head? = some ['%']
  case pos => exact accepted (.mark running marked)
  by_cases counted : counts (tokens cs) = true
  case neg => exact accepted (.skipped running (by simpa using counted))
  by_cases header : startsWith 'p' (tokens cs) = true
  · by_cases first : a.Open
    · rcases read : a.next.reader.headerLine cs with e | t
      · have malformed (h : Header) : ¬IsHeader (tokens cs) h := by
          intro known
          rw [(headerLine_eq_ok_iff (a := a.next) first).mpr ⟨h, known, rfl⟩] at read
          simp at read
        have told := Reader.headerLine_error (r := a.next.reader)
          (fun begun => begun_reader.mp begun first) read
        exact ⟨_, _, _, .malformed running first header malformed told,
          by rw [feed_header running header, read]⟩
      · obtain ⟨h, known, -⟩ := (headerLine_eq_ok_iff (a := a.next) first).mp read
        exact accepted (.header running first known)
    · have refused : a.next.reader.headerLine cs = .error (.misplacedHeader (a.lines + 1)) :=
        if_pos (begun_reader.mpr first)
      exact ⟨_, _, _, .late running header first, by rw [feed_header running header, refused]⟩
  · have clausal : IsClausal (tokens cs) := ⟨counted, marked, by simpa using header⟩
    rcases a.next.reader.tokens_cases (tokens cs) with
      ⟨ns, numbers⟩ | ⟨good, token, rest, ns, e, cut, numbers, refused, taken⟩
    · exact accepted (.numbers running clausal numbers)
    · obtain ⟨kept, left⟩ := exists_tokens numbers
      obtain ⟨bad, told⟩ := Reader.literalOf_error refused
      refine ⟨kept, _, _, .broken running clausal cut left numbers bad told, ?_⟩
      rw [feed_clausal running clausal, taken, reader_takeAll]
      rfl

theorem exists_run {a : Intake} (small : a.Small) (ls : List (List Char)) :
    ∃ left b, Run a ls left (a.reader.feedAll ls).1 b ∧ b.Small ∧
      (a.reader.feedAll ls).2 = b.reader ∧
      a.reader.feedAll left = (ls.map fun _ => .ok (), b.reader) := by
  induction ls generalizing a with
  | nil => exact ⟨[], a, .nil, small, rfl, rfl⟩
  | cons cs ls ih =>
    obtain ⟨kept, x, b, taken, fed⟩ := exists_takes a cs
    obtain ⟨left, c, rest, small, ends, again⟩ := ih (taken.small small)
    simp only [Reader.feedAll, fed]
    refine ⟨kept :: left, c, .cons taken rest, small, ends, ?_⟩
    simp only [Reader.feedAll, taken.feed_kept, again, List.map_cons]

theorem Takes.refused {e : ReadError} (taken : Takes a cs kept (.error e) b) :
    a.ended = false ∧ e.line? = some (a.lines + 1) := by
  cases taken with
  | late running => exact ⟨running, rfl⟩
  | malformed running _ _ _ refused =>
    rcases refused with rfl | ⟨n, -, rfl⟩ <;> exact ⟨running, rfl⟩
  | broken running _ _ _ _ _ refused =>
    rcases refused with rfl | rfl <;> exact ⟨running, rfl⟩

theorem Takes.lines (taken : Takes a cs kept x b) (running : b.ended = false) :
    a.ended = false ∧ b.lines = a.lines + 1 := by
  cases taken with
  | ignored ended => simp [running] at ended
  | mark => simp at running
  | _ => exact ⟨running, rfl⟩

theorem Run.lines {ls left : List (List Char)} {xs : List (Except ReadError Unit)}
    (run : Run a ls left xs b) (running : b.ended = false) :
    a.ended = false ∧ b.lines = a.lines + ls.length := by
  induction run with
  | nil => exact ⟨running, rfl⟩
  | cons taken rest ih =>
    obtain ⟨still, counted⟩ := ih running
    obtain ⟨running, line⟩ := taken.lines still
    exact ⟨running, by rw [counted, line, List.length_cons]; omega⟩

theorem Run.refused {ls left : List (List Char)} {xs : List (Except ReadError Unit)}
    (run : Run a ls left xs b) {k : Nat} {e : ReadError} (told : xs[k]? = some (.error e)) :
    a.ended = false ∧ e.line? = some (a.lines + k + 1) := by
  induction run generalizing k with
  | nil => simp at told
  | @cons a _ _ _ _ _ _ _ _ taken rest ih =>
    cases k with
    | zero =>
      obtain rfl := Option.some.inj told
      exact taken.refused
    | succ k =>
      obtain ⟨running, line⟩ := ih told
      obtain ⟨running, counted⟩ := taken.lines running
      rw [counted, show a.lines + 1 + k = a.lines + (k + 1) by omega] at line
      exact ⟨running, line⟩

theorem held_reader (small : a.Small) : a.Held a.reader := by
  have idle := Reader.idle_startWith a.header
  have noClauses : (Reader.startWith a.header).formula.clauses = [] := by
    rw [← List.length_eq_zero_iff, Storage.length_clauses, idle.formula]
  have clauses : a.reader.clauseNumbers = a.numbers.splitOn 0 := by
    have taken := Reader.clauseNumbers_takeAll (Reader.startWith a.header) small
    rwa [noClauses, idle.pending] at taken
  refine ⟨?_, clauses, ?_, rfl, rfl⟩
  · rw [reader, Reader.header_takeAll]
    cases a.header <;> rfl
  · have declared : (Reader.startWith a.header).formula.varCount =
        a.header.elim 0 Header.varCount := by
      cases a.header with
      | none => rfl
      | some h => exact Nat.zero_max _
    rw [← clauses, Reader.clauseNumbers, List.dropLast_concat]
    refine Reader.varCount_ended ?_ a.numbers
    rw [noClauses, declared]
    exact (Nat.max_zero _).symm

theorem pending_reader (small : a.Small) :
    a.reader.pending = #[] ↔ a.numbers = [] ∨ a.numbers.getLast? = some 0 := by
  have pending := Reader.pending_takeAll (Reader.startWith a.header) small
  rwa [(Reader.idle_startWith a.header).pending, and_iff_left rfl] at pending

theorem finish_reader (small : a.Small) {x : Option Header × Formula} :
    a.reader.finish = .ok x ↔ a.Complete ∧ x = (a.header, a.reader.formula) := by
  have matched (closed : a.numbers = [] ∨ a.numbers.getLast? = some 0) {h : Header}
      (known : a.header = some h) :
      a.reader.formula.varCount = h.varCount ∧ a.reader.formula.size = h.clauseCount ↔
        (∀ n ∈ a.numbers, n.natAbs ≤ h.varCount) ∧ a.numbers.count 0 = h.clauseCount := by
    obtain ⟨ls, body⟩ := exists_body small closed
    exact Reader.counts_match_iff body (by rw [reader, known]; rfl)
  obtain ⟨header, f⟩ := x
  rw [Reader.finish_eq_ok_iff, pending_reader small, (held_reader small).header, Prod.mk.injEq]
  constructor
  · rintro ⟨closed, rfl, rfl, counted⟩
    exact ⟨⟨closed, fun h known => (matched closed known).mp (counted h known)⟩, rfl, rfl⟩
  · rintro ⟨⟨closed, counted⟩, rfl, rfl⟩
    exact ⟨closed, rfl, rfl, fun h known => (matched closed known).mpr (counted h known)⟩

theorem finish_open (small : a.Small) (nonempty : a.numbers ≠ [])
    (unended : a.numbers.getLast? ≠ some 0) :
    a.reader.finish = .error (.unterminatedClause a.lines) := by
  have pending : a.reader.pending ≠ #[] := fun ended =>
    ((pending_reader small).mp ended).elim nonempty unended
  rw [Reader.finish, if_pos (by simpa using pending)]
  rfl

end Intake

open Reader in
/-- Whatever lines the reader is fed with, it takes each in one of the ways there are, and ends as
if it had been fed with what it accepted of them. Errors report their line. The end is a success if
the numbers that were accepted end with a zero and match the header, if one was accepted. -/
theorem reader_keeps_accepted (ls : List (List Char)) :
    ∃ left a, Intake.Run {} ls left (start.feedAll ls).1 a ∧ a.Held (start.feedAll ls).2 ∧
      start.feedAll left = (ls.map fun _ => .ok (), (start.feedAll ls).2) ∧
      (∀ k e, (start.feedAll ls).1[k]? = some (.error e) → e.line? = some (k + 1)) ∧
      (∀ x, (start.feedAll ls).2.finish = .ok x ↔
        a.Complete ∧ x = (a.header, (start.feedAll ls).2.formula)) ∧
      (a.numbers ≠ [] → a.numbers.getLast? ≠ some 0 →
        (start.feedAll ls).2.finish = .error (.unterminatedClause a.lines)) := by
  obtain ⟨left, a, run, small, ends, again⟩ :=
    Intake.exists_run (a := {}) (by simp [Intake.Small]) ls
  have same : (Intake.reader {}) = start := rfl
  rw [same] at run ends again
  rw [ends]
  refine ⟨left, a, run, Intake.held_reader small, again, fun k e told => ?_,
    fun x => Intake.finish_reader small, Intake.finish_open small⟩
  have line := (run.refused told).2
  rwa [Nat.zero_add] at line

example :
    (Reader.start.feedAll ["p cnf x 1".toList, "p cnf 2 1".toList, "1 -2 y 0".toList, "p".toList,
      "0".toList, "%".toList, "z".toList]).1 =
    [.error (.malformedHeader 1 "p cnf x 1"), .ok (), .error (.noLiteral 3 "y"),
      .error (.misplacedHeader 4), .ok (), .ok (), .ok ()] := by
  rfl

end SatSession.Dimacs
