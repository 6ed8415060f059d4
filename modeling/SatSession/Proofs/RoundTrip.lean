import SatSession.Dimacs.Writer
import SatSession.Proofs.Replay

set_option autoImplicit false

namespace SatSession

namespace Text

structure IsWord (cs : List Char) : Prop where
  nonempty : cs ≠ []
  solid : ∀ c ∈ cs, isBlank c = false

theorem not_isBlank_of_isDigit {c : Char} (digit : c.isDigit = true) : isBlank c = false := by
  rw [Bool.eq_false_iff]
  intro blank
  simp only [isBlank, Bool.or_eq_true, beq_iff_eq] at blank
  rcases blank with (((rfl | rfl) | rfl) | rfl) | rfl <;> simp [Char.isDigit] at digit

theorem isWord_toDigits (n : Nat) : IsWord (Nat.toDigits 10 n) where
  nonempty := Nat.toDigits_ne_nil
  solid _ hc :=
    not_isBlank_of_isDigit (Nat.isDigit_of_mem_toDigits (by decide) (by decide) hc)

theorem foldlM_appendDigit? {cs : List Char} (digits : ∀ c ∈ cs, c.isDigit = true) (n : Nat) :
    cs.foldlM appendDigit? n = some (Nat.ofDigitChars 10 cs n) := by
  induction cs generalizing n with
  | nil => simp
  | cons c cs ih =>
    have rest := ih (fun d hd => digits d (List.mem_cons_of_mem c hd))
      (10 * n + (c.toNat - '0'.toNat))
    simpa [appendDigit?, digits c List.mem_cons_self, Nat.ofDigitChars_cons] using rest

theorem digits?_toDigits (n : Nat) : digits? (Nat.toDigits 10 n) = some n := by
  have digits : ∀ c ∈ Nat.toDigits 10 n, c.isDigit = true :=
    fun c hc => Nat.isDigit_of_mem_toDigits (by decide) (by decide) hc
  have read := foldlM_appendDigit? digits 0
  rw [Nat.ofDigitChars_ten_toDigits] at read
  cases text : Nat.toDigits 10 n with
  | nil => exact absurd text Nat.toDigits_ne_nil
  | cons c cs => rwa [text] at read

theorem unsigned?_toDigits (n : Nat) : unsigned? (Nat.toDigits 10 n) = some n := by
  rw [← digits?_toDigits n]
  unfold unsigned?
  split
  next cs text =>
    have digit : '+'.isDigit = true :=
      Nat.isDigit_of_mem_toDigits (by decide) (by decide) (text ▸ List.mem_cons_self)
    simp at digit
  next => rfl

theorem signed?_toString (n : Int) : signed? (toString n).toList = some n := by
  rw [Int.toString_eq_repr, Int.repr_eq_if]
  split
  next positive =>
    rw [Nat.toList_repr]
    unfold signed?
    split
    next cs text =>
      have digit : '-'.isDigit = true :=
        Nat.isDigit_of_mem_toDigits (by decide) (by decide) (text ▸ List.mem_cons_self)
      simp at digit
    next =>
      rw [unsigned?_toDigits]
      simp
      omega
  next negative =>
    have text : ("-" ++ (-n).toNat.repr).toList = '-' :: Nat.toDigits 10 (-n).toNat := by simp
    rw [text, signed?, digits?_toDigits]
    simp
    omega

theorem unsignedOfWidth?_toString {bits n : Nat} (small : n < Nat.pow 2 bits) :
    unsignedOfWidth? bits (toString n).toList = some n := by
  rw [Nat.toString_eq_repr, Nat.toList_repr, unsignedOfWidth?, unsigned?_toDigits]
  simpa using small

theorem isWord_ofNat (n : Nat) : IsWord (toString n).toList := by
  rw [Nat.toString_eq_repr, Nat.toList_repr]
  exact isWord_toDigits n

theorem isWord_ofInt (n : Int) : IsWord (toString n).toList := by
  rw [Int.toString_eq_repr, Int.repr_eq_if]
  split
  · rw [Nat.toList_repr]
    exact isWord_toDigits _
  · have text : ("-" ++ (-n).toNat.repr).toList = '-' :: Nat.toDigits 10 (-n).toNat := by simp
    rw [text]
    exact ⟨List.cons_ne_nil _ _, List.forall_mem_cons.mpr ⟨by decide, (isWord_toDigits _).solid⟩⟩

theorem signedOfWidth?_toString {bits : Nat} {n : Int} (small : n.natAbs < Nat.pow 2 (bits - 1)) :
    signedOfWidth? bits (toString n).toList = some n := by
  rw [signedOfWidth?, signed?_toString, Option.filter_some, if_pos]
  rw [Bool.and_eq_true, decide_eq_true_eq, decide_eq_true_eq]
  omega

theorem head_ofInt (n : Int) : ∃ c cs, (toString n).toList = c :: cs ∧
    (c.isDigit = true ∨ c = '-') := by
  rw [Int.toString_eq_repr, Int.repr_eq_if]
  split
  · obtain ⟨c, cs, text⟩ :=
      List.exists_cons_of_ne_nil (Nat.toDigits_ne_nil (n := n.toNat) (b := 10))
    have digit : c.isDigit = true :=
      Nat.isDigit_of_mem_toDigits (by decide) (by decide) (text ▸ List.mem_cons_self)
    exact ⟨c, cs, by rw [Nat.toList_repr, text], .inl digit⟩
  · exact ⟨'-', Nat.toDigits 10 (-n).toNat, by simp, .inr rfl⟩

theorem wordsFrom_found (word : List Char) (found : List (List Char)) (cs : List Char) :
    wordsFrom word found cs = found.reverse ++ wordsFrom word [] cs := by
  induction cs generalizing word found with
  | nil => by_cases empty : word.isEmpty <;> simp [wordsFrom, closeWord, empty]
  | cons c cs ih =>
    simp only [wordsFrom]
    split
    · rw [ih, ih [] (closeWord word [])]
      by_cases empty : word.isEmpty <;> simp [closeWord, empty]
    · rw [ih]

theorem wordsFrom_solid {cs : List Char} (solid : ∀ c ∈ cs, isBlank c = false)
    (word rest : List Char) :
    wordsFrom word [] (cs ++ rest) = wordsFrom (cs.reverse ++ word) [] rest := by
  induction cs generalizing word with
  | nil => rfl
  | cons c cs ih =>
    have later := ih (fun d hd => solid d (List.mem_cons_of_mem c hd)) (c :: word)
    simpa [wordsFrom, solid c List.mem_cons_self] using later

theorem words_append {w : List Char} (word : IsWord w) {b : Char} (blank : isBlank b = true)
    (cs : List Char) : words (w ++ b :: cs) = w :: words cs := by
  have full : ¬w = [] := word.nonempty
  rw [words, wordsFrom_solid word.solid, List.append_nil, wordsFrom, if_pos blank, wordsFrom_found]
  simp [closeWord, full, words]

end Text

namespace Bytes

def ofChars (cs : List Char) : Bytes := cs.flatMap String.utf8EncodeChar

theorem ofChars_append (cs ds : List Char) : ofChars (cs ++ ds) = ofChars cs ++ ofChars ds :=
  List.flatMap_append

theorem ofString_eq (s : String) : ofString s = ofChars s.toList := by
  rw [ofString, String.toUTF8_eq_toByteArray, ← String.utf8Encode_toList, List.utf8Encode]
  simp [ofChars]

theorem flatten_ofString (ps : List String) :
    (ps.map ofString).flatten = ofChars (ps.flatMap String.toList) := by
  induction ps with
  | nil => rfl
  | cons p ps ih =>
    rw [List.map_cons, List.flatten_cons, ih, ofString_eq, List.flatMap_cons, ofChars_append]

theorem newline_of_mem {c : Char} (mem : (10 : UInt8) ∈ String.utf8EncodeChar c) : c = '\n' := by
  have byte {n : Nat} (same : (10 : UInt8) = UInt8.ofNat n) : n % 256 = 10 := by
    have value := congrArg UInt8.toNat same
    simpa using value.symm
  unfold String.utf8EncodeChar at mem
  simp only at mem
  split at mem
  next small =>
    have value := byte (List.mem_singleton.mp mem)
    apply Char.ext
    apply UInt32.toNat_inj.mp
    change c.val.toNat = 10
    omega
  next =>
    -- A character that takes several bytes has none below 128.
    split at mem
    · simp only [List.mem_cons, List.not_mem_nil, or_false] at mem
      rcases mem with same | same <;> have value := byte same <;> omega
    · split at mem
      · simp only [List.mem_cons, List.not_mem_nil, or_false] at mem
        rcases mem with same | same | same <;> have value := byte same <;> omega
      · simp only [List.mem_cons, List.not_mem_nil, or_false] at mem
        rcases mem with same | same | same | same <;> have value := byte same <;> omega

end Bytes

namespace Dimacs

open Text

theorem decode?_ofChars (cs : List Char) : decode? (Bytes.ofChars cs) = some cs := by
  have read (s : String) : String.fromUTF8? s.toUTF8 = some s := by
    simp only [String.fromUTF8?, String.toUTF8_eq_toByteArray, dif_pos s.isValidUTF8]
    rfl
  have bytes : Bytes.ofChars cs = Bytes.ofString (String.ofList cs) := by
    rw [Bytes.ofString_eq, String.toList_ofList]
  rw [bytes, decode?, Bytes.ofString, Array.toArray_toList, read, Option.map_some,
    String.toList_ofList]

theorem linesFrom_found (line : List UInt8) (found : List (List UInt8)) (bs : List UInt8) :
    linesFrom line found bs = found.reverse ++ linesFrom line [] bs := by
  induction bs generalizing line found with
  | nil => by_cases empty : line.isEmpty <;> simp [linesFrom, empty]
  | cons b bs ih =>
    simp only [linesFrom]
    split
    · rw [ih, ih [] [(b :: line).reverse], List.reverse_cons, List.append_assoc]
      rfl
    · rw [ih]

theorem linesFrom_whole {bs : List UInt8} (whole : 10 ∉ bs) (line rest : List UInt8) :
    linesFrom line [] (bs ++ rest) = linesFrom (bs.reverse ++ line) [] rest := by
  induction bs generalizing line with
  | nil => rfl
  | cons b bs ih =>
    rw [List.mem_cons, not_or] at whole
    simpa [linesFrom, Ne.symm whole.1] using ih whole.2 (b :: line)

theorem lines_whole {l : List UInt8} (whole : 10 ∉ l) (bs : List UInt8) :
    lines (l ++ 10 :: bs) = (l ++ [10]) :: lines bs := by
  rw [lines, linesFrom_whole whole, List.append_nil, linesFrom, if_pos rfl, linesFrom_found]
  simp [lines]

theorem ofChars_newline (cs : List Char) : Bytes.ofChars (cs ++ ['\n']) = Bytes.ofChars cs ++ [10] := by
  have feed : Bytes.ofChars ['\n'] = [10] := by decide
  rw [Bytes.ofChars_append, feed]

theorem lines_append {cs : List Char} (whole : '\n' ∉ cs) (bs : List UInt8) :
    lines (Bytes.ofChars (cs ++ ['\n']) ++ bs) = Bytes.ofChars (cs ++ ['\n']) :: lines bs := by
  have none : (10 : UInt8) ∉ Bytes.ofChars cs := by
    intro mem
    obtain ⟨c, hc, byte⟩ := List.mem_flatMap.mp mem
    exact whole (Bytes.newline_of_mem byte ▸ hc)
  rw [ofChars_newline, List.append_assoc, List.singleton_append, lines_whole none]

def headerChars (h : Header) : List Char :=
  ['p', ' ', 'c', 'n', 'f', ' '] ++ (toString h.varCount).toList ++ ' ' ::
    (toString h.clauseCount).toList

def clauseChars (c : Clause) : List Char := c.flatMap (fun l => l.text.toList ++ [' ']) ++ ['0']

theorem bytes_pieces (h : Header) (cs : List Clause) : ((pieces h cs).map Bytes.ofString).flatten =
    Bytes.ofChars (headerChars h ++ ['\n']) ++
      cs.flatMap fun c => Bytes.ofChars (clauseChars c ++ ['\n']) := by
  have clauses : (clausesPieces cs).flatMap String.toList =
      cs.flatMap fun c => clauseChars c ++ ['\n'] := by
    simp [clausesPieces, clausePieces, clauseChars, List.flatMap_assoc]
  have header : (headerPieces h).flatMap String.toList = headerChars h ++ ['\n'] := by
    simp [headerPieces, headerChars]
  rw [Bytes.flatten_ofString, pieces, List.flatMap_append, clauses, header, Bytes.ofChars_append]
  simp [Bytes.ofChars, List.flatMap_assoc]

theorem isWord_text (l : Lit) : IsWord l.text.toList := isWord_ofInt l.number

theorem newline_not_mem {w : List Char} (word : IsWord w) : '\n' ∉ w := by
  intro mem
  have solid := word.solid _ mem
  simp [isBlank] at solid

theorem newline_not_mem_clauseChars (c : Clause) : '\n' ∉ clauseChars c := by
  simp only [clauseChars, List.mem_append, List.mem_flatMap, not_or, not_exists, not_and]
  exact ⟨fun l _ => ⟨newline_not_mem (isWord_text l), by decide⟩, by decide⟩

theorem newline_not_mem_headerChars (h : Header) : '\n' ∉ headerChars h := by
  have number (n : Nat) := newline_not_mem (isWord_ofNat n)
  simp only [headerChars, List.mem_append, List.mem_cons, not_or]
  exact ⟨⟨by decide, number _⟩, by decide, number _⟩

theorem words_clauseChars (c : Clause) :
    words (clauseChars c ++ ['\n']) = c.map (·.text.toList) ++ [['0']] := by
  induction c with
  | nil => rfl
  | cons l c ih =>
    have first : clauseChars (l :: c) ++ ['\n'] =
        l.text.toList ++ ' ' :: (clauseChars c ++ ['\n']) := by simp [clauseChars]
    rw [first, words_append (isWord_text l) rfl, ih]
    rfl

theorem words_headerChars (h : Header) : words (headerChars h ++ ['\n']) =
    [['p'], ['c', 'n', 'f'], (toString h.varCount).toList, (toString h.clauseCount).toList] := by
  have cut : headerChars h ++ ['\n'] = ['p'] ++ ' ' :: (['c', 'n', 'f'] ++ ' ' ::
      ((toString h.varCount).toList ++ ' ' :: ((toString h.clauseCount).toList ++ ['\n']))) := by
    simp [headerChars]
  rw [cut, words_append ⟨by simp, by simp [isBlank]⟩ rfl,
    words_append ⟨by simp, by simp [isBlank]⟩ rfl, words_append (isWord_ofNat _) rfl,
    words_append (isWord_ofNat _) rfl]
  rfl

namespace Reader

theorem literalOf_text (line : Nat) (l : Lit) : literalOf line l.text.toList = .ok (some l) := by
  have read : signedOfWidth? 64 l.text.toList = some l.number :=
    signedOfWidth?_toString (Nat.lt_of_le_of_lt l.le_max (by decide))
  simp only [literalOf, read, l.ne_zero, if_false, Lit.ofNumber?_number]

theorem tokens_clause (r : Reader) (c : Clause) :
    r.tokens (c.map (·.text.toList) ++ [['0']]) = (.ok (), { r with
      formula := r.formula.add (r.pending.toList ++ c)
      pending := #[] }) := by
  induction c generalizing r with
  | nil =>
    have zero : literalOf r.line ['0'] = .ok none := rfl
    simp [tokens, zero, take]
  | cons l c ih =>
    rw [List.map_cons, List.cons_append, tokens, literalOf_text]
    simp only [ih]
    simp [take]

theorem feed_number {r : Reader} (running : r.done = false) {line : List Char} {n : Int}
    {ts : List (List Char)} (read : words line = (toString n).toList :: ts) :
    r.feed line = { r with line := r.line + 1 }.tokens ((toString n).toList :: ts) := by
  obtain ⟨c, cs, text, first⟩ := head_ofInt n
  rw [text] at read ⊢
  have other (d : Char) (noDigit : d.isDigit = false) (noSign : d ≠ '-') : c ≠ d := by
    rintro rfl
    simp [noDigit, noSign] at first
  have noEnd := other '%' (by decide) (by decide)
  have noComment := other 'c' (by decide) (by decide)
  have noHeader := other 'p' (by decide) (by decide)
  simp only [feed, running, Bool.false_eq_true, if_false, read]
  split <;> simp_all

theorem feed_clause {r : Reader} (running : r.done = false) (idle : r.pending = #[])
    (c : Clause) : r.feed (clauseChars c ++ ['\n']) = (.ok (), { r with
      formula := r.formula.add c
      line := r.line + 1 }) := by
  have read := words_clauseChars c
  have fed : r.feed (clauseChars c ++ ['\n']) =
      { r with line := r.line + 1 }.tokens (c.map (fun l : Lit => l.text.toList) ++ [['0']]) := by
    cases c with
    | nil => exact feed_number running (n := 0) read
    | cons l c => exact feed_number running (n := l.number) read
  rw [fed, tokens_clause]
  simp [idle]

theorem headerOfWords?_headerChars {h : Header} (vars : h.varCount < UInt64.size)
    (count : h.clauseCount < UInt64.size) :
    headerOfWords? (words (headerChars h ++ ['\n'])) = some h := by
  have first : unsignedOfWidth? 64 (toString h.varCount).toList = some h.varCount :=
    unsignedOfWidth?_toString vars
  have second : unsignedOfWidth? 64 (toString h.clauseCount).toList = some h.clauseCount :=
    unsignedOfWidth?_toString count
  simp only [words_headerChars, headerOfWords?, first, second]
  rfl

theorem feed_header {h : Header} (small : h.varCount ≤ maxVar)
    (count : h.clauseCount < UInt64.size) :
    start.feed (headerChars h ++ ['\n']) =
      (.ok (), ⟨Formula.empty.reserve h.varCount, #[], some h, 1, false⟩) := by
  have known := headerOfWords?_headerChars (Nat.lt_of_le_of_lt small (by decide)) count
  have accepted : Reader.headerLine ⟨.empty, #[], none, 1, false⟩ (headerChars h ++ ['\n']) =
      .ok ⟨Formula.empty.reserve h.varCount, #[], some h, 1, false⟩ := by
    simp [headerLine, known, small]
  simp only [feed, start, words_headerChars, Bool.false_eq_true, if_false, accepted]

end Reader

theorem readLines_feed {r t : Reader} (running : r.done = false) {cs : List Char}
    (fed : r.feed cs = (.ok (), t)) (ls : List (List UInt8)) :
    readLines r (Bytes.ofChars cs :: ls) = readLines t ls := by
  rw [readLines, running, decode?_ofChars]
  simp [fed]

theorem readLines_error {r : Reader} (running : r.done = false) {cs : List Char} {e : ReadError}
    (failed : (r.feed cs).1 = .error e) (ls : List (List UInt8)) :
    readLines r (Bytes.ofChars cs :: ls) = .error e := by
  rw [readLines, running, decode?_ofChars]
  rcases fed : r.feed cs with ⟨x | a, t⟩
  · rw [fed] at failed
    obtain rfl := Except.error.inj failed
    simp [fed]
  · simp [fed] at failed

theorem readLines_clauses {r : Reader} (running : r.done = false) (idle : r.pending = #[])
    (cs : List Clause) :
    readLines r (lines (cs.flatMap fun c => Bytes.ofChars (clauseChars c ++ ['\n']))) = { r with
      formula := r.formula.extend cs
      line := r.line + cs.length }.finish := by
  induction cs generalizing r with
  | nil => rfl
  | cons c cs ih =>
    let next : Reader := { r with
      formula := r.formula.add c
      line := r.line + 1 }
    have rest := ih (r := next) running idle
    rw [List.flatMap_cons, lines_append (newline_not_mem_clauseChars c),
      readLines_feed running (Reader.feed_clause running idle c), rest]
    simp only [next, Formula.extend, List.foldl_cons, List.length_cons]
    rw [Nat.add_assoc, Nat.add_comm 1]

theorem varCount_extend {f : Formula} {n : Nat} (count : f.varCount = n) {cs : List Clause}
    (within : ∀ c ∈ cs, ∀ l ∈ c, l.var.number ≤ n) : (f.extend cs).varCount = n := by
  induction cs generalizing f with
  | nil => exact count
  | cons c cs ih =>
    refine ih ?_ fun d hd => within d (List.mem_cons_of_mem c hd)
    rw [Formula.varCount_add, count]
    exact Nat.max_eq_left (Clause.maxVar_le_iff.mpr (within c List.mem_cons_self))

theorem read_pieces {h : Header} {cs : List Clause} (small : h.varCount ≤ maxVar)
    (counted : h.clauseCount = cs.length) (count : cs.length < UInt64.size)
    (within : ∀ c ∈ cs, ∀ l ∈ c, l.var.number ≤ h.varCount) :
    read ((pieces h cs).map Bytes.ofString).flatten =
      .ok (some h, (Formula.empty.reserve h.varCount).extend cs) := by
  let f := (Formula.empty.reserve h.varCount).extend cs
  have vars : f.varCount = h.varCount := varCount_extend (Nat.zero_max _) within
  have size : f.size = h.clauseCount := by
    rw [← f.length_clauses, Formula.clauses_extend, counted]
    rfl
  rw [bytes_pieces, read, lines_append (newline_not_mem_headerChars h),
    readLines_feed rfl (Reader.feed_header small (counted ▸ count)), readLines_clauses rfl rfl]
  simp only [Reader.finish]
  simp [f, vars, size]

end Dimacs

end SatSession
