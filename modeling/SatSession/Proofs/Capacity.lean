import SatSession.Proofs.Confluence
import SatSession.Proofs.RoundTrip

set_option autoImplicit false

namespace SatSession

namespace Destination

variable {d : Destination} {bs : Bytes} {c : Nat}

def HasRoom (d : Destination) (c : Nat) : Prop := d.capacity = some (d.received.length + c)

theorem HasRoom.fitting (room : d.HasRoom c) (n : Nat) : d.fitting n = min c n := by
  unfold HasRoom at room
  simp only [Destination.fitting, room]
  omega

theorem fitting_unbounded (unbounded : d.capacity = none) (n : Nat) : d.fitting n = n := by
  simp only [fitting, unbounded]

-- What arrives of bytes that are written one after the other, and how their writing ends.
def offered (d : Destination) (bs : Bytes) : Outcome IoError Unit × Destination :=
  (if d.fitting bs.length < bs.length then d.refusal else .ok (),
    d.take (bs.take (d.fitting bs.length)))

theorem offered_whole (whole : d.fitting bs.length = bs.length) :
    d.offered bs = (.ok (), d.take bs) := by
  rw [offered, whole, if_neg (Nat.lt_irrefl _), List.take_length]

theorem offered_cut (short : d.fitting bs.length < bs.length) :
    d.offered bs = (d.refusal, d.take (bs.take (d.fitting bs.length))) := by
  rw [offered, if_pos short]

theorem write_eq (room : d.fitting bs.length ≠ 0) :
    d.write bs = (.ok (d.fitting bs.length), d.take (bs.take (d.fitting bs.length))) := by
  cases bs with
  | nil => exact absurd (Nat.le_zero.mp (d.fitting_le 0)) room
  | cons b bs =>
    obtain ⟨n, fits⟩ := Nat.exists_eq_succ_of_ne_zero room
    simp only [write, fits]

theorem writeAll_full (nonempty : bs ≠ []) (full : d.fitting bs.length = 0) :
    d.writeAll bs = (d.refusal, d) := by
  obtain ⟨b, bs, rfl⟩ := List.exists_cons_of_ne_nil nonempty
  rw [writeAll, dif_neg nonempty]
  cases kind : d.whenFull <;> simp only [write, full, refusal, kind]

theorem writeAll_eq (d : Destination) (bs : Bytes) : d.writeAll bs = d.offered bs := by
  by_cases nonempty : bs = []
  case pos =>
    subst nonempty
    rw [writeAll, dif_pos rfl, offered_whole (Nat.le_zero.mp (d.fitting_le 0))]
    simp [take]
  by_cases full : d.fitting bs.length = 0
  case pos =>
    have some' : 0 < bs.length := List.length_pos_iff.mpr nonempty
    rw [writeAll_full nonempty full, offered_cut (by omega), full]
    simp [take]
  obtain ⟨n, fits⟩ := Nat.exists_eq_succ_of_ne_zero full
  have shorter := d.fitting_le bs.length
  have length : (bs.take (n + 1)).length = n + 1 := List.length_take_of_le (by omega)
  have first : d.writeAll bs = (d.take (bs.take (n + 1))).writeAll (bs.drop (n + 1)) := by
    rw [writeAll, dif_neg nonempty, write_eq full, fits]
  rw [first]
  by_cases whole : n + 1 = bs.length
  · rw [offered_whole (by omega), whole, List.drop_length, List.take_length, writeAll, dif_pos rfl]
  · have none : (d.take (bs.take (n + 1))).fitting (bs.drop (n + 1)).length = 0 := by
      have left := fitting_take length (by omega : n + 1 ≤ d.fitting bs.length)
        (bs.drop (n + 1)).length
      rw [List.length_drop, show n + 1 + (bs.length - (n + 1)) = bs.length by omega] at left
      rw [List.length_drop]
      omega
    have rest : bs.drop (n + 1) ≠ [] := by
      rw [ne_eq, List.drop_eq_nil_iff]
      omega
    rw [writeAll_full rest none, offered_cut (by omega), fits]
    rfl

theorem offered_append (d : Destination) (bs cs : Bytes) :
    d.offered (bs ++ cs) = match d.offered bs with
      | (.ok _, e) => e.offered cs
      | failed => failed := by
  have less : bs.length ≤ (bs ++ cs).length := by simp
  by_cases short : d.fitting bs.length < bs.length
  · have full := d.fitting_full short less
    rw [offered_cut short, offered_cut (by omega), full,
      List.take_append_of_le_length (Nat.le_of_lt short)]
    cases kind : d.whenFull <;> simp [refusal, kind]
  · have whole : d.fitting bs.length = bs.length := by
      have shorter := d.fitting_le bs.length
      omega
    have left := fitting_take rfl (Nat.le_of_eq whole.symm) cs.length
    rw [offered_whole whole]
    simp only [offered, List.length_append, ← left, Nat.add_lt_add_iff_left, take_take,
      List.take_length_add_append]
    rfl

theorem writePieces_eq (d : Destination) (ps : List Bytes) :
    d.writePieces ps = d.offered ps.flatten := by
  induction ps generalizing d with
  | nil =>
    rw [writePieces, List.flatten_nil, offered_whole (Nat.le_zero.mp (d.fitting_le 0))]
    simp [take]
  | cons p ps ih =>
    rw [List.flatten_cons, offered_append, ← writeAll_eq, writePieces]
    rcases d.writeAll p with ⟨x | e | q, e⟩
    · exact ih e
    · rfl
    · rfl

end Destination

namespace Dimacs

/-- What becomes of pieces of text, taken together. Where there is no bound all of the text arrives;
where there is room for `c` bytes the first `c` bytes of it do, and the writing succeeds if that is
all. If not, the result is the failure of the destination, and the piece that was cut is the last
one that is written. -/
structure WrittenUntilFull (ps : List String) (text : Bytes) : Prop where
  unbounded (d : Destination) (unbounded : d.capacity = none) :
    writePieces ps d = (.ok (), d.take text)
  arrives (d : Destination) (c : Nat) (room : d.HasRoom c) :
    (writePieces ps d).2 = d.take (text.take (min c text.length))
  succeeds (d : Destination) (c : Nat) (room : d.HasRoom c) :
    (writePieces ps d).1 = .ok () ↔ text.length ≤ c
  fails (d : Destination) (c : Nat) (room : d.HasRoom c) (long : c < text.length) :
    (writePieces ps d).1 = d.refusal
  stops (d : Destination) (failed : (writePieces ps d).1 ≠ .ok ()) :
    ∃ before piece after, ps = before ++ piece :: after ∧ (writePieces before d).1 = .ok () ∧
      ∀ rest, writePieces (before ++ piece :: rest) d = writePieces ps d

theorem writePieces_eq (ps : List String) (d : Destination) :
    writePieces ps d = d.offered (Bytes.ofString (String.join ps)) := by
  have text : (ps.map Bytes.ofString).flatten = Bytes.ofString (String.join ps) := by
    rw [Bytes.flatten_ofString, Bytes.ofString_eq, String.toList_join]
  rw [writePieces, Destination.writePieces_eq, text]

theorem writePieces_stops {ps : List String} {d : Destination}
    (failed : (writePieces ps d).1 ≠ .ok ()) :
    ∃ before piece after, ps = before ++ piece :: after ∧ (writePieces before d).1 = .ok () ∧
      ∀ rest, writePieces (before ++ piece :: rest) d = writePieces ps d := by
  induction ps generalizing d with
  | nil => exact absurd rfl failed
  | cons p ps ih =>
    have next (qs : List String) : writePieces (p :: qs) d =
        match d.writeAll (Bytes.ofString p) with
        | (.ok _, e) => writePieces qs e
        | failed => failed := rfl
    rcases written : d.writeAll (Bytes.ofString p) with ⟨⟨⟩ | e | q, e⟩ <;>
      simp only [written] at next
    · rw [next] at failed
      obtain ⟨before, piece, after, rfl, done, last⟩ := ih failed
      refine ⟨p :: before, piece, after, rfl, (congrArg Prod.fst (next before)).trans done, ?_⟩
      intro rest
      rw [List.cons_append, next, next, last]
    · exact ⟨[], p, ps, rfl, rfl, fun rest => (next rest).trans (next ps).symm⟩
    · exact ⟨[], p, ps, rfl, rfl, fun rest => (next rest).trans (next ps).symm⟩

theorem writtenUntilFull (ps : List String) :
    WrittenUntilFull ps (Bytes.ofString (String.join ps)) := by
  generalize text : Bytes.ofString (String.join ps) = bs
  have written (d : Destination) : writePieces ps d = d.offered bs := text ▸ writePieces_eq ps d
  refine ⟨fun d unbounded => ?_, fun d c room => ?_, fun d c room => ?_, fun d c room long => ?_,
    fun d => writePieces_stops⟩
  · rw [written, Destination.offered_whole (Destination.fitting_unbounded unbounded _)]
  · rw [written, Destination.offered, room.fitting]
  · rw [written]
    by_cases long : c < bs.length
    · rw [Destination.offered_cut (by rw [room.fitting]; omega)]
      exact iff_of_false d.refusal_ne_ok (Nat.not_le.mpr long)
    · rw [Destination.offered_whole (by rw [room.fitting]; omega)]
      exact iff_of_true rfl (Nat.not_lt.mp long)
  · rw [written, Destination.offered_cut (by rw [room.fitting]; omega)]

/-- Headers, clauses and formulas are written until the destination is full. The text of a formula
is that of its header and that of its clauses. -/
theorem written_until_full (h : Header) (cs : List Clause) (f : Formula) :
    WrittenUntilFull (headerPieces h) (Bytes.ofString (String.join (headerPieces h))) ∧
    WrittenUntilFull (clausesPieces cs) (Bytes.ofString (String.join (clausesPieces cs))) ∧
    WrittenUntilFull (formulaPieces f) (textBytes f) ∧
    textBytes f = Bytes.ofString (String.join (headerPieces (.ofFormula f))) ++
      Bytes.ofString (String.join (clausesPieces f.clauses)) := by
  refine ⟨writtenUntilFull _, writtenUntilFull _, writtenUntilFull _, ?_⟩
  simp only [textBytes, text, formulaPieces, pieces, Bytes.ofString_eq, ← Bytes.ofChars_append,
    ← String.toList_append, String.join_append]

-- The number 120 is cut after its first digit.
example : writePieces (headerPieces ⟨120, 3⟩) { capacity := some 7 } =
    (.error ⟨.other, "destination full"⟩,
      { capacity := some 7, received := [112, 32, 99, 110, 102, 32, 49] }) := by
  decide +kernel

end Dimacs

end SatSession
