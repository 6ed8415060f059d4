import Mathlib.Data.Set.List
import SatSession.Stream
import SatSession.Proofs.Replay

set_option autoImplicit false

namespace SatSession.Stream

variable {buffer : List Int32} {m p : Nat} {ls : List Lit}

-- The first 0 is at `p`, and what comes before it is within the bound and can be negated.
structure Readable (buffer : List Int32) (m p : Nat) : Prop where
  zero : buffer[p]? = some 0
  first : 0 ∉ buffer.take p
  within : p ≤ m
  valid : Int32.minValue ∉ buffer.take p

theorem readFrom_eq_some_iff {ns : List Int} {room : Nat} :
    readFrom ns room = some ls ↔ ls.length ≤ room ∧ encodeLits ls <+: ns := by
  constructor
  · intro read
    fun_induction readFrom ns room generalizing ls with
    | case1 => cases read
    | case2 ns room =>
      obtain rfl := Option.some.inj read
      exact ⟨Nat.zero_le room, ns, rfl⟩
    | case3 => cases read
    | case4 n ns room _ more l known ih =>
      obtain ⟨ks, rest, rfl⟩ := Option.map_eq_some_iff.mp read
      obtain ⟨short, tail, rfl⟩ := ih rest
      refine ⟨by rw [List.length_cons]; omega, tail, ?_⟩
      rw [← Clause.number_of_ofNumber? known]
      rfl
    | case5 => cases read
  · rintro ⟨short, tail, rfl⟩
    rw [readFrom_encodeLits, if_pos short]

theorem readBuffer_eq_ok_iff {ns : List Int} :
    readBuffer ns m = .ok ls ↔ ls.length ≤ m ∧ encodeLits ls <+: ns := by
  rw [← readFrom_eq_some_iff, readBuffer]
  cases readFrom ns m <;> simp

theorem exists_lit {x : Int32} :
    (∃ l : Lit, l.number = x.toInt) ↔ x ≠ 0 ∧ x ≠ Int32.minValue := by
  have least := x.le_toInt
  have most := x.toInt_lt
  rw [ne_eq, ne_eq, ← Int32.toInt_inj, ← Int32.toInt_inj, Int32.toInt_minValue, Int32.toInt_zero]
  constructor
  · rintro ⟨l, number⟩
    have nonzero := l.ne_zero
    have small := l.le_max
    simp only [maxVar] at small
    omega
  · rintro ⟨nonzero, valid⟩
    exact ⟨⟨x.toInt, nonzero, by simp only [maxVar]; omega⟩, rfl⟩

theorem exists_lits {xs : List Int32} :
    (∃ ls : List Lit, ls.map Lit.number = xs.map Int32.toInt) ↔ 0 ∉ xs ∧ Int32.minValue ∉ xs := by
  have each := Set.ext_iff.mp (Set.range_list_map Lit.number) (xs.map Int32.toInt)
  simp only [Set.mem_range, Set.mem_ofPred_eq, List.forall_mem_map, exists_lit] at each
  rw [each]
  constructor
  · intro valid
    exact ⟨fun zero => (valid 0 zero).1 rfl, fun least => (valid _ least).2 rfl⟩
  · rintro ⟨nonzero, valid⟩ x mem
    exact ⟨fun zero => nonzero (zero ▸ mem), fun least => valid (least ▸ mem)⟩

theorem readable_of_read (read : readBuffer (buffer.map Int32.toInt) m = .ok ls) :
    Readable buffer m ls.length ∧ ls.map Lit.number = (buffer.take ls.length).map Int32.toInt := by
  obtain ⟨within, tail, stream⟩ := readBuffer_eq_ok_iff.mp read
  have numbers : ls.map Lit.number = (buffer.take ls.length).map Int32.toInt := by
    rw [List.map_take, ← stream, encodeLits, List.append_assoc, List.take_left' (by simp)]
  have zero : buffer[ls.length]? = some 0 := by
    have next : (buffer.map Int32.toInt)[ls.length]? = some 0 := by
      simp [← stream, encodeLits]
    rw [List.getElem?_map] at next
    obtain ⟨x, here, value⟩ := Option.map_eq_some_iff.mp next
    rw [here, Int32.toInt_inj.mp (value.trans Int32.toInt_zero.symm)]
  obtain ⟨first, valid⟩ := exists_lits.mp ⟨ls, numbers⟩
  exact ⟨⟨zero, first, within, valid⟩, numbers⟩

namespace Readable

theorem read (readable : Readable buffer m p) :
    ∃ ls : List Lit, ls.map Lit.number = (buffer.take p).map Int32.toInt ∧
      ∀ tail, readBuffer ((buffer.take (p + 1) ++ tail).map Int32.toInt) m = .ok ls := by
  obtain ⟨ls, numbers⟩ := exists_lits.mpr ⟨readable.first, readable.valid⟩
  have inside : p < buffer.length := (List.getElem?_eq_some_iff.mp readable.zero).1
  have length : ls.length = p := by
    have counted := congrArg List.length numbers
    simp only [List.length_map, List.length_take] at counted
    omega
  have stream : (buffer.take (p + 1)).map Int32.toInt = encodeLits ls := by
    rw [List.take_add_one, readable.zero, List.map_append, ← numbers]
    rfl
  refine ⟨ls, numbers, fun tail => ?_⟩
  rw [List.map_append, stream]
  exact readBuffer_encodeLits ls _ (length ▸ readable.within)

end Readable

/-- A buffer is read if it is readable up to some position, as the numbers before it, whatever
follows. Otherwise the error has the bound. So a list of literals is read from its encoding if it is
no longer than the bound. -/
theorem buffer_read (buffer : List Int32) (m : Nat) :
    ((∃ ls, readBuffer (buffer.map Int32.toInt) m = .ok ls) ↔ ∃ p, Readable buffer m p) ∧
    (∀ ls p, readBuffer (buffer.map Int32.toInt) m = .ok ls → Readable buffer m p →
      ls.map Lit.number = (buffer.take p).map Int32.toInt ∧
      ∀ tail, readBuffer ((buffer.take (p + 1) ++ tail).map Int32.toInt) m = .ok ls) ∧
    ((¬∃ p, Readable buffer m p) →
      readBuffer (buffer.map Int32.toInt) m = .error (.unterminatedBuffer m)) ∧
    ∀ (ls : List Lit) (tail : List Int), readBuffer (encodeLits ls ++ tail) m =
      if ls.length ≤ m then .ok ls else .error (.unterminatedBuffer m) := by
  have whole {p : Nat} {ls : List Lit}
      (reads : ∀ tail, readBuffer ((buffer.take (p + 1) ++ tail).map Int32.toInt) m = .ok ls) :
      readBuffer (buffer.map Int32.toInt) m = .ok ls := by
    rw [← reads (buffer.drop (p + 1)), List.take_append_drop]
  have reads : (∃ ls, readBuffer (buffer.map Int32.toInt) m = .ok ls) ↔
      ∃ p, Readable buffer m p := by
    constructor
    · rintro ⟨ls, read⟩
      exact ⟨_, (readable_of_read read).1⟩
    · rintro ⟨p, readable⟩
      obtain ⟨ls, -, reads⟩ := readable.read
      exact ⟨ls, whole reads⟩
  refine ⟨reads, fun ls p read readable => ?_, fun unreadable => ?_, fun ls tail => ?_⟩
  · obtain ⟨ks, numbers, reads⟩ := readable.read
    obtain rfl : ks = ls := Except.ok.inj ((whole reads).symm.trans read)
    exact ⟨numbers, reads⟩
  · rw [← reads] at unreadable
    unfold readBuffer at unreadable ⊢
    split
    next ls known => exact absurd ⟨ls, by rw [known]⟩ unreadable
    next => rfl
  · rw [readBuffer, readFrom_encodeLits]
    by_cases short : ls.length ≤ m <;> simp [short]

-- A 0 right at the bound is still found.
example : readBuffer [1, -2, 0, 4] 2 =
    .ok [⟨1, by decide, by decide⟩, ⟨-2, by decide, by decide⟩] :=
  rfl

end SatSession.Stream
