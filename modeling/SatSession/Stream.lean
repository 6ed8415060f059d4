import SatSession.Assignment
import SatSession.Error

set_option autoImplicit false

namespace SatSession.Stream

-- A raw clause ends at its first 0 or with the list; an empty one becomes a lone 0.
def encodeClause (c : List Int) : List Int := c.takeWhile (· != 0) ++ [0]

def encodeLits (c : Clause) : List Int := c.map (·.number) ++ [0]

def blockingClause (a : Assignment) : List Int := a.numbers.map (- ·) ++ [0]

def invalid? (ns : List Int) : Option Int := ns.find? fun n => n != 0 && (Lit.ofNumber? n).isNone

theorem invalid?_encodeLits (c : Clause) : invalid? (encodeLits c) = none := by
  refine List.find?_eq_none.mpr fun n hn => ?_
  rcases List.mem_append.mp hn with hn | hn
  · obtain ⟨l, _, rfl⟩ := List.mem_map.mp hn
    simp [Lit.ofNumber?_number]
  · simp [List.mem_singleton.mp hn]

def readFrom : List Int → Nat → Option (List Lit)
  | [], _ => none
  | n :: ns, room =>
      if n = 0 then some []
      else if room = 0 then none
      else
        match Lit.ofNumber? n with
        | some l => (readFrom ns (room - 1)).map (l :: ·)
        | none => none

def readBuffer (buffer : List Int) (maxLength : Nat) : Except Error (List Lit) :=
  match readFrom buffer maxLength with
  | some ls => .ok ls
  | none => .error (.unterminatedBuffer maxLength)

theorem readFrom_encodeLits (ls : List Lit) (rest : List Int) (room : Nat) :
    readFrom (encodeLits ls ++ rest) room = if ls.length ≤ room then some ls else none := by
  induction ls generalizing room with
  | nil => simp [encodeLits, readFrom]
  | cons l ls ih =>
      have hl : encodeLits (l :: ls) ++ rest = l.number :: (encodeLits ls ++ rest) := rfl
      rw [hl, readFrom]
      cases room with
      | zero => simp [l.ne_zero]
      | succ room =>
          simp only [l.ne_zero, Lit.ofNumber?_number, ih, Nat.add_sub_cancel]
          by_cases h : ls.length ≤ room <;> simp [h]

theorem readBuffer_encodeLits (ls : List Lit) (rest : List Int) {m : Nat} (h : ls.length ≤ m) :
    readBuffer (encodeLits ls ++ rest) m = .ok ls := by
  simp [readBuffer, readFrom_encodeLits, h]

end SatSession.Stream
