import SatSession.Formula

set_option autoImplicit false

namespace SatSession

structure Assignment where
  slots : Array Bool
deriving DecidableEq

namespace Assignment

variable {ε : Type}

def allFalse (n : Nat) : Assignment := ⟨Array.replicate (n + 1) false⟩

def ofList (bs : List Bool) : Assignment := ⟨bs.toArray⟩

def size (a : Assignment) : Nat := a.slots.size

def varCount (a : Assignment) : Nat := a.size - 1

def isEmpty (a : Assignment) : Bool := a.slots.isEmpty

def get (a : Assignment) (i : Nat) : Outcome ε Bool :=
  match a.slots[i]? with
  | some b => .ok b
  | none => .panic .outOfRange

def value (a : Assignment) (v : Var) : Outcome ε Bool := a.get v.number

def set (a : Assignment) (v : Var) (b : Bool) : Outcome ε Assignment :=
  if v.number < a.size then .ok ⟨a.slots.setIfInBounds v.number b⟩ else .panic .outOfRange

def holds (a : Assignment) (l : Lit) : Outcome ε Bool := do
  let b ← a.value l.var
  pure (b == l.isPositive)

-- Whether some literal is true, looking no further than the first that is.
def holdsAny (a : Assignment) : Clause → Outcome ε Bool
  | [] => pure false
  | l :: c => do
      if ← a.holds l then pure true else a.holdsAny c

def satisfies (a : Assignment) : List Clause → Outcome ε Bool
  | [] => pure true
  | c :: cs => do
      if ← a.holdsAny c then a.satisfies cs else pure false

def numbers (a : Assignment) : List Int :=
  (a.slots.toList.drop 1).zipIdx 1 |>.map fun (b, v) => if b then (v : Int) else -v

def literalsFrom? : Nat → List Bool → Option (List Lit)
  | _, [] => some []
  | i, b :: bs => do
      let v ← Var.ofIndex? i
      let ls ← literalsFrom? (i + 1) bs
      pure (v.lit b :: ls)

def literals? (a : Assignment) : Option (List Lit) := literalsFrom? 0 (a.slots.toList.drop 1)

def text (a : Assignment) : String :=
  let pair := fun (b, v) => toString v ++ ": " ++ (if b then "true" else "false")
  "\x7b" ++ ", ".intercalate ((a.slots.toList.drop 1).zipIdx 1 |>.map pair) ++ "\x7d"

def digits (a : Assignment) : String :=
  String.ofList (a.slots.toList.map fun b => if b then '1' else '0')

variable {a : Assignment}

theorem length_numbers (a : Assignment) : a.numbers.length = a.size - 1 := by
  simp [numbers, size]

theorem getElem_numbers {i : Nat} (inside : i < a.numbers.length) :
    ∃ h : i + 1 < a.slots.size,
      a.numbers[i] = if a.slots[i + 1] then ((i + 1 : Nat) : Int) else -((i + 1 : Nat) : Int) := by
  have length := a.length_numbers
  have size : a.size = a.slots.size := rfl
  refine ⟨by omega, ?_⟩
  simp [numbers, Nat.add_comm 1]

theorem natAbs_numbers (a : Assignment) :
    a.numbers.map Int.natAbs = List.range' 1 (a.size - 1) := by
  refine List.ext_getElem (by simp [length_numbers]) fun i inside _ => ?_
  rw [List.length_map] at inside
  obtain ⟨small, value⟩ := getElem_numbers inside
  rw [List.getElem_map, List.getElem_range', value]
  split <;> omega

theorem mem_numbers {l : Lit} :
    l.number ∈ a.numbers ↔ a.slots[l.var.number]? = some l.isPositive := by
  have positive := l.var.pos
  rw [l.number_eq]
  constructor
  next =>
    intro member
    obtain ⟨i, inside, same⟩ := List.getElem_of_mem member
    obtain ⟨small, value⟩ := getElem_numbers inside
    rw [value] at same
    have found : l.var.number = i + 1 ∧ a.slots[i + 1] = l.isPositive := by
      split at same <;> split at same <;> grind
    rw [found.1, Array.getElem?_eq_getElem small, found.2]
  next =>
    intro slot
    obtain ⟨small, value⟩ := Array.getElem?_eq_some_iff.mp slot
    have size : a.size = a.slots.size := rfl
    have inside : l.var.number - 1 < a.numbers.length := by
      rw [length_numbers]
      omega
    obtain ⟨_, number⟩ := getElem_numbers inside
    have place : l.var.number - 1 + 1 = l.var.number := by omega
    simp only [place, value] at number
    exact List.mem_of_getElem number

theorem numbers_literalsFrom {bs : List Bool} {i : Nat} (small : i + bs.length ≤ maxVar) :
    ∃ ls, literalsFrom? i bs = some ls ∧
      ls.map Lit.number = (bs.zipIdx (i + 1)).map fun (b, v) => if b then (v : Int) else -v := by
  induction bs generalizing i with
  | nil => exact ⟨[], rfl, rfl⟩
  | cons b bs ih =>
    rw [List.length_cons] at small
    obtain ⟨v, known, number⟩ := Var.exists_ofIndex? (i := i) (by omega)
    obtain ⟨ls, rest, numbers⟩ := ih (i := i + 1) (by omega)
    refine ⟨v.lit b :: ls, by rw [literalsFrom?, known, rest]; rfl, ?_⟩
    simp [numbers, Var.lit, number]

theorem numbers_literals (small : a.size ≤ maxVar + 1) :
    ∃ ls, a.literals? = some ls ∧ ls.map Lit.number = a.numbers := by
  refine numbers_literalsFrom ?_
  have size : a.size = a.slots.size := rfl
  rw [List.length_drop, Array.length_toList]
  omega

end Assignment

end SatSession
