import SatSession.Step

set_option autoImplicit false

namespace SatSession

-- The largest variable number: its negation must fit into 32 bits as well.
def maxVar : Nat := 2147483647

structure Var where
  number : Nat
  pos : 0 < number
  le_max : number ≤ maxVar
deriving DecidableEq

structure Lit where
  number : Int
  ne_zero : number ≠ 0
  le_max : number.natAbs ≤ maxVar
deriving DecidableEq

namespace Var

def ofNumber? (n : Int) : Option Var :=
  if h : 0 < n ∧ n.toNat ≤ maxVar then some ⟨n.toNat, by omega, h.2⟩ else none

def ofNumber {ε : Type} (n : Int) : Outcome ε Var :=
  match ofNumber? n with
  | some v => .ok v
  | none => .panic (.text ("variable numbers are positive, got " ++ toString n))

def index (v : Var) : Nat := v.number - 1

def ofIndex? (i : Nat) : Option Var := ofNumber? (i + 1)

def max : Var := ⟨maxVar, by decide, Nat.le_refl _⟩

def text (v : Var) : String := toString v.number

def lit (v : Var) (polarity : Bool) : Lit :=
  { number := if polarity then v.number else -v.number
    ne_zero := by have := v.pos; cases polarity <;> simp <;> omega
    le_max := by have := v.le_max; cases polarity <;> simp <;> omega }

theorem exists_ofIndex? {i : Nat} (small : i < maxVar) :
    ∃ v, ofIndex? i = some v ∧ v.number = i + 1 := by
  have positive : (0 : Int) < i + 1 := by omega
  have within : ((i : Int) + 1).toNat ≤ maxVar := by omega
  exact ⟨_, dif_pos ⟨positive, within⟩, by simp⟩

end Var

namespace Lit

def ofNumber? (n : Int) : Option Lit :=
  if h : n ≠ 0 ∧ n.natAbs ≤ maxVar then some ⟨n, h.1, h.2⟩ else none

def ofNumber {ε : Type} (n : Int) : Outcome ε Lit :=
  match ofNumber? n with
  | some l => .ok l
  | none => .panic (.text (toString n ++ " is not a literal"))

def var (l : Lit) : Var :=
  ⟨l.number.natAbs, by have := l.ne_zero; omega, l.le_max⟩

def index (l : Lit) : Nat := l.var.index

def isNegative (l : Lit) : Bool := l.number < 0

def isPositive (l : Lit) : Bool := !l.isNegative

def neg (l : Lit) : Lit :=
  ⟨-l.number, by have := l.ne_zero; omega, by have := l.le_max; omega⟩

def xor (l : Lit) (flip : Bool) : Lit := if flip then l.neg else l

def text (l : Lit) : String := toString l.number

instance : Ord Lit := ⟨fun a b => compare a.number b.number⟩

def ofNumbers {ε : Type} : List Int → Outcome ε (List Lit)
  | [] => .ok []
  | n :: ns => do
      let l ← ofNumber n
      let ls ← ofNumbers ns
      pure (l :: ls)

theorem ofNumber?_number (l : Lit) : ofNumber? l.number = some l := by
  simp [ofNumber?, l.ne_zero, l.le_max]

theorem ofNumber?_eq_none {n : Int} : ofNumber? n = none ↔ n = 0 ∨ maxVar < n.natAbs := by
  by_cases h : n = 0 <;> simp [ofNumber?, h]

theorem neg_neg (l : Lit) : l.neg.neg = l := by
  cases l; simp [neg]

theorem var_neg (l : Lit) : l.neg.var = l.var := by
  simp [var, neg]

theorem lit_var (v : Var) (b : Bool) : (v.lit b).var = v := by
  cases v; cases b <;> simp [Var.lit, var]

theorem number_eq (l : Lit) :
    l.number = if l.isPositive then (l.var.number : Int) else -l.var.number := by
  have var : l.var.number = l.number.natAbs := rfl
  have sign : l.isPositive = !decide (l.number < 0) := rfl
  rw [sign, var]
  by_cases negative : l.number < 0
  · rw [decide_eq_true negative, Bool.not_true, if_neg Bool.false_ne_true]
    omega
  · rw [decide_eq_false negative, Bool.not_false, if_pos rfl]
    omega

theorem isPositive_lit (v : Var) (b : Bool) : (v.lit b).isPositive = b := by
  have := v.pos
  cases b <;> simp [Var.lit, isPositive, isNegative]
  omega

theorem isPositive_neg (l : Lit) : l.neg.isPositive = !l.isPositive := by
  have := l.ne_zero
  by_cases negative : l.number < 0 <;> simp [neg, isPositive, isNegative, negative] <;> omega

end Lit

end SatSession
