import SatSession.Formula

set_option autoImplicit false

namespace SatSession.Cnf

structure Literal where
  var : Nat
  positive : Bool
deriving DecidableEq

abbrev Clause := List Literal

abbrev Valuation := Nat → Bool

namespace Literal

def neg (l : Literal) : Literal := ⟨l.var, !l.positive⟩

def ofLit (l : Lit) : Literal := ⟨l.var.number, l.isPositive⟩

def number (l : Literal) : Int := if l.positive then l.var else -l.var

def holds (v : Valuation) (l : Literal) : Bool := v l.var == l.positive

@[simp] theorem neg_neg (l : Literal) : l.neg.neg = l := by
  simp [neg]

@[simp] theorem holds_neg (v : Valuation) (l : Literal) : l.neg.holds v = !l.holds v := by
  cases hp : l.positive <;> cases hv : v l.var <;> simp [neg, holds, hp, hv]

theorem number_ofLit (l : Lit) : (ofLit l).number = l.number := l.number_eq.symm

theorem neg_ne (l : Literal) : l.neg ≠ l := by
  cases l with
  | mk n b => cases b <;> simp [neg]

end Literal

def ofClause (c : SatSession.Clause) : Clause := c.map .ofLit

def ofClauses (cs : List SatSession.Clause) : List Clause := cs.map ofClause

def Clause.holds (v : Valuation) (c : Clause) : Bool := c.any (·.holds v)

def holdsAll (v : Valuation) (cs : List Clause) : Bool := cs.all (·.holds v)

def Satisfiable (cs : List Clause) : Prop := ∃ v, holdsAll v cs = true

def units (ls : List Literal) : List Clause := ls.map ([·])

theorem holdsAll_append (v : Valuation) (cs ds : List Clause) :
    holdsAll v (cs ++ ds) = (holdsAll v cs && holdsAll v ds) := by
  simp [holdsAll]

theorem holdsAll_units (v : Valuation) (ls : List Literal) :
    holdsAll v (units ls) = ls.all (·.holds v) := by
  simp [holdsAll, units, Clause.holds, Function.comp_def]

end SatSession.Cnf
