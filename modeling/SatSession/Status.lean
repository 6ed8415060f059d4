set_option autoImplicit false

namespace SatSession

inductive Status where
  | unknown
  | satisfiable
  | unsatisfiable
deriving DecidableEq

namespace Status

def code : Status → Int
  | unknown => 0
  | satisfiable => 10
  | unsatisfiable => 20

def ofCode? : Int → Option Status
  | 0 => some unknown
  | 10 => some satisfiable
  | 20 => some unsatisfiable
  | _ => none

def text : Status → String
  | unknown => "Unknown"
  | satisfiable => "Satisfiable"
  | unsatisfiable => "Unsatisfiable"

theorem ofCode?_code (s : Status) : ofCode? s.code = some s := by
  cases s <;> rfl

theorem code_of_ofCode? {c : Int} {s : Status} (h : ofCode? c = some s) : s.code = c := by
  unfold ofCode? at h
  split at h <;> simp_all <;> subst h <;> rfl

end Status

end SatSession
