import SatSession.Config

set_option autoImplicit false

namespace SatSession.Config

def names : List String :=
  ["propagation_limit", "output", "verbosity", "prefix", "measure_all_calls",
    "enable_trace_generation"]

inductive Setting where
  | number (n : Nat)
  | output (o : Output)
  | text (s : String)
  | flag (b : Bool)
deriving DecidableEq

def setting? (c : Config) : String → Option Setting
  | "propagation_limit" => some (.number c.propagationLimit)
  | "output" => some (.output c.output)
  | "verbosity" => some (.number c.verbosity)
  | "prefix" => some (.text c.lead)
  | "measure_all_calls" => some (.flag c.measureAllCalls)
  | "enable_trace_generation" => some (.flag c.traceGeneration)
  | _ => none

def assign (c : Config) : String → Setting → Config
  | "propagation_limit", .number n => { c with propagationLimit := n }
  | "output", .output o => { c with output := o }
  | "verbosity", .number n => { c with verbosity := n }
  | "prefix", .text s => { c with lead := s }
  | "measure_all_calls", .flag b => { c with measureAllCalls := b }
  | "enable_trace_generation", .flag b => { c with traceGeneration := b }
  | _, _ => c

def insertEntry {V : Type} (k : String) (v : V) : List (String × V) → List (String × V)
  | [] => [(k, v)]
  | (k', v') :: es => if k' = k then (k, v) :: es else (k', v') :: insertEntry k v es

section Entries

variable {V : Type} {es : List (String × V)} {k : String} {v : V}

theorem lookup_insertEntry (k k' : String) (v : V) (es : List (String × V)) :
    (insertEntry k v es).lookup k' = if k' = k then some v else es.lookup k' := by
  induction es with
  | nil =>
      by_cases h : k' = k
      · simp [insertEntry, h]
      · simp [insertEntry, List.lookup_cons, h, beq_false_of_ne h]
  | cons e es ih =>
      obtain ⟨k₀, v₀⟩ := e
      by_cases h₀ : k₀ = k
      · subst h₀
        by_cases h : k' = k₀
        · simp [insertEntry, h]
        · simp [insertEntry, List.lookup_cons, h, beq_false_of_ne h]
      · by_cases h : k' = k₀
        · subst h
          simp [insertEntry, h₀]
        · simp [insertEntry, h₀, List.lookup_cons, beq_false_of_ne h, ih]

theorem mem_insertEntry {k' : String} :
    k' ∈ (insertEntry k v es).map Prod.fst ↔ k' = k ∨ k' ∈ es.map Prod.fst := by
  induction es with
  | nil => simp [insertEntry]
  | cons e es ih =>
    unfold insertEntry
    split
    next same =>
      subst same
      simp
    next => simp [ih, or_left_comm]

theorem distinct_insertEntry (distinct : (es.map Prod.fst).Nodup) (k : String) (v : V) :
    ((insertEntry k v es).map Prod.fst).Nodup := by
  induction es with
  | nil => simp [insertEntry]
  | cons e es ih =>
    obtain ⟨new, rest⟩ := List.nodup_cons.mp distinct
    unfold insertEntry
    split
    next same =>
      subst same
      exact distinct
    next other =>
      refine List.nodup_cons.mpr ⟨fun member => ?_, ih rest⟩
      rcases mem_insertEntry.mp member with same | later
      · exact other same
      · exact new later

end Entries

structure Table (V : Type) where
  entries : List (String × V)
  distinct : (entries.map Prod.fst).Nodup

namespace Table

variable {V : Type}

def empty : Table V := ⟨[], by simp⟩

-- The value given last wins.
def insert (t : Table V) (k : String) (v : V) : Table V :=
  ⟨insertEntry k v t.entries, distinct_insertEntry t.distinct k v⟩

def extend (t : Table V) (es : List (String × V)) : Table V :=
  es.foldl (fun t (k, v) => t.insert k v) t

def get? (t : Table V) (k : String) : Option V := t.entries.lookup k

theorem get?_insert (t : Table V) (k k' : String) (v : V) :
    (t.insert k v).get? k' = if k' = k then some v else t.get? k' :=
  lookup_insertEntry k k' v t.entries

end Table

structure Reading (V : Type) where
  integer? : V → Option Int
  bool? : V → Option Bool
  text? : V → Option String
  choice? : V → Option String

namespace Reading

variable {V : Type} (R : Reading V)

def natBelow? (bound : Nat) (v : V) : Option Nat :=
  (R.integer? v).bind fun n => if 0 ≤ n ∧ n < bound then some n.toNat else none

def setting? (v : V) : String → Option Setting
  | "propagation_limit" => (R.natBelow? (Nat.pow 2 64) v).map .number
  | "output" => ((R.choice? v).bind Output.ofName?).map .output
  | "verbosity" => (R.natBelow? (Nat.pow 2 32) v).map .number
  | "prefix" => (R.text? v).map .text
  | "measure_all_calls" => (R.bool? v).map .flag
  | "enable_trace_generation" => (R.bool? v).map .flag
  | _ => none

def set? (c : Config) (k : String) (v : V) : Option Config := (R.setting? v k).map (c.assign k)

def setAll? (c : Config) (es : List (String × V)) : Option Config :=
  es.foldlM (fun c (k, v) => R.set? c k v) c

end Reading

structure Format where
  Value : Type
  ofBool : Bool → Value
  reading : Reading Value
  read? : String → Option (Table Value)
  config? : Table Value → Option Config

/-- What is documented of a format: unknown options are denied, values are checked against their
types as declared, and options that are not given have their defaults. -/
structure Format.Documented (F : Format) : Prop where
  ofBool (b : Bool) : F.reading.bool? (F.ofBool b) = some b
  denied {t : Table F.Value} {c : Config} {k : String} {v : F.Value} :
    F.config? t = some c → t.get? k = some v → k ∈ names
  given {t : Table F.Value} {c : Config} {k : String} {v : F.Value} :
    F.config? t = some c → t.get? k = some v → c.setting? k = F.reading.setting? v k
  defaults {t : Table F.Value} {c : Config} {k : String} :
    F.config? t = some c → t.get? k = none → c.setting? k = setting? {} k
  accepted {t : Table F.Value} :
    (∀ k v, t.get? k = some v → ∃ x, F.reading.setting? v k = some x) → ∃ c, F.config? t = some c

end SatSession.Config
