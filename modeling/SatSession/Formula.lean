import SatSession.Literal

/-!
Formulas in conjunctive normal form, as an append only clause log. All literals share one array;
clause `i` ends at `ends[i]` and starts where its predecessor ended. Literals that follow the last
end belong to no clause yet. The main statements are `clauses_add`: adding a clause appends it to
the list of clauses, and `eq_of_clauses`: that list and the number of variables determine a formula.
-/

set_option autoImplicit false

namespace SatSession

abbrev Clause := List Lit

def Clause.maxVar (c : Clause) : Nat := c.foldl (fun n l => max n l.var.number) 0

theorem Clause.le_foldl_max (c : Clause) (n : Nat) :
    n ≤ c.foldl (fun n l => max n l.var.number) n := by
  induction c generalizing n with
  | nil => exact Nat.le_refl n
  | cons l c ih => exact Nat.le_trans (Nat.le_max_left ..) (ih _)

theorem Clause.le_maxVar {c : Clause} {l : Lit} (h : l ∈ c) : l.var.number ≤ c.maxVar := by
  have key : ∀ n, l.var.number ≤ c.foldl (fun n l => max n l.var.number) n := by
    induction c with
    | nil => simp at h
    | cons k c ih =>
        intro n
        rcases List.mem_cons.mp h with rfl | h
        · exact Nat.le_trans (Nat.le_max_right ..) (Clause.le_foldl_max c _)
        · exact ih h _
  exact key 0

def Clause.ready {ε : Type} (c : Clause) : Outcome ε (List (Outcome ε Lit)) := .ok (c.map .ok)

-- How a caller makes literals of the numbers of a clause: all of them before it hands over the
-- clause, or each one when the formula asks for it.
inductive Conversion where
  | whole
  | gradual
deriving DecidableEq

def Conversion.literals {ε : Type} (v : Conversion) (ns : List Int) :
    Outcome ε (List (Outcome ε Lit)) :=
  match v with
  | .whole => do
      let ls ← Lit.ofNumbers ns
      Clause.ready ls
  | .gradual => .ok (ns.map Lit.ofNumber)

structure Storage where
  varCount : Nat
  literals : Array Lit
  ends : Array Nat
  ends_le : ∀ e ∈ ends, e ≤ literals.size
  sorted : ends.toList.Pairwise (· ≤ ·)
deriving DecidableEq

namespace Storage

def empty : Storage := ⟨0, #[], #[], by simp, by simp⟩

instance : Inhabited Storage := ⟨empty⟩

def size (s : Storage) : Nat := s.ends.size

def literalCount (s : Storage) : Nat := s.literals.size

def reserve (s : Storage) (n : Nat) : Storage := { s with varCount := max s.varCount n }

def append (s : Storage) (c : Clause) : Storage :=
  { s with
    literals := s.literals ++ c.toArray
    ends_le := by
      intro e h
      have := s.ends_le e h
      simp; omega }

def close (s : Storage) (start : Nat) : Storage :=
  { s with
    varCount := max s.varCount (Clause.maxVar (s.literals.extract start s.literals.size).toList)
    ends := s.ends.push s.literals.size
    ends_le := by
      intro e h
      rcases Array.mem_push.mp h with h | rfl
      · exact s.ends_le e h
      · exact Nat.le_refl _
    sorted := by
      simp only [Array.toList_push, List.pairwise_append, s.sorted, List.pairwise_singleton,
        true_and]
      intro e h e' h'
      have := s.ends_le e (by simpa using h)
      simp at h'
      omega }

-- Asks for the literals of a clause one by one. One that panics leaves those before it behind.
def take {ε : Type} : List (Outcome ε Lit) → Step Storage ε Unit
  | [] => pure ()
  | l :: ls => do
      let l ← Step.ofOutcome l
      Step.modify (·.append [l])
      take ls

def add {ε : Type} (ls : List (Outcome ε Lit)) : Step Storage ε Unit := do
  let s ← Step.get
  take ls
  Step.modify (·.close s.literals.size)

-- A clause may also panic before it gives any of its literals.
def extend {ε : Type} : List (Outcome ε (List (Outcome ε Lit))) → Step Storage ε Unit
  | [] => pure ()
  | c :: cs => do
      let ls ← Step.ofOutcome c
      add ls
      extend cs

def replace {ε : Type} (cs : List (Outcome ε (List (Outcome ε Lit)))) : Step Storage ε Unit :=
  fun s =>
    match extend cs empty with
    | (.ok (), t) => (.ok (), t)
    | (r, _) => (r, s)

def start (s : Storage) : Nat → Nat
  | 0 => 0
  | i + 1 => s.ends.getD i 0

-- The literals between the start and the end of clause `i`; of no meaning past the last one.
def slice (s : Storage) (i : Nat) : Clause :=
  (s.literals.extract (s.start i) (s.ends.getD i 0)).toList

def stray (s : Storage) : Clause := s.literals.toList.drop (s.start s.size)

def clause? (s : Storage) (i : Nat) : Option Clause :=
  if i < s.size then some (s.slice i) else none

def clause {ε : Type} (s : Storage) (i : Nat) : Outcome ε Clause :=
  match s.clause? i with
  | some c => .ok c
  | none => .panic .outOfRange

def clauses (s : Storage) : List Clause := (List.range s.size).map s.slice

def next? (s : Storage) (i : Nat) : Option (Clause × Nat) := (s.clause? i).map (·, i + 1)

def remaining (s : Storage) (i : Nat) : Nat := s.size - i

instance : BEq Storage :=
  ⟨fun s t => s.varCount == t.varCount && s.ends == t.ends && s.literals == t.literals⟩

def text (s : Storage) : String :=
  toString s.varCount ++ " vars [" ++ ", ".intercalate (s.clauses.map fun c =>
    "[" ++ ", ".intercalate (c.map Lit.text) ++ "]") ++ "]"

variable {s t : Storage}

@[simp] theorem length_clauses (s : Storage) : s.clauses.length = s.size := by
  simp [clauses]

theorem start_le_start (s : Storage) {i : Nat} (h : i < s.size) :
    s.start i ≤ s.start (i + 1) ∧ s.start (i + 1) ≤ s.literals.size := by
  have hi : i < s.ends.size := h
  have last : s.start (i + 1) = s.ends[i] := by simp [start, Array.getD, hi]
  rw [last]
  refine ⟨?_, s.ends_le _ (Array.getElem_mem hi)⟩
  cases i with
  | zero => exact Nat.zero_le _
  | succ i =>
      have sorted := List.pairwise_iff_getElem.mp s.sorted i (i + 1) (by simp; omega) hi (by omega)
      simpa [start, Array.getD, Nat.lt_of_succ_lt hi] using sorted

theorem start_size_le (s : Storage) : s.start s.size ≤ s.literals.size := by
  cases h : s.size with
  | zero => exact Nat.zero_le _
  | succ n => exact (s.start_le_start (by omega)).2

theorem slice_eq (s : Storage) (i : Nat) : s.slice i =
    (s.literals.toList.drop (s.start i)).take (s.start (i + 1) - s.start i) := by
  rw [slice, Array.toList_extract, List.extract_eq_take_drop]
  rfl

theorem start_succ (s : Storage) {i : Nat} (h : i < s.size) :
    s.start (i + 1) = s.start i + (s.slice i).length := by
  have order := s.start_le_start h
  rw [slice_eq, List.length_take, List.length_drop, Array.length_toList]
  omega

theorem take_start (s : Storage) {i : Nat} (h : i ≤ s.size) :
    s.literals.toList.take (s.start i) = (s.clauses.take i).flatten := by
  induction i with
  | zero => simp [start]
  | succ i ih =>
      have clause : s.clauses[i]? = some (s.slice i) := by simp [clauses, Nat.lt_of_succ_le h]
      have order := (s.start_le_start h).1
      have cut : s.start (i + 1) = s.start i + (s.start (i + 1) - s.start i) := by omega
      rw [cut, List.take_add, ih (Nat.le_of_succ_le h), ← slice_eq, List.take_add_one, clause]
      simp

theorem flatten_clauses (s : Storage) : s.clauses.flatten ++ s.stray = s.literals.toList := by
  have all := s.take_start (Nat.le_refl _)
  rw [← length_clauses, List.take_length, length_clauses] at all
  rw [← all, stray, List.take_append_drop]

theorem eq_of_clauses (count : s.varCount = t.varCount) (same : s.clauses = t.clauses)
    (rest : s.stray = t.stray) : s = t := by
  have size : s.size = t.size := by rw [← length_clauses, same, length_clauses]
  have slices {i : Nat} (h : i < s.size) : s.slice i = t.slice i := by
    have entry := congrArg (·[i]?) same
    simpa [clauses, h, ← size] using entry
  have starts {i : Nat} (h : i ≤ s.size) : s.start i = t.start i := by
    induction i with
    | zero => rfl
    | succ i ih => rw [start_succ s h, start_succ t (size ▸ h), ih (Nat.le_of_succ_le h), slices h]
  have literals : s.literals = t.literals :=
    Array.toList_inj.mp (by rw [← flatten_clauses, same, rest, flatten_clauses])
  have ends : s.ends = t.ends := by
    refine Array.ext size fun i hs ht => ?_
    have entry := starts (i := i + 1) hs
    simpa [start, Array.getD, hs, ht] using entry
  cases s
  cases t
  simp_all

theorem append_nil (s : Storage) : s.append [] = s := by
  simp [append]

theorem append_append (s : Storage) (c d : Clause) : (s.append c).append d = s.append (c ++ d) := by
  simp [append]

@[simp] theorem clauses_append (s : Storage) (c : Clause) : (s.append c).clauses = s.clauses := by
  refine List.map_congr_left fun i h => ?_
  have order := s.start_le_start (List.mem_range.mp h)
  have starts (j : Nat) : (s.append c).start j = s.start j := by cases j <;> rfl
  have literals : (s.append c).literals.toList = s.literals.toList ++ c := by simp [append]
  have inside : s.start i ≤ s.literals.toList.length := by
    rw [Array.length_toList]
    omega
  rw [slice_eq, slice_eq, starts, starts, literals, List.drop_append_of_le_length inside,
    List.take_append_of_le_length]
  rw [List.length_drop, Array.length_toList]
  omega

@[simp] theorem stray_append (s : Storage) (c : Clause) : (s.append c).stray = s.stray ++ c := by
  have starts : (s.append c).start (s.append c).size = s.start s.size := by
    unfold size append
    cases s.ends.size <;> rfl
  have literals : (s.append c).literals.toList = s.literals.toList ++ c := by simp [append]
  rw [stray, starts, literals, List.drop_append_of_le_length, stray]
  rw [Array.length_toList]
  exact s.start_size_le

theorem start_close (s : Storage) (n : Nat) {i : Nat} (h : i ≤ s.size) :
    (s.close n).start i = s.start i := by
  cases i with
  | zero => rfl
  | succ i =>
      have hi : i < s.ends.size := h
      simp [start, close, Array.getD, hi, Nat.lt_succ_of_lt hi, Array.getElem_push_lt hi]

theorem start_close_size (s : Storage) (n : Nat) :
    (s.close n).start (s.size + 1) = s.literals.size := by
  simp [start, close, size, Array.getD]

@[simp] theorem clauses_close (s : Storage) (n : Nat) :
    (s.close n).clauses = s.clauses ++ [s.stray] := by
  have size : (s.close n).size = s.size + 1 := by simp [Storage.size, close]
  have literals : (s.close n).literals = s.literals := rfl
  rw [clauses, size, List.range_succ, List.map_append, List.map_singleton]
  congr 1
  · refine List.map_congr_left fun i h => ?_
    have inside : i < s.size := List.mem_range.mp h
    rw [slice_eq, slice_eq, start_close s n inside, start_close s n (Nat.le_of_lt inside), literals]
  · have all : s.stray.length ≤ s.literals.size - s.start s.size := by simp [stray]
    rw [slice_eq, start_close s n (Nat.le_refl _), start_close_size, literals]
    exact congrArg ([·]) (List.take_of_length_le all)

@[simp] theorem stray_close (s : Storage) (n : Nat) : (s.close n).stray = [] := by
  have size : (s.close n).size = s.size + 1 := by simp [Storage.size, close]
  rw [stray, size, start_close_size]
  exact List.drop_eq_nil_of_le (Nat.le_refl _)

-- Only what this clause was given counts, not what it began with.
theorem varCount_close (s : Storage) (c : Clause) :
    ((s.append c).close s.literals.size).varCount = max s.varCount c.maxVar := by
  have taken : ((s.literals ++ c.toArray).extract s.literals.size
      (s.literals ++ c.toArray).size).toList = c := by simp
  exact congrArg (fun c => max s.varCount (Clause.maxVar c)) taken

theorem take_literals {ε : Type} (c : Clause) (s : Storage) :
    (take (c.map .ok) : Step Storage ε Unit) s = (.ok (), s.append c) := by
  induction c generalizing s with
  | nil => exact congrArg (Prod.mk _) s.append_nil.symm
  | cons l c ih =>
    have rest := ih (s.append [l])
    rwa [append_append] at rest

end Storage

/-- A formula that was never left with literals that belong to no clause. -/
structure Formula extends Storage where
  closed : toStorage.stray = []
  covered : ∀ l ∈ literals, l.var.number ≤ varCount
deriving DecidableEq

namespace Formula

def empty : Formula := ⟨.empty, rfl, by simp [Storage.empty]⟩

instance : Inhabited Formula := ⟨empty⟩

def reserve (f : Formula) (n : Nat) : Formula :=
  { f.toStorage.reserve n with
    closed := f.closed
    covered := fun l h => Nat.le_trans (f.covered l h) (Nat.le_max_left ..) }

def add (f : Formula) (c : Clause) : Formula :=
  { (f.toStorage.append c).close f.literals.size with
    closed := Storage.stray_close ..
    covered := by
      intro l h
      rw [Storage.varCount_close]
      have held : l ∈ f.literals ++ c.toArray := h
      rcases Array.mem_append.mp held with h | h
      · exact Nat.le_trans (f.covered l h) (Nat.le_max_left ..)
      · exact Nat.le_trans (Clause.le_maxVar (by simpa using h)) (Nat.le_max_right ..) }

def extend (f : Formula) (cs : List Clause) : Formula := cs.foldl add f

def ofClauses (cs : List Clause) : Formula := empty.extend cs

@[simp] theorem size_empty : empty.size = 0 := rfl

@[simp] theorem clauses_empty : empty.clauses = [] := rfl

theorem varCount_add (f : Formula) (c : Clause) : (f.add c).varCount = max f.varCount c.maxVar :=
  f.toStorage.varCount_close c

theorem varCount_add_le_iff {f : Formula} {c : Clause} {n : Nat} :
    (f.add c).varCount ≤ n ↔ f.varCount ≤ n ∧ c.maxVar ≤ n := by
  rw [varCount_add, Nat.max_le]

@[simp] theorem clauses_add (f : Formula) (c : Clause) :
    (f.add c).clauses = f.clauses ++ [c] := by
  have closed : (f.add c).clauses = _ := (f.toStorage.append c).clauses_close f.literals.size
  rw [closed, Storage.clauses_append, Storage.stray_append, f.closed, List.nil_append]

@[simp] theorem size_add (f : Formula) (c : Clause) : (f.add c).size = f.size + 1 := by
  rw [← Storage.length_clauses, clauses_add, List.length_append, Storage.length_clauses,
    List.length_singleton]

theorem clauses_extend (f : Formula) (cs : List Clause) :
    (f.extend cs).clauses = f.clauses ++ cs := by
  unfold extend
  induction cs generalizing f with
  | nil => simp
  | cons c cs ih => rw [List.foldl_cons, ih, clauses_add, List.append_assoc, List.singleton_append]

@[simp] theorem clauses_ofClauses (cs : List Clause) : (ofClauses cs).clauses = cs := by
  rw [ofClauses, clauses_extend, clauses_empty, List.nil_append]

theorem add_literals {ε : Type} (f : Formula) (c : Clause) :
    (Storage.add (c.map .ok) : Step Storage ε Unit) f.toStorage = (.ok (), (f.add c).toStorage) := by
  rw [Storage.add, Step.bind_ok (Step.get_apply _), Step.bind_ok (Storage.take_literals c _)]
  rfl

theorem extend_literals {ε : Type} (f : Formula) (cs : List Clause) :
    (Storage.extend (cs.map Clause.ready) : Step Storage ε Unit) f.toStorage =
      (.ok (), (f.extend cs).toStorage) := by
  induction cs generalizing f with
  | nil => rfl
  | cons c cs ih => exact (Step.bind_ok (f.add_literals c) _).trans (ih (f.add c))

theorem flatten_clauses (f : Formula) : f.clauses.flatten = f.literals.toList := by
  rw [← f.toStorage.flatten_clauses, f.closed, List.append_nil]

theorem var_le_of_mem {f : Formula} {c : Clause} (listed : c ∈ f.clauses) {l : Lit} (mem : l ∈ c) :
    l.var.number ≤ f.varCount := by
  have held := List.mem_flatten.mpr ⟨c, listed, mem⟩
  rw [flatten_clauses, Array.mem_toList_iff] at held
  exact f.covered l held

theorem eq_of_clauses {f g : Formula} (count : f.varCount = g.varCount)
    (same : f.clauses = g.clauses) : f = g := by
  have storage := Storage.eq_of_clauses count same (f.closed.trans g.closed.symm)
  cases f
  cases g
  cases storage
  rfl

end Formula

end SatSession
