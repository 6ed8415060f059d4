import Mathlib.Data.List.TakeWhile
import SatSession.Proofs.ClauseLog

set_option autoImplicit false

namespace SatSession

namespace Storage

inductive Edit where
  | start
  | add (v : Conversion) (numbers : List Int)
  | reserve (count : Nat)
  | extend (v : Conversion) (clauses : List (List Int))
  | replace (v : Conversion) (clauses : List (List Int))
  | rebuild

theorem clause?_eq (s : Storage) (i : Nat) : s.clause? i = s.clauses[i]? := by
  unfold clause? clauses
  by_cases inside : i < s.size <;> simp [inside]

theorem next?_eq_some {s : Storage} {i j : Nat} {c : Clause} (next : s.next? i = some (c, j)) :
    j = i + 1 ∧ i < s.size := by
  simp only [next?, Option.map_eq_some_iff, Prod.mk.injEq] at next
  obtain ⟨c', found, -, rfl⟩ := next
  refine ⟨rfl, Nat.lt_of_not_le fun outside => ?_⟩
  simp [clause?, Nat.not_lt.mpr outside] at found

def traverse (s : Storage) (i : Nat) : List (Nat × Clause) :=
  match _next : s.next? i with
  | none => []
  | some (c, j) => (s.remaining i, c) :: s.traverse j
termination_by s.remaining i
decreasing_by
  obtain ⟨rfl, inside⟩ := next?_eq_some _next
  unfold remaining
  omega

def Edit.perform : Edit → Step Storage Empty Unit
  | .start => Step.modify fun _ => .empty
  | .add v ns => do
      let ls ← Step.ofOutcome (v.literals ns)
      Storage.add ls
  | .reserve n => Step.modify (·.reserve n)
  | .extend v cs => Storage.extend (cs.map v.literals)
  | .replace v cs => Storage.replace (cs.map v.literals)
  | .rebuild => do
      let s ← Step.get
      Storage.replace ((s.traverse 0).map fun x => Clause.ready x.2)

def formed (es : List Edit) : Storage := es.foldl (fun s e => (e.perform s).2) .empty

/-- What a formula was made from: the counts of variables asked for, its clauses, the numbers that
the accepted clauses were given with, and those that a refused clause left behind. -/
structure Outline where
  counts : List Nat := []
  clauses : List (List Int) := []
  given : List Int := []
  stray : List Int := []

end Storage

def IsLiteral (n : Int) : Prop := n ≠ 0 ∧ n.natAbs ≤ maxVar

instance : DecidablePred IsLiteral := fun n => inferInstanceAs (Decidable (n ≠ 0 ∧ _))

def firstOther (ns : List Int) : Option Int := ns.find? fun n => ¬ IsLiteral n

namespace Storage

namespace Outline

def varCount (o : Outline) : Nat := max (o.counts.foldr max 0) (Dimacs.largest o.given)

def take (o : Outline) (v : Conversion) (ns : List Int) : Outline :=
  if firstOther ns = none then
    { o with clauses := o.clauses ++ [o.stray ++ ns], given := o.given ++ ns, stray := [] }
  else
    match v with
    | .whole => o
    | .gradual => { o with stray := o.stray ++ ns.takeWhile (IsLiteral ·) }

-- Nothing is taken after the first clause that is refused.
def takeAll (o : Outline) (v : Conversion) : List (List Int) → Outline
  | [] => o
  | c :: cs => if firstOther c = none then (o.take v c).takeAll v cs else o.take v c

def after (o : Outline) : Edit → Outline
  | .start => {}
  | .add v ns => o.take v ns
  | .reserve n => { o with counts := n :: o.counts }
  | .extend v cs => o.takeAll v cs
  | .replace _ cs => if firstOther cs.flatten = none then { clauses := cs, given := cs.flatten } else o
  | .rebuild => { clauses := o.clauses, given := o.clauses.flatten }

end Outline

def outlined (es : List Edit) : Outline := es.foldl Outline.after {}

def answerTo (refused : Option Int) : Outcome Empty Unit :=
  match refused with
  | none => .ok ()
  | some n => .panic (.text (toString n ++ " is not a literal"))

def Edit.refused : Edit → Option Int
  | .add _ ns => firstOther ns
  | .extend _ cs | .replace _ cs => firstOther cs.flatten
  | .start | .reserve _ | .rebuild => none

-- All numbers are literals, or the caller finds out before the formula is asked to take them.
def Edit.Whole : Edit → Prop
  | .add v ns => v = .whole ∨ firstOther ns = none
  | .extend v cs => v = .whole ∨ firstOther cs.flatten = none
  | .start | .reserve _ | .replace _ _ | .rebuild => True

def countdown {α : Type} : List α → List (Nat × α)
  | [] => []
  | a :: as => (as.length + 1, a) :: countdown as

/-- The formula reads back as the outline, through everything it can be asked. -/
structure Reads (s : Storage) (o : Outline) : Prop where
  varCount : s.varCount = o.varCount
  clauses : s.clauses.map (·.map Lit.number) = o.clauses
  stray : s.stray.map Lit.number = o.stray
  size : s.size = o.clauses.length
  literalCount : s.literalCount = (o.clauses.flatten ++ o.stray).length
  found : ∀ i ns, o.clauses[i]? = some ns →
    ∃ c, (s.clause i : Outcome Empty Clause) = .ok c ∧ c.map Lit.number = ns
  outside : ∀ i, o.clauses.length ≤ i → (s.clause i : Outcome Empty Clause) = .panic .outOfRange
  traversed : ∀ i, (s.traverse i).map (Prod.map id (·.map Lit.number)) =
    countdown (o.clauses.drop i)
  remaining : ∀ i, s.remaining i = (o.clauses.drop i).length

variable {s t : Storage} {o p : Outline}

theorem traverse_eq (s : Storage) (i : Nat) : s.traverse i = countdown (s.clauses.drop i) := by
  induction h : s.size - i generalizing i with
  | zero =>
    have outside : s.clauses.length ≤ i := by rw [length_clauses]; omega
    rw [traverse, List.drop_eq_nil_of_le outside]
    split
    next => rfl
    next c j next => exact absurd (next?_eq_some next).2 (by rw [length_clauses] at outside; omega)
  | succ n ih =>
    have inside : i < s.clauses.length := by rw [length_clauses]; omega
    have next : s.next? i = some (s.clauses[i], i + 1) := by
      rw [next?, clause?_eq, List.getElem?_eq_getElem inside, Option.map_some]
    rw [traverse, List.drop_eq_getElem_cons inside]
    split
    next none => rw [next] at none; cases none
    next c j some =>
      obtain ⟨rfl, rfl⟩ := Prod.mk.inj (Option.some.inj (next.symm.trans some))
      rw [ih (i + 1) (by omega), countdown, List.length_drop, length_clauses, Storage.remaining]
      congr 2
      omega

theorem map_countdown {α β : Type} (h : α → β) (as : List α) :
    (countdown as).map (Prod.map id h) = countdown (as.map h) := by
  induction as with
  | nil => rfl
  | cons a as ih => simp only [countdown, List.map_cons, ih, List.length_map, Prod.map, id]

theorem map_snd_countdown {α : Type} (as : List α) : (countdown as).map Prod.snd = as := by
  induction as with
  | nil => rfl
  | cons a as ih => rw [countdown, List.map_cons, ih]

theorem Reads.of (varCount : s.varCount = o.varCount)
    (clauses : s.clauses.map (·.map Lit.number) = o.clauses)
    (stray : s.stray.map Lit.number = o.stray) : s.Reads o where
  varCount := varCount
  clauses := clauses
  stray := stray
  size := by rw [← clauses, List.length_map, length_clauses]
  literalCount := by
    rw [← clauses, ← stray, ← List.map_flatten, ← List.map_append, List.length_map, flatten_clauses]
    rfl
  found := by
    intro i ns held
    rw [← clauses, List.getElem?_map, Option.map_eq_some_iff] at held
    obtain ⟨c, at_i, rfl⟩ := held
    exact ⟨c, by rw [clause, clause?_eq, at_i], rfl⟩
  outside := by
    intro i past
    rw [← clauses, List.length_map] at past
    rw [clause, clause?_eq, List.getElem?_eq_none past]
  traversed := by
    intro i
    rw [traverse_eq, map_countdown, List.map_drop, clauses]
  remaining := by
    intro i
    rw [← clauses, List.length_drop, List.length_map, length_clauses]
    rfl

theorem isLiteral_iff {n : Int} : IsLiteral n ↔ Lit.ofNumber? n ≠ none := by
  rw [ne_eq, Lit.ofNumber?_eq_none, IsLiteral]
  omega

theorem firstOther_eq_none {ns : List Int} : firstOther ns = none ↔ ∀ n ∈ ns, IsLiteral n := by
  simp [firstOther]

theorem firstOther_flatten {cs : List (List Int)} :
    firstOther cs.flatten = none ↔ ∀ c ∈ cs, firstOther c = none := by
  simp only [firstOther_eq_none, List.forall_mem_flatten]

theorem firstOther_append (ms ns : List Int) :
    firstOther (ms ++ ns) = (firstOther ms).or (firstOther ns) := List.find?_append

theorem firstOther_takeWhile (ns : List Int) : firstOther (ns.takeWhile (IsLiteral ·)) = none :=
  firstOther_eq_none.mpr fun n hn => by simpa using List.mem_takeWhile_imp hn

theorem map_number {ns : List Int} (valid : firstOther ns = none) :
    (Clause.ofNumbers ns).map Lit.number = ns :=
  Clause.map_number_ofNumbers fun n hn => isLiteral_iff.mp (firstOther_eq_none.mp valid n hn)

theorem ofNumber_cases (n : Int) (ns : List Int) :
    (∃ l, Lit.ofNumber? n = some l ∧ IsLiteral n ∧ firstOther (n :: ns) = firstOther ns) ∨
      (Lit.ofNumber? n = none ∧ ¬IsLiteral n ∧ firstOther (n :: ns) = some n) := by
  cases known : Lit.ofNumber? n with
  | some l =>
    have literal : IsLiteral n := isLiteral_iff.mpr (known ▸ Option.some_ne_none l)
    exact .inl ⟨l, rfl, literal, List.find?_cons_of_neg (by simpa using literal)⟩
  | none =>
    have other : ¬IsLiteral n := fun literal => isLiteral_iff.mp literal known
    exact .inr ⟨rfl, other, List.find?_cons_of_pos (by simpa using other)⟩

theorem ofNumbers_answer (ns : List Int) :
    (Lit.ofNumbers ns : Outcome Empty Clause) =
      (do let _ ← answerTo (firstOther ns); pure (Clause.ofNumbers ns)) := by
  induction ns with
  | nil => rfl
  | cons n ns ih =>
    rw [Lit.ofNumbers, Lit.ofNumber]
    rcases ofNumber_cases n ns with ⟨l, known, -, first⟩ | ⟨unknown, -, first⟩
    · have joined : Clause.ofNumbers (n :: ns) = l :: Clause.ofNumbers ns := by
        simp [Clause.ofNumbers, known]
      rw [known, first, Outcome.bind_ok, ih, joined]
      cases firstOther ns <;> rfl
    · rw [unknown, first]
      rfl

theorem take_numbers (ns : List Int) (s : Storage) :
    (take (ns.map Lit.ofNumber) : Step Storage Empty Unit) s =
      (answerTo (firstOther ns), s.append (Clause.ofNumbers (ns.takeWhile (IsLiteral ·)))) := by
  induction ns generalizing s with
  | nil => exact congrArg (Prod.mk _) s.append_nil.symm
  | cons n ns ih =>
    rw [List.map_cons, take, Step.bind_apply, Lit.ofNumber]
    rcases ofNumber_cases n ns with ⟨l, known, literal, first⟩ | ⟨unknown, other, first⟩
    · have joined : Clause.ofNumbers (n :: ns.takeWhile (IsLiteral ·)) =
          [l] ++ Clause.ofNumbers (ns.takeWhile (IsLiteral ·)) := by
        simp [Clause.ofNumbers, known]
      rw [known, first, List.takeWhile_cons_of_pos (by simpa using literal), joined, ← append_append]
      exact ih (s.append [l])
    · rw [unknown, first, List.takeWhile_cons_of_neg (by simpa using other)]
      exact congrArg (Prod.mk _) s.append_nil.symm

def taken (s : Storage) (v : Conversion) (ns : List Int) : Storage :=
  if firstOther ns = none then (s.append (Clause.ofNumbers ns)).close s.literals.size
  else
    match v with
    | .whole => s
    | .gradual => s.append (Clause.ofNumbers (ns.takeWhile (IsLiteral ·)))

theorem add_perform (s : Storage) (v : Conversion) (ns : List Int) :
    (Edit.add v ns).perform s = (answerTo (firstOther ns), s.taken v ns) := by
  unfold taken
  cases v with
  | whole =>
    rw [Edit.perform, Conversion.literals, ofNumbers_answer]
    cases firstOther ns with
    | none =>
      change (add ((Clause.ofNumbers ns).map .ok) : Step Storage Empty Unit) s = _
      rw [add, Step.bind_ok (Step.get_apply _), Step.bind_ok (take_literals _ _)]
      rfl
    | some n => rfl
  | gradual =>
    change (add (ns.map Lit.ofNumber) : Step Storage Empty Unit) s = _
    rw [add, Step.bind_ok (Step.get_apply _), Step.bind_apply, take_numbers]
    cases valid : firstOther ns with
    | none =>
      have all : ns.takeWhile (IsLiteral ·) = ns := List.takeWhile_eq_self_iff.mpr fun n hn =>
        decide_eq_true (firstOther_eq_none.mp valid n hn)
      rw [all]
      rfl
    | some n => rfl

theorem Reads.taken (held : s.Reads o) (v : Conversion) (ns : List Int) :
    (s.taken v ns).Reads (o.take v ns) := by
  unfold Storage.taken Outline.take
  split
  next valid =>
    refine .of ?_ ?_ ?_
    · rw [varCount_close, ← Dimacs.largest_number, map_number valid, held.varCount,
        Outline.varCount, Outline.varCount, Dimacs.largest_append, Nat.max_assoc]
    · rw [clauses_close, clauses_append, stray_append, List.map_append, held.clauses,
        List.map_singleton, List.map_append, held.stray, map_number valid]
    · rw [stray_close]
      rfl
  next =>
    cases v with
    | whole => exact held
    | gradual =>
      refine .of held.varCount ?_ ?_
      · rw [clauses_append]
        exact held.clauses
      · rw [stray_append, List.map_append, held.stray, map_number (firstOther_takeWhile ns)]

theorem extend_cons (s : Storage) (v : Conversion) (c : List Int) (cs : List (List Int)) :
    (Edit.extend v (c :: cs)).perform s = ((Edit.add v c).perform >>= fun _ =>
      (Edit.extend v cs).perform) s := by
  rw [Edit.perform, Edit.perform, List.map_cons, extend, Step.bind_apply, Step.bind_apply,
    Step.bind_apply]
  cases v.literals c <;> rfl

theorem Reads.extended (held : s.Reads o) (v : Conversion) (cs : List (List Int)) :
    ((Edit.extend v cs).perform s).1 = answerTo (firstOther cs.flatten) ∧
      ((Edit.extend v cs).perform s).2.Reads (o.takeAll v cs) := by
  induction cs generalizing s o with
  | nil => exact ⟨rfl, held⟩
  | cons c cs ih =>
    have first := held.taken v c
    rw [extend_cons, Step.bind_apply, add_perform, List.flatten_cons, firstOther_append,
      Outline.takeAll]
    cases valid : firstOther c with
    | none => exact ih first
    | some n => exact ⟨rfl, first⟩

theorem extend_refused (s : Storage) (v : Conversion) {cs : List (List Int)} {c : List Int}
    (ds : List (List Int)) {n : Int} (valid : ∀ b ∈ cs, firstOther b = none)
    (other : firstOther c = some n) : (Edit.extend v (cs ++ c :: ds)).perform s =
      (Edit.add v c).perform ((Edit.extend v cs).perform s).2 := by
  induction cs generalizing s with
  | nil =>
    rw [List.nil_append, extend_cons, Step.bind_apply, add_perform, other]
    exact (other ▸ add_perform s v c).symm
  | cons b cs ih =>
    obtain ⟨first, later⟩ := List.forall_mem_cons.mp valid
    rw [List.cons_append, extend_cons, extend_cons, Step.bind_apply, Step.bind_apply, add_perform,
      first]
    exact ih _ later

theorem empty_reads : empty.Reads {} := .of rfl rfl rfl

theorem Outline.takeAll_valid (o : Outline) (v : Conversion) {cs : List (List Int)}
    (valid : ∀ c ∈ cs, firstOther c = none) (clean : o.stray = []) :
    o.takeAll v cs =
      { o with clauses := o.clauses ++ cs, given := o.given ++ cs.flatten, stray := [] } := by
  induction cs generalizing o with
  | nil =>
    obtain ⟨counts, clauses, given, stray⟩ := o
    obtain rfl : stray = [] := clean
    simp [takeAll]
  | cons c cs ih =>
    obtain ⟨first, later⟩ := List.forall_mem_cons.mp valid
    rw [takeAll, if_pos first, ih _ later] <;> simp [take, first, clean]

-- A replacement begins with an empty formula; the old one stays if it is refused.
theorem Reads.replaced (held : s.Reads o) (v : Conversion) (cs : List (List Int)) :
    ((Edit.replace v cs).perform s).1 = answerTo (firstOther cs.flatten) ∧
      ((Edit.replace v cs).perform s).2.Reads (o.after (.replace v cs)) := by
  obtain ⟨answer, reads⟩ := empty_reads.extended v cs
  rcases extended : (Edit.extend v cs).perform empty with ⟨r, t⟩
  rw [extended] at answer reads
  obtain rfl : r = answerTo (firstOther cs.flatten) := answer
  rw [Edit.perform] at extended
  rw [Edit.perform, replace, extended, Outline.after]
  cases valid : firstOther cs.flatten with
  | none =>
    rw [Outline.takeAll_valid _ v (firstOther_flatten.mp valid) rfl] at reads
    exact ⟨rfl, reads⟩
  | some n => exact ⟨rfl, held⟩

theorem rebuild_perform (s : Storage) :
    Edit.rebuild.perform s = (.ok (), (Formula.ofClauses s.clauses).toStorage) := by
  have given : ((s.traverse 0).map fun x => (Clause.ready x.2 : Outcome Empty _)) =
      s.clauses.map Clause.ready := by
    have all : (s.traverse 0).map Prod.snd = s.clauses := by
      rw [traverse_eq, List.drop_zero, map_snd_countdown]
    rw [← all, List.map_map]
    rfl
  have made := Formula.extend_literals (ε := Empty) .empty s.clauses
  have start : Formula.empty.toStorage = empty := rfl
  rw [Edit.perform, Step.bind_ok (Step.get_apply _), given, replace, ← start, made]
  rfl

theorem varCount_ofClauses (cs : List Clause) : (Formula.ofClauses cs).varCount =
    Dimacs.largest (cs.map (·.map Lit.number)).flatten := by
  have extended (f : Formula) : (f.extend cs).varCount =
      max f.varCount (Dimacs.largest (cs.map (·.map Lit.number)).flatten) := by
    induction cs generalizing f with
    | nil => exact (Nat.max_zero _).symm
    | cons c cs ih =>
      rw [List.map_cons, List.flatten_cons, Dimacs.largest_append, Dimacs.largest_number,
        ← Nat.max_assoc, ← Formula.varCount_add]
      exact ih _
  exact (extended .empty).trans (Nat.zero_max _)

theorem Reads.perform (held : s.Reads o) (e : Edit) :
    (e.perform s).1 = answerTo e.refused ∧ (e.perform s).2.Reads (o.after e) := by
  cases e with
  | start => exact ⟨rfl, empty_reads⟩
  | add v ns =>
    rw [add_perform]
    exact ⟨rfl, held.taken v ns⟩
  | reserve n =>
    refine ⟨rfl, .of ?_ held.clauses held.stray⟩
    change max s.varCount n = max (max n (o.counts.foldr max 0)) (Dimacs.largest o.given)
    rw [held.varCount, Outline.varCount, Nat.max_comm, Nat.max_assoc]
  | extend v cs => exact held.extended v cs
  | replace v cs => exact held.replaced v cs
  | rebuild =>
    rw [rebuild_perform]
    refine ⟨rfl, .of ?_ ?_ ?_⟩
    · rw [varCount_ofClauses, held.clauses]
      exact (Nat.zero_max _).symm
    · rw [Formula.clauses_ofClauses, held.clauses]
      rfl
    · rw [(Formula.ofClauses _).closed]
      rfl

theorem formed_reads (es : List Edit) : (formed es).Reads (outlined es) := by
  have follow (es : List Edit) {s : Storage} {o : Outline} (held : s.Reads o) :
      (es.foldl (fun s e => (e.perform s).2) s).Reads (es.foldl Outline.after o) := by
    induction es generalizing s o with
    | nil => exact held
    | cons e es ih => exact ih (held.perform e).2
  exact follow es empty_reads

-- Clauses hold what they were given with, and nothing else.
def Outline.Clean (o : Outline) : Prop := o.stray = [] ∧ o.given = o.clauses.flatten

theorem Outline.Clean.take (clean : o.Clean) {v : Conversion} {ns : List Int}
    (whole : v = .whole ∨ firstOther ns = none) : (o.take v ns).Clean := by
  unfold Outline.take
  split
  next => simp [Clean, clean.1, clean.2]
  next other =>
    obtain rfl := whole.resolve_right other
    exact clean

theorem Outline.Clean.takeAll (clean : o.Clean) {v : Conversion} {cs : List (List Int)}
    (whole : v = .whole ∨ firstOther cs.flatten = none) : (o.takeAll v cs).Clean := by
  induction cs generalizing o with
  | nil => exact clean
  | cons c cs ih =>
    rw [List.flatten_cons, firstOther_append, Option.or_eq_none_iff] at whole
    have first := clean.take (whole.imp_right And.left)
    rw [Outline.takeAll]
    split
    next => exact ih first (whole.imp_right And.right)
    next => exact first

theorem Outline.Clean.after (clean : o.Clean) {e : Edit} (whole : e.Whole) : (o.after e).Clean := by
  cases e with
  | start => exact ⟨rfl, rfl⟩
  | add v ns => exact clean.take whole
  | reserve n => exact clean
  | extend v cs => exact clean.takeAll whole
  | replace v cs =>
    rw [Outline.after]
    split
    next => exact ⟨rfl, rfl⟩
    next => exact clean
  | rebuild => exact ⟨rfl, rfl⟩

theorem outlined_clean {es : List Edit} (whole : ∀ e ∈ es, e.Whole) : (outlined es).Clean := by
  have follow (es : List Edit) {o : Outline} (clean : o.Clean) (whole : ∀ e ∈ es, e.Whole) :
      (es.foldl Outline.after o).Clean := by
    induction es generalizing o with
    | nil => exact clean
    | cons e es ih =>
      obtain ⟨first, later⟩ := List.forall_mem_cons.mp whole
      exact ih (clean.after first) later
  exact follow es ⟨rfl, rfl⟩ whole

theorem beq_iff : (s == t) = true ↔
    s.varCount = t.varCount ∧ s.clauses = t.clauses ∧ s.stray = t.stray := by
  have parts : (s == t) = (s.varCount == t.varCount && s.ends == t.ends && s.literals == t.literals) :=
    rfl
  rw [parts, Bool.and_eq_true, Bool.and_eq_true, beq_iff_eq, beq_iff_eq, beq_iff_eq]
  constructor
  · intro ⟨⟨count, ends⟩, literals⟩
    cases s
    cases t
    cases count
    cases ends
    cases literals
    exact ⟨rfl, rfl, rfl⟩
  · intro ⟨count, clauses, stray⟩
    rw [eq_of_clauses count clauses stray]
    exact ⟨⟨rfl, rfl⟩, rfl⟩

theorem Reads.beq_iff (first : s.Reads o) (second : t.Reads p) : (s == t) = true ↔
    o.varCount = p.varCount ∧ o.clauses = p.clauses ∧ o.stray = p.stray := by
  have numbers := List.map_injective_iff.mpr Lit.number_injective
  rw [Storage.beq_iff, first.varCount, second.varCount, ← first.clauses, ← second.clauses,
    ← first.stray, ← second.stray, (List.map_injective_iff.mpr numbers).eq_iff, numbers.eq_iff]

theorem formed_concat (es : List Edit) (e : Edit) :
    formed (es ++ [e]) = (e.perform (formed es)).2 := by
  rw [formed, List.foldl_append, List.foldl_cons, List.foldl_nil, formed]

theorem varCount_ofClauses_le_iff {cs : List Clause} {n : Nat} :
    (Formula.ofClauses cs).varCount ≤ n ↔ ∀ c ∈ cs, ∀ l ∈ c, l.var.number ≤ n := by
  rw [varCount_ofClauses, ← List.map_flatten, Dimacs.largest_number, Clause.maxVar_le_iff]
  constructor
  · intro all c hc l hl
    exact all l (List.mem_flatten_of_mem hc hl)
  · intro all l hl
    obtain ⟨c, hc, hl⟩ := List.mem_flatten.mp hl
    exact all c hc l hl

/-- After any edits the formula reads back as their outline: its clauses are those that were
accepted, each with the literals in front that refused clauses gave since the last one, and these
count for no variable. Callers that convert a clause before they hand it over leave nothing behind,
and lose at most the clauses from the refused one on. Formulas are equal if they read back alike,
what belongs to no clause included. One that is built from a traversal has the same clauses and
counts no variable that they do not need. -/
theorem edits_read_back (es : List Edit) :
    (formed es).Reads (outlined es) ∧
    (∀ e : Edit, (e.perform (formed es)).1 = answerTo e.refused) ∧
    (∀ ns n, firstOther ns = some n →
      (Edit.add .whole ns).perform (formed es) = (answerTo (some n), formed es)) ∧
    (∀ v cs c ds n, (∀ b ∈ cs, firstOther b = none) → firstOther c = some n →
      (Edit.extend v (cs ++ c :: ds)).perform (formed es) =
        (Edit.add v c).perform (formed (es ++ [.extend v cs]))) ∧
    ((∀ e ∈ es, e.Whole) → (outlined es).Clean) ∧
    (∀ fs, (formed es == formed fs) = true ↔
      (outlined es).varCount = (outlined fs).varCount ∧
        (outlined es).clauses = (outlined fs).clauses ∧
        (outlined es).stray = (outlined fs).stray) ∧
    (formed (es ++ [.rebuild])).clauses = (formed es).clauses ∧
    ∀ n, (formed (es ++ [.rebuild])).varCount ≤ n ↔
      ∀ c ∈ (formed es).clauses, ∀ l ∈ c, l.var.number ≤ n := by
  have reads := formed_reads es
  refine ⟨reads, fun e => (reads.perform e).1, ?_, ?_, outlined_clean,
    fun fs => reads.beq_iff (formed_reads fs), ?_, ?_⟩
  · intro ns n other
    rw [add_perform, taken, other, if_neg (Option.some_ne_none n)]
  · intro v cs c ds n valid other
    rw [formed_concat]
    exact extend_refused _ v ds valid other
  · rw [formed_concat, rebuild_perform, Formula.clauses_ofClauses]
  · intro n
    rw [formed_concat, rebuild_perform, varCount_ofClauses_le_iff]

theorem converted_literals_dropped :
    let es := [.add .whole [1, 0, 2], .extend .whole [[3], [4, 0, 5], [6]]]
    formed es = formed [.extend .whole [[3]]] ∧ (outlined (es ++ [.add .whole [7]])).Clean ∧
      (formed (es ++ [.add .whole [7]])).clauses.map (·.map Lit.number) = [[3], [7]] := by
  intro es
  have unchanged := (edits_read_back []).2.2.1 [1, 0, 2] 0 rfl
  have partly :=
    (edits_read_back [.add .whole [1, 0, 2]]).2.2.2.1 .whole [[3]] [4, 0, 5] [[6]] 0 (by decide) rfl
  have dropped :=
    (edits_read_back ([.add .whole [1, 0, 2]] ++ [.extend .whole [[3]]])).2.2.1 [4, 0, 5] 0 rfl
  have whole : ∀ e ∈ es ++ [Edit.add .whole [7]], e.Whole := by simp [es, Edit.Whole]
  refine ⟨?_, (edits_read_back _).2.2.2.2.1 whole, (edits_read_back _).1.clauses⟩
  calc formed es
      _ = ((Edit.extend .whole ([[3]] ++ [4, 0, 5] :: [[6]])).perform
          (formed [.add .whole [1, 0, 2]])).2 := rfl
      _ = formed ([.add .whole [1, 0, 2]] ++ [.extend .whole [[3]]]) := by rw [partly, dropped]
      _ = ((Edit.extend .whole [[3]]).perform ((Edit.add .whole [1, 0, 2]).perform
          (formed [])).2).2 := rfl
      _ = formed [.extend .whole [[3]]] := by rw [unchanged]; rfl

-- The literals before a number that is none come back with the next clause, where their variables
-- are not counted, and until then they make the formula differ from one that reads alike.
theorem gradual_literals_kept :
    let refused := formed [.add .gradual [1, 0, 2]]
    let later := formed [.add .gradual [1, 0, 2], .add .whole [7]]
    let uncounted := formed [.extend .gradual [[9, 0]], .add .whole [7]]
    refused.varCount = empty.varCount ∧ refused.clauses = empty.clauses ∧
      (refused == empty) = false ∧ later.clauses.map (·.map Lit.number) = [[1, 7]] ∧
      uncounted.clauses.map (·.map Lit.number) = [[9, 7]] ∧ uncounted.varCount = 7 := by
  decide +kernel

end Storage

end SatSession
