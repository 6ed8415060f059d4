import Mathlib.Data.List.Nodup
import Mathlib.Data.List.Perm.Subperm
import SatSession.Session
import SatSession.Engine.Replay

set_option autoImplicit false

namespace SatSession

theorem Lit.number_injective : Function.Injective Lit.number := by
  intro a b same
  cases a
  cases b
  simpa using same

namespace Clause

theorem foldl_max (c : Clause) (n : Nat) :
    c.foldl (fun n l => max n l.var.number) n = max n c.maxVar := by
  unfold Clause.maxVar
  induction c generalizing n with
  | nil => simp
  | cons l c ih =>
    rw [List.foldl_cons, List.foldl_cons, ih, ih (max 0 l.var.number)]
    omega

@[simp] theorem maxVar_cons (l : Lit) (c : Clause) :
    Clause.maxVar (l :: c) = max l.var.number (Clause.maxVar c) := by
  rw [Clause.maxVar, List.foldl_cons, foldl_max, Nat.zero_max]

theorem maxVar_le_iff {c : Clause} {n : Nat} : c.maxVar ≤ n ↔ ∀ l ∈ c, l.var.number ≤ n := by
  induction c with
  | nil => simp [Clause.maxVar]
  | cons l c ih => rw [maxVar_cons, Nat.max_le, ih, List.forall_mem_cons]

def ofNumbers (ns : List Int) : Clause := ns.filterMap Lit.ofNumber?

theorem number_of_ofNumber? {n : Int} {l : Lit} (h : Lit.ofNumber? n = some l) : l.number = n := by
  unfold Lit.ofNumber? at h
  split at h
  · rw [← Option.some.inj h]
  · simp at h

theorem map_number_ofNumbers {ns : List Int} (valid : ∀ n ∈ ns, Lit.ofNumber? n ≠ none) :
    (ofNumbers ns).map Lit.number = ns := by
  induction ns with
  | nil => rfl
  | cons n ns ih =>
    obtain ⟨l, hl⟩ := Option.ne_none_iff_exists'.mp (valid n List.mem_cons_self)
    have rest := ih fun m hm => valid m (List.mem_cons_of_mem n hm)
    simp only [ofNumbers, List.filterMap_cons, hl, List.map_cons, number_of_ofNumber? hl]
    exact congrArg (n :: ·) rest

end Clause

theorem length_le_of_nodup {ls : List Lit} {n : Nat} (distinct : ls.Nodup)
    (small : ∀ l ∈ ls, l.var.number ≤ n) : ls.length ≤ Session.distinctLits n := by
  let all := (List.range n).flatMap fun i => [((i + 1 : Nat) : Int), -((i + 1 : Nat) : Int)]
  have within : ls.map Lit.number ⊆ all := by
    intro m hm
    obtain ⟨l, hl, rfl⟩ := List.mem_map.mp hm
    have positive := l.ne_zero
    have bound : l.number.natAbs ≤ n := small l hl
    refine List.mem_flatMap.mpr ⟨l.number.natAbs - 1, List.mem_range.mpr (by omega), ?_⟩
    simp only [List.mem_cons, List.not_mem_nil, or_false]
    omega
  have numbers : (ls.map Lit.number).Nodup := List.Nodup.map Lit.number_injective distinct
  have count : all.length = 2 * n := by
    simp [all, List.length_flatMap, Nat.mul_comm]
  have shorter := (List.subperm_of_subset numbers within).length_le
  rw [List.length_map, count] at shorter
  exact shorter

theorem nodup_eraseDups (ls : List Lit) : ls.eraseDups.Nodup := by
  match ls with
  | [] => exact List.nodup_nil
  | l :: ls =>
    rw [List.eraseDups_cons, List.nodup_cons]
    refine ⟨fun again => ?_, nodup_eraseDups _⟩
    rw [List.mem_eraseDups, List.mem_filter] at again
    simp at again
termination_by ls.length
decreasing_by exact Nat.lt_succ_of_le (List.length_filter_le _ _)

-- The first of equal literals is kept, so it does not matter which others are left out before.
theorem eraseDups_filter (p : Lit → Bool) (ls : List Lit) :
    (ls.filter p).eraseDups = ls.eraseDups.filter p := by
  match ls with
  | [] => rfl
  | l :: ls =>
    have rest := eraseDups_filter p (ls.filter fun k => !k == l)
    rw [List.eraseDups_cons]
    cases kept : p l with
    | true =>
      rw [List.filter_cons_of_pos kept, List.filter_cons_of_pos kept, List.eraseDups_cons, ← rest,
        List.filter_filter, List.filter_filter]
      simp only [Bool.and_comm]
    | false =>
      have same : (ls.filter fun k => !k == l).filter p = ls.filter p := by
        rw [List.filter_filter]
        refine List.filter_congr fun k _ => ?_
        by_cases equal : k = l
        · simp [equal, kept]
        · simp [equal]
      rw [List.filter_cons_of_neg (by simp [kept]), List.filter_cons_of_neg (by simp [kept]),
        ← rest, same]
termination_by ls.length
decreasing_by exact Nat.lt_succ_of_le (List.length_filter_le _ _)

namespace Replay

namespace State

theorem say_eq (s : State) (level : Nat) (text : String) :
    ∃ messages, s.say level text = { s with messages := messages } := by
  unfold say
  split
  · exact ⟨s.messages, rfl⟩
  · exact ⟨_, rfl⟩

theorem renew_eq (s : State) :
    s.renew = { s with assumptions := s.pending, consumed := false } := by
  obtain ⟨_, _, _, _, used, _⟩ := s
  cases used <;> rfl

theorem pending_of_consumed {s : State} (used : s.consumed = true) : s.pending = [] := by
  simp [pending, renew, used]

theorem pending_of_fresh {s : State} (fresh : s.consumed = false) :
    s.pending = s.assumptions := by
  simp [pending, renew, fresh]

theorem mem_of_mem_pending {s : State} {l : Lit} (h : l ∈ s.pending) : l ∈ s.assumptions := by
  cases used : s.consumed
  · rwa [pending_of_fresh used] at h
  · simp [pending_of_consumed used] at h

def ingest (s : State) (c : Clause) : State :=
  { s with
    assumptions := s.pending
    consumed := false
    outcome := .cleared
    clause := #[]
    varCount := max s.varCount c.maxVar
    formula := s.formula.add c
    inconsistent := s.inconsistent || c.isEmpty }

def ingestAll (s : State) (cs : List Clause) : State := cs.foldl ingest s

def assumed (s : State) (l : Lit) : State :=
  { s with
    assumptions := s.pending ++ [l]
    consumed := false
    outcome := .cleared
    varCount := max s.varCount l.var.number }

def verdict (S : Cnf.Solver) (s : State) : Cnf.Verdict :=
  S.run s.limit s.clauses (s.pending.map .ofLit)

def decided (S : Cnf.Solver) (s : State) : Status × State :=
  conclude { s with assumptions := s.pending, consumed := true } (s.verdict S)

theorem decided_model {S : Cnf.Solver} {s : State} {lits : List Cnf.Literal}
    (found : s.verdict S = .model lits) : s.decided S = (.satisfiable, { s with
      assumptions := s.pending
      consumed := true
      outcome := .satisfiable (valuesOf s.varCount lits) }) := by
  rw [State.decided, found]
  rfl

theorem decided_refuted {S : Cnf.Solver} {s : State} {failed : List Cnf.Literal}
    (found : s.verdict S = .refuted failed) : s.decided S = (.unsatisfiable, { s with
      assumptions := s.pending
      consumed := true
      outcome := .unsatisfiable (s.pending.filter fun l => failed.contains (.ofLit l)).eraseDups
      inconsistent := s.inconsistent || failed.isEmpty }) := by
  rw [State.decided, found]
  rfl

end State

open State

theorem ofNumber_number {ε : Type} (l : Lit) : (Lit.ofNumber l.number : Outcome ε Lit) = .ok l := by
  simp [Lit.ofNumber, Lit.ofNumber?_number]

theorem var_number (l : Lit) : l.number.natAbs = l.var.number := rfl

theorem add_number (s : State) (l : Lit) :
    add l.number s = (.ok (), { s with
      assumptions := s.pending
      consumed := false
      outcome := .cleared
      clause := s.clause.push l
      varCount := max s.varCount l.var.number }) := by
  simp only [add, Step.bind_apply, Step.modify_apply, l.ne_zero, if_false, renew_eq,
    Step.ofOutcome, ofNumber_number, State.touch, var_number]

theorem add_zero (s : State) :
    add 0 s = (.ok (), { s with
      assumptions := s.pending
      consumed := false
      outcome := .cleared
      clause := #[]
      formula := s.formula.add s.clause.toList
      inconsistent := s.inconsistent || s.clause.toList.isEmpty }) := by
  simp only [add, Step.bind_apply, Step.modify_apply, if_true, renew_eq, pushClause]

variable (S : Cnf.Solver)

-- The induction is on the literals still to come, for any clause begun before them.
theorem addNumbers_lits (c : Clause) (s : State) :
    Session.addNumbers (engine S) (Stream.encodeLits c) s = (.ok (), { s with
      assumptions := s.pending
      consumed := false
      outcome := .cleared
      clause := #[]
      varCount := max s.varCount c.maxVar
      formula := s.formula.add (s.clause.toList ++ c)
      inconsistent := s.inconsistent || (s.clause.toList ++ c).isEmpty }) := by
  induction c generalizing s with
  | nil =>
    have ended : (engine S).add 0 = add 0 := rfl
    simp [Stream.encodeLits, Session.addNumbers, Step.bind_apply, ended, add_zero,
      Clause.maxVar]
  | cons l c ih =>
    have first : Stream.encodeLits (l :: c) = l.number :: Stream.encodeLits c := rfl
    have added : (engine S).add l.number = add l.number := rfl
    rw [first, Session.addNumbers, Step.bind_apply, added, add_number]
    simp only [ih, pending_of_fresh, Array.toList_push, List.append_assoc, List.singleton_append,
      Clause.maxVar_cons, Nat.max_assoc]

theorem addNumbers_append (E : Engine State) (ms ns : List Int) (s : State) :
    Session.addNumbers E (ms ++ ns) s =
      (Session.addNumbers E ms >>= fun _ => Session.addNumbers E ns) s := by
  induction ms generalizing s with
  | nil => rfl
  | cons m ms ih =>
    simp only [List.cons_append, Session.addNumbers, Step.bind_apply]
    rcases E.add m s with ⟨a | e | p, t⟩
    · simpa only [Step.bind_apply] using ih t
    · rfl
    · rfl

theorem addNumbers_clauses (cs : List Clause) {s : State} (closed : s.clause = #[]) :
    Session.addNumbers (engine S) (cs.flatMap Stream.encodeLits) s = (.ok (), s.ingestAll cs) := by
  induction cs generalizing s with
  | nil => rfl
  | cons c cs ih =>
    have first := addNumbers_lits S c s
    simp only [closed, List.nil_append] at first
    rw [List.flatMap_cons, addNumbers_append, Step.bind_apply, first]
    exact ih (s := s.ingest c) rfl

theorem assume_number (s : State) (l : Lit) : assume l.number s = (.ok (), s.assumed l) := by
  simp only [assume, Step.bind_apply, Step.modify_apply, renew_eq, Step.ofOutcome,
    ofNumber_number, State.touch, var_number, State.assumed]

theorem solve_eq {s : State} (closed : s.clause = #[]) :
    solve S s = (.ok (s.decided S).1,
      (s.decided S).2.say 1 (summary (s.decided S).1 (s.decided S).2)) := by
  have ready : s.clause.isEmpty = true := by rw [closed]; rfl
  simp only [solve, Step.bind_apply, Step.get_apply, Step.modify_apply, ready, renew_eq,
    Bool.not_true, Bool.false_eq_true, if_false, Step.pure_apply]
  rfl

theorem solve_decided {s : State} (closed : s.clause = #[]) :
    ∃ messages, solve S s =
      (.ok (s.decided S).1, { (s.decided S).2 with messages := messages }) := by
  obtain ⟨messages, said⟩ := (s.decided S).2.say_eq 1 (summary (s.decided S).1 (s.decided S).2)
  exact ⟨messages, by rw [solve_eq S closed, said]⟩

theorem value_assigned {s : State} {values : Array Bool} (found : s.outcome = .satisfiable values)
    {v : Nat} (positive : 0 < v) (small : v ≤ maxVar) (within : v < values.size) :
    value v s = (.ok (if values[v] then 1 else -1), s) := by
  have literal : Lit.ofNumber? v = some (Var.lit ⟨v, positive, small⟩ true) := by
    have valid : (v : Int) ≠ 0 ∧ (v : Int).natAbs ≤ maxVar := by omega
    rw [Lit.ofNumber?, dif_pos valid]
    rfl
  have slot : values[(Lit.var (Var.lit ⟨v, positive, small⟩ true)).number]? = some values[v] := by
    rw [Lit.lit_var, Array.getElem?_eq_getElem within]
  simp only [value, Step.bind_apply, Step.get_apply, found, Step.ofOutcome, Lit.ofNumber, literal,
    slot, Lit.isPositive_lit, beq_true, Step.pure_apply]

theorem refutation_known {ε : Type} {s : State} {failed : List Lit}
    (refuted : s.outcome = .unsatisfiable failed) :
    (refutation : Step State ε (List Lit)) s = (.ok failed, s) := by
  simp [refutation, Step.bind_apply, refuted]

def State.blocked (s : State) (subset : List Lit) : State :=
  { s with
    outcome := .cleared
    formula := s.formula.add (blocking s.assumptions subset)
    inconsistent := s.inconsistent || (blocking s.assumptions subset).isEmpty }

variable {S} {s : State} (consistent : s.inconsistent = false) (next : Bool)

include consistent

theorem subset_exhausted (found : S.run s.limit s.clauses [] = .exhausted) :
    satisfiableSubset S next s = (.error searchFailed, s) := by
  simp [satisfiableSubset, maximalSubset, Step.bind_apply, consistent, found]

theorem subset_refuted {failed : List Cnf.Literal}
    (found : S.run s.limit s.clauses [] = .refuted failed) :
    ∃ messages, satisfiableSubset S next s = (.ok (buffer []),
      { s with outcome := .cleared, inconsistent := true, messages := messages }) := by
  obtain ⟨messages, said⟩ :=
    ({ s with inconsistent := true } : State).say_eq 2 "formula is inconsistent"
  refine ⟨messages, ?_⟩
  simp [satisfiableSubset, maximalSubset, Step.bind_apply, consistent, found, said]

theorem subset_failed {model : List Cnf.Literal} {e : EngineError}
    (found : S.run s.limit s.clauses [] = .model model)
    (search : greedy S s [] s.assumptions = .error e) :
    satisfiableSubset S next s = (.error e, s) := by
  simp [satisfiableSubset, maximalSubset, Step.bind_apply, consistent, found, search]

theorem subset_found {model : List Cnf.Literal} {subset : List Lit}
    (found : S.run s.limit s.clauses [] = .model model)
    (search : greedy S s [] s.assumptions = .ok subset) :
    ∃ messages, satisfiableSubset S next s = (.ok (buffer subset),
      { (if next then s.blocked subset else { s with outcome := .cleared } : State) with
        messages := messages }) := by
  obtain ⟨first, said⟩ := s.say_eq 2 ("maximal satisfiable subset of " ++
    toString s.assumptions.length ++ " assumptions: " ++ litsText subset)
  have subset_run : maximalSubset S s = (.ok subset, { s with messages := first }) := by
    simp only [maximalSubset, Step.bind_apply, Step.get_apply, Step.modify_apply, Step.pure_apply,
      consistent, found, search, said, Bool.false_eq_true, if_false]
  cases next
  · refine ⟨first, ?_⟩
    simp [satisfiableSubset, Step.bind_apply, subset_run]
  · obtain ⟨second, told⟩ :=
      ({ s with outcome := .cleared, messages := first } : State).say_eq 2
        ("blocking subset with " ++ litsText (blocking s.assumptions subset))
    have continues : (true && !s.inconsistent) = true := by rw [consistent]; rfl
    refine ⟨second, ?_⟩
    simp only [satisfiableSubset, Step.bind_apply, subset_run, Step.modify_apply, Step.get_apply,
      continues, if_true, told, State.pushClause, State.blocked, Step.pure_apply]

omit consistent

theorem greedy_within {chosen as subset : List Lit} (search : greedy S s chosen as = .ok subset) :
    (∀ l ∈ subset, l ∈ chosen ∨ l ∈ as) ∧ (chosen.Nodup → subset.Nodup) := by
  induction as generalizing chosen with
  | nil =>
    simp only [greedy, Except.ok.injEq] at search
    subst search
    exact ⟨fun l hl => .inl hl, id⟩
  | cons a as ih =>
    have skip (rest : greedy S s chosen as = .ok subset) :
        (∀ l ∈ subset, l ∈ chosen ∨ l ∈ a :: as) ∧ (chosen.Nodup → subset.Nodup) := by
      obtain ⟨within, distinct⟩ := ih rest
      exact ⟨fun l hl => (within l hl).imp_right (List.mem_cons_of_mem a), distinct⟩
    rw [greedy] at search
    by_cases known : chosen.contains a = true
    · rw [if_pos known] at search
      exact skip search
    · rw [if_neg known] at search
      have fresh : a ∉ chosen := fun h => known (by simpa using h)
      split at search
      · obtain ⟨within, distinct⟩ := ih search
        refine ⟨fun l hl => ?_, fun h => distinct ?_⟩
        · rcases within l hl with h | h
          · simp only [List.mem_append, List.mem_singleton] at h
            rcases h with h | rfl
            · exact .inl h
            · exact .inr List.mem_cons_self
          · exact .inr (List.mem_cons_of_mem a h)
        · simpa [List.nodup_append, h] using fun b hb (same : b = a) => fresh (same ▸ hb)
      · exact skip search
      · simp at search

theorem greedy_error {chosen as : List Lit} {e : EngineError}
    (failed : greedy S s chosen as = .error e) : e = searchFailed := by
  induction as generalizing chosen with
  | nil => simp [greedy] at failed
  | cons a as ih =>
    rw [greedy] at failed
    split at failed
    · exact ih failed
    · split at failed
      · exact ih failed
      · exact ih failed
      · exact (Except.error.inj failed).symm

section Quiet

variable {ε α β : Type}

def Quiet (x : Step State ε α) : Prop :=
  ∀ s, ∃ messages, (x s).2 = { s with messages := messages }

theorem Quiet.of_same {x : Step State ε α} (same : ∀ s, (x s).2 = s) : Quiet x :=
  fun s => ⟨s.messages, same s⟩

theorem Quiet.bind {x : Step State ε α} {f : α → Step State ε β} (first : Quiet x)
    (rest : ∀ a, Quiet (f a)) : Quiet (x >>= f) := by
  intro s
  obtain ⟨messages, left⟩ := first s
  rw [Step.bind_apply]
  rcases ends : x s with ⟨a | e | p, t⟩ <;> rw [ends] at left <;> subst left
  · exact rest a _
  · exact ⟨messages, rfl⟩
  · exact ⟨messages, rfl⟩

theorem Quiet.unless {x : Step State ε α} (quiet : Quiet x) (b : Bool) (message : String) :
    Quiet (do if b then Step.abandon message
              x) := by
  cases b
  · exact quiet
  · exact .bind (.of_same fun _ => rfl) fun _ => quiet

theorem quiet_core (S : Cnf.Solver) : Quiet (core S) := by
  refine .bind (.of_same fun _ => rfl) fun s => .unless (.unless ?_ _ _) _ _
  split
  · refine .bind (.of_same fun _ => rfl) fun c => .bind (fun t => t.say_eq _ _) fun _ => ?_
    exact .of_same fun _ => rfl
  · exact .of_same fun _ => rfl

theorem Quiet.producing {x : Step State EngineError Production} (quiet : Quiet x) :
    Quiet (producing x) := by
  intro s
  obtain ⟨messages, left⟩ := quiet s
  refine ⟨messages, ?_⟩
  rw [← left, Replay.producing]
  rcases x s with ⟨p | e | q, t⟩ <;> rfl

theorem quiet_writeTrace (S : Cnf.Solver) (stepBytes : Cnf.Clause → Bytes) :
    Quiet (writeTrace S stepBytes) := by
  refine .bind (quiet_core S) fun c => ?_
  split
  · exact .of_same fun _ => rfl
  · exact .of_same fun _ => rfl

theorem quiet_report (S : Cnf.Solver) (k : ReportKind) : Quiet (report S k) := by
  cases k with
  | formula => exact .of_same fun _ => rfl
  | clausalCore => exact .producing (.bind (quiet_core S) fun _ => .of_same fun _ => rfl)
  | compactTrace => exact .producing (quiet_writeTrace S _)
  | extendedTrace => exact .producing (quiet_writeTrace S _)

end Quiet

theorem ofNumbers_ofLits {ε : Type} {ks : List Cnf.Literal} {as : List Lit}
    (known : ∀ k ∈ ks, k ∈ as.map Cnf.Literal.ofLit) :
    ∃ ls, (Lit.ofNumbers (ks.map Cnf.Literal.number) : Outcome ε (List Lit)) = .ok ls ∧
      ls.map .ofLit = ks := by
  induction ks with
  | nil => exact ⟨[], rfl, rfl⟩
  | cons k ks ih =>
    obtain ⟨l, _, rfl⟩ := List.mem_map.mp (known k List.mem_cons_self)
    obtain ⟨ls, rest, rfl⟩ := ih fun m hm => known m (List.mem_cons_of_mem _ hm)
    refine ⟨l :: ls, ?_, rfl⟩
    simp only [List.map_cons, Lit.ofNumbers, Cnf.Literal.number_ofLit, ofNumber_number, rest]
    rfl

def State.selectors (s : State) : List Cnf.Literal :=
  (List.range s.formula.size).map (selector s.varCount)

def State.coreVerdict (S : Cnf.Solver) (s : State) : Cnf.Verdict :=
  S.run 0 (selected s.varCount s.clauses) (s.selectors ++ s.assumptions.map .ofLit)

theorem State.run_selected (S : Cnf.Solver) (s : State) :
    S.run 0 (selected s.varCount s.clauses)
      ((List.range s.formula.size).map (selector s.varCount) ++ s.assumptions.map .ofLit) =
        s.coreVerdict S := rfl

/-- The core of a refutation: the clauses whose selectors are blamed, in the order of the log, and
the assumptions that are. -/
structure State.Named (s : State) (failed : List Cnf.Literal) (c : Core) : Prop where
  clauses : c.clauses = (s.formula.clauses.zipIdx.filter fun p =>
    failed.contains (selector s.varCount p.2)).map (·.1)
  failed : c.failed.map .ofLit = failed.filter fun k => !decide (s.varCount < k.var)

theorem coreOf_ok {failed : List Cnf.Literal}
    (assumed : ∀ l ∈ s.assumptions, l.var.number ≤ s.varCount)
    (blamed : ∀ k ∈ failed, k ∈ s.selectors ++ s.assumptions.map .ofLit) :
    ∃ c, coreOf s failed = .ok c ∧ s.Named failed c := by
  have kinds : ∀ k ∈ failed, (∃ i < s.formula.size, k = selector s.varCount i) ∨
      k ∈ s.assumptions.map .ofLit ∧ k.var ≤ s.varCount := by
    intro k hk
    rcases List.mem_append.mp (blamed k hk) with h | h
    · obtain ⟨i, hi, rfl⟩ := List.mem_map.mp h
      exact .inl ⟨i, List.mem_range.mp hi, rfl⟩
    · obtain ⟨l, hl, rfl⟩ := List.mem_map.mp h
      exact .inr ⟨h, assumed l hl⟩
  have inRange : (failed.filter (s.varCount < ·.var)).any (s.varCount + s.formula.size < ·.var) =
      false := by
    rw [List.any_eq_false]
    intro k hk
    have bound : k.var ≤ s.varCount + s.formula.size := by
      rcases kinds k (List.mem_of_mem_filter hk) with ⟨i, small, rfl⟩ | ⟨_, small⟩
      · simp only [selector]
        omega
      · omega
    simpa using bound
  have assumptionsOnly : ∀ k ∈ failed.filter fun k => !decide (s.varCount < k.var),
      k ∈ s.assumptions.map .ofLit := by
    intro k hk
    simp only [List.mem_filter, Bool.not_eq_true', decide_eq_false_iff_not, Nat.not_lt] at hk
    rcases kinds k hk.1 with ⟨i, _, rfl⟩ | ⟨mem, _⟩
    · simp only [selector] at hk
      omega
    · exact mem
  have named (i : Nat) : ((failed.filter (s.varCount < ·.var)).any fun k =>
      k.var == s.varCount + i + 1) = failed.contains (selector s.varCount i) := by
    rw [Bool.eq_iff_iff, List.any_eq_true, List.contains_iff_mem]
    constructor
    · rintro ⟨k, hk, same⟩
      rw [beq_iff_eq] at same
      rcases kinds k (List.mem_of_mem_filter hk) with ⟨j, _, rfl⟩ | ⟨_, small⟩
      · simp only [selector] at same
        obtain rfl : j = i := by omega
        exact List.mem_of_mem_filter hk
      · omega
    · intro mem
      have above : s.varCount < (selector s.varCount i).var := by
        simp only [selector]
        omega
      exact ⟨_, List.mem_filter.mpr ⟨mem, by simpa using above⟩, by simp [selector]⟩
  obtain ⟨ls, known, same⟩ := ofNumbers_ofLits (ε := EngineError) assumptionsOnly
  refine ⟨⟨_, ls⟩, ?_, rfl, same⟩
  have rest : failed.filter (Bool.not ∘ fun k => decide (s.varCount < k.var)) =
      failed.filter fun k => !decide (s.varCount < k.var) := rfl
  rw [coreOf, List.partition_eq_filter_filter]
  simp only [inRange, Bool.false_eq_true, if_false, rest, known, named]
  rfl

theorem core_run (blames : S.BlamesAssumptions) {failed : List Lit}
    (assumed : ∀ l ∈ s.assumptions, l.var.number ≤ s.varCount) (tracing : s.tracing = true)
    (refuted : s.outcome = .unsatisfiable failed) :
    (∃ named c messages, s.coreVerdict S = .refuted named ∧ s.Named named c ∧
      core S s = (.ok c, { s with messages := messages })) ∨
      (∀ named, s.coreVerdict S ≠ .refuted named) ∧ ∃ e, core S s = (.error e, s) := by
  simp only [core, Step.bind_apply, Step.get_apply, tracing, Bool.not_true, refuted,
    Bool.false_eq_true, if_false]
  rw [State.run_selected]
  cases found : s.coreVerdict S with
  | refuted named =>
    obtain ⟨c, known, names⟩ := coreOf_ok assumed (blames found)
    obtain ⟨messages, said⟩ := s.say_eq 2 ("clausal core of " ++ toString c.clauses.length ++
      " out of " ++ toString s.formula.size ++ " clauses")
    refine .inl ⟨named, c, messages, rfl, names, ?_⟩
    simp only [Step.bind_apply, Step.ofOutcome, known, Step.modify_apply, said, Step.pure_apply]
    rw [tracing, refuted]
  | model lits => exact .inr ⟨by simp, _, rfl⟩
  | exhausted => exact .inr ⟨by simp, _, rfl⟩

def written : Except EngineError Production → Production
  | .ok p => p
  | .error e => ⟨[], .error e, none⟩

def Core.production (S : Cnf.Solver) (n : Nat) (c : Core) : ReportKind → Production
  | .compactTrace => written (traceOf S Cnf.Drat.stepBytes c)
  | .extendedTrace => written (traceOf S (fun c => Bytes.ofString (Cnf.Drat.stepText c)) c)
  | _ => dimacs ⟨n, c.clauses.length⟩ c.clauses

theorem report_of_core {k : ReportKind} (kind : k ≠ .formula) {c : Core} {messages : List Message}
    (run : core S s = (.ok c, { s with messages := messages })) :
    report S k s = (.ok (c.production S s.varCount k), { s with messages := messages }) := by
  have traced (stepBytes : Cnf.Clause → Bytes) : producing (writeTrace S stepBytes) s =
      (.ok (written (traceOf S stepBytes c)), { s with messages := messages }) := by
    simp only [producing, writeTrace, Step.bind_apply, run]
    cases traceOf S stepBytes c <;> rfl
  cases k with
  | formula => exact absurd rfl kind
  | clausalCore => simp [report, producing, Step.bind_apply, run, Core.production]
  | compactTrace => exact traced _
  | extendedTrace => exact traced _

theorem report_of_error {k : ReportKind} (kind : k ≠ .formula) {e : EngineError}
    (run : core S s = (.error e, s)) : report S k s = (.ok ⟨[], .error e, none⟩, s) := by
  cases k with
  | formula => exact absurd rfl kind
  | _ => simp [report, producing, writeTrace, Step.bind_apply, run]

theorem Core.production_calm (S : Cnf.Solver) (n : Nat) (c : Core) (k : ReportKind) :
    (c.production S n k).ending.isPanic = false := by
  have traced (stepBytes : Cnf.Clause → Bytes) :
      (written (traceOf S stepBytes c)).ending.isPanic = false := by
    unfold traceOf
    split <;> rfl
  cases k with
  | compactTrace => exact traced _
  | extendedTrace => exact traced _
  | _ => rfl

theorem report_produced (blames : S.BlamesAssumptions) (k : ReportKind)
    (assumed : ∀ l ∈ s.assumptions, l.var.number ≤ s.varCount)
    (admitted : k ≠ .formula → s.tracing = true ∧ ∃ failed, s.outcome = .unsatisfiable failed) :
    ∃ p, (report S k s).1 = .ok p ∧ p.ending.isPanic = false := by
  by_cases kind : k = .formula
  · subst kind
    exact ⟨_, rfl, rfl⟩
  · obtain ⟨tracing, failed, refuted⟩ := admitted kind
    rcases core_run blames assumed tracing refuted with ⟨_, c, messages, _, _, run⟩ | ⟨_, e, run⟩
    · rw [report_of_core kind run]
      exact ⟨_, rfl, c.production_calm S _ k⟩
    · rw [report_of_error kind run]
      exact ⟨_, rfl, rfl⟩

end Replay

end SatSession
