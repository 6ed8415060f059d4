import SatSession.Proofs.Lifecycle
import SatSession.Proofs.Preconditions

set_option autoImplicit false

namespace SatSession

variable {σ : Type}

namespace Engine

structure Steady (E : Engine σ) : Prop where
  solve : ∀ e, (E.varCount (E.solve e).2).1 = (E.varCount e).1
  value : ∀ n e, (E.varCount (E.value n e).2).1 = (E.varCount e).1
  varCount : ∀ e, (E.varCount (E.varCount e).2).1 = (E.varCount e).1

structure Calm (E : Engine σ) : Prop where
  solve : ∀ e p, (E.solve e).1 ≠ .panic p
  varCount : ∀ e p, (E.varCount e).1 ≠ .panic p
  value : ∀ n e p, (E.value n e).1 ≠ .panic p
  add : ∀ n e p, (E.add n e).1 ≠ .panic p

-- The largest variable number that the engine has seen is that of a literal.
def Numbered (E : Engine σ) (e : σ) : Prop := ∀ n, (E.varCount e).1 = .ok n → n ≤ maxVar

def values (E : Engine σ) (v : Nat) : Nat → Call σ (List Int)
  | 0 => pure []
  | n + 1 => do
      let x ← E.value (Int32.ofNat v).toInt
      let xs ← E.values (v + 1) n
      pure (x :: xs)

def solved (E : Engine σ) (e : σ) : σ := (E.varCount (E.solve e).2).2

def Assigns (E : Engine σ) (e : σ) : Prop :=
  (E.solve e).1 = .ok .satisfiable ∧ ∃ n xs, (E.varCount e).1 = .ok n ∧
    (E.values 1 n (E.solved e)).1 = .ok xs ∧ ∀ x ∈ xs, x ≠ 0

end Engine

def valueCalls : Nat → List Int → List EngineCall
  | _, [] => []
  | v, x :: xs => .value (Int32.ofNat v).toInt (.ok x) :: valueCalls (v + 1) xs

-- Each variable, the first of them `v`, with the sign that its value does not have.
def opposed : Nat → List Int → List Int32
  | _, [] => []
  | v, x :: xs => (if 0 < x then -Int32.ofNat v else Int32.ofNat v) :: opposed (v + 1) xs

def additions (ns : List Int32) : List EngineCall := ns.map fun n => .add n.toInt

def opening (n : Nat) : List EngineCall := [.solve (.ok .satisfiable), .varCount (.ok n)]

/-- How a step of a running iterator ends, and the calls it makes for that, the first call first. -/
inductive Advanced (E : Engine σ) (e : σ) : Outcome Error Reply → List EngineCall → Prop
  | found {n : Nat} {xs : List Int} (status : (E.solve e).1 = .ok .satisfiable)
      (count : (E.varCount e).1 = .ok n) (read : (E.values 1 n (E.solved e)).1 = .ok xs)
      (length : xs.length = n) (assigned : ∀ x ∈ xs, x ≠ 0) :
      Advanced E e (.ok (.item (some (.ofList (false :: xs.map fun x => decide (0 < x))))))
        (opening n ++ valueCalls 1 xs ++ [.varCount (.ok n)] ++
          additions (opposed 1 xs ++ [0]))
  | unassigned {n : Nat} {xs : List Int} (status : (E.solve e).1 = .ok .satisfiable)
      (count : (E.varCount e).1 = .ok n)
      (read : (E.values 1 (xs.length + 1) (E.solved e)).1 = .ok (xs ++ [0]))
      (short : xs.length < n) (assigned : ∀ x ∈ xs, x ≠ 0) :
      Advanced E e (.error (.unassignedVariable (xs.length + 1)))
        (opening n ++ valueCalls 1 (xs ++ [0]))
  | undecided {st : Status} (status : (E.solve e).1 = .ok st) (other : st ≠ .satisfiable) :
      Advanced E e (.ok (.item none)) [.solve (.ok st)]
  | failed {x : EngineError} (status : (E.solve e).1 = .error x) :
      Advanced E e (.error (.ofEngine x)) [.solve (.error x)]
  | abandoned {p : Panic} {calls : List EngineCall} (panics : ¬E.Calm) :
      Advanced E e (.panic p) calls

variable {E : Engine σ}

theorem toInt_ofNat {v : Nat} (small : v ≤ maxVar) : (Int32.ofNat v).toInt = v :=
  Int32.toInt_ofNat_of_lt (Nat.lt_succ_of_le small)

theorem toInt_neg_ofNat {v : Nat} (small : v ≤ maxVar) : (-Int32.ofNat v).toInt = -(v : Int) := by
  unfold maxVar at small
  rw [Int32.toInt_neg, toInt_ofNat small, Int.bmod_eq_of_le] <;> omega

theorem Engine.values_succ_ok {v n : Nat} {e e' : σ} {ys : List Int} :
    E.values v (n + 1) e = (.ok ys, e') ↔ ∃ x t xs, E.value (Int32.ofNat v).toInt e = (.ok x, t) ∧
      E.values (v + 1) n t = (.ok xs, e') ∧ x :: xs = ys := by
  constructor
  · intro read
    obtain ⟨x, t, first, read⟩ := Step.bind_eq_ok.mp read
    obtain ⟨xs, u, rest, read⟩ := Step.bind_eq_ok.mp read
    cases read
    exact ⟨x, t, xs, first, rest, rfl⟩
  · rintro ⟨x, t, xs, first, rest, rfl⟩
    exact Step.bind_eq_ok.mpr ⟨x, t, first, Step.bind_eq_ok.mpr ⟨xs, e', rest, rfl⟩⟩

theorem Engine.Steady.values (steady : E.Steady) {v n : Nat} {e e' : σ} {xs : List Int}
    (read : E.values v n e = (.ok xs, e')) : (E.varCount e').1 = (E.varCount e).1 := by
  induction n generalizing v e xs with
  | zero =>
    cases read
    rfl
  | succ n ih =>
    obtain ⟨x, t, ys, first, rest, -⟩ := Engine.values_succ_ok.mp read
    have same := steady.value (Int32.ofNat v).toInt e
    rw [first] at same
    exact (ih rest).trans same

theorem Engine.length_values {v n : Nat} {e e' : σ} {xs : List Int}
    (read : E.values v n e = (.ok xs, e')) : xs.length = n := by
  induction n generalizing v e xs with
  | zero =>
    cases read
    rfl
  | succ n ih =>
    obtain ⟨x, t, ys, -, rest, rfl⟩ := Engine.values_succ_ok.mp read
    exact congrArg (· + 1) (ih rest)

theorem Engine.values_take {v n m : Nat} {e e' : σ} {xs : List Int} (fewer : m ≤ n)
    (read : E.values v n e = (.ok xs, e')) : (E.values v m e).1 = .ok (xs.take m) := by
  induction m generalizing v n e xs with
  | zero => rfl
  | succ m ih =>
    obtain ⟨n, rfl⟩ : ∃ k, n = k + 1 := ⟨n - 1, by omega⟩
    obtain ⟨x, t, ys, first, rest, rfl⟩ := Engine.values_succ_ok.mp read
    have others := ih (Nat.le_of_succ_le_succ fewer) rest
    exact congrArg Prod.fst (Engine.values_succ_ok.mpr ⟨x, t, _, first, Prod.ext others rfl, rfl⟩)

theorem blockingClause_values {xs : List Int} (small : xs.length ≤ maxVar) :
    Stream.blockingClause (.ofList (false :: xs.map fun x => decide (0 < x))) =
      (opposed 1 xs ++ [0]).map Int32.toInt := by
  have opposes {v : Nat} {xs : List Int} (small : v + xs.length ≤ maxVar + 1) :
      (((xs.map fun x => decide (0 < x)).zipIdx v).map
        fun b => if b.1 then (b.2 : Int) else -b.2).map (- ·) = (opposed v xs).map Int32.toInt := by
    induction xs generalizing v with
    | nil => rfl
    | cons x xs ih =>
      rw [List.length_cons] at small
      have rest := ih (v := v + 1) (by omega)
      have within : v ≤ maxVar := by omega
      by_cases positive : 0 < x <;>
        simpa [opposed, positive, toInt_ofNat within, toInt_neg_ofNat within] using rest
  rw [List.map_append]
  exact congrArg (· ++ [0]) (opposes (by omega))

namespace Session

variable {s : Session (Observed σ)}

def made (s : Session (Observed σ)) (e : σ) (calls : List EngineCall) : Session (Observed σ) :=
  { s with engine := ⟨e, calls.reverse ++ s.engine.calls⟩ }

theorem made_made (e e' : σ) (calls later : List EngineCall) :
    (s.made e calls).made e' later = s.made e' (calls ++ later) := by
  simp [made]

theorem call_made {α : Type} (record : Outcome Empty α → EngineCall) (x : Call σ α) :
    call (observe record x) s = ((x s.engine.engine).1.widen,
      s.made (x s.engine.engine).2 [record (x s.engine.engine).1]) := rfl

inductive Valued (E : Engine σ) (v n : Nat) (e : σ) :
    Outcome Error (List Bool) → σ → List EngineCall → Prop
  | all (xs : List Int) {e' : σ} (read : E.values v n e = (.ok xs, e'))
      (assigned : ∀ x ∈ xs, x ≠ 0) :
      Valued E v n e (.ok (xs.map fun x => decide (0 < x))) e' (valueCalls v xs)
  | zero (xs : List Int) {e' : σ} (short : xs.length < n)
      (read : E.values v (xs.length + 1) e = (.ok (xs ++ [0]), e')) (assigned : ∀ x ∈ xs, x ≠ 0) :
      Valued E v n e (.error (.unassignedVariable (v + xs.length))) e' (valueCalls v (xs ++ [0]))
  | abandoned {p : Panic} {e' : σ} {calls : List EngineCall} (panics : ¬E.Calm) :
      Valued E v n e (.panic p) e' calls

theorem readValues_valued {v n : Nat} (small : v + n ≤ maxVar + 1) (s : Session (Observed σ)) :
    ∃ r e calls, readValues E.observed v n s = (r, s.made e calls) ∧
      Valued E v n s.engine.engine r e calls := by
  induction n generalizing v s with
  | zero => exact ⟨_, s.engine.engine, [], rfl, .all [] rfl nofun⟩
  | succ n ih =>
    have crosses : (v : Int) = (Int32.ofNat v).toInt := (toInt_ofNat (by omega)).symm
    have asked : call (E.observed.value (Int32.ofNat v).toInt) s = _ := call_made (.value _) (E.value _)
    rw [readValues, Step.bind_apply, crosses, asked]
    rcases first : E.value (Int32.ofNat v).toInt s.engine.engine with ⟨x | x | p, t⟩
    · change ∃ r e calls, (if x = 0 then _ else _ : Op (Observed σ) (List Bool)) _ = _ ∧ _
      by_cases zero : x = 0
      · subst zero
        rw [if_pos rfl]
        refine ⟨_, t, [.value (Int32.ofNat v).toInt (.ok 0)], rfl,
          .zero [] (Nat.zero_lt_succ n) ?_ nofun⟩
        exact Engine.values_succ_ok.mpr ⟨0, t, [], first, rfl, rfl⟩
      · rw [if_neg zero]
        obtain ⟨r, e, calls, run, valued⟩ :=
          ih (v := v + 1) (by omega) (s.made t [.value (Int32.ofNat v).toInt (.ok x)])
        rw [Step.bind_apply, run, made_made]
        cases valued with
        | all xs read assigned =>
          refine ⟨_, e, _, rfl, .all (x :: xs) ?_ (List.forall_mem_cons.mpr ⟨zero, assigned⟩)⟩
          exact Engine.values_succ_ok.mpr ⟨x, t, _, first, read, rfl⟩
        | zero xs short read assigned =>
          have place : v + 1 + xs.length = v + (x :: xs).length := by
            rw [List.length_cons]
            omega
          rw [place]
          refine ⟨_, e, _, rfl, .zero (x :: xs) (Nat.succ_lt_succ short) ?_
            (List.forall_mem_cons.mpr ⟨zero, assigned⟩)⟩
          exact Engine.values_succ_ok.mpr ⟨x, t, _, first, read, rfl⟩
        | abandoned panics => exact ⟨_, e, _, rfl, .abandoned panics⟩
    · exact x.elim
    · exact ⟨_, t, _, rfl, .abandoned fun calm => calm.value _ _ p (congrArg Prod.fst first)⟩

theorem addNumbers_calm (calm : E.Calm) (ns : List Int) (o : Observed σ) :
    (addNumbers E.observed ns o).1 = .ok () := by
  induction ns generalizing o with
  | nil => rfl
  | cons n ns ih =>
    have sent : E.observed.add n o = ((E.add n o.engine).1, _) := rfl
    rw [addNumbers, Step.bind_apply, sent]
    rcases first : E.add n o.engine with ⟨a | x | p, t⟩
    · exact ih _
    · exact x.elim
    · exact absurd (congrArg Prod.fst first) (calm.add n _ p)

-- The call has sent all these numbers, or an engine that abandons calls has abandoned it.
def Sent (E : Engine σ) (calls : List EngineCall) (r : Outcome Error Unit × Session (Observed σ)) :
    Prop :=
  (r.1 = .ok () ∧ r.2.engine.calls = calls) ∨ ∃ p, r.1 = .panic p ∧ ¬E.Calm

theorem flushStream_sent (live : s.released = false) :
    Sent E ((s.stream.map EngineCall.add).reverse ++ s.engine.calls)
      (flushStream E.observed s) := by
  obtain ⟨-, all⟩ := addNumbers_calls E s.stream s.engine
  simp only [flushStream, Step.bind_apply, ready_held live, Step.get_apply, call, Step.zoom,
    Step.widen]
  rcases sent : addNumbers E.observed s.stream s.engine with ⟨⟨⟩ | x | p, o⟩ <;> rw [sent] at all
  · have calls : o.calls = (s.stream.map EngineCall.add).reverse ++ s.engine.calls := by
      simpa using all rfl
    exact .inl ⟨rfl, calls⟩
  · exact x.elim
  · refine .inr ⟨p, rfl, fun calm => ?_⟩
    have ok := addNumbers_calm calm s.stream s.engine
    rw [sent] at ok
    cases ok

theorem ingestBlocking_sent {n : Nat} {a : Assignment} (live : s.released = false)
    (idle : s.stream = []) (count : (E.varCount s.engine.engine).1 = .ok n)
    (size : a.size = n + 1) :
    Sent E (([EngineCall.varCount (.ok n)] ++ (Stream.blockingClause a).map EngineCall.add).reverse ++
      s.engine.calls) (ingestBlocking E.observed a s) := by
  let u := s.made (E.varCount s.engine.engine).2 [.varCount (.ok n)]
  have counted : call E.observed.varCount s = (.ok n, u) := by
    have asked : call E.observed.varCount s = _ := call_made .varCount E.varCount
    rw [asked, count]
    rfl
  let v : Session (Observed σ) := { u with stream := s.stream ++ Stream.blockingClause a }
  have appended : append (Stream.blockingClause a) u = (.ok (), v) := rfl
  have started : ingestBlocking E.observed a s = flushStream E.observed v := by
    rw [ingestBlocking, Step.bind_ok (ready_held live), Step.bind_ok counted, if_neg (by omega),
      Step.bind_ok appended]
  have calls : (v.stream.map EngineCall.add).reverse ++ v.engine.calls =
      ([EngineCall.varCount (.ok n)] ++ (Stream.blockingClause a).map EngineCall.add).reverse ++
        s.engine.calls := by
    simp [v, u, made, idle]
  rw [started, ← calls]
  exact flushStream_sent live

theorem callSolve_made (s : Session (Observed σ)) :
    ∃ state, callSolve E.observed s = ((E.solve s.engine.engine).1.mapError .ofEngine,
      { s.made (E.solve s.engine.engine).2 [.solve (E.solve s.engine.engine).1] with
        state := state }) := by
  have asked : E.observed.solve s.engine = ((E.solve s.engine.engine).1,
    ⟨(E.solve s.engine.engine).2, .solve (E.solve s.engine.engine).1 :: s.engine.calls⟩) := rfl
  simp only [callSolve, callFallible, Step.zoom, Step.mapError, asked]
  rcases E.solve s.engine.engine with ⟨st | x | p, e⟩
  · exact ⟨s.state.next (.solved st), rfl⟩
  · exact ⟨s.state.next (.solved .unknown), rfl⟩
  · exact ⟨s.state, rfl⟩

theorem readAssignment_abandoned {p : Panic} {e : σ} (live : s.released = false)
    (counted : E.varCount s.engine.engine = (.panic p, e)) :
    readAssignment E.observed s = (.panic p, s.made e [.varCount (.panic p)]) := by
  have asked : call E.observed.varCount s = _ := call_made .varCount E.varCount
  rw [readAssignment, Step.bind_ok (ready_held live), Step.bind_apply, asked, counted]
  rfl

theorem readAssignment_valued {n : Nat} {e : σ} (live : s.released = false) (small : n ≤ maxVar)
    (counted : E.varCount s.engine.engine = (.ok n, e)) :
    ∃ r e' calls, readAssignment E.observed s = (do let bs ← r; pure (.ofList (false :: bs)),
        s.made e' ([.varCount (.ok n)] ++ calls)) ∧ Valued E 1 n e r e' calls := by
  have asked : call E.observed.varCount s = (.ok n, s.made e [.varCount (.ok n)]) := by
    have asked : call E.observed.varCount s = _ := call_made .varCount E.varCount
    rw [asked, counted]
    rfl
  obtain ⟨r, e', calls, run, valued⟩ :=
    readValues_valued (E := E) (v := 1) (n := n) (by omega) (s.made e [.varCount (.ok n)])
  refine ⟨r, e', calls, ?_, valued⟩
  rw [readAssignment, Step.bind_ok (ready_held live), Step.bind_ok asked, Step.bind_apply, run,
    made_made]
  rcases r with bs | x | p <;> rfl

theorem runSolve_found {u v : Session (Observed σ)} {r : Outcome Error Assignment}
    (live : s.released = false) (asked : callSolve E.observed s = (.ok .satisfiable, u))
    (read : readAssignment E.observed u = (r, v)) :
    runSolve E.observed s = (do let a ← r; pure (.satisfiable, some a), v) := by
  rw [runSolve, Step.bind_ok (ready_held live), Step.bind_ok asked, if_pos rfl, Step.bind_apply,
    read]
  rcases r with a | x | p <;> rfl

theorem runSolve_other {u : Session (Observed σ)} {st : Status} (live : s.released = false)
    (asked : callSolve E.observed s = (.ok st, u)) (other : st ≠ .satisfiable) :
    runSolve E.observed s = (.ok (st, none), u) := by
  rw [runSolve, Step.bind_ok (ready_held live), Step.bind_ok asked, if_neg other]
  rfl

theorem runNext_blocked {v t : Session (Observed σ)} {a : Assignment} {r : Outcome Error Unit}
    (solved : runSolve E.observed s = (.ok (.satisfiable, some a), v))
    (blocked : ingestBlocking E.observed a v = (r, t)) :
    runNext E.observed s = (do r; pure (some a), t) := by
  rw [runNext, Step.bind_ok solved]
  simp only [Step.bind_apply, blocked]
  rcases r with ⟨⟩ | x | p <;> rfl

theorem runNext_abandoned {v : Session (Observed σ)} {p : Panic}
    (solved : runSolve E.observed s = (.panic p, v)) : runNext E.observed s = (.panic p, v) := by
  rw [runNext, Step.bind_apply, solved]

theorem advanced_found {n : Nat} {xs : List Int} {v : Session (Observed σ)}
    (status : (E.solve s.engine.engine).1 = .ok .satisfiable)
    (count : (E.varCount s.engine.engine).1 = .ok n)
    (read : (E.values 1 n (E.solved s.engine.engine)).1 = .ok xs) (length : xs.length = n)
    (assigned : ∀ x ∈ xs, x ≠ 0)
    (solved : runSolve E.observed s =
      (.ok (.satisfiable, some (.ofList (false :: xs.map fun x => decide (0 < x)))), v))
    (calls : v.engine.calls = (opening n ++ valueCalls 1 xs).reverse)
    (live : v.released = false) (idle : v.stream = [])
    (recount : (E.varCount v.engine.engine).1 = .ok n) (small : n ≤ maxVar) :
    Advanced E s.engine.engine (do let a ← (runNext E.observed s).1; pure (.item a))
      (runNext E.observed s).2.engine.calls.reverse := by
  have size : (Assignment.ofList (false :: xs.map fun x => decide (0 < x))).size = n + 1 := by
    simp [Assignment.ofList, Assignment.size, length]
  have ruled := ingestBlocking_sent live idle recount size
  rcases blocked : ingestBlocking E.observed (.ofList (false :: xs.map fun x => decide (0 < x))) v
    with ⟨r, t⟩
  rw [blocked] at ruled
  rw [runNext_blocked solved blocked]
  rcases ruled with ⟨ok, sent⟩ | ⟨p, panicked, panics⟩
  · obtain rfl : r = .ok () := ok
    have all : t.engine.calls.reverse = opening n ++ valueCalls 1 xs ++ [.varCount (.ok n)] ++
        additions (opposed 1 xs ++ [0]) := by
      rw [sent, calls, blockingClause_values (length ▸ small)]
      simp [additions]
    rw [all]
    exact .found status count read length assigned
  · obtain rfl : r = .panic p := panicked
    exact .abandoned panics

theorem runNext_advanced (steady : E.Steady) (numbered : E.Numbered s.engine.engine)
    (live : s.released = false) (idle : s.stream = []) (unmade : s.engine.calls = []) :
    Advanced E s.engine.engine (do let a ← (runNext E.observed s).1; pure (.item a))
      (runNext E.observed s).2.engine.calls.reverse := by
  obtain ⟨state, asked⟩ := callSolve_made (E := E) s
  have count := steady.solve s.engine.engine
  have reached : E.solved s.engine.engine = (E.varCount (E.solve s.engine.engine).2).2 := rfl
  rcases solved : E.solve s.engine.engine with ⟨st | x | p, e⟩ <;>
    rw [solved] at asked count reached
  · have status := congrArg Prod.fst solved
    let u : Session (Observed σ) := { s.made e [.solve (.ok st)] with state := state }
    replace asked : callSolve E.observed s = (.ok st, u) := asked
    have before : u.engine.calls = [.solve (.ok st)] := congrArg (_ :: ·) unmade
    by_cases found : st = .satisfiable
    · subst found
      rcases counted : E.varCount e with ⟨n | x | p, e'⟩
      · simp only [counted] at count reached
        have small := numbered n count.symm
        obtain ⟨r, e'', calls, read, valued⟩ := readAssignment_valued (s := u) live small counted
        have tried := runSolve_found live asked read
        cases valued with
        | all xs values assigned =>
          refine advanced_found status count.symm ?_ (Engine.length_values values) assigned
            tried ?_ live idle ?_ small
          · rw [reached, values]
          · simp [made, before, opening]
          · have recounted := steady.varCount e
            rw [counted] at recounted
            exact (steady.values values).trans recounted
        | zero xs short values assigned =>
          rw [runNext, Step.bind_error tried]
          have all : (u.made e'' ([.varCount (.ok n)] ++
              valueCalls 1 (xs ++ [0]))).engine.calls.reverse =
                opening n ++ valueCalls 1 (xs ++ [0]) := by
            simp [made, before, opening]
          rw [all, Nat.add_comm]
          refine .unassigned status count.symm ?_ short assigned
          rw [reached, values]
        | abandoned panics =>
          rw [runNext_abandoned tried]
          exact .abandoned panics
      · exact x.elim
      · have tried := readAssignment_abandoned (s := u) live counted
        rw [runNext_abandoned (runSolve_found live asked tried)]
        exact .abandoned fun calm => calm.varCount e p (congrArg Prod.fst counted)
    · have ended : runNext E.observed s = (.ok none, u) := by
        rw [runNext, Step.bind_ok (runSolve_other live asked found)]
        cases st <;> rfl
      rw [ended]
      exact before ▸ .undecided status found
  · let u : Session (Observed σ) := { s.made e [.solve (.error x)] with state := state }
    replace asked : callSolve E.observed s = (.error (.ofEngine x), u) := asked
    have stopped : runSolve E.observed s = (.error (.ofEngine x), u) := by
      rw [runSolve, Step.bind_ok (ready_held live), Step.bind_error asked]
    have made : u.engine.calls = [.solve (.error x)] := congrArg (_ :: ·) unmade
    rw [runNext, Step.bind_error stopped]
    exact made ▸ .failed (congrArg Prod.fst solved)
  · let u : Session (Observed σ) := { s.made e [.solve (.panic p)] with state := state }
    have stopped : runSolve E.observed s = (.panic p, u) := by
      rw [runSolve, Step.bind_ok (ready_held live), Step.bind_apply, asked]
      rfl
    rw [runNext_abandoned stopped]
    exact .abandoned fun calm => calm.solve _ p (congrArg Prod.fst solved)

theorem run_idle {options : Config} {e e' : σ} {s : Session σ}
    (created : create E options e = (.ok s, e')) (os : List Operation)
    (sound : (Client.run E ⟨s, []⟩ os).2.session.poisoned = false) :
    (Client.run E ⟨s, []⟩ os).2.session.stream = [] := by
  obtain ⟨t, valid, rfl⟩ : ∃ t : Session (Observed σ), Valid t ∧ t.mapEngine Observed.engine = s := by
    have valid := create_valid (E := E) options e
    have same := commutes_configure (observed_maps E) options ⟨e, []⟩
    unfold create at valid created
    rcases configured : configure E.observed options ⟨e, []⟩ with ⟨a | x | p, o⟩ <;>
      rw [configured] at valid same <;> simp only [same] at created
    · obtain rfl := Outcome.ok.inj (Prod.mk.inj created).1
      exact ⟨_, valid, rfl⟩
    · cases created
    · cases created
  have same := Client.run_maps (observed_maps E) os ⟨t, []⟩
  have kept := Client.run_valid (E := E) os (c := ⟨t, []⟩) valid
  change (Client.run E (Client.mapEngine Observed.engine ⟨t, []⟩) os).2.session.poisoned = _ at sound
  change (Client.run E (Client.mapEngine Observed.engine ⟨t, []⟩) os).2.session.stream = _
  rw [same] at sound ⊢
  exact (kept.2 sound).idle

end Session

theorem Advanced.assigned {e : σ} {r : Outcome Error Reply} {calls : List EngineCall}
    (advanced : Advanced E e r calls) (calm : E.Calm) :
    (∃ a, r = .ok (.item (some a))) ↔ E.Assigns e := by
  constructor
  · rintro ⟨a, rfl⟩
    cases advanced with
    | found status count read length assigned => exact ⟨status, _, _, count, read, assigned⟩
  · rintro ⟨status, n, xs, count, read, assigned⟩
    cases advanced with
    | found => exact ⟨_, rfl⟩
    | @unassigned m ys _ count' read' short =>
      obtain rfl : n = m := Outcome.ok.inj (count.symm.trans count')
      have first := Engine.values_take (m := ys.length + 1) short (Prod.ext read rfl)
      have listed : ys ++ [0] = xs.take (ys.length + 1) := Outcome.ok.inj (read'.symm.trans first)
      have zero : (0 : Int) ∈ xs.take (ys.length + 1) := listed ▸ by simp
      exact absurd rfl (assigned 0 (List.mem_of_mem_take zero))
    | undecided status' other => exact absurd (Outcome.ok.inj (status'.symm.trans status)) other
    | failed status' =>
      rw [status] at status'
      cases status'
    | abandoned panics => exact absurd calm panics

theorem Advanced.ne_solutionLength {e : σ} {r : Outcome Error Reply} {calls : List EngineCall}
    (advanced : Advanced E e r calls) (m n : Nat) : r ≠ .error (.solutionLength m n) := by
  cases advanced with
  | @failed x => cases x <;> nofun
  | _ => nofun

def solveAnswers (calls : List EngineCall) : List (Outcome EngineError Status) :=
  calls.filterMap fun
    | .solve answer => some answer
    | _ => none

theorem solveAnswers_valueCalls (v : Nat) (xs : List Int) : solveAnswers (valueCalls v xs) = [] := by
  induction xs generalizing v with
  | nil => rfl
  | cons x xs ih => exact ih (v + 1)

theorem solveAnswers_additions (ns : List Int32) : solveAnswers (additions ns) = [] := by
  induction ns with
  | nil => rfl
  | cons n ns ih => exact ih

theorem solveAnswers_append (calls later : List EngineCall) :
    solveAnswers (calls ++ later) = solveAnswers calls ++ solveAnswers later :=
  List.filterMap_append

theorem Advanced.solves_once {e : σ} {r : Outcome Error Reply} {calls : List EngineCall}
    (advanced : Advanced E e r calls) (calm : E.Calm) : solveAnswers calls = [(E.solve e).1] := by
  cases advanced with
  | found status =>
    rw [solveAnswers_append, solveAnswers_append, solveAnswers_append, solveAnswers_additions,
      solveAnswers_valueCalls, status]
    rfl
  | unassigned status =>
    rw [solveAnswers_append, solveAnswers_valueCalls, status]
    rfl
  | undecided status => exact status ▸ rfl
  | failed status => exact status ▸ rfl
  | abandoned panics => exact absurd calm panics

namespace Client

theorem entry_advanced (steady : E.Steady) {c : Client σ} {i : Nat}
    (numbered : E.Numbered c.session.engine) (live : c.session.released = false)
    (sound : c.session.poisoned = false) (idle : c.session.stream = []) (running : i ∉ c.ended) :
    Advanced E c.session.engine (c.entry E (.advance i)).answer.result
      (c.entry E (.advance i)).calls.reverse := by
  have advanced := Session.runNext_advanced (s := c.observe.session) steady numbered live idle rfl
  obtain ⟨calls, unlocked⟩ :=
    Session.exclusive_sound (s := c.observe.session) sound true (Session.runNext E.observed)
  have next : Session.nextSolution E.observed c.observe.session = _ := unlocked
  have still : i ∉ c.observe.ended := running
  rw [entry_answer, entry]
  simp only [perform, advance, if_neg still, next]
  rcases result : Session.runNext E.observed c.observe.session with ⟨(_ | a) | x | p, t⟩ <;>
    rw [result] at advanced <;> exact advanced

end Client

/-- A step of an iterator that has not ended makes one solve call and goes by its answer; it yields
an assignment just if one is found without a gap, and rules it out at once. After an item that is no
assignment the iterator yields nothing and does nothing, whatever happens to the session. -/
theorem iterator_steps (steady : E.Steady) {options : Config} {e e' : σ} {s : Session σ}
    (created : Session.create E options e = (.ok s, e')) (before : List Operation) (i : Nat) :
    let past := Client.chronicle E ⟨s, []⟩ before
    let c := (Client.run E ⟨s, []⟩ before).2
    let x := c.entry E (.advance i)
    (c.session.released = false → c.session.poisoned = false → (∀ y ∈ past, ¬y.Ends i) →
      E.Numbered c.session.engine →
      Advanced E c.session.engine x.answer.result x.calls.reverse ∧
      (∀ m n, x.answer.result ≠ .error (.solutionLength m n)) ∧
      (E.Calm → solveAnswers x.calls = [(E.solve c.session.engine).1] ∧
        ((∃ a, x.answer.result = .ok (.item (some a))) ↔ E.Assigns c.session.engine))) ∧
    ((∃ y ∈ past, y.Ends i) →
      c.perform E (.advance i) = (⟨.ok (.item none), []⟩, c) ∧ x.calls = []) := by
  intro past c x
  obtain rfl := Session.create_ok created
  have initial : Client.Stands [] (⟨⟨e', false, false, .noResult, options.traceGeneration,
    options.measureAllCalls, 0, []⟩, []⟩ : Client σ) := ⟨by simp, rfl, by simp⟩
  have stands : Client.Stands past c := Client.chronicle_invariant (P := fun _ => True)
    (fun _ _ o stands _ => stands.perform o) initial before fun _ _ => trivial
  refine ⟨fun live sound unended numbered => ?_, fun ended => ?_⟩
  · have running : i ∉ c.ended := fun ended => by
      obtain ⟨y, earlier, ends⟩ := (stands.ended i).mp ended
      exact unended y earlier ends
    have advanced := Client.entry_advanced steady numbered live sound
      (Session.run_idle created before sound) running
    refine ⟨advanced, advanced.ne_solutionLength, fun calm => ⟨?_, advanced.assigned calm⟩⟩
    have once := advanced.solves_once calm
    rw [solveAnswers, List.filterMap_reverse] at once
    exact List.reverse_eq_cons_iff.mp once
  · have stopped : i ∈ c.ended := (stands.ended i).mpr ended
    have still : i ∈ c.observe.ended := stopped
    refine ⟨Client.perform_ended_iterator stopped, ?_⟩
    change (c.observe.perform E.observed (.advance i)).2.session.engine.calls = []
    rw [Client.perform_ended_iterator still]
    rfl

-- A scripted engine that abandons no call, and keeps no record.
def Scripted.patient : Engine Scripted.State :=
  { Scripted.engine with
    setVerbosity := fun _ => pure ()
    setLead := fun _ => pure ()
    setOutput := fun _ => pure ()
    add := fun n => Step.modify (·.touch n)
    value := fun n => do pure ((← Step.get).script.model.getD n.natAbs 0)
    solve := do
      match (← Step.get).results with
      | .status st :: rest =>
          Step.modify fun s => { s with results := rest }
          pure st
      | _ => Step.fail (.message "no scripted status left") }

theorem Scripted.patient_steady : Scripted.patient.Steady where
  solve e := by
    rcases e with ⟨script, _ | ⟨_ | _ | _, results⟩⟩ <;> rfl
  value n e := rfl
  varCount e := rfl

theorem Scripted.patient_calm : Scripted.patient.Calm where
  solve e p := by
    rcases e with ⟨script, _ | ⟨_ | _ | _, results⟩⟩ <;> nofun
  varCount e p := nofun
  value n e p := nofun
  add n e p := nofun

theorem two_values_ruled_out :
    let e : Scripted.State := ⟨{ model := #[0, 5, -3], varCount := some 2 },
      [.status .satisfiable, .status .unknown], 0, 0, none, false, false, []⟩
    let s : Session Scripted.State := ⟨e, false, false, .noResult, false, false, 0, []⟩
    let x := Client.entry Scripted.patient ⟨s, []⟩ (.advance 0)
    let c := (Client.run Scripted.patient ⟨s, []⟩ [.advance 0, .advance 0, .solve]).2
    Session.create Scripted.patient {} e = (.ok s, e) ∧
      x.answer.result = .ok (.item (some (.ofList [false, true, false]))) ∧
      x.calls.reverse = [.solve (.ok .satisfiable), .varCount (.ok 2), .value 1 (.ok 5),
        .value 2 (.ok (-3)), .varCount (.ok 2), .add (-1), .add 2, .add 0] ∧
      Advanced Scripted.patient e x.answer.result x.calls.reverse ∧
      solveAnswers x.calls = [.ok .satisfiable] ∧ Scripted.patient.Assigns e ∧
      c.perform Scripted.patient (.advance 0) = (⟨.ok (.item none), []⟩, c) := by
  intro e s x c
  have created : Session.create Scripted.patient {} e = (.ok s, e) := rfl
  have yields : x.answer.result = .ok (.item (some (.ofList [false, true, false]))) := rfl
  obtain ⟨first, -⟩ := iterator_steps Scripted.patient_steady created [] 0
  obtain ⟨-, stopped⟩ :=
    iterator_steps Scripted.patient_steady created [.advance 0, .advance 0, .solve] 0
  have numbered : Scripted.patient.Numbered e := fun n count => Outcome.ok.inj count ▸ by decide
  obtain ⟨advanced, -, calm⟩ :=
    first rfl rfl (fun _ earlier => absurd earlier List.not_mem_nil) numbered
  obtain ⟨once, assigns⟩ := calm Scripted.patient_calm
  let y := (Client.perform Scripted.patient ⟨s, []⟩ (.advance 0)).2.entry Scripted.patient (.advance 0)
  have ends : y.Ends 0 := ⟨rfl, .inl rfl⟩
  have listed : y ∈ Client.chronicle Scripted.patient ⟨s, []⟩ [.advance 0, .advance 0, .solve] :=
    List.mem_cons_of_mem _ List.mem_cons_self
  have calls : x.calls.reverse = [.solve (.ok .satisfiable), .varCount (.ok 2), .value 1 (.ok 5),
      .value 2 (.ok (-3)), .varCount (.ok 2), .add (-1), .add 2, .add 0] := by decide +kernel
  have solved : solveAnswers x.calls = [.ok .satisfiable] := once
  have found : Scripted.patient.Assigns e := assigns.mp ⟨_, yields⟩
  have ended := (stopped ⟨y, listed, ends⟩).1
  exact ⟨created, yields, calls, advanced, solved, found, ended⟩

end SatSession
