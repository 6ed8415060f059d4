import SatSession.Minimize

/-!
All schedules of a minimization: the search and the recorder move in any order. The search does
not look at the recorder, so it checks the same parameters in every schedule. A finding is recorded,
waits in the queue, or was dropped behind a recording that panicked.
-/

set_option autoImplicit false

namespace SatSession

namespace Family

def finding? (F : Family) (k : Int) : Option Finding :=
  match F.isFeasible k with
  | .ok (status, solution) => some ⟨k, status, solution⟩
  | _ => none

def quiet (F : Family) : Family := { F with recordPanic := fun _ => none }

end Family

namespace Bisection

variable {b c : Bisection} {k : Int} {feasible : Bool}

theorem next_check (next : b.next = .check k) :
    b.started = false ∧ k = b.hi ∨ b.started = true ∧ b.lo ≤ k ∧ k < b.hi := by
  cases started : b.started with
  | false =>
    simp only [Bisection.next, started, Bool.not_false, if_true, Next.check.injEq] at next
    exact .inl ⟨rfl, next.symm⟩
  | true =>
    simp only [Bisection.next, started, Bool.not_true, Bool.false_eq_true, if_false] at next
    split at next
    next apart =>
      split at next
      · simp only [Next.check.injEq] at next
        exact .inr ⟨rfl, by omega, by omega⟩
      · cases next
    next => cases next

theorem next_ne_overflow (near : b.hi - b.lo < farthest) : b.next ≠ .overflow := by
  unfold Bisection.next
  split
  · simp
  · split
    · simp
    · simp

structure Narrowed (b : Bisection) (k : Int) (c : Bisection) : Prop where
  ordered : c.lo ≤ c.hi
  above : b.lo ≤ c.lo
  below : c.hi ≤ b.hi
  started : c.started = true
  outside : k < c.lo ∨ c.hi ≤ k
  closer : b.started = true → c.hi - c.lo < b.hi - b.lo

theorem narrowed (ordered : b.lo ≤ b.hi) (next : b.next = .check k)
    (learned : b.learn k feasible = some c) : b.Narrowed k c := by
  rcases next_check next with ⟨fresh, rfl⟩ | ⟨started, least, less⟩
  · cases feasible with
    | false => simp [learn, fresh] at learned
    | true =>
      simp only [learn, fresh, Option.some.injEq] at learned
      subst learned
      exact ⟨ordered, Int.le_refl _, Int.le_refl _, rfl, .inr (Int.le_refl _), by simp [fresh]⟩
  · cases feasible <;> simp only [learn, started, Option.some.injEq] at learned <;> subst learned
    · constructor <;> simp only <;> omega
    · constructor <;> simp only <;> omega

end Bisection

namespace Minimize

variable {F G : Family} {s t u : State} {m : Move} {ms : List Move}

section Moves

def State.check (s : State) (k : Int) : State := { s with checked := s.checked ++ [k] }

/-- What one move does, and when it is possible. -/
inductive Moved (F : Family) (s : State) : State → Prop where
  | learn {k : Int} {status : Status} {solution : Option Assignment} {b : Bisection}
      (searching : s.result = none) (next : s.search.next = .check k)
      (checked : F.isFeasible k = .ok (status, solution))
      (learned : s.search.learn k (status = .satisfiable) = some b) :
      Moved F s { send (s.check k) ⟨k, status, solution⟩ with search := b }
  | infeasible {k : Int} {status : Status} {solution : Option Assignment}
      (searching : s.result = none) (next : s.search.next = .check k)
      (checked : F.isFeasible k = .ok (status, solution))
      (refused : s.search.learn k (status = .satisfiable) = none) :
      Moved F s (finish (send (s.check k) ⟨k, status, solution⟩) (.ok ⟨k, false, false⟩))
  | fail {k : Int} {e : Error} (searching : s.result = none) (next : s.search.next = .check k)
      (checked : F.isFeasible k = .error e) : Moved F s (finish (s.check k) (.error e))
  | raise {k : Int} {p : Panic} (searching : s.result = none) (next : s.search.next = .check k)
      (checked : F.isFeasible k = .panic p) : Moved F s (finish (s.check k) (.panic p))
  | done {m : Minimum} (searching : s.result = none) (next : s.search.next = .done m) :
      Moved F s (finish s (.ok m))
  | overflow (searching : s.result = none) (next : s.search.next = .overflow) :
      Moved F s (finish s (.panic (.text "attempt to subtract with overflow")))
  | receive {f : Finding} {q : List Finding} (running : s.recorder = .running)
      (waiting : s.queue = f :: q) (recorded : F.recordPanic f = none) :
      Moved F s { s with queue := q, recorded := s.recorded ++ [f] }
  | crash {f : Finding} {q : List Finding} {p : Panic} (running : s.recorder = .running)
      (waiting : s.queue = f :: q) (panics : F.recordPanic f = some p) :
      Moved F s { s with queue := [], recorder := .ended (some p) }
  | close (running : s.recorder = .running) (empty : s.queue = [])
      (searched : s.result.isSome = true) : Moved F s { s with recorder := .ended none }

theorem send_eq (s : State) (f : Finding) :
    ∃ queue, queue.length ≤ s.queue.length + 1 ∧ send s f = { s with queue := queue } := by
  unfold send
  split
  · exact ⟨_, by simp, rfl⟩
  · exact ⟨s.queue, by simp, rfl⟩

@[simp] theorem send_search (s : State) (f : Finding) : (send s f).search = s.search := by
  obtain ⟨queue, -, sent⟩ := send_eq s f
  rw [sent]

@[simp] theorem send_result (s : State) (f : Finding) : (send s f).result = s.result := by
  obtain ⟨queue, -, sent⟩ := send_eq s f
  rw [sent]

@[simp] theorem send_checked (s : State) (f : Finding) : (send s f).checked = s.checked := by
  obtain ⟨queue, -, sent⟩ := send_eq s f
  rw [sent]

theorem moved_of_applySearch (F : Family) (searching : s.result = none) :
    Moved F s (applySearch F s) := by
  cases next : s.search.next with
  | done m =>
    simp only [applySearch, next]
    exact .done searching next
  | overflow =>
    simp only [applySearch, next]
    exact .overflow searching next
  | check k =>
    rcases checked : F.isFeasible k with ⟨status, solution⟩ | e | p
    · cases learned : s.search.learn k (status = .satisfiable) with
      | some b =>
        simp only [applySearch, next, checked, send_search, learned]
        exact .learn searching next checked learned
      | none =>
        simp only [applySearch, next, checked, send_search, learned]
        exact .infeasible searching next checked learned
    · simp only [applySearch, next, checked]
      exact .fail searching next checked
    · simp only [applySearch, next, checked]
      exact .raise searching next checked

theorem apply_search (moved : apply F s .search = some t) :
    s.result = none ∧ t = applySearch F s := by
  simp only [apply, Option.ite_none_right_eq_some, Option.isNone_iff_eq_none,
    Option.some.injEq] at moved
  exact ⟨moved.1, moved.2.symm⟩

theorem moved_of_apply (moved : apply F s m = some t) : Moved F s t := by
  cases m with
  | search =>
    obtain ⟨searching, rfl⟩ := apply_search moved
    exact moved_of_applySearch F searching
  | record =>
    cases running : s.recorder with
    | ended panic => simp [apply, running] at moved
    | running =>
      cases waiting : s.queue with
      | nil =>
        simp only [apply, running, waiting, Option.ite_none_right_eq_some, Option.some.injEq]
          at moved
        obtain ⟨searched, rfl⟩ := moved
        simpa only [waiting] using Moved.close (F := F) running waiting searched
      | cons f q =>
        cases recorded : F.recordPanic f with
        | none =>
          simp only [apply, running, waiting, recorded, Option.some.injEq] at moved
          subst moved
          simpa only [running] using Moved.receive running waiting recorded
        | some p =>
          simp only [apply, running, waiting, recorded, Option.some.injEq] at moved
          subst moved
          exact .crash running waiting recorded

def follow (F : Family) (s : State) : List Move → Option State
  | [] => some s
  | m :: ms => (apply F s m).bind (follow F · ms)

theorem follow_cons (followed : follow F s (m :: ms) = some u) :
    ∃ t, apply F s m = some t ∧ follow F t ms = some u :=
  Option.bind_eq_some_iff.mp followed

theorem follow_keeps {P : State → Prop} (kept : ∀ s t, P s → Moved F s t → P t) (start : P s)
    (followed : follow F s ms = some t) : P t := by
  induction ms generalizing s with
  | nil =>
    obtain rfl := Option.some.inj followed
    exact start
  | cons m ms ih =>
    obtain ⟨u, moved, rest⟩ := follow_cons followed
    exact ih (kept s u start (moved_of_apply moved)) rest

end Moves

section Search

/-- What holds of the search all along. As long as it goes on, what was checked is outside its
bounds, so that no parameter is checked twice. -/
structure Searched (F : Family) (s : State) : Prop where
  ordered : s.search.lo ≤ s.search.hi
  near : s.search.hi - s.search.lo < Bisection.farthest
  distinct : s.checked.Nodup
  outside : s.result = none → ∀ k ∈ s.checked, k < s.search.lo ∨ s.search.hi ≤ k
  fresh : s.result = none → s.search.started = false → s.checked = []
  raised : ∀ p, s.result = some (.panic p) → ∃ k ∈ s.checked, F.isFeasible k = .panic p

theorem Searched.start (ordered : F.lower ≤ F.upper)
    (near : F.upper - F.lower < Bisection.farthest) : Searched F (start F) where
  ordered := ordered
  near := near
  distinct := List.nodup_nil
  outside _ _ checked := absurd checked List.not_mem_nil
  fresh _ _ := rfl
  raised _ ended := by cases ended

theorem Searched.distinct_check (searched : Searched F s) (searching : s.result = none) {k : Int}
    (next : s.search.next = .check k) : (s.checked ++ [k]).Nodup := by
  have new : k ∉ s.checked := by
    intro checked
    rcases Bisection.next_check next with ⟨fresh, -⟩ | ⟨-, least, less⟩
    · rw [searched.fresh searching fresh] at checked
      exact absurd checked List.not_mem_nil
    · have outside := searched.outside searching k checked
      omega
  simpa [List.nodup_append] using ⟨searched.distinct, fun j checked same => new (same ▸ checked)⟩

theorem Searched.ended (searched : Searched F s) {checked : List Int} (distinct : checked.Nodup)
    {r : Outcome Error Minimum}
    (raised : ∀ p, r = .panic p → ∃ k ∈ checked, F.isFeasible k = .panic p) (queue : List Finding) :
    Searched F { s with checked := checked, queue := queue, result := some r } where
  ordered := searched.ordered
  near := searched.near
  distinct := distinct
  outside searching := by cases searching
  fresh searching := by cases searching
  raised p ended := raised p (Option.some.inj ended)

theorem Searched.moved (searched : Searched F s) (moved : Moved F s t) : Searched F t := by
  cases moved with
  | @learn k status solution b searching next checked learned =>
    obtain ⟨queue, -, sent⟩ := send_eq (s.check k) ⟨k, status, solution⟩
    have narrowed := Bisection.narrowed searched.ordered next learned
    rw [sent]
    refine ⟨narrowed.ordered, ?_, searched.distinct_check searching next, ?_, ?_, ?_⟩
    · have near := searched.near
      have above := narrowed.above
      have below := narrowed.below
      simp only
      omega
    · intro _ j checked
      have above := narrowed.above
      have below := narrowed.below
      rcases List.mem_append.mp checked with earlier | now
      · have outside := searched.outside searching j earlier
        simp only
        omega
      · obtain rfl := List.mem_singleton.mp now
        exact narrowed.outside
    · intro _ fresh
      simp [narrowed.started] at fresh
    · intro p ended
      simp [State.check, searching] at ended
  | @infeasible k status solution searching next checked =>
    obtain ⟨queue, -, sent⟩ := send_eq (s.check k) ⟨k, status, solution⟩
    rw [sent]
    exact searched.ended (searched.distinct_check searching next) (fun p same => by cases same)
      queue
  | fail searching next checked =>
    exact searched.ended (searched.distinct_check searching next) (fun p same => by cases same)
      s.queue
  | @raise k p searching next checked =>
    refine searched.ended (searched.distinct_check searching next) (fun _ same => ?_) s.queue
    exact ⟨k, by simp, by rw [checked, Outcome.panic.inj same]⟩
  | done searching next =>
    exact searched.ended searched.distinct (fun p same => by cases same) s.queue
  | overflow searching next => exact absurd next (Bisection.next_ne_overflow searched.near)
  | receive | crash | close =>
    exact ⟨searched.ordered, searched.near, searched.distinct, searched.outside, searched.fresh,
      searched.raised⟩

end Search

section Recorder

def findings (F : Family) (s : State) : List Finding := s.checked.filterMap F.finding?

theorem findings_check (F : Family) (s : State) (k : Int) :
    findings F (s.check k) = findings F s ++ (F.finding? k).toList := by
  cases found : F.finding? k <;> simp [findings, State.check, found]

/-- Where the findings are: recorded, in the queue, or dropped behind one whose recording
panicked. -/
structure Relayed (F : Family) (s : State) : Prop where
  calm : ∀ f ∈ s.recorded, F.recordPanic f = none
  running : s.recorder = .running → findings F s = s.recorded ++ s.queue
  closed : s.recorder = .ended none → s.result.isSome = true ∧ findings F s = s.recorded
  crashed : ∀ p, s.recorder = .ended (some p) → ∃ f dropped,
    findings F s = s.recorded ++ f :: dropped ∧ F.recordPanic f = some p

theorem Relayed.start (F : Family) : Relayed F (start F) where
  calm _ recorded := absurd recorded List.not_mem_nil
  running _ := rfl
  closed ended := by cases ended
  crashed _ ended := by cases ended

theorem Relayed.look (relayed : Relayed F s) (b : Bisection) : Relayed F { s with search := b } :=
  ⟨relayed.calm, relayed.running, relayed.closed, relayed.crashed⟩

theorem Relayed.finish (relayed : Relayed F s) (r : Outcome Error Minimum) :
    Relayed F (finish s r) :=
  ⟨relayed.calm, relayed.running, fun ended => ⟨rfl, (relayed.closed ended).2⟩, relayed.crashed⟩

theorem Relayed.check (relayed : Relayed F s) {k : Int} (nothing : F.finding? k = none) :
    Relayed F (s.check k) := by
  have same : findings F (s.check k) = findings F s := by simp [findings_check, nothing]
  refine ⟨relayed.calm, fun running => ?_, fun ended => ?_, fun p ended => ?_⟩ <;> rw [same]
  · exact relayed.running running
  · exact relayed.closed ended
  · exact relayed.crashed p ended

theorem Relayed.send (relayed : Relayed F s) (searching : s.result = none) {k : Int} {f : Finding}
    (found : F.finding? k = some f) : Relayed F (send (s.check k) f) := by
  have grown : findings F (s.check k) = findings F s ++ [f] := by simp [findings_check, found]
  unfold Minimize.send
  split
  next running =>
    refine ⟨relayed.calm, fun _ => ?_, fun ended => ?_, fun p ended => ?_⟩
    · change findings F (s.check k) = s.recorded ++ (s.queue ++ [f])
      rw [grown, relayed.running running, List.append_assoc]
    · cases running.symm.trans ended
    · cases running.symm.trans ended
  next stopped =>
    refine ⟨relayed.calm, fun running => absurd running stopped, fun ended => ?_, fun p ended => ?_⟩
    · have searched := (relayed.closed ended).1
      simp [searching] at searched
    · obtain ⟨g, dropped, upTo, panics⟩ := relayed.crashed p ended
      exact ⟨g, dropped ++ [f], by rw [grown, upTo]; simp [State.check], panics⟩

theorem Relayed.moved (relayed : Relayed F s) (moved : Moved F s t) : Relayed F t := by
  cases moved with
  | learn searching next checked learned =>
    exact (relayed.send searching (by simp [Family.finding?, checked])).look _
  | infeasible searching next checked =>
    exact (relayed.send searching (by simp [Family.finding?, checked])).finish _
  | fail searching next checked =>
    exact (relayed.check (by simp [Family.finding?, checked])).finish _
  | raise searching next checked =>
    exact (relayed.check (by simp [Family.finding?, checked])).finish _
  | done | overflow => exact relayed.finish _
  | @receive f q running waiting recorded =>
    refine ⟨fun g member => ?_, fun _ => ?_, fun ended => ?_, fun p ended => ?_⟩
    · rcases List.mem_append.mp member with earlier | now
      · exact relayed.calm g earlier
      · exact List.mem_singleton.mp now ▸ recorded
    · have placed := relayed.running running
      rw [waiting] at placed
      simpa [findings] using placed
    · cases running.symm.trans ended
    · cases running.symm.trans ended
  | @crash f q p running waiting panics =>
    have placed := relayed.running running
    rw [waiting] at placed
    refine ⟨relayed.calm, fun running => ?_, fun ended => ?_, fun p' ended => ?_⟩
    · cases running
    · cases ended
    · cases ended
      exact ⟨f, q, placed, panics⟩
  | close running empty searched =>
    have placed := relayed.running running
    rw [empty, List.append_nil] at placed
    refine ⟨relayed.calm, fun running => ?_, fun _ => ⟨searched, placed⟩, fun p ended => ?_⟩
    · cases running
    · cases ended

end Recorder

section Termination

def work (s : State) : Nat :=
  (if s.result.isNone then
    2 * ((s.search.hi - s.search.lo).toNat + (if s.search.started then 0 else 1)) + 1 else 0)
    + s.queue.length + (match s.recorder with | .running => 1 | .ended _ => 0)

-- However far apart the bounds are.
theorem Moved.ordered (ordered : s.search.lo ≤ s.search.hi) (moved : Moved F s t) :
    t.search.lo ≤ t.search.hi := by
  cases moved with
  | learn searching next checked learned => exact (Bisection.narrowed ordered next learned).ordered
  | infeasible | fail | raise | done | overflow =>
    simpa [Minimize.finish, State.check] using ordered
  | receive | crash | close => exact ordered

theorem Moved.work_lt (ordered : s.search.lo ≤ s.search.hi) (moved : Moved F s t) :
    work t < work s := by
  cases moved with
  | @learn k status solution b searching next checked learned =>
    obtain ⟨queue, longer, sent⟩ := send_eq (s.check k) ⟨k, status, solution⟩
    obtain ⟨ordered, above, below, started, -, closer⟩ :=
      Bisection.narrowed ordered next learned
    rw [sent]
    simp only [work, State.check, started, searching, Option.isNone_none, if_true] at longer ⊢
    cases fresh : s.search.started with
    | false =>
      simp only [Bool.false_eq_true, if_false]
      omega
    | true =>
      have closer := closer fresh
      simp only [if_true]
      omega
  | @infeasible k status solution searching next checked =>
    obtain ⟨queue, longer, sent⟩ := send_eq (s.check k) ⟨k, status, solution⟩
    rw [sent]
    simp only [work, Minimize.finish, State.check, searching, Option.isNone_none,
      Option.isNone_some, Bool.false_eq_true, if_false, if_true] at longer ⊢
    rcases Bisection.next_check next with ⟨fresh, -⟩ | ⟨-, least, less⟩
    · simp only [fresh, Bool.false_eq_true, if_false]
      omega
    · omega
  | fail searching | raise searching | done searching | overflow searching =>
    simp only [work, Minimize.finish, State.check, searching, Option.isNone_none,
      Option.isNone_some, Bool.false_eq_true, if_false, if_true]
    omega
  | receive running waiting => simp [work, running, waiting]
  | crash running waiting =>
    simp only [work, running, waiting, List.length_nil, List.length_cons]
    omega
  | close running empty => simp [work, running]

theorem follow_searched (searched : Searched F s) (followed : follow F s ms = some t) :
    Searched F t :=
  follow_keeps (fun _ _ => Searched.moved) searched followed

theorem length_follow (ordered : s.search.lo ≤ s.search.hi) (followed : follow F s ms = some t) :
    ms.length + work t ≤ work s := by
  induction ms generalizing s with
  | nil =>
    obtain rfl := Option.some.inj followed
    simp
  | cons m ms ih =>
    obtain ⟨u, moved, rest⟩ := follow_cons followed
    have moved := moved_of_apply moved
    have less := moved.work_lt ordered
    have fewer := ih (moved.ordered ordered) rest
    rw [List.length_cons]
    omega

theorem work_start (F : Family) : work (start F) ≤ moves F := by
  simp only [work, start, Bisection.start, moves, Option.isNone_none, Bool.false_eq_true, if_true,
    if_false, List.length_nil]
  omega

theorem next_possible (running : outcome? s = none) :
    ∃ m t, apply F s m = some t ∧ ∀ fuel, runFor F (fuel + 1) s = runFor F fuel t := by
  cases searched : s.result with
  | none =>
    have moved : apply F s .search = some (applySearch F s) := by simp [apply, searched]
    exact ⟨.search, _, moved, fun fuel => by simp [runFor, moved]⟩
  | some r =>
    have stuck : apply F s .search = none := by simp [apply, searched]
    suffices possible : ∃ t, apply F s .record = some t by
      obtain ⟨t, moved⟩ := possible
      exact ⟨.record, t, moved, fun fuel => by simp [runFor, stuck, moved]⟩
    cases recorder : s.recorder with
    | ended panic => cases r <;> cases panic <;> simp [outcome?, searched, recorder] at running
    | running =>
      cases waiting : s.queue with
      | nil =>
        exact ⟨{ s with recorder := .ended none }, by simp [apply, recorder, waiting, searched]⟩
      | cons f q => cases panics : F.recordPanic f <;> simp [apply, recorder, waiting, panics]

theorem apply_returned {r : Outcome Error Minimum} (returned : outcome? s = some r) (m : Move) :
    apply F s m = none := by
  cases searched : s.result with
  | none => simp [outcome?, searched] at returned
  | some r' =>
    cases recorder : s.recorder with
    | running => cases r' <;> simp [outcome?, searched, recorder] at returned
    | ended panic => cases m <;> simp [apply, searched, recorder]

theorem follow_runFor {fuel : Nat} (ordered : s.search.lo ≤ s.search.hi)
    (enough : work s ≤ fuel) :
    ∃ ms r, follow F s ms = some (runFor F fuel s) ∧ outcome? (runFor F fuel s) = some r := by
  induction fuel generalizing s with
  | zero =>
    cases running : outcome? s with
    | some r => exact ⟨[], r, rfl, running⟩
    | none =>
      obtain ⟨m, t, moved, -⟩ := next_possible (F := F) running
      have less := (moved_of_apply moved).work_lt ordered
      omega
  | succ fuel ih =>
    cases running : outcome? s with
    | some r =>
      have stays : runFor F (fuel + 1) s = s := by simp [runFor, apply_returned running]
      exact ⟨[], r, by rw [stays, follow], by rw [stays, running]⟩
    | none =>
      obtain ⟨m, t, moved, picked⟩ := next_possible (F := F) running
      have moved' := moved_of_apply moved
      have less := moved'.work_lt ordered
      obtain ⟨ms, r, followed, ended⟩ := ih (moved'.ordered ordered) (by omega)
      rw [picked]
      exact ⟨m :: ms, r, by rw [follow, moved, Option.bind_some, followed], ended⟩

end Termination

section Schedules

def State.progress (s : State) : Bisection × Option (Outcome Error Minimum) × List Int :=
  (s.search, s.result, s.checked)

def searchFor (F : Family) : Nat → State → State
  | 0, s => s
  | n + 1, s => if s.result.isNone then searchFor F n (applySearch F s) else s

theorem progress_applySearch (checks : F.isFeasible = G.isFeasible)
    (alike : s.progress = t.progress) :
    (applySearch F s).progress = (applySearch G t).progress := by
  simp only [State.progress, Prod.mk.injEq] at alike
  obtain ⟨search, result, checked⟩ := alike
  unfold applySearch
  rw [search, checks]
  cases t.search.next with
  | done m => simp [State.progress, finish, search, checked]
  | overflow => simp [State.progress, finish, search, checked]
  | check k =>
    rcases found : G.isFeasible k with ⟨status, solution⟩ | e | p
    · cases learned : t.search.learn k (status = .satisfiable) <;>
        simp [State.progress, finish, found, result, checked, learned]
    · simp [State.progress, finish, found, checked]
    · simp [State.progress, finish, found, checked]

theorem progress_searchFor (checks : F.isFeasible = G.isFeasible)
    (alike : s.progress = t.progress) (n : Nat) :
    (searchFor F n s).progress = (searchFor G n t).progress := by
  induction n generalizing s t with
  | zero => exact alike
  | succ n ih =>
    have result : s.result = t.result := congrArg (·.2.1) alike
    simp only [searchFor, result]
    split
    · exact ih (progress_applySearch checks alike)
    · exact alike

theorem searchFor_ended (ended : s.result.isSome = true) (n : Nat) : searchFor F n s = s := by
  cases n with
  | zero => rfl
  | succ n => simp [searchFor, Option.isSome_iff_ne_none.mp ended]

theorem searchFor_stays {n k : Nat} (ended : (searchFor F n s).result.isSome = true)
    (more : n ≤ k) : searchFor F k s = searchFor F n s := by
  induction n generalizing s k with
  | zero => exact searchFor_ended ended k
  | succ n ih =>
    obtain ⟨k, rfl⟩ := Nat.exists_eq_add_of_lt more
    cases searching : s.result with
    | none =>
      simp only [searchFor, searching] at ended ⊢
      exact ih ended (by omega)
    | some r =>
      have ended : s.result.isSome = true := by simp [searching]
      rw [searchFor_ended ended, searchFor_ended ended]

theorem progress_record (moved : apply F s .record = some t) : t.progress = s.progress := by
  simp only [apply] at moved
  split at moved
  · cases moved
  · rw [Option.ite_none_right_eq_some] at moved
    rw [← Option.some.inj moved.2]
    rfl
  · split at moved <;> rw [← Option.some.inj moved] <;> rfl

theorem progress_follow (followed : follow F s ms = some t) :
    ∃ n, t.progress = (searchFor F n s).progress := by
  induction ms generalizing s with
  | nil => exact ⟨0, congrArg State.progress (Option.some.inj followed).symm⟩
  | cons m ms ih =>
    obtain ⟨u, moved, rest⟩ := follow_cons followed
    obtain ⟨n, along⟩ := ih rest
    cases m with
    | search =>
      obtain ⟨searching, rfl⟩ := apply_search moved
      exact ⟨n + 1, by simpa [searchFor, searching] using along⟩
    | record => exact ⟨n, along.trans (progress_searchFor rfl (progress_record moved) n)⟩

theorem progress_unique (lower : F.lower = G.lower) (upper : F.upper = G.upper)
    (checks : F.isFeasible = G.isFeasible) {ms' : List Move}
    (followed : follow F (start F) ms = some s) (followed' : follow G (start G) ms' = some t)
    (ended : s.result.isSome = true) (ended' : t.result.isSome = true) :
    s.progress = t.progress := by
  obtain ⟨n, along⟩ := progress_follow followed
  obtain ⟨k, along'⟩ := progress_follow followed'
  have begun : (start F).progress = (start G).progress := by
    simp [State.progress, start, lower, upper]
  rw [progress_searchFor checks begun] at along
  have result : s.result = (searchFor G n (start G)).result := congrArg (·.2.1) along
  have result' : t.result = (searchFor G k (start G)).result := congrArg (·.2.1) along'
  rw [along, along']
  rcases Nat.le_total n k with more | more
  · rw [searchFor_stays (result ▸ ended) more]
  · rw [searchFor_stays (result' ▸ ended') more]

theorem outcome_cases {r : Outcome Error Minimum} (returned : outcome? s = some r) :
    s.result.isSome = true ∧ (s.recorder = .ended none ∧ s.result = some r ∨
      ∃ p, s.recorder = .ended (some p) ∧
        ((∀ p', s.result ≠ some (.panic p')) → r = .panic p)) := by
  unfold outcome? at returned
  split at returned
  next p q result recorder =>
    refine ⟨by simp [result], ?_⟩
    cases q with
    | none => exact .inl ⟨recorder, result.trans returned⟩
    | some q => exact .inr ⟨q, recorder, fun calm => absurd result (calm p)⟩
  next q p _ result recorder =>
    exact ⟨by simp [result], .inr ⟨p, recorder, fun _ => (Option.some.inj returned).symm⟩⟩
  next q _ result recorder =>
    exact ⟨by simp [result], .inl ⟨recorder, result.trans returned⟩⟩
  next => cases returned

end Schedules

/-- Every schedule comes to an answer, and by then all findings have been recorded, in the order of
the checks, or those before one whose recording panicked. Unless a check panicked as well, that
panic is the answer, whatever the search ended with; and the checks are those made when no
recording panics. No parameter is checked twice, so it does not matter whether an answer depends on
the parameter or on the call. -/
theorem every_schedule_records (F : Family) (ordered : F.lower ≤ F.upper)
    (near : F.upper - F.lower < Bisection.farthest) :
    (∃ ms, follow F (start F) ms = some (run F) ∧
        minimize F = ((minimize F).1, run F) ∧ outcome? (run F) = some (minimize F).1) ∧
      ∀ ms s, follow F (start F) ms = some s →
        ms.length ≤ moves F ∧ ((∃ r, outcome? s = some r) ↔ ∀ m, apply F s m = none) ∧
        ∀ r, outcome? s = some r →
          s.checked.Nodup ∧ (∀ f ∈ s.recorded, F.recordPanic f = none) ∧
          ((s.recorder = .ended none ∧ s.recorded = s.checked.filterMap F.finding? ∧
              s.result = some r) ∨
            ∃ p f dropped, s.recorder = .ended (some p) ∧ F.recordPanic f = some p ∧
              s.checked.filterMap F.finding? = s.recorded ++ f :: dropped ∧
              ((∀ k ∈ s.checked, (F.isFeasible k).isPanic = false) → r = .panic p)) ∧
          ∀ ms' t r', follow F.quiet (start F.quiet) ms' = some t → outcome? t = some r' →
            t.checked = s.checked ∧ t.result = s.result := by
  have begun := Searched.start ordered near
  refine ⟨?_, fun ms s followed => ⟨?_, ⟨?_, fun stuck => ?_⟩, fun r returned => ?_⟩⟩
  · obtain ⟨ms, r, followed, returned⟩ := follow_runFor (F := F) begun.ordered (work_start F)
    have answer : minimize F = (r, run F) := by
      simp only [minimize, if_neg (Int.not_lt.mpr ordered), run, returned, Option.getD_some]
    exact ⟨ms, followed, by rw [answer], by rw [answer]; exact returned⟩
  · have bound := length_follow begun.ordered followed
    have enough := work_start F
    omega
  · rintro ⟨r, returned⟩
    exact apply_returned returned
  · cases running : outcome? s with
    | some r => exact ⟨r, rfl⟩
    | none =>
      obtain ⟨m, t, moved, -⟩ := next_possible (F := F) running
      simp [stuck m] at moved
  · have searched := follow_searched begun followed
    have relayed := follow_keeps (fun _ _ => Relayed.moved) (Relayed.start F) followed
    obtain ⟨ended, answered⟩ := outcome_cases returned
    refine ⟨searched.distinct, relayed.calm, ?_, fun ms' t r' followed' returned' => ?_⟩
    · rcases answered with ⟨closed, result⟩ | ⟨p, crashed, raised⟩
      · exact .inl ⟨closed, (relayed.closed closed).2.symm, result⟩
      · obtain ⟨f, dropped, upTo, panics⟩ := relayed.crashed p crashed
        refine .inr ⟨p, f, dropped, crashed, panics, upTo, fun calm => raised fun p' result => ?_⟩
        obtain ⟨k, checked, same⟩ := searched.raised p' result
        have unraised := calm k checked
        rw [same] at unraised
        cases unraised
    · have same := progress_unique (F := F.quiet) (G := F) rfl rfl rfl followed' followed
        (outcome_cases returned').1 ended
      exact ⟨congrArg (·.2.2) same, congrArg (·.2.1) same⟩

def crashing : Family where
  lower := 0
  upper := 3
  isFeasible k :=
    if k = 3 then .ok (.satisfiable, none)
    else if k = 1 then .ok (.unsatisfiable, none)
    else .error .notReady
  recordPanic f := if f.parameter = 3 then some .outOfRange else none

-- The panic comes first, and the search goes on to its error as it does without it.
theorem crashing_answers : ∃ s,
    follow crashing (start crashing) [.search, .record, .search, .search] = some s ∧
      outcome? s = some (.panic .outOfRange) ∧ s.result = some (.error .notReady) ∧
      ∀ ms t r, follow crashing.quiet (start crashing.quiet) ms = some t → outcome? t = some r →
        t.checked = [3, 1, 2] ∧ t.result = some (.error .notReady) := by
  refine ⟨_, rfl, rfl, rfl, fun ms t r followed returned => ?_⟩
  have schedules := every_schedule_records crashing (by decide) (by decide)
  obtain ⟨-, -, recorded⟩ := schedules.2 [.search, .record, .search, .search] _ rfl
  exact (recorded _ rfl).2.2.2 ms t r followed returned

end Minimize

end SatSession
