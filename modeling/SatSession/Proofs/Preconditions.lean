import SatSession.Proofs.Simulation

/-!
A session makes no call that its engine's precondition forbids, whatever the engine answers. What
carries the proof is `Mirrored`: the session's own record of the solve state never claims more
than the calls made so far allow.
-/

set_option autoImplicit false

namespace SatSession

open EngineCall

variable {σ α β : Type} {E : Engine σ}

def Terminated (ns : List Int) : Prop := ns = [] ∨ ∃ init, ns = init ++ [0]

theorem terminated_flatMap {γ : Type} (f : γ → List Int) (cs : List γ) :
    Terminated (cs.flatMap fun c => f c ++ [0]) := by
  rcases List.eq_nil_or_concat cs with rfl | ⟨init, last, rfl⟩
  · exact .inl rfl
  · refine .inr ⟨init.flatMap (fun c => f c ++ [0]) ++ f last, ?_⟩
    simp

theorem atBoundary_adds {ns : List Int} (terminated : Terminated ns) {calls : List EngineCall}
    (ended : atBoundary calls = true) : atBoundary (ns.reverse.map .add ++ calls) = true := by
  rcases terminated with rfl | ⟨init, rfl⟩
  · exact ended
  · simp [atBoundary]

namespace Session

structure Abreast (s : Session (Observed σ)) : Prop where
  lawful : Lawful s.engine.calls
  ended : atBoundary s.engine.calls = true
  idle : s.stream = []
  tracing : s.tracing = true → traced s.engine.calls = true

structure Mirrored (s : Session (Observed σ)) : Prop extends Abreast s where
  window : s.state.windowOpen = true → standing s.engine.calls = some .unsatisfiable

theorem Abreast.settle {s : Session (Observed σ)} (abreast : Abreast s) {e : Event}
    (settled : e = .solved .unsatisfiable → standing s.engine.calls = some .unsatisfiable) :
    Mirrored { s with state := s.state.next e } where
  lawful := abreast.lawful
  ended := abreast.ended
  idle := abreast.idle
  tracing := abreast.tracing
  window := by
    intro isOpen
    rw [SolveState.windowOpen_next, beq_iff_eq] at isOpen
    exact settled isOpen

theorem Abreast.call {s : Session (Observed σ)} (abreast : Abreast s) (c : EngineCall) (e : σ)
    (permitted : Permitted s.engine.calls c)
    (ended : atBoundary (c :: s.engine.calls) = atBoundary s.engine.calls)
    (tracing : traced (c :: s.engine.calls) = traced s.engine.calls) :
    Abreast { s with engine := ⟨e, c :: s.engine.calls⟩ } where
  lawful := ⟨permitted, abreast.lawful⟩
  ended := ended.trans abreast.ended
  idle := abreast.idle
  tracing := fun on => tracing.trans (abreast.tracing on)

theorem Mirrored.query {s : Session (Observed σ)} (mirrored : Mirrored s) (c : EngineCall) (e : σ)
    (permitted : Permitted s.engine.calls c)
    (ended : atBoundary (c :: s.engine.calls) = atBoundary s.engine.calls)
    (tracing : traced (c :: s.engine.calls) = traced s.engine.calls)
    (kept : standing (c :: s.engine.calls) = standing s.engine.calls) :
    Mirrored { s with engine := ⟨e, c :: s.engine.calls⟩ } where
  toAbreast := mirrored.toAbreast.call c e permitted ended tracing
  window := fun isOpen => kept.trans (mirrored.window isOpen)

/-- From every session in `P` the call ends in one in `Q a`, or fails in a mirrored one, or is
abandoned after lawful calls. -/
def Keeps (P : Session (Observed σ) → Prop) (x : Op (Observed σ) α)
    (Q : α → Session (Observed σ) → Prop) : Prop :=
  ∀ s, P s → match x s with
    | (.ok a, t) => Q a t
    | (.error _, t) => Mirrored t
    | (.panic _, t) => Lawful t.engine.calls

variable {P : Session (Observed σ) → Prop}

theorem keeps_pure {a : α} {Q : α → Session (Observed σ) → Prop} (keep : ∀ s, P s → Q a s) :
    Keeps P (pure a) Q := fun s hs => keep s hs

theorem keeps_bind {x : Op (Observed σ) α} {f : α → Op (Observed σ) β}
    {R : α → Session (Observed σ) → Prop} {Q : β → Session (Observed σ) → Prop}
    (first : Keeps P x R) (rest : ∀ a, Keeps (R a) (f a) Q) : Keeps P (x >>= f) Q := by
  intro s hs
  have hx := first s hs
  rw [Step.bind_apply]
  rcases result : x s with ⟨a | e | p, t⟩ <;> rw [result] at hx
  · exact rest a t hx
  · exact hx
  · exact hx

theorem keeps_get {f : Session (Observed σ) → Op (Observed σ) α}
    {Q : α → Session (Observed σ) → Prop}
    (rest : ∀ s, P s → Keeps (fun t => t = s) (f s) Q) : Keeps P (Step.get >>= f) Q := by
  intro s hs
  exact rest s hs s rfl

theorem keeps_fail {e : Error} {Q : α → Session (Observed σ) → Prop}
    (mirrored : ∀ s, P s → Mirrored s) : Keeps P (Step.fail e) Q := fun s hs => mirrored s hs

theorem keeps_ready (mirrored : ∀ s, P s → Mirrored s) :
    Keeps P ready fun _ s => P s ∧ s.released = false := by
  intro s hs
  cases released : s.released
  · simpa [ready, released] using hs
  · simpa [ready, released] using mirrored s hs

theorem keeps_call {record : Outcome Empty α → EngineCall} {x : Call σ α}
    {Q : α → Session (Observed σ) → Prop} (lawful : ∀ s, P s → Lawful s.engine.calls)
    (permitted : ∀ s r, P s → Permitted s.engine.calls (record r))
    (after : ∀ s a e, P s → Q a { s with engine := ⟨e, record (.ok a) :: s.engine.calls⟩ }) :
    Keeps P (call (observe record x)) Q := by
  intro s hs
  simp only [call, Step.zoom, Step.widen, observe]
  rcases x s.engine.engine with ⟨a | e | p, t⟩
  · exact after s a t hs
  · exact e.elim
  · exact ⟨permitted s _ hs, lawful s hs⟩

theorem keeps_varCount {Q : Session (Observed σ) → Prop}
    (query : ∀ s n e, Q s → Q { s with engine := ⟨e, .varCount (.ok n) :: s.engine.calls⟩ })
    (lawful : ∀ s, Q s → Lawful s.engine.calls) :
    Keeps Q (call E.observed.varCount) fun _ => Q :=
  keeps_call lawful (fun _ _ _ => trivial) fun s n e hs => query s n e hs

structure Loaded (s : Session (Observed σ)) : Prop where
  lawful : Lawful s.engine.calls
  ended : atBoundary s.engine.calls = true
  tracing : s.tracing = true → traced s.engine.calls = true
  held : s.released = false
  terminated : Terminated s.stream

theorem Mirrored.load {s : Session (Observed σ)} (mirrored : Mirrored s)
    (held : s.released = false) {ns : List Int} (terminated : Terminated ns) :
    Loaded { s with stream := s.stream ++ ns } :=
  ⟨mirrored.lawful, mirrored.ended, mirrored.tracing, held, by
    simpa [mirrored.idle] using terminated⟩

theorem addNumbers_calls (E : Engine σ) (ns : List Int) (o : Observed σ) :
    (∃ sent, (addNumbers E.observed ns o).2.calls = List.map .add sent ++ o.calls) ∧
      ((addNumbers E.observed ns o).1 = .ok () →
        (addNumbers E.observed ns o).2.calls = ns.reverse.map .add ++ o.calls) := by
  induction ns generalizing o with
  | nil => exact ⟨⟨[], rfl⟩, fun _ => rfl⟩
  | cons n ns ih =>
    have added : E.observed.add n = observe (fun _ => .add n) (E.add n) := rfl
    simp only [addNumbers, Step.bind_apply, added, observe]
    rcases E.add n o.engine with ⟨a | e | p, t⟩
    · obtain ⟨⟨sent, some⟩, all⟩ := ih ⟨t, .add n :: o.calls⟩
      refine ⟨⟨sent ++ [n], ?_⟩, fun done => ?_⟩
      · simpa using some
      · simpa using all done
    · exact e.elim
    · exact ⟨⟨[n], rfl⟩, fun done => by simp at done⟩

theorem keeps_flushStream : Keeps Loaded (flushStream E.observed) fun _ => Mirrored := by
  intro s loaded
  obtain ⟨⟨sent, some⟩, all⟩ := addNumbers_calls E s.stream s.engine
  simp only [flushStream, Step.bind_apply, ready, loaded.held, Step.get_apply, call, Step.zoom,
    Step.widen, Bool.false_eq_true, if_false]
  rcases result : addNumbers E.observed s.stream s.engine with ⟨a | e | p, t⟩ <;>
    rw [result] at some all
  · have calls : t.calls = s.stream.reverse.map .add ++ s.engine.calls := all rfl
    refine Abreast.settle ⟨?_, ?_, rfl, ?_⟩ (fun h => by simp at h)
    · change Lawful t.calls
      rw [calls]
      exact lawful_adds _ loaded.lawful
    · change atBoundary t.calls = true
      rw [calls]
      exact atBoundary_adds loaded.terminated loaded.ended
    · intro on
      change traced t.calls = true
      rw [calls, traced_adds]
      exact loaded.tracing on
  · exact e.elim
  · change Lawful t.calls
    have calls : t.calls = _ := some
    rw [calls]
    exact lawful_adds sent loaded.lawful

theorem keeps_ingestLits (cs : List Clause) :
    Keeps Mirrored (ingestLits E.observed cs) fun _ => Mirrored := by
  refine keeps_bind (keeps_ready fun _ h => h) fun _ => ?_
  refine keeps_bind (R := fun _ => Loaded) ?_ fun _ => keeps_flushStream
  intro s hs
  exact hs.1.load hs.2 (terminated_flatMap (fun c => c.map Lit.number) cs)

theorem keeps_ingestClauses (cs : List (List Int)) :
    Keeps Mirrored (ingestClauses E.observed cs) fun _ => Mirrored := by
  refine keeps_bind (keeps_ready fun _ h => h) fun _ => ?_
  -- The stream is dropped again if it holds a number that is no literal, so both ends are kept.
  refine keeps_bind (R := fun _ s => Loaded s ∧ Mirrored { s with stream := [] }) ?_ fun _ => ?_
  next =>
    intro s hs
    have dropped : ({ s with stream := [] } : Session (Observed σ)) = s := by
      rw [← hs.1.idle]
    refine ⟨hs.1.load hs.2 (terminated_flatMap (fun c => c.takeWhile (· != 0)) cs), ?_⟩
    change Mirrored { s with stream := [] }
    rw [dropped]
    exact hs.1
  next =>
    refine keeps_get fun s hs => ?_
    cases Stream.invalid? s.stream with
    | none =>
      rintro t rfl
      exact keeps_flushStream t hs.1
    | some n =>
      rintro t rfl
      exact hs.2

theorem keeps_ingestBlocking (a : Assignment) :
    Keeps Mirrored (ingestBlocking E.observed a) fun _ => Mirrored := by
  refine keeps_bind (keeps_ready fun _ h => h) fun _ => ?_
  refine keeps_bind (keeps_varCount ?_ fun s hs => hs.1.lawful) fun n => ?_
  · intro s n e hs
    exact ⟨hs.1.query (.varCount (.ok n)) e trivial rfl rfl rfl, hs.2⟩
  · by_cases size : a.size ≠ n + 1
    · rw [if_pos size]
      exact keeps_fail fun s hs => hs.1
    · rw [if_neg size]
      refine keeps_bind (R := fun _ => Loaded) ?_ fun _ => keeps_flushStream
      intro s hs
      exact hs.1.load hs.2 (.inr ⟨_, rfl⟩)

def Solved (s : Session (Observed σ)) : Prop :=
  Mirrored s ∧ standing s.engine.calls = some .satisfiable

theorem keeps_readValues (v n : Nat) :
    Keeps Solved (readValues E.observed v n) fun _ => Solved := by
  induction n generalizing v with
  | zero => exact keeps_pure fun _ h => h
  | succ n ih =>
    refine keeps_bind (R := fun _ => Solved) ?_ fun x => ?_
    next =>
      refine keeps_call (fun s hs => hs.1.lawful) (fun s _ hs => hs.2) fun s x e hs => ?_
      exact ⟨hs.1.query (.value v (.ok x)) e hs.2 rfl rfl rfl, hs.2⟩
    next =>
      by_cases unassigned : x = 0
      · rw [if_pos unassigned]
        exact keeps_fail fun s hs => hs.1
      · rw [if_neg unassigned]
        exact keeps_bind (ih (v + 1)) fun _ => keeps_pure fun _ h => h

theorem keeps_readAssignment : Keeps Solved (readAssignment E.observed) fun _ => Solved := by
  refine keeps_bind (keeps_ready fun _ h => h.1) fun _ => ?_
  refine keeps_bind (R := fun _ => Solved) ?_ fun n => ?_
  next =>
    refine keeps_call (fun s hs => hs.1.1.lawful) (fun _ _ _ => trivial) fun s n e hs => ?_
    exact ⟨hs.1.1.query (.varCount (.ok n)) e trivial rfl rfl rfl, hs.1.2⟩
  next => exact keeps_bind (keeps_readValues 1 n) fun _ => keeps_pure fun _ h => h

theorem keeps_callSolve : Keeps Mirrored (callSolve E.observed) fun st s =>
    Mirrored s ∧ standing s.engine.calls = some st := by
  intro s mirrored
  have solve : E.observed.solve = observe .solve E.solve := rfl
  simp only [callSolve, callFallible, Step.zoom, Step.mapError, solve, observe]
  rcases E.solve s.engine.engine with ⟨st | e | p, t⟩
  · refine ⟨Abreast.settle (mirrored.toAbreast.call (.solve (.ok st)) t mirrored.ended rfl rfl) ?_, rfl⟩
    intro same
    simp only [Event.solved.injEq] at same
    rw [same]
    rfl
  · have abreast := mirrored.toAbreast.call (.solve (.error e)) t mirrored.ended rfl rfl
    exact abreast.settle fun h => by simp at h
  · exact ⟨mirrored.ended, mirrored.lawful⟩

theorem keeps_runSolve : Keeps Mirrored (runSolve E.observed) fun _ => Mirrored := by
  refine keeps_bind (keeps_ready fun _ h => h) fun _ => ?_
  refine keeps_bind (R := fun st s => Mirrored s ∧ standing s.engine.calls = some st) ?_ fun st => ?_
  next => exact fun s hs => keeps_callSolve s hs.1
  next =>
    by_cases found : st = .satisfiable
    · rw [if_pos found, found]
      exact keeps_bind keeps_readAssignment fun _ => keeps_pure fun _ h => h.1
    · rw [if_neg found]
      exact keeps_pure fun _ h => h.1

theorem keeps_runNext : Keeps Mirrored (runNext E.observed) fun _ => Mirrored := by
  refine keeps_bind keeps_runSolve fun r => ?_
  split
  · exact keeps_bind (keeps_ingestBlocking _) fun _ => keeps_pure fun _ h => h
  · exact keeps_pure fun _ h => h

theorem keeps_runAssume (l : Lit) :
    Keeps Mirrored (runAssume E.observed l) fun _ => Mirrored := by
  refine keeps_bind (keeps_ready fun _ h => h) fun _ => ?_
  refine keeps_bind (R := fun _ => Abreast) ?_ fun _ => ?_
  next =>
    change Keeps _ (call (observe (fun _ => .assume l.number) (E.assume l.number))) _
    refine keeps_call (fun s hs => hs.1.lawful) (fun s _ hs => hs.1.ended) fun s _ e hs => ?_
    exact hs.1.toAbreast.call (.assume l.number) e hs.1.ended rfl rfl
  next => exact fun s hs => hs.settle fun h => by simp at h

theorem keeps_takeBuffer (n : Nat) (buffer : List Int) :
    Keeps Mirrored (takeBuffer (σ := Observed σ) n buffer) fun _ => Mirrored := by
  unfold takeBuffer
  cases Stream.readBuffer buffer (distinctLits n) with
  | ok ls => exact keeps_pure fun _ h => h
  | error e => exact keeps_fail fun _ h => h

theorem keeps_runFailedAssumptions :
    Keeps Mirrored (runFailedAssumptions E.observed) fun _ => Mirrored := by
  refine keeps_get fun s mirrored => keeps_bind (keeps_ready fun t same => same ▸ mirrored) fun _ => ?_
  cases isOpen : s.state.windowOpen
  · exact keeps_pure fun t ht => ht.1 ▸ mirrored
  · let Refuted := fun t : Session (Observed σ) =>
      Mirrored t ∧ standing t.engine.calls = some .unsatisfiable
    refine keeps_bind (R := fun _ => Refuted) ?_ fun n => ?_
    · refine keeps_call (fun t ht => ht.1 ▸ mirrored.lawful) (fun _ _ _ => trivial) ?_
      rintro t n e ⟨rfl, _⟩
      exact ⟨mirrored.query (.varCount (.ok n)) e trivial rfl rfl rfl, mirrored.window isOpen⟩
    · refine keeps_bind (R := fun _ => Mirrored) ?_ fun buffer => keeps_takeBuffer n buffer
      change Keeps _ (call (observe (fun _ => .failedAssumptions) E.failedAssumptions)) _
      refine keeps_call (fun t ht => ht.1.lawful) (fun t _ ht => ht.2) fun t _ e ht => ?_
      exact ht.1.query .failedAssumptions e ht.2 rfl rfl rfl

def Consistent (s : Session (Observed σ)) : Prop :=
  Mirrored s ∧ knownConsistent s.engine.calls = true

theorem querySubset_abreast (next : Bool) (n : Nat) (s : Session (Observed σ))
    (consistent : Consistent s) : Abreast (querySubset E.observed next n s).2 := by
  have query : E.observed.satisfiableSubset next =
    observe (fun _ => .satisfiableSubset next) (E.satisfiableSubset next) := rfl
  have after (e : σ) := consistent.1.toAbreast.call (.satisfiableSubset next) e
    ⟨consistent.2, consistent.1.ended⟩ rfl rfl
  simp only [querySubset, Step.bind_apply, callFallible, Step.zoom, Step.mapError, query, observe]
  rcases E.satisfiableSubset next s.engine.engine with ⟨buffer | e | p, t⟩
  · simp only [Outcome.mapError, takeBuffer]
    cases Stream.readBuffer buffer (distinctLits n) <;> exact after t
  · exact after t
  · exact after t

theorem keeps_runSubset (next : Bool) :
    Keeps Mirrored (runSubset E.observed next) fun _ => Mirrored := by
  refine keeps_bind (keeps_ready fun _ h => h) fun _ => ?_
  refine keeps_bind (R := fun known s => Mirrored s ∧
    (known = false → knownConsistent s.engine.calls = true)) ?_ fun known => ?_
  next =>
    refine keeps_call (fun s hs => hs.1.lawful) (fun _ _ _ => trivial) fun s known e hs => ?_
    refine ⟨hs.1.query (.inconsistent (.ok known)) e trivial rfl rfl rfl, ?_⟩
    rintro rfl
    rfl
  next =>
    cases known
    · refine keeps_bind (R := fun _ => Consistent) ?_ fun n => ?_
      · refine keeps_call (fun s hs => hs.1.lawful) (fun _ _ _ => trivial) fun s n e hs => ?_
        exact ⟨hs.1.query (.varCount (.ok n)) e trivial rfl rfl rfl, hs.2 rfl⟩
      · intro s consistent
        have abreast := querySubset_abreast (E := E) next n s consistent
        simp only [settling]
        rcases result : querySubset E.observed next n s with ⟨a | e | p, t⟩ <;>
          rw [result] at abreast
        · exact abreast.settle fun h => by simp at h
        · exact abreast.settle fun h => by simp at h
        · exact abreast.lawful
    · exact keeps_pure fun _ h => h.1

theorem keeps_admits (k : ReportKind) :
    Keeps (σ := σ) Mirrored (admits k) fun _ s =>
      Mirrored s ∧ Permitted s.engine.calls (.report k) := by
  intro s mirrored
  cases k with
  | formula =>
    by_cases refuted : s.state.status = some .unsatisfiable
    · simpa [admits, refuted] using ⟨mirrored, mirrored.ended⟩
    · simpa [admits, refuted] using mirrored
  | _ =>
    cases isOpen : s.state.windowOpen <;> cases on : s.tracing <;> simp only [admits, isOpen, on]
    · exact mirrored
    · exact mirrored
    · exact mirrored
    · exact ⟨mirrored, mirrored.ended, mirrored.window isOpen, mirrored.tracing on⟩

theorem keeps_produce (k : ReportKind) :
    Keeps Mirrored (produce E.observed k) fun _ => Mirrored := by
  refine keeps_bind (keeps_ready fun _ h => h) fun _ => ?_
  refine keeps_bind (R := fun _ s => Mirrored s ∧ Permitted s.engine.calls (.report k)) ?_ fun _ => ?_
  next => exact fun s hs => keeps_admits k s hs.1
  next =>
    intro s ⟨mirrored, permitted⟩
    have report : E.observed.report k = observe (fun _ => .report k) (E.report k) := rfl
    simp only [callReport, report, observe]
    rcases E.report k s.engine.engine with ⟨a | e | p, t⟩
    · exact mirrored.query (.report k) t permitted rfl rfl rfl
    · exact e.elim
    · exact mirrored.query (.report k) t permitted rfl rfl rfl

-- A poisoned session makes no further calls, so only the calls it made are of interest.
def Valid (s : Session (Observed σ)) : Prop :=
  Lawful s.engine.calls ∧ (s.poisoned = false → Mirrored s)

theorem Mirrored.valid {s : Session (Observed σ)} (mirrored : Mirrored s) : Valid s :=
  ⟨mirrored.lawful, fun _ => mirrored⟩

theorem Mirrored.charge {s : Session (Observed σ)} (mirrored : Mirrored s) (timed : Bool) :
    Mirrored (s.charge timed) := by
  unfold Session.charge
  split
  · exact ⟨⟨mirrored.lawful, mirrored.ended, mirrored.idle, mirrored.tracing⟩, mirrored.window⟩
  · exact mirrored

theorem exclusive_valid (timed : Bool) {x : Op (Observed σ) α}
    (keeps : Keeps Mirrored x fun _ => Mirrored) {s : Session (Observed σ)} (valid : Valid s) :
    Valid (exclusive timed x s).2 := by
  unfold exclusive
  cases poisoned : s.poisoned
  · have ends := keeps s (valid.2 poisoned)
    simp only [Bool.false_eq_true, if_false]
    rcases result : x s with ⟨a | e | p, t⟩ <;> rw [result] at ends
    · exact (Mirrored.charge ends timed).valid
    · exact (Mirrored.charge ends timed).valid
    · exact ⟨ends, fun h => by simp [poison] at h⟩
  · simpa only [if_true] using valid

-- A call that is abandoned under the shared lock leaves the session usable.
theorem shared_valid {x : Op (Observed σ) α}
    (keeps : ∀ s, Mirrored s → Mirrored (x s).2) {s : Session (Observed σ)} (valid : Valid s) :
    Valid (shared x s).2 := by
  unfold shared
  cases poisoned : s.poisoned
  · simpa only [Bool.false_eq_true, if_false] using (keeps s (valid.2 poisoned)).valid
  · simpa only [if_true] using valid

theorem writeReport_valid (k : ReportKind) (d : Destination) {s : Session (Observed σ)}
    (valid : Valid s) : Valid (writeReport E.observed k d s).2 := by
  unfold writeReport runReport
  cases poisoned : s.poisoned
  · have ends := keeps_produce (E := E) k s (valid.2 poisoned)
    simp only [Bool.false_eq_true, if_false]
    rcases result : produce E.observed k s with ⟨r | e | p, t⟩ <;> rw [result] at ends
    · have mirrored : Mirrored t := ends
      rcases sent : Transfer.redirect r d with ⟨a | e | p, d'⟩ <;> simp only [sent]
      · exact (mirrored.charge false).valid
      · exact (mirrored.charge false).valid
      · exact ⟨mirrored.lawful, fun h => by simp [poison] at h⟩
    · exact (Mirrored.charge ends false).valid
    · exact ⟨ends, fun h => by simp [poison] at h⟩
  · simpa only [if_true] using valid

theorem delete_valid {s : Session (Observed σ)} (valid : Valid s) :
    Valid (delete E.observed s).2 := by
  unfold delete
  split
  · exact valid
  · refine ⟨⟨trivial, valid.1⟩, fun poisoned => ?_⟩
    have mirrored := valid.2 poisoned
    exact ⟨⟨⟨trivial, mirrored.lawful⟩, mirrored.ended, mirrored.idle, mirrored.tracing⟩,
      mirrored.window⟩

theorem mirrored_call {record : Outcome Empty α → EngineCall} {x : Call σ α}
    {s : Session (Observed σ)}
    (after : ∀ r (e : σ), Mirrored { s with engine := ⟨e, record r :: s.engine.calls⟩ }) :
    Mirrored (call (observe record x) s).2 := after _ _

theorem mirrored_ready_bind {f : Unit → Op (Observed σ) α} {s : Session (Observed σ)}
    (mirrored : Mirrored s) (rest : Mirrored (f () s).2) : Mirrored ((ready >>= f) s).2 := by
  rw [Step.bind_apply]
  cases released : s.released <;> simp only [ready, released, if_true]
  · exact rest
  · exact mirrored

end Session

namespace Client

open Session

theorem perform_valid {c : Client (Observed σ)} (valid : Valid c.session) (o : Operation) :
    Valid (c.perform E.observed o).2.session := by
  cases o with
  | addClauses cs =>
    exact answer_session c _ _ ▸ exclusive_valid false (keeps_ingestClauses cs) valid
  | addFormula f => exact answer_session c _ _ ▸ exclusive_valid false (keeps_ingestLits _) valid
  | addClause k => exact answer_session c _ _ ▸ exclusive_valid false (keeps_ingestLits _) valid
  | blockSolution a =>
    exact answer_session c _ _ ▸ exclusive_valid false (keeps_ingestBlocking a) valid
  | solve => exact answer_session c _ _ ▸ exclusive_valid true keeps_runSolve valid
  | advance i =>
    simp only [perform, advance_session]
    split
    · exact valid
    · exact exclusive_valid true keeps_runNext valid
  | assume l => exact answer_session c _ _ ▸ exclusive_valid false (keeps_runAssume l) valid
  | failedAssumption l =>
    refine answer_session c _ _ ▸ shared_valid (fun s mirrored => ?_) valid
    refine mirrored_ready_bind mirrored ?_
    simp only [Step.bind_apply, Step.get_apply]
    cases isOpen : s.state.windowOpen
    · exact mirrored
    · have refuted := mirrored.window isOpen
      exact mirrored_call fun _ e => mirrored.query (.failedAssumption l.number) e refuted rfl rfl rfl
  | failedAssumptions =>
    exact answer_session c _ _ ▸ exclusive_valid false keeps_runFailedAssumptions valid
  | satisfiableSubset next =>
    exact answer_session c _ _ ▸ exclusive_valid false (keeps_runSubset next) valid
  | report k d => exact report_session _ c k d ▸ writeReport_valid k d valid
  | varCount =>
    refine answer_session c _ _ ▸ shared_valid (fun s mirrored => ?_) valid
    refine mirrored_ready_bind mirrored ?_
    exact mirrored_call fun r e => mirrored.query (.varCount r) e trivial rfl rfl rfl
  | clauseCount =>
    refine answer_session c _ _ ▸ shared_valid (fun s mirrored => ?_) valid
    refine mirrored_ready_bind mirrored ?_
    exact mirrored_call fun _ e => mirrored.query .clauseCount e trivial rfl rfl rfl
  | lastStatus =>
    refine answer_session c _ _ ▸ shared_valid (fun s mirrored => ?_) valid
    exact mirrored_ready_bind mirrored mirrored
  | elapsedIsZero =>
    refine answer_session c _ _ ▸ shared_valid (fun s mirrored => ?_) valid
    exact mirrored_ready_bind mirrored mirrored
  | delete => exact delete_valid valid

theorem run_valid (os : List Operation) {c : Client (Observed σ)} (valid : Valid c.session) :
    Valid (c.run E.observed os).2.session := by
  induction os generalizing c with
  | nil => exact valid
  | cons o os ih => exact ih (perform_valid valid o)

end Client

namespace EngineCall

def isOption : EngineCall → Bool
  | .setPropagationLimit _ | .setVerbosity _ | .setLead _ | .setOutput _ | .enableTracing _ => true
  | _ => false

theorem lawful_options {calls : List EngineCall} (options : ∀ c ∈ calls, isOption c = true) :
    Lawful calls ∧ atBoundary calls = true := by
  induction calls with
  | nil => exact ⟨trivial, rfl⟩
  | cons c calls ih =>
    have rest := ih fun d hd => options d (List.mem_cons_of_mem c hd)
    have first := options c List.mem_cons_self
    cases c <;> simp only [isOption, Bool.false_eq_true] at first
    case enableTracing answer =>
      refine ⟨⟨fun n hn => ?_, rest.1⟩, rest.2⟩
      have added := options (.add n) (List.mem_cons_of_mem _ hn)
      simp [isOption] at added
    all_goals exact ⟨⟨trivial, rest.1⟩, rest.2⟩

end EngineCall

namespace Session

variable {ε δ : Type}

def Configures (tracing : Bool) (x : Step (Observed σ) ε α) : Prop :=
  ∀ o, (∀ c ∈ o.calls, isOption c = true) →
    (∀ c ∈ (x o).2.calls, isOption c = true) ∧
      (tracing = true → (∃ a, (x o).1 = .ok a) → traced (x o).2.calls = true)

theorem configures_bind {tracing : Bool} {x : Step (Observed σ) ε α} {f : α → Step (Observed σ) ε β}
    (first : Configures false x) (rest : ∀ a, Configures tracing (f a)) :
    Configures tracing (x >>= f) := by
  intro o options
  have hx := (first o options).1
  rw [Step.bind_apply]
  rcases result : x o with ⟨a | e | p, t⟩ <;> rw [result] at hx
  · exact rest a t hx
  · exact ⟨hx, fun _ ⟨_, done⟩ => by simp at done⟩
  · exact ⟨hx, fun _ ⟨_, done⟩ => by simp at done⟩

theorem configures_pure (a : α) : Configures false (pure a : Step (Observed σ) ε α) :=
  fun _ options => ⟨options, fun h => by simp at h⟩

theorem configures_observe {record : Outcome ε α → EngineCall} (x : Step σ ε α)
    (option : ∀ r, isOption (record r) = true) : Configures false (observe record x) :=
  fun _ options => ⟨List.forall_mem_cons.mpr ⟨option _, options⟩, fun h => by simp at h⟩

theorem configures_widen {x : Step (Observed σ) Empty α} (configures : Configures false x) :
    Configures false (x.widen : Step (Observed σ) ε α) :=
  fun o options => ⟨(configures o options).1, fun h => by simp at h⟩

theorem configures_configure (options : Config) :
    Configures options.traceGeneration (configure E.observed options) := by
  have limited : Configures false (E.observed.setPropagationLimit options.propagationLimit) :=
    configures_observe _ fun _ => rfl
  have enabled : Configures true E.observed.enableTracing := by
    intro o before
    refine ⟨List.forall_mem_cons.mpr ⟨rfl, before⟩, fun _ ⟨_, done⟩ => ?_⟩
    have enable : E.observed.enableTracing = observe .enableTracing E.enableTracing := rfl
    rw [enable] at done ⊢
    simp only [observe] at done ⊢
    rw [done]
    rfl
  have applied : Configures options.traceGeneration
      (if options.traceGeneration then E.observed.enableTracing else pure ()) := by
    cases options.traceGeneration
    · exact configures_pure ()
    · exact enabled
  have verbosity : Configures false (E.observed.setVerbosity options.verbosity) :=
    configures_observe _ fun _ => rfl
  have lead : Configures false (E.observed.setLead options.lead) :=
    configures_observe _ fun _ => rfl
  have output : Configures false (E.observed.setOutput options.output) :=
    configures_observe _ fun _ => rfl
  have rest := configures_bind (configures_widen verbosity) fun _ =>
    configures_bind (configures_widen lead) fun _ =>
      configures_bind (configures_widen output) fun _ => applied
  unfold configure
  by_cases bounded : 0 < options.propagationLimit
  · simp only [if_pos bounded]
    exact configures_bind limited fun _ => rest
  · simp only [if_neg bounded]
    exact rest

theorem create_valid (options : Config) (e : σ) :
    match create E.observed options ⟨e, []⟩ with
    | (.ok s, _) => Valid s
    | (_, o) => Lawful o.calls := by
  have configured := configures_configure (E := E) options ⟨e, []⟩ (by simp)
  unfold create
  rcases result : configure E.observed options ⟨e, []⟩ with ⟨a | x | p, o⟩ <;>
    rw [result] at configured
  · obtain ⟨lawful, ended⟩ := lawful_options configured.1
    refine Mirrored.valid ⟨⟨lawful, ended, rfl, fun on => configured.2 on ⟨a, rfl⟩⟩, fun h => ?_⟩
    simp [SolveState.windowOpen] at h
  · exact ⟨trivial, (lawful_options configured.1).1⟩
  · exact ⟨trivial, (lawful_options configured.1).1⟩

end Session

theorem Client.lawful_history (E : Engine σ) (options : Config) (e : σ) (os : List Operation) :
    Lawful (history E.observed options ⟨e, []⟩ os).2.calls := by
  have valid := Session.create_valid (E := E) options e
  unfold history
  rcases created : Session.create E.observed options ⟨e, []⟩ with ⟨s | x | p, o⟩ <;>
    rw [created] at valid
  · exact (run_valid os valid).1
  · exact valid
  · exact valid

/-- No history of operations makes a call that the engine's preconditions forbid, and observing
the engine changes no answer: the calls recorded are the ones this very history makes. -/
theorem history_lawful (E : Engine σ) (options : Config) (e : σ) (os : List Operation) :
    Lawful (Client.history E.observed options ⟨e, []⟩ os).2.calls ∧
      Client.history E options e os =
        ((Client.history E.observed options ⟨e, []⟩ os).1,
          (Client.history E.observed options ⟨e, []⟩ os).2.engine) :=
  ⟨Client.lawful_history E options e os, Client.history_maps (observed_maps E) options ⟨e, []⟩ os⟩

end SatSession
