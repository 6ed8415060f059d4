import SatSession.Transfer

/-!
All schedules of a transfer: either party moves whenever it can. Each move leaves less work, and
until both parties have ended some move is possible, so every schedule comes to its end. `Moved`
lists what a move can do; the room in buffer and pipe no longer shows in it.
-/

set_option autoImplicit false

namespace SatSession

namespace Destination

def refusal (d : Destination) : Outcome IoError Unit :=
  match d.whenFull with
  | .fails e => .error e
  | .acceptsNothing => .error ⟨.writeZero, "failed to write whole buffer"⟩
  | .panics p => .panic p

theorem fitting_le (d : Destination) (n : Nat) : d.fitting n ≤ n := by
  unfold fitting
  cases d.capacity with
  | none => exact Nat.le_refl n
  | some c => exact Nat.min_le_left n _

end Destination

namespace Transfer

variable {l : Limits} {s t u : State}

/-- What one move does, and when it is possible. -/
inductive Moved (s : State) : State → Prop where
  | write (n : Nat) (writing : s.producer = .writing) (some' : 0 < n)
      (left : n ≤ s.unwritten.length) :
      Moved s { s with
        unwritten := s.unwritten.drop n, buffer := s.buffer ++ s.unwritten.take n }
  | bypass (n : Nat) (writing : s.producer = .writing) (copying : s.drain = .copying)
      (empty : s.buffer = []) (some' : 0 < n) (left : n ≤ s.unwritten.length) :
      Moved s { s with unwritten := s.unwritten.drop n, pipe := s.pipe ++ s.unwritten.take n }
  | spill (n : Nat) (bound : s.producer.isClosed = false) (copying : s.drain = .copying)
      (some' : 0 < n) (left : n ≤ s.buffer.length) :
      Moved s { s with buffer := s.buffer.drop n, pipe := s.pipe ++ s.buffer.take n }
  | breakWriting (stopped : s.drain ≠ .copying) (writing : s.producer = .writing) :
      Moved s { s with
        producer := .leaving (.error (s.report.sinkError hungUp)), unwritten := [], buffer := [] }
  | breakFlushing (stopped : s.drain ≠ .copying) (flushing : s.producer = .flushing) :
      Moved s { s with producer := .leaving (.error (.io hungUp)), buffer := [] }
  | discard (stopped : s.drain ≠ .copying) (bound : s.producer.isClosed = false)
      (filled : s.buffer ≠ []) : Moved s { s with buffer := [] }
  | flush (writing : s.producer = .writing) (written : s.unwritten = [])
      (succeeds : s.report.ending = .ok ()) : Moved s { s with producer := .flushing }
  | leave (writing : s.producer = .writing) (written : s.unwritten = []) :
      Moved s { s with producer := .leaving s.report.ending }
  | flushed (flushing : s.producer = .flushing) (empty : s.buffer = []) :
      Moved s { s with producer := .leaving (.ok ()) }
  | close (result : Outcome Error Unit) (leaving : s.producer = .leaving result)
      (empty : s.buffer = []) : Moved s { s with producer := .closed result }
  | read (n : Nat) (copying : s.drain = .copying) (idle : s.held = []) (some' : 0 < n)
      (left : n ≤ s.pipe.length) :
      Moved s { s with pipe := s.pipe.drop n, held := s.pipe.take n }
  | deliver (n : Nat) (copying : s.drain = .copying) (left : n ≤ s.held.length)
      (room : 0 < s.destination.fitting n) :
      Moved s { s with
        destination := s.destination.take (s.held.take (s.destination.fitting n))
        held := s.held.drop (s.destination.fitting n) }
  | refuse (n : Nat) (copying : s.drain = .copying) (some' : 0 < n) (left : n ≤ s.held.length)
      (full : s.destination.fitting n = 0) :
      Moved s { s with drain := .ended s.destination.refusal }
  | stop (copying : s.drain = .copying) (idle : s.held = []) (empty : s.pipe = [])
      (closed : s.producer.isClosed = true) :
      Moved s { s with drain := .ended s.destination.flush }

theorem isCopying_iff {d : Drain} : d.isCopying = true ↔ d = .copying := by
  cases d <;> simp [Drain.isCopying]

theorem isWriting_iff {p : Producer} : p.isWriting = true ↔ p = .writing := by
  cases p <;> simp [Producer.isWriting]

theorem moved_of_breakOff (stopped : s.drain ≠ .copying) (moved : breakOff? s = some t) :
    Moved s t := by
  cases phase : s.producer <;>
    simp only [breakOff?, phase, Option.ite_none_left_eq_some, Option.some.injEq, reduceCtorEq]
      at moved
  case writing =>
    obtain ⟨_, rfl⟩ := moved
    exact .breakWriting stopped phase
  case flushing =>
    obtain ⟨_, rfl⟩ := moved
    exact .breakFlushing stopped phase
  case leaving result =>
    obtain ⟨filled, rfl⟩ := moved
    rw [← phase]
    exact .discard stopped (by simp [phase, Producer.isClosed]) (by simpa using filled)

theorem moved_of_deliver {n : Nat} (moved : apply l s (.deliver n) = some t) : Moved s t := by
  simp only [apply] at moved
  split at moved
  next guard =>
    simp only [Bool.and_eq_true, isCopying_iff, decide_eq_true_eq] at guard
    obtain ⟨⟨copying, some'⟩, left⟩ := guard
    have offered : (s.held.take n).length = n := List.length_take_of_le left
    have shorter := s.destination.fitting_le n
    obtain ⟨b, bs, offer⟩ : ∃ b bs, s.held.take n = b :: bs :=
      List.exists_cons_of_length_pos (by omega)
    cases fits : s.destination.fitting n with
    | succ k =>
      have written : s.destination.write (s.held.take n) =
          (.ok (k + 1), s.destination.take (s.held.take (k + 1))) := by
        have part : (s.held.take n).take (k + 1) = s.held.take (k + 1) := by
          rw [List.take_take, Nat.min_eq_left (by omega)]
        rw [← part]
        simp only [offer] at offered ⊢
        simp only [Destination.write, offered, fits]
      simp only [written] at moved
      obtain rfl := Option.some.inj moved
      have delivered := Moved.deliver (s := s) n copying left (by omega)
      rwa [fits] at delivered
    | zero =>
      have refused := Moved.refuse n copying some' left fits
      unfold Destination.refusal at refused
      simp only [offer] at offered
      simp only [offer, Destination.write, offered, fits] at moved
      cases full : s.destination.whenFull <;> simp only [full] at moved refused <;>
        obtain rfl := Option.some.inj moved <;> exact refused
  next => simp at moved

theorem moved_of_apply {m : Move} (moved : apply l s m = some t) : Moved s t := by
  cases m with
  | deliver n => exact moved_of_deliver moved
  | write n =>
    simp only [apply, Option.ite_none_right_eq_some, Bool.and_eq_true, isWriting_iff,
      decide_eq_true_eq, Option.some.injEq] at moved
    obtain ⟨⟨⟨⟨writing, some'⟩, left⟩, _⟩, rfl⟩ := moved
    exact .write n writing some' left
  | bypass n =>
    simp only [apply, Option.ite_none_right_eq_some, Bool.and_eq_true, isWriting_iff,
      isCopying_iff, List.isEmpty_iff, decide_eq_true_eq, Option.some.injEq] at moved
    obtain ⟨⟨⟨⟨⟨⟨writing, copying⟩, empty⟩, some'⟩, left⟩, _⟩, rfl⟩ := moved
    exact .bypass n writing copying empty some' left
  | spill n =>
    simp only [apply, Option.ite_none_right_eq_some, Bool.and_eq_true, Bool.not_eq_true',
      isCopying_iff, decide_eq_true_eq, Option.some.injEq] at moved
    obtain ⟨⟨⟨⟨⟨bound, copying⟩, some'⟩, left⟩, _⟩, rfl⟩ := moved
    exact .spill n bound copying some' left
  | breakOff =>
    simp only [apply, Option.ite_none_left_eq_some] at moved
    exact moved_of_breakOff (mt isCopying_iff.mpr moved.1) moved.2
  | finish =>
    simp only [apply, Option.ite_none_right_eq_some, Bool.and_eq_true, isWriting_iff,
      List.isEmpty_iff] at moved
    obtain ⟨⟨writing, written⟩, ends⟩ := moved
    cases ending : s.report.ending <;> simp only [ending] at ends <;>
      obtain rfl := Option.some.inj ends
    case ok => exact .flush writing written ending
    all_goals
      rw [← ending]
      exact .leave writing written
  | advance =>
    simp only [apply, Option.ite_none_right_eq_some, List.isEmpty_iff] at moved
    obtain ⟨empty, phases⟩ := moved
    cases phase : s.producer <;> simp only [phase] at phases
    case flushing =>
      obtain rfl := Option.some.inj phases
      exact .flushed phase empty
    case leaving result =>
      obtain rfl := Option.some.inj phases
      exact .close result phase empty
    all_goals simp at phases
  | read n =>
    simp only [apply, Option.ite_none_right_eq_some, Bool.and_eq_true, isCopying_iff,
      List.isEmpty_iff, decide_eq_true_eq, Option.some.injEq] at moved
    obtain ⟨⟨⟨⟨⟨copying, idle⟩, some'⟩, _⟩, left⟩, rfl⟩ := moved
    exact .read n copying idle some' left
  | stop =>
    simp only [apply, Option.ite_none_right_eq_some, Bool.and_eq_true, isCopying_iff,
      List.isEmpty_iff, Option.some.injEq] at moved
    obtain ⟨⟨⟨⟨copying, idle⟩, empty⟩, closed⟩, rfl⟩ := moved
    exact .stop copying idle empty closed

theorem Moved.work_lt (moved : Moved s t) : work t < work s := by
  cases moved with
  | write n writing some' left | bypass n writing copying empty some' left
  | spill n bound copying some' left | read n copying idle some' left =>
    -- Bytes move on to the next station.
    simp [work, *]
    omega
  | deliver n copying left room =>
    have shorter := s.destination.fitting_le n
    simp [work, *]
    omega
  | breakWriting stopped phase | breakFlushing stopped phase =>
    simp only [work, phase, List.length_nil]
    omega
  | discard stopped bound filled =>
    have full := List.length_pos_iff.mpr filled
    simp [work]
    omega
  | leave writing written => simp [work, *]
  | flush writing written succeeds | flushed flushing empty
  | close result leaving empty | refuse n copying some' left full
  | stop copying idle empty closed => simp [work, *]

theorem result_of_open (opened : s.producer.isClosed = false) : result? s = none := by
  cases phase : s.producer <;> simp_all [result?, Producer.isClosed]

theorem result_of_copying (copying : s.drain = .copying) : result? s = none := by
  cases phase : s.producer <;> simp [result?, phase, copying]

theorem Moved.running (moved : Moved s t) : result? s = none := by
  cases moved with
  | bypass n writing copying | spill n bound copying | read n copying | deliver n copying
  | refuse n copying | stop copying => exact result_of_copying copying
  | discard stopped bound filled => exact result_of_open bound
  | write n phase | breakWriting stopped phase | breakFlushing stopped phase | flush phase
  | leave phase | flushed phase | close result phase =>
    exact result_of_open (by simp [phase, Producer.isClosed])

def Possible (l : Limits) (s : State) (m : Option Move) : Prop :=
  ∃ t, m.bind (apply l s) = some t

theorem possible_of_guard {m : Move} {guard : Bool} {next : Option State}
    (applied : apply l s m = if guard then next else none) (holds : guard = true)
    (made : ∃ t, next = some t) : Possible l s (some m) := by
  obtain ⟨t, rfl⟩ := made
  rw [if_pos holds] at applied
  exact ⟨t, applied⟩

theorem deliver_possible (copying : s.drain = .copying) (holding : s.held ≠ []) :
    Possible l s (some (.deliver s.held.length)) := by
  have some' := List.length_pos_iff.mpr holding
  refine possible_of_guard rfl ?_ ?_
  · simp [copying, Drain.isCopying, some']
  · rcases s.destination.write (s.held.take s.held.length) with ⟨(_ | k) | e | p, d⟩ <;>
      exact ⟨_, rfl⟩

theorem nextOfDrain_possible (reads : 0 < l.read) (copying : s.drain = .copying)
    (waiting : s.pipe ≠ [] ∨ s.producer.isClosed = true) : Possible l s (nextOfDrain? l s) := by
  have isCopying : s.drain.isCopying = true := by simp [copying, Drain.isCopying]
  by_cases holding : s.held = []
  · by_cases filled : s.pipe = []
    · have closed : s.producer.isClosed = true := waiting.resolve_left (absurd filled)
      have pick : nextOfDrain? l s = some .stop := by
        simp [nextOfDrain?, isCopying, holding, filled, closed]
      rw [pick]
      refine possible_of_guard rfl ?_ ⟨_, rfl⟩
      simp [isCopying, holding, filled, closed]
    · have full := List.length_pos_iff.mpr filled
      have pick : nextOfDrain? l s = some (.read (min l.read s.pipe.length)) := by
        simp [nextOfDrain?, isCopying, holding, filled]
      rw [pick]
      refine possible_of_guard rfl ?_ ⟨_, rfl⟩
      simp [isCopying, holding]
      omega
  · have pick : nextOfDrain? l s = some (.deliver s.held.length) := by
      simp [nextOfDrain?, isCopying, holding]
    rw [pick]
    exact deliver_possible copying holding

theorem breakOff_possible (stopped : s.drain.isCopying = false)
    (bound : s.producer.isClosed = false) (left : s.buffer ≠ [] ∨
      s.producer.isWriting = true ∧ s.unwritten ≠ []) : Possible l s (some .breakOff) := by
  simp only [Possible, Option.bind_some, apply, stopped, Bool.false_eq_true, if_false, breakOff?]
  rcases hp : s.producer with _ | _ | r | r
  · have guard : (s.unwritten.isEmpty && s.buffer.isEmpty) = false := by
      rcases left with h | ⟨_, h⟩ <;> simp [h]
    simp only [guard]
    exact ⟨_, rfl⟩
  · have filled : s.buffer ≠ [] := left.resolve_right (by simp [hp, Producer.isWriting])
    simp only [List.isEmpty_iff, filled, if_false]
    exact ⟨_, rfl⟩
  · have filled : s.buffer ≠ [] := left.resolve_right (by simp [hp, Producer.isWriting])
    simp only [List.isEmpty_iff, filled, if_false]
    exact ⟨_, rfl⟩
  · simp [hp, Producer.isClosed] at bound

theorem nextOfBuffer_possible (holds : 0 < l.pipe) (reads : 0 < l.read)
    (bound : s.producer.isClosed = false) (filled : s.buffer ≠ []) :
    Possible l s (nextOfBuffer? l s) := by
  have full := List.length_pos_iff.mpr filled
  cases copying : s.drain with
  | ended r =>
    have stopped : s.drain.isCopying = false := by simp [copying, Drain.isCopying]
    have pick : nextOfBuffer? l s = some .breakOff := by simp [nextOfBuffer?, stopped]
    rw [pick]
    exact breakOff_possible stopped bound (.inl filled)
  | copying =>
    have isCopying : s.drain.isCopying = true := by simp [copying, Drain.isCopying]
    by_cases room : s.pipe.length < l.pipe
    · have pick : nextOfBuffer? l s =
          some (.spill (min (l.pipe - s.pipe.length) s.buffer.length)) := by
        simp [nextOfBuffer?, isCopying, room]
      rw [pick]
      refine possible_of_guard rfl ?_ ⟨_, rfl⟩
      simp [bound, isCopying]
      omega
    · have pick : nextOfBuffer? l s = nextOfDrain? l s := by simp [nextOfBuffer?, isCopying, room]
      rw [pick]
      refine nextOfDrain_possible reads copying (.inl ?_)
      intro empty
      rw [empty] at room
      exact room holds

theorem write_possible (writing : s.producer = .writing) (left : s.unwritten ≠ [])
    (room : s.buffer.length < l.buffer) :
    Possible l s (some (.write (min (l.buffer - s.buffer.length) s.unwritten.length))) := by
  have more := List.length_pos_iff.mpr left
  refine possible_of_guard rfl ?_ ⟨_, rfl⟩
  simp [writing, Producer.isWriting]
  omega

theorem bypass_possible (writing : s.producer = .writing) (left : s.unwritten ≠ [])
    (empty : s.buffer = []) (copying : s.drain = .copying) (room : s.pipe.length < l.pipe) :
    Possible l s (some (.bypass (min (l.pipe - s.pipe.length) s.unwritten.length))) := by
  have more := List.length_pos_iff.mpr left
  refine possible_of_guard rfl ?_ ⟨_, rfl⟩
  simp [writing, Producer.isWriting, copying, Drain.isCopying, empty]
  omega

theorem finish_possible (writing : s.producer = .writing) (written : s.unwritten = []) :
    Possible l s (some .finish) := by
  refine possible_of_guard rfl ?_ ?_
  · simp [writing, Producer.isWriting, written]
  · cases s.report.ending <;> exact ⟨_, rfl⟩

theorem advance_possible (empty : s.buffer = [])
    (leaving : s.producer = .flushing ∨ ∃ r, s.producer = .leaving r) :
    Possible l s (some .advance) := by
  refine possible_of_guard rfl ?_ ?_
  · simp [empty]
  · rcases leaving with h | ⟨r, h⟩ <;> rw [h] <;> exact ⟨_, rfl⟩

theorem next_possible (holds : 0 < l.pipe) (reads : 0 < l.read) (running : result? s = none) :
    Possible l s (next? l s) := by
  cases hp : s.producer with
  | writing =>
    simp only [next?, hp]
    by_cases written : s.unwritten = []
    · simpa only [written, List.isEmpty_nil, if_true] using finish_possible hp written
    · simp only [List.isEmpty_iff, written, if_false]
      by_cases room : s.buffer.length < l.buffer
      · simpa only [room, if_true] using write_possible hp written room
      · simp only [room, if_false]
        by_cases empty : s.buffer = []
        · simp only [empty, List.isEmpty_nil, Bool.not_true, Bool.false_eq_true, if_false]
          cases copying : s.drain with
          | ended r =>
            simpa [Drain.isCopying] using breakOff_possible (l := l)
              (by simp [copying, Drain.isCopying]) (by simp [hp, Producer.isClosed])
              (.inr ⟨by simp [hp, Producer.isWriting], written⟩)
          | copying =>
            simp only [Drain.isCopying, Bool.not_true, Bool.false_eq_true, if_false]
            by_cases pipeRoom : s.pipe.length < l.pipe
            · simpa only [pipeRoom, if_true] using
                bypass_possible hp written empty copying pipeRoom
            · simp only [pipeRoom, if_false]
              refine nextOfDrain_possible reads copying (.inl fun none' => ?_)
              rw [none'] at pipeRoom
              exact pipeRoom holds
        · have filled : (!s.buffer.isEmpty) = true := by simp [empty]
          rw [if_pos filled]
          exact nextOfBuffer_possible holds reads (by simp [hp, Producer.isClosed]) empty
  | closed r =>
    simp only [next?, hp]
    cases copying : s.drain with
    | copying => exact nextOfDrain_possible reads copying (.inr (by simp [hp, Producer.isClosed]))
    | ended r' => simp [result?, hp, copying] at running
  | flushing =>
    simp only [next?, hp]
    by_cases empty : s.buffer = []
    · simpa only [empty, List.isEmpty_nil, if_true] using advance_possible empty (.inl hp)
    · simp only [List.isEmpty_iff, empty, if_false]
      exact nextOfBuffer_possible holds reads (by simp [hp, Producer.isClosed]) empty
  | leaving r =>
    simp only [next?, hp]
    by_cases empty : s.buffer = []
    · simpa only [empty, List.isEmpty_nil, if_true] using advance_possible empty (.inr ⟨r, hp⟩)
    · simp only [List.isEmpty_iff, empty, if_false]
      exact nextOfBuffer_possible holds reads (by simp [hp, Producer.isClosed]) empty

theorem runFor_ends (holds : 0 < l.pipe) (reads : 0 < l.read) {fuel : Nat}
    (enough : work s ≤ fuel) : ∃ x, result? (runFor l fuel s) = some x := by
  -- Where no move is picked the transfer has returned.
  have ended (s : State) (none' : (next? l s).bind (apply l s) = none) :
      ∃ x, result? s = some x := by
    cases returned : result? s with
    | some x => exact ⟨x, rfl⟩
    | none =>
      obtain ⟨t, picked⟩ := next_possible holds reads returned
      simp [none'] at picked
  induction fuel generalizing s with
  | zero =>
    cases picked : (next? l s).bind (apply l s) with
    | none => exact ended s picked
    | some t =>
      obtain ⟨m, _, moved⟩ := Option.bind_eq_some_iff.mp picked
      have less := (moved_of_apply moved).work_lt
      omega
  | succ fuel ih =>
    rw [runFor]
    cases picked : (next? l s).bind (apply l s) with
    | none => exact ended s picked
    | some t =>
      obtain ⟨m, _, moved⟩ := Option.bind_eq_some_iff.mp picked
      have less := (moved_of_apply moved).work_lt
      exact ih (by omega)

def follow (l : Limits) (s : State) : List Move → Option State
  | [] => some s
  | m :: ms => (apply l s m).bind (follow l · ms)

theorem follow_cons {m : Move} {ms : List Move} (followed : follow l s (m :: ms) = some u) :
    ∃ t, apply l s m = some t ∧ follow l t ms = some u :=
  Option.bind_eq_some_iff.mp followed

theorem follow_keeps {P : State → Prop} (kept : ∀ s t, P s → Moved s t → P t) {ms : List Move}
    (start : P s) (followed : follow l s ms = some t) : P t := by
  induction ms generalizing s with
  | nil =>
    obtain rfl := Option.some.inj followed
    exact start
  | cons m ms ih =>
    obtain ⟨u, moved, rest⟩ := follow_cons followed
    exact ih (kept s u start (moved_of_apply moved)) rest

theorem length_follow {ms : List Move} (followed : follow l s ms = some t) :
    ms.length + work t ≤ work s := by
  induction ms generalizing s with
  | nil =>
    obtain rfl := Option.some.inj followed
    simp
  | cons m ms ih =>
    obtain ⟨u, moved, rest⟩ := follow_cons followed
    have less := (moved_of_apply moved).work_lt
    have fewer := ih rest
    rw [List.length_cons]
    omega

theorem follow_runFor (l : Limits) (fuel : Nat) (s : State) :
    ∃ ms, follow l s ms = some (runFor l fuel s) := by
  induction fuel generalizing s with
  | zero => exact ⟨[], rfl⟩
  | succ fuel ih =>
    rw [runFor]
    cases picked : (next? l s).bind (apply l s) with
    | none => exact ⟨[], rfl⟩
    | some t =>
      obtain ⟨m, _, moved⟩ := Option.bind_eq_some_iff.mp picked
      obtain ⟨ms, rest⟩ := ih t
      exact ⟨m :: ms, by rw [follow, moved, Option.bind_some, rest]⟩

theorem follow_redirect (r : Report) (d : Destination) : ∃ ms s,
    follow .standard (start r d) ms = some s ∧ result? s = some (redirect r d).1 ∧
      s.destination = (redirect r d).2 := by
  obtain ⟨ms, followed⟩ := follow_runFor .standard (work (start r d)) (start r d)
  obtain ⟨x, ended⟩ :=
    runFor_ends (l := .standard) (by decide) (by decide) (Nat.le_refl (work (start r d)))
  refine ⟨ms, _, followed, ?_, rfl⟩
  simp [redirect, run, ended]

/-- A drain that has ended was refused by the destination, or had the pipe closed before it. -/
structure Waited (d : Destination) (s : State) : Prop where
  destination : s.destination.refusal = d.refusal
  ended : s.drain = .copying ∨ s.drain = .ended d.refusal ∨ s.producer.isClosed = true

theorem Waited.moved {d : Destination} (waited : Waited d s) (moved : Moved s t) : Waited d t := by
  obtain ⟨destination, ended⟩ := waited
  cases moved with
  | refuse n copying some' left full => exact ⟨destination, .inr (.inl (by rw [destination]))⟩
  | deliver n copying left room => exact ⟨destination, ended⟩
  | stop copying idle empty closed => exact ⟨destination, .inr (.inr closed)⟩
  | close result leaving empty => exact ⟨destination, .inr (.inr rfl)⟩
  | _ =>
    -- Of the others none ends the drain, and none is made by a producer that has closed.
    exact ⟨destination, by simp_all [Producer.isClosed]⟩

/-- No schedule is stuck before the transfer returns, and none goes on forever: any can be
completed, and takes no more moves than there was work at the start. While the write end is open
the transfer has not returned, and only a destination that refuses bytes ends the drain. -/
theorem schedule_returns {l : Limits} (holds : 0 < l.pipe) (reads : 0 < l.read) {r : Report}
    {d : Destination} {ms : List Move} {s : State} (followed : follow l (start r d) ms = some s) :
    ms.length ≤ 4 * r.bytes.length + 4 ∧
      ((∃ x, result? s = some x) ↔ ∀ m, apply l s m = none) ∧
      (s.producer.isClosed = false →
        result? s = none ∧ (s.drain = .copying ∨ s.drain = .ended d.refusal)) ∧
      ∃ more t x, follow l s more = some t ∧ result? t = some x := by
  have bound := length_follow followed
  have waited : Waited d s :=
    follow_keeps (fun _ _ => Waited.moved) ⟨rfl, .inl rfl⟩ followed
  refine ⟨?_, ⟨?_, fun stuck => ?_⟩, fun opened => ⟨?_, ?_⟩, ?_⟩
  · simp only [work, start, List.length_nil] at bound
    omega
  · rintro ⟨x, returned⟩ m
    cases moved : apply l s m with
    | none => rfl
    | some t => simp [(moved_of_apply moved).running] at returned
  · cases returned : result? s with
    | some x => exact ⟨x, rfl⟩
    | none =>
      obtain ⟨t, picked⟩ := next_possible holds reads returned
      obtain ⟨m, _, moved⟩ := Option.bind_eq_some_iff.mp picked
      simp [stuck m] at moved
  · exact result_of_open opened
  · simpa [opened] using waited.ended
  · obtain ⟨more, rest⟩ := follow_runFor l (work s) s
    obtain ⟨x, returned⟩ := runFor_ends holds reads (Nat.le_refl (work s))
    exact ⟨more, _, x, rest, returned⟩

-- The destination panics while the producer still has bytes to write, and would panic itself.
theorem panicking_parties_return :
    let r : Report := ⟨[[1, 2], [3]], .panic .outOfRange, none⟩
    let d : Destination :=
      { capacity := some 1, whenFull := .panics (.text "destination panicked") }
    let s : State := ⟨r, [3], .writing, [], [], [2], .ended (.panic (.text "destination panicked")),
      { d with received := [1] }⟩
    follow ⟨1, 1, 1⟩ (start r d)
      [.write 1, .spill 1, .read 1, .write 1, .deliver 1, .spill 1, .read 1, .deliver 1] = some s ∧
    ∃ more t x, follow ⟨1, 1, 1⟩ s more = some t ∧ result? t = some x := by
  intro r d s
  have followed : follow ⟨1, 1, 1⟩ (start r d)
      [.write 1, .spill 1, .read 1, .write 1, .deliver 1, .spill 1, .read 1, .deliver 1] =
        some s := by rfl
  exact ⟨followed, (schedule_returns (by decide) (by decide) followed).2.2.2⟩

end Transfer

end SatSession
