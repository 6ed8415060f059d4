import SatSession.Proofs.Progress

/-!
What a transfer delivers, and how it ends, does not depend on the schedule. `Flow` says where the
bytes of the report are: until the drain ends none is lost and none changes its place, and a drain
that ends early has delivered all that fits.
-/

set_option autoImplicit false

namespace SatSession

namespace Destination

variable {d : Destination}

def verdict (d : Destination) (n : Nat) : Outcome IoError Unit :=
  if d.fitting n < n then d.refusal else d.flush

theorem verdict_refused {n : Nat} (short : d.fitting n < n) : d.verdict n = d.refusal := by
  rw [verdict, if_pos short]

theorem verdict_flushed {n : Nat} (whole : d.fitting n = n) : d.verdict n = d.flush := by
  rw [verdict, if_neg (by omega)]

theorem refusal_ne_ok (d : Destination) : d.refusal ≠ .ok () := by
  cases full : d.whenFull <;> simp [refusal, full]

theorem verdict_ok {n : Nat} (accepted : d.verdict n = .ok ()) : d.fitting n = n := by
  refine Nat.le_antisymm (d.fitting_le n) (Nat.not_lt.mp fun short => ?_)
  rw [verdict_refused short] at accepted
  exact d.refusal_ne_ok accepted

theorem refusal_calm (calm : d.Calm) : d.refusal.isPanic = false := by
  unfold refusal
  cases full : d.whenFull with
  | panics p => exact absurd full (calm p)
  | _ => rfl

theorem verdict_calm (calm : d.Calm) (n : Nat) : (d.verdict n).isPanic = false := by
  unfold verdict
  split
  next => exact refusal_calm calm
  next => cases fails : d.flushError <;> simp [flush, fails, Outcome.isPanic]

theorem fitting_take {n k : Nat} {bs : Bytes} (taken : bs.length = k) (fits : k ≤ d.fitting n)
    (m : Nat) : k + (d.take bs).fitting m = d.fitting (k + m) := by
  unfold fitting at *
  cases capacity : d.capacity with
  | none => simp [take, capacity]
  | some c =>
    simp only [capacity] at fits
    simp only [take, capacity, List.length_append]
    omega

theorem fitting_mono (d : Destination) {m n : Nat} (less : m ≤ n) : d.fitting m ≤ d.fitting n := by
  unfold fitting
  cases d.capacity with
  | none => exact less
  | some c =>
    simp only
    omega

theorem fitting_full (d : Destination) {m n : Nat} (short : d.fitting m < m) (less : m ≤ n) :
    d.fitting n = d.fitting m := by
  unfold fitting at *
  cases capacity : d.capacity with
  | none => simp [capacity] at short
  | some c =>
    simp only [capacity] at short ⊢
    omega

theorem take_take (d : Destination) (bs cs : Bytes) : (d.take bs).take cs = d.take (bs ++ cs) := by
  simp [take]

end Destination

namespace Transfer

variable {l : Limits} {r : Report} {d : Destination} {s t : State}

-- How a producer ends that found no reader for its bytes.
def Severed (r : Report) (produced : Outcome Error Unit) : Prop :=
  produced = .error (r.sinkError hungUp) ∨ r.ending = .ok () ∧ produced = .error (.io hungUp)

/-- Where the bytes of a report to a destination are, and what follows for how the parties end. -/
structure Flow (r : Report) (d : Destination) (s : State) : Prop where
  report : s.report = r
  copying : s.drain = .copying → ∃ k, k ≤ d.fitting r.bytes.length ∧
    s.destination = d.take (r.bytes.take k) ∧
    r.bytes.drop k = s.held ++ s.pipe ++ s.buffer ++ s.unwritten
  ended : ∀ o, s.drain = .ended o → o = d.verdict r.bytes.length ∧
    s.destination = d.take (r.bytes.take (d.fitting r.bytes.length)) ∧
    (d.fitting r.bytes.length < r.bytes.length ∨ s.producer.isClosed = true)
  flushing : s.producer = .flushing → r.ending = .ok ()
  produced : ∀ o, s.producer = .leaving o ∨ s.producer = .closed o →
    o = r.ending ∨ d.fitting r.bytes.length < r.bytes.length ∧ Severed r o
  written : s.producer ≠ .writing → s.unwritten = []
  emptied : s.producer.isClosed = true → s.buffer = []

theorem Flow.start (r : Report) (d : Destination) : Flow r d (start r d) where
  report := rfl
  copying _ :=
    ⟨0, Nat.zero_le _, by simp [Transfer.start, Destination.take], by simp [Transfer.start]⟩
  ended := by simp [Transfer.start]
  flushing := by simp [Transfer.start]
  produced := by simp [Transfer.start]
  written := by simp [Transfer.start]
  emptied := by simp [Transfer.start, Producer.isClosed]

-- Bytes that move on keep their order.
theorem Flow.carry (flow : Flow r d s) {unwritten buffer pipe held : Bytes}
    (same : held ++ pipe ++ buffer ++ unwritten = s.held ++ s.pipe ++ s.buffer ++ s.unwritten)
    (written : s.producer ≠ .writing → unwritten = [])
    (emptied : s.producer.isClosed = true → buffer = []) :
    Flow r d { s with unwritten := unwritten, buffer := buffer, pipe := pipe, held := held } where
  report := flow.report
  copying copying := by
    obtain ⟨k, fits, destination, rest⟩ := flow.copying copying
    exact ⟨k, fits, destination, by simp only [same, rest]⟩
  ended := flow.ended
  flushing := flow.flushing
  produced := flow.produced
  written := written
  emptied := emptied

-- The producer finds the drain gone, so not all bytes fit.
theorem Flow.severed (flow : Flow r d s) (stopped : s.drain ≠ .copying)
    (bound : s.producer.isClosed = false) : d.fitting r.bytes.length < r.bytes.length := by
  cases drain : s.drain with
  | copying => exact absurd drain stopped
  | ended o =>
    obtain ⟨_, _, short⟩ := flow.ended o drain
    simpa [bound] using short

theorem Flow.leave (flow : Flow r d s) (bound : s.producer.isClosed = false)
    {produced : Outcome Error Unit} {unwritten buffer : Bytes} (written : unwritten = [])
    (known : produced = r.ending ∨ d.fitting r.bytes.length < r.bytes.length ∧ Severed r produced)
    (kept : s.drain = .copying → unwritten = s.unwritten ∧ buffer = s.buffer) :
    Flow r d { s with
      producer := .leaving produced, unwritten := unwritten, buffer := buffer } where
  report := flow.report
  copying copying := by
    obtain ⟨k, fits, destination, rest⟩ := flow.copying copying
    obtain ⟨rfl, rfl⟩ := kept copying
    exact ⟨k, fits, destination, rest⟩
  ended o drain := by
    obtain ⟨verdict, destination, short⟩ := flow.ended o drain
    simp only [bound, Bool.false_eq_true, or_false] at short
    exact ⟨verdict, destination, .inl short⟩
  flushing := by simp
  produced := by simpa using known
  written _ := written
  emptied := by simp [Producer.isClosed]

theorem Flow.drain (flow : Flow r d s) {destination : Destination} {held : Bytes} {drain : Drain}
    (copying : drain = .copying → ∃ k, k ≤ d.fitting r.bytes.length ∧
      destination = d.take (r.bytes.take k) ∧
      r.bytes.drop k = held ++ s.pipe ++ s.buffer ++ s.unwritten)
    (ended : ∀ o, drain = .ended o → o = d.verdict r.bytes.length ∧
      destination = d.take (r.bytes.take (d.fitting r.bytes.length)) ∧
      (d.fitting r.bytes.length < r.bytes.length ∨ s.producer.isClosed = true)) :
    Flow r d { s with held := held, drain := drain, destination := destination } where
  report := flow.report
  copying := copying
  ended := ended
  flushing := flow.flushing
  produced := flow.produced
  written := flow.written
  emptied := flow.emptied

theorem Flow.deliver (flow : Flow r d s) (copying : s.drain = .copying) {n : Nat}
    (left : n ≤ s.held.length) :
    Flow r d { s with
      destination := s.destination.take (s.held.take (s.destination.fitting n))
      held := s.held.drop (s.destination.fitting n) } := by
  obtain ⟨k, fits, destination, rest⟩ := flow.copying copying
  have inside : k ≤ r.bytes.length := Nat.le_trans fits (d.fitting_le _)
  have length : (r.bytes.take k).length = k := List.length_take_of_le inside
  have total := congrArg List.length rest
  simp only [List.length_drop, List.length_append] at total
  have more : k + s.destination.fitting n ≤ d.fitting r.bytes.length := by
    rw [destination, Destination.fitting_take length fits]
    exact d.fitting_mono (by omega)
  have part : s.destination.fitting n ≤ s.held.length :=
    Nat.le_trans (s.destination.fitting_le n) left
  have taken : s.destination.take (s.held.take (s.destination.fitting n)) =
      d.take (r.bytes.take (k + s.destination.fitting n)) := by
    have front : s.held.take (s.destination.fitting n) =
        (r.bytes.drop k).take (s.destination.fitting n) := by
      rw [rest, List.append_assoc, List.append_assoc, List.take_append_of_le_length part]
    rw [front, List.take_add, ← Destination.take_take, ← destination]
  have left' : r.bytes.drop (k + s.destination.fitting n) =
      s.held.drop (s.destination.fitting n) ++ s.pipe ++ s.buffer ++ s.unwritten := by
    rw [← List.drop_drop, rest]
    simp only [List.append_assoc, List.drop_append_of_le_length part]
  exact flow.drain (fun _ => ⟨_, more, taken, left'⟩) (by simp [copying])

theorem Flow.refuse (flow : Flow r d s) (copying : s.drain = .copying) {n : Nat} (some' : 0 < n)
    (left : n ≤ s.held.length) (full : s.destination.fitting n = 0) :
    Flow r d { s with drain := .ended s.destination.refusal } := by
  obtain ⟨k, fits, destination, rest⟩ := flow.copying copying
  have inside : k ≤ r.bytes.length := Nat.le_trans fits (d.fitting_le _)
  have length : (r.bytes.take k).length = k := List.length_take_of_le inside
  have total := congrArg List.length rest
  simp only [List.length_drop, List.length_append] at total
  have stuck : d.fitting (k + n) = k := by
    rw [← Destination.fitting_take length fits, ← destination, full, Nat.add_zero]
  have last : d.fitting r.bytes.length = k := by
    rw [d.fitting_full (m := k + n) (by omega) (by omega), stuck]
  have short : d.fitting r.bytes.length < r.bytes.length := by omega
  have verdict : s.destination.refusal = d.verdict r.bytes.length := by
    rw [Destination.verdict_refused short, destination]
    rfl
  apply flow.drain (by simp)
  intro o ended
  obtain rfl := Drain.ended.inj ended
  exact ⟨verdict, by rw [last, destination], .inl short⟩

theorem Flow.stop (flow : Flow r d s) (copying : s.drain = .copying) (idle : s.held = [])
    (empty : s.pipe = []) (closed : s.producer.isClosed = true) :
    Flow r d { s with drain := .ended s.destination.flush } := by
  obtain ⟨k, fits, destination, rest⟩ := flow.copying copying
  have open' : s.producer ≠ .writing := by
    intro writing
    simp [writing, Producer.isClosed] at closed
  rw [idle, empty, flow.emptied closed, flow.written open'] at rest
  have shorter := d.fitting_le r.bytes.length
  have total : r.bytes.length ≤ k := by simpa using rest
  have whole : d.fitting r.bytes.length = r.bytes.length := by omega
  have verdict : s.destination.flush = d.verdict r.bytes.length := by
    rw [Destination.verdict_flushed whole, destination]
    rfl
  have delivered : s.destination = d.take (r.bytes.take (d.fitting r.bytes.length)) := by
    rw [destination, whole, List.take_length, List.take_of_length_le total]
  apply flow.drain (by simp)
  intro o ended
  obtain rfl := Drain.ended.inj ended
  exact ⟨verdict, delivered, .inr closed⟩

theorem Flow.flush (flow : Flow r d s) (writing : s.producer = .writing)
    (written : s.unwritten = []) (succeeds : r.ending = .ok ()) :
    Flow r d { s with producer := .flushing } where
  report := flow.report
  copying := flow.copying
  ended o drain := by
    obtain ⟨verdict, destination, short⟩ := flow.ended o drain
    exact ⟨verdict, destination, by simpa [writing, Producer.isClosed] using short⟩
  flushing _ := succeeds
  produced := by simp
  written _ := written
  emptied := by simp [Producer.isClosed]

theorem Flow.close (flow : Flow r d s) {result : Outcome Error Unit}
    (leaving : s.producer = .leaving result) (empty : s.buffer = []) :
    Flow r d { s with producer := .closed result } where
  report := flow.report
  copying := flow.copying
  ended o drain := by
    obtain ⟨verdict, destination, _⟩ := flow.ended o drain
    exact ⟨verdict, destination, .inr rfl⟩
  flushing := by simp
  produced := by simpa using flow.produced result (.inl leaving)
  written _ := flow.written (by simp [leaving])
  emptied _ := empty

theorem Flow.moved (flow : Flow r d s) (moved : Moved s t) : Flow r d t := by
  cases moved with
  | write n writing some' left =>
    refine flow.carry ?_ (absurd writing) (by simp [writing, Producer.isClosed])
    simp
  | bypass n writing copying empty some' left =>
    refine flow.carry ?_ (absurd writing) fun _ => empty
    simp [empty]
  | spill n bound copying some' left =>
    refine flow.carry ?_ flow.written (by simp [bound])
    simp only [List.append_assoc]
    rw [← List.append_assoc (s.buffer.take n), List.take_append_drop]
  | read n copying idle some' left =>
    refine flow.carry ?_ flow.written flow.emptied
    simp [idle]
  | breakWriting stopped writing =>
    have bound : s.producer.isClosed = false := by simp [writing, Producer.isClosed]
    have short := flow.severed stopped bound
    refine flow.leave bound rfl (.inr ⟨short, .inl ?_⟩) fun copying => absurd copying stopped
    rw [flow.report]
  | breakFlushing stopped flushing =>
    have bound : s.producer.isClosed = false := by simp [flushing, Producer.isClosed]
    have short := flow.severed stopped bound
    have written := flow.written (by simp [flushing])
    exact flow.leave bound written (.inr ⟨short, .inr ⟨flow.flushing flushing, rfl⟩⟩)
      fun copying => absurd copying stopped
  | discard stopped bound filled =>
    exact ⟨flow.report, fun copying => absurd copying stopped, flow.ended, flow.flushing,
      flow.produced, flow.written, fun _ => rfl⟩
  | flush writing written succeeds => exact flow.flush writing written (flow.report ▸ succeeds)
  | leave writing written =>
    exact flow.leave (by simp [writing, Producer.isClosed]) written (.inl (by rw [flow.report]))
      fun _ => ⟨rfl, rfl⟩
  | flushed flushing empty =>
    have written := flow.written (by simp [flushing])
    exact flow.leave (by simp [flushing, Producer.isClosed]) written
      (.inl (flow.flushing flushing).symm) fun _ => ⟨rfl, rfl⟩
  | close result leaving empty => exact flow.close leaving empty
  | deliver n copying left room => exact flow.deliver copying left
  | refuse n copying some' left full => exact flow.refuse copying some' left full
  | stop copying idle empty closed => exact flow.stop copying idle empty closed

theorem returned_cases {ms : List Move} {x : Outcome Error Unit}
    (followed : follow l (Transfer.start r d) ms = some s) (returned : result? s = some x) :
    s.destination = d.take (r.bytes.take (d.fitting r.bytes.length)) ∧
      (x = combine r.ending (d.verdict r.bytes.length) ∨
        d.fitting r.bytes.length < r.bytes.length ∧
          ∃ produced, Severed r produced ∧ x = combine produced d.refusal) := by
  have flow : Flow r d s :=
    follow_keeps (fun _ _ => Flow.moved) (Flow.start r d) followed
  unfold result? at returned
  split at returned
  next produced drained closed ended =>
    obtain rfl := Option.some.inj returned
    obtain ⟨rfl, destination, _⟩ := flow.ended drained ended
    refine ⟨destination, ?_⟩
    rcases flow.produced produced (.inr closed) with rfl | ⟨short, severed⟩
    · exact .inl rfl
    · exact .inr ⟨short, produced, severed, by rw [Destination.verdict_refused short]⟩
  next => simp at returned

theorem combine_refusal (e : IoError) (broken : e.kind = .brokenPipe) {o : Outcome IoError Unit}
    (refused : o ≠ .ok ()) : combine (.error (.io e)) o = o.mapError .io := by
  rcases o with a | e' | p
  · exact absurd rfl refused
  · simp [combine, broken, Outcome.mapError]
  · rfl

theorem combine_ok (o : Outcome IoError Unit) : combine (.ok ()) o = o.mapError .io := by
  rcases o with a | e | p <;> rfl

theorem combine_of_ok (o : Outcome Error Unit) : combine o (.ok ()) = o := by
  rcases o with a | e | p
  · rfl
  · cases e <;> rfl
  · rfl

theorem combine_either (produced : Outcome Error Unit) (o : Outcome IoError Unit) :
    combine produced o = produced ∨ combine produced o = o.mapError .io := by
  rcases produced with a | e | p
  · exact .inr (combine_ok o)
  · rcases o with a | e' | p
    · exact .inl (combine_of_ok _)
    · cases e with
      | io e =>
        by_cases broken : e.kind = .brokenPipe
        · exact .inr (by simp [combine, broken, Outcome.mapError])
        · exact .inl (by simp [combine, broken])
      | _ => exact .inl rfl
    · cases e <;> exact .inr rfl
  · exact .inl rfl

theorem combine_eq_ok {produced : Outcome Error Unit} {o : Outcome IoError Unit}
    (succeeded : combine produced o = .ok ()) : produced = .ok () ∧ o = .ok () := by
  rcases combine_either produced o with same | same
  · rw [succeeded] at same
    subst same
    rw [combine_ok] at succeeded
    rcases o with a | e | p <;> simp [Outcome.mapError] at succeeded ⊢
  · rw [succeeded] at same
    rcases o with a | e | p <;> simp [Outcome.mapError] at same
    rw [combine_of_ok] at succeeded
    exact ⟨succeeded, rfl⟩

theorem Severed.combine {produced : Outcome Error Unit} (severed : Severed r produced)
    (plain : r.wrapping = none) (d : Destination) :
    combine produced d.refusal = d.refusal.mapError .io := by
  have same : produced = .error (.io hungUp) := by
    rcases severed with rfl | ⟨_, rfl⟩
    · simp [Report.sinkError, plain]
    · rfl
  rw [same]
  exact combine_refusal hungUp rfl d.refusal_ne_ok

theorem Severed.ne_ok (severed : Severed r (.ok ())) : False := by
  rcases severed with h | ⟨_, h⟩ <;> simp at h

theorem Severed.safe {produced : Outcome Error Unit} (severed : Severed r produced) :
    produced.Safe := by
  rcases severed with rfl | ⟨_, rfl⟩
  · unfold Report.sinkError
    split
    next => exact id
    next => exact Error.not_isFault_ofEngine _
  · exact id

theorem combine_safe {produced : Outcome Error Unit} {drained : Outcome IoError Unit}
    (safe : produced.Safe) (quiet : drained.isPanic = false) : (combine produced drained).Safe := by
  unfold combine
  split
  · exact safe.elim
  · simp [Outcome.isPanic] at quiet
  · trivial
  · exact id
  · split <;> exact id
  · exact safe

theorem redirect_safe (safe : r.ending.Safe) (calm : d.Calm) :
    (redirect r d).1.Safe := by
  obtain ⟨ms, s, followed, returned, _⟩ := follow_redirect r d
  rcases (returned_cases followed returned).2 with result | ⟨_, produced, severed, result⟩ <;>
    rw [result]
  · exact combine_safe safe (Destination.verdict_calm calm _)
  · exact combine_safe severed.safe (Destination.refusal_calm calm)

theorem redirect_error (own : ∀ e, r.ending = .error e → ∃ x, e = Error.ofEngine x) {e : Error}
    (failed : (redirect r d).1 = .error e) : ∃ x, e = Error.ofEngine x := by
  obtain ⟨ms, s, followed, returned, _⟩ := follow_redirect r d
  have written {o : Outcome IoError Unit} (same : o.mapError Error.io = .error e) :
      ∃ x, e = Error.ofEngine x := by
    rcases o with a | x | p <;> simp only [Outcome.mapError, reduceCtorEq] at same
    exact ⟨.io x, (Outcome.error.inj same).symm⟩
  have severed {produced : Outcome Error Unit} (severed : Severed r produced)
      (same : produced = .error e) : ∃ x, e = Error.ofEngine x := by
    subst same
    rcases severed with same | ⟨_, same⟩ <;> rw [Outcome.error.inj same]
    · unfold Report.sinkError
      split
      · exact ⟨.io hungUp, rfl⟩
      · exact ⟨_, rfl⟩
    · exact ⟨.io hungUp, rfl⟩
  rw [failed] at returned
  rcases (returned_cases followed returned).2 with result | ⟨_, produced, broken, result⟩
  · rcases combine_either r.ending (d.verdict r.bytes.length) with same | same
    · exact own e (same.symm.trans result.symm)
    · exact written (same.symm.trans result.symm)
  · rcases combine_either produced d.refusal with same | same
    · exact severed broken (same.symm.trans result.symm)
    · exact written (same.symm.trans result.symm)

/-- In every schedule, with any room in buffer and pipe, the destination gets the bytes of the
report that fit it. The result is the producer's if the destination takes them all, and the
destination's if the producer does not fail by itself; if both fail it is one of the two. -/
theorem schedules_agree {l : Limits} {r : Report} {d : Destination} {ms : List Move} {s : State}
    {x : Outcome Error Unit} (followed : follow l (Transfer.start r d) ms = some s)
    (returned : result? s = some x) :
    s.destination = d.take (r.bytes.take (d.fitting r.bytes.length)) ∧
      (d.verdict r.bytes.length = .ok () → x = r.ending) ∧
      (r.wrapping = none → r.ending = .ok () →
        x = (d.verdict r.bytes.length).mapError .io ∧
          (d.verdict r.bytes.length ≠ .error hungUp → x ≠ .error (.io hungUp))) ∧
      (r.wrapping = none → x = r.ending ∨ x = (d.verdict r.bytes.length).mapError .io) ∧
      (x = .ok () → r.ending = .ok () ∧ d.verdict r.bytes.length = .ok ()) ∧
      ∀ l' ms' s' x', follow l' (Transfer.start r d) ms' = some s' → result? s' = some x' →
        s'.destination = s.destination ∧
          (d.verdict r.bytes.length = .ok () ∨ r.wrapping = none ∧ r.ending = .ok () → x' = x) := by
  have accepted {l : Limits} {ms : List Move} {s : State} {x : Outcome Error Unit}
      (followed : follow l (Transfer.start r d) ms = some s) (returned : result? s = some x)
      (whole : d.verdict r.bytes.length = .ok ()) : x = r.ending := by
    rcases (returned_cases followed returned).2 with rfl | ⟨short, _⟩
    · rw [whole, combine_of_ok]
    · have fits := Destination.verdict_ok whole
      omega
  have plain {l : Limits} {ms : List Move} {s : State} {x : Outcome Error Unit}
      (followed : follow l (Transfer.start r d) ms = some s) (returned : result? s = some x)
      (plain : r.wrapping = none) (succeeds : r.ending = .ok ()) :
      x = (d.verdict r.bytes.length).mapError .io := by
    rcases (returned_cases followed returned).2 with rfl | ⟨short, produced, severed, rfl⟩
    · rw [succeeds, combine_ok]
    · rw [severed.combine plain, Destination.verdict_refused short]
  obtain ⟨delivered, ended⟩ := returned_cases followed returned
  refine ⟨delivered, accepted followed returned, fun handsOn succeeds => ⟨?_, ?_⟩,
    fun handsOn => ?_, fun succeeded => ?_, fun l' ms' s' x' followed' returned' => ⟨?_, ?_⟩⟩
  · exact plain followed returned handsOn succeeds
  · intro other
    rw [plain followed returned handsOn succeeds]
    cases verdict : d.verdict r.bytes.length <;> simp [Outcome.mapError]
    simpa [verdict] using other
  · rcases ended with rfl | ⟨short, produced, severed, rfl⟩
    · exact combine_either r.ending _
    · rw [severed.combine handsOn, Destination.verdict_refused short]
      exact .inr rfl
  · rcases ended with rfl | ⟨short, produced, severed, rfl⟩
    · exact combine_eq_ok succeeded
    · obtain ⟨rfl, _⟩ := combine_eq_ok succeeded
      exact severed.ne_ok.elim
  · rw [delivered, (returned_cases followed' returned').1]
  · rintro (whole | ⟨handsOn, succeeds⟩)
    · rw [accepted followed returned whole, accepted followed' returned' whole]
    · rw [plain followed returned handsOn succeeds, plain followed' returned' handsOn succeeds]

-- The producer meets the broken pipe, yet the failure of the destination is reported.
theorem full_destination_reported :
    let r : Report := ⟨[[1, 2], [3]], .ok (), none⟩
    let d : Destination := { capacity := some 1 }
    let full : IoError := ⟨.other, "destination full"⟩
    let s : State := ⟨r, [], .closed (.error (.io hungUp)), [], [], [2], .ended (.error full),
      { d with received := [1] }⟩
    ∃ x, follow ⟨1, 1, 1⟩ (Transfer.start r d)
        [.write 1, .spill 1, .read 1, .write 1, .deliver 1, .spill 1, .read 1, .deliver 1,
          .breakOff, .advance] = some s ∧
      result? s = some x ∧ x = .error (.io full) ∧ x ≠ .error (.io hungUp) := by
  intro r d full s
  have followed : follow ⟨1, 1, 1⟩ (Transfer.start r d)
      [.write 1, .spill 1, .read 1, .write 1, .deliver 1, .spill 1, .read 1, .deliver 1,
        .breakOff, .advance] = some s := by rfl
  obtain ⟨reported, other⟩ := (schedules_agree followed rfl).2.2.1 rfl rfl
  exact ⟨_, followed, rfl, reported, other (by decide)⟩

end Transfer

end SatSession
