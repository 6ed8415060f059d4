import SatSession.Engine.Scripted
import SatSession.Proofs.Cores

set_option autoImplicit false

namespace SatSession

namespace Transfer

variable {l : Limits} {r : Report} {d : Destination} {s t : State} {context : String}

theorem Flow.on_its_way (flow : Flow r d s) (copying : s.drain = .copying) :
    r.bytes.length ≤ d.fitting r.bytes.length + s.held.length + s.pipe.length + s.buffer.length +
      s.unwritten.length := by
  obtain ⟨k, fits, -, rest⟩ := flow.copying copying
  have total := congrArg List.length rest
  simp only [List.length_drop, List.length_append] at total
  omega

/-- A producer that is still writing, within the room there is for what it has written. -/
structure Underway (l : Limits) (r : Report) (d : Destination) (s : State) : Prop where
  writing : s.producer = .writing
  buffer : s.buffer.length ≤ l.buffer
  pipe : s.pipe.length ≤ l.pipe
  held : s.held.length ≤ l.read
  total : r.bytes.length ≤ d.fitting r.bytes.length + s.held.length + s.pipe.length +
    s.buffer.length + s.unwritten.length

theorem Underway.start (l : Limits) (r : Report) (d : Destination) :
    Underway l r d (Transfer.start r d) where
  writing := rfl
  buffer := Nat.zero_le _
  pipe := Nat.zero_le _
  held := Nat.zero_le _
  total := by simp [Transfer.start]

theorem Underway.deliver (underway : Underway l r d s) (flow : Flow r d s) {n : Nat}
    (applied : apply l s (.deliver n) = some t) : Underway l r d t := by
  obtain ⟨writing, buffer, pipe, held, total⟩ := underway
  have later := flow.moved (moved_of_deliver applied)
  simp only [apply, Option.ite_none_right_eq_some, Bool.and_eq_true, isCopying_iff] at applied
  obtain ⟨⟨⟨copying, _⟩, _⟩, sent⟩ := applied
  rcases written : s.destination.write (s.held.take n) with ⟨(_ | k) | e | p, d'⟩ <;>
    simp only [written] at sent <;> obtain rfl := Option.some.inj sent
  · exact ⟨writing, buffer, pipe, held, total⟩
  · refine ⟨writing, buffer, pipe, ?_, later.on_its_way copying⟩
    rw [List.length_drop]
    omega
  · exact ⟨writing, buffer, pipe, held, total⟩
  · exact ⟨writing, buffer, pipe, held, total⟩

theorem Underway.apply (underway : Underway l r d s) (flow : Flow r d s)
    (long : l.buffer + l.pipe + l.read + d.fitting r.bytes.length < r.bytes.length) {m : Move}
    (applied : apply l s m = some t) :
    Underway l r d t ∨ t.producer = .leaving (.error (r.sinkError hungUp)) := by
  obtain ⟨writing, buffer, pipe, held, total⟩ := id underway
  cases m with
  | write n | bypass n | spill n =>
    simp only [Transfer.apply, Option.ite_none_right_eq_some, Bool.and_eq_true, decide_eq_true_eq,
      Option.some.injEq] at applied
    obtain ⟨guard, rfl⟩ := applied
    left
    constructor <;> simp only [List.length_append, List.length_take, List.length_drop] <;>
      first | exact writing | omega
  | read n =>
    simp only [Transfer.apply, Option.ite_none_right_eq_some, Bool.and_eq_true, List.isEmpty_iff,
      decide_eq_true_eq, Option.some.injEq] at applied
    obtain ⟨⟨⟨⟨⟨_, idle⟩, _⟩, room⟩, _⟩, rfl⟩ := applied
    rw [idle, List.length_nil] at total
    left
    constructor <;> simp only [List.length_take, List.length_drop] <;>
      first | exact writing | omega
  | breakOff =>
    simp only [Transfer.apply, breakOff?, writing, Option.ite_none_left_eq_some,
      Option.some.injEq] at applied
    obtain ⟨-, -, rfl⟩ := applied
    right
    rw [flow.report]
  | finish =>
    simp only [Transfer.apply, Option.ite_none_right_eq_some, Bool.and_eq_true,
      List.isEmpty_iff] at applied
    rw [applied.1.2, List.length_nil] at total
    omega
  | advance => simp [Transfer.apply, writing] at applied
  | deliver n => exact .inl (underway.deliver flow applied)
  | stop => simp [Transfer.apply, writing, Producer.isClosed] at applied

theorem severed_moved {o : Outcome Error Unit}
    (severed : s.producer = .leaving o ∨ s.producer = .closed o) (moved : Moved s t) :
    t.producer = .leaving o ∨ t.producer = .closed o := by
  cases moved with
  | close result leaving =>
    right
    simpa [leaving] using severed
  | write n writing | bypass n writing | breakWriting _ writing | flush writing | leave writing =>
    simp [writing] at severed
  | breakFlushing _ flushing | flushed flushing => simp [flushing] at severed
  | _ => exact severed

theorem follow_underway {ms : List Move} (underway : Underway l r d s) (flow : Flow r d s)
    (long : l.buffer + l.pipe + l.read + d.fitting r.bytes.length < r.bytes.length)
    (followed : follow l s ms = some t) : t.producer.isClosed = true →
      t.producer = .closed (.error (r.sinkError hungUp)) := by
  induction ms generalizing s with
  | nil =>
    obtain rfl := Option.some.inj followed
    intro closed
    simp [underway.writing, Producer.isClosed] at closed
  | cons m ms ih =>
    obtain ⟨u, applied, rest⟩ := follow_cons followed
    rcases underway.apply flow long applied with still | leaving
    · exact ih still (flow.moved (moved_of_apply applied)) rest
    · intro closed
      have severed := follow_keeps (P := fun s => s.producer = .leaving _ ∨ s.producer = .closed _)
        (fun _ _ => severed_moved) (.inl leaving) rest
      refine severed.resolve_left fun leaving => ?_
      simp [leaving, Producer.isClosed] at closed

theorem overrun_reported {ms : List Move} {x : Outcome Error Unit}
    (wraps : r.wrapping = some context)
    (long : l.buffer + l.pipe + l.read + d.fitting r.bytes.length < r.bytes.length)
    (calm : (d.verdict r.bytes.length).isPanic = false)
    (followed : follow l (Transfer.start r d) ms = some s) (returned : result? s = some x) :
    x = .error (.engine (context ++ ": " ++ hungUp.message)) := by
  have flow : Flow r d s := follow_keeps (fun _ _ => Flow.moved) (Flow.start r d) followed
  have last := follow_underway (Underway.start l r d) (Flow.start r d) long followed
  have wrapped : r.sinkError hungUp = .engine (context ++ ": " ++ hungUp.message) := by
    rw [Report.sinkError, wraps]
    rfl
  unfold result? at returned
  split at returned
  next produced drained closed ended =>
    obtain rfl := Option.some.inj returned
    rw [closed, wrapped] at last
    obtain rfl := Producer.closed.inj (last rfl)
    obtain ⟨rfl, -, -⟩ := flow.ended drained ended
    cases verdict : d.verdict r.bytes.length with
    | panic p => simp [verdict, Outcome.isPanic] at calm
    | _ => rfl
  next => simp at returned

theorem failed_cases {ms : List Move} {x : Outcome Error Unit} {e : IoError}
    (succeeds : r.ending = .ok ()) (fails : d.verdict r.bytes.length = .error e)
    (followed : follow l (Transfer.start r d) ms = some s) (returned : result? s = some x) :
    x = .error (.io e) ∨ d.fitting r.bytes.length < r.bytes.length ∧ ∃ context,
      r.wrapping = some context ∧ x = .error (.engine (context ++ ": " ++ hungUp.message)) := by
  rcases (returned_cases followed returned).2 with result | ⟨short, produced, severed, result⟩
  · rw [succeeds, fails] at result
    exact .inl result
  · have refused : d.refusal = .error e := Destination.verdict_refused short ▸ fails
    have plain : combine (.error (.io hungUp)) d.refusal = .error (.io e) := by
      rw [combine_refusal hungUp rfl d.refusal_ne_ok, refused]
      rfl
    rcases severed with rfl | ⟨-, rfl⟩
    · cases wraps : r.wrapping with
      | none =>
        rw [Report.sinkError, wraps] at result
        exact .inl (result.trans plain)
      | some context =>
        rw [Report.sinkError, wraps, refused] at result
        exact .inr ⟨short, context, rfl, result⟩
    · exact .inl (result.trans plain)

end Transfer

open Transfer in
/-- If nothing fails of a report but that it is written, every schedule ends with the failure of the
destination, and none with the broken pipe; but a producer that wraps the errors of its writes may
report one, if not all of the report fits, and does so if the report outgrows the room there is. -/
theorem write_failures_reported {σ : Type} {E : Engine σ} {c : Client σ} {k : ReportKind}
    {r : Report} {t : Session σ} (sound : c.session.poisoned = false)
    (produced : Session.produce E k c.session = (.ok r, t)) (succeeds : r.ending = .ok ())
    {d : Destination} {e : IoError} (fails : d.verdict r.bytes.length = .error e) :
    (∃ ms s y, follow .standard (start r d) ms = some s ∧ result? s = some (.error y) ∧
      (c.perform E (.report k d)).1.result = .error y) ∧
    ∀ l ms s x, follow l (start r d) ms = some s → result? s = some x →
      (e ≠ hungUp → x ≠ .error (.io hungUp)) ∧
      (x = .error (.io e) ∨ d.fitting r.bytes.length < r.bytes.length ∧ ∃ context,
        r.wrapping = some context ∧ x = .error (.engine (context ++ ": " ++ hungUp.message))) ∧
      ∀ context, r.wrapping = some context →
        l.buffer + l.pipe + l.read + d.fitting r.bytes.length < r.bytes.length →
          x = .error (.engine (context ++ ": " ++ hungUp.message)) := by
  have answered := Client.perform_report (E := E) (d := d) sound produced
  constructor
  · obtain ⟨ms, s, followed, returned, -⟩ := follow_redirect r d
    have failed : ∃ y, (redirect r d).1 = .error y := by
      rcases failed_cases succeeds fails followed returned with io | ⟨-, context, -, engine⟩
      · exact ⟨_, io⟩
      · exact ⟨_, engine⟩
    obtain ⟨y, failed⟩ := failed
    refine ⟨ms, s, y, followed, failed ▸ returned, ?_⟩
    rw [answered]
    rcases sent : redirect r d with ⟨x, d'⟩
    obtain rfl : x = .error y := (congrArg Prod.fst sent).symm.trans failed
    rfl
  · intro l ms s x followed returned
    have cases := failed_cases succeeds fails followed returned
    refine ⟨?_, cases, fun context wraps long => ?_⟩
    · rintro other rfl
      rcases cases with io | ⟨-, context, -, engine⟩
      · exact other (by simpa using io.symm)
      · cases engine
    · exact overrun_reported wraps long (by rw [fails]; rfl) followed returned

open Transfer in
-- Five bytes for a destination that takes none, with room for three on their way.
theorem wrapped_failure_reported :
    let e : Scripted.State := ⟨{ report := ⟨[[1, 2], [3, 4, 5]], .ok (), some "not written"⟩ },
      [.status .unsatisfiable], 0, 0, none, false, false, []⟩
    let c := (Client.run Scripted.engine
      ⟨⟨e, false, false, .noResult, false, false, 0, []⟩, []⟩ [.solve]).2
    let d : Destination := { capacity := some 0 }
    let r : Report := ⟨[[1, 2], [3, 4, 5]], .ok (), some "not written"⟩
    (∃ t, Session.produce Scripted.engine .formula c.session = (.ok r, t)) ∧
      (∃ y, (c.perform Scripted.engine (.report .formula d)).1.result = .error y) ∧
      ∃ s x, follow ⟨1, 1, 1⟩ (start r d) [.write 1, .spill 1, .read 1, .write 1, .deliver 1,
        .breakOff, .advance] = some s ∧ result? s = some x ∧
        x = .error (.engine "not written: Broken pipe (os error 32)") ∧
        x ≠ .error (.io hungUp) := by
  intro e c d r
  have produced : Session.produce Scripted.engine .formula c.session = (.ok r, _) := rfl
  have fails : d.verdict r.bytes.length = .error ⟨.other, "destination full"⟩ := rfl
  obtain ⟨⟨_, _, y, _, _, answered⟩, all⟩ := write_failures_reported rfl produced rfl fails
  have followed : follow ⟨1, 1, 1⟩ (start r d) [.write 1, .spill 1, .read 1, .write 1, .deliver 1,
    .breakOff, .advance] = some _ := rfl
  obtain ⟨other, -, wrapped⟩ := all _ _ _ _ followed rfl
  exact ⟨⟨_, produced⟩, ⟨y, answered⟩, _, _, followed, rfl, wrapped _ rfl (by decide), other (by decide)⟩

namespace Cnf.Search

-- Repeats the last clause of a proof, the empty one.
def repetitive : Solver :=
  { solver with prove := fun cs => (prove cs).map (· ++ List.replicate 90000 []) }

theorem repetitive_correct : repetitive.Correct where
  model_covers := solver_correct.model_covers
  refuted_subset := solver_correct.refuted_subset
  refuted_unsat := solver_correct.refuted_unsat
  decides := solver_correct.decides
  proves := by
    intro cs
    rw [← solver_correct.proves]
    exact Bool.eq_iff_iff.mp Option.isSome_map

end Cnf.Search

theorem length_stepText_pos (c : Cnf.Clause) :
    0 < (Bytes.ofString (Cnf.Drat.stepText c)).length := by
  rw [Bytes.ofString_eq, Cnf.Drat.stepText, String.toList_append, Bytes.ofChars_append,
    List.length_append]
  exact Nat.add_pos_right _ (by decide)

theorem length_le_flatten_map {α : Type} {f : α → Bytes} (nonempty : ∀ a, 0 < (f a).length)
    (as : List α) : as.length ≤ ((as.map f).flatten).length := by
  induction as with
  | nil => exact Nat.le_refl 0
  | cons a as ih =>
    have first := nonempty a
    rw [List.map_cons, List.flatten_cons, List.length_append, List.length_cons]
    omega

namespace Replay

variable {S : Cnf.Solver}

theorem extendedTrace_written {c : Core} {n : Nat} {steps : List Cnf.Clause}
    (proof : S.prove (Cnf.ofClauses c.clauses ++ Cnf.units (c.failed.map .ofLit)) = some steps) :
    c.production S n .extendedTrace =
      ⟨steps.map fun c => Bytes.ofString (Cnf.Drat.stepText c), .ok (),
        some "Error writing proof file"⟩ := by
  rw [Core.production, traceOf, proof]
  rfl

theorem length_extendedTrace {c : Core} {n : Nat} {steps : List Cnf.Clause}
    (proof : S.prove (Cnf.ofClauses c.clauses ++ Cnf.units (c.failed.map .ofLit)) = some steps) :
    steps.length ≤ (c.production S n .extendedTrace).toReport.bytes.length := by
  rw [extendedTrace_written proof]
  exact length_le_flatten_map length_stepText_pos steps

end Replay

open Cnf in
/-- A correct solver with a long proof, and a destination that takes nothing: what is reported is
not the failure of the destination. -/
theorem long_trace_misreported :
    let S := Search.repetitive
    let d : Destination := { capacity := some 0 }
    S.Correct ∧ ∃ s, (Session.create (Replay.engine S) { traceGeneration := true } {}).1 = .ok s ∧
      let c := (Client.run (Replay.engine S) ⟨s, []⟩ [.addClauses [[1], [-1]], .solve]).2
      ∃ r t, Session.produce (Replay.engine S) .extendedTrace c.session = (.ok r, t) ∧
        r.ending = .ok () ∧ d.verdict r.bytes.length = .error ⟨.other, "destination full"⟩ ∧
        (c.perform (Replay.engine S) (.report .extendedTrace d)).1.result =
          .error (.engine "Error writing proof file: Broken pipe (os error 32)") := by
  intro S d
  refine ⟨Search.repetitive_correct, _, rfl, ?_⟩
  intro c
  have reachable : c.Reachable S { traceGeneration := true } := ⟨_, _, rfl, rfl⟩
  obtain ⟨isOpen, live, sound, tracing⟩ : c.session.state.windowOpen = true ∧
      c.session.released = false ∧ c.session.poisoned = false ∧ c.session.tracing = true := by
    simp only [c]
    decide +kernel
  have held := reachable.sound
  obtain ⟨failed, refuted, _⟩ := held.blamed isOpen
  obtain ⟨core, messages, run, part⟩ := Replay.core_found Search.repetitive_correct
    held.engine.toFit (held.traced tracing) refuted (held.refuted Search.repetitive_correct isOpen)
  obtain ⟨t, produced⟩ :=
    Client.produce_core (k := .extendedTrace) live tracing isOpen (by decide) run
  -- The proof is some proof of the core, followed by the empty clause again and again.
  obtain ⟨steps, proof⟩ :=
    Option.isSome_iff_exists.mp (Search.repetitive_correct.proves.mpr part.unsat)
  obtain ⟨short, -, rfl⟩ := Option.map_eq_some_iff.mp proof
  let r := (core.production S c.session.engine.varCount .extendedTrace).toReport
  have long : 90000 ≤ r.bytes.length := by
    have written := Replay.length_extendedTrace (n := c.session.engine.varCount) proof
    rw [List.length_append, List.length_replicate] at written
    exact Nat.le_trans (Nat.le_add_left _ _) written
  have written := Replay.extendedTrace_written (n := c.session.engine.varCount) proof
  have wraps : r.wrapping = some "Error writing proof file" :=
    congrArg (fun p => p.toReport.wrapping) written
  have succeeds : r.ending = .ok () := congrArg (fun p => p.toReport.ending) written
  have fitting : d.fitting r.bytes.length = 0 := Nat.min_zero _
  have fails : d.verdict r.bytes.length = .error ⟨.other, "destination full"⟩ := by
    rw [Destination.verdict, if_pos (by omega)]
    rfl
  refine ⟨r, t, produced, succeeds, fails, ?_⟩
  obtain ⟨ms, s, followed, returned, -⟩ := Transfer.follow_redirect r d
  have outgrown : 8192 + 65536 + 8192 + d.fitting r.bytes.length < r.bytes.length := by omega
  have reported := Transfer.overrun_reported wraps outgrown (by rw [fails]; rfl) followed returned
  rw [Client.perform_report sound produced]
  rcases sent : Transfer.redirect r d with ⟨x, d'⟩
  obtain rfl := (congrArg Prod.fst sent).symm.trans reported
  rfl

end SatSession
