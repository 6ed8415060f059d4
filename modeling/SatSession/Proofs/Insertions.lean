import SatSession.Proofs.Effects
import SatSession.Proofs.Search
import SatSession.Proofs.Simulation

/-!
Operations that a client may insert into its history unnoticed: queries, reports, and clauses that
are refused. They change nothing but the messages of the engine and the time spent, and the other
operations answer as if there were neither: an engine without messages answers the same.
-/

set_option autoImplicit false

namespace SatSession

open Step

namespace Replay

variable {ε α : Type} {S : Cnf.Solver}

def State.hush (s : State) : State := { s with verbosity := 0, messages := [] }

def silent (S : Cnf.Solver) : Engine State := { engine S with setVerbosity := fun _ => pure () }

theorem State.renew_hush (s : State) : s.hush.renew = s.renew.hush := by
  unfold renew hush
  split <;> rfl

-- Every message has a level of its own, so that the lowest verbosity leaves them all out.
theorem State.say_hush (s : State) (level : Nat) (text : String) :
    s.hush.say (level + 1) text = (s.say (level + 1) text).hush := by
  have hushed : (s.say (level + 1) text).hush = s.hush := by
    unfold say
    split <;> rfl
  rw [hushed]
  simp [say, hush]

theorem commutes_ofOutcome (x : Outcome ε α) :
    Commutes State.hush (ofOutcome x : Step State ε α) (ofOutcome x) := fun _ => rfl

theorem commutes_abandon (message : String) :
    Commutes State.hush (abandon message : Step State ε α) (abandon message) := fun _ => rfl

theorem commutes_say (level : Nat) (text : String) :
    Commutes State.hush (modify (·.say (level + 1) text) : Step State ε Unit)
      (modify (·.say (level + 1) text)) :=
  commutes_modify fun s => s.say_hush level text

theorem commutes_renew :
    Commutes State.hush
      (modify fun s : State => { s.renew with outcome := .cleared } : Call State Unit)
      (modify fun s : State => { s.renew with outcome := .cleared }) :=
  commutes_modify fun s => by rw [s.renew_hush]; rfl

theorem commutes_add (n : Int) : Commutes State.hush (add n) (add n) := by
  refine commutes_bind commutes_renew fun _ => commutes_ite (fun _ => ?_) fun _ => ?_
  · exact commutes_modify fun _ => rfl
  · refine commutes_bind (commutes_modify fun _ => rfl) fun _ => ?_
    exact commutes_bind (commutes_ofOutcome _) fun l => commutes_modify fun _ => rfl

theorem commutes_assume (n : Int) : Commutes State.hush (assume n) (assume n) := by
  refine commutes_bind commutes_renew fun _ => ?_
  refine commutes_bind (commutes_modify fun _ => rfl) fun _ => ?_
  exact commutes_bind (commutes_ofOutcome _) fun l => commutes_modify fun _ => rfl

theorem conclude_hush (s : State) (v : Cnf.Verdict) :
    conclude s.hush v = ((conclude s v).1, (conclude s v).2.hush) := by
  cases v <;> rfl

theorem commutes_unless {p : Prop} [Decidable p] {message : String} {x y : Step State ε α}
    (same : Commutes State.hush x y) :
    Commutes State.hush (if p then abandon message >>= fun _ : Unit => x else x)
      (if p then abandon message >>= fun _ : Unit => y else y) :=
  commutes_ite (fun _ => commutes_bind (commutes_abandon message) fun _ => same) fun _ => same

theorem commutes_solve : Commutes State.hush (solve S) (solve S) := by
  refine commutes_get fun t => commutes_unless ?_
  refine commutes_bind (commutes_modify fun s => by rw [s.renew_hush]; rfl) fun _ => ?_
  refine commutes_get fun s => ?_
  rw [conclude_hush]
  exact commutes_bind (commutes_modify fun _ => (conclude s _).2.say_hush 0 _) fun _ =>
    commutes_pure _

theorem commutes_value (n : Int) : Commutes State.hush (value n) (value n) := by
  refine commutes_get fun t => ?_
  have same : t.hush.outcome = t.outcome := rfl
  rw [same]
  cases t.outcome with
  | satisfiable values =>
    refine commutes_bind (commutes_ofOutcome _) fun l => ?_
    cases values[l.var.number]? with
    | some b => exact commutes_pure _
    | none => exact commutes_ofOutcome _
  | _ => exact commutes_abandon _

theorem commutes_refutation :
    Commutes State.hush (refutation : Step State ε (List Lit)) refutation := by
  refine commutes_get fun t => ?_
  have same : t.hush.outcome = t.outcome := rfl
  rw [same]
  cases t.outcome with
  | unsatisfiable failed => exact commutes_pure failed
  | _ => exact commutes_abandon _

theorem greedy_hush (s : State) (chosen as : List Lit) :
    greedy S s.hush chosen as = greedy S s chosen as := by
  induction as generalizing chosen with
  | nil => rfl
  | cons a as ih => simp only [greedy, ih]; rfl

theorem commutes_maximalSubset : Commutes State.hush (maximalSubset S) (maximalSubset S) := by
  refine commutes_get fun t => commutes_unless ?_
  have same : S.run t.hush.limit t.hush.clauses [] = S.run t.limit t.clauses [] := rfl
  rw [same]
  cases S.run t.limit t.clauses [] with
  | exhausted => exact commutes_fail _
  | refuted failed =>
    refine commutes_bind (commutes_modify fun s => ?_) fun _ => commutes_pure _
    exact State.say_hush { s with inconsistent := true } 1 _
  | model lits =>
    have assumed : t.hush.assumptions = t.assumptions := rfl
    simp only [greedy_hush, assumed]
    cases greedy S t [] t.assumptions with
    | error e => exact commutes_fail e
    | ok subset => exact commutes_bind (commutes_say 1 _) fun _ => commutes_pure _

theorem commutes_satisfiableSubset (next : Bool) :
    Commutes State.hush (satisfiableSubset S next) (satisfiableSubset S next) := by
  refine commutes_bind commutes_maximalSubset fun subset => ?_
  refine commutes_bind (commutes_modify fun _ => rfl) fun _ => commutes_get fun t => ?_
  refine commutes_ite (fun _ => commutes_bind (commutes_modify fun s => ?_) fun _ => ?_) fun _ => ?_
  · exact congrArg (State.pushClause · _) (s.say_hush 1 _)
  · exact commutes_pure _
  · exact commutes_pure _

theorem commutes_core : Commutes State.hush (core S) (core S) := by
  refine commutes_get fun t => commutes_unless (commutes_unless ?_)
  have same : t.hush.coreVerdict S = t.coreVerdict S := rfl
  dsimp only
  rw [State.run_selected, State.run_selected, same]
  cases t.coreVerdict S with
  | refuted failed =>
    refine commutes_bind (commutes_ofOutcome _) fun c => ?_
    exact commutes_bind (commutes_say 1 _) fun _ => commutes_pure c
  | _ => exact commutes_fail _

theorem commutes_producing {x y : Step State EngineError Production}
    (same : Commutes State.hush x y) : Commutes State.hush (producing x) (producing y) := by
  intro t
  simp only [producing, same t]
  rcases x t with ⟨a | e | p, t'⟩ <;> rfl

theorem commutes_writeTrace (stepBytes : Cnf.Clause → Bytes) :
    Commutes State.hush (writeTrace S stepBytes) (writeTrace S stepBytes) := by
  refine commutes_bind commutes_core fun c => ?_
  cases traceOf S stepBytes c with
  | ok p => exact commutes_pure p
  | error e => exact commutes_fail e

theorem commutes_report (k : ReportKind) : Commutes State.hush (report S k) (report S k) := by
  cases k with
  | formula => exact commutes_get fun t => commutes_pure _
  | clausalCore =>
    exact commutes_producing
      (commutes_bind commutes_core fun c => commutes_get fun t => commutes_pure _)
  | compactTrace | extendedTrace => exact commutes_producing (commutes_writeTrace _)

theorem silent_maps (S : Cnf.Solver) : (engine S).Maps State.hush (silent S) where
  add := commutes_add
  assume := commutes_assume
  solve := commutes_solve
  value := commutes_value
  varCount := commutes_get fun _ => commutes_pure _
  clauseCount := commutes_get fun _ => commutes_pure _
  failedAssumption _ := commutes_bind commutes_refutation fun _ =>
    commutes_bind (commutes_ofOutcome _) fun _ => commutes_pure _
  failedAssumptions := commutes_bind commutes_refutation fun _ => commutes_pure _
  inconsistent := commutes_get fun _ => commutes_pure _
  satisfiableSubset := commutes_satisfiableSubset
  setPropagationLimit _ := commutes_modify fun _ => rfl
  setVerbosity _ := fun _ => rfl
  setLead _ := commutes_modify fun _ => rfl
  setOutput _ := commutes_modify fun _ => rfl
  enableTracing := commutes_get fun _ =>
    commutes_ite (fun _ => commutes_fail _) fun _ => commutes_modify fun _ => rfl
  report := commutes_report
  release _ := rfl

end Replay

namespace Session

variable {S : Cnf.Solver} {limit : Nat} {s t : Session Replay.State} {α : Type}

def bare (s : Session Replay.State) : Session Replay.State :=
  { s with engine := s.engine.hush, timedCalls := 0 }

theorem bare_view : View Replay.State.hush bare := by
  constructor <;> intros <;> rfl

theorem bare_charge (timed : Bool) (s : Session Replay.State) :
    (s.bare.charge timed).bare = (s.charge timed).bare.bare := by
  have measured : s.bare.measureAllCalls = s.measureAllCalls := rfl
  simp only [charge, measured]
  split <;> rfl

theorem bare_exclusive {x : Op Replay.State α} (same : (x s).2 = s)
    (calm : (x s).1.isPanic = false) (timed : Bool) :
    (exclusive timed x s).2.bare = s.bare := by
  cases poisoned : s.poisoned with
  | true => rw [exclusive_poisoned poisoned]
  | false =>
    obtain ⟨calls, unlocked⟩ := exclusive_sound poisoned timed x
    rw [unlocked, same, calm, Bool.or_false]
    rfl

theorem bare_shared {x : Op Replay.State α} (same : (x s).2 = s) :
    (shared x s).2.bare = s.bare := by
  unfold shared
  split
  · rfl
  · rw [same]

theorem kept_of_held {x : Op Replay.State α}
    (refuses : s.released = true → x s = (.error .notReady, s))
    (held : s.released = false → (x s).2 = s) : (x s).2 = s := by
  cases released : s.released with
  | true => rw [refuses released]
  | false => exact held released

end Session

def Operation.spare : Operation → Outcome Error Reply → Bool
  | .report _ _, r => !r.isPanic
  | .failedAssumption _, _ | .failedAssumptions, _ => true
  | .varCount, _ | .clauseCount, _ | .lastStatus, _ | .elapsedIsZero, _ => true
  | .addClauses _, .error _ | .blockSolution _, .error _ => true
  | _, _ => false

def Operation.timeless : Operation → Bool
  | .elapsedIsZero => false
  | _ => true

namespace Session

section Spare

variable {S : Cnf.Solver} {limit : Nat} {s : Session Replay.State} (sound : Sound S limit s)

include sound

theorem ingestClauses_refused {cs : List (List Int)} {e : Error}
    (refused : (ingestClauses (Replay.engine S) cs s).1 = .error e) :
    (ingestClauses (Replay.engine S) cs s).2 = s := by
  refine kept_of_held (fun released => bind_error (ready_released released) _) fun held => ?_
  rw [ingestClauses_eq S sound.engine.toFit held sound.idle cs] at refused ⊢
  cases checked : Stream.invalid? (cs.flatMap Stream.encodeClause) with
  | some n => rfl
  | none => simp [checked] at refused

theorem ingestBlocking_refused {a : Assignment} {e : Error}
    (refused : (ingestBlocking (Replay.engine S) a s).1 = .error e) :
    (ingestBlocking (Replay.engine S) a s).2 = s := by
  refine kept_of_held (fun released => bind_error (ready_released released) _) fun held => ?_
  rw [ingestBlocking_eq S sound.engine.toFit held sound.idle a] at refused ⊢
  by_cases size : a.size ≠ s.engine.varCount + 1
  · rw [if_pos size]
  · simp [size] at refused

theorem runFailedAssumptions_kept : ∃ r,
    runFailedAssumptions (Replay.engine S) s = (r, s) ∧ r.isPanic = false := by
  cases released : s.released with
  | true =>
    exact ⟨.error .notReady,
      (bind_ok (get_apply s) _).trans (bind_error (ready_released released) _), rfl⟩
  | false =>
    obtain ⟨failed, known⟩ := runFailedAssumptions_known sound released
    exact ⟨.ok failed, known, rfl⟩

theorem bare_writeReport (k : ReportKind) (d : Destination)
    (calm : (writeReport (Replay.engine S) k d s).1.1.isPanic = false) :
    (writeReport (Replay.engine S) k d s).2.bare = s.bare := by
  obtain ⟨messages, left⟩ := produce_leaves sound k
  cases poisoned : s.poisoned with
  | true => rw [writeReport_poisoned poisoned]
  | false =>
    obtain ⟨calls, unlocked⟩ := writeReport_sound poisoned (Replay.engine S) k d
    rw [unlocked, left, calm]
    simp only [Bool.or_false]
    rfl

end Spare

end Session

namespace Client

open Session

variable {S : Cnf.Solver} {limit : Nat} {c d : Client Replay.State}

def Alike (c d : Client Replay.State) : Prop := c.mapSession bare = d.mapSession bare

theorem answer_spare {α : Type} {x : Op Replay.State α}
    (same : (x c.session).2.bare = c.session.bare) (reply : α → Reply) :
    (c.answer x reply).2.Alike c := by
  unfold answer Alike
  rcases run : x c.session with ⟨a | e | p, t⟩ <;> rw [run] at same <;>
    simp only [mapSession, withSession, same]

-- A refusal by the lock comes before the operation, one by the operation leaves the session.
theorem exclusive_refused {α : Type} {x : Op Replay.State α} {reply : α → Reply} {e : Error}
    (refused : (c.answer (exclusive false x) reply).1.result = .error e)
    (kept : ∀ e, (x c.session).1 = .error e → (x c.session).2 = c.session) :
    (c.answer (exclusive false x) reply).2.Alike c := by
  have failed : (exclusive false x c.session).1 = .error e := by
    unfold answer at refused
    rcases run : exclusive false x c.session with ⟨a | e | p, t⟩ <;> rw [run] at refused <;>
      cases refused
    rfl
  refine answer_spare ?_ reply
  cases poisoned : c.session.poisoned with
  | true => rw [exclusive_poisoned poisoned]
  | false =>
    obtain ⟨calls, unlocked⟩ := exclusive_sound poisoned false x
    have inner : (x c.session).1 = .error e := by
      rw [unlocked] at failed
      exact failed
    exact bare_exclusive (kept e inner) (by rw [inner]; rfl) false

theorem asked_spare {α : Type} {f : Op Replay.State α} (reply : α → Reply)
    (known : ∃ a, f c.session = (.ok a, c.session)) :
    (c.answer (shared (ready >>= fun _ => f)) reply).2.Alike c := by
  refine answer_spare (bare_shared (kept_of_held ?_ fun held => ?_)) reply
  · exact fun released => bind_error (ready_released released) _
  · obtain ⟨a, answered⟩ := known
    rw [bind_ok (ready_held held), answered]

theorem perform_spare (sound : Sound S limit c.session) {o : Operation}
    (spare : o.spare (c.perform (Replay.engine S) o).1.result = true) :
    (c.perform (Replay.engine S) o).2.Alike c := by
  cases o with
  | addClauses cs =>
    cases result : (c.perform (Replay.engine S) (.addClauses cs)).1.result with
    | error e => exact exclusive_refused result fun _ => ingestClauses_refused sound
    | _ => simp [result, Operation.spare] at spare
  | blockSolution a =>
    cases result : (c.perform (Replay.engine S) (.blockSolution a)).1.result with
    | error e => exact exclusive_refused result fun _ => ingestBlocking_refused sound
    | _ => simp [result, Operation.spare] at spare
  | failedAssumption l => exact asked_spare _ (failedAssumption_known sound l)
  | failedAssumptions =>
    obtain ⟨r, kept, calm⟩ := runFailedAssumptions_kept sound
    exact answer_spare (bare_exclusive (by rw [kept]) (by rw [kept]; exact calm) false) _
  | report k d =>
    have kept := bare_writeReport sound k d
    simp only [perform, Operation.spare, Alike] at spare ⊢
    rcases run : writeReport (Replay.engine S) k d c.session with ⟨⟨a | e | p, d'⟩, t⟩ <;>
      rw [run] at kept spare
    · simp only [mapSession, withSession, kept rfl]
    · simp only [mapSession, withSession, kept rfl]
    · cases spare
  | varCount => exact asked_spare _ ⟨_, rfl⟩
  | clauseCount => exact asked_spare _ ⟨_, rfl⟩
  | lastStatus => exact asked_spare _ ⟨_, rfl⟩
  | elapsedIsZero => exact asked_spare _ ⟨_, rfl⟩
  | _ => cases spare

theorem perform_bare (c : Client Replay.State) {o : Operation} (timeless : o.timeless = true) :
    ((c.mapSession bare).perform (Replay.silent S) o).1 = (c.perform (Replay.engine S) o).1 ∧
      ((c.mapSession bare).perform (Replay.silent S) o).2.mapSession bare =
        ((c.perform (Replay.engine S) o).2.mapSession bare).mapSession bare :=
  perform_agrees (Replay.silent_maps S) bare_view bare_charge c o fun same => by
    subst same
    cases timeless

theorem Alike.perform (alike : c.Alike d) {o : Operation} (timeless : o.timeless = true) :
    (c.perform (Replay.engine S) o).1 = (d.perform (Replay.engine S) o).1 ∧
      (c.perform (Replay.engine S) o).2.Alike (d.perform (Replay.engine S) o).2 := by
  obtain ⟨answer, left⟩ := perform_bare (S := S) c timeless
  obtain ⟨answer', left'⟩ := perform_bare (S := S) d timeless
  have alike : c.mapSession bare = d.mapSession bare := alike
  rw [alike] at answer left
  exact ⟨answer.symm.trans answer', left.symm.trans left'⟩

theorem Alike.step (alike : c.Alike d) (o : Operation) :
    (c.perform (Replay.engine S) o).2.Alike (d.perform (Replay.engine S) o).2 := by
  cases timeless : o.timeless with
  | true => exact (alike.perform timeless).2
  | false =>
    cases o with
    | elapsedIsZero =>
      have kept (b : Client Replay.State) :
          (b.perform (Replay.engine S) .elapsedIsZero).2.Alike b := asked_spare _ ⟨_, rfl⟩
      exact ((kept c).trans alike).trans (kept d).symm
    | _ => cases timeless

theorem run_inserted (sound : Sound S limit c.session) (alike : c.Alike d)
    (xs : List (Bool × Operation))
    (spare : ∀ x ∈ xs.zip (c.run (Replay.engine S) (xs.map Prod.snd)).1, x.1.1 = true →
      x.1.2.spare x.2.result = true) :
    ((xs.zip (c.run (Replay.engine S) (xs.map Prod.snd)).1).filter fun x =>
        !x.1.1 && x.1.2.timeless).map (fun x => (x.1.2, x.2)) =
      (((xs.filter (!·.1)).map Prod.snd).zip
        (d.run (Replay.engine S) ((xs.filter (!·.1)).map Prod.snd)).1).filter (·.1.timeless) := by
  induction xs generalizing c d with
  | nil => rfl
  | cons x xs ih =>
    obtain ⟨inserted, o⟩ := x
    have sound' := (perform_safe sound o).1
    have first := spare ((inserted, o), (c.perform (Replay.engine S) o).1)
    have others : ∀ x ∈ xs.zip ((c.perform (Replay.engine S) o).2.run (Replay.engine S)
        (xs.map Prod.snd)).1, x.1.1 = true → x.1.2.spare x.2.result = true :=
      fun x member => spare x (List.mem_cons_of_mem _ member)
    cases inserted with
    | true =>
      have alike := (perform_spare sound (first List.mem_cons_self rfl)).trans alike
      exact ih sound' alike others
    | false =>
      have next := ih sound' (alike.step o) others
      cases timeless : o.timeless with
      | false => simpa [run, timeless] using next
      | true =>
        have same := (alike.perform (S := S) timeless).1
        simpa [run, timeless, same] using next

end Client

/-- The marked operations of a history answer for themselves; taken out of it, they leave the
answers to all others as they are, but for those about the time spent. What they answer does not matter,
as long as no report panics and clauses and solutions are refused. -/
theorem insertions_unnoticed {S : Cnf.Solver} {options : Config} {c : Client Replay.State}
    (reachable : c.Reachable S options) (xs : List (Bool × Operation)) :
    let answers := (c.run (Replay.engine S) (xs.map Prod.snd)).1
    let own := (xs.filter (!·.1)).map Prod.snd
    (∀ x ∈ xs.zip answers, x.1.1 = true → x.1.2.spare x.2.result = true) →
      ((xs.zip answers).filter fun x => !x.1.1 && x.1.2.timeless).map (fun x => (x.1.2, x.2)) =
        (own.zip (c.run (Replay.engine S) own).1).filter (·.1.timeless) :=
  fun spare => Client.run_inserted reachable.sound rfl xs spare

-- A core cut short, queries and two refusals between the operations of a refuted session.
theorem refusals_unnoticed :
    ∃ s, (Session.create (Replay.engine Cnf.Search.solver)
        { traceGeneration := true, verbosity := 2 } {}).1 = .ok s ∧
      let c : Client Replay.State := ⟨s, []⟩
      let own : List Operation := [.addClauses [[1], [-1, 2]], .assume ⟨-2, by decide, by decide⟩,
        .solve, .failedAssumptions, .report .clausalCore {}]
      let xs : List (Bool × Operation) := [(false, .addClauses [[1], [-1, 2]]),
        (true, .addClauses [[3, -2147483648]]), (false, .assume ⟨-2, by decide, by decide⟩),
        (true, .lastStatus), (false, .solve), (true, .report .clausalCore { capacity := some 3 }),
        (true, .blockSolution ⟨#[]⟩), (false, .failedAssumptions), (true, .varCount),
        (false, .report .clausalCore {})]
      (((xs.zip (c.run (Replay.engine Cnf.Search.solver) (xs.map Prod.snd)).1).filter fun x =>
          !x.1.1 && x.1.2.timeless).map fun x => (x.1.2, x.2)) =
        (own.zip (c.run (Replay.engine Cnf.Search.solver) own).1).filter (·.1.timeless) := by
  refine ⟨_, rfl, ?_⟩
  intro c own xs
  have reachable : c.Reachable Cnf.Search.solver { traceGeneration := true, verbosity := 2 } :=
    ⟨_, [], rfl, rfl⟩
  refine insertions_unnoticed reachable xs ?_
  simp only [xs, c]
  decide +kernel

end SatSession
