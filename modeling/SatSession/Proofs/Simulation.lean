import SatSession.Session.History
import SatSession.Proofs.Observation

/-!
Engines that differ only in what they keep beside the answers. A map of states under which every
call of one engine does what the other's does carries over to sessions and to whole histories; an
engine under observation is mapped to the engine itself.
-/

set_option autoImplicit false

namespace SatSession

variable {σ τ ε δ α β : Type}

namespace Step

def Commutes (h : τ → σ) (x : Step τ ε α) (y : Step σ ε α) : Prop :=
  ∀ t, y (h t) = ((x t).1, h (x t).2)

variable {h : τ → σ}

theorem commutes_pure (a : α) : Commutes h (pure a : Step τ ε α) (pure a) := fun _ => rfl

theorem commutes_bind {x : Step τ ε α} {y : Step σ ε α} {f : α → Step τ ε β} {g : α → Step σ ε β}
    (first : Commutes h x y) (rest : ∀ a, Commutes h (f a) (g a)) :
    Commutes h (x >>= f) (y >>= g) := by
  intro t
  rw [bind_apply, bind_apply, first t]
  rcases x t with ⟨a | e | p, t'⟩
  · exact rest a t'
  · rfl
  · rfl

theorem commutes_get {f : τ → Step τ ε α} {g : σ → Step σ ε α}
    (rest : ∀ t, Commutes h (f t) (g (h t))) : Commutes h (get >>= f) (get >>= g) := by
  intro t
  simpa only [bind_apply, get_apply] using rest t t

theorem commutes_modify {f : τ → τ} {g : σ → σ} (same : ∀ t, g (h t) = h (f t)) :
    Commutes h (modify f : Step τ ε Unit) (modify g) := by
  intro t
  simp only [modify_apply, same]

theorem commutes_fail (e : ε) : Commutes h (fail e : Step τ ε α) (fail e) := fun _ => rfl

theorem commutes_ite {p : Prop} [Decidable p] {x x' : Step τ ε α} {y y' : Step σ ε α}
    (yes : p → Commutes h x y) (no : ¬p → Commutes h x' y') :
    Commutes h (if p then x else x') (if p then y else y') := by
  by_cases hp : p
  · simpa only [if_pos hp] using yes hp
  · simpa only [if_neg hp] using no hp

theorem commutes_widen {x : Step τ Empty α} {y : Step σ Empty α} (same : Commutes h x y) :
    Commutes h (widen x : Step τ ε α) (widen y) := by
  intro t
  simp only [widen, same t]

end Step

open Step

structure Engine.Maps (h : τ → σ) (E : Engine τ) (F : Engine σ) : Prop where
  add : ∀ n, Commutes h (E.add n) (F.add n)
  assume : ∀ n, Commutes h (E.assume n) (F.assume n)
  solve : Commutes h E.solve F.solve
  value : ∀ n, Commutes h (E.value n) (F.value n)
  varCount : Commutes h E.varCount F.varCount
  clauseCount : Commutes h E.clauseCount F.clauseCount
  failedAssumption : ∀ n, Commutes h (E.failedAssumption n) (F.failedAssumption n)
  failedAssumptions : Commutes h E.failedAssumptions F.failedAssumptions
  inconsistent : Commutes h E.inconsistent F.inconsistent
  satisfiableSubset : ∀ next, Commutes h (E.satisfiableSubset next) (F.satisfiableSubset next)
  setPropagationLimit : ∀ n, Commutes h (E.setPropagationLimit n) (F.setPropagationLimit n)
  setVerbosity : ∀ n, Commutes h (E.setVerbosity n) (F.setVerbosity n)
  setLead : ∀ t, Commutes h (E.setLead t) (F.setLead t)
  setOutput : ∀ o, Commutes h (E.setOutput o) (F.setOutput o)
  enableTracing : Commutes h E.enableTracing F.enableTracing
  report : ∀ k, Commutes h (E.report k) (F.report k)
  release : ∀ t, F.release (h t) = h (E.release t)

theorem Engine.maps_id (E : Engine σ) : E.Maps id E := by
  constructor <;> intros <;> first | rfl | (intro t; rfl)

theorem observed_maps (E : Engine σ) : E.observed.Maps Observed.engine E := by
  constructor <;> intros <;> first | rfl | (intro t; rfl)

namespace Session

/-- A map of sessions that maps the engine, and leaves alone what operations see beside it. What it
does to the time spent is left open. -/
structure View (h : τ → σ) (g : Session τ → Session σ) : Prop where
  engine : ∀ t, (g t).engine = h t.engine
  released : ∀ t, (g t).released = t.released
  poisoned : ∀ t, (g t).poisoned = t.poisoned
  state : ∀ t, (g t).state = t.state
  tracing : ∀ t, (g t).tracing = t.tracing
  stream : ∀ t, (g t).stream = t.stream
  setEngine : ∀ t e, { g t with engine := h e } = g { t with engine := e }
  setState : ∀ t state, { g t with state := state } = g { t with state := state }
  setStream : ∀ t stream, { g t with stream := stream } = g { t with stream := stream }
  poison : ∀ t, (g t).poison = g t.poison
  delete : ∀ t e, { g t with engine := h e, released := true } =
    g { t with engine := e, released := true }

def mapEngine (h : τ → σ) (s : Session τ) : Session σ :=
  ⟨h s.engine, s.released, s.poisoned, s.state, s.tracing, s.measureAllCalls, s.timedCalls,
    s.stream⟩

theorem mapEngine_view (h : τ → σ) : View h (mapEngine h) := by
  constructor <;> intros <;> rfl

variable {h : τ → σ} {g : Session τ → Session σ} {E : Engine τ} {F : Engine σ}

theorem commutes_addNumbers (maps : E.Maps h F) (ns : List Int) :
    Commutes h (addNumbers E ns) (addNumbers F ns) := by
  induction ns with
  | nil => exact commutes_pure ()
  | cons n ns ih => exact commutes_bind (maps.add n) fun _ => ih

theorem commutes_takeBuffer (n : Nat) (buffer : List Int) :
    Commutes g (takeBuffer n buffer) (takeBuffer n buffer) := by
  unfold takeBuffer
  cases Stream.readBuffer buffer (distinctLits n) with
  | ok ls => exact commutes_pure ls
  | error e => exact commutes_fail e

section Operations

variable (view : View h g)

include view

theorem commutes_call {x : Call τ α} {y : Call σ α} (same : Commutes h x y) :
    Commutes g (call x) (call y) := by
  intro t
  simp only [call, zoom, widen, view.engine, same t.engine, view.setEngine]

theorem commutes_callFallible {x : Step τ EngineError α} {y : Step σ EngineError α}
    (same : Commutes h x y) : Commutes g (callFallible x) (callFallible y) := by
  intro t
  simp only [callFallible, zoom, mapError, view.engine, same t.engine, view.setEngine]

theorem commutes_ready : Commutes g ready ready := by
  intro t
  cases released : t.released <;> simp [ready, view.released, released]

theorem commutes_event (e : Event) : Commutes g (event e) (event e) :=
  commutes_modify fun t => by
    rw [view.state]
    exact view.setState t _

theorem commutes_append (ns : List Int) : Commutes g (append ns) (append ns) :=
  commutes_modify fun t => by
    rw [view.stream]
    exact view.setStream t _

theorem commutes_emptyStream :
    Commutes g (modify fun t => { t with stream := [] } : Op τ Unit)
      (modify fun t => { t with stream := [] }) :=
  commutes_modify fun t => view.setStream t []

theorem commutes_flushStream (maps : E.Maps h F) :
    Commutes g (flushStream E) (flushStream F) := by
  refine commutes_bind (commutes_ready view) fun _ => commutes_get fun t => ?_
  rw [view.stream]
  refine commutes_bind (commutes_call view (commutes_addNumbers maps t.stream)) fun _ => ?_
  exact commutes_bind (commutes_emptyStream view) fun _ => commutes_event view .ingest

theorem commutes_ingestClauses (maps : E.Maps h F) (cs : List (List Int)) :
    Commutes g (ingestClauses E cs) (ingestClauses F cs) := by
  refine commutes_bind (commutes_ready view) fun _ =>
    commutes_bind (commutes_append view _) fun _ => commutes_get fun t => ?_
  rw [view.stream]
  cases Stream.invalid? t.stream with
  | none => exact commutes_flushStream view maps
  | some n => exact commutes_bind (commutes_emptyStream view) fun _ => commutes_fail _

theorem commutes_ingestLits (maps : E.Maps h F) (cs : List Clause) :
    Commutes g (ingestLits E cs) (ingestLits F cs) :=
  commutes_bind (commutes_ready view) fun _ =>
    commutes_bind (commutes_append view _) fun _ => commutes_flushStream view maps

theorem commutes_ingestBlocking (maps : E.Maps h F) (a : Assignment) :
    Commutes g (ingestBlocking E a) (ingestBlocking F a) := by
  refine commutes_bind (commutes_ready view) fun _ => ?_
  refine commutes_bind (commutes_call view maps.varCount) fun n => ?_
  refine commutes_ite (fun _ => commutes_fail _) fun _ => ?_
  exact commutes_bind (commutes_append view _) fun _ => commutes_flushStream view maps

theorem commutes_readValues (maps : E.Maps h F) (v n : Nat) :
    Commutes g (readValues E v n) (readValues F v n) := by
  induction n generalizing v with
  | zero => exact commutes_pure []
  | succ n ih =>
    refine commutes_bind (commutes_call view (maps.value v)) fun x => ?_
    refine commutes_ite (fun _ => commutes_fail _) fun _ => ?_
    exact commutes_bind (ih (v + 1)) fun _ => commutes_pure _

theorem commutes_readAssignment (maps : E.Maps h F) :
    Commutes g (readAssignment E) (readAssignment F) := by
  refine commutes_bind (commutes_ready view) fun _ => ?_
  refine commutes_bind (commutes_call view maps.varCount) fun n => ?_
  exact commutes_bind (commutes_readValues view maps 1 n) fun _ => commutes_pure _

theorem commutes_callSolve (maps : E.Maps h F) : Commutes g (callSolve E) (callSolve F) := by
  intro t
  simp only [callSolve, commutes_callFallible view maps.solve t]
  rcases callFallible E.solve t with ⟨st | e | p, t'⟩ <;>
    simp only [view.setState, view.state]

theorem commutes_runSolve (maps : E.Maps h F) : Commutes g (runSolve E) (runSolve F) := by
  refine commutes_bind (commutes_ready view) fun _ => ?_
  refine commutes_bind (commutes_callSolve view maps) fun st => ?_
  refine commutes_ite (fun _ => ?_) fun _ => commutes_pure _
  exact commutes_bind (commutes_readAssignment view maps) fun _ => commutes_pure _

theorem commutes_runNext (maps : E.Maps h F) : Commutes g (runNext E) (runNext F) := by
  refine commutes_bind (commutes_runSolve view maps) fun r => ?_
  split
  · exact commutes_bind (commutes_ingestBlocking view maps _) fun _ => commutes_pure _
  · exact commutes_pure none

theorem commutes_runAssume (maps : E.Maps h F) (l : Lit) :
    Commutes g (runAssume E l) (runAssume F l) :=
  commutes_bind (commutes_ready view) fun _ =>
    commutes_bind (commutes_call view (maps.assume l.number)) fun _ => commutes_event view .assume

theorem commutes_settling (e : Event) {x : Op τ α} {y : Op σ α} (same : Commutes g x y) :
    Commutes g (settling e x) (settling e y) := by
  intro t
  simp only [settling, same t]
  rcases x t with ⟨a | e | p, t'⟩ <;> simp only [view.setState, view.state]

theorem commutes_runFailedAssumptions (maps : E.Maps h F) :
    Commutes g (runFailedAssumptions E) (runFailedAssumptions F) := by
  refine commutes_get fun t => commutes_bind (commutes_ready view) fun _ => ?_
  rw [view.state]
  refine commutes_ite (fun _ => ?_) fun _ => commutes_pure _
  refine commutes_bind (commutes_call view maps.varCount) fun n => ?_
  exact commutes_bind (commutes_call view maps.failedAssumptions) fun buffer =>
    commutes_takeBuffer n buffer

theorem commutes_runSubset (maps : E.Maps h F) (next : Bool) :
    Commutes g (runSubset E next) (runSubset F next) := by
  refine commutes_bind (commutes_ready view) fun _ => ?_
  refine commutes_bind (commutes_call view maps.inconsistent) fun known => ?_
  refine commutes_ite (fun _ => commutes_pure _) fun _ => ?_
  refine commutes_bind (commutes_call view maps.varCount) fun n => ?_
  refine commutes_settling view .subsetQuery ?_
  exact commutes_bind (commutes_callFallible view (maps.satisfiableSubset next)) fun buffer =>
    commutes_takeBuffer n buffer

theorem commutes_admits (k : ReportKind) : Commutes g (admits k) (admits k) := by
  intro t
  simp only [admits, view.state, view.tracing]
  cases k with
  | formula => by_cases refuted : t.state.status = some .unsatisfiable <;> simp [refuted]
  | _ =>
    cases t.state.windowOpen <;> cases t.tracing <;> simp

theorem commutes_callReport (maps : E.Maps h F) (k : ReportKind) :
    Commutes g (callReport E k) (callReport F k) := by
  intro t
  simp only [callReport, view.engine, maps.report k t.engine]
  rcases E.report k t.engine with ⟨a | e | p, t'⟩
  · simp only [view.setEngine]
  · exact e.elim
  · simp only [view.setEngine]

theorem commutes_produce (maps : E.Maps h F) (k : ReportKind) :
    Commutes g (produce E k) (produce F k) :=
  commutes_bind (commutes_ready view) fun _ =>
    commutes_bind (commutes_admits view k) fun _ => commutes_callReport view maps k

end Operations

section Locks

def Agrees (g : Session τ → Session σ) (n : Session σ → Session σ) (x : Op τ α) (y : Op σ α) :
    Prop :=
  ∀ t, (y (g t)).1 = (x t).1 ∧ n (y (g t)).2 = n (g (x t).2)

variable {n : Session σ → Session σ} (view : View h g)

include view

theorem agrees_shared {x : Op τ α} {y : Op σ α} (same : Commutes g x y) :
    Agrees g n (shared x) (shared y) := by
  intro t
  simp only [shared, view.poisoned, same t]
  split <;> exact ⟨rfl, rfl⟩

variable (charges : ∀ timed t, n ((g t).charge timed) = n (g (t.charge timed)))

include charges

theorem agrees_exclusive (timed : Bool) {x : Op τ α} {y : Op σ α} (same : Commutes g x y) :
    Agrees g n (exclusive timed x) (exclusive timed y) := by
  intro t
  simp only [exclusive, view.poisoned, same t]
  by_cases poisoned : t.poisoned = true
  · simp only [poisoned, if_true, and_self]
  · simp only [poisoned]
    rcases x t with ⟨a | e | p, t'⟩
    · exact ⟨rfl, charges timed t'⟩
    · exact ⟨rfl, charges timed t'⟩
    · exact ⟨rfl, congrArg n (view.poison t')⟩

theorem agrees_writeReport (maps : E.Maps h F) (k : ReportKind) (d : Destination) (t : Session τ) :
    (writeReport F k d (g t)).1 = (writeReport E k d t).1 ∧
      n (writeReport F k d (g t)).2 = n (g (writeReport E k d t).2) := by
  simp only [writeReport, runReport, view.poisoned, commutes_produce view maps k t]
  by_cases poisoned : t.poisoned = true
  · simp only [poisoned, if_true, and_self]
  · simp only [poisoned]
    rcases produce E k t with ⟨r | e | p, t'⟩
    · rcases sent : Transfer.redirect r d with ⟨a | e | p, d'⟩ <;> simp only [sent]
      · exact ⟨rfl, charges false t'⟩
      · exact ⟨rfl, charges false t'⟩
      · exact ⟨rfl, congrArg n (view.poison t')⟩
    · exact ⟨rfl, charges false t'⟩
    · exact ⟨rfl, congrArg n (view.poison t')⟩

end Locks

theorem commutes_configure (maps : E.Maps h F) (options : Config) :
    Commutes h (configure E options) (configure F options) := by
  have rest : Commutes h
      (do
        (E.setVerbosity options.verbosity).widen
        (E.setLead options.lead).widen
        (E.setOutput options.output).widen
        if options.traceGeneration then E.enableTracing)
      (do
        (F.setVerbosity options.verbosity).widen
        (F.setLead options.lead).widen
        (F.setOutput options.output).widen
        if options.traceGeneration then F.enableTracing) := by
    refine commutes_bind (commutes_widen (maps.setVerbosity _)) fun _ => ?_
    refine commutes_bind (commutes_widen (maps.setLead _)) fun _ => ?_
    refine commutes_bind (commutes_widen (maps.setOutput _)) fun _ => ?_
    exact commutes_ite (fun _ => maps.enableTracing) fun _ => commutes_pure _
  unfold configure
  by_cases limited : 0 < options.propagationLimit
  · simp only [if_pos limited]
    exact commutes_bind (maps.setPropagationLimit _) fun _ => rest
  · simp only [if_neg limited]
    exact rest

end Session

namespace Client

def mapSession (g : Session τ → Session σ) (c : Client τ) : Client σ := ⟨g c.session, c.ended⟩

def mapEngine (h : τ → σ) (c : Client τ) : Client σ := ⟨c.session.mapEngine h, c.ended⟩

variable {h : τ → σ} {g : Session τ → Session σ} {n : Session σ → Session σ} {E : Engine τ}
  {F : Engine σ}

theorem answer_agrees {x : Session.Op τ α} {y : Session.Op σ α} (agrees : Session.Agrees g n x y)
    (reply : α → Reply) (c : Client τ) :
    ((c.mapSession g).answer y reply).1 = (c.answer x reply).1 ∧
      ((c.mapSession g).answer y reply).2.mapSession n =
        ((c.answer x reply).2.mapSession g).mapSession n := by
  have same := agrees c.session
  rcases ran : y (g c.session) with ⟨r, s⟩
  rcases run : x c.session with ⟨r', t⟩
  rw [ran, run] at same
  obtain ⟨rfl, images⟩ := same
  simp only [answer, mapSession, ran, run]
  cases r <;> simp only [withSession, images, and_self]

theorem advance_agrees
    (agrees : Session.Agrees g n (Session.nextSolution E) (Session.nextSolution F)) (c : Client τ)
    (i : Nat) :
    ((c.mapSession g).advance F i).1 = (c.advance E i).1 ∧
      ((c.mapSession g).advance F i).2.mapSession n =
        ((c.advance E i).2.mapSession g).mapSession n := by
  unfold advance
  by_cases ended : i ∈ c.ended
  · have ended' : i ∈ (c.mapSession g).ended := ended
    simp only [if_pos ended, if_pos ended', and_self]
  · have running : i ∉ (c.mapSession g).ended := ended
    simp only [if_neg ended, if_neg running]
    have same := agrees c.session
    rcases ran : Session.nextSolution F (c.mapSession g).session with ⟨r, s⟩
    rcases run : Session.nextSolution E c.session with ⟨r', t⟩
    rw [show Session.nextSolution F (g c.session) = (r, s) from ran, run] at same
    obtain ⟨rfl, images⟩ := same
    rcases r with (_ | a) | e | p <;> simp only [mapSession, withSession, images, and_self]

theorem perform_agrees (maps : E.Maps h F) (view : Session.View h g)
    (charges : ∀ timed t, n ((g t).charge timed) = n (g (t.charge timed))) (c : Client τ)
    (o : Operation) (untimed : o = .elapsedIsZero → ∀ t, (g t).timedCalls = t.timedCalls) :
    ((c.mapSession g).perform F o).1 = (c.perform E o).1 ∧
      ((c.mapSession g).perform F o).2.mapSession n =
        ((c.perform E o).2.mapSession g).mapSession n := by
  have locked (timed : Bool) {β : Type} {x : Session.Op τ β} {y : Session.Op σ β}
      (same : Commutes g x y) (reply : β → Reply) :=
    answer_agrees (Session.agrees_exclusive view charges timed same) reply c
  have asked {β : Type} {x : Session.Op τ β} {y : Session.Op σ β} (same : Commutes g x y)
      (reply : β → Reply) :=
    answer_agrees (n := n)
      (Session.agrees_shared view (commutes_bind (Session.commutes_ready view) fun _ => same))
      reply c
  cases o with
  | addClauses cs => exact locked false (Session.commutes_ingestClauses view maps cs) _
  | addFormula f => exact locked false (Session.commutes_ingestLits view maps _) _
  | addClause k => exact locked false (Session.commutes_ingestLits view maps _) _
  | blockSolution a => exact locked false (Session.commutes_ingestBlocking view maps a) _
  | solve => exact locked true (Session.commutes_runSolve view maps) _
  | advance i =>
    exact advance_agrees
      (Session.agrees_exclusive view charges true (Session.commutes_runNext view maps)) c i
  | assume l => exact locked false (Session.commutes_runAssume view maps l) _
  | failedAssumption l =>
    refine asked (commutes_get fun t => ?_) _
    rw [view.state]
    exact commutes_ite (fun _ => Session.commutes_call view (maps.failedAssumption _)) fun _ =>
      commutes_pure _
  | failedAssumptions => exact locked false (Session.commutes_runFailedAssumptions view maps) _
  | satisfiableSubset next => exact locked false (Session.commutes_runSubset view maps next) _
  | report k d =>
    obtain ⟨same, images⟩ := Session.agrees_writeReport view charges maps k d c.session
    simp only [perform, mapSession]
    rcases ran : Session.writeReport F k d (g c.session) with ⟨r, s⟩
    rcases run : Session.writeReport E k d c.session with ⟨r', t⟩
    rw [ran, run] at same images
    obtain rfl := same
    rcases r with ⟨a | e | p, d'⟩ <;> simp only [withSession, images, and_self]
  | varCount => exact asked (Session.commutes_call view maps.varCount) _
  | clauseCount => exact asked (Session.commutes_call view maps.clauseCount) _
  | lastStatus =>
    refine asked (commutes_get fun t => ?_) _
    rw [view.state]
    exact commutes_pure _
  | elapsedIsZero =>
    refine asked (commutes_get fun t => ?_) _
    rw [untimed rfl]
    exact commutes_pure _
  | delete =>
    simp only [perform, Session.delete, mapSession, view.released, view.engine, maps.release]
    split <;> simp only [withSession, view.delete, and_self]

theorem perform_maps (maps : E.Maps h F) (c : Client τ) (o : Operation) :
    (c.mapEngine h).perform F o = ((c.perform E o).1, (c.perform E o).2.mapEngine h) := by
  have charges (timed : Bool) (t : Session τ) :
      id ((t.mapEngine h).charge timed) = id ((t.charge timed).mapEngine h) := by
    have measured : (t.mapEngine h).measureAllCalls = t.measureAllCalls := rfl
    simp only [Session.charge, measured]
    split <;> rfl
  obtain ⟨same, images⟩ :=
    perform_agrees maps (Session.mapEngine_view h) charges c o fun _ _ => rfl
  exact Prod.ext same images

theorem run_maps (maps : E.Maps h F) (os : List Operation) (c : Client τ) :
    (c.mapEngine h).run F os = ((c.run E os).1, (c.run E os).2.mapEngine h) := by
  induction os generalizing c with
  | nil => rfl
  | cons o os ih =>
    simp only [run, perform_maps maps c o, ih]

theorem history_maps (maps : E.Maps h F) (options : Config) (t : τ) (os : List Operation) :
    history F options (h t) os =
      ((history E options t os).1, h (history E options t os).2) := by
  simp only [history, Session.create, Session.commutes_configure maps options t]
  rcases Session.configure E options t with ⟨a | x | p, t'⟩
  · have same := run_maps maps os ⟨⟨t', false, false, .noResult, options.traceGeneration,
      options.measureAllCalls, 0, []⟩, []⟩
    simp only [mapEngine, Session.mapEngine] at same
    simp only [same]
  · simp only [maps.release]
  · simp only [maps.release]

end Client

end SatSession
