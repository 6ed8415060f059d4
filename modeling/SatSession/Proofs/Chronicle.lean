import SatSession.Proofs.Simulation

/-!
What happens to a session, in order: each operation with its answer and the calls by which it
reached the engine. Most calls are quiet, they change nothing that the session keeps a record of;
what a quiet call leaves as it is, an operation that makes quiet calls only leaves as it is.
-/

set_option autoImplicit false

namespace SatSession

variable {σ α β : Type}

structure Entry where
  operation : Operation
  answer : Answer
  -- The last call first.
  calls : List EngineCall

namespace Client

def observe (c : Client σ) : Client (Observed σ) := c.mapEngine fun e => ⟨e, []⟩

def entry (E : Engine σ) (c : Client σ) (o : Operation) : Entry :=
  ⟨o, (c.perform E o).1, (c.observe.perform E.observed o).2.session.engine.calls⟩

def chronicle (E : Engine σ) (c : Client σ) : List Operation → List Entry
  | [] => []
  | o :: os => c.entry E o :: chronicle E (c.perform E o).2 os

theorem perform_observed (E : Engine σ) (c : Client σ) (o : Operation) :
    c.perform E o = ((c.observe.perform E.observed o).1,
      (c.observe.perform E.observed o).2.mapEngine Observed.engine) :=
  perform_maps (observed_maps E) c.observe o

theorem entry_answer (E : Engine σ) (c : Client σ) (o : Operation) :
    (c.entry E o).answer = (c.observe.perform E.observed o).1 :=
  congrArg Prod.fst (perform_observed E c o)

theorem entry_eq {E : Engine σ} {c : Client σ} {o : Operation} {a : Answer}
    {t : Client (Observed σ)} (performed : c.observe.perform E.observed o = (a, t)) :
    c.entry E o = ⟨o, a, t.session.engine.calls⟩ := by
  rw [entry, perform_observed, performed]

theorem run_append (E : Engine σ) (os ps : List Operation) (c : Client σ) :
    c.run E (os ++ ps) =
      ((c.run E os).1 ++ ((c.run E os).2.run E ps).1, ((c.run E os).2.run E ps).2) := by
  induction os generalizing c with
  | nil => rfl
  | cons o os ih => simp only [List.cons_append, run, ih]

theorem length_run (E : Engine σ) (os : List Operation) (c : Client σ) :
    (c.run E os).1.length = os.length := by
  induction os generalizing c with
  | nil => rfl
  | cons o os ih => exact congrArg (· + 1) (ih _)

theorem chronicle_answers (E : Engine σ) (os : List Operation) (c : Client σ) :
    (c.chronicle E os).map Entry.answer = (c.run E os).1 := by
  induction os generalizing c with
  | nil => rfl
  | cons o os ih => exact congrArg ((c.perform E o).1 :: ·) (ih _)

theorem chronicle_operations (E : Engine σ) (os : List Operation) (c : Client σ) :
    (c.chronicle E os).map Entry.operation = os := by
  induction os generalizing c with
  | nil => rfl
  | cons o os ih => exact congrArg (o :: ·) (ih _)

theorem chronicle_concat (E : Engine σ) (os : List Operation) (o : Operation) (c : Client σ) :
    c.chronicle E (os ++ [o]) = c.chronicle E os ++ [(c.run E os).2.entry E o] := by
  induction os generalizing c with
  | nil => rfl
  | cons p os ih => exact congrArg (c.entry E p :: ·) (ih _)

theorem chronicle_split {E : Engine σ} {os : List Operation} {c : Client σ} {past rest : List Entry}
    {x : Entry} (split : c.chronicle E os = past ++ x :: rest) :
    ∃ before o after, os = before ++ o :: after ∧ past = c.chronicle E before ∧
      x = (c.run E before).2.entry E o := by
  induction past generalizing c os with
  | nil =>
    cases os with
    | nil => simp [chronicle] at split
    | cons o os =>
      obtain ⟨same, -⟩ := List.cons.inj split
      exact ⟨[], o, os, rfl, rfl, same.symm⟩
  | cons y past ih =>
    cases os with
    | nil => simp [chronicle] at split
    | cons p os =>
      obtain ⟨rfl, later⟩ := List.cons.inj split
      obtain ⟨before, o, after, rfl, rfl, same⟩ := ih later
      exact ⟨p :: before, o, after, rfl, rfl, same⟩

theorem chronicle_invariant {E : Engine σ} {I : List Entry → Client σ → Prop} {P : Entry → Prop}
    (step : ∀ past c o, I past c → P (c.entry E o) →
      I (past ++ [c.entry E o]) (c.perform E o).2)
    {c : Client σ} {past : List Entry} (initial : I past c) (os : List Operation)
    (all : ∀ x ∈ c.chronicle E os, P x) : I (past ++ c.chronicle E os) (c.run E os).2 := by
  induction os generalizing c past with
  | nil => simpa [chronicle, run] using initial
  | cons o os ih =>
    obtain ⟨first, others⟩ := List.forall_mem_cons.mp all
    have later := ih (step past c o initial first) others
    rwa [List.append_assoc] at later

end Client

def EngineCall.Quiet : EngineCall → Prop
  | .solve _ | .satisfiableSubset _ | .release => False
  | _ => True

namespace Session

variable {E : Engine σ} {I J : Session (Observed σ) → Prop}

structure Stable (I : Session (Observed σ) → Prop) : Prop where
  call : ∀ {s} {k : EngineCall}, k.Quiet → ∀ e, I s →
    I { s with engine := ⟨e, k :: s.engine.calls⟩ }
  stream : ∀ {s} ns, I s → I { s with stream := ns }

-- However the operation ends, its result and the session after it are related by `Q`.
def Yields (I : Session (Observed σ) → Prop) (x : Op (Observed σ) α)
    (Q : Outcome Error α → Session (Observed σ) → Prop) : Prop :=
  ∀ s, I s → Q (x s).1 (x s).2

def Preserves (I : Session (Observed σ) → Prop) (x : Op (Observed σ) α) : Prop :=
  Yields I x fun _ => I

theorem yields_bind {x : Op (Observed σ) α} {f : α → Op (Observed σ) β}
    {R : Outcome Error α → Session (Observed σ) → Prop}
    {Q : Outcome Error β → Session (Observed σ) → Prop} (first : Yields I x R)
    (rest : ∀ a, Yields (R (.ok a)) (f a) Q) (error : ∀ e s, R (.error e) s → Q (.error e) s)
    (panic : ∀ p s, R (.panic p) s → Q (.panic p) s) : Yields I (x >>= f) Q := by
  intro s hs
  have hx := first s hs
  rw [Step.bind_apply]
  rcases result : x s with ⟨a | e | p, t⟩ <;> rw [result] at hx
  · exact rest a t hx
  · exact error e t hx
  · exact panic p t hx

theorem preserves_bind {x : Op (Observed σ) α} {f : α → Op (Observed σ) β}
    (first : Preserves I x) (rest : ∀ a, Preserves I (f a)) : Preserves I (x >>= f) :=
  yields_bind first rest (fun _ _ h => h) fun _ _ h => h

theorem preserves_pure (a : α) : Preserves I (pure a) := fun _ hs => hs

theorem preserves_fail (e : Error) : Preserves I (Step.fail e : Op (Observed σ) α) := fun _ hs => hs

theorem preserves_ready : Preserves I ready := by
  intro s hs
  unfold ready
  split <;> exact hs

theorem yields_get {f : Session (Observed σ) → Op (Observed σ) α}
    {Q : Outcome Error α → Session (Observed σ) → Prop} (rest : ∀ s, Yields I (f s) Q) :
    Yields I (Step.get >>= f) Q := fun s hs => rest s s hs

theorem preserves_ite {p : Prop} [Decidable p] {x y : Op (Observed σ) α} (yes : Preserves I x)
    (no : Preserves I y) : Preserves I (if p then x else y) := by
  split
  · exact yes
  · exact no

theorem preserves_takeBuffer (n : Nat) (buffer : List Int) :
    Preserves (σ := σ) I (takeBuffer n buffer) := by
  unfold takeBuffer
  cases Stream.readBuffer buffer (distinctLits n) with
  | ok ls => exact preserves_pure ls
  | error e => exact preserves_fail e

theorem preserves_admits (k : ReportKind) : Preserves (σ := σ) I (admits k) := by
  intro s hs
  unfold admits
  split <;> repeat (split <;> try exact hs)

section Quiet

variable (stable : Stable I)

include stable

theorem preserves_call (record : Outcome Empty α → EngineCall) {x : Call σ α}
    (quiet : ∀ r, (record r).Quiet) : Preserves I (call (observe record x)) :=
  fun _ hs => stable.call (quiet _) _ hs

theorem preserves_addNumbers (ns : List Int) : Preserves I (call (addNumbers E.observed ns)) := by
  intro s hs
  change I { s with engine := (addNumbers E.observed ns s.engine).2 }
  induction ns generalizing s with
  | nil => exact hs
  | cons n ns ih =>
    have sent (e : σ) := stable.call (k := .add n) trivial e hs
    have added : E.observed.add n s.engine =
      ((E.add n s.engine.engine).1, ⟨(E.add n s.engine.engine).2, .add n :: s.engine.calls⟩) := rfl
    rw [addNumbers, Step.bind_apply, added]
    rcases E.add n s.engine.engine with ⟨a | e | p, t⟩
    · exact ih _ (sent t)
    · exact e.elim
    · exact sent t

theorem preserves_append (ns : List Int) : Preserves (σ := σ) I (append ns) :=
  fun _ hs => stable.stream _ hs

theorem preserves_varCount : Preserves I (call E.observed.varCount) :=
  preserves_call stable .varCount fun _ => trivial

theorem preserves_readValues (v n : Nat) : Preserves I (readValues E.observed v n) := by
  induction n generalizing v with
  | zero => exact preserves_pure []
  | succ n ih =>
    refine preserves_bind ?_ fun x => ?_
    · exact preserves_call stable (.value v) fun _ => trivial
    · exact preserves_ite (preserves_fail _) (preserves_bind (ih (v + 1)) fun _ => preserves_pure _)

theorem preserves_readAssignment : Preserves I (readAssignment E.observed) := by
  refine preserves_bind preserves_ready fun _ => ?_
  refine preserves_bind (preserves_varCount stable) fun n => ?_
  exact preserves_bind (preserves_readValues stable 1 n) fun _ => preserves_pure _

theorem preserves_runFailedAssumptions : Preserves I (runFailedAssumptions E.observed) := by
  refine yields_get fun s => preserves_bind preserves_ready fun _ => ?_
  refine preserves_ite ?_ (preserves_pure [])
  refine preserves_bind (preserves_varCount stable) fun n => ?_
  refine preserves_bind ?_ fun buffer => preserves_takeBuffer n buffer
  exact preserves_call stable (fun _ => .failedAssumptions) fun _ => trivial

theorem preserves_produce (k : ReportKind) : Preserves I (produce E.observed k) := by
  refine preserves_bind preserves_ready fun _ => preserves_bind (preserves_admits k) fun _ => ?_
  intro s hs
  have written (e : σ) := stable.call (k := .report k) trivial e hs
  have reported : E.observed.report k s.engine = ((E.report k s.engine.engine).1,
    ⟨(E.report k s.engine.engine).2, .report k :: s.engine.calls⟩) := rfl
  rw [callReport, reported]
  rcases E.report k s.engine.engine with ⟨a | e | p, t⟩
  · exact written t
  · exact e.elim
  · exact written t

end Quiet

def committed (I J : Session (Observed σ) → Prop) :
    Outcome Error α → Session (Observed σ) → Prop
  | .ok _ => J
  | _ => I

theorem commits_bind {x : Op (Observed σ) α} {f : α → Op (Observed σ) β} (first : Preserves I x)
    (rest : ∀ a, Yields I (f a) (committed I J)) : Yields I (x >>= f) (committed I J) :=
  yields_bind first rest (fun _ _ h => h) fun _ _ h => h

theorem preserves_of_commits {x : Op (Observed σ) α} (commits : Yields I x (committed I I)) :
    Preserves I x := by
  intro s hs
  have kept := commits s hs
  rcases result : x s with ⟨a | e | p, t⟩ <;> rw [result] at kept <;> exact kept

theorem commits_event {e : Event} (settle : ∀ s, I s → J { s with state := s.state.next e }) :
    Yields (σ := σ) I (event e) (committed I J) := fun s hs => settle s hs

theorem runAssume_commits (stable : Stable I)
    (assumed : ∀ s, I s → J { s with state := s.state.next .assume }) (l : Lit) :
    Yields I (runAssume E.observed l) (committed I J) := by
  refine commits_bind preserves_ready fun _ => commits_bind ?_ fun _ => commits_event assumed
  exact preserves_call stable (fun _ => .assume l.number) fun _ => trivial

section Ingestion

variable (stable : Stable I) (ingested : ∀ s, I s → J { s with state := s.state.next .ingest })

include stable ingested

theorem flushStream_commits : Yields I (flushStream E.observed) (committed I J) := by
  refine commits_bind preserves_ready fun _ => yields_get fun s => ?_
  refine commits_bind (preserves_addNumbers stable s.stream) fun _ => ?_
  exact commits_bind (fun _ hs => stable.stream [] hs) fun _ => commits_event ingested

theorem ingestLits_commits (cs : List Clause) :
    Yields I (ingestLits E.observed cs) (committed I J) := by
  refine commits_bind preserves_ready fun _ => ?_
  exact commits_bind (preserves_append stable _) fun _ => flushStream_commits stable ingested

theorem ingestClauses_commits (cs : List (List Int)) :
    Yields I (ingestClauses E.observed cs) (committed I J) := by
  refine commits_bind preserves_ready fun _ => commits_bind (preserves_append stable _) fun _ => ?_
  refine yields_get fun s => ?_
  split
  · exact fun _ hs => stable.stream [] hs
  · exact flushStream_commits stable ingested

theorem ingestBlocking_commits (a : Assignment) :
    Yields I (ingestBlocking E.observed a) (committed I J) := by
  refine commits_bind preserves_ready fun _ => ?_
  refine commits_bind (preserves_varCount stable) fun n => ?_
  by_cases size : a.size ≠ n + 1
  · rw [if_pos size]
    exact fun _ hs => hs
  · rw [if_neg size]
    exact commits_bind (preserves_append stable _) fun _ => flushStream_commits stable ingested

end Ingestion

structure Solves (I : Session (Observed σ) → Prop) (J : Status → Session (Observed σ) → Prop)
    (K : Session (Observed σ) → Prop) : Prop where
  answered : ∀ {s} st e, I s → J st { s with
    engine := ⟨e, .solve (.ok st) :: s.engine.calls⟩, state := s.state.next (.solved st) }
  failed : ∀ {s} x e, I s → J .unknown { s with
    engine := ⟨e, .solve (.error x) :: s.engine.calls⟩, state := s.state.next (.solved .unknown) }
  abandoned : ∀ {s} p e, I s → K { s with engine := ⟨e, .solve (.panic p) :: s.engine.calls⟩ }
  stable : ∀ st, Stable (J st)
  blocked : ∀ {s}, J .satisfiable s → J .satisfiable { s with state := s.state.next .ingest }
  weaken : ∀ {s} st, J st s → K s

section Solving

variable {J : Status → Session (Observed σ) → Prop} {K : Session (Observed σ) → Prop}

def concluded (J : Status → Session (Observed σ) → Prop) (K : Session (Observed σ) → Prop)
    (status : α → Status → Prop) : Outcome Error α → Session (Observed σ) → Prop
  | .ok a, s => ∃ st, status a st ∧ J st s
  | .error _, s => ∃ st, J st s
  | .panic _, s => K s

theorem concludes_bind {x : Op (Observed σ) α} {f : α → Op (Observed σ) β}
    {status : α → Status → Prop} {status' : β → Status → Prop}
    (first : Yields I x (concluded J K status))
    (rest : ∀ a st, status a st → Yields (J st) (f a) (concluded J K status')) :
    Yields I (x >>= f) (concluded J K status') := by
  refine yields_bind first (fun a s hs => ?_) (fun _ _ h => h) fun _ _ h => h
  obtain ⟨st, shown, hs⟩ := hs
  exact rest a st shown s hs

variable (solves : Solves I J K)

include solves

theorem concludes_preserves {x : Op (Observed σ) α} {st : Status} (preserves : Preserves (J st) x) :
    Yields (J st) x (concluded J K fun _ st' => st' = st) := by
  intro s hs
  have kept := preserves s hs
  rcases result : x s with ⟨a | e | p, t⟩ <;> rw [result] at kept
  · exact ⟨st, rfl, kept⟩
  · exact ⟨st, kept⟩
  · exact solves.weaken st kept

theorem callSolve_concludes :
    Yields I (callSolve E.observed) (concluded J K fun st st' => st' = st) := by
  intro s hs
  have solve : E.observed.solve s.engine = ((E.solve s.engine.engine).1,
    ⟨(E.solve s.engine.engine).2, .solve (E.solve s.engine.engine).1 :: s.engine.calls⟩) := rfl
  simp only [callSolve, callFallible, Step.zoom, Step.mapError, solve]
  rcases E.solve s.engine.engine with ⟨st | x | p, t⟩
  · exact ⟨st, rfl, solves.answered st t hs⟩
  · exact ⟨_, solves.failed x t hs⟩
  · exact solves.abandoned p t hs

variable (held : ∀ s, I s → s.released = false)

include held

theorem runSolve_concludes :
    Yields I (runSolve E.observed) (concluded J K fun r st => st = r.1) := by
  intro s hs
  rw [runSolve, Step.bind_ok (ready_held (held s hs))]
  refine concludes_bind (callSolve_concludes solves) ?_ s hs
  rintro st _ rfl
  split
  next found =>
    subst found
    refine concludes_bind (concludes_preserves solves
      (preserves_readAssignment (solves.stable .satisfiable))) ?_
    rintro a _ rfl
    exact fun t ht => ⟨_, rfl, ht⟩
  next => exact fun t ht => ⟨_, rfl, ht⟩

theorem runNext_concludes :
    Yields I (runNext E.observed) (concluded J K fun _ _ => True) := by
  refine concludes_bind (runSolve_concludes solves held) ?_
  rintro ⟨st, a⟩ _ rfl
  split
  next a found =>
    obtain ⟨rfl, rfl⟩ := Prod.mk.inj found
    have blocks := ingestBlocking_commits (E := E) (solves.stable .satisfiable)
      (fun _ hs => solves.blocked hs) a
    refine concludes_bind (concludes_preserves solves (preserves_of_commits blocks)) ?_
    rintro _ _ rfl
    exact fun t ht => ⟨_, trivial, ht⟩
  next => exact fun t ht => ⟨_, trivial, ht⟩

end Solving

end Session
end SatSession
