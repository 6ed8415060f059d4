import SatSession.Proofs.Chronicle
import SatSession.Proofs.Preconditions

/-!
The calls by which a session drives its engine, as steps of the engine. Whatever a session does, it
reaches its engine by these calls only, so a property that each of them keeps holds of the engine
all the time, and the calls of a history lead from the engine's first state to its last.
-/

set_option autoImplicit false

namespace SatSession

variable {σ τ ε α : Type}

inductive Engine.Makes (E : Engine σ) (e : σ) : EngineCall → σ → Prop
  | add (n : Int) : Makes E e (.add n) (E.add n e).2
  | assume (n : Int) : Makes E e (.assume n) (E.assume n e).2
  | solve : Makes E e (.solve (E.solve e).1) (E.solve e).2
  | value (n : Int) : Makes E e (.value n (E.value n e).1) (E.value n e).2
  | varCount : Makes E e (.varCount (E.varCount e).1) (E.varCount e).2
  | clauseCount : Makes E e .clauseCount (E.clauseCount e).2
  | failedAssumption (n : Int) : Makes E e (.failedAssumption n) (E.failedAssumption n e).2
  | failedAssumptions : Makes E e .failedAssumptions (E.failedAssumptions e).2
  | inconsistent : Makes E e (.inconsistent (E.inconsistent e).1) (E.inconsistent e).2
  | satisfiableSubset (next : Bool) :
      Makes E e (.satisfiableSubset next) (E.satisfiableSubset next e).2
  | setPropagationLimit (n : Nat) :
      Makes E e (.setPropagationLimit n) (E.setPropagationLimit n e).2
  | setVerbosity (n : Nat) : Makes E e (.setVerbosity n) (E.setVerbosity n e).2
  | setLead (t : String) : Makes E e (.setLead t) (E.setLead t e).2
  | setOutput (o : Output) : Makes E e (.setOutput o) (E.setOutput o e).2
  | enableTracing : Makes E e (.enableTracing (E.enableTracing e).1) (E.enableTracing e).2
  | report (k : ReportKind) : Makes E e (.report k) (E.report k e).2
  | release : Makes E e .release (E.release e)

-- The last call first.
inductive Engine.Runs (E : Engine σ) (e : σ) : List EngineCall → σ → Prop
  | nil : Runs E e [] e
  | cons {calls : List EngineCall} {k : EngineCall} {e' e'' : σ} (before : Runs E e calls e')
      (last : E.Makes e' k e'') : Runs E e (k :: calls) e''

namespace Engine

variable {E : Engine σ} {F : Engine τ} {P : τ → Prop}

theorem Runs.split {e e' : σ} {newer older : List EngineCall} {k : EngineCall}
    (runs : E.Runs e (newer ++ k :: older) e') :
    ∃ e₁ e₂, E.Runs e older e₁ ∧ E.Makes e₁ k e₂ := by
  induction newer generalizing e' with
  | nil =>
    cases runs with
    | cons before last => exact ⟨_, _, before, last⟩
  | cons _ newer ih =>
    cases runs with
    | cons before _ => exact ih before

def Keeps (F : Engine τ) (P : τ → Prop) : Prop :=
  ∀ t k t', F.Makes t k t' → P t → P t'

section Restriction

variable (keeps : F.Keeps P)

def carry (x : Step τ ε α) (made : ∀ t, ∃ k, F.Makes t k (x t).2) : Step {t // P t} ε α :=
  fun t => ((x t.1).1, ⟨(x t.1).2, (made t.1).elim fun k makes => keeps t.1 k _ makes t.2⟩)

def restrict : Engine {t // P t} where
  add n := carry keeps (F.add n) fun _ => ⟨_, .add n⟩
  assume n := carry keeps (F.assume n) fun _ => ⟨_, .assume n⟩
  solve := carry keeps F.solve fun _ => ⟨_, .solve⟩
  value n := carry keeps (F.value n) fun _ => ⟨_, .value n⟩
  varCount := carry keeps F.varCount fun _ => ⟨_, .varCount⟩
  clauseCount := carry keeps F.clauseCount fun _ => ⟨_, .clauseCount⟩
  failedAssumption n := carry keeps (F.failedAssumption n) fun _ => ⟨_, .failedAssumption n⟩
  failedAssumptions := carry keeps F.failedAssumptions fun _ => ⟨_, .failedAssumptions⟩
  inconsistent := carry keeps F.inconsistent fun _ => ⟨_, .inconsistent⟩
  satisfiableSubset next :=
    carry keeps (F.satisfiableSubset next) fun _ => ⟨_, .satisfiableSubset next⟩
  setPropagationLimit n :=
    carry keeps (F.setPropagationLimit n) fun _ => ⟨_, .setPropagationLimit n⟩
  setVerbosity n := carry keeps (F.setVerbosity n) fun _ => ⟨_, .setVerbosity n⟩
  setLead t := carry keeps (F.setLead t) fun _ => ⟨_, .setLead t⟩
  setOutput o := carry keeps (F.setOutput o) fun _ => ⟨_, .setOutput o⟩
  enableTracing := carry keeps F.enableTracing fun _ => ⟨_, .enableTracing⟩
  report k := carry keeps (F.report k) fun _ => ⟨_, .report k⟩
  release t := ⟨F.release t.1, keeps t.1 _ _ .release t.2⟩

theorem restrict_maps : (restrict keeps).Maps Subtype.val F := by
  constructor <;> intros <;> first | rfl | (intro t; rfl)

end Restriction

theorem makes_observed {o o' : Observed σ} {k : EngineCall} (makes : E.observed.Makes o k o') :
    o'.calls = k :: o.calls ∧ E.Makes o.engine k o'.engine := by
  cases makes <;> exact ⟨rfl, by constructor⟩

theorem observed_appends (E : Engine σ) (old : List EngineCall) :
    E.observed.Maps (fun o => ⟨o.engine, o.calls ++ old⟩) E.observed := by
  constructor <;> intros <;> first | rfl | (intro t; rfl)

theorem runs_kept (E : Engine σ) (e : σ) :
    E.observed.Keeps fun o => E.Runs e o.calls o.engine := by
  intro o k o' makes runs
  obtain ⟨recorded, made⟩ := makes_observed makes
  rw [recorded]
  exact .cons runs made

end Engine

open Engine

namespace Client

variable {E : Engine σ} {F : Engine τ} {P : τ → Prop}

theorem history_keeps (keeps : F.Keeps P) {t : τ} (holds : P t) (options : Config)
    (os : List Operation) : P (history F options t os).2 := by
  have same := history_maps (restrict_maps keeps) options ⟨t, holds⟩ os
  rw [same]
  exact ((history (restrict keeps) options ⟨t, holds⟩ os).2).2

theorem history_runs (E : Engine σ) (options : Config) (e : σ) (os : List Operation) :
    E.Runs e (history E.observed options ⟨e, []⟩ os).2.calls
      (history E.observed options ⟨e, []⟩ os).2.engine :=
  history_keeps (runs_kept E e) (t := ⟨e, []⟩) .nil options os

end Client

def recorded (past : List Entry) : List EngineCall := past.reverse.flatMap Entry.calls

theorem recorded_cons (x : Entry) (rest : List Entry) :
    recorded (x :: rest) = recorded rest ++ x.calls := by
  simp [recorded]

namespace Client

theorem perform_recorded (E : Engine σ) (c : Client (Observed σ)) (o : Operation) :
    (c.perform E.observed o).2.session.engine.calls =
      ((c.mapEngine Observed.engine).entry E o).calls ++ c.session.engine.calls := by
  have same := perform_maps (observed_appends E c.session.engine.calls)
    (c.mapEngine Observed.engine).observe o
  exact congrArg (·.2.session.engine.calls) same

theorem run_recorded (E : Engine σ) (os : List Operation) (c : Client (Observed σ)) :
    (c.run E.observed os).2.session.engine.calls =
      recorded ((c.mapEngine Observed.engine).chronicle E os) ++ c.session.engine.calls := by
  induction os generalizing c with
  | nil => rfl
  | cons o os ih =>
    have next : ((c.mapEngine Observed.engine).perform E o).2 =
        (c.perform E.observed o).2.mapEngine Observed.engine :=
      congrArg Prod.snd (perform_maps (observed_maps E) c o)
    have later := ih (c.perform E.observed o).2
    rw [perform_recorded, ← next] at later
    rw [chronicle, recorded_cons, List.append_assoc]
    exact later

-- Only options are set before the first operation.
theorem history_observed {E : Engine σ} {options : Config} {e : σ} {s : Session σ}
    (created : (Session.create E options e).1 = .ok s) (os : List Operation) :
    ∃ first, (∀ k ∈ first, EngineCall.isOption k = true) ∧
      (history E.observed options ⟨e, []⟩ os).2 =
        ⟨(run E ⟨s, []⟩ os).2.session.engine, recorded (chronicle E ⟨s, []⟩ os) ++ first⟩ := by
  have configured := Session.commutes_configure (observed_maps E) options ⟨e, []⟩
  obtain ⟨set, -⟩ := Session.configures_configure (E := E) options ⟨e, []⟩ (by simp)
  rcases result : Session.configure E.observed options ⟨e, []⟩ with ⟨a | x | p, o⟩ <;>
    rw [result] at configured set <;> simp only [Session.create, configured] at created
  · let t : Session (Observed σ) := ⟨o, false, false, .noResult, options.traceGeneration,
      options.measureAllCalls, 0, []⟩
    obtain rfl : t.mapEngine Observed.engine = s := Outcome.ok.inj created
    have calls := run_recorded E os ⟨t, []⟩
    have engine := congrArg (·.2.session.engine) (run_maps (observed_maps E) os ⟨t, []⟩)
    refine ⟨o.calls, set, ?_⟩
    simp only [history, Session.create, result]
    exact congr (congrArg Observed.mk engine.symm) calls
  · cases created
  · cases created

end Client

end SatSession
