import SatSession.Proofs.Chronicle
import SatSession.Proofs.Effects

set_option autoImplicit false

namespace SatSession

def kept (cs : List (List Int)) : List Int := cs.flatMap fun c => c.takeWhile (· != 0)

def unfit? (cs : List (List Int)) : Option Int := (kept cs).find? fun n => (Lit.ofNumber? n).isNone

-- Among numbers of 32 bits it is the least, the one that has no negation.
example : unfit? [[1, 0, -2147483648], [2147483647, -2147483648]] = some (-2147483648) := by decide

theorem invalid?_encode (cs : List (List Int)) :
    Stream.invalid? (cs.flatMap Stream.encodeClause) = unfit? cs := by
  induction cs with
  | nil => rfl
  | cons c cs ih =>
    have nonzero : (c.takeWhile (· != 0)).filter (· != 0) = c.takeWhile (· != 0) :=
      List.filter_eq_self.mpr (List.all_eq_true.mp List.all_takeWhile)
    have first : (c.takeWhile (· != 0)).find? (fun n => n != 0 && (Lit.ofNumber? n).isNone) =
        (c.takeWhile (· != 0)).find? fun n => (Lit.ofNumber? n).isNone := by
      conv_rhs => rw [← nonzero, List.find?_filter]
      simp only [Bool.decide_and, Bool.decide_eq_true]
    have ended : ([0] : List Int).find? (fun n => n != 0 && (Lit.ofNumber? n).isNone) = none := rfl
    rw [Stream.invalid?, unfit?] at ih
    simp only [Stream.invalid?, unfit?, kept, List.flatMap_cons, Stream.encodeClause,
      List.find?_append, first, ended, Option.or_none] at ih ⊢
    rw [ih]

namespace Operation

def Accepted (o : Operation) : Prop :=
  ∃ gs, o.given? = some gs ∧ ∀ g ∈ gs, ∀ n ∈ g, Lit.ofNumber? n ≠ none

def given (o : Operation) : List (List Int) := o.given?.getD []

end Operation

namespace Client

variable {σ : Type} {S : Cnf.Solver} {limit : Nat}

-- Only the time spent may differ.
def Unchanged (c d : Client σ) : Prop :=
  ∃ calls, d = { c with session := { c.session with timedCalls := calls } }

theorem addClauses_rejected {E : Engine σ} {c : Client σ} (live : c.session.released = false)
    (fresh : c.session.poisoned = false) (idle : c.session.stream = []) {cs : List (List Int)}
    {n : Int} (unfit : unfit? cs = some n) :
    c.entry E (.addClauses cs) = ⟨.addClauses cs, ⟨.error (.invalidLiteral n), []⟩, []⟩ ∧
      c.Unchanged (c.perform E (.addClauses cs)).2 := by
  have invalid := (invalid?_encode cs).trans unfit
  constructor
  · have refused := Session.ingestClauses_invalid E.observed (s := c.observe.session) live idle
      invalid
    obtain ⟨calls, answered⟩ := Session.exclusive_error (s := c.observe.session) fresh refused false
    refine entry_eq (t := ⟨{ c.observe.session with timedCalls := calls }, c.ended⟩) ?_
    rw [perform, Session.addClauses, answer_error answered]
    rfl
  · have refused := Session.ingestClauses_invalid E live idle invalid
    obtain ⟨calls, answered⟩ := Session.exclusive_error fresh refused false
    rw [perform, Session.addClauses, answer_error answered]
    exact ⟨calls, rfl⟩

theorem blockSolution_misfit {c : Client Replay.State} (fit : c.session.engine.Fit)
    (live : c.session.released = false) (fresh : c.session.poisoned = false)
    (idle : c.session.stream = []) {a : Assignment}
    (size : a.size ≠ c.session.engine.varCount + 1) :
    (c.perform (Replay.engine S) (.blockSolution a)).1 =
        ⟨.error (.solutionLength a.size c.session.engine.varCount), []⟩ ∧
      c.Unchanged (c.perform (Replay.engine S) (.blockSolution a)).2 := by
  have refused := Session.ingestBlocking_eq S fit live idle a
  rw [if_pos size] at refused
  obtain ⟨calls, answered⟩ := Session.exclusive_error fresh refused false
  rw [perform, Session.blockSolution, answer_error answered]
  exact ⟨rfl, calls, rfl⟩

theorem perform_accepted {c : Client Replay.State} (sound : Session.Sound S limit c.session)
    (live : c.session.released = false) (fresh : c.session.poisoned = false) {o : Operation}
    (accepted : o.Accepted) :
    ∃ cs calls, cs.map (·.map Lit.number) = o.given ∧
      c.perform (Replay.engine S) o = (⟨.ok .done, []⟩, { c with session := { c.session with
        engine := c.session.engine.ingestAll cs
        state := c.session.state.next .ingest
        timedCalls := calls } }) := by
  have typed (ds : List Clause) := Session.ingestLits_eq S sound.engine.toFit live sound.idle ds
  obtain ⟨gs, given, valid⟩ := accepted
  cases o with
  | addClauses cs =>
    have fits : unfit? cs = none := by
      rw [unfit?, List.find?_eq_none]
      intro n hn
      obtain ⟨c, hc, hn⟩ := List.mem_flatMap.mp hn
      have literal := valid _ (Option.some.inj given ▸ List.mem_map_of_mem hc) n hn
      simpa using literal
    have encoded := (invalid?_encode cs).trans fits
    have ingested := Session.ingestClauses_eq S sound.engine.toFit live sound.idle cs
    rw [encoded] at ingested
    obtain ⟨calls, unlocked⟩ := Session.exclusive_ok fresh ingested false
    exact ⟨_, calls, Session.numbers_clausesOf encoded, answer_ok unlocked _⟩
  | addFormula f =>
    obtain ⟨calls, unlocked⟩ := Session.exclusive_ok fresh (typed f.clauses) false
    exact ⟨f.clauses, calls, rfl, answer_ok unlocked _⟩
  | addClause k =>
    obtain ⟨calls, unlocked⟩ := Session.exclusive_ok fresh (typed [k]) false
    exact ⟨[k], calls, rfl, answer_ok unlocked _⟩
  | _ => cases given

theorem run_accepted {c : Client Replay.State} (sound : Session.Sound S limit c.session)
    (live : c.session.released = false) (fresh : c.session.poisoned = false) {os : List Operation}
    (accepted : ∀ o ∈ os, o.Accepted) :
    ∃ cs, cs.map (·.map Lit.number) = os.flatMap Operation.given ∧
      (∀ a ∈ (c.run (Replay.engine S) os).1, a = ⟨.ok .done, []⟩) ∧
      (c.run (Replay.engine S) os).2.session.engine = c.session.engine.ingestAll cs ∧
      (c.run (Replay.engine S) os).2.session.state =
        if os = [] then c.session.state else c.session.state.next .ingest := by
  induction os generalizing c with
  | nil => exact ⟨[], rfl, by simp [run], rfl, rfl⟩
  | cons o os ih =>
    obtain ⟨first, others⟩ := List.forall_mem_cons.mp accepted
    obtain ⟨cs, calls, numbers, performed⟩ := perform_accepted sound live fresh first
    have after := (perform_safe sound o).1
    rw [performed] at after
    obtain ⟨ds, later, answers, engine, state⟩ := ih after live fresh others
    refine ⟨cs ++ ds, ?_, ?_, ?_, ?_⟩
    · rw [List.map_append, List.flatMap_cons, numbers, later]
    · rw [run, performed]
      exact List.forall_mem_cons.mpr ⟨rfl, answers⟩
    · rw [run, performed]
      exact engine.trans (List.foldl_append ..).symm
    · -- The window closes at the first batch, and stays closed.
      have settled : (c.session.state.next .ingest).next .ingest = c.session.state.next .ingest := by
        cases c.session.state <;> rfl
      rw [run, performed]
      refine state.trans ?_
      simp [settled]

theorem numbers_injective :
    Function.Injective (List.map (List.map Lit.number)) :=
  List.map_injective_iff.mpr (List.map_injective_iff.mpr Lit.number_injective)

theorem batches_agree {c : Client Replay.State} (sound : Session.Sound S limit c.session)
    (live : c.session.released = false) (fresh : c.session.poisoned = false)
    {os ps : List Operation} (accepted : ∀ o ∈ os ++ ps, o.Accepted)
    (same : os.flatMap Operation.given = ps.flatMap Operation.given) :
    (∀ a ∈ (c.run (Replay.engine S) os).1, a = ⟨.ok .done, []⟩) ∧
      (c.run (Replay.engine S) os).2.session.engine =
        (c.run (Replay.engine S) ps).2.session.engine ∧
      (os ≠ [] → ps ≠ [] → (c.run (Replay.engine S) os).2.session.state =
        (c.run (Replay.engine S) ps).2.session.state) := by
  obtain ⟨left, right⟩ := List.forall_mem_append.mp accepted
  obtain ⟨cs, numbers, answers, engine, state⟩ := run_accepted sound live fresh left
  obtain ⟨ds, numbers', -, engine', state'⟩ := run_accepted sound live fresh right
  obtain rfl : cs = ds := numbers_injective (numbers.trans (same.trans numbers'.symm))
  refine ⟨answers, engine.trans engine'.symm, fun some some' => ?_⟩
  rw [state, state', if_neg some, if_neg some']

end Client

end SatSession
