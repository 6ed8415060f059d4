import SatSession.Proofs.Cores

set_option autoImplicit false

namespace SatSession

def Cnf.Verdict.status : Cnf.Verdict → Status
  | .model _ => .satisfiable
  | .refuted _ => .unsatisfiable
  | .exhausted => .unknown

theorem Cnf.Verdict.isSome_solution? (v : Cnf.Verdict) (n : Nat) :
    (v.solution? n).isSome = true ↔ v.status = .satisfiable := by
  cases v <;> simp [solution?, status]

theorem Cnf.Verdict.model_of_solution? {v : Cnf.Verdict} {n : Nat} {a : Assignment}
    (found : v.solution? n = some a) : ∃ lits, v = .model lits ∧ a = .ofModel n lits := by
  cases v with
  | model lits => exact ⟨lits, rfl, (Option.some.inj found).symm⟩
  | refuted failed | exhausted => cases found

theorem Clause.maxVar_append (c d : Clause) : maxVar (c ++ d) = max c.maxVar d.maxVar := by
  induction c with
  | nil => exact (Nat.zero_max _).symm
  | cons l c ih => rw [List.cons_append, maxVar_cons, maxVar_cons, ih, Nat.max_assoc]

namespace Replay.State

theorem decided_status (S : Cnf.Solver) (s : Replay.State) :
    (s.decided S).1 = (s.verdict S).status := by
  unfold State.decided
  cases s.verdict S <;> rfl

theorem pending_messages (s : Replay.State) (messages : List Message) :
    ({ s with messages := messages } : Replay.State).pending = s.pending := by
  unfold State.pending renew
  split <;> rfl

theorem verdict_messages (S : Cnf.Solver) (s : Replay.State) (messages : List Message) :
    ({ s with messages := messages } : Replay.State).verdict S = s.verdict S := by
  rw [State.verdict, pending_messages]
  rfl

theorem pending_ingestAll (s : Replay.State) (cs : List Clause) :
    (s.ingestAll cs).pending = s.pending := by
  induction cs generalizing s with
  | nil => rfl
  | cons c cs ih => exact (ih (s.ingest c)).trans (pending_of_fresh rfl)

theorem clauses_ingestAll (s : Replay.State) (cs : List Clause) :
    (s.ingestAll cs).formula.clauses = s.formula.clauses ++ cs := by
  induction cs generalizing s with
  | nil => exact (List.append_nil _).symm
  | cons c cs ih =>
    refine (ih (s.ingest c)).trans ?_
    change (s.formula.add c).clauses ++ cs = _
    rw [Formula.clauses_add, List.append_assoc, List.singleton_append]

theorem varCount_ingestAll (s : Replay.State) (cs : List Clause) :
    (s.ingestAll cs).varCount = max s.varCount (Clause.maxVar cs.flatten) := by
  induction cs generalizing s with
  | nil => exact (Nat.max_zero _).symm
  | cons c cs ih =>
    rw [List.flatten_cons, Clause.maxVar_append, ← Nat.max_assoc]
    exact ih (s.ingest c)

structure Poses (s : Replay.State) (cs : List Clause) (as : List Lit) : Prop where
  clauses : s.formula.clauses = cs
  pending : s.pending = as
  spans : s.varCount = Clause.maxVar (cs.flatten ++ as)

variable {s : Replay.State} {cs : List Clause} {as : List Lit}

theorem Poses.silent (poses : s.Poses cs as) (messages : List Message) :
    ({ s with messages := messages } : Replay.State).Poses cs as :=
  ⟨poses.clauses, (pending_messages s messages).trans poses.pending, poses.spans⟩

theorem Poses.ingestAll (poses : s.Poses cs as) (ds : List Clause) :
    (s.ingestAll ds).Poses (cs ++ ds) as where
  clauses := poses.clauses ▸ clauses_ingestAll s ds
  pending := (pending_ingestAll s ds).trans poses.pending
  spans := by
    simp only [varCount_ingestAll, poses.spans, List.flatten_append, Clause.maxVar_append]
    omega

theorem Poses.assume (poses : s.Poses cs as) (l : Lit) :
    (s.assumed l).Poses cs (as ++ [l]) where
  clauses := poses.clauses
  pending := poses.pending ▸ pending_of_fresh rfl
  spans := by
    have single : Clause.maxVar [l] = l.var.number := Nat.zero_max _
    rw [← List.append_assoc, Clause.maxVar_append, ← poses.spans, single]
    rfl

theorem Poses.verdict (poses : s.Poses cs as) {S : Cnf.Solver} {limit : Nat}
    (sound : s.Sound S limit) :
    s.verdict S = S.run limit (Cnf.ofClauses cs) (as.map .ofLit) := by
  rw [State.verdict, sound.limited, State.clauses, poses.clauses, poses.pending]

end Replay.State

namespace Session

open Replay

variable {S : Cnf.Solver} {limit : Nat} {s : Session Replay.State}

theorem Live.solve (live : s.Live S limit) :
    ∃ t, Session.solve (Replay.engine S) s = (.ok ((s.engine.verdict S).status,
        (s.engine.verdict S).solution? s.engine.varCount), t) ∧
      t.Live S limit ∧ t.tracing = s.tracing ∧
      t.state = s.state.next (.solved (s.engine.verdict S).status) := by
  obtain ⟨messages, run⟩ := runSolve_eq S live.sound.engine.toFit live.held
  rw [State.decided_status] at run
  obtain ⟨calls, done, after⟩ := live.exclusive proper_runSolve run live.held true
  exact ⟨_, done, after, rfl, rfl⟩

-- Only a solution that is blocked at once leaves another state than a solve call.
theorem Live.nextSolution (live : s.Live S limit) :
    ∃ t, Session.nextSolution (Replay.engine S) s =
        (.ok ((s.engine.verdict S).solution? s.engine.varCount), t) ∧
      t.Live S limit ∧ t.tracing = s.tracing ∧
      ((s.engine.verdict S).status ≠ .satisfiable →
        t.state = s.state.next (.solved (s.engine.verdict S).status)) := by
  have fit := live.sound.engine.toFit
  cases found : (s.engine.verdict S).solution? s.engine.varCount with
  | none =>
    obtain ⟨messages, run⟩ := runNext_ended S fit live.held found
    rw [State.decided_status] at run
    obtain ⟨calls, done, after⟩ := live.exclusive proper_runNext run live.held true
    exact ⟨_, done, after, rfl, fun _ => rfl⟩
  | some a =>
    obtain ⟨lits, verdict, rfl⟩ := Cnf.Verdict.model_of_solution? found
    obtain ⟨messages, run⟩ := runNext_found S fit live.held live.sound.idle verdict
    obtain ⟨calls, done, after⟩ := live.exclusive proper_runNext run live.held true
    exact ⟨_, done, after, rfl, fun other => absurd (congrArg Cnf.Verdict.status verdict) other⟩

theorem Live.addFormula (live : s.Live S limit) (f : Formula) :
    ∃ t, Session.addFormula (Replay.engine S) f s = (.ok (), t) ∧ t.Live S limit ∧
      t.tracing = s.tracing ∧ t.engine = s.engine.ingestAll f.clauses := by
  have run := ingestLits_eq S live.sound.engine.toFit live.held live.sound.idle f.clauses
  obtain ⟨calls, done, after⟩ :=
    live.exclusive (proper_ingestLits f.clauses) run live.held false
  exact ⟨_, done, after, rfl, rfl⟩

theorem Live.assume (live : s.Live S limit) (l : Lit) :
    ∃ t, Session.assume (Replay.engine S) l s = (.ok (), t) ∧ t.Live S limit ∧
      t.tracing = s.tracing ∧ t.engine = s.engine.assumed l := by
  have run := runAssume_eq S live.held l
  obtain ⟨calls, done, after⟩ := live.exclusive (proper_runAssume l) run live.held false
  exact ⟨_, done, after, rfl, rfl⟩

theorem Live.failedAssumptions (live : s.Live S limit) :
    ∃ failed calls, Session.failedAssumptions (Replay.engine S) s =
      (.ok failed, { s with timedCalls := calls }) := by
  obtain ⟨failed, run⟩ := runFailedAssumptions_known live.sound live.held
  obtain ⟨calls, done⟩ := exclusive_ok live.fresh run false
  exact ⟨failed, calls, done⟩

theorem Live.query {α : Type} {f : Op Replay.State α} {a : α} (live : s.Live S limit)
    (answers : f s = (.ok a, s)) : shared (ready >>= fun _ => f) s = (.ok a, s) :=
  shared_ok live.fresh live.held answers

theorem Live.varCount (live : s.Live S limit) :
    Session.varCount (Replay.engine S) s = (.ok s.engine.varCount, s) := live.query rfl

theorem Live.clauseCount (live : s.Live S limit) :
    Session.clauseCount (Replay.engine S) s = (.ok s.engine.formula.size, s) := live.query rfl

theorem Live.lastStatus (live : s.Live S limit) :
    Session.lastStatus s = (.ok s.state.status, s) :=
  live.query (Step.bind_ok (Step.get_apply s) _)

theorem Live.writeReport (live : s.Live S limit) (correct : S.Correct)
    (tracing : s.tracing = true) (isOpen : s.state.windowOpen = true) {k : ReportKind}
    (kind : k ≠ .formula) :
    ∃ d t, Session.writeReport (Replay.engine S) k {} s = ((.ok (), d), t) ∧ t.Live S limit ∧
      t.tracing = s.tracing ∧ t.state = s.state := by
  obtain ⟨failed, refuted, _⟩ := live.sound.blamed isOpen
  obtain ⟨core, messages, run, part⟩ := core_found correct live.sound.engine.toFit
    (live.sound.traced tracing) refuted (live.sound.refuted correct isOpen)
  obtain ⟨succeeds, _⟩ := production_succeeds correct part.unsat s.engine.varCount k
  obtain ⟨t, produced⟩ := Client.produce_core (c := ⟨s, []⟩) live.held tracing isOpen kind run
  have ending : (core.production S s.engine.varCount k).toReport.ending = .ok () := by
    rw [Production.toReport, succeeds]
    rfl
  obtain ⟨d, sent⟩ : ∃ d, Transfer.redirect (core.production S s.engine.varCount k).toReport {} =
      (.ok (), d) := ⟨_, Transfer.redirect_accepted ending rfl rfl⟩
  have written : Session.writeReport (Replay.engine S) k {} s = ((.ok (), d), t.charge false) := by
    rw [Session.writeReport, if_neg (by simp [live.fresh]), runReport]
    simp only [produced, sent]
  obtain ⟨calls, charged⟩ := charge_eq false t
  obtain ⟨messages, left⟩ := produce_leaves live.sound k
  rw [produced] at left
  obtain rfl : t = { s with engine := { s.engine with messages := messages } } := left
  rw [charged] at written
  exact ⟨d, _, written, (live.silent messages).charged calls, rfl, rfl⟩

end Session

end SatSession
