import SatSession.Proofs.FailedAssumptions

/-!
The clausal core and the failed assumptions of one solve call come from two refutations. The core
comes from a second run, over clauses with selectors and under all assumptions of the solve call;
what it blames need not be what the first run blamed.
-/

set_option autoImplicit false

namespace SatSession

open Cnf Replay Session Transfer

/-- The core is contradicted by what its own refutation blames, a part of what the solve call
assumed, and so by all of that. The failed assumptions of the session contradict it if those are
among them. -/
theorem core_under_assumptions {S : Cnf.Solver} (correct : S.Correct) {options : Config}
    {c : Client Replay.State} (reachable : c.Reachable S options)
    (tracing : c.session.tracing = true) (isOpen : c.session.state.windowOpen = true)
    (live : c.session.released = false) (fresh : c.session.poisoned = false) :
    let e := c.session.engine
    ∃ failed core messages,
      (c.perform (Replay.engine S) .failedAssumptions).1.result = .ok (.literals failed) ∧
      Replay.core S e = (.ok core, { e with messages := messages }) ∧
      (∀ d : Destination, ∀ bytes,
        bytes = (core.production S e.varCount .clausalCore).toReport.bytes →
        d.fitting bytes.length = bytes.length → d.flush = .ok () →
        (c.perform (Replay.engine S) (.report .clausalCore d)).1 =
          ⟨.ok .done, d.received ++ bytes⟩) ∧
      core.clauses.Sublist e.formula.clauses ∧ core.failed ⊆ e.assumptions ∧
      ¬Compatible e.formula.clauses failed ∧ ¬Compatible core.clauses e.assumptions ∧
      (core.failed ⊆ failed → ¬Compatible core.clauses failed) := by
  intro e
  have sound := reachable.sound
  have fit : e.Fit := sound.engine.toFit
  obtain ⟨named, refuted⟩ := reachable.recalls isOpen
  obtain ⟨failed, blames⟩ := refuted.blames correct.explains
  have distinct : failed.Nodup := blames.ordered.nodup (nodup_eraseDups _)
  have within : ∀ l ∈ failed, l ∈ e.assumptions :=
    fun l hl => List.mem_eraseDups.mp (blames.ordered.subset hl)
  have listed := (Client.failed_answered (S := S) fit live fresh
    (fun _ => ⟨blames.outcome, distinct, within⟩) (by simp [isOpen])).1
  obtain ⟨core, messages, run, part, assumed, unsat⟩ :=
    core_found correct fit (sound.traced tracing) blames.outcome (sound.refuted correct isOpen)
  obtain ⟨t, made⟩ := Client.produce_core live tracing isOpen (k := .clausalCore) (by simp) run
  refine ⟨failed, core, messages, listed, run, fun d bytes same fits flushes => ?_, part, assumed,
    blames.incompatible, fun compatible => unsat (compatible.mono assumed),
    fun blamed compatible => unsat (compatible.mono blamed)⟩
  subst same
  rw [Client.perform_report fresh made, redirect_accepted rfl fits flushes]
  rfl

-- The only assumption is to blame for both refutations.
theorem only_assumption_refutes_core :
    ∃ s, (Session.create (Replay.engine Search.solver) { traceGeneration := true } {}).1 = .ok s ∧
      let l : Lit := ⟨-1, by decide, by decide⟩
      let c := (Client.run (Replay.engine Search.solver) ⟨s, []⟩
        [.addClauses [[1, -2], [2], [3]], .assume l, .solve]).2
      ∃ core messages,
        (c.perform (Replay.engine Search.solver) .failedAssumptions).1.result =
          .ok (.literals [l]) ∧
        Replay.core Search.solver c.session.engine =
          (.ok core, { c.session.engine with messages := messages }) ∧
        ¬Compatible core.clauses [l] := by
  refine ⟨_, rfl, ?_⟩
  intro l c
  have reachable : c.Reachable Search.solver { traceGeneration := true } := ⟨_, _, rfl, rfl⟩
  obtain ⟨tracing, isOpen, live, fresh, answer, assumed⟩ : c.session.tracing = true ∧
      c.session.state.windowOpen = true ∧ c.session.released = false ∧
      c.session.poisoned = false ∧
      (c.perform (Replay.engine Search.solver) .failedAssumptions).1.result =
        .ok (.literals [l]) ∧ c.session.engine.assumptions = [l] := by
    simp only [c, l]
    decide +kernel
  obtain ⟨failed, core, messages, listed, run, -, -, -, -, unsat, -⟩ :=
    core_under_assumptions Search.solver_correct reachable tracing isOpen live fresh
  rw [assumed] at unsat
  exact ⟨core, messages, answer, run, unsat⟩

-- Two ways from the third literal against the second: one over the first, and one over the fifth
-- with the help of the fourth.
def twoWays : List Operation :=
  [.addClauses [[-1, -2], [-3, -4, 5], [-5, -2], [-3, 1]], .assume ⟨4, by decide, by decide⟩,
    .assume ⟨3, by decide, by decide⟩, .assume ⟨2, by decide, by decide⟩, .solve]

-- The first run blames the third and the second literal. The core of the second run goes the way
-- that needs the fourth as well, so that without it the core is satisfiable.
theorem core_allows_failed_assumptions :
    ∃ s, (Session.create (Replay.engine Search.solver) { traceGeneration := true } {}).1 = .ok s ∧
      let c := (Client.run (Replay.engine Search.solver) ⟨s, []⟩ twoWays).2
      let failed : List Lit := [⟨3, by decide, by decide⟩, ⟨2, by decide, by decide⟩]
      let core : List SatSession.Clause :=
        [[⟨-3, by decide, by decide⟩, ⟨-4, by decide, by decide⟩, ⟨5, by decide, by decide⟩],
          [⟨-5, by decide, by decide⟩, ⟨-2, by decide, by decide⟩]]
      Search.solver.Correct ∧ c.Reachable Search.solver { traceGeneration := true } ∧
        c.session.tracing = true ∧ c.session.state.windowOpen = true ∧
        (c.perform (Replay.engine Search.solver) .failedAssumptions).1.result =
          .ok (.literals failed) ∧
        Core.clauses <$> (Replay.core Search.solver c.session.engine).1 = .ok core ∧
        (c.perform (Replay.engine Search.solver) (.report .clausalCore {})).1 =
          ⟨.ok .done, "p cnf 5 2\n-3 -4 5 0\n-5 -2 0\n".toUTF8.toList⟩ ∧
        Compatible core failed := by
  refine ⟨_, rfl, ?_⟩
  intro c failed core
  refine ⟨Search.solver_correct, ⟨_, _, rfl, rfl⟩, ?_⟩
  obtain ⟨tracing, isOpen, listed, found, written⟩ : c.session.tracing = true ∧
      c.session.state.windowOpen = true ∧
      (c.perform (Replay.engine Search.solver) .failedAssumptions).1.result =
        .ok (.literals failed) ∧
      Core.clauses <$> (Replay.core Search.solver c.session.engine).1 = .ok core ∧
      (c.perform (Replay.engine Search.solver) (.report .clausalCore {})).1 =
        ⟨.ok .done, "p cnf 5 2\n-3 -4 5 0\n-5 -2 0\n".toUTF8.toList⟩ := by
    simp only [c, failed, core]
    decide +kernel
  refine ⟨tracing, isOpen, listed, found, written, compatible_iff.mpr ?_⟩
  -- The fourth literal and the fifth are false.
  refine ⟨fun v => v = 2 ∨ v = 3, ?_, ?_⟩
  · simp only [core]
    decide
  · simp only [failed]
    decide

end SatSession
