import SatSession.Proofs.ClauseLog
import SatSession.Proofs.Cores

set_option autoImplicit false

namespace SatSession

open Replay

namespace Client

variable {σ : Type} {E : Engine σ} {S : Cnf.Solver}

theorem lastStatus_answered {c : Client σ} {status : Option Status}
    (replied : (c.perform E .lastStatus).1.result = .ok (.status status)) :
    c.session.released = false ∧ c.session.poisoned = false ∧ c.session.state.status = status := by
  obtain ⟨a, known, -⟩ := answered replied
  obtain ⟨fresh, ran⟩ := Session.shared_answered known
  have live := Session.ready_answered ran
  rw [perform, answer_ok (lastStatus_live live fresh)] at replied
  cases replied
  exact ⟨live, fresh, rfl⟩

theorem produce_formula {c : Client Replay.State} (live : c.session.released = false)
    (refuted : c.session.state.status = some .unsatisfiable) :
    Session.produce (Replay.engine S) .formula c.session =
      (.ok (dimacs ⟨c.session.engine.varCount, c.session.engine.formula.size⟩
        c.session.engine.formula.clauses).toReport, c.session) := by
  have admitted : Session.admits .formula c.session = (.ok (), c.session) := if_pos refuted
  rw [Session.produce, Step.bind_ok (Session.ready_held live), Step.bind_ok admitted]
  rfl

end Client

/-- While the last status of a session is unsatisfiable, the formula can be printed, and what is
printed reads as a header with the counts of the session, and the clause log in its order. The
number of clauses is one of 64 bits. -/
theorem printed_formula_reads_back {S : Cnf.Solver} {options : Config} {s : Session Replay.State}
    (created : (Session.create (Replay.engine S) options {}).1 = .ok s) (os : List Operation) :
    let c := (Client.run (Replay.engine S) ⟨s, []⟩ os).2
    let j := journal S options.propagationLimit (Client.chronicle (Replay.engine S) ⟨s, []⟩ os)
    (c.perform (Replay.engine S) .lastStatus).1.result = .ok (.status (some .unsatisfiable)) →
    j.clauses.length < UInt64.size →
    ∃ bytes f n,
      (c.perform (Replay.engine S) .varCount).1.result = .ok (.count n) ∧
      (c.perform (Replay.engine S) .clauseCount).1.result = .ok (.count j.clauses.length) ∧
      (∀ d : Destination, d.fitting bytes.length = bytes.length → d.flush = .ok () →
        (c.perform (Replay.engine S) (.report .formula d)).1 = ⟨.ok .done, d.received ++ bytes⟩) ∧
      Dimacs.read bytes = .ok (some ⟨n, j.clauses.length⟩, f) ∧
      f.clauses.map (·.map Lit.number) = j.clauses ∧ f.varCount = n := by
  intro c j answered count
  obtain ⟨live, fresh, refuted⟩ := Client.lastStatus_answered answered
  have fit : c.session.engine.Fit :=
    (Client.Reachable.sound ⟨s, os, created, rfl⟩ : Session.Sound S _ c.session).engine.toFit
  have journaled : Client.Journaled j c := Client.run_journaled created os
  obtain ⟨clauses, vars⟩ := journaled.counted (S := S) live fresh
  have size : c.session.engine.formula.size = j.clauses.length := by
    rw [← journaled.clauses, State.numbers, List.length_map, Storage.length_clauses]
  have produced := Client.produce_formula (S := S) live refuted
  have read := Dimacs.read_pieces (h := ⟨c.session.engine.varCount, j.clauses.length⟩) fit.small
    (size.symm.trans (Storage.length_clauses _).symm) (Storage.length_clauses _ ▸ size ▸ count)
    fit.within.clauses
  rw [size] at produced
  rw [← journaled.varCount] at vars
  refine ⟨_, _, _, vars, clauses, fun d fits flushes => ?_, read, ?_, ?_⟩
  · rw [Client.perform_report fresh produced, Transfer.redirect_accepted rfl fits flushes]
    rfl
  · rw [Formula.clauses_extend]
    exact journaled.clauses
  · exact Dimacs.varCount_extend (Nat.zero_max _) fit.within.clauses

-- The largest variable is only assumed, and the window is closed by the last clause.
theorem extended_log_printed :
    let l : Lit := ⟨7, by decide, by decide⟩
    let os : List Operation := [.addClauses [[1], [-1, 0, 9]], .assume l, .solve, .addClauses [[2]]]
    ∃ s, (Session.create (Replay.engine Cnf.Search.solver) {} {}).1 = .ok s ∧
      let c := (Client.run (Replay.engine Cnf.Search.solver) ⟨s, []⟩ os).2
      let j := journal Cnf.Search.solver 0
        (Client.chronicle (Replay.engine Cnf.Search.solver) ⟨s, []⟩ os)
      (c.perform (Replay.engine Cnf.Search.solver) .lastStatus).1.result =
          .ok (.status (some .unsatisfiable)) ∧
        c.session.state.windowOpen = false ∧ j.clauses = [[1], [-1], [2]] ∧
        j.clauses.length < UInt64.size ∧ ∃ bytes f,
          (c.perform (Replay.engine Cnf.Search.solver) (.report .formula {})).1 =
            ⟨.ok .done, bytes⟩ ∧
          Dimacs.read bytes = .ok (some ⟨7, 3⟩, f) ∧
          f.clauses.map (·.map Lit.number) = [[1], [-1], [2]] ∧ f.varCount = 7 := by
  intro l os
  have created := (rfl : (Session.create (Replay.engine Cnf.Search.solver) {} {}).1 = .ok _)
  refine ⟨_, created, ?_⟩
  intro c j
  obtain ⟨status, closed, clauses, vars⟩ :
      (c.perform (Replay.engine Cnf.Search.solver) .lastStatus).1.result =
          .ok (.status (some .unsatisfiable)) ∧
        c.session.state.windowOpen = false ∧ j.clauses = [[1], [-1], [2]] ∧
        (c.perform (Replay.engine Cnf.Search.solver) .varCount).1.result = .ok (.count 7) := by
    simp only [c, j, os, l]
    decide +kernel
  have small : j.clauses.length < UInt64.size := by
    rw [clauses]
    decide
  obtain ⟨bytes, f, n, count, -, printed, read, log, largest⟩ :=
    printed_formula_reads_back created os status small
  obtain rfl : n = 7 := Reply.count.inj (Outcome.ok.inj (count.symm.trans vars))
  change Dimacs.read bytes = .ok (some ⟨7, j.clauses.length⟩, f) at read
  change f.clauses.map (·.map Lit.number) = j.clauses at log
  rw [clauses] at read log
  exact ⟨status, closed, clauses, small, bytes, f, printed {} rfl rfl, read, log, largest⟩

end SatSession
