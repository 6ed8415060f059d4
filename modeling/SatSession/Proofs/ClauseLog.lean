import Mathlib.Data.List.Induction
import Mathlib.Order.Nat
import SatSession.Proofs.Assumptions
import SatSession.Proofs.Grammar
import SatSession.Proofs.Ingestion
import SatSession.Proofs.Window

set_option autoImplicit false

namespace SatSession

open Replay

def Cnf.ofNumbers (cs : List (List Int)) : List Cnf.Clause :=
  cs.map (·.map fun n => ⟨n.natAbs, decide (0 < n)⟩)

theorem Cnf.ofNumbers_number (cs : List SatSession.Clause) :
    Cnf.ofNumbers (cs.map (·.map Lit.number)) = Cnf.ofClauses cs := by
  have literal (l : Lit) : (⟨l.number.natAbs, decide (0 < l.number)⟩ : Cnf.Literal) = .ofLit l := by
    have nonzero := l.ne_zero
    have sign : decide (0 < l.number) = !decide (l.number < 0) := by
      rw [← decide_not, decide_eq_decide]
      omega
    rw [sign]
    rfl
  simp [Cnf.ofNumbers, Cnf.ofClauses, Cnf.ofClause, literal]

/-- What a history leaves behind: its calls, the last one first, the clauses by the numbers of
their literals, and the numbers of all literals assumed. -/
structure Journal where
  calls : List EngineCall := []
  clauses : List (List Int) := []
  assumed : List Int := []

namespace Entry

def refutes (S : Cnf.Solver) (limit : Nat) (j : Journal) (x : Entry) : Bool :=
  x.calls.contains (.inconsistent (.ok true)) ||
    (S.run limit (Cnf.ofNumbers j.clauses) [] matches .refuted _)

def adds (S : Cnf.Solver) (limit : Nat) (j : Journal) (x : Entry) : List (List Int) :=
  match x.operation, x.answer.result with
  | .blockSolution a, .ok _ => [a.numbers.map (- ·)]
  | .advance _, .ok (.item (some a)) => [a.numbers.map (- ·)]
  | .satisfiableSubset true, .ok (.literals ls) =>
      if x.refutes S limit j then []
      else [((countingAssumptions j.calls).filter (!ls.contains ·)).eraseDups.map Lit.number]
  | o, .ok _ => o.given
  | _, _ => []

def assumes (x : Entry) : List Int :=
  match x.operation, x.answer.result with
  | .assume l, .ok _ => [l.number]
  | _, _ => []

section Adding

variable {S : Cnf.Solver} {limit : Nat} {j : Journal} {x : Entry}

theorem adds_error {e : Error} (failed : x.answer.result = .error e) :
    x.adds S limit j = [] ∧ x.assumes = [] := by
  obtain ⟨o, ⟨result, delivered⟩, calls⟩ := x
  obtain rfl : result = .error e := failed
  cases o with
  | satisfiableSubset next => cases next <;> exact ⟨rfl, rfl⟩
  | _ => exact ⟨rfl, rfl⟩

theorem adds_asked (asks : x.operation.Asks) : x.adds S limit j = [] ∧ x.assumes = [] := by
  obtain ⟨o, ⟨result, delivered⟩, calls⟩ := x
  cases o <;> first | exact asks.elim | cases result <;> exact ⟨rfl, rfl⟩

theorem adds_given {gs : List (List Int)} (given : x.operation.given? = some gs) {r : Reply}
    (accepted : x.answer.result = .ok r) : x.adds S limit j = gs ∧ x.assumes = [] := by
  obtain ⟨o, ⟨result, delivered⟩, calls⟩ := x
  obtain rfl : result = .ok r := accepted
  cases o <;> cases given <;> exact ⟨rfl, rfl⟩

-- A subset query adds a clause if it is to rule out what it found.
theorem adds_subset {next : Bool} {ls : List Lit} (query : x.operation = .satisfiableSubset next)
    (found : x.answer.result = .ok (.literals ls)) : x.assumes = [] ∧ x.adds S limit j =
      if next && !x.refutes S limit j then
        [(blocking (countingAssumptions j.calls) ls).map Lit.number]
      else [] := by
  obtain ⟨o, ⟨result, delivered⟩, calls⟩ := x
  obtain rfl : o = .satisfiableSubset next := query
  obtain rfl : result = .ok (.literals ls) := found
  cases next with
  | false => exact ⟨rfl, rfl⟩
  | true =>
    refine ⟨rfl, ?_⟩
    simp only [adds, blocking]
    split <;> simp_all

end Adding

end Entry

def Journal.next (S : Cnf.Solver) (limit : Nat) (j : Journal) (x : Entry) : Journal :=
  ⟨x.calls ++ j.calls, j.clauses ++ x.adds S limit j, j.assumed ++ x.assumes⟩

def journal (S : Cnf.Solver) (limit : Nat) (past : List Entry) : Journal :=
  past.foldl (Journal.next S limit) {}

section Journal

variable {S : Cnf.Solver} {limit : Nat}

theorem journal_concat (past : List Entry) (x : Entry) :
    journal S limit (past ++ [x]) = (journal S limit past).next S limit x := by
  rw [journal, List.foldl_append]
  rfl

variable (S limit) in
theorem journal_calls (past : List Entry) : (journal S limit past).calls = recorded past := by
  induction past using List.reverseRecOn with
  | nil => rfl
  | append_singleton past x ih =>
    rw [journal_concat, Journal.next, ih]
    simp [recorded]

end Journal

namespace Replay.State

variable {s t : Replay.State} {cs : List (List Int)} {ns : List Int}

def numbers (s : Replay.State) : List (List Int) := s.formula.clauses.map (·.map Lit.number)

structure Grows (s t : Replay.State) (cs : List (List Int)) (ns : List Int) : Prop where
  numbers : t.numbers = s.numbers ++ cs
  varCount : t.varCount = max s.varCount (Dimacs.largest (cs.flatten ++ ns))

theorem grows_nothing (formula : t.formula = s.formula) (varCount : t.varCount = s.varCount) :
    s.Grows t [] [] where
  numbers := by rw [State.numbers, formula, List.append_nil, State.numbers]
  varCount := by rw [varCount]; exact (Nat.max_zero _).symm

theorem grows_ingest (c : Clause) : s.Grows (s.ingest c) [c.map Lit.number] [] where
  numbers := by simp [State.numbers, ingest]
  varCount := by
    rw [List.flatten_singleton, List.append_nil, Dimacs.largest_number]
    rfl

theorem Grows.trans {u : Replay.State} {ds : List (List Int)} (first : s.Grows t cs [])
    (second : t.Grows u ds []) : s.Grows u (cs ++ ds) [] where
  numbers := by rw [second.numbers, first.numbers, List.append_assoc]
  varCount := by
    rw [second.varCount, first.varCount]
    simp only [List.append_nil, List.flatten_append, Dimacs.largest_append, Nat.max_assoc]

theorem grows_ingestAll (cs : List Clause) :
    s.Grows (s.ingestAll cs) (cs.map (·.map Lit.number)) [] := by
  induction cs generalizing s with
  | nil => exact grows_nothing rfl rfl
  | cons c cs ih => exact (grows_ingest c).trans ih

theorem grows_assumed (l : Lit) : s.Grows (s.assumed l) [] [l.number] where
  numbers := (List.append_nil _).symm
  varCount := by
    simp [assumed, Dimacs.largest, var_number]

theorem grows_blocked (fit : s.Fit) (subset : List Lit) :
    s.Grows (s.blocked subset) [(blocking s.assumptions subset).map Lit.number] [] where
  numbers := by simp [State.numbers, State.blocked]
  varCount := by
    have small : (blocking s.assumptions subset).maxVar ≤ s.varCount := by
      rw [Clause.maxVar_le_iff]
      intro l hl
      rw [blocking, List.mem_eraseDups] at hl
      exact fit.assumed l (List.mem_filter.mp hl).1
    rw [List.flatten_singleton, List.append_nil, Dimacs.largest_number, Nat.max_eq_left small]
    rfl

theorem formula_decided (S : Cnf.Solver) (s : Replay.State) :
    (s.decided S).2.formula = s.formula := by
  unfold State.decided
  cases s.verdict S <;> rfl

theorem varCount_decided (S : Cnf.Solver) (s : Replay.State) :
    (s.decided S).2.varCount = s.varCount := by
  unfold State.decided
  cases s.verdict S <;> rfl

end Replay.State

theorem Effect.grows {S : Cnf.Solver} {e e' : Replay.State} {state state' : SolveState} {x : Entry}
    {j : Journal} (effect : Effect S e state x.operation x.answer.result e' state') (fit : e.Fit)
    (clauses : e.numbers = j.clauses) (counting : e.assumptions = countingAssumptions j.calls)
    (known : ∀ r, x.operation = .satisfiableSubset true → x.answer.result = .ok r →
      x.calls.contains (.inconsistent (.ok true)) = e.inconsistent) :
    e.Grows e' (x.adds S e.limit j) x.assumes := by
  have log : Cnf.ofNumbers j.clauses = e.clauses := by
    rw [← clauses]
    exact Cnf.ofNumbers_number e.formula.clauses
  have unchanged (formula : e'.formula = e.formula) (varCount : e'.varCount = e.varCount)
      (nothing : x.adds S e.limit j = [] ∧ x.assumes = []) :
      e.Grows e' (x.adds S e.limit j) x.assumes := by
    rw [nothing.1, nothing.2]
    exact State.grows_nothing formula varCount
  have refuting : x.refutes S e.limit j = (x.calls.contains (.inconsistent (.ok true)) ||
      (S.run e.limit e.clauses [] matches .refuted _)) := by
    rw [Entry.refutes, log]
  have subset {next : Bool} {ls : List Lit} (query : x.operation = .satisfiableSubset next)
      (found : x.answer.result = .ok (.literals ls)) : x.assumes = [] ∧ x.adds S e.limit j = _ :=
    Entry.adds_subset query found
  obtain ⟨o, ⟨result, delivered⟩, calls⟩ := x
  simp only at effect known
  cases effect with
  | refused o e => exact unchanged rfl rfl (Entry.adds_error rfl)
  | asked asks => exact unchanged rfl rfl (Entry.adds_asked asks)
  | ingested cs given =>
    obtain ⟨adds, assumes⟩ := Entry.adds_given (S := S) (j := j)
      (x := ⟨o, ⟨.ok .done, delivered⟩, calls⟩) given rfl
    rw [adds, assumes]
    exact State.grows_ingestAll cs
  | blocked a size =>
    have small : a.size ≤ maxVar + 1 := by
      rw [size]
      exact Nat.succ_le_succ fit.small
    have grown := State.grows_ingest (s := e) a.blocker
    rw [Assignment.numbers_blocker small] at grown
    exact grown
  | assumed l => exact State.grows_assumed l
  | solved => exact unchanged (State.formula_decided S e) (State.varCount_decided S e) ⟨rfl, rfl⟩
  | idle i => exact unchanged rfl rfl ⟨rfl, rfl⟩
  | yielded i found =>
    rename_i lits
    have small : (Assignment.ofModel e.varCount lits).size ≤ maxVar + 1 := by
      rw [Assignment.size_ofModel]
      exact Nat.succ_le_succ fit.small
    have solved : e.Grows (e.decided S).2 [] [] :=
      State.grows_nothing (State.formula_decided S e) (State.varCount_decided S e)
    have grown := solved.trans (State.grows_ingest (Assignment.ofModel e.varCount lits).blocker)
    rw [Assignment.numbers_blocker small] at grown
    exact grown
  | ended i => exact unchanged (State.formula_decided S e) (State.varCount_decided S e) ⟨rfl, rfl⟩
  | inconsistent next inconsistent =>
    obtain ⟨assumes, adds⟩ := subset rfl rfl
    refine unchanged rfl rfl ⟨?_, assumes⟩
    rw [adds]
    cases next with
    | false => rfl
    | true => rw [refuting, known _ rfl rfl, inconsistent]; rfl
  | interrupted next => exact unchanged rfl rfl (Entry.adds_error rfl)
  | refuted next consistent found =>
    obtain ⟨assumes, adds⟩ := subset rfl rfl
    refine unchanged rfl rfl ⟨?_, assumes⟩
    rw [adds, refuting, found]
    simp
  | extended next consistent found search =>
    obtain ⟨assumes, adds⟩ := subset rfl rfl
    cases next with
    | false => exact unchanged rfl rfl ⟨adds, assumes⟩
    | true =>
      rw [refuting, known _ rfl rfl, consistent, found, ← counting] at adds
      rw [adds, assumes]
      exact State.grows_blocked fit _

namespace Session

variable {S : Cnf.Solver}

theorem runSubset_asks {s : Session (Observed Replay.State)} (held : s.released = false)
    (fresh : s.engine.calls = []) (next : Bool) :
    (runSubset (Replay.engine S).observed next s).2.engine.calls.contains
      (.inconsistent (.ok true)) = s.engine.engine.inconsistent := by
  let asked : Session (Observed Replay.State) := { s with
    engine := ⟨s.engine.engine, [.inconsistent (.ok s.engine.engine.inconsistent)]⟩ }
  have asks : call (Replay.engine S).observed.inconsistent s =
      (.ok s.engine.engine.inconsistent, asked) := by
    simp only [asked, ← fresh]
    rfl
  rw [runSubset, Step.bind_ok (ready_held held), Step.bind_ok asks]
  cases known : s.engine.engine.inconsistent with
  | true => simp [asked, known]
  | false =>
    let n := s.engine.engine.varCount
    let counted : Session (Observed Replay.State) := { asked with
      engine := ⟨s.engine.engine, .varCount (.ok n) :: asked.engine.calls⟩ }
    have counts : call (Replay.engine S).observed.varCount asked = (.ok n, counted) := rfl
    simp only [Bool.false_eq_true, if_false]
    rw [Step.bind_ok counts]
    obtain ⟨e, queried⟩ := querySubset_session (E := Replay.engine S) next n counted
    have calls : (settling .subsetQuery (querySubset (Replay.engine S).observed next n)
        counted).2.engine.calls = .satisfiableSubset next :: counted.engine.calls := by
      unfold settling
      rcases result : querySubset (Replay.engine S).observed next n counted with ⟨a | x | p, t⟩ <;>
        rw [result] at queried <;> obtain rfl : t = _ := queried <;> rfl
    rw [calls]
    simp [counted, asked, known]

end Session

namespace Client

variable {S : Cnf.Solver} {c : Client Replay.State}

theorem subset_asks {next : Bool} {r : Reply}
    (replied : (c.entry (Replay.engine S) (.satisfiableSubset next)).answer.result = .ok r) :
    (c.entry (Replay.engine S) (.satisfiableSubset next)).calls.contains
      (.inconsistent (.ok true)) = c.session.engine.inconsistent := by
  have calls : (c.entry (Replay.engine S) (.satisfiableSubset next)).calls =
      (Session.exclusive false (Session.runSubset (Replay.engine S).observed next)
        c.observe.session).2.engine.calls :=
    congrArg (·.engine.calls) (answer_session c.observe _ _)
  rw [entry_answer] at replied
  obtain ⟨ls, found, -⟩ := answered replied
  obtain ⟨fresh, ran⟩ := Session.exclusive_answered found
  have live : c.observe.session.released = false := Session.ready_answered ran
  obtain ⟨n, unlocked⟩ := Session.exclusive_sound fresh false
    (Session.runSubset (Replay.engine S).observed next)
  rw [calls, unlocked]
  exact Session.runSubset_asks live rfl next

structure Journaled (j : Journal) (c : Client Replay.State) : Prop where
  clauses : c.session.engine.numbers = j.clauses
  varCount : c.session.engine.varCount = Dimacs.largest (j.clauses.flatten ++ j.assumed)

theorem Journaled.perform {limit : Nat} {j : Journal} (sound : Session.Sound S limit c.session)
    (journaled : Journaled j c)
    (counting : c.session.engine.assumptions = countingAssumptions j.calls) (o : Operation) :
    Journaled (j.next S limit (c.entry (Replay.engine S) o))
      (c.perform (Replay.engine S) o).2 := by
  obtain ⟨e, state, messages, effect, engine, -⟩ := perform_ends sound o
  have grows : c.session.engine.Grows e ((c.entry (Replay.engine S) o).adds S limit j)
      (c.entry (Replay.engine S) o).assumes := by
    have grown := effect.grows (x := c.entry (Replay.engine S) o) sound.engine.toFit
      journaled.clauses counting (fun r query replied => ?_)
    · rwa [sound.engine.limited] at grown
    · obtain rfl : o = .satisfiableSubset true := query
      exact subset_asks replied
  constructor
  · rw [engine, Journal.next, ← journaled.clauses]
    exact grows.numbers
  · rw [engine]
    refine grows.varCount.trans ?_
    rw [journaled.varCount, Journal.next]
    simp only [List.flatten_append, Dimacs.largest_append]
    omega

theorem Journaled.counted {j : Journal} (journaled : Journaled j c)
    (live : c.session.released = false) (fresh : c.session.poisoned = false) :
    (c.perform (Replay.engine S) .clauseCount).1.result = .ok (.count j.clauses.length) ∧
      (c.perform (Replay.engine S) .varCount).1.result =
        .ok (.count (Dimacs.largest (j.clauses.flatten ++ j.assumed))) := by
  constructor
  · have counted : Session.clauseCount (Replay.engine S) c.session =
        (.ok c.session.engine.formula.size, c.session) := Session.shared_ok fresh live rfl
    have size : c.session.engine.formula.size = j.clauses.length := by
      rw [← journaled.clauses, State.numbers, List.length_map, Storage.length_clauses]
    rw [Client.perform, answer_ok counted, size]
  · have counted : Session.varCount (Replay.engine S) c.session =
        (.ok c.session.engine.varCount, c.session) := Session.shared_ok fresh live rfl
    rw [Client.perform, answer_ok counted, journaled.varCount]

theorem run_journaled {options : Config} {s : Session Replay.State}
    (created : (Session.create (Replay.engine S) options {}).1 = .ok s) (os : List Operation) :
    Journaled (journal S options.propagationLimit (chronicle (Replay.engine S) ⟨s, []⟩ os))
      (run (Replay.engine S) ⟨s, []⟩ os).2 := by
  induction os using List.reverseRecOn with
  | nil =>
    rw [Session.create, Session.configure_eq] at created
    cases created
    exact ⟨rfl, rfl⟩
  | append_singleton os o ih =>
    have sound := Reachable.sound ⟨s, os, created, rfl⟩
    have counting := (run_heeds created os).2
    rw [← journal_calls S options.propagationLimit] at counting
    rw [chronicle_concat, journal_concat, run_append]
    exact ih.perform sound counting o

end Client

structure Client.Ingests (S : Cnf.Solver) (c : Client Replay.State) : Prop where
  rejected : ∀ cs n, unfit? cs = some n →
    c.entry (Replay.engine S) (.addClauses cs) =
        ⟨.addClauses cs, ⟨.error (.invalidLiteral n), []⟩, []⟩ ∧
      c.Unchanged (c.perform (Replay.engine S) (.addClauses cs)).2
  misfit : ∀ a : Assignment, a.size ≠ c.session.engine.varCount + 1 →
    (c.perform (Replay.engine S) (.blockSolution a)).1 =
        ⟨.error (.solutionLength a.size c.session.engine.varCount), []⟩ ∧
      c.Unchanged (c.perform (Replay.engine S) (.blockSolution a)).2
  batches : ∀ os ps : List Operation, (∀ o ∈ os ++ ps, o.Accepted) →
    os.flatMap Operation.given = ps.flatMap Operation.given →
    (∀ a ∈ (c.run (Replay.engine S) os).1, a = ⟨.ok .done, []⟩) ∧
      (c.run (Replay.engine S) os).2.session.engine =
        (c.run (Replay.engine S) ps).2.session.engine ∧
      (os ≠ [] → ps ≠ [] → (c.run (Replay.engine S) os).2.session.state =
        (c.run (Replay.engine S) ps).2.session.state)

/-- After every history the clause log consists of what its operations have added, in their order.
The session counts these clauses, and the variables up to the largest that was ever added or
assumed. -/
theorem clause_log_journaled {S : Cnf.Solver} {options : Config} {s : Session Replay.State}
    (created : (Session.create (Replay.engine S) options {}).1 = .ok s) (os : List Operation) :
    let c := (Client.run (Replay.engine S) ⟨s, []⟩ os).2
    let j := journal S options.propagationLimit (Client.chronicle (Replay.engine S) ⟨s, []⟩ os)
    c.session.engine.formula.clauses.map (·.map Lit.number) = j.clauses ∧
      (c.session.released = false → c.session.poisoned = false →
        (c.perform (Replay.engine S) .clauseCount).1.result = .ok (.count j.clauses.length) ∧
        (c.perform (Replay.engine S) .varCount).1.result =
          .ok (.count (Dimacs.largest (j.clauses.flatten ++ j.assumed))) ∧
        c.Ingests S) := by
  intro c j
  have sound : Session.Sound S options.propagationLimit c.session :=
    Client.Reachable.sound ⟨s, os, created, rfl⟩
  have journaled : Client.Journaled j c := Client.run_journaled created os
  refine ⟨journaled.clauses, fun live fresh => ?_⟩
  obtain ⟨clauses, vars⟩ := journaled.counted (S := S) live fresh
  refine ⟨clauses, vars, ?_, ?_, ?_⟩
  · intro cs n unfit
    exact Client.addClauses_rejected live fresh sound.idle unfit
  · intro a size
    exact Client.blockSolution_misfit sound.engine.toFit live fresh sound.idle size
  · intro os ps accepted same
    exact Client.batches_agree sound live fresh accepted same

-- A batch that is rejected, a solution that is ruled out, and a subset.
theorem rejected_batch_leaves_nothing :
    let l : Lit := ⟨1, by decide, by decide⟩
    let os : List Operation := [.addClauses [[1, 2, 0, 7]], .addClauses [[3], [-2147483648]],
      .advance 0, .assume l, .assume l.neg, .satisfiableSubset true]
    ∃ s, (Session.create (Replay.engine Cnf.Search.solver) {} {}).1 = .ok s ∧
      let c := (Client.run (Replay.engine Cnf.Search.solver) ⟨s, []⟩ os).2
      let j := journal Cnf.Search.solver 0
        (Client.chronicle (Replay.engine Cnf.Search.solver) ⟨s, []⟩ os)
      j.clauses = [[1, 2], [-1, 2], [-1]] ∧ j.assumed = [1, -1] ∧
        c.session.engine.formula.clauses.map (·.map Lit.number) = j.clauses ∧
        (c.perform (Replay.engine Cnf.Search.solver) .clauseCount).1.result = .ok (.count 3) ∧
        (c.perform (Replay.engine Cnf.Search.solver) .varCount).1.result = .ok (.count 2) ∧
        c.Ingests Cnf.Search.solver := by
  intro l os
  have created := (rfl : (Session.create (Replay.engine Cnf.Search.solver) {} {}).1 = .ok _)
  refine ⟨_, created, ?_⟩
  intro c j
  obtain ⟨clauses, assumed, live, fresh⟩ : j.clauses = [[1, 2], [-1, 2], [-1]] ∧
      j.assumed = [1, -1] ∧ c.session.released = false ∧ c.session.poisoned = false := by
    simp only [j, c, os, l]
    decide +kernel
  obtain ⟨log, counted⟩ := clause_log_journaled created os
  obtain ⟨count, largest, ingests⟩ := counted live fresh
  change _ = Outcome.ok (Reply.count j.clauses.length) at count
  change _ = Outcome.ok (Reply.count (Dimacs.largest (j.clauses.flatten ++ j.assumed))) at largest
  rw [clauses] at count
  rw [clauses, assumed] at largest
  exact ⟨clauses, assumed, log, count, largest, ingests⟩

end SatSession
