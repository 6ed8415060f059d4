import SatSession.Cnf.Search
import SatSession.Proofs.Calls
import SatSession.Proofs.Preconditions
import SatSession.Proofs.Replay

set_option autoImplicit false

namespace SatSession

namespace Cnf

structure Query where
  limit : Nat
  clauses : List Clause
  assumptions : List Literal
deriving DecidableEq

def Solver.answer (S : Solver) (q : Query) : Verdict := S.run q.limit q.clauses q.assumptions

structure Asks {α : Type} (x : Solver → α) (q : Query) : Prop where
  only : ∀ {S T : Solver}, S.answer q = T.answer q → x S = x T
  depends : ∃ S T : Solver, x S ≠ x T

end Cnf

namespace EngineCall

def isSolve : EngineCall → Bool
  | .solve _ => true
  | _ => false

def changes : EngineCall → Bool
  | .add _ | .assume _ => true
  | _ => false

def assumed : EngineCall → List Lit
  | .assume n => (Lit.ofNumber? n).toList
  | _ => []

theorem assumed_unchanged {k : EngineCall} (unchanged : k.changes = false) : k.assumed = [] := by
  cases k <;> first | rfl | simp [changes] at unchanged

end EngineCall

open EngineCall

section Rule

variable {calls : List EngineCall} {k : EngineCall}

def sinceSolve (calls : List EngineCall) : List EngineCall := calls.takeWhile (!·.isSolve)

def beforeSolve (calls : List EngineCall) : List EngineCall :=
  (calls.dropWhile (!·.isSolve)).drop 1

def assumedSince (calls : List EngineCall) : List Lit :=
  (sinceSolve calls).reverse.flatMap EngineCall.assumed

def solvedAssumptions (calls : List EngineCall) : List Lit := assumedSince (beforeSolve calls)

-- Those of the last solve call count until something is added or assumed.
def countingAssumptions (calls : List EngineCall) : List Lit :=
  if (sinceSolve calls).any EngineCall.changes then assumedSince calls else solvedAssumptions calls

theorem countingAssumptions_cases (calls : List EngineCall) :
    countingAssumptions calls = assumedSince calls ∨
      countingAssumptions calls = solvedAssumptions calls := by
  unfold countingAssumptions
  split
  · exact .inl rfl
  · exact .inr rfl

theorem sinceSolve_other (other : k.isSolve = false) :
    sinceSolve (k :: calls) = k :: sinceSolve calls := by
  simp [sinceSolve, other]

theorem sinceSolve_solve (solve : k.isSolve = true) : sinceSolve (k :: calls) = [] := by
  simp [sinceSolve, solve]

theorem assumedSince_other (other : k.isSolve = false) :
    assumedSince (k :: calls) = assumedSince calls ++ k.assumed := by
  simp [assumedSince, sinceSolve_other other]

theorem assumedSince_solve (solve : k.isSolve = true) : assumedSince (k :: calls) = [] := by
  simp [assumedSince, sinceSolve_solve solve]

theorem solvedAssumptions_solve (solve : k.isSolve = true) :
    solvedAssumptions (k :: calls) = assumedSince calls := by
  simp [solvedAssumptions, beforeSolve, solve]

theorem solvedAssumptions_other (other : k.isSolve = false) :
    solvedAssumptions (k :: calls) = solvedAssumptions calls := by
  simp [solvedAssumptions, beforeSolve, other]

theorem countingAssumptions_solve (solve : k.isSolve = true) :
    countingAssumptions (k :: calls) = assumedSince calls := by
  simp [countingAssumptions, sinceSolve_solve solve, solvedAssumptions_solve solve]

theorem countingAssumptions_change (change : k.changes = true) (other : k.isSolve = false) :
    countingAssumptions (k :: calls) = assumedSince calls ++ k.assumed := by
  simp [countingAssumptions, sinceSolve_other other, change, assumedSince_other other]

theorem countingAssumptions_other (unchanged : k.changes = false) (other : k.isSolve = false) :
    countingAssumptions (k :: calls) = countingAssumptions calls := by
  simp [countingAssumptions, sinceSolve_other other, unchanged, assumedSince_other other,
    assumed_unchanged unchanged, solvedAssumptions_other other]

theorem assumptions_options {first : List EngineCall}
    (options : ∀ k ∈ first, isOption k = true) :
    assumedSince first = [] ∧ solvedAssumptions first = [] ∧ countingAssumptions first = [] := by
  induction first with
  | nil => exact ⟨rfl, rfl, rfl⟩
  | cons k first ih =>
    obtain ⟨option, rest⟩ := List.forall_mem_cons.mp options
    obtain ⟨since, solved, counting⟩ := ih rest
    have other : k.isSolve = false := by cases k <;> simp [isOption] at option ⊢ <;> rfl
    have unchanged : k.changes = false := by cases k <;> simp [isOption] at option ⊢ <;> rfl
    refine ⟨?_, ?_, ?_⟩
    · rw [assumedSince_other other, since, assumed_unchanged unchanged, List.append_nil]
    · rw [solvedAssumptions_other other, solved]
    · rw [countingAssumptions_other unchanged other, counting]

theorem assumptions_append {first : List EngineCall} (options : ∀ k ∈ first, isOption k = true)
    (calls : List EngineCall) : assumedSince (calls ++ first) = assumedSince calls ∧
      solvedAssumptions (calls ++ first) = solvedAssumptions calls ∧
      countingAssumptions (calls ++ first) = countingAssumptions calls := by
  induction calls with
  | nil => exact assumptions_options options
  | cons k calls ih =>
    obtain ⟨since, solved, counting⟩ := ih
    rw [List.cons_append]
    cases solve : k.isSolve with
    | true =>
      simp only [assumedSince_solve solve, solvedAssumptions_solve solve,
        countingAssumptions_solve solve, since, and_self]
    | false =>
      simp only [assumedSince_other solve, solvedAssumptions_other solve, since, solved, true_and]
      cases change : k.changes with
      | true =>
        rw [countingAssumptions_change change solve, countingAssumptions_change change solve, since]
      | false => rw [countingAssumptions_other change solve, countingAssumptions_other change solve,
          counting]

end Rule

namespace Replay

variable {S : Cnf.Solver} {s t : State}

structure State.Kept (s t : State) : Prop where
  assumptions : t.assumptions = s.assumptions
  consumed : t.consumed = s.consumed
  clause : t.clause = s.clause

theorem State.Kept.refl (s : State) : s.Kept s := ⟨rfl, rfl, rfl⟩

theorem State.Kept.pending (kept : s.Kept t) : t.pending = s.pending := by
  simp only [State.pending, State.renew, kept.consumed]
  split
  · rfl
  · exact kept.assumptions

theorem add_state (n : Int) (s : State) : (add n s).2.assumptions = s.pending ∧
    (add n s).2.consumed = false ∧ (n = 0 → (add n s).2.clause = #[]) := by
  by_cases zero : n = 0
  · subst zero
    rw [add_zero]
    exact ⟨rfl, rfl, fun _ => rfl⟩
  · simp only [add, Step.bind_apply, Step.modify_apply, zero, if_false, State.renew_eq,
      Step.ofOutcome, State.touch, Lit.ofNumber]
    cases Lit.ofNumber? n <;> exact ⟨rfl, rfl, fun h => h.elim⟩

theorem assume_state (n : Int) (s : State) :
    (assume n s).2.assumptions = s.pending ++ (Lit.ofNumber? n).toList ∧
      (assume n s).2.consumed = false ∧ (assume n s).2.clause = s.clause := by
  simp only [assume, Step.bind_apply, Step.modify_apply, State.renew_eq, Step.ofOutcome,
    State.touch, Lit.ofNumber]
  cases Lit.ofNumber? n
  · exact ⟨(List.append_nil _).symm, rfl, rfl⟩
  · exact ⟨rfl, rfl, rfl⟩

theorem solve_state (closed : s.clause = #[]) : (solve S s).2.assumptions = s.pending ∧
    (solve S s).2.consumed = true ∧ (solve S s).2.clause = s.clause := by
  obtain ⟨messages, solved⟩ := solve_decided S closed
  rw [solved, State.decided]
  cases s.verdict S <;> exact ⟨rfl, rfl, rfl⟩

theorem subset_kept (consistent : s.inconsistent = false) (next : Bool) :
    s.Kept (satisfiableSubset S next s).2 := by
  cases found : S.run s.limit s.clauses [] with
  | exhausted =>
    rw [subset_exhausted consistent next found]
    exact .refl s
  | refuted failed =>
    obtain ⟨messages, run⟩ := subset_refuted consistent next found
    rw [run]
    exact ⟨rfl, rfl, rfl⟩
  | model lits =>
    cases search : greedy S s [] s.assumptions with
    | error x =>
      rw [subset_failed consistent next found search]
      exact .refl s
    | ok subset =>
      obtain ⟨messages, run⟩ := subset_found consistent next found search
      rw [run]
      cases next <;> exact ⟨rfl, rfl, rfl⟩

theorem value_same (n : Int) (s : State) : (value n s).2 = s := by
  simp only [value, Step.bind_apply, Step.get_apply]
  cases s.outcome with
  | satisfiable values =>
    simp only [Step.bind_apply, Step.ofOutcome]
    rcases (Lit.ofNumber n : Outcome Empty Lit) with l | e | p
    · dsimp only
      cases values[l.var.number]? <;> rfl
    · rfl
    · rfl
  | _ => rfl

theorem refutation_same {ε : Type} (s : State) :
    (refutation s : Outcome ε (List Lit) × State).2 = s := by
  simp only [refutation, Step.bind_apply, Step.get_apply]
  cases s.outcome <;> rfl

theorem failedAssumption_same (n : Int) (s : State) : (failedAssumption n s).2 = s := by
  have same := refutation_same (ε := Empty) s
  rw [failedAssumption, Step.bind_apply]
  rcases known : (refutation s : Outcome Empty (List Lit) × State) with ⟨failed | e | p, t⟩ <;>
    rw [known] at same <;> obtain rfl : t = s := same
  · simp only [Step.bind_apply, Step.ofOutcome]
    rcases (Lit.ofNumber n : Outcome Empty Lit) with l | e | p <;> rfl
  · rfl
  · rfl

theorem failedAssumptions_same (s : State) :
    ((do pure (buffer (← refutation)) : Call State (List Int)) s).2 = s := by
  have same := refutation_same (ε := Empty) s
  rw [Step.bind_apply]
  rcases known : (refutation s : Outcome Empty (List Lit) × State) with ⟨failed | e | p, t⟩ <;>
    rw [known] at same <;> exact same

theorem enableTracing_kept (s : State) : s.Kept (enableTracing s).2 := by
  simp only [enableTracing, Step.bind_apply, Step.get_apply]
  split
  · exact .refl s
  · exact ⟨rfl, rfl, rfl⟩

structure State.Heeds (calls : List EngineCall) (s : State) : Prop where
  pending : s.pending = assumedSince calls
  assumptions : s.assumptions = countingAssumptions calls
  closed : atBoundary calls = true → s.clause = #[]
  consistent : knownConsistent calls = true → s.inconsistent = false

section Step

variable {calls : List EngineCall} {k : EngineCall}

theorem State.Heeds.change (heeds : s.Heeds calls) (change : k.changes = true)
    (other : k.isSolve = false) (assumptions : t.assumptions = s.pending ++ k.assumed)
    (consumed : t.consumed = false) (closed : atBoundary (k :: calls) = true → t.clause = #[])
    (queried : knownConsistent (k :: calls) = false) : t.Heeds (k :: calls) where
  pending := by
    rw [pending_of_fresh consumed, assumptions, heeds.pending, assumedSince_other other]
  assumptions := by
    rw [assumptions, heeds.pending, countingAssumptions_change change other]
  closed := closed
  consistent known := by simp [queried] at known

theorem State.Heeds.keep (heeds : s.Heeds calls) (unchanged : k.changes = false)
    (other : k.isSolve = false) (kept : s.Kept t)
    (boundary : atBoundary (k :: calls) = atBoundary calls)
    (consistent : knownConsistent (k :: calls) = true → t.inconsistent = false) :
    t.Heeds (k :: calls) where
  pending := by
    rw [kept.pending, heeds.pending, assumedSince_other other, assumed_unchanged unchanged,
      List.append_nil]
  assumptions := by
    rw [kept.assumptions, heeds.assumptions, countingAssumptions_other unchanged other]
  closed ended := by
    rw [kept.clause]
    exact heeds.closed (boundary ▸ ended)
  consistent := consistent

theorem kept_of_messages {messages : List Message} (same : t = { s with messages := messages }) :
    s.Kept t := by
  rw [same]
  exact ⟨rfl, rfl, rfl⟩

theorem State.Heeds.step (heeds : s.Heeds calls) (permitted : Permitted calls k)
    (makes : (engine S).Makes s k t) : t.Heeds (k :: calls) := by
  cases makes with
  | add n =>
    obtain ⟨assumptions, consumed, closed⟩ := add_state n s
    refine heeds.change rfl rfl ?_ consumed (fun ended => ?_) rfl
    · exact assumptions.trans (List.append_nil _).symm
    · exact closed (by simpa [atBoundary] using ended)
  | assume n =>
    obtain ⟨assumptions, consumed, clause⟩ := assume_state n s
    exact heeds.change rfl rfl assumptions consumed (fun ended => clause.trans (heeds.closed ended))
      rfl
  | solve =>
    have closed := heeds.closed permitted
    obtain ⟨assumptions, consumed, clause⟩ := solve_state (S := S) closed
    constructor
    · rw [assumedSince_solve rfl]
      exact pending_of_consumed consumed
    · rw [countingAssumptions_solve rfl, ← heeds.pending]
      exact assumptions
    · intro _
      exact clause.trans closed
    · intro known
      simp [knownConsistent] at known
  | satisfiableSubset next =>
    have kept := subset_kept (S := S) (heeds.consistent permitted.1) next
    exact heeds.keep rfl rfl kept rfl fun known => by simp [knownConsistent] at known
  | inconsistent =>
    refine heeds.keep rfl rfl (.refl s) rfl fun known => ?_
    have answer : (engine S).inconsistent s = (.ok s.inconsistent, s) := rfl
    rw [answer] at known ⊢
    cases denied : s.inconsistent <;> simp [denied, knownConsistent] at known ⊢
  | value n =>
    have same : ((engine S).value n s).2 = s := value_same n s
    rw [same]
    exact heeds.keep rfl rfl (.refl s) rfl heeds.consistent
  | varCount => exact heeds.keep rfl rfl (.refl s) rfl heeds.consistent
  | clauseCount => exact heeds.keep rfl rfl (.refl s) rfl heeds.consistent
  | failedAssumption n =>
    have same : ((engine S).failedAssumption n s).2 = s := failedAssumption_same n s
    rw [same]
    exact heeds.keep rfl rfl (.refl s) rfl heeds.consistent
  | failedAssumptions =>
    have same : ((engine S).failedAssumptions s).2 = s := failedAssumptions_same s
    rw [same]
    exact heeds.keep rfl rfl (.refl s) rfl fun known => by simp [knownConsistent] at known
  | report kind =>
    obtain ⟨messages, same⟩ := quiet_report S kind s
    exact heeds.keep rfl rfl (kept_of_messages same) rfl fun known => by
      simp [knownConsistent] at known
  | enableTracing =>
    have kept : s.Kept ((engine S).enableTracing s).2 := enableTracing_kept s
    exact heeds.keep rfl rfl kept rfl fun known => by simp [knownConsistent] at known
  | setPropagationLimit n | setVerbosity n | setLead n | setOutput n | release =>
    exact heeds.keep rfl rfl ⟨rfl, rfl, rfl⟩ rfl fun known => by simp [knownConsistent] at known

theorem runs_heed {calls : List EngineCall} (lawful : Lawful calls)
    (runs : (engine S).Runs {} calls s) : s.Heeds calls := by
  induction runs with
  | nil => exact ⟨rfl, rfl, fun _ => rfl, fun _ => rfl⟩
  | cons before last ih => exact (ih lawful.2).step lawful.1 last

theorem run_heeds {options : Config} {s : Session State}
    (created : (Session.create (engine S) options {}).1 = .ok s) (os : List Operation) :
    let calls := recorded (Client.chronicle (engine S) ⟨s, []⟩ os)
    let e := (Client.run (engine S) ⟨s, []⟩ os).2.session.engine
    e.pending = assumedSince calls ∧ e.assumptions = countingAssumptions calls := by
  intro calls e
  obtain ⟨first, set, observed⟩ := Client.history_observed created os
  have runs := Client.history_runs (engine S) options {} os
  have lawful := Client.lawful_history (engine S) options {} os
  rw [observed] at runs lawful
  have heeds := runs_heed lawful runs
  obtain ⟨since, -, counting⟩ := assumptions_append set calls
  exact ⟨heeds.pending.trans since, heeds.assumptions.trans counting⟩

end Step

theorem solve_asks (closed : s.clause = #[]) :
    Cnf.Asks (fun S => solve S s) ⟨s.limit, s.clauses, s.pending.map .ofLit⟩ where
  only := by
    intro S T same
    have decided : s.decided S = s.decided T := congrArg (conclude _) same
    rw [solve_eq S closed, solve_eq T closed, decided]
  depends := by
    let S : Cnf.Solver := ⟨fun _ _ _ => .exhausted, fun _ => none⟩
    let T : Cnf.Solver := ⟨fun _ _ _ => .refuted [], fun _ => none⟩
    refine ⟨S, T, fun same => ?_⟩
    rw [solve_eq S closed, solve_eq T closed] at same
    have status : Outcome.ok (s.decided S).1 = Outcome.ok (s.decided T).1 :=
      congrArg Prod.fst same
    cases status

/-- A search for a subset of these assumptions, with any solver: what it answers, and the clause
that rules the subset out if one is asked for. -/
structure State.Searches (s : State) (next : Bool) (as : List Lit) : Prop where
  found : ∀ {S lits subset}, S.run s.limit s.clauses [] = .model lits →
    greedy S s [] as = .ok subset → ∃ messages,
      satisfiableSubset S next s = (.ok (buffer subset), { s with
        outcome := .cleared
        formula := if next then s.formula.add (blocking as subset) else s.formula
        inconsistent := next && (blocking as subset).isEmpty
        messages := messages })
  failed : ∀ {S lits e}, S.run s.limit s.clauses [] = .model lits →
    greedy S s [] as = .error e → satisfiableSubset S next s = (.error e, s)

theorem subset_searches (consistent : s.inconsistent = false) (next : Bool) :
    s.Searches next s.assumptions where
  found := by
    intro S lits subset found search
    obtain ⟨messages, run⟩ := subset_found consistent next found search
    refine ⟨messages, ?_⟩
    rw [run]
    cases next <;> simp [State.blocked, consistent]
  failed found search := subset_failed consistent next found search

/-- Whatever a session does, a solve call asks the solver about the literals assumed since the
last one, in order and with repetitions, and about no others. A subset query searches the same
literals if anything was added or assumed since, and else those of the last solve call; it drops
none of them. -/
theorem assumptions_used (S : Cnf.Solver) (options : Config) (os : List Operation)
    {newer older : List EngineCall} {k : EngineCall}
    (split : (Client.history (engine S).observed options ⟨{}, []⟩ os).2.calls =
      newer ++ k :: older) :
    ∃ e e', (engine S).Runs {} older e ∧ (engine S).Makes e k e' ∧
      (k.isSolve = true → Cnf.Asks (fun S => solve S e)
        ⟨e.limit, e.clauses, (assumedSince older).map .ofLit⟩) ∧
      ∀ next, k = .satisfiableSubset next → e.Searches next (countingAssumptions older) ∧
        e'.assumptions = e.assumptions ∧ e'.pending = e.pending := by
  have runs := Client.history_runs (engine S) options {} os
  have lawful := Client.lawful_history (engine S) options {} os
  rw [split] at runs lawful
  obtain ⟨e, e', before, makes⟩ := runs.split
  obtain ⟨permitted, earlier⟩ := lawful_suffix lawful
  have heeds := runs_heed earlier before
  refine ⟨e, e', before, makes, fun solves => ?_, fun next same => ?_⟩
  · cases k with
    | solve answer =>
      rw [← heeds.pending]
      exact solve_asks (heeds.closed permitted)
    | _ => simp [isSolve] at solves
  · subst same
    cases makes
    have consistent := heeds.consistent permitted.1
    have kept : e.Kept (satisfiableSubset S next e).2 := subset_kept consistent next
    rw [← heeds.assumptions]
    exact ⟨subset_searches consistent next, kept.assumptions, kept.pending⟩

-- The second search is about the assumption that the solve call before it has used up.
theorem used_assumption_searched :
    let l : Lit := ⟨1, by decide, by decide⟩
    let os : List Operation := [.assume l, .addClauses [[-1, 2]], .satisfiableSubset false, .solve,
      .satisfiableSubset true, .solve]
    let calls := (Client.history (engine Cnf.Search.solver).observed {} ⟨{}, []⟩ os).2.calls
    let older := calls.drop 2
    calls = [.solve (.ok .unsatisfiable)] ++ .satisfiableSubset true :: older ∧
      countingAssumptions older = [l] ∧ assumedSince (.satisfiableSubset true :: older) = [] ∧
      ∃ e e', (engine Cnf.Search.solver).Runs {} older e ∧
        (engine Cnf.Search.solver).Makes e (.satisfiableSubset true) e' ∧
        e.Searches true (countingAssumptions older) ∧ e'.assumptions = e.assumptions := by
  intro l os calls older
  obtain ⟨split, counting, since⟩ :
      calls = [.solve (.ok .unsatisfiable)] ++ .satisfiableSubset true :: older ∧
        countingAssumptions older = [l] ∧
        assumedSince (.satisfiableSubset true :: older) = [] := by
    simp only [older, calls, os, l]
    decide +kernel
  obtain ⟨e, e', before, makes, _, searches⟩ := assumptions_used _ _ _ split
  obtain ⟨search, kept, _⟩ := searches true rfl
  exact ⟨split, counting, since, e, e', before, makes, search, kept⟩

end Replay
end SatSession
