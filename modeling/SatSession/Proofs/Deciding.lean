import SatSession.Proofs.Safety
import SatSession.Proofs.Subsets

set_option autoImplicit false

namespace SatSession

open Cnf Replay

structure Cnf.Solver.Decides (S : Solver) : Prop where
  model_covers : ∀ {cs as lits}, S.run 0 cs as = .model lits →
    Consistent lits ∧ Covers lits cs ∧ ∀ a ∈ as, a ∈ lits
  refutes : ∀ {cs as failed}, S.run 0 cs as = .refuted failed → ¬Satisfiable (cs ++ units as)
  answers : ∀ {cs as}, S.run 0 cs as ≠ .exhausted

theorem Cnf.Solver.Correct.decides_unlimited {S : Solver} (correct : S.Correct) : S.Decides where
  model_covers := correct.model_covers
  refutes := correct.refutes
  answers := correct.decides

structure Assignment.Fulfils (a : Assignment) (n : Nat) (cs : List SatSession.Clause)
    (as : List Lit) : Prop where
  size : a.size = n + 1
  clauses : a.satisfies (ε := Empty) cs = .ok true
  assumptions : ∀ l ∈ as, a.holds (ε := Empty) l = .ok true

def SameClauses (cs ds : List SatSession.Clause) : Prop :=
  (∀ c ∈ cs, ∃ d ∈ ds, SameSet c d) ∧ ∀ d ∈ ds, ∃ c ∈ cs, SameSet c d

variable {n : Nat} {cs ds : List SatSession.Clause} {as bs : List Lit} {a : Assignment}

theorem Assignment.fulfils_iff (within : Within n cs as) : a.Fulfils n cs as ↔
    a.size = n + 1 ∧ holdsAll a.valuation (ofClauses cs ++ units (as.map .ofLit)) = true := by
  have split : holdsAll a.valuation (ofClauses cs ++ units (as.map .ofLit)) = true ↔
      holdsAll a.valuation (ofClauses cs) = true ∧
        ∀ l ∈ as, (Literal.ofLit l).holds a.valuation = true := by
    rw [holdsAll_append, Bool.and_eq_true, holdsAll_units, List.all_map, List.all_eq_true]
    rfl
  have clauses (size : a.size = n + 1) : a.satisfies (ε := Empty) cs =
      .ok (holdsAll a.valuation (ofClauses cs)) := by
    refine Assignment.satisfies_eq fun c hc l hl => ?_
    rw [size]
    exact Nat.lt_succ_of_le (within.clauses c hc l hl)
  have holds (size : a.size = n + 1) {l : Lit} (hl : l ∈ as) :
      a.holds (ε := Empty) l = .ok ((Literal.ofLit l).holds a.valuation) := by
    refine Assignment.holds_eq ?_
    rw [size]
    exact Nat.lt_succ_of_le (within.assumptions l hl)
  rw [split]
  constructor
  · rintro ⟨size, satisfied, assumed⟩
    rw [clauses size] at satisfied
    refine ⟨size, Outcome.ok.inj satisfied, fun l hl => ?_⟩
    have assumption := assumed l hl
    rw [holds size hl] at assumption
    exact Outcome.ok.inj assumption
  · rintro ⟨size, satisfied, assumed⟩
    refine ⟨size, by rw [clauses size, satisfied], fun l hl => ?_⟩
    rw [holds size hl, assumed l hl]

theorem Assignment.fulfils_of_isSolution (within : Within n cs as)
    (solves : isSolution cs as n a = true) :
    a.Fulfils n cs as ∧ a.slots[0]? = some false := by
  obtain ⟨size, head, models⟩ := (isSolution_iff within).mp solves
  exact ⟨(Assignment.fulfils_iff within).mpr ⟨size, models⟩, head⟩

theorem exists_fulfils_iff (within : Within n cs as) :
    (∃ a : Assignment, a.Fulfils n cs as) ↔ Compatible cs as := by
  constructor
  · rintro ⟨a, fulfils⟩
    exact ⟨a.valuation, ((Assignment.fulfils_iff within).mp fulfils).2⟩
  · intro compatible
    obtain ⟨a, solves⟩ := (compatible_iff_isSolution within).mp compatible
    exact ⟨a, (Assignment.fulfils_of_isSolution within solves).1⟩

theorem holds_congr {v : Valuation} {c d : SatSession.Clause} (same : SameSet c d) :
    Clause.holds v (ofClause c) = Clause.holds v (ofClause d) := by
  rw [Bool.eq_iff_iff]
  simp only [Clause.holds, ofClause, List.any_map, List.any_eq_true]
  exact exists_congr fun l => and_congr_left fun _ => same l

theorem compatible_congr (clauses : SameClauses cs ds) (assumptions : SameSet as bs) :
    Compatible cs as ↔ Compatible ds bs := by
  have holds (v : Valuation) :
      holdsAll v (ofClauses cs) = true ↔ holdsAll v (ofClauses ds) = true := by
    simp only [holdsAll, ofClauses, List.all_map, List.all_eq_true, Function.comp_apply]
    constructor
    · intro all d hd
      obtain ⟨c, hc, same⟩ := clauses.2 d hd
      rw [← holds_congr same]
      exact all c hc
    · intro all c hc
      obtain ⟨d, hd, same⟩ := clauses.1 c hc
      rw [holds_congr same]
      exact all d hd
  rw [compatible_iff, compatible_iff]
  refine exists_congr fun v => and_congr (holds v) (forall_congr' fun l => ?_)
  rw [assumptions l]

namespace Session

variable {S : Solver} {s : Session Replay.State}

theorem solve_cases (decides : S.Decides) (sound : Sound S 0 s) (live : s.released = false)
    (fresh : s.poisoned = false) :
    (Compatible s.engine.formula.clauses s.engine.pending ∧
      ∃ a t, solve (Replay.engine S) s = (.ok (.satisfiable, some a), t) ∧
        isSolution s.engine.formula.clauses s.engine.pending s.engine.varCount a =
          true) ∨
    ¬Compatible s.engine.formula.clauses s.engine.pending ∧
      ∃ t, solve (Replay.engine S) s = (.ok (.unsatisfiable, none), t) := by
  have within := sound.engine.within
  obtain ⟨messages, run⟩ := runSolve_eq S sound.engine.toFit live
  obtain ⟨calls, done⟩ := exclusive_ok fresh run true
  have verdict : s.engine.verdict S =
      S.run 0 s.engine.clauses (s.engine.pending.map .ofLit) := by
    rw [State.verdict, sound.engine.limited]
  cases found : s.engine.verdict S with
  | model lits =>
    obtain ⟨consistent, covers, assumed⟩ := decides.model_covers (verdict.symm.trans found)
    have solves := isSolution_ofModel within consistent covers assumed
    rw [found, State.decided_model found] at done
    refine .inl ⟨(compatible_iff_isSolution within).mpr ⟨_, solves⟩, _, _, done, solves⟩
  | refuted failed =>
    rw [found, State.decided_refuted found] at done
    exact .inr ⟨decides.refutes (verdict.symm.trans found), _, done⟩
  | exhausted => exact absurd (verdict.symm.trans found) decides.answers

end Session

def Answer.status? (a : Answer) : Option Status :=
  match a.result with
  | .ok (.solved status _) => some status
  | _ => none

/-- Without a limit, a solve call finds an assignment of all variables in use that fulfils clauses
and pending assumptions, if there is one, and otherwise says that there is none. All sessions with
the same set of clauses and the same set of pending assumptions get the same status. -/
theorem solve_decides {S : Solver} (decides : S.Decides) {options : Config}
    (unlimited : options.propagationLimit = 0) {c : Client Replay.State}
    (reachable : c.Reachable S options) (live : c.session.released = false)
    (fresh : c.session.poisoned = false) :
    let clauses := c.session.engine.formula.clauses
    let assumptions := c.session.engine.pending
    let n := c.session.engine.varCount
    let answer := (c.perform (Replay.engine S) .solve).1
    ((∃ a : Assignment, a.Fulfils n clauses assumptions) →
      ∃ a : Assignment, answer = ⟨.ok (.solved .satisfiable (some a)), []⟩ ∧
        a.Fulfils n clauses assumptions ∧ a.slots[0]? = some false) ∧
    ((¬∃ a : Assignment, a.Fulfils n clauses assumptions) →
      answer = ⟨.ok (.solved .unsatisfiable none), []⟩) ∧
    ∀ {S' : Solver} {options' : Config} {d : Client Replay.State}, S'.Decides →
      options'.propagationLimit = 0 → d.Reachable S' options' → d.session.released = false →
      d.session.poisoned = false → SameClauses clauses d.session.engine.formula.clauses →
      SameSet assumptions d.session.engine.pending →
      (d.perform (Replay.engine S') .solve).1.status? = answer.status? := by
  intro clauses assumptions n answer
  have sound := reachable.sound
  rw [unlimited] at sound
  have within := sound.engine.within
  have answered {S : Solver} {c : Client Replay.State} {r : Status × Option Assignment}
      {t : Session Replay.State} (done : Session.solve (Replay.engine S) c.session = (.ok r, t)) :
      (c.perform (Replay.engine S) .solve).1 = ⟨.ok (.solved r.1 r.2), []⟩ := by
    rw [Client.perform, Client.answer_ok done]
  refine ⟨fun fulfilled => ?_, fun unfulfilled => ?_, ?_⟩
  · have compatible := (exists_fulfils_iff within).mp fulfilled
    rcases Session.solve_cases decides sound live fresh with ⟨_, a, t, done, solves⟩ | ⟨refuted, _⟩
    · exact ⟨a, answered done, Assignment.fulfils_of_isSolution within solves⟩
    · exact absurd compatible refuted
  · rcases Session.solve_cases decides sound live fresh with ⟨compatible, _⟩ | ⟨_, t, done⟩
    · exact absurd ((exists_fulfils_iff within).mpr compatible) unfulfilled
    · exact answered done
  · intro S' options' d decides' unlimited' reachable' live' fresh' sameClauses sameAssumptions
    have same := compatible_congr sameClauses sameAssumptions
    have sound' := reachable'.sound
    rw [unlimited'] at sound'
    rcases Session.solve_cases decides sound live fresh with ⟨compatible, a, t, done, _⟩ |
        ⟨refuted, t, done⟩ <;>
      rcases Session.solve_cases decides' sound' live' fresh' with
        ⟨compatible', a', t', done', _⟩ | ⟨refuted', t', done'⟩
    · simp only [answer, answered done, answered done', Answer.status?]
    · exact absurd (same.mp compatible) refuted'
    · exact absurd (same.mpr compatible') refuted
    · simp only [answer, answered done, answered done', Answer.status?]

-- No clause mentions the third variable.
theorem unused_variable_decided :
    ∃ s, (Session.create (Replay.engine Search.solver) {} {}).1 = .ok s ∧
      let c := (Client.run (Replay.engine Search.solver) ⟨s, []⟩
        [.addClauses [[1, -2], [4]], .assume ⟨-1, by decide, by decide⟩]).2
      ∃ a : Assignment, (c.perform (Replay.engine Search.solver) .solve).1 =
          ⟨.ok (.solved .satisfiable (some a)), []⟩ ∧
        a.Fulfils 4 c.session.engine.formula.clauses c.session.engine.pending ∧
        a.slots[0]? = some false := by
  refine ⟨_, rfl, ?_⟩
  intro c
  have reachable : c.Reachable Search.solver {} := ⟨_, _, rfl, rfl⟩
  obtain ⟨found, _⟩ :=
    solve_decides Search.solver_correct.decides_unlimited rfl reachable rfl rfl
  exact found ⟨.ofList [false, false, false, false, true], rfl, rfl, by decide⟩

end SatSession
