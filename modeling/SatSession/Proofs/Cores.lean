import SatSession.Proofs.RoundTrip
import SatSession.Proofs.Subsets

/-!
Clausal cores. Every clause has a selector of its own, a variable that occurs nowhere else, so a
clause is switched off by a valuation of its selector. The clauses and assumptions that a refutation
blames therefore contradict each other, and the reports about them never find otherwise.
-/

set_option autoImplicit false

namespace SatSession

open Cnf

namespace Cnf

variable {v : Valuation} {n : Nat}

theorem Literal.ofLit_injective : Function.Injective Literal.ofLit := by
  intro l k same
  have numbers := congrArg Literal.number same
  rw [number_ofLit, number_ofLit] at numbers
  exact Lit.number_injective numbers

theorem holdsAll_units_iff {ls : List Literal} :
    holdsAll v (units ls) = true ↔ ∀ l ∈ ls, l.holds v = true := by
  rw [holdsAll_units, List.all_eq_true]

theorem holdsAll_selected {cs : List Clause} : holdsAll v (Replay.selected n cs) = true ↔
    ∀ c i, (c, i) ∈ cs.zipIdx → v (n + i + 1) = true → Clause.holds v c = true := by
  have switched (c : Clause) (i : Nat) :
      Clause.holds v (c ++ [(Replay.selector n i).neg]) = true ↔
        (v (n + i + 1) = true → Clause.holds v c = true) := by
    cases on : v (n + i + 1) <;>
      simp [Clause.holds, Replay.selector, Literal.neg, Literal.holds, on]
  simp only [holdsAll, Replay.selected, List.all_map, List.all_eq_true, Function.comp_apply,
    switched, Prod.forall]

end Cnf

/-- Clauses from a list, in its order, and assumptions that contradict each other. -/
structure Replay.Core.Refutes (c : Replay.Core) (cs : List SatSession.Clause) (as : List Lit) :
    Prop where
  part : c.clauses.Sublist cs
  assumed : c.failed ⊆ as
  unsat : ¬Compatible c.clauses c.failed

namespace Replay

variable {S : Solver} {s : State}

-- With all selectors true the clauses count as they are.
theorem coreVerdict_refuted (correct : S.Correct)
    (unsat : ¬Compatible s.formula.clauses s.assumptions) :
    ∃ named, s.coreVerdict S = .refuted named := by
  cases found : s.coreVerdict S with
  | refuted named => exact ⟨named, rfl⟩
  | exhausted => exact absurd found correct.decides
  | model lits =>
    have models := correct.satisfies found
    rw [holdsAll_append, Bool.and_eq_true, holdsAll_selected, holdsAll_units_iff] at models
    obtain ⟨clauses, assumed⟩ := models
    refine absurd (compatible_iff.mpr ⟨valuationOf lits, ?_, fun l hl => ?_⟩) unsat
    · rw [holdsAll, List.all_eq_true]
      intro c hc
      obtain ⟨i, inside, rfl⟩ := List.getElem_of_mem hc
      have small : i < s.formula.size := by
        simpa [State.clauses, ofClauses] using inside
      have mem : selector s.varCount i ∈ s.selectors ++ s.assumptions.map .ofLit :=
        List.mem_append_left _ (List.mem_map.mpr ⟨i, List.mem_range.mpr small, rfl⟩)
      have on := assumed _ mem
      rw [Literal.holds, beq_iff_eq] at on
      exact clauses _ i (List.mk_mem_zipIdx_iff_getElem?.mpr (List.getElem?_eq_getElem inside)) on
    · exact assumed _ (List.mem_append_right _ (List.mem_map_of_mem hl))

-- Keeps a valuation for the variables in use and makes those selectors true that are blamed.
def State.switchOn (s : State) (named : List Literal) (v : Valuation) : Valuation := fun x =>
  if x ≤ s.varCount then v x else named.contains ⟨x, true⟩

theorem switchOn_ofLit (named : List Literal) (v : Valuation) {l : Lit}
    (small : l.var.number ≤ s.varCount) :
    (Literal.ofLit l).holds (s.switchOn named v) = (Literal.ofLit l).holds v := by
  simp only [Literal.holds_ofLit, State.switchOn, small, if_true]

theorem switchOn_selector (named : List Literal) (v : Valuation) (i : Nat) :
    s.switchOn named v (s.varCount + i + 1) = named.contains (selector s.varCount i) := by
  rw [State.switchOn, if_neg (by omega)]
  rfl

theorem named_cases (correct : S.Correct) {named : List Literal}
    (found : s.coreVerdict S = .refuted named) {k : Literal} (blamed : k ∈ named) :
    (∃ i, k = selector s.varCount i) ∨ ∃ l ∈ s.assumptions, k = .ofLit l := by
  rcases List.mem_append.mp (correct.refuted_subset found k blamed) with h | h
  · obtain ⟨i, _, rfl⟩ := List.mem_map.mp h
    exact .inl ⟨i, rfl⟩
  · obtain ⟨l, hl, rfl⟩ := List.mem_map.mp h
    exact .inr ⟨l, hl, rfl⟩

theorem State.Named.mem_failed {named : List Literal} {c : Core} (names : s.Named named c)
    (l : Lit) : l ∈ c.failed ↔ .ofLit l ∈ named ∧ l.var.number ≤ s.varCount := by
  rw [← List.mem_map_of_injective Literal.ofLit_injective, names.failed, List.mem_filter,
    Bool.not_eq_true', decide_eq_false_iff_not, Nat.not_lt]
  rfl

theorem State.Named.satisfied (correct : S.Correct) (fit : s.Fit) {named : List Literal} {c : Core}
    (found : s.coreVerdict S = .refuted named) (names : s.Named named c) {v : Valuation}
    (clauses : holdsAll v (ofClauses c.clauses) = true)
    (assumed : ∀ l ∈ c.failed, (Literal.ofLit l).holds v = true) :
    holdsAll (s.switchOn named v) (selected s.varCount s.clauses ++ units named) = true := by
  rw [holdsAll_append, Bool.and_eq_true, holdsAll_selected, holdsAll_units_iff]
  constructor
  · intro d i mem on
    rw [switchOn_selector] at on
    rw [State.clauses, ofClauses, List.zipIdx_map, List.mem_map] at mem
    obtain ⟨⟨e, j⟩, listed, same⟩ := mem
    obtain ⟨rfl, rfl⟩ := Prod.mk.inj same
    have inCore : e ∈ c.clauses := by
      rw [names.clauses, List.mem_map]
      exact ⟨(e, j), List.mem_filter.mpr ⟨listed, on⟩, rfl⟩
    have holds : Clause.holds v (ofClause e) = true :=
      List.all_eq_true.mp clauses _ (List.mem_map_of_mem inCore)
    rw [Clause.holds, List.any_eq_true] at holds ⊢
    obtain ⟨k, hk, true'⟩ := holds
    obtain ⟨l, hl, rfl⟩ := List.mem_map.mp hk
    have small := fit.within.clauses e (List.fst_mem_of_mem_zipIdx listed) l hl
    exact ⟨_, hk, by rw [switchOn_ofLit named v small, true']⟩
  · intro k blamed
    rcases named_cases correct found blamed with ⟨i, rfl⟩ | ⟨l, hl, rfl⟩
    · rw [Literal.holds, beq_iff_eq]
      exact (switchOn_selector named v i).trans (List.contains_iff_mem.mpr blamed)
    · have small := fit.assumed l hl
      rw [switchOn_ofLit named v small]
      exact assumed l ((names.mem_failed l).mpr ⟨blamed, small⟩)

theorem State.Named.refutes (correct : S.Correct) (fit : s.Fit) {named : List Literal} {c : Core}
    (found : s.coreVerdict S = .refuted named) (names : s.Named named c) :
    c.Refutes s.formula.clauses s.assumptions where
  part := by
    rw [names.clauses]
    have part := (List.filter_sublist (l := s.formula.clauses.zipIdx)
      (p := fun p => named.contains (selector s.varCount p.2))).map Prod.fst
    rwa [List.zipIdx_map_fst] at part
  assumed l hl := by
    obtain ⟨blamed, small⟩ := (names.mem_failed l).mp hl
    rcases named_cases correct found blamed with ⟨i, same⟩ | ⟨k, hk, same⟩
    · have var : l.var.number = s.varCount + i + 1 := congrArg Literal.var same
      omega
    · rwa [Literal.ofLit_injective same]
  unsat compatible := by
    obtain ⟨v, clauses, assumed⟩ := compatible_iff.mp compatible
    exact correct.refuted_unsat found ⟨_, names.satisfied correct fit found clauses assumed⟩

theorem core_found (correct : S.Correct) (fit : s.Fit) (tracing : s.tracing = true)
    {failed : List Lit} (refuted : s.outcome = .unsatisfiable failed)
    (unsat : ¬Compatible s.formula.clauses s.assumptions) :
    ∃ c messages, core S s = (.ok c, { s with messages := messages }) ∧
      c.Refutes s.formula.clauses s.assumptions := by
  obtain ⟨named, found⟩ := coreVerdict_refuted correct unsat
  rcases core_run correct.refuted_subset fit.assumed tracing refuted with
    ⟨named', c, messages, found', names, run⟩ | ⟨none, _⟩
  · exact ⟨c, messages, run, names.refutes correct fit found'⟩
  · exact absurd found (none named)

theorem production_succeeds (correct : S.Correct) {c : Core}
    (unsat : ¬Compatible c.clauses c.failed) (n : Nat) (k : ReportKind) :
    (c.production S n k).ending = .ok () ∧ ((c.production S n k).wrapping = none ∨
      (c.production S n k).wrapping = some "Error writing proof file") := by
  obtain ⟨steps, proof⟩ := Option.isSome_iff_exists.mp (correct.proves.mpr unsat)
  have traced (stepBytes : Cnf.Clause → Bytes) : traceOf S stepBytes c =
      .ok ⟨steps.map stepBytes, .ok (),
        some "Error writing proof file"⟩ := by
    rw [traceOf, proof]
  cases k with
  | formula | clausalCore => exact ⟨rfl, .inl rfl⟩
  | compactTrace | extendedTrace => simp only [Core.production, written, traced, or_true, and_self]

end Replay

namespace Transfer

variable {r : Report} {d : Destination}

theorem redirect_engine_error (succeeds : r.ending = .ok ()) {text : String}
    (failed : (redirect r d).1 = .error (.engine text)) :
    ∃ context, r.wrapping = some context ∧ text = context ++ ": " ++ hungUp.message := by
  obtain ⟨ms, s, followed, returned, _⟩ := follow_redirect r d
  have ioOnly (o : Outcome IoError Unit) : o.mapError Error.io ≠ .error (.engine text) := by
    cases o <;> simp [Outcome.mapError]
  rw [failed] at returned
  rcases (returned_cases followed returned).2 with result | ⟨_, produced, severed, result⟩
  · rw [succeeds, combine_ok] at result
    exact absurd result.symm (ioOnly _)
  · rcases combine_either produced d.refusal with same | same <;> rw [same] at result
    · rcases severed with severed | ⟨_, severed⟩ <;> rw [severed] at result
      · cases wraps : r.wrapping with
        | none => simp [Report.sinkError, wraps] at result
        | some context =>
          simp only [Report.sinkError, wraps, Error.ofEngine, Outcome.error.injEq,
            Error.engine.injEq] at result
          exact ⟨context, rfl, result⟩
      · simp at result
    · exact absurd result.symm (ioOnly _)

theorem redirect_accepted (succeeds : r.ending = .ok ())
    (fits : d.fitting r.bytes.length = r.bytes.length) (flushes : d.flush = .ok ()) :
    redirect r d = (.ok (), d.take r.bytes) := by
  obtain ⟨ms, s, followed, returned, destination⟩ := follow_redirect r d
  obtain ⟨delivered, result | ⟨short, _⟩⟩ := returned_cases followed returned
  · refine Prod.ext ?_ ?_
    · rw [result, succeeds, Destination.verdict_flushed fits, flushes]
      rfl
    · rw [← destination, delivered, fits, List.take_length]
  · omega

end Transfer

namespace Client

open Replay Session Transfer

variable {S : Solver} {c : Client Replay.State} {k : ReportKind} {d : Destination}

theorem perform_report_unused (unused : c.session.released = true ∨ c.session.poisoned = true) :
    (c.perform (Replay.engine S) (.report k d)).1.result = .error .notReady ∨
      (c.perform (Replay.engine S) (.report k d)).1.result = .error .poisoned := by
  cases poisoned : c.session.poisoned with
  | true =>
    right
    simp only [perform, writeReport, poisoned, if_true]
  | false =>
    left
    have released : c.session.released = true := by simpa [poisoned] using unused
    have refused : produce (Replay.engine S) k c.session = (.error .notReady, c.session) :=
      Step.bind_error (ready_released released) _
    simp only [perform, writeReport, poisoned, Bool.false_eq_true, if_false, runReport, refused]

theorem produce_core (live : c.session.released = false)
    (tracing : c.session.tracing = true) (isOpen : c.session.state.windowOpen = true)
    (kind : k ≠ .formula) {core : Core} {messages : List Message}
    (run : Replay.core S c.session.engine =
      (.ok core, { c.session.engine with messages := messages })) :
    ∃ t, produce (Replay.engine S) k c.session =
      (.ok (core.production S c.session.engine.varCount k).toReport, t) := by
  have admitted : admits k c.session = (.ok (), c.session) := by
    cases k with
    | formula => exact absurd rfl kind
    | _ => simp [admits, isOpen, tracing]
  have called : (Replay.engine S).report k c.session.engine = Replay.report S k c.session.engine :=
    rfl
  refine ⟨{ c.session with engine := { c.session.engine with messages := messages } }, ?_⟩
  rw [produce, Step.bind_ok (ready_held live), Step.bind_ok admitted, callReport, called,
    report_of_core kind run]

theorem perform_report_failed (correct : S.Correct) {core : Core} {n : Nat}
    {t : Session Replay.State} (unsat : ¬Compatible core.clauses core.failed)
    (fresh : c.session.poisoned = false)
    (produced : produce (Replay.engine S) k c.session = (.ok (core.production S n k).toReport, t))
    {text : String} (failed : (c.perform (Replay.engine S) (.report k d)).1.result =
      .error (.engine text)) : text = "Error writing proof file: " ++ hungUp.message := by
  obtain ⟨succeeds, wraps⟩ := production_succeeds correct unsat n k
  let r := (core.production S n k).toReport
  have ending : r.ending = .ok () := by
    simp only [r, Production.toReport, succeeds, Outcome.mapError]
  have sent : (redirect r d).1 = .error (.engine text) := by
    rw [perform_report fresh produced] at failed
    rcases sent : redirect r d with ⟨a | x | q, d'⟩ <;> simp_all [r]
  obtain ⟨context, wrapped, rfl⟩ := redirect_engine_error ending sent
  have same : (core.production S n k).wrapping = some context := wrapped
  obtain rfl : context = "Error writing proof file" := by simpa [same] using wraps
  rfl

end Client

def refutationLost : List String :=
  ["clause log is satisfiable under the failed assumptions", "clausal core is satisfiable"]

open Replay Client Transfer in
/-- While a refutation can be queried, the core is a part of the clause log, in its order, which
some of the assumptions contradict. No report about it finds otherwise, and its text reads back as
its clauses, over the variables of the session. Their number is one of 64 bits to the reader. -/
theorem clausal_core_refutes {S : Solver} (correct : S.Correct) {options : Config}
    {c : Client Replay.State} (reachable : c.Reachable S options)
    (tracing : c.session.tracing = true) (isOpen : c.session.state.windowOpen = true) :
    let e := c.session.engine
    ∃ core messages, Replay.core S e = (.ok core, { e with messages := messages }) ∧
      core.clauses.Sublist e.formula.clauses ∧ core.failed ⊆ e.assumptions ∧
      ¬Compatible core.clauses core.failed ∧
      (∀ k ≠ .formula, ∀ d, ∀ text ∈ refutationLost,
        (c.perform (Replay.engine S) (.report k d)).1.result ≠ .error (.engine text)) ∧
      (c.session.released = false → c.session.poisoned = false → core.clauses.length < UInt64.size →
        ∃ bytes f, (∀ d : Destination, d.fitting bytes.length = bytes.length → d.flush = .ok () →
            (c.perform (Replay.engine S) (.report .clausalCore d)).1 =
              ⟨.ok .done, d.received ++ bytes⟩) ∧
          Dimacs.read bytes = .ok (some ⟨e.varCount, core.clauses.length⟩, f) ∧
          f.clauses = core.clauses ∧ f.varCount = e.varCount) := by
  intro e
  have sound := reachable.sound
  obtain ⟨failed, refuted, _⟩ := sound.blamed isOpen
  have fit : e.Fit := sound.engine.toFit
  obtain ⟨core, messages, run, part, assumed, unsat⟩ :=
    core_found correct fit (sound.traced tracing) refuted (sound.refuted correct isOpen)
  have produced (live : c.session.released = false) {k : ReportKind} (kind : k ≠ .formula) :=
    produce_core live tracing isOpen kind run
  refine ⟨core, messages, run, part, assumed, unsat, fun k kind d text lost => ?_,
    fun live fresh count => ?_⟩
  · intro answer
    by_cases unused : c.session.released = true ∨ c.session.poisoned = true
    · rcases perform_report_unused (S := S) (k := k) (d := d) unused with result | result <;>
        simp [result] at answer
    · simp only [not_or, Bool.not_eq_true] at unused
      obtain ⟨t, made⟩ := produced unused.1 kind
      obtain rfl := perform_report_failed correct unsat unused.2 made answer
      revert lost
      decide
  · obtain ⟨t, made⟩ := produced live (k := .clausalCore) (by simp)
    have within : ∀ k ∈ core.clauses, ∀ l ∈ k, l.var.number ≤ e.varCount :=
      fun k hk => fit.within.clauses k (part.subset hk)
    refine ⟨_, _, fun d fits flushes => ?_, Dimacs.read_pieces fit.small rfl count within, ?_, ?_⟩
    · rw [perform_report fresh made, redirect_accepted rfl fits flushes]
      rfl
    · rw [Formula.clauses_extend]
      rfl
    · exact Dimacs.varCount_extend (Nat.zero_max _) within

-- The third clause has no part in the refutation.
theorem assumption_refuted_core :
    ∃ s, (Session.create (Replay.engine Search.solver) { traceGeneration := true } {}).1 = .ok s ∧
      let c := (Client.run (Replay.engine Search.solver) ⟨s, []⟩
        [.addClauses [[1, -2], [2], [3]], .assume ⟨-1, by decide, by decide⟩, .solve]).2
      ∃ core messages, Replay.core Search.solver c.session.engine =
          (.ok core, { c.session.engine with messages := messages }) ∧
        core.clauses.Sublist c.session.engine.formula.clauses ∧
        ¬Compatible core.clauses core.failed ∧
        (core.clauses.length < UInt64.size → ∃ bytes f,
          (c.perform (Replay.engine Search.solver) (.report .clausalCore {})).1 =
            ⟨.ok .done, bytes⟩ ∧
          Dimacs.read bytes = .ok (some ⟨3, core.clauses.length⟩, f) ∧
          f.clauses = core.clauses) := by
  refine ⟨_, rfl, ?_⟩
  intro c
  have reachable : c.Reachable Search.solver { traceGeneration := true } := ⟨_, _, rfl, rfl⟩
  obtain ⟨isOpen, live, fresh, tracing, count⟩ : c.session.state.windowOpen = true ∧
      c.session.released = false ∧ c.session.poisoned = false ∧ c.session.tracing = true ∧
      c.session.engine.varCount = 3 := by
    simp only [c]
    decide +kernel
  obtain ⟨core, messages, run, part, _, unsat, _, text⟩ :=
    clausal_core_refutes Search.solver_correct reachable tracing isOpen
  refine ⟨core, messages, run, part, unsat, fun small => ?_⟩
  obtain ⟨bytes, f, delivered, read, clauses, _⟩ := text live fresh small
  rw [count] at read
  exact ⟨bytes, f, delivered {} rfl rfl, read, clauses⟩

end SatSession
