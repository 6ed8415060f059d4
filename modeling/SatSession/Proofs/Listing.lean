import SatSession.Proofs.Transcripts

set_option autoImplicit false

namespace SatSession

open Cnf

/-- Numbers as they are printed for a solution: a literal for each of `n` variables, such that they
satisfy the clauses and have the assumptions among them. -/
structure Satisfying (n : Nat) (cs : List Clause) (as : List Lit) (ns : List Int) : Prop where
  total : ns.map Int.natAbs = List.range' 1 n
  clauses : ∀ c ∈ cs, ∃ l ∈ c, l.number ∈ ns
  assumptions : ∀ l ∈ as, l.number ∈ ns

namespace Assignment

variable {n : Nat} {a b : Assignment}

theorem mem_numbers_iff_holds {l : Lit} (inside : l.var.number < a.size) :
    l.number ∈ a.numbers ↔ (Literal.ofLit l).holds a.valuation = true := by
  rw [mem_numbers, Literal.holds_ofLit, slot_eq inside]
  simp

theorem values_numbers (a : Assignment) :
    a.numbers.map (fun n => decide (0 < n)) = a.slots.toList.drop 1 := by
  refine List.ext_getElem (by simp [length_numbers, size]) fun i inside _ => ?_
  rw [List.length_map] at inside
  obtain ⟨small, number⟩ := getElem_numbers inside
  rw [List.getElem_map, number, List.getElem_drop, Array.getElem_toList]
  simp only [Nat.add_comm 1]
  cases a.slots[i + 1] with
  | false =>
    have negative : ¬0 < -((i + 1 : Nat) : Int) := by omega
    simp only [Bool.false_eq_true, if_false, decide_eq_false negative]
  | true =>
    have positive : 0 < ((i + 1 : Nat) : Int) := by omega
    simp only [if_true, decide_eq_true positive]

theorem eq_of_numbers (heads : a.slots[0]? = b.slots[0]?) (same : a.numbers = b.numbers) :
    a = b := by
  have values : a.slots.toList.drop 1 = b.slots.toList.drop 1 := by
    rw [← values_numbers, same, values_numbers]
  have slots : a.slots = b.slots := by
    refine Array.ext_getElem? fun v => ?_
    cases v with
    | zero => exact heads
    | succ v => simpa [Nat.add_comm 1] using congrArg (·[v]?) values
  cases a
  cases b
  exact congrArg Assignment.mk slots

theorem exists_numbers {ns : List Int} (total : ns.map Int.natAbs = List.range' 1 n) :
    ∃ a : Assignment, a.size = n + 1 ∧ a.slots[0]? = some false ∧ a.numbers = ns := by
  have length : ns.length = n := by simpa using congrArg List.length total
  refine ⟨.ofList (false :: ns.map (0 < ·)), by simp [ofList, size, length], rfl, ?_⟩
  refine List.ext_getElem (by simp [length_numbers, ofList, size]) fun i inside inside' => ?_
  obtain ⟨small, value⟩ := getElem_numbers inside
  have size : ns[i].natAbs = 1 + i := by
    have entry := List.getElem_map Int.natAbs (l := ns) (i := i) (h := by simpa using inside')
    rw [← entry]
    simp [total]
  rw [value]
  by_cases positive : 0 < ns[i]
  next => simp [ofList, positive]; omega
  next => simp [ofList, positive]; omega

end Assignment

variable {n : Nat} {cs : List Clause} {as : List Lit} {a b : Assignment}

theorem isSolution_iff_satisfying (within : Within n cs as) : isSolution cs as n a = true ↔
    a.size = n + 1 ∧ a.slots[0]? = some false ∧ Satisfying n cs as a.numbers := by
  rw [isSolution_iff within]
  refine and_congr_right fun size => and_congr_right fun _ => ?_
  have holds {l : Lit} (small : l.var.number ≤ n) :
      l.number ∈ a.numbers ↔ (Literal.ofLit l).holds a.valuation = true :=
    Assignment.mem_numbers_iff_holds (by omega)
  have clauses : holdsAll a.valuation (ofClauses cs) = true ↔
      ∀ c ∈ cs, ∃ l ∈ c, l.number ∈ a.numbers := by
    simp only [holdsAll, ofClauses, List.all_map, List.all_eq_true, Function.comp_apply,
      Clause.holds, ofClause, List.any_map, List.any_eq_true]
    refine forall₂_congr fun c member => exists_congr fun l => and_congr_right fun mem => ?_
    exact (holds (within.clauses c member l mem)).symm
  have assumptions : holdsAll a.valuation (units (as.map .ofLit)) = true ↔
      ∀ l ∈ as, l.number ∈ a.numbers := by
    rw [holdsAll_units, List.all_map, List.all_eq_true]
    exact forall₂_congr fun l member => (holds (within.assumptions l member)).symm
  have total : a.numbers.map Int.natAbs = List.range' 1 n := by
    rw [Assignment.natAbs_numbers, size, Nat.add_sub_cancel]
  rw [holdsAll_append, Bool.and_eq_true, clauses, assumptions]
  constructor
  next => exact fun both => ⟨total, both.1, both.2⟩
  next => exact fun satisfying => ⟨satisfying.clauses, satisfying.assumptions⟩

theorem exists_solution_numbers (within : Within n cs as) {ns : List Int}
    (satisfying : Satisfying n cs as ns) : ∃ a, isSolution cs as n a = true ∧ a.numbers = ns := by
  obtain ⟨a, size, head, rfl⟩ := Assignment.exists_numbers satisfying.total
  exact ⟨a, (isSolution_iff_satisfying within).mpr ⟨size, head, satisfying⟩, rfl⟩

theorem compatible_iff_satisfying (within : Within n cs as) :
    Compatible cs as ↔ ∃ ns, Satisfying n cs as ns := by
  rw [compatible_iff_isSolution within]
  constructor
  next =>
    rintro ⟨a, solves⟩
    exact ⟨a.numbers, ((isSolution_iff_satisfying within).mp solves).2.2⟩
  next =>
    rintro ⟨ns, satisfying⟩
    obtain ⟨a, solves, -⟩ := exists_solution_numbers within satisfying
    exact ⟨a, solves⟩

namespace CommandLine

open Job Session Replay

def Line.solution? : Line → Option Assignment
  | .solution a => some a
  | _ => none

theorem Line.solution?_ofMessage (m : Message) : (Line.ofMessage m).solution? = none := by
  unfold ofMessage
  split <;> rfl

variable {α β : Type} {T : Toolkit} {S : Cnf.Solver} {limit : Nat} {w : Surroundings} {p : Progress}

namespace Progress

def solutions (p : Progress) : List Assignment := p.lines.filterMap Line.solution?

theorem solutions_tell {l : Line} (other : l.solution? = none) :
    (p.tell l).solutions = p.solutions := List.filterMap_cons_none other

theorem solutions_listen (p : Progress) (s : Session Replay.State) :
    (p.listen s).solutions = p.solutions := by
  have silent : (s.engine.messages.map Line.ofMessage).filterMap Line.solution? = [] := by
    simp [Line.solution?_ofMessage]
  rw [solutions, listen, List.filterMap_append, silent, List.nil_append, solutions]

theorem solutions_answers (p : Progress) : p.answers.filterMap Line.solution? = p.solutions := by
  rw [answers, solutions, List.filterMap_filter]
  refine List.filterMap_congr fun l _ => ?_
  cases l with
  | solution a => rfl
  | _ => exact ite_self none

end Progress

namespace Job

def Mute (x : Job α) : Prop := ∀ p, (x p).2.solutions = p.solutions

theorem Mute.bind {x : Job α} {f : α → Job β} (mute : Mute x) (later : ∀ a, Mute (f a)) :
    Mute (x >>= f) := by
  intro p
  have before := mute p
  rw [Step.bind_apply]
  rcases ended : x p with ⟨a | m | e, q⟩
  · rw [ended] at before
    exact (later a q).trans before
  · rwa [ended] at before
  · rwa [ended] at before

theorem Mute.after {f : α → Job β} (later : ∀ a, Mute (f a)) (x : Job α) (p : Progress) :
    ((x >>= f) p).2.solutions = (x p).2.solutions := by
  rw [Step.bind_apply]
  rcases x p with ⟨a | m | e, q⟩
  · exact later a q
  · rfl
  · rfl

theorem mute_pure (a : α) : Mute (pure a : Job α) := fun _ => rfl

theorem mute_fail (m : String) : Mute (Step.fail m : Job α) := fun _ => rfl

theorem mute_say {l : Line} (other : l.solution? = none) : Mute (say l) :=
  fun _ => Progress.solutions_tell other

theorem mute_note (text : String) : Mute (note text) := mute_say rfl

theorem mute_ask (x : Op Replay.State α) : Mute (ask x) :=
  fun p => p.solutions_listen (x p.session).2

end Job

open Progress

theorem mute_saveReport (E : Engine Replay.State) (w : Surroundings) (k : ReportKind)
    (name : String) : Mute (saveReport E w k name) := by
  refine (mute_note _).bind fun _ => ?_
  cases w.refusal name with
  | some m => exact mute_fail m
  | none => exact fun p => solutions_listen p _

theorem mute_saveReports (E : Engine Replay.State) (w : Surroundings) (a : Arguments) :
    Mute (saveReports E w a) := by
  unfold saveReports
  induction a.requests with
  | nil => exact mute_pure ()
  | cons r rs ih => exact (mute_saveReport E w _ _).bind fun _ => ih

theorem mute_showFailedAssumptions (E : Engine Replay.State) (ls : List Lit) :
    Mute (showFailedAssumptions E ls) := by
  cases ls with
  | nil => exact mute_pure ()
  | cons l ls => exact (mute_ask _).bind fun _ => mute_say rfl

theorem mute_closeSession (E : Engine Replay.State) : Mute (closeSession E) :=
  Mute.bind (fun _ => rfl) fun _ => mute_say rfl

/-- What a run shows of the solutions over `n` variables. The assumptions are those of its first
solve call, and the limit is that of all calls. -/
structure Displays (n : Nat) (cs : List Clause) (as : List Lit) (limit : Nat)
    (shown : List Assignment) : Prop where
  distinct : shown.Nodup
  solve : ∀ a ∈ shown, isSolution cs [] n a = true
  first : ∀ a, shown.head? = some a → isSolution cs as n a = true
  decided : limit = 0 → (shown ≠ [] ↔ Compatible cs as)

theorem incompatible_of_none (correct : S.Correct) {s : Session Replay.State} {n : Nat}
    (live : s.Live S limit) (none : (s.engine.verdict S).solution? n = none)
    (unlimited : limit = 0) : ¬Compatible s.engine.formula.clauses s.engine.pending := by
  cases verdict : s.engine.verdict S with
  | model lits =>
    rw [verdict] at none
    cases none
  | refuted failed => exact correct.refutes verdict
  | exhausted =>
    unfold State.verdict at verdict
    rw [live.sound.engine.limited, unlimited] at verdict
    exact absurd verdict correct.decides

variable (limit) in
structure Tells (s : Session Replay.State) (solutions shown rest : List Assignment) : Prop where
  shared : (shown ++ rest).Perm solutions
  first : ∀ a, shown.head? = some a →
    isSolution s.engine.formula.clauses s.engine.pending s.engine.varCount a = true
  complete : limit = 0 →
    rest = [] ∨ shown = [] ∧ ¬Compatible s.engine.formula.clauses s.engine.pending

theorem Tells.none_left {s : Session Replay.State} {solutions shown rest : List Assignment}
    (tells : Tells limit s solutions shown rest) (remaining : Remaining S limit solutions s)
    (unassuming : s.engine.pending = []) (unlimited : limit = 0) : rest = [] := by
  rcases tells.complete unlimited with none | ⟨-, refuted⟩
  · exact none
  · refine List.eq_nil_iff_forall_not_mem.mpr fun a member => refuted ?_
    have solution : a ∈ solutions := tells.shared.subset (List.mem_append_right shown member)
    rw [unassuming]
    exact (compatible_iff_isSolution remaining.sound.engine.within.free).mpr
      ⟨a, (remaining.exact a).mp solution⟩

theorem showSolutions_tells (correct : S.Correct) {solutions : List Assignment}
    (remaining : Remaining S limit solutions p.session) {fuel : Nat}
    (enough : solutions.length < fuel) (count : Nat) :
    ∃ shown rest, (showSolutions (Replay.engine S) fuel count p).2.solutions =
      shown.reverse ++ p.solutions ∧ Tells limit p.session solutions shown rest := by
  induction fuel generalizing p solutions count with
  | zero => exact absurd enough (Nat.not_lt_zero _)
  | succ fuel ih =>
    cases found : (p.session.engine.verdict S).solution? p.session.engine.varCount with
    | none =>
      obtain ⟨t, next, -⟩ := remaining.nextSolution
      rw [found] at next
      refine ⟨[], solutions, ?_, List.Perm.refl _, by simp, fun unlimited => .inr ⟨rfl, ?_⟩⟩
      · rw [showSolutions_ended next]
        exact solutions_listen p t
      · exact incompatible_of_none correct remaining.toLive found unlimited
    | some a =>
      obtain ⟨lits, verdict, -⟩ := Cnf.Verdict.model_of_solution? found
      obtain ⟨a, t, next, mem, solves, fewer, unassuming, -⟩ :=
        nextSolution_found remaining correct verdict
      obtain ⟨q, session, lines, step⟩ := showSolutions_found next count
      have later : Remaining S limit (solutions.erase a) q.session := by
        rw [session]
        exact ⟨fewer.silent [], fewer.distinct, fewer.exact⟩
      have free : q.session.engine.pending = [] := by
        rw [session]
        exact (State.pending_messages t.engine []).trans unassuming
      have told : q.solutions = a :: p.solutions := by
        rw [Progress.solutions, lines, ← solutions_listen p t]
        by_cases begun : count = 0
        next =>
          rw [if_pos begun]
          rfl
        next =>
          rw [if_neg begun]
          rfl
      have shorter := List.length_erase_of_mem mem
      have positive := List.length_pos_of_mem mem
      obtain ⟨shown, rest, more, tells⟩ := ih later (by omega) (count + 1)
      refine ⟨a :: shown, rest, ?_, ?_⟩
      · rw [step, more, told, List.reverse_cons, List.append_assoc, List.singleton_append]
      constructor
      next => exact (tells.shared.cons a).trans (List.perm_cons_erase mem).symm
      next =>
        intro b head
        obtain rfl := Option.some.inj head
        exact solves
      next => exact fun unlimited => .inl (tells.none_left later free unlimited)

theorem Tells.displays {s : Session Replay.State} {solutions shown rest : List Assignment}
    (tells : Tells limit s solutions shown rest) (remaining : Remaining S limit solutions s) :
    Displays s.engine.varCount s.engine.formula.clauses s.engine.pending limit shown where
  distinct := (List.nodup_append.mp (tells.shared.symm.nodup remaining.distinct)).1
  solve a member := (remaining.exact a).mp (tells.shared.subset (List.mem_append_left rest member))
  first := tells.first
  decided unlimited := by
    have within := remaining.sound.engine.within
    constructor
    next =>
      intro nonempty
      cases shown with
      | nil => exact absurd rfl nonempty
      | cons a shown =>
        exact (compatible_iff_isSolution within).mpr ⟨a, tells.first a rfl⟩
    next =>
      rintro compatible rfl
      have none : rest = [] := (tells.complete unlimited).resolve_right fun h => h.2 compatible
      obtain ⟨a, solves⟩ := (compatible_iff_isSolution within.free).mp
        (compatible.mono (List.nil_subset _))
      have member := tells.shared.symm.subset ((remaining.exact a).mpr solves)
      simp [none] at member

theorem Tells.all {s : Session Replay.State} {solutions shown rest : List Assignment}
    (tells : Tells limit s solutions shown rest) (remaining : Remaining S limit solutions s)
    (unlimited : limit = 0) (nonempty : shown ≠ []) {a : Assignment}
    (solves : isSolution s.engine.formula.clauses [] s.engine.varCount a = true) : a ∈ shown := by
  have none : rest = [] := (tells.complete unlimited).resolve_right fun h => nonempty h.1
  have member := tells.shared.symm.subset ((remaining.exact a).mpr solves)
  rwa [none, List.append_nil] at member

theorem enumerate_displays (correct : S.Correct) (live : p.session.Live S limit) :
    ∃ shown, (enumerate (Replay.engine S) p).2.solutions = shown.reverse ++ p.solutions ∧
      Displays p.session.engine.varCount p.session.engine.formula.clauses p.session.engine.pending
        limit shown ∧
      (limit = 0 → shown ≠ [] → ∀ a, isSolution p.session.engine.formula.clauses []
        p.session.engine.varCount a = true → a ∈ shown) := by
  obtain ⟨solutions, distinct, exact⟩ :=
    exists_solutions p.session.engine.formula.clauses [] p.session.engine.varCount
  have few := length_solutions_le distinct fun a member => (exact a).mp member
  have remaining : Remaining S limit solutions (p.listen p.session).session :=
    ⟨live.silent [], distinct, exact⟩
  obtain ⟨shown, rest, told, tells⟩ :=
    showSolutions_tells correct remaining (Nat.lt_succ_of_le few) 0
  have pending : (p.listen p.session).session.engine.pending = p.session.engine.pending :=
    State.pending_messages p.session.engine []
  refine ⟨shown, ?_, pending ▸ tells.displays remaining, fun unlimited nonempty a solves => ?_⟩
  · rw [enumerate, Step.bind_ok (ask_ok live.varCount)]
    refine (Mute.after (fun count => ?_) _ _).trans (told.trans ?_)
    · refine (mute_note _).bind fun _ => ?_
      split
      · exact mute_pure _
      · refine (mute_ask _).bind fun status => ?_
        cases status with
        | none => exact mute_fail _
        | some status => exact (mute_say rfl).bind fun _ => mute_pure status
    · rw [solutions_listen]
  · exact tells.all remaining unlimited nonempty solves

theorem solveOnce_displays (correct : S.Correct) (live : p.session.Live S limit) :
    ∃ shown, (solveOnce (Replay.engine S) p).2.solutions = shown.reverse ++ p.solutions ∧
      Displays p.session.engine.varCount p.session.engine.formula.clauses p.session.engine.pending
        limit shown ∧ shown.length ≤ 1 := by
  have within := live.sound.engine.within
  obtain ⟨t, solved, -⟩ := live.solve
  have heard := solutions_listen p t
  rw [solveOnce, Step.bind_ok (ask_ok solved)]
  cases found : (p.session.engine.verdict S).solution? p.session.engine.varCount with
  | none =>
    refine ⟨[], heard, ⟨List.nodup_nil, by simp, by simp, fun unlimited => ?_⟩, Nat.zero_le 1⟩
    have refuted := incompatible_of_none correct live found unlimited
    exact iff_of_false (fun nonempty => nonempty rfl) refuted
  | some a =>
    obtain ⟨lits, verdict, rfl⟩ := Cnf.Verdict.model_of_solution? found
    obtain ⟨consistent, covers, assumed⟩ := correct.model_covers verdict
    let a := Assignment.ofModel p.session.engine.varCount lits
    have solves : isSolution p.session.engine.formula.clauses p.session.engine.pending
        p.session.engine.varCount a = true := isSolution_ofModel within consistent covers assumed
    have free : isSolution p.session.engine.formula.clauses [] p.session.engine.varCount a = true :=
      isSolution_ofModel within.free consistent covers (by simp)
    refine ⟨[a], congrArg (a :: ·) heard, ⟨List.nodup_singleton a, ?_, ?_, fun _ => ?_⟩,
      Nat.le_refl 1⟩
    · intro b member
      exact List.mem_singleton.mp member ▸ free
    · intro b head
      exact Option.some.inj head ▸ solves
    · exact iff_of_true (List.cons_ne_nil a []) ((compatible_iff_isSolution within).mpr ⟨a, solves⟩)

theorem showAnswers_displays (correct : S.Correct) (live : p.session.Live S limit) (a : Arguments) :
    ∃ shown, (showAnswers (Replay.engine S) a p).2.solutions = shown.reverse ++ p.solutions ∧
      Displays p.session.engine.varCount p.session.engine.formula.clauses p.session.engine.pending
        limit shown ∧
      (a.all = false → shown.length ≤ 1) ∧
      (a.all = true → limit = 0 → shown ≠ [] → ∀ x, isSolution p.session.engine.formula.clauses []
        p.session.engine.varCount x = true → x ∈ shown) := by
  unfold showAnswers
  cases a.all with
  | true =>
    obtain ⟨shown, told, displays, all⟩ := enumerate_displays correct live
    exact ⟨shown, told, displays, by simp, fun _ => all⟩
  | false =>
    obtain ⟨shown, told, displays, single⟩ := solveOnce_displays correct live
    exact ⟨shown, told, displays, fun _ => single, by simp⟩

structure Posed (F : Config.Format) (w : Surroundings) (a : Arguments) (config : Config)
    (ls : List Lit) (f : Formula) : Prop where
  configured : loadConfig F w a = .ok config
  assumed : a.assumptions.mapM assumedLit = .ok ls
  read : inputFormula w a = .ok f

theorem job_displays (correct : S.Correct) {words : List String} {a : Arguments} {config : Config}
    {ls : List Lit} {f : Formula} (request : T.request words = .ok (.run a))
    (posed : Posed T.format w a config ls f) :
    ∃ shown, (job T.format S w a .start).2.solutions = shown.reverse ∧
      Displays (Clause.maxVar (f.clauses.flatten ++ ls)) f.clauses ls config.propagationLimit
        shown ∧
      (a.all = false → shown.length ≤ 1) ∧
      (a.all = true → config.propagationLimit = 0 → shown ≠ [] → ∀ x, isSolution f.clauses []
        (Clause.maxVar (f.clauses.flatten ++ ls)) x = true → x ∈ shown) := by
  -- Whether reports can be written makes no difference to what comes before them.
  let writable : Surroundings := { w with refusal := fun _ => none }
  have accepted : Accepted T writable words a config ls f :=
    ⟨request, posed.configured, posed.assumed, posed.read, fun _ _ => rfl⟩
  obtain ⟨p, prepared, live, -, -, unanswered, poses⟩ := prepare_poses (S := S) accepted
  have prepared : prepare T.format (Replay.engine S) w a .start = (.ok ls, p) := prepared
  have silent : p.solutions = [] := by
    rw [← solutions_answers, unanswered]
    rfl
  obtain ⟨shown, told, displays, single, all⟩ := showAnswers_displays correct live a
  rw [poses.clauses, poses.spans] at displays all
  rw [poses.pending] at displays
  refine ⟨shown, ?_, displays, single, all⟩
  have decided : (decideStatus T.format S w a .start).2.solutions = shown.reverse := by
    unfold decideStatus
    dsimp only
    rw [Step.bind_ok prepared]
    refine (Mute.after (fun status => ?_) _ _).trans (told.trans (by rw [silent, List.append_nil]))
    split
    next => exact (mute_showFailedAssumptions _ ls).bind fun _ => mute_pure status
    next => exact (mute_pure ()).bind fun _ => mute_pure status
  refine (Mute.after (fun status => ?_) _ _).trans decided
  have closing : Mute (do say .solveTime; closeSession (Replay.engine S); pure status) :=
    (mute_say rfl).bind fun _ => (mute_closeSession _).bind fun _ => mute_pure status
  split
  next => exact (mute_saveReports _ w a).bind fun _ => closing
  next => exact (mute_pure ()).bind fun _ => closing

theorem ofExcept_error {x : Except String α} {m : String} (failed : x = .error m) :
    ofExcept x p = (.error m, p) := by
  rw [failed]
  rfl

theorem readFormula_error {a : Arguments} {m : String} (failed : inputFormula w a = .error m) :
    ∃ q, readFormula w a p = (.error m, q) := by
  unfold inputFormula at failed
  unfold readFormula
  cases given : a.input with
  | some name =>
    rw [given] at failed
    exact ⟨_, (Step.bind_ok (note_ok _) _).trans (ofExcept_error failed)⟩
  | none =>
    rw [given] at failed
    exact ⟨_, (Step.bind_ok (note_ok _) _).trans (ofExcept_error failed)⟩

theorem posed_of_prepare (F : Config.Format) (E : Engine Replay.State) {a : Arguments}
    (succeeds : ∀ m q, prepare F E w a .start ≠ (.error m, q)) :
    ∃ config ls f, Posed F w a config ls f := by
  unfold prepare at succeeds
  rw [Step.bind_ok (note_ok _)] at succeeds
  cases configured : loadConfig F w a with
  | error m => exact absurd (Step.bind_error (ofExcept_error configured) _) (succeeds m _)
  | ok config =>
    rw [Step.bind_ok (ofExcept_ok configured)] at succeeds
    cases assumed : a.assumptions.mapM assumedLit with
    | error m => exact absurd (Step.bind_error (ofExcept_error assumed) _) (succeeds m _)
    | ok ls =>
      rw [Step.bind_ok (ofExcept_ok assumed)] at succeeds
      cases read : inputFormula w a with
      | error m =>
        obtain ⟨q, failed⟩ := readFormula_error read
        exact absurd (Step.bind_error failed _) (succeeds m q)
      | ok f => exact ⟨config, ls, f, configured, assumed, read⟩

def Transcript.printed (t : Transcript) : List (List Int) :=
  t.lines.filterMap fun l => l.solution?.map Assignment.numbers

theorem printed_reverse (p : Progress) (files : List (String × Bytes)) (code : Nat) :
    (Transcript.mk p.lines.reverse files code).printed =
      p.solutions.reverse.map Assignment.numbers := by
  rw [Transcript.printed, Progress.solutions, ← List.filterMap_reverse, List.map_filterMap]

theorem printed_transcript (ended : Outcome String Status × Progress) :
    (transcript ended).printed = ended.2.solutions.reverse.map Assignment.numbers := by
  obtain ⟨status | m | e, p⟩ := ended
  · exact printed_reverse p _ _
  · have failed := printed_reverse (p.tell (.record .program .error m)) p.files 1
    rwa [solutions_tell rfl] at failed
  · exact printed_reverse p _ _

theorem posed_of_run {words : List String} {a : Arguments}
    (request : T.request words = .ok (.run a)) (ended : (run T S w words).exitCode ≠ 1) :
    ∃ config ls f, Posed T.format w a config ls f := by
  refine posed_of_prepare T.format (Replay.engine S) fun m q failed => ended ?_
  have undecided : decideStatus T.format S w a .start = (.error m, q) := Step.bind_error failed _
  have stopped : job T.format S w a .start = (.error m, q) := Step.bind_error undecided _
  rw [run, request]
  simp only [solveFormula, stopped]
  rfl

section Numbers

variable {n : Nat} {cs : List Clause} {as : List Lit} {shown : List Assignment}

theorem Displays.satisfying (displays : Displays n cs as limit shown) (within : Within n cs as)
    {a : Assignment} (member : a ∈ shown) :
    a.size = n + 1 ∧ a.slots[0]? = some false ∧ Satisfying n cs [] a.numbers :=
  (isSolution_iff_satisfying within.free).mp (displays.solve a member)

theorem Displays.distinct_numbers (displays : Displays n cs as limit shown)
    (within : Within n cs as) : (shown.map Assignment.numbers).Nodup := by
  refine List.Nodup.map_on (fun a ha b hb same => ?_) displays.distinct
  obtain ⟨-, head, -⟩ := displays.satisfying within ha
  obtain ⟨-, head', -⟩ := displays.satisfying within hb
  exact Assignment.eq_of_numbers (head.trans head'.symm) same

theorem Displays.first_numbers (displays : Displays n cs as limit shown) (within : Within n cs as)
    {ns : List Int} (head : (shown.map Assignment.numbers).head? = some ns) :
    Satisfying n cs as ns := by
  rw [List.head?_map, Option.map_eq_some_iff] at head
  obtain ⟨a, first, rfl⟩ := head
  exact ((isSolution_iff_satisfying within).mp (displays.first a first)).2.2

end Numbers

/-- A run that ends without an error prints solutions of its clauses over the variables of the
clauses and assumptions, none of them twice. The assumptions hold in the first: they decide whether
there is one, and if it is followed by all others these need not agree with them. -/
theorem solutions_printed {T : Toolkit} {S : Cnf.Solver} (correct : S.Correct) {w : Surroundings}
    {words : List String} {a : Arguments} (request : T.request words = .ok (.run a))
    (ended : (run T S w words).exitCode ≠ 1) :
    ∃ config ls f, Posed T.format w a config ls f ∧
      let n := Clause.maxVar (f.clauses.flatten ++ ls)
      let printed := (run T S w words).printed
      printed.Nodup ∧ (∀ ns ∈ printed, Satisfying n f.clauses [] ns) ∧
      (∀ ns, printed.head? = some ns → Satisfying n f.clauses ls ns) ∧
      (a.all = false → printed.length ≤ 1) ∧
      (config.propagationLimit = 0 → (printed ≠ [] ↔ ∃ ns, Satisfying n f.clauses ls ns)) ∧
      (a.all = true → config.propagationLimit = 0 → printed ≠ [] →
        ∀ ns, ns ∈ printed ↔ Satisfying n f.clauses [] ns) := by
  obtain ⟨config, ls, f, posed⟩ := posed_of_run request ended
  obtain ⟨shown, told, displays, single, all⟩ := job_displays correct request posed
  have transcribed : (run T S w words).printed = shown.map Assignment.numbers := by
    rw [run, request]
    simp only [solveFormula]
    rw [printed_transcript, told, List.reverse_reverse]
  refine ⟨config, ls, f, posed, ?_⟩
  intro n printed
  have within : Within n f.clauses ls := by
    have bound := Clause.maxVar_le_iff.mp (Nat.le_refl n)
    exact ⟨fun c hc l hl => bound l (List.mem_append_left _ (List.mem_flatten_of_mem hc hl)),
      fun l hl => bound l (List.mem_append_right _ hl)⟩
  have numbers : printed = shown.map Assignment.numbers := transcribed
  have nonempty : printed ≠ [] ↔ shown ≠ [] := by
    rw [numbers, ne_eq, List.map_eq_nil_iff]
  have sound (ns : List Int) (member : ns ∈ printed) : Satisfying n f.clauses [] ns := by
    rw [numbers, List.mem_map] at member
    obtain ⟨x, mem, rfl⟩ := member
    exact (displays.satisfying within mem).2.2
  refine ⟨numbers ▸ displays.distinct_numbers within, sound, ?_, ?_, ?_, ?_⟩
  · intro ns head
    exact displays.first_numbers within (numbers ▸ head)
  · intro once
    rw [numbers, List.length_map]
    exact single once
  · intro unlimited
    rw [nonempty, displays.decided unlimited, compatible_iff_satisfying within]
  · intro every unlimited some' ns
    refine ⟨sound ns, fun satisfying => ?_⟩
    obtain ⟨x, solves, rfl⟩ := exists_solution_numbers within.free satisfying
    rw [numbers]
    exact List.mem_map_of_mem (all every unlimited (nonempty.mp some') x solves)

def unitInput : Surroundings where
  read _ := .error ""
  input := Bytes.ofString "1 0"
  refusal _ := none

-- An assumption about variable 2 does not hold in the second line.
theorem assumption_first_only : ¬∀ (w : Surroundings) (words : List String) (a : Arguments)
    (config : Config) (ls : List Lit) (f : Formula),
    toolkit.request words = .ok (.run a) → (run toolkit Cnf.Search.solver w words).exitCode ≠ 1 →
    Posed toolkit.format w a config ls f → ∀ ns ∈ (run toolkit Cnf.Search.solver w words).printed,
      Satisfying (Clause.maxVar (f.clauses.flatten ++ ls)) f.clauses ls ns := by
  intro claim
  have ended : (run toolkit Cnf.Search.solver unitInput ["--all", "-a", "2"]).exitCode ≠ 1 := by
    decide +kernel
  have request : toolkit.request ["--all", "-a", "2"] =
      .ok (.run { assumptions := ["2"], all := true }) := by decide +kernel
  have assumed : ["2"].mapM assumedLit = .ok [⟨2, by decide, by decide⟩] := by decide +kernel
  obtain ⟨config, ls, f, posed⟩ := posed_of_run request ended
  obtain rfl := Except.ok.inj (assumed.symm.trans posed.assumed)
  have every := claim unitInput _ _ config _ f request ended posed [1, -2] (by decide +kernel)
  exact absurd (every.assumptions _ List.mem_cons_self) (by decide)

theorem unit_solutions_printed : ∃ config ls f,
    Posed toolkit.format unitInput { assumptions := ["2"], all := true } config ls f ∧
      (run toolkit Cnf.Search.solver unitInput ["--all", "-a", "2"]).printed = [[1, 2], [1, -2]] ∧
      Satisfying (Clause.maxVar (f.clauses.flatten ++ ls)) f.clauses ls [1, 2] ∧
      Satisfying (Clause.maxVar (f.clauses.flatten ++ ls)) f.clauses [] [1, -2] := by
  have printed : (run toolkit Cnf.Search.solver unitInput ["--all", "-a", "2"]).printed =
      [[1, 2], [1, -2]] := by decide +kernel
  have ended : (run toolkit Cnf.Search.solver unitInput ["--all", "-a", "2"]).exitCode ≠ 1 := by
    decide +kernel
  have request : toolkit.request ["--all", "-a", "2"] =
      .ok (.run { assumptions := ["2"], all := true }) := by decide +kernel
  obtain ⟨config, ls, f, posed, -, sound, first, -⟩ :=
    solutions_printed Cnf.Search.solver_correct request ended
  rw [printed] at sound first
  exact ⟨config, ls, f, posed, printed, first [1, 2] rfl, sound [1, -2] (by simp)⟩

end CommandLine

end SatSession
