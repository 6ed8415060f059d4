import SatSession.Proofs.Answering
import SatSession.Proofs.Enumeration
import SatSession.Proofs.Invocation

set_option autoImplicit false

namespace SatSession.CommandLine

open Job Session Replay

def Line.isAnswer : Line → Bool
  | .status _ | .solution _ | .failedAssumptions _ => true
  | .record .program .error _ => true
  | _ => false

theorem Line.isAnswer_ofMessage (m : Message) : (Line.ofMessage m).isAnswer = false := by
  unfold ofMessage
  split <;> rfl

variable {α : Type} {T : Toolkit} {S : Cnf.Solver} {limit : Nat} {w : Surroundings} {p q r : Progress}
  {ls ms : List Line}

namespace Progress

def answers (p : Progress) : List Line := p.lines.filter (·.isAnswer)

def tell (p : Progress) (l : Line) : Progress := { p with lines := l :: p.lines }

@[simp] theorem tell_session (p : Progress) (l : Line) : (p.tell l).session = p.session := rfl

theorem answers_remark {l : Line} (other : l.isAnswer = false) :
    (p.tell l).answers = p.answers := List.filter_cons_of_neg (ne_true_of_eq_false other)

theorem answers_listen (p : Progress) (s : Session Replay.State) :
    (p.listen s).answers = p.answers := by
  have silent : (s.engine.messages.map Line.ofMessage).filter (·.isAnswer) = [] := by
    simp [List.filter_eq_nil_iff, Line.isAnswer_ofMessage]
  rw [answers, listen, List.filter_append, silent, List.nil_append, answers]

variable (S limit) in
structure Shows (p : Progress) (ls : List Line) (q : Progress) : Prop where
  live : q.session.Live S limit
  tracing : q.session.tracing = p.session.tracing
  files : q.files = p.files
  answers : q.answers = ls.reverse ++ p.answers

theorem Shows.trans (first : p.Shows S limit ls q) (second : q.Shows S limit ms r) :
    p.Shows S limit (ls ++ ms) r where
  live := second.live
  tracing := second.tracing.trans first.tracing
  files := second.files.trans first.files
  answers := by rw [second.answers, first.answers, List.reverse_append, List.append_assoc]

theorem shows_nothing (live : p.session.Live S limit) : p.Shows S limit [] p :=
  ⟨live, rfl, rfl, rfl⟩

theorem Shows.hear (shows : p.Shows S limit ls q) {s : Session Replay.State}
    (live : s.Live S limit) (tracing : s.tracing = q.session.tracing) :
    p.Shows S limit ls (q.listen s) :=
  ⟨live.silent [], tracing.trans shows.tracing, shows.files,
    (answers_listen q s).trans shows.answers⟩

theorem Shows.tell (shows : p.Shows S limit ls q) {l : Line} (answer : l.isAnswer = true) :
    p.Shows S limit (ls ++ [l]) (q.tell l) :=
  shows.trans ⟨shows.live, rfl, rfl, List.filter_cons_of_pos answer⟩

theorem Shows.remark (shows : p.Shows S limit ls q) {l : Line} (other : l.isAnswer = false) :
    p.Shows S limit ls (q.tell l) :=
  ⟨shows.live, shows.tracing, shows.files, (answers_remark other).trans shows.answers⟩

end Progress

open Progress

theorem note_ok (text : String) :
    note text p = (.ok (), p.tell (.record .program .info text)) := rfl

theorem ask_ok {x : Op Replay.State α} {a : α} {s : Session Replay.State}
    (done : x p.session = (.ok a, s)) : ask x p = (.ok a, p.listen s) := by
  rw [ask, done]
  rfl

variable (S limit) in
structure Answers (p : Progress) (status : Status) (found : List Assignment) (q : Progress) :
    Prop extends p.Shows S limit (.status status :: found.map .solution) q where
  solved : found ≠ [] ↔ status = .satisfiable
  isOpen : status = .unsatisfiable → q.session.state.windowOpen = true

theorem isOpen_solved {s t : Session Replay.State} {status : Status}
    (state : t.state = s.state.next (.solved status)) (refuted : status = .unsatisfiable) :
    t.state.windowOpen = true := by
  rw [state, SolveState.windowOpen_next, refuted]
  rfl

theorem solveOnce_answers (live : p.session.Live S limit) :
    ∃ found q, solveOnce (Replay.engine S) p = (.ok (p.session.engine.verdict S).status, q) ∧
      Answers S limit p (p.session.engine.verdict S).status found q ∧ found.length ≤ 1 := by
  obtain ⟨s, solved, after, tracing, state⟩ := live.solve
  have kind := (p.session.engine.verdict S).isSome_solution? p.session.engine.varCount
  have shown := ((shows_nothing live).hear after tracing).tell
    (l := .status (p.session.engine.verdict S).status) rfl
  rw [solveOnce, Step.bind_ok (ask_ok solved)]
  cases found : (p.session.engine.verdict S).solution? p.session.engine.varCount with
  | some a =>
    rw [found] at kind
    have both := shown.tell (l := .solution a) rfl
    exact ⟨[a], _, rfl, ⟨both, by simpa using kind, isOpen_solved state⟩, Nat.le_refl 1⟩
  | none =>
    rw [found] at kind
    exact ⟨[], _, rfl, ⟨shown, by simpa using kind, isOpen_solved state⟩, Nat.zero_le 1⟩

theorem showSolutions_more (live : p.session.Live S limit) (fuel : Nat) {count : Nat}
    (begun : count ≠ 0) :
    ∃ (found : List Assignment) (q : Progress),
      showSolutions (Replay.engine S) fuel count p = (.ok (count + found.length), q) ∧
        p.Shows S limit (found.map .solution) q := by
  induction fuel generalizing p count with
  | zero => exact ⟨[], p, rfl, shows_nothing live⟩
  | succ fuel ih =>
    obtain ⟨s, next, after, tracing, _⟩ := live.nextSolution
    have heard := (shows_nothing live).hear after tracing
    rw [showSolutions, Step.bind_ok (ask_ok next)]
    cases (p.session.engine.verdict S).solution? p.session.engine.varCount with
    | none => exact ⟨[], _, rfl, heard⟩
    | some a =>
      have shown := heard.tell (l := .solution a) rfl
      obtain ⟨found, q, rest, shows⟩ := ih shown.live (Nat.succ_ne_zero count)
      refine ⟨a :: found, q, ?_, shown.trans shows⟩
      simp only [begun, if_false]
      rw [List.length_cons, Nat.add_comm found.length, ← Nat.add_assoc]
      exact rest

theorem showSolutions_found {a : Assignment} {t : Session Replay.State}
    (next : Session.nextSolution (Replay.engine S) p.session = (.ok (some a), t)) (count : Nat) :
    ∃ q, q.session = (p.listen t).session ∧
      q.lines = .solution a :: ((if count = 0 then [.status .satisfiable] else []) ++
        (p.listen t).lines) ∧
      ∀ fuel, showSolutions (Replay.engine S) (fuel + 1) count p =
        showSolutions (Replay.engine S) fuel (count + 1) q := by
  by_cases first : count = 0
  next =>
    refine ⟨((p.listen t).tell (.status .satisfiable)).tell (.solution a), rfl, ?_, fun fuel => ?_⟩
    · simp only [first, if_true]
      rfl
    · rw [showSolutions, Step.bind_ok (ask_ok next)]
      simp only [first, if_true]
      rfl
  next =>
    refine ⟨(p.listen t).tell (.solution a), rfl, ?_, fun fuel => ?_⟩
    · simp only [first, if_false]
      rfl
    · rw [showSolutions, Step.bind_ok (ask_ok next)]
      simp only [first, if_false]
      rfl

theorem showSolutions_ended {t : Session Replay.State}
    (next : Session.nextSolution (Replay.engine S) p.session = (.ok none, t)) (fuel count : Nat) :
    showSolutions (Replay.engine S) (fuel + 1) count p = (.ok count, p.listen t) := by
  rw [showSolutions, Step.bind_ok (ask_ok next)]
  rfl

-- Each solution that is shown is one less that is left.
theorem showSolutions_enough (correct : S.Correct) {solutions : List Assignment}
    (remaining : Remaining S limit solutions p.session) {fuel : Nat}
    (enough : solutions.length < fuel) (count : Nat) :
    showSolutions (Replay.engine S) (fuel + 1) count p =
      showSolutions (Replay.engine S) fuel count p := by
  induction fuel generalizing p solutions count with
  | zero => exact absurd enough (Nat.not_lt_zero _)
  | succ fuel ih =>
    cases found : (p.session.engine.verdict S).solution? p.session.engine.varCount with
    | none =>
      obtain ⟨t, next, _⟩ := remaining.nextSolution
      rw [found] at next
      rw [showSolutions_ended next, showSolutions_ended next]
    | some a =>
      obtain ⟨lits, verdict, _⟩ := Cnf.Verdict.model_of_solution? found
      obtain ⟨a, t, next, mem, _, left, _⟩ := nextSolution_found remaining correct verdict
      have shorter := List.length_erase_of_mem mem
      have positive := List.length_pos_of_mem mem
      obtain ⟨q, session, -, step⟩ := showSolutions_found next count
      have later : Remaining S limit (solutions.erase a) q.session := by
        rw [session]
        exact ⟨left.silent [], left.distinct, left.exact⟩
      rw [step, step]
      exact ih later (by omega) (count + 1)

theorem showSolutions_unbounded (correct : S.Correct) (live : p.session.Live S limit) {fuel : Nat}
    (enough : 2 ^ p.session.engine.varCount < fuel) (count : Nat) :
    showSolutions (Replay.engine S) fuel count p =
      showSolutions (Replay.engine S) (2 ^ p.session.engine.varCount + 1) count p := by
  obtain ⟨solutions, distinct, exact⟩ :=
    exists_solutions p.session.engine.formula.clauses [] p.session.engine.varCount
  have few := length_solutions_le distinct fun a mem => (exact a).mp mem
  induction fuel, enough using Nat.le_induction with
  | base => rfl
  | succ fuel more ih =>
    rw [showSolutions_enough correct ⟨live, distinct, exact⟩ (by omega), ih]

theorem showSolutions_first (live : p.session.Live S limit) (fuel : Nat) :
    ∃ (found : List Assignment) (q : Progress),
      showSolutions (Replay.engine S) (fuel + 1) 0 p = (.ok found.length, q) ∧
      (found ≠ [] ↔ (p.session.engine.verdict S).status = .satisfiable) ∧
      (found ≠ [] → p.Shows S limit (.status .satisfiable :: found.map .solution) q) ∧
      (found = [] → p.Shows S limit [] q ∧ q.session.state =
        p.session.state.next (.solved (p.session.engine.verdict S).status)) := by
  obtain ⟨s, next, after, tracing, state⟩ := live.nextSolution
  have kind := (p.session.engine.verdict S).isSome_solution? p.session.engine.varCount
  have heard := (shows_nothing live).hear after tracing
  rw [showSolutions, Step.bind_ok (ask_ok next)]
  cases found : (p.session.engine.verdict S).solution? p.session.engine.varCount with
  | none =>
    rw [found] at kind
    have unsolved : (p.session.engine.verdict S).status ≠ .satisfiable := by simpa using kind
    exact ⟨[], _, rfl, by simpa using kind, absurd rfl, fun _ => ⟨heard, state unsolved⟩⟩
  | some a =>
    rw [found] at kind
    have shown := (heard.tell (l := .status .satisfiable) rfl).tell (l := .solution a) rfl
    obtain ⟨rest, q, more, shows⟩ := showSolutions_more shown.live fuel Nat.one_ne_zero
    refine ⟨a :: rest, q, ?_, by simpa using kind, fun _ => shown.trans shows, fun h => by cases h⟩
    rw [List.length_cons, Nat.add_comm rest.length]
    exact more

theorem enumerate_answers (live : p.session.Live S limit) :
    ∃ found q, enumerate (Replay.engine S) p = (.ok (p.session.engine.verdict S).status, q) ∧
      Answers S limit p (p.session.engine.verdict S).status found q := by
  have heard := (shows_nothing live).hear live rfl
  have counted : ask (Session.varCount (Replay.engine S)) p =
      (.ok p.session.engine.varCount, p.listen p.session) := ask_ok live.varCount
  obtain ⟨found, q, shown, solved, some', none'⟩ :=
    showSolutions_first heard.live (Nat.pow 2 p.session.engine.varCount)
  have same : (p.listen p.session).session.engine.verdict S = p.session.engine.verdict S :=
    State.verdict_messages S _ _
  rw [same] at solved none'
  rw [enumerate, Step.bind_ok counted, Step.bind_ok shown, Step.bind_ok (note_ok _)]
  by_cases nothing : found = []
  · subst nothing
    obtain ⟨shows, state⟩ := none' rfl
    have noted := (heard.trans shows).remark (l := .record .program .info "0 solutions") rfl
    have known : q.session.state.status = some (p.session.engine.verdict S).status := by
      rw [state, SolveState.status_next]
    have asked := ask_ok noted.live.lastStatus
    rw [tell_session, known] at asked
    have last := (noted.hear noted.live rfl).tell
      (l := .status (p.session.engine.verdict S).status) rfl
    exact ⟨[], _, (Step.bind_ok asked _).trans rfl, last, by simpa using solved,
      isOpen_solved state⟩
  · have status := solved.mp nothing
    have shows := (heard.trans (some' nothing)).remark
      (l := .record .program .info (toString found.length ++ " solutions")) rfl
    have positive : 0 < found.length := List.length_pos_iff.mpr nothing
    simp only [positive, if_true]
    rw [status]
    exact ⟨found, _, rfl, shows, by simpa using nothing, by simp⟩

variable (S limit) in
structure Refuted (p : Progress) : Prop where
  live : p.session.Live S limit
  isOpen : p.session.state.windowOpen = true

variable (S) in
/-- Reports that a session writes one after the other without an error, and their files. -/
inductive Reported : Session Replay.State → List (ReportKind × String) → List (String × Bytes) →
    Session Replay.State → Prop
  | none (s : Session Replay.State) : Reported s [] [] s
  | next {s t u : Session Replay.State} {k : ReportKind} {d : Destination} {name : String}
      {rs : List (ReportKind × String)} {fs : List (String × Bytes)}
      (written : Session.writeReport (Replay.engine S) k {} s = ((.ok (), d), t))
      (rest : Reported { t with engine := { t.engine with messages := [] } } rs fs u) :
      Reported s ((k, name) :: rs) ((name, d.received) :: fs) u

theorem Reported.names {s u : Session Replay.State} {rs : List (ReportKind × String)}
    {fs : List (String × Bytes)} (reported : Reported S s rs fs u) :
    fs.map Prod.fst = rs.map Prod.snd := by
  induction reported with
  | none => rfl
  | next _ _ ih => exact congrArg _ ih

variable (S limit) in
structure Saves (p : Progress) (rs : List (ReportKind × String)) (q : Progress) : Prop where
  refuted : Refuted S limit q
  answers : q.answers = p.answers
  reported : ∃ fs, q.files = p.files ++ fs ∧ Reported S p.session rs fs q.session

theorem showFailedAssumptions_shows (live : p.session.Live S limit) (assumptions : List Lit) :
    ∃ failed q, showFailedAssumptions (Replay.engine S) assumptions p = (.ok (), q) ∧
      p.Shows S limit (if assumptions = [] then [] else [.failedAssumptions failed]) q ∧
      q.session.state = p.session.state := by
  obtain ⟨failed, calls, found⟩ := live.failedAssumptions
  cases assumptions with
  | nil => exact ⟨failed, p, rfl, shows_nothing live, rfl⟩
  | cons l ls =>
    have heard := (shows_nothing live).hear (live.charged calls) rfl
    refine ⟨failed, _, ?_, heard.tell (l := .failedAssumptions failed) rfl, rfl⟩
    exact Step.bind_ok (ask_ok found) _

theorem saveReport_saves (refuted : Refuted S limit p) (correct : S.Correct) {k : ReportKind}
    (kind : k ≠ .formula) {name : String} (tracing : p.session.tracing = true)
    (writable : w.refusal name = none) :
    ∃ d q, saveReport (Replay.engine S) w k name p = (.ok (), q) ∧ Refuted S limit q ∧
      q.session.tracing = true ∧ q.answers = p.answers ∧ q.files = p.files ++ [(name, d.received)] ∧
      ∃ t, Session.writeReport (Replay.engine S) k {} p.session = ((.ok (), d), t) ∧
        q.session = { t with engine := { t.engine with messages := [] } } := by
  obtain ⟨d, t, written, live, kept, state⟩ :=
    refuted.live.writeReport correct tracing refuted.isOpen kind
  have noted := (shows_nothing refuted.live).remark
    (l := .record .program .info ("Writing " ++ reportTitle k ++ " to file '" ++ name ++ "'")) rfl
  have heard := noted.hear live kept
  refine ⟨d, { (p.tell _).listen t with files := p.files ++ [(name, d.received)] }, ?_,
    ⟨heard.live, state ▸ refuted.isOpen⟩, kept.trans tracing, heard.answers, rfl, t, written, rfl⟩
  rw [saveReport, Step.bind_ok (note_ok _)]
  simp only [writable, tell_session, written]
  rfl

theorem saveAll_saves (refuted : Refuted S limit p) (correct : S.Correct)
    {rs : List (ReportKind × String)} (kinds : ∀ r ∈ rs, r.1 ≠ .formula)
    (traced : rs ≠ [] → p.session.tracing = true) (writable : ∀ r ∈ rs, w.refusal r.2 = none) :
    ∃ q, (rs.forM fun r => saveReport (Replay.engine S) w r.1 r.2) p = (.ok (), q) ∧
      Saves S limit p rs q := by
  induction rs generalizing p with
  | nil => exact ⟨p, rfl, refuted, rfl, [], (List.append_nil _).symm, .none _⟩
  | cons r rs ih =>
    rw [List.forall_mem_cons] at kinds writable
    obtain ⟨d, q, saved, open', tracing, answers, files, t, written, session⟩ :=
      saveReport_saves refuted correct kinds.1 (traced (List.cons_ne_nil r rs)) writable.1
    obtain ⟨u, more, saves⟩ := ih open' kinds.2 (fun _ => tracing) writable.2
    obtain ⟨fs, added, reported⟩ := saves.reported
    refine ⟨u, (Step.bind_ok saved _).trans more, saves.refuted, saves.answers.trans answers,
      _ :: fs, ?_, .next written (session ▸ reported)⟩
    rw [added, files, List.append_assoc, List.singleton_append]

theorem Arguments.kind_of_mem_requests {a : Arguments} {r : ReportKind × String}
    (member : r ∈ a.requests) : r.1 ≠ .formula := by
  simp only [requests, List.mem_append, List.mem_map] at member
  obtain (⟨_, -, rfl⟩ | ⟨_, -, rfl⟩) | ⟨_, -, rfl⟩ := member <;> simp

def inputFormula (w : Surroundings) (a : Arguments) : Except String Formula :=
  match a.input with
  | some name => do parseFormula (← w.read name)
  | none => parseFormula w.input

/-- A run whose arguments, options, assumptions and input are as they should be, and whose files
can be written. -/
structure Accepted (T : Toolkit) (w : Surroundings) (words : List String) (a : Arguments)
    (config : Config) (assumptions : List Lit) (formula : Formula) : Prop where
  request : T.request words = .ok (.run a)
  configured : loadConfig T.format w a = .ok config
  assumed : a.assumptions.mapM assumedLit = .ok assumptions
  read : inputFormula w a = .ok formula
  writable : ∀ r ∈ a.requests, w.refusal r.2 = none

theorem ofExcept_ok {x : Except String α} {a : α} (given : x = .ok a) :
    ofExcept x p = (.ok a, p) := by
  rw [given]
  rfl

theorem readFormula_reads {a : Arguments} {f : Formula} (read : inputFormula w a = .ok f) :
    ∃ l, l.isAnswer = false ∧ readFormula w a p = (.ok f, p.tell l) := by
  unfold inputFormula at read
  unfold readFormula
  cases given : a.input with
  | some name =>
    rw [given] at read
    refine ⟨.record .program .info ("Reading file '" ++ name ++ "'"), rfl, ?_⟩
    exact (Step.bind_ok (note_ok _) _).trans (ofExcept_ok read)
  | none =>
    rw [given] at read
    refine ⟨.record .program .info "Reading from stdin", rfl, ?_⟩
    exact (Step.bind_ok (note_ok _) _).trans (ofExcept_ok read)

theorem openSession_opens (config : Config) :
    ∃ s, openSession (Replay.engine S) config p = (.ok (), { p with session := s }) ∧
      s.Live S config.propagationLimit ∧ s.tracing = config.traceGeneration ∧
      s.engine.Poses [] [] := by
  obtain ⟨s, created, sound, _⟩ := create_sound S config
  rw [create, configure_eq] at created
  obtain rfl := Outcome.ok.inj created
  refine ⟨_, ?_, ⟨sound, rfl, rfl⟩, rfl, rfl, rfl, rfl⟩
  rw [openSession, create, configure_eq]

theorem assume_all (live : p.session.Live S limit) {cs : List Clause} {as : List Lit}
    (poses : p.session.engine.Poses cs as) (more : List Lit) :
    ∃ q, (more.forM fun l => ask (Session.assume (Replay.engine S) l)) p = (.ok (), q) ∧
      p.Shows S limit [] q ∧ q.session.engine.Poses cs (as ++ more) := by
  induction more generalizing p as with
  | nil => exact ⟨p, rfl, shows_nothing live, (List.append_nil as).symm ▸ poses⟩
  | cons l more ih =>
    obtain ⟨s, assumed, after, tracing, engine⟩ := live.assume l
    have heard := (shows_nothing live).hear after tracing
    have posed : (p.listen s).session.engine.Poses cs (as ++ [l]) :=
      (engine ▸ poses.assume l : s.engine.Poses cs (as ++ [l])).silent []
    obtain ⟨q, rest, shows, all⟩ := ih heard.live posed
    refine ⟨q, (Step.bind_ok (ask_ok assumed) _).trans rest, heard.trans shows, ?_⟩
    rwa [List.append_assoc, List.singleton_append] at all

theorem prepare_poses {words : List String} {a : Arguments} {config : Config} {ls : List Lit}
    {f : Formula} (accepted : Accepted T w words a config ls f) :
    ∃ p, prepare T.format (Replay.engine S) w a .start = (.ok ls, p) ∧
      p.session.Live S config.propagationLimit ∧ p.session.tracing = config.traceGeneration ∧
      p.files = [] ∧ p.answers = [] ∧ p.session.engine.Poses f.clauses ls := by
  let p := Progress.start.tell (.record .program .info ("This is " ++ versionText))
  obtain ⟨l, other, read⟩ := readFormula_reads (p := p) accepted.read
  obtain ⟨s, opened, live, tracing, poses⟩ := openSession_opens (S := S) (p := p.tell l) config
  let first : Progress := { p.tell l with session := s }
  obtain ⟨t, added, after, kept, engine⟩ := live.addFormula f
  have heard := (shows_nothing (p := first) live).hear after kept
  have posed : t.engine.Poses f.clauses [] := engine ▸ poses.ingestAll f.clauses
  have counted := heard.hear heard.live rfl
  have noted := (counted.hear counted.live rfl).remark (l := .record .program .info
    (toString t.engine.varCount ++ " variables, " ++ toString t.engine.formula.size ++
      " clauses")) rfl
  obtain ⟨q, assumed, shows, all⟩ := assume_all noted.live (posed.silent []) ls
  have whole := noted.trans shows
  have silent : first.answers = [] := (answers_remark (p := p) other).trans rfl
  refine ⟨q, ?_, whole.live, whole.tracing.trans tracing, whole.files, ?_, all⟩
  · rw [prepare, Step.bind_ok (note_ok _), Step.bind_ok (ofExcept_ok accepted.configured),
      Step.bind_ok (ofExcept_ok accepted.assumed), Step.bind_ok read, Step.bind_ok opened,
      Step.bind_ok (ask_ok added), Step.bind_ok (ask_ok heard.live.varCount),
      Step.bind_ok (ask_ok counted.live.clauseCount), Step.bind_ok (note_ok _)]
    exact Step.bind_ok assumed _
  · rw [whole.answers, silent]
    rfl

theorem showAnswers_answers (live : p.session.Live S limit) (a : Arguments) :
    ∃ found q, showAnswers (Replay.engine S) a p = (.ok (p.session.engine.verdict S).status, q) ∧
      Answers S limit p (p.session.engine.verdict S).status found q ∧
      (a.all = false → found.length ≤ 1) := by
  unfold showAnswers
  cases a.all with
  | true =>
    obtain ⟨found, q, solved, answers⟩ := enumerate_answers live
    exact ⟨found, q, solved, answers, by simp⟩
  | false =>
    obtain ⟨found, q, solved, answers, single⟩ := solveOnce_answers live
    exact ⟨found, q, solved, answers, fun _ => single⟩

def Progress.closed (S : Cnf.Solver) (p : Progress) : Progress :=
  { p.tell .solveTime with session := (Session.delete (Replay.engine S) p.session).2 }.tell
    (.record .session .info "session deleted")

theorem answers_closed (p : Progress) : (p.closed S).answers = p.answers := rfl

def refutationAnswers (status : Status) (assumptions failed : List Lit) : List Line :=
  if status = .unsatisfiable ∧ assumptions ≠ [] then [.failedAssumptions failed] else []

theorem decideStatus_answers {words : List String} {a : Arguments} {config : Config}
    {ls : List Lit} {f : Formula} (accepted : Accepted T w words a config ls f) :
    let status := (S.run config.propagationLimit (Cnf.ofClauses f.clauses) (ls.map .ofLit)).status
    ∃ found failed p, decideStatus T.format S w a .start = (.ok status, p) ∧
      p.session.Live S config.propagationLimit ∧ p.session.tracing = config.traceGeneration ∧
      (status = .unsatisfiable → p.session.state.windowOpen = true) ∧ p.files = [] ∧
      p.answers.reverse = .status status :: found.map .solution ++
        refutationAnswers status ls failed ∧
      (found ≠ [] ↔ status = .satisfiable) ∧ (a.all = false → found.length ≤ 1) := by
  obtain ⟨p, prepared, live, tracing, files, silent, poses⟩ := prepare_poses (S := S) accepted
  rw [← poses.verdict live.sound.engine]
  obtain ⟨found, q, solved, answers, single⟩ := showAnswers_answers live a
  generalize (p.session.engine.verdict S).status = status at solved answers ⊢
  unfold decideStatus
  dsimp only
  rw [Step.bind_ok prepared, Step.bind_ok solved]
  have shown : q.answers.reverse = .status status :: found.map .solution := by
    rw [answers.answers, silent, List.append_nil, List.reverse_reverse]
  have traced : q.session.tracing = config.traceGeneration := answers.tracing.trans tracing
  have unwritten : q.files = [] := answers.files.trans files
  by_cases refuted : status = .unsatisfiable
  · obtain ⟨failed, r, named, shows, state⟩ := showFailedAssumptions_shows answers.live ls
    refine ⟨found, failed, r, ?_, shows.live, shows.tracing.trans traced,
      fun _ => state ▸ answers.isOpen refuted, shows.files.trans unwritten, ?_, answers.solved,
      single⟩
    · simp only [refuted, if_true]
      rw [Step.bind_ok named]
      rfl
    · rw [shows.answers, List.reverse_append, List.reverse_reverse, shown, refutationAnswers]
      simp only [refuted, true_and, ne_eq, ite_not]
  · refine ⟨found, [], q, ?_, answers.live, traced, fun h => absurd h refuted, unwritten, ?_,
      answers.solved, single⟩
    · simp only [refuted, if_false]
      rfl
    · rw [shown, refutationAnswers, if_neg (fun h => refuted h.1), List.append_nil]

theorem arguments_of_request {words : List String} {a : Arguments}
    (request : T.request words = .ok (.run a)) : T.arguments words = .ok a := by
  unfold Toolkit.request at request
  cases read : T.arguments words with
  | error e => simp [read, Except.map] at request
  | ok b =>
    simp only [read, Except.map, Except.ok.injEq, Arguments.request] at request
    split at request <;> cases request
    rfl

variable (T S w) in
def Writes (a : Arguments) (files : List (String × Bytes)) : Prop :=
  ∃ p u, decideStatus T.format S w a .start = (.ok .unsatisfiable, p) ∧
    Reported S p.session a.requests files u

theorem job_answers (documented : T.Documented) (correct : S.Correct) {words : List String}
    {a : Arguments} {config : Config} {ls : List Lit} {f : Formula}
    (accepted : Accepted T w words a config ls f) :
    let status := (S.run config.propagationLimit (Cnf.ofClauses f.clauses) (ls.map .ofLit)).status
    ∃ found failed p, job T.format S w a .start = (.ok status, p) ∧
      p.answers.reverse = .status status :: found.map .solution ++
        refutationAnswers status ls failed ∧
      (found ≠ [] ↔ status = .satisfiable) ∧ (a.all = false → found.length ≤ 1) ∧
      (status = .unsatisfiable → Writes T S w a p.files) ∧
      (status ≠ .unsatisfiable → p.files = []) := by
  obtain ⟨found, failed, p, decided, live, tracing, isOpen, unwritten, answers, solved, single⟩ :=
    decideStatus_answers (S := S) accepted
  dsimp only
  generalize (S.run config.propagationLimit _ _).status = status at decided isOpen answers solved ⊢
  unfold job
  rw [Step.bind_ok decided]
  by_cases refuted : status = .unsatisfiable
  · subst refuted
    have traced (asked : a.requests ≠ []) : p.session.tracing = true := by
      have wanted := documented.present (arguments_of_request accepted.request) asked
      exact tracing.trans (loadConfig_traces documented.format wanted accepted.configured)
    obtain ⟨q, reported, saves⟩ := saveAll_saves ⟨live, isOpen rfl⟩ correct
      (fun r => Arguments.kind_of_mem_requests) traced accepted.writable
    obtain ⟨fs, added, written⟩ := saves.reported
    rw [unwritten, List.nil_append] at added
    refine ⟨found, failed, q.closed S, ?_, ?_, solved, single, fun _ => ⟨p, q.session, decided, ?_⟩,
      absurd rfl⟩
    · simp only [if_true]
      exact Step.bind_ok reported _
    · rw [answers_closed, saves.answers, answers]
    · exact added ▸ written
  · refine ⟨found, failed, p.closed S, ?_, ?_, solved, single, fun h => absurd h refuted,
      fun _ => unwritten⟩
    · simp only [refuted, if_false]
      rfl
    · rw [answers_closed, answers]

theorem assumed_nil {texts : List String} {ls : List Lit}
    (assumed : texts.mapM assumedLit = .ok ls) : ls = [] ↔ texts = [] := by
  cases texts with
  | nil =>
    cases assumed
    simp
  | cons text texts =>
    rw [List.mapM_cons] at assumed
    obtain ⟨l, -, assumed⟩ := bind_eq_ok assumed
    obtain ⟨ls', -, assumed⟩ := bind_eq_ok assumed
    cases assumed
    simp

def Line.status? : Line → Option Status
  | .status s => some s
  | _ => none

namespace Transcript

def answers (t : Transcript) : List Line := t.lines.filter (·.isAnswer)

def statuses (t : Transcript) : List Status := t.lines.filterMap Line.status?

theorem statuses_answers (t : Transcript) : t.answers.filterMap Line.status? = t.statuses := by
  rw [answers, List.filterMap_filter]
  refine List.filterMap_congr fun l _ => ?_
  cases l with
  | status s => rfl
  | _ => exact ite_self none

end Transcript

section Run

variable (documented : T.Documented) (correct : S.Correct) {words : List String} {a : Arguments}
  {config : Config} {ls : List Lit} {f : Formula} (accepted : Accepted T w words a config ls f)

include documented correct accepted

theorem run_shows :
    let t := run T S w words
    let status := (S.run config.propagationLimit (Cnf.ofClauses f.clauses) (ls.map .ofLit)).status
    t.exitCode = status.code.toNat ∧ t.statuses = [status] ∧
    ∃ found failed, t.answers = .status status :: found.map .solution ++
        refutationAnswers status ls failed ∧
      (found ≠ [] ↔ status = .satisfiable) ∧
      (a.all = false → found.length ≤ 1) ∧
      (status = .unsatisfiable → Writes T S w a t.files) ∧
      (status ≠ .unsatisfiable → t.files = []) := by
  obtain ⟨found, failed, p, ran, answers, solved, single, files⟩ :=
    job_answers documented correct accepted
  dsimp only
  generalize (S.run config.propagationLimit _ _).status = status at ran answers solved files ⊢
  have transcribed : run T S w words = ⟨p.lines.reverse, p.files, status.code.toNat⟩ := by
    rw [run, accepted.request]
    simp only [solveFormula, ran, transcript]
  have shown : (run T S w words).answers = .status status :: found.map .solution ++
      refutationAnswers status ls failed := by
    rw [transcribed, Transcript.answers, List.filter_reverse]
    exact answers
  have once : (run T S w words).statuses = [status] := by
    rw [← Transcript.statuses_answers, shown, refutationAnswers]
    split <;> simp [Line.status?, List.filterMap_map, Function.comp_def]
  refine ⟨by rw [transcribed], once, found, failed, shown, solved, single, ?_⟩
  rw [transcribed]
  exact files

end Run

/-- An accepted run shows one status, that of the first answer of the solver, and exits with its
code. Solutions come after it, if there are any, and the failed assumptions if there are any that
failed; no error is shown. If the status is unsatisfiable, the session writes all reports that were
asked for without an error, whatever the options say about traces. Whether all solutions are shown
or one makes no difference to the status and the code. -/
theorem run_answers (documented : T.Documented) (correct : S.Correct) {words : List String}
    {a : Arguments} {config : Config} {ls : List Lit} {f : Formula}
    (accepted : Accepted T w words a config ls f) :
    let t := run T S w words
    let status := (S.run config.propagationLimit (Cnf.ofClauses f.clauses) (ls.map .ofLit)).status
    t.statuses = [status] ∧
      (Line.statusText status, t.exitCode) ∈
        [("s SATISFIABLE", 10), ("s UNSATISFIABLE", 20), ("s UNKNOWN", 0)] ∧
      (∃ found failed, t.answers = .status status :: found.map .solution ++
          (if status = .unsatisfiable ∧ a.assumptions ≠ [] then [.failedAssumptions failed]
            else []) ∧
        (found ≠ [] ↔ status = .satisfiable) ∧
        (a.all = false → found.length ≤ 1)) ∧
      (status = .unsatisfiable → Writes T S w a t.files) ∧
      (t.files.map Prod.fst =
        if status = .unsatisfiable then a.requests.map Prod.snd else []) ∧
      ∀ words' all, T.request words' = .ok (.run { a with all := all }) →
        (run T S w words').statuses = t.statuses ∧ (run T S w words').exitCode = t.exitCode := by
  obtain ⟨code, once, found, failed, answers, solved, single, written, unwritten⟩ :=
    run_shows documented correct accepted
  have table (s : Status) : (Line.statusText s, s.code.toNat) ∈
      [("s SATISFIABLE", 10), ("s UNSATISFIABLE", 20), ("s UNKNOWN", 0)] := by
    cases s <;> decide
  refine ⟨once, code ▸ table _, ⟨found, failed, ?_, solved, single⟩, written, ?_,
    fun words' all request => ?_⟩
  · simp only [answers, refutationAnswers, ne_eq, assumed_nil accepted.assumed]
  · split
    next refuted =>
      obtain ⟨p, u, -, reported⟩ := written refuted
      exact reported.names
    next other => rw [unwritten other, List.map_nil]
  · have other : Accepted T w words' { a with all := all } config ls f :=
      { accepted with request := request }
    obtain ⟨code', once', _⟩ := run_shows documented correct other
    exact ⟨once'.trans once.symm, code'.trans code.symm⟩

-- A formula whose only clause the assumption contradicts.
def contradicted : Surroundings where
  read _ := .ok (Bytes.ofString "p cnf 1 1\n1 0\n")
  input := []
  refusal _ := none

def contradictedWords : List String :=
  ["--all", "--core", "core.cnf", "--extended-trace=proof.txt", "-C",
    "enable_trace_generation=false", "-a", "-1", "in.cnf"]

theorem toolkit_documented : toolkit.Documented := ⟨Scan.read_present, Config.Toml.format_documented⟩

theorem contradiction_reported :
    let t := run toolkit Cnf.Search.solver contradicted contradictedWords
    toolkit.Documented ∧ t.statuses = [.unsatisfiable] ∧ t.exitCode = 20 ∧
      t.files.map Prod.fst = ["core.cnf", "proof.txt"] ∧
      ∃ failed, t.answers = [.status .unsatisfiable, .failedAssumptions failed] := by
  let a : Arguments :=
    { input := some "in.cnf"
      settings := ["enable_trace_generation=false"]
      assumptions := ["-1"]
      all := true
      core := some "core.cnf"
      extendedTrace := some "proof.txt"
      wantsReport := true }
  have clauses : (inputFormula contradicted a).map (·.clauses) =
      .ok [[⟨1, by decide, by decide⟩]] := by decide +kernel
  obtain ⟨f, read, clauses⟩ : ∃ f, inputFormula contradicted a = .ok f ∧
      f.clauses = [[⟨1, by decide, by decide⟩]] := by
    cases read : inputFormula contradicted a with
    | error e => simp [read, Except.map] at clauses
    | ok f => exact ⟨f, rfl, by simpa [read, Except.map] using clauses⟩
  have accepted : Accepted toolkit contradicted contradictedWords a { traceGeneration := true }
      [⟨-1, by decide, by decide⟩] f :=
    ⟨by decide +kernel, by decide +kernel, by decide +kernel, read, fun _ _ => rfl⟩
  obtain ⟨once, code, ⟨found, failed, answers, solved, _⟩, -, files, _⟩ :=
    run_answers toolkit_documented Cnf.Search.solver_correct accepted
  have status : (Cnf.Search.solver.run 0 (Cnf.ofClauses f.clauses)
      [.ofLit ⟨-1, by decide, by decide⟩]).status = .unsatisfiable := by
    rw [clauses]
    decide +kernel
  simp only [List.map_cons, List.map_nil, status] at once code answers solved files
  obtain rfl : found = [] := by simpa using solved
  exact ⟨toolkit_documented, once, by simpa [Line.statusText] using code, files, failed, answers⟩

end SatSession.CommandLine
