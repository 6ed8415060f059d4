import SatSession.CommandLine.Arguments
import SatSession.CommandLine.Transcript
import SatSession.Config.Options
import SatSession.Session

set_option autoImplicit false

namespace SatSession.CommandLine

structure Toolkit where
  arguments : List String → Except Stop Arguments
  format : Config.Format

/-- What is documented of them: an option that has a value is present. -/
structure Toolkit.Documented (T : Toolkit) : Prop where
  present {ws : List String} {a : Arguments} :
    T.arguments ws = .ok a → a.requests ≠ [] → a.wantsReport = true
  format : T.format.Documented

structure Surroundings where
  read : String → Except String Bytes
  input : Bytes
  refusal : String → Option String

structure Progress where
  session : Session Replay.State
  lines : List Line
  files : List (String × Bytes)

abbrev Job (α : Type) := Step Progress String α

namespace Job

variable {α : Type}

def say (l : Line) : Job Unit := Step.modify fun p => { p with lines := l :: p.lines }

def note (text : String) : Job Unit := say (.record .program .info text)

def ofExcept (x : Except String α) : Job α :=
  match x with
  | .ok a => pure a
  | .error m => Step.fail m

end Job

namespace Progress

def listen (p : Progress) (s : Session Replay.State) : Progress :=
  { p with
    session := { s with engine := { s.engine with messages := [] } }
    lines := s.engine.messages.map .ofMessage ++ p.lines }

end Progress

open Job

variable {α : Type}

def ask (x : Session.Op Replay.State α) : Job α := fun p =>
  match x p.session with
  | (r, s) => (r.mapError Error.message, p.listen s)

section Options

variable (F : Config.Format)

abbrev Options := Config.Table F.Value

def mergeText? (o : Options F) (document : String) : Option (Options F) :=
  (F.read? document).map fun t => o.extend t.entries

def mergeFile (w : Surroundings) (o : Options F) (name : String) : Except String (Options F) := do
  match String.fromUTF8? ⟨(← w.read name).toArray⟩ with
  | none => .error Dimacs.ReadError.notText.message
  | some t =>
      match mergeText? F o t with
      | some o => .ok o
      | none => .error ("malformed options in '" ++ name ++ "'")

def mergeSetting (o : Options F) (setting : String) : Except String (Options F) :=
  match mergeText? F o setting with
  | some o => .ok o
  | none => .error ("malformed option '" ++ setting ++ "'")

-- Settings override the options before them; a report needs trace generation whatever they say.
def buildConfig (a : Arguments) (o : Options F) : Except String Config := do
  let o ← a.settings.foldlM (mergeSetting F) o
  let o := if a.wantsReport then o.insert "enable_trace_generation" (F.ofBool true) else o
  match F.config? o with
  | some c => .ok c
  | none => .error "unknown option or invalid value"

def loadConfig (w : Surroundings) (a : Arguments) : Except String Config :=
  match a.configFile with
  | none => buildConfig F a .empty
  | some name => do buildConfig F a (← mergeFile F w .empty name)

end Options

def assumedLit (text : String) : Except String Lit :=
  match (Text.signedOfWidth? 32 text.toList).bind Lit.ofNumber? with
  | some l => .ok l
  | none => .error ("invalid literal '" ++ text ++ "'")

def parseFormula (bytes : Bytes) : Except String Formula :=
  match Dimacs.read bytes with
  | .ok (_, f) => .ok f
  | .error e => .error e.message

def readFormula (w : Surroundings) (a : Arguments) : Job Formula := do
  match a.input with
  | some name =>
      note ("Reading file '" ++ name ++ "'")
      ofExcept (do parseFormula (← w.read name))
  | none =>
      note "Reading from stdin"
      ofExcept (parseFormula w.input)

def openSession (E : Engine Replay.State) (c : Config) : Job Unit := fun p =>
  match Session.create E c {} with
  | (.ok s, _) => (.ok (), { p with session := s })
  | (.error e, _) => (.error e.message, p)
  | (.panic x, _) => (.panic x, p)

def solveOnce (E : Engine Replay.State) : Job Status := do
  let (status, solution) ← ask (Session.solve E)
  say (.status status)
  match solution with
  | some a => say (.solution a)
  | none => pure ()
  pure status

def showSolutions (E : Engine Replay.State) : Nat → Nat → Job Nat
  | 0, count => pure count
  | fuel + 1, count => do
      match ← ask (Session.nextSolution E) with
      | none => pure count
      | some a =>
          if count = 0 then say (.status .satisfiable)
          say (.solution a)
          showSolutions E fuel (count + 1)

def enumerate (E : Engine Replay.State) : Job Status := do
  let n ← ask (Session.varCount E)
  let count ← showSolutions E (Nat.pow 2 n + 1) 0
  note (toString count ++ " solutions")
  if 0 < count then pure .satisfiable
  else
    match ← ask Session.lastStatus with
    | none => Step.fail "no solve call was made"
    | some status =>
        say (.status status)
        pure status

def reportTitle : ReportKind → String
  | .formula => "formula"
  | .clausalCore => "clausal core"
  | .compactTrace => "compact trace"
  | .extendedTrace => "extended trace"

def saveReport (E : Engine Replay.State) (w : Surroundings) (kind : ReportKind) (name : String) :
    Job Unit := do
  note ("Writing " ++ reportTitle kind ++ " to file '" ++ name ++ "'")
  match w.refusal name with
  | some m => Step.fail m
  | none => fun p =>
      match Session.writeReport E kind {} p.session with
      | ((r, d), s) =>
          (r.mapError Error.message,
            { p.listen s with files := p.files ++ [(name, d.received)] })

def saveReports (E : Engine Replay.State) (w : Surroundings) (a : Arguments) : Job Unit :=
  a.requests.forM fun (kind, name) => saveReport E w kind name

def closeSession (E : Engine Replay.State) : Job Unit := do
  Step.modify fun p => { p with session := (Session.delete E p.session).2 }
  say (.record .session .info "session deleted")

def prepare (F : Config.Format) (E : Engine Replay.State) (w : Surroundings) (a : Arguments) :
    Job (List Lit) := do
  note ("This is " ++ versionText)
  let config ← ofExcept (loadConfig F w a)
  let assumptions ← ofExcept (a.assumptions.mapM assumedLit)
  let formula ← readFormula w a
  openSession E config
  ask (Session.addFormula E formula)
  let vars ← ask (Session.varCount E)
  let clauses ← ask (Session.clauseCount E)
  note (toString vars ++ " variables, " ++ toString clauses ++ " clauses")
  assumptions.forM fun l => ask (Session.assume E l)
  pure assumptions

def showAnswers (E : Engine Replay.State) (a : Arguments) : Job Status :=
  if a.all then enumerate E else solveOnce E

def showFailedAssumptions (E : Engine Replay.State) (assumptions : List Lit) : Job Unit := do
  if !assumptions.isEmpty then say (.failedAssumptions (← ask (Session.failedAssumptions E)))

def decideStatus (F : Config.Format) (S : Cnf.Solver) (w : Surroundings) (a : Arguments) : Job Status := do
  let E := Replay.engine S
  let assumptions ← prepare F E w a
  let status ← showAnswers E a
  if status = .unsatisfiable then showFailedAssumptions E assumptions
  pure status

def job (F : Config.Format) (S : Cnf.Solver) (w : Surroundings) (a : Arguments) : Job Status := do
  let E := Replay.engine S
  let status ← decideStatus F S w a
  if status = .unsatisfiable then saveReports E w a
  say .solveTime
  closeSession E
  pure status

def Progress.start : Progress :=
  ⟨⟨{}, false, false, .noResult, false, false, 0, []⟩, [], []⟩

def transcript : Outcome String Status × Progress → Transcript
  | (.ok status, p) => ⟨p.lines.reverse, p.files, status.code.toNat⟩
  | (.error m, p) => ⟨(.record .program .error m :: p.lines).reverse, p.files, 1⟩
  | (.panic _, p) => ⟨p.lines.reverse, p.files, 101⟩

def solveFormula (F : Config.Format) (S : Cnf.Solver) (w : Surroundings) (a : Arguments) :
    Transcript :=
  transcript (job F S w a .start)

def Toolkit.request (T : Toolkit) (words : List String) : Except Stop Request :=
  (T.arguments words).map Arguments.request

def run (T : Toolkit) (S : Cnf.Solver) (w : Surroundings) (words : List String) : Transcript :=
  match T.request words with
  | .error (.refused m) => ⟨[.aside m], [], 1⟩
  | .error (.answered ls) => ⟨ls.map .plain, [], 0⟩
  | .ok .options => ⟨Config.helpLines.map .plain, [], 0⟩
  | .ok (.run a) => solveFormula T.format S w a

end SatSession.CommandLine
