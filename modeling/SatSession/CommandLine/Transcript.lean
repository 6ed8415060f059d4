import SatSession.Engine.Replay

set_option autoImplicit false

namespace SatSession.CommandLine

inductive Level where
  | error
  | warn
  | info
  | debug
  | trace
deriving DecidableEq

namespace Level

def rank : Level → Nat
  | error => 1
  | warn => 2
  | info => 3
  | debug => 4
  | trace => 5

def name : Level → String
  | error => "ERROR"
  | warn => "WARN"
  | info => "INFO"
  | debug => "DEBUG"
  | trace => "TRACE"

end Level

inductive Topic where
  | program
  | session
  | engine
deriving DecidableEq

def Topic.name : Topic → String
  | program => "satlock"
  | session => "satlock::session"
  | engine => "satlock::varisat_engine"

inductive Line where
  | record (topic : Topic) (level : Level) (text : String)
  | solveTime
  | status (status : Status)
  | solution (values : Assignment)
  | failedAssumptions (lits : List Lit)
  | plain (text : String)
  | aside (text : String)
deriving DecidableEq

namespace Line

def ofMessage (m : Replay.Message) : Line :=
  match m.output with
  | .log => record .engine .info m.text
  | .stdout => plain m.text
  | .stderr => aside m.text

def statusText : Status → String
  | .satisfiable => "s SATISFIABLE"
  | .unsatisfiable => "s UNSATISFIABLE"
  | .unknown => "s UNKNOWN"

def recordText (level : Level) (text : String) : String :=
  if level = .info then "c " ++ text else "c " ++ level.name ++ ": " ++ text

-- The text of the line on standard output, if it has one there; `shows` picks the log records.
def text? (shows : String → Level → String → Bool) (time : String) : Line → Option String
  | record topic level text =>
      if shows topic.name level text then some (recordText level text) else none
  | solveTime =>
      let text := "solve time " ++ time
      if shows Topic.program.name .info text then some (recordText .info text) else none
  | status s => some (statusText s)
  | solution a => some ("v" ++ String.join (a.numbers.map fun n => " " ++ toString n) ++ " 0")
  | failedAssumptions ls =>
      some ("c failed assumptions: " ++ " ".intercalate (ls.map Lit.text))
  | plain text => some text
  | aside _ => none

def aside? : Line → Option String
  | aside text => some text
  | _ => none

end Line

structure Transcript where
  lines : List Line
  files : List (String × Bytes) := []
  exitCode : Nat
deriving DecidableEq

namespace Transcript

def output (t : Transcript) (shows : String → Level → String → Bool) (time : String) :
    List String :=
  t.lines.filterMap (·.text? shows time)

def file? (t : Transcript) (name : String) : Option Bytes := t.files.reverse.lookup name

end Transcript

end SatSession.CommandLine
