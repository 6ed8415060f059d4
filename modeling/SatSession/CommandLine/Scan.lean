import SatSession.CommandLine.Run
import SatSession.Config.Toml

/-!
A reader of arguments. An option with a value takes it from its own word, after an equals
sign or the option's letter, or else from the next word. A word that starts with a hyphen is an
option even where a value could follow, except that a literal to assume may be negative. After
`--` no word is an option any more.
-/

set_option autoImplicit false

namespace SatSession.CommandLine

inductive Parameter where
  | configFile
  | setting
  | assumption
  | core
  | compactTrace
  | extendedTrace
deriving DecidableEq

namespace Parameter

def ofLong? : String → Option Parameter
  | "config" => some configFile
  | "config-option" => some setting
  | "assume" => some assumption
  | "core" => some core
  | "compact-trace" => some compactTrace
  | "extended-trace" => some extendedTrace
  | _ => none

def ofShort? : Char → Option Parameter
  | 'C' => some setting
  | 'a' => some assumption
  | _ => none

def repeats : Parameter → Bool
  | setting => true
  | assumption => true
  | _ => false

def allowsHyphen (p : Parameter) : Bool := p == assumption

def isReport : Parameter → Bool
  | core => true
  | compactTrace => true
  | extendedTrace => true
  | _ => false

end Parameter

inductive Switch where
  | all
  | help
  | version
deriving DecidableEq

namespace Switch

def ofLong? : String → Option Switch
  | "all" => some all
  | "help" => some help
  | "version" => some version
  | _ => none

def ofShort? : Char → Option Switch
  | 'h' => some help
  | 'V' => some version
  | _ => none

end Switch

inductive Misuse where
  | unknownOption (word : String)
  | surplusInput (word : String)
  | missingValue
  | repeatedOption
deriving DecidableEq

namespace Misuse

def message : Misuse → String
  | unknownOption w => "error: Found argument '" ++ w ++ "' which wasn't expected"
  | surplusInput w => "error: Found argument '" ++ w ++ "' which wasn't expected"
  | missingValue => "error: An option requires a value but none was supplied"
  | repeatedOption => "error: An option was provided more than once"

end Misuse

def usage : List String :=
  [versionText, "", "USAGE:", "    satlock [FLAGS] [OPTIONS] [INPUT]", "", "FLAGS:",
    "        --all        Enumerate all satisfying assignments",
    "    -h, --help       Prints help information",
    "    -V, --version    Prints version information", "", "OPTIONS:",
    "    -a, --assume <LIT>...                     Assume a literal for the solve call",
    "        --compact-trace <FILE>                Write a binary proof",
    "        --config <FILE>                       Read session options from a TOML file",
    "    -C, --config-option <OPTION>=<VALUE>...   Specify a single session option",
    "        --core <FILE>                         Write a clausal core",
    "        --extended-trace <FILE>               Write a textual proof", "", "ARGS:",
    "    <INPUT>    The DIMACS CNF input file to use (stdin if omitted)"]

def Misuse.stop (m : Misuse) : Stop := .refused m.message

structure Scan where
  input : Option String := none
  allCount : Nat := 0
  given : List Parameter := []
  values : List (Parameter × String) := []
  -- The option that can take the next word as its value.
  waiting : Option Parameter := none
  inputsOnly : Bool := false

namespace Scan

def addInput (s : Scan) (w : String) : Except Stop Scan :=
  match s.input with
  | none => .ok { s with input := some w }
  | some _ => .error (Misuse.surplusInput w).stop

def take (s : Scan) (p : Parameter) (v : String) : Scan :=
  { s with values := (p, v) :: s.values, waiting := none }

def give (s : Scan) (p : Parameter) (attached : Option (List Char)) : Scan :=
  let s := { s with given := p :: s.given }
  match attached with
  | some v => s.take p (String.ofList (v.dropWhile (· == '=')))
  | none => { s with waiting := some p }

def switch (s : Scan) : Switch → Except Stop Scan
  | .all => .ok { s with allCount := s.allCount + 1, waiting := none }
  | .help => .error (.answered usage)
  | .version => .error (.answered [versionText])

def long (s : Scan) (w : String) : Except Stop Scan :=
  let body := w.toList.dropWhile (· == '-')
  let name := String.ofList (body.takeWhile (· != '='))
  match Parameter.ofLong? name, Switch.ofLong? name with
  | some p, _ => .ok (s.give p (body.dropWhile (· != '=')).tail?)
  | none, some o => s.switch o
  | none, none => .error (Misuse.unknownOption w).stop

def short (s : Scan) (w : String) : Except Stop Scan :=
  match w.toList.drop 1 with
  | [] => .error (Misuse.unknownOption w).stop
  | c :: cs =>
      match Parameter.ofShort? c, Switch.ofShort? c with
      | some p, _ => .ok (s.give p (if cs.isEmpty then none else some cs))
      | none, some o => s.switch o
      | none, none => .error (Misuse.unknownOption w).stop

def isOption (s : Scan) (w : String) : Bool :=
  w.toList.head? == some '-' && w != "-" && !s.waiting.any (·.allowsHyphen)

def word (s : Scan) (w : String) : Except Stop Scan :=
  if s.inputsOnly then s.addInput w
  else if !s.isOption w then
    match s.waiting with
    | some p => .ok (s.take p w)
    | none => s.addInput w
  else if w = "--" then .ok { s with inputsOnly := true }
  else if w.toList.take 2 = ['-', '-'] then s.long w
  else s.short w

def valuesOf (s : Scan) (p : Parameter) : List String :=
  (s.values.reverse.filter (·.1 == p)).map (·.2)

def hasRepeats (s : Scan) : Bool :=
  1 < s.allCount || s.given.any fun p => !p.repeats && 1 < s.given.count p

def finish (s : Scan) : Except Misuse Arguments :=
  if s.waiting.any fun p => (s.valuesOf p).isEmpty then .error .missingValue
  else if s.hasRepeats then .error .repeatedOption
  else .ok
    { input := s.input
      configFile := (s.valuesOf .configFile).head?
      settings := s.valuesOf .setting
      assumptions := s.valuesOf .assumption
      all := 0 < s.allCount
      core := (s.valuesOf .core).head?
      compactTrace := (s.valuesOf .compactTrace).head?
      extendedTrace := (s.valuesOf .extendedTrace).head?
      wantsReport := s.given.any (·.isReport) }

def read (ws : List String) : Except Stop Arguments := do
  let s ← ws.foldlM word {}
  s.finish.mapError Misuse.stop

end Scan

def toolkit : Toolkit := ⟨Scan.read, Config.Toml.format⟩

end SatSession.CommandLine
