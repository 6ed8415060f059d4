set_option autoImplicit false

namespace SatSession

inductive Output where
  | log
  | stdout
  | stderr
deriving DecidableEq

def Output.name : Output → String
  | .log => "log"
  | .stdout => "stdout"
  | .stderr => "stderr"

def Output.ofName? : String → Option Output
  | "log" => some .log
  | "stdout" => some .stdout
  | "stderr" => some .stderr
  | _ => none

structure Config where
  -- Bound on the work of each solve call; 0 for none.
  propagationLimit : Nat := 0
  output : Output := .log
  verbosity : Nat := 0
  lead : String := "c "
  measureAllCalls : Bool := false
  traceGeneration : Bool := false
deriving DecidableEq

namespace Config

def helpLines : List String :=
  ["Session options (TOML syntax, e.g. -C 'verbosity = 1'):",
    "  propagation_limit = 0  work bound per solve call, 0 for none",
    "  output = \"log\"  engine messages to \"log\", \"stdout\" or \"stderr\"",
    "  verbosity = 0  engine message detail",
    "  prefix = \"c \"  engine message prefix",
    "  measure_all_calls = false  time every call instead of only solve",
    "  enable_trace_generation = false  allow cores and traces"]

def help : String := String.join (helpLines.map (· ++ "\n"))

end Config

end SatSession
