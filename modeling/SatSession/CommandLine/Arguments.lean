import SatSession.Engine

set_option autoImplicit false

namespace SatSession.CommandLine

def versionText : String := "satlock 0.1.0"

structure Arguments where
  input : Option String := none
  configFile : Option String := none
  settings : List String := []
  assumptions : List String := []
  all : Bool := false
  core : Option String := none
  compactTrace : Option String := none
  extendedTrace : Option String := none
  -- Whether an option for a report occurs, be it without a value.
  wantsReport : Bool := false
deriving DecidableEq

inductive Stop where
  | refused (message : String)
  | answered (lines : List String)
deriving DecidableEq

inductive Request where
  | run (arguments : Arguments)
  | options
deriving DecidableEq

def Arguments.request (a : Arguments) : Request :=
  if a.settings.contains "help" then .options else .run a

def Arguments.requests (a : Arguments) : List (ReportKind × String) :=
  a.core.toList.map (.clausalCore, ·) ++ a.compactTrace.toList.map (.compactTrace, ·) ++
    a.extendedTrace.toList.map (.extendedTrace, ·)

end SatSession.CommandLine
