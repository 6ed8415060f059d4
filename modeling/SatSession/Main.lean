import SatSession.CommandLine.LogFilter
import SatSession.CommandLine.Scan
import SatSession.Cnf.Search

set_option autoImplicit false

namespace SatSession.CommandLine

def ioReason : IO.Error → String
  | .noFileOrDirectory .. => "No such file or directory (os error 2)"
  | .permissionDenied .. => "Permission denied (os error 13)"
  | e => toString e

def readFile (name : String) : IO (Except String Bytes) := do
  try
    let bytes ← IO.FS.readBinFile name
    return .ok bytes.toList
  catch e => return .error (ioReason e)

partial def readAll (h : IO.FS.Stream) (acc : ByteArray) : IO ByteArray := do
  let bytes ← h.read 65536
  if bytes.isEmpty then return acc
  readAll h (acc ++ bytes)

def surroundings (request : Except Stop Request) : IO Surroundings := do
  match request with
  | .ok (.run a) =>
      let names := a.configFile.toList ++ a.input.toList
      let files ← names.mapM fun n => do return (n, ← readFile n)
      let input ← if a.input.isNone then readAll (← IO.getStdin) .empty else pure .empty
      return ⟨fun n => (files.lookup n).getD (.error "not read"), input.toList, fun _ => none⟩
  | _ => return ⟨fun _ => .error "not read", [], fun _ => none⟩

def writeFiles : List (String × Bytes) → IO (Option (String × String))
  | [] => return none
  | (name, bytes) :: rest => do
      try
        IO.FS.writeBinFile name ⟨bytes.toArray⟩
      catch e => return some (name, ioReason e)
      writeFiles rest

-- Runs, and once more with what was learned if a file cannot be written.
def perform (w : Surroundings) (words : List String) : IO Transcript := do
  let t := run toolkit Cnf.Search.solver w words
  match ← writeFiles t.files with
  | none => return t
  | some (name, reason) =>
      let w := { w with refusal := fun n => if n = name then some reason else none }
      return run toolkit Cnf.Search.solver w words

end SatSession.CommandLine

open SatSession.CommandLine in
def main (words : List String) : IO UInt32 := do
  let w ← surroundings (toolkit.request words)
  let started ← IO.monoNanosNow
  let t ← perform w words
  let time := toString ((← IO.monoNanosNow) - started) ++ "ns"
  let filter := match ← IO.getEnv "SATLOCK_LOG" with
    | some text => LogFilter.ofText text
    | none => LogFilter.standard
  for line in t.output filter.shows time do
    IO.println line
  for line in t.lines.filterMap (·.aside?) do
    IO.eprintln line
  return t.exitCode.toUInt32
