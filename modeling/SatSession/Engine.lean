import SatSession.Error
import SatSession.Status
import SatSession.Config

set_option autoImplicit false

namespace SatSession

inductive ReportKind where
  | formula
  | clausalCore
  | compactTrace
  | extendedTrace
deriving DecidableEq

structure Production where
  chunks : List Bytes
  ending : Outcome EngineError Unit
  wrapping : Option String

abbrev Call (σ α : Type) := Step σ Empty α

structure Engine (σ : Type) where
  add : Int → Call σ Unit
  assume : Int → Call σ Unit
  solve : Step σ EngineError Status
  value : Int → Call σ Int
  varCount : Call σ Nat
  clauseCount : Call σ Nat
  failedAssumption : Int → Call σ Bool
  failedAssumptions : Call σ (List Int)
  inconsistent : Call σ Bool
  -- A maximal satisfiable subset of the assumptions. With `next` set, a clause then rules this
  -- subset out. Needs an engine that is not inconsistent.
  satisfiableSubset : Bool → Step σ EngineError (List Int)
  setPropagationLimit : Nat → Step σ EngineError Unit
  setVerbosity : Nat → Call σ Unit
  setLead : String → Call σ Unit
  setOutput : Output → Call σ Unit
  enableTracing : Step σ EngineError Unit
  -- All but the formula need tracing and an unsatisfiable last solve call, and no change since.
  report : ReportKind → Call σ Production
  release : σ → σ

end SatSession
