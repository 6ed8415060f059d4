import SatSession.Main
import SatSession.Coloring
import SatSession.Config.Toml
import SatSession.Engine.Scripted
import SatSession.Session.History
import SatSession.Proofs.Preconditions
import SatSession.Proofs.Replay
import SatSession.Proofs.Progress
import SatSession.Proofs.Confluence
import SatSession.Proofs.Operations
import SatSession.Proofs.Search
import SatSession.Proofs.Safety
import SatSession.Proofs.Solutions
import SatSession.Proofs.Exclusion
import SatSession.Proofs.Enumeration
import SatSession.Proofs.Queries
import SatSession.Proofs.Subsets
import SatSession.Proofs.Deciding
import SatSession.Proofs.RoundTrip
import SatSession.Proofs.Cores
import SatSession.Proofs.NormalForm
import SatSession.Proofs.Grammar
import SatSession.Proofs.Chronicle
import SatSession.Proofs.Lifecycle
import SatSession.Proofs.Window
import SatSession.Proofs.Effects
import SatSession.Proofs.Calls
import SatSession.Proofs.Assumptions
import SatSession.Proofs.FailedAssumptions
import SatSession.Proofs.Ingestion
import SatSession.Proofs.ClauseLog
import SatSession.Proofs.Printing
import SatSession.Proofs.Recording
import SatSession.Proofs.SecondRefutation
import SatSession.Proofs.Insertions
import SatSession.Proofs.Invocation
import SatSession.Proofs.Answering
import SatSession.Proofs.Transcripts
import SatSession.Proofs.Threshold
import SatSession.Proofs.FarBounds
import SatSession.Proofs.Greedy
import SatSession.Proofs.Listing
import SatSession.Proofs.Editing
import SatSession.Proofs.Iteration
import SatSession.Proofs.Overrun
import SatSession.Proofs.Intake
import SatSession.Proofs.Buffers
import SatSession.Proofs.Capacity
import SatSession.Proofs.TokenValues
import SatSession.Proofs.Precedence
