import Wiring.Json.Parser
import Wiring.Json.Printer
import Wiring.Schema.Decode
import Wiring.Location
import Wiring.Graph.Wire
import Wiring.Graph.Cycles
import Wiring.Graph.Restrict
import Wiring.Graph.Mermaid
import Wiring.Log.Logger
import Wiring.Diagnostics.Store
import Wiring.Facts.Basic
import Wiring.Resolved
import Wiring.Pipeline
import Wiring.Text.Quoted
import Wiring.Text.DecimalDigit
import Wiring.Text.Utf8
import Wiring.Fault
import Wiring.Facts.Load
import Wiring.Workload
import Wiring.Budget
import Wiring.Cli.Run
import Wiring.Main
import Wiring.Proofs.Search.Moves
import Wiring.Proofs.Search.Path
import Wiring.Proofs.Search.Closing
import Wiring.Proofs.Search.Course
import Wiring.Proofs.Search.Lines
import Wiring.Proofs.Search.Returns
import Wiring.Proofs.Search.Renumbering
import Wiring.Proofs.Links
import Wiring.Proofs.Walk
import Wiring.Proofs.Circularity
import Wiring.Proofs.Recursion
import Wiring.Proofs.Repetition
import Wiring.Proofs.Coverage
import Wiring.Proofs.Reach
import Wiring.Proofs.Restriction
import Wiring.Proofs.Locality
import Wiring.Proofs.Reachability
import Wiring.Proofs.Stages
import Wiring.Proofs.Distribution
import Wiring.Proofs.Consistency
import Wiring.Proofs.Assembly
import Wiring.Proofs.Pipeline
import Wiring.Proofs.Fields
import Wiring.Proofs.Entries
import Wiring.Proofs.Diagnostics
import Wiring.Proofs.Flags
import Wiring.Proofs.Notes
import Wiring.Proofs.Configuration
import Wiring.Proofs.Losses
import Wiring.Proofs.Accounting
import Wiring.Proofs.Numbering
import Wiring.Proofs.Json.Scalars
import Wiring.Proofs.Json.Spelling
import Wiring.Proofs.Decoding
import Wiring.Proofs.Rendering
import Wiring.Proofs.Reloading
import Wiring.Proofs.Search.Lookups
import Wiring.Proofs.Totality
import Wiring.Proofs.Delivery
import Wiring.Proofs.Verbosity
import Wiring.Proofs.Firsts
import Wiring.Proofs.History
import Wiring.Proofs.Discovery
import Wiring.Proofs.Qualifiers
import Wiring.Proofs.Precedence
import Wiring.Proofs.Balance
import Wiring.Proofs.Json.Canonical
import Wiring.Proofs.Flowchart
import Wiring.Proofs.Json.Limits
import Wiring.Proofs.Loading
import Wiring.Proofs.Exhaustion
import Wiring.Proofs.Routing
import Wiring.Proofs.Ladder
import Wiring.Proofs.Workloads
