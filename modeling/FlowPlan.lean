import FlowPlan.Command.Arguments
import FlowPlan.Command.Basic
import FlowPlan.Flow.Bounds
import FlowPlan.Flow.Edge
import FlowPlan.Flow.Form
import FlowPlan.Flow.Graph
import FlowPlan.Flow.Node
import FlowPlan.Flow.ParamType
import FlowPlan.Flow.StoredValue
import FlowPlan.Flow.Template
import FlowPlan.Flow.Wiring
import FlowPlan.Json.Basic
import FlowPlan.Json.Double
import FlowPlan.Json.Fields
import FlowPlan.Json.Outline
import FlowPlan.Json.Printer
import FlowPlan.Json.Reader
import FlowPlan.Json.Value
import FlowPlan.Main
import FlowPlan.OrderedMap
import FlowPlan.Plan.Basic
import FlowPlan.Plan.Dependencies
import FlowPlan.Plan.Error
import FlowPlan.Plan.Schedule
import FlowPlan.Plan.Supply
import FlowPlan.Proofs.Arguments.Filled
import FlowPlan.Proofs.Arguments.Honoured
import FlowPlan.Proofs.Arguments.Landing
import FlowPlan.Proofs.Arguments.Reads
import FlowPlan.Proofs.Arguments.Typed
import FlowPlan.Proofs.Assembly.Accounted
import FlowPlan.Proofs.Assembly.Composition
import FlowPlan.Proofs.Assembly.Nodes
import FlowPlan.Proofs.Assembly.Signature
import FlowPlan.Proofs.Editing.Growth
import FlowPlan.Proofs.Editing.Stability
import FlowPlan.Proofs.Editing.Steps
import FlowPlan.Proofs.Editing.Wired
import FlowPlan.Proofs.Listing.Order
import FlowPlan.Proofs.Listing.Plan
import FlowPlan.Proofs.Order.Ambiguity
import FlowPlan.Proofs.Order.Control
import FlowPlan.Proofs.Order.Cycles
import FlowPlan.Proofs.Order.Line
import FlowPlan.Proofs.Order.Links
import FlowPlan.Proofs.Order.Outcome
import FlowPlan.Proofs.Order.Placing
import FlowPlan.Proofs.Order.Recorded
import FlowPlan.Proofs.Order.Relation
import FlowPlan.Proofs.Order.Topological
import FlowPlan.Proofs.Plan.Stages
import FlowPlan.Proofs.Plan.Strays
import FlowPlan.Proofs.Replay.Calls
import FlowPlan.Proofs.Results
import FlowPlan.Proofs.Script.Meaning
import FlowPlan.Proofs.Script.Replayed
import FlowPlan.Proofs.Workspace.Blocks
import FlowPlan.Proofs.Workspace.DefinedBeforeUse
import FlowPlan.Script.Basic
import FlowPlan.Script.Expr
import FlowPlan.Text.Blank
import FlowPlan.Text.Identifier
import FlowPlan.Text.Numeral
import FlowPlan.Text.Quoted
import FlowPlan.Transaction.Amount
import FlowPlan.Transaction.Assembly
import FlowPlan.Transaction.Basic
import FlowPlan.Transaction.Form
import FlowPlan.Transaction.Network
import FlowPlan.Transaction.Replay
import FlowPlan.Proofs.Text.Integers
import FlowPlan.Proofs.Script.Literals
import FlowPlan.Proofs.Form.Fields
import FlowPlan.Proofs.Form.Graph
import FlowPlan.Proofs.Form.Transaction
import FlowPlan.Proofs.Editing.Declared
import FlowPlan.Proofs.Editing.Commuting
import FlowPlan.Proofs.Editing.Rules
import FlowPlan.Proofs.Editing.Supplying
import FlowPlan.Proofs.Text.Amounts
import FlowPlan.Proofs.Script.Titles
import FlowPlan.Proofs.Script.Names
import FlowPlan.Proofs.Workspace.Keys
import FlowPlan.Proofs.Order.Counters
import FlowPlan.Proofs.Json.Rounding
