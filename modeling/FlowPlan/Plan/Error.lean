import FlowPlan.Flow.Graph
import FlowPlan.Text.Numeral

/-!
# Plan — errors

Why a graph has no plan.  The first three causes are what a user mends by editing the graph; the
last two arise from orders and nodes that the wiring rules do not produce.  Each error has a short
wording and one for users, which shows nodes by their titles.
-/

namespace FlowPlan

/-- An operation with inputs that nothing supplies. -/
structure MissingInputs where
  node : NodeId
  label : String
  inputs : List String
  deriving DecidableEq

/-- Why a graph has no plan. -/
inductive PlanError where
  /-- The dependencies contain a cycle; the nodes on cycles, in graph order. -/
  | cycleDetected (nodes : List NodeId)
  /-- Two nodes are ready at once, and no relation between them fixes their order. -/
  | ambiguousOrder (first second : NodeId)
  | missingData (nodes : List MissingInputs)
  /-- An order names a node that the graph does not hold as an operation. -/
  | unknownNode (node : NodeId)
  /-- A node does not declare what its action needs. -/
  | invalidNode (node : NodeId) (reason : String)
  deriving DecidableEq

namespace PlanError

/-- Why a method call without a receiver is invalid. -/
def noReceiver : String :=
  "method call has no component address input"

/-- Why a node without an input of this name is invalid. -/
def noInput (name : String) : String :=
  "missing '" ++ name ++ "' input"

/-- The decimal form of a length. -/
private def count {α : Type} (xs : List α) : String :=
  String.ofList (Text.natural xs.length)

/-- The short wording. -/
def message : PlanError → String
  | .cycleDetected nodes => "cycle detected among " ++ count nodes ++ " node(s)"
  | .ambiguousOrder first second =>
    "ambiguous order between '" ++ first ++ "' and '" ++ second ++ "'"
  | .missingData nodes => "missing data in " ++ count nodes ++ " node(s)"
  | .unknownNode node => "unknown node in execution order: '" ++ node ++ "'"
  | .invalidNode node reason => "node '" ++ node ++ "' cannot be lowered: " ++ reason

/-- What users know a node by. -/
def nodeName (g : FlowGraph) (id : NodeId) : String :=
  ((g.operation? id).map OperationNode.displayName).getD id

/-- A name between double quotes. -/
private def inQuotes (name : String) : String :=
  "\"" ++ name ++ "\""

/-- The wording for users. -/
def userMessage (g : FlowGraph) : PlanError → String
  | .cycleDetected [] => "Cycle detected! Make sure to eliminate it."
  | .cycleDetected nodes =>
    "Cycle detected between " ++ ", ".intercalate (nodes.map fun id => inQuotes (nodeName g id)) ++
      " operations! Make sure to eliminate it."
  | .ambiguousOrder first second =>
    "Ambiguous order between " ++ inQuotes (nodeName g first) ++ " and " ++
      inQuotes (nodeName g second) ++ " operations. Please add explicit connections."
  | .missingData [] => "Missing data."
  | .missingData [only] => "Missing data in node " ++ inQuotes only.label
  | .missingData (first :: _) =>
    "Missing data in node " ++ inQuotes first.label ++ " and other nodes."
  | .unknownNode node => "Could not find node " ++ inQuotes node
  | .invalidNode node reason => "Node " ++ inQuotes (nodeName g node) ++ " is invalid: " ++ reason

end PlanError

end FlowPlan
