import FlowPlan.Plan.Schedule
import FlowPlan.Plan.Supply
import FlowPlan.Transaction.Assembly
import FlowPlan.Transaction.Form

/-!
# Plan — plans

A plan is the order in which the operations of a graph run, and the transaction of that order.
Planning orders, then asks whether every input is supplied, then assembles; the first of these that
fails decides the error.
-/

namespace FlowPlan

/-- An order and its transaction. -/
structure Plan where
  order : List NodeId
  transaction : Transaction
  deriving DecidableEq

/-- The JSON form of a plan. -/
def Plan.toJson (p : Plan) : Json :=
  .obj [("order", Json.strings p.order), ("details", p.transaction.toJson)]

namespace FlowGraph

/-- The order in which the operations run, where every input is supplied. -/
def executionOrder (g : FlowGraph) : Except PlanError (List NodeId) := do
  let order ← g.dependencies.order
  g.validate
  .ok order

/-- The plan of a graph. -/
def plan (g : FlowGraph) (payment : FeePayment) : Except PlanError Plan := do
  let order ← g.executionOrder
  let transaction ← g.assemble order payment
  .ok { order, transaction }

end FlowGraph

end FlowPlan
