import FlowPlan.Plan.Error
import FlowPlan.Transaction.Basic

/-!
# Transaction — assembly

How operations in a given order become a transaction.  The fee is paid first; then every node adds
its own block of primitives.  An input takes its argument from the first edge that leaves a bank
parameter for it, else from the first data edge that leaves an operation for it, else from the
value that is stored on the node.  A node whose output some data edge takes is followed by a step
that leaves its result in the workspace, unless it reserves an address, which does so by itself.

* `FlowGraph.argument`: where an input takes its argument from.
* `FlowGraph.block`: what one node adds.
* `FlowGraph.assemble`: the transaction of an order.
-/

namespace FlowPlan

/-- What one node adds to a transaction. -/
structure Block where
  operations : List Primitive
  skipped : List NodeId
  deriving DecidableEq

/-- The block that adds nothing. -/
def Block.empty : Block :=
  ⟨[], []⟩

/-- The block of one primitive. -/
def Block.single (p : Primitive) : Block :=
  ⟨[p], []⟩

/-- The data that is stored on a node for an input, also of a failed reading. -/
def OperationNode.storedData (n : OperationNode) (input : String) : Value :=
  ((n.values.get? input).bind StoredValue.data).getD .null

namespace FlowGraph

/-! ### Arguments -/

/-- The bank parameter that an edge leaves. -/
def bankArg? (g : FlowGraph) (e : Edge) : Option Arg := do
  let handle ← e.sourceHandle
  let bank ← g.inputBank? e.source
  let param ← bank.param? handle
  some (.input bank.title param (bank.value? param.id))

/-- A data edge with both handles, from an operation to a declared input. -/
def isDataFeed (g : FlowGraph) (e : Edge) : Bool :=
  e.sourceHandle.isSome && e.isData && (g.operation? e.source).isSome &&
    e.targetHandle.any fun input => g.declaresInput e.target input

/-- The workspace reference that a data edge stands for. -/
def workspaceArg? (g : FlowGraph) (e : Edge) : Option Arg :=
  if g.isDataFeed e then some (.workspace e.source e.tupleHalf?) else none

/-- The edges that land on an input. -/
def edgesTo (g : FlowGraph) (node : NodeId) (input : String) : List Edge :=
  g.edges.filter (·.landsOn node input)

/-- Where an input takes its argument from. -/
def argument (g : FlowGraph) (n : OperationNode) (input : String) : Arg :=
  let edges := g.edgesTo n.id input
  match edges.findSome? g.bankArg?, edges.findSome? g.workspaceArg? with
  | some arg, _ => arg
  | none, some arg => arg
  | none, none => .literal (n.storedData input)

/-- The inputs of a list with their arguments. -/
def named (g : FlowGraph) (n : OperationNode) (inputs : List Input) : List (String × Arg) :=
  inputs.map fun i => (i.name, g.argument n i.name)

/-- The argument of the receiver, if the first input is one, and the other inputs. -/
def splitReceiver (g : FlowGraph) (n : OperationNode) : Option Arg × List Input :=
  match n.inputs with
  | [] => (none, [])
  | first :: rest =>
    if first.role = .receiver then (some (g.argument n first.name), rest) else (none, first :: rest)

/-! ### Blocks -/

/-- The argument under a name. -/
def takeNamed (node : NodeId) (args : List (String × Arg)) (name : String) :
    Except PlanError Arg :=
  match args.find? (·.1 = name) with
  | some arg => .ok arg.2
  | none => .error (.invalidNode node (PlanError.noInput name))

/-- The primitive of a call node. -/
def callPrimitive (node : NodeId) (c : Call) (receiver : Option Arg) (args : List Arg) :
    Except PlanError Primitive :=
  if c.isMethod then
    match receiver with
    | some receiver => .ok (.callMethod receiver c.function.name args)
    | none => .error (.invalidNode node PlanError.noReceiver)
  else .ok (.callFunction c.templateAddress c.function.name args)

/-- The primitives of a node's action. -/
def actionBlock (g : FlowGraph) (n : OperationNode) : Except PlanError Block :=
  let (receiver, inputs) := g.splitReceiver n
  let args := g.named n inputs
  match n.action with
  | .start => .ok .empty
  | .call c => (callPrimitive n.id c receiver (args.map Prod.snd)).map Block.single
  | .emitLog => do
    let level ← takeNamed n.id args OperationNode.logLevelName
    let message ← takeNamed n.id args OperationNode.logMessageName
    .ok (.single (.emitLog level message))
  | .assertBucketContains => .ok ⟨[], [n.id]⟩
  | .allocateAddress kind => .ok (.single (.allocateAddress kind n.id))

/-- Some data edge takes the node's output. -/
def isConsumed (g : FlowGraph) (node : NodeId) : Bool :=
  g.edges.any fun e => e.source = node && g.isDataFeed e

/-- The node's result has to be left in the workspace. -/
def needsSave (g : FlowGraph) (n : OperationNode) : Bool :=
  n.output.isSome && g.isConsumed n.id && !n.action.isAllocation

/-- What a node adds to a transaction. -/
def block (g : FlowGraph) (n : OperationNode) : Except PlanError Block := do
  let b ← g.actionBlock n
  .ok { b with operations := b.operations ++ if g.needsSave n then [.saveVar n.id] else [] }

/-- What the operation of this identifier adds to a transaction. -/
def blockOf (g : FlowGraph) (id : NodeId) : Except PlanError Block :=
  match g.operation? id with
  | some n => g.block n
  | none => .error (.unknownNode id)

/-! ### Transactions -/

/-- The parameters of a bank with their values. -/
def suppliedParams (bank : InputBank) : List SuppliedParam :=
  bank.params.map fun param => ⟨param, bank.value? param.id⟩

/-- The title of the bank that stands in where a graph has none. -/
def defaultBankTitle : String := "input"

/-- The parameters of all banks, by title. -/
def context (g : FlowGraph) : Context :=
  match g.inputBanks with
  | [] => .ofList [(defaultBankTitle, [])]
  | banks => .ofList (banks.map fun bank => (bank.title, suppliedParams bank))

/-- The transaction that runs operations in a given order. -/
def assemble (g : FlowGraph) (order : List NodeId) (payment : FeePayment) :
    Except PlanError Transaction := do
  let blocks ← order.mapM g.blockOf
  .ok
    { context := g.context
      operations := .payFee payment.account payment.fee :: blocks.flatMap Block.operations
      skipped := blocks.flatMap Block.skipped }

end FlowGraph

end FlowPlan
