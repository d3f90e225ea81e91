import FlowPlan.Flow.Graph
import FlowPlan.Transaction.Amount

/-!
# Transaction — primitives

A transaction is an ordered list of primitives, together with the parameters of the input banks
that their arguments refer to.  An argument is a value that another node left in the workspace, a
bank parameter, or a literal.

* `Arg.workspaceKey?`: the key under which the workspace holds an argument.
-/

namespace FlowPlan

/-- Where an argument comes from. -/
inductive Arg where
  /-- What a node left in the workspace, or a component of it. -/
  | workspace (node : NodeId) (half : Option TupleHalf)
  /-- A parameter of the bank of this title, with its value if it has one. -/
  | input (bank : String) (param : BankParam) (value : Option Value)
  /-- A value that is stored on the node itself. -/
  | literal (value : Value)
  deriving DecidableEq

/-- The key of a node's output in the workspace, or of a component of it. -/
def workspaceKey (node : NodeId) (half : Option TupleHalf) : String :=
  node ++ (half.map TupleHalf.keySuffix).getD ""

/-- The workspace key that an argument reads. -/
def Arg.workspaceKey? : Arg → Option String
  | .workspace node half => some (workspaceKey node half)
  | .input .. | .literal _ => none

/-- A workspace reference. -/
def Arg.isWorkspace : Arg → Bool
  | .workspace .. => true
  | .input .. | .literal _ => false

/-- One primitive step of a transaction. -/
inductive Primitive where
  /-- Pays the fee from an account. -/
  | payFee (account : String) (fee : Amount)
  /-- Invokes a method on a component. -/
  | callMethod (receiver : Arg) (method : String) (args : List Arg)
  /-- Calls a function of a template. -/
  | callFunction (templateAddress function : String) (args : List Arg)
  /-- Writes a line to the log. -/
  | emitLog (level message : Arg)
  /-- Reserves an address and leaves it in the workspace. -/
  | allocateAddress (kind : AddressKind) (workspaceId : NodeId)
  /-- Leaves the result of the last instruction in the workspace. -/
  | saveVar (key : NodeId)
  deriving DecidableEq

/-- A bank parameter with its value, if it has one. -/
structure SuppliedParam where
  param : BankParam
  value : Option Value
  deriving DecidableEq

/-- The parameters of the input banks, by title. -/
abbrev Context := OrderedMap String (List SuppliedParam)

/-- What a transaction is made of. -/
structure Transaction where
  context : Context
  operations : List Primitive
  /-- The nodes that no primitive stands for. -/
  skipped : List NodeId
  deriving DecidableEq

/-- Who pays for a transaction, and how much. -/
structure FeePayment where
  account : String
  fee : Amount
  deriving DecidableEq

end FlowPlan
