import FlowPlan.Json.Printer
import FlowPlan.Transaction.Basic
import FlowPlan.Transaction.Network

/-!
# Transaction — replay

Building a transaction from its primitives.  Every primitive becomes one call on a transaction
builder, in order, until one cannot: a bank parameter without a value has nothing to pass, and a
method needs its component's address as a text.  The calls made before the failure stand.

* `Arg.unwrap`: the value that the builder gets for an argument.
* `replay`: the calls, and how the replay ended.
* `Transaction.build`: the unsigned transaction that the calls record.
-/

namespace FlowPlan

/-- A call on a transaction builder. -/
inductive BuilderCall where
  | payFee (account : String) (fee : Amount)
  | callMethod (address method : String) (args : List Value)
  | callFunction (templateAddress function : String) (args : List Value)
  | addInstruction (instruction : Value)
  | allocateAddress (kind : AddressKind) (workspaceId : NodeId)
  | saveVar (key : NodeId)
  deriving DecidableEq

/-- Why a primitive cannot be passed to a builder. -/
inductive BuildError where
  /-- A bank parameter has no value. -/
  | missingArgument (operation argument : String)
  /-- A method's receiver is no address text. -/
  | unsupportedReceiver (method : String) (found : Value)
  deriving DecidableEq

/-- The wording of a failure. -/
def BuildError.message : BuildError → String
  | .missingArgument operation argument =>
    "argument '" ++ argument ++ "' of " ++ operation ++ " has no value"
  | .unsupportedReceiver method found =>
    "method '" ++ method ++ "' needs a component address, got " ++ found.json.compact

/-! ### Arguments -/

namespace Arg

/-- What a builder gets for a workspace reference. -/
def workspaceValue (node : NodeId) (half : Option TupleHalf) : Value :=
  .tagged "Workspace" (workspaceKey node half)

/-- The value that a builder gets for an argument of an operation.  An argument without a name goes
by the name of its bank parameter. -/
def unwrap (operation argument : String) : Arg → Except BuildError Value
  | .workspace node half => .ok (workspaceValue node half)
  | .input _ _ (some value) => .ok value
  | .input _ param none =>
    .error (.missingArgument operation (if argument = "" then param.name else argument))
  | .literal value => .ok value

/-- The address that a method is invoked on. -/
def receiverAddress (method : String) (receiver : Arg) : Except BuildError String := do
  let value ← receiver.unwrap method "component address"
  match receiver.isWorkspace, value.json with
  | false, .str address => .ok address
  | _, _ => .error (.unsupportedReceiver method value)

end Arg

/-- The values of positional arguments. -/
def unwrapAll (operation : String) (args : List Arg) : Except BuildError (List Value) :=
  args.mapM (Arg.unwrap operation "")

/-! ### Calls -/

/-- The name of the instruction that writes a log line. -/
def emitLogName : String := "EmitLog"

/-- The call that a primitive becomes. -/
def Primitive.call : Primitive → Except BuildError BuilderCall
  | .payFee account fee => .ok (.payFee account fee)
  | .callMethod receiver method args => do
    let address ← receiver.receiverAddress method
    let args ← unwrapAll method args
    .ok (.callMethod address method args)
  | .callFunction templateAddress function args => do
    let args ← unwrapAll function args
    .ok (.callFunction templateAddress function args)
  | .emitLog level message => do
    let level ← level.unwrap emitLogName "level"
    let message ← message.unwrap emitLogName "message"
    let fields := [("level", level.json), ("message", message.json)]
    .ok (.addInstruction (.ofJson (.obj [(emitLogName, .obj fields)])))
  | .allocateAddress kind workspaceId => .ok (.allocateAddress kind workspaceId)
  | .saveVar key => .ok (.saveVar key)

/-- The calls of primitives in order, up to the first that cannot be made, and its error. -/
def replay : List Primitive → List BuilderCall × Except BuildError Unit
  | [] => ([], .ok ())
  | p :: rest =>
    match p.call with
    | .error e => ([], .error e)
    | .ok call =>
      let (calls, result) := replay rest
      (call :: calls, result)

/-! ### The record -/

namespace BuilderCall

/-- Pays a fee. -/
def isFee : BuilderCall → Bool
  | .payFee .. => true
  | _ => false

/-- An instruction of one kind with its fields. -/
def instructionOf (kind : String) (fields : List (String × Json)) : Value :=
  .ofJson (.obj [(kind, .obj fields)])

/-- A list of values as a document. -/
def listJson (values : List Value) : Json :=
  .arr (values.map Value.json)

/-- The ledger instruction that a call records. -/
def instruction : BuilderCall → Value
  | .payFee account fee =>
    instructionOf "CallMethod" [("component_address", .str account), ("method", .str "pay_fee"),
      ("args", .arr [fee.toJson])]
  | .callMethod address method args =>
    instructionOf "CallMethod" [("component_address", .str address), ("method", .str method),
      ("args", listJson args)]
  | .callFunction templateAddress function args =>
    instructionOf "CallFunction" [("template_address", .str templateAddress),
      ("function", .str function), ("args", listJson args)]
  | .addInstruction instruction => instruction
  | .allocateAddress kind workspaceId =>
    instructionOf "AllocateAddress" [("substate_type", .str kind.name),
      ("workspace_id", .str workspaceId)]
  | .saveVar key => instructionOf "PutLastInstructionOutputOnWorkspace" [("key", .str key)]

end BuilderCall

/-- A transaction that is ready to be signed. -/
structure UnsignedTransaction where
  network : Network
  feeInstructions : List Value
  instructions : List Value
  /-- The transaction is to be executed without being committed. -/
  dryRun : Bool
  deriving DecidableEq

namespace UnsignedTransaction

/-- The transaction that calls record: fee payments apart from the rest, each in their order. -/
def ofCalls (network : Network) (dryRun : Bool) (calls : List BuilderCall) :
    UnsignedTransaction where
  network
  feeInstructions := (calls.filter BuilderCall.isFee).map BuilderCall.instruction
  instructions := (calls.filter (!·.isFee)).map BuilderCall.instruction
  dryRun

/-- The JSON form. -/
def toJson (t : UnsignedTransaction) : Json :=
  .obj [("network", .str t.network.name),
    ("fee_instructions", BuilderCall.listJson t.feeInstructions),
    ("instructions", BuilderCall.listJson t.instructions), ("dry_run", .bool t.dryRun)]

end UnsignedTransaction

/-- The unsigned transaction that the replay of a transaction records, if it comes to its end. -/
def Transaction.build (t : Transaction) (network : Network) (dryRun : Bool) :
    Except BuildError UnsignedTransaction :=
  match replay t.operations with
  | (_, .error e) => .error e
  | (calls, .ok ()) => .ok (.ofCalls network dryRun calls)

end FlowPlan
