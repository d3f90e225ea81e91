import FlowPlan.Flow.Edge
import FlowPlan.Flow.StoredValue
import FlowPlan.Flow.Template
import FlowPlan.OrderedMap

/-!
# Flow — nodes

A node is an operation or an input bank.

An operation is one step of the transaction.  It declares typed inputs and at most one output,
holds values that were typed into it, and may have a point where control enters and one where it
leaves.  The first input of a method call may be the receiver, which is the component the method
is invoked on.

An input bank is a titled set of parameters that are supplied from outside.  Banks take no part in
control flow.  The title doubles as an identifier of the generated module; parameters are
addressed by their own identifiers, so that renaming one breaks no edge.
-/

namespace FlowPlan

/-! ### Inputs and outputs -/

/-- How an input is supplied. -/
inductive Role where
  /-- A constant that is typed into the node. -/
  | constant
  /-- A positional argument. -/
  | parameter
  /-- The component that a method is invoked on. -/
  | receiver
  deriving DecidableEq

/-- The name of a role in JSON. -/
def Role.name : Role → String
  | .constant => "none"
  | .parameter => "parameter"
  | .receiver => "component_address"

/-- The role of a name. -/
def Role.ofName? (name : String) : Option Role :=
  [Role.constant, .parameter, .receiver].find? (·.name = name)

theorem Role.ofName?_name (r : Role) : Role.ofName? r.name = some r := by
  cases r <;> decide

/-- A declared input of an operation. -/
structure Input where
  name : String
  type : ParamType
  role : Role
  label : Option String
  /-- The accepted values, where the input is a choice. -/
  validValues : Option (List String)
  deriving DecidableEq

namespace Input

/-- A positional argument. -/
def parameter (name : String) (type : ParamType) : Input :=
  ⟨name, type, .parameter, none, none⟩

/-- A constant that is typed into the node. -/
def constant (name label : String) (type : ParamType) : Input :=
  ⟨name, type, .constant, some label, none⟩

/-- The name of the receiver input. -/
def receiverName : String := "__component_address__"

/-- The component that a method is invoked on. -/
def receiver : Input :=
  ⟨receiverName, .other "Component", .receiver, some "Component Address", none⟩

end Input

/-- The output of an operation. -/
structure Output where
  name : String
  type : ParamType
  label : Option String
  deriving DecidableEq

/-- The type that a handle of the output carries: the whole under the output's own name, or a
component of a tuple of two under the handle of that component. -/
def Output.handleType? (o : Output) (handle : String) : Option ParamType :=
  if handle = o.name then some o.type
  else do
    let half ← TupleHalf.ofHandle? handle
    let (first, second) ← o.type.pair?
    match half with
    | .first => some first
    | .second => some second

/-! ### Operations -/

/-- What a call node calls. -/
structure Call where
  isMethod : Bool
  templateName : String
  templateAddress : String
  function : Function
  deriving DecidableEq

/-- The kind of an address that is reserved. -/
inductive AddressKind where
  | component
  | resource
  deriving DecidableEq

/-- The name of an address kind. -/
def AddressKind.name : AddressKind → String
  | .component => "Component"
  | .resource => "Resource"

/-- What an operation does. -/
inductive Action where
  /-- Marks where the flow begins. -/
  | start
  /-- Calls a function of a template or a method of a component. -/
  | call (c : Call)
  /-- Writes a line to the log. -/
  | emitLog
  /-- Demands a least amount of a resource in a bucket. -/
  | assertBucketContains
  /-- Reserves an address in the workspace of the transaction. -/
  | allocateAddress (kind : AddressKind)
  deriving DecidableEq

/-- Reserves an address, and so writes the workspace by itself. -/
def Action.isAllocation : Action → Bool
  | .allocateAddress _ => true
  | _ => false

/-- One step of the transaction. -/
structure OperationNode where
  id : NodeId
  action : Action
  title : Option String
  inputs : List Input
  output : Option Output
  /-- Typed-in values by input name. -/
  values : OrderedMap String StoredValue
  hasEntry : Bool
  hasExit : Bool
  deriving DecidableEq

namespace OperationNode

/-- An operation with both control points and nothing else. -/
def new (id : NodeId) (action : Action) : OperationNode :=
  ⟨id, action, none, [], none, .empty, true, true⟩

/-- The node under a title. -/
def withTitle (n : OperationNode) (title : String) : OperationNode :=
  { n with title := some title }

/-- The node with one more input, at the end. -/
def withInput (n : OperationNode) (input : Input) : OperationNode :=
  { n with inputs := n.inputs ++ [input] }

/-- The node with this output. -/
def withOutput (n : OperationNode) (output : Output) : OperationNode :=
  { n with output := some output }

/-- The node with a value for an input. -/
def withValue (n : OperationNode) (input : String) (value : StoredValue) : OperationNode :=
  { n with values := n.values.insert input value }

/-- Where the flow begins: no entry. -/
def start (id : NodeId) : OperationNode :=
  { new id .start with hasEntry := false }

/-- The levels of a log line. -/
def logLevels : List String :=
  ["Error", "Warn", "Info", "Debug"]

/-- The input of a log line's level. -/
def logLevelName : String := "log_level"

/-- The input of a log line's text. -/
def logMessageName : String := "message"

/-- Writes a line to the log, at a level from a list. -/
def emitLog (id : NodeId) : OperationNode :=
  let level := Input.constant logLevelName "Log Level" .string
  (new id .emitLog).withTitle "Emit Log"
    |>.withInput { level with validValues := some logLevels }
    |>.withInput (.constant logMessageName "Message" .string)

/-- Demands a least amount of a resource in a bucket. -/
def assertBucketContains (id : NodeId) : OperationNode :=
  (new id .assertBucketContains).withTitle "Assert Bucket Contains"
    |>.withInput (.constant "key" "Key" (.vec (.scalar (.unsigned .w8))))
    |>.withInput (.constant "resource_address" "Resource Address" (.other "ResourceAddress"))
    |>.withInput (.constant "min_amount" "Minimum Amount" (.other "Amount"))

/-- Reserves the address of a component. -/
def allocateComponentAddress (id : NodeId) : OperationNode :=
  (new id (.allocateAddress .component)).withTitle "Allocate Component Address"
    |>.withInput (.constant "component_name" "Component Name" .string)
    |>.withOutput ⟨"component_address_allocation", .other "ComponentAddressAllocation",
      some "ComponentAddressAllocation"⟩

/-- Reserves the address of a resource. -/
def allocateResourceAddress (id : NodeId) : OperationNode :=
  (new id (.allocateAddress .resource)).withTitle "Allocate Resource Address"
    |>.withInput (.constant "resource_name" "Resource Name" .string)
    |>.withOutput ⟨"resource_address_allocation", .other "ResourceAddressAllocation",
      some "ResourceAddressAllocation"⟩

/-- The first input of this name. -/
def input? (n : OperationNode) (name : String) : Option Input :=
  n.inputs.find? (·.name = name)

/-- What users know the node by: its title, else its identifier. -/
def label (n : OperationNode) : String :=
  n.title.getD n.id

/-- The label, or a fixed name for the node where the flow begins. -/
def displayName (n : OperationNode) : String :=
  if n.action = .start then "Start node" else n.label

end OperationNode

/-- The input that an argument becomes: the receiver, or a positional argument. -/
def Argument.toInput (a : Argument) : Input :=
  if a.isSelf then .receiver else .parameter a.name a.type

/-- A node that calls an exported function, and `none` where the template has no such function. -/
def Template.callNode? (t : Template) (address : String) (id : NodeId) (name : String) :
    Option OperationNode := do
  let f ← t.function? name
  some
    { OperationNode.new id (.call ⟨f.isMethod, t.name, address, f⟩) with
      title := some name
      inputs := f.arguments.map Argument.toInput
      output := some ⟨Handle.result, f.output, none⟩ }

/-! ### Input banks -/

/-- A parameter of an input bank. -/
structure BankParam where
  id : ParamId
  name : String
  type : ParamType
  deriving DecidableEq

/-- A titled set of parameters that are supplied from outside. -/
structure InputBank where
  id : NodeId
  title : String
  params : List BankParam
  /-- Values by parameter identifier. -/
  values : OrderedMap ParamId StoredValue
  deriving DecidableEq

namespace InputBank

/-- A bank without parameters. -/
def new (id : NodeId) (title : String) : InputBank :=
  ⟨id, title, [], .empty⟩

/-- The bank with one more parameter and, if given, its value. -/
def withParam (b : InputBank) (param : BankParam) (value : Option StoredValue) : InputBank :=
  { b with
    params := b.params ++ [param]
    values := match value with
      | some v => b.values.insert param.id v
      | none => b.values }

/-- The first parameter of this identifier. -/
def param? (b : InputBank) (id : ParamId) : Option BankParam :=
  b.params.find? (·.id = id)

/-- The data of a parameter whose value was read successfully. -/
def value? (b : InputBank) (id : ParamId) : Option Value :=
  (b.values.get? id).bind StoredValue.value

end InputBank

/-! ### Nodes -/

/-- A node of a flow graph. -/
inductive Node where
  | operation (n : OperationNode)
  | inputBank (b : InputBank)
  deriving DecidableEq

namespace Node

/-- The identifier of a node. -/
def id : Node → NodeId
  | .operation n => n.id
  | .inputBank b => b.id

/-- The node as an operation. -/
def operation? : Node → Option OperationNode
  | .operation n => some n
  | .inputBank _ => none

/-- The node as an input bank. -/
def inputBank? : Node → Option InputBank
  | .operation _ => none
  | .inputBank b => some b

/-- The name of the kind of node. -/
def kindName : Node → String
  | .operation _ => "operation"
  | .inputBank _ => "input_bank"

end Node

end FlowPlan
