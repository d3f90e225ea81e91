import FlowPlan.Transaction.Basic

/-!
# Transaction — the form in JSON

Arguments and primitives carry their kind under `type`.  The banks of the context are the members
of one object, in their order.  Writing leaves out an absent component and an empty list of skipped
nodes, and shows an absent value as `null`.
-/

namespace FlowPlan

/-! ### Arguments -/

namespace Arg

/-- The JSON form of an argument. -/
def toJson : Arg → Json
  | .workspace node half =>
    .obj ([("type", .str "workspace"), ("node", .str node)] ++
      Json.member? "slot" (fun half => .str half.name) half)
  | .input bank param value =>
    .obj [("type", .str "input"), ("bank", .str bank), ("param", param.toJson),
      ("value", Json.ofOption Value.json value)]
  | .literal value => .obj [("type", .str "literal"), ("value", value.json)]

/-- Reads a workspace reference. -/
def workspaceOfFields? (fields : Fields) : Option Arg := do
  let node ← fields.required? "node" Json.string?
  let half ← fields.optional? "slot" (TupleHalf.ofJson? .nullOrNoMembers)
  some (.workspace node half)

/-- Reads a reference to a bank parameter. -/
def inputOfFields? (fields : Fields) : Option Arg := do
  let bank ← fields.required? "bank" Json.string?
  let param ← fields.required? "param" (BankParam.ofJson? .nullOrNoMembers)
  let value ← fields.optional? "value" Json.value?
  some (.input bank param value)

/-- Reads a literal. -/
def literalOfFields? (fields : Fields) : Option Arg := do
  let value ← fields.defaulted? "value" Json.value? .null
  some (.literal value)

/-- Reads an argument. -/
def ofJson? (j : Json) : Option Arg := do
  let fields ← j.members?
  match ← Fields.required? fields "type" Json.string? with
  | "workspace" => workspaceOfFields? fields
  | "input" => inputOfFields? fields
  | "literal" => literalOfFields? fields
  | _ => none

end Arg

/-! ### Primitives -/

namespace Primitive

/-- The name of a primitive that reserves an address. -/
def allocateName : AddressKind → String
  | .component => "allocateComponentAddress"
  | .resource => "allocateResourceAddress"

/-- The JSON form of a primitive. -/
def toJson : Primitive → Json
  | .payFee account fee =>
    .obj [("type", .str "payFee"), ("account", .str account), ("fee", fee.toJson)]
  | .callMethod receiver method args =>
    .obj [("type", .str "callMethod"), ("componentAddress", receiver.toJson),
      ("methodName", .str method), ("args", .arr (args.map Arg.toJson))]
  | .callFunction templateAddress function args =>
    .obj [("type", .str "callFunction"), ("templateAddress", .str templateAddress),
      ("functionName", .str function), ("args", .arr (args.map Arg.toJson))]
  | .emitLog level message =>
    .obj [("type", .str "addInstruction"), ("instruction",
      .obj [("EmitLog", .obj [("level", level.toJson), ("message", message.toJson)])])]
  | .allocateAddress kind workspaceId =>
    .obj [("type", .str (allocateName kind)), ("workspaceId", .str workspaceId)]
  | .saveVar key => .obj [("type", .str "saveVar"), ("key", .str key)]

/-- Reads a fee payment. -/
def payFeeOfFields? (fields : Fields) : Option Primitive := do
  let account ← fields.required? "account" Json.string?
  let fee ← fields.required? "fee" Amount.ofJson?
  some (.payFee account fee)

/-- Reads a method call. -/
def callMethodOfFields? (fields : Fields) : Option Primitive := do
  let receiver ← fields.required? "componentAddress" Arg.ofJson?
  let method ← fields.required? "methodName" Json.string?
  let args ← fields.required? "args" (Json.list? Arg.ofJson?)
  some (.callMethod receiver method args)

/-- Reads a function call. -/
def callFunctionOfFields? (fields : Fields) : Option Primitive := do
  let templateAddress ← fields.required? "templateAddress" Json.string?
  let function ← fields.required? "functionName" Json.string?
  let args ← fields.required? "args" (Json.list? Arg.ofJson?)
  some (.callFunction templateAddress function args)

/-- Reads an instruction, which is an object with one member. -/
def instructionOfJson? : Json → Option Primitive
  | .obj [("EmitLog", content)] => do
    let fields ← content.members?
    let level ← Fields.required? fields "level" Arg.ofJson?
    let message ← Fields.required? fields "message" Arg.ofJson?
    some (.emitLog level message)
  | _ => none

/-- Reads a primitive that reserves an address. -/
def allocateOfFields? (kind : AddressKind) (fields : Fields) : Option Primitive := do
  let workspaceId ← fields.required? "workspaceId" Json.string?
  some (.allocateAddress kind workspaceId)

/-- Reads a primitive that leaves a result in the workspace. -/
def saveVarOfFields? (fields : Fields) : Option Primitive := do
  let key ← fields.required? "key" Json.string?
  some (.saveVar key)

/-- Reads a primitive. -/
def ofJson? (j : Json) : Option Primitive := do
  let fields ← j.members?
  match ← Fields.required? fields "type" Json.string? with
  | "payFee" => payFeeOfFields? fields
  | "callMethod" => callMethodOfFields? fields
  | "callFunction" => callFunctionOfFields? fields
  | "addInstruction" => Fields.required? fields "instruction" instructionOfJson?
  | "allocateComponentAddress" => allocateOfFields? .component fields
  | "allocateResourceAddress" => allocateOfFields? .resource fields
  | "saveVar" => saveVarOfFields? fields
  | _ => none

end Primitive

/-! ### Transactions -/

/-- The JSON form of a supplied parameter. -/
def SuppliedParam.toJson (p : SuppliedParam) : Json :=
  .obj [("param", p.param.toJson), ("value", Json.ofOption Value.json p.value)]

/-- Reads a supplied parameter. -/
def SuppliedParam.ofJson? (j : Json) : Option SuppliedParam := do
  let fields ← j.members?
  let param ← Fields.required? fields "param" (BankParam.ofJson? .nullOnly)
  let value ← Fields.optional? fields "value" Json.value?
  some { param, value }

/-- The JSON form of a bank's parameters. -/
def SuppliedParam.listToJson (params : List SuppliedParam) : Json :=
  .arr (params.map SuppliedParam.toJson)

/-- The JSON form of a context. -/
def Context.toJson (c : Context) : Json :=
  .obj [("inputParams", OrderedMap.toJson SuppliedParam.listToJson c)]

/-- Reads a context. -/
def Context.ofJson? (j : Json) : Option Context := do
  let fields ← j.members?
  Fields.required? fields "inputParams" (OrderedMap.ofJson? (Json.list? SuppliedParam.ofJson?))

namespace Transaction

/-- The JSON form of a transaction. -/
def toJson (t : Transaction) : Json :=
  .obj ([("context", Context.toJson t.context),
    ("operations", .arr (t.operations.map Primitive.toJson))] ++
    if t.skipped = [] then [] else [("skipped", Json.strings t.skipped)])

/-- Reads a transaction. -/
def ofJson? (j : Json) : Option Transaction := do
  let fields ← j.members?
  let context ← Fields.required? fields "context" Context.ofJson?
  let operations ← Fields.required? fields "operations" (Json.list? Primitive.ofJson?)
  let skipped ← Fields.defaulted? fields "skipped" (Json.list? Json.string?) []
  some { context, operations, skipped }

end Transaction

/-- Reads who pays for a transaction, and how much. -/
def FeePayment.ofJson? (j : Json) : Option FeePayment := do
  let fields ← j.members?
  let account ← Fields.required? fields "account" Json.string?
  let fee ← Fields.required? fields "fee" Amount.ofJson?
  some { account, fee }

end FlowPlan
