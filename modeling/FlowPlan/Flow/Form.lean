import FlowPlan.Flow.Node

/-!
# Flow — nodes in JSON

The JSON form of nodes and of what they consist of.  A node carries its kind under `type`, and
what an operation does stands under `kind` of its own object.  Writing leaves out an absent title,
label or output; reading takes an absent list, map or flag as empty or false.
-/

namespace FlowPlan

/-- Reads the members of an object as the entries of a map. -/
def OrderedMap.ofJson? {α : Type} (read : Json → Option α) (j : Json) :
    Option (OrderedMap String α) := do
  let members ← j.members?
  let entries ← members.mapM fun m => (read m.2).map fun x => (m.1, x)
  some (.ofList entries)

/-- The entries of a map as the members of an object. -/
def OrderedMap.toJson {α : Type} (write : α → Json) (m : OrderedMap String α) : Json :=
  .obj (m.entries.map fun e => (e.1, write e.2))

/-! ### Inputs and outputs -/

/-- Reads a role. -/
def Role.ofJson? (empty : Json.EmptyContent) (j : Json) : Option Role :=
  (j.choice? empty).bind Role.ofName?

/-- The JSON form of an input. -/
def Input.toJson (i : Input) : Json :=
  .obj ([("name", .str i.name), ("type", i.type.toJson), ("role", .str i.role.name)] ++
    Json.member? "label" .str i.label ++ Json.member? "validValues" Json.strings i.validValues)

/-- Reads an input. -/
def Input.ofJson? (empty : Json.EmptyContent) (j : Json) : Option Input := do
  let fields ← j.members?
  let name ← Fields.required? fields "name" Json.string?
  let type ← Fields.required? fields "type" (ParamType.ofJson? empty)
  let role ← Fields.defaulted? fields "role" (Role.ofJson? empty) .parameter
  let label ← Fields.optional? fields "label" Json.string?
  let validValues ← Fields.optional? fields "validValues" (Json.list? Json.string?)
  some { name, type, role, label, validValues }

/-- The JSON form of an output. -/
def Output.toJson (o : Output) : Json :=
  .obj ([("name", .str o.name), ("type", o.type.toJson)] ++ Json.member? "label" .str o.label)

/-- Reads an output. -/
def Output.ofJson? (empty : Json.EmptyContent) (j : Json) : Option Output := do
  let fields ← j.members?
  let name ← Fields.required? fields "name" Json.string?
  let type ← Fields.required? fields "type" (ParamType.ofJson? empty)
  let label ← Fields.optional? fields "label" Json.string?
  some { name, type, label }

/-! ### Operations -/

/-- The members of an action's object. -/
def Action.members : Action → List (String × Json)
  | .start => [("kind", .str "start")]
  | .call c =>
    [("kind", .str "call"), ("isMethod", .bool c.isMethod), ("templateName", .str c.templateName),
      ("templateAddress", .str c.templateAddress), ("function", c.function.toJson)]
  | .emitLog => [("kind", .str "emit_log")]
  | .assertBucketContains => [("kind", .str "assert_bucket_contains")]
  | .allocateAddress .component => [("kind", .str "allocate_component_address")]
  | .allocateAddress .resource => [("kind", .str "allocate_resource_address")]

/-- The JSON form of an action. -/
def Action.toJson (a : Action) : Json :=
  .obj a.members

/-- Reads what a call node calls. -/
def Call.ofFields? (fields : Fields) : Option Call := do
  let isMethod ← fields.required? "isMethod" Json.bool?
  let templateName ← fields.required? "templateName" Json.string?
  let templateAddress ← fields.required? "templateAddress" Json.string?
  let function ← fields.required? "function" (Function.ofJson? .nullOrNoMembers)
  some { isMethod, templateName, templateAddress, function }

/-- Reads an action. -/
def Action.ofJson? (j : Json) : Option Action := do
  let fields ← j.members?
  match ← Fields.required? fields "kind" Json.string? with
  | "start" => some .start
  | "call" => (Call.ofFields? fields).map .call
  | "emit_log" => some .emitLog
  | "assert_bucket_contains" => some .assertBucketContains
  | "allocate_component_address" => some (.allocateAddress .component)
  | "allocate_resource_address" => some (.allocateAddress .resource)
  | _ => none

/-- The JSON form of an operation. -/
def OperationNode.toJson (n : OperationNode) : Json :=
  .obj ([("type", .str "operation"), ("id", .str n.id), ("operation", n.action.toJson)] ++
    Json.member? "title" .str n.title ++ [("inputs", .arr (n.inputs.map Input.toJson))] ++
    Json.member? "output" Output.toJson n.output ++
    [("values", n.values.toJson StoredValue.toJson), ("hasEntry", .bool n.hasEntry),
      ("hasExit", .bool n.hasExit)])

/-- Reads an operation. -/
def OperationNode.ofFields? (fields : Fields) : Option OperationNode := do
  let id ← fields.required? "id" Json.string?
  let action ← fields.required? "operation" Action.ofJson?
  let title ← fields.optional? "title" Json.string?
  let inputs ← fields.defaulted? "inputs" (Json.list? (Input.ofJson? .nullOrNoMembers)) []
  let output ← fields.optional? "output" (Output.ofJson? .nullOrNoMembers)
  let values ← fields.defaulted? "values" (OrderedMap.ofJson? StoredValue.ofJson?) .empty
  let hasEntry ← fields.defaulted? "hasEntry" Json.bool? false
  let hasExit ← fields.defaulted? "hasExit" Json.bool? false
  some { id, action, title, inputs, output, values, hasEntry, hasExit }

/-! ### Input banks -/

/-- The JSON form of a bank parameter. -/
def BankParam.toJson (p : BankParam) : Json :=
  .obj [("id", .str p.id), ("name", .str p.name), ("type", p.type.toJson)]

/-- Reads a bank parameter. -/
def BankParam.ofJson? (empty : Json.EmptyContent) (j : Json) : Option BankParam := do
  let fields ← j.members?
  let id ← Fields.required? fields "id" Json.string?
  let name ← Fields.required? fields "name" Json.string?
  let type ← Fields.required? fields "type" (ParamType.ofJson? empty)
  some { id, name, type }

/-- The JSON form of an input bank. -/
def InputBank.toJson (b : InputBank) : Json :=
  .obj [("type", .str "input_bank"), ("id", .str b.id), ("title", .str b.title),
    ("params", .arr (b.params.map BankParam.toJson)), ("values", b.values.toJson StoredValue.toJson)]

/-- Reads an input bank. -/
def InputBank.ofFields? (fields : Fields) : Option InputBank := do
  let id ← fields.required? "id" Json.string?
  let title ← fields.required? "title" Json.string?
  let params ← fields.defaulted? "params" (Json.list? (BankParam.ofJson? .nullOrNoMembers)) []
  let values ← fields.defaulted? "values" (OrderedMap.ofJson? StoredValue.ofJson?) .empty
  some { id, title, params, values }

/-! ### Nodes -/

/-- The JSON form of a node. -/
def Node.toJson : Node → Json
  | .operation n => n.toJson
  | .inputBank b => b.toJson

/-- Reads a node. -/
def Node.ofJson? (j : Json) : Option Node := do
  let fields ← j.members?
  match ← Fields.required? fields "type" Json.string? with
  | "operation" => (OperationNode.ofFields? fields).map .operation
  | "input_bank" => (InputBank.ofFields? fields).map .inputBank
  | _ => none

end FlowPlan
