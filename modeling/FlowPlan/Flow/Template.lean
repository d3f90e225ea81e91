import FlowPlan.Flow.ParamType

/-!
# Flow — templates

A template is a published contract that exports functions.  A function whose first argument is
`self` is a method, which is invoked on a component; any other is called on the template.
-/

namespace FlowPlan

/-- An argument of a template function. -/
structure Argument where
  name : String
  type : ParamType
  deriving DecidableEq

/-- The name of the argument that stands for the component. -/
def selfName : String := "self"

/-- Stands for the component that a method is invoked on. -/
def Argument.isSelf (a : Argument) : Bool :=
  a.name = selfName

/-- A function that a template exports. -/
structure Function where
  name : String
  arguments : List Argument
  output : ParamType
  deriving DecidableEq

/-- Takes `self` first. -/
def Function.isMethod (f : Function) : Bool :=
  f.arguments.head?.any Argument.isSelf

/-- The exported interface of a template. -/
structure Template where
  name : String
  functions : List Function
  deriving DecidableEq

/-- The first function of this name. -/
def Template.function? (t : Template) (name : String) : Option Function :=
  t.functions.find? (·.name = name)

/-! ### The form in JSON -/

/-- The JSON form of an argument. -/
def Argument.toJson (a : Argument) : Json :=
  .obj [("name", .str a.name), ("arg_type", a.type.toJson)]

/-- Reads an argument. -/
def Argument.ofJson? (empty : Json.EmptyContent) (j : Json) : Option Argument := do
  let fields ← j.members?
  let name ← Fields.required? fields "name" Json.string?
  let type ← Fields.required? fields "arg_type" (ParamType.ofJson? empty)
  some { name, type }

/-- The JSON form of a function. -/
def Function.toJson (f : Function) : Json :=
  .obj [("name", .str f.name), ("arguments", .arr (f.arguments.map Argument.toJson)),
    ("output", f.output.toJson)]

/-- Reads a function. -/
def Function.ofJson? (empty : Json.EmptyContent) (j : Json) : Option Function := do
  let fields ← j.members?
  let name ← Fields.required? fields "name" Json.string?
  let arguments ← Fields.defaulted? fields "arguments" (Json.list? (Argument.ofJson? empty)) []
  let output ← Fields.required? fields "output" (ParamType.ofJson? empty)
  some { name, arguments, output }

/-- Reads a template. -/
def Template.ofJson? (j : Json) : Option Template := do
  let fields ← j.members?
  let name ← Fields.required? fields "template_name" Json.string?
  let functions ← Fields.defaulted? fields "functions" (Json.list? (Function.ofJson? .nullOnly)) []
  some { name, functions }

end FlowPlan
