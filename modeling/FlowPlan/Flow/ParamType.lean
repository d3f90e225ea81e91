import FlowPlan.Json.Fields

/-!
# Flow — parameter types

The types of template functions' parameters, of node inputs and outputs, and of bank parameters.
Two types are compatible exactly when they are equal.

In JSON a scalar type is a choice among names, and any other type is an object with one member:
`Vec` over the item type, `Tuple` over the list of component types, `Other` over an object with the
type's name.
-/

namespace FlowPlan

/-- The width of an integer type. -/
inductive Width where
  | w8 | w16 | w32 | w64 | w128
  deriving DecidableEq

/-- The number of bits of a width. -/
def Width.bits : Width → Nat
  | .w8 => 8
  | .w16 => 16
  | .w32 => 32
  | .w64 => 64
  | .w128 => 128

/-- A type without components. -/
inductive Scalar where
  /-- The type of a function that returns nothing. -/
  | unit
  | bool
  | signed (w : Width)
  | unsigned (w : Width)
  | string
  deriving DecidableEq

/-- The name of a scalar type. -/
def Scalar.name : Scalar → String
  | .unit => "Unit"
  | .bool => "Bool"
  | .signed .w8 => "I8"
  | .signed .w16 => "I16"
  | .signed .w32 => "I32"
  | .signed .w64 => "I64"
  | .signed .w128 => "I128"
  | .unsigned .w8 => "U8"
  | .unsigned .w16 => "U16"
  | .unsigned .w32 => "U32"
  | .unsigned .w64 => "U64"
  | .unsigned .w128 => "U128"
  | .string => "String"

/-- The scalar types. -/
def Scalar.all : List Scalar :=
  let widths : List Width := [.w8, .w16, .w32, .w64, .w128]
  [.unit, .bool] ++ widths.map .signed ++ widths.map .unsigned ++ [.string]

/-- The scalar type of a name. -/
def Scalar.ofName? (name : String) : Option Scalar :=
  Scalar.all.find? (·.name = name)

theorem Scalar.ofName?_name (s : Scalar) : Scalar.ofName? s.name = some s := by
  rcases s with _ | _ | w | w | _
  case signed => cases w <;> decide
  case unsigned => cases w <;> decide
  all_goals decide

/-- The type of an input, of an output or of a bank parameter. -/
inductive ParamType where
  | scalar (s : Scalar)
  | vec (item : ParamType)
  | tuple (components : List ParamType)
  /-- A type that is known by its name only. -/
  | other (name : String)
  deriving Inhabited

namespace ParamType

/-! ### Equality is decidable -/

mutual

private def decideEq : (s t : ParamType) → Decidable (s = t)
  | .scalar a, t => match t with
    | .scalar b => decidable_of_iff (a = b) ⟨congrArg _, ParamType.scalar.inj⟩
    | .vec _ | .tuple _ | .other _ => isFalse nofun
  | .vec a, t => match t with
    | .vec b => match decideEq a b with
      | isTrue h => isTrue (congrArg _ h)
      | isFalse h => isFalse fun e => h (ParamType.vec.inj e)
    | .scalar _ | .tuple _ | .other _ => isFalse nofun
  | .tuple as, t => match t with
    | .tuple bs => match decideEqAll as bs with
      | isTrue h => isTrue (congrArg _ h)
      | isFalse h => isFalse fun e => h (ParamType.tuple.inj e)
    | .scalar _ | .vec _ | .other _ => isFalse nofun
  | .other a, t => match t with
    | .other b => decidable_of_iff (a = b) ⟨congrArg _, ParamType.other.inj⟩
    | .scalar _ | .vec _ | .tuple _ => isFalse nofun

private def decideEqAll : (as bs : List ParamType) → Decidable (as = bs)
  | [], [] => isTrue rfl
  | [], _ :: _ => isFalse nofun
  | _ :: _, [] => isFalse nofun
  | a :: as, b :: bs => match decideEq a b, decideEqAll as bs with
    | isTrue h, isTrue t => isTrue (by rw [h, t])
    | isFalse h, _ => isFalse fun e => h (List.cons.inj e).1
    | _, isFalse t => isFalse fun e => t (List.cons.inj e).2

end

instance : DecidableEq ParamType := decideEq

/-! ### The common types -/

/-- The unit type. -/
abbrev unit : ParamType := .scalar .unit

/-- The type of truth values. -/
abbrev bool : ParamType := .scalar .bool

/-- The type of texts. -/
abbrev string : ParamType := .scalar .string

/-! ### Queries -/

/-- The type of a function that returns nothing. -/
def isUnit : ParamType → Bool
  | .scalar .unit => true
  | _ => false

/-- A tuple of any length. -/
def isTuple : ParamType → Bool
  | .tuple _ => true
  | _ => false

/-- The component types of a tuple of two. -/
def pair? : ParamType → Option (ParamType × ParamType)
  | .tuple [first, second] => some (first, second)
  | _ => none

mutual

/-- The type as it is shown to users. -/
def display : ParamType → String
  | .scalar s => s.name
  | .vec item => "Vec<" ++ item.display ++ ">"
  | .tuple components => "Tuple<" ++ displayAll components ++ ">"
  | .other name => name

/-- The types of a list as they are shown to users, commas between them. -/
def displayAll : List ParamType → String
  | [] => ""
  | [t] => t.display
  | t :: rest => t.display ++ ", " ++ displayAll rest

end

/-! ### The form in JSON -/

mutual

/-- The JSON form of a type. -/
def toJson : ParamType → Json
  | .scalar s => .str s.name
  | .vec item => .obj [("Vec", item.toJson)]
  | .tuple components => .obj [("Tuple", .arr (toJsonAll components))]
  | .other name => .obj [("Other", .obj [("name", .str name)])]

/-- The JSON forms of the types of a list. -/
def toJsonAll : List ParamType → List Json
  | [] => []
  | t :: rest => t.toJson :: toJsonAll rest

end

/-- The name that the content of an `Other` type holds. -/
def otherName? (content : Json) : Option String := do
  let fields ← content.members?
  Fields.required? fields "name" Json.string?

mutual

/-- Reads a type. -/
def ofJson? (empty : Json.EmptyContent) : Json → Option ParamType
  | .str name => (Scalar.ofName? name).map .scalar
  | .obj [(tag, content)] =>
    if tag = "Vec" then (ofJson? empty content).map .vec
    else if tag = "Tuple" then
      match content with
      | .arr items => (ofJsonAll? empty items).map .tuple
      | _ => none
    else if tag = "Other" then (otherName? content).map .other
    else if empty.admits content then (Scalar.ofName? tag).map .scalar
    else none
  | _ => none

/-- Reads the types of a list. -/
def ofJsonAll? (empty : Json.EmptyContent) : List Json → Option (List ParamType)
  | [] => some []
  | j :: rest => do
    let t ← ofJson? empty j
    let ts ← ofJsonAll? empty rest
    some (t :: ts)

end

end ParamType

end FlowPlan
