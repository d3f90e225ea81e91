import FlowPlan.Json.Value

/-!
# Json — fields of a structure

Reading structures from documents.  A structure is read from an object, which is the only form that
is written; the array of a structure's fields in their order, which the format has for it too, is
not read here.  Members under names that the structure does not know are ignored, and a known name
may come only once.  A field is required, or it may be absent, or it may be absent or `null`.

A choice among names is written as a string, or as an object with the name as its only key.  What
stands under that key is `null`; in the parts of an object that a tag tells apart (a node, what an
operation does, an argument of a transaction) it may be an object without members too.

Everything that goes wrong is one outcome, `none`: the document has the wrong shape.
-/

namespace FlowPlan

namespace Json

/-- The members of an object.  An array has none, also where it lists the fields of a structure. -/
def members? : Json → Option (List (String × Json))
  | .obj members => some members
  | _ => none

/-- The items of an array, each read by `read`. -/
def list? {α : Type} (read : Json → Option α) : Json → Option (List α)
  | .arr items => items.mapM read
  | _ => none

/-- A string. -/
def string? : Json → Option String
  | .str s => some s
  | _ => none

/-- A truth value. -/
def bool? : Json → Option Bool
  | .bool b => some b
  | _ => none

/-- What may stand for the content of a choice that has none. -/
inductive EmptyContent where
  /-- `null` only. -/
  | nullOnly
  /-- `null`, or an object without members. -/
  | nullOrNoMembers
  deriving DecidableEq

/-- A document that may stand for missing content. -/
def EmptyContent.admits : EmptyContent → Json → Bool
  | _, .null => true
  | .nullOrNoMembers, .obj [] => true
  | _, _ => false

/-- The name of a choice without content: a string, or an object that holds no content under it. -/
def choice? (empty : EmptyContent) : Json → Option String
  | .str s => some s
  | .obj [(s, content)] => if empty.admits content then some s else none
  | _ => none

/-- Free-form data. -/
def value? (j : Json) : Option Value :=
  some (Value.ofJson j)

end Json

/-- The members of an object that is read as a structure. -/
abbrev Fields := List (String × Json)

namespace Fields

/-- The document under a name, if there is one; fails where the name comes twice. -/
def lookup? (fields : Fields) (name : String) : Option (Option Json) :=
  match fields.filter (·.1 = name) with
  | [] => some none
  | [m] => some (some m.2)
  | _ => none

variable {α : Type}

/-- A field that has to be there. -/
def required? (fields : Fields) (name : String) (read : Json → Option α) : Option α := do
  match ← fields.lookup? name with
  | some j => read j
  | none => none

/-- A field that has a default where it is absent. -/
def defaulted? (fields : Fields) (name : String) (read : Json → Option α) (absent : α) :
    Option α := do
  match ← fields.lookup? name with
  | some j => read j
  | none => some absent

/-- A field that may be absent or `null`. -/
def optional? (fields : Fields) (name : String) (read : Json → Option α) : Option (Option α) := do
  match ← fields.lookup? name with
  | none | some .null => some none
  | some j => (read j).map some

end Fields

end FlowPlan
