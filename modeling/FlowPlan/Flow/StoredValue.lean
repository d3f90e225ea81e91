import FlowPlan.Json.Fields

/-!
# Flow — stored values

The outcome of reading what a user typed into a node or a bank.  A failed reading is kept beside
its message, so success is a flag; only the data of a successful reading is a value.
-/

namespace FlowPlan

/-- The outcome of reading a typed-in text. -/
structure StoredValue where
  success : Bool
  data : Option Value
  error : Option Value
  deriving DecidableEq

namespace StoredValue

/-- A successful reading. -/
def ok (data : Value) : StoredValue :=
  ⟨true, some data, none⟩

/-- A failed reading with its message. -/
def failed (message : String) : StoredValue :=
  ⟨false, none, some (.text message)⟩

/-- The data of a successful reading. -/
def value (v : StoredValue) : Option Value :=
  if v.success then v.data else none

/-- A successful reading, and not of an empty text. -/
def isFilled (v : StoredValue) : Bool :=
  v.success && decide (v.data ≠ some (.text ""))

/-- The JSON form: absent data and an absent error are left out. -/
def toJson (v : StoredValue) : Json :=
  .obj ([("success", .bool v.success)] ++ Json.member? "data" Value.json v.data ++
    Json.member? "error" Value.json v.error)

/-- Reads a stored value; `null` data and a `null` error count as absent. -/
def ofJson? (j : Json) : Option StoredValue := do
  let fields ← j.members?
  let success ← Fields.required? fields "success" Json.bool?
  let data ← Fields.optional? fields "data" Json.value?
  let error ← Fields.optional? fields "error" Json.value?
  some ⟨success, data, error⟩

end StoredValue

end FlowPlan
