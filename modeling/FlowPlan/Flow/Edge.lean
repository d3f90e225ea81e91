import FlowPlan.Json.Fields

/-!
# Flow — edges

An edge joins a handle of its source to a handle of its target.  Two handle names are reserved for
control flow: an edge from `exit` to `entry` says that its target runs after its source.  An edge
that touches neither name may carry a value.  Handles may be missing; such an edge means nothing
to planning.

A connection is a proposed edge, before the wiring rules have accepted it.
-/

namespace FlowPlan

/-- The identifier of a node. -/
abbrev NodeId := String

/-- The identifier of a bank parameter. -/
abbrev ParamId := String

/-! ### Handles -/

namespace Handle

/-- Where control enters an operation. -/
def entry : String := "entry"

/-- Where control leaves an operation. -/
def exit : String := "exit"

/-- The handle of a bank that declares a new parameter when it is connected. -/
def newInputParam : String := "new-input-param"

/-- The output of a template call. -/
def result : String := "return"

/-- The first component of a result that is a tuple of two. -/
def resultFirst : String := "return-tuple-1"

/-- The second component of a result that is a tuple of two. -/
def resultSecond : String := "return-tuple-2"

end Handle

/-- A component of a tuple of two. -/
inductive TupleHalf where
  | first
  | second
  deriving DecidableEq

namespace TupleHalf

/-- The component that a handle exposes. -/
def ofHandle? (handle : String) : Option TupleHalf :=
  if handle = Handle.resultFirst then some .first
  else if handle = Handle.resultSecond then some .second
  else none

/-- What a workspace key ends in when it addresses the component. -/
def keySuffix : TupleHalf → String
  | .first => ".0"
  | .second => ".1"

/-- The position of the component. -/
def index : TupleHalf → Nat
  | .first => 0
  | .second => 1

/-- The name of the component in JSON. -/
def name : TupleHalf → String
  | .first => "first"
  | .second => "second"

/-- The component of a name. -/
def ofName? (name : String) : Option TupleHalf :=
  if name = "first" then some .first else if name = "second" then some .second else none

theorem ofName?_name (h : TupleHalf) : ofName? h.name = some h := by
  cases h <;> decide

/-- Reads a component. -/
def ofJson? (empty : Json.EmptyContent) (j : Json) : Option TupleHalf :=
  (j.choice? empty).bind ofName?

end TupleHalf

/-! ### Edges -/

/-- A directed connection between handles of two nodes. -/
structure Edge where
  id : String
  source : NodeId
  sourceHandle : Option String
  target : NodeId
  targetHandle : Option String
  deriving DecidableEq

namespace Edge

/-- An edge whose identifier spells out its ends. -/
def between (source : NodeId) (sourceHandle : String) (target : NodeId) (targetHandle : String) :
    Edge where
  id := source ++ ":" ++ sourceHandle ++ "-" ++ target ++ ":" ++ targetHandle
  source
  sourceHandle := some sourceHandle
  target
  targetHandle := some targetHandle

/-- An edge that passes control on. -/
def control (source target : NodeId) : Edge :=
  between source Handle.exit target Handle.entry

/-- From an exit to an entry. -/
def isControl (e : Edge) : Bool :=
  e.sourceHandle = some Handle.exit && e.targetHandle = some Handle.entry

/-- Neither from an exit nor to an entry. -/
def isData (e : Edge) : Bool :=
  e.sourceHandle ≠ some Handle.exit && e.targetHandle ≠ some Handle.entry

/-- Both handles are there. -/
def hasHandles (e : Edge) : Bool :=
  e.sourceHandle.isSome && e.targetHandle.isSome

/-- Lands on this handle of this node. -/
def landsOn (e : Edge) (node : NodeId) (handle : String) : Bool :=
  e.target = node && e.targetHandle = some handle

/-- Leaves this handle of this node. -/
def leaves (e : Edge) (node : NodeId) (handle : String) : Bool :=
  e.source = node && e.sourceHandle = some handle

/-- The tuple component that the edge carries. -/
def tupleHalf? (e : Edge) : Option TupleHalf :=
  e.sourceHandle.bind TupleHalf.ofHandle?

/-- The JSON form, with `null` for a missing handle. -/
def toJson (e : Edge) : Json :=
  .obj [("id", .str e.id), ("source", .str e.source),
    ("sourceHandle", Json.ofOption .str e.sourceHandle), ("target", .str e.target),
    ("targetHandle", Json.ofOption .str e.targetHandle)]

/-- The names of the members that an edge is read from. -/
def memberNames : List String :=
  ["id", "source", "sourceHandle", "target", "targetHandle"]

/-- Reads an edge. -/
def ofJson? (j : Json) : Option Edge := do
  let fields ← j.members?
  let id ← Fields.required? fields "id" Json.string?
  let source ← Fields.required? fields "source" Json.string?
  let sourceHandle ← Fields.optional? fields "sourceHandle" Json.string?
  let target ← Fields.required? fields "target" Json.string?
  let targetHandle ← Fields.optional? fields "targetHandle" Json.string?
  some { id, source, sourceHandle, target, targetHandle }

end Edge

/-! ### Connections -/

/-- A proposed edge. -/
structure Connection where
  source : NodeId
  sourceHandle : Option String
  target : NodeId
  targetHandle : Option String
  deriving DecidableEq

namespace Connection

/-- A connection between two given handles. -/
def between (source : NodeId) (sourceHandle : String) (target : NodeId) (targetHandle : String) :
    Connection :=
  ⟨source, some sourceHandle, target, some targetHandle⟩

/-- The edge that the connection becomes. -/
def toEdge (c : Connection) : Edge :=
  .between c.source (c.sourceHandle.getD "") c.target (c.targetHandle.getD "")

/-- Reads a connection. -/
def ofJson? (j : Json) : Option Connection := do
  let fields ← j.members?
  let source ← Fields.required? fields "source" Json.string?
  let sourceHandle ← Fields.optional? fields "sourceHandle" Json.string?
  let target ← Fields.required? fields "target" Json.string?
  let targetHandle ← Fields.optional? fields "targetHandle" Json.string?
  some { source, sourceHandle, target, targetHandle }

end Connection

end FlowPlan
