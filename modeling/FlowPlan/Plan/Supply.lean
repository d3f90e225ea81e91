import FlowPlan.Plan.Error

/-!
# Plan — supply

Every declared input of an operation has to be supplied: by an edge from anywhere, or by a value
that was typed in, was read successfully and is no empty text.
-/

namespace FlowPlan

namespace FlowGraph

/-- An edge or a typed-in value supplies the input. -/
def isSupplied (g : FlowGraph) (n : OperationNode) (input : String) : Bool :=
  g.isConnected n.id input || (n.values.get? input).any StoredValue.isFilled

/-- The names of an operation's inputs that nothing supplies. -/
def unsupplied (g : FlowGraph) (n : OperationNode) : List String :=
  (n.inputs.map Input.name).filter fun input => !g.isSupplied n input

/-- An operation's entry in the list of what is missing, if anything is. -/
def missingAt? (g : FlowGraph) (n : OperationNode) : Option MissingInputs :=
  match g.unsupplied n with
  | [] => none
  | inputs => some ⟨n.id, n.label, inputs⟩

/-- The operations with inputs that nothing supplies, in graph order. -/
def missingInputs (g : FlowGraph) : List MissingInputs :=
  g.operations.filterMap g.missingAt?

/-- Fails with all that is missing. -/
def validate (g : FlowGraph) : Except PlanError Unit :=
  match g.missingInputs with
  | [] => .ok ()
  | nodes => .error (.missingData nodes)

end FlowGraph

end FlowPlan
