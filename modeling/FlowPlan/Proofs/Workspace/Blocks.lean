import Mathlib.Tactic.Tauto
import FlowPlan.Proofs.Assembly.Nodes

/-!
# Workspace — what a block reads and writes

The operands of a primitive that a node adds are the arguments of certain inputs of the node, in
order.  An allocation and a save leave something in the workspace.

* `reads_of_mem_block`: the operands of a block.
* `exists_feed_of_argument`: an argument from the workspace has a data edge behind it.
* `exists_bank_of_argument`: an argument from a bank is one of the bank's parameters.
-/

namespace FlowPlan

/-- The arguments of a primitive: the receiver, the positional arguments, the fields of an
instruction. -/
def Primitive.operands : Primitive → List Arg
  | .callMethod receiver _ args => receiver :: args
  | .callFunction _ _ args => args
  | .emitLog level message => [level, message]
  | .payFee .. | .allocateAddress .. | .saveVar _ => []

/-- The key under which a primitive leaves something in the workspace. -/
def Primitive.writes? : Primitive → Option NodeId
  | .allocateAddress _ key | .saveVar key => some key
  | .payFee .. | .callMethod .. | .callFunction .. | .emitLog .. => none

namespace FlowGraph

variable {g : FlowGraph} {n : OperationNode} {b : Block} {p : Primitive} {a : Arg}

/-! ### Operands -/

/-- The inputs whose arguments a primitive of a node has as its operands, in order: all of them, or
all but the receiver, or the two of a log line. -/
def operandNames (g : FlowGraph) (n : OperationNode) : Primitive → List String
  | .callMethod .. => n.inputs.map Input.name
  | .callFunction .. => (g.splitReceiver n).2.map Input.name
  | .emitLog .. => [OperationNode.logLevelName, OperationNode.logMessageName]
  | .payFee .. | .allocateAddress .. | .saveVar _ => []

/-- A primitive reads inputs of the node: its operands are their arguments. -/
structure Reads (g : FlowGraph) (n : OperationNode) (p : Primitive) : Prop where
  operands : p.operands = (g.operandNames n p).map (g.argument n)
  declared : g.operandNames n p ⊆ n.inputs.map Input.name

theorem reads_of_performs (performs : g.Performs n b) (mem : p ∈ b.operations) : g.Reads n p := by
  cases performs with
  | start | assertBucketContains => cases mem
  | callMethod action method found =>
    cases List.mem_singleton.1 mem
    refine ⟨?_, List.Subset.refl _⟩
    rw [operandNames, OperationNode.inputs_eq_of_receiver? found, List.map_map, List.map_cons]
    rfl
  | callFunction =>
    cases List.mem_singleton.1 mem
    constructor
    · rw [operandNames, splitReceiver_eq, List.map_map]
      rfl
    · rw [operandNames, splitReceiver_eq]
      exact List.map_subset Input.name n.plainInputs_subset
  | emitLog action level message =>
    cases List.mem_singleton.1 mem
    -- The fields are looked for behind the receiver, if a log line should have one.
    have declared {name : String} (has : n.HasPlainInput name) : name ∈ n.inputs.map Input.name := by
      obtain ⟨i, plain, rfl⟩ := has
      exact List.mem_map_of_mem (n.plainInputs_subset plain)
    refine ⟨rfl, fun input named => ?_⟩
    rcases List.mem_pair.1 named with rfl | rfl
    · exact declared level
    · exact declared message
  | allocateAddress =>
    cases List.mem_singleton.1 mem
    exact ⟨rfl, List.nil_subset _⟩

/-- **The operands of a primitive are the arguments of inputs of its node**, in order. -/
theorem reads_of_mem_block (h : g.block n = .ok b) (mem : p ∈ b.operations) : g.Reads n p := by
  obtain ⟨action, ok, rfl⟩ := block_eq_ok_iff.1 h
  rcases List.mem_append.1 mem with mem | mem
  · exact reads_of_performs (actionBlock_eq_ok_iff.1 ok) mem
  · split at mem
    · cases List.mem_singleton.1 mem
      exact ⟨rfl, List.nil_subset _⟩
    · cases mem

/-- Whatever a block reads is the argument of an input of its node. -/
theorem exists_input_of_mem_block (h : g.block n = .ok b) (mem : p ∈ b.operations)
    (operand : a ∈ p.operands) : ∃ i ∈ n.inputs, a = g.argument n i.name := by
  have reads := reads_of_mem_block h mem
  rw [reads.operands] at operand
  obtain ⟨input, named, rfl⟩ := List.mem_map.1 operand
  obtain ⟨i, declared, rfl⟩ := List.mem_map.1 (reads.declared named)
  exact ⟨i, declared, rfl⟩

/-! ### Where arguments come from -/

theorem bankArg?_eq_some_iff {e : Edge} :
    g.bankArg? e = some a ↔
      ∃ handle bank param, e.sourceHandle = some handle ∧ g.inputBank? e.source = some bank ∧
        bank.param? handle = some param ∧ .input bank.title param (bank.value? param.id) = a := by
  simp only [bankArg?, Option.bind_eq_bind, Option.bind_eq_some_iff, Option.some.injEq]
  tauto

theorem isWorkspace_bankArg? {e : Edge} (h : g.bankArg? e = some a) : a.isWorkspace = false := by
  obtain ⟨handle, bank, param, -, -, -, rfl⟩ := bankArg?_eq_some_iff.1 h
  rfl

theorem workspaceArg?_eq_some_iff {e : Edge} :
    g.workspaceArg? e = some a ↔ g.isDataFeed e ∧ .workspace e.source e.tupleHalf? = a := by
  simp [workspaceArg?]

/-- An argument from the workspace has a data edge behind it. -/
theorem exists_feed_of_argument {input : String} {x : NodeId} {half : Option TupleHalf}
    (h : g.argument n input = .workspace x half) :
    ∃ e ∈ g.edges, g.isDataFeed e ∧ e.landsOn n.id input ∧ e.source = x := by
  simp only [argument] at h
  split at h
  · next fromBank =>
    obtain ⟨e, -, found⟩ := List.exists_of_findSome?_eq_some fromBank
    have bank := isWorkspace_bankArg? found
    rw [h] at bank
    cases bank
  · next fromOperation =>
    obtain ⟨e, mem, found⟩ := List.exists_of_findSome?_eq_some fromOperation
    obtain ⟨feed, same⟩ := workspaceArg?_eq_some_iff.1 found
    obtain ⟨memEdges, lands⟩ := List.mem_filter.1 mem
    cases same.trans h
    exact ⟨e, memEdges, feed, lands, rfl⟩
  · cases h

/-- An argument from a bank is a parameter of the bank, with the value that the bank has for it. -/
theorem exists_bank_of_argument {input title : String} {param : BankParam} {value : Option Value}
    (h : g.argument n input = .input title param value) :
    ∃ b ∈ g.inputBanks, b.title = title ∧ param ∈ b.params ∧ b.value? param.id = value := by
  simp only [argument] at h
  split at h
  · next fromBank =>
    obtain ⟨e, -, found⟩ := List.exists_of_findSome?_eq_some fromBank
    obtain ⟨handle, bank, p, -, source, leaves, same⟩ := bankArg?_eq_some_iff.1 found
    cases same.trans h
    exact ⟨bank, (inputBank?_eq_some_iff.1 source).1, rfl, List.mem_of_find?_eq_some leaves, rfl⟩
  · next fromOperation =>
    obtain ⟨e, -, found⟩ := List.exists_of_findSome?_eq_some fromOperation
    cases (workspaceArg?_eq_some_iff.1 found).2.trans h
  · cases h

end FlowGraph

end FlowPlan
