import FlowPlan.Proofs.Order.Links
import FlowPlan.Proofs.Results

/-!
# Assembly — what a node adds

What one node adds to a transaction is settled case by case of its action: the block that its action
makes of the arguments of its inputs (`Performs`), and behind it, if some data edge takes the node's
output, a step that leaves the result in the workspace (`Contributes`).  A node adds nothing in three
cases, which are told by its own declarations: a method call without a receiver, and a log line
without a level or without a text (`FaultAt`, where the fourth case is a node that is no operation).

* `actionBlock_eq_ok_iff`, `block_eq_ok_iff`: a block is computed exactly if it is what the node
  performs, or contributes.
* `blockOf_eq_error_iff`: a failure is computed exactly if it is the node's fault.
-/

namespace FlowPlan

/-! ### Receivers -/

namespace OperationNode

/-- The first input, if that is a receiver. -/
def receiver? (n : OperationNode) : Option Input :=
  n.inputs.head?.filter (·.role = .receiver)

/-- The inputs without the receiver. -/
def plainInputs (n : OperationNode) : List Input :=
  match n.receiver? with
  | some _ => n.inputs.tail
  | none => n.inputs

/-- One of the inputs, apart from the receiver, has this name. -/
def HasPlainInput (n : OperationNode) (name : String) : Prop :=
  ∃ i ∈ n.plainInputs, i.name = name

instance (n : OperationNode) (name : String) : Decidable (n.HasPlainInput name) :=
  inferInstanceAs (Decidable (∃ i ∈ n.plainInputs, i.name = name))

variable {n : OperationNode} {i : Input}

theorem receiver?_eq_some_iff :
    n.receiver? = some i ↔ n.inputs.head? = some i ∧ i.role = .receiver := by
  simp [receiver?, Option.filter_eq_some_iff]

theorem receiver?_eq_none_iff :
    n.receiver? = none ↔ ∀ i ∈ n.inputs.head?, i.role ≠ .receiver := by
  simp [receiver?, Option.filter_eq_none_iff]

/-- The receiver stands in front of the other inputs. -/
theorem inputs_eq_of_receiver? (found : n.receiver? = some i) : n.inputs = i :: n.plainInputs := by
  rw [plainInputs, found]
  exact (List.cons_head?_tail (receiver?_eq_some_iff.1 found).1).symm

theorem plainInputs_subset (n : OperationNode) : n.plainInputs ⊆ n.inputs := by
  unfold plainInputs
  split
  · exact List.tail_sublist n.inputs |>.subset
  · exact List.Subset.refl _

end OperationNode

namespace FlowGraph

variable {g : FlowGraph} {n : OperationNode} {b : Block} {id : NodeId} {failure : PlanError}

/-- The receiver's argument is apart, and the other inputs are as they are. -/
theorem splitReceiver_eq (g : FlowGraph) (n : OperationNode) :
    g.splitReceiver n = (n.receiver?.map fun i => g.argument n i.name, n.plainInputs) := by
  unfold splitReceiver OperationNode.plainInputs OperationNode.receiver?
  cases n.inputs with
  | nil => rfl
  | cons first rest => by_cases role : first.role = .receiver <;> simp [role, Option.filter]

/-- The arguments of inputs, in order. -/
def arguments (g : FlowGraph) (n : OperationNode) (inputs : List Input) : List Arg :=
  inputs.map fun i => g.argument n i.name

theorem map_snd_named (g : FlowGraph) (n : OperationNode) (inputs : List Input) :
    (g.named n inputs).map Prod.snd = g.arguments n inputs := by
  rw [named, List.map_map]
  rfl

/-! ### Actions -/

/-- What a node's action makes of the arguments of the node's inputs. -/
inductive Performs (g : FlowGraph) (n : OperationNode) : Block → Prop where
  | start (action : n.action = .start) : g.Performs n .empty
  | callMethod {c : Call} {receiver : Input} (action : n.action = .call c) (method : c.isMethod)
      (found : n.receiver? = some receiver) :
      g.Performs n (.single (.callMethod (g.argument n receiver.name) c.function.name
        (g.arguments n n.plainInputs)))
  | callFunction {c : Call} (action : n.action = .call c) (function : c.isMethod = false) :
      g.Performs n (.single (.callFunction c.templateAddress c.function.name
        (g.arguments n n.plainInputs)))
  | emitLog (action : n.action = .emitLog) (level : n.HasPlainInput OperationNode.logLevelName)
      (message : n.HasPlainInput OperationNode.logMessageName) :
      g.Performs n (.single (.emitLog (g.argument n OperationNode.logLevelName)
        (g.argument n OperationNode.logMessageName)))
  | assertBucketContains (action : n.action = .assertBucketContains) : g.Performs n ⟨[], [n.id]⟩
  | allocateAddress {kind : AddressKind} (action : n.action = .allocateAddress kind) :
      g.Performs n (.single (.allocateAddress kind n.id))

/-- Why the node of an identifier adds nothing. -/
inductive FaultAt (g : FlowGraph) (id : NodeId) : PlanError → Prop where
  | unknown (absent : ∀ n ∈ g.operations, n.id ≠ id) : g.FaultAt id (.unknownNode id)
  | noReceiver {n : OperationNode} {c : Call} (operation : n ∈ g.operations) (named : n.id = id)
      (action : n.action = .call c) (method : c.isMethod)
      (first : ∀ i ∈ n.inputs.head?, i.role ≠ .receiver) :
      g.FaultAt id (.invalidNode id PlanError.noReceiver)
  | noLevel {n : OperationNode} (operation : n ∈ g.operations) (named : n.id = id)
      (action : n.action = .emitLog) (level : ¬n.HasPlainInput OperationNode.logLevelName) :
      g.FaultAt id (.invalidNode id (PlanError.noInput OperationNode.logLevelName))
  | noMessage {n : OperationNode} (operation : n ∈ g.operations) (named : n.id = id)
      (action : n.action = .emitLog) (level : n.HasPlainInput OperationNode.logLevelName)
      (message : ¬n.HasPlainInput OperationNode.logMessageName) :
      g.FaultAt id (.invalidNode id (PlanError.noInput OperationNode.logMessageName))

/-- An argument is found by the name of its input. -/
theorem find?_named (g : FlowGraph) (n : OperationNode) (inputs : List Input) (name : String) :
    (g.named n inputs).find? (·.1 = name) =
      (inputs.find? (·.name = name)).map fun i => (i.name, g.argument n i.name) := by
  rw [named, List.find?_map]
  rfl

/-- A field of a log line is the argument of the input of its name, and is missing if there is no such
input. -/
theorem takeNamed_named (g : FlowGraph) (n : OperationNode) (name : String) :
    takeNamed id (g.named n n.plainInputs) name =
      if n.HasPlainInput name then .ok (g.argument n name)
      else .error (.invalidNode id (PlanError.noInput name)) := by
  unfold takeNamed
  rw [find?_named]
  cases found : n.plainInputs.find? (·.name = name) with
  | none =>
    have lacks : ¬n.HasPlainInput name := fun ⟨i, declared, named⟩ =>
      List.find?_eq_none.1 found i declared (by simpa using named)
    rw [if_neg lacks]
    rfl
  | some i =>
    have named : i.name = name := by simpa using List.find?_some found
    rw [if_pos ⟨i, List.mem_of_find?_eq_some found, named⟩, ← named]
    rfl

/-- A call adds the primitive of its kind. -/
theorem actionBlock_of_call {c : Call} (action : n.action = .call c) :
    g.actionBlock n =
      (callPrimitive n.id c (n.receiver?.map fun i => g.argument n i.name)
        (g.arguments n n.plainInputs)).map .single := by
  simp only [actionBlock, splitReceiver_eq, action, map_snd_named]

/-- A log call adds its primitive, if it has both inputs. -/
theorem actionBlock_of_emitLog (action : n.action = .emitLog) :
    g.actionBlock n =
      if n.HasPlainInput OperationNode.logLevelName then
        if n.HasPlainInput OperationNode.logMessageName then
          .ok (.single (.emitLog (g.argument n OperationNode.logLevelName)
            (g.argument n OperationNode.logMessageName)))
        else .error (.invalidNode n.id (PlanError.noInput OperationNode.logMessageName))
      else .error (.invalidNode n.id (PlanError.noInput OperationNode.logLevelName)) := by
  simp only [actionBlock, splitReceiver_eq, action, takeNamed_named]
  split <;> rename_i level
  · split <;> rfl
  · rfl

/-- **A node's action succeeds exactly with what the node performs.** -/
theorem actionBlock_eq_ok_iff : g.actionBlock n = .ok b ↔ g.Performs n b := by
  constructor
  · intro h
    cases action : n.action with
    | start =>
      simp only [actionBlock, action] at h
      cases h
      exact .start action
    | call c =>
      rw [actionBlock_of_call action, map_eq_ok_iff] at h
      obtain ⟨p, h, rfl⟩ := h
      unfold callPrimitive at h
      split at h
      · next method =>
        -- A method without a receiver is a fault; a function never has one.
        cases found : n.receiver? with
        | none => simp [found] at h
        | some receiver =>
          rw [found] at h
          cases h
          exact .callMethod action method found
      · next function =>
        cases h
        exact .callFunction action (by simpa using function)
    | emitLog =>
      rw [actionBlock_of_emitLog action] at h
      split at h
      · next level =>
        split at h
        · next message =>
          cases h
          exact .emitLog action level message
        · cases h
      · cases h
    | assertBucketContains =>
      simp only [actionBlock, action] at h
      cases h
      exact .assertBucketContains action
    | allocateAddress kind =>
      simp only [actionBlock, action] at h
      cases h
      exact .allocateAddress action
  · intro performs
    cases performs with
    | start action | assertBucketContains action | allocateAddress action =>
      simp only [actionBlock, action]
    | callMethod action method found =>
      simp only [actionBlock_of_call action, callPrimitive, method, if_true, found, Option.map_some]
      rfl
    | callFunction action function =>
      simp only [actionBlock_of_call action, callPrimitive, function, Bool.false_eq_true, if_false]
      rfl
    | emitLog action level message =>
      rw [actionBlock_of_emitLog action, if_pos level, if_pos message]

/-- **It fails exactly with the node's fault.** -/
theorem actionBlock_eq_error_iff (operation : n ∈ g.operations) :
    g.actionBlock n = .error failure ↔ g.FaultAt n.id failure := by
  constructor
  · intro h
    cases action : n.action with
    | start | assertBucketContains | allocateAddress => simp [actionBlock, action] at h
    | call c =>
      rw [actionBlock_of_call action, map_eq_error_iff] at h
      unfold callPrimitive at h
      split at h
      · next method =>
        cases found : n.receiver? with
        | none =>
          rw [found] at h
          cases h
          exact .noReceiver operation rfl action method
            (OperationNode.receiver?_eq_none_iff.1 found)
        | some receiver => simp [found] at h
      · cases h
    | emitLog =>
      rw [actionBlock_of_emitLog action] at h
      split at h
      · next level =>
        split at h
        · cases h
        · next message =>
          cases h
          exact .noMessage operation rfl action level message
      · next level =>
        cases h
        exact .noLevel operation rfl action level
  · intro fault
    cases fault with
    | unknown absent => exact absurd rfl (absent n operation)
    | noReceiver operation' named action method first =>
      obtain rfl := eq_of_operation_id operation' operation named
      simp only [actionBlock_of_call action, callPrimitive, method, if_true,
        OperationNode.receiver?_eq_none_iff.2 first, Option.map_none]
      rfl
    | noLevel operation' named action level =>
      obtain rfl := eq_of_operation_id operation' operation named
      rw [actionBlock_of_emitLog action, if_neg level]
    | noMessage operation' named action level message =>
      obtain rfl := eq_of_operation_id operation' operation named
      rw [actionBlock_of_emitLog action, if_pos level, if_neg message]

/-! ### Blocks -/

/-- Some data edge with both handles leads from the node to a declared input of an operation. -/
def OutputTaken (g : FlowGraph) (id : NodeId) : Prop :=
  ∃ e ∈ g.edges, e.source = id ∧ e.isData ∧ e.sourceHandle.isSome ∧
    ∃ m ∈ g.operations, e.target = m.id ∧ ∃ i ∈ m.inputs, e.targetHandle = some i.name

/-- The node's result has to be left in the workspace: it has an output that is taken, and does not
get there by itself. -/
structure Saves (g : FlowGraph) (n : OperationNode) : Prop where
  output : n.output.isSome
  notAllocation : n.action.isAllocation = false
  taken : g.OutputTaken n.id

/-- What a node adds to a transaction: what it performs and, if its result is to be left in the
workspace, a last step that does so. -/
inductive Contributes (g : FlowGraph) (n : OperationNode) : Block → Prop where
  | unsaved {own : Block} (performs : g.Performs n own) (unsaved : ¬g.Saves n) : g.Contributes n own
  | saved {own : Block} (performs : g.Performs n own) (saves : g.Saves n) :
      g.Contributes n { own with operations := own.operations ++ [.saveVar n.id] }

theorem exists_input?_iff {name : String} :
    (∃ i, n.input? name = some i) ↔ ∃ i ∈ n.inputs, i.name = name := by
  rw [← Option.isSome_iff_exists, OperationNode.input?, List.find?_isSome]
  simp

theorem isConsumed_iff (operation : n ∈ g.operations) : g.isConsumed n.id ↔ g.OutputTaken n.id := by
  have source : (g.operation? n.id).isSome := isSome_operation?.2 (List.mem_map_of_mem operation)
  simp only [isConsumed, List.any_eq_true, Bool.and_eq_true, decide_eq_true_eq, isDataFeed_iff]
  constructor
  · rintro ⟨e, mem, leaves, data, handle, -, input, lands, m, i, target, declared⟩
    obtain ⟨memTarget, same⟩ := operation?_eq_some_iff.1 target
    obtain ⟨j, memInputs, rfl⟩ := exists_input?_iff.1 ⟨i, declared⟩
    exact ⟨e, mem, leaves, data, handle, m, memTarget, same.symm, j, memInputs, lands⟩
  · rintro ⟨e, mem, leaves, data, handle, m, target, same, i, declared, lands⟩
    obtain ⟨j, found⟩ := exists_input?_iff.2 ⟨i, declared, rfl⟩
    exact ⟨e, mem, leaves, data, handle, leaves ▸ source, i.name, lands, m, j,
      operation?_eq_some_iff.2 ⟨target, same.symm⟩, found⟩

/-- An output is saved exactly if it is taken, and not that of an allocation. -/
theorem needsSave_iff (operation : n ∈ g.operations) : g.needsSave n ↔ g.Saves n := by
  rw [needsSave, Bool.and_eq_true, Bool.and_eq_true, isConsumed_iff operation, Bool.not_eq_true']
  exact ⟨fun ⟨⟨output, taken⟩, other⟩ => ⟨output, other, taken⟩,
    fun ⟨output, other, taken⟩ => ⟨⟨output, taken⟩, other⟩⟩

/-- A node adds what its action adds, and its save behind it. -/
theorem block_eq_ok_iff :
    g.block n = .ok b ↔ ∃ action, g.actionBlock n = .ok action ∧
      { action with operations :=
          action.operations ++ if g.needsSave n then [.saveVar n.id] else [] } = b := by
  rw [block, bind_eq_ok_iff]
  simp only [Except.ok.injEq]

/-- **A node's block is what the node contributes.** -/
theorem block_eq_ok_iff_contributes (operation : n ∈ g.operations) :
    g.block n = .ok b ↔ g.Contributes n b := by
  simp only [block_eq_ok_iff, actionBlock_eq_ok_iff]
  constructor
  · rintro ⟨own, performs, rfl⟩
    by_cases save : g.needsSave n
    · rw [if_pos save]
      exact .saved performs ((needsSave_iff operation).1 save)
    · rw [if_neg save, List.append_nil]
      exact .unsaved performs (mt (needsSave_iff operation).2 save)
  · intro contributes
    cases contributes with
    | unsaved performs unsaved =>
      refine ⟨b, performs, ?_⟩
      rw [if_neg (mt (needsSave_iff operation).1 unsaved), List.append_nil]
    | saved performs saves =>
      exact ⟨_, performs, by rw [if_pos ((needsSave_iff operation).2 saves)]⟩

/-- A node adds nothing exactly if its action has a fault. -/
theorem block_eq_error_iff (operation : n ∈ g.operations) :
    g.block n = .error failure ↔ g.FaultAt n.id failure := by
  rw [← actionBlock_eq_error_iff operation, block, bind_eq_error_iff]
  simp

theorem blockOf_eq_ok_iff : g.blockOf id = .ok b ↔ ∃ n, g.operation? id = some n ∧ g.block n = .ok b := by
  unfold blockOf
  cases g.operation? id <;> simp

/-- **An identifier has a block unless its node has a fault**, and then the failure tells the fault. -/
theorem blockOf_eq_error_iff : g.blockOf id = .error failure ↔ g.FaultAt id failure := by
  unfold blockOf
  cases found : g.operation? id with
  | none =>
    have absent (n : OperationNode) (operation : n ∈ g.operations) : n.id ≠ id := by
      rintro rfl
      cases found.symm.trans (operation?_eq_some_iff.2 ⟨operation, rfl⟩)
    constructor
    · intro h
      cases h
      exact .unknown absent
    · intro fault
      cases fault with
      | unknown => rfl
      | noReceiver operation named | noLevel operation named | noMessage operation named =>
        exact absurd named (absent _ operation)
  | some n =>
    obtain ⟨operation, rfl⟩ := operation?_eq_some_iff.1 found
    exact block_eq_error_iff operation

end FlowGraph

end FlowPlan
