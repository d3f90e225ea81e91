import FlowPlan.Plan.Basic
import FlowPlan.Proofs.Assembly.Nodes

/-!
# Plan — stages

A plan is made in stages: the operations are ordered, every input has to be supplied, and the blocks
of the operations are put together.  What is said about a plan is said about a stage first.

* `plan_eq_ok_iff`: a graph has a plan exactly if every stage succeeds.
* `validate_eq_ok_iff`: the second stage succeeds exactly if every input is supplied.
* `blockOf_congr`: what an operation adds is settled by the arguments of its inputs and by whether
  its output is taken.
-/

namespace FlowPlan.FlowGraph

/-- Somebody pays nothing. -/
def noFee : FeePayment :=
  ⟨"account", ⟨0, by decide⟩⟩

variable {g h : FlowGraph} {n : OperationNode} {order : List NodeId} {payment : FeePayment}

/-! ### Stages -/

/-- A transaction is the fee and the blocks of the nodes, in the order. -/
theorem assemble_eq_ok_iff {transaction : Transaction} :
    g.assemble order payment = .ok transaction ↔
      ∃ blocks, order.mapM g.blockOf = .ok blocks ∧
        { context := g.context
          operations := .payFee payment.account payment.fee :: blocks.flatMap Block.operations
          skipped := blocks.flatMap Block.skipped } = transaction := by
  rw [assemble, bind_eq_ok_iff]
  simp only [Except.ok.injEq]

theorem plan_of_order_eq_error {failure : PlanError}
    (unordered : g.dependencies.order = .error failure) : g.plan payment = .error failure := by
  rw [plan, executionOrder, unordered]
  rfl

/-- With an order, the plan is up to the other stages. -/
theorem plan_of_order_eq_ok (ordered : g.dependencies.order = .ok order) :
    g.plan payment = g.validate >>= fun _ => (g.assemble order payment).map (Plan.mk order) := by
  rw [plan, executionOrder, ordered]
  cases valid : g.validate with
  | error failure => rfl
  | ok _ => cases assembled : g.assemble order payment <;>
      simp [bind, Except.bind, Except.map, assembled]

/-- **A graph has a plan exactly if every stage succeeds.** -/
theorem plan_eq_ok_iff {plan : Plan} :
    g.plan payment = .ok plan ↔
      g.dependencies.order = .ok plan.order ∧ g.validate = .ok () ∧
        g.assemble plan.order payment = .ok plan.transaction := by
  cases ordered : g.dependencies.order with
  | error failure => simp [plan_of_order_eq_error ordered]
  | ok order =>
    rw [plan_of_order_eq_ok ordered, bind_eq_ok_iff]
    simp only [map_eq_ok_iff, Except.ok.injEq]
    constructor
    · rintro ⟨_, valid, transaction, assembled, rfl⟩
      exact ⟨rfl, valid, assembled⟩
    · rintro ⟨rfl, valid, assembled⟩
      exact ⟨(), valid, plan.transaction, assembled, rfl⟩

/-! ### Supply -/

theorem unsupplied_eq_nil_iff : g.unsupplied n = [] ↔ ∀ i ∈ n.inputs, g.isSupplied n i.name := by
  simp [unsupplied, List.filter_eq_nil_iff]

theorem missingAt?_eq_none_iff :
    g.missingAt? n = none ↔ ∀ i ∈ n.inputs, g.isSupplied n i.name := by
  rw [← unsupplied_eq_nil_iff, missingAt?]
  cases g.unsupplied n <;> simp

theorem node_of_missingAt? {m : MissingInputs} (found : g.missingAt? n = some m) :
    m.node = n.id := by
  unfold missingAt? at found
  split at found
  · cases found
  · cases found
    rfl

/-- Nothing is missing exactly if every input of every operation is supplied. -/
theorem missingInputs_eq_nil_iff :
    g.missingInputs = [] ↔ ∀ n ∈ g.operations, ∀ i ∈ n.inputs, g.isSupplied n i.name := by
  rw [missingInputs, List.filterMap_eq_nil_iff]
  simp only [missingAt?_eq_none_iff]

/-- Two graphs leave the same inputs unsupplied exactly if they supply the same. -/
theorem unsupplied_eq_iff :
    g.unsupplied n = h.unsupplied n ↔
      ∀ i ∈ n.inputs, g.isSupplied n i.name = h.isSupplied n i.name := by
  constructor
  · intro same i declared
    have named : i.name ∈ n.inputs.map Input.name := List.mem_map_of_mem declared
    have listed : i.name ∈ g.unsupplied n ↔ i.name ∈ h.unsupplied n := by rw [same]
    rw [unsupplied, unsupplied, List.mem_filter, List.mem_filter] at listed
    have supplied := and_congr_right_iff.1 listed named
    rwa [← Bool.eq_iff_iff, Bool.not_inj_iff] at supplied
  · intro same
    refine List.filter_congr fun input named => ?_
    obtain ⟨i, declared, rfl⟩ := List.mem_map.1 named
    rw [same i declared]

theorem missingAt?_eq_iff :
    g.missingAt? n = h.missingAt? n ↔ g.unsupplied n = h.unsupplied n := by
  rw [missingAt?, missingAt?]
  cases g.unsupplied n <;> cases h.unsupplied n <;> simp

/-- The entry of an operation is found by the operation's identifier. -/
theorem missingAt?_eq_of_missingInputs_eq (operations : g.operations = h.operations)
    (same : g.missingInputs = h.missingInputs) (mem : n ∈ g.operations) :
    g.missingAt? n = h.missingAt? n := by
  -- one direction, for any two graphs
  have sub {g h : FlowGraph} (operations : g.operations = h.operations)
      (same : g.missingInputs = h.missingInputs) (mem : n ∈ g.operations) (m : MissingInputs)
      (found : g.missingAt? n = some m) : h.missingAt? n = some m := by
    have listed : m ∈ h.missingInputs := same ▸ List.mem_filterMap.2 ⟨n, mem, found⟩
    obtain ⟨k, memk, found'⟩ := List.mem_filterMap.1 listed
    have entry : m.node = k.id := node_of_missingAt? found'
    obtain rfl : n = k := eq_of_operation_id (operations ▸ mem) memk
      ((node_of_missingAt? found).symm.trans entry)
    exact found'
  exact Option.ext fun m =>
    ⟨sub operations same mem m, sub operations.symm same.symm (operations ▸ mem) m⟩

/-- **Two graphs of the same operations miss the same exactly if they supply the same.** -/
theorem missingInputs_eq_iff (operations : g.operations = h.operations) :
    g.missingInputs = h.missingInputs ↔
      ∀ n ∈ g.operations, ∀ i ∈ n.inputs, g.isSupplied n i.name = h.isSupplied n i.name := by
  simp only [← unsupplied_eq_iff, ← missingAt?_eq_iff]
  constructor
  · exact fun same n mem => missingAt?_eq_of_missingInputs_eq operations same mem
  · intro same
    rw [missingInputs, missingInputs, ← operations]
    exact List.filterMap_congr same

/-- **Validation asks that every input is supplied.** -/
theorem validate_eq_ok_iff :
    g.validate = .ok () ↔ ∀ n ∈ g.operations, ∀ i ∈ n.inputs, g.isSupplied n i.name := by
  rw [← missingInputs_eq_nil_iff, validate]
  cases g.missingInputs <;> simp

/-- Validation fails with what is missing. -/
theorem validate_eq_missingData_iff {nodes : List MissingInputs} :
    g.validate = .error (.missingData nodes) ↔ g.missingInputs = nodes ∧ nodes ≠ [] := by
  rw [validate]
  cases found : g.missingInputs with
  | nil => simp +contextual [eq_comm]
  | cons first rest => simp +contextual [eq_comm]

/-! ### Blocks -/

/-- **A list of identifiers is assembled into their blocks, or fails as the first that has a fault.** -/
theorem assemble_eq_error_iff {failure : PlanError} :
    g.assemble order payment = .error failure ↔
      ∃ done id rest, order = done ++ id :: rest ∧
        (∀ x ∈ done, ∀ other, ¬g.FaultAt x other) ∧ g.FaultAt id failure := by
  rw [assemble, bind_eq_error_iff]
  simp only [reduceCtorEq, and_false, exists_false, or_false, mapM_eq_error_iff, exists_eq_ok_iff,
    ne_eq, blockOf_eq_error_iff]

/-- Once there is an order, the plan fails for missing data exactly if an input is not supplied. -/
theorem plan_eq_missingData_iff (ordered : g.dependencies.order = .ok order)
    {nodes : List MissingInputs} :
    g.plan payment = .error (.missingData nodes) ↔ g.missingInputs = nodes ∧ nodes ≠ [] := by
  rw [plan_of_order_eq_ok ordered, bind_eq_error_iff, validate_eq_missingData_iff]
  refine or_iff_left ?_
  rintro ⟨_, -, failed⟩
  obtain ⟨done, id, rest, -, -, fault⟩ := assemble_eq_error_iff.1 (map_eq_error_iff.1 failed)
  cases fault

/-- The context of a plan is that of the graph. -/
theorem context_of_plan {plan : Plan} (planned : g.plan payment = .ok plan) :
    plan.transaction.context = g.context := by
  obtain ⟨-, -, assembled⟩ := plan_eq_ok_iff.1 planned
  obtain ⟨blocks, -, made⟩ := assemble_eq_ok_iff.1 assembled
  rw [← made]

/-- The operations of a plan pay the fee or stand in the block of a node. -/
theorem mem_operations_of_plan {plan : Plan} {p : Primitive} (planned : g.plan payment = .ok plan)
    (mem : p ∈ plan.transaction.operations) :
    p = .payFee payment.account payment.fee ∨
      ∃ n ∈ g.operations, ∃ b, g.block n = .ok b ∧ p ∈ b.operations := by
  obtain ⟨-, -, assembled⟩ := plan_eq_ok_iff.1 planned
  obtain ⟨blocks, ran, made⟩ := assemble_eq_ok_iff.1 assembled
  rw [← made] at mem
  refine (List.mem_cons.1 mem).imp_right fun mem => ?_
  obtain ⟨b, memBlocks, memBlock⟩ := List.mem_flatMap.1 mem
  obtain ⟨id, -, added⟩ := exists_of_mem_mapM ran memBlocks
  obtain ⟨n, found, block⟩ := blockOf_eq_ok_iff.1 added
  exact ⟨n, (operation?_eq_some_iff.1 found).1, b, block, memBlock⟩

theorem block_congr (arguments : ∀ input, g.argument n input = h.argument n input)
    (consumed : g.isConsumed n.id = h.isConsumed n.id) : g.block n = h.block n := by
  have receiver : g.splitReceiver n = h.splitReceiver n := by
    unfold splitReceiver
    cases n.inputs with
    | nil => rfl
    | cons first rest => simp only [arguments]
  have others (inputs : List Input) : g.named n inputs = h.named n inputs := by
    simp only [named, arguments]
  have action : g.actionBlock n = h.actionBlock n := by
    simp only [actionBlock, receiver, others]
  have save : g.needsSave n = h.needsSave n := by
    rw [needsSave, needsSave, consumed]
  rw [block, block, action, save]

/-- **What an operation adds is settled by the arguments of its inputs and by whether its output is
taken.** -/
theorem blockOf_congr (operations : g.operation? = h.operation?)
    (arguments : ∀ n ∈ g.operations, ∀ input, g.argument n input = h.argument n input)
    (consumed : ∀ n ∈ g.operations, g.isConsumed n.id = h.isConsumed n.id) :
    g.blockOf = h.blockOf := by
  funext id
  rw [blockOf, blockOf, ← operations]
  cases found : g.operation? id with
  | none => rfl
  | some n =>
    have mem := (operation?_eq_some_iff.1 found).1
    exact block_congr (arguments n mem) (consumed n mem)

end FlowPlan.FlowGraph
