import FlowPlan.Proofs.Order.Outcome
import FlowPlan.Proofs.Plan.Stages

/-!
# Assembly — lists of nodes

A list of identifiers is assembled node by node, and no block depends on the nodes in front of its
own.  So assembling fails only by the fault of a listed node (`FaultAt`), the first one, and a list
in two parts is assembled into what the parts are, one behind the other, under one fee.  The list may
be any: identifiers may repeat, and need not name an operation.

* `exists_assemble_eq_ok_iff`: a list is assembled exactly if no node of it has a fault.
* `assemble_append_eq_ok_iff`: a list in two parts.
* `assemble_exact`: both, and that no plan fails by an unknown node.
-/

namespace FlowPlan.FlowGraph

variable {g : FlowGraph} {order later : List NodeId} {payment : FeePayment}
  {transaction : Transaction}

theorem exists_assemble_eq_ok_iff :
    (∃ transaction, g.assemble order payment = .ok transaction) ↔
      ∀ id ∈ order, ∀ failure, ¬g.FaultAt id failure := by
  simp only [← blockOf_eq_error_iff, ← ne_eq, ← exists_eq_ok_iff, ← exists_mapM_eq_ok_iff,
    assemble_eq_ok_iff]
  constructor
  · rintro ⟨_, blocks, ran, -⟩
    exact ⟨blocks, ran⟩
  · rintro ⟨blocks, ran⟩
    exact ⟨_, blocks, ran, rfl⟩

/-- **A list in two parts is assembled exactly if both parts are**, into the operations of the first
and, without their fee, those of the second. -/
theorem assemble_append_eq_ok_iff :
    g.assemble (order ++ later) payment = .ok transaction ↔
      ∃ front back operations, g.assemble order payment = .ok front ∧
        g.assemble later payment = .ok back ∧
        back.operations = .payFee payment.account payment.fee :: operations ∧
        { context := g.context
          operations := front.operations ++ operations
          skipped := front.skipped ++ back.skipped } = transaction := by
  simp only [assemble_eq_ok_iff, mapM_append_eq_ok_iff]
  constructor
  · rintro ⟨_, ⟨front, back, ran, ranLater, rfl⟩, rfl⟩
    refine ⟨_, _, _, ⟨front, ran, rfl⟩, ⟨back, ranLater, rfl⟩, rfl, ?_⟩
    simp only [List.flatMap_append, List.cons_append]
  · rintro ⟨_, _, _, ⟨front, ran, rfl⟩, ⟨back, ranLater, rfl⟩, fee, rfl⟩
    obtain ⟨-, rfl⟩ := List.cons.inj fee
    refine ⟨_, ⟨front, back, ran, ranLater, rfl⟩, ?_⟩
    simp only [List.flatMap_append, List.cons_append]

theorem mem_order_iff (ordered : g.dependencies.order = .ok order) {id : NodeId} :
    id ∈ order ↔ ∃ n ∈ g.operations, n.id = id := by
  rw [(isLinearization_of_order ordered).perm.mem_iff, List.mem_map]

/-- An order lists operations only. -/
theorem plan_ne_unknownNode (id : NodeId) : g.plan payment ≠ .error (.unknownNode id) := by
  intro failed
  cases ordered : g.dependencies.order with
  | error failure =>
    rw [plan_of_order_eq_error ordered] at failed
    cases failed
    rcases g.order_trichotomy with ⟨_, h⟩ | ⟨_, h⟩ | ⟨_, _, h⟩ <;> cases ordered.symm.trans h
  | ok order =>
    rw [plan_of_order_eq_ok ordered] at failed
    rcases bind_eq_error_iff.1 failed with invalid | ⟨_, -, failed⟩
    · unfold validate at invalid
      split at invalid <;> cases invalid
    obtain ⟨done, x, rest, rfl, -, fault⟩ := assemble_eq_error_iff.1 (map_eq_error_iff.1 failed)
    cases fault with
    | unknown absent =>
      obtain ⟨n, operation, named⟩ := (mem_order_iff ordered).1 List.mem_append_cons_self
      exact absent n operation named

/-- **Assembling fails exactly by a fault of a listed node, and then by the first**: an identifier
that names no operation, a method call whose first input is no receiver, or a log line that has no
input for its level, or none for its text, behind the receiver.  What is assembled of a list in two
parts are the operations of the first and, without the fee, those of the second.  No plan fails by an
unknown node. -/
theorem assemble_exact (g : FlowGraph) (payment : FeePayment) :
    (∀ order, (∃ failure, g.assemble order payment = .error failure) ↔
      ∃ id ∈ order, ∃ failure, g.FaultAt id failure) ∧
    (∀ order failure, g.assemble order payment = .error failure ↔
      ∃ done id rest, order = done ++ id :: rest ∧
        (∀ x ∈ done, ∀ other, ¬g.FaultAt x other) ∧ g.FaultAt id failure) ∧
    (∀ order later transaction, g.assemble (order ++ later) payment = .ok transaction ↔
      ∃ front back operations, g.assemble order payment = .ok front ∧
        g.assemble later payment = .ok back ∧
        back.operations = .payFee payment.account payment.fee :: operations ∧
        { context := g.context
          operations := front.operations ++ operations
          skipped := front.skipped ++ back.skipped } = transaction) ∧
    ∀ id, g.plan payment ≠ .error (.unknownNode id) := by
  refine ⟨fun order => ?_, fun _ _ => assemble_eq_error_iff,
    fun _ _ _ => assemble_append_eq_ok_iff, plan_ne_unknownNode⟩
  rw [exists_eq_error_iff, ← not_exists, exists_assemble_eq_ok_iff]
  simp only [not_forall, not_not, exists_prop]

end FlowPlan.FlowGraph
