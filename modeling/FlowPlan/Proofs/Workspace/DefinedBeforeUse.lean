import FlowPlan.Proofs.Arguments.Reads
import FlowPlan.Proofs.Assembly.Accounted

/-!
# Workspace — defined before use

Where a plan reads the workspace, it has written it before.  A block reads only what the inputs of
its node are fed from (`Blocks.lean`).  On a wired graph the edge behind such an argument is the one
that the links record for the input, so that the order puts the block of its source in front; and
the source has an output, so that its block leaves it in the workspace.

* `DefinedBeforeUse`: the property of a list of primitives.
* `Wired.definedBeforeUse`: the plans of wired graphs have it.
* `definedBeforeUse_afterEdits`: so have the plans of edited graphs.
-/

namespace FlowPlan

/-- Whatever an operation reads from the workspace, one in front of it has left there. -/
def DefinedBeforeUse (operations : List Primitive) : Prop :=
  ∀ (i : Nat) (p : Primitive) (node : NodeId) (half : Option TupleHalf),
    operations[i]? = some p → .workspace node half ∈ p.operands →
      ∃ j < i, ∃ q, operations[j]? = some q ∧ q.writes? = some node

/-- The same, with the operations that stand in front as a list. -/
theorem definedBeforeUse_of_forall_append {operations : List Primitive}
    (h : ∀ front p back node half, operations = front ++ p :: back →
      .workspace node half ∈ p.operands → ∃ q ∈ front, q.writes? = some node) :
    DefinedBeforeUse operations := by
  intro i p node half at_i operand
  obtain ⟨lt, rfl⟩ := List.getElem?_eq_some_iff.1 at_i
  have split : operations = operations.take i ++ operations[i] :: operations.drop (i + 1) := by
    rw [List.getElem_cons_drop, List.take_append_drop]
  obtain ⟨q, mem, writes⟩ := h _ _ _ node half split operand
  obtain ⟨j, found⟩ := List.mem_iff_getElem?.1 mem
  rw [List.getElem?_take] at found
  split at found
  · next before => exact ⟨j, before, q, found, writes⟩
  · cases found

theorem StandsBefore.mem_front {α : Type} {front back : List α} {x y : α}
    (nodup : (front ++ y :: back).Nodup) (h : StandsBefore (front ++ y :: back) x y) :
    x ∈ front := by
  rcases List.mem_append.1 h.mem_left with mem | mem
  · exact mem
  · rcases List.mem_cons.1 mem with rfl | mem
    · exact absurd rfl (h.ne nodup)
    · have behind : StandsBefore (y :: back) y x := StandsBefore.cons_iff.2 (.inr ⟨rfl, mem⟩)
      exact absurd (List.Sublist.trans behind (List.sublist_append_right front _))
        (h.asymm nodup)

namespace FlowGraph

variable {g : FlowGraph}

/-! ### Behind a data edge -/

/-- The source of a data edge has an output, and that is taken. -/
theorem Wired.exists_source_of_feed {e : Edge} (wired : g.Wired) (mem : e ∈ g.edges)
    (feed : g.isDataFeed e) :
    ∃ s ∈ g.operations, s.id = e.source ∧ s.output.isSome ∧ g.isConsumed s.id := by
  have consumed : g.isConsumed e.source := by
    rw [isConsumed, List.any_eq_true]
    exact ⟨e, mem, by simpa using feed⟩
  obtain ⟨data, -, source, -⟩ := isDataFeed_iff.1 feed
  cases wired.joins e mem with
  | control =>
    cases data
  | supply bank =>
    obtain ⟨b, memBank, same⟩ := List.mem_map.1 bank
    obtain ⟨n, memNode, sameNode⟩ := List.mem_map.1 (isSome_operation?.1 source)
    exact absurd (same.trans sameNode.symm) (inputBank_id_ne memBank memNode)
  | @feed s _ _ _ _ operation _ _ _ _ _ typed =>
    obtain ⟨o, output, -⟩ := Option.bind_eq_some_iff.1 typed
    exact ⟨s, operation, rfl, by rw [output]; rfl, consumed⟩

theorem Wired.definedBeforeUse {payment : FeePayment} {plan : Plan} (wired : g.Wired)
    (planned : g.plan payment = .ok plan) : DefinedBeforeUse plan.transaction.operations := by
  obtain ⟨entries, madeUp⟩ := exists_madeUpOf planned
  have listed (e : OperationNode × Block) (mem : e ∈ entries) :
      e.1 ∈ g.operations ∧ g.Contributes e.1 e.2 :=
    ⟨madeUp.nodes.mem_iff.1 (List.mem_map_of_mem mem), madeUp.contributes e mem⟩
  rw [madeUp.operations]
  refine definedBeforeUse_of_forall_append ?_
  rintro (_ | ⟨fee, front⟩) p back x half split operand
  · obtain ⟨rfl, -⟩ := List.cons.inj split
    cases operand
  obtain ⟨rfl, later⟩ := List.cons.inj split
  -- The operation stands in the block of a node `n` and reads what feeds an input of `n`.
  obtain ⟨done, ⟨n, b⟩, rest, inner, outer, rfl, here, rfl, -⟩ := exists_of_flatMap_eq_append later
  obtain ⟨operation, contributes⟩ := listed (n, b) List.mem_append_cons_self
  have added : g.block n = .ok b := (block_eq_ok_iff_contributes operation).2 contributes
  have mem : p ∈ b.operations := here ▸ List.mem_append_cons_self
  obtain ⟨i, declared, same⟩ := exists_input_of_mem_block added mem operand
  obtain ⟨e, memEdge, feed, -, rfl⟩ := exists_feed_of_argument same.symm
  -- The order puts the source of that edge in front, and its block writes the workspace.
  have stands := wired.readsRecorded.standsBefore madeUp.ordered operation declared same.symm
  have nodup := (isLinearization_of_order madeUp.ordered).nodup g.isRelationOn_dependency
  rw [← madeUp.order, List.map_append, List.map_cons] at stands nodup
  obtain ⟨⟨s, a⟩, memDone, source⟩ := List.mem_map.1 (stands.mem_front nodup)
  obtain ⟨operationSource, adds⟩ := listed (s, a) (List.mem_append_left _ memDone)
  obtain ⟨s', operation', source', output, consumed⟩ := wired.exists_source_of_feed memEdge feed
  obtain rfl := eq_of_operation_id operation' operationSource (source'.trans source.symm)
  obtain ⟨q, written, writes⟩ := adds.exists_write_of_isConsumed operation' output consumed
  have inFront : q ∈ done.flatMap fun e => e.2.operations :=
    List.mem_flatMap.2 ⟨(s', a), memDone, written⟩
  exact ⟨q, List.mem_cons_of_mem _ (List.mem_append_left _ inFront), source ▸ writes⟩

/-- **The plan of an edited graph writes the workspace before it reads it**: an operation that takes
what a node left there stands behind one that leaves it.  The start has no edges; calls that fail
count. -/
theorem definedBeforeUse_afterEdits (start : FlowGraph) (edits : List Edit) (payment : FeePayment)
    {plan : Plan} (edgeFree : start.edges = [])
    (planned : (start.afterEdits edits).plan payment = .ok plan) :
    DefinedBeforeUse plan.transaction.operations :=
  (wired_afterEdits edgeFree edits).definedBeforeUse planned

/-- A log line whose text a call is to make, and whose level is typed in. -/
def greeting : FlowGraph where
  nodes :=
    [.operation ((OperationNode.emitLog "log").withValue OperationNode.logLevelName
        (.ok (.text "Info"))),
      .operation ((OperationNode.new "make" (.call ⟨false, "T", "t", ⟨"hello", [], .string⟩⟩))
        |>.withOutput ⟨Handle.result, .string, none⟩)]
  edges := []
  nodup_ids := by decide

/-- The text of the log line is taken from the call, twice. -/
def greetingEdits : List Edit :=
  [⟨.between "make" Handle.result "log" OperationNode.logMessageName, "a"⟩,
    ⟨.between "make" Handle.result "log" OperationNode.logMessageName, "b"⟩]

theorem greeting_definedBeforeUse :
    greeting.edges = [] ∧ ∃ plan, (greeting.afterEdits greetingEdits).plan noFee = .ok plan ∧
      plan.transaction.operations =
        [.payFee "account" ⟨0, by decide⟩, .callFunction "t" "hello" [], .saveVar "make",
          .emitLog (.literal (.text "Info")) (.workspace "make" none)] ∧
      DefinedBeforeUse plan.transaction.operations :=
  ⟨rfl, _, rfl, rfl, definedBeforeUse_afterEdits greeting greetingEdits noFee rfl rfl⟩

end FlowGraph

end FlowPlan
