import FlowPlan.Proofs.Listing.Order
import FlowPlan.Proofs.Plan.Stages

/-!
# Listing — plans

How a graph lists its nodes and edges does not decide what is planned for it.  The listing of the
nodes is what queues start from; that of the edges decides between edges that claim the same exit or
the same input, of which the links keep the first and the last, and assembly the first.  Where no
two edges do (`EndsApart`), there is nothing to decide.

* `EndsApart.dependency_eq`: the dependencies are the same in both listings.
* `EndsApart.argument_eq`: so is what an input takes its argument from.
* `plan_independent_of_listing`: orders, operations and skipped nodes are the same.
-/

namespace FlowPlan

/-- Where at most one element of a list passes, it is what passes in any order of the list. -/
theorem filter_eq_of_perm {α : Type} {xs ys : List α} {p : α → Bool} (perm : xs.Perm ys)
    (apart : xs.Pairwise fun x y => ¬(p x ∧ p y)) : xs.filter p = ys.filter p := by
  have passed := perm.filter p
  have pairs : (xs.filter p).Pairwise fun _ _ => False :=
    List.pairwise_filter.2 (apart.imp fun none left right => none ⟨left, right⟩)
  match found : xs.filter p with
  | [] =>
    rw [found] at passed
    exact (List.nil_perm.1 passed).symm
  | [x] =>
    rw [found] at passed
    exact List.singleton_perm.1 passed
  | x :: y :: rest =>
    rw [found] at pairs
    exact (List.rel_of_pairwise_cons pairs List.mem_cons_self).elim

namespace FlowGraph
open Dependencies

variable {g h : FlowGraph}

/-- The same nodes and the same edges, in whatever listing. -/
structure Relists (g h : FlowGraph) : Prop where
  nodes : g.nodes.Perm h.nodes
  edges : g.edges.Perm h.edges

/-- No two edges claim the same handle to land on or the same exit to leave. -/
structure EndsApart (g : FlowGraph) : Prop where
  landsOnce : g.edges.Pairwise fun e f =>
    ¬(e.target = f.target ∧ e.targetHandle = f.targetHandle ∧ e.targetHandle.isSome)
  exitsOnce : g.edges.Pairwise fun e f =>
    ¬(e.source = f.source ∧ e.sourceHandle = some Handle.exit ∧ f.sourceHandle = some Handle.exit)

instance (g : FlowGraph) : Decidable g.EndsApart :=
  decidable_of_iff (_ ∧ _)
    ⟨fun ⟨landsOnce, exitsOnce⟩ => ⟨landsOnce, exitsOnce⟩,
      fun ⟨landsOnce, exitsOnce⟩ => ⟨landsOnce, exitsOnce⟩⟩

/-! ### Looking up -/

namespace Relists

theorem symm (relists : g.Relists h) : h.Relists g :=
  ⟨relists.nodes.symm, relists.edges.symm⟩

/-- A node is found by its identifier, wherever it is listed. -/
theorem node?_eq (relists : g.Relists h) : g.node? = h.node? := by
  funext id
  refine Option.ext fun n => ?_
  rw [node?_eq_some_iff, node?_eq_some_iff, relists.nodes.mem_iff]

theorem operation?_eq (relists : g.Relists h) : g.operation? = h.operation? := by
  funext id
  rw [operation?, operation?, relists.node?_eq]

theorem operations_perm (relists : g.Relists h) : g.operations.Perm h.operations :=
  relists.nodes.filterMap _

theorem isControlLink_eq (relists : g.Relists h) : g.isControlLink = h.isControlLink := by
  funext e
  rw [isControlLink, isControlLink, relists.operation?_eq]

theorem isDataFeed_eq (relists : g.Relists h) : g.isDataFeed = h.isDataFeed := by
  funext e
  simp only [isDataFeed, declaresInput, relists.operation?_eq]

theorem bankArg?_eq (relists : g.Relists h) : g.bankArg? = h.bankArg? := by
  funext e
  simp only [bankArg?, inputBank?, relists.node?_eq]

theorem workspaceArg?_eq (relists : g.Relists h) : g.workspaceArg? = h.workspaceArg? := by
  funext e
  rw [workspaceArg?, workspaceArg?, relists.isDataFeed_eq]

/-- The output of a node is consumed in both listings or in none. -/
theorem isConsumed_eq (relists : g.Relists h) (node : NodeId) :
    g.isConsumed node = h.isConsumed node := by
  rw [isConsumed, isConsumed, relists.isDataFeed_eq, relists.edges.any_eq]

theorem isSupplied_eq (relists : g.Relists h) (n : OperationNode) (input : String) :
    g.isSupplied n input = h.isSupplied n input := by
  rw [isSupplied, isSupplied, isConnected, isConnected, relists.edges.any_eq]

end Relists

/-! ### Ends that are claimed once -/

namespace EndsApart

/-- Of the edges that land on a handle, any listing has the same. -/
theorem filter_eq_of_landsOn (apart : g.EndsApart) (relists : g.Relists h) {p : Edge → Bool}
    (node : NodeId) (input : String) (lands : ∀ e, p e → e.landsOn node input) :
    g.edges.filter p = h.edges.filter p := by
  refine filter_eq_of_perm relists.edges (apart.landsOnce.imp ?_)
  rintro e f once ⟨left, right⟩
  obtain ⟨target, handle⟩ := landsOn_iff.1 (lands e left)
  obtain ⟨target', handle'⟩ := landsOn_iff.1 (lands f right)
  exact once ⟨target.trans target'.symm, handle.trans handle'.symm, by simp [handle]⟩

/-- Of the edges that leave an exit, any listing has the same. -/
theorem filter_eq_of_leaves (apart : g.EndsApart) (relists : g.Relists h) {p : Edge → Bool}
    (node : NodeId) (leaves : ∀ e, p e → e.leaves node Handle.exit) :
    g.edges.filter p = h.edges.filter p := by
  refine filter_eq_of_perm relists.edges (apart.exitsOnce.imp ?_)
  rintro e f once ⟨left, right⟩
  obtain ⟨source, handle⟩ := leaves_iff.1 (leaves e left)
  obtain ⟨source', handle'⟩ := leaves_iff.1 (leaves f right)
  exact once ⟨source.trans source'.symm, handle, handle'⟩

theorem symm (apart : g.EndsApart) (relists : g.Relists h) : h.EndsApart where
  landsOnce := by
    refine relists.edges.pairwise apart.landsOnce ?_
    rintro e f once ⟨target, handle, isSome⟩
    exact once ⟨target.symm, handle.symm, handle ▸ isSome⟩
  exitsOnce := by
    refine relists.edges.pairwise apart.exitsOnce ?_
    rintro e f once ⟨source, left, right⟩
    exact once ⟨source.symm, right, left⟩

/-- Where no two edges share an end, one control edge at most leaves a node. -/
theorem controlLeavesOnce (apart : g.EndsApart) : g.ControlLeavesOnce := by
  rw [ControlLeavesOnce, List.Nodup, List.pairwise_map, List.pairwise_filter]
  refine apart.exitsOnce.imp fun once left right same => once ?_
  have leaves {e : Edge} (control : g.isControlLink e) :=
    (leaves_iff.1 (leaves_of_isControl (isControlLink_iff.1 control).1 rfl)).2
  exact ⟨same, leaves left, leaves right⟩

/-! ### Dependencies -/

theorem exitPoint_eq (apart : g.EndsApart) (relists : g.Relists h) (x : NodeId) :
    (g.links.linksOf x).exitPoint = (h.links.linksOf x).exitPoint := by
  rw [exitPoint_links, exitPoint_links, ← relists.isControlLink_eq, ← List.head?_filter,
    ← List.head?_filter, apart.filter_eq_of_leaves relists x]
  intro e passes
  simp only [Bool.and_eq_true, decide_eq_true_eq] at passes
  exact leaves_of_isControl (isControlLink_iff.1 passes.1).1 passes.2

/-- An input that one edge lands on has that one in any listing. -/
theorem inputSource_eq (apart : g.EndsApart) (relists : g.Relists h) (y : NodeId)
    (input : String) : (g.links.linksOf y).inputSources.get? input =
      (h.links.linksOf y).inputSources.get? input := by
  rw [inputSource_links, inputSource_links, ← relists.isDataFeed_eq, ← List.getLast?_filter,
    ← List.getLast?_filter, apart.filter_eq_of_landsOn relists y input]
  intro e passes
  exact (Bool.and_eq_true_iff.1 passes).2

/-- **The dependencies are the same in both listings.** -/
theorem dependency_eq (apart : g.EndsApart) (relists : g.Relists h) :
    g.Dependency = h.Dependency := by
  -- one inclusion, for any two listings
  have sub {g h : FlowGraph} (apart : g.EndsApart) (relists : g.Relists h) (x y : NodeId)
      (dependency : g.Dependency x y) : h.Dependency x y := by
    cases dependency with
    | control exit => exact .control (apart.exitPoint_eq relists x ▸ exit)
    | @data n i mem declared source =>
      rw [apart.inputSource_eq relists] at source
      exact .data (relists.operations_perm.mem_iff.1 mem) declared source
  funext x y
  exact propext ⟨sub apart relists x y, sub (apart.symm relists) relists.symm x y⟩

/-- The dependencies are those of the other listing, their nodes in another order. -/
theorem relists_dependencies (apart : g.EndsApart) (relists : g.Relists h) :
    g.dependencies.Relists h.dependencies where
  nodes := relists.operations_perm.map _
  before := by rw [before_dependencies, before_dependencies, apart.dependency_eq relists]

/-- The outcomes of ordering agree. -/
theorem order_agree (apart : g.EndsApart) (relists : g.Relists h) :
    OutcomesAgree g.dependencies.order h.dependencies.order :=
  (apart.relists_dependencies relists).order_agree g.wellFormed_dependencies
    h.wellFormed_dependencies (comparableDepend_dependencies apart.controlLeavesOnce)
    (comparableDepend_dependencies (apart.symm relists).controlLeavesOnce)

/-! ### Arguments and blocks -/

/-- **An input takes its argument from the same edge in both listings.** -/
theorem argument_eq (apart : g.EndsApart) (relists : g.Relists h) (n : OperationNode)
    (input : String) : g.argument n input = h.argument n input := by
  have edges : g.edgesTo n.id input = h.edgesTo n.id input :=
    apart.filter_eq_of_landsOn relists _ _ fun _ => id
  rw [argument, argument, edges, relists.bankArg?_eq, relists.workspaceArg?_eq]

/-- **A node adds the same in any listing.** -/
theorem blockOf_eq (apart : g.EndsApart) (relists : g.Relists h) : g.blockOf = h.blockOf :=
  blockOf_congr relists.operation?_eq (fun n _ => apart.argument_eq relists n)
    fun n _ => relists.isConsumed_eq n.id

end EndsApart

/-! ### Plans -/

/-- What passes validation passes it in any listing. -/
theorem Relists.validate_eq_ok (relists : g.Relists h) (valid : g.validate = .ok ()) :
    h.validate = .ok () := by
  rw [validate_eq_ok_iff] at valid ⊢
  intro n mem i declared
  rw [← relists.isSupplied_eq]
  exact valid n (relists.operations_perm.mem_iff.2 mem) i declared

/-- The plan of one listing is that of the other, but for the listing of the banks. -/
theorem EndsApart.plan_eq_ok (apart : g.EndsApart) (relists : g.Relists h) {payment : FeePayment}
    {plan : Plan} (planned : g.plan payment = .ok plan) :
    h.plan payment =
      .ok { plan with transaction := { plan.transaction with context := h.context } } := by
  obtain ⟨ordered, valid, assembled⟩ := plan_eq_ok_iff.1 planned
  obtain ⟨blocks, ran, made⟩ := assemble_eq_ok_iff.1 assembled
  refine plan_eq_ok_iff.2 ⟨(apart.order_agree relists).eq_ok ordered,
    relists.validate_eq_ok valid, assemble_eq_ok_iff.2 ⟨blocks, ?_, ?_⟩⟩
  · rw [← apart.blockOf_eq relists]
    exact ran
  · rw [← made]

/-- **What is planned does not depend on the listing.**  Where no two edges claim the same handle to
land on or the same exit to leave, two listings of the same nodes and edges have the same order, the
same nodes on cycles or an ambiguity in both; one has a plan exactly if the other has, with the same
order, the same operations and the same skipped nodes. -/
theorem plan_independent_of_listing {g h : FlowGraph} (relists : g.Relists h)
    (apart : g.EndsApart) (payment : FeePayment) :
    OutcomesAgree g.dependencies.order h.dependencies.order ∧
      ((∃ plan, g.plan payment = .ok plan) ↔ ∃ plan, h.plan payment = .ok plan) ∧
      ∀ p q, g.plan payment = .ok p → h.plan payment = .ok q →
        p.order = q.order ∧ p.transaction.operations = q.transaction.operations ∧
          p.transaction.skipped = q.transaction.skipped := by
  refine ⟨apart.order_agree relists, ⟨?_, ?_⟩, fun p q first second => ?_⟩
  · rintro ⟨plan, planned⟩
    exact ⟨_, apart.plan_eq_ok relists planned⟩
  · rintro ⟨plan, planned⟩
    exact ⟨_, (apart.symm relists).plan_eq_ok relists.symm planned⟩
  · cases (apart.plan_eq_ok relists first).symm.trans second
    exact ⟨rfl, rfl, rfl⟩

/-- A method on a component from a bank, with a name that a call makes. -/
def handover : FlowGraph where
  nodes :=
    [.operation (OperationNode.start "begin"),
      .operation ((OperationNode.new "make" (.call ⟨false, "T", "t", ⟨"name", [], .string⟩⟩))
        |>.withOutput ⟨Handle.result, .string, none⟩),
      .operation ((OperationNode.new "use" (.call ⟨true, "T", "t", ⟨"take", [], .unit⟩⟩))
        |>.withInput .receiver |>.withInput (.parameter "name" .string)),
      .operation (OperationNode.new "check" .assertBucketContains),
      .inputBank ((InputBank.new "bank" "inputs").withParam ⟨"p", "component", .other "Component"⟩
        (some (.ok (.text "component_1"))))]
  edges :=
    [.control "begin" "make", .between "make" Handle.result "use" "name",
      .between "bank" "p" "use" Input.receiverName, .control "use" "check"]
  nodup_ids := by decide

/-- The same, listed backwards. -/
def handoverBackwards : FlowGraph where
  nodes := handover.nodes.reverse
  edges := handover.edges.reverse
  nodup_ids := by decide

/-- The plan of `handover` is the same when its nodes and edges are listed backwards. -/
theorem handover_plan_independent_of_listing :
    handover.Relists handoverBackwards ∧ handover.EndsApart ∧
      ∃ p q, handover.plan noFee = .ok p ∧ handoverBackwards.plan noFee = .ok q ∧
        p.order = ["begin", "make", "use", "check"] ∧ p.order = q.order ∧
        p.transaction.operations = q.transaction.operations ∧
        p.transaction.skipped = q.transaction.skipped := by
  have relists : handover.Relists handoverBackwards :=
    ⟨(List.reverse_perm _).symm, (List.reverse_perm _).symm⟩
  have apart : handover.EndsApart := by decide
  have same := (plan_independent_of_listing relists apart noFee).2.2
  exact ⟨relists, apart, _, _, rfl, rfl, rfl, same _ _ rfl rfl⟩

end FlowGraph

end FlowPlan
