import FlowPlan.Proofs.Order.Links
import FlowPlan.Proofs.Plan.Stages
import FlowPlan.Proofs.Workspace.Blocks

/-!
# Plan — stray edges

A stray edge lacks a handle, or names a node that the graph does not hold.  Taken out, it is missed
neither by the order (`dependencies_prune`) nor by the transaction (`assemble_prune`): both stages
look at edges between known nodes only.  The check of what is supplied looks at where an edge lands
and at nothing else, so that a stray edge counts there.  The plan is therefore the same without the
stray edges, unless there is an order and an input that only a stray edge supplies
(`plan_prune_eq_iff`): without the edge such an input is reported, with it the input gets no value.
-/

namespace FlowPlan

/-- What finds nothing in the elements that are left out finds the same without them. -/
theorem findSome?_filter_of_imp {α β : Type} {p : α → Bool} {f : α → Option β} {xs : List α}
    (kept : ∀ x ∈ xs, (f x).isSome → p x) : (xs.filter p).findSome? f = xs.findSome? f := by
  induction xs with
  | nil => rfl
  | cons x xs ih =>
    have rest := ih fun y mem => kept y (List.mem_cons_of_mem x mem)
    by_cases h : p x
    · rw [List.filter_cons_of_pos h, List.findSome?_cons, List.findSome?_cons, rest]
    · have nothing : f x = none := by
        simpa using fun found => h (kept x List.mem_cons_self found)
      rw [List.filter_cons_of_neg h, List.findSome?_cons, nothing, rest]

namespace FlowGraph
open LinkTable

variable {g : FlowGraph} {e : Edge} {n : OperationNode} {order : List NodeId}
  {payment : FeePayment}

/-- The edge lacks a handle, or an end of it is no node. -/
def isStray (g : FlowGraph) (e : Edge) : Bool :=
  !(e.hasHandles && (g.node? e.source).isSome && (g.node? e.target).isSome)

/-- The graph without its stray edges. -/
def prune (g : FlowGraph) : FlowGraph :=
  { g with edges := g.edges.filter fun e => !g.isStray e }

theorem operations_prune (g : FlowGraph) : g.prune.operations = g.operations :=
  rfl

/-- An edge that is no stray has two handles and two nodes. -/
theorem isStray_eq_false_iff :
    g.isStray e = false ↔ e.sourceHandle.isSome ∧ e.targetHandle.isSome ∧
      (g.node? e.source).isSome ∧ (g.node? e.target).isSome := by
  simp [isStray, Edge.hasHandles, and_assoc]

theorem isSome_node?_of_operation? {id : NodeId} (operation : (g.operation? id).isSome) :
    (g.node? id).isSome :=
  Option.isSome_of_isSome_bind operation

/-! ### Orders -/

/-- No control edge that counts is a stray. -/
theorem isStray_of_isControlLink (control : g.isControlLink e) : g.isStray e = false := by
  obtain ⟨handles, source, target⟩ := isControlLink_iff.1 control
  obtain ⟨exit, entry⟩ := Edge.isControl_iff.1 handles
  exact isStray_eq_false_iff.2 ⟨by simp [exit], by simp [entry],
    isSome_node?_of_operation? source, isSome_node?_of_operation? target⟩

theorem isStray_of_isDataFeed (data : g.isDataFeed e) : g.isStray e = false := by
  obtain ⟨-, sourceHandle, source, input, targetHandle, t, i, target, -⟩ := isDataFeed_iff.1 data
  exact isStray_eq_false_iff.2 ⟨sourceHandle, by simp [targetHandle],
    isSome_node?_of_operation? source, isSome_node?_of_operation? (by simp [target])⟩

/-- **A stray leaves no trace in the links.** -/
theorem noteEdge_of_isStray {t : LinkTable} (covers : t.Covers g) (stray : g.isStray e) :
    t.noteEdge g e = t := by
  have control : ¬g.isControlLink e := fun h => by simp [isStray_of_isControlLink h] at stray
  have data : ¬g.isDataFeed e := fun h => by simp [isStray_of_isDataFeed h] at stray
  rw [noteEdge_eq covers, if_neg control, if_neg data]

/-- Stray edges leave no link. -/
theorem links_prune (g : FlowGraph) : g.prune.links = g.links := by
  change g.linksAfter (g.edges.filter fun e => !g.isStray e) = g.linksAfter g.edges
  induction g.edges using List.reverseRecOn with
  | nil => rfl
  | append_singleton es e ih =>
    rw [List.filter_append, linksAfter_snoc g es e]
    by_cases stray : g.isStray e
    · rw [noteEdge_of_isStray (g.covers_linksAfter es) stray, ← ih]
      simp [stray]
    · rw [← ih, ← linksAfter_snoc]
      simp [stray]

/-- **Stray edges order nothing.** -/
theorem dependencies_prune (g : FlowGraph) : g.prune.dependencies = g.dependencies := by
  rw [dependencies, dependencies, links_prune]
  rfl

/-! ### Transactions -/

/-- What an edge carries to an operation, if it carries anything, it carries between nodes. -/
theorem isStray_of_bankArg? {input : String} (mem : n ∈ g.operations)
    (lands : e.landsOn n.id input) (supplies : (g.bankArg? e).isSome) : g.isStray e = false := by
  obtain ⟨arg, supplied⟩ := Option.isSome_iff_exists.1 supplies
  obtain ⟨handle, bank, param, leaves, source, -⟩ := bankArg?_eq_some_iff.1 supplied
  obtain ⟨target, targetHandle⟩ := landsOn_iff.1 lands
  have known : (g.inputBank? e.source).isSome := by simp [source]
  have operation := isSome_operation?.2 (List.mem_map_of_mem mem)
  exact isStray_eq_false_iff.2 ⟨by simp [leaves], by simp [targetHandle],
    Option.isSome_of_isSome_bind known, target ▸ isSome_node?_of_operation? operation⟩

theorem isStray_of_workspaceArg? (supplies : (g.workspaceArg? e).isSome) : g.isStray e = false := by
  rw [workspaceArg?] at supplies
  split at supplies
  · next data => exact isStray_of_isDataFeed data
  · cases supplies

/-- Pruning leaves an input the edges that are no strays. -/
theorem edgesTo_prune (g : FlowGraph) (node : NodeId) (input : String) :
    g.prune.edgesTo node input = (g.edgesTo node input).filter fun e => !g.isStray e := by
  rw [edgesTo, edgesTo, prune, List.filter_comm]

/-- **Pruning changes no argument.** -/
theorem argument_prune (mem : n ∈ g.operations) (input : String) :
    g.prune.argument n input = g.argument n input := by
  have fromBanks : (g.prune.edgesTo n.id input).findSome? g.bankArg? =
      (g.edgesTo n.id input).findSome? g.bankArg? := by
    rw [edgesTo_prune]
    refine findSome?_filter_of_imp fun e lands supplies => ?_
    simp [isStray_of_bankArg? mem (List.mem_filter.1 lands).2 supplies]
  have fromOperations : (g.prune.edgesTo n.id input).findSome? g.workspaceArg? =
      (g.edgesTo n.id input).findSome? g.workspaceArg? := by
    rw [edgesTo_prune]
    refine findSome?_filter_of_imp fun e _ supplies => ?_
    simp [isStray_of_workspaceArg? supplies]
  rw [argument, argument, ← fromBanks, ← fromOperations]
  rfl

/-- Pruning takes no output. -/
theorem isConsumed_prune (g : FlowGraph) (node : NodeId) :
    g.prune.isConsumed node = g.isConsumed node := by
  change (g.edges.filter fun e => !g.isStray e).any (fun e => e.source = node && g.isDataFeed e) = _
  rw [isConsumed, List.any_filter]
  congr 1
  funext e
  by_cases data : g.isDataFeed e
  · simp [isStray_of_isDataFeed data]
  · simp [data]

/-- **Stray edges carry nothing.** -/
theorem assemble_prune (g : FlowGraph) : g.prune.assemble = g.assemble := by
  have blocks : g.prune.blockOf = g.blockOf :=
    blockOf_congr rfl (fun n mem => argument_prune mem) fun n _ => isConsumed_prune g n.id
  funext order payment
  rw [assemble, assemble, blocks]
  rfl

/-! ### Plans -/

/-- What is supplied without the strays is supplied with them. -/
theorem isSupplied_of_prune {input : String} (supplied : g.prune.isSupplied n input) :
    g.isSupplied n input := by
  rw [isSupplied, Bool.or_eq_true] at supplied ⊢
  refine supplied.imp_left fun connected => ?_
  obtain ⟨e, mem, lands⟩ := List.any_eq_true.1 connected
  exact List.any_eq_true.2 ⟨e, (List.mem_filter.1 mem).1, lands⟩

/-- No input is supplied by stray edges only. -/
def SuppliedWithoutStrays (g : FlowGraph) : Prop :=
  ∀ n ∈ g.operations, ∀ i ∈ n.inputs, g.isSupplied n i.name → g.prune.isSupplied n i.name

/-- The same inputs are missing exactly if no input is supplied by strays alone. -/
theorem missingInputs_prune_eq_iff :
    g.prune.missingInputs = g.missingInputs ↔ g.SuppliedWithoutStrays := by
  rw [missingInputs_eq_iff g.operations_prune, operations_prune]
  refine forall₄_congr fun n mem i declared => ?_
  rw [Bool.eq_iff_iff]
  exact ⟨Iff.mpr, fun supplied => ⟨isSupplied_of_prune, supplied⟩⟩

/-- **The plan is the same without the stray edges, unless there is an order and an input that only
a stray edge supplies.**  The order, and what the order makes of the graph, are the same anyway. -/
theorem plan_prune_eq_iff (g : FlowGraph) (payment : FeePayment) :
    g.prune.dependencies.order = g.dependencies.order ∧ g.prune.assemble = g.assemble ∧
      (g.prune.plan payment = g.plan payment ↔
        (∀ order, g.dependencies.order ≠ .ok order) ∨ g.SuppliedWithoutStrays) := by
  have pruned : g.prune.dependencies.order = g.dependencies.order := by rw [dependencies_prune]
  refine ⟨pruned, assemble_prune g, ?_⟩
  cases ordered : g.dependencies.order with
  | error failure =>
    rw [ordered] at pruned
    simp [plan_of_order_eq_error ordered, plan_of_order_eq_error pruned]
  | ok order =>
    rw [ordered] at pruned
    rw [or_iff_right (by simp), ← missingInputs_prune_eq_iff]
    constructor
    · intro same
      -- nothing is missing without the strays, or that is what both plans report
      by_cases none : g.prune.missingInputs = []
      · have supplied := missingInputs_eq_nil_iff.1 none
        rw [none, eq_comm, missingInputs_eq_nil_iff]
        exact fun n mem i declared => isSupplied_of_prune (supplied n mem i declared)
      · have reported : g.prune.plan payment = .error (.missingData g.prune.missingInputs) :=
          (plan_eq_missingData_iff pruned).2 ⟨rfl, none⟩
        rw [same] at reported
        exact ((plan_eq_missingData_iff ordered).1 reported).1.symm
    · intro missing
      rw [plan_of_order_eq_ok ordered, plan_of_order_eq_ok pruned, assemble_prune, validate,
        validate, missing]

/-- A call whose only input is fed from an unknown node. -/
def fedByUnknown : FlowGraph where
  nodes :=
    [.operation ((OperationNode.new "use" (.call ⟨false, "T", "t", ⟨"take", [], .unit⟩⟩))
      |>.withInput (.parameter "name" .string))]
  edges := [.between "ghost" "out" "use" "name"]
  nodup_ids := by decide

/-- The stray edge of `fedByUnknown` makes a plan: without it the input is missing. -/
theorem exists_plan_prune_ne :
    ¬∀ (g : FlowGraph) (payment : FeePayment), g.prune.plan payment = g.plan payment := by
  intro same
  have planned : fedByUnknown.plan noFee =
      .ok ⟨["use"], .ofList [("input", [])],
        [.payFee noFee.account noFee.fee, .callFunction "t" "take" [.literal .null]], []⟩ := rfl
  have missing : fedByUnknown.prune.plan noFee =
      .error (.missingData [⟨"use", "use", ["name"]⟩]) := rfl
  cases (missing.symm.trans (same _ _)).trans planned

end FlowGraph

end FlowPlan
