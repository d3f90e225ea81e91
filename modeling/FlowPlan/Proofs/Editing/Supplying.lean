import FlowPlan.Proofs.Arguments.Honoured
import FlowPlan.Proofs.Plan.Stages

/-!
# Editing — supplies from banks

An edge from a bank orders nothing, because both passes over a graph look at edges between
operations only; and to the check of what is supplied it is one more edge that lands on an input.
So what a bank supplies leaves a graph its order, or the cycle or the ambiguity for which it has
none, and takes one name off the list of what is missing.  Nothing is asked of the graph.

* `dependencies_snoc`, `missingInputs_snoc`: what one more edge comes to.
* `dependencies_afterEdits_of_banks`: however much banks supply, the dependencies stay.
* `order_and_missingInputs_of_supply`: what one connection from a bank changes.

The bank itself may change, as it may declare a parameter.  The operations do not, and neither pass
looks at banks (`operation?_congr`, `linksAfter_congr`).
-/

namespace FlowPlan

/-- The entry without an input, if it is the node's; an entry of no inputs is left out. -/
def MissingInputs.without? (m : MissingInputs) (node : NodeId) (input : String) :
    Option MissingInputs :=
  if m.node = node then
    let inputs := m.inputs.filter (· ≠ input)
    if inputs = [] then none else some { m with inputs }
  else some m

namespace FlowGraph
open LinkTable

variable {g h : FlowGraph} {c : Connection} {e : Edge} {n : OperationNode} {fresh : ParamId}
  {input : String}

/-! ### The order -/

theorem operation?_congr (operations : h.operations = g.operations) :
    h.operation? = g.operation? := by
  funext id
  refine Option.ext fun n => ?_
  rw [operation?_eq_some_iff, operation?_eq_some_iff, operations]

/-- The links of a graph are up to its operations and edges. -/
theorem linksAfter_congr (operations : h.operations = g.operations) (es : List Edge) :
    h.linksAfter es = g.linksAfter es := by
  have declares : h.declaresInput = g.declaresInput := by
    funext node input
    rw [declaresInput, declaresInput, operation?_congr operations]
  have notes : LinkTable.noteEdge h = LinkTable.noteEdge g := by
    funext t e
    simp only [LinkTable.noteEdge, LinkTable.noteLink, declares]
  rw [linksAfter, linksAfter, notes, operations]

/-- An edge from no operation leaves no trace in the links. -/
theorem noteEdge_of_source {t : LinkTable} (covers : t.Covers g)
    (source : g.operation? e.source = none) : t.noteEdge g e = t := by
  have noOperation : ¬(g.operation? e.source).isSome := by simp [source]
  have control : ¬g.isControlLink e := fun link => noOperation (isControlLink_iff.1 link).2.1
  have data : ¬g.isDataFeed e := fun feed => noOperation (isDataFeed_iff.1 feed).2.2.1
  rw [noteEdge_eq covers, if_neg control, if_neg data]

/-- **An edge that leaves no operation orders nothing.** -/
theorem dependencies_snoc (operations : h.operations = g.operations)
    (edges : h.edges = g.edges ++ [e]) (source : g.operation? e.source = none) :
    h.dependencies = g.dependencies := by
  have links : h.links = g.links := by
    change h.linksAfter h.edges = g.linksAfter g.edges
    rw [edges, linksAfter_congr operations, linksAfter_snoc,
      noteEdge_of_source (g.covers_linksAfter g.edges) source]
  rw [dependencies, dependencies, links, Dependencies.ofLinks, Dependencies.ofLinks, operations,
    operation?_congr operations]

/-! ### What is missing -/

/-- An edge more supplies the input on which it lands. -/
theorem isSupplied_snoc {name : String} (edges : h.edges = g.edges ++ [e]) :
    h.isSupplied n name = (g.isSupplied n name || e.landsOn n.id name) := by
  simp only [isSupplied, isConnected, edges, List.any_append, List.any_cons, List.any_nil,
    Bool.or_false]
  rw [Bool.or_right_comm]

/-- The edge takes the input that it lands on off those that nothing supplies. -/
theorem unsupplied_snoc (edges : h.edges = g.edges ++ [e]) (handle : e.targetHandle = some input) :
    h.unsupplied n =
      if n.id = e.target then (g.unsupplied n).filter (· ≠ input) else g.unsupplied n := by
  have lands (name : String) : e.landsOn n.id name = decide (n.id = e.target ∧ name = input) := by
    rw [Edge.landsOn, handle, Bool.decide_and]
    grind
  have filtered : h.unsupplied n = (g.unsupplied n).filter fun name => !e.landsOn n.id name := by
    rw [unsupplied, unsupplied, List.filter_filter]
    refine List.filter_congr fun name _ => ?_
    rw [isSupplied_snoc edges, Bool.not_or, Bool.and_comm]
  simp only [filtered, lands]
  split
  · next same => simp [same]
  · next other => simp [other]

/-- So it does with the entry of the operation that it lands on. -/
theorem missingAt?_snoc (edges : h.edges = g.edges ++ [e]) (handle : e.targetHandle = some input) :
    h.missingAt? n = (g.missingAt? n).bind (·.without? e.target input) := by
  rw [missingAt?, missingAt?, unsupplied_snoc edges handle]
  cases missing : g.unsupplied n with
  | nil => simp
  | cons first rest =>
    by_cases same : n.id = e.target
    · simp only [if_pos same, Option.bind_some, MissingInputs.without?]
      cases (first :: rest).filter (· ≠ input) <;> simp
    · simp only [if_neg same, Option.bind_some, MissingInputs.without?]

/-- **An edge takes the input that it lands on off the list of what is missing.** -/
theorem missingInputs_snoc (operations : h.operations = g.operations)
    (edges : h.edges = g.edges ++ [e]) (handle : e.targetHandle = some input) :
    h.missingInputs = g.missingInputs.filterMap (·.without? e.target input) := by
  rw [missingInputs, missingInputs, List.filterMap_filterMap, operations]
  exact List.filterMap_congr fun n _ => missingAt?_snoc edges handle

/-! ### One connection, and many -/

theorem operation?_of_mem_inputBanks {b : InputBank} (bank : b ∈ g.inputBanks) :
    g.operation? b.id = none := by
  refine Option.eq_none_iff_forall_ne_some.2 fun n found => ?_
  obtain ⟨operation, same⟩ := operation?_eq_some_iff.1 found
  exact inputBank_id_ne bank operation same.symm

/-- **A connection from a bank changes no dependency.** -/
theorem Draws.dependencies_of_bank {b : InputBank} (draws : g.Draws fresh c h)
    (bank : b ∈ g.inputBanks) (source : c.source = b.id) : h.dependencies = g.dependencies := by
  have noOperation : g.operation? (g.drawnEdge fresh c).source = none := by
    change g.operation? c.source = none
    rw [source, operation?_of_mem_inputBanks bank]
  exact dependencies_snoc draws.growsTo.operations_eq draws.edges_eq noOperation

/-- **Banks order nothing**, however much they supply. -/
theorem dependencies_afterEdits_of_banks {edits : List Edit}
    (banks : ∀ e ∈ edits, e.connection.source ∈ g.inputBanks.map InputBank.id) :
    (g.afterEdits edits).dependencies = g.dependencies := by
  induction edits generalizing g with
  | nil => rfl
  | cons e edits ih =>
    -- who is a bank has to be carried along, for the rest of the edits
    have step : (g.edit e).dependencies = g.dependencies ∧
        (g.edit e).inputBanks.map InputBank.id = g.inputBanks.map InputBank.id := by
      rcases g.edit_cases e with same | ⟨-, draws⟩
      · rw [same]
        exact ⟨rfl, rfl⟩
      · obtain ⟨b, bank, source⟩ := List.mem_map.1 (banks e List.mem_cons_self)
        exact ⟨draws.dependencies_of_bank bank source.symm, draws.growsTo.bankIds_eq⟩
    have rest := ih (g := g.edit e) fun f mem => step.2 ▸ banks f (List.mem_cons_of_mem e mem)
    exact rest.trans step.1

/-- **What a bank supplies leaves the order as it is**, or the error that stands for it, and takes
the input off the list of what is missing. -/
theorem order_and_missingInputs_of_supply {b : InputBank} (bank : b ∈ g.inputBanks)
    (source : c.source = b.id) (connected : g.connect fresh c = .ok h) :
    h.dependencies.order = g.dependencies.order ∧
      ∃ input, c.targetHandle = some input ∧
        h.missingInputs = g.missingInputs.filterMap (·.without? c.target input) := by
  have draws := draws_of_connect connected
  have ordered := congrArg Dependencies.order (draws.dependencies_of_bank bank source)
  obtain ⟨s, handle, t, input, rfl, -⟩ :=
    checkConnection_eq_ok_iff.1 (exists_connect_eq_ok_iff.1 ⟨h, connected⟩)
  exact ⟨ordered, input, rfl,
    missingInputs_snoc draws.growsTo.operations_eq draws.edges_eq rfl⟩

/-- The bank is to declare a parameter for the receiver. -/
def supplyReceiver : Connection :=
  .between "bank" Handle.newInputParam "use" Input.receiverName

/-- The bank is to supply the text. -/
def supplyText : Connection :=
  .between "bank" "p" "use" "text"

/-- The graph in which the bank supplies the receiver. -/
def received : FlowGraph :=
  sketch.edit ⟨supplyReceiver, "q"⟩

/-- Neither the receiver nor the text that the bank supplies orders the two operations.  The entry
of the one that lacks them gets shorter, and is gone. -/
theorem sketch_order_and_missingInputs :
    (sketch.inputBanks.map InputBank.id = [supplyReceiver.source] ∧
        sketch.connect "q" supplyReceiver = .ok received ∧
        received.dependencies.order = .error (.ambiguousOrder "make" "use") ∧
        received.missingInputs.map MissingInputs.inputs = [["text"]]) ∧
      (received.inputBanks.map InputBank.id = [supplyText.source] ∧
        ∃ h, received.connect "r" supplyText = .ok h ∧
          h.dependencies.order = .error (.ambiguousOrder "make" "use") ∧ h.missingInputs = []) := by
  have first : sketch.connect "q" supplyReceiver = .ok received := rfl
  have second : received.connect "r" supplyText = .ok (received.edit ⟨supplyText, "r"⟩) := rfl
  have bank : sketch.inputBanks[0] ∈ sketch.inputBanks := List.getElem_mem _
  have bank' : received.inputBanks[0] ∈ received.inputBanks := List.getElem_mem _
  obtain ⟨ordered, input, handle, missing⟩ := order_and_missingInputs_of_supply bank rfl first
  obtain ⟨ordered', input', handle', missing'⟩ := order_and_missingInputs_of_supply bank' rfl second
  cases handle
  cases handle'
  refine ⟨⟨rfl, first, ordered, ?_⟩, rfl, _, second, ordered'.trans ordered, ?_⟩
  · rw [missing]
    decide
  · rw [missing', missing]
    decide

end FlowGraph

end FlowPlan
