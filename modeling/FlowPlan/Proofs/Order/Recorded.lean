import Mathlib.Data.Set.Card
import FlowPlan.Proofs.Order.Outcome

/-!
# Order — what the dependencies record

The dependencies of a graph hold what its edges say about the order of its operations, and nothing
else.  Only the edges between two operations that have both handles count (`operationEdges`).  Of
these an exit and an entry keep the first control edge, and a declared input the last data edge;
all else that the dependencies hold is settled by these links.

* `Records`: what dependencies hold of a graph, field by field.
* `records_dependencies`: the dependencies of a graph record it, whatever its edges are.
-/

namespace FlowPlan

namespace FlowGraph

variable {g : FlowGraph} {e : Edge} {x y : NodeId} {input : String}

/-- The edge has both handles and joins two operations. -/
def isOperationEdge (g : FlowGraph) (e : Edge) : Bool :=
  e.hasHandles && (g.operation? e.source).isSome && (g.operation? e.target).isSome

/-- The edges that count for the order, as they are listed. -/
def operationEdges (g : FlowGraph) : List Edge :=
  g.edges.filter g.isOperationEdge

/-- The first of several edges that counts and passes a test. -/
theorem find?_operationEdges (g : FlowGraph) (p : Edge → Bool) :
    g.operationEdges.find? p = g.edges.find? fun e => g.isOperationEdge e && p e := by
  simp [operationEdges, List.find?_filter]

/-- The last of several edges that counts and passes a test. -/
theorem find?_reverse_operationEdges (g : FlowGraph) (p : Edge → Bool) :
    g.operationEdges.reverse.find? p =
      g.edges.reverse.find? fun e => g.isOperationEdge e && p e := by
  simp [operationEdges, ← List.filter_reverse, List.find?_filter]

theorem isControlLink_eq (g : FlowGraph) (e : Edge) :
    g.isControlLink e = (g.isOperationEdge e && e.isControl) := by
  by_cases control : e.isControl
  · have handles : e.hasHandles := by
      simp [Edge.hasHandles, Edge.isControl_iff.1 control]
    simp [isControlLink, isOperationEdge, control, handles]
  · simp [isControlLink, control]

/-- On a declared input every data edge that counts carries a value. -/
theorem isDataFeed_eq_of_declaresInput (declared : g.declaresInput y input) (e : Edge) :
    (g.isDataFeed e && e.landsOn y input) =
      (g.isOperationEdge e && (e.isData && e.landsOn y input)) := by
  by_cases lands : e.landsOn y input
  · obtain ⟨rfl, handle⟩ := landsOn_iff.1 lands
    obtain ⟨n, -, found, -⟩ := declaresInput_iff.1 declared
    simp only [isDataFeed, isOperationEdge, Edge.hasHandles, handle, found, declared, lands,
      Option.any_some, Option.isSome_some, Bool.and_true]
    ac_rfl
  · simp [lands]

/-- On an input that is not declared no edge carries a value. -/
theorem declaresInput_of_isDataFeed (feed : g.isDataFeed e) (lands : e.landsOn y input) :
    g.declaresInput y input := by
  obtain ⟨-, -, -, name, handle, n, i, found, declared⟩ := isDataFeed_iff.1 feed
  obtain ⟨rfl, handle'⟩ := landsOn_iff.1 lands
  obtain rfl : name = input := Option.some.inj (handle.symm.trans handle')
  exact declaresInput_iff.2 ⟨n, i, found, declared⟩

end FlowGraph

namespace Dependencies
open FlowGraph

variable {d : Dependencies} {g : FlowGraph} {x y : NodeId}

/-- As many nodes are pending for a node as lead to it without being placed. -/
theorem pending_eq_ncard (nodup : d.edges.Nodup) (placed : List NodeId) (y : NodeId) :
    d.pending placed y = {x | (x, y) ∈ d.edges ∧ x ∉ placed}.ncard := by
  let predecessors := (d.edges.filter fun e => e.2 = y && e.1 ∉ placed).map Prod.fst
  have once : predecessors.Nodup := by
    refine List.Nodup.map_on ?_ (nodup.filter _)
    rintro ⟨a, b⟩ ha ⟨a', b'⟩ ha' rfl
    simp_all
  have all : {x | (x, y) ∈ d.edges ∧ x ∉ placed} = (predecessors.toFinset : Set NodeId) := by
    ext x
    simp [predecessors]
  rw [all, Set.ncard_coe_finset, List.toFinset_card_of_nodup once, List.length_map, pending,
    List.countP_eq_length_filter]

/-- As many nodes lead to a node as the node waits for. -/
theorem inDegree_eq_ncard (nodup : d.edges.Nodup) (y : NodeId) :
    d.inDegree y = {x | (x, y) ∈ d.edges}.ncard := by
  rw [← pending_nil, pending_eq_ncard nodup]
  simp

/-- An input that `y` declares is fed from `x`. -/
def FeedsInput (d : Dependencies) (g : FlowGraph) (x y : NodeId) : Prop :=
  ∃ n ∈ g.operations, n.id = y ∧
    ∃ i ∈ n.inputs, (d.links.linksOf n.id).inputSources.get? i.name = some x

/-- The dependencies hold what the edges of the graph say about the order of its operations. -/
structure Records (d : Dependencies) (g : FlowGraph) : Prop where
  nodes : d.nodes = g.operations.map OperationNode.id
  keys : d.links.keys = d.nodes
  /-- An exit keeps the first control edge that leaves it. -/
  exitPoint : ∀ x, (d.links.linksOf x).exitPoint =
    (g.operationEdges.find? fun e => e.isControl && e.source = x).map Edge.target
  /-- An entry keeps the first control edge that reaches it. -/
  entryPoint : ∀ y, (d.links.linksOf y).entryPoint =
    (g.operationEdges.find? fun e => e.isControl && e.target = y).map Edge.source
  /-- A declared input keeps the last data edge that lands on it. -/
  inputSource : ∀ y input, (d.links.linksOf y).inputSources.get? input =
    if g.declaresInput y input then
      (g.operationEdges.reverse.find? fun e => e.isData && e.landsOn y input).map Edge.source
    else none
  before : ∀ x y, (x, y) ∈ d.edges ↔
    (d.links.linksOf x).exitPoint = some y ∨ d.FeedsInput g x y
  /-- A consumer takes data from an output, and is no control successor. -/
  consumer : ∀ x y, y ∈ d.consumers x ↔ (∃ n ∈ g.operations, n.id = x ∧ n.output.isSome) ∧
    d.FeedsInput g x y ∧ (d.links.linksOf x).exitPoint ≠ some y
  nodup_consumers : ∀ x, (d.consumers x).Nodup
  successor : ∀ x y, y ∈ d.successors x ↔ (x, y) ∈ d.edges
  nodup_successors : ∀ x, (d.successors x).Nodup
  inDegree : ∀ y, d.inDegree y = {x | (x, y) ∈ d.edges}.ncard
  /-- The links name operations only. -/
  mem_of_links : ∀ x l, d.links.get? x = some l →
    (∀ y ∈ l.exitPoint, y ∈ d.nodes) ∧ (∀ y ∈ l.entryPoint, y ∈ d.nodes) ∧
      ∀ input, ∀ y ∈ l.inputSources.get? input, y ∈ d.nodes
  /-- So do the consumers. -/
  mem_of_consumers : ∀ x y, y ∈ d.consumers x → x ∈ d.nodes ∧ y ∈ d.nodes

end Dependencies

namespace FlowGraph
open Dependencies LinkTable

variable {g : FlowGraph} {x y : NodeId} {input : String}

/-! ### The links -/

/-- The exit of an operation has the first control edge that leaves it. -/
theorem exitPoint_eq_find? (g : FlowGraph) (x : NodeId) : (g.links.linksOf x).exitPoint =
    (g.operationEdges.find? fun e => e.isControl && e.source = x).map Edge.target := by
  rw [exitPoint_links, find?_operationEdges]
  simp only [isControlLink_eq, Bool.and_assoc]

/-- The entry of an operation has the first control edge that lands on it. -/
theorem entryPoint_eq_find? (g : FlowGraph) (y : NodeId) : (g.links.linksOf y).entryPoint =
    (g.operationEdges.find? fun e => e.isControl && e.target = y).map Edge.source := by
  rw [entryPoint_links, find?_operationEdges]
  simp only [isControlLink_eq, Bool.and_assoc]

/-- A declared input has the last data edge that lands on it. -/
theorem inputSource_eq_find? (g : FlowGraph) (y : NodeId) (input : String) :
    (g.links.linksOf y).inputSources.get? input =
      if g.declaresInput y input then
        (g.operationEdges.reverse.find? fun e => e.isData && e.landsOn y input).map Edge.source
      else none := by
  rw [inputSource_links, find?_reverse_operationEdges]
  split
  · next declared => simp only [isDataFeed_eq_of_declaresInput declared]
  · next undeclared =>
    have nothing : g.edges.reverse.find? (fun e => g.isDataFeed e && e.landsOn y input) = none := by
      refine List.find?_eq_none.2 fun e _ lands => undeclared ?_
      obtain ⟨feed, lands⟩ := Bool.and_eq_true_iff.1 lands
      exact declaresInput_of_isDataFeed feed lands
    rw [nothing, Option.map_none]

/-! ### What the links settle -/

theorem mem_edges_iff_exitPoint_or_feedsInput : (x, y) ∈ g.dependencies.edges ↔
    (g.links.linksOf x).exitPoint = some y ∨ g.dependencies.FeedsInput g x y := by
  rw [mem_edges_iff]
  constructor
  · intro dependency
    cases dependency with
    | control exit => exact .inl exit
    | data mem declared source => exact .inr ⟨_, mem, rfl, _, declared, source⟩
  · rintro (exit | ⟨n, mem, rfl, i, declared, source⟩)
    · exact .control exit
    · exact .data mem declared source

theorem mem_consumers_iff : y ∈ g.dependencies.consumers x ↔
    (∃ n ∈ g.operations, n.id = x ∧ n.output.isSome) ∧ g.dependencies.FeedsInput g x y ∧
      (g.links.linksOf x).exitPoint ≠ some y := by
  have listed : y ∈ g.dependencies.consumers x ↔ (x, y) ∈ g.dependencies.consumption := by
    simp [consumers]
  have output : (g.operation? x).any (·.output.isSome) ↔
      ∃ n ∈ g.operations, n.id = x ∧ n.output.isSome := by
    simp [Option.any_eq_true, operation?_eq_some_iff, and_assoc]
  rw [listed, mem_consumption_iff, output]
  rfl

theorem mem_nodes_iff : x ∈ g.dependencies.nodes ↔ ∃ n ∈ g.operations, n.id = x :=
  List.mem_map

/-- Whatever a link leads to is an operation. -/
theorem mem_nodes_of_links {l : Links} (found : g.links.get? x = some l) :
    (∀ y ∈ l.exitPoint, y ∈ g.dependencies.nodes) ∧
      (∀ y ∈ l.entryPoint, y ∈ g.dependencies.nodes) ∧
        ∀ input, ∀ y ∈ l.inputSources.get? input, y ∈ g.dependencies.nodes := by
  have linksOf : g.links.linksOf x = l := by rw [LinkTable.linksOf, found, Option.getD_some]
  rw [← linksOf]
  refine ⟨fun y exit => ?_, fun y entry => ?_, fun input y source => ?_⟩
  · exact mem_nodes_iff.2 (exists_operations_of_exitPoint exit).2
  · obtain ⟨e, -, control, rfl, -⟩ := exists_edge_of_entryPoint entry
    exact isSome_operation?.1 (isControlLink_iff.1 control).2.1
  · exact mem_nodes_iff.2 (exists_operation_of_inputSource source)

/-- **The dependencies of a graph record what its edges say**, whatever the edges are. -/
theorem records_dependencies (g : FlowGraph) : g.dependencies.Records g where
  nodes := rfl
  keys := g.covers_linksAfter g.edges
  exitPoint := g.exitPoint_eq_find?
  entryPoint := g.entryPoint_eq_find?
  inputSource := g.inputSource_eq_find?
  before _ _ := mem_edges_iff_exitPoint_or_feedsInput
  consumer _ _ := mem_consumers_iff
  nodup_consumers := nodup_map_snd_filter (nodup_eraseDups _)
  successor _ _ := mem_successors
  nodup_successors := nodup_successors g.wellFormed_dependencies
  inDegree := inDegree_eq_ncard g.wellFormed_dependencies.nodup_edges
  mem_of_links _ _ := mem_nodes_of_links
  mem_of_consumers x y consumes := by
    obtain ⟨source, ⟨n, mem, same, -⟩, -⟩ := mem_consumers_iff.1 consumes
    obtain ⟨m, memSource, sameSource, -⟩ := source
    exact ⟨mem_nodes_iff.2 ⟨m, memSource, sameSource⟩, mem_nodes_iff.2 ⟨n, mem, same⟩⟩

end FlowGraph

end FlowPlan
