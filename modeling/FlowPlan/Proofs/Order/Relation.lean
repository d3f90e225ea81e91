import FlowPlan.Proofs.Order.Links
import FlowPlan.Proofs.Order.Topological

/-!
# Order — the dependency relation

`g.Dependency x y` says, of the links alone, that `y` may run only after `x`: the exit of `x` leads
to `y`, or an input that `y` declares is fed from `x`.

* `mem_edges_iff`: the pairs that are noted are exactly this relation.  A data dependency on a node
  whose exit leads to the consumer is not noted for its data, but its control edge backs it.
* `isRelationOn_dependency`: it relates operations only.
* `dependency_of_isComparable`: where a node's exit is left by one control edge at most, two nodes
  are comparable only if one depends on the other.
-/

namespace FlowPlan

/-- The operation `y` may run only after the operation `x`. -/
inductive FlowGraph.Dependency (g : FlowGraph) : NodeId → NodeId → Prop where
  | control {x y : NodeId} (exit : (g.links.linksOf x).exitPoint = some y) : Dependency g x y
  | data {x : NodeId} {n : OperationNode} {i : Input} (mem : n ∈ g.operations)
      (declared : i ∈ n.inputs)
      (source : (g.links.linksOf n.id).inputSources.get? i.name = some x) : Dependency g x n.id

/-- No two control edges between operations leave the same node. -/
def FlowGraph.ControlLeavesOnce (g : FlowGraph) : Prop :=
  ((g.edges.filter g.isControlLink).map Edge.source).Nodup

instance (g : FlowGraph) : Decidable g.ControlLeavesOnce :=
  inferInstanceAs (Decidable (List.Nodup _))

namespace FlowGraph
open LinkTable

variable {g : FlowGraph} {x y : NodeId}

theorem mem_dataSources {t : LinkTable} {n : OperationNode} :
    x ∈ t.dataSources n ↔
      (∃ i ∈ n.inputs, (t.linksOf n.id).inputSources.get? i.name = some x) ∧
        (t.linksOf x).exitPoint ≠ some n.id := by
  simp [dataSources]

theorem mem_edgesAt {t : LinkTable} {n : OperationNode} :
    (x, y) ∈ t.edgesAt n ↔
      x ∈ t.dataSources n ∧ n.id = y ∨ n.id = x ∧ (t.linksOf n.id).exitPoint = some y := by
  simp [edgesAt, and_comm, eq_comm]

/-- The exit of an operation only leads to an operation. -/
theorem exists_operations_of_exitPoint (h : (g.links.linksOf x).exitPoint = some y) :
    (∃ n ∈ g.operations, n.id = x) ∧ ∃ n ∈ g.operations, n.id = y := by
  obtain ⟨e, -, control, rfl, rfl⟩ := exists_edge_of_exitPoint h
  obtain ⟨-, source, target⟩ := isControlLink_iff.1 control
  exact ⟨List.mem_map.1 (isSome_operation?.1 source), List.mem_map.1 (isSome_operation?.1 target)⟩

/-- An input is only fed from an operation. -/
theorem exists_operation_of_inputSource {input : String}
    (h : (g.links.linksOf y).inputSources.get? input = some x) : ∃ n ∈ g.operations, n.id = x := by
  obtain ⟨e, -, data, -, rfl⟩ := exists_edge_of_inputSource h
  obtain ⟨-, -, source, -⟩ := isDataFeed_iff.1 data
  exact List.mem_map.1 (isSome_operation?.1 source)

/-- **The pairs that are noted are the dependencies.** -/
theorem mem_edges_iff : (x, y) ∈ g.dependencies.edges ↔ g.Dependency x y := by
  simp only [dependencies, Dependencies.ofLinks, List.mem_eraseDups, List.mem_flatMap, mem_edgesAt]
  constructor
  · rintro ⟨n, mem, ⟨source, rfl⟩ | ⟨rfl, exit⟩⟩
    · obtain ⟨⟨i, declared, source⟩, -⟩ := mem_dataSources.1 source
      exact .data mem declared source
    · exact .control exit
  · have control {x y : NodeId} (exit : (g.links.linksOf x).exitPoint = some y) :
        ∃ n ∈ g.operations, x ∈ g.links.dataSources n ∧ n.id = y ∨
          n.id = x ∧ (g.links.linksOf n.id).exitPoint = some y := by
      obtain ⟨⟨n, mem, rfl⟩, -⟩ := exists_operations_of_exitPoint exit
      exact ⟨n, mem, .inr ⟨rfl, exit⟩⟩
    intro dep
    cases dep with
    | control exit => exact control exit
    | @data n i mem declared source =>
      by_cases exit : (g.links.linksOf x).exitPoint = some n.id
      · exact control exit
      · exact ⟨n, mem, .inl ⟨mem_dataSources.2 ⟨⟨i, declared, source⟩, exit⟩, rfl⟩⟩

/-- Dependencies join operations, which are listed once each. -/
theorem isRelationOn_dependency (g : FlowGraph) :
    IsRelationOn (g.operations.map OperationNode.id) g.Dependency where
  nodup := g.nodup_operationIds
  source_mem x y dep := by
    rw [List.mem_map]
    cases dep with
    | control exit => exact (exists_operations_of_exitPoint exit).1
    | data mem declared source => exact exists_operation_of_inputSource source
  target_mem x y dep := by
    rw [List.mem_map]
    cases dep with
    | control exit => exact (exists_operations_of_exitPoint exit).2
    | data mem declared source => exact ⟨_, mem, rfl⟩

/-- The consumers of a node are those that take data from its output, less its control
successor. -/
theorem mem_consumption_iff :
    (x, y) ∈ g.dependencies.consumption ↔
      (g.operation? x).any (·.output.isSome) ∧
        (∃ n ∈ g.operations, n.id = y ∧
          ∃ i ∈ n.inputs, (g.links.linksOf n.id).inputSources.get? i.name = some x) ∧
        (g.links.linksOf x).exitPoint ≠ some y := by
  simp only [dependencies, Dependencies.ofLinks, List.mem_eraseDups, List.mem_flatMap, List.mem_map,
    List.mem_filter, mem_dataSources, Prod.mk.injEq]
  constructor
  · rintro ⟨n, mem, source, ⟨⟨fed, other⟩, output⟩, rfl, rfl⟩
    exact ⟨output, ⟨n, mem, rfl, fed⟩, other⟩
  · rintro ⟨output, ⟨n, mem, rfl, fed⟩, other⟩
    exact ⟨n, mem, x, ⟨⟨fed, other⟩, output⟩, rfl, rfl⟩

theorem dependency_of_mem_consumption (h : (x, y) ∈ g.dependencies.consumption) :
    g.Dependency x y := by
  obtain ⟨-, ⟨n, mem, rfl, i, declared, source⟩, -⟩ := mem_consumption_iff.1 h
  exact .data mem declared source

/-! ### Comparable nodes -/

/-- The control edge that an entry keeps is the one that its source's exit keeps, where it is the
only one to leave it. -/
theorem exitPoint_of_entryPoint (single : g.ControlLeavesOnce)
    (h : (g.links.linksOf y).entryPoint = some x) : (g.links.linksOf x).exitPoint = some y := by
  obtain ⟨e, mem, control, rfl, rfl⟩ := exists_edge_of_entryPoint h
  rw [exitPoint_links, Option.map_eq_some_iff]
  obtain ⟨f, found⟩ : ∃ f, g.edges.find? (fun f => g.isControlLink f && f.source = e.source) =
      some f := Option.isSome_iff_exists.1 (List.find?_isSome.2 ⟨e, mem, by simp [control]⟩)
  have holds := List.find?_some found
  simp only [Bool.and_eq_true, decide_eq_true_eq] at holds
  refine ⟨f, found, congrArg Edge.target ?_⟩
  exact List.inj_on_of_nodup_map single
    (List.mem_filter.2 ⟨List.mem_of_find?_eq_some found, holds.1⟩)
    (List.mem_filter.2 ⟨mem, control⟩) holds.2

theorem dependency_of_isComparable (single : g.ControlLeavesOnce)
    (h : g.dependencies.isComparable x y) : g.Dependency x y ∨ g.Dependency y x := by
  simp only [Dependencies.isComparable, Bool.or_eq_true, decide_eq_true_eq, or_assoc] at h
  rcases h with feeds | feeds | follows | follows
  · exact .inl (dependency_of_mem_consumption feeds)
  · exact .inr (dependency_of_mem_consumption feeds)
  · exact .inl (.control (exitPoint_of_entryPoint single follows))
  · exact .inr (.control (exitPoint_of_entryPoint single follows))

end FlowGraph

end FlowPlan
