import FlowPlan.Proofs.Order.Outcome

/-!
# Order — control edges

An exit keeps one control edge, the first that leaves it, and only that one becomes a dependency.
So in an order every control edge points forward, unless the exit that it leaves forks
(`control_forward_of_order`).  Where no exit forks, all of them do
(`control_forward_of_leavesOnce`).

The test for ambiguity goes by the entries instead.  The first control edge that reaches a node
makes its two ends comparable (`isComparable_of_first`), even if the exit that it leaves keeps
another.  Two ready nodes then pass as ordered by an edge that orders nothing, and the one that is
listed first goes first: the order of `forkedExit` puts a node in front of its control predecessor.
-/

namespace FlowPlan.FlowGraph
open Dependencies

variable {g : FlowGraph} {e : Edge} {order : List NodeId}

/-- The exit that a control edge leaves keeps that edge, or another one that leaves it. -/
theorem exists_exitPoint_of_mem (mem : e ∈ g.edges) (control : g.isControlLink e) :
    ∃ f ∈ g.edges, g.isControlLink f ∧ f.source = e.source ∧
      (g.links.linksOf f.source).exitPoint = some f.target := by
  have leaves : (g.edges.find? fun f => g.isControlLink f && f.source = e.source).isSome :=
    List.find?_isSome.2 ⟨e, mem, by simp [control]⟩
  obtain ⟨f, first⟩ := Option.isSome_iff_exists.1 leaves
  have holds := List.find?_some first
  simp only [Bool.and_eq_true, decide_eq_true_eq] at holds
  exact ⟨f, List.mem_of_find?_eq_some first, holds.1, holds.2,
    by rw [exitPoint_links, holds.2, first]; rfl⟩

/-- **A control edge points forward, unless the exit that it leaves forks**: then another control
edge leads from there to another node, and that one points forward. -/
theorem control_forward_of_order (g : FlowGraph) (order : List NodeId)
    (h : g.dependencies.order = .ok order) :
    ∀ e ∈ g.edges, g.isControlLink e →
      StandsBefore order e.source e.target ∨
        ∃ f ∈ g.edges, g.isControlLink f ∧ f.source = e.source ∧ f.target ≠ e.target ∧
          StandsBefore order f.source f.target := by
  intro e mem control
  obtain ⟨f, memf, controlf, source, exit⟩ := exists_exitPoint_of_mem mem control
  have forward : StandsBefore order f.source f.target :=
    (isLinearization_of_order h).forward _ _ (.control exit)
  by_cases target : f.target = e.target
  · exact .inl (source ▸ target ▸ forward)
  · exact .inr ⟨f, memf, controlf, source, target, forward⟩

/-- Where no two control edges leave the same node, all of them point forward. -/
theorem control_forward_of_leavesOnce (single : g.ControlLeavesOnce)
    (h : g.dependencies.order = .ok order) (mem : e ∈ g.edges) (control : g.isControlLink e) :
    StandsBefore order e.source e.target := by
  obtain ⟨f, memf, controlf, source, exit⟩ := exists_exitPoint_of_mem mem control
  obtain rfl : f = e := List.inj_on_of_nodup_map single (List.mem_filter.2 ⟨memf, controlf⟩)
    (List.mem_filter.2 ⟨mem, control⟩) source
  exact (isLinearization_of_order h).forward _ _ (.control exit)

/-- The first control edge that reaches a node makes its ends comparable, whatever the exit that it
leaves keeps. -/
theorem isComparable_of_first
    (first : (g.edges.find? fun f => g.isControlLink f && f.target = e.target) = some e) :
    g.dependencies.isComparable e.source e.target := by
  have entry : (g.links.linksOf e.target).entryPoint = some e.source := by
    rw [entryPoint_links, first]
    rfl
  change (_ || _ || decide ((g.links.linksOf e.target).entryPoint = some e.source) || _) = true
  simp [entry]

/-- The exit of `fork` leads to `join` first and to `left` second; `left` leads to `join` too. -/
def forkedExit : FlowGraph where
  nodes :=
    [.operation (OperationNode.new "left" .emitLog), .operation (OperationNode.new "fork" .emitLog),
      .operation (OperationNode.new "join" .emitLog)]
  edges := [.control "fork" "join", .control "fork" "left", .control "left" "join"]
  nodup_ids := by decide

theorem forkedExit_forward_or_forks :
    forkedExit.dependencies.order = .ok ["left", "fork", "join"] ∧
      ∀ e ∈ forkedExit.edges, forkedExit.isControlLink e →
        StandsBefore ["left", "fork", "join"] e.source e.target ∨
          ∃ f ∈ forkedExit.edges, forkedExit.isControlLink f ∧ f.source = e.source ∧
            f.target ≠ e.target ∧ StandsBefore ["left", "fork", "join"] f.source f.target :=
  ⟨rfl, control_forward_of_order forkedExit _ rfl⟩

/-- Not every control edge points forward: `left` is placed in front of `fork`, which leads to
it. -/
theorem exists_control_not_forward :
    ¬∀ (g : FlowGraph) (order : List NodeId), g.dependencies.order = .ok order →
      ∀ e ∈ g.edges, g.isControlLink e → StandsBefore order e.source e.target := by
  intro forward
  have behind : ¬StandsBefore ["left", "fork", "join"] "fork" "left" := by decide
  exact behind (forward forkedExit _ rfl (.control "fork" "left") (by decide) (by decide))

end FlowPlan.FlowGraph
