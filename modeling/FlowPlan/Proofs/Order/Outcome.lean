import FlowPlan.Proofs.Order.Placing
import FlowPlan.Proofs.Order.Relation

/-!
# Order — what an order says

An order, where there is one, is a topological order of the operations by `g.Dependency`
(`order_places_dependencies_first`), whatever the edges are.

The test for ambiguity looks at pairs of ready nodes only.  Where at most one control edge leaves
each operation, two ready nodes are never comparable: comparable nodes depend on each other
(`dependency_of_isComparable`), and what a ready node depends on is placed.  So an order is found
exactly if no two nodes are ever ready at once, and that is the case exactly if the dependencies
admit one topological order and no other (`order_eq_ok_iff_unique`).
-/

namespace FlowPlan

namespace Dependencies

variable {d : Dependencies} {p : Progress} {x y : NodeId}

/-- What has been placed is a topological order, once it is all nodes. -/
theorem isTopologicalOrder_of_reaches (wf : d.WellFormed) (reached : d.Reaches p)
    (all : p.placed.length = d.nodes.length) : IsTopologicalOrder d.nodes d.Before p.placed :=
  (tracks_of_reaches wf reached).placed.toTopological wf.on all

/-- If nodes are left when the queue is empty, each of them waits for another, so some way of
dependencies closes. -/
theorem not_acyclic_of_stalled (wf : d.WellFormed) (reached : d.Reaches p) (stopped : p.ready = [])
    (some : p.placed.length ≠ d.nodes.length) : ¬Acyclic d.Before := by
  intro acyclic
  have tracks := tracks_of_reaches wf reached
  obtain ⟨x, mem, left⟩ := tracks.placed.exists_left wf.on some
  obtain ⟨c, mem, left, ready⟩ := acyclic.exists_next wf.on mem left
  have : c ∈ p.ready := (tracks.mem_ready c).2 ⟨mem, left, pending_eq_zero_iff.2 ready⟩
  rw [stopped] at this
  cases this

/-- Of two ready nodes neither depends on the other. -/
theorem Tracks.not_before (h : d.Tracks p) (hx : x ∈ p.ready) (hy : y ∈ p.ready) :
    ¬d.Before x y :=
  fun before => ((h.mem_ready x).1 hx).2.1 (h.mem_placed_of_before hy before)

/-- Any two comparable nodes depend on each other, one way or the other. -/
def ComparableDepend (d : Dependencies) : Prop :=
  ∀ x y, d.isComparable x y → d.Before x y ∨ d.Before y x

/-- Where comparable nodes depend on each other, no two ready ones are comparable. -/
theorem ComparableDepend.not_comparable (hd : d.ComparableDepend) (h : d.Tracks p)
    (hx : x ∈ p.ready) (hy : y ∈ p.ready) : ¬d.isComparable x y := by
  intro comparable
  rcases hd x y comparable with before | before
  · exact h.not_before hx hy before
  · exact h.not_before hy hx before

/-- So an unambiguous queue holds one node at most. -/
theorem ComparableDepend.rest_eq_nil (hd : d.ComparableDepend) (h : d.Tracks p) {current : NodeId}
    {rest : List NodeId} (queue : p.ready = current :: rest)
    (ordered : d.incomparable? p.ready = none) : rest = [] := by
  refine List.eq_nil_iff_forall_not_mem.2 fun y mem => ?_
  rw [queue, incomparable?_eq_none_iff, List.pairwise_cons] at ordered
  exact hd.not_comparable h (by simp [queue]) (by simp [queue, mem]) (ordered.1 y mem)

/-- **Neighbours are joined by a dependency**: the last placed node is the only one that can have
made another ready, since no other node was ready along with it. -/
theorem isChain_of_reaches (wf : d.WellFormed) (hd : d.ComparableDepend) (h : d.Reaches p) :
    p.placed.IsChain d.Before ∧ ∀ x ∈ p.placed.getLast?, ∀ y ∈ p.ready, d.Before x y := by
  induction h with
  | initial => exact ⟨.nil, by simp [initial]⟩
  | @place p current rest reached queue ordered ih =>
    obtain ⟨chain, last⟩ := ih
    have tracks := tracks_of_reaches wf reached
    obtain ⟨placed, ready⟩ := place_eq wf p current rest
    obtain rfl := hd.rest_eq_nil tracks queue ordered
    rw [placed, ready]
    refine ⟨List.isChain_append.2 ⟨chain, .singleton current, fun x hx y hy => ?_⟩, ?_⟩
    · obtain rfl : current = y := by simpa using hy
      exact last x hx current (by simp [queue])
    · intro x hx y hy
      obtain rfl : current = x := by simpa using hx
      rw [List.nil_append, List.mem_filter] at hy
      exact mem_successors.1 hy.1

end Dependencies

namespace FlowGraph
open Dependencies

variable {g : FlowGraph} {order : List NodeId}

/-- A node stands before another if the other depends on it. -/
theorem before_dependencies (g : FlowGraph) : g.dependencies.Before = g.Dependency := by
  funext x y
  exact propext mem_edges_iff

/-- The dependencies of a graph are among its operations, and none is listed twice. -/
theorem wellFormed_dependencies (g : FlowGraph) : g.dependencies.WellFormed where
  on := g.before_dependencies ▸ g.isRelationOn_dependency
  nodup_edges := nodup_eraseDups _

/-- Where control leaves a node once, comparable operations depend on each other. -/
theorem comparableDepend_dependencies (single : g.ControlLeavesOnce) :
    g.dependencies.ComparableDepend := by
  intro x y comparable
  rw [before_dependencies]
  exact dependency_of_isComparable single comparable

/-- The operations of a graph in an order that every dependency respects. -/
abbrev IsLinearization (g : FlowGraph) (order : List NodeId) : Prop :=
  IsTopologicalOrder (g.operations.map OperationNode.id) g.Dependency order

/-- An order that is found is the whole of what was placed. -/
theorem isLinearization_of_order (h : g.dependencies.order = .ok order) :
    g.IsLinearization order := by
  have wf := g.wellFormed_dependencies
  have outcome := outcome_order wf
  rw [h] at outcome
  cases outcome with
  | ordered reached _ all =>
    rw [IsLinearization, ← before_dependencies]
    exact isTopologicalOrder_of_reaches wf reached all

/-- **An order lists every operation once and nothing else, and puts each behind everything that it
depends on**, whatever the edges of the graph are. -/
theorem order_places_dependencies_first (g : FlowGraph) (order : List NodeId)
    (h : g.dependencies.order = .ok order) :
    order.Nodup ∧ (∀ id, id ∈ order ↔ ∃ n ∈ g.operations, n.id = id) ∧
      ∀ x y, g.Dependency x y → StandsBefore order x y := by
  have linear := isLinearization_of_order h
  refine ⟨linear.nodup g.isRelationOn_dependency, fun id => ?_, linear.forward⟩
  rw [linear.perm.mem_iff, List.mem_map]

/-- A graph with stray edges: a doubled control edge, one from an unknown node, one from an exit to
an input of the same node, one without handles. -/
def strayEdges : FlowGraph where
  nodes :=
    [.operation ((OperationNode.new "use" .emitLog).withInput (.parameter "in" .string)),
      .operation ((OperationNode.new "make" .emitLog).withOutput ⟨"out", .string, none⟩)]
  edges :=
    [.control "make" "use", .control "make" "use", .control "ghost" "use",
      .between "make" "out" "use" "in", .between "use" Handle.exit "use" "in",
      ⟨"loose", "use", none, "make", none⟩]
  nodup_ids := by decide

/-- The data of `use` comes from the node whose exit leads to it. -/
theorem strayEdges_places_make_first :
    strayEdges.dependencies.order = .ok ["make", "use"] ∧
      ["make", "use"].Nodup ∧
      (∀ id, id ∈ ["make", "use"] ↔ ∃ n ∈ strayEdges.operations, n.id = id) ∧
      ∀ x y, strayEdges.Dependency x y → StandsBefore ["make", "use"] x y :=
  ⟨rfl, order_places_dependencies_first strayEdges _ rfl⟩

/-- An ambiguity has two topological orders behind it, where no dependencies close. -/
theorem exists_two_of_ambiguous (acyclic : Acyclic g.Dependency) {x y : NodeId}
    (h : g.dependencies.order = .error (.ambiguousOrder x y)) :
    ∃ a b, g.IsLinearization a ∧ g.IsLinearization b ∧ a ≠ b := by
  have wf := g.wellFormed_dependencies
  obtain ⟨p, tracks, stands, -⟩ := ready_of_ambiguousOrder wf h
  obtain ⟨memx, leftx, zerox⟩ := (tracks.mem_ready x).1 stands.mem_left
  obtain ⟨memy, lefty, zeroy⟩ := (tracks.mem_ready y).1 stands.mem_right
  have two := tracks.placed.exists_two wf.on (g.before_dependencies ▸ acyclic)
    (stands.ne tracks.nodup_ready) memx memy leftx lefty (pending_eq_zero_iff.1 zerox)
    (pending_eq_zero_iff.1 zeroy)
  rwa [before_dependencies] at two

/-- A cycle is reported only if there is one. -/
theorem not_acyclic_of_cycleDetected {nodes : List NodeId}
    (h : g.dependencies.order = .error (.cycleDetected nodes)) : ¬Acyclic g.Dependency := by
  have wf := g.wellFormed_dependencies
  have outcome := outcome_order wf
  rw [h] at outcome
  cases outcome with
  | stalled reached stopped some =>
    rw [← before_dependencies]
    exact not_acyclic_of_stalled wf reached stopped some

/-- Ordering succeeds, finds a cycle, or finds an ambiguity. -/
theorem order_trichotomy (g : FlowGraph) :
    (∃ order, g.dependencies.order = .ok order) ∨
    (∃ nodes, g.dependencies.order = .error (.cycleDetected nodes)) ∨
    ∃ x y, g.dependencies.order = .error (.ambiguousOrder x y) := by
  have outcome := outcome_order g.wellFormed_dependencies
  generalize g.dependencies.order = result at outcome ⊢
  cases outcome with
  | ordered => exact .inl ⟨_, rfl⟩
  | stalled => exact .inr (.inl ⟨_, rfl⟩)
  | ambiguous => exact .inr (.inr ⟨_, _, rfl⟩)

/-- **An order is found exactly if the dependencies admit one and no other**, where at most one
control edge leaves each operation.  It is that order, and its neighbours are joined by a
dependency.  Dependencies that admit several orders are reported as ambiguous. -/
theorem order_eq_ok_iff_unique (g : FlowGraph) (single : g.ControlLeavesOnce) :
    (∀ order, g.dependencies.order = .ok order ↔
      Acyclic g.Dependency ∧ g.IsLinearization order ∧
        ∀ other, g.IsLinearization other → other = order) ∧
    (∀ order, g.dependencies.order = .ok order → order.IsChain g.Dependency) ∧
    (Acyclic g.Dependency → (∃ a b, g.IsLinearization a ∧ g.IsLinearization b ∧ a ≠ b) →
      ∃ x y, g.dependencies.order = .error (.ambiguousOrder x y)) := by
  have on := g.isRelationOn_dependency
  have chain (order : List NodeId) (h : g.dependencies.order = .ok order) :
      order.IsChain g.Dependency := by
    have wf := g.wellFormed_dependencies
    have outcome := outcome_order wf
    rw [h] at outcome
    cases outcome with
    | ordered reached =>
      rw [← before_dependencies]
      exact (isChain_of_reaches wf (comparableDepend_dependencies single) reached).1
  -- Another linearization cannot pass two neighbours that depend on each other.
  have unique (order : List NodeId) (h : g.dependencies.order = .ok order) (other : List NodeId)
      (k : g.IsLinearization other) : other = order :=
    (isLinearization_of_order h).eq_of_isChain on (chain order h) k
  refine ⟨fun order => ⟨fun h => ?_, ?_⟩, chain, ?_⟩
  · have linear := isLinearization_of_order h
    exact ⟨linear.acyclic on, linear, unique order h⟩
  · rintro ⟨acyclic, linear, only⟩
    rcases g.order_trichotomy with ⟨found, h⟩ | ⟨nodes, h⟩ | ⟨x, y, h⟩
    · rw [h, only found (isLinearization_of_order h)]
    · exact absurd acyclic (not_acyclic_of_cycleDetected h)
    · obtain ⟨a, b, ha, hb, ne⟩ := exists_two_of_ambiguous acyclic h
      exact absurd ((only a ha).trans (only b hb).symm) ne
  · rintro acyclic ⟨a, b, ha, hb, ne⟩
    rcases g.order_trichotomy with ⟨found, h⟩ | ⟨nodes, h⟩ | ambiguous
    · exact absurd ((unique found h a ha).trans (unique found h b hb).symm) ne
    · exact absurd acyclic (not_acyclic_of_cycleDetected h)
    · exact ambiguous

/-- Three operations in a row, listed backwards; the last two are joined by data. -/
def threeInARow : FlowGraph where
  nodes :=
    [.operation ((OperationNode.new "log" .emitLog).withInput (.parameter "in" .string)),
      .operation ((OperationNode.new "use" .emitLog).withOutput ⟨"out", .string, none⟩),
      .operation (OperationNode.start "start")]
  edges := [.between "use" "out" "log" "in", .control "start" "use"]
  nodup_ids := by decide

/-- Three operations in a row have one order. -/
theorem threeInARow_order_unique :
    threeInARow.ControlLeavesOnce ∧ Acyclic threeInARow.Dependency ∧
      threeInARow.IsLinearization ["start", "use", "log"] ∧
      ∀ other, threeInARow.IsLinearization other → other = ["start", "use", "log"] :=
  ⟨by decide, ((order_eq_ok_iff_unique threeInARow (by decide)).1 _).1 rfl⟩

end FlowGraph

end FlowPlan
