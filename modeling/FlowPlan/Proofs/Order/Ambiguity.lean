import FlowPlan.Proofs.Order.Outcome

/-!
# Order — ambiguities

An ambiguity that is reported is one.  The test that finds it goes by the links between two ready
nodes and by no way over further nodes (`Dependencies.isComparable`).  It need not look at ways: what
is placed by then holds all that either node depends on, and neither of the two, so that no way
leads from one to the other (`ReadyAfter.not_reflTransGen`).

* `ambiguity_genuine`: neither node of a reported pair leads to the other.
* `exists_eitherWay_of_ambiguousOrder`: what is placed goes on with the two in either order.  This
  holds beside cycles too, where there are no complete orders to tell apart
  (`exists_two_of_ambiguous`).
-/

namespace FlowPlan.FlowGraph
open Dependencies Relation

variable {g : FlowGraph} {done : List NodeId} {x y : NodeId}

/-- The operation may come next: it is not among those that are done, and all that it depends on
is. -/
structure ReadyAfter (g : FlowGraph) (done : List NodeId) (x : NodeId) : Prop where
  operation : x ∈ g.operations.map OperationNode.id
  left : x ∉ done
  ready : ∀ z, g.Dependency z x → z ∈ done

/-- What may come next is not led to from anything else that is left. -/
theorem ReadyAfter.not_reflTransGen (closed : ClosedBackwards g.Dependency done) (ne : x ≠ y)
    (hx : g.ReadyAfter done x) (hy : g.ReadyAfter done y) : ¬ReflTransGen g.Dependency x y := by
  intro way
  rcases reflTransGen_iff_eq_or_transGen.1 way with same | way
  · exact ne same.symm
  · exact hx.left (closed.mem_of_transGen hy.ready way)

theorem readyAfter_of_mem_ready {p : Progress} (tracks : g.dependencies.Tracks p)
    (ready : x ∈ p.ready) : g.ReadyAfter p.placed x := by
  obtain ⟨operation, left, waits⟩ := (tracks.mem_ready x).1 ready
  rw [pending_eq_zero_iff, before_dependencies] at waits
  exact ⟨operation, left, waits⟩

/-- The two nodes of an ambiguity may both come next, after what is placed. -/
theorem exists_readyAfter_of_ambiguousOrder
    (h : g.dependencies.order = .error (.ambiguousOrder x y)) :
    ∃ done, IsInitialOrder (g.operations.map OperationNode.id) g.Dependency done ∧ x ≠ y ∧
      g.ReadyAfter done x ∧ g.ReadyAfter done y ∧ g.dependencies.isComparable x y = false := by
  obtain ⟨p, tracks, stands, incomparable⟩ :=
    ready_of_ambiguousOrder g.wellFormed_dependencies h
  have placed := tracks.placed
  rw [before_dependencies] at placed
  exact ⟨p.placed, placed, stands.ne tracks.nodup_ready,
    readyAfter_of_mem_ready tracks stands.mem_left,
    readyAfter_of_mem_ready tracks stands.mem_right, incomparable⟩

/-- **A reported ambiguity is genuine.**  It names two operations between which no link fixes the
order.  Some operations, closed under what they depend on, hold all that the two depend on and
neither of the two; so no way of dependencies leads from one to the other. -/
theorem ambiguity_genuine (g : FlowGraph) (x y : NodeId)
    (h : g.dependencies.order = .error (.ambiguousOrder x y)) :
    x ≠ y ∧ g.dependencies.isComparable x y = false ∧
      (∃ done ⊆ g.operations.map OperationNode.id, ClosedBackwards g.Dependency done ∧
        g.ReadyAfter done x ∧ g.ReadyAfter done y) ∧
      ¬ReflTransGen g.Dependency x y ∧ ¬ReflTransGen g.Dependency y x := by
  obtain ⟨done, initial, ne, hx, hy, incomparable⟩ := exists_readyAfter_of_ambiguousOrder h
  have closed := initial.closedBackwards
  exact ⟨ne, incomparable, ⟨done, initial.subset, closed, hx, hy⟩,
    hx.not_reflTransGen closed ne hy, hy.not_reflTransGen closed ne.symm hx⟩

/-- A node that feeds two others, beside two nodes on a cycle. -/
def crossroads : FlowGraph where
  nodes :=
    [.operation (OperationNode.new "in" .emitLog),
      .operation ((OperationNode.new "left" .emitLog).withInput (.parameter "text" .string)),
      .operation ((OperationNode.start "start").withOutput ⟨"out", .string, none⟩),
      .operation ((OperationNode.new "right" .emitLog).withInput (.parameter "text" .string)),
      .operation (OperationNode.new "circle" .emitLog)]
  edges :=
    [.control "in" "circle", .between "start" "out" "right" "text", .control "circle" "in",
      .between "start" "out" "left" "text"]
  nodup_ids := by decide

theorem crossroads_ambiguity_genuine :
    crossroads.dependencies.order = .error (.ambiguousOrder "left" "right") ∧
      "left" ≠ "right" ∧ crossroads.dependencies.isComparable "left" "right" = false ∧
      (∃ done ⊆ crossroads.operations.map OperationNode.id,
        ClosedBackwards crossroads.Dependency done ∧ crossroads.ReadyAfter done "left" ∧
          crossroads.ReadyAfter done "right") ∧
      ¬ReflTransGen crossroads.Dependency "left" "right" ∧
      ¬ReflTransGen crossroads.Dependency "right" "left" :=
  ⟨rfl, ambiguity_genuine crossroads _ _ rfl⟩

/-- **What is placed when an ambiguity is found goes on with the two nodes in either order**, and
is the beginning of an order both ways. -/
theorem exists_eitherWay_of_ambiguousOrder
    (h : g.dependencies.order = .error (.ambiguousOrder x y)) :
    ∃ done, IsInitialOrder (g.operations.map OperationNode.id) g.Dependency (done ++ [x, y]) ∧
      IsInitialOrder (g.operations.map OperationNode.id) g.Dependency (done ++ [y, x]) := by
  obtain ⟨done, initial, ne, hx, hy, -⟩ := exists_readyAfter_of_ambiguousOrder h
  -- the second of the two waits for nothing else either
  have both {x y : NodeId} (ne : x ≠ y) (hx : g.ReadyAfter done x) (hy : g.ReadyAfter done y) :
      IsInitialOrder (g.operations.map OperationNode.id) g.Dependency (done ++ [x, y]) := by
    have first := initial.snoc hx.operation hx.left hx.ready
    have left : y ∉ done ++ [x] := by simp [hy.left, ne.symm]
    have second := first.snoc hy.operation left fun z before =>
      List.mem_append_left _ (hy.ready z before)
    rwa [List.append_assoc] at second
  exact ⟨done, both ne hx hy, both ne.symm hy hx⟩

end FlowPlan.FlowGraph
