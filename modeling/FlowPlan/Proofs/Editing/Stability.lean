import FlowPlan.Proofs.Editing.Wired
import FlowPlan.Proofs.Order.Cycles

/-!
# Editing — stability of the order

A connection between two operations adds one dependency and changes no other, because the exit that
it leaves, or the input that it lands on, was free (`Draws.dependency_eq`).  The order of a wired
graph is a line, so that its positions decide what the new dependency does (`Line.lean`).

* `withPair_of_addEdge`, `Dependency.addEdge`: one more edge adds one dependency at most, and takes
  none away where it lands on a free input.
* `order_of_connect`: the order stays if the new dependency leads forward, and else what stands
  between its ends is on cycles.
-/

namespace FlowPlan.FlowGraph
open LinkTable Relation

variable {g h : FlowGraph} {e : Edge} {x y : NodeId}

/-! ### One more edge -/

theorem links_addEdge (g : FlowGraph) (e : Edge) :
    (g.addEdge e).links = g.links.noteEdge g e := by
  rw [links, addEdge, List.foldl_append]
  rfl

theorem exitPoint_addEdge (g : FlowGraph) (e : Edge) (x : NodeId) :
    ((g.addEdge e).links.linksOf x).exitPoint =
      ((g.links.linksOf x).exitPoint <|>
        if g.isControlLink e && e.source = x then some e.target else none) := by
  rw [links_addEdge]
  exact exitPoint_noteEdge (g.covers_linksAfter g.edges) e x

theorem inputSource_addEdge (g : FlowGraph) (e : Edge) (y : NodeId) (input : String) :
    ((g.addEdge e).links.linksOf y).inputSources.get? input =
      if g.isDataFeed e && e.landsOn y input then some e.source
      else (g.links.linksOf y).inputSources.get? input := by
  rw [links_addEdge]
  exact inputSource_noteEdge (g.covers_linksAfter g.edges) e y input

/-- An edge adds one dependency at most. -/
theorem withPair_of_addEdge (dependency : (g.addEdge e).Dependency x y) :
    WithPair g.Dependency e.source e.target x y := by
  cases dependency with
  | control exit =>
    rw [exitPoint_addEdge] at exit
    cases old : (g.links.linksOf x).exitPoint with
    | some z =>
      rw [old] at exit
      exact .inl (.control (old.trans exit))
    | none =>
      rw [old] at exit
      change (if _ then some e.target else none) = some y at exit
      split at exit
      · next new =>
        rw [Bool.and_eq_true, decide_eq_true_eq] at new
        exact .inr ⟨new.2.symm, (Option.some.inj exit).symm⟩
      · cases exit
  | data mem declared source =>
    rw [inputSource_addEdge] at source
    split at source
    · next new =>
      have lands := landsOn_iff.1 (Bool.and_eq_true_iff.1 new).2
      exact .inr ⟨(Option.some.inj source).symm, lands.1.symm⟩
    · exact .inl (.data mem declared source)

/-- An edge takes no dependency away if a value that it carries lands where none has landed. -/
theorem Dependency.addEdge (dependency : g.Dependency x y)
    (free : ∀ input, g.isDataFeed e → e.landsOn e.target input →
      (g.links.linksOf e.target).inputSources.get? input = none) :
    (g.addEdge e).Dependency x y := by
  cases dependency with
  | control exit =>
    refine .control ?_
    rw [exitPoint_addEdge, exit]
    rfl
  | @data n i mem declared source =>
    refine .data mem declared ?_
    rw [inputSource_addEdge, if_neg, source]
    -- an edge that landed on the input would be one that found it taken
    intro new
    obtain ⟨feed, lands⟩ := Bool.and_eq_true_iff.1 new
    have target : e.target = n.id := (landsOn_iff.1 lands).1
    rw [← target] at lands source
    rw [free _ feed lands] at source
    cases source

/-- A control edge from a free exit adds one dependency. -/
theorem dependency_addEdge_of_isControlLink (control : g.isControlLink e)
    (free : (g.links.linksOf e.source).exitPoint = none) :
    (g.addEdge e).Dependency = WithPair g.Dependency e.source e.target := by
  have noFeed : g.isDataFeed e = false :=
    isDataFeed_eq_false_of_isControl (isControlLink_iff.1 control).1
  funext x y
  refine propext ⟨withPair_of_addEdge, ?_⟩
  rintro (old | ⟨rfl, rfl⟩)
  · exact old.addEdge (by simp [noFeed])
  · refine .control ?_
    rw [exitPoint_addEdge, free, control]
    simp

/-- A data edge to a free input adds one dependency. -/
theorem dependency_addEdge_of_isDataFeed (feed : g.isDataFeed e)
    (free : ∀ input, e.landsOn e.target input →
      (g.links.linksOf e.target).inputSources.get? input = none) :
    (g.addEdge e).Dependency = WithPair g.Dependency e.source e.target := by
  funext x y
  refine propext ⟨withPair_of_addEdge, ?_⟩
  rintro (old | ⟨rfl, rfl⟩)
  · exact old.addEdge fun input _ => free input
  · obtain ⟨-, -, -, input, handle, n, i, target, found⟩ := isDataFeed_iff.1 feed
    obtain ⟨mem, same⟩ := operation?_eq_some_iff.1 target
    obtain ⟨declared, rfl⟩ := OperationNode.mem_inputs_of_input? found
    rw [← same]
    refine .data mem declared ?_
    rw [inputSource_addEdge, if_pos]
    exact Bool.and_eq_true_iff.2 ⟨feed, landsOn_iff.2 ⟨same.symm, handle⟩⟩

/-! ### One more connection -/

/-- Nothing feeds an input that no edge lands on. -/
theorem inputSource_eq_none {node : NodeId} {input : String}
    (free : g.isConnected node input = false) :
    (g.links.linksOf node).inputSources.get? input = none := by
  refine Option.eq_none_iff_forall_ne_some.2 fun x source => ?_
  obtain ⟨e, mem, -, lands, -⟩ := exists_edge_of_inputSource source
  rw [isConnected, List.any_eq_false] at free
  exact free e mem lands

/-- No control follows an exit that no edge leaves. -/
theorem exitPoint_eq_none (free : ∀ e ∈ g.edges, ¬e.leaves x Handle.exit) :
    (g.links.linksOf x).exitPoint = none := by
  refine Option.eq_none_iff_forall_ne_some.2 fun y exit => ?_
  obtain ⟨e, mem, control, source, -⟩ := exists_edge_of_exitPoint exit
  exact free e mem (leaves_of_isControl (isControlLink_iff.1 control).1 source)

/-- **A connection between operations adds one dependency**, if its edge is a control or a data
edge. -/
theorem Draws.dependency_eq {c : Connection} {fresh : ParamId} (draws : g.Draws fresh c h)
    (source : c.source ∈ g.operations.map OperationNode.id)
    (kind : c.toEdge.isControl ∨ c.toEdge.isData) :
    h = g.addEdge c.toEdge ∧ c.target ∈ g.operations.map OperationNode.id ∧
      h.Dependency = WithPair g.Dependency c.source c.target := by
  have notBank {b : InputBank} (bank : b ∈ g.inputBanks) :
      b.id ∉ g.operations.map OperationNode.id := by
    intro mem
    obtain ⟨n, operation, same⟩ := List.mem_map.1 mem
    exact inputBank_id_ne bank operation same.symm
  cases draws with
  | @control s t memSource memTarget _ _ _ exitFree =>
    have control : g.isControlLink (.control s.id t.id) :=
      isControlLink_iff.2 ⟨isControl_between.2 ⟨rfl, rfl⟩,
        isSome_operation?.2 (List.mem_map_of_mem memSource),
        isSome_operation?.2 (List.mem_map_of_mem memTarget)⟩
    exact ⟨rfl, List.mem_map_of_mem memTarget,
      dependency_addEdge_of_isControlLink control (exitPoint_eq_none exitFree)⟩
  | supply bank => exact absurd source (notBank bank)
  | declare bank => exact absurd source (notBank bank)
  | @feed s t i handle input memSource memTarget _ plain declared _ _ free =>
    have data : (Edge.between s.id handle t.id input).isData :=
      kind.resolve_left fun control => plain (isControl_between.1 control)
    have feed := isDataFeed_between memSource memTarget declared data
    refine ⟨rfl, List.mem_map_of_mem memTarget, dependency_addEdge_of_isDataFeed feed ?_⟩
    intro name lands
    obtain rfl : input = name := Option.some.inj (landsOn_iff.1 lands).2
    exact inputSource_eq_none free

/-! ### The order after a connection -/

theorem Wired.isLine_of_order {order : List NodeId} (wired : g.Wired)
    (ordered : g.dependencies.order = .ok order) :
    IsLine (g.operations.map OperationNode.id) g.Dependency order := by
  rw [← before_dependencies]
  exact Dependencies.isLine_of_order g.wellFormed_dependencies
    (comparableDepend_dependencies wired.controlLeavesOnce) ordered

/-- What a graph is ordered by, if its dependencies are those of a line and one more. -/
theorem order_eq_of_withPair {order : List NodeId}
    (line : IsLine (g.operations.map OperationNode.id) g.Dependency order)
    (same : h.operations = g.operations)
    (memx : x ∈ g.operations.map OperationNode.id) (memy : y ∈ g.operations.map OperationNode.id)
    (adds : h.Dependency = WithPair g.Dependency x y) :
    h.dependencies.order =
      if order.idxOf x < order.idxOf y then .ok order
      else .error (.cycleDetected ((h.operations.map OperationNode.id).filter fun z =>
        order.idxOf y ≤ order.idxOf z ∧ order.idxOf z ≤ order.idxOf x)) := by
  have wf := h.wellFormed_dependencies
  have on := g.isRelationOn_dependency
  have before : h.dependencies.Before = WithPair g.Dependency x y := by
    rw [before_dependencies, adds]
  rw [← same] at line memx memy on
  split
  · next lt =>
    -- The new pair points forwards, so that the line is one of the new relation, too.
    refine Dependencies.order_eq_ok_of_isLine wf ?_
    rw [before]
    exact line.withPair memy lt
  · next not_lt =>
    -- It points backwards: on a cycle is whatever stands between its ends.
    have joined : h.dependencies.Joined := by
      intro a mema b memb ne
      rw [before]
      have old : ∀ a b, g.Dependency a b → WithPair g.Dependency x y a b := fun _ _ r => .inl r
      exact (line.joined on mema memb ne).imp (TransGen.mono old a b) (TransGen.mono old b a)
    have cycle (z : NodeId) (memz : z ∈ h.operations.map OperationNode.id) :
        TransGen h.dependencies.Before z z ↔
          order.idxOf y ≤ order.idxOf z ∧ order.idxOf z ≤ order.idxOf x := by
      rw [before]
      exact line.cycle_withPair_iff on memx memz
    have cyclic : ¬Acyclic h.dependencies.Before := fun acyclic =>
      acyclic y ((cycle y memy).2 ⟨le_rfl, Nat.le_of_not_lt not_lt⟩)
    rw [Dependencies.order_eq_cycleDetected wf joined cyclic,
      Dependencies.cycleMembers_eq_filter wf fun z memz => ?_]
    · rfl
    · rw [decide_eq_true_eq]
      exact (cycle z memz).symm

/-- **A further connection keeps the order or closes cycles.**  On a graph that edits have drawn and
that has an order, a connection between two operations, by a control or a data edge, leaves the
order as it is if it leads forward.  Else what stands from its target through its source is on
cycles, and nothing else is. -/
theorem order_of_connect {start h : FlowGraph} {edits : List Edit} {order : List NodeId}
    {fresh : ParamId} {c : Connection} (edgeFree : start.edges = [])
    (ordered : (start.afterEdits edits).dependencies.order = .ok order)
    (connected : (start.afterEdits edits).connect fresh c = .ok h)
    (source : c.source ∈ (start.afterEdits edits).operations.map OperationNode.id)
    (kind : c.toEdge.isControl ∨ c.toEdge.isData) :
    h.dependencies.order =
      if order.idxOf c.source < order.idxOf c.target then .ok order
      else .error (.cycleDetected ((h.operations.map OperationNode.id).filter fun z =>
        order.idxOf c.target ≤ order.idxOf z ∧ order.idxOf z ≤ order.idxOf c.source)) := by
  have wired := wired_afterEdits edgeFree edits
  obtain ⟨rfl, target, adds⟩ := (draws_of_connect connected).dependency_eq source kind
  have line := wired.isLine_of_order ordered
  exact order_eq_of_withPair line rfl source target adds

/-- Four operations that can feed each other, listed out of order. -/
def row : FlowGraph where
  nodes := ["c", "a", "d", "b"].map fun id =>
    .operation ((OperationNode.new id .emitLog).withInput (.parameter "in" .string)
      |>.withOutput ⟨Handle.result, .string, none⟩)
  edges := []
  nodup_ids := by decide

/-- Control passes from one to the next. -/
def rowEdits : List Edit :=
  [⟨.between "a" Handle.exit "b" Handle.entry, "p"⟩,
    ⟨.between "b" Handle.exit "c" Handle.entry, "q"⟩,
    ⟨.between "c" Handle.exit "d" Handle.entry, "r"⟩]

/-- A value that is passed back closes a cycle, and one that is passed on leaves the order. -/
theorem row_order_of_connect :
    row.edges = [] ∧ (row.afterEdits rowEdits).dependencies.order = .ok ["a", "b", "c", "d"] ∧
      (∃ h, (row.afterEdits rowEdits).connect "s" (.between "c" Handle.result "b" "in") = .ok h ∧
        h.dependencies.order = .error (.cycleDetected ["c", "b"])) ∧
      ∃ h, (row.afterEdits rowEdits).connect "s" (.between "b" Handle.result "d" "in") = .ok h ∧
        h.dependencies.order = .ok ["a", "b", "c", "d"] := by
  have ordered : (row.afterEdits rowEdits).dependencies.order = .ok ["a", "b", "c", "d"] := rfl
  have back : (row.afterEdits rowEdits).connect "s" (.between "c" Handle.result "b" "in") =
      .ok ((row.afterEdits rowEdits).addEdge (.between "c" Handle.result "b" "in")) := rfl
  have on : (row.afterEdits rowEdits).connect "s" (.between "b" Handle.result "d" "in") =
      .ok ((row.afterEdits rowEdits).addEdge (.between "b" Handle.result "d" "in")) := rfl
  exact ⟨rfl, ordered,
    ⟨_, back, order_of_connect rfl ordered back (by decide) (by decide)⟩,
    ⟨_, on, order_of_connect rfl ordered on (by decide) (by decide)⟩⟩

end FlowPlan.FlowGraph
