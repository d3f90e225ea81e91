import FlowPlan.Proofs.Arguments.Landing

/-!
# Editing — no false rejections

The rules are checked one after the other, in an order of their own for every kind of connection,
and by tests that go by the names of handles.  What they come to is said here apart from the checks:
what each edge of a graph joins (`Obeys`), and which edges exclude each other (`KeepsRules`).

* `keepsRules_addEdge_iff`: what one more edge has to satisfy.
* `obeys_of_checkConnection`: what the checks accept satisfies it, in every graph.
* `Wired.checkConnection_eq_ok`: what satisfies it is accepted, in the graphs that edits draw.
* `rejected_breaks_rules`: so nothing is rejected that breaks no rule.

A taken exit is found by the name of the handle, also where the edge that leaves it passes no
control on.  No such edge is ever drawn unless an output is called `exit`
(`Wired.isControl_of_leaves`).
-/

namespace FlowPlan

theorem Connection.eq_between {c : Connection} {handle input : String}
    (source : c.sourceHandle = some handle) (target : c.targetHandle = some input) :
    c = .between c.source handle c.target input := by
  cases c
  cases source
  cases target
  rfl

namespace FlowGraph

variable {g : FlowGraph} {c : Connection} {e f : Edge}

/-! ### The rules -/

/-- The edge joins what the rules let it join, whatever other edges there are. -/
structure Obeys (g : FlowGraph) (e : Edge) : Prop where
  /-- It joins two nodes, the second an operation. -/
  ends : ∃ s ∈ g.nodes, ∃ t ∈ g.operations, e.source = s.id ∧ e.target = t.id ∧ s.id ≠ t.id
  /-- From an exit to an entry it leaves an operation that has the one, and reaches one that has the
  other. -/
  control : e.isControl → ∃ s ∈ g.operations, ∃ t ∈ g.operations,
    e.source = s.id ∧ e.target = t.id ∧ s.hasExit ∧ t.hasEntry
  /-- Else it carries the type of the input it lands on, which is no receiver if it comes from an
  operation. -/
  carries : ¬e.isControl → ∃ s ∈ g.nodes, ∃ t ∈ g.operations, ∃ handle input i,
    e.leaves s.id handle ∧ e.landsOn t.id input ∧ t.input? input = some i ∧
      s.carriedType? handle = some i.type ∧ (s.operation?.isSome → i.role ≠ .receiver)

/-- The edges of the graph keep the rules. -/
structure KeepsRules (g : FlowGraph) : Prop where
  obeys : ∀ e ∈ g.edges, g.Obeys e
  /-- No two edges land on one handle. -/
  landsOnce : g.edges.Pairwise fun e f => ¬(e.target = f.target ∧ e.targetHandle = f.targetHandle)
  /-- No two control edges leave one node. -/
  exitsOnce : g.edges.Pairwise fun e f => ¬(e.isControl ∧ f.isControl ∧ e.source = f.source)

theorem Obeys.congr {h : FlowGraph} (obeys : g.Obeys e) (nodes : h.nodes = g.nodes) :
    h.Obeys e := by
  have operations : h.operations = g.operations := congrArg (List.filterMap Node.operation?) nodes
  obtain ⟨ends, control, carries⟩ := obeys
  rw [← nodes, ← operations] at ends carries
  rw [← operations] at control
  exact ⟨ends, control, carries⟩

/-- The edge is free to be drawn: none lands where it does, and if it passes control on, none that
does so leaves where it does. -/
structure Unclaimed (g : FlowGraph) (e : Edge) : Prop where
  unlanded : ∀ f ∈ g.edges, ¬(f.target = e.target ∧ f.targetHandle = e.targetHandle)
  unleft : ∀ f ∈ g.edges, ¬(f.isControl ∧ e.isControl ∧ f.source = e.source)

/-- **One more edge keeps the rules** if it obeys them and is not excluded by another. -/
theorem keepsRules_addEdge_iff :
    (g.addEdge e).KeepsRules ↔ g.KeepsRules ∧ g.Obeys e ∧ g.Unclaimed e := by
  constructor
  · rintro ⟨obeys, landsOnce, exitsOnce⟩
    obtain ⟨oldLands, newLands⟩ := pairwise_snoc.1 landsOnce
    obtain ⟨oldExits, newExits⟩ := pairwise_snoc.1 exitsOnce
    have same (f : Edge) (mem : f ∈ g.edges ++ [e]) : g.Obeys f := (obeys f mem).congr rfl
    exact ⟨⟨fun f mem => same f (List.mem_append_left _ mem), oldLands, oldExits⟩,
      same e (by simp), newLands, newExits⟩
  · rintro ⟨⟨old, oldLands, oldExits⟩, new, newLands, newExits⟩
    refine ⟨fun f mem => ?_, pairwise_snoc.2 ⟨oldLands, newLands⟩,
      pairwise_snoc.2 ⟨oldExits, newExits⟩⟩
    rcases List.mem_append.1 mem with mem | mem
    · exact (old f mem).congr rfl
    · rw [List.mem_singleton.1 mem]
      exact new.congr rfl

/-! ### What is accepted -/

theorem not_isControl_of_plain {s t : NodeId} {handle input : String}
    (plain : ¬(handle = Handle.exit ∧ input = Handle.entry)) :
    ¬(Edge.between s handle t input).isControl :=
  mt isControl_between.1 plain

/-- An edge that passes no control on, from what it says it leaves to what it says it lands on. -/
theorem obeys_between {s : Node} {t : OperationNode} {i : Input} {handle input : String}
    (source : s ∈ g.nodes) (target : t ∈ g.operations) (ne : s.id ≠ t.id)
    (plain : ¬(handle = Handle.exit ∧ input = Handle.entry)) (declared : t.input? input = some i)
    (typed : s.carriedType? handle = some i.type)
    (role : s.operation?.isSome → i.role ≠ .receiver) :
    g.Obeys (.between s.id handle t.id input) where
  ends := ⟨s, source, t, target, rfl, rfl, ne⟩
  control := fun control => absurd control (not_isControl_of_plain plain)
  carries := fun _ => ⟨s, source, t, target, handle, input, i, leaves_iff.2 ⟨rfl, rfl⟩,
    landsOn_iff.2 ⟨rfl, rfl⟩, declared, typed, role⟩

/-- A control edge obeys the rules if its ends have an exit and an entry. -/
theorem obeys_control {s t : OperationNode} (source : s ∈ g.operations) (target : t ∈ g.operations)
    (ne : s.id ≠ t.id) (hasExit : s.hasExit) (hasEntry : t.hasEntry) :
    g.Obeys (.control s.id t.id) where
  ends := ⟨.operation s, mem_operations.1 source, t, target, rfl, rfl, ne⟩
  control := fun _ => ⟨s, source, t, target, rfl, rfl, hasExit, hasEntry⟩
  carries := fun plain => absurd (isControl_between.2 ⟨rfl, rfl⟩) plain

/-- A data edge to a free input claims nothing that is taken. -/
theorem unclaimed_between {s t : NodeId} {handle input : String}
    (plain : ¬(handle = Handle.exit ∧ input = Handle.entry))
    (free : g.isConnected t input = false) : g.Unclaimed (.between s handle t input) where
  unlanded := isConnected_eq_false_iff.1 free
  unleft := fun _ _ both => not_isControl_of_plain plain both.2.1

/-- **What is accepted obeys the rules**, in every graph, if no parameter is declared for it. -/
theorem obeys_of_checkConnection (plain : c.sourceHandle ≠ some Handle.newInputParam)
    (accepted : g.checkConnection c = .ok ()) : g.Obeys c.toEdge ∧ g.Unclaimed c.toEdge := by
  obtain ⟨h, -, draws⟩ := draws_of_checkConnection "" accepted
  cases draws with
  | @control s t source target ne hasExit hasEntry exitFree free =>
    change g.Obeys (.control s.id t.id) ∧ g.Unclaimed (.control s.id t.id)
    refine ⟨obeys_control source target ne hasExit hasEntry, isConnected_eq_false_iff.1 free, ?_⟩
    rintro f mem ⟨control, -, same⟩
    exact exitFree f mem (leaves_of_isControl control same)
  | @supply b t p i handle input source target ne notControl _ param declared typed free =>
    change g.Obeys (.between b.id handle t.id input) ∧ g.Unclaimed (.between b.id handle t.id input)
    have carried : (Node.inputBank b).carriedType? handle = some i.type := by
      rw [Node.carriedType?, param, Option.map_some, typed]
    have obeys := obeys_between (mem_inputBanks.1 source) target ne notControl declared carried
      (by simp [Node.operation?])
    exact ⟨obeys, unclaimed_between notControl free⟩
  | declare => exact absurd rfl plain
  | @feed s t i handle input source target ne notControl declared role typed free =>
    change g.Obeys (.between s.id handle t.id input) ∧ g.Unclaimed (.between s.id handle t.id input)
    have obeys := obeys_between (mem_operations.1 source) target ne notControl declared typed
      (fun _ => role)
    exact ⟨obeys, unclaimed_between notControl free⟩

/-! ### What is rejected -/

/-- An edge that leaves an exit passes control on, unless an output is called `exit`. -/
theorem Wired.isControl_of_leaves (wired : g.Wired)
    (noExit : ∀ n ∈ g.operations, ∀ o ∈ n.output, o.name ≠ Handle.exit) {s : OperationNode}
    (source : s ∈ g.operations) (mem : e ∈ g.edges) (leaves : e.leaves s.id Handle.exit) :
    e.isControl := by
  obtain ⟨same, handle⟩ := leaves_iff.1 leaves
  cases wired.joins e mem with
  | control => exact isControl_between.2 ⟨rfl, rfl⟩
  | supply bank =>
    obtain ⟨b, memBank, sameBank⟩ := List.mem_map.1 bank
    exact absurd (sameBank.trans same) (inputBank_id_ne memBank source)
  | feed operation _ _ _ _ _ typed =>
    cases handle
    exact absurd rfl (ne_exit_of_handleType? (noExit _ operation) typed)

theorem eq_of_node_id {m n : Node} (first : m ∈ g.nodes) (second : n ∈ g.nodes)
    (same : m.id = n.id) : m = n :=
  Option.some.inj <| (node?_eq_some_iff.2 ⟨first, same⟩).symm.trans
    (node?_eq_some_iff.2 ⟨second, rfl⟩)

/-- A bank's parameter of the right type is accepted at a free input. -/
theorem checkSupply_eq_ok_of_carries {b : InputBank} {t : OperationNode} {i : Input}
    {handle input : String} (old : handle ≠ Handle.newInputParam)
    (free : g.isConnected t.id input = false) (declared : t.input? input = some i)
    (typed : (Node.inputBank b).carriedType? handle = some i.type) :
    g.checkSupply b handle t input = .ok () := by
  obtain ⟨p, param, type⟩ := Option.map_eq_some_iff.1 typed
  exact checkSupply_eq_ok_iff.2 ⟨free, i, declared, .inr ⟨old, p, param, type⟩⟩

/-- **What obeys the rules is accepted**, in the graphs that edits draw. -/
theorem Wired.checkConnection_eq_ok (wired : g.Wired)
    (noExit : ∀ n ∈ g.operations, ∀ o ∈ n.output, o.name ≠ Handle.exit) {s t : NodeId}
    {handle input : String} (old : handle ≠ Handle.newInputParam)
    (obeys : g.Obeys (.between s handle t input))
    (unclaimed : g.Unclaimed (.between s handle t input)) :
    g.checkConnection (.between s handle t input) = .ok () := by
  obtain ⟨source, memSource, target, memTarget, rfl, rfl, ne⟩ := obeys.ends
  refine checkConnection_eq_ok_iff.2
    ⟨source, handle, target, input, rfl, memSource, memTarget, ne, ?_⟩
  have free : g.isConnected target.id input = false :=
    isConnected_eq_false_iff.2 unclaimed.unlanded
  unfold checkEnds
  split
  · next ends =>
    have isControl := isControl_between (s := source.id) (t := target.id).2 ends
    obtain ⟨rfl, rfl⟩ := ends
    obtain ⟨a, memA, u, memU, sameSource, sameTarget, hasExit, hasEntry⟩ := obeys.control isControl
    obtain rfl : source = .operation a :=
      eq_of_node_id memSource (mem_operations.1 memA) sameSource
    obtain rfl : target = u := eq_of_operation_id memTarget memU sameTarget
    refine checkControl_eq_ok_iff.2 ⟨⟨a, rfl, hasExit⟩, hasEntry, fun f mem leaves => ?_, free⟩
    -- the check goes by the name of the exit, the rule by the edges that pass control on
    exact unclaimed.unleft f mem
      ⟨wired.isControl_of_leaves noExit memA mem leaves, isControl, (leaves_iff.1 leaves).1⟩
  · next plain =>
    obtain ⟨a, memA, u, memU, handle', input', i, leaves, lands, declared, typed, role⟩ :=
      obeys.carries (not_isControl_of_plain plain)
    obtain ⟨sameSource, sameHandle⟩ := leaves_iff.1 leaves
    obtain ⟨sameTarget, sameInput⟩ := landsOn_iff.1 lands
    obtain rfl : source = a := eq_of_node_id memSource memA sameSource
    obtain rfl : target = u := eq_of_operation_id memTarget memU sameTarget
    cases sameHandle
    cases sameInput
    cases source with
    | inputBank b => exact checkSupply_eq_ok_of_carries old free declared typed
    | operation n => exact checkFeed_eq_ok_iff.2 ⟨i, declared, free, role rfl, typed⟩

/-- **Edits keep the rules**, if none of them declares a parameter under an identifier that is used
or that is the name of an exit. -/
theorem keepsRules_afterEdits {start : FlowGraph} {edits : List Edit} (edgeFree : start.edges = [])
    (freshly : FreshEdits start edits)
    (noExit : ∀ b ∈ (start.afterEdits edits).inputBanks, b.param? Handle.exit = none) :
    (start.afterEdits edits).KeepsRules := by
  have wired := wired_afterEdits edgeFree edits
  have supplied := supplied_of_freshEdits edgeFree freshly
  refine ⟨fun e mem => ⟨(wired.joins e mem).ends, fun control => ?_, fun plain => ?_⟩,
    wired.landsOnce, supplied.exitsOnce⟩
  · cases wired.joins e mem with
    | @control s t source target _ hasExit hasEntry =>
      exact ⟨s, source, t, target, rfl, rfl, hasExit, hasEntry⟩
    | @supply s t i handle input source =>
      obtain ⟨b, bank, same⟩ := List.mem_map.1 source
      have leaves := leaves_of_isControl control same.symm
      obtain ⟨p, found⟩ := supplied.exists_param wired bank mem leaves
      cases (noExit b bank).symm.trans found
    | feed _ _ _ plain => exact absurd control (not_isControl_of_plain plain)
  · obtain ⟨s, source, t, target, handle, input, i, rfl, declared, typed, role⟩ :=
      (wired.joins e mem).carries (supplied.typed e mem) plain
    exact ⟨s, source, t, target, handle, input, i, leaves_iff.2 ⟨rfl, rfl⟩,
      landsOn_iff.2 ⟨rfl, rfl⟩, declared, typed, role⟩

/-- **No false rejections.**  In a graph that edits have drawn and in which no output is called
`exit`, a connection between two handles, the first not the one that declares parameters, is
rejected only if its edge would break a rule, by what it joins or by what another edge has claimed.
And what is accepted breaks none that is kept so far.  The start has no edges; calls that fail
count. -/
theorem rejected_breaks_rules {start : FlowGraph} {edits : List Edit} {c : Connection}
    (edgeFree : start.edges = [])
    (noExit : ∀ n ∈ (start.afterEdits edits).operations, ∀ o ∈ n.output, o.name ≠ Handle.exit)
    (source : c.sourceHandle.isSome) (target : c.targetHandle.isSome)
    (plain : c.sourceHandle ≠ some Handle.newInputParam) :
    (∀ reason, (start.afterEdits edits).checkConnection c = .error reason →
      ¬((start.afterEdits edits).Obeys c.toEdge ∧ (start.afterEdits edits).Unclaimed c.toEdge) ∧
        ¬((start.afterEdits edits).addEdge c.toEdge).KeepsRules) ∧
      ((start.afterEdits edits).KeepsRules →
        (start.afterEdits edits).checkConnection c = .ok () →
        ((start.afterEdits edits).addEdge c.toEdge).KeepsRules) := by
  constructor
  · intro reason rejected
    obtain ⟨handle, sourceHandle⟩ := Option.isSome_iff_exists.1 source
    obtain ⟨input, targetHandle⟩ := Option.isSome_iff_exists.1 target
    rw [Connection.eq_between sourceHandle targetHandle] at rejected ⊢
    have old : handle ≠ Handle.newInputParam := fun same => plain (same ▸ sourceHandle)
    have breaks : ¬((start.afterEdits edits).Obeys (.between c.source handle c.target input) ∧
        (start.afterEdits edits).Unclaimed (.between c.source handle c.target input)) := by
      rintro ⟨obeys, unclaimed⟩
      have accepted :=
        (wired_afterEdits edgeFree edits).checkConnection_eq_ok noExit old obeys unclaimed
      cases rejected.symm.trans accepted
    exact ⟨breaks, fun keeps => breaks (keepsRules_addEdge_iff.1 keeps).2⟩
  · intro keeps accepted
    exact keepsRules_addEdge_iff.2 ⟨keeps, obeys_of_checkConnection plain accepted⟩

/-- Control passes on, and the receiver is supplied. -/
def sketchStart : List Edit :=
  [⟨.between "make" Handle.exit "use" Handle.entry, "a"⟩,
    ⟨.between "bank" Handle.newInputParam "use" Input.receiverName, "b"⟩]

/-- The text is to come from the call. -/
def makeToText : Connection :=
  .between "make" Handle.result "use" "text"

/-- Control is to pass on again. -/
def makeToUse : Connection :=
  .between "make" Handle.exit "use" Handle.entry

/-- The first connection is accepted and keeps the rules; the second is rejected and breaks one. -/
theorem sketch_rejected_breaks_rules :
    sketch.edges = [] ∧
      (∀ n ∈ (sketch.afterEdits sketchStart).operations, ∀ o ∈ n.output, o.name ≠ Handle.exit) ∧
      (sketch.afterEdits sketchStart).KeepsRules ∧
      (makeToText.sourceHandle ≠ some Handle.newInputParam ∧
        (sketch.afterEdits sketchStart).checkConnection makeToText = .ok () ∧
        ((sketch.afterEdits sketchStart).addEdge makeToText.toEdge).KeepsRules) ∧
      (makeToUse.sourceHandle ≠ some Handle.newInputParam ∧
        (sketch.afterEdits sketchStart).checkConnection makeToUse = .error (.exitTaken "make") ∧
        ¬((sketch.afterEdits sketchStart).Obeys makeToUse.toEdge ∧
          (sketch.afterEdits sketchStart).Unclaimed makeToUse.toEdge) ∧
        ¬((sketch.afterEdits sketchStart).addEdge makeToUse.toEdge).KeepsRules) := by
  have noExit : ∀ n ∈ (sketch.afterEdits sketchStart).operations, ∀ o ∈ n.output,
      o.name ≠ Handle.exit := by decide
  have freshly : FreshEdits sketch sketchStart :=
    .cons (by decide) <| .cons (by decide) <| .nil _
  have keeps : (sketch.afterEdits sketchStart).KeepsRules :=
    keepsRules_afterEdits rfl freshly (by decide)
  have plain : makeToText.sourceHandle ≠ some Handle.newInputParam := by decide
  have plain' : makeToUse.sourceHandle ≠ some Handle.newInputParam := by decide
  exact ⟨rfl, noExit, keeps,
    ⟨plain, rfl, (rejected_breaks_rules rfl noExit rfl rfl plain).2 keeps rfl⟩,
    ⟨plain', rfl, (rejected_breaks_rules rfl noExit rfl rfl plain').1 _ rfl⟩⟩

end FlowGraph

end FlowPlan
