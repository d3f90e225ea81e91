import Mathlib.Data.List.Pairwise
import FlowPlan.Proofs.Editing.Growth
import FlowPlan.Proofs.Order.Relation

/-!
# Editing — wired graphs

What every graph satisfies that an editor has drawn, and why: each rule asks for what the edges so
far do not have yet, and no later edit takes anything away that an edge was drawn for.

* `Wired`: no two edges land on one handle, no two control edges leave one operation, and every
  edge joins what some rule lets it join.  It holds whichever identifiers are drawn for parameters.
* `Supplied`: every edge from a bank leaves a parameter of the type that its input declares, and no
  two control edges leave one node.  This needs parameters to be declared under identifiers that
  their bank does not use.
* `afterEdits_wiredFrom`: what both come to, edge by edge, for the graph of a run of edits.
-/

namespace FlowPlan

/-- The type that a handle of a node carries. -/
def Node.carriedType? (n : Node) (handle : String) : Option ParamType :=
  match n with
  | .operation n => n.output.bind (·.handleType? handle)
  | .inputBank b => (b.param? handle).map BankParam.type

namespace FlowGraph

variable {g h : FlowGraph} {c : Connection} {fresh : ParamId}

/-! ### What a step adds -/

/-- The edge joins what some rule lets it join. -/
inductive Joins (g : FlowGraph) : Edge → Prop where
  | control {s t : OperationNode} (source : s ∈ g.operations) (target : t ∈ g.operations)
      (ne : s.id ≠ t.id) (hasExit : s.hasExit) (hasEntry : t.hasEntry) :
      Joins g (.control s.id t.id)
  | supply {s : NodeId} {t : OperationNode} {i : Input} {handle input : String}
      (source : s ∈ g.inputBanks.map InputBank.id) (target : t ∈ g.operations) (ne : s ≠ t.id)
      (declared : t.input? input = some i) : Joins g (.between s handle t.id input)
  | feed {s t : OperationNode} {i : Input} {handle input : String} (source : s ∈ g.operations)
      (target : t ∈ g.operations) (ne : s.id ≠ t.id)
      (plain : ¬(handle = Handle.exit ∧ input = Handle.entry))
      (declared : t.input? input = some i) (role : i.role ≠ .receiver)
      (typed : s.output.bind (·.handleType? handle) = some i.type) :
      Joins g (.between s.id handle t.id input)

theorem Joins.mono {e : Edge} (joins : g.Joins e) (grows : g.GrowsTo h) : h.Joins e := by
  have same := grows.operations_eq
  cases joins with
  | control source target ne hasExit hasEntry =>
    exact .control (same ▸ source) (same ▸ target) ne hasExit hasEntry
  | supply source target ne declared =>
    exact .supply (grows.bankIds_eq ▸ source) (same ▸ target) ne declared
  | feed source target ne plain declared role typed =>
    exact .feed (same ▸ source) (same ▸ target) ne plain declared role typed

/-- An edge from a bank leaves a parameter of the type of the input it lands on. -/
def TypedSupply (g : FlowGraph) (e : Edge) : Prop :=
  ∀ b ∈ g.inputBanks, ∀ t ∈ g.operations, ∀ handle input i, e = .between b.id handle t.id input →
    t.input? input = some i → ∃ p, b.param? handle = some p ∧ p.type = i.type

/-- A parameter is still found when others are declared behind it. -/
theorem param?_append {b : InputBank} {p : BankParam} {id : ParamId} (more : List BankParam)
    (found : b.param? id = some p) : { b with params := b.params ++ more }.param? id = some p := by
  rw [InputBank.param?, List.find?_append, ← InputBank.param?, found, Option.some_or]

theorem TypedSupply.mono {e : Edge} (typed : g.TypedSupply e) (grows : g.GrowsTo h) :
    h.TypedSupply e := by
  intro b bank t target handle input i same declared
  obtain ⟨a, old, more, rfl⟩ := grows.exists_inputBank bank
  rw [grows.operations_eq] at target
  obtain ⟨p, found, type⟩ := typed a old t target handle input i same declared
  exact ⟨p, param?_append more found, type⟩

theorem between_inj {s s' t t' : NodeId} {handle handle' input input' : String}
    (same : Edge.between s handle t input = .between s' handle' t' input') :
    s = s' ∧ handle = handle' ∧ t = t' ∧ input = input' := by
  simp only [Edge.between, Edge.mk.injEq, Option.some.injEq] at same
  exact same.2

/-- An edge from an operation supplies nothing from a bank. -/
theorem typedSupply_of_operation {s t : OperationNode} {handle input : String}
    (source : s ∈ g.operations) : g.TypedSupply (.between s.id handle t.id input) := by
  intro b bank _ _ _ _ _ same
  exact absurd (between_inj same).1.symm (inputBank_id_ne bank source)

/-- A connection from a declared parameter of the input's type is typed. -/
theorem typedSupply_of_param {b : InputBank} {t : OperationNode} {p : BankParam} {i : Input}
    {handle input : String} (bank : b ∈ g.inputBanks) (target : t ∈ g.operations)
    (param : b.param? handle = some p) (declared : t.input? input = some i)
    (typed : p.type = i.type) : g.TypedSupply (.between b.id handle t.id input) := by
  intro a memBank u memTarget handle' input' j same declared'
  obtain ⟨sameBank, rfl, sameTarget, rfl⟩ := between_inj same
  obtain rfl := eq_of_inputBank_id bank memBank sameBank
  obtain rfl := eq_of_operation_id target memTarget sameTarget
  cases declared.symm.trans declared'
  exact ⟨p, param, typed⟩

/-- The parameter that a connection declares is found under its fresh identifier. -/
theorem param?_spawned {b : InputBank} {i : Input} (unused : b.param? fresh = none) :
    { b with params := b.params ++ [spawnedParam b i fresh] }.param? fresh =
      some (spawnedParam b i fresh) := by
  rw [InputBank.param?, List.find?_append, ← InputBank.param?, unused, Option.none_or]
  simp [spawnedParam]

/-- The bank is still there, with the parameter that the connection declares. -/
theorem mem_inputBanks_spawn {b : InputBank} {t : OperationNode} {i : Input} {input : String}
    (bank : b ∈ g.inputBanks) : { b with params := b.params ++ [spawnedParam b i fresh] } ∈
      (g.spawn b t i fresh input).inputBanks :=
  mem_inputBanks.2 <| List.mem_map.2 ⟨.inputBank b, mem_inputBanks.1 bank, if_pos rfl⟩

/-- The connection that declares a parameter is typed: the parameter has the type of the input. -/
theorem typedSupply_spawn {b : InputBank} {t : OperationNode} {i : Input} {input : String}
    (bank : b ∈ g.inputBanks) (target : t ∈ g.operations) (declared : t.input? input = some i)
    (unused : b.param? fresh = none) :
    (g.spawn b t i fresh input).TypedSupply (.between b.id fresh t.id input) := by
  have grows : g.GrowsTo (g.spawn b t i fresh input) := growsTo_replaceNode bank
  have memTarget := target
  rw [← grows.operations_eq] at memTarget
  have supply := typedSupply_of_param (mem_inputBanks_spawn bank) memTarget
    (param?_spawned unused) declared rfl
  exact supply

theorem pairwise_snoc {R : Edge → Edge → Prop} {edges : List Edge} {e : Edge} :
    (edges ++ [e]).Pairwise R ↔ edges.Pairwise R ∧ ∀ f ∈ edges, R f e := by
  simp [List.pairwise_append]

theorem isControl_between {s t : NodeId} {handle input : String} :
    (Edge.between s handle t input).isControl ↔ handle = Handle.exit ∧ input = Handle.entry := by
  simp [Edge.isControl_iff, Edge.between]

/-- An input is free exactly if no edge lands on it. -/
theorem isConnected_eq_false_iff {node : NodeId} {input : String} :
    g.isConnected node input = false ↔
      ∀ f ∈ g.edges, ¬(f.target = node ∧ f.targetHandle = some input) := by
  simp [isConnected, Edge.landsOn]

/-- What a step adds: one edge. -/
structure Adds (g h : FlowGraph) (fresh : ParamId) (c : Connection) (e : Edge) : Prop where
  edges : h.edges = g.edges ++ [e]
  joins : h.Joins e
  /-- No edge has landed on the handle. -/
  unlanded : ∀ f ∈ g.edges, ¬(f.target = e.target ∧ f.targetHandle = e.targetHandle)
  /-- A second control edge leaves a parameter that is declared for it. -/
  unleft : ∀ f ∈ g.edges, f.isControl → e.isControl → f.source = e.source →
    ∃ b ∈ g.inputBanks, c.Declares b ∧ e.leaves b.id fresh
  typed : (∀ b ∈ g.inputBanks, c.Declares b → b.param? fresh = none) → h.TypedSupply e

theorem Draws.exists_adds (draws : g.Draws fresh c h) : ∃ e, g.Adds h fresh c e := by
  have grows := draws.growsTo
  cases draws with
  | @control s t source target ne hasExit hasEntry exitFree free =>
    refine ⟨_, rfl, (Joins.control source target ne hasExit hasEntry).mono grows,
      isConnected_eq_false_iff.1 free, fun f mem control _ same => ?_,
      fun _ => (typedSupply_of_operation source).mono grows⟩
    exact absurd (leaves_of_isControl control same) (exitFree f mem)
  | supply source target ne plain old param declared typed free =>
    refine ⟨_, rfl, (Joins.supply (List.mem_map_of_mem source) target ne declared).mono grows,
      isConnected_eq_false_iff.1 free, fun _ _ _ control _ => ?_,
      fun _ => (typedSupply_of_param source target param declared typed).mono grows⟩
    exact absurd (isControl_between.1 control) plain
  | @declare b t i input source target ne declared free =>
    refine ⟨_, rfl, (Joins.supply (List.mem_map_of_mem source) target ne declared).mono grows,
      isConnected_eq_false_iff.1 free, fun _ _ _ _ _ => ?_, fun unused => ?_⟩
    · exact ⟨b, source, ⟨rfl, rfl⟩, by simp [Edge.leaves, Edge.between, spawnedParam]⟩
    · exact typedSupply_spawn source target declared (unused b source ⟨rfl, rfl⟩)
  | feed source target ne plain declared role typed free =>
    refine ⟨_, rfl, (Joins.feed source target ne plain declared role typed).mono grows,
      isConnected_eq_false_iff.1 free, fun _ _ _ control _ => ?_,
      fun _ => (typedSupply_of_operation source).mono grows⟩
    exact absurd (isControl_between.1 control) plain

/-- What holds of the old edges and of the new one holds of all. -/
theorem Adds.forall_mem {P : Edge → Prop} {e : Edge} (adds : g.Adds h fresh c e)
    (old : ∀ f ∈ g.edges, P f) (new : P e) : ∀ f ∈ h.edges, P f := by
  intro f mem
  rw [adds.edges] at mem
  rcases List.mem_append.1 mem with mem | mem
  · exact old f mem
  · cases List.mem_singleton.1 mem
    exact new

/-! ### The invariant of every edit -/

/-- What the rules keep, however parameters are identified. -/
structure Wired (g : FlowGraph) : Prop where
  /-- No two edges land on one handle. -/
  landsOnce : g.edges.Pairwise fun e f => ¬(e.target = f.target ∧ e.targetHandle = f.targetHandle)
  /-- No two control edges leave one operation. -/
  exitsOnce : g.edges.Pairwise fun e f =>
    ¬(e.isControl ∧ f.isControl ∧ e.source = f.source ∧
      e.source ∈ g.operations.map OperationNode.id)
  joins : ∀ e ∈ g.edges, g.Joins e

theorem wired_of_edges_eq_nil (edgeFree : g.edges = []) : g.Wired where
  landsOnce := by simp [edgeFree]
  exitsOnce := by simp [edgeFree]
  joins := by simp [edgeFree]

/-- One edge at most lands on an input. -/
theorem Wired.eq_of_landsOn {e f : Edge} {node : NodeId} {input : String} (wired : g.Wired)
    (memLeft : e ∈ g.edges) (memRight : f ∈ g.edges) (left : e.landsOn node input)
    (right : f.landsOn node input) : e = f := by
  have symm : Std.Symm fun e f : Edge =>
      ¬(e.target = f.target ∧ e.targetHandle = f.targetHandle) :=
    ⟨fun _ _ apart same => apart ⟨same.1.symm, same.2.symm⟩⟩
  by_contra ne
  refine wired.landsOnce.forall memLeft memRight ne ?_
  obtain ⟨target, handle⟩ := landsOn_iff.1 left
  obtain ⟨target', handle'⟩ := landsOn_iff.1 right
  exact ⟨target.trans target'.symm, handle.trans handle'.symm⟩

/-- **A connection keeps a graph wired.** -/
theorem Wired.step (wired : g.Wired) (draws : g.Draws fresh c h) : h.Wired := by
  obtain ⟨e, adds⟩ := draws.exists_adds
  have grows := draws.growsTo
  constructor
  case landsOnce =>
    rw [adds.edges]
    exact pairwise_snoc.2 ⟨wired.landsOnce, adds.unlanded⟩
  case exitsOnce =>
    rw [adds.edges, grows.operations_eq]
    refine pairwise_snoc.2 ⟨wired.exitsOnce, ?_⟩
    rintro f mem ⟨old, new, same, operation⟩
    obtain ⟨b, bank, -, leaves⟩ := adds.unleft f mem old new same
    obtain ⟨n, memNode, sameNode⟩ := List.mem_map.1 operation
    have source := (leaves_iff.1 leaves).1
    exact inputBank_id_ne bank memNode (source.symm.trans (same.symm.trans sameNode.symm))
  case joins => exact adds.forall_mem (fun f mem => (wired.joins f mem).mono grows) adds.joins

/-- **Edits wire a graph by the rules**, whichever identifiers they declare parameters under. -/
theorem wired_afterEdits (edgeFree : g.edges = []) (edits : List Edit) :
    (g.afterEdits edits).Wired :=
  invariant_afterEdits Wired.step (wired_of_edges_eq_nil edgeFree) edits

/-- What the uniqueness of orders rests on. -/
theorem Wired.controlLeavesOnce (wired : g.Wired) : g.ControlLeavesOnce := by
  rw [ControlLeavesOnce, List.Nodup, List.pairwise_map, List.pairwise_filter]
  refine wired.exitsOnce.imp fun apart left right same => apart ?_
  obtain ⟨control, operation, -⟩ := isControlLink_iff.1 left
  exact ⟨control, (isControlLink_iff.1 right).1, same, isSome_operation?.1 operation⟩

/-! ### The invariant of fresh edits -/

/-- What the rules keep besides, when no parameter is declared under a used identifier. -/
structure Supplied (g : FlowGraph) : Prop where
  typed : ∀ e ∈ g.edges, g.TypedSupply e
  /-- No two control edges leave one node. -/
  exitsOnce : g.edges.Pairwise fun e f => ¬(e.isControl ∧ f.isControl ∧ e.source = f.source)

theorem supplied_of_edges_eq_nil (edgeFree : g.edges = []) : g.Supplied where
  typed := by simp [edgeFree]
  exitsOnce := by simp [edgeFree]

/-- Whatever leaves a bank leaves a declared parameter. -/
theorem Supplied.exists_param {b : InputBank} {e : Edge} {handle : String} (supplied : g.Supplied)
    (wired : g.Wired) (bank : b ∈ g.inputBanks) (mem : e ∈ g.edges)
    (leaves : e.leaves b.id handle) : ∃ p, b.param? handle = some p := by
  obtain ⟨source, sourceHandle⟩ := leaves_iff.1 leaves
  have typed := supplied.typed e mem
  cases wired.joins e mem with
  | control operation => exact absurd source.symm (inputBank_id_ne bank operation)
  | feed operation => exact absurd source.symm (inputBank_id_ne bank operation)
  | supply _ target _ declared =>
    cases source
    cases sourceHandle
    obtain ⟨p, found, -⟩ := typed b bank _ target handle _ _ rfl declared
    exact ⟨p, found⟩

/-- **An accepted connection keeps a graph supplied.** -/
theorem Supplied.step (supplied : g.Supplied) (wired : g.Wired)
    (isFresh : Edit.IsFresh g ⟨c, fresh⟩) (accepted : g.checkConnection c = .ok ())
    (draws : g.Draws fresh c h) : h.Supplied := by
  obtain ⟨e, adds⟩ := draws.exists_adds
  have unused (b : InputBank) (bank : b ∈ g.inputBanks) (declares : c.Declares b) :
      b.param? fresh = none :=
    isFresh b bank declares (by rw [accepted]; rfl)
  constructor
  case typed =>
    have old (f : Edge) (mem : f ∈ g.edges) : h.TypedSupply f :=
      (supplied.typed f mem).mono draws.growsTo
    exact adds.forall_mem old (adds.typed unused)
  case exitsOnce =>
    rw [adds.edges]
    refine pairwise_snoc.2 ⟨supplied.exitsOnce, ?_⟩
    rintro f mem ⟨old, new, same⟩
    obtain ⟨b, bank, declares, leaves⟩ := adds.unleft f mem old new same
    obtain ⟨source, handle⟩ := leaves_iff.1 leaves
    -- The new edge is a control edge only if the identifier is `exit`, which is then in use.
    obtain ⟨-, exit⟩ := leaves_iff.1 (leaves_of_isControl new source)
    obtain ⟨p, found⟩ := supplied.exists_param wired bank mem
      (leaves_of_isControl old (same.trans source))
    cases handle.symm.trans exit
    cases (unused b bank declares).symm.trans found

/-- Every graph that is built from one without edges is supplied. -/
theorem supplied_of_freshEdits (edgeFree : g.edges = []) {edits : List Edit}
    (freshly : FreshEdits g edits) : (g.afterEdits edits).Supplied := by
  have both : (g.afterEdits edits).Wired ∧ (g.afterEdits edits).Supplied := by
    refine invariant_of_freshEdits (P := fun g => g.Wired ∧ g.Supplied) ?_
      ⟨wired_of_edges_eq_nil edgeFree, supplied_of_edges_eq_nil edgeFree⟩ freshly
    intro g h c fresh ⟨wired, supplied⟩ isFresh accepted draws
    exact ⟨wired.step draws, supplied.step wired isFresh accepted draws⟩
  exact both.2

/-! ### The wiring of an edited graph -/

/-- The graph is wired by the rules, and its nodes are those of `start` but for further parameters
of the banks. -/
structure WiredFrom (start g : FlowGraph) : Prop where
  /-- No two edges land on one handle. -/
  landsOnce : g.edges.Pairwise fun e f => ¬(e.target = f.target ∧ e.targetHandle = f.targetHandle)
  /-- No two control edges leave one node. -/
  exitsOnce : g.edges.Pairwise fun e f => ¬(e.isControl ∧ f.isControl ∧ e.source = f.source)
  /-- An edge joins two nodes, the second an operation. -/
  ends : ∀ e ∈ g.edges, ∃ s ∈ g.nodes, ∃ t ∈ g.operations,
    e.source = s.id ∧ e.target = t.id ∧ s.id ≠ t.id
  /-- An edge that is not a control edge carries the type of the input it lands on, which is no
  receiver if it comes from an operation. -/
  carries : ∀ e ∈ g.edges, ¬e.isControl → ∃ s ∈ g.nodes, ∃ t ∈ g.operations, ∃ handle input i,
    e = .between s.id handle t.id input ∧ t.input? input = some i ∧
      s.carriedType? handle = some i.type ∧ (s.operation?.isSome → i.role ≠ .receiver)
  ids : g.nodes.map Node.id = start.nodes.map Node.id
  operations : g.operations = start.operations
  grows : start.GrowsTo g

/-- An edge goes from a node to an operation, and not to the same one. -/
theorem Joins.ends {e : Edge} (joins : g.Joins e) :
    ∃ s ∈ g.nodes, ∃ t ∈ g.operations, e.source = s.id ∧ e.target = t.id ∧ s.id ≠ t.id := by
  cases joins with
  | @control s t source target ne =>
    exact ⟨.operation s, mem_operations.1 source, t, target, rfl, rfl, ne⟩
  | @supply s t _ _ _ source target ne =>
    obtain ⟨b, bank, rfl⟩ := List.mem_map.1 source
    exact ⟨.inputBank b, mem_inputBanks.1 bank, t, target, rfl, rfl, ne⟩
  | @feed s t _ _ _ source target ne =>
    exact ⟨.operation s, mem_operations.1 source, t, target, rfl, rfl, ne⟩

/-- An edge that is no control edge carries a value of the type of the input, and to a receiver only
from a bank. -/
theorem Joins.carries {e : Edge} (joins : g.Joins e) (supply : g.TypedSupply e)
    (plain : ¬e.isControl) :
    ∃ s ∈ g.nodes, ∃ t ∈ g.operations, ∃ handle input i,
      e = .between s.id handle t.id input ∧ t.input? input = some i ∧
        s.carriedType? handle = some i.type ∧ (s.operation?.isSome → i.role ≠ .receiver) := by
  cases joins with
  | control => exact absurd (isControl_between.2 ⟨rfl, rfl⟩) plain
  | @supply s t i handle input source target ne declared =>
    obtain ⟨b, bank, rfl⟩ := List.mem_map.1 source
    obtain ⟨p, found, type⟩ := supply b bank t target handle input i rfl declared
    refine ⟨.inputBank b, mem_inputBanks.1 bank, t, target, handle, input, i, rfl, declared, ?_, ?_⟩
    · rw [Node.carriedType?, found, Option.map_some, type]
    · exact fun operation => nomatch operation
  | @feed s t i handle input source target ne plain declared role typed =>
    exact ⟨.operation s, mem_operations.1 source, t, target, handle, input, i, rfl, declared, typed,
      fun _ => role⟩

/-- **An edited graph is wired by the rules**, and connecting fails by them only.  The start has no
edges; calls that fail count, and those that declare a parameter are fresh. -/
theorem afterEdits_wiredFrom {start : FlowGraph} {edits : List Edit} (edgeFree : start.edges = [])
    (freshly : FreshEdits start edits) :
    WiredFrom start (start.afterEdits edits) ∧
      ∀ (g : FlowGraph) (fresh : ParamId) (c : Connection),
        ((∃ h, g.connect fresh c = .ok h) ↔ g.checkConnection c = .ok ()) ∧
          ∀ failure, g.connect fresh c = .error failure ↔
            ∃ reason, g.checkConnection c = .error reason ∧
              failure = .invalidConnection reason := by
  have wired := wired_afterEdits edgeFree edits
  have supplied := supplied_of_freshEdits edgeFree freshly
  have grows := growsTo_afterEdits start edits
  refine ⟨?_, fun g fresh c => ⟨exists_connect_eq_ok_iff, fun _ => connect_eq_error_iff⟩⟩
  constructor
  case landsOnce => exact wired.landsOnce
  case exitsOnce => exact supplied.exitsOnce
  case ends => exact fun e mem => (wired.joins e mem).ends
  case carries => exact fun e mem => (wired.joins e mem).carries (supplied.typed e mem)
  case ids => exact grows.ids_eq
  case operations => exact grows.operations_eq
  case grows => exact grows

/-- Two operations and a bank that already has a parameter. -/
def sketch : FlowGraph where
  nodes :=
    [.operation ((OperationNode.start "make").withOutput ⟨Handle.result, .string, none⟩),
      .operation ((OperationNode.new "use" .emitLog).withInput .receiver
        |>.withInput (.parameter "text" .string)),
      .inputBank ((InputBank.new "bank" "inputs").withParam ⟨"p", "text", .string⟩ none)]
  edges := []
  nodup_ids := by decide

/-- A control edge, a refused second one, a value, a text that arrives too late, and a receiver
that a parameter is declared for. -/
def sketchEdits : List Edit :=
  [⟨.between "make" Handle.exit "use" Handle.entry, "a"⟩,
    ⟨.between "make" Handle.exit "use" Handle.entry, "b"⟩,
    ⟨.between "make" Handle.result "use" "text", "c"⟩,
    ⟨.between "bank" "p" "use" "text", "d"⟩,
    ⟨.between "bank" Handle.newInputParam "use" Input.receiverName, "e"⟩]

/-- An operation is drawn to the next, and its result and a bank's parameter to two of its inputs.
-/
theorem sketchEdits_wiredFrom :
    sketch.edges = [] ∧ FreshEdits sketch sketchEdits ∧
      WiredFrom sketch (sketch.afterEdits sketchEdits) ∧
      (sketch.afterEdits sketchEdits).edges =
        [.control "make" "use", .between "make" Handle.result "use" "text",
          .between "bank" "e" "use" Input.receiverName] := by
  have freshly : FreshEdits sketch sketchEdits :=
    .cons (by decide) <| .cons (by decide) <| .cons (by decide) <| .cons (by decide) <|
      .cons (by decide) (.nil _)
  exact ⟨rfl, freshly, (afterEdits_wiredFrom rfl freshly).1, by decide⟩

end FlowGraph

end FlowPlan
