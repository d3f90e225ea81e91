import FlowPlan.Proofs.Arguments.Landing

/-!
# Arguments — accepted connections

A connection that the rules accept is there so that its target takes its argument from its source.
It does, in every graph that an editor draws over built nodes, whatever the templates call their
arguments (`connection_honoured`), but for one name.  An argument may be called `entry`, as the
handle is where control enters.  The rules let an output feed it, since only an edge from `exit` to
`entry` is a control edge to them; assembly takes nothing from an operation under that name, since
no edge to `entry` is a data edge to it.  A bank may supply it: assembly asks nothing of edges that
leave a bank.

* `FromPalette`: the operations that an editor can build.
* `drawnEdge`: the edge that a connection becomes.
* `Wired.takes_of_draws`: what the target takes its argument from, after one step.

The other reserved name makes no difference, as no built operation has an output called `exit`
(`FromPalette.output_ne`).
-/

namespace FlowPlan

/-- An operation that a constructor has built, a call from the function of some template, with
values that were typed in since. -/
inductive FromPalette : OperationNode → Prop where
  | call {t : Template} {address : String} {id : NodeId} {name : String} {n : OperationNode}
      (built : t.callNode? address id name = some n) : FromPalette n
  | start (id : NodeId) : FromPalette (.start id)
  | emitLog (id : NodeId) : FromPalette (.emitLog id)
  | assertBucketContains (id : NodeId) : FromPalette (.assertBucketContains id)
  | allocateComponentAddress (id : NodeId) : FromPalette (.allocateComponentAddress id)
  | allocateResourceAddress (id : NodeId) : FromPalette (.allocateResourceAddress id)
  | withValue {n : OperationNode} (built : FromPalette n) (input : String) (value : StoredValue) :
      FromPalette (n.withValue input value)

/-- A call node has the output of its function, whole. -/
theorem output_of_callNode? {t : Template} {address : String} {id : NodeId} {name : String}
    {n : OperationNode} (built : t.callNode? address id name = some n) :
    ∃ f, t.function? name = some f ∧ n.output = some ⟨Handle.result, f.output, none⟩ := by
  obtain ⟨f, found, same⟩ := Option.bind_eq_some_iff.1 built
  cases same
  exact ⟨f, found, rfl⟩

/-- No built operation has an output with the name of an exit. -/
theorem FromPalette.output_ne {n : OperationNode} (built : FromPalette n) :
    ∀ o ∈ n.output, o.name ≠ Handle.exit := by
  induction built with
  | call built =>
    obtain ⟨f, -, output⟩ := output_of_callNode? built
    rintro o mem
    cases output.symm.trans mem
    simp [Handle.result, Handle.exit]
  | start | emitLog | assertBucketContains => exact fun o mem => nomatch mem
  | allocateComponentAddress | allocateResourceAddress =>
    rintro o mem
    cases mem
    simp [Handle.exit]
  | withValue _ _ _ ih => exact ih

namespace FlowGraph

variable {g h : FlowGraph} {c : Connection} {fresh : ParamId}

/-! ### The edge of a connection -/

/-- The handle that the edge of a connection leaves: a parameter that a bank declares for it, or the
handle that it names. -/
def leavingHandle (g : FlowGraph) (fresh : ParamId) (c : Connection) : String :=
  if c.sourceHandle = some Handle.newInputParam ∧ (g.inputBank? c.source).isSome then fresh
  else c.sourceHandle.getD ""

/-- The edge that a connection becomes. -/
def drawnEdge (g : FlowGraph) (fresh : ParamId) (c : Connection) : Edge :=
  .between c.source (g.leavingHandle fresh c) c.target (c.targetHandle.getD "")

theorem drawnEdge_of_operation {s : OperationNode} {t : NodeId} {handle input : String}
    (source : s ∈ g.operations) :
    g.drawnEdge fresh (.between s.id handle t input) = .between s.id handle t input := by
  have noBank : g.inputBank? s.id = none := inputBank?_of_mem_operations source
  simp [drawnEdge, leavingHandle, Connection.between, noBank]

theorem drawnEdge_of_param {s t : NodeId} {handle input : String}
    (old : handle ≠ Handle.newInputParam) :
    g.drawnEdge fresh (.between s handle t input) = .between s handle t input := by
  simp [drawnEdge, leavingHandle, Connection.between, old]

/-- A connection that declares a parameter is drawn from it. -/
theorem drawnEdge_of_declares {b : InputBank} {t : NodeId} {input : String}
    (source : b ∈ g.inputBanks) :
    g.drawnEdge fresh (.between b.id Handle.newInputParam t input) =
      .between b.id fresh t input := by
  have found : g.inputBank? b.id = some b := inputBank?_eq_some_iff.2 ⟨source, rfl⟩
  simp [drawnEdge, leavingHandle, Connection.between, found]

/-- **A connection that is drawn becomes one edge**, the last one. -/
theorem Draws.edges_eq (draws : g.Draws fresh c h) :
    h.edges = g.edges ++ [g.drawnEdge fresh c] := by
  cases draws with
  | control source => rw [drawnEdge_of_operation source]; rfl
  | supply _ _ _ _ old => rw [drawnEdge_of_param old]; rfl
  | declare source => rw [drawnEdge_of_declares source]; rfl
  | feed source => rw [drawnEdge_of_operation source]; rfl

/-! ### What the target takes -/

/-- The connection leads from an operation to an input with the name of an entry. -/
def FeedsEntry (g : FlowGraph) (c : Connection) : Prop :=
  (g.operation? c.source).isSome ∧ c.targetHandle = some Handle.entry

/-- A bank is no operation, so a connection from one feeds no entry. -/
theorem not_feedsEntry_of_bank {b : InputBank} (bank : b ∈ g.inputBanks) (source : c.source = b.id) :
    ¬g.FeedsEntry c := by
  rintro ⟨operation, -⟩
  obtain ⟨n, mem, same⟩ := List.mem_map.1 (isSome_operation?.1 operation)
  exact inputBank_id_ne bank mem (source.symm.trans same.symm)

/-- Once a connection has become an edge, its target is an input of `n`, which takes its argument from
the edge, unless that leads from an operation to an input with the name of an entry. -/
structure Takes (g h : FlowGraph) (c : Connection) (e : Edge) (n : OperationNode)
    (input : String) : Prop where
  target : c.target = n.id
  handle : c.targetHandle = some input
  declared : (n.input? input).isSome
  fromEdge : ¬g.FeedsEntry c → h.TakenFrom n input e (h.argument n input)
  /-- Then the argument is what is stored on the node. -/
  fromStore : g.FeedsEntry c → h.argument n input = .literal (n.storedData input)

/-- Every step that draws no control edge gives its target the argument. -/
theorem Wired.takes_of_draws (wired : g.Wired)
    (noExit : ∀ n ∈ g.operations, ∀ o ∈ n.output, o.name ≠ Handle.exit)
    (draws : g.Draws fresh c h)
    (plain : ¬(c.sourceHandle = some Handle.exit ∧ c.targetHandle = some Handle.entry)) :
    ∃ n ∈ h.operations, ∃ input, g.Takes h c (g.drawnEdge fresh c) n input := by
  have wiredAfter := wired.step draws
  have operations := draws.growsTo.operations_eq
  have mem : g.drawnEdge fresh c ∈ h.edges := by simp [draws.edges_eq]
  cases draws with
  | control => exact absurd ⟨rfl, rfl⟩ plain
  | @supply b t p i handle input bank target _ _ old param declared =>
    rw [drawnEdge_of_param old] at mem ⊢
    refine ⟨t, target, input, rfl, rfl, by simp [declared], fun _ => ?_, fun feeds => ?_⟩
    · exact wiredAfter.takenFrom_of_param bank param mem
    · exact absurd feeds (not_feedsEntry_of_bank bank rfl)
  | @declare b t i input bank target _ declared =>
    rw [drawnEdge_of_declares bank] at mem ⊢
    refine ⟨t, operations ▸ target, input, rfl, rfl, by simp [declared], fun _ => ?_,
      fun feeds => ?_⟩
    · obtain ⟨p, param⟩ := exists_param?_spawned b i fresh
      have taken := wiredAfter.takenFrom_of_param (mem_inputBanks_spawn bank) param mem
      exact taken
    · exact absurd feeds (not_feedsEntry_of_bank bank rfl)
  | @feed s t i handle input source target _ _ declared role typed =>
    rw [drawnEdge_of_operation source] at mem ⊢
    refine ⟨t, target, input, rfl, rfl, by simp [declared], fun other => ?_, fun feeds => ?_⟩
    · have notEntry : input ≠ Handle.entry := by
        rintro rfl
        exact other ⟨isSome_operation?.2 (List.mem_map_of_mem source), rfl⟩
      exact wiredAfter.takenFrom_of_output source target declared role typed (noExit s source)
        notEntry mem
    · obtain rfl : input = Handle.entry := Option.some.inj feeds.2
      -- No edge to an entry is a data edge.
      exact argument_of_noArg (wiredAfter.edgesTo_eq mem (landsOn_iff.2 ⟨rfl, rfl⟩))
        (bankArg?_of_operation source rfl) (by simp [isDataFeed, Edge.isData, Edge.between])

/-- **An accepted connection is honoured, unless it feeds an entry.**  In the graph of a run of edits
over built operations, and under whichever templates, every further connection that the rules accept
and that passes no control on becomes one edge, and its target takes its argument from there: from
the parameter of the bank, or from what the operation leaves in the workspace.  Only where an
operation feeds an input with the name of an entry, the target keeps what is stored on it.  The start
has no edges; calls that fail count. -/
theorem connection_honoured {start h : FlowGraph} {edits : List Edit} {fresh : ParamId}
    {c : Connection} (edgeFree : start.edges = []) (built : ∀ n ∈ start.operations, FromPalette n)
    (connected : (start.afterEdits edits).connect fresh c = .ok h)
    (plain : ¬(c.sourceHandle = some Handle.exit ∧ c.targetHandle = some Handle.entry)) :
    h.edges = (start.afterEdits edits).edges ++ [(start.afterEdits edits).drawnEdge fresh c] ∧
      ∃ n ∈ h.operations, ∃ input,
        (start.afterEdits edits).Takes h c ((start.afterEdits edits).drawnEdge fresh c) n input := by
  have draws := draws_of_connect connected
  refine ⟨draws.edges_eq, (wired_afterEdits edgeFree edits).takes_of_draws ?_ draws plain⟩
  intro n operation
  rw [(growsTo_afterEdits start edits).operations_eq] at operation
  exact (built n operation).output_ne

/-- Exports a function that makes a text, and one that takes two. -/
def letters : Template where
  name := "T"
  functions :=
    [⟨"make", [], .string⟩, ⟨"take", [⟨"entry", .string⟩, ⟨"name", .string⟩], .unit⟩]

/-- A call of each function, and a bank. -/
def lettersFlow : FlowGraph where
  nodes :=
    [.operation ((letters.callNode? "t" "make" "make").get rfl),
      .operation ((letters.callNode? "t" "take" "take").get rfl),
      .inputBank (.new "bank" "inputs")]
  edges := []
  nodup_ids := by decide

theorem fromPalette_lettersFlow : ∀ n ∈ lettersFlow.operations, FromPalette n := by
  intro n operation
  rcases List.mem_pair.1 operation with rfl | rfl
  · exact .call (Option.some_get _).symm
  · exact .call (Option.some_get _).symm

/-- The bank is to supply the argument called `entry`. -/
def lettersEdits : List Edit :=
  [⟨.between "bank" Handle.newInputParam "take" Handle.entry, "p"⟩]

/-- The text that is made is to be the argument called `name`. -/
def makeToName : Connection :=
  .between "make" Handle.result "take" "name"

/-- In `lettersFlow`, the operation takes what the connection brings. -/
theorem lettersFlow_connection_honoured :
    lettersFlow.edges = [] ∧ (∀ n ∈ lettersFlow.operations, FromPalette n) ∧
      ¬(makeToName.sourceHandle = some Handle.exit ∧
        makeToName.targetHandle = some Handle.entry) ∧
      ∃ h, (lettersFlow.afterEdits lettersEdits).connect "q" makeToName = .ok h ∧
        h.edges = (lettersFlow.afterEdits lettersEdits).edges ++
          [(lettersFlow.afterEdits lettersEdits).drawnEdge "q" makeToName] ∧
        ∃ n ∈ h.operations, ∃ input, (lettersFlow.afterEdits lettersEdits).Takes h makeToName
          ((lettersFlow.afterEdits lettersEdits).drawnEdge "q" makeToName) n input :=
  ⟨rfl, fromPalette_lettersFlow, by decide, _, rfl,
    connection_honoured rfl fromPalette_lettersFlow rfl (by decide)⟩

/-- Not every accepted connection is honoured: `make` may be connected to the argument called
`entry`, which then keeps what is stored, and nothing is. -/
theorem exists_connection_not_honoured :
    ¬∀ (start h : FlowGraph) (edits : List Edit) (fresh : ParamId) (c : Connection),
      start.edges = [] → (∀ n ∈ start.operations, FromPalette n) →
      (start.afterEdits edits).connect fresh c = .ok h →
      ¬(c.sourceHandle = some Handle.exit ∧ c.targetHandle = some Handle.entry) →
      ∀ n ∈ h.operations, ∀ input, c.target = n.id → c.targetHandle = some input →
        ∀ value, h.argument n input ≠ .literal value := by
  intro honoured
  have kept := honoured lettersFlow _ [] "q" (.between "make" Handle.result "take" Handle.entry)
    rfl fromPalette_lettersFlow rfl (by decide) ((letters.callNode? "t" "take" "take").get rfl)
    (by decide) Handle.entry rfl rfl .null
  exact kept rfl

end FlowGraph

end FlowPlan
