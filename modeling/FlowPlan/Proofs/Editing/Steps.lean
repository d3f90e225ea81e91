import FlowPlan.Flow.Wiring

/-!
# Editing — steps

What one call of an editor can do.  `g.Draws fresh c h` says, constructor by constructor, which
connections the rules accept, what they have found out when they do, and which graph `h` is drawn.

* `draws_of_checkConnection`: an accepted connection is drawn, and as `Draws` says.
* `draws_of_connect`: connecting does nothing else.
* `invariant_afterEdits`, `invariant_of_freshEdits`: what each step keeps, a run of edits keeps.

An `Edit` is one call of `connect`; `afterEdits` is the graph after a sequence of calls, of which
those that fail leave the graph as it was.
-/

namespace FlowPlan

/-- The connection asks the bank to declare a parameter. -/
def Connection.Declares (c : Connection) (b : InputBank) : Prop :=
  c.source = b.id ∧ c.sourceHandle = some Handle.newInputParam

instance (c : Connection) (b : InputBank) : Decidable (c.Declares b) :=
  inferInstanceAs (Decidable (_ ∧ _))

namespace FlowGraph

variable {g h : FlowGraph} {c : Connection} {fresh : ParamId}

/-! ### What the rules have found out -/

theorem checkType_eq_ok_iff {input : Input} {carried : ParamType} :
    checkType input carried = .ok () ↔ carried = input.type := by
  simp [checkType]

/-- Control is passed on from an exit that is free to an entry that is free. -/
theorem checkControl_eq_ok_iff {source : Node} {target : OperationNode} :
    g.checkControl source target = .ok () ↔
      (∃ s, source.operation? = some s ∧ s.hasExit) ∧ target.hasEntry ∧
        (∀ e ∈ g.edges, ¬e.leaves source.id Handle.exit) ∧
        g.isConnected target.id Handle.entry = false := by
  unfold checkControl
  cases source.operation? <;> grind

/-- A bank supplies an input that is free: with a new parameter, or with one of the input's type. -/
theorem checkSupply_eq_ok_iff {bank : InputBank} {handle : String} {target : OperationNode}
    {input : String} :
    g.checkSupply bank handle target input = .ok () ↔
      g.isConnected target.id input = false ∧ ∃ i, target.input? input = some i ∧
        (handle = Handle.newInputParam ∨
          handle ≠ Handle.newInputParam ∧ ∃ p, bank.param? handle = some p ∧ p.type = i.type) := by
  unfold checkSupply
  cases target.input? input <;> cases bank.param? handle <;>
    grind [checkType_eq_ok_iff]

/-- An output feeds an input that is free and no receiver, if it has the input's type. -/
theorem checkFeed_eq_ok_iff {producer : OperationNode} {handle : String} {target : OperationNode}
    {input : String} :
    g.checkFeed producer handle target input = .ok () ↔
      ∃ i, target.input? input = some i ∧ g.isConnected target.id input = false ∧
        i.role ≠ .receiver ∧ producer.output.bind (·.handleType? handle) = some i.type := by
  unfold checkFeed
  cases target.input? input with
  | none => simp
  | some i =>
    cases producer.output.bind (·.handleType? handle) <;> grind [checkType_eq_ok_iff]

/-- Between nodes of the graph, only the ends are checked. -/
theorem checkConnection_between {s : Node} {t : OperationNode} {handle input : String}
    (source : s ∈ g.nodes) (target : t ∈ g.operations) (ne : s.id ≠ t.id) :
    g.checkConnection (.between s.id handle t.id input) = g.checkEnds s handle t input := by
  have foundSource : g.node? s.id = some s := node?_eq_some_iff.2 ⟨source, rfl⟩
  have foundTarget : g.node? t.id = some (.operation t) :=
    node?_eq_some_iff.2 ⟨mem_operations.1 target, rfl⟩
  simp only [checkConnection, Connection.between, if_neg ne, foundSource, foundTarget]

/-- A connection is accepted exactly if it goes from a node to another, an operation, and its ends
are. -/
theorem checkConnection_eq_ok_iff :
    g.checkConnection c = .ok () ↔
      ∃ s handle t input, c = .between (Node.id s) handle (OperationNode.id t) input ∧
        s ∈ g.nodes ∧ t ∈ g.operations ∧ s.id ≠ t.id ∧ g.checkEnds s handle t input = .ok () := by
  constructor
  · intro accepted
    obtain ⟨source, sourceHandle, target, targetHandle⟩ := c
    unfold checkConnection at accepted
    split at accepted
    · next handle input hs ht =>
      cases hs
      cases ht
      split at accepted
      · cases accepted
      · next ne =>
        split at accepted
        · cases accepted
        · next s found =>
          obtain ⟨mem, rfl⟩ := node?_eq_some_iff.1 found
          split at accepted
          · cases accepted
          · cases accepted
          · next t found =>
            obtain ⟨memTarget, rfl⟩ := node?_eq_some_iff.1 found
            exact ⟨s, handle, t, input, rfl, mem, mem_operations.2 memTarget, ne, accepted⟩
    · cases accepted
  · rintro ⟨s, handle, t, input, rfl, mem, memTarget, ne, accepted⟩
    rwa [checkConnection_between mem memTarget ne]

/-! ### One step -/

/-- **What connecting does**, by the rule that accepts the connection. -/
inductive Draws (g : FlowGraph) (fresh : ParamId) : Connection → FlowGraph → Prop where
  /-- Control passes from a free exit to a free entry. -/
  | control {s t : OperationNode} (source : s ∈ g.operations) (target : t ∈ g.operations)
      (ne : s.id ≠ t.id) (hasExit : s.hasExit) (hasEntry : t.hasEntry)
      (exitFree : ∀ e ∈ g.edges, ¬e.leaves s.id Handle.exit)
      (free : g.isConnected t.id Handle.entry = false) :
      Draws g fresh (.between s.id Handle.exit t.id Handle.entry) (g.addEdge (.control s.id t.id))
  /-- A parameter of a bank supplies a free input of its type. -/
  | supply {b : InputBank} {t : OperationNode} {p : BankParam} {i : Input} {handle input : String}
      (source : b ∈ g.inputBanks) (target : t ∈ g.operations) (ne : b.id ≠ t.id)
      (plain : ¬(handle = Handle.exit ∧ input = Handle.entry))
      (old : handle ≠ Handle.newInputParam) (param : b.param? handle = some p)
      (declared : t.input? input = some i) (typed : p.type = i.type)
      (free : g.isConnected t.id input = false) :
      Draws g fresh (.between b.id handle t.id input) (g.addEdge (.between b.id handle t.id input))
  /-- A bank declares a parameter for a free input. -/
  | declare {b : InputBank} {t : OperationNode} {i : Input} {input : String}
      (source : b ∈ g.inputBanks) (target : t ∈ g.operations) (ne : b.id ≠ t.id)
      (declared : t.input? input = some i) (free : g.isConnected t.id input = false) :
      Draws g fresh (.between b.id Handle.newInputParam t.id input) (g.spawn b t i fresh input)
  /-- An output feeds a free input of its type that is not a receiver. -/
  | feed {s t : OperationNode} {i : Input} {handle input : String} (source : s ∈ g.operations)
      (target : t ∈ g.operations) (ne : s.id ≠ t.id)
      (plain : ¬(handle = Handle.exit ∧ input = Handle.entry))
      (declared : t.input? input = some i) (role : i.role ≠ .receiver)
      (typed : s.output.bind (·.handleType? handle) = some i.type)
      (free : g.isConnected t.id input = false) :
      Draws g fresh (.between s.id handle t.id input) (g.addEdge (.between s.id handle t.id input))

/-- A connection that declares no parameter is drawn as it is. -/
theorem draw_eq_addEdge {s t : NodeId} {handle input : String}
    (other : handle = Handle.newInputParam → g.inputBank? s = none) :
    g.draw fresh (.between s handle t input) = .ok (g.addEdge (.between s handle t input)) := by
  simp only [draw, Connection.between, Option.some.injEq]
  split
  · next spawning =>
    rw [other spawning]
    rfl
  · rfl

/-- A connection that declares a parameter is drawn from that one. -/
theorem draw_eq_spawn {b : InputBank} {t : OperationNode} {i : Input} {input : String}
    (source : b ∈ g.inputBanks) (target : t ∈ g.operations) (declared : t.input? input = some i) :
    g.draw fresh (.between b.id Handle.newInputParam t.id input) =
      .ok (g.spawn b t i fresh input) := by
  have foundSource : g.inputBank? b.id = some b := inputBank?_eq_some_iff.2 ⟨source, rfl⟩
  have foundTarget : g.operation? t.id = some t := operation?_eq_some_iff.2 ⟨target, rfl⟩
  simp [draw, Connection.between, foundSource, foundTarget, declared]

/-- **An accepted connection is drawn**, by the rule that accepts it. -/
theorem draws_of_checkConnection (fresh : ParamId) (accepted : g.checkConnection c = .ok ()) :
    ∃ h, g.draw fresh c = .ok h ∧ g.Draws fresh c h := by
  obtain ⟨s, handle, t, input, rfl, source, target, ne, rules⟩ :=
    checkConnection_eq_ok_iff.1 accepted
  unfold checkEnds at rules
  split at rules
  · next ends =>
    obtain ⟨rfl, rfl⟩ := ends
    obtain ⟨⟨n, isOperation, hasExit⟩, hasEntry, exitFree, free⟩ :=
      checkControl_eq_ok_iff.1 rules
    cases s with
    | inputBank b => cases isOperation
    | operation s =>
      cases isOperation
      exact ⟨_, draw_eq_addEdge (fun e => absurd e (by decide)),
        .control (mem_operations.2 source) target ne hasExit hasEntry exitFree free⟩
  · next plain =>
    cases s with
    | inputBank b =>
      have source := mem_inputBanks.2 source
      obtain ⟨free, i, declared, rfl | ⟨old, p, param, typed⟩⟩ := checkSupply_eq_ok_iff.1 rules
      · exact ⟨_, draw_eq_spawn source target declared, .declare source target ne declared free⟩
      · exact ⟨_, draw_eq_addEdge (fun e => absurd e old),
          .supply source target ne plain old param declared typed free⟩
    | operation s =>
      have source := mem_operations.2 source
      obtain ⟨i, declared, free, role, typed⟩ := checkFeed_eq_ok_iff.1 rules
      exact ⟨_, draw_eq_addEdge (fun _ => inputBank?_of_mem_operations source),
        .feed source target ne plain declared role typed free⟩

theorem draws_of_connect (connected : g.connect fresh c = .ok h) : g.Draws fresh c h := by
  unfold connect at connected
  split at connected
  · cases connected
  · next accepted =>
    obtain ⟨k, drawn, draws⟩ := draws_of_checkConnection fresh accepted
    rw [drawn] at connected
    cases connected
    exact draws

/-- **A connection is drawn exactly if it is accepted.** -/
theorem exists_connect_eq_ok_iff :
    (∃ h, g.connect fresh c = .ok h) ↔ g.checkConnection c = .ok () := by
  unfold connect
  split
  · next reason refused => simp [refused]
  · next accepted =>
    obtain ⟨k, drawn, -⟩ := draws_of_checkConnection fresh accepted
    simp [accepted, drawn]

/-- The rules are all that connecting can fail by. -/
theorem connect_eq_error_iff {failure : EditError} :
    g.connect fresh c = .error failure ↔
      ∃ reason, g.checkConnection c = .error reason ∧ failure = .invalidConnection reason := by
  unfold connect
  split
  · next reason refused => simp [refused, eq_comm]
  · next accepted =>
    obtain ⟨k, drawn, -⟩ := draws_of_checkConnection fresh accepted
    simp [accepted, drawn]

/-! ### Many steps -/

/-- One call of `connect`: the connection, and the identifier for a parameter that the call may
have to declare. -/
structure Edit where
  connection : Connection
  fresh : ParamId

/-- The graph after a call.  One that fails leaves the graph as it was. -/
def edit (g : FlowGraph) (e : Edit) : FlowGraph :=
  match g.connect e.fresh e.connection with
  | .ok h => h
  | .error _ => g

/-- The graph after a sequence of calls. -/
def afterEdits (g : FlowGraph) (edits : List Edit) : FlowGraph :=
  edits.foldl edit g

/-- A parameter that the call declares gets an identifier that its bank does not use. -/
def Edit.IsFresh (g : FlowGraph) (e : Edit) : Prop :=
  ∀ b ∈ g.inputBanks, e.connection.Declares b → (g.checkConnection e.connection).isOk →
    b.param? e.fresh = none

instance (g : FlowGraph) (e : Edit) : Decidable (e.IsFresh g) :=
  inferInstanceAs (Decidable (∀ b ∈ g.inputBanks, _ → _ → _))

/-- Each call of the sequence is fresh for the graph that it finds. -/
inductive FreshEdits : FlowGraph → List Edit → Prop where
  | nil (g : FlowGraph) : FreshEdits g []
  | cons {g : FlowGraph} {e : Edit} {edits : List Edit} (fresh : e.IsFresh g)
      (rest : FreshEdits (g.edit e) edits) : FreshEdits g (e :: edits)

/-- An edit changes nothing, or draws what is accepted. -/
theorem edit_cases (g : FlowGraph) (e : Edit) :
    g.edit e = g ∨ g.checkConnection e.connection = .ok () ∧
      g.Draws e.fresh e.connection (g.edit e) := by
  unfold edit
  split
  · next h connected =>
    exact .inr ⟨exists_connect_eq_ok_iff.1 ⟨h, connected⟩, draws_of_connect connected⟩
  · exact .inl rfl

/-- What every step keeps holds after every sequence of edits. -/
theorem invariant_afterEdits {P : FlowGraph → Prop}
    (step : ∀ {g h : FlowGraph} {c : Connection} {fresh : ParamId}, P g → g.Draws fresh c h → P h)
    (initial : P g) (edits : List Edit) : P (g.afterEdits edits) := by
  unfold afterEdits
  induction edits generalizing g with
  | nil => exact initial
  | cons e edits ih =>
    refine ih ?_
    rcases g.edit_cases e with same | ⟨-, draws⟩
    · rwa [same]
    · exact step initial draws

/-- What every step keeps that declares parameters freshly. -/
theorem invariant_of_freshEdits {P : FlowGraph → Prop}
    (step : ∀ {g h : FlowGraph} {c : Connection} {fresh : ParamId}, P g →
      Edit.IsFresh g ⟨c, fresh⟩ → g.checkConnection c = .ok () → g.Draws fresh c h → P h)
    (initial : P g) {edits : List Edit} (freshly : FreshEdits g edits) :
    P (g.afterEdits edits) := by
  unfold afterEdits
  induction freshly with
  | nil => exact initial
  | @cons g e _ fresh _ ih =>
    refine ih ?_
    rcases g.edit_cases e with same | ⟨accepted, draws⟩
    · rwa [same]
    · exact step initial fresh accepted draws

end FlowGraph

end FlowPlan
