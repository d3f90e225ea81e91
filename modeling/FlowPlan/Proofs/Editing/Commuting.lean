import FlowPlan.Proofs.Editing.Stability

/-!
# Editing — connections that commute

Two connections that the rules accept in one graph compete for what they claim of it: the handle
that they land on, and, where they pass control on, the exit that they leave.

* `checkConnection_addEdge`: what the rules say of an accepted connection once a further edge is
  drawn.  All that an edge can do to it is to claim its exit or its input.
* `afterEdits_of_independent`: connections that claim different things are all drawn, in whatever
  order they are made.
* `independent_connections_commute`: two that do are drawn in either order, and of two that compete
  the second is refused.

A connection that declares a parameter changes a node as well, and is left out here.
-/

namespace FlowPlan

namespace Connection

/-- The connections land on one handle. -/
def SharesInput (c d : Connection) : Prop :=
  c.target = d.target ∧ c.targetHandle = d.targetHandle

/-- The connections leave the exit of one node. -/
def SharesExit (c d : Connection) : Prop :=
  c.source = d.source ∧ c.sourceHandle = some Handle.exit ∧ d.sourceHandle = some Handle.exit

/-- The connections pass control on from one node. -/
def SharesControl (c d : Connection) : Prop :=
  c.source = d.source ∧ c.toEdge.isControl ∧ d.toEdge.isControl

/-- The connections claim nothing that is the same. -/
def Independent (c d : Connection) : Prop :=
  ¬c.SharesInput d ∧ ¬c.SharesExit d

instance (c d : Connection) : Decidable (c.SharesInput d) :=
  inferInstanceAs (Decidable (_ ∧ _))

instance (c d : Connection) : Decidable (c.SharesExit d) :=
  inferInstanceAs (Decidable (_ ∧ _))

instance (c d : Connection) : Decidable (c.SharesControl d) :=
  inferInstanceAs (Decidable (_ ∧ _))

instance (c d : Connection) : Decidable (c.Independent d) :=
  inferInstanceAs (Decidable (_ ∧ _))

variable {c d : Connection}

theorem SharesInput.symm (shares : c.SharesInput d) : d.SharesInput c :=
  ⟨shares.1.symm, shares.2.symm⟩

theorem SharesExit.symm (shares : c.SharesExit d) : d.SharesExit c :=
  ⟨shares.1.symm, shares.2.2, shares.2.1⟩

theorem SharesControl.symm (shares : c.SharesControl d) : d.SharesControl c :=
  ⟨shares.1.symm, shares.2.2, shares.2.1⟩

theorem Independent.symm (independent : c.Independent d) : d.Independent c :=
  ⟨fun shares => independent.1 shares.symm, fun shares => independent.2 shares.symm⟩

end Connection

namespace FlowGraph

variable {g h : FlowGraph} {c d : Connection} {e : Edge} {fresh fresh' : ParamId}

/-! ### One more edge -/

/-- An edge more occupies the input on which it lands. -/
theorem isConnected_addEdge {node : NodeId} {input : String} :
    (g.addEdge e).isConnected node input = (g.isConnected node input || e.landsOn node input) := by
  simp [isConnected, addEdge]

/-- A control connection is still accepted behind an edge that takes neither its exit nor its entry.
-/
theorem checkControl_addEdge {source : Node} {target : OperationNode}
    (accepted : g.checkControl source target = .ok ()) :
    (g.addEdge e).checkControl source target =
      if e.leaves source.id Handle.exit then .error (.exitTaken source.id)
      else if e.landsOn target.id Handle.entry then .error (.inputTaken target.id Handle.entry)
      else .ok () := by
  obtain ⟨⟨s, operation, hasExit⟩, hasEntry, exitFree, free⟩ := checkControl_eq_ok_iff.1 accepted
  have left : (g.addEdge e).edges.any (·.leaves source.id Handle.exit) =
      e.leaves source.id Handle.exit := by
    simp [addEdge, List.any_append, List.any_eq_false.2 exitFree]
  simp only [checkControl, operation, Option.any_some, hasExit, hasEntry, left, isConnected_addEdge,
    free, Bool.false_or, Bool.not_true, Bool.false_eq_true, if_false]

/-- A supply from a bank is still accepted behind an edge that lands elsewhere. -/
theorem checkSupply_addEdge {bank : InputBank} {handle : String} {target : OperationNode}
    {input : String} (accepted : g.checkSupply bank handle target input = .ok ()) :
    (g.addEdge e).checkSupply bank handle target input =
      if e.landsOn target.id input then .error (.inputTaken target.id input) else .ok () := by
  have free := (checkSupply_eq_ok_iff.1 accepted).1
  rw [checkSupply, free, if_neg Bool.false_ne_true] at accepted
  rw [checkSupply, isConnected_addEdge, free, Bool.false_or, accepted]

theorem checkFeed_addEdge {producer : OperationNode} {handle : String} {target : OperationNode}
    {input : String} (accepted : g.checkFeed producer handle target input = .ok ()) :
    (g.addEdge e).checkFeed producer handle target input =
      if e.landsOn target.id input then .error (.inputTaken target.id input) else .ok () := by
  obtain ⟨i, declared, free, role, typed⟩ := checkFeed_eq_ok_iff.1 accepted
  simp [checkFeed, declared, isConnected_addEdge, free, role, typed, checkType]

theorem checkEnds_addEdge {source : Node} {handle : String} {target : OperationNode}
    {input : String} (accepted : g.checkEnds source handle target input = .ok ()) :
    (g.addEdge e).checkEnds source handle target input =
      if (handle = Handle.exit ∧ input = Handle.entry) ∧ e.leaves source.id Handle.exit then
        .error (.exitTaken source.id)
      else if e.landsOn target.id input then .error (.inputTaken target.id input)
      else .ok () := by
  unfold checkEnds at accepted ⊢
  split
  · next control =>
    rw [if_pos control] at accepted
    rw [checkControl_addEdge accepted, control.2]
    simp only [control.1, true_and]
  · next plain =>
    rw [if_neg plain] at accepted
    rw [if_neg fun both => plain both.1]
    cases source with
    | inputBank b => exact checkSupply_addEdge accepted
    | operation n => exact checkFeed_addEdge accepted

/-- **What one more edge does to an accepted connection**: it may claim its exit, if the connection
passes control on, or its input. -/
theorem checkConnection_addEdge (accepted : g.checkConnection c = .ok ()) :
    ∃ input, c.targetHandle = some input ∧
      (g.addEdge e).checkConnection c =
        if c.toEdge.isControl ∧ e.leaves c.source Handle.exit then .error (.exitTaken c.source)
        else if e.landsOn c.target input then .error (.inputTaken c.target input)
        else .ok () := by
  obtain ⟨s, handle, t, input, rfl, source, target, ne, rules⟩ :=
    checkConnection_eq_ok_iff.1 accepted
  refine ⟨input, rfl, ?_⟩
  have control : (Connection.between s.id handle t.id input).toEdge.isControl ↔
      handle = Handle.exit ∧ input = Handle.entry := isControl_between
  have checked : (g.addEdge e).checkConnection (.between s.id handle t.id input) =
      (g.addEdge e).checkEnds s handle t input := checkConnection_between source target ne
  rw [checked, checkEnds_addEdge rules]
  simp only [control]
  rfl

/-! ### One more connection -/

/-- The edge of an accepted connection joins the handles that it names. -/
theorem handles_toEdge (accepted : g.checkConnection c = .ok ()) :
    c.toEdge.sourceHandle = c.sourceHandle ∧ c.toEdge.targetHandle = c.targetHandle := by
  obtain ⟨s, handle, t, input, rfl, -⟩ := checkConnection_eq_ok_iff.1 accepted
  exact ⟨rfl, rfl⟩

/-- Control passes on from what both leave, if they land on one handle and one of them passes it
on. -/
theorem sharesControl_of_leaves (accepted : g.checkConnection c = .ok ())
    (accepted' : g.checkConnection d = .ok ()) (shares : c.SharesInput d)
    (control : d.toEdge.isControl) (leaves : c.toEdge.leaves d.source Handle.exit) :
    c.SharesControl d := by
  obtain ⟨source, exit⟩ := leaves_iff.1 leaves
  have entry : c.toEdge.targetHandle = some Handle.entry :=
    calc c.toEdge.targetHandle = c.targetHandle := (handles_toEdge accepted).2
      _ = d.targetHandle := shares.2
      _ = d.toEdge.targetHandle := (handles_toEdge accepted').2.symm
      _ = some Handle.entry := (Edge.isControl_iff.1 control).2
  exact ⟨source, Edge.isControl_iff.2 ⟨exit, entry⟩, control⟩

/-- What claims nothing of an accepted connection leaves it accepted. -/
theorem checkConnection_addEdge_of_independent (accepted : g.checkConnection c = .ok ())
    (accepted' : g.checkConnection d = .ok ()) (independent : c.Independent d) :
    (g.addEdge c.toEdge).checkConnection d = .ok () := by
  obtain ⟨input, handle, checked⟩ := checkConnection_addEdge (e := c.toEdge) accepted'
  obtain ⟨leftBy, landedOn⟩ := handles_toEdge accepted
  rw [checked, if_neg, if_neg]
  · intro lands
    obtain ⟨target, targetHandle⟩ := landsOn_iff.1 lands
    exact independent.1 ⟨target, landedOn.symm.trans (targetHandle.trans handle.symm)⟩
  · rintro ⟨control, leaves⟩
    obtain ⟨source, exit⟩ := leaves_iff.1 leaves
    have exit' := (Edge.isControl_iff.1 control).1
    exact independent.2
      ⟨source, leftBy.symm.trans exit, (handles_toEdge accepted').1.symm.trans exit'⟩

/-- What claims the input or the exit of an accepted connection gets it refused, for the exit if
both pass control on. -/
theorem checkConnection_addEdge_of_shares (accepted : g.checkConnection c = .ok ())
    (accepted' : g.checkConnection d = .ok ()) (shares : c.SharesInput d ∨ c.SharesControl d) :
    ∃ input, d.targetHandle = some input ∧ (g.addEdge c.toEdge).checkConnection d =
      .error (if c.SharesControl d then .exitTaken d.source else .inputTaken d.target input) := by
  obtain ⟨input, handle, checked⟩ := checkConnection_addEdge (e := c.toEdge) accepted'
  refine ⟨input, handle, ?_⟩
  by_cases both : c.SharesControl d
  · rw [checked, if_pos both, if_pos ⟨both.2.2, leaves_of_isControl both.2.1 both.1⟩]
  · -- the input is taken, and the exit is not: else both would pass control on
    have sharesInput := shares.resolve_right both
    have lands : c.toEdge.landsOn d.target input := landsOn_iff.2
      ⟨sharesInput.1, (handles_toEdge accepted).2.trans (sharesInput.2.trans handle)⟩
    have other : ¬(d.toEdge.isControl ∧ c.toEdge.leaves d.source Handle.exit) := fun taken =>
      both (sharesControl_of_leaves accepted accepted' sharesInput taken.1 taken.2)
    rw [checked, if_neg both, if_neg other, if_pos lands]

/-- An accepted connection that declares no parameter is drawn as it stands. -/
theorem connect_eq_addEdge (accepted : g.checkConnection c = .ok ())
    (old : ∀ b ∈ g.inputBanks, ¬c.Declares b) : g.connect fresh c = .ok (g.addEdge c.toEdge) := by
  obtain ⟨h, connected⟩ : ∃ h, g.connect fresh c = .ok h := exists_connect_eq_ok_iff.2 accepted
  have drawn : h = g.addEdge c.toEdge := by
    cases draws_of_connect connected with
    | control | supply | feed => rfl
    | declare bank => exact absurd ⟨rfl, rfl⟩ (old _ bank)
  rw [connected, drawn]

/-! ### Many connections -/

/-- **Connections that claim different things are all drawn**, if the rules accept each of them at
the start and none of them declares a parameter. -/
theorem afterEdits_of_independent {edits : List Edit}
    (accepted : ∀ e ∈ edits, g.checkConnection e.connection = .ok ())
    (old : ∀ e ∈ edits, ∀ b ∈ g.inputBanks, ¬e.connection.Declares b)
    (independent : edits.Pairwise fun e f => e.connection.Independent f.connection) :
    g.afterEdits edits = { g with edges := g.edges ++ edits.map (·.connection.toEdge) } := by
  induction edits generalizing g with
  | nil => exact ext rfl (List.append_nil _).symm
  | cons e edits ih =>
    obtain ⟨first, rest⟩ := List.pairwise_cons.1 independent
    have acceptedFirst := accepted e List.mem_cons_self
    have edited : g.edit e = g.addEdge e.connection.toEdge := by
      rw [edit, connect_eq_addEdge acceptedFirst (old e List.mem_cons_self)]
    have stillAccepted (f : Edit) (mem : f ∈ edits) :
        (g.addEdge e.connection.toEdge).checkConnection f.connection = .ok () :=
      checkConnection_addEdge_of_independent acceptedFirst
        (accepted f (List.mem_cons_of_mem e mem)) (first f mem)
    -- the banks are those of `g`, so that the others declare nothing either
    have drawn := ih stillAccepted (fun f mem => old f (List.mem_cons_of_mem e mem)) rest
    rw [afterEdits, List.foldl_cons, edited, ← afterEdits, drawn]
    exact ext rfl (List.append_assoc ..)

/-- The connections are drawn in either order, which comes to the same nodes and, up to their order,
the same edges. -/
def Commute (g : FlowGraph) (c d : Connection) : Prop :=
  ∀ fresh fresh', ∃ h k,
    (∃ first, g.connect fresh c = .ok first ∧ first.connect fresh' d = .ok h) ∧
    (∃ first, g.connect fresh' d = .ok first ∧ first.connect fresh c = .ok k) ∧
    h.nodes = k.nodes ∧ h.edges.Perm k.edges

/-- Once the first connection is drawn, the second is refused: for the exit, if both pass control on
from one node, and else for the input. -/
def Excludes (g : FlowGraph) (c d : Connection) : Prop :=
  ∀ fresh fresh', ∃ h input, g.connect fresh c = .ok h ∧ d.targetHandle = some input ∧
    h.connect fresh' d = .error (.invalidConnection
      (if c.SharesControl d then .exitTaken d.source else .inputTaken d.target input))

/-- **Independent connections can be drawn one behind the other.** -/
theorem exists_connect_connect_eq (accepted : g.checkConnection c = .ok ())
    (accepted' : g.checkConnection d = .ok ()) (old : ∀ b ∈ g.inputBanks, ¬c.Declares b)
    (old' : ∀ b ∈ g.inputBanks, ¬d.Declares b) (independent : c.Independent d) :
    ∃ first, g.connect fresh c = .ok first ∧
      first.connect fresh' d = .ok ((g.addEdge c.toEdge).addEdge d.toEdge) := by
  have acceptedNext := checkConnection_addEdge_of_independent accepted accepted' independent
  exact ⟨_, connect_eq_addEdge accepted old, connect_eq_addEdge acceptedNext old'⟩

/-- **Connections that share an end exclude each other.** -/
theorem excludes_of_shares (accepted : g.checkConnection c = .ok ())
    (accepted' : g.checkConnection d = .ok ()) (old : ∀ b ∈ g.inputBanks, ¬c.Declares b)
    (shares : c.SharesInput d ∨ c.SharesControl d) : g.Excludes c d := by
  intro fresh fresh'
  obtain ⟨input, handle, refused⟩ := checkConnection_addEdge_of_shares accepted accepted' shares
  exact ⟨_, input, connect_eq_addEdge accepted old, handle,
    connect_eq_error_iff.2 ⟨_, refused, rfl⟩⟩

/-- **Independent connections commute**: of two that the rules accept in a graph, and that declare
no parameter, those that neither land on one handle nor leave the exit of one node.  If they land on
one handle, or pass control on from one node, either is refused after the other. -/
theorem independent_connections_commute (accepted : g.checkConnection c = .ok ())
    (accepted' : g.checkConnection d = .ok ()) (old : ∀ b ∈ g.inputBanks, ¬c.Declares b)
    (old' : ∀ b ∈ g.inputBanks, ¬d.Declares b) :
    (c.Independent d → g.Commute c d) ∧
      (c.SharesInput d ∨ c.SharesControl d → g.Excludes c d ∧ g.Excludes d c) := by
  constructor
  · intro independent fresh fresh'
    refine ⟨(g.addEdge c.toEdge).addEdge d.toEdge, (g.addEdge d.toEdge).addEdge c.toEdge,
      exists_connect_connect_eq accepted accepted' old old' independent,
      exists_connect_connect_eq accepted' accepted old' old independent.symm, rfl, ?_⟩
    simp only [addEdge, List.append_assoc]
    exact (List.Perm.swap _ _ []).append_left g.edges
  · intro shares
    exact ⟨excludes_of_shares accepted accepted' old shares,
      excludes_of_shares accepted' accepted old' (shares.imp (·.symm) (·.symm))⟩

/-- Control is to pass from the first operation. -/
def passOn (target : NodeId) : Connection :=
  .between "a" Handle.exit target Handle.entry

/-- A value is to be passed to the second operation. -/
def supplyFrom (source : NodeId) : Connection :=
  .between source Handle.result "b" "in"

/-- Control and a value go to one operation in either order, but control goes to one operation only
and an input takes one value only. -/
theorem row_connections_commute :
    ((passOn "b").Independent (supplyFrom "a") ∧ row.Commute (passOn "b") (supplyFrom "a")) ∧
      ((passOn "b").SharesControl (passOn "c") ∧
        row.Excludes (passOn "b") (passOn "c") ∧ row.Excludes (passOn "c") (passOn "b")) ∧
      ((supplyFrom "a").SharesInput (supplyFrom "c") ∧
        row.Excludes (supplyFrom "a") (supplyFrom "c") ∧
        row.Excludes (supplyFrom "c") (supplyFrom "a")) := by
  have noBank (c : Connection) : ∀ b ∈ row.inputBanks, ¬c.Declares b := nofun
  have independent : (passOn "b").Independent (supplyFrom "a") := by decide
  have sharesControl : (passOn "b").SharesControl (passOn "c") := by decide
  have sharesInput : (supplyFrom "a").SharesInput (supplyFrom "c") := by decide
  have first := independent_connections_commute (g := row) (c := passOn "b") (d := supplyFrom "a")
    rfl rfl (noBank _) (noBank _)
  have second := independent_connections_commute (g := row) (c := passOn "b") (d := passOn "c")
    rfl rfl (noBank _) (noBank _)
  have third := independent_connections_commute (g := row) (c := supplyFrom "a")
    (d := supplyFrom "c") rfl rfl (noBank _) (noBank _)
  exact ⟨⟨independent, first.1 independent⟩, ⟨sharesControl, second.2 (.inr sharesControl)⟩,
    ⟨sharesInput, third.2 (.inl sharesInput)⟩⟩

end FlowGraph

end FlowPlan
