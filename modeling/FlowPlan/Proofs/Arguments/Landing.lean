import FlowPlan.Proofs.Editing.Wired
import FlowPlan.Proofs.Workspace.Blocks

/-!
# Arguments — the edge that lands on an input

On a wired graph at most one edge lands on an input, so that it alone decides what the input takes
its argument from.  The rules have let it join what it joins, and assembly, which looks at the same
edge with tests of its own, takes the argument from its source (`Wired.takenFrom`).  The tests agree
unless a name is one of those that are reserved for control: between operations, an edge that leaves
an output named `exit`, or lands on an input named `entry`, passes no value on (`ControlNamesFree`).

* `leavesParam_afterEdits`: every edge from a bank leaves a parameter that the bank declares, under
  whichever identifiers parameters are declared.
* `Wired.edgesTo_eq`: the edge that lands on an input is the only one.
* `Wired.takenFrom`: what an input takes its argument from, if an edge lands on it.
-/

namespace FlowPlan.FlowGraph

variable {g h : FlowGraph} {n : OperationNode} {e : Edge} {input : String}

/-! ### Edges from banks -/

/-- An edge from a bank leaves a parameter that the bank declares. -/
def LeavesParam (g : FlowGraph) (e : Edge) : Prop :=
  ∀ b ∈ g.inputBanks, e.source = b.id → ∃ handle p, e.leaves b.id handle ∧ b.param? handle = some p

theorem LeavesParam.mono (leaves : g.LeavesParam e) (grows : g.GrowsTo h) : h.LeavesParam e := by
  intro b bank source
  obtain ⟨a, old, more, rfl⟩ := grows.exists_inputBank bank
  obtain ⟨handle, p, leaves, found⟩ := leaves a old source
  exact ⟨handle, p, leaves, param?_append more found⟩

/-- An edge from an operation leaves no bank. -/
theorem leavesParam_of_operation {s : OperationNode} {t : NodeId} {handle : String}
    (operation : s ∈ g.operations) : g.LeavesParam (.between s.id handle t input) := by
  intro b bank source
  exact absurd source.symm (inputBank_id_ne bank operation)

/-- An edge from a declared parameter leaves that one. -/
theorem leavesParam_of_param {b : InputBank} {p : BankParam} {t : NodeId} {handle : String}
    (bank : b ∈ g.inputBanks) (found : b.param? handle = some p) :
    g.LeavesParam (.between b.id handle t input) := by
  intro a other source
  obtain rfl := eq_of_inputBank_id bank other source
  exact ⟨handle, p, leaves_iff.2 ⟨rfl, rfl⟩, found⟩

theorem exists_param?_spawned (b : InputBank) (i : Input) (fresh : ParamId) :
    ∃ p, { b with params := b.params ++ [spawnedParam b i fresh] }.param? fresh = some p := by
  rw [← Option.isSome_iff_exists, InputBank.param?, List.find?_isSome]
  exact ⟨spawnedParam b i fresh, by simp, by simp [spawnedParam]⟩

/-- A step adds an edge that leaves a parameter, if it leaves a bank. -/
theorem Draws.exists_leavesParam {c : Connection} {fresh : ParamId} (draws : g.Draws fresh c h) :
    ∃ e, h.edges = g.edges ++ [e] ∧ h.LeavesParam e := by
  have grows := draws.growsTo
  cases draws with
  | control source => exact ⟨_, rfl, (leavesParam_of_operation source).mono grows⟩
  | supply source _ _ _ _ param => exact ⟨_, rfl, (leavesParam_of_param source param).mono grows⟩
  | @declare b t i input source =>
    -- Another parameter may have the same identifier; then the edge leaves that one.
    obtain ⟨p, found⟩ := exists_param?_spawned b i fresh
    refine ⟨_, rfl, fun a other leaving => ?_⟩
    exact leavesParam_of_param (mem_inputBanks_spawn source) found a other leaving
  | feed source => exact ⟨_, rfl, (leavesParam_of_operation source).mono grows⟩

/-- **Whatever leaves a bank leaves a declared parameter**, also where identifiers repeat. -/
theorem leavesParam_afterEdits (edgeFree : g.edges = []) (edits : List Edit) :
    ∀ e ∈ (g.afterEdits edits).edges, (g.afterEdits edits).LeavesParam e := by
  refine invariant_afterEdits (P := fun g => ∀ e ∈ g.edges, g.LeavesParam e) ?_ ?_ edits
  · intro g h c fresh old draws f mem
    obtain ⟨e, edges, new⟩ := draws.exists_leavesParam
    rw [edges] at mem
    rcases List.mem_append.1 mem with mem | mem
    · exact (old f mem).mono draws.growsTo
    · rw [List.mem_singleton.1 mem]
      exact new
  · simp [edgeFree]

/-! ### The only edge -/

/-- **At most one edge lands on an input.** -/
theorem Wired.edgesTo_eq (wired : g.Wired) {node : NodeId} (mem : e ∈ g.edges)
    (lands : e.landsOn node input) : g.edgesTo node input = [e] := by
  have apart : g.edges.Nodup := by
    refine wired.landsOnce.imp ?_
    rintro f _ apart rfl
    exact apart ⟨rfl, rfl⟩
  refine List.perm_singleton.1 ?_
  refine (List.perm_ext_iff_of_nodup (apart.filter _) (List.nodup_singleton e)).2 fun f => ?_
  rw [List.mem_filter, List.mem_singleton]
  constructor
  · rintro ⟨memf, landsf⟩
    exact wired.eq_of_landsOn memf mem landsf lands
  · rintro rfl
    exact ⟨mem, lands⟩

/-- The only edge to an input supplies it, if it comes from a bank. -/
theorem argument_of_bankArg? {a : Arg} (only : g.edgesTo n.id input = [e])
    (found : g.bankArg? e = some a) : g.argument n input = a := by
  simp [argument, only, found]

theorem argument_of_workspaceArg? {a : Arg} (only : g.edgesTo n.id input = [e])
    (noBank : g.bankArg? e = none) (found : g.workspaceArg? e = some a) :
    g.argument n input = a := by
  simp [argument, only, noBank, found]

/-- An edge that supplies nothing leaves the input to its stored value. -/
theorem argument_of_noArg (only : g.edgesTo n.id input = [e]) (noBank : g.bankArg? e = none)
    (noFeed : g.isDataFeed e = false) : g.argument n input = .literal (n.storedData input) := by
  simp [argument, only, noBank, workspaceArg?, noFeed]

/-- An edge from a parameter supplies the parameter with its value. -/
theorem bankArg?_of_param {b : InputBank} {p : BankParam} {handle : String}
    (bank : b ∈ g.inputBanks) (leaves : e.leaves b.id handle) (param : b.param? handle = some p) :
    g.bankArg? e = some (.input b.title p (b.value? p.id)) := by
  obtain ⟨source, sourceHandle⟩ := leaves_iff.1 leaves
  have found : g.inputBank? e.source = some b := inputBank?_eq_some_iff.2 ⟨bank, source.symm⟩
  simp [bankArg?, sourceHandle, found, param]

/-- An edge from an operation supplies nothing from a bank. -/
theorem bankArg?_of_operation (operation : n ∈ g.operations) (source : e.source = n.id) :
    g.bankArg? e = none := by
  have noBank : g.inputBank? e.source = none := source ▸ inputBank?_of_mem_operations operation
  simp [bankArg?, noBank]

/-! ### What an input takes its argument from -/

/-- No input has the name of an entry, and no output that of an exit. -/
structure ControlNamesFree (g : FlowGraph) : Prop where
  input_ne : ∀ n ∈ g.operations, ∀ i ∈ n.inputs, i.name ≠ Handle.entry
  output_ne : ∀ n ∈ g.operations, ∀ o ∈ n.output, o.name ≠ Handle.exit

/-- What the input of a node takes its argument from, if an edge lands on it. -/
inductive TakenFrom (g : FlowGraph) (n : OperationNode) (input : String) : Edge → Arg → Prop where
  /-- The parameter of a bank. -/
  | bank {b : InputBank} {p : BankParam} {handle : String} (bank : b ∈ g.inputBanks)
      (param : b.param? handle = some p) :
      TakenFrom g n input (.between b.id handle n.id input) (.input b.title p (b.value? p.id))
  /-- The output of another operation, whose type the input has. -/
  | output {s : OperationNode} {i : Input} {handle : String} (source : s ∈ g.operations)
      (declared : n.input? input = some i) (role : i.role ≠ .receiver)
      (typed : s.output.bind (·.handleType? handle) = some i.type) :
      TakenFrom g n input (.between s.id handle n.id input)
        (.workspace s.id (TupleHalf.ofHandle? handle))

/-- Under the handle of an exit there is no output, unless one has that name. -/
theorem ne_exit_of_handleType? {s : OperationNode} {handle : String} {type : ParamType}
    (noExit : ∀ o ∈ s.output, o.name ≠ Handle.exit)
    (typed : s.output.bind (·.handleType? handle) = some type) : handle ≠ Handle.exit := by
  rintro rfl
  obtain ⟨o, output, typed⟩ := Option.bind_eq_some_iff.1 typed
  rw [Output.handleType?, if_neg (noExit o output).symm] at typed
  cases typed

/-- The parameter that an edge leaves is what the input takes. -/
theorem Wired.takenFrom_of_param {b : InputBank} {p : BankParam} {handle : String}
    (wired : g.Wired) (bank : b ∈ g.inputBanks) (param : b.param? handle = some p)
    (mem : .between b.id handle n.id input ∈ g.edges) :
    g.TakenFrom n input (.between b.id handle n.id input) (g.argument n input) := by
  have only := wired.edgesTo_eq mem (landsOn_iff.2 ⟨rfl, rfl⟩)
  rw [argument_of_bankArg? only (bankArg?_of_param bank (leaves_iff.2 ⟨rfl, rfl⟩) param)]
  exact .bank bank param

/-- The output that an edge leaves is what the input takes, unless a name is reserved. -/
theorem Wired.takenFrom_of_output {s : OperationNode} {i : Input} {handle : String}
    (wired : g.Wired) (source : s ∈ g.operations) (operation : n ∈ g.operations)
    (declared : n.input? input = some i) (role : i.role ≠ .receiver)
    (typed : s.output.bind (·.handleType? handle) = some i.type)
    (noExit : ∀ o ∈ s.output, o.name ≠ Handle.exit) (notEntry : input ≠ Handle.entry)
    (mem : .between s.id handle n.id input ∈ g.edges) :
    g.TakenFrom n input (.between s.id handle n.id input) (g.argument n input) := by
  have only := wired.edgesTo_eq mem (landsOn_iff.2 ⟨rfl, rfl⟩)
  -- Assembly asks for a data edge, the rules only for one that is no control edge.
  have data : (Edge.between s.id handle n.id input).isData := by
    simp [Edge.isData, Edge.between, ne_exit_of_handleType? noExit typed, notEntry]
  have feed := isDataFeed_between source operation declared data
  rw [argument_of_workspaceArg? only (bankArg?_of_operation source rfl)
    (workspaceArg?_eq_some_iff.2 ⟨feed, rfl⟩)]
  exact .output source declared role typed

/-- **An input takes its argument from the source of the edge that lands on it.** -/
theorem Wired.takenFrom (wired : g.Wired) (params : ∀ e ∈ g.edges, g.LeavesParam e)
    (names : g.ControlNamesFree) {i : Input} (operation : n ∈ g.operations)
    (declared : i ∈ n.inputs) (mem : e ∈ g.edges) (lands : e.landsOn n.id i.name) :
    g.TakenFrom n i.name e (g.argument n i.name) := by
  have notEntry := names.input_ne n operation i declared
  have leaves := params e mem
  have ends {s t : NodeId} {handle input : String}
      (lands : (Edge.between s handle t input).landsOn n.id i.name) :
      t = n.id ∧ input = i.name :=
    (landsOn_iff.1 lands).imp_right Option.some.inj
  cases wired.joins e mem with
  | control => exact absurd (ends lands).2.symm notEntry
  | @supply s t j handle input source target =>
    obtain ⟨b, bank, rfl⟩ := List.mem_map.1 source
    obtain ⟨same, rfl⟩ := ends lands
    obtain rfl := eq_of_operation_id target operation same
    obtain ⟨other, p, left, param⟩ := leaves b bank rfl
    obtain rfl : handle = other := Option.some.inj (leaves_iff.1 left).2
    exact wired.takenFrom_of_param bank param mem
  | @feed s t j handle input source target _ _ found role typed =>
    obtain ⟨same, rfl⟩ := ends lands
    obtain rfl := eq_of_operation_id target operation same
    exact wired.takenFrom_of_output source operation found role typed
      (names.output_ne s source) notEntry mem

end FlowPlan.FlowGraph
