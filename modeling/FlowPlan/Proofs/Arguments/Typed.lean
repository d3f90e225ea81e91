import FlowPlan.Proofs.Arguments.Landing

/-!
# Arguments — typed arguments

An argument has the type of its input.  The rules compare types when an edge is drawn, where they
look up the type of an output by a handle (`Output.handleType?`).  Assembly looks at the handle once
more and takes the whole output or a component.  Both read a handle alike unless an output has the
name of a component's handle (`HandlesApart`); and the parameters of a bank never change.

* `Output.handleType?_eq_some_iff`: which handle carries which type.
* `Supplies`: an argument stands for the source of an edge, and that has a given type.
* `argument_fits`: on an edited graph the edge that lands on an input supplies it, and no receiver
  is taken from the workspace.
-/

namespace FlowPlan

/-! ### The types of handles -/

theorem ParamType.pair?_eq_some_iff {type first second : ParamType} :
    type.pair? = some (first, second) ↔ type = .tuple [first, second] := by
  unfold ParamType.pair?
  split
  · simp
  · next other =>
    constructor
    · nofun
    · intro pair
      exact absurd pair (other first second)

theorem TupleHalf.ofHandle?_eq_first_iff {handle : String} :
    ofHandle? handle = some .first ↔ handle = Handle.resultFirst := by
  simp [ofHandle?]

theorem TupleHalf.ofHandle?_eq_second_iff {handle : String} :
    ofHandle? handle = some .second ↔ handle = Handle.resultSecond := by
  unfold ofHandle?
  split
  · next first => simp [first, Handle.resultFirst, Handle.resultSecond]
  · simp

/-- A handle carries the whole output, under its name, or else a component of a tuple of two. -/
theorem Output.handleType?_eq_some_iff {o : Output} {handle : String} {type : ParamType} :
    o.handleType? handle = some type ↔
      handle = o.name ∧ o.type = type ∨
        handle ≠ o.name ∧ ∃ other,
          handle = Handle.resultFirst ∧ o.type = .tuple [type, other] ∨
            handle = Handle.resultSecond ∧ o.type = .tuple [other, type] := by
  constructor
  · intro carried
    unfold Output.handleType? at carried
    split at carried
    · next own => exact .inl ⟨own, Option.some.inj carried⟩
    · next other =>
      obtain ⟨half, named, carried⟩ := Option.bind_eq_some_iff.1 carried
      obtain ⟨⟨first, second⟩, pair, carried⟩ := Option.bind_eq_some_iff.1 carried
      have tuple := ParamType.pair?_eq_some_iff.1 pair
      cases half with
      | first =>
        cases carried
        exact .inr ⟨other, second, .inl ⟨TupleHalf.ofHandle?_eq_first_iff.1 named, tuple⟩⟩
      | second =>
        cases carried
        exact .inr ⟨other, first, .inr ⟨TupleHalf.ofHandle?_eq_second_iff.1 named, tuple⟩⟩
  · rintro (⟨rfl, rfl⟩ | ⟨other, component, ⟨rfl, tuple⟩ | ⟨rfl, tuple⟩⟩)
    · exact if_pos rfl
    · rw [Output.handleType?, if_neg other, tuple]
      rfl
    · rw [Output.handleType?, if_neg other, tuple]
      rfl

namespace FlowGraph

variable {g : FlowGraph} {n : OperationNode} {i : Input}

/-! ### Names apart -/

/-- No name stands for two things: the inputs of an operation have different names, none of which
is that of an entry, and no output has the name of an exit or of a component's handle. -/
structure HandlesApart (g : FlowGraph) : Prop extends ControlNamesFree g where
  inputs_nodup : ∀ n ∈ g.operations, (n.inputs.map Input.name).Nodup
  output_ne_first : ∀ n ∈ g.operations, ∀ o ∈ n.output, o.name ≠ Handle.resultFirst
  output_ne_second : ∀ n ∈ g.operations, ∀ o ∈ n.output, o.name ≠ Handle.resultSecond

/-- Under its name an input is found. -/
theorem HandlesApart.input?_eq (names : g.HandlesApart) (operation : n ∈ g.operations)
    (declared : i ∈ n.inputs) : n.input? i.name = some i := by
  obtain ⟨j, found⟩ : ∃ j, n.input? i.name = some j := by
    rw [← Option.isSome_iff_exists, OperationNode.input?, List.find?_isSome]
    exact ⟨i, declared, by simp⟩
  obtain ⟨mem, same⟩ := OperationNode.mem_inputs_of_input? found
  rw [found, List.inj_on_of_nodup_map (names.inputs_nodup n operation) mem declared same]

/-! ### What supplies an input -/

/-- The argument stands for what the edge leaves, and that has the type. -/
inductive Supplies (g : FlowGraph) (e : Edge) (type : ParamType) : Arg → Prop where
  /-- A parameter of a bank. -/
  | param {b : InputBank} {p : BankParam} (bank : b ∈ g.inputBanks) (leaves : e.leaves b.id p.id)
      (found : b.param? p.id = some p) (typed : p.type = type) :
      Supplies g e type (.input b.title p (b.value? p.id))
  /-- An output. -/
  | whole {s : OperationNode} {o : Output} (source : s ∈ g.operations) (output : s.output = some o)
      (leaves : e.leaves s.id o.name) (typed : o.type = type) :
      Supplies g e type (.workspace s.id none)
  /-- The first component of an output. -/
  | first {s : OperationNode} {o : Output} {other : ParamType} (source : s ∈ g.operations)
      (output : s.output = some o) (leaves : e.leaves s.id Handle.resultFirst)
      (typed : o.type = .tuple [type, other]) : Supplies g e type (.workspace s.id (some .first))
  /-- The second component of an output. -/
  | second {s : OperationNode} {o : Output} {other : ParamType} (source : s ∈ g.operations)
      (output : s.output = some o) (leaves : e.leaves s.id Handle.resultSecond)
      (typed : o.type = .tuple [other, type]) : Supplies g e type (.workspace s.id (some .second))

/-- A handle that carries a type leads assembly to the part of the output that has it. -/
theorem HandlesApart.supplies_of_handleType? {s : OperationNode} {o : Output} {t : NodeId}
    {handle input : String} {type : ParamType} (names : g.HandlesApart)
    (source : s ∈ g.operations) (output : s.output = some o)
    (carried : o.handleType? handle = some type) :
    g.Supplies (.between s.id handle t input) type
      (.workspace s.id (TupleHalf.ofHandle? handle)) := by
  have leaves : (Edge.between s.id handle t input).leaves s.id handle := leaves_iff.2 ⟨rfl, rfl⟩
  rcases Output.handleType?_eq_some_iff.1 carried with
    ⟨rfl, typed⟩ | ⟨-, other, ⟨rfl, typed⟩ | ⟨rfl, typed⟩⟩
  · -- The rules try the name of the output first, assembly looks for a component's handle only.
    have plain : TupleHalf.ofHandle? o.name = none := by
      rw [TupleHalf.ofHandle?, if_neg (names.output_ne_first s source o output),
        if_neg (names.output_ne_second s source o output)]
    rw [plain]
    exact .whole source output leaves typed
  · exact .first source output leaves typed
  · exact .second source output leaves typed

theorem TakenFrom.supplies {e : Edge} {a : Arg} (taken : g.TakenFrom n i.name e a)
    (typed : g.TypedSupply e) (names : g.HandlesApart) (operation : n ∈ g.operations)
    (declared : i ∈ n.inputs) : g.Supplies e i.type a := by
  have found := names.input?_eq operation declared
  cases taken with
  | @bank b p handle bank param =>
    -- The parameter that is found is the one whose type was compared.
    obtain ⟨q, same, type⟩ := typed b bank n operation handle i.name i rfl found
    obtain rfl := Option.some.inj (param.symm.trans same)
    obtain rfl : p.id = handle := by simpa using List.find?_some param
    exact .param bank (leaves_iff.2 ⟨rfl, rfl⟩) param type
  | @output s j handle source declaredAs role carried =>
    obtain rfl := Option.some.inj (found.symm.trans declaredAs)
    obtain ⟨o, output, carried⟩ := Option.bind_eq_some_iff.1 carried
    exact names.supplies_of_handleType? source output carried

/-- A receiver is not taken from the workspace. -/
theorem Wired.isWorkspace_argument (wired : g.Wired) (params : ∀ e ∈ g.edges, g.LeavesParam e)
    (names : g.HandlesApart) (operation : n ∈ g.operations) (declared : i ∈ n.inputs)
    (receiver : i.role = .receiver) : (g.argument n i.name).isWorkspace = false := by
  cases argument : g.argument n i.name with
  | input | literal => rfl
  | workspace x half =>
    obtain ⟨e, mem, -, lands, -⟩ := exists_feed_of_argument argument
    have taken := wired.takenFrom params names.toControlNamesFree operation declared mem lands
    rw [argument] at taken
    cases taken with
    | output _ declaredAs role =>
      obtain rfl := Option.some.inj ((names.input?_eq operation declared).symm.trans declaredAs)
      exact absurd receiver role

/-- **The argument of an input fits it** on an edited graph.  If an edge lands on the input, the
argument stands for what that edge leaves, which has the type of the input; and no receiver is
taken from the workspace.  The start has no edges; calls that fail count, and those that declare a
parameter are fresh. -/
theorem argument_fits {start : FlowGraph} {edits : List Edit} (edgeFree : start.edges = [])
    (freshly : FreshEdits start edits) (names : HandlesApart (start.afterEdits edits))
    (operation : n ∈ (start.afterEdits edits).operations) (declared : i ∈ n.inputs) :
    (∀ e ∈ (start.afterEdits edits).edges, e.landsOn n.id i.name →
        (start.afterEdits edits).Supplies e i.type
          ((start.afterEdits edits).argument n i.name)) ∧
      (i.role = .receiver → ((start.afterEdits edits).argument n i.name).isWorkspace = false) := by
  have wired := wired_afterEdits edgeFree edits
  have supplied := supplied_of_freshEdits edgeFree freshly
  have params := leavesParam_afterEdits edgeFree edits
  refine ⟨fun e mem lands => ?_, wired.isWorkspace_argument params names operation declared⟩
  have taken := wired.takenFrom params names.toControlNamesFree operation declared mem lands
  exact taken.supplies (supplied.typed e mem) names operation declared

/-- A method that takes a name, a flag, and both once more. -/
def receipt : OperationNode :=
  (OperationNode.new "use" (.call ⟨true, "T", "t", ⟨"take", [], .unit⟩⟩)).withInput .receiver
    |>.withInput (.parameter "name" .string)
    |>.withInput (.parameter "flag" .bool)
    |>.withInput (.parameter "both" (.tuple [.string, .bool]))

/-- A call that makes a name and a flag, a method that takes them, and a bank without parameters. -/
def parcel : FlowGraph where
  nodes :=
    [.operation ((OperationNode.new "make" (.call ⟨false, "T", "t", ⟨"pair", [], .unit⟩⟩))
        |>.withOutput ⟨Handle.result, .tuple [.string, .bool], none⟩),
      .operation receipt, .inputBank (InputBank.new "bank" "inputs")]
  edges := []
  nodup_ids := by decide

/-- The component comes from a parameter that is declared for it, the rest from the call. -/
def parcelEdits : List Edit :=
  [⟨.between "bank" Handle.newInputParam "use" Input.receiverName, "p"⟩,
    ⟨.between "make" Handle.resultFirst "use" "name", "a"⟩,
    ⟨.between "make" Handle.resultSecond "use" "flag", "b"⟩,
    ⟨.between "make" Handle.result "use" "both", "c"⟩]

theorem parcelEdits_argument_fits :
    parcel.edges = [] ∧ FreshEdits parcel parcelEdits ∧
      HandlesApart (parcel.afterEdits parcelEdits) ∧
      receipt ∈ (parcel.afterEdits parcelEdits).operations ∧
      receipt.inputs.map (fun i => (parcel.afterEdits parcelEdits).argument receipt i.name) =
        [.input "inputs" ⟨"p", "componentAddress", .other "Component"⟩ none,
          .workspace "make" (some .first), .workspace "make" (some .second),
          .workspace "make" none] ∧
      ∀ i ∈ receipt.inputs,
        (∀ e ∈ (parcel.afterEdits parcelEdits).edges, e.landsOn receipt.id i.name →
          (parcel.afterEdits parcelEdits).Supplies e i.type
            ((parcel.afterEdits parcelEdits).argument receipt i.name)) ∧
        (i.role = .receiver →
          ((parcel.afterEdits parcelEdits).argument receipt i.name).isWorkspace = false) := by
  have freshly : FreshEdits parcel parcelEdits :=
    .cons (by decide) <| .cons (by decide) <| .cons (by decide) <| .cons (by decide) (.nil _)
  have names : HandlesApart (parcel.afterEdits parcelEdits) := by
    constructor
    case toControlNamesFree => exact ⟨by decide, by decide⟩
    all_goals decide
  have operation : receipt ∈ (parcel.afterEdits parcelEdits).operations := by decide
  exact ⟨rfl, freshly, names, operation, by decide,
    fun i declared => argument_fits rfl freshly names operation declared⟩

end FlowGraph

end FlowPlan
