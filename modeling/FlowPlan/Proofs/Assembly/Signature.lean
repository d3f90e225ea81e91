import FlowPlan.Proofs.Assembly.Nodes
import FlowPlan.Proofs.Plan.Stages

/-!
# Assembly — the signature of a function

A node that is built from a function of a template calls the function with one argument for each that
the function declares, in order, wherever the node stands and whatever is connected to it or typed
into it.  Three places decide what is a method: the function goes by its first argument, the inputs of
the node by the name of each, and assembly by the role of the first input.  They agree, also where
arguments share a name or `self` is not the first of them: then it is an argument like any other.

* `CallsAs`: the call that the signature of a function asks for.
* `performs_of_signature`: a node with the action and the inputs of a function performs that call.
* `assemble_matches_signature`: a built node is always assembled on its own, into that call.
-/

namespace FlowPlan

variable {t : Template} {f : Function} {address : String} {id : NodeId}

/-- The node that calls a function, under the function's name. -/
def Function.callNode (f : Function) (templateName address : String) (id : NodeId) :
    OperationNode :=
  { OperationNode.new id (.call ⟨f.isMethod, templateName, address, f⟩) with
    title := some f.name
    inputs := f.arguments.map Argument.toInput
    output := some ⟨Handle.result, f.output, none⟩ }

/-- The first function of a name is the one that is called. -/
theorem callNode?_eq_some {earlier later : List Function}
    (exported : t.functions = earlier ++ f :: later) (first : ∀ e ∈ earlier, e.name ≠ f.name) :
    t.callNode? address id f.name = some (f.callNode t.name address id) := by
  have found : t.function? f.name = some f := by
    rw [Template.function?, exported, List.find?_append,
      List.find?_eq_none.2 (by simpa using first)]
    simp
  rw [Template.callNode?, found]
  rfl

/-- The input of an argument is a receiver exactly if the argument is `self`, wherever it stands. -/
theorem toInput_role_eq_receiver_iff {a : Argument} :
    a.toInput.role = .receiver ↔ a.name = selfName := by
  unfold Argument.toInput Argument.isSelf
  by_cases isSelf : a.name = selfName <;> simp [isSelf, Input.receiver, Input.parameter]

theorem toInput_of_isSelf {a : Argument} (isSelf : a.name = selfName) : a.toInput = .receiver := by
  simp [Argument.toInput, Argument.isSelf, isSelf]

namespace FlowGraph

variable {g : FlowGraph} {n : OperationNode} {payment : FeePayment}

/-- The call that the signature of a function asks for: of a method, if the first argument is `self`,
on what the receiver is; else of a function of the template.  Every other argument has its place. -/
inductive CallsAs (g : FlowGraph) (n : OperationNode) (address : String) (f : Function) :
    Primitive → Prop where
  | method {self : Argument} {rest : List Argument} (arguments : f.arguments = self :: rest)
      (isSelf : self.name = selfName) :
      g.CallsAs n address f (.callMethod (g.argument n Input.receiverName) f.name
        (rest.map fun a => g.argument n a.toInput.name))
  | function (first : ∀ a ∈ f.arguments.head?, a.name ≠ selfName) :
      g.CallsAs n address f (.callFunction address f.name
        (f.arguments.map fun a => g.argument n a.toInput.name))

/-- **A node with the action and the inputs of a function performs the call of its signature.**  The
receiver is split off the inputs exactly if the function is a method, so that no argument is lost or
moves up. -/
theorem performs_of_signature {templateName : String}
    (action : n.action = .call ⟨f.isMethod, templateName, address, f⟩)
    (inputs : n.inputs = f.arguments.map Argument.toInput) :
    ∃ call, g.CallsAs n address f call ∧ g.Performs n (.single call) := by
  by_cases method : f.isMethod
  · obtain ⟨self, head, isSelf⟩ : ∃ a, f.arguments.head? = some a ∧ a.name = selfName := by
      simpa [Function.isMethod, Argument.isSelf, Option.any_eq_true] using method
    obtain ⟨rest, arguments⟩ := List.head?_eq_some_iff.1 head
    rw [arguments, List.map_cons, toInput_of_isSelf isSelf] at inputs
    -- The first argument became the receiver, and the others are the plain inputs.
    have found : n.receiver? = some .receiver :=
      OperationNode.receiver?_eq_some_iff.2 ⟨by rw [inputs]; rfl, rfl⟩
    have plain : n.plainInputs = rest.map Argument.toInput :=
      (List.cons.inj ((OperationNode.inputs_eq_of_receiver? found).symm.trans inputs)).2
    refine ⟨_, .method arguments isSelf, ?_⟩
    have performs := Performs.callMethod (g := g) action method found
    rwa [plain, FlowGraph.arguments, List.map_map] at performs
  · have first : ∀ a ∈ f.arguments.head?, a.name ≠ selfName := by
      simpa [Function.isMethod, Argument.isSelf, Option.any_eq_true] using method
    have absent : n.receiver? = none := by
      rw [OperationNode.receiver?_eq_none_iff, inputs, List.head?_map]
      intro i mem
      obtain ⟨a, head, rfl⟩ := Option.map_eq_some_iff.1 mem
      exact mt toInput_role_eq_receiver_iff.1 (first a head)
    have plain : n.plainInputs = f.arguments.map Argument.toInput := by
      rw [OperationNode.plainInputs, absent, inputs]
    refine ⟨_, .function first, ?_⟩
    have performs := Performs.callFunction (g := g) action (by simpa using method)
    rwa [plain, FlowGraph.arguments, List.map_map] at performs

/-- A node on its own is assembled into the fee and what it contributes. -/
theorem assemble_singleton {b : Block} (operation : n ∈ g.operations)
    (contributes : g.Contributes n b) :
    g.assemble [n.id] payment = .ok
      { context := g.context
        operations := .payFee payment.account payment.fee :: b.operations
        skipped := b.skipped } := by
  have block : g.blockOf n.id = .ok b :=
    blockOf_eq_ok_iff.2 ⟨n, operation?_eq_some_iff.2 ⟨operation, rfl⟩,
      (block_eq_ok_iff_contributes operation).2 contributes⟩
  refine assemble_eq_ok_iff.2 ⟨[b], mapM_eq_ok_iff.2 (.cons block .nil), ?_⟩
  simp only [List.flatMap_cons, List.flatMap_nil, List.append_nil]

/-- **A node that is built from a function is always assembled on its own**, whatever its edges and
stored values are, and into one call, which is that of the function's signature.  Of functions that
share a name the first is called. -/
theorem assemble_matches_signature {earlier later : List Function} (address : String) (id : NodeId)
    (exported : t.functions = earlier ++ f :: later) (first : ∀ e ∈ earlier, e.name ≠ f.name) :
    ∃ built, t.callNode? address id f.name = some built ∧
      ∀ (g : FlowGraph) (values : OrderedMap String StoredValue) (payment : FeePayment),
        { built with values } ∈ g.operations →
        ∃ call transaction, g.assemble [id] payment = .ok transaction ∧
          g.CallsAs { built with values } address f call ∧
          transaction.skipped = [] ∧
          (¬g.OutputTaken id ∧
              transaction.operations = [.payFee payment.account payment.fee, call] ∨
            g.OutputTaken id ∧ transaction.operations =
              [.payFee payment.account payment.fee, call, .saveVar id]) := by
  refine ⟨_, callNode?_eq_some exported first, fun g values payment operation => ?_⟩
  obtain ⟨call, signature, performs⟩ :=
    performs_of_signature (g := g) (n := { f.callNode t.name address id with values }) rfl rfl
  by_cases taken : g.OutputTaken id
  · exact ⟨call, _, assemble_singleton operation (.saved performs ⟨rfl, rfl, taken⟩), signature, rfl,
      .inr ⟨taken, rfl⟩⟩
  · exact ⟨call, _, assemble_singleton operation (.unsaved performs fun saves => taken saves.taken),
      signature, rfl, .inl ⟨taken, rfl⟩⟩

/-- `self` comes first and again, another argument twice, and a later function has the same name. -/
def transfer : Function :=
  ⟨"transfer", [⟨"self", .other "Self"⟩, ⟨"to", .string⟩, ⟨"self", .other "Self"⟩, ⟨"to", .string⟩],
    .string⟩

/-- A template that exports the function between two others. -/
def purse : Template :=
  ⟨"Purse", [⟨"open", [], .string⟩, transfer, ⟨"transfer", [], .unit⟩]⟩

/-- The values of a node: whom to transfer to. -/
def recipient : OrderedMap String StoredValue :=
  .ofList [("to", .ok (.text "bob"))]

/-- A purse is opened and the function is called on it; a last node takes what the function returns. -/
def remittance : FlowGraph where
  nodes :=
    [.operation ((OperationNode.new "open" (.call ⟨false, "Purse", "p", ⟨"open", [], .string⟩⟩))
        |>.withOutput ⟨Handle.result, .string, none⟩),
      .operation { transfer.callNode "Purse" "p" "pay" with values := recipient },
      .operation (.emitLog "log")]
  edges :=
    [.between "open" Handle.result "pay" Input.receiverName,
      .between "pay" Handle.result "log" OperationNode.logMessageName]
  nodup_ids := by decide

theorem remittance_matches_signature :
    (purse.functions = [⟨"open", [], .string⟩] ++ transfer :: [⟨"transfer", [], .unit⟩] ∧
      ∀ e ∈ [(⟨"open", [], .string⟩ : Function)], e.name ≠ transfer.name) ∧
    (∃ transaction, remittance.assemble ["pay"] noFee = .ok transaction ∧
      transaction.operations =
        [.payFee "account" ⟨0, by decide⟩,
          .callMethod (.workspace "open" none) "transfer"
            [.literal (.text "bob"), .workspace "open" none, .literal (.text "bob")],
          .saveVar "pay"]) ∧
    ∃ built, purse.callNode? "p" "pay" "transfer" = some built ∧
      { built with values := recipient } ∈ remittance.operations ∧
      ∃ call transaction, remittance.assemble ["pay"] noFee = .ok transaction ∧
        remittance.CallsAs { built with values := recipient } "p" transfer call ∧
        transaction.operations = [.payFee "account" ⟨0, by decide⟩, call, .saveVar "pay"] := by
  have exported : purse.functions =
      [⟨"open", [], .string⟩] ++ transfer :: [⟨"transfer", [], .unit⟩] := rfl
  have first : ∀ e ∈ [(⟨"open", [], .string⟩ : Function)], e.name ≠ transfer.name := by decide
  refine ⟨⟨exported, first⟩, ⟨_, rfl, rfl⟩, ?_⟩
  obtain ⟨built, found, matching⟩ := assemble_matches_signature "p" "pay" exported first
  cases found
  have operation : { transfer.callNode "Purse" "p" "pay" with values := recipient } ∈
      remittance.operations := .tail _ (.head _)
  obtain ⟨call, transaction, assembled, signature, -, ⟨untaken, -⟩ | ⟨-, operations⟩⟩ :=
    matching remittance recipient noFee operation
  · exact absurd ⟨_, .tail _ (.head _), rfl, rfl, rfl, _, .tail _ (.tail _ (.head _)), rfl, _,
      .tail _ (.head _), rfl⟩ untaken
  · exact ⟨_, rfl, operation, call, transaction, assembled, signature, operations⟩

end FlowGraph

end FlowPlan
