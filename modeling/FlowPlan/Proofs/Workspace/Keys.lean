import FlowPlan.Proofs.Arguments.Reads
import FlowPlan.Proofs.Assembly.Accounted

/-!
# Workspace — keys

The workspace holds the output of a node under the node's identifier, and a component of the output
under that identifier with a suffix.  An identifier is any text, so that a node may be named like the
component of another node.  Such a node shadows the component: its output and the component have one
key.  This is the one way in which two arguments can have one key, and the one way in which a
component can have the key under which something is left (`keysIdentify_iff`).

* `Transaction.KeysIdentify`: a key tells what is read.
* `keysIdentify_iff_of_plan`: the keys of a plan do so exactly if no node that uses its own key is
  named like a component that is read.
* `keysIdentify_of_noDot`: they do if no identifier has a dot in it.
-/

namespace FlowPlan

/-! ### Keys -/

theorem TupleHalf.keySuffix_injective : Function.Injective TupleHalf.keySuffix := by
  intro half other same
  cases half <;> cases other <;> first | rfl | exact absurd same (by decide)

theorem TupleHalf.length_keySuffix (half : TupleHalf) : half.keySuffix.toList.length = 2 := by
  cases half <;> rfl

theorem workspaceKey_none (x : NodeId) : workspaceKey x none = x :=
  String.append_empty

theorem workspaceKey_some (x : NodeId) (half : TupleHalf) :
    workspaceKey x (some half) = x ++ half.keySuffix :=
  rfl

/-- Two components have different keys: all suffixes are of one length. -/
theorem workspaceKey_some_inj {x y : NodeId} {half other : TupleHalf} :
    workspaceKey x (some half) = workspaceKey y (some other) ↔ x = y ∧ half = other := by
  constructor
  · intro same
    have length : half.keySuffix.toList.length = other.keySuffix.toList.length :=
      half.length_keySuffix.trans other.length_keySuffix.symm
    have texts : x.toList ++ half.keySuffix.toList = y.toList ++ other.keySuffix.toList := by
      simpa only [workspaceKey_some, String.toList_append] using congrArg String.toList same
    obtain ⟨nodes, suffixes⟩ := List.append_inj' texts length
    exact ⟨String.toList_inj.1 nodes, TupleHalf.keySuffix_injective (String.toList_inj.1 suffixes)⟩
  · rintro ⟨rfl, rfl⟩
    rfl

namespace Arg

/-- The one argument is the output of a node that is named like the component that the other one
is. -/
def Shadows (whole component : Arg) : Prop :=
  ∃ x half, whole = .workspace (x ++ half.keySuffix) none ∧ component = .workspace x (some half)

/-- **Two arguments have one key** exactly if they are one, or if one of them shadows the other. -/
theorem exists_workspaceKey_iff {a b : Arg} :
    (∃ key, a.workspaceKey? = some key ∧ b.workspaceKey? = some key) ↔
      a = b ∧ a.isWorkspace ∨ a.Shadows b ∨ b.Shadows a := by
  constructor
  · rintro ⟨key, first, second⟩
    rcases a with ⟨x, half⟩ | _ | _
    case input | literal => cases first
    rcases b with ⟨y, other⟩ | _ | _
    case input | literal => cases second
    have same : workspaceKey x half = workspaceKey y other :=
      Option.some.inj (first.trans second.symm)
    -- Only a whole output and a component can have one key by accident.
    rcases half with _ | half <;> rcases other with _ | other
    · simp only [workspaceKey_none] at same
      exact .inl ⟨by rw [same], rfl⟩
    · rw [workspaceKey_none] at same
      exact .inr (.inl ⟨y, other, by rw [same, workspaceKey_some], rfl⟩)
    · rw [workspaceKey_none] at same
      exact .inr (.inr ⟨x, half, by rw [← same, workspaceKey_some], rfl⟩)
    · obtain ⟨rfl, rfl⟩ := workspaceKey_some_inj.1 same
      exact .inl ⟨rfl, rfl⟩
  · have shadowed {whole component : Arg} (shadows : whole.Shadows component) :
        ∃ key, whole.workspaceKey? = some key ∧ component.workspaceKey? = some key := by
      obtain ⟨x, half, rfl, rfl⟩ := shadows
      exact ⟨_, congrArg some (workspaceKey_none _), rfl⟩
    rintro (⟨rfl, workspace⟩ | shadows | shadows)
    · cases a with
      | workspace x half => exact ⟨_, rfl, rfl⟩
      | input | literal => cases workspace
    · exact shadowed shadows
    · obtain ⟨key, first, second⟩ := shadowed shadows
      exact ⟨key, second, first⟩

end Arg

/-! ### Transactions -/

namespace Transaction

variable {t : Transaction}

/-- The arguments of all operations. -/
def arguments (t : Transaction) : List Arg :=
  t.operations.flatMap Primitive.operands

/-- The keys under which the operations leave something in the workspace. -/
def keysWritten (t : Transaction) : List NodeId :=
  t.operations.filterMap Primitive.writes?

/-- A key of the workspace tells what is read under it. -/
structure KeysIdentify (t : Transaction) : Prop where
  /-- Arguments with one key are one. -/
  eq_of_key : ∀ a ∈ t.arguments, ∀ b ∈ t.arguments, ∀ key,
    a.workspaceKey? = some key → b.workspaceKey? = some key → a = b
  /-- Nothing is left under the key of a component. -/
  component : ∀ x half, .workspace x (some half) ∈ t.arguments →
    workspaceKey x (some half) ∉ t.keysWritten

/-- The output of the node is read as a whole, or left in the workspace. -/
def UsesKeyOf (t : Transaction) (node : NodeId) : Prop :=
  .workspace node none ∈ t.arguments ∨ node ∈ t.keysWritten

/-- **The keys of a transaction identify** exactly if none is used that is the key of a component, as
the identifier of a node. -/
theorem keysIdentify_iff :
    t.KeysIdentify ↔
      ∀ x half, .workspace x (some half) ∈ t.arguments → ¬t.UsesKeyOf (x ++ half.keySuffix) := by
  constructor
  · rintro identify x half read (whole | written)
    · obtain ⟨key, first, second⟩ := Arg.exists_workspaceKey_iff.2 (.inr (.inl ⟨x, half, rfl, rfl⟩))
      have same := identify.eq_of_key _ whole _ read key first second
      cases (Arg.workspace.inj same).2
    · exact identify.component x half read written
  · intro unused
    have unshadowed {whole component : Arg} (memWhole : whole ∈ t.arguments)
        (mem : component ∈ t.arguments) : ¬whole.Shadows component := by
      rintro ⟨x, half, rfl, rfl⟩
      exact unused x half mem (.inl memWhole)
    refine ⟨fun a memA b memB key first second => ?_, fun x half read written => ?_⟩
    · rcases Arg.exists_workspaceKey_iff.1 ⟨key, first, second⟩ with ⟨same, -⟩ | shadows | shadows
      · exact same
      · exact absurd shadows (unshadowed memA memB)
      · exact absurd shadows (unshadowed memB memA)
    · exact unused x half read (.inr written)

end Transaction

/-! ### Plans -/

namespace FlowGraph

variable {g : FlowGraph} {payment : FeePayment} {plan : Plan} {x : NodeId}

/-- What a plan reads from the workspace, a data edge leaves. -/
theorem exists_feed_of_mem_arguments {half : Option TupleHalf}
    (planned : g.plan payment = .ok plan) (read : .workspace x half ∈ plan.transaction.arguments) :
    ∃ e ∈ g.edges, g.isDataFeed e ∧ e.source = x ∧ e.tupleHalf? = half := by
  obtain ⟨p, mem, operand⟩ := List.mem_flatMap.1 read
  rcases mem_operations_of_plan planned mem with rfl | ⟨n, -, b, block, memBlock⟩
  · cases operand
  · obtain ⟨i, -, same⟩ := exists_input_of_mem_block block memBlock operand
    obtain ⟨-, e, first, source, component⟩ := argument_eq_workspace_iff.1 same.symm
    obtain ⟨memEdges, feed, -⟩ := mem_feedsTo.1 (List.mem_of_mem_head? first)
    exact ⟨e, memEdges, feed, source, component⟩

/-- A plan writes the workspace under the identifiers of the nodes that reserve an address or whose
result is saved. -/
theorem mem_keysWritten_iff (planned : g.plan payment = .ok plan) :
    x ∈ plan.transaction.keysWritten ↔
      ∃ n ∈ g.operations, n.id = x ∧ (n.action.isAllocation ∨ g.Saves n) := by
  obtain ⟨entries, madeUp⟩ := exists_madeUpOf planned
  have written : x ∈ plan.transaction.keysWritten ↔
      ∃ e ∈ entries, x ∈ e.2.operations.filterMap Primitive.writes? := by
    rw [Transaction.keysWritten, madeUp.operations, List.filterMap_cons_none rfl,
      List.filterMap_flatMap, List.mem_flatMap]
  rw [written]
  constructor
  · rintro ⟨e, mem, written⟩
    obtain ⟨same, writes⟩ := (madeUp.contributes e mem).mem_writes_iff.1 written
    exact ⟨e.1, madeUp.nodes.mem_iff.1 (List.mem_map_of_mem mem), same.symm, writes⟩
  · rintro ⟨n, operation, rfl, writes⟩
    obtain ⟨e, mem, rfl⟩ := List.mem_map.1 (madeUp.nodes.mem_iff.2 operation)
    exact ⟨e, mem, (madeUp.contributes e mem).mem_writes_iff.2 ⟨rfl, writes⟩⟩

/-- Only operations of the graph have their keys used. -/
theorem exists_operation_of_usesKeyOf (planned : g.plan payment = .ok plan)
    (used : plan.transaction.UsesKeyOf x) : ∃ n ∈ g.operations, n.id = x := by
  rcases used with read | written
  · obtain ⟨e, -, feed, rfl, -⟩ := exists_feed_of_mem_arguments planned read
    obtain ⟨-, -, source, -⟩ := isDataFeed_iff.1 feed
    exact List.mem_map.1 (isSome_operation?.1 source)
  · obtain ⟨n, operation, same, -⟩ := (mem_keysWritten_iff planned).1 written
    exact ⟨n, operation, same⟩

/-- No operation is named like a component that a data edge leaves. -/
def ComponentsUnnamed (g : FlowGraph) : Prop :=
  ∀ e ∈ g.edges, g.isDataFeed e → ∀ half ∈ e.tupleHalf?, ∀ n ∈ g.operations,
    n.id ≠ e.source ++ half.keySuffix

/-- Where no operation is named like a component, the keys identify. -/
theorem ComponentsUnnamed.keysIdentify (unnamed : g.ComponentsUnnamed)
    (planned : g.plan payment = .ok plan) : plan.transaction.KeysIdentify := by
  refine Transaction.keysIdentify_iff.2 fun x half read used => ?_
  obtain ⟨e, mem, feed, rfl, component⟩ := exists_feed_of_mem_arguments planned read
  obtain ⟨n, operation, same⟩ := exists_operation_of_usesKeyOf planned used
  exact unnamed e mem feed half component n operation same

/-- Identifiers without a dot are no keys of components: every suffix has one. -/
theorem keysIdentify_of_noDot (noDot : ∀ n ∈ g.operations, '.' ∉ n.id.toList)
    (planned : g.plan payment = .ok plan) : plan.transaction.KeysIdentify := by
  refine ComponentsUnnamed.keysIdentify (fun e _ _ half _ n operation same => ?_) planned
  refine noDot n operation ?_
  rw [same, String.toList_append, List.mem_append]
  cases half <;> exact .inr (by decide)

/-- **The keys of a plan identify what is read, up to nodes that are named like a component.**  Two
arguments with one key are one, or one of them is the output of a node that is named like the
component that the other one is.  The keys identify exactly if no node that is named like a component
that is read is read as a whole, reserves an address, or has its result saved; and so they do if no
operation is named like a component that a data edge leaves. -/
theorem keysIdentify_iff_of_plan {g : FlowGraph} {payment : FeePayment} {plan : Plan}
    (planned : g.plan payment = .ok plan) :
    (∀ a ∈ plan.transaction.arguments, ∀ b ∈ plan.transaction.arguments, ∀ key,
      a.workspaceKey? = some key → b.workspaceKey? = some key →
        a = b ∨ a.Shadows b ∨ b.Shadows a) ∧
      (plan.transaction.KeysIdentify ↔
        ∀ x half, .workspace x (some half) ∈ plan.transaction.arguments →
          ∀ n ∈ g.operations, n.id = x ++ half.keySuffix →
            .workspace n.id none ∉ plan.transaction.arguments ∧
              n.action.isAllocation = false ∧ ¬g.Saves n) ∧
      (g.ComponentsUnnamed → plan.transaction.KeysIdentify) := by
  refine ⟨fun a _ b _ key first second => ?_, ?_, fun unnamed => unnamed.keysIdentify planned⟩
  · exact (Arg.exists_workspaceKey_iff.1 ⟨key, first, second⟩).imp_left And.left
  rw [Transaction.keysIdentify_iff]
  refine forall₃_congr fun x half _ => ?_
  constructor
  · rintro unused n operation same
    rw [Transaction.UsesKeyOf, ← same, not_or, mem_keysWritten_iff planned] at unused
    obtain ⟨unread, unwritten⟩ := unused
    refine ⟨unread, Bool.eq_false_iff.2 fun allocation => ?_, fun saves => ?_⟩
    · exact unwritten ⟨n, operation, rfl, .inl allocation⟩
    · exact unwritten ⟨n, operation, rfl, .inr saves⟩
  · intro unused used
    obtain ⟨n, operation, same⟩ := exists_operation_of_usesKeyOf planned used
    obtain ⟨unread, notAllocation, unsaved⟩ := unused n operation same
    rw [← same] at used
    rcases used with read | written
    · exact unread read
    · obtain ⟨m, operation', same', writes⟩ := (mem_keysWritten_iff planned).1 written
      obtain rfl := eq_of_operation_id operation' operation same'
      rcases writes with allocation | saves
      · cases notAllocation.symm.trans allocation
      · exact unsaved saves

/-- A call for two texts and a call for one; the first of the two and the one are used. -/
def oneOfTwo (other : NodeId) (distinct : ["a", other, "use"].Nodup) : FlowGraph where
  nodes :=
    [.operation ((textCall "a").withOutput ⟨Handle.result, .tuple [.string, .string], none⟩),
      .operation (textCall other),
      .operation ((textCall "use").withInput (.parameter "x" .string)
        |>.withInput (.parameter "y" .string))]
  edges :=
    [.control "a" other, .between "a" Handle.resultFirst "use" "x",
      .between other Handle.result "use" "y"]
  nodup_ids := distinct

/-- The keys of `oneOfTwo` identify, since no operation is called `a.0`. -/
theorem oneOfTwo_keysIdentify :
    ∃ plan, (oneOfTwo "b" (by decide)).plan noFee = .ok plan ∧
      plan.transaction.arguments = [.workspace "a" (some .first), .workspace "b" none] ∧
      (oneOfTwo "b" (by decide)).ComponentsUnnamed ∧ plan.transaction.KeysIdentify := by
  have unnamed : (oneOfTwo "b" (by decide)).ComponentsUnnamed := by
    unfold ComponentsUnnamed
    decide
  exact ⟨_, rfl, rfl, unnamed, (keysIdentify_iff_of_plan rfl).2.2 unnamed⟩

/-- Not every plan has keys that identify what is read: under the key `a.0` the output of the node of
that name is left, and read back, and so is the first component of the output of `a`. -/
theorem exists_key_shared :
    ¬∀ (g : FlowGraph) (payment : FeePayment) (plan : Plan), g.plan payment = .ok plan →
      plan.transaction.KeysIdentify := by
  intro identify
  have shared : ∃ plan, (oneOfTwo "a.0" (by decide)).plan noFee = .ok plan ∧
      plan.transaction.arguments = [.workspace "a" (some .first), .workspace "a.0" none] ∧
      plan.transaction.keysWritten = ["a", "a.0"] :=
    ⟨_, rfl, rfl, rfl⟩
  obtain ⟨plan, planned, read, written⟩ := shared
  refine (identify _ _ _ planned).component "a" .first ?_ ?_
  · simp [read]
  · rw [written]
    decide

/-- The operations of that plan. -/
example : ((oneOfTwo "a.0" (by decide)).plan noFee).toOption.map (·.transaction.operations) =
    some [.payFee "account" ⟨0, by decide⟩, .callFunction "t" "a" [], .saveVar "a",
      .callFunction "t" "a.0" [], .saveVar "a.0",
      .callFunction "t" "use" [.workspace "a" (some .first), .workspace "a.0" none]] :=
  rfl

end FlowGraph

end FlowPlan
