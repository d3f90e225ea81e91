import FlowPlan.Proofs.Assembly.Composition
import FlowPlan.Proofs.Workspace.Blocks

/-!
# Assembly — plans accounted for

The operations of a plan are the fee and, in the order in which the nodes run, what each node
contributes: nothing is lost and nothing comes twice.

* `MadeUpOf`: a plan's operations, node by node.
* `Contributes.sublist_writes`, `Contributes.mem_writes_iff`: a node writes the workspace once at most,
  and under its own name; and which nodes do.
* `Contributes.eq_of_saveVar`: a save stands right behind what its node performs.
* `plan_accounted`: both, for the operations of a whole plan.
-/

namespace FlowPlan

/-- A primitive that a node's action may add: it neither pays the fee nor saves a result. -/
def Primitive.IsOwn : Primitive → Prop
  | .payFee .. | .saveVar _ => False
  | .callMethod .. | .callFunction .. | .emitLog .. | .allocateAddress .. => True

/-- Marks where the flow begins or demands something of a bucket: no primitive stands for the node. -/
def OperationNode.IsMarker (n : OperationNode) : Prop :=
  n.action = .start ∨ n.action = .assertBucketContains

instance (n : OperationNode) : Decidable n.IsMarker :=
  inferInstanceAs (Decidable (n.action = .start ∨ n.action = .assertBucketContains))

/-- An element of what the elements of a list contribute is contributed by one of them. -/
theorem exists_of_flatMap_eq_append {α β : Type} {f : α → List β} {xs : List α} {front back : List β}
    {y : β} (split : xs.flatMap f = front ++ y :: back) :
    ∃ done x rest inner outer, xs = done ++ x :: rest ∧ f x = inner ++ y :: outer ∧
      front = done.flatMap f ++ inner ∧ back = outer ++ rest.flatMap f := by
  induction xs generalizing front with
  | nil => simp at split
  | cons x xs ih =>
    rw [List.flatMap_cons] at split
    rcases List.append_eq_append_iff.1 split with ⟨between, rfl, later⟩ | ⟨between, here, later⟩
    · obtain ⟨done, z, rest, inner, outer, rfl, found, rfl, rfl⟩ := ih later
      exact ⟨x :: done, z, rest, inner, outer, rfl, found, by simp, rfl⟩
    · cases between with
      | nil =>
        have there : xs.flatMap f = [] ++ y :: back := later.symm
        obtain ⟨done, z, rest, inner, outer, rfl, found, nothing, rfl⟩ := ih there
        refine ⟨x :: done, z, rest, inner, outer, rfl, found, ?_, rfl⟩
        rw [List.flatMap_cons, here, List.append_assoc, ← nothing, List.append_nil, List.append_nil]
      | cons z between =>
        obtain ⟨rfl, rfl⟩ := List.cons.inj later
        exact ⟨[], x, xs, front, between, rfl, here, rfl, rfl⟩

namespace FlowGraph

variable {g : FlowGraph} {n : OperationNode} {b : Block} {payment : FeePayment} {plan : Plan}

/-! ### One node -/

/-- A marker performs no primitive, and any other node one. -/
theorem Performs.operations_cases (performs : g.Performs n b) :
    (n.IsMarker ∧ b.operations = []) ∨
      ∃ p, b = .single p ∧ p.IsOwn ∧ ∀ key ∈ p.writes?, key = n.id ∧ n.action.isAllocation := by
  cases performs with
  | start action => exact .inl ⟨.inl action, rfl⟩
  | assertBucketContains action => exact .inl ⟨.inr action, rfl⟩
  | callMethod | callFunction | emitLog => exact .inr ⟨_, rfl, trivial, by simp [Primitive.writes?]⟩
  | allocateAddress action =>
    refine .inr ⟨_, rfl, trivial, fun key written => ?_⟩
    cases written
    exact ⟨rfl, by rw [action]; rfl⟩

/-- What a node contributes behind what it performs is its save, if there is one. -/
theorem Contributes.getLast?_iff (contributes : g.Contributes n b) :
    b.operations.getLast? = some (.saveVar n.id) ↔ g.Saves n := by
  cases contributes with
  | saved _ saves => simp [saves]
  | unsaved performs unsaved =>
    refine iff_of_false ?_ unsaved
    rcases performs.operations_cases with ⟨-, none⟩ | ⟨p, rfl, own, -⟩
    · simp [none]
    · rintro ⟨⟩
      exact own

/-- A node pays no fee. -/
theorem Contributes.payFee_not_mem (contributes : g.Contributes n b) (account : String)
    (fee : Amount) : .payFee account fee ∉ b.operations := by
  have unpaid {own : Block} (performs : g.Performs n own) : .payFee account fee ∉ own.operations := by
    rcases performs.operations_cases with ⟨-, none⟩ | ⟨p, rfl, own, -⟩
    · simp [none]
    · intro mem
      obtain rfl := List.mem_singleton.1 mem
      exact own
  cases contributes with
  | unsaved performs => exact unpaid performs
  | saved performs =>
    intro mem
    rcases List.mem_append.1 mem with mem | mem
    · exact unpaid performs mem
    · cases List.mem_singleton.1 mem

/-- A node leaves one thing in the workspace at most, under its own name: an address that it reserves
is not saved on top. -/
theorem Contributes.sublist_writes (contributes : g.Contributes n b) :
    (b.operations.filterMap Primitive.writes?).Sublist [n.id] := by
  cases contributes with
  | unsaved performs =>
    rcases performs.operations_cases with ⟨-, none⟩ | ⟨p, rfl, -, writes⟩
    · simp [none]
    · cases written : p.writes? with
      | none => simp [Block.single, written]
      | some key => simp [Block.single, written, (writes key written).1]
  | saved performs saves =>
    rw [List.filterMap_append]
    rcases performs.operations_cases with ⟨-, none⟩ | ⟨p, rfl, -, writes⟩
    · rw [none]
      exact List.Sublist.refl _
    · have unwritten : p.writes? = none := by
        rw [Option.eq_none_iff_forall_ne_some]
        intro key written
        cases saves.notAllocation.symm.trans (writes key written).2
      rw [Block.single, List.filterMap_cons_none unwritten]
      exact List.Sublist.refl _

/-- A node writes the workspace exactly if it reserves an address or its result is saved. -/
theorem Contributes.mem_writes_iff (contributes : g.Contributes n b) {key : NodeId} :
    key ∈ b.operations.filterMap Primitive.writes? ↔
      key = n.id ∧ (n.action.isAllocation ∨ g.Saves n) := by
  have own {own : Block} (performs : g.Performs n own) :
      key ∈ own.operations.filterMap Primitive.writes? ↔ key = n.id ∧ n.action.isAllocation := by
    cases performs with
    | start action | assertBucketContains action | callMethod action | callFunction action
    | emitLog action | allocateAddress action =>
      simp [action, Action.isAllocation, Block.empty, Block.single, Primitive.writes?]
  cases contributes with
  | unsaved performs unsaved => rw [own performs, or_iff_left unsaved]
  | saved performs saves =>
    rw [List.filterMap_append, List.mem_append, own performs]
    simp [saves, saves.notAllocation, Primitive.writes?]

/-- A node whose output some data edge takes leaves something in the workspace. -/
theorem Contributes.exists_write_of_isConsumed (contributes : g.Contributes n b)
    (operation : n ∈ g.operations) (output : n.output.isSome) (consumed : g.isConsumed n.id) :
    ∃ p ∈ b.operations, p.writes? = some n.id := by
  have writes : n.action.isAllocation ∨ g.Saves n := by
    cases allocation : n.action.isAllocation with
    | true => exact .inl rfl
    | false => exact .inr ⟨output, allocation, (isConsumed_iff operation).1 consumed⟩
  exact List.mem_filterMap.1 (contributes.mem_writes_iff.2 ⟨rfl, writes⟩)

/-- A save stands right behind the primitive that its node performs, and in front of nothing, if the
node is no marker with an output. -/
theorem Contributes.eq_of_saveVar {inner outer : List Primitive} {key : NodeId}
    (contributes : g.Contributes n b) (silent : n.IsMarker → n.output = none)
    (split : b.operations = inner ++ .saveVar key :: outer) :
    n.id = key ∧ outer = [] ∧ ∃ p, inner = [p] ∧ g.Performs n (.single p) := by
  have mem : .saveVar key ∈ b.operations := split ▸ List.mem_append_cons_self
  cases contributes with
  | unsaved performs =>
    rcases performs.operations_cases with ⟨-, none⟩ | ⟨p, rfl, own, -⟩
    · simp [none] at mem
    · obtain rfl := List.mem_singleton.1 mem
      exact own.elim
  | saved performs saves =>
    rcases performs.operations_cases with ⟨marker, -⟩ | ⟨p, rfl, own, -⟩
    · exact absurd (silent marker) (Option.isSome_iff_ne_none.1 saves.output)
    · rcases inner with _ | ⟨q, inner⟩
      · obtain ⟨rfl, -⟩ := List.cons.inj split
        exact own.elim
      · obtain ⟨rfl, later⟩ := List.cons.inj split
        obtain ⟨rfl, rfl, rfl⟩ : inner = [] ∧ key = n.id ∧ outer = [] := by
          simpa [List.singleton_eq_append_iff] using later
        exact ⟨rfl, rfl, p, rfl, performs⟩

/-! ### All nodes -/

/-- What a plan is made up of, node by node: `entries` are the operations of the graph in the order
in which they run, each with what it contributes. -/
structure MadeUpOf (g : FlowGraph) (payment : FeePayment) (plan : Plan)
    (entries : List (OperationNode × Block)) : Prop where
  ordered : g.dependencies.order = .ok plan.order
  order : entries.map (fun e => e.1.id) = plan.order
  /-- Every operation comes once. -/
  nodes : (entries.map Prod.fst).Perm g.operations
  contributes : ∀ e ∈ entries, g.Contributes e.1 e.2
  operations : plan.transaction.operations =
    .payFee payment.account payment.fee :: entries.flatMap fun e => e.2.operations
  skipped : plan.transaction.skipped = entries.flatMap fun e => e.2.skipped

theorem exists_entries {order : List NodeId} {blocks : List Block}
    (ran : List.Forall₂ (fun id b => g.blockOf id = .ok b) order blocks) :
    ∃ entries : List (OperationNode × Block), entries.map (fun e => e.1.id) = order ∧
      entries.map Prod.snd = blocks ∧ ∀ e ∈ entries, e.1 ∈ g.operations ∧ g.Contributes e.1 e.2 := by
  induction ran with
  | nil => exact ⟨[], rfl, rfl, by simp⟩
  | @cons id b ids blocks added _ ih =>
    obtain ⟨entries, rfl, rfl, each⟩ := ih
    obtain ⟨n, found, block⟩ := blockOf_eq_ok_iff.1 added
    obtain ⟨operation, rfl⟩ := operation?_eq_some_iff.1 found
    exact ⟨(n, b) :: entries, rfl, rfl, List.forall_mem_cons.2
      ⟨⟨operation, (block_eq_ok_iff_contributes operation).1 block⟩, each⟩⟩

/-- Operations that are listed once by their identifiers, and all of them, are listed once. -/
theorem perm_operations_of_ids {nodes : List OperationNode}
    (operations : ∀ n ∈ nodes, n ∈ g.operations)
    (ids : (nodes.map OperationNode.id).Perm (g.operations.map OperationNode.id)) :
    nodes.Perm g.operations := by
  have nodup := g.nodup_operationIds
  refine (List.perm_ext_iff_of_nodup (ids.nodup_iff.2 nodup).of_map nodup.of_map).2 fun n => ?_
  refine ⟨operations n, fun operation => ?_⟩
  obtain ⟨m, mem, same⟩ := List.mem_map.1 (ids.mem_iff.2 (List.mem_map_of_mem operation))
  rwa [← eq_of_operation_id (operations m mem) operation same]

/-- **A plan is made up of what its nodes contribute.** -/
theorem exists_madeUpOf (planned : g.plan payment = .ok plan) :
    ∃ entries, g.MadeUpOf payment plan entries := by
  obtain ⟨ordered, -, assembled⟩ := plan_eq_ok_iff.1 planned
  obtain ⟨blocks, ran, made⟩ := assemble_eq_ok_iff.1 assembled
  obtain ⟨entries, order, rfl, each⟩ := exists_entries (forall₂_of_mapM ran)
  refine ⟨entries, ordered, order, perm_operations_of_ids ?_ ?_, fun e mem => (each e mem).2, ?_, ?_⟩
  · intro n mem
    obtain ⟨e, memEntries, rfl⟩ := List.mem_map.1 mem
    exact (each e memEntries).1
  · rw [List.map_map, Function.comp_def, order]
    exact (isLinearization_of_order ordered).perm
  · simp only [← made, List.flatMap_map]
  · simp only [← made, List.flatMap_map]

theorem MadeUpOf.nodup_writes {entries : List (OperationNode × Block)}
    (madeUp : g.MadeUpOf payment plan entries) :
    (plan.transaction.operations.filterMap Primitive.writes?).Nodup := by
  have sublist : (plan.transaction.operations.filterMap Primitive.writes?).Sublist plan.order := by
    rw [madeUp.operations, List.filterMap_cons_none rfl, ← madeUp.order]
    have contributes := madeUp.contributes
    clear madeUp
    induction entries with
    | nil => exact List.Sublist.refl _
    | cons e entries ih =>
      rw [List.flatMap_cons, List.filterMap_append]
      obtain ⟨head, tail⟩ := List.forall_mem_cons.1 contributes
      exact head.sublist_writes.append (ih tail)
  exact ((isLinearization_of_order madeUp.ordered).nodup g.isRelationOn_dependency).sublist sublist

/-- What there is to say of the operations of a plan, by what the nodes contribute: markers are the
nodes for which no primitive stands. -/
structure Accounted (g : FlowGraph) (payment : FeePayment) (plan : Plan)
    (entries : List (OperationNode × Block)) : Prop extends g.MadeUpOf payment plan entries where
  /-- The fee in front is the only one. -/
  payFee_not_mem : ∀ account fee, .payFee account fee ∉ entries.flatMap fun e => e.2.operations
  /-- A node's block ends with a save exactly if the node's result is to be left in the workspace. -/
  getLast?_iff : ∀ e ∈ entries,
    (e.2.operations.getLast? = some (.saveVar e.1.id) ↔ g.Saves e.1)
  /-- No key is saved twice, and none that an address is reserved under. -/
  nodup_writes : (plan.transaction.operations.filterMap Primitive.writes?).Nodup
  /-- A save stands right behind the primitive of its own node. -/
  save_behind : (∀ n ∈ g.operations, n.IsMarker → n.output = none) →
    ∀ front key back, plan.transaction.operations = front ++ .saveVar key :: back →
      ∃ done n b rest p, entries = done ++ (n, b) :: rest ∧ n.id = key ∧ g.Performs n (.single p) ∧
        front = .payFee payment.account payment.fee ::
          (done.flatMap fun e => e.2.operations) ++ [p] ∧
        back = rest.flatMap fun e => e.2.operations

/-- **The operations of a plan are accounted for.**  They are the fee and, in the order in which the
nodes run, what each of them contributes: nothing for a start, an entry in the list of skipped nodes
for a demand on a bucket, else one primitive of the node's kind; and behind it a save under the node's
name exactly if the node has an output that a data edge takes, to whichever operation, and reserves no
address. -/
theorem plan_accounted {g : FlowGraph} {payment : FeePayment} {plan : Plan}
    (planned : g.plan payment = .ok plan) : ∃ entries, g.Accounted payment plan entries := by
  obtain ⟨entries, madeUp⟩ := exists_madeUpOf planned
  refine ⟨entries, madeUp, fun account fee mem => ?_, fun e mem => ?_, madeUp.nodup_writes,
    fun silent front key back split => ?_⟩
  · obtain ⟨e, memEntries, mem⟩ := List.mem_flatMap.1 mem
    exact (madeUp.contributes e memEntries).payFee_not_mem account fee mem
  · exact (madeUp.contributes e mem).getLast?_iff
  rw [madeUp.operations] at split
  -- The fee is no save, so that the save stands in what some node contributes.
  rcases front with _ | ⟨first, front⟩
  · cases split
  obtain ⟨rfl, later⟩ := List.cons.inj split
  obtain ⟨done, ⟨n, b⟩, rest, inner, outer, rfl, block, rfl, rfl⟩ := exists_of_flatMap_eq_append later
  have operation : n ∈ g.operations :=
    madeUp.nodes.mem_iff.1 (List.mem_map_of_mem List.mem_append_cons_self)
  obtain ⟨rfl, rfl, p, rfl, performs⟩ :=
    (madeUp.contributes _ List.mem_append_cons_self).eq_of_saveVar (silent n operation) block
  exact ⟨done, n, b, rest, p, rfl, rfl, performs, rfl, rfl⟩

/-- A text is made and logged by the next node; a bucket is demanded something of, and an address is
reserved that nobody takes.  The nodes are listed in another order than they run in. -/
def delivery : FlowGraph where
  nodes :=
    [.operation (.new "check" .assertBucketContains),
      .operation ((OperationNode.emitLog "log").withValue OperationNode.logLevelName
        (.ok (.text "Info"))),
      .operation (.new "slot" (.allocateAddress .component)),
      .operation ((OperationNode.new "make" (.call ⟨false, "T", "t", ⟨"write", [], .string⟩⟩))
        |>.withOutput ⟨Handle.result, .string, none⟩),
      .operation (.start "begin")]
  edges :=
    [.control "begin" "make", .control "make" "log", .control "log" "check",
      .control "check" "slot", .between "make" Handle.result "log" OperationNode.logMessageName]
  nodup_ids := by decide

theorem delivery_accounted :
    ∃ plan, delivery.plan noFee = .ok plan ∧
      plan.order = ["begin", "make", "log", "check", "slot"] ∧
      plan.transaction.operations =
        [.payFee "account" ⟨0, by decide⟩, .callFunction "t" "write" [], .saveVar "make",
          .emitLog (.literal (.text "Info")) (.workspace "make" none),
          .allocateAddress .component "slot"] ∧
      plan.transaction.skipped = ["check"] ∧
      (∀ n ∈ delivery.operations, n.IsMarker → n.output = none) ∧
      ∃ entries, delivery.Accounted noFee plan entries :=
  ⟨_, rfl, rfl, rfl, rfl, by decide, plan_accounted rfl⟩

end FlowGraph

end FlowPlan
