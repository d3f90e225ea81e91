import FlowPlan.Proofs.Form.Graph
import FlowPlan.Proofs.Text.Amounts
import FlowPlan.Proofs.Workspace.Blocks
import FlowPlan.Transaction.Form

/-!
# Forms — transactions read back

A transaction is read back from its form, with the banks of its context in their order.  Two kinds
of place hold a value that may be missing, and there an explicit `null` reads as no value at all: the
arguments that refer to a bank (`Arg.NoNull`), and the parameters of the context.

* `Amount.ofJson?_toJson`: amounts of any size, by their digits.
* `Arg.ofJson?_toJson`, `Primitive.ofJson?_toJson`, `Context.ofJson?_toJson`: the parts.
* `Transaction.transaction_form_exact`: transactions.
-/

namespace FlowPlan

/-! ### Amounts -/

namespace Amount

/-- An amount is written as its decimal digits. -/
theorem toJson_eq (a : Amount) : a.toJson = .str (toString a.value) := by
  rw [toJson, text_eq]

/-- An amount of any size is read back from its digits. -/
@[simp]
theorem ofJson?_toJson (a : Amount) : ofJson? a.toJson = some a := by
  rw [ofJson?, ofJson_toJson]
  rfl

end Amount

/-! ### Arguments -/

namespace Arg

/-- The argument is no parameter whose value is an explicit `null`, which reads as none at all. -/
def NoNull : Arg → Prop
  | .input _ _ value => value ≠ some .null
  | .workspace .. | .literal _ => True

instance : (a : Arg) → Decidable a.NoNull
  | .input _ _ value => inferInstanceAs (Decidable (value ≠ some .null))
  | .workspace .. | .literal _ => inferInstanceAs (Decidable True)

/-- The half of a tuple that may be left out is read back from its name. -/
theorem present?_half (o : Option TupleHalf) :
    Fields.present? (TupleHalf.ofJson? .nullOrNoMembers) (o.map fun half => .str half.name) =
      some o := by
  refine Fields.present?_map (fun half _ => ?_) (by simp)
  simp [TupleHalf.ofJson?, Json.choice?, TupleHalf.ofName?_name]

/-- An argument is read back from its form, unless it has a value that is null. -/
@[simp]
theorem ofJson?_toJson {a : Arg} (h : a.NoNull) : ofJson? a.toJson = some a := by
  cases a with
  | workspace node half =>
    simp [ofJson?, toJson, workspaceOfFields?, Fields.required?, Fields.optional?_eq, present?_half]
  | input bank param value =>
    have present : value ≠ some .null := h
    simp [ofJson?, toJson, inputOfFields?, Fields.required?, Fields.optional?_eq, present]
  | literal value =>
    simp [ofJson?, toJson, literalOfFields?, Fields.required?, Fields.defaulted?]

/-- No argument is read with a null value. -/
theorem noNull_of_ofJson? {j : Json} {a : Arg} (h : ofJson? j = some a) : a.NoNull := by
  simp only [ofJson?, Option.bind_eq_bind, Option.bind_eq_some_iff] at h
  obtain ⟨fields, -, type, -, read⟩ := h
  split at read
  · simp only [workspaceOfFields?, Option.bind_eq_bind, Option.bind_eq_some_iff,
      Option.some.injEq] at read
    obtain ⟨_, -, _, -, rfl⟩ := read
    exact trivial
  · simp only [inputOfFields?, Option.bind_eq_bind, Option.bind_eq_some_iff,
      Option.some.injEq] at read
    obtain ⟨_, -, _, -, value, valueRead, rfl⟩ := read
    exact Fields.ne_null_of_optional? valueRead
  · simp only [literalOfFields?, Option.bind_eq_bind, Option.bind_eq_some_iff,
      Option.some.injEq] at read
    obtain ⟨_, -, rfl⟩ := read
    exact trivial
  · cases read

end Arg

/-! ### Primitives -/

namespace Primitive

/-- No operand is a parameter whose value is an explicit `null`. -/
def NoNulls (p : Primitive) : Prop :=
  ∀ a ∈ p.operands, a.NoNull

instance (p : Primitive) : Decidable p.NoNulls :=
  inferInstanceAs (Decidable (∀ a ∈ p.operands, a.NoNull))

/-- A primitive is read back with all its arguments. -/
theorem ofJson?_toJson {p : Primitive} (h : p.NoNulls) : ofJson? p.toJson = some p := by
  cases p with
  | payFee account fee => simp [ofJson?, toJson, payFeeOfFields?, Fields.required?]
  | callMethod receiver method args =>
    obtain ⟨first, others⟩ := List.forall_mem_cons.1 h
    have list : Json.list? Arg.ofJson? (.arr (args.map Arg.toJson)) = some args :=
      Json.list?_map fun a mem => Arg.ofJson?_toJson (others a mem)
    simp [ofJson?, toJson, callMethodOfFields?, Fields.required?, first, list]
  | callFunction templateAddress function args =>
    have list : Json.list? Arg.ofJson? (.arr (args.map Arg.toJson)) = some args :=
      Json.list?_map fun a mem => Arg.ofJson?_toJson (h a mem)
    simp [ofJson?, toJson, callFunctionOfFields?, Fields.required?, list]
  | emitLog level message =>
    have levelRead := Arg.ofJson?_toJson (h level (by simp [operands]))
    have messageRead := Arg.ofJson?_toJson (h message (by simp [operands]))
    simp [ofJson?, toJson, instructionOfJson?, Fields.required?, levelRead, messageRead]
  | allocateAddress kind workspaceId =>
    cases kind <;> simp [ofJson?, toJson, allocateName, allocateOfFields?, Fields.required?]
  | saveVar key => simp [ofJson?, toJson, saveVarOfFields?, Fields.required?]

/-- What is read of each item of a list holds of the list. -/
theorem noNulls_of_list? {j : Json} {args : List Arg} (h : Json.list? Arg.ofJson? j = some args) :
    ∀ a ∈ args, a.NoNull := by
  intro a mem
  obtain ⟨form, read⟩ := Json.exists_of_list? h mem
  exact Arg.noNull_of_ofJson? read

/-- No method call is read with a null value. -/
theorem noNulls_of_callMethodOfFields? {fields : Fields} {p : Primitive}
    (h : callMethodOfFields? fields = some p) : p.NoNulls := by
  simp only [callMethodOfFields?, Option.bind_eq_bind, Option.bind_eq_some_iff,
    Option.some.injEq] at h
  obtain ⟨receiver, receiverRead, _, -, args, argsRead, rfl⟩ := h
  obtain ⟨form, receiverRead⟩ := Fields.exists_of_required? receiverRead
  obtain ⟨list, argsRead⟩ := Fields.exists_of_required? argsRead
  exact List.forall_mem_cons.2 ⟨Arg.noNull_of_ofJson? receiverRead, noNulls_of_list? argsRead⟩

theorem noNulls_of_callFunctionOfFields? {fields : Fields} {p : Primitive}
    (h : callFunctionOfFields? fields = some p) : p.NoNulls := by
  simp only [callFunctionOfFields?, Option.bind_eq_bind, Option.bind_eq_some_iff,
    Option.some.injEq] at h
  obtain ⟨_, -, _, -, args, argsRead, rfl⟩ := h
  obtain ⟨list, argsRead⟩ := Fields.exists_of_required? argsRead
  exact noNulls_of_list? argsRead

theorem noNulls_of_instructionOfJson? {j : Json} {p : Primitive}
    (h : instructionOfJson? j = some p) : p.NoNulls := by
  rw [instructionOfJson?.eq_def] at h
  split at h
  · simp only [Option.bind_eq_bind, Option.bind_eq_some_iff, Option.some.injEq] at h
    obtain ⟨fields, -, level, levelRead, message, messageRead, rfl⟩ := h
    obtain ⟨levelForm, levelRead⟩ := Fields.exists_of_required? levelRead
    obtain ⟨messageForm, messageRead⟩ := Fields.exists_of_required? messageRead
    simpa [NoNulls, operands] using
      ⟨Arg.noNull_of_ofJson? levelRead, Arg.noNull_of_ofJson? messageRead⟩
  · cases h

theorem noNulls_of_operands_eq_nil {p : Primitive} (none : p.operands = []) : p.NoNulls := by
  rw [NoNulls, none]
  exact List.forall_mem_nil _

theorem noNulls_of_payFeeOfFields? {fields : Fields} {p : Primitive}
    (h : payFeeOfFields? fields = some p) : p.NoNulls := by
  simp only [payFeeOfFields?, Option.bind_eq_bind, Option.bind_eq_some_iff, Option.some.injEq] at h
  obtain ⟨_, -, _, -, rfl⟩ := h
  exact noNulls_of_operands_eq_nil rfl

theorem noNulls_of_allocateOfFields? {kind : AddressKind} {fields : Fields} {p : Primitive}
    (h : allocateOfFields? kind fields = some p) : p.NoNulls := by
  simp only [allocateOfFields?, Option.bind_eq_bind, Option.bind_eq_some_iff,
    Option.some.injEq] at h
  obtain ⟨_, -, rfl⟩ := h
  exact noNulls_of_operands_eq_nil rfl

theorem noNulls_of_saveVarOfFields? {fields : Fields} {p : Primitive}
    (h : saveVarOfFields? fields = some p) : p.NoNulls := by
  simp only [saveVarOfFields?, Option.bind_eq_bind, Option.bind_eq_some_iff, Option.some.injEq] at h
  obtain ⟨_, -, rfl⟩ := h
  exact noNulls_of_operands_eq_nil rfl

theorem noNulls_of_ofJson? {j : Json} {p : Primitive} (h : ofJson? j = some p) : p.NoNulls := by
  simp only [ofJson?, Option.bind_eq_bind, Option.bind_eq_some_iff] at h
  obtain ⟨fields, -, type, -, read⟩ := h
  split at read
  · exact noNulls_of_payFeeOfFields? read
  · exact noNulls_of_callMethodOfFields? read
  · exact noNulls_of_callFunctionOfFields? read
  · obtain ⟨form, instruction⟩ := Fields.exists_of_required? read
    exact noNulls_of_instructionOfJson? instruction
  · exact noNulls_of_allocateOfFields? read
  · exact noNulls_of_allocateOfFields? read
  · exact noNulls_of_saveVarOfFields? read
  · cases read

end Primitive

/-! ### Contexts -/

/-- The value of the parameter is no explicit `null`. -/
def SuppliedParam.NoNull (p : SuppliedParam) : Prop :=
  p.value ≠ some .null

instance (p : SuppliedParam) : Decidable p.NoNull :=
  inferInstanceAs (Decidable (p.value ≠ some .null))

/-- A supplied parameter is read back from its form, unless its value is null. -/
@[simp]
theorem SuppliedParam.ofJson?_toJson {p : SuppliedParam} (h : p.NoNull) :
    ofJson? p.toJson = some p := by
  have present : p.value ≠ some .null := h
  simp [ofJson?, toJson, Fields.required?, Fields.optional?_eq, present]

/-- No supplied parameter is read with a null value. -/
theorem SuppliedParam.noNull_of_ofJson? {j : Json} {p : SuppliedParam} (h : ofJson? j = some p) :
    p.NoNull := by
  simp only [ofJson?, Option.bind_eq_bind, Option.bind_eq_some_iff, Option.some.injEq] at h
  obtain ⟨_, -, _, -, value, valueRead, rfl⟩ := h
  exact Fields.ne_null_of_optional? valueRead

/-- No parameter of a bank has an explicit `null` as its value. -/
def Context.NoNulls (c : Context) : Prop :=
  ∀ bank ∈ c.entries, ∀ p ∈ bank.2, p.NoNull

instance (c : Context) : Decidable c.NoNulls :=
  inferInstanceAs (Decidable (∀ bank ∈ c.entries, ∀ p ∈ bank.2, p.NoNull))

/-- A context is read back, its banks in their order. -/
theorem Context.ofJson?_toJson {c : Context} (h : c.NoNulls) : ofJson? c.toJson = some c := by
  have banks : OrderedMap.ofJson? (Json.list? SuppliedParam.ofJson?)
      (OrderedMap.toJson SuppliedParam.listToJson c) = some c :=
    OrderedMap.ofJson?_toJson fun bank mem =>
      Json.list?_map fun p memp => SuppliedParam.ofJson?_toJson (h bank mem p memp)
  simp [ofJson?, toJson, Fields.required?, banks]

/-- No context is read with a null value. -/
theorem Context.noNulls_of_ofJson? {j : Json} {c : Context} (h : ofJson? j = some c) :
    c.NoNulls := by
  simp only [ofJson?, Option.bind_eq_bind, Option.bind_eq_some_iff] at h
  obtain ⟨_, -, params⟩ := h
  obtain ⟨form, read⟩ := Fields.exists_of_required? params
  intro bank mem p memp
  obtain ⟨list, listRead⟩ := OrderedMap.exists_of_ofJson? read mem
  obtain ⟨item, itemRead⟩ := Json.exists_of_list? listRead memp
  exact SuppliedParam.noNull_of_ofJson? itemRead

/-! ### Transactions -/

namespace Transaction

/-- No operand and no parameter of a bank has an explicit `null` as its value. -/
def NoNulls (t : Transaction) : Prop :=
  t.context.NoNulls ∧ ∀ p ∈ t.operations, p.NoNulls

instance (t : Transaction) : Decidable t.NoNulls :=
  inferInstanceAs (Decidable (t.context.NoNulls ∧ ∀ p ∈ t.operations, p.NoNulls))

theorem ofJson?_toJson {t : Transaction} (h : t.NoNulls) : ofJson? t.toJson = some t := by
  obtain ⟨c, ps, skipped⟩ := t
  have context : Context.ofJson? c.toJson = some c := Context.ofJson?_toJson h.1
  have operations : Json.list? Primitive.ofJson? (.arr (ps.map Primitive.toJson)) = some ps :=
    Json.list?_map fun p mem => Primitive.ofJson?_toJson (h.2 p mem)
  cases skipped with
  | nil => simp [ofJson?, toJson, Fields.required?, Fields.defaulted?, context, operations]
  | cons id ids =>
    have skipped : Json.list? Json.string? (Json.strings (id :: ids)) = some (id :: ids) :=
      Json.list?_strings (id :: ids)
    simp [ofJson?, toJson, Fields.required?, Fields.defaulted?, context, operations, skipped]

theorem noNulls_of_ofJson? {j : Json} {t : Transaction} (h : ofJson? j = some t) : t.NoNulls := by
  simp only [ofJson?, Option.bind_eq_bind, Option.bind_eq_some_iff, Option.some.injEq] at h
  obtain ⟨_, -, context, contextRead, operations, operationsRead, _, -, rfl⟩ := h
  obtain ⟨contextForm, contextRead⟩ := Fields.exists_of_required? contextRead
  obtain ⟨list, operationsRead⟩ := Fields.exists_of_required? operationsRead
  refine ⟨Context.noNulls_of_ofJson? contextRead, fun p mem => ?_⟩
  obtain ⟨form, read⟩ := Json.exists_of_list? operationsRead mem
  exact Primitive.noNulls_of_ofJson? read

/-- **The form of a transaction is read back exactly if no value in it is an explicit `null`**,
which is so of every transaction that was read.  An amount of up to `2^128 - 1` is written as its
decimal digits and read back from them, and only a list of skipped nodes that is not empty is
written. -/
theorem transaction_form_exact :
    (∀ t : Transaction, ofJson? t.toJson = some t ↔ t.NoNulls) ∧
      (∀ (j : Json) (t : Transaction), ofJson? j = some t → t.NoNulls) ∧
      (∀ n : Nat, (h : n < Nat.pow 2 128) →
        (⟨n, h⟩ : Amount).toJson = .str (toString n) ∧
          Amount.ofJson? (.str (toString n)) = some ⟨n, h⟩) ∧
      ∀ t : Transaction, t.toJson.members?.map (·.map Prod.fst) =
        some (["context", "operations"] ++ if t.skipped = [] then [] else ["skipped"]) := by
  refine ⟨fun t => ⟨noNulls_of_ofJson?, ofJson?_toJson⟩, fun _ _ => noNulls_of_ofJson?,
    fun n h => ?_, fun t => ?_⟩
  · have written : (⟨n, h⟩ : Amount).toJson = .str (toString n) := Amount.toJson_eq _
    exact ⟨written, written ▸ Amount.ofJson?_toJson _⟩
  · cases none : t.skipped <;> simp [toJson, none]

/-- A transaction that pays the largest fee, has arguments of every form and skips a node. -/
def sampleTransaction : Transaction where
  context := .ofList
    [("Zeta", [⟨⟨"p", "amount", .vec .string⟩, some (.tagged "a" "b")⟩]),
      ("Alpha", [⟨⟨"q", "target", .other "Component"⟩, none⟩])]
  operations :=
    [.payFee "account" ⟨Nat.pow 2 128 - 1, by decide⟩,
      .allocateAddress .resource "address",
      .callMethod (.input "Alpha" ⟨"q", "target", .other "Component"⟩ none) "deposit"
        [.workspace "call" (some .first), .workspace "address" none, .literal .null],
      .callFunction "template" "create"
        [.input "Zeta" ⟨"p", "amount", .vec .string⟩ (some (.tagged "a" "b"))],
      .saveVar "call",
      .emitLog (.literal (.text "Info")) (.literal (.bool true))]
  skipped := ["unused"]

/-- The sample transaction is read back, and so is the greatest amount. -/
theorem sampleTransaction_form :
    sampleTransaction.NoNulls ∧ ofJson? sampleTransaction.toJson = some sampleTransaction ∧
      Amount.ofJson? (.str (toString (Nat.pow 2 128 - 1))) =
        some ⟨Nat.pow 2 128 - 1, by decide⟩ := by
  obtain ⟨round, -, amounts, -⟩ := transaction_form_exact
  have noNulls : sampleTransaction.NoNulls := by decide
  exact ⟨noNulls, (round _).2 noNulls, (amounts _ (by decide)).2⟩

end Transaction

end FlowPlan
