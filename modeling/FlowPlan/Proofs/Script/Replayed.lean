import Mathlib.Data.List.Nodup
import FlowPlan.Proofs.Assembly.Accounted
import FlowPlan.Proofs.Script.Meaning
import FlowPlan.Proofs.Script.Titles

/-!
# Script — replayed plans

A plan is carried out in two ways: its primitives are replayed on a builder, or a module is
generated whose statements call one.  A replay passes on the value that an argument carries with it;
a module looks it up, by the title of the bank and the name of the parameter, among constants that
are made of the context.  Where titles and names do not repeat, both find what the bank holds
(`Script.WellNamed.supplies`), so that the text of the module, read back, makes the calls of the
replay, one by one.

Only the fee can differ.  A replay passes it on as decimal digits, whatever its size; the module has
it as a number literal, and that is a double.

* `FlowGraph.exists_program`: what a plan's module makes of the calls of the plan's replay.
* `FlowGraph.statements_make_calls`: the calls are the same exactly if the fee is a double.
* `FlowGraph.exists_fee_rounded`: a plan whose module pays less than the plan says.
-/

namespace FlowPlan

/-! ### Replays -/

section Replays

variable {operations : List Primitive} {calls : List BuilderCall}

/-- The statements of primitives make the calls of their replay, as a module writes them. -/
theorem Program.map_callOf?_statement {p : Program}
    (supplied : ∀ o ∈ operations, ∀ a ∈ o.operands, p.Supplies a)
    (replayed : replay operations = (calls, .ok ())) :
    (operations.map Primitive.statement).map p.callOf? = calls.map BuilderCall.asWritten? := by
  have made := replay_eq_ok_iff.1 replayed
  clear replayed
  induction made with
  | nil => rfl
  | @cons o c rest calls makes _ ih =>
    rw [List.map_cons, List.map_cons, List.map_cons,
      callOf?_statement (supplied o List.mem_cons_self) makes,
      ih fun q mem => supplied q (List.mem_cons_of_mem o mem)]

/-- A replay pays the fees that its primitives pay. -/
theorem payFee_mem_iff_of_replay {account : String} {fee : Amount}
    (replayed : replay operations = (calls, .ok ())) :
    .payFee account fee ∈ calls ↔ .payFee account fee ∈ operations := by
  have made := replay_eq_ok_iff.1 replayed
  clear replayed
  induction made with
  | nil => exact iff_of_false List.not_mem_nil List.not_mem_nil
  | cons makes _ ih =>
    rw [List.mem_cons, List.mem_cons]
    refine or_congr ?_ ih
    cases makes <;> simp

end Replays

/-! ### Modules -/

/-- The banks of a module can be told apart by their titles, and the parameters of each by their
names, and all of these are identifiers. -/
structure Script.WellNamed (s : Script) : Prop where
  titles : (s.banks.map BankDeclaration.name).Nodup
  params : ∀ b ∈ s.banks, (b.params.map fun p => p.param.name).Nodup
  title_isIdentifier : ∀ b ∈ s.banks, Text.isIdentifier b.name.toList
  param_isIdentifier : ∀ b ∈ s.banks, ∀ p ∈ b.params, Text.isIdentifier p.param.name.toList

namespace Transaction

variable {t : Transaction} {s : Script}

/-- A module declares the banks of the context, and has a statement for every primitive. -/
theorem script_eq_ok (h : t.script = .ok s) :
    s = ⟨t.context.entries.map fun e => ⟨e.1, e.2⟩, t.operations.map Primitive.statement⟩ := by
  obtain ⟨banks, declared, h⟩ := bind_eq_ok_iff.1 h
  cases h
  have same : t.context.entries.map (fun e => BankDeclaration.mk e.1 e.2) = banks := by
    rw [← List.forall₂_eq_eq_eq, List.forall₂_map_left_iff]
    exact (forall₂_of_mapM declared).imp fun _ _ made => (BankDeclaration.ofContext_eq_ok_iff.1 made).1
  rw [same]

theorem scriptText_eq_ok (h : t.script = .ok s) : t.scriptText = .ok s.render := by
  rw [scriptText, h]
  rfl

/-- The names of every bank that a module declares are identifiers. -/
theorem isIdentifier_of_script {b : BankDeclaration} (h : t.script = .ok s) (mem : b ∈ s.banks) :
    Text.isIdentifier b.name.toList ∧ ∀ p ∈ b.params, Text.isIdentifier p.param.name.toList := by
  obtain ⟨_, declared, made⟩ := bind_eq_ok_iff.1 h
  cases made
  obtain ⟨e, -, made⟩ := exists_of_mem_mapM declared mem
  obtain ⟨rfl, identifiers⟩ := BankDeclaration.ofContext_eq_ok_iff.1 made
  exact identifiers

/-- The banks that a module declares are those of the context. -/
theorem map_name_of_script (h : t.script = .ok s) :
    s.banks.map BankDeclaration.name = t.context.keys := by
  rw [script_eq_ok h, List.map_map]
  rfl

/-- The titles of a context are apart anyway, so only the names of parameters have to be. -/
theorem wellNamed_of_script (h : t.script = .ok s)
    (params : ∀ e ∈ t.context.entries, (e.2.map fun p => p.param.name).Nodup) : s.WellNamed := by
  refine ⟨?_, fun b mem => ?_, fun b mem => (isIdentifier_of_script h mem).1,
    fun b mem => (isIdentifier_of_script h mem).2⟩
  · rw [map_name_of_script h]
    exact t.context.nodup_keys
  · rw [script_eq_ok h] at mem
    obtain ⟨e, memEntries, rfl⟩ := List.mem_map.1 mem
    exact params e memEntries

end Transaction

/-! ### Looking up -/

/-- What is looked up under a key that is not repeated is found. -/
theorem find?_eq_some_of_nodup {α : Type} {key : α → String} {xs : List α} {x : α}
    (nodup : (xs.map key).Nodup) (mem : x ∈ xs) : xs.find? (fun y => key y = key x) = some x := by
  cases found : xs.find? fun y => key y = key x with
  | none => exact absurd (decide_eq_true rfl) (List.find?_eq_none.1 found x mem)
  | some y =>
    have same : key y = key x := by simpa using List.find?_some found
    rw [List.inj_on_of_nodup_map nodup (List.mem_of_find?_eq_some found) mem same]

/-- The constant of a bank gives a property the value of the parameter of that name. -/
theorem BankDeclaration.property?_values {b : BankDeclaration} {p : SuppliedParam}
    (names : (b.params.map fun p => p.param.name).Nodup) (mem : p ∈ b.params) :
    b.values.property? p.param.name = some (valueExpr p) := by
  have nodup : ((b.params.reverse).map fun p => p.param.name).Nodup := by
    rw [List.map_reverse]
    exact List.nodup_reverse.2 names
  have found := find?_eq_some_of_nodup nodup (List.mem_reverse.2 mem)
  rw [values, Expr.property?, ← List.map_reverse, List.find?_map, Function.comp_def, found]
  rfl

namespace Script

variable {s : Script}

/-- A property of a bank's constant holds the value of the bank's parameter of that name. -/
theorem WellNamed.read_eq {b : BankDeclaration} {p : SuppliedParam} (named : s.WellNamed)
    (bank : b ∈ s.banks) (mem : p ∈ b.params) :
    s.program.read b.name p.param.name = p.value.map Value.json := by
  have constant : s.program.constants.find? (·.1 = b.name) = some (b.name, b.values) := by
    rw [program, List.find?_map, Function.comp_def, find?_eq_some_of_nodup named.titles bank]
    rfl
  rw [Program.read, constant]
  simp only [Option.bind_eq_bind, Option.bind_some, b.property?_values (named.params b bank) mem]
  rw [BankDeclaration.valueExpr]
  cases p.value with
  | none => rfl
  | some v => exact Expr.value?_ofJson v.json

/-- A bank of the module declares the parameter that an argument refers to, with the value that the
argument carries with it. -/
def Declares (s : Script) : Arg → Prop
  | .input title param value => ∃ b ∈ s.banks, b.name = title ∧ ⟨param, value⟩ ∈ b.params
  | .workspace .. | .literal _ => True

/-- **A module has the value of whatever it declares.** -/
theorem WellNamed.supplies {a : Arg} (named : s.WellNamed) (declared : s.Declares a) :
    s.program.Supplies a := by
  match a with
  | .workspace .. | .literal _ | .input _ _ none => trivial
  | .input title param (some value) =>
    obtain ⟨b, bank, rfl, mem⟩ := declared
    exact named.read_eq bank mem

/-! ### Readable modules -/

/-- The expression of what a module declares can be read. -/
theorem WellNamed.readable_expr {a : Arg} (named : s.WellNamed) (declared : s.Declares a) :
    a.expr.Readable := by
  match a with
  | .workspace .. => exact ⟨nofun, trivial, trivial⟩
  | .literal value => exact Expr.readable_ofJson value.json
  | .input title param value =>
    obtain ⟨b, bank, rfl, mem⟩ := declared
    exact ⟨named.title_isIdentifier b bank, named.param_isIdentifier b bank _ mem⟩

end Script

/-- Arguments can be read one by one. -/
theorem Expr.itemsReadable_map_expr {args : List Arg} (readable : ∀ a ∈ args, a.expr.Readable) :
    ItemsReadable (args.map Arg.expr) := by
  induction args with
  | nil => trivial
  | cons a rest ih =>
    exact ⟨readable a List.mem_cons_self, ih fun b mem => readable b (List.mem_cons_of_mem a mem)⟩

/-- A call on the builder can be read if its arguments can. -/
theorem readable_builderCall {method : String} {args : List Expr}
    (identifier : Text.isIdentifier method.toList) (readable : Expr.ItemsReadable args) :
    (builderCall method args).Readable :=
  ⟨⟨"builder", method, by decide, identifier, rfl⟩, readable⟩

/-- A statement can be read if its arguments can. -/
theorem Primitive.readable_statement {o : Primitive}
    (readable : ∀ a ∈ o.operands, a.expr.Readable) : o.statement.Readable := by
  cases o with
  | payFee account fee =>
    have amount : (Expr.call "Amount.of" [.atom (.int fee.value)]).Readable :=
      ⟨⟨"Amount", "of", by decide, by decide, rfl⟩, trivial, trivial⟩
    exact readable_builderCall (by decide) ⟨trivial, amount, trivial⟩
  | callMethod receiver method args =>
    have others := Expr.itemsReadable_map_expr fun a mem =>
      readable a (List.mem_cons_of_mem receiver mem)
    exact readable_builderCall (by decide)
      ⟨Expr.readable_block ⟨readable receiver List.mem_cons_self, trivial, trivial⟩, others, trivial⟩
  | callFunction templateAddress function args =>
    exact readable_builderCall (by decide)
      ⟨Expr.readable_block ⟨trivial, trivial, trivial⟩, Expr.itemsReadable_map_expr readable, trivial⟩
  | emitLog level message =>
    have fields : (Expr.object .block [("level", level.expr), ("message", message.expr)]).Readable :=
      Expr.readable_block
        ⟨readable level (by simp [operands]), readable message (by simp [operands]), trivial⟩
    exact readable_builderCall (by decide) ⟨Expr.readable_block ⟨fields, trivial⟩, trivial⟩
  | allocateAddress kind workspaceId =>
    exact readable_builderCall (by decide) ⟨trivial, trivial, trivial⟩
  | saveVar key => exact readable_builderCall (by decide) ⟨trivial, trivial⟩

theorem Primitive.exists_builderCall (o : Primitive) :
    ∃ method args, o.statement = builderCall method args := by
  cases o <;> exact ⟨_, _, rfl⟩

/-! ### Plans -/

namespace FlowGraph

variable {g : FlowGraph} {payment : FeePayment} {plan : Plan} {s : Script}

/-- Where no two titles are equal, the context has an entry for every bank, or the default one. -/
theorem entries_context (titles : (g.inputBanks.map InputBank.title).Nodup) :
    g.context.entries =
      if g.inputBanks = [] then [(defaultBankTitle, [])]
      else g.inputBanks.map fun b => (b.title, suppliedParams b) := by
  unfold context
  cases banks : g.inputBanks with
  | nil => rfl
  | cons first rest =>
    rw [banks] at titles
    rw [if_neg (by simp)]
    refine OrderedMap.entries_ofList ?_
    simpa [Function.comp_def] using titles

theorem map_name_suppliedParams (b : InputBank) :
    (suppliedParams b).map (fun p => p.param.name) = b.params.map BankParam.name := by
  rw [suppliedParams, List.map_map]
  rfl

/-- The module of a plan is well named, if the banks of the graph are. -/
theorem wellNamed_of_plan (titles : (g.inputBanks.map InputBank.title).Nodup)
    (names : ∀ b ∈ g.inputBanks, (b.params.map BankParam.name).Nodup)
    (planned : g.plan payment = .ok plan) (script : plan.transaction.script = .ok s) :
    s.WellNamed := by
  refine Transaction.wellNamed_of_script script fun e mem => ?_
  rw [context_of_plan planned, entries_context titles] at mem
  split at mem
  · obtain rfl := List.mem_singleton.1 mem
    exact List.nodup_nil
  · obtain ⟨b, bank, rfl⟩ := List.mem_map.1 mem
    rw [map_name_suppliedParams]
    exact names b bank

/-- **The module of a plan declares whatever the plan refers to.** -/
theorem declares_of_plan (titles : (g.inputBanks.map InputBank.title).Nodup)
    (planned : g.plan payment = .ok plan) (script : plan.transaction.script = .ok s) :
    ∀ p ∈ plan.transaction.operations, ∀ a ∈ p.operands, s.Declares a := by
  intro p mem a operand
  rcases mem_operations_of_plan planned mem with rfl | ⟨n, -, block, added, memBlock⟩
  · cases operand
  obtain ⟨i, -, rfl⟩ := exists_input_of_mem_block added memBlock operand
  match taken : g.argument n i.name with
  | .workspace .. | .literal _ => trivial
  | .input title param value =>
    obtain ⟨b, bank, rfl, declared, rfl⟩ := exists_bank_of_argument taken
    have entry : (b.title, suppliedParams b) ∈ plan.transaction.context.entries := by
      rw [context_of_plan planned, entries_context titles, if_neg (List.ne_nil_of_mem bank)]
      exact List.mem_map_of_mem bank
    refine ⟨⟨b.title, suppliedParams b⟩, ?_, rfl, List.mem_map_of_mem declared⟩
    rw [Transaction.script_eq_ok script]
    exact List.mem_map_of_mem entry

/-- The module of a plan can be read. -/
theorem readable_of_plan (titles : (g.inputBanks.map InputBank.title).Nodup)
    (named : s.WellNamed) (planned : g.plan payment = .ok plan)
    (script : plan.transaction.script = .ok s) : s.Readable := by
  refine ⟨named.title_isIdentifier, named.param_isIdentifier, fun e mem => ?_⟩
  have declared := declares_of_plan titles planned script
  rw [Transaction.script_eq_ok script] at mem
  obtain ⟨o, memOperations, rfl⟩ := List.mem_map.1 mem
  exact ⟨o.readable_statement fun a operand =>
      named.readable_expr (declared o memOperations a operand),
    o.exists_builderCall⟩

/-- The operations of a plan pay the fee of the plan, and no other. -/
theorem payFee_mem_operations_iff (planned : g.plan payment = .ok plan) {account : String}
    {fee : Amount} :
    .payFee account fee ∈ plan.transaction.operations ↔
      account = payment.account ∧ fee = payment.fee := by
  constructor
  · intro mem
    rcases mem_operations_of_plan planned mem with same | ⟨n, operation, block, added, memBlock⟩
    · exact Primitive.payFee.inj same
    · -- No node adds a fee of its own.
      have contributes := (block_eq_ok_iff_contributes operation).1 added
      exact absurd memBlock (contributes.payFee_not_mem account fee)
  · rintro ⟨rfl, rfl⟩
    obtain ⟨-, -, assembled⟩ := plan_eq_ok_iff.1 planned
    obtain ⟨blocks, -, made⟩ := assemble_eq_ok_iff.1 assembled
    rw [← made]
    exact List.mem_cons_self

/-- **The module of a plan makes the calls of the plan's replay**, the fee as a number literal gives
it: this is what the text of the module says. -/
theorem exists_program {text : String} {calls : List BuilderCall}
    (titles : (g.inputBanks.map InputBank.title).Nodup)
    (names : ∀ b ∈ g.inputBanks, (b.params.map BankParam.name).Nodup)
    (planned : g.plan payment = .ok plan) (written : plan.transaction.scriptText = .ok text)
    (replayed : replay plan.transaction.operations = (calls, .ok ())) :
    ∃ p, Program.ofText? text = some p ∧
      p.statements.map p.callOf? = calls.map BuilderCall.asWritten? := by
  obtain ⟨s, script, rfl⟩ := map_eq_ok_iff.1 written
  have named := wellNamed_of_plan titles names planned script
  have declared := declares_of_plan titles planned script
  have statements : s.program.statements = plan.transaction.operations.map Primitive.statement := by
    rw [Transaction.script_eq_ok script]
    rfl
  refine ⟨s.program, Program.ofText?_render (readable_of_plan titles named planned script), ?_⟩
  rw [statements]
  exact Program.map_callOf?_statement
    (fun o mem a operand => named.supplies (declared o mem a operand)) replayed

/-- Every call of a plan's replay is written as it is exactly if a number literal gives the fee. -/
theorem map_asWritten?_eq_iff {calls : List BuilderCall} (planned : g.plan payment = .ok plan)
    (replayed : replay plan.transaction.operations = (calls, .ok ())) :
    calls.map BuilderCall.asWritten? = calls.map some ↔
      ∃ m e, m < 2 ^ 53 ∧ payment.fee.value = m * 2 ^ e := by
  have paid (account : String) (fee : Amount) :
      .payFee account fee ∈ calls ↔ account = payment.account ∧ fee = payment.fee :=
    (payFee_mem_iff_of_replay replayed).trans (payFee_mem_operations_iff planned)
  rw [List.map_inj_left]
  simp only [BuilderCall.asWritten?_eq_some_iff]
  constructor
  · exact fun all => all _ ((paid _ _).2 ⟨rfl, rfl⟩) _ _ rfl
  · rintro exact _ mem account fee rfl
    obtain ⟨-, rfl⟩ := (paid account fee).1 mem
    exact exact

/-- **The statements of a plan's module make the calls of the plan's replay**, one by one, except
that the fee is passed as a number literal.  Read back from the text of the module, a statement has
the method of the call, its addresses, names and keys, and equal values of its arguments.  The fee is
the same, too, exactly if it is a double: if no more than fifty-three of its binary digits stand in
front of the zeros at its end. -/
theorem statements_make_calls {g : FlowGraph} {payment : FeePayment} {plan : Plan} {text : String}
    {calls : List BuilderCall} (titles : (g.inputBanks.map InputBank.title).Nodup)
    (names : ∀ b ∈ g.inputBanks, (b.params.map BankParam.name).Nodup)
    (planned : g.plan payment = .ok plan) (written : plan.transaction.scriptText = .ok text)
    (replayed : replay plan.transaction.operations = (calls, .ok ())) :
    ∃ p, Program.ofText? text = some p ∧
      p.statements.map p.callOf? = calls.map BuilderCall.asWritten? ∧
      (p.statements.map p.callOf? = calls.map some ↔
        ∃ m e, m < 2 ^ 53 ∧ payment.fee.value = m * 2 ^ e) := by
  obtain ⟨p, read, called⟩ := exists_program titles names planned written replayed
  refine ⟨p, read, called, ?_⟩
  rw [called]
  exact map_asWritten?_eq_iff planned replayed

/-- An address is reserved, a function is called with an object that is typed in, a method on a
component from a bank takes half of its result and a price from the bank, and a line is logged. -/
def purchase : FlowGraph where
  nodes :=
    [.operation (OperationNode.start "begin"),
      .operation ((OperationNode.new "slot" (.allocateAddress .component))),
      .operation ((OperationNode.new "make" (.call ⟨false, "T", "t", ⟨"mint", [], .unit⟩⟩))
        |>.withInput (.parameter "terms" .string)
        |>.withValue "terms" (.ok (.ofJson (.obj [("limit", .int 7), ("tags", .arr [.null])])))
        |>.withOutput ⟨Handle.result, .tuple [.string, .string], none⟩),
      .operation ((OperationNode.new "use" (.call ⟨true, "T", "t", ⟨"buy", [], .unit⟩⟩))
        |>.withInput .receiver |>.withInput (.parameter "name" .string)
        |>.withInput (.parameter "price" .string)),
      .operation ((OperationNode.emitLog "log").withValue OperationNode.logLevelName
        (.ok (.text "Info"))),
      .inputBank ((InputBank.new "bank" "inputs")
        |>.withParam ⟨"p", "shop", .other "Component"⟩ (some (.ok (.text "component_1")))
        |>.withParam ⟨"q", "price", .scalar (.unsigned .w8)⟩ (some (.ok (.ofJson (.int 3))))
        |>.withParam ⟨"r", "unused", .string⟩ none)]
  edges :=
    [.control "begin" "slot", .control "slot" "make", .control "make" "use", .control "use" "log",
      .between "make" Handle.resultSecond "use" "name",
      .between "bank" "p" "use" Input.receiverName, .between "bank" "q" "use" "price",
      .between "bank" "p" "log" OperationNode.logMessageName]
  nodup_ids := by decide

/-- What the plan of `purchase` is made of. -/
def purchaseOperations : List Primitive :=
  [.payFee "account" ⟨1, by decide⟩, .allocateAddress .component "slot",
    .callFunction "t" "mint"
      [.literal (.ofJson (.obj [("limit", .int 7), ("tags", .arr [.null])]))],
    .saveVar "make",
    .callMethod
      (.input "inputs" ⟨"p", "shop", .other "Component"⟩ (some (.text "component_1"))) "buy"
      [.workspace "make" (some .second),
        .input "inputs" ⟨"q", "price", .scalar (.unsigned .w8)⟩ (some (.ofJson (.int 3)))],
    .emitLog (.literal (.text "Info"))
      (.input "inputs" ⟨"p", "shop", .other "Component"⟩ (some (.text "component_1")))]

/-- The calls that the plan of `purchase` makes. -/
def purchaseCalls : List BuilderCall :=
  [.payFee "account" ⟨1, by decide⟩, .allocateAddress .component "slot",
    .callFunction "t" "mint" [.ofJson (.obj [("limit", .int 7), ("tags", .arr [.null])])],
    .saveVar "make",
    .callMethod "component_1" "buy" [.tagged "Workspace" "make.1", .ofJson (.int 3)],
    .addInstruction (.ofJson (.obj [("EmitLog",
      .obj [("level", .str "Info"), ("message", .str "component_1")])]))]

/-- The module of `purchase` makes the six calls of its replay. -/
theorem purchase_statements_make_calls :
    (purchase.inputBanks.map InputBank.title).Nodup ∧
      (∀ b ∈ purchase.inputBanks, (b.params.map BankParam.name).Nodup) ∧
      ∃ plan text, purchase.plan ⟨"account", ⟨1, by decide⟩⟩ = .ok plan ∧
        plan.transaction.scriptText = .ok text ∧
        replay plan.transaction.operations = (purchaseCalls, .ok ()) ∧
        ∃ p, Program.ofText? text = some p ∧
          p.statements.map p.callOf? = purchaseCalls.map BuilderCall.asWritten? ∧
          (p.statements.map p.callOf? = purchaseCalls.map some ↔
            ∃ m e, m < 2 ^ 53 ∧ 1 = m * 2 ^ e) := by
  have titles : (purchase.inputBanks.map InputBank.title).Nodup := by decide
  have names : ∀ b ∈ purchase.inputBanks, (b.params.map BankParam.name).Nodup := by decide
  have planned : purchase.plan ⟨"account", ⟨1, by decide⟩⟩ =
    .ok ⟨["begin", "slot", "make", "use", "log"], purchase.context, purchaseOperations, []⟩ := rfl
  have written := Transaction.scriptText_eq_ok
    (t := ⟨purchase.context, purchaseOperations, []⟩) rfl
  have replayed : replay purchaseOperations = (purchaseCalls, .ok ()) := rfl
  exact ⟨titles, names, _, _, planned, written, replayed,
    statements_make_calls titles names planned written replayed⟩

/-- An operation that does nothing, alone. -/
def idle : FlowGraph where
  nodes := [.operation (OperationNode.start "begin")]
  edges := []
  nodup_ids := by decide

/-- **The module of a plan can pay less than the plan says**: of a fee of `2^64 + 1`, the number
literal leaves `2^64`. -/
theorem exists_fee_rounded :
    ∃ plan text calls p,
      (idle.inputBanks.map InputBank.title).Nodup ∧
        (∀ b ∈ idle.inputBanks, (b.params.map BankParam.name).Nodup) ∧
        idle.plan ⟨"account", ⟨18446744073709551617, by decide⟩⟩ = .ok plan ∧
        plan.transaction.scriptText = .ok text ∧
        replay plan.transaction.operations = (calls, .ok ()) ∧
        Program.ofText? text = some p ∧
        calls = [.payFee "account" ⟨18446744073709551617, by decide⟩] ∧
        p.statements.map p.callOf? = [some (.payFee "account" ⟨18446744073709551616, by decide⟩)] := by
  have titles : (idle.inputBanks.map InputBank.title).Nodup := by decide
  have names : ∀ b ∈ idle.inputBanks, (b.params.map BankParam.name).Nodup := by decide
  have rounded : Amount.nearest? 18446744073709551617 =
      some ⟨18446744073709551616, by decide⟩ := by
    decide +kernel
  have planned : idle.plan ⟨"account", ⟨18446744073709551617, by decide⟩⟩ =
    .ok ⟨["begin"], idle.context, [.payFee "account" ⟨18446744073709551617, by decide⟩], []⟩ := rfl
  have written := Transaction.scriptText_eq_ok
    (t := ⟨idle.context, [.payFee "account" ⟨18446744073709551617, by decide⟩], []⟩) rfl
  have replayed : replay [.payFee "account" ⟨18446744073709551617, by decide⟩] =
    ([.payFee "account" ⟨18446744073709551617, by decide⟩], .ok ()) := rfl
  obtain ⟨p, read, called⟩ := exists_program titles names planned written replayed
  refine ⟨_, _, _, p, titles, names, planned, written, replayed, read, rfl, called.trans ?_⟩
  rw [List.map_singleton, BuilderCall.asWritten?, rounded]
  rfl

end FlowGraph

end FlowPlan
