import FlowPlan.Proofs.Results
import FlowPlan.Proofs.Text.Amounts
import FlowPlan.Proofs.Workspace.Blocks
import FlowPlan.Transaction.Replay

/-!
# Replay — the calls of a transaction

A replay makes one call for every primitive until one is refused.  What call a primitive makes
(`Primitive.Makes`) and why one is refused (`Primitive.Refused`) is told by its operands: each has to
pass a value on, and what a method is invoked on has to be a text.  The receiver is looked at first,
then the arguments from left to right.

* `call_eq_ok_iff`, `call_eq_error_iff`: one primitive.
* `replay_eq_ok_iff`, `replay_eq_error_iff`: the calls of a whole replay, and of one that ends early.
* `replay_exact`: both, with the transaction that the calls record.
-/

namespace FlowPlan

variable {a : Arg} {args : List Arg} {v : Value} {operation argument method address : String}
  {failure : BuildError} {p : Primitive} {operations : List Primitive} {calls : List BuilderCall}

/-! ### Arguments -/

namespace Arg

/-- What an argument passes on: a workspace reference an object with its key, any other its value. -/
inductive Passes : Arg → Value → Prop where
  | workspace {node : NodeId} {half : Option TupleHalf} :
      (Arg.workspace node half).Passes (.tagged "Workspace" (workspaceKey node half))
  | input {bank : String} {param : BankParam} {value : Value} :
      (Arg.input bank param (some value)).Passes value
  | literal {value : Value} : (Arg.literal value).Passes value

/-- Refers to a bank parameter that has no value. -/
def IsValueless (a : Arg) : Prop :=
  ∃ bank param, a = .input bank param none

/-- A workspace reference, or another argument that passes on what is no text. -/
def IsUnaddressed (a : Arg) : Prop :=
  a.isWorkspace ∨ ∃ v, a.Passes v ∧ ∀ address, v ≠ .text address

/-- The first argument without a value refers to this parameter. -/
def FirstValueless (args : List Arg) (param : BankParam) : Prop :=
  ∃ done bank rest, args = done ++ .input bank param none :: rest ∧ ∀ a ∈ done, ¬a.IsValueless

/-- The builder gets what an argument passes on. -/
theorem unwrap_eq_ok_iff : a.unwrap operation argument = .ok v ↔ a.Passes v := by
  constructor
  · intro h
    match a with
    | .workspace .. | .input _ _ (some _) | .literal _ =>
      cases h
      constructor
  · rintro (_ | _ | _) <;> rfl

theorem unwrap_eq_error_iff :
    a.unwrap operation argument = .error failure ↔ ∃ bank param, a = .input bank param none ∧
      .missingArgument operation (if argument = "" then param.name else argument) = failure := by
  constructor
  · intro h
    match a with
    | .workspace .. | .input _ _ (some _) | .literal _ => cases h
    | .input bank param none =>
      cases h
      exact ⟨bank, param, rfl, rfl⟩
  · rintro ⟨bank, param, rfl, rfl⟩
    rfl

/-- An argument passes on one value, if it has one. -/
theorem exists_passes_iff : (∃ v, a.Passes v) ↔ ¬a.IsValueless := by
  constructor
  · rintro ⟨_, _ | _ | _⟩ ⟨_, _, valueless⟩ <;> cases valueless
  · intro valued
    match a with
    | .workspace .. | .input _ _ (some _) | .literal _ => exact ⟨_, by constructor⟩
    | .input bank param none => exact absurd ⟨bank, param, rfl⟩ valued

theorem Passes.unique {w : Value} (first : a.Passes v) (second : a.Passes w) : v = w := by
  cases first <;> cases second <;> rfl

/-- An address is not a workspace reference: those pass on an object. -/
theorem not_isUnaddressed_of_passes_text (passes : a.Passes (.text address)) : ¬a.IsUnaddressed := by
  rintro (workspace | ⟨v, other, noText⟩)
  · cases passes <;> cases workspace
  · exact noText address (other.unique passes)

/-- A method is invoked on the text that its receiver passes on. -/
theorem receiverAddress_eq_ok_iff :
    a.receiverAddress method = .ok address ↔ a.Passes (.text address) := by
  rw [receiverAddress, bind_eq_ok_iff]
  constructor
  · rintro ⟨v, unwrapped, h⟩
    have passes := unwrap_eq_ok_iff.1 unwrapped
    split at h
    · next json =>
      cases h
      have text : v = .text address := Value.ext json
      rwa [← text]
    · cases h
  · intro passes
    refine ⟨_, unwrap_eq_ok_iff.2 passes, ?_⟩
    cases passes <;> rfl

/-- A receiver is refused if it has no value, or one that is no text. -/
theorem receiverAddress_eq_error_iff :
    a.receiverAddress method = .error failure ↔
      a.IsValueless ∧ .missingArgument method "component address" = failure ∨
        ∃ v, a.Passes v ∧ (∀ address, v ≠ .text address) ∧ .unsupportedReceiver method v = failure := by
  rw [receiverAddress, bind_eq_error_iff, unwrap_eq_error_iff]
  refine or_congr ?_ (exists_congr fun v => ?_)
  · simp [IsValueless]
  · rw [unwrap_eq_ok_iff]
    refine and_congr_right fun passes => ?_
    split
    · next address _ json =>
      have text : v = .text address := Value.ext json
      exact iff_of_false nofun fun ⟨noText, _⟩ => noText address text
    · next other =>
      have noText (address : String) : v ≠ .text address := by
        rintro rfl
        refine other address ?_ rfl
        cases passes <;> rfl
      rw [Except.error.injEq]
      exact (and_iff_right noText).symm

theorem unwrapAll_eq_ok_iff {values : List Value} :
    unwrapAll operation args = .ok values ↔ List.Forall₂ Passes args values := by
  simp only [unwrapAll, mapM_eq_ok_iff, unwrap_eq_ok_iff]

/-- Arguments are refused for the first that has no value. -/
theorem unwrapAll_eq_error_iff :
    unwrapAll operation args = .error failure ↔
      ∃ param, FirstValueless args param ∧ .missingArgument operation param.name = failure := by
  simp only [unwrapAll, mapM_eq_error_iff, unwrap_eq_ok_iff, exists_passes_iff, unwrap_eq_error_iff,
    if_true]
  constructor
  · rintro ⟨done, _, rest, split, valued, bank, param, rfl, rfl⟩
    exact ⟨param, ⟨done, bank, rest, split, valued⟩, rfl⟩
  · rintro ⟨param, ⟨done, bank, rest, split, valued⟩, rfl⟩
    exact ⟨done, _, rest, split, valued, bank, param, rfl, rfl⟩

end Arg

/-! ### Recorded documents -/

/-- The documents of values are in canonical form. -/
theorem canonicalItems_map_json (values : List Value) :
    Json.canonicalItems (values.map Value.json) = values.map Value.json := by
  induction values with
  | nil => rfl
  | cons v rest ih => simp [Json.canonicalItems, Json.canonical_of_sorted v.sorted, ih]

namespace Json

/-- The fields of a method call, in the order of their names. -/
theorem sortMembers_methodFields (address method args : Json) :
    sortMembers [("component_address", address), ("method", method), ("args", args)] =
      [("args", args), ("component_address", address), ("method", method)] := by
  simp only [sortMembers, List.foldl_cons, List.foldl_nil, insertMember_nil,
    insertMember_cons_of_gt (by decide : "component_address" < "method"),
    insertMember_cons_of_lt (by decide : "args" < "component_address")]

/-- The fields of a function call, in the order of their names. -/
theorem sortMembers_functionFields (templateAddress function args : Json) :
    sortMembers [("template_address", templateAddress), ("function", function), ("args", args)] =
      [("args", args), ("function", function), ("template_address", templateAddress)] := by
  simp only [sortMembers, List.foldl_cons, List.foldl_nil, insertMember_nil,
    insertMember_cons_of_lt (by decide : "function" < "template_address"),
    insertMember_cons_of_lt (by decide : "args" < "function")]

theorem sortMembers_pair {key key' : String} (lt : key < key') (x y : Json) :
    sortMembers [(key, x), (key', y)] = [(key, x), (key', y)] :=
  sortMembers_of_ascending (List.pairwise_pair.2 lt)

end Json

namespace BuilderCall

/-- The document of an instruction has its kind, and under it the fields sorted by name. -/
theorem json_instructionOf (kind : String) (fields : List (String × Json)) :
    (instructionOf kind fields).json =
      .obj [(kind, .obj (Json.sortMembers (Json.canonicalMembers fields)))] := by
  simp [instructionOf, Value.ofJson, Json.canonical, Json.canonicalMembers, Json.sortMembers,
    Json.insertMember]

/-- A fee is recorded as a method call with the decimal digits of the fee. -/
theorem json_instruction_payFee (account : String) (fee : Amount) :
    (instruction (.payFee account fee)).json =
      .obj [("CallMethod", .obj [("args", .arr [.str (toString fee.value)]),
        ("component_address", .str account), ("method", .str "pay_fee")])] := by
  rw [instruction, json_instructionOf, Amount.toJson, Amount.text_eq]
  simp only [Json.canonicalMembers, Json.canonical, Json.canonicalItems,
    Json.sortMembers_methodFields]

theorem json_instruction_callMethod (address method : String) (values : List Value) :
    (instruction (.callMethod address method values)).json =
      .obj [("CallMethod", .obj [("args", .arr (values.map Value.json)),
        ("component_address", .str address), ("method", .str method)])] := by
  rw [instruction, json_instructionOf, listJson]
  simp only [Json.canonicalMembers, Json.canonical, canonicalItems_map_json,
    Json.sortMembers_methodFields]

theorem json_instruction_callFunction (templateAddress function : String) (values : List Value) :
    (instruction (.callFunction templateAddress function values)).json =
      .obj [("CallFunction", .obj [("args", .arr (values.map Value.json)),
        ("function", .str function), ("template_address", .str templateAddress)])] := by
  rw [instruction, json_instructionOf, listJson]
  simp only [Json.canonicalMembers, Json.canonical, canonicalItems_map_json,
    Json.sortMembers_functionFields]

theorem json_instruction_allocateAddress (kind : AddressKind) (key : NodeId) :
    (instruction (.allocateAddress kind key)).json =
      .obj [("AllocateAddress", .obj [("substate_type", .str kind.name),
        ("workspace_id", .str key)])] := by
  rw [instruction, json_instructionOf]
  simp only [Json.canonicalMembers, Json.canonical,
    Json.sortMembers_pair (by decide : "substate_type" < "workspace_id")]

theorem json_instruction_saveVar (key : NodeId) :
    (instruction (.saveVar key)).json =
      .obj [("PutLastInstructionOutputOnWorkspace", .obj [("key", .str key)])] := by
  rw [instruction, json_instructionOf]
  rfl

end BuilderCall

/-- The document of a log instruction is in canonical form. -/
theorem json_emitLog (v w : Value) :
    (Value.ofJson (.obj [("EmitLog", .obj [("level", v.json), ("message", w.json)])])).json =
      .obj [("EmitLog", .obj [("level", v.json), ("message", w.json)])] := by
  simp only [Value.ofJson, Json.canonical, Json.canonicalMembers, Json.sortMembers,
    List.foldl_cons, List.foldl_nil, Json.insertMember_nil,
    Json.insertMember_cons_of_gt (by decide : "level" < "message"),
    Json.canonical_of_sorted v.sorted, Json.canonical_of_sorted w.sorted]

/-! ### Primitives -/

namespace Primitive

/-- The call that a primitive makes. -/
inductive Makes : Primitive → BuilderCall → Prop where
  | payFee {account : String} {fee : Amount} : (payFee account fee).Makes (.payFee account fee)
  | callMethod {receiver : Arg} {method address : String} {args : List Arg} {values : List Value}
      (addressed : receiver.Passes (.text address)) (passed : List.Forall₂ Arg.Passes args values) :
      (callMethod receiver method args).Makes (.callMethod address method values)
  | callFunction {templateAddress function : String} {args : List Arg} {values : List Value}
      (passed : List.Forall₂ Arg.Passes args values) :
      (callFunction templateAddress function args).Makes
        (.callFunction templateAddress function values)
  | emitLog {level message : Arg} {v w instruction : Value} (passedLevel : level.Passes v)
      (passedMessage : message.Passes w)
      (logs : instruction.json =
        .obj [("EmitLog", .obj [("level", v.json), ("message", w.json)])]) :
      (emitLog level message).Makes (.addInstruction instruction)
  | allocateAddress {kind : AddressKind} {key : NodeId} :
      (allocateAddress kind key).Makes (.allocateAddress kind key)
  | saveVar {key : NodeId} : (saveVar key).Makes (.saveVar key)

/-- Why a primitive is refused: the first of its operands that cannot be passed on. -/
inductive Refused : Primitive → BuildError → Prop where
  | noReceiver {receiver : Arg} {method : String} {args : List Arg}
      (missing : receiver.IsValueless) :
      (callMethod receiver method args).Refused (.missingArgument method "component address")
  | receiver {receiver : Arg} {method : String} {args : List Arg} {v : Value}
      (passes : receiver.Passes v) (noText : ∀ address, v ≠ .text address) :
      (callMethod receiver method args).Refused (.unsupportedReceiver method v)
  | methodArgument {receiver : Arg} {method address : String} {args : List Arg}
      {param : BankParam} (addressed : receiver.Passes (.text address))
      (missing : Arg.FirstValueless args param) :
      (callMethod receiver method args).Refused (.missingArgument method param.name)
  | functionArgument {templateAddress function : String} {args : List Arg} {param : BankParam}
      (missing : Arg.FirstValueless args param) :
      (callFunction templateAddress function args).Refused (.missingArgument function param.name)
  | level {level message : Arg} (missing : level.IsValueless) :
      (emitLog level message).Refused (.missingArgument "EmitLog" "level")
  | message {level message : Arg} (valued : ¬level.IsValueless) (missing : message.IsValueless) :
      (emitLog level message).Refused (.missingArgument "EmitLog" "message")

/-- A method that is invoked on a workspace reference or on what is no text. -/
def IsMisaddressed (p : Primitive) : Prop :=
  ∃ receiver method args, p = .callMethod receiver method args ∧ receiver.IsUnaddressed

/-- Pays a fee. -/
def isFee : Primitive → Bool
  | .payFee .. => true
  | .callMethod .. | .callFunction .. | .emitLog .. | .allocateAddress .. | .saveVar _ => false

/-- The document of the instruction that a primitive leaves in the transaction: the kind of the
instruction, and the members that its kind has, sorted by their names. -/
inductive Leaves : Primitive → Json → Prop where
  | payFee {account : String} {fee : Amount} :
      (payFee account fee).Leaves (.obj [("CallMethod",
        .obj [("args", .arr [.str (toString fee.value)]), ("component_address", .str account),
          ("method", .str "pay_fee")])])
  | callMethod {receiver : Arg} {method address : String} {args : List Arg} {values : List Value}
      (addressed : receiver.Passes (.text address)) (passed : List.Forall₂ Arg.Passes args values) :
      (callMethod receiver method args).Leaves (.obj [("CallMethod",
        .obj [("args", .arr (values.map Value.json)), ("component_address", .str address),
          ("method", .str method)])])
  | callFunction {templateAddress function : String} {args : List Arg} {values : List Value}
      (passed : List.Forall₂ Arg.Passes args values) :
      (callFunction templateAddress function args).Leaves (.obj [("CallFunction",
        .obj [("args", .arr (values.map Value.json)), ("function", .str function),
          ("template_address", .str templateAddress)])])
  | emitLog {level message : Arg} {v w : Value} (passedLevel : level.Passes v)
      (passedMessage : message.Passes w) :
      (emitLog level message).Leaves
        (.obj [("EmitLog", .obj [("level", v.json), ("message", w.json)])])
  | allocateComponent {key : NodeId} :
      (allocateAddress .component key).Leaves (.obj [("AllocateAddress",
        .obj [("substate_type", .str "Component"), ("workspace_id", .str key)])])
  | allocateResource {key : NodeId} :
      (allocateAddress .resource key).Leaves (.obj [("AllocateAddress",
        .obj [("substate_type", .str "Resource"), ("workspace_id", .str key)])])
  | saveVar {key : NodeId} :
      (saveVar key).Leaves
        (.obj [("PutLastInstructionOutputOnWorkspace", .obj [("key", .str key)])])

variable {c : BuilderCall}

/-- **A primitive becomes the call that it makes.** -/
theorem call_eq_ok_iff : p.call = .ok c ↔ p.Makes c := by
  constructor
  · intro h
    cases p with
    | payFee | allocateAddress | saveVar =>
      cases h
      constructor
    | callMethod receiver method args =>
      obtain ⟨address, addressed, h⟩ := bind_eq_ok_iff.1 h
      obtain ⟨values, passed, h⟩ := bind_eq_ok_iff.1 h
      cases h
      exact .callMethod (Arg.receiverAddress_eq_ok_iff.1 addressed)
        (Arg.unwrapAll_eq_ok_iff.1 passed)
    | callFunction templateAddress function args =>
      obtain ⟨values, passed, h⟩ := bind_eq_ok_iff.1 h
      cases h
      exact .callFunction (Arg.unwrapAll_eq_ok_iff.1 passed)
    | emitLog level message =>
      obtain ⟨v, level, h⟩ := bind_eq_ok_iff.1 h
      obtain ⟨w, message, h⟩ := bind_eq_ok_iff.1 h
      cases h
      exact .emitLog (Arg.unwrap_eq_ok_iff.1 level) (Arg.unwrap_eq_ok_iff.1 message)
        (json_emitLog v w)
  · intro makes
    cases makes with
    | payFee | allocateAddress | saveVar => rfl
    | callMethod addressed passed =>
      exact bind_eq_ok_iff.2 ⟨_, Arg.receiverAddress_eq_ok_iff.2 addressed,
        bind_eq_ok_iff.2 ⟨_, Arg.unwrapAll_eq_ok_iff.2 passed, rfl⟩⟩
    | callFunction passed => exact bind_eq_ok_iff.2 ⟨_, Arg.unwrapAll_eq_ok_iff.2 passed, rfl⟩
    | @emitLog _ _ v w _ level message logs =>
      refine bind_eq_ok_iff.2 ⟨v, Arg.unwrap_eq_ok_iff.2 level,
        bind_eq_ok_iff.2 ⟨w, Arg.unwrap_eq_ok_iff.2 message, ?_⟩⟩
      exact congrArg (Except.ok ∘ BuilderCall.addInstruction)
        (Value.ext ((json_emitLog v w).trans logs.symm))

/-- **A primitive that becomes no call is refused.** -/
theorem call_eq_error_iff : p.call = .error failure ↔ p.Refused failure := by
  cases p with
  | payFee | allocateAddress | saveVar => exact iff_of_false nofun nofun
  | callMethod receiver method args =>
    rw [call, bind_eq_error_iff, Arg.receiverAddress_eq_error_iff]
    constructor
    · rintro ((⟨missing, rfl⟩ | ⟨v, passes, noText, rfl⟩) | ⟨address, addressed, h⟩)
      · exact .noReceiver missing
      · exact .receiver passes noText
      -- The arguments come to be looked at only behind a receiver that is an address.
      rcases bind_eq_error_iff.1 h with h | ⟨_, _, h⟩
      · obtain ⟨param, missing, rfl⟩ := Arg.unwrapAll_eq_error_iff.1 h
        exact .methodArgument (Arg.receiverAddress_eq_ok_iff.1 addressed) missing
      · cases h
    · intro refused
      cases refused with
      | noReceiver missing => exact .inl (.inl ⟨missing, rfl⟩)
      | receiver passes noText => exact .inl (.inr ⟨_, passes, noText, rfl⟩)
      | methodArgument addressed missing =>
        exact .inr ⟨_, Arg.receiverAddress_eq_ok_iff.2 addressed,
          bind_eq_error_iff.2 (.inl (Arg.unwrapAll_eq_error_iff.2 ⟨_, missing, rfl⟩))⟩
  | callFunction templateAddress function args =>
    rw [call, bind_eq_error_iff, Arg.unwrapAll_eq_error_iff]
    constructor
    · rintro (⟨param, missing, rfl⟩ | ⟨_, _, h⟩)
      · exact .functionArgument missing
      · cases h
    · rintro ⟨⟩
      exact .inl ⟨_, ‹_›, rfl⟩
  | emitLog level message =>
    rw [call, bind_eq_error_iff, Arg.unwrap_eq_error_iff]
    constructor
    · rintro (⟨bank, param, rfl, rfl⟩ | ⟨v, level, h⟩)
      · exact .level ⟨bank, param, rfl⟩
      have valued := Arg.exists_passes_iff.1 ⟨v, Arg.unwrap_eq_ok_iff.1 level⟩
      rcases bind_eq_error_iff.1 h with h | ⟨_, _, h⟩
      · obtain ⟨bank, param, rfl, rfl⟩ := Arg.unwrap_eq_error_iff.1 h
        exact .message valued ⟨bank, param, rfl⟩
      · cases h
    · intro refused
      cases refused with
      | level missing =>
        obtain ⟨bank, param, rfl⟩ := missing
        exact .inl ⟨bank, param, rfl, rfl⟩
      | message valued missing =>
        obtain ⟨v, level⟩ := Arg.exists_passes_iff.2 valued
        obtain ⟨bank, param, rfl⟩ := missing
        exact .inr ⟨v, Arg.unwrap_eq_ok_iff.2 level, bind_eq_error_iff.2 (.inl rfl)⟩

/-- A primitive makes a call unless it is refused. -/
theorem exists_makes_iff : (∃ c, p.Makes c) ↔ ∀ failure, ¬p.Refused failure := by
  simp only [← call_eq_ok_iff, ← call_eq_error_iff, exists_eq_ok_iff, ne_eq]

/-- The operands of a primitive that makes a call pass a value on, and its receiver a text. -/
theorem Makes.valued (makes : p.Makes c) :
    (∀ a ∈ p.operands, ¬a.IsValueless) ∧ ¬p.IsMisaddressed := by
  have each {args : List Arg} {values : List Value} (passed : List.Forall₂ Arg.Passes args values) :
      ∀ a ∈ args, ¬a.IsValueless := by
    induction passed with
    | nil => simp
    | cons head _ ih => exact List.forall_mem_cons.2 ⟨Arg.exists_passes_iff.1 ⟨_, head⟩, ih⟩
  cases makes with
  | payFee | allocateAddress | saveVar => exact ⟨nofun, nofun⟩
  | callMethod addressed passed =>
    refine ⟨each (.cons addressed passed), ?_⟩
    rintro ⟨_, _, _, same, unaddressed⟩
    cases same
    exact Arg.not_isUnaddressed_of_passes_text addressed unaddressed
  | callFunction passed => exact ⟨each passed, nofun⟩
  | emitLog passedLevel passedMessage =>
    exact ⟨each (.cons passedLevel (.cons passedMessage .nil)), nofun⟩

/-- **A primitive is refused exactly if an operand has no value or a method is misaddressed.** -/
theorem exists_refused_iff :
    (∃ failure, p.Refused failure) ↔ (∃ a ∈ p.operands, a.IsValueless) ∨ p.IsMisaddressed := by
  constructor
  · rintro ⟨failure, refused⟩
    cases refused with
    | noReceiver missing => exact .inl ⟨_, List.mem_cons_self, missing⟩
    | receiver passes noText => exact .inr ⟨_, _, _, rfl, .inr ⟨_, passes, noText⟩⟩
    | methodArgument _ missing =>
      obtain ⟨done, bank, rest, rfl, -⟩ := missing
      exact .inl ⟨_, List.mem_cons_of_mem _ List.mem_append_cons_self, bank, _, rfl⟩
    | functionArgument missing =>
      obtain ⟨done, bank, rest, rfl, -⟩ := missing
      exact .inl ⟨_, List.mem_append_cons_self, bank, _, rfl⟩
    | level missing => exact .inl ⟨_, List.mem_cons_self, missing⟩
    | message _ missing => exact .inl ⟨_, List.mem_cons_of_mem _ List.mem_cons_self, missing⟩
  · intro fault
    by_contra accepted
    obtain ⟨c, makes⟩ := exists_makes_iff.2 (not_exists.1 accepted)
    obtain ⟨valued, addressed⟩ := makes.valued
    rcases fault with ⟨a, operand, valueless⟩ | misaddressed
    · exact valued a operand valueless
    · exact addressed misaddressed

theorem Makes.unique {d : BuilderCall} (first : p.Makes c) (second : p.Makes d) : c = d := by
  rw [← call_eq_ok_iff] at first second
  exact Except.ok.inj (first.symm.trans second)

theorem Makes.isFee_eq (makes : p.Makes c) : c.isFee = p.isFee := by
  cases makes <;> rfl

/-- **What a primitive leaves is what its call records.** -/
theorem leaves_iff {j : Json} : p.Leaves j ↔ ∃ c, p.Makes c ∧ c.instruction.json = j := by
  constructor
  · intro leaves
    cases leaves with
    | payFee => exact ⟨_, .payFee, BuilderCall.json_instruction_payFee _ _⟩
    | callMethod addressed passed =>
      exact ⟨_, .callMethod addressed passed, BuilderCall.json_instruction_callMethod _ _ _⟩
    | callFunction passed =>
      exact ⟨_, .callFunction passed, BuilderCall.json_instruction_callFunction _ _ _⟩
    | emitLog level message =>
      exact ⟨_, .emitLog level message (json_emitLog _ _), json_emitLog _ _⟩
    | allocateComponent | allocateResource =>
      exact ⟨_, .allocateAddress, BuilderCall.json_instruction_allocateAddress _ _⟩
    | saveVar => exact ⟨_, .saveVar, BuilderCall.json_instruction_saveVar _⟩
  · rintro ⟨c, makes, rfl⟩
    cases makes with
    | payFee => exact BuilderCall.json_instruction_payFee _ _ ▸ .payFee
    | callMethod addressed passed =>
      exact BuilderCall.json_instruction_callMethod _ _ _ ▸ .callMethod addressed passed
    | callFunction passed =>
      exact BuilderCall.json_instruction_callFunction _ _ _ ▸ .callFunction passed
    | emitLog level message logs =>
      rw [BuilderCall.instruction, logs]
      exact .emitLog level message
    | @allocateAddress kind =>
      rw [BuilderCall.json_instruction_allocateAddress]
      cases kind
      · exact .allocateComponent
      · exact .allocateResource
    | saveVar => exact BuilderCall.json_instruction_saveVar _ ▸ .saveVar

/-- A primitive leaves one document at most. -/
theorem rightUnique_leaves : Relator.RightUnique Leaves := by
  intro p _ _ first second
  obtain ⟨c, makes, rfl⟩ := leaves_iff.1 first
  obtain ⟨d, other, rfl⟩ := leaves_iff.1 second
  rw [makes.unique other]

end Primitive

/-! ### Replays -/

theorem replay_cons_of_makes {c : BuilderCall} (makes : p.Makes c) :
    replay (p :: operations) = (c :: (replay operations).1, (replay operations).2) := by
  rw [replay, Primitive.call_eq_ok_iff.2 makes]

theorem replay_cons_of_refused (refused : p.Refused failure) :
    replay (p :: operations) = ([], .error failure) := by
  rw [replay, Primitive.call_eq_error_iff.2 refused]

/-- A primitive either makes a call or is refused. -/
theorem Primitive.makes_or_refused (p : Primitive) :
    (∃ c, p.Makes c) ∨ ∃ failure, p.Refused failure := by
  rw [exists_makes_iff, ← not_exists]
  exact (em _).symm

/-- **A replay that comes to its end makes the call of every primitive**, in order. -/
theorem replay_eq_ok_iff :
    replay operations = (calls, .ok ()) ↔ List.Forall₂ Primitive.Makes operations calls := by
  induction operations generalizing calls with
  | nil => simp [replay, eq_comm]
  | cons p rest ih =>
    rw [List.forall₂_cons_left_iff]
    rcases p.makes_or_refused with ⟨c, makes⟩ | ⟨failure, refused⟩
    · rw [replay_cons_of_makes makes, Prod.mk.injEq]
      constructor
      · rintro ⟨rfl, ended⟩
        exact ⟨c, _, makes, ih.1 (Prod.ext rfl ended), rfl⟩
      · rintro ⟨d, others, other, made, rfl⟩
        rw [makes.unique other, ih.2 made]
        exact ⟨rfl, rfl⟩
    · rw [replay_cons_of_refused refused]
      refine iff_of_false nofun ?_
      rintro ⟨c, _, makes, -, -⟩
      exact Primitive.exists_makes_iff.1 ⟨c, makes⟩ failure refused

/-- **A replay ends early at the first primitive that is refused**, with the calls of those in front
of it. -/
theorem replay_eq_error_iff :
    replay operations = (calls, .error failure) ↔
      ∃ done p rest, operations = done ++ p :: rest ∧ List.Forall₂ Primitive.Makes done calls ∧
        p.Refused failure := by
  induction operations generalizing calls with
  | nil =>
    refine iff_of_false nofun ?_
    rintro ⟨done, p, rest, split, -, -⟩
    exact List.append_ne_nil_of_right_ne_nil done (List.cons_ne_nil p rest) split.symm
  | cons q operations ih =>
    constructor
    · intro ended
      rcases q.makes_or_refused with ⟨c, makes⟩ | ⟨other, refused⟩
      · rw [replay_cons_of_makes makes] at ended
        obtain ⟨rfl, failed⟩ := Prod.mk.inj ended
        obtain ⟨done, p, rest, rfl, made, refused⟩ := ih.1 (Prod.ext rfl failed)
        exact ⟨q :: done, p, rest, rfl, .cons makes made, refused⟩
      · rw [replay_cons_of_refused refused] at ended
        cases ended
        exact ⟨[], q, operations, rfl, .nil, refused⟩
    · rintro ⟨_ | ⟨x, done⟩, p, rest, split, made, refused⟩
      · cases split
        cases made
        exact replay_cons_of_refused refused
      · obtain ⟨rfl, rfl⟩ := List.cons.inj split
        obtain ⟨c, behind, makes, madeBehind, rfl⟩ := List.forall₂_cons_left_iff.1 made
        rw [replay_cons_of_makes makes, ih.2 ⟨done, p, rest, rfl, madeBehind, refused⟩]

/-- A replay fails exactly if some primitive is refused. -/
theorem exists_replay_eq_error_iff :
    (∃ failure, (replay operations).2 = .error failure) ↔
      ∃ p ∈ operations, ∃ failure, p.Refused failure := by
  constructor
  · rintro ⟨failure, ended⟩
    obtain ⟨done, p, rest, rfl, -, refused⟩ := replay_eq_error_iff.1 (Prod.ext rfl ended)
    exact ⟨p, List.mem_append_cons_self, failure, refused⟩
  · rintro ⟨p, mem, failure, refused⟩
    rw [exists_eq_error_iff]
    rintro ⟨⟩ ended
    obtain ⟨c, -, makes⟩ := exists_of_forall₂ (replay_eq_ok_iff.1 (Prod.ext rfl ended)) mem
    exact Primitive.exists_makes_iff.1 ⟨c, makes⟩ failure refused

/-! ### Transactions -/

namespace Transaction

variable {t : Transaction} {network : Network} {dryRun : Bool} {u : UnsignedTransaction}

/-- No transaction is built exactly if the replay fails, and with the same error. -/
theorem build_eq_error_iff :
    t.build network dryRun = .error failure ↔ (replay t.operations).2 = .error failure := by
  unfold build
  split
  · next ended => simp [ended]
  · next ended => simp [ended]

/-- The transaction that is built records the calls of the replay. -/
theorem build_eq_ok_iff_ofCalls :
    t.build network dryRun = .ok u ↔ ∃ calls, List.Forall₂ Primitive.Makes t.operations calls ∧
      .ofCalls network dryRun calls = u := by
  simp only [← replay_eq_ok_iff]
  unfold build
  split
  · next ended => simp [ended]
  · next calls ended => simp [ended]

/-- The calls of one kind, fees or others, record what the primitives of that kind leave. -/
theorem forall₂_leaves_filter (kept : Bool → Bool)
    (made : List.Forall₂ Primitive.Makes operations calls) :
    List.Forall₂ Primitive.Leaves (operations.filter fun p => kept p.isFee)
      (((calls.filter fun c => kept c.isFee).map BuilderCall.instruction).map Value.json) := by
  rw [List.map_map, List.forall₂_map_right_iff]
  refine (List.rel_filter (fun p c makes => ?_) made).imp fun p c makes =>
    Primitive.leaves_iff.2 ⟨c, makes, rfl⟩
  simp only [makes.isFee_eq]

/-- **A transaction is built exactly from the instructions that its primitives leave**, the payments
of fees apart from all others and each in their order. -/
theorem build_eq_ok_iff :
    t.build network dryRun = .ok u ↔ u.network = network ∧ u.dryRun = dryRun ∧
      List.Forall₂ Primitive.Leaves (t.operations.filter Primitive.isFee)
        (u.feeInstructions.map Value.json) ∧
      List.Forall₂ Primitive.Leaves (t.operations.filter (!·.isFee))
        (u.instructions.map Value.json) := by
  rw [build_eq_ok_iff_ofCalls]
  constructor
  · rintro ⟨calls, made, rfl⟩
    exact ⟨rfl, rfl, forall₂_leaves_filter id made, forall₂_leaves_filter not made⟩
  · rintro ⟨rfl, rfl, fees, others⟩
    -- Every primitive is on one of the lists, so that none is refused.
    have makes (p : Primitive) (mem : p ∈ t.operations) : ∃ c, p.Makes c := by
      cases fee : p.isFee with
      | true =>
        obtain ⟨_, -, leaves⟩ := exists_of_forall₂ fees (List.mem_filter.2 ⟨mem, fee⟩)
        obtain ⟨c, makes, -⟩ := Primitive.leaves_iff.1 leaves
        exact ⟨c, makes⟩
      | false =>
        obtain ⟨_, -, leaves⟩ :=
          exists_of_forall₂ others (List.mem_filter.2 ⟨mem, by rw [fee]; rfl⟩)
        obtain ⟨c, makes, -⟩ := Primitive.leaves_iff.1 leaves
        exact ⟨c, makes⟩
    have ended : (replay t.operations).2 = .ok () := by
      cases ended : (replay t.operations).2 with
      | ok => rfl
      | error failure =>
        obtain ⟨p, mem, other, refused⟩ := exists_replay_eq_error_iff.1 ⟨failure, ended⟩
        exact absurd refused (Primitive.exists_makes_iff.1 (makes p mem) other)
    have made := replay_eq_ok_iff.1 (Prod.ext rfl ended)
    refine ⟨_, made, ?_⟩
    cases u
    have same {vs ws : List Value} (h : vs.map Value.json = ws.map Value.json) : vs = ws :=
      List.map_injective_iff.2 (fun _ _ => Value.ext) h
    rw [UnsignedTransaction.ofCalls, UnsignedTransaction.mk.injEq]
    exact ⟨rfl, same (Primitive.rightUnique_leaves.forall₂ (forall₂_leaves_filter id made) fees),
      same (Primitive.rightUnique_leaves.forall₂ (forall₂_leaves_filter not made) others), rfl⟩

/-- **A replay makes the calls of the primitives one by one and in order, up to the first that is
refused**, and none behind it; it fails as that primitive is refused, and comes to its end if there is
none.  A primitive is refused exactly if one of its operands is a bank parameter without a value, or
if it calls a method on a workspace reference or on what is no text.  The transaction that is built
has the instructions of the fee payments and, apart from them, those of all other primitives, each in
the order of the primitives and with the document that its primitive leaves. -/
theorem replay_exact (t : Transaction) :
    (∀ calls, replay t.operations = (calls, .ok ()) ↔
      List.Forall₂ Primitive.Makes t.operations calls) ∧
    (∀ calls failure, replay t.operations = (calls, .error failure) ↔
      ∃ done p rest, t.operations = done ++ p :: rest ∧
        List.Forall₂ Primitive.Makes done calls ∧ p.Refused failure) ∧
    (∀ p : Primitive, (∃ c, p.Makes c) ↔ ∀ failure, ¬p.Refused failure) ∧
    ((∃ failure, (replay t.operations).2 = .error failure) ↔
      ∃ p ∈ t.operations, (∃ a ∈ p.operands, a.IsValueless) ∨ p.IsMisaddressed) ∧
    ∀ network dryRun,
      (∀ failure, t.build network dryRun = .error failure ↔
        (replay t.operations).2 = .error failure) ∧
      ∀ u, t.build network dryRun = .ok u ↔ u.network = network ∧ u.dryRun = dryRun ∧
        List.Forall₂ Primitive.Leaves (t.operations.filter Primitive.isFee)
          (u.feeInstructions.map Value.json) ∧
        List.Forall₂ Primitive.Leaves (t.operations.filter (!·.isFee))
          (u.instructions.map Value.json) := by
  refine ⟨fun _ => replay_eq_ok_iff, fun _ _ => replay_eq_error_iff,
    fun _ => Primitive.exists_makes_iff, ?_,
    fun _ _ => ⟨fun _ => build_eq_error_iff, fun _ => build_eq_ok_iff⟩⟩
  simp only [exists_replay_eq_error_iff, Primitive.exists_refused_iff]

/-- The second argument is the first without a value: the fee is paid and nothing else is called. -/
example :
    replay [.payFee "account" ⟨1, by decide⟩,
        .callFunction "t" "mint" [.workspace "make" none, .input "bank" ⟨"p", "price", .string⟩ none,
          .input "bank" ⟨"q", "other", .string⟩ none],
        .saveVar "make"] =
      ([.payFee "account" ⟨1, by decide⟩], .error (.missingArgument "mint" "price")) :=
  rfl

/-- Two fees are paid, one between the others, and there is an operation of every kind. -/
def coin : Transaction where
  context := .empty
  operations :=
    [.payFee "account" ⟨Nat.pow 2 127, by decide⟩, .allocateAddress .resource "slot",
      .callFunction "template" "mint" [.workspace "slot" none, .literal (.ofJson (.int 5))],
      .saveVar "mint", .payFee "other" ⟨2, by decide⟩, .allocateAddress .component "vault",
      .callMethod (.input "bank" ⟨"p", "target", .string⟩ (some (.text "component_1"))) "deposit"
        [.workspace "mint" (some .second)],
      .emitLog (.literal (.text "Info")) (.literal .null)]
  skipped := []

/-- The documents of the fees that `coin` pays. -/
def coinFees : List Json :=
  [.obj [("CallMethod", .obj [("args", .arr [.str "170141183460469231731687303715884105728"]),
      ("component_address", .str "account"), ("method", .str "pay_fee")])],
    .obj [("CallMethod", .obj [("args", .arr [.str "2"]), ("component_address", .str "other"),
      ("method", .str "pay_fee")])]]

/-- The documents of all other instructions of `coin`. -/
def coinInstructions : List Json :=
  [.obj [("AllocateAddress",
      .obj [("substate_type", .str "Resource"), ("workspace_id", .str "slot")])],
    .obj [("CallFunction", .obj [("args", .arr [.obj [("Workspace", .str "slot")], .int 5]),
      ("function", .str "mint"), ("template_address", .str "template")])],
    .obj [("PutLastInstructionOutputOnWorkspace", .obj [("key", .str "mint")])],
    .obj [("AllocateAddress",
      .obj [("substate_type", .str "Component"), ("workspace_id", .str "vault")])],
    .obj [("CallMethod", .obj [("args", .arr [.obj [("Workspace", .str "mint.1")]]),
      ("component_address", .str "component_1"), ("method", .str "deposit")])],
    .obj [("EmitLog", .obj [("level", .str "Info"), ("message", .null)])]]

/-- The transaction of `coin`: both fees in front, the other instructions in their order. -/
theorem coin_built :
    coin.build .localNet true = .ok
      { network := .localNet
        feeInstructions := coinFees.map Value.ofJson
        instructions := coinInstructions.map Value.ofJson
        dryRun := true } ∧
      (coinFees.map Value.ofJson).map Value.json = coinFees ∧
      (coinInstructions.map Value.ofJson).map Value.json = coinInstructions := by
  have fees : (coinFees.map Value.ofJson).map Value.json = coinFees := by decide +kernel
  have others : (coinInstructions.map Value.ofJson).map Value.json = coinInstructions := by
    decide +kernel
  refine ⟨(((replay_exact coin).2.2.2.2 .localNet true).2 _).2 ⟨rfl, rfl, ?_, ?_⟩, fees, others⟩
  · rw [fees]
    exact .cons .payFee (.cons .payFee .nil)
  · rw [others]
    exact .cons .allocateResource (.cons (.callFunction (.cons .workspace (.cons .literal .nil)))
      (.cons .saveVar (.cons .allocateComponent
        (.cons (.callMethod .input (.cons .workspace .nil)) (.cons (.emitLog .literal .literal) .nil)))))

end Transaction

end FlowPlan
