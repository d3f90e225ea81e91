import FlowPlan.Proofs.Form.Fields
import FlowPlan.Proofs.Json.Rounding
import FlowPlan.Proofs.Replay.Calls
import FlowPlan.Proofs.Script.Program
import FlowPlan.Proofs.Text.Amounts

/-!
# Script — what a module says

The meaning of the text of a module, told from what is read off it.  An expression has a value: a
literal its document, an object the values of its properties, and a property of a variable what the
constant of that name gives the property (`Program.read`).  A statement has a call: the method of the
builder that it names, with the values of what it passes (`Program.callOf?`).

A fee is passed as a number literal, and a number of the module's language is a double.  So the fee
of the call is the double nearest to the digits, and it is the fee of the primitive only if that is a
double (`Amount.nearest?_eq_some_iff`).

* `Expr.value?_ofJson`: the literal of a document has the document as its value.
* `Program.value?_expr`: the expression of an argument has the value that the argument passes on.
* `Program.callOf?_statement`: the statement of a primitive makes the call that the primitive makes,
  as a module writes it.
-/

namespace FlowPlan

/-! ### Values of expressions -/

namespace Expr

mutual

/-- The value of an expression, where `read` says what a property of a variable holds.  The absent
value and calls have none. -/
def value? (read : String → String → Option Json) : Expr → Option Json
  | .atom value => some value
  | .undefined => none
  | .property owner name => read owner name
  | .text s => some (.str s)
  | .array items => (values? read items).map .arr
  | .object _ properties => (members? read properties).map .obj
  | .call _ _ => none

/-- The values of an array's items. -/
def values? (read : String → String → Option Json) : List Expr → Option (List Json)
  | [] => some []
  | e :: rest => do
    let x ← e.value? read
    let xs ← values? read rest
    some (x :: xs)

/-- The values of an object's properties, by name. -/
def members? (read : String → String → Option Json) :
    List (String × Expr) → Option (List (String × Json))
  | [] => some []
  | (k, e) :: rest => do
    let x ← e.value? read
    let xs ← members? read rest
    some ((k, x) :: xs)

end

/-- The expression of a property of an object: of those of one name, the last. -/
def property? (name : String) : Expr → Option Expr
  | .object _ properties => (properties.reverse.find? (·.1 = name)).map Prod.snd
  | _ => none

variable {read : String → String → Option Json}

mutual

/-- **The literal of a document has the document as its value.** -/
theorem value?_ofJson : ∀ j : Json, (ofJson j).value? read = some j
  | .null | .bool _ | .int _ | .double _ | .str _ => by simp [ofJson, value?]
  | .arr items => by simp [ofJson, value?, values?_ofJsonItems items]
  | .obj members => by simp [ofJson, value?, members?_ofJsonMembers members]

theorem values?_ofJsonItems : ∀ items : List Json, values? read (ofJsonItems items) = some items
  | [] => by simp [ofJsonItems, values?]
  | x :: rest => by simp [ofJsonItems, values?, value?_ofJson x, values?_ofJsonItems rest]

theorem members?_ofJsonMembers :
    ∀ members : List (String × Json), members? read (ofJsonMembers members) = some members
  | [] => by simp [ofJsonMembers, members?]
  | (k, x) :: rest => by
    simp [ofJsonMembers, members?, value?_ofJson x, members?_ofJsonMembers rest]

end

end Expr

/-! ### Fees -/

/-- The amount of a natural number, if there is one. -/
def Amount.ofNat? (n : Nat) : Option Amount :=
  if h : n < limit then some ⟨n, h⟩ else none

theorem Amount.ofNat?_eq_some_iff {n : Nat} {a : Amount} : ofNat? n = some a ↔ n = a.value := by
  unfold ofNat?
  split
  · simp [Amount.ext_iff]
  · next large =>
    constructor
    · intro none
      cases none
    · rintro rfl
      exact absurd a.lt_limit large

/-- The amount that a number literal gives: that of the double nearest to its digits. -/
def Amount.nearest? (n : Nat) : Option Amount :=
  ((Double.nearest? n 1).bind Double.whole?).bind ofNat?

/-- **A number literal gives an amount exactly** if no more than fifty-three of the amount's binary
digits stand in front of the zeros at its end. -/
theorem Amount.nearest?_eq_some_iff {a : Amount} :
    nearest? a.value = some a ↔ ∃ m e, m < 2 ^ 53 ∧ a.value = m * 2 ^ e := by
  rw [← Double.whole?_nearest?_iff a.lt_limit, nearest?, Option.bind_eq_some_iff]
  simp only [ofNat?_eq_some_iff, exists_eq_right]

/-- A call as a module can write it, its fee as a number literal. -/
def BuilderCall.asWritten? : BuilderCall → Option BuilderCall
  | .payFee account fee => (Amount.nearest? fee.value).map (.payFee account)
  | call => some call

/-- A call is written as it is, unless it pays a fee that no number literal gives. -/
theorem BuilderCall.asWritten?_eq_some_iff {c : BuilderCall} :
    c.asWritten? = some c ↔ ∀ account fee, c = .payFee account fee →
      ∃ m e, m < 2 ^ 53 ∧ fee.value = m * 2 ^ e := by
  cases c with
  | payFee account fee =>
    rw [asWritten?, Option.map_eq_some_iff]
    simp only [payFee.injEq, true_and, exists_eq_right, Amount.nearest?_eq_some_iff]
    constructor
    · rintro exact _ _ ⟨-, rfl⟩
      exact exact
    · exact fun h => h account fee ⟨rfl, rfl⟩
  | callMethod | callFunction | addInstruction | allocateAddress | saveVar =>
    exact iff_of_true rfl nofun

/-! ### Constants and calls -/

/-- The address kind of a name. -/
def AddressKind.ofName? (name : String) : Option AddressKind :=
  [.component, .resource].find? fun kind => kind.name = name

namespace Program

/-- What a property of a variable holds: the value that the constant of this name gives it. -/
def read (p : Program) (owner name : String) : Option Json := do
  let constant ← p.constants.find? (·.1 = owner)
  let e ← constant.2.property? name
  e.value? fun _ _ => none

/-- The value of an expression within a module. -/
def value? (p : Program) (e : Expr) : Option Json :=
  e.value? p.read

/-- The value of an expression that has to be a text. -/
def text? (p : Program) (e : Expr) : Option String :=
  (p.value? e).bind Json.string?

/-- What a builder is asked to call: two texts that an object names, and values in an array. -/
def target? (p : Program) (owner function : String) (target args : Expr) :
    Option (String × String × List Value) := do
  let fields ← (p.value? target).bind Json.members?
  let owner ← Fields.required? fields owner Json.string?
  let function ← Fields.required? fields function Json.string?
  let args ← (p.value? args).bind (Json.list? Json.value?)
  some (owner, function, args)

/-- The call that a statement makes on the builder. -/
def callOf? (p : Program) : Expr → Option BuilderCall
  | .call "builder.feeTransactionPayFromComponent"
      [account, .call "Amount.of" [.atom (.int (.ofNat fee))]] => do
    let account ← p.text? account
    let fee ← Amount.nearest? fee
    some (.payFee account fee)
  | .call "builder.callMethod" [target, args] => do
    let (address, method, args) ← p.target? "componentAddress" "methodName" target args
    some (.callMethod address method args)
  | .call "builder.callFunction" [target, args] => do
    let (templateAddress, function, args) ← p.target? "templateAddress" "functionName" target args
    some (.callFunction templateAddress function args)
  | .call "builder.addInstruction" [instruction] => do
    let instruction ← (p.value? instruction).bind Json.value?
    some (.addInstruction instruction)
  | .call "builder.allocateAddress" [kind, workspaceId] => do
    let kind ← (p.text? kind).bind AddressKind.ofName?
    let workspaceId ← p.text? workspaceId
    some (.allocateAddress kind workspaceId)
  | .call "builder.saveVar" [key] => (p.text? key).map .saveVar
  | _ => none

/-! ### Arguments -/

/-- The module has the value of an argument, if that is a bank parameter. -/
def Supplies (p : Program) : Arg → Prop
  | .input bank param (some value) => p.read bank param.name = some value.json
  | .input _ _ none | .workspace .. | .literal _ => True

variable {p : Program}

/-- **The expression of an argument has the value that the argument passes on.** -/
theorem value?_expr {a : Arg} {v : Value} (supplied : p.Supplies a) (passes : a.Passes v) :
    p.value? a.expr = some v.json := by
  cases passes with
  | workspace => rfl
  | input => exact supplied
  | literal => exact Expr.value?_ofJson v.json

/-- The array of arguments has the values that the arguments pass on. -/
theorem value?_exprs {args : List Arg} {vs : List Value} (supplied : ∀ a ∈ args, p.Supplies a)
    (passed : List.Forall₂ Arg.Passes args vs) :
    p.value? (.array (args.map Arg.expr)) = some (.arr (vs.map Value.json)) := by
  have values : Expr.values? p.read (args.map Arg.expr) = some (vs.map Value.json) := by
    induction passed with
    | nil => rfl
    | @cons a v args vs head _ ih =>
      have first : a.expr.value? p.read = some v.json :=
        value?_expr (supplied a List.mem_cons_self) head
      have rest := ih fun b mem => supplied b (List.mem_cons_of_mem a mem)
      simp [Expr.values?, first, rest]
  simp [value?, Expr.value?, values]

/-! ### Statements -/

/-- An object of one property has its value under its name. -/
theorem value?_tagged {layout : Layout} {key : String} {e : Expr} {x : Json}
    (content : p.value? e = some x) :
    p.value? (.object layout [(key, e)]) = some (.obj [(key, x)]) := by
  rw [value?] at content
  simp [value?, Expr.value?, Expr.members?, content]

/-- An object of two properties has both values under their names. -/
theorem value?_object {layout : Layout} {key key' : String} {e e' : Expr} {x x' : Json}
    (first : p.value? e = some x) (second : p.value? e' = some x') :
    p.value? (.object layout [(key, e), (key', e')]) = some (.obj [(key, x), (key', x')]) := by
  rw [value?] at first second
  simp [value?, Expr.value?, Expr.members?, first, second]

/-- What is called is read off the object that names it. -/
theorem target?_eq {key key' owner function : String} {layout : Layout} {e e' args : Expr}
    {vs : List Value} (ne : key ≠ key') (first : p.value? e = some (.str owner))
    (second : p.value? e' = some (.str function))
    (passed : p.value? args = some (.arr (vs.map Value.json))) :
    p.target? key key' (.object layout [(key, e), (key', e')]) args =
      some (owner, function, vs) := by
  simp [target?, value?_object first second, passed, Fields.required?, ne, ne.symm]

/-- **The statement of a primitive makes the call that the primitive makes**, its fee as a number
literal gives it. -/
theorem callOf?_statement {operation : Primitive} {call : BuilderCall}
    (supplied : ∀ a ∈ operation.operands, p.Supplies a) (makes : operation.Makes call) :
    p.callOf? operation.statement = call.asWritten? := by
  cases makes with
  | @payFee account fee =>
    have called : p.callOf? (Primitive.payFee account fee).statement =
      (p.text? (.text account)).bind fun account =>
        (Amount.nearest? fee.value).bind fun fee => some (.payFee account fee) := rfl
    have text : p.text? (.text account) = some account := rfl
    rw [called, text, Option.bind_some, BuilderCall.asWritten?]
    -- Which double is nearest does not matter here, and it is not to be computed.
    generalize Amount.nearest? fee.value = fee
    cases fee <;> rfl
  | callMethod addressed passed =>
    have receiver := value?_expr (supplied _ List.mem_cons_self) addressed
    have args := value?_exprs (fun a mem => supplied a (List.mem_cons_of_mem _ mem)) passed
    change (p.target? _ _ _ _).bind _ = _
    rw [target?_eq (by decide) receiver rfl args]
    rfl
  | @callFunction _ _ args values passed =>
    have args : p.value? (.array (args.map Arg.expr)) = some (.arr (values.map Value.json)) :=
      value?_exprs supplied passed
    change (p.target? _ _ _ _).bind _ = _
    rw [target?_eq (by decide) rfl rfl args]
    rfl
  | @emitLog _ _ _ _ instruction passedLevel passedMessage logs =>
    have level := value?_expr (supplied _ List.mem_cons_self) passedLevel
    have message := value?_expr (supplied _ (by simp [Primitive.operands])) passedMessage
    change ((p.value? _).bind Json.value?).bind _ = _
    rw [value?_tagged (value?_object level message), ← logs, Option.bind_some, Json.value?,
      Value.ofJson_json]
    rfl
  | @allocateAddress kind => cases kind <;> rfl
  | saveVar => rfl

end Program

end FlowPlan
