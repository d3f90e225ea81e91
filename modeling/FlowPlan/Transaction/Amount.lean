import FlowPlan.Json.Fields
import FlowPlan.Text.Blank
import FlowPlan.Text.Numeral

/-!
# Transaction — amounts

Unsigned amounts of a hundred and twenty-eight bits.  The JSON form is a decimal text, so that a
reader without such integers gets them exactly; reading also accepts an integer.

* `Amount.parse`: an amount from text, with blanks at both ends and one leading `+` allowed.
* `Amount.ofJson`: an amount from a document.
-/

namespace FlowPlan

/-- The least number that is too large for an amount. -/
def Amount.limit : Nat :=
  Nat.pow 2 128

/-- An unsigned amount of tokens. -/
structure Amount where
  value : Nat
  lt_limit : value < Amount.limit
  deriving DecidableEq

/-- Why a document is no amount. -/
inductive AmountError where
  | badNumeral (reason : Text.NumeralError)
  | negative
  /-- The document is neither an integer nor a text. -/
  | wrongKind (found : Json)
  deriving DecidableEq

namespace Amount

/-- The decimal form. -/
def text (a : Amount) : String :=
  String.ofList (Text.natural a.value)

/-- Reads an amount from text. -/
def parse (text : String) : Except Text.NumeralError Amount :=
  match Text.readNatural limit (Text.trim text.toList) with
  | .error e => .error e
  | .ok n => if h : n < limit then .ok ⟨n, h⟩ else .error .tooLarge

/-- The JSON form: the decimal form as a text. -/
def toJson (a : Amount) : Json :=
  .str a.text

/-- Reads an amount from a document. -/
def ofJson : Json → Except AmountError Amount
  | .int i =>
    if i < 0 then .error .negative
    else if h : i.toNat < limit then .ok ⟨i.toNat, h⟩
    else .error (.badNumeral .tooLarge)
  | .str s => (parse s).mapError .badNumeral
  | j => .error (.wrongKind j)

/-- Reads an amount, where only success matters. -/
def ofJson? (j : Json) : Option Amount :=
  (ofJson j).toOption

end Amount

/-- A document as an error names it: its kind, and its value where that is short. -/
def kindText : Json → String
  | .null => "null"
  | .bool true => "boolean `true`"
  | .bool false => "boolean `false`"
  | .int i => "integer `" ++ String.ofList (Text.integer i) ++ "`"
  | .double x => "floating point `" ++ String.ofList x.text ++ "`"
  | .str s => "string \"" ++ s ++ "\""
  | .arr _ => "sequence"
  | .obj _ => "map"

/-- The wording of a failure. -/
def AmountError.message : AmountError → String
  | .badNumeral reason => reason.message
  | .negative => "amount cannot be negative"
  | .wrongKind found =>
    "invalid type: " ++ kindText found ++ ", expected an unsigned integer or a decimal string"

end FlowPlan
