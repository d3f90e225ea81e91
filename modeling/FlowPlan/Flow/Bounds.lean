import FlowPlan.Flow.ParamType
import FlowPlan.Flow.StoredValue
import FlowPlan.Text.Blank
import FlowPlan.Text.Numeral

/-!
# Flow — reading typed-in text

What a text means for a type.  An integer is read as a decimal numeral with an optional minus and
no plus, checked against the inclusive bounds of its type, and kept as a decimal text, because a
JSON number cannot hold every integer of a hundred and twenty-eight bits.  A truth value is one of
two words.  For any other type the text is the value.

* `IntegerBounds.parse`: a text within bounds, in canonical decimal form.
* `ParamType.bounds?`: the bounds of an integer type.
* `ParamType.read`: the outcome for a type.
-/

namespace FlowPlan

/-- The inclusive range of an integer type.  The lower bound fits in a signed word of a hundred
and twenty-eight bits and the upper bound in an unsigned one. -/
structure IntegerBounds where
  min : Int
  max : Nat
  min_ge : -(Nat.pow 2 127) ≤ min
  max_lt : max < Nat.pow 2 128
  deriving DecidableEq

/-- Why a text is no integer within bounds. -/
inductive BoundsError where
  /-- The text is no decimal numeral of at most a hundred and twenty-eight bits. -/
  | notAnInteger
  | belowMin (min : Int)
  | aboveMax (max : Nat)
  deriving DecidableEq

/-- The wording of a failure. -/
def BoundsError.message : BoundsError → String
  | .notAnInteger => "Invalid integer"
  | .belowMin min => "Value must be greater than or equal to " ++ String.ofList (Text.integer min)
  | .aboveMax max => "Value must be less than or equal to " ++ String.ofList (Text.natural max)

namespace IntegerBounds

/-- The range of a signed type. -/
def signed (w : Width) : IntegerBounds where
  min := -(Nat.pow 2 (w.bits - 1))
  max := Nat.pow 2 (w.bits - 1) - 1
  min_ge := by cases w <;> decide
  max_lt := by cases w <;> decide

/-- The range of an unsigned type. -/
def unsigned (w : Width) : IntegerBounds where
  min := 0
  max := Nat.pow 2 w.bits - 1
  min_ge := by decide
  max_lt := by cases w <;> decide

/-- A magnitude that was written without a sign of any kind. -/
def readMagnitude (cs : List Char) : Except BoundsError Nat :=
  if cs.head? = some '+' then .error .notAnInteger
  else (Text.readNatural (Nat.pow 2 128) cs).mapError fun _ => .notAnInteger

/-- Reads a numeral with a minus before it, whose magnitude the text gives. -/
def parseNegative (b : IntegerBounds) (cs : List Char) : Except BoundsError (List Char) := do
  let magnitude ← readMagnitude cs
  if magnitude = 0 then .ok (Text.natural 0)
  else if b.min.natAbs < magnitude ∨ b.min = 0 then .error (.belowMin b.min)
  else .ok (Text.integer (-(magnitude : Int)))

/-- Reads a numeral without a sign. -/
def parsePositive (b : IntegerBounds) (cs : List Char) : Except BoundsError (List Char) := do
  let n ← readMagnitude cs
  if b.max < n then .error (.aboveMax b.max) else .ok (Text.natural n)

/-- Reads a text between blanks. -/
def parseTrimmed (b : IntegerBounds) : List Char → Except BoundsError (List Char)
  | '-' :: cs => b.parseNegative cs
  | cs => b.parsePositive cs

/-- Reads an integer within the bounds and gives its canonical decimal form. -/
def parse (b : IntegerBounds) (text : String) : Except BoundsError String :=
  (b.parseTrimmed (Text.trim text.toList)).map String.ofList

end IntegerBounds

namespace ParamType

/-- The range of an integer type. -/
def bounds? : ParamType → Option IntegerBounds
  | .scalar (.signed w) => some (.signed w)
  | .scalar (.unsigned w) => some (.unsigned w)
  | _ => none

/-- Reads a truth value. -/
def readBool (text : String) : StoredValue :=
  let word := Text.trim text.toList
  if word = "true".toList then .ok (.bool true)
  else if word = "false".toList then .ok (.bool false)
  else .failed "Expected true or false"

/-- What a typed-in text means for a type. -/
def read (t : ParamType) (text : String) : StoredValue :=
  match t.bounds? with
  | some bounds =>
    match bounds.parse text with
    | .ok canonical => .ok (.text canonical)
    | .error e => .failed e.message
  | none => if t = .bool then readBool text else .ok (.text text)

end ParamType

end FlowPlan
