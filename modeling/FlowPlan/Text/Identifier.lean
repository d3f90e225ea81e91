/-!
# Text — identifiers

The names that a generated module may use bare: an ASCII letter, `_` or `$`, and then any number
of these and of ASCII digits.
-/

namespace FlowPlan.Text

/-- An ASCII letter, `_` or `$`. -/
def isIdentifierStart (c : Char) : Bool :=
  c.isAlpha || c == '_' || c == '$'

/-- A character that may stand after the first one of an identifier. -/
def isIdentifierRest (c : Char) : Bool :=
  c.isAlphanum || c == '_' || c == '$'

/-- A text of identifier shape. -/
def isIdentifier : List Char → Bool
  | [] => false
  | c :: cs => isIdentifierStart c && cs.all isIdentifierRest

end FlowPlan.Text
