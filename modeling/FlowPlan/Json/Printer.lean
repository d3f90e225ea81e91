import FlowPlan.Json.Basic
import FlowPlan.Text.Numeral
import FlowPlan.Text.Quoted

/-!
# Json — printing

Two written forms of a document.  The compact one has no blanks.  The indented one puts every item
and every member on a line of its own, two spaces further in than its container, and a space after
the colon of a member; an empty container stays on one line.
-/

namespace FlowPlan

namespace Json

/-- The written form of a document that is no container. -/
def scalarText : Json → List Char
  | .null => "null".toList
  | .bool true => "true".toList
  | .bool false => "false".toList
  | .int i => Text.integer i
  | .double x => x.text
  | .str s => Text.quoted s.toList
  | .arr _ | .obj _ => []

/-! ### The compact form -/

mutual

/-- The compact form. -/
def compactChars : Json → List Char
  | .arr items => '[' :: compactItems items
  | .obj members => '\x7b' :: compactMembers members
  | j => j.scalarText

/-- The items of an array and the bracket that closes it. -/
def compactItems : List Json → List Char
  | [] => [']']
  | [x] => x.compactChars ++ [']']
  | x :: rest => x.compactChars ++ ',' :: compactItems rest

/-- The members of an object and the brace that closes it. -/
def compactMembers : List (String × Json) → List Char
  | [] => ['\x7d']
  | [(k, x)] => Text.quoted k.toList ++ ':' :: (x.compactChars ++ ['\x7d'])
  | (k, x) :: rest => Text.quoted k.toList ++ ':' :: (x.compactChars ++ ',' :: compactMembers rest)

end

/-- The compact form, as a text. -/
def compact (j : Json) : String :=
  String.ofList j.compactChars

/-! ### The indented form -/

/-- A line break and the indentation of a level. -/
def newline (level : Nat) : List Char :=
  '\n' :: List.replicate (2 * level) ' '

mutual

/-- The indented form at a level. -/
def prettyChars (level : Nat) : Json → List Char
  | .arr [] => ['[', ']']
  | .arr (x :: rest) => '[' :: prettyItems level (x :: rest)
  | .obj [] => ['\x7b', '\x7d']
  | .obj (m :: rest) => '\x7b' :: prettyMembers level (m :: rest)
  | j => j.scalarText

/-- The items of an array, each on its line, and the line of the closing bracket. -/
def prettyItems (level : Nat) : List Json → List Char
  | [] => newline level ++ [']']
  | [x] => newline (level + 1) ++ x.prettyChars (level + 1) ++ newline level ++ [']']
  | x :: rest => newline (level + 1) ++ x.prettyChars (level + 1) ++ ',' :: prettyItems level rest

/-- The members of an object, each on its line, and the line of the closing brace. -/
def prettyMembers (level : Nat) : List (String × Json) → List Char
  | [] => newline level ++ ['\x7d']
  | [(k, x)] =>
    newline (level + 1) ++ Text.quoted k.toList ++ ':' :: ' ' :: x.prettyChars (level + 1) ++
      newline level ++ ['\x7d']
  | (k, x) :: rest =>
    newline (level + 1) ++ Text.quoted k.toList ++ ':' :: ' ' :: x.prettyChars (level + 1) ++
      ',' :: prettyMembers level rest

end

/-- The indented form, as a text. -/
def pretty (j : Json) : String :=
  String.ofList (j.prettyChars 0)

end Json

end FlowPlan
