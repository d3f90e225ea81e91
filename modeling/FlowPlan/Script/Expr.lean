import FlowPlan.Json.Basic
import FlowPlan.Text.Identifier
import FlowPlan.Text.Numeral
import FlowPlan.Text.Quoted
import FlowPlan.Json.Printer

/-!
# Script — expressions

The expressions of a generated TypeScript module, and their layout.  A level of indentation is four
spaces.  An object in block layout has a line for each property, one level further in; one in
inline layout stays on its line, and so does an array.  A property key of identifier shape is
written bare and any other between quotes.

* `Expr.ofJson`: the literal of a document.
* `Expr.chars`: the written form at a level.
-/

namespace FlowPlan

/-- How an object is laid out. -/
inductive Layout where
  | inline
  | block
  deriving DecidableEq

/-- An expression of a generated module. -/
inductive Expr where
  /-- A word or a number, as JSON writes it. -/
  | atom (value : Json)
  /-- The absent value. -/
  | undefined
  /-- A property of a variable. -/
  | property (owner name : String)
  | text (s : String)
  | array (items : List Expr)
  | object (layout : Layout) (properties : List (String × Expr))
  | call (callee : String) (args : List Expr)
  deriving Inhabited

namespace Expr

mutual

/-- The literal of a document. -/
def ofJson : Json → Expr
  | .str s => .text s
  | .arr items => .array (ofJsonItems items)
  | .obj members => .object .block (ofJsonMembers members)
  | .null => .atom .null
  | .bool b => .atom (.bool b)
  | .int i => .atom (.int i)
  | .double x => .atom (.double x)

/-- The literals of an array's items. -/
def ofJsonItems : List Json → List Expr
  | [] => []
  | x :: rest => ofJson x :: ofJsonItems rest

/-- The literals of an object's members. -/
def ofJsonMembers : List (String × Json) → List (String × Expr)
  | [] => []
  | (k, x) :: rest => (k, ofJson x) :: ofJsonMembers rest

end

/-- The spaces of a level of indentation. -/
def indent (level : Nat) : List Char :=
  List.replicate (4 * level) ' '

/-- The written form of a property key. -/
def key (name : String) : List Char :=
  if Text.isIdentifier name.toList then name.toList else Text.quoted name.toList

mutual

/-- The written form of an expression whose first line stands at a level. -/
def chars (level : Nat) : Expr → List Char
  | .atom value => value.scalarText
  | .undefined => "undefined".toList
  | .property owner name => owner.toList ++ '.' :: name.toList
  | .text s => Text.quoted s.toList
  | .array items => '[' :: (itemsChars level items ++ [']'])
  | .object _ [] => ['\x7b', '\x7d']
  | .object .inline (p :: rest) =>
    '\x7b' :: ' ' :: (inlineChars level (p :: rest) ++ [' ', '\x7d'])
  | .object .block (p :: rest) =>
    '\x7b' :: '\n' :: (blockChars (level + 1) (p :: rest) ++ '\n' :: (indent level ++ ['\x7d']))
  | .call callee args => callee.toList ++ '(' :: (itemsChars level args ++ [')'])

/-- Expressions on one line, commas between them. -/
def itemsChars (level : Nat) : List Expr → List Char
  | [] => []
  | [e] => e.chars level
  | e :: rest => e.chars level ++ ',' :: ' ' :: itemsChars level rest

/-- Properties on one line, commas between them. -/
def inlineChars (level : Nat) : List (String × Expr) → List Char
  | [] => []
  | [(k, e)] => key k ++ ':' :: ' ' :: e.chars level
  | (k, e) :: rest => key k ++ ':' :: ' ' :: (e.chars level ++ ',' :: ' ' :: inlineChars level rest)

/-- Properties on a line each, commas after all but the last. -/
def blockChars (level : Nat) : List (String × Expr) → List Char
  | [] => []
  | [(k, e)] => indent level ++ (key k ++ ':' :: ' ' :: e.chars level)
  | (k, e) :: rest =>
    indent level ++ (key k ++ ':' :: ' ' :: (e.chars level ++ ',' :: '\n' :: blockChars level rest))

end

/-- The written form of an expression, as a text. -/
def render (level : Nat) (e : Expr) : String :=
  String.ofList (e.chars level)

end Expr

end FlowPlan
