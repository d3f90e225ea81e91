import FlowPlan.Json.Basic
import FlowPlan.Text.Identifier
import FlowPlan.Text.Quoted

/-!
# Json — reading text

A reader of JSON text over lists of characters.  Each step returns what it read and the rest of
the text; nothing is skipped but the four blanks of the format.

The reader takes a style for the keys of objects.  A document writes every key between quotes; a
literal in a generated module may write a key of identifier shape bare.  It also takes the number
of containers that may stand inside one another, which is limited for documents.

* `Numeral.scan?`: a number as its digits; `Numeral.toJson?`: the number that they denote.
* `Json.read?`: a value and the rest of the text.
* `Json.parse?`: a whole document.
* `Json.parseLiteral?`: a whole literal of a generated module.
-/

namespace FlowPlan

namespace Json

/-! ### Numbers -/

/-- A number as it is written. -/
structure Numeral where
  negative : Bool
  /-- The digits before the point. -/
  whole : List Char
  /-- The digits after the point, if there is one. -/
  fraction : Option (List Char)
  /-- The sign and the digits of the exponent, if there is one. -/
  exponent : Option (Bool × List Char)

namespace Numeral

/-- The longest run of digits at the start of a text, and the rest. -/
def spanDigits (cs : List Char) : List Char × List Char :=
  cs.span Char.isDigit

/-- The digits before the point: a single zero, or a run that starts with another digit. -/
def scanWhole? : List Char → Option (List Char × List Char)
  | [] => none
  | '0' :: cs =>
    match cs with
    | c :: _ => if c.isDigit then none else some (['0'], cs)
    | [] => some (['0'], [])
  | c :: cs => if c.isDigit then some (spanDigits (c :: cs)) else none

/-- The digits after the point, where there is a point. -/
def scanFraction? : List Char → Option (Option (List Char) × List Char)
  | '.' :: cs =>
    match spanDigits cs with
    | ([], _) => none
    | (ds, cs) => some (some ds, cs)
  | cs => some (none, cs)

/-- An optional sign: whether it is a minus. -/
def scanSign : List Char → Bool × List Char
  | '-' :: cs => (true, cs)
  | '+' :: cs => (false, cs)
  | cs => (false, cs)

/-- The exponent, where there is one. -/
def scanExponent? : List Char → Option (Option (Bool × List Char) × List Char)
  | [] => some (none, [])
  | c :: cs =>
    if c = 'e' ∨ c = 'E' then
      let (negative, cs) := scanSign cs
      match spanDigits cs with
      | ([], _) => none
      | (ds, cs) => some (some (negative, ds), cs)
    else some (none, c :: cs)

/-- An optional minus, and whether there is one. -/
def scanMinus : List Char → Bool × List Char
  | '-' :: cs => (true, cs)
  | cs => (false, cs)

/-- Reads a number as its digits. -/
def scan? (cs : List Char) : Option (Numeral × List Char) := do
  let (negative, cs) := scanMinus cs
  let (whole, cs) ← scanWhole? cs
  let (fraction, cs) ← scanFraction? cs
  let (exponent, cs) ← scanExponent? cs
  some (⟨negative, whole, fraction, exponent⟩, cs)

/-- The natural number that digits write. -/
def valueOf (ds : List Char) : Nat :=
  ds.foldl (fun n d => n * 10 + (d.toNat - '0'.toNat)) 0

/-- The first significand that does not fit in sixty-four bits. -/
def significandLimit : Nat :=
  Nat.pow 2 64

/-- Appends digits to a significand while it fits in sixty-four bits.  The result counts the
digits that were appended and those from the first misfit on, which are dropped. -/
def appendDigits : (significand : Nat) → List Char → Nat × Nat × Nat
  | n, [] => (n, 0, 0)
  | n, d :: ds =>
    let next := n * 10 + (d.toNat - '0'.toNat)
    if next < significandLimit then
      let (n, taken, dropped) := appendDigits next ds
      (n, taken + 1, dropped)
    else (n, 0, ds.length + 1)

/-- The double that a number denotes, if it is finite. -/
def toDouble? (x : Numeral) : Option Double :=
  let (n, _, dropped) := appendDigits 0 x.whole
  let (n, taken, _) := appendDigits n (x.fraction.getD [])
  let power : Int :=
    match x.exponent with
    | none => 0
    | some (negative, ds) => if negative then -(valueOf ds : Int) else valueOf ds
  Double.ofScaled? x.negative n ((dropped : Int) - taken + power)

/-- The number as a document: an integer if it is written as one and is in range, else a double.
A zero with a minus is a double. -/
def toJson? (x : Numeral) : Option Json :=
  let n := valueOf x.whole
  let isWhole := x.fraction.isNone && x.exponent.isNone
  if isWhole && !x.negative && decide (n < Nat.pow 2 64) then some (.int n)
  else if isWhole && x.negative && decide (0 < n ∧ n ≤ Nat.pow 2 63) then some (.int (-n))
  else x.toDouble?.map .double

end Numeral

/-! ### Values -/

/-- How the keys of objects may be written. -/
inductive KeyStyle where
  /-- Between quotes only. -/
  | quoted
  /-- Between quotes, or bare if of identifier shape. -/
  | bareAllowed
  deriving DecidableEq

/-- The text from its first character that is no blank of the format. -/
def skipBlanks (cs : List Char) : List Char :=
  cs.dropWhile fun c => c = ' ' || c = '\n' || c = '\t' || c = '\r'

/-- Reads a key. -/
def readKey? (style : KeyStyle) : List Char → Option (String × List Char)
  | [] => none
  | c :: cs =>
    if c = '"' then (Text.readQuoted? cs).map fun (key, cs) => (String.ofList key, cs)
    else if style = .bareAllowed ∧ Text.isIdentifierStart c then
      let (name, cs) := cs.span Text.isIdentifierRest
      some (String.ofList (c :: name), cs)
    else none

/-- Reads the key of a member and the colon after it. -/
def readLabel? (style : KeyStyle) (cs : List Char) : Option (String × List Char) := do
  let (key, cs) ← readKey? style (skipBlanks cs)
  match skipBlanks cs with
  | ':' :: cs => some (key, cs)
  | _ => none

/-- Reads a word or a number. -/
def readScalar? : List Char → Option (Json × List Char)
  | 'n' :: 'u' :: 'l' :: 'l' :: cs => some (.null, cs)
  | 't' :: 'r' :: 'u' :: 'e' :: cs => some (.bool true, cs)
  | 'f' :: 'a' :: 'l' :: 's' :: 'e' :: cs => some (.bool false, cs)
  | cs => do
    let (x, cs) ← Numeral.scan? cs
    let j ← x.toJson?
    some (j, cs)

mutual

/-- Reads a value in which at most `room` containers stand inside one another. -/
def readValue? (style : KeyStyle) :
    (fuel room : Nat) → List Char → Option (Json × List Char)
  | 0, _, _ => none
  | fuel + 1, room, cs =>
    match skipBlanks cs with
    | '"' :: cs => (Text.readQuoted? cs).map fun (s, cs) => (.str (String.ofList s), cs)
    | '[' :: cs =>
      match room with
      | 0 => none
      | room + 1 =>
        match skipBlanks cs with
        | ']' :: cs => some (.arr [], cs)
        | cs => (readItems? style fuel room cs).map fun (items, cs) => (.arr items, cs)
    | '{' :: cs =>
      match room with
      | 0 => none
      | room + 1 =>
        match skipBlanks cs with
        | '}' :: cs => some (.obj [], cs)
        | cs => (readMembers? style fuel room cs).map fun (members, cs) => (.obj members, cs)
    | cs => readScalar? cs

/-- Reads the items of an array and the bracket that closes it. -/
def readItems? (style : KeyStyle) :
    (fuel room : Nat) → List Char → Option (List Json × List Char)
  | 0, _, _ => none
  | fuel + 1, room, cs => do
    let (item, cs) ← readValue? style fuel room cs
    match skipBlanks cs with
    | ']' :: cs => some ([item], cs)
    | ',' :: cs => (readItems? style fuel room cs).map fun (items, cs) => (item :: items, cs)
    | _ => none

/-- Reads the members of an object and the brace that closes it. -/
def readMembers? (style : KeyStyle) :
    (fuel room : Nat) → List Char → Option (List (String × Json) × List Char)
  | 0, _, _ => none
  | fuel + 1, room, cs => do
    let (key, cs) ← readLabel? style cs
    let (x, cs) ← readValue? style fuel room cs
    match skipBlanks cs with
    | '}' :: cs => some ([(key, x)], cs)
    | ',' :: cs =>
      (readMembers? style fuel room cs).map fun (members, cs) => ((key, x) :: members, cs)
    | _ => none

end

/-- Reads a value; no step of the reader looks at a text more than twice without taking a
character off it, which bounds the steps. -/
def read? (style : KeyStyle) (room : Nat) (cs : List Char) : Option (Json × List Char) :=
  readValue? style (2 * cs.length + 1) room cs

/-- Reads a text that holds one value and blanks around it. -/
def readWhole? (style : KeyStyle) (room : Nat) (cs : List Char) : Option Json := do
  let (j, rest) ← read? style room cs
  if skipBlanks rest = [] then some j else none

/-- The number of containers that may stand inside one another in a document. -/
def depthLimit : Nat := 127

/-- Reads a document. -/
def parse? (text : String) : Option Json :=
  readWhole? .quoted depthLimit text.toList

/-- Reads a literal of a generated module, nested to any depth. -/
def parseLiteral? (text : String) : Option Json :=
  readWhole? .bareAllowed text.length text.toList

end Json

end FlowPlan
