import FlowPlan.Json.Reader

/-!
# Json — outlines

Reading of a document only the members that are going to be looked at.  An outline says which they
are: of an object it names the members, of an array it describes the items, and any other part is
taken as a whole.

A member that no outline names is passed over.  It has to follow the grammar, but nothing is made of
it: its numbers may be beyond every double, its strings may hold lone surrogates, and its containers
may be nested to any depth.

* `Json.passOver?`: the text after a value of which nothing is kept.
* `Outline.read?`: what an outline names, and the text after the document.
-/

namespace FlowPlan

namespace Json

/-! ### Passing over a value -/

/-- A kind of value that holds others. -/
inductive Container where
  | array
  | object
  deriving DecidableEq

/-- Where a text stands while a value is passed over. -/
inductive Passage where
  /-- Every container is closed, and this is the rest of the text. -/
  | finished (rest : List Char)
  /-- A value has to follow in these containers, the innermost first. -/
  | inside (containers : List Container) (rest : List Char)

/-- Passes over the key of a member and the colon after it. -/
def skipLabel? (cs : List Char) : Option (List Char) :=
  match skipBlanks cs with
  | '"' :: cs =>
    match (Text.skipQuoted? cs).map skipBlanks with
    | some (':' :: cs) => some cs
    | _ => none
  | _ => none

/-- Passes over a string, a word or a number. -/
def skipScalar? : List Char → Option (List Char)
  | '"' :: cs => Text.skipQuoted? cs
  | 'n' :: 'u' :: 'l' :: 'l' :: cs => some cs
  | 't' :: 'r' :: 'u' :: 'e' :: cs => some cs
  | 'f' :: 'a' :: 'l' :: 's' :: 'e' :: cs => some cs
  | cs => (Numeral.scan? cs).map Prod.snd

namespace Passage

/-- Goes on after a value: closes the containers that end here, up to the next value. -/
def afterValue? : List Container → List Char → Option Passage
  | [], cs => some (.finished cs)
  | .array :: outer, cs =>
    match skipBlanks cs with
    | ']' :: cs => afterValue? outer cs
    | ',' :: cs => some (.inside (.array :: outer) cs)
    | _ => none
  | .object :: outer, cs =>
    match skipBlanks cs with
    | '}' :: cs => afterValue? outer cs
    | ',' :: cs => (skipLabel? cs).map (.inside (.object :: outer))
    | _ => none

/-- Goes on where a value has to follow: enters it, or passes over it if it holds no other. -/
def next? (containers : List Container) (cs : List Char) : Option Passage :=
  match skipBlanks cs with
  | '[' :: cs =>
    match skipBlanks cs with
    | ']' :: cs => afterValue? containers cs
    | cs => some (.inside (.array :: containers) cs)
  | '{' :: cs =>
    match skipBlanks cs with
    | '}' :: cs => afterValue? containers cs
    | cs => (skipLabel? cs).map (.inside (.object :: containers))
  | cs => (skipScalar? cs).bind (afterValue? containers)

/-- Goes on until every container is closed; each step takes a character off the text. -/
def finish? : (fuel : Nat) → Passage → Option (List Char)
  | _, .finished rest => some rest
  | 0, .inside _ _ => none
  | fuel + 1, .inside containers cs =>
    match next? containers cs with
    | some passage => finish? fuel passage
    | none => none

end Passage

/-- Passes over a value. -/
def passOver? (fuel : Nat) (cs : List Char) : Option (List Char) :=
  Passage.finish? fuel (.inside [] cs)

/-! ### Reading along an outline -/

/-- What of a document is going to be looked at. -/
inductive Outline where
  /-- All of it. -/
  | whole
  /-- Of an array, the same of every item. -/
  | each (item : Outline)
  /-- Of an object, the members of these names. -/
  | named (known : List (String × Outline))

namespace Outline

mutual

/-- Reads what an outline names of a value in which at most `room` containers stand inside one
another; fails where the value is no array or no object, as the outline wants it. -/
def readValue? : (fuel room : Nat) → Outline → List Char → Option (Json × List Char)
  | 0, _, _, _ => none
  | fuel + 1, room, .whole, cs => Json.readValue? .quoted fuel room cs
  | _ + 1, 0, _, _ => none
  | fuel + 1, room + 1, .each item, cs =>
    match skipBlanks cs with
    | '[' :: cs =>
      match skipBlanks cs with
      | ']' :: cs => some (.arr [], cs)
      | cs => (readItems? fuel room item cs).map fun (items, cs) => (.arr items, cs)
    | _ => none
  | fuel + 1, room + 1, .named known, cs =>
    match skipBlanks cs with
    | '{' :: cs =>
      match skipBlanks cs with
      | '}' :: cs => some (.obj [], cs)
      | cs => (readMembers? fuel room known cs).map fun (members, cs) => (.obj members, cs)
    | _ => none

/-- Reads what an outline names of the items of an array, and the bracket that closes it. -/
def readItems? : (fuel room : Nat) → Outline → List Char → Option (List Json × List Char)
  | 0, _, _, _ => none
  | fuel + 1, room, item, cs => do
    let (x, cs) ← readValue? fuel room item cs
    match skipBlanks cs with
    | ']' :: cs => some ([x], cs)
    | ',' :: cs => (readItems? fuel room item cs).map fun (items, cs) => (x :: items, cs)
    | _ => none

/-- Reads the known members of an object, passes over the others, and reads the brace that closes
it. -/
def readMembers? : (fuel room : Nat) → List (String × Outline) → List Char →
    Option (List (String × Json) × List Char)
  | 0, _, _, _ => none
  | fuel + 1, room, known, cs => do
    let (key, cs) ← readLabel? .quoted cs
    let (member, cs) ← match known.find? (·.1 = key) with
      | some (_, outline) =>
        (readValue? fuel room outline cs).map fun (x, cs) => ([(key, x)], cs)
      | none => (passOver? fuel cs).map fun cs => ([], cs)
    match skipBlanks cs with
    | '}' :: cs => some (member, cs)
    | ',' :: cs =>
      (readMembers? fuel room known cs).map fun (members, cs) => (member ++ members, cs)
    | _ => none

end

/-- Reads what an outline names of a document, and gives the text after the document; no step looks
at a text more than three times without taking a character off it. -/
def read? (outline : Outline) (text : String) : Option (Json × List Char) :=
  let cs := text.toList
  readValue? (3 * cs.length + 1) depthLimit outline cs

end Outline

end Json

end FlowPlan
