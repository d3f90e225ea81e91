import FlowPlan.Proofs.Script.Literals

/-!
# Script — expressions read back

A reader of the expressions of a module, which tells them by their first characters: strings, arrays
and objects by a quote or a bracket, and the others by the name or the number that they begin with.
It takes an expression in any layout, with blanks between its parts and a comma behind the last item
or not.  Numbers are read with their exact value, whatever their size; what a program makes of them
is told by their meaning.

What is printed is read back, if its names are identifiers (`Expr.Readable`).  The proof is by
recursion on the reader's fuel, with one case for each form of expression; of a list, the last item
is a case apart, as it stands in front of a bracket.

* `Expr.readable_ofJson`: the literal of a document can be read.
* `Expr.read?_chars`: an expression is read back, as far as it goes.
-/

namespace FlowPlan

/-! ### Letters -/

/-- The letters by their codes. -/
theorem Text.isAlpha_iff {c : Char} :
    c.isAlpha ↔ 65 ≤ c.toNat ∧ c.toNat ≤ 90 ∨ 97 ≤ c.toNat ∧ c.toNat ≤ 122 := by
  have classes : c.isAlpha = (decide (c.val ≥ 'A'.val ∧ c.val ≤ 'Z'.val) ||
    (decide (c.val ≥ 'a'.val) && decide (c.val ≤ 'z'.val))) := rfl
  rw [classes]
  simp [UInt32.le_iff_toNat_le]

/-! ### Names -/

/-- Reads a name: a run of identifier shape. -/
def readName? : List Char → Option (String × List Char)
  | [] => none
  | c :: cs =>
    if Text.isIdentifierStart c then
      let (name, cs) := cs.span Text.isIdentifierRest
      some (String.ofList (c :: name), cs)
    else none

/-- The text does not go on as a name could. -/
def EndsName (rest : List Char) : Prop :=
  ∀ c ∈ rest.head?, Text.isIdentifierRest c = false

/-- A name is read up to where it ends. -/
theorem readName?_append {name : String} {rest : List Char}
    (identifier : Text.isIdentifier name.toList) (ends : EndsName rest) :
    readName? (name.toList ++ rest) = some (name, rest) := by
  cases chars : name.toList with
  | nil => simp [chars, Text.isIdentifier] at identifier
  | cons c cs =>
    rw [chars, Text.isIdentifier, Bool.and_eq_true, List.all_eq_true] at identifier
    have run := Json.span_append identifier.2 ends
    rw [List.cons_append, readName?, if_pos identifier.1, run]
    simp only [← chars, String.ofList_toList]

namespace Expr

open Json

/-! ### The reader -/

/-- What a word means. -/
def ofWord? : String → Option Expr
  | "null" => some (.atom .null)
  | "true" => some (.atom (.bool true))
  | "false" => some (.atom (.bool false))
  | "undefined" => some .undefined
  | _ => none

/-- Reads what does not open with a quote or a bracket: a number, a word, a property of a variable,
or a call of a method of one, whose arguments and closing bracket are left to `readArgs?`. -/
def readPlain? (readArgs? : List Char → Option (List Expr × List Char)) (cs : List Char) :
    Option (Expr × List Char) :=
  match readName? cs with
  | none => (readNumber? cs).map fun (j, cs) => (.atom j, cs)
  | some (owner, '.' :: cs) =>
    match readName? cs with
    | none => none
    | some (name, '(' :: cs) =>
      (readArgs? cs).map fun (args, cs) => (.call (owner ++ "." ++ name) args, cs)
    | some (name, cs) => some (.property owner name, cs)
  | some (word, cs) => (ofWord? word).map fun e => (e, cs)

/-- The layout of an object, as the character after its brace shows it. -/
def layoutOf : List Char → Layout
  | ' ' :: _ => .inline
  | _ => .block

mutual

/-- Reads an expression. -/
def read? : (fuel : Nat) → List Char → Option (Expr × List Char)
  | 0, _ => none
  | fuel + 1, cs =>
    match skipBlanks cs with
    | '"' :: cs => (Text.readQuoted? cs).map fun (s, cs) => (.text (String.ofList s), cs)
    | '[' :: cs => (readItems? ']' fuel cs).map fun (items, cs) => (.array items, cs)
    | '{' :: cs =>
      (readProperties? fuel cs).map fun (properties, rest) =>
        (.object (layoutOf cs) properties, rest)
    | cs => readPlain? (readItems? ')' fuel) cs

/-- Reads expressions between commas up to the bracket that closes them.  The last one may have a
comma behind it. -/
def readItems? (close : Char) : (fuel : Nat) → List Char → Option (List Expr × List Char)
  | 0, _ => none
  | fuel + 1, cs =>
    match skipBlanks cs with
    | [] => none
    | c :: cs =>
      if c = close then some ([], cs)
      else do
        let (item, cs) ← read? fuel (c :: cs)
        match skipBlanks cs with
        | [] => none
        | c :: cs =>
          if c = close then some ([item], cs)
          else if c = ',' then
            (readItems? close fuel cs).map fun (items, cs) => (item :: items, cs)
          else none

/-- Reads properties between commas up to the brace that closes them.  The last one may have a comma
behind it. -/
def readProperties? : (fuel : Nat) → List Char → Option (List (String × Expr) × List Char)
  | 0, _ => none
  | fuel + 1, cs =>
    match skipBlanks cs with
    | '}' :: cs => some ([], cs)
    | cs => do
      let (name, cs) ← readLabel? .bareAllowed cs
      let (e, cs) ← read? fuel cs
      match skipBlanks cs with
      | '}' :: cs => some ([(name, e)], cs)
      | ',' :: cs => (readProperties? fuel cs).map fun (others, cs) => ((name, e) :: others, cs)
      | _ => none

end

/-! ### Expressions that can be read -/

mutual

/-- Atoms are words and numbers, names are identifiers, and only an object with properties is laid
out on one line. -/
def Readable : Expr → Prop
  | .atom .null | .atom (.bool _) | .atom (.int _) | .atom (.double _) | .undefined | .text _ => True
  | .atom (.str _) | .atom (.arr _) | .atom (.obj _) => False
  | .property owner name => Text.isIdentifier owner.toList ∧ Text.isIdentifier name.toList
  | .array items => ItemsReadable items
  | .object layout properties =>
    (layout = .inline → properties ≠ []) ∧ PropertiesReadable properties
  | .call callee args =>
    (∃ owner name : String, Text.isIdentifier owner.toList ∧ Text.isIdentifier name.toList ∧
      callee = owner ++ "." ++ name) ∧ ItemsReadable args

/-- The same, of all expressions of a list. -/
def ItemsReadable : List Expr → Prop
  | [] => True
  | e :: rest => e.Readable ∧ ItemsReadable rest

/-- The same, of all properties of an object. -/
def PropertiesReadable : List (String × Expr) → Prop
  | [] => True
  | (_, e) :: rest => e.Readable ∧ PropertiesReadable rest

end

/-- An object on lines of its own can be read if its properties can. -/
theorem readable_block {properties : List (String × Expr)}
    (readable : PropertiesReadable properties) : (Expr.object .block properties).Readable := by
  refine ⟨fun inline => ?_, readable⟩
  cases inline

mutual

/-- The literal of a document can be read. -/
theorem readable_ofJson : ∀ j : Json, (ofJson j).Readable
  | .null | .bool _ | .int _ | .double _ | .str _ => by simp [ofJson, Readable]
  | .arr items => by simpa [ofJson, Readable] using itemsReadable_ofJsonItems items
  | .obj members => by simpa [ofJson, Readable] using propertiesReadable_ofJsonMembers members

theorem itemsReadable_ofJsonItems : ∀ items : List Json, ItemsReadable (ofJsonItems items)
  | [] => by simp [ofJsonItems, ItemsReadable]
  | x :: rest => by
    simp [ofJsonItems, ItemsReadable, readable_ofJson x, itemsReadable_ofJsonItems rest]

theorem propertiesReadable_ofJsonMembers :
    ∀ members : List (String × Json), PropertiesReadable (ofJsonMembers members)
  | [] => by simp [ofJsonMembers, PropertiesReadable]
  | (_, x) :: rest => by
    simp [ofJsonMembers, PropertiesReadable, readable_ofJson x,
      propertiesReadable_ofJsonMembers rest]

end

theorem chars_call (level : Nat) (owner name : String) (args : List Expr) :
    (Expr.call (owner ++ "." ++ name) args).chars level =
      owner.toList ++ '.' :: (name.toList ++ '(' :: (itemsChars level args ++ [')'])) := by
  have text : (Expr.call (owner ++ "." ++ name) args).chars level =
    (owner ++ "." ++ name).toList ++ '(' :: (itemsChars level args ++ [')']) := rfl
  simp [text]

/-! ### First characters -/

/-- The character can be the first of an expression that is no string, array or object. -/
def beginsPlain (c : Char) : Bool :=
  c = '-' || c.isDigit || Text.isIdentifierStart c

/-- The character can be the first of an expression. -/
def begins (c : Char) : Bool :=
  beginsPlain c || c = '"' || c = '[' || c = '\x7b'

theorem ne_of_begins {c d : Char} (h : begins c) (other : begins d = false) : c ≠ d := by
  rintro rfl
  rw [h] at other
  cases other

/-- An expression does not begin with a blank. -/
theorem skipBlanks_of_begins {c : Char} (cs : List Char) (h : begins c) :
    skipBlanks (c :: cs) = c :: cs :=
  skipBlanks_cons cs ⟨ne_of_begins h (by decide), ne_of_begins h (by decide),
    ne_of_begins h (by decide), ne_of_begins h (by decide)⟩

/-- A number does not begin as a name does. -/
theorem isIdentifierStart_of_number {c : Char} (h : c = '-' ∨ c.isDigit) :
    Text.isIdentifierStart c = false := by
  rcases h with rfl | digit
  · rfl
  · have other (d : Char) (h : d.isDigit = false) : c ≠ d := by
      rintro rfl
      rw [digit] at h
      cases h
    have letter : c.isAlpha = false := by
      have range : 48 ≤ c.toNat ∧ c.toNat ≤ 57 := Char.isDigit_iff_toNat.1 digit
      rw [Bool.eq_false_iff, ne_eq, Text.isAlpha_iff]
      omega
    simp [Text.isIdentifierStart, letter, other '_' rfl, other '$' rfl]

section Steps

variable {fuel : Nat} {c : Char} {cs ds rest : List Char}

/-- What begins neither a string nor an array nor an object is read as a plain expression. -/
theorem read?_plain (h : beginsPlain c) :
    read? (fuel + 1) (c :: cs) = readPlain? (readItems? ')' fuel) (c :: cs) := by
  have here := skipBlanks_of_begins cs (by simp [begins, h] : begins c)
  have other (d : Char) (h' : beginsPlain d = false) : c ≠ d := by
    rintro rfl
    rw [h] at h'
    cases h'
  rw [read?, here]
  split
  · next same => exact absurd (List.cons.inj same).1 (other _ (by decide))
  · next same => exact absurd (List.cons.inj same).1 (other _ (by decide))
  · next same => exact absurd (List.cons.inj same).1 (other _ (by decide))
  · rfl

theorem readPlain?_number {readArgs? : List Char → Option (List Expr × List Char)} {j : Json}
    (starts : c = '-' ∨ c.isDigit) (number : readNumber? (c :: cs) = some (j, rest)) :
    readPlain? readArgs? (c :: cs) = some (.atom j, rest) := by
  have name : readName? (c :: cs) = none := by
    simp [readName?, isIdentifierStart_of_number starts]
  simp only [readPlain?, name, number, Option.map_some]

theorem read?_number {j : Json} {x : Numeral} (wellFormed : x.WellFormed)
    (number : readNumber? (x.chars ++ rest) = some (j, rest)) :
    read? (fuel + 1) (x.chars ++ rest) = some (.atom j, rest) := by
  obtain ⟨c, cs, written, starts⟩ := wellFormed.exists_cons
  rw [written, List.cons_append] at number ⊢
  rw [read?_plain (by rcases starts with rfl | digit <;> simp [beginsPlain, *])]
  exact readPlain?_number starts number

/-- The text does not go on as an expression could. -/
def Ends (rest : List Char) : Prop :=
  ∀ c ∈ rest.head?, Text.isIdentifierRest c = false ∧ c ≠ '.' ∧ c ≠ '('

theorem Ends.endsName (ends : Ends rest) : EndsName rest :=
  fun c mem => (ends c mem).1

theorem Ends.endsNumber (ends : Ends rest) : EndsNumber rest := by
  intro c mem
  obtain ⟨other, point, -⟩ := ends c mem
  have ne (d : Char) (h : Text.isIdentifierRest d) : c ≠ d := by
    rintro rfl
    rw [h] at other
    cases other
  refine ⟨?_, point, ne 'e' rfl, ne 'E' rfl⟩
  by_contra digit
  simp [Text.isIdentifierRest, Char.isAlphanum, Bool.eq_true_of_not_eq_false digit] at other

theorem exists_name {name : String} (identifier : Text.isIdentifier name.toList) :
    ∃ c cs, name.toList = c :: cs ∧ Text.isIdentifierStart c := by
  cases chars : name.toList with
  | nil => simp [chars, Text.isIdentifier] at identifier
  | cons c cs =>
    rw [chars, Text.isIdentifier, Bool.and_eq_true] at identifier
    exact ⟨c, cs, rfl, identifier.1⟩

/-- What begins with a name is read as a word, a property or a call. -/
theorem read?_name {name : String} (identifier : Text.isIdentifier name.toList) :
    read? (fuel + 1) (name.toList ++ rest) =
      readPlain? (readItems? ')' fuel) (name.toList ++ rest) := by
  obtain ⟨c, cs, written, starts⟩ := exists_name identifier
  rw [written, List.cons_append]
  exact read?_plain (by simp [beginsPlain, starts])

/-- A word is read as what it means, if it is not the owner of a property. -/
theorem read?_word {word : String} {e : Expr} (identifier : Text.isIdentifier word.toList)
    (means : ofWord? word = some e) (ends : Ends rest) :
    read? (fuel + 1) (word.toList ++ rest) = some (e, rest) := by
  rw [read?_name identifier, readPlain?, readName?_append identifier ends.endsName]
  cases rest with
  | nil => simp [means]
  | cons c rest => simp [means, (ends c rfl).2.1]

theorem readName?_owner {owner : String} (identifier : Text.isIdentifier owner.toList) :
    readName? (owner.toList ++ '.' :: cs) = some (owner, '.' :: cs) :=
  readName?_append identifier (by simp [EndsName]; decide)

theorem read?_property {owner name : String} (ofOwner : Text.isIdentifier owner.toList)
    (ofName : Text.isIdentifier name.toList) (ends : Ends rest) :
    read? (fuel + 1) (owner.toList ++ '.' :: (name.toList ++ rest)) =
      some (.property owner name, rest) := by
  simp only [read?_name ofOwner, readPlain?, readName?_owner ofOwner,
    readName?_append ofName ends.endsName]
  cases rest with
  | nil => rfl
  | cons c rest => simp [(ends c rfl).2.2]

/-- A call is read with the arguments that are read behind its bracket. -/
theorem read?_call {owner name : String} {args : List Expr}
    (ofOwner : Text.isIdentifier owner.toList) (ofName : Text.isIdentifier name.toList)
    (read : readItems? ')' fuel cs = some (args, rest)) :
    read? (fuel + 1) (owner.toList ++ '.' :: (name.toList ++ '(' :: cs)) =
      some (.call (owner ++ "." ++ name) args, rest) := by
  have method : readName? (name.toList ++ '(' :: cs) = some (name, '(' :: cs) :=
    readName?_append ofName (by simp [EndsName]; decide)
  simp only [read?_name ofOwner, readPlain?, readName?_owner ofOwner, method, read,
    Option.map_some]

/-! ### Items and properties -/

theorem readItems?_nil {close : Char} (h : skipBlanks cs = close :: rest) :
    readItems? close (fuel + 1) cs = some ([], rest) := by
  simp [readItems?, h]

/-- The last item stands in front of the closing bracket. -/
theorem readItems?_last {close : Char} {e : Expr} (starts : skipBlanks cs = c :: ds)
    (ne : c ≠ close) (item : read? fuel (c :: ds) = some (e, close :: rest))
    (mark : skipBlanks (close :: rest) = close :: rest) :
    readItems? close (fuel + 1) cs = some ([e], rest) := by
  simp [readItems?, starts, ne, item, mark]

/-- Any other item stands in front of a comma. -/
theorem readItems?_comma {close : Char} {e : Expr} {es : List Expr} {after : List Char}
    (starts : skipBlanks cs = c :: ds) (ne : c ≠ close) (closing : close ≠ ',')
    (item : read? fuel (c :: ds) = some (e, ',' :: after))
    (others : readItems? close fuel after = some (es, rest)) :
    readItems? close (fuel + 1) cs = some (e :: es, rest) := by
  have comma : skipBlanks (',' :: after) = ',' :: after := rfl
  simp [readItems?, starts, ne, item, comma, closing.symm, others]

theorem readProperties?_nil (h : skipBlanks cs = '\x7d' :: rest) :
    readProperties? (fuel + 1) cs = some ([], rest) := by
  simp [readProperties?, h]

/-- No name begins with the brace that closes an object. -/
theorem ne_brace_of_readLabel? {name : String}
    (label : readLabel? .bareAllowed cs = some (name, ds)) : skipBlanks cs ≠ '\x7d' :: rest := by
  intro closes
  rw [readLabel?, closes] at label
  cases label

theorem readLabel?_skipBlanks : readLabel? .bareAllowed (skipBlanks cs) =
    readLabel? .bareAllowed cs := by
  simp only [readLabel?, skipBlanks_skipBlanks]

/-- The last property stands in front of the closing brace. -/
theorem readProperties?_last {name : String} {e : Expr} {after : List Char}
    (label : readLabel? .bareAllowed cs = some (name, ds))
    (value : read? fuel ds = some (e, after)) (closes : skipBlanks after = '\x7d' :: rest) :
    readProperties? (fuel + 1) cs = some ([(name, e)], rest) := by
  rw [readProperties?]
  split
  · next brace => exact absurd brace (ne_brace_of_readLabel? label)
  · simp only [readLabel?_skipBlanks, label, value, closes, Option.bind_eq_bind, Option.bind_some]

/-- Any other property stands in front of a comma. -/
theorem readProperties?_comma {name : String} {e : Expr} {ps : List (String × Expr)}
    {after : List Char} (label : readLabel? .bareAllowed cs = some (name, ds))
    (value : read? fuel ds = some (e, ',' :: after))
    (others : readProperties? fuel after = some (ps, rest)) :
    readProperties? (fuel + 1) cs = some ((name, e) :: ps, rest) := by
  have comma : skipBlanks (',' :: after) = ',' :: after := rfl
  rw [readProperties?]
  split
  · next brace => exact absurd brace (ne_brace_of_readLabel? label)
  · simp only [readLabel?_skipBlanks, label, value, comma, others, Option.bind_eq_bind,
      Option.bind_some, Option.map_some]

/-- Blanks in front of an expression do not count. -/
theorem read?_congr (h : skipBlanks cs = skipBlanks ds) : read? fuel cs = read? fuel ds := by
  cases fuel <;> simp only [read?, h]

theorem readItems?_congr {close : Char} (h : skipBlanks cs = skipBlanks ds) :
    readItems? close fuel cs = readItems? close fuel ds := by
  cases fuel <;> simp only [readItems?, h]

theorem readProperties?_congr (h : skipBlanks cs = skipBlanks ds) :
    readProperties? fuel cs = readProperties? fuel ds := by
  cases fuel <;> simp only [readProperties?, h]

theorem read?_space : read? fuel (' ' :: cs) = read? fuel cs :=
  read?_congr rfl

theorem readItems?_space {close : Char} :
    readItems? close fuel (' ' :: cs) = readItems? close fuel cs :=
  readItems?_congr rfl

theorem readProperties?_space : readProperties? fuel (' ' :: cs) = readProperties? fuel cs :=
  readProperties?_congr rfl

theorem readProperties?_newline : readProperties? fuel ('\n' :: cs) = readProperties? fuel cs :=
  readProperties?_congr rfl

theorem read?_of_items {items : List Expr} (read : readItems? ']' fuel cs = some (items, rest)) :
    read? (fuel + 1) ('[' :: cs) = some (.array items, rest) := by
  have opens : skipBlanks ('[' :: cs) = '[' :: cs := rfl
  simp only [read?, opens, read, Option.map_some]

theorem read?_of_properties {ps : List (String × Expr)}
    (read : readProperties? fuel cs = some (ps, rest)) :
    read? (fuel + 1) ('\x7b' :: cs) = some (.object (layoutOf cs) ps, rest) := by
  have opens : skipBlanks ('\x7b' :: cs) = '\x7b' :: cs := rfl
  simp only [read?, opens, read, Option.map_some]

end Steps

/-! ### Expressions read back -/

/-- An expression begins with a character that is no blank and closes nothing. -/
theorem exists_chars (level : Nat) {e : Expr} (readable : e.Readable) :
    ∃ c cs, e.chars level = c :: cs ∧ begins c := by
  have ofName {name : String} (identifier : Text.isIdentifier name.toList) (rest : List Char) :
      ∃ c cs, name.toList ++ rest = c :: cs ∧ begins c := by
    obtain ⟨c, cs, written, starts⟩ := exists_name identifier
    exact ⟨c, cs ++ rest, by rw [written, List.cons_append], by simp [begins, beginsPlain, starts]⟩
  have ofNumeral {x : Numeral} (wellFormed : x.WellFormed) :
      ∃ c cs, x.chars = c :: cs ∧ begins c := by
    obtain ⟨c, cs, written, starts⟩ := wellFormed.exists_cons
    exact ⟨c, cs, written, by rcases starts with rfl | digit <;> simp [begins, beginsPlain, *]⟩
  match e, readable with
  | .atom .null, _ | .atom (.bool true), _ | .atom (.bool false), _ | .undefined, _ =>
    exact ⟨_, _, rfl, by decide⟩
  | .atom (.int i), _ =>
    obtain ⟨x, written, wellFormed, -⟩ := exists_numeral_int i
    obtain ⟨c, cs, begun⟩ := ofNumeral wellFormed
    exact ⟨c, cs, written.symm.trans begun.1, begun.2⟩
  | .atom (.double d), _ =>
    obtain ⟨x, written, wellFormed, -⟩ := exists_numeral_double d
    obtain ⟨c, cs, begun⟩ := ofNumeral wellFormed
    exact ⟨c, cs, written.symm.trans begun.1, begun.2⟩
  | .property .., readable => exact ofName readable.1 _
  | .call _ args, ⟨⟨owner, name, ofOwner, _, rfl⟩, _⟩ =>
    rw [chars_call]
    exact ofName ofOwner _
  | .text _, _ | .array _, _ => exact ⟨_, _, rfl, by decide⟩
  | .object .inline [], _ | .object .block [], _ => exact ⟨_, _, rfl, by decide⟩
  | .object .inline (_ :: _), _ | .object .block (_ :: _), _ => exact ⟨_, _, rfl, by decide⟩

mutual

/-- **An expression is read back**, as far as it goes and no further. -/
theorem read?_chars (level : Nat) : ∀ (e : Expr) {fuel : Nat} {rest : List Char},
    e.Readable → Ends rest → (e.chars level).length ≤ fuel →
      read? fuel (e.chars level ++ rest) = some (e, rest)
  | e, 0, _, readable, _, steps => by
    -- No expression is empty, so there is a step to take.
    obtain ⟨c, cs, written, -⟩ := exists_chars level readable
    simp [written] at steps
  | .atom .null, fuel + 1, rest, _, ends, _ =>
    read?_word (by decide : Text.isIdentifier "null".toList) rfl ends
  | .atom (.bool true), fuel + 1, rest, _, ends, _ =>
    read?_word (by decide : Text.isIdentifier "true".toList) rfl ends
  | .atom (.bool false), fuel + 1, rest, _, ends, _ =>
    read?_word (by decide : Text.isIdentifier "false".toList) rfl ends
  | .atom (.int i), fuel + 1, rest, _, ends, _ => by
    obtain ⟨x, written, wellFormed, -⟩ := exists_numeral_int i
    have text : (Expr.atom (.int i)).chars level = x.chars := written.symm
    have number := readNumber?_int i ends.endsNumber
    rw [← written] at number
    rw [text]
    exact read?_number wellFormed number
  | .atom (.double d), fuel + 1, rest, _, ends, _ => by
    obtain ⟨x, written, wellFormed, -⟩ := exists_numeral_double d
    have text : (Expr.atom (.double d)).chars level = x.chars := written.symm
    have number := readNumber?_double d ends.endsNumber
    rw [← written] at number
    rw [text]
    exact read?_number wellFormed number
  | .undefined, fuel + 1, rest, _, ends, _ =>
    read?_word (by decide : Text.isIdentifier "undefined".toList) rfl ends
  | .text s, fuel + 1, rest, _, _, _ => by
    have text : (Expr.text s).chars level = Text.quoted s.toList := rfl
    have opens (cs : List Char) : skipBlanks ('"' :: cs) = '"' :: cs := rfl
    rw [text, Text.quoted]
    simp only [List.cons_append, List.append_assoc, List.nil_append, read?, opens,
      Text.readQuoted?_escaped, Option.map_some, String.ofList_toList]
  | .property owner name, fuel + 1, rest, readable, ends, _ => by
    have text : (Expr.property owner name).chars level = owner.toList ++ '.' :: name.toList := rfl
    rw [text, List.append_assoc, List.cons_append]
    exact read?_property readable.1 readable.2 ends
  | .array items, fuel + 1, rest, readable, _, steps => by
    have text : (Expr.array items).chars level = '[' :: (itemsChars level items ++ [']']) := rfl
    simp only [text, List.length_cons, List.length_append, List.length_nil] at steps
    rw [text, List.cons_append, List.append_assoc]
    exact read?_of_items (readItems?_itemsChars level (.inl rfl) items readable (by omega))
  | .object .inline [], _, _, readable, _, _ => absurd rfl (readable.1 rfl)
  | .object .block [], fuel + 2, rest, _, _, steps =>
    read?_of_properties (readProperties?_nil (rfl : skipBlanks ('\x7d' :: rest) = '\x7d' :: rest))
  | .object .inline (p :: ps), fuel + 1, rest, readable, _, steps => by
    have text : (Expr.object .inline (p :: ps)).chars level =
      '\x7b' :: ' ' :: (inlineChars level (p :: ps) ++ [' ', '\x7d']) := rfl
    simp only [text, List.length_cons, List.length_append, List.length_nil] at steps
    rw [text]
    simp only [List.cons_append, List.append_assoc, List.nil_append]
    exact read?_of_properties (readProperties?_space.trans
      (readProperties?_inlineChars level p ps readable.2 (by omega)))
  | .object .block (p :: ps), fuel + 1, rest, readable, _, steps => by
    have text : (Expr.object .block (p :: ps)).chars level =
      '\x7b' :: '\n' :: (blockChars (level + 1) (p :: ps) ++
        '\n' :: (indent level ++ ['\x7d'])) := rfl
    simp only [text, List.length_cons, List.length_append, List.length_nil] at steps
    -- The brace is on a line of its own, behind the properties.
    have closes : skipBlanks ('\n' :: (indent level ++ '\x7d' :: rest)) = '\x7d' :: rest :=
      skipBlanks_indent level ('\x7d' :: rest)
    rw [text]
    simp only [List.cons_append, List.append_assoc, List.nil_append]
    exact read?_of_properties (readProperties?_newline.trans
      (readProperties?_blockChars (level + 1) p ps readable.2 (by omega) (by simp [Ends]; decide)
        closes))
  | .call _ args, fuel + 1, rest, ⟨⟨owner, name, ofOwner, ofName, rfl⟩, readable⟩, _, steps => by
    rw [chars_call] at steps ⊢
    simp only [List.length_cons, List.length_append, List.length_nil] at steps
    simp only [List.cons_append, List.append_assoc, List.nil_append]
    exact read?_call ofOwner ofName
      (readItems?_itemsChars level (.inr rfl) args readable (by omega))
termination_by structural _ fuel => fuel

/-- Items on one line are read back, up to the bracket that closes them. -/
theorem readItems?_itemsChars (level : Nat) {close : Char} (bracket : close = ']' ∨ close = ')') :
    ∀ (es : List Expr) {fuel : Nat} {rest : List Char}, ItemsReadable es →
      (itemsChars level es).length < fuel →
      readItems? close fuel (itemsChars level es ++ close :: rest) = some (es, rest)
  | [], fuel + 1, rest, _, _ =>
    readItems?_nil (by rcases bracket with rfl | rfl <;> rfl)
  | [e], fuel + 1, rest, readable, steps => by
    have ends : Ends (close :: rest) := by rcases bracket with rfl | rfl <;> simp [Ends] <;> decide
    have mark : skipBlanks (close :: rest) = close :: rest := by
      rcases bracket with rfl | rfl <;> rfl
    have item := read?_chars level e readable.1 ends (Nat.le_of_lt_succ steps)
    obtain ⟨c, cs, written, starts⟩ := exists_chars level readable.1
    have ne : c ≠ close := ne_of_begins starts (by rcases bracket with rfl | rfl <;> rfl)
    have text : itemsChars level [e] = c :: cs := written
    rw [written, List.cons_append] at item
    rw [text, List.cons_append]
    exact readItems?_last (skipBlanks_of_begins _ starts) ne item mark
  | e :: f :: es, fuel + 1, rest, readable, steps => by
    have text : itemsChars level (e :: f :: es) =
      e.chars level ++ ',' :: ' ' :: itemsChars level (f :: es) := rfl
    simp only [text, List.length_append, List.length_cons] at steps
    have item (more : List Char) :
        read? fuel (e.chars level ++ ',' :: more) = some (e, ',' :: more) :=
      read?_chars level e readable.1 (by simp [Ends]; decide) (by omega)
    have others : readItems? close fuel (itemsChars level (f :: es) ++ close :: rest) =
        some (f :: es, rest) :=
      readItems?_itemsChars level bracket (f :: es) readable.2 (by omega)
    obtain ⟨c, cs, written, starts⟩ := exists_chars level readable.1
    have ne : c ≠ close := ne_of_begins starts (by rcases bracket with rfl | rfl <;> rfl)
    simp only [written, List.cons_append] at item
    simp only [text, written, List.append_assoc, List.cons_append]
    exact readItems?_comma (skipBlanks_of_begins _ starts) ne
      (by rcases bracket with rfl | rfl <;> decide) (item _) (readItems?_space.trans others)
termination_by structural _ fuel => fuel

/-- Properties on one line are read back, up to the brace behind them. -/
theorem readProperties?_inlineChars (level : Nat) :
    ∀ (p : String × Expr) (ps : List (String × Expr)) {fuel : Nat} {rest : List Char},
      PropertiesReadable (p :: ps) → (inlineChars level (p :: ps)).length < fuel →
      readProperties? fuel (inlineChars level (p :: ps) ++ ' ' :: '\x7d' :: rest) =
        some (p :: ps, rest)
  | (k, e), [], fuel + 1, rest, readable, steps => by
    have text : inlineChars level [(k, e)] = key k ++ ':' :: ' ' :: e.chars level := rfl
    simp only [text, List.length_append, List.length_cons] at steps
    have value : read? fuel (e.chars level ++ ' ' :: '\x7d' :: rest) =
        some (e, ' ' :: '\x7d' :: rest) :=
      read?_chars level e readable.1 (by simp [Ends]; decide) (by omega)
    rw [text]
    simp only [List.append_assoc, List.cons_append]
    exact readProperties?_last (readLabel?_key 0 k _) (read?_space.trans value) rfl
  | (k, e), q :: ps, fuel + 1, rest, readable, steps => by
    have text : inlineChars level ((k, e) :: q :: ps) =
      key k ++ ':' :: ' ' :: (e.chars level ++ ',' :: ' ' :: inlineChars level (q :: ps)) := rfl
    simp only [text, List.length_append, List.length_cons] at steps
    have value (more : List Char) :
        read? fuel (e.chars level ++ ',' :: more) = some (e, ',' :: more) :=
      read?_chars level e readable.1 (by simp [Ends]; decide) (by omega)
    have others : readProperties? fuel (inlineChars level (q :: ps) ++ ' ' :: '\x7d' :: rest) =
        some (q :: ps, rest) :=
      readProperties?_inlineChars level q ps readable.2 (by omega)
    rw [text]
    simp only [List.append_assoc, List.cons_append]
    exact readProperties?_comma (readLabel?_key 0 k _) (read?_space.trans (value _))
      (readProperties?_space.trans others)
termination_by structural _ _ fuel => fuel

/-- Properties on lines of their own are read back, up to the brace on the line behind them. -/
theorem readProperties?_blockChars (level : Nat) :
    ∀ (p : String × Expr) (ps : List (String × Expr)) {fuel : Nat} {rest after : List Char},
      PropertiesReadable (p :: ps) → (blockChars level (p :: ps)).length < fuel →
      Ends after → skipBlanks after = '\x7d' :: rest →
      readProperties? fuel (blockChars level (p :: ps) ++ after) = some (p :: ps, rest)
  | (k, e), [], fuel + 1, rest, after, readable, steps, ends, closes => by
    have text : blockChars level [(k, e)] =
      indent level ++ (key k ++ ':' :: ' ' :: e.chars level) := rfl
    simp only [text, List.length_append, List.length_cons] at steps
    have value : read? fuel (e.chars level ++ after) = some (e, after) :=
      read?_chars level e readable.1 ends (by omega)
    rw [text]
    simp only [List.append_assoc, List.cons_append]
    exact readProperties?_last (readLabel?_key level k _) (read?_space.trans value) closes
  | (k, e), q :: ps, fuel + 1, rest, after, readable, steps, ends, closes => by
    have text : blockChars level ((k, e) :: q :: ps) = indent level ++
      (key k ++ ':' :: ' ' :: (e.chars level ++ ',' :: '\n' :: blockChars level (q :: ps))) := rfl
    simp only [text, List.length_append, List.length_cons] at steps
    have value (more : List Char) :
        read? fuel (e.chars level ++ ',' :: more) = some (e, ',' :: more) :=
      read?_chars level e readable.1 (by simp [Ends]; decide) (by omega)
    have others : readProperties? fuel (blockChars level (q :: ps) ++ after) =
        some (q :: ps, rest) :=
      readProperties?_blockChars level q ps readable.2 (by omega) ends closes
    rw [text]
    simp only [List.append_assoc, List.cons_append]
    exact readProperties?_comma (readLabel?_key level k _) (read?_space.trans (value _))
      (readProperties?_newline.trans others)
termination_by structural _ _ fuel => fuel

end

end Expr

end FlowPlan
