import Mathlib.Data.List.TakeDrop
import FlowPlan.Proofs.Json.Numbers
import FlowPlan.Proofs.Text.Quoted
import FlowPlan.Script.Expr

/-!
# Script — literals read back

The literal of a document of integers, laid out at any level, is read back to the document.  The
reader takes as much of the text as the literal has (`readValue?_chars`): a number ends in front of
the character that follows it, a string at its own closing quote, and blanks of the layout mean
nothing.  The induction is on the number of steps that reading is allowed, which only has to reach
the length of the text.

* `Json.readScalar?_integer`: an integer is read back from its digits.
* `Expr.readLabel?_key`: the key of a member, bare or quoted.
* `Expr.readValue?_chars`: a literal, in front of any text that does not go on as a number.
* `Expr.clean_chars`: the only control characters of a literal are line feeds.
* `Expr.literal_exact`: a literal denotes its document and no other.
-/

namespace FlowPlan

/-! ### Documents of integers -/

namespace Json

mutual

/-- Every number of the document is an integer from `-2^63` to `2^64 - 1`. -/
def Integral : Json → Prop
  | .null | .bool _ | .str _ => True
  | .int i => -(Nat.pow 2 63 : Int) ≤ i ∧ i < Nat.pow 2 64
  | .double _ => False
  | .arr items => IntegralItems items
  | .obj members => IntegralMembers members

/-- All documents of the list are integral. -/
def IntegralItems : List Json → Prop
  | [] => True
  | x :: rest => x.Integral ∧ IntegralItems rest

/-- The documents of all members are integral. -/
def IntegralMembers : List (String × Json) → Prop
  | [] => True
  | (_, x) :: rest => x.Integral ∧ IntegralMembers rest

end

/-! ### Integers -/

theorem valueOf_natural (n : Nat) : Numeral.valueOf (Text.natural n) = n := by
  have value := Text.ofDigitChars_natural n
  rw [Nat.ofDigitChars_eq_foldl] at value
  simpa only [Numeral.valueOf, Nat.mul_comm] using value

/-- A text that begins with a minus or a digit is read as a number. -/
theorem readScalar?_of_head {c : Char} {cs : List Char} (starts : c = '-' ∨ c.isDigit) :
    readScalar? (c :: cs) =
      (Numeral.scan? (c :: cs)).bind fun x => x.1.toJson?.map fun j => (j, x.2) := by
  have other (d : Char) (letter : ¬(d = '-' ∨ d.isDigit)) (same : c = d) : False :=
    letter (same ▸ starts)
  rw [readScalar?]
  · cases Numeral.scan? (c :: cs) with
    | none => rfl
    | some x =>
      obtain ⟨x, rest⟩ := x
      cases h : x.toJson? <;> simp [h]
  · exact fun _ same => other 'n' (by decide) (List.cons.inj same).1
  · exact fun _ same => other 't' (by decide) (List.cons.inj same).1
  · exact fun _ same => other 'f' (by decide) (List.cons.inj same).1

/-- A number of sixty-four bits is read as an integer. -/
theorem toJson?_natural {n : Nat} (lt : n < Nat.pow 2 64) :
    (Numeral.ofNatural false n).toJson? = some (.int n) := by
  simp only [Numeral.ofNatural, Numeral.toJson?, valueOf_natural, Option.isNone_none,
    Bool.not_false, Bool.and_true, decide_eq_true lt, if_true]

theorem toJson?_negative {n : Nat} (pos : 0 < n) (le : n ≤ Nat.pow 2 63) :
    (Numeral.ofNatural true n).toJson? = some (.int (-n)) := by
  simp only [Numeral.ofNatural, Numeral.toJson?, valueOf_natural, Option.isNone_none,
    Bool.not_true, Bool.and_false, Bool.false_and, Bool.and_true, Bool.false_eq_true, if_false,
    decide_eq_true (And.intro pos le), if_true]

/-- **An integer is read back from its digits**, where the text does not go on as a number. -/
theorem readScalar?_integer {i : Int} {rest : List Char} (integral : (Json.int i).Integral)
    (ends : EndsNumber rest) :
    readScalar? (Text.integer i ++ rest) = some (.int i, rest) := by
  obtain ⟨least, greatest⟩ := integral
  have scanned (negative : Bool) (n : Nat) :=
    Numeral.scan?_chars (Numeral.wellFormed_ofNatural negative n) ends
  by_cases negative : i < 0
  · obtain ⟨n, rfl⟩ : ∃ n : Nat, i = -n := ⟨i.natAbs, by omega⟩
    have scanned := scanned true n
    rw [Numeral.chars_ofNatural, if_pos rfl, List.singleton_append, List.cons_append] at scanned
    rw [Text.integer_negative (by omega), List.cons_append, readScalar?_of_head (.inl rfl), scanned,
      Option.bind_some, toJson?_negative (by omega) (by omega), Option.map_some]
  · obtain ⟨n, rfl⟩ : ∃ n : Nat, i = n := ⟨i.natAbs, by omega⟩
    obtain ⟨c, cs, written, digit⟩ := (Text.isDigits_natural n).exists_cons
    have scanned := scanned false n
    rw [Numeral.chars_ofNatural, if_neg Bool.false_ne_true, List.nil_append, written,
      List.cons_append] at scanned
    rw [Text.integer_ofNat, written, List.cons_append, readScalar?_of_head (.inr digit), scanned,
      Option.bind_some, toJson?_natural (by omega), Option.map_some]

/-! ### Blanks and keys -/

/-- Blanks and line feeds are passed over. -/
theorem skipBlanks_append {front : List Char} (rest : List Char)
    (blanks : ∀ c ∈ front, c = ' ' ∨ c = '\n') : skipBlanks (front ++ rest) = skipBlanks rest := by
  refine List.dropWhile_append_of_pos fun c mem => ?_
  rcases blanks c mem with rfl | rfl <;> rfl

theorem skipBlanks_cons {c : Char} (rest : List Char)
    (other : c ≠ ' ' ∧ c ≠ '\n' ∧ c ≠ '\t' ∧ c ≠ '\r') : skipBlanks (c :: rest) = c :: rest := by
  simp [skipBlanks, other]

end Json

namespace Expr

open Json

/-- A key is not taken for a blank or for the end of an object. -/
theorem exists_key (name : String) :
    ∃ c cs, key name = c :: cs ∧ (c = '"' ∨ Text.isIdentifierStart c) := by
  by_cases bare : Text.isIdentifier name.toList
  · rw [key, if_pos bare]
    cases chars : name.toList with
    | nil => simp [chars, Text.isIdentifier] at bare
    | cons c cs =>
      rw [chars, Text.isIdentifier, Bool.and_eq_true] at bare
      exact ⟨c, cs, rfl, .inr bare.1⟩
  · rw [key, if_neg bare]
    exact ⟨_, _, rfl, .inl rfl⟩

/-- **A key is read back**, bare or quoted. -/
theorem readKey?_key (name : String) (rest : List Char) :
    readKey? .bareAllowed (key name ++ ':' :: rest) = some (name, ':' :: rest) := by
  by_cases bare : Text.isIdentifier name.toList
  · rw [key, if_pos bare]
    cases chars : name.toList with
    | nil => simp [chars, Text.isIdentifier] at bare
    | cons c cs =>
      rw [chars, Text.isIdentifier, Bool.and_eq_true, List.all_eq_true] at bare
      have unquoted : c ≠ '"' := by
        rintro rfl
        exact absurd bare.1 (by decide)
      have run : (cs ++ ':' :: rest).span Text.isIdentifierRest = (cs, ':' :: rest) :=
        span_append bare.2 (by simp; decide)
      rw [List.cons_append, readKey?, if_neg unquoted, if_pos ⟨rfl, bare.1⟩, run]
      simp only [← chars, String.ofList_toList]
  · rw [key, if_neg bare, Text.quoted]
    simp only [List.cons_append, List.append_assoc, readKey?, if_true, List.nil_append,
      Text.readQuoted?_escaped, Option.map_some, String.ofList_toList]

/-- The name of a property begins with a quote or a letter. -/
theorem skipBlanks_key (name : String) (rest : List Char) :
    skipBlanks (key name ++ rest) = key name ++ rest := by
  obtain ⟨c, cs, written, starts⟩ := exists_key name
  have other (d : Char) (blank : ¬(d = '"' ∨ Text.isIdentifierStart d)) : c ≠ d :=
    fun same => blank (same ▸ starts)
  rw [written, List.cons_append, skipBlanks_cons]
  exact ⟨other _ (by decide), other _ (by decide), other _ (by decide), other _ (by decide)⟩

theorem skipBlanks_indent (level : Nat) (rest : List Char) :
    skipBlanks (indent level ++ rest) = skipBlanks rest :=
  skipBlanks_append rest fun _ mem => .inl (List.eq_of_mem_replicate mem)

/-- The key of a member on its line, and the colon after it. -/
theorem readLabel?_key (level : Nat) (name : String) (rest : List Char) :
    readLabel? .bareAllowed (indent level ++ (key name ++ ':' :: rest)) = some (name, rest) := by
  have colon : skipBlanks (':' :: rest) = ':' :: rest := rfl
  simp only [readLabel?, skipBlanks_indent, skipBlanks_key, readKey?_key, Option.bind_eq_bind,
    Option.bind_some, colon]

end Expr

/-! ### The steps of the reader -/

namespace Json

section Steps

variable {style : KeyStyle} {fuel room : Nat} {cs ds rest : List Char}

/-- Blanks in front of a document do not count. -/
theorem readValue?_congr (h : skipBlanks cs = skipBlanks ds) :
    readValue? style fuel room cs = readValue? style fuel room ds := by
  cases fuel <;> simp only [readValue?, h]

theorem readItems?_congr (h : skipBlanks cs = skipBlanks ds) :
    readItems? style fuel room cs = readItems? style fuel room ds := by
  cases fuel <;> simp only [readItems?, readValue?_congr h]

theorem readMembers?_congr (h : skipBlanks cs = skipBlanks ds) :
    readMembers? style fuel room cs = readMembers? style fuel room ds := by
  cases fuel <;> simp only [readMembers?, readLabel?, h]

theorem readValue?_blank :
    readValue? style fuel room (' ' :: cs) = readValue? style fuel room cs :=
  readValue?_congr rfl

theorem readItems?_blank :
    readItems? style fuel room (' ' :: cs) = readItems? style fuel room cs :=
  readItems?_congr rfl

theorem readMembers?_newline :
    readMembers? style fuel room ('\n' :: cs) = readMembers? style fuel room cs :=
  readMembers?_congr rfl

theorem skipBlanks_skipBlanks (cs : List Char) : skipBlanks (skipBlanks cs) = skipBlanks cs := by
  induction cs with
  | nil => rfl
  | cons c cs ih =>
    by_cases other : c ≠ ' ' ∧ c ≠ '\n' ∧ c ≠ '\t' ∧ c ≠ '\r'
    · rw [skipBlanks_cons cs other, skipBlanks_cons cs other]
    · have blank : skipBlanks (c :: cs) = skipBlanks cs := List.dropWhile_cons_of_pos (by grind)
      rw [blank, ih]

/-- What begins with a letter, a minus or a digit is read as a scalar. -/
theorem readValue?_of_scalar {c : Char} {r : Json × List Char}
    (starts : c.isAlpha ∨ c = '-' ∨ c.isDigit) (scalar : readScalar? (c :: cs) = some r) :
    readValue? style (fuel + 1) room (c :: cs) = some r := by
  have other (d : Char) (h : ¬(d.isAlpha ∨ d = '-' ∨ d.isDigit)) : c ≠ d :=
    fun same => h (same ▸ starts)
  have here : skipBlanks (c :: cs) = c :: cs := skipBlanks_cons cs
    ⟨other _ (by decide), other _ (by decide), other _ (by decide), other _ (by decide)⟩
  rw [readValue?, here]
  split
  · next h => exact absurd (List.cons.inj h).1 (other _ (by decide))
  · next h => exact absurd (List.cons.inj h).1 (other _ (by decide))
  · next h => exact absurd (List.cons.inj h).1 (other _ (by decide))
  · exact scalar

/-- No value begins with the bracket that closes an array. -/
theorem ne_bracket_of_readItems? {r : List Json × List Char}
    (read : readItems? style fuel room cs = some r) : skipBlanks cs ≠ ']' :: ds := by
  intro closes
  match fuel with
  | 0 => cases read
  | 1 => cases read
  | fuel + 2 =>
    rw [readItems?, readValue?, closes] at read
    cases read

/-- No key begins with the brace that closes an object. -/
theorem ne_brace_of_readMembers? {r : List (String × Json) × List Char}
    (read : readMembers? .bareAllowed fuel room cs = some r) : skipBlanks cs ≠ '\x7d' :: ds := by
  intro closes
  match fuel with
  | 0 => cases read
  | fuel + 1 =>
    rw [readMembers?, readLabel?, closes] at read
    cases read

theorem readValue?_of_items {items : List Json}
    (read : readItems? style fuel room cs = some (items, rest)) :
    readValue? style (fuel + 1) (room + 1) ('[' :: cs) = some (.arr items, rest) := by
  have opens : skipBlanks ('[' :: cs) = '[' :: cs := rfl
  simp only [readValue?, opens]
  split
  · next h => exact absurd h (ne_bracket_of_readItems? read)
  · rw [readItems?_congr (skipBlanks_skipBlanks cs), read, Option.map_some]

theorem readValue?_of_members {members : List (String × Json)}
    (read : readMembers? .bareAllowed fuel room cs = some (members, rest)) :
    readValue? .bareAllowed (fuel + 1) (room + 1) ('\x7b' :: cs) = some (.obj members, rest) := by
  have opens : skipBlanks ('\x7b' :: cs) = '\x7b' :: cs := rfl
  simp only [readValue?, opens]
  split
  · next h => exact absurd h (ne_brace_of_readMembers? read)
  · rw [readMembers?_congr (skipBlanks_skipBlanks cs), read, Option.map_some]

/-- The last item stands in front of the closing bracket. -/
theorem readItems?_last {x : Json} (item : readValue? style fuel room cs = some (x, ']' :: rest)) :
    readItems? style (fuel + 1) room cs = some ([x], rest) := by
  have closes : skipBlanks (']' :: rest) = ']' :: rest := rfl
  simp only [readItems?, item, Option.bind_eq_bind, Option.bind_some, closes]

/-- Any other item stands in front of a comma. -/
theorem readItems?_comma {x : Json} {items : List Json}
    (item : readValue? style fuel room cs = some (x, ',' :: ds))
    (others : readItems? style fuel room ds = some (items, rest)) :
    readItems? style (fuel + 1) room cs = some (x :: items, rest) := by
  have comma : skipBlanks (',' :: ds) = ',' :: ds := rfl
  simp only [readItems?, item, Option.bind_eq_bind, Option.bind_some, comma, others,
    Option.map_some]

/-- The last member stands in front of the closing brace. -/
theorem readMembers?_last {k : String} {x : Json} {after : List Char}
    (label : readLabel? style cs = some (k, ds))
    (value : readValue? style fuel room ds = some (x, after))
    (closes : skipBlanks after = '\x7d' :: rest) :
    readMembers? style (fuel + 1) room cs = some ([(k, x)], rest) := by
  simp only [readMembers?, label, value, Option.bind_eq_bind, Option.bind_some, closes]

/-- Any other member stands in front of a comma. -/
theorem readMembers?_comma {k : String} {x : Json} {members : List (String × Json)}
    {after : List Char} (label : readLabel? style cs = some (k, ds))
    (value : readValue? style fuel room ds = some (x, ',' :: after))
    (others : readMembers? style fuel room after = some (members, rest)) :
    readMembers? style (fuel + 1) room cs = some ((k, x) :: members, rest) := by
  have comma : skipBlanks (',' :: after) = ',' :: after := rfl
  simp only [readMembers?, label, value, Option.bind_eq_bind, Option.bind_some, comma, others,
    Option.map_some]

end Steps

end Json

/-! ### Literals -/

namespace Expr

open Json

/-- An integer is not taken for a blank, a string or a container. -/
theorem exists_integer (i : Int) :
    ∃ c cs, Text.integer i = c :: cs ∧ (c.isAlpha ∨ c = '-' ∨ c.isDigit) := by
  by_cases negative : i < 0
  · obtain ⟨n, rfl⟩ : ∃ n : Nat, i = -n := ⟨i.natAbs, by omega⟩
    exact ⟨_, _, Text.integer_negative (by omega), .inr (.inl rfl)⟩
  · obtain ⟨n, rfl⟩ : ∃ n : Nat, i = n := ⟨i.natAbs, by omega⟩
    obtain ⟨c, cs, written, digit⟩ := (Text.isDigits_natural n).exists_cons
    exact ⟨c, cs, by rw [Text.integer_ofNat, written], .inr (.inr digit)⟩

mutual

/-- **The literal of a document is read back**, as far as it goes and no further. -/
theorem readValue?_chars (level : Nat) : ∀ (j : Json) {fuel room : Nat} {rest : List Char},
    j.Integral → EndsNumber rest → ((ofJson j).chars level).length ≤ fuel →
      ((ofJson j).chars level).length ≤ room →
      readValue? .bareAllowed fuel room ((ofJson j).chars level ++ rest) = some (j, rest)
  | .null, fuel + 1, _, rest, _, _, _, _ =>
    readValue?_of_scalar (.inl (by decide)) rfl
  | .bool true, fuel + 1, _, rest, _, _, _, _ =>
    readValue?_of_scalar (.inl (by decide)) rfl
  | .bool false, fuel + 1, _, rest, _, _, _, _ =>
    readValue?_of_scalar (.inl (by decide)) rfl
  | .int i, fuel, _, rest, integral, ends, steps, _ => by
    obtain ⟨c, cs, written, starts⟩ := exists_integer i
    have text : (ofJson (.int i)).chars level = c :: cs := written
    have scalar := readScalar?_integer integral ends
    rw [written] at scalar
    rw [text] at steps ⊢
    obtain ⟨fuel, rfl⟩ := Nat.exists_eq_add_of_le' (Nat.le_trans (Nat.le_add_left 1 _) steps)
    exact readValue?_of_scalar starts scalar
  | .str s, fuel + 1, _, rest, _, _, _, _ => by
    have text : (ofJson (.str s)).chars level = Text.quoted s.toList := rfl
    have opens (cs : List Char) : skipBlanks ('"' :: cs) = '"' :: cs := rfl
    rw [text, Text.quoted]
    simp only [List.cons_append, List.append_assoc, List.nil_append, readValue?, opens,
      Text.readQuoted?_escaped, Option.map_some, String.ofList_toList]
  | .arr [], fuel + 1, room + 1, _, _, _, _, _ => rfl
  | .obj [], fuel + 1, room + 1, _, _, _, _, _ => rfl
  | .arr (x :: xs), fuel + 1, room + 1, rest, integral, _, steps, inside => by
    have text : (ofJson (.arr (x :: xs))).chars level =
      '[' :: (itemsChars level (ofJsonItems (x :: xs)) ++ [']']) := rfl
    simp only [text, List.length_cons, List.length_append, List.length_nil] at steps inside
    rw [text, List.cons_append, List.append_assoc]
    exact readValue?_of_items (readItems?_chars level x xs integral (by omega) (by omega))
  | .obj ((k, x) :: ms), fuel + 1, room + 1, rest, integral, _, steps, inside => by
    have text : (ofJson (.obj ((k, x) :: ms))).chars level =
      '\x7b' :: '\n' :: (blockChars (level + 1) (ofJsonMembers ((k, x) :: ms)) ++
        '\n' :: (indent level ++ ['\x7d'])) := rfl
    simp only [text, List.length_cons, List.length_append, List.length_nil] at steps inside
    have closes : skipBlanks ('\n' :: (indent level ++ '\x7d' :: rest)) = '\x7d' :: rest :=
      skipBlanks_indent level ('\x7d' :: rest)
    rw [text]
    simp only [List.cons_append, List.append_assoc, List.nil_append]
    refine readValue?_of_members (readMembers?_newline.trans ?_)
    exact readMembers?_chars (level + 1) k x ms integral (by omega) (by omega)
      (by simp [EndsNumber]) closes
termination_by structural _ fuel => fuel

/-- Items are read back, up to the bracket that closes them. -/
theorem readItems?_chars (level : Nat) :
    ∀ (x : Json) (xs : List Json) {fuel room : Nat} {rest : List Char},
      IntegralItems (x :: xs) → (itemsChars level (ofJsonItems (x :: xs))).length < fuel →
      (itemsChars level (ofJsonItems (x :: xs))).length ≤ room →
      readItems? .bareAllowed fuel room (itemsChars level (ofJsonItems (x :: xs)) ++ ']' :: rest) =
        some (x :: xs, rest)
  | x, [], fuel + 1, room, rest, integral, steps, inside =>
    have ends : EndsNumber (']' :: rest) := by simp [EndsNumber]
    readItems?_last (readValue?_chars level x integral.1 ends (Nat.le_of_lt_succ steps) inside)
  | x, y :: ys, fuel + 1, room, rest, integral, steps, inside => by
    have text : itemsChars level (ofJsonItems (x :: y :: ys)) =
      (ofJson x).chars level ++ ',' :: ' ' :: itemsChars level (ofJsonItems (y :: ys)) := rfl
    simp only [text, List.length_append, List.length_cons] at steps inside
    have others : readItems? .bareAllowed fuel room
        (itemsChars level (ofJsonItems (y :: ys)) ++ ']' :: rest) = some (y :: ys, rest) :=
      readItems?_chars level y ys integral.2 (by omega) (by omega)
    rw [text]
    simp only [List.append_assoc, List.cons_append]
    refine readItems?_comma ?_ (readItems?_blank.trans others)
    exact readValue?_chars level x integral.1 (by simp [EndsNumber]) (by omega) (by omega)
termination_by structural _ _ fuel => fuel

/-- The members of an object are read back, whichever way the text goes on to its brace. -/
theorem readMembers?_chars (level : Nat) :
    ∀ (k : String) (x : Json) (ms : List (String × Json)) {fuel room : Nat}
      {rest after : List Char},
      IntegralMembers ((k, x) :: ms) →
      (blockChars level (ofJsonMembers ((k, x) :: ms))).length < fuel →
      (blockChars level (ofJsonMembers ((k, x) :: ms))).length ≤ room →
      EndsNumber after → skipBlanks after = '\x7d' :: rest →
      readMembers? .bareAllowed fuel room
          (blockChars level (ofJsonMembers ((k, x) :: ms)) ++ after) =
        some ((k, x) :: ms, rest)
  | k, x, [], fuel + 1, room, rest, after, integral, steps, inside, ends, closes => by
    have text : blockChars level (ofJsonMembers [(k, x)]) =
      indent level ++ (key k ++ ':' :: ' ' :: (ofJson x).chars level) := rfl
    simp only [text, List.length_append, List.length_cons] at steps inside
    have value : readValue? .bareAllowed fuel room ((ofJson x).chars level ++ after) =
        some (x, after) :=
      readValue?_chars level x integral.1 ends (by omega) (by omega)
    rw [text]
    simp only [List.append_assoc, List.cons_append]
    exact readMembers?_last (readLabel?_key level k _) (readValue?_blank.trans value) closes
  | k, x, (l, y) :: ms, fuel + 1, room, rest, after, integral, steps, inside, ends, closes => by
    have text : blockChars level (ofJsonMembers ((k, x) :: (l, y) :: ms)) =
      indent level ++ (key k ++ ':' :: ' ' :: ((ofJson x).chars level ++
        ',' :: '\n' :: blockChars level (ofJsonMembers ((l, y) :: ms)))) := rfl
    simp only [text, List.length_append, List.length_cons] at steps inside
    have value (more : List Char) :
        readValue? .bareAllowed fuel room ((ofJson x).chars level ++ ',' :: more) =
          some (x, ',' :: more) :=
      readValue?_chars level x integral.1 (by simp [EndsNumber]) (by omega) (by omega)
    have others : readMembers? .bareAllowed fuel room
        (blockChars level (ofJsonMembers ((l, y) :: ms)) ++ after) = some ((l, y) :: ms, rest) :=
      readMembers?_chars level l y ms integral.2 (by omega) (by omega) ends closes
    rw [text]
    simp only [List.append_assoc, List.cons_append]
    exact readMembers?_comma (readLabel?_key level k _) (readValue?_blank.trans (value _))
      (readMembers?_newline.trans others)
termination_by structural _ _ _ fuel => fuel

end

/-- The text of a literal is the literal of its document, and nothing is left over. -/
theorem parseLiteral?_render (level : Nat) {j : Json} (integral : j.Integral) :
    parseLiteral? ((ofJson j).render level) = some j := by
  have read : readValue? .bareAllowed (2 * ((ofJson j).chars level).length + 1)
      ((ofJson j).chars level).length ((ofJson j).chars level ++ []) = some (j, []) :=
    readValue?_chars level j integral (by simp [EndsNumber]) (by omega) (Nat.le_refl _)
  rw [List.append_nil] at read
  simp only [parseLiteral?, readWhole?, read?, render, String.toList_ofList, String.length_ofList,
    read, Option.bind_eq_bind, Option.bind_some]
  rfl

/-! ### Control characters -/

/-- An integer is written without control characters. -/
theorem space_le_of_mem_integer {i : Int} {c : Char} (mem : c ∈ Text.integer i) :
    0x20 ≤ c.toNat := by
  have digit : c.isDigit → 0x20 ≤ c.toNat := Text.space_le_of_class (by decide)
  have written := Text.denotes_integer i
  generalize Text.integer i = text at mem written
  cases written with
  | unsigned digits => exact digit (digits.2 c mem)
  | negated digits =>
    rcases List.mem_cons.1 mem with rfl | mem
    · decide
    · exact digit (digits.2 c mem)

/-- No control character stands in a key. -/
theorem space_le_of_mem_key {name : String} {c : Char} (mem : c ∈ key name) : 0x20 ≤ c.toNat := by
  by_cases bare : Text.isIdentifier name.toList
  · rw [key, if_pos bare] at mem
    exact Text.space_le_of_isIdentifier bare mem
  · rw [key, if_neg bare] at mem
    exact Text.space_le_of_mem_quoted mem

/-- Of the control characters, the text has line feeds only. -/
def Clean (cs : List Char) : Prop :=
  ∀ c ∈ cs, c.toNat < 0x20 → c = '\n'

namespace Clean

variable {c : Char} {cs ds : List Char}

theorem nil : Clean [] :=
  nofun

theorem of_space_le (h : ∀ c ∈ cs, 0x20 ≤ c.toNat) : Clean cs :=
  fun c mem control => absurd (h c mem) (Nat.not_le.2 control)

theorem of_all (h : cs.all fun c => decide (0x20 ≤ c.toNat)) : Clean cs :=
  of_space_le (by simpa using h)

theorem cons (plain : c.toNat < 0x20 → c = '\n') (h : Clean cs) : Clean (c :: cs) :=
  List.forall_mem_cons.2 ⟨plain, h⟩

/-- Clean texts make up a clean text. -/
theorem append (h : Clean cs) (k : Clean ds) : Clean (cs ++ ds) :=
  List.forall_mem_append.2 ⟨h, k⟩

theorem indent (level : Nat) : Clean (indent level) :=
  of_space_le fun _ mem => List.eq_of_mem_replicate mem ▸ by decide

/-- A key, and what follows it. -/
theorem property (name : String) (h : Clean cs) : Clean (key name ++ ':' :: ' ' :: cs) :=
  (of_space_le fun _ mem => space_le_of_mem_key mem).append
    (cons (by decide) (cons (by decide) h))

end Clean

mutual

/-- A literal has no control characters but the line feeds of its layout. -/
theorem clean_chars (level : Nat) : ∀ j : Json, j.Integral → Clean ((ofJson j).chars level)
  | .null, _ =>
    have word : Clean "null".toList := .of_all (by decide)
    word
  | .bool b, _ =>
    have word : ∀ b, Clean (Json.bool b).scalarText
      | true => .of_all (by decide)
      | false => .of_all (by decide)
    word b
  | .int _, _ => .of_space_le fun _ mem => space_le_of_mem_integer mem
  | .str s, _ =>
    have body : Clean (Text.quoted s.toList) :=
      .of_space_le fun _ mem => Text.space_le_of_mem_quoted mem
    body
  | .arr items, integral =>
    .cons (by decide) ((clean_itemsChars level items integral).append
      (.cons (by decide) .nil))
  | .obj [], _ => .cons (by decide) (.cons (by decide) .nil)
  | .obj (m :: ms), integral => by
    have inner := clean_blockChars (level + 1) (m :: ms) integral
    have closing : Clean (indent level ++ ['\x7d']) :=
      (Clean.indent level).append (.cons (by decide) .nil)
    exact .cons (by decide) (.cons (by decide) (inner.append (.cons (by decide) closing)))

theorem clean_itemsChars (level : Nat) :
    ∀ items : List Json, IntegralItems items → Clean (itemsChars level (ofJsonItems items))
  | [], _ => .nil
  | [x], integral => clean_chars level x integral.1
  | x :: y :: ys, integral =>
    (clean_chars level x integral.1).append
      (.cons (by decide) (.cons (by decide) (clean_itemsChars level (y :: ys) integral.2)))

theorem clean_blockChars (level : Nat) :
    ∀ members : List (String × Json),
      IntegralMembers members → Clean (blockChars level (ofJsonMembers members))
  | [], _ => .nil
  | [(k, x)], integral =>
    (Clean.indent level).append (.property k (clean_chars level x integral.1))
  | (k, x) :: m :: ms, integral =>
    (Clean.indent level).append (.property k ((clean_chars level x integral.1).append
      (.cons (by decide) (.cons (by decide) (clean_blockChars level (m :: ms) integral.2)))))

end

/-- **A literal denotes its document and no other.**  Laid out at any level, the literal of a
document of integers is accepted to its last character and read back to the document, and the
literal of another such document has another text there.  A string ends at its own closing quote and
a key in front of its colon, whatever the text behind it, and neither brings in a control character
(one below U+0020); the only ones in the text of a literal are the line feeds of the layout. -/
theorem literal_exact (level : Nat) (j : Json) (integral : j.Integral) :
    parseLiteral? ((ofJson j).render level) = some j ∧
      (∀ k : Json, k.Integral → (ofJson k).render level = (ofJson j).render level → k = j) ∧
      (∀ (s : String) (rest : List Char), ∃ body,
        (ofJson (.str s)).chars level = '"' :: body ∧
          Text.readQuoted? (body ++ rest) = some (s.toList, rest) ∧ ∀ c ∈ body, 0x20 ≤ c.toNat) ∧
      (∀ (name : String) (rest : List Char),
        readKey? .bareAllowed (key name ++ ':' :: rest) = some (name, ':' :: rest) ∧
          ∀ c ∈ key name, 0x20 ≤ c.toNat) ∧
      ∀ c ∈ ((ofJson j).render level).toList, c.toNat < 0x20 → c = '\n' := by
  have read := parseLiteral?_render level integral
  refine ⟨read, fun k also same => ?_, fun s rest => ?_, fun name rest => ?_, ?_⟩
  · have other := parseLiteral?_render level also
    rw [same, read] at other
    exact (Option.some.inj other).symm
  · refine ⟨s.toList.flatMap Text.escape ++ ['"'], rfl, ?_, fun c mem => ?_⟩
    · rw [List.append_assoc]
      exact Text.readQuoted?_escaped s.toList rest
    · exact Text.space_le_of_mem_quoted (List.mem_cons_of_mem _ mem : c ∈ Text.quoted s.toList)
  · exact ⟨readKey?_key name rest, fun _ mem => space_le_of_mem_key mem⟩
  · rw [render, String.toList_ofList]
    exact clean_chars level j integral

/-- A document with a quote, a backslash, control characters and others beyond ASCII in its strings,
with bare and quoted keys, one of which comes twice, and with the least and the greatest integer. -/
def sampleDocument : Json :=
  .obj [("kind", .str "\"quoted\" \\ \x00\n\u2028 😀"),
    ("0", .arr [.int (-Nat.pow 2 63), .null]),
    ("", .obj [("$_a1", .int (Nat.pow 2 64 - 1)), ("a\"b", .obj [])]),
    ("kind", .arr [])]

theorem sampleDocument_literal :
    sampleDocument.Integral ∧ (Json.str "0").Integral ∧
      parseLiteral? ((ofJson sampleDocument).render 1) = some sampleDocument ∧
      (ofJson (.str "0")).render 1 ≠ (ofJson sampleDocument).render 1 := by
  have integral : sampleDocument.Integral := by
    simp [sampleDocument, Integral, IntegralItems, IntegralMembers]
  have text : (Json.str "0").Integral := by simp [Integral]
  obtain ⟨read, unique, -⟩ := literal_exact 1 sampleDocument integral
  exact ⟨integral, text, read, fun same => Json.noConfusion (unique _ text same)⟩

end Expr

end FlowPlan
