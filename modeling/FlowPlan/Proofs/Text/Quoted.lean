import FlowPlan.Text.Identifier
import FlowPlan.Text.Quoted

/-!
# Text — quoted strings read back

A character is escaped in one of three ways (`escape_cases`).  Reading takes each back to the
character, so the quote that closes a string is the first one reading finds (`readQuoted?_escaped`).
No control character stands in a quoted string (`space_le_of_mem_quoted`), nor in an identifier.
-/

namespace FlowPlan.Text

theorem hexValue?_hexDigit : ∀ n < 16, hexValue? (hexDigit n) = some n := by
  decide

/-- How a character is escaped: by a letter, by its number, or not at all. -/
theorem escape_cases (c : Char) :
    (∃ e, shortEscape? e = some c ∧ e ≠ 'u' ∧ 0x20 ≤ e.toNat ∧ escape c = ['\\', e]) ∨
      (c.toNat < 0x20 ∧
        escape c = ['\\', 'u', '0', '0', hexDigit (c.toNat / 16), hexDigit (c.toNat % 16)]) ∨
      (c ≠ '"' ∧ c ≠ '\\' ∧ 0x20 ≤ c.toNat ∧ escape c = [c]) := by
  unfold escape
  split
  · next h => subst h; exact .inl ⟨'"', by decide⟩
  split
  · next h => subst h; exact .inl ⟨'\\', by decide⟩
  split
  · next h => subst h; exact .inl ⟨'b', by decide⟩
  split
  · next h => subst h; exact .inl ⟨'f', by decide⟩
  split
  · next h => subst h; exact .inl ⟨'n', by decide⟩
  split
  · next h => subst h; exact .inl ⟨'r', by decide⟩
  split
  · next h => subst h; exact .inl ⟨'t', by decide⟩
  split
  · next control => exact .inr (.inl ⟨control, rfl⟩)
  · next quote backslash _ _ _ _ _ control =>
    exact .inr (.inr ⟨quote, backslash, Nat.le_of_not_lt control, rfl⟩)

/-- The escape of a control character is read as its code. -/
theorem hexQuad?_control {n : Nat} (control : n < 0x20) :
    hexQuad? '0' '0' (hexDigit (n / 16)) (hexDigit (n % 16)) = some n := by
  have zero : hexValue? '0' = some 0 := by decide
  have high := hexValue?_hexDigit (n / 16) (by omega)
  have low := hexValue?_hexDigit (n % 16) (by omega)
  simp only [hexQuad?, zero, high, low, Option.bind_eq_bind, Option.bind_some, Option.some.injEq]
  omega

/-- An escaped character is read back. -/
theorem readCharacter?_escape (c : Char) (rest : List Char) :
    readCharacter? (escape c ++ rest) = some (c, rest) := by
  rcases escape_cases c with ⟨e, short, ne, -, escaped⟩ | ⟨control, escaped⟩ |
      ⟨quote, backslash, above, escaped⟩
  · rw [escaped, List.cons_append, List.cons_append, List.nil_append, readCharacter?, if_pos rfl,
      short]
    · rfl
    · exact ne
  · have lead : isLeadSurrogate c.toNat = false := by
      simp only [isLeadSurrogate, Bool.and_eq_false_iff, decide_eq_false_iff_not]
      omega
    have trail : isTrailSurrogate c.toNat = false := by
      simp only [isTrailSurrogate, Bool.and_eq_false_iff, decide_eq_false_iff_not]
      omega
    rw [escaped]
    simp only [List.cons_append, List.nil_append, readCharacter?, if_pos, readUnicodeEscape?,
      hexQuad?_control control, Option.bind_eq_bind, Option.bind_some, trail, lead,
      Bool.false_eq_true, if_false, Char.ofNat_toNat]
  · have plain : ¬(c = '"' ∨ c.toNat < 0x20) := by
      rintro (h | h)
      · exact quote h
      · omega
    rw [escaped, List.cons_append, List.nil_append, readCharacter?.eq_def]
    simp only [if_neg backslash, if_neg plain]

/-- No escaped character begins with the closing quote. -/
theorem escape_append_ne_quote (c : Char) (cs rest : List Char) : escape c ++ cs ≠ '"' :: rest := by
  rcases escape_cases c with ⟨e, -, -, -, escaped⟩ | ⟨-, escaped⟩ | ⟨quote, -, -, escaped⟩
  · simp [escaped]
  · simp [escaped]
  · simp [escaped, quote]

/-- **An escaped character is read back.** -/
theorem readQuoted?_escape (c : Char) (cs : List Char) :
    readQuoted? (escape c ++ cs) = (readQuoted? cs).map fun (text, rest) => (c :: text, rest) := by
  have read := readCharacter?_escape c cs
  rw [readQuoted?.eq_2 _ fun rest h => escape_append_ne_quote c cs rest h]
  split
  · next h =>
    rw [read] at h
    cases h
  · next h =>
    rw [read] at h
    cases h
    rfl

/-- **A string is read back from its quoted form**, up to its own closing quote and no further. -/
theorem readQuoted?_escaped (cs rest : List Char) :
    readQuoted? (cs.flatMap escape ++ '"' :: rest) = some (cs, rest) := by
  induction cs with
  | nil => exact readQuoted?.eq_1 rest
  | cons c cs ih =>
    rw [List.flatMap_cons, List.append_assoc, readQuoted?_escape, ih, Option.map_some]

/-! ### Control characters -/

/-- A class of characters that holds no control character. -/
theorem space_le_of_class {p : Char → Bool} (none : ∀ n < 0x20, p (Char.ofNat n) = false) {c : Char}
    (mem : p c) : 0x20 ≤ c.toNat := by
  refine Nat.le_of_not_lt fun control => ?_
  have other := none c.toNat control
  rw [Char.ofNat_toNat, mem] at other
  cases other

/-- No control character stands in an identifier. -/
theorem space_le_of_isIdentifier {cs : List Char} {c : Char} (h : isIdentifier cs) (mem : c ∈ cs) :
    0x20 ≤ c.toNat := by
  have start : isIdentifierStart c → 0x20 ≤ c.toNat := space_le_of_class (by decide)
  have rest : isIdentifierRest c → 0x20 ≤ c.toNat := space_le_of_class (by decide)
  cases cs with
  | nil => cases mem
  | cons d ds =>
    rw [isIdentifier, Bool.and_eq_true, List.all_eq_true] at h
    rcases List.mem_cons.1 mem with rfl | mem
    · exact start h.1
    · exact rest (h.2 c mem)

theorem space_le_hexDigit : ∀ n < 16, 0x20 ≤ (hexDigit n).toNat := by
  decide

/-- There is no control character in an escape. -/
theorem space_le_of_mem_escape {c d : Char} (mem : d ∈ escape c) : 0x20 ≤ d.toNat := by
  rcases escape_cases c with ⟨e, -, -, above, escaped⟩ | ⟨control, escaped⟩ |
      ⟨-, -, above, escaped⟩
  · rw [escaped] at mem
    simp only [List.mem_cons, List.not_mem_nil, or_false] at mem
    rcases mem with rfl | rfl
    · decide
    · exact above
  · have high := space_le_hexDigit (c.toNat / 16) (by omega)
    have low := space_le_hexDigit (c.toNat % 16) (by omega)
    rw [escaped] at mem
    simp only [List.mem_cons, List.not_mem_nil, or_false] at mem
    rcases mem with rfl | rfl | rfl | rfl | rfl | rfl
    all_goals first | decide | assumption
  · rw [escaped, List.mem_singleton] at mem
    exact mem ▸ above

/-- No control character stands in a quoted string. -/
theorem space_le_of_mem_quoted {cs : List Char} {d : Char} (mem : d ∈ quoted cs) :
    0x20 ≤ d.toNat := by
  simp only [quoted, List.mem_cons, List.mem_append, List.mem_flatMap, List.not_mem_nil,
    or_false] at mem
  rcases mem with rfl | ⟨c, -, mem⟩ | rfl
  · decide
  · exact space_le_of_mem_escape mem
  · decide

end FlowPlan.Text
