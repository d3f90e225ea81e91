/-!
# Text — quoted strings

The quoted form of a string, as JSON documents and generated modules write it.  Between its quotes
a character stands for itself, unless it is a quote, a backslash or a control character below
U+0020: those are escaped, by one letter where there is one (`\n`), else by four lower-case
hexadecimal digits.  Nothing else is escaped when writing; reading also accepts `\/` and any
`\uXXXX`, where two surrogates in a row stand for one character and a lone one is refused.  Passing
over a string reads nothing from it, so that there a lone surrogate is as good as any other number.

* `quoted`: the written form.
* `readQuoted?`: reads what follows an opening quote, up to and including the closing one.
* `skipQuoted?`: passes over it.
-/

namespace FlowPlan.Text

/-! ### Writing -/

/-- The lower-case hexadecimal digit of a number below sixteen. -/
def hexDigit (n : Nat) : Char :=
  if n < 10 then Char.ofNat ('0'.toNat + n) else Char.ofNat ('a'.toNat + (n - 10))

/-- A character as it stands between quotes. -/
def escape (c : Char) : List Char :=
  if c = '"' then ['\\', '"']
  else if c = '\\' then ['\\', '\\']
  else if c = '\x08' then ['\\', 'b']
  else if c = '\x0c' then ['\\', 'f']
  else if c = '\n' then ['\\', 'n']
  else if c = '\r' then ['\\', 'r']
  else if c = '\t' then ['\\', 't']
  else if c.toNat < 0x20 then
    ['\\', 'u', '0', '0', hexDigit (c.toNat / 16), hexDigit (c.toNat % 16)]
  else [c]

/-- A string between quotes. -/
def quoted (cs : List Char) : List Char :=
  '"' :: (cs.flatMap escape ++ ['"'])

/-! ### Reading -/

/-- The value of a hexadecimal digit of either case. -/
def hexValue? (c : Char) : Option Nat :=
  if '0' ≤ c ∧ c ≤ '9' then some (c.toNat - '0'.toNat)
  else if 'a' ≤ c ∧ c ≤ 'f' then some (c.toNat - 'a'.toNat + 10)
  else if 'A' ≤ c ∧ c ≤ 'F' then some (c.toNat - 'A'.toNat + 10)
  else none

/-- The number that four hexadecimal digits write. -/
def hexQuad? (a b c d : Char) : Option Nat := do
  let a ← hexValue? a
  let b ← hexValue? b
  let c ← hexValue? c
  let d ← hexValue? d
  some (((a * 16 + b) * 16 + c) * 16 + d)

/-- A number that starts a surrogate pair. -/
def isLeadSurrogate (n : Nat) : Bool :=
  0xD800 ≤ n && n < 0xDC00

/-- A number that ends a surrogate pair. -/
def isTrailSurrogate (n : Nat) : Bool :=
  0xDC00 ≤ n && n < 0xE000

/-- The character that a one-letter escape stands for. -/
def shortEscape? (c : Char) : Option Char :=
  if c = '"' ∨ c = '\\' ∨ c = '/' then some c
  else if c = 'b' then some '\x08'
  else if c = 'f' then some '\x0c'
  else if c = 'n' then some '\n'
  else if c = 'r' then some '\r'
  else if c = 't' then some '\t'
  else none

/-- Reads the four digits of a numeric escape, and a second escape after a leading surrogate. -/
def readUnicodeEscape? : List Char → Option (Char × List Char)
  | a :: b :: c :: d :: cs => do
    let lead ← hexQuad? a b c d
    if isTrailSurrogate lead then none
    else if isLeadSurrogate lead then
      match cs with
      | '\\' :: 'u' :: a :: b :: c :: d :: cs => do
        let trail ← hexQuad? a b c d
        if isTrailSurrogate trail then
          some (Char.ofNat (0x10000 + (lead - 0xD800) * 0x400 + (trail - 0xDC00)), cs)
        else none
      | _ => none
    else some (Char.ofNat lead, cs)
  | _ => none

/-- Reads one character that stands between quotes, escaped or not. -/
def readCharacter? : List Char → Option (Char × List Char)
  | [] => none
  | c :: cs =>
    if c = '\\' then
      match cs with
      | [] => none
      | 'u' :: cs => readUnicodeEscape? cs
      | e :: cs => (shortEscape? e).map fun c => (c, cs)
    else if c = '"' ∨ c.toNat < 0x20 then none
    else some (c, cs)

theorem length_lt_of_readUnicodeEscape? {cs rest : List Char} {c : Char}
    (h : readUnicodeEscape? cs = some (c, rest)) : rest.length < cs.length := by
  unfold readUnicodeEscape? at h
  split at h
  · simp only [Option.bind_eq_bind, Option.bind_eq_some_iff] at h
    obtain ⟨lead, -, h⟩ := h
    split at h
    · simp at h
    · split at h
      · split at h
        · simp only [Option.bind_eq_some_iff] at h
          obtain ⟨trail, -, h⟩ := h
          split at h
          · simp only [Option.some.injEq, Prod.mk.injEq] at h
            obtain ⟨-, rfl⟩ := h
            simp only [List.length_cons]; omega
          · simp at h
        · simp at h
      · simp only [Option.some.injEq, Prod.mk.injEq] at h
        obtain ⟨-, rfl⟩ := h
        simp only [List.length_cons]; omega
  · simp at h

theorem length_lt_of_readCharacter? {cs rest : List Char} {c : Char}
    (h : readCharacter? cs = some (c, rest)) : rest.length < cs.length := by
  unfold readCharacter? at h
  split at h
  · simp at h
  · split at h
    · split at h
      · simp at h
      · have := length_lt_of_readUnicodeEscape? h
        simp only [List.length_cons]; omega
      · simp only [Option.map_eq_some_iff, Prod.mk.injEq] at h
        obtain ⟨_, -, -, rfl⟩ := h
        simp only [List.length_cons]; omega
    · split at h
      · simp at h
      · simp only [Option.some.injEq, Prod.mk.injEq] at h
        obtain ⟨-, rfl⟩ := h
        simp

/-- Reads the characters that follow an opening quote, and the closing quote. -/
def readQuoted? (cs : List Char) : Option (List Char × List Char) :=
  match cs with
  | '"' :: rest => some ([], rest)
  | cs =>
    match h : readCharacter? cs with
    | none => none
    | some (c, rest) =>
      have := length_lt_of_readCharacter? h
      (readQuoted? rest).map fun (text, rest) => (c :: text, rest)
termination_by cs.length

/-- Passes over what follows an opening quote, up to and including the closing one. -/
def skipQuoted? : List Char → Option (List Char)
  | [] => none
  | '"' :: cs => some cs
  | '\\' :: 'u' :: a :: b :: c :: d :: cs =>
    if (hexQuad? a b c d).isSome then skipQuoted? cs else none
  | '\\' :: e :: cs => if (shortEscape? e).isSome then skipQuoted? cs else none
  | c :: cs => if c = '\\' ∨ c.toNat < 0x20 then none else skipQuoted? cs

end FlowPlan.Text
