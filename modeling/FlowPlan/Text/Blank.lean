/-!
# Text — blanks

White space in the sense of Unicode.  A blank is a character with the property `White_Space`:
twenty-five code points, among them the line separators and the wide spaces that an ASCII test
misses.  `trim` removes blanks at both ends of a text and nothing else.

* `trim_eq_self`: a text that neither starts nor ends with a blank is left alone.
* `trim_eq_iff`: what trimming leaves, without a word on how it is found.
-/

namespace FlowPlan.Text

/-- The code points with the property `White_Space`, as inclusive ranges. -/
def blankRanges : List (Nat × Nat) :=
  [(0x09, 0x0D), (0x20, 0x20), (0x85, 0x85), (0xA0, 0xA0), (0x1680, 0x1680), (0x2000, 0x200A),
    (0x2028, 0x2029), (0x202F, 0x202F), (0x205F, 0x205F), (0x3000, 0x3000)]

/-- A character with the property `White_Space`. -/
def isBlank (c : Char) : Bool :=
  blankRanges.any fun range => range.1 ≤ c.toNat && c.toNat ≤ range.2

/-- The text without the blanks at its start. -/
def trimStart (cs : List Char) : List Char :=
  cs.dropWhile isBlank

/-- The text without the blanks at its end. -/
def trimEnd (cs : List Char) : List Char :=
  (trimStart cs.reverse).reverse

/-- The text without the blanks at either end. -/
def trim (cs : List Char) : List Char :=
  trimEnd (trimStart cs)

theorem trimStart_eq_self {cs : List Char} (h : ∀ c ∈ cs.head?, isBlank c = false) :
    trimStart cs = cs := by
  cases cs with
  | nil => rfl
  | cons c cs => simp [trimStart, h c (by simp)]

theorem trim_eq_self {cs : List Char} (first : ∀ c ∈ cs.head?, isBlank c = false)
    (last : ∀ c ∈ cs.getLast?, isBlank c = false) : trim cs = cs := by
  have h : trimStart cs.reverse = cs.reverse := trimStart_eq_self (by simpa using last)
  rw [trim, trimStart_eq_self first, trimEnd, h, List.reverse_reverse]

/-- Blanks alone are taken off at the start, and then a text does not start with one. -/
theorem trimStart_eq_iff {cs ds : List Char} :
    trimStart cs = ds ↔
      (∃ front, cs = front ++ ds ∧ ∀ c ∈ front, isBlank c) ∧ ∀ c ∈ ds.head?, isBlank c = false := by
  constructor
  · rintro rfl
    refine ⟨⟨cs.takeWhile isBlank, List.takeWhile_append_dropWhile.symm, ?_⟩, fun c mem => ?_⟩
    · exact List.all_eq_true.1 List.all_takeWhile
    · have stop := List.head?_dropWhile_not isBlank cs
      rw [Option.mem_def, trimStart] at mem
      rw [mem] at stop
      simpa using stop
  · rintro ⟨⟨front, rfl, blank⟩, first⟩
    rw [trimStart, List.dropWhile_append_of_pos blank]
    exact trimStart_eq_self first

/-- Blanks alone are taken off at the end, and then a text does not end with one. -/
theorem trimEnd_eq_iff {cs ds : List Char} :
    trimEnd cs = ds ↔
      (∃ back, cs = ds ++ back ∧ ∀ c ∈ back, isBlank c) ∧ ∀ c ∈ ds.getLast?, isBlank c = false := by
  rw [trimEnd, List.reverse_eq_iff, trimStart_eq_iff, List.head?_reverse]
  refine and_congr_left fun _ => ?_
  constructor
  · rintro ⟨front, split, blank⟩
    exact ⟨front.reverse, by rw [← List.reverse_inj, split]; simp, by simpa using blank⟩
  · rintro ⟨back, rfl, blank⟩
    exact ⟨back.reverse, by simp, by simpa using blank⟩

/-- **A trimmed text stands between blanks**, and neither starts nor ends with one. -/
theorem trim_eq_iff {cs ds : List Char} :
    trim cs = ds ↔
      (∃ front back, cs = front ++ ds ++ back ∧ (∀ c ∈ front, isBlank c) ∧
        ∀ c ∈ back, isBlank c) ∧
      (∀ c ∈ ds.head?, isBlank c = false) ∧ ∀ c ∈ ds.getLast?, isBlank c = false := by
  rw [trim, trimEnd_eq_iff]
  constructor
  · rintro ⟨⟨back, rest, blank'⟩, last⟩
    obtain ⟨⟨front, split, blank⟩, first⟩ := trimStart_eq_iff.1 rest
    refine ⟨⟨front, back, by rw [split, List.append_assoc], blank, blank'⟩, fun c mem => ?_, last⟩
    exact first c (by rw [List.head?_append, Option.mem_def.1 mem]; rfl)
  · rintro ⟨⟨front, back, rfl, blank, blank'⟩, first, last⟩
    refine ⟨?_, last⟩
    cases ds with
    | nil =>
      -- Nothing but blanks: all are taken off at the start.
      refine ⟨[], ?_, by simp⟩
      rw [List.append_nil, trimStart_eq_iff]
      exact ⟨⟨front ++ back, by simp, List.forall_mem_append.2 ⟨blank, blank'⟩⟩, by simp⟩
    | cons d ds =>
      refine ⟨back, trimStart_eq_iff.2 ⟨⟨front, List.append_assoc .., blank⟩, ?_⟩, blank'⟩
      simpa using first

end FlowPlan.Text
