import FlowPlan.Text.Numeral

/-!
# Text — what numerals denote

A run of ASCII digits denotes a natural number, and with an optional minus before it an integer.
Reading gives the number that the digits denote, and fails if one of the characters is no digit or
if the number reaches the limit, however many zeros lead (`readNatural_eq_ok_iff`).  Writing gives the
shortest numeral that denotes the number (`denotes_integer`, `isCanonical_integer`).
-/

namespace FlowPlan.Text

/-- One or more ASCII digits. -/
def IsDigits (cs : List Char) : Prop :=
  cs ≠ [] ∧ ∀ c ∈ cs, c.isDigit

/-- The text is an optional minus and one or more ASCII digits, which denote the integer. -/
inductive Denotes : List Char → Int → Prop where
  | unsigned {ds : List Char} (digits : IsDigits ds) : Denotes ds (Nat.ofDigitChars 10 ds 0)
  | negated {ds : List Char} (digits : IsDigits ds) :
    Denotes ('-' :: ds) (-(Nat.ofDigitChars 10 ds 0 : Int))

/-- No zero leads, but that of a single zero, which no minus stands before. -/
def IsCanonical (cs : List Char) : Prop :=
  (∀ rest, cs = '0' :: rest → rest = []) ∧ ∀ rest, cs ≠ '-' :: '0' :: rest

/-! ### Digits -/

/-- A digit has the value by which it stands behind the zero. -/
theorem digitValue?_eq_some_iff {c : Char} {d : Nat} :
    digitValue? c = some d ↔ c.isDigit ∧ c.toNat - '0'.toNat = d := by
  have range : ('0' ≤ c ∧ c ≤ '9') ↔ c.isDigit := by simp [Char.isDigit, Char.le_def]
  by_cases digit : c.isDigit
  · rw [digitValue?, if_pos (range.2 digit)]
    simp [digit]
  · rw [digitValue?, if_neg (mt range.1 digit)]
    simp [digit]

/-- More digits never make a number smaller. -/
theorem le_ofDigitChars (acc : Nat) (cs : List Char) : acc ≤ Nat.ofDigitChars 10 cs acc := by
  induction cs generalizing acc with
  | nil => exact Nat.le_refl acc
  | cons c cs ih =>
    rw [Nat.ofDigitChars_cons]
    exact Nat.le_trans (by omega) (ih _)

theorem IsDigits.exists_cons {ds : List Char} (h : IsDigits ds) :
    ∃ c cs, ds = c :: cs ∧ c.isDigit := by
  obtain ⟨c, cs, rfl⟩ := List.exists_cons_of_ne_nil h.1
  exact ⟨c, cs, rfl, h.2 c List.mem_cons_self⟩

theorem isDigits_natural (n : Nat) : IsDigits (natural n) :=
  ⟨Nat.toDigits_ne_nil, fun _ mem => Nat.isDigit_of_mem_toDigits (by decide) (by decide) mem⟩

/-- The digits of a number have it as their value. -/
theorem ofDigitChars_natural (n : Nat) : Nat.ofDigitChars 10 (natural n) 0 = n :=
  Nat.ofDigitChars_ten_toDigits

theorem natural_inj {m n : Nat} (same : natural m = natural n) : m = n := by
  rw [← ofDigitChars_natural m, same, ofDigitChars_natural]

theorem IsDigits.ne_cons_of_isDigit_eq_false {cs rest : List Char} {c : Char} (h : IsDigits cs)
    (other : c.isDigit = false) : cs ≠ c :: rest := by
  rintro rfl
  rw [h.2 c List.mem_cons_self] at other
  cases other

/-- No zero leads in what is written, but that of zero itself. -/
theorem eq_nil_of_natural {n : Nat} {rest : List Char} (h : natural n = '0' :: rest) :
    rest = [] := by
  induction n using Nat.strongRecOn generalizing rest with
  | ind n ih =>
    by_cases small : n < 10
    · rw [natural, Nat.toDigits_of_lt_base small] at h
      exact (List.cons.inj h).2.symm
    · -- The leading digit is that of the tenth part, which is no zero here.
      have split := Nat.toDigits_of_base_le (b := 10) (by decide) (Nat.le_of_not_lt small)
      rw [natural, split] at h
      cases front : Nat.toDigits 10 (n / 10) with
      | nil => exact absurd front Nat.toDigits_ne_nil
      | cons c cs =>
        rw [front] at h
        obtain ⟨rfl, -⟩ := List.cons.inj h
        obtain rfl := ih (n / 10) (by omega) front
        have value := ofDigitChars_natural (n / 10)
        rw [natural, front] at value
        have zero : Nat.ofDigitChars 10 ['0'] 0 = 0 := rfl
        omega

/-! ### Reading -/

/-- Digits are read as their value, if that stays below the limit. -/
theorem readDigits_eq_ok_iff {limit acc n : Nat} {cs : List Char} (below : acc < limit) :
    readDigits limit acc cs = .ok n ↔
      (∀ c ∈ cs, c.isDigit) ∧ Nat.ofDigitChars 10 cs acc = n ∧ n < limit := by
  induction cs generalizing acc with
  | nil =>
    simp only [readDigits, Except.ok.injEq, Nat.ofDigitChars_nil]
    constructor
    · rintro rfl
      exact ⟨by simp, rfl, below⟩
    · exact fun h => h.2.1
  | cons c cs ih =>
    rw [List.forall_mem_cons, Nat.ofDigitChars_cons, readDigits]
    cases value : digitValue? c with
    | none =>
      have other : ¬c.isDigit := fun digit => by
        have some := digitValue?_eq_some_iff.2 ⟨digit, rfl⟩
        rw [value] at some
        cases some
      simp [other]
    | some d =>
      obtain ⟨digit, rfl⟩ := digitValue?_eq_some_iff.1 value
      simp only [digit, true_and]
      by_cases next : acc * 10 + (c.toNat - '0'.toNat) < limit
      · rw [if_pos next, ih next, Nat.mul_comm]
      · -- More digits make no number smaller, so it stays over the limit.
        have grows := le_ofDigitChars (10 * acc + (c.toNat - '0'.toNat)) cs
        simp only [if_neg next, reduceCtorEq, false_iff, not_and]
        intro _ same
        omega

/-- A text without a plus is read as its digits. -/
theorem readNatural_of_digits {limit : Nat} {cs : List Char} (ne : cs ≠ [])
    (unsigned : ∀ rest, cs ≠ '+' :: rest) : readNatural limit cs = readDigits limit 0 cs := by
  match cs with
  | [] => exact absurd rfl ne
  | c :: cs =>
    have other : c ≠ '+' := fun same => unsigned cs (same ▸ rfl)
    rw [readNatural]
    · exact fun same _ => other same
    · exact fun _ _ same => absurd same other

theorem readNatural_plus {limit : Nat} {cs : List Char} (ne : cs ≠ []) :
    readNatural limit ('+' :: cs) = readDigits limit 0 cs := by
  cases cs with
  | nil => exact absurd rfl ne
  | cons c cs => rw [readNatural]

/-- **Reading gives the number that the digits denote**, after at most one `+`, where that is below
the limit. -/
theorem readNatural_eq_ok_iff {limit n : Nat} {cs : List Char} (pos : 0 < limit) :
    readNatural limit cs = .ok n ↔
      ∃ ds, (cs = ds ∨ cs = '+' :: ds) ∧ IsDigits ds ∧ Nat.ofDigitChars 10 ds 0 = n ∧
        n < limit := by
  constructor
  · intro read
    by_cases signed : ∃ ds, cs = '+' :: ds
    · obtain ⟨ds, rfl⟩ := signed
      have ne : ds ≠ [] := by
        rintro rfl
        cases read
      rw [readNatural_plus ne, readDigits_eq_ok_iff pos] at read
      exact ⟨ds, .inr rfl, ⟨ne, read.1⟩, read.2⟩
    · have ne : cs ≠ [] := by
        rintro rfl
        cases read
      rw [readNatural_of_digits ne (not_exists.1 signed), readDigits_eq_ok_iff pos] at read
      exact ⟨cs, .inl rfl, ⟨ne, read.1⟩, read.2⟩
  · rintro ⟨ds, rfl | rfl, digits, value⟩
    · rw [readNatural_of_digits digits.1 fun _ => digits.ne_cons_of_isDigit_eq_false (by decide)]
      exact (readDigits_eq_ok_iff pos).2 ⟨digits.2, value⟩
    · rw [readNatural_plus digits.1]
      exact (readDigits_eq_ok_iff pos).2 ⟨digits.2, value⟩

/-! ### Integers -/

theorem integer_ofNat (n : Nat) : integer n = natural n := by
  rw [integer, if_neg (by omega), Int.natAbs_natCast]

theorem integer_negative {n : Nat} (pos : 0 < n) : integer (-(n : Int)) = '-' :: natural n := by
  rw [integer, if_pos (by omega), Int.natAbs_neg, Int.natAbs_natCast]

/-- What is written denotes the integer. -/
theorem denotes_integer (i : Int) : Denotes (integer i) i := by
  by_cases negative : i < 0
  · have h := Denotes.negated (isDigits_natural i.natAbs)
    rwa [ofDigitChars_natural, ← integer_negative (by omega), ← Int.eq_neg_natAbs_of_nonpos
      (by omega)] at h
  · have h := Denotes.unsigned (isDigits_natural i.natAbs)
    rwa [ofDigitChars_natural, ← integer_ofNat, Int.natAbs_of_nonneg (by omega)] at h

theorem isCanonical_integer (i : Int) : IsCanonical (integer i) := by
  by_cases negative : i < 0
  · have pos : 0 < i.natAbs := by omega
    rw [Int.eq_neg_natAbs_of_nonpos (by omega : i ≤ 0), integer_negative pos]
    refine ⟨fun _ h => absurd (List.cons.inj h).1 (by decide), fun rest h => ?_⟩
    have digits := (List.cons.inj h).2
    obtain rfl := eq_nil_of_natural digits
    have value := ofDigitChars_natural i.natAbs
    have zero : Nat.ofDigitChars 10 ['0'] 0 = 0 := rfl
    rw [digits] at value
    omega
  · rw [← Int.natAbs_of_nonneg (by omega : 0 ≤ i), integer_ofNat]
    exact ⟨fun _ => eq_nil_of_natural,
      fun _ => (isDigits_natural i.natAbs).ne_cons_of_isDigit_eq_false (by decide)⟩

/-- A text denotes at most one integer. -/
theorem Denotes.unique {cs : List Char} {i j : Int} (first : Denotes cs i) (second : Denotes cs j) :
    i = j := by
  cases first with
  | unsigned digits =>
    cases second with
    | unsigned => rfl
    | negated => exact absurd rfl (digits.ne_cons_of_isDigit_eq_false (by decide))
  | negated =>
    cases second with
    | unsigned digits => exact absurd rfl (digits.ne_cons_of_isDigit_eq_false (by decide))
    | negated => rfl

theorem ofList_natural (n : Nat) : String.ofList (natural n) = toString n :=
  Nat.repr_eq_ofList_toDigits.symm

/-- What is written is the decimal form of the standard library. -/
theorem ofList_integer (i : Int) : String.ofList (integer i) = toString i := by
  rw [Int.toString_eq_repr, Int.repr_eq_if, integer]
  by_cases negative : i < 0
  · have magnitude : (-i).toNat = i.natAbs := by omega
    rw [if_pos negative, if_neg (by omega), magnitude, Nat.repr_eq_ofList_toDigits, natural,
      ← List.singleton_append, String.ofList_append]
  · have magnitude : i.toNat = i.natAbs := by omega
    rw [if_neg negative, if_pos (by omega), magnitude, Nat.repr_eq_ofList_toDigits, natural]

end FlowPlan.Text
