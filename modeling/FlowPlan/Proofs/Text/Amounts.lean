import FlowPlan.Proofs.Text.Integers
import FlowPlan.Transaction.Amount

/-!
# Text — amounts

What `Amount.parse` accepts, and what it gives.  An amount may be given as a text, as a document
that is a text, and as a document that is an integer; it is written as a text.  All of these go by
one rule: the text of a number is a run of digits behind at most one plus (`Text.IsNumeral`), and an
amount is a number below the limit (`parse_eq_ok_iff`).  The digits that are written denote the
amount, so that they are read back (`parse_text`), and so is an integer in either form
(`ofJson_int`, `ofJson_str`).
-/

namespace FlowPlan

open Text

/-! ### Unsigned numerals -/

/-- The text is at most one plus and one or more ASCII digits, which denote the number. -/
def Text.IsNumeral (cs : List Char) (n : Nat) : Prop :=
  ∃ ds, (cs = ds ∨ cs = '+' :: ds) ∧ IsDigits ds ∧ Nat.ofDigitChars 10 ds 0 = n

theorem Text.isNumeral_natural (n : Nat) : IsNumeral (natural n) n :=
  ⟨_, .inl rfl, isDigits_natural n, ofDigitChars_natural n⟩

theorem Text.readNatural_eq_ok_iff_isNumeral {limit n : Nat} {cs : List Char} (pos : 0 < limit) :
    readNatural limit cs = .ok n ↔ IsNumeral cs n ∧ n < limit := by
  rw [readNatural_eq_ok_iff pos, IsNumeral]
  constructor
  · rintro ⟨ds, sign, digits, value, lt⟩
    exact ⟨⟨ds, sign, digits, value⟩, lt⟩
  · rintro ⟨⟨ds, sign, digits, value⟩, lt⟩
    exact ⟨ds, sign, digits, value, lt⟩

/-- The digits of a number neither start nor end with a blank. -/
theorem Text.trim_natural (n : Nat) : trim (natural n) = natural n :=
  (Denotes.unsigned (isDigits_natural n)).trim_eq

namespace Amount

/-! ### Reading and writing texts -/

@[ext]
theorem ext {a b : Amount} (h : a.value = b.value) : a = b := by
  cases a; cases b; cases h; rfl

/-- **Parsing accepts the numerals of amounts**, blanks at both ends apart, and gives the amount. -/
theorem parse_eq_ok_iff {text : String} {a : Amount} :
    parse text = .ok a ↔ IsNumeral (trim text.toList) a.value := by
  have reads := @readNatural_eq_ok_iff_isNumeral limit a.value (trim text.toList) (by decide)
  rw [and_iff_left a.lt_limit] at reads
  rw [← reads, parse]
  cases read : readNatural limit (trim text.toList) with
  | error e => simp
  | ok n =>
    have lt : n < limit := ((readNatural_eq_ok_iff_isNumeral (by decide)).1 read).2
    simp only [dif_pos lt, Except.ok.injEq]
    exact ⟨congrArg value, fun same => ext same⟩

/-- A text is an amount exactly if it is the numeral of a number of a hundred and twenty-eight bits. -/
theorem exists_parse_eq_ok_iff {text : String} :
    (∃ a, parse text = .ok a) ↔
      ∃ n, IsNumeral (trim text.toList) n ∧ n ≤ 340282366920938463463374607431768211455 := by
  have limit_eq : limit = 340282366920938463463374607431768211455 + 1 := by decide
  simp only [parse_eq_ok_iff]
  constructor
  · rintro ⟨a, numeral⟩
    have lt := a.lt_limit
    exact ⟨a.value, numeral, by omega⟩
  · rintro ⟨n, numeral, le⟩
    exact ⟨⟨n, by omega⟩, numeral⟩

/-- The decimal form is that of the standard library. -/
theorem text_eq (a : Amount) : a.text = toString a.value :=
  ofList_natural a.value

/-- What is written is read back. -/
theorem parse_text (a : Amount) : parse a.text = .ok a := by
  rw [parse_eq_ok_iff, text, String.toList_ofList, trim_natural]
  exact isNumeral_natural a.value

/-! ### Reading and writing documents -/

theorem ofJson_str_eq_ok_iff {s : String} {a : Amount} :
    ofJson (.str s) = .ok a ↔ parse s = .ok a := by
  change (parse s).mapError AmountError.badNumeral = .ok a ↔ _
  cases parse s <;> simp [Except.mapError]

/-- The written document is read back. -/
theorem ofJson_toJson (a : Amount) : ofJson a.toJson = .ok a :=
  ofJson_str_eq_ok_iff.2 (parse_text a)

/-- The text of an amount's digits is read as the amount. -/
theorem ofJson_str (a : Amount) : ofJson (.str (toString a.value)) = .ok a := by
  rw [← text_eq]
  exact ofJson_toJson a

/-- The integer of an amount is read as the amount. -/
theorem ofJson_int (a : Amount) : ofJson (.int a.value) = .ok a := by
  have nonneg : ¬(a.value : Int) < 0 := by omega
  simp [ofJson, nonneg, a.lt_limit]

/-- An integer of sixty-four bits is an amount, and so is the text of its digits. -/
theorem exists_ofJson_eq_ok {n : Nat} (lt : n < Nat.pow 2 64) :
    ∃ a : Amount, a.value = n ∧ ofJson (.int n) = .ok a ∧ ofJson (.str (toString n)) = .ok a := by
  have room : Nat.pow 2 64 ≤ limit := by decide
  have below : n < limit := Nat.lt_of_lt_of_le lt room
  exact ⟨⟨n, below⟩, rfl, ofJson_int ⟨n, below⟩, ofJson_str ⟨n, below⟩⟩

/-- **Amounts are read and written exactly.**  A text is read as an amount if and only if, between
blanks, it is at most one plus and one or more ASCII digits, which denote the amount; so one amount at
most, and one exactly if the number is below two to the hundred and twenty-eighth, however many zeros
lead.  The decimal form of an amount and its document are read back as the amount, and an integer of
sixty-four bits as the same amount as the text of its digits. -/
theorem amount_exact :
    (∀ text a, parse text = .ok a ↔ IsNumeral (trim text.toList) a.value) ∧
    (∀ text, (∃ a, parse text = .ok a) ↔
      ∃ n, IsNumeral (trim text.toList) n ∧ n ≤ 340282366920938463463374607431768211455) ∧
    (∀ cs ds, trim cs = ds ↔
      (∃ front back, cs = front ++ ds ++ back ∧ (∀ c ∈ front, isBlank c) ∧
        ∀ c ∈ back, isBlank c) ∧
      (∀ c ∈ ds.head?, isBlank c = false) ∧ ∀ c ∈ ds.getLast?, isBlank c = false) ∧
    (∀ a : Amount, parse a.text = .ok a ∧ ofJson a.toJson = .ok a) ∧
    ∀ n < Nat.pow 2 64, ∃ a : Amount, a.value = n ∧ ofJson (.int n) = .ok a ∧
      ofJson (.str (toString n)) = .ok a :=
  ⟨fun _ _ => parse_eq_ok_iff, fun _ => exists_parse_eq_ok_iff, fun _ _ => trim_eq_iff,
    fun a => ⟨parse_text a, ofJson_toJson a⟩, fun _ => exists_ofJson_eq_ok⟩

/-- The largest integer of sixty-four bits is read from a document in both forms, and the largest
amount behind a plus and zeros, between blanks. -/
theorem largest_amount_exact :
    18446744073709551615 < Nat.pow 2 64 ∧
      (∃ a : Amount, a.value = 18446744073709551615 ∧
        ofJson (.int (18446744073709551615 : Nat)) = .ok a ∧
        ofJson (.str (toString 18446744073709551615)) = .ok a) ∧
      parse "\u2003+00340282366920938463463374607431768211455\n" =
        .ok ⟨340282366920938463463374607431768211455, by decide⟩ := by
  have lt : 18446744073709551615 < Nat.pow 2 64 := by decide
  exact ⟨lt, amount_exact.2.2.2.2 _ lt, by decide +kernel⟩

end Amount

end FlowPlan
