import FlowPlan.Json.Reader
import FlowPlan.Proofs.Json.Decimals
import FlowPlan.Proofs.Text.Numerals

/-!
# Json — numbers read back

The text of a number is read back as the number.  A number is written as an integer, or as the
digits of a double with a point or an exponent; both are laid out as a `Numeral`, of which the
scanner finds the parts again (`Numeral.scan?_chars`).  What a numeral denotes is told without
rounding twice: an integer is itself, however large, and any other number is the double nearest to
its digits times a power of ten.

* `value_layoutNumeral`: the layout of the digits keeps the number.
* `exists_numeral_int`, `exists_numeral_double`: the texts are numerals that denote the numbers.
* `readNumber?_int`, `readNumber?_double`: the numbers are read back.
-/

namespace FlowPlan

namespace Text.IsDigits

variable {ds : List Char} {n : Nat}

theorem take (digits : IsDigits ds) (pos : 0 < n) : IsDigits (ds.take n) :=
  ⟨by simp [digits.1, pos.ne'], fun c mem => digits.2 c (List.mem_of_mem_take mem)⟩

theorem drop (digits : IsDigits ds) (lt : n < ds.length) : IsDigits (ds.drop n) :=
  ⟨by simpa using lt, fun c mem => digits.2 c (List.mem_of_mem_drop mem)⟩

end Text.IsDigits

namespace Double

/-- The magnitude of a double. -/
def magnitude (d : Double) : Magnitude :=
  ⟨d.pattern, d.finite⟩

/-- A double is made of its sign and its magnitude. -/
theorem ofMagnitude_magnitude (d : Double) : ofMagnitude d.negative d.magnitude = d := by
  have below : d.bits.toNat < 2 ^ 64 := d.bits.toNat_lt
  have whole : (if d.negative then Nat.pow 2 63 + d.magnitude else d.magnitude) = d.bits.toNat := by
    simp only [negative, magnitude, pattern, Nat.pow_eq, decide_eq_true_eq]
    split <;> omega
  refine Double.ext ?_
  change UInt64.ofNat (if d.negative then Nat.pow 2 63 + d.magnitude else d.magnitude) = d.bits
  rw [whole, UInt64.ofNat_toNat]

/-- What is rounded to the magnitude of a double is nearest to it. -/
theorem nearest?_of_roundsTo {d : Double} {num den : Nat} (pos : 0 < den)
    (rounds : RoundsTo d.pattern (num / den)) : nearest? num den = some d.magnitude :=
  nearest?_eq (nearestPattern_eq pos rounds) d.finite

end Double

namespace Json

/-- A run ends where the first other character stands. -/
theorem span_append {p : Char → Bool} {front rest : List Char} (run : ∀ c ∈ front, p c)
    (ends : ∀ c ∈ rest.head?, p c = false) : (front ++ rest).span p = (front, rest) := by
  have stops : rest.takeWhile p = [] ∧ rest.dropWhile p = rest := by
    cases rest with
    | nil => exact ⟨rfl, rfl⟩
    | cons c rest =>
      have other := ends c rfl
      simp [other]
  rw [List.span_eq_takeWhile_dropWhile, List.takeWhile_append_of_pos run,
    List.dropWhile_append_of_pos run, stops.1, stops.2, List.append_nil]

/-! ### Numerals -/

/-- The text does not go on as a number could. -/
def EndsNumber (rest : List Char) : Prop :=
  ∀ c ∈ rest.head?, c.isDigit = false ∧ c ≠ '.' ∧ c ≠ 'e' ∧ c ≠ 'E'

namespace Numeral

/-- The written form of the digits after the point. -/
def fractionChars (x : Numeral) : List Char :=
  match x.fraction with
  | none => []
  | some ds => '.' :: ds

/-- The written form of the exponent, which has a sign. -/
def exponentChars (x : Numeral) : List Char :=
  match x.exponent with
  | none => []
  | some (negative, ds) => 'e' :: (if negative then '-' else '+') :: ds

/-- The written form of a number. -/
def chars (x : Numeral) : List Char :=
  (if x.negative then ['-'] else []) ++ (x.whole ++ (x.fractionChars ++ x.exponentChars))

/-- There are digits wherever a number has to have them, and no zero leads. -/
structure WellFormed (x : Numeral) : Prop where
  whole : Text.IsDigits x.whole
  leading : ∀ rest, x.whole = '0' :: rest → rest = []
  fraction : ∀ ds ∈ x.fraction, Text.IsDigits ds
  exponent : ∀ e ∈ x.exponent, Text.IsDigits e.2

/-- A number begins with a minus or a digit. -/
theorem WellFormed.exists_cons {x : Numeral} (wellFormed : x.WellFormed) :
    ∃ c cs, x.chars = c :: cs ∧ (c = '-' ∨ c.isDigit) := by
  obtain ⟨c, cs, written, digit⟩ := wellFormed.whole.exists_cons
  rw [chars, written]
  cases x.negative with
  | true => exact ⟨_, _, rfl, .inl rfl⟩
  | false => exact ⟨_, _, rfl, .inr digit⟩

/-- A natural number, behind a minus or not. -/
def ofNatural (negative : Bool) (n : Nat) : Numeral :=
  ⟨negative, Text.natural n, none, none⟩

theorem wellFormed_ofNatural (negative : Bool) (n : Nat) : (ofNatural negative n).WellFormed :=
  ⟨Text.isDigits_natural n, fun _ => Text.eq_nil_of_natural, nofun, nofun⟩

theorem chars_ofNatural (negative : Bool) (n : Nat) :
    (ofNatural negative n).chars = (if negative then ['-'] else []) ++ Text.natural n := by
  cases negative <;> simp [chars, fractionChars, exponentChars, ofNatural]

variable {x : Numeral} {ds rest : List Char}

theorem spanDigits_append (digits : Text.IsDigits ds)
    (ends : ∀ c ∈ rest.head?, c.isDigit = false) : spanDigits (ds ++ rest) = (ds, rest) :=
  span_append digits.2 ends

/-- The whole part is read back: a zero alone, or digits that no zero leads. -/
theorem scanWhole?_append (digits : Text.IsDigits ds)
    (leading : ∀ rest, ds = '0' :: rest → rest = [])
    (ends : ∀ c ∈ rest.head?, c.isDigit = false) : scanWhole? (ds ++ rest) = some (ds, rest) := by
  obtain ⟨c, cs, rfl, digit⟩ := digits.exists_cons
  by_cases zero : c = '0'
  · subst zero
    obtain rfl := leading cs rfl
    cases rest with
    | nil => rfl
    | cons d rest => simp [scanWhole?, ends d rfl]
  · have whole := spanDigits_append digits ends
    rw [List.cons_append] at whole ⊢
    rw [scanWhole?, if_pos digit, whole]
    exact fun same => zero same

theorem scanFraction?_append (wellFormed : x.WellFormed)
    (ends : ∀ c ∈ rest.head?, c.isDigit = false ∧ c ≠ '.') :
    scanFraction? (x.fractionChars ++ rest) = some (x.fraction, rest) := by
  unfold fractionChars
  cases fraction : x.fraction with
  | none =>
    cases rest with
    | nil => rfl
    | cons c rest =>
      rw [List.nil_append, scanFraction?]
      rintro _ ⟨rfl, -⟩
      exact (ends '.' rfl).2 rfl
  | some ds =>
    have digits := wellFormed.fraction ds fraction
    have run := spanDigits_append digits fun c mem => (ends c mem).1
    obtain ⟨d, ds, rfl, -⟩ := digits.exists_cons
    rw [List.cons_append] at run
    simp [scanFraction?, run]

theorem scanExponent?_append (wellFormed : x.WellFormed) (ends : EndsNumber rest) :
    scanExponent? (x.exponentChars ++ rest) = some (x.exponent, rest) := by
  unfold exponentChars
  cases exponent : x.exponent with
  | none =>
    cases rest with
    | nil => rfl
    | cons c rest =>
      have other := (ends c rfl).2.2
      rw [List.nil_append, scanExponent?, if_neg (not_or.2 other)]
  | some e =>
    obtain ⟨negative, ds⟩ := e
    have digits : Text.IsDigits ds := wellFormed.exponent _ exponent
    have run := spanDigits_append digits fun c mem => (ends c mem).1
    obtain ⟨d, ds, rfl, -⟩ := digits.exists_cons
    rw [List.cons_append] at run
    cases negative <;> simp [scanExponent?, scanSign, run]

/-- **A number is read back from its digits**, where the text does not go on as a number. -/
theorem scan?_chars (wellFormed : x.WellFormed) (ends : EndsNumber rest) :
    scan? (x.chars ++ rest) = some (x, rest) := by
  have sign : scanMinus (x.chars ++ rest) =
      (x.negative, x.whole ++ (x.fractionChars ++ (x.exponentChars ++ rest))) := by
    obtain ⟨c, cs, written, digit⟩ := wellFormed.whole.exists_cons
    rw [chars, written]
    cases x.negative with
    | true => simp [scanMinus]
    | false =>
      have unsigned : c ≠ '-' := by
        rintro rfl
        cases digit
      simp [scanMinus, unsigned]
  have behindFraction : ∀ c ∈ (x.exponentChars ++ rest).head?, c.isDigit = false ∧ c ≠ '.' := by
    rw [exponentChars]
    cases x.exponent with
    | none => exact fun c mem => ⟨(ends c mem).1, (ends c mem).2.1⟩
    | some e => simp
  have behindWhole : ∀ c ∈ (x.fractionChars ++ (x.exponentChars ++ rest)).head?,
      c.isDigit = false := by
    rw [fractionChars]
    cases x.fraction with
    | none => exact fun c mem => (behindFraction c mem).1
    | some ds => simp
  simp only [scan?, sign, scanWhole?_append wellFormed.whole wellFormed.leading behindWhole,
    scanFraction?_append wellFormed behindFraction, scanExponent?_append wellFormed ends,
    Option.bind_eq_bind, Option.bind_some]

/-! ### What a number denotes -/

/-- The natural number that the digits write when the point is left out. -/
def significand (x : Numeral) : Nat :=
  Nat.ofDigitChars 10 (x.whole ++ x.fraction.getD []) 0

/-- The power of ten that the significand is scaled with. -/
def power (x : Numeral) : Int :=
  let exponent : Int :=
    match x.exponent with
    | none => 0
    | some (true, ds) => -(Nat.ofDigitChars 10 ds 0 : Int)
    | some (false, ds) => Nat.ofDigitChars 10 ds 0
  exponent - (x.fraction.getD []).length

/-- The double nearest to the number, if that is finite. -/
def nearest? (x : Numeral) : Option Double :=
  let (up, down) := Double.powerOfTen x.power
  (Double.nearest? (x.significand * up) down).map (Double.ofMagnitude x.negative)

/-- The number as a document: an integer, however large, if it is written as one, and else the
nearest double.  A zero with a minus is a double. -/
def number? (x : Numeral) : Option Json :=
  if x.fraction = none ∧ x.exponent = none ∧ ¬(x.negative ∧ x.significand = 0) then
    some (.int (if x.negative then -(x.significand : Int) else x.significand))
  else x.nearest?.map .double

/-- A number that is rounded to a double has that double as the nearest. -/
theorem nearest?_of_roundsTo {d : Double} (sign : x.negative = d.negative)
    (rounds : Double.RoundsTo d.pattern (x.significand * 10 ^ x.power)) :
    x.nearest? = some d := by
  have pos : 0 < Nat.pow 10 (-x.power).toNat := Nat.pow_pos (by decide)
  rw [Double.zpow_eq_div, ← mul_div_assoc, ← Nat.cast_mul] at rounds
  have nearest : Double.nearest? (x.significand * Nat.pow 10 x.power.toNat)
      (Nat.pow 10 (-x.power).toNat) = some d.magnitude := Double.nearest?_of_roundsTo pos rounds
  change (Double.nearest? _ _).map _ = _
  rw [nearest, Option.map_some, sign, Double.ofMagnitude_magnitude]

end Numeral

/-! ### Doubles -/

/-- The digits of a double, laid out as a number. -/
def layoutNumeral (negative : Bool) (ds : List Char) (point : Int) : Numeral :=
  let n : Int := ds.length
  if n ≤ point ∧ point ≤ 16 then
    ⟨negative, ds ++ List.replicate (point - n).toNat '0', some ['0'], none⟩
  else if 0 < point ∧ point ≤ 16 then
    ⟨negative, ds.take point.toNat, some (ds.drop point.toNat), none⟩
  else if -5 < point ∧ point ≤ 0 then
    ⟨negative, ['0'], some (List.replicate (-point).toNat '0' ++ ds), none⟩
  else
    let power := point - 1
    ⟨negative, ds.take 1, if ds.length ≤ 1 then none else some (ds.drop 1),
      some (decide (power < 0), Nat.toDigits 10 power.natAbs)⟩

section Layout

variable {negative : Bool} {ds : List Char} {point : Int}

/-- The layout of the digits is the text of the number. -/
theorem chars_layoutNumeral :
    (layoutNumeral negative ds point).chars =
      (if negative then ['-'] else []) ++ Double.layout ds point := by
  unfold layoutNumeral Double.layout
  dsimp only
  split
  · simp [Numeral.chars, Numeral.fractionChars, Numeral.exponentChars]
  · split
    · simp [Numeral.chars, Numeral.fractionChars, Numeral.exponentChars]
    · split
      · simp [Numeral.chars, Numeral.fractionChars, Numeral.exponentChars]
      · by_cases short : ds.length ≤ 1 <;> by_cases below : point - 1 < 0 <;>
          simp [Numeral.chars, Numeral.fractionChars, Numeral.exponentChars, short, below]

/-- The digits are laid out as a number, wherever the point stands. -/
theorem wellFormed_layoutNumeral (digits : Text.IsDigits ds) (leading : ∀ rest, ds ≠ '0' :: rest) :
    (layoutNumeral negative ds point).WellFormed := by
  have length : 0 < ds.length := List.length_pos_of_ne_nil digits.1
  have zeros (n : Nat) : ∀ d ∈ List.replicate n '0', d.isDigit := fun d mem => by
    rw [List.eq_of_mem_replicate mem]
    rfl
  have front (n : Nat) (rest : List Char) (same : ds.take n = '0' :: rest) : rest = [] :=
    absurd (by rw [← List.take_append_drop n ds, same, List.cons_append]) (leading _)
  unfold layoutNumeral
  dsimp only
  split
  · next whole =>
    refine ⟨⟨by simp [digits.1], List.forall_mem_append.2 ⟨digits.2, zeros _⟩⟩, ?_, ?_, by simp⟩
    · intro rest same
      obtain ⟨c, cs, rfl, -⟩ := digits.exists_cons
      obtain ⟨rfl, -⟩ := List.cons.inj same
      exact absurd rfl (leading cs)
    · simp [Text.IsDigits]
  · split
    · exact ⟨digits.take (by omega), front _, by simpa using digits.drop (by omega), by simp⟩
    · split
      · refine ⟨by simp [Text.IsDigits], by simp, ?_, by simp⟩
        simpa using ⟨by simp [digits.1], List.forall_mem_append.2 ⟨zeros _, digits.2⟩⟩
      · refine ⟨digits.take Nat.one_pos, front 1, ?_, fun e mem => ?_⟩
        rotate_left
        · obtain rfl := Option.some.inj mem
          exact Text.isDigits_natural _
        intro es mem
        split at mem
        · cases mem
        · obtain rfl := Option.some.inj mem
          exact digits.drop (by omega)

/-- **The layout of the digits keeps the number.** -/
theorem value_layoutNumeral (ne : ds ≠ []) :
    ((layoutNumeral negative ds point).significand *
      10 ^ (layoutNumeral negative ds point).power : ℚ) =
      Nat.ofDigitChars 10 ds 0 * 10 ^ (point - ds.length) := by
  unfold layoutNumeral
  dsimp only
  split
  · next whole =>
    -- Only here are there zeros behind the digits.
    obtain ⟨zeros, count⟩ : ∃ zeros : Nat, point - ds.length = zeros :=
      ⟨(point - ds.length).toNat, by omega⟩
    simp only [Numeral.significand, Numeral.power, count, Int.toNat_natCast, Option.getD_some,
      Nat.ofDigitChars_append, Nat.ofDigitChars_replicate_zero, Nat.ofDigitChars_cons,
      Nat.ofDigitChars_nil, List.length_singleton, zpow_natCast]
    push_cast
    norm_num
    ring
  · suffices same : Numeral.significand _ = Nat.ofDigitChars 10 ds 0 ∧
        Numeral.power _ = point - ds.length by rw [same.1, same.2]
    split
    · refine ⟨by simp [Numeral.significand], ?_⟩
      simp only [Numeral.power, Option.getD_some, List.length_drop]
      omega
    · split
      · refine ⟨?_, ?_⟩
        · simp [Numeral.significand, Nat.ofDigitChars_append, Nat.ofDigitChars_replicate_zero,
            Nat.ofDigitChars_cons]
        · simp only [Numeral.power, Option.getD_some, List.length_append, List.length_replicate]
          omega
      · have length : 0 < ds.length := List.length_pos_of_ne_nil ne
        have exponent : Numeral.power ⟨negative, ds.take 1,
            if ds.length ≤ 1 then none else some (ds.drop 1),
            some (decide (point - 1 < 0), Nat.toDigits 10 (point - 1).natAbs)⟩ =
            point - 1 - (ds.length - 1 : Nat) := by
          by_cases below : point - 1 < 0 <;> by_cases short : ds.length ≤ 1 <;>
            simp only [Numeral.power, below, short, decide_true, decide_false, if_true, if_false,
              Nat.ofDigitChars_ten_toDigits, Option.getD_none, Option.getD_some, List.length_nil,
              List.length_drop] <;> omega
        refine ⟨?_, exponent.trans (by omega)⟩
        by_cases short : ds.length ≤ 1
        · simp [Numeral.significand, short, List.take_of_length_le short]
        · simp only [Numeral.significand, short, if_false, Option.getD_some, List.take_append_drop]

theorem negative_layoutNumeral : (layoutNumeral negative ds point).negative = negative := by
  unfold layoutNumeral
  dsimp only
  split
  · rfl
  · split
    · rfl
    · split <;> rfl

/-- A double is never written as an integer. -/
theorem not_whole_layoutNumeral :
    ¬((layoutNumeral negative ds point).fraction = none ∧
      (layoutNumeral negative ds point).exponent = none) := by
  unfold layoutNumeral
  dsimp only
  split
  · simp
  · split
    · simp
    · split <;> simp

end Layout

/-! ### Texts of numbers -/

/-- **The text of a double is a number that the double is nearest to.** -/
theorem exists_numeral_double (d : Double) :
    ∃ x : Numeral, x.chars = d.text ∧ x.WellFormed ∧ x.number? = some (.double d) := by
  by_cases zero : d.pattern = 0
  · refine ⟨⟨d.negative, ['0'], some ['0'], none⟩, ?_, ?_, ?_⟩
    · simp [Numeral.chars, Numeral.fractionChars, Numeral.exponentChars, Double.text, zero]
    · exact ⟨by simp [Text.IsDigits], by simp, by simp [Text.IsDigits], by simp⟩
    · have rounds : Double.RoundsTo d.pattern ((0 : Nat) * 10 ^ (-1 : Int)) := by
        rw [zero]
        exact .inr ⟨by decide, by simp [Double.roundingInterval, Double.parts], by simp⟩
      rw [Numeral.number?, if_neg (by simp),
        Numeral.nearest?_of_roundsTo (x := ⟨d.negative, ['0'], some ['0'], none⟩) rfl rounds]
      rfl
  · have pos : 0 < (Double.parts d.pattern).1 := by
      have := Double.parts_spec d.pattern
      omega
    obtain ⟨positive, rounds⟩ := Double.roundsTo_shortest pos
    have text : d.text = (if d.negative then ['-'] else []) ++
        Double.layout (Text.natural (Double.shortest d.pattern).1)
          ((Text.natural (Double.shortest d.pattern).1).length + (Double.shortest d.pattern).2) := by
      simp only [Double.text, if_neg zero, Text.natural]
    generalize Double.shortest d.pattern = decimal at *
    have digits := Text.isDigits_natural decimal.1
    have leading : ∀ rest, Text.natural decimal.1 ≠ '0' :: rest := by
      intro rest written
      obtain rfl := Text.eq_nil_of_natural written
      have value := Text.ofDigitChars_natural decimal.1
      rw [written] at value
      exact positive.ne value
    rw [text]
    refine ⟨layoutNumeral d.negative _ _, chars_layoutNumeral,
      wellFormed_layoutNumeral digits leading, ?_⟩
    rw [Numeral.number?, if_neg fun whole => not_whole_layoutNumeral ⟨whole.1, whole.2.1⟩,
      Numeral.nearest?_of_roundsTo negative_layoutNumeral ?_]
    · rfl
    · rwa [value_layoutNumeral digits.1, Text.ofDigitChars_natural, add_sub_cancel_left]

/-- **The text of an integer is a number that is the integer.** -/
theorem exists_numeral_int (i : Int) :
    ∃ x : Numeral, x.chars = Text.integer i ∧ x.WellFormed ∧ x.number? = some (.int i) := by
  have value : (Numeral.ofNatural (i < 0) i.natAbs).significand = i.natAbs := by
    simp [Numeral.ofNatural, Numeral.significand, Text.ofDigitChars_natural]
  refine ⟨.ofNatural (i < 0) i.natAbs, ?_, Numeral.wellFormed_ofNatural _ _, ?_⟩
  · rw [Numeral.chars_ofNatural, Text.integer]
    by_cases negative : i < 0 <;> simp [negative]
  · rw [Numeral.number?, value, if_pos]
    · simp only [Numeral.ofNatural, decide_eq_true_eq]
      congr 2
      omega
    · simp only [Numeral.ofNatural, decide_eq_true_eq, true_and]
      omega

/-! ### Reading numbers -/

/-- Reads a number as a document. -/
def readNumber? (cs : List Char) : Option (Json × List Char) := do
  let (x, cs) ← Numeral.scan? cs
  let j ← x.number?
  some (j, cs)

/-- **An integer is read back from its text**, where the text does not go on as a number. -/
theorem readNumber?_int (i : Int) {rest : List Char} (ends : EndsNumber rest) :
    readNumber? (Text.integer i ++ rest) = some (.int i, rest) := by
  obtain ⟨x, written, wellFormed, denotes⟩ := exists_numeral_int i
  simp [readNumber?, ← written, Numeral.scan?_chars wellFormed ends, denotes]

/-- **A double is read back from its text**, where the text does not go on as a number. -/
theorem readNumber?_double (d : Double) {rest : List Char} (ends : EndsNumber rest) :
    readNumber? (d.text ++ rest) = some (.double d, rest) := by
  obtain ⟨x, written, wellFormed, denotes⟩ := exists_numeral_double d
  simp [readNumber?, ← written, Numeral.scan?_chars wellFormed ends, denotes]

end Json

end FlowPlan
