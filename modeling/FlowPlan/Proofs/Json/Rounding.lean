import Mathlib.Algebra.Order.Field.Rat
import Mathlib.Tactic.Linarith
import Mathlib.Tactic.Ring
import FlowPlan.Json.Double

/-!
# Json — rounding

Which magnitude a quotient is rounded to.  The quotients that are rounded to a magnitude make up an
interval around it, which ends half way to the magnitudes next to it (`RoundsTo`); so the one that
`nearestPattern` gives for a quotient in that interval is the magnitude (`nearestPattern_eq`).  Where
a significand is the least of fifty-three bits, the grid is twice as fine below, and a quotient there
is rounded up to a significand of fifty-four, which carries.

A natural number is a double itself if no more than fifty-three of its binary digits stand in front
of the zeros at its end (`whole?_nearest?_iff`).
-/

namespace FlowPlan

namespace Double

/-! ### Quotients, units and significands -/

/-- The quotient is rounded to the only natural number that is nearer than a half, and from between
two to the even one. -/
theorem roundQuotient_eq {num den m : Nat} (pos : 0 < den) (least : 2 * (den * m) ≤ 2 * num + den)
    (greatest : 2 * num ≤ 2 * (den * m) + den)
    (odd : m % 2 = 1 → 2 * (den * m) < 2 * num + den ∧ 2 * num < 2 * (den * m) + den) :
    roundQuotient num den = m := by
  have rest : num % den < den := Nat.mod_lt num pos
  have split : den * (num / den) + num % den = num := Nat.div_add_mod num den
  rw [roundQuotient]
  generalize num / den = q at *
  generalize num % den = r at *
  subst split
  have upper : q ≤ m := by
    by_contra above
    have : den * (m + 1) ≤ den * q := Nat.mul_le_mul_left den (by omega)
    rw [Nat.mul_add] at this
    omega
  have lower : m ≤ q + 1 := by
    by_contra below
    have : den * (q + 2) ≤ den * m := Nat.mul_le_mul_left den (by omega)
    rw [Nat.mul_add] at this
    omega
  obtain rfl | rfl : q = m ∨ m = q + 1 := by omega
  · rw [if_pos (by omega)]
  · rw [Nat.mul_add] at least greatest odd
    rw [if_neg (by omega)]

/-- Written out, since the power is too large to be computed with. -/
theorem exists_unit : ∃ u, unit = 2 ^ u ∧ u = 1074 := by
  unfold unit
  generalize 1074 = u
  exact ⟨u, rfl, rfl⟩

theorem unit_pos : 0 < unit := by
  obtain ⟨u, unitEq, -⟩ := exists_unit
  exact unitEq ▸ Nat.two_pow_pos u

/-- The significand of a magnitude has fifty-three bits, but on the finest grid it may have less. -/
theorem parts_spec (p : Nat) :
    (parts p).2 * 2 ^ 52 + (parts p).1 = p ∧ (parts p).1 < 2 ^ 53 ∧
      ((parts p).2 = 0 ∨ 2 ^ 52 ≤ (parts p).1) := by
  rw [parts]
  simp only [Nat.pow_eq]
  split <;> dsimp only <;> omega

/-- A pattern has the significand and the exponent that it is made of. -/
theorem parts_eq {m e : Nat} (small : m < 2 ^ 53) (normal : e = 0 ∨ 2 ^ 52 ≤ m) :
    parts (e * 2 ^ 52 + m) = (m, e) := by
  rw [parts]
  simp only [Nat.pow_eq]
  split <;> ext <;> dsimp only <;> omega

/-! ### Intervals -/

/-- The quantity is rounded to a magnitude: it lies between the ends of the magnitude's interval, or
on an end that belongs to it. -/
def RoundsTo (p : Nat) (v : ℚ) : Prop :=
  ((roundingInterval p).1 : ℚ) < v * (2 * unit) ∧
      v * (2 * unit) < (roundingInterval p).2.1 ∨
    (roundingInterval p).2.2 ∧ ((roundingInterval p).1 : ℚ) ≤ v * (2 * unit) ∧
      v * (2 * unit) ≤ (roundingInterval p).2.1

/-- The exponent of a magnitude is told by its length in binary digits. -/
theorem log2_sub_eq {n k : Nat} (low : k = 0 ∨ 2 ^ (52 + k) ≤ n) (high : n < 2 ^ (53 + k)) :
    n.log2 - 52 = k := by
  rcases low with rfl | low
  · by_cases zero : n = 0
    · subst zero
      decide
    · have := (Nat.log2_lt zero).2 high
      omega
  · have ne : n ≠ 0 := by
      rintro rfl
      exact absurd low (Nat.not_le.2 (Nat.two_pow_pos _))
    have same := (Nat.log2_eq_iff ne).2 ⟨low, by rwa [Nat.add_right_comm]⟩
    omega

/-- The bounds of an interval, over a denominator. -/
theorem RoundsTo.bounds {p num den : Nat} (pos : 0 < den) (rounds : RoundsTo p (num / den)) :
    (roundingInterval p).1 * den ≤ 2 * (num * unit) ∧
      2 * (num * unit) ≤ (roundingInterval p).2.1 * den ∧
      ((roundingInterval p).2.2 = false →
        (roundingInterval p).1 * den < 2 * (num * unit) ∧
          2 * (num * unit) < (roundingInterval p).2.1 * den) := by
  have posQ : (0 : ℚ) < den := Nat.cast_pos.2 pos
  have scaled : (num / den : ℚ) * (2 * unit) = (2 * (num * unit) : Nat) / den := by
    push_cast
    ring
  rw [RoundsTo, scaled, lt_div_iff₀ posQ, div_lt_iff₀ posQ, le_div_iff₀ posQ,
    div_le_iff₀ posQ] at rounds
  generalize 2 * (num * unit) = twice at *
  simp only [← Nat.cast_mul, Nat.cast_lt, Nat.cast_le] at rounds
  rcases rounds with ⟨low, high⟩ | ⟨closed, low, high⟩
  · exact ⟨low.le, high.le, fun _ => ⟨low, high⟩⟩
  · exact ⟨low, high, fun isOpen => by simp [isOpen] at closed⟩

/-- A quantity that is scaled to fifty-three bits is rounded on the grid of its scale. -/
theorem nearestPattern_of_scale {num den scaled m e : Nat} (pos : 0 < den)
    (same : num * unit = scaled) (normal : e = 0 ∨ 2 ^ 52 * (den * 2 ^ e) ≤ scaled)
    (small : scaled < 2 ^ 53 * (den * 2 ^ e))
    (least : 2 * (den * 2 ^ e * m) ≤ 2 * scaled + den * 2 ^ e)
    (greatest : 2 * scaled ≤ 2 * (den * 2 ^ e * m) + den * 2 ^ e)
    (odd : m % 2 = 1 → 2 * (den * 2 ^ e * m) < 2 * scaled + den * 2 ^ e ∧
      2 * scaled < 2 * (den * 2 ^ e * m) + den * 2 ^ e) :
    nearestPattern num den = e * 2 ^ 52 + m := by
  have scale : (scaled / den).log2 - 52 = e := by
    refine log2_sub_eq (normal.imp_right fun normal => ?_) ?_
    · rw [Nat.le_div_iff_mul_le pos, pow_add]
      linarith
    · rw [Nat.div_lt_iff_lt_mul pos, pow_add]
      linarith
  rw [nearestPattern, same, scale, Nat.pow_eq, Nat.pow_eq,
    roundQuotient_eq (Nat.mul_pos pos (Nat.two_pow_pos e)) least greatest odd]

/-- **What lies in the interval of a magnitude is rounded to it.** -/
theorem nearestPattern_eq {p num den : Nat} (pos : 0 < den) (rounds : RoundsTo p (num / den)) :
    nearestPattern num den = p := by
  obtain ⟨least, greatest, strict⟩ := rounds.bounds pos
  obtain ⟨whole, small, normal⟩ := parts_spec p
  simp only [roundingInterval, decide_eq_false_iff_not, Nat.pow_eq] at least greatest strict
  generalize (parts p).1 = m at *
  generalize (parts p).2 = e at *
  obtain ⟨scaled, same⟩ : ∃ scaled, num * unit = scaled := ⟨_, rfl⟩
  rw [same] at least greatest strict
  have nearest {m e : Nat} := nearestPattern_of_scale (m := m) (e := e) pos same
  clear same
  have high : (m * 2 ^ (e + 1) + 2 ^ e) * den = 2 * (den * 2 ^ e * m) + den * 2 ^ e := by ring
  rw [high] at greatest strict
  by_cases half : m = 2 ^ 52 ∧ 0 < e
  · obtain ⟨rfl, e0⟩ := half
    obtain ⟨f, rfl⟩ : ∃ f, e = f + 1 := ⟨e - 1, by omega⟩
    have centre : 2 ^ 52 * 2 ^ (f + 1 + 1) * den = 2 ^ 54 * (den * 2 ^ f) := by ring
    have double : den * 2 ^ (f + 1) = 2 * (den * 2 ^ f) := by ring
    have step : 0 < den * 2 ^ f := Nat.mul_pos pos (Nat.two_pow_pos f)
    rw [if_pos ⟨rfl, e0⟩, Nat.add_sub_cancel, Nat.sub_mul, centre, Nat.mul_comm (2 ^ f)] at least
    rw [double] at greatest
    clear strict
    by_cases below : scaled < 2 ^ 53 * (den * 2 ^ f)
    · -- Below a power of two the grid is twice as fine, and the significand carries over.
      have carried : nearestPattern num den = f * 2 ^ 52 + 2 ^ 53 :=
        nearest (.inr (by omega)) below (by omega) (by linarith) (by norm_num)
      omega
    · have rounded : nearestPattern num den = (f + 1) * 2 ^ 52 + 2 ^ 52 := by
        apply nearest <;> rw [double] <;> omega
      omega
  · have low : (m * 2 ^ (e + 1) - 2 ^ e) * den = 2 * (den * 2 ^ e * m) - den * 2 ^ e := by
      rw [Nat.sub_mul, Nat.mul_comm (2 ^ e)]
      congr 1
      ring
    rw [if_neg half, low] at least strict
    have most : den * 2 ^ e * m ≤ den * 2 ^ e * (2 ^ 53 - 1) := Nat.mul_le_mul_left _ (by omega)
    have step : 0 < den * 2 ^ e := Nat.mul_pos pos (Nat.two_pow_pos e)
    rw [← whole]
    refine nearest ?_ (by omega) (by omega) greatest (by omega)
    rcases normal with zero | normal
    · exact .inl zero
    · by_cases e0 : e = 0
      · exact .inl e0
      · have more : den * 2 ^ e * (2 ^ 52 + 1) ≤ den * 2 ^ e * m :=
          Nat.mul_le_mul_left _ (by omega)
        exact .inr (by omega)

/-! ### Whole numbers -/

/-- The natural number that a magnitude is, if it is one. -/
def whole? (p : Magnitude) : Option Nat :=
  let (m, e) := parts p
  let scaled := m * Nat.pow 2 e
  if scaled % unit = 0 then some (scaled / unit) else none

/-- The nearest magnitude is that of the nearest pattern, if this is finite. -/
theorem nearest?_eq {num den p : Nat} (pattern : nearestPattern num den = p)
    (finite : p < infinitePattern) : nearest? num den = some ⟨p, finite⟩ := by
  subst pattern
  rw [nearest?, dif_pos finite]

/-- A natural number of at most fifty-three binary digits before its zeros is scaled exactly. -/
theorem exists_scaled {n m e : Nat} (few : m < 2 ^ 53) (same : n = m * 2 ^ e) :
    ∃ q f, n * unit = q * 2 ^ f ∧ q < 2 ^ 53 ∧ (f = 0 ∨ 2 ^ 52 ≤ q) := by
  obtain ⟨u, unitEq, -⟩ := exists_unit
  obtain ⟨f, exponent⟩ : ∃ f, f = (n * unit).log2 - 52 := ⟨_, rfl⟩
  have scaled : n * unit = m * 2 ^ (e + u) := by rw [same, unitEq, Nat.mul_assoc, ← Nat.pow_add]
  have below : n * unit < 2 ^ (53 + (e + u)) := by
    rw [scaled, Nat.pow_add 2 53]
    exact Nat.mul_lt_mul_of_pos_right few (Nat.two_pow_pos _)
  generalize n * unit = number at *
  have coarser : f ≤ e + u := by
    by_cases zero : number = 0
    · subst zero
      simp [exponent]
    · have := (Nat.log2_lt zero).2 below
      omega
  have divides : 2 ^ f ∣ number := scaled ▸ (Nat.pow_dvd_pow 2 coarser).mul_left m
  refine ⟨number / 2 ^ f, f, (Nat.div_mul_cancel divides).symm, ?_, ?_⟩
  · rw [Nat.div_lt_iff_lt_mul (Nat.two_pow_pos f), ← Nat.pow_add]
    exact Nat.lt_of_lt_of_le Nat.lt_log2_self (Nat.pow_le_pow_right two_pos (by omega))
  · by_cases finest : f = 0
    · exact .inl finest
    · have ne : number ≠ 0 := by
        rintro rfl
        exact finest exponent
      rw [Nat.le_div_iff_mul_le (Nat.two_pow_pos f), ← Nat.pow_add]
      exact .inr (Nat.le_trans (Nat.pow_le_pow_right two_pos (by omega)) (Nat.log2_self_le ne))

/-- A magnitude that is a natural number is that number. -/
theorem whole?_eq {p : Magnitude} {n : Nat} (scaled : (parts p).1 * 2 ^ (parts p).2 = n * unit) :
    whole? p = some n := by
  simp only [whole?, Nat.pow_eq]
  split
  · rw [scaled, Nat.mul_div_cancel n unit_pos]
  · next rest => exact absurd (scaled ▸ Nat.mul_mod_left n unit) rest

/-- What a magnitude is has at most fifty-three binary digits before its zeros. -/
theorem exists_of_whole? {p : Magnitude} {n : Nat} (whole : whole? p = some n) :
    ∃ m e, m < 2 ^ 53 ∧ n = m * 2 ^ e := by
  obtain ⟨-, few, -⟩ := parts_spec p
  obtain ⟨u, unitEq, -⟩ := exists_unit
  simp only [whole?, Nat.pow_eq, Option.ite_none_right_eq_some, Option.some.injEq] at whole
  have scaled : n * 2 ^ u = (parts p).1 * 2 ^ (parts p).2 := by
    rw [← unitEq, ← whole.2]
    exact Nat.div_mul_cancel (Nat.dvd_of_mod_eq_zero whole.1)
  rcases Nat.le_total u (parts p).2 with le | le
  · refine ⟨(parts p).1, (parts p).2 - u, few, ?_⟩
    refine Nat.eq_of_mul_eq_mul_right (Nat.two_pow_pos u) ?_
    rw [scaled, Nat.mul_assoc, ← Nat.pow_add, Nat.sub_add_cancel le]
  · obtain ⟨d, rfl⟩ := Nat.exists_eq_add_of_le' le
    rw [Nat.pow_add, ← Nat.mul_assoc] at scaled
    have more : n * 2 ^ d = (parts p).1 :=
      Nat.eq_of_mul_eq_mul_right (Nat.two_pow_pos _) scaled
    exact ⟨n, 0, Nat.lt_of_le_of_lt (more ▸ Nat.le_mul_of_pos_right n (Nat.two_pow_pos d)) few,
      by simp⟩

/-- A number that is scaled exactly is rounded to the magnitude it is. -/
theorem nearest?_of_scaled {n q f : Nat} (small : n < 2 ^ 128) (scaled : n * unit = q * 2 ^ f)
    (few : q < 2 ^ 53) (normal : f = 0 ∨ 2 ^ 52 ≤ q) :
    ∃ finite, nearest? n 1 = some ⟨f * 2 ^ 52 + q, finite⟩ := by
  have step : 0 < 2 ^ f := Nat.two_pow_pos f
  have least (more : 2 ^ 52 ≤ q) : 2 ^ 52 * 2 ^ f ≤ q * 2 ^ f := Nat.mul_le_mul_right _ more
  have pattern : nearestPattern n 1 = f * 2 ^ 52 + q := by
    apply nearestPattern_of_scale Nat.one_pos scaled <;> rw [Nat.one_mul]
    · exact normal.imp_right least
    · exact Nat.mul_lt_mul_of_pos_right few step
    all_goals rw [Nat.mul_comm q]; omega
  have finite : f * 2 ^ 52 + q < infinitePattern := by
    obtain ⟨u, unitEq, u1074⟩ := exists_unit
    rw [infinitePattern, Nat.pow_eq]
    rcases normal with rfl | more
    · omega
    · have below : 2 ^ (52 + f) < 2 ^ (128 + u) := by
        rw [Nat.pow_add 2 52, Nat.pow_add 2 128, ← unitEq]
        exact Nat.lt_of_le_of_lt (scaled ▸ least more) (Nat.mul_lt_mul_of_pos_right small unit_pos)
      have := (Nat.pow_lt_pow_iff_right Nat.one_lt_two).1 below
      omega
  exact ⟨finite, nearest?_eq pattern finite⟩

/-- **A natural number is a double if it has at most fifty-three binary digits before its zeros.** -/
theorem whole?_nearest?_iff {n : Nat} (small : n < 2 ^ 128) :
    (nearest? n 1).bind whole? = some n ↔ ∃ m e, m < 2 ^ 53 ∧ n = m * 2 ^ e := by
  constructor
  · intro exact
    obtain ⟨p, -, whole⟩ := Option.bind_eq_some_iff.1 exact
    exact exists_of_whole? whole
  · rintro ⟨m, e, few, same⟩
    obtain ⟨q, f, scaled, few, normal⟩ := exists_scaled few same
    obtain ⟨finite, nearest⟩ := nearest?_of_scaled small scaled few normal
    rw [nearest, Option.bind_some]
    exact whole?_eq (by rw [parts_eq few normal, scaled])

end Double

end FlowPlan
