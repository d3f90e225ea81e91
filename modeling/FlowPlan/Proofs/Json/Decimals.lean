import Mathlib.Algebra.Order.Field.Rat
import Mathlib.Tactic.FieldSimp
import Mathlib.Tactic.Linarith
import Mathlib.Tactic.NormNum
import Mathlib.Tactic.Positivity
import Mathlib.Tactic.Ring
import FlowPlan.Proofs.Json.Rounding

/-!
# Json — decimals

That the shortest decimal of a magnitude is rounded to it again.  The search goes to ever finer
grids, the powers of ten, and takes the first on which a decimal lies in the rounding interval.  It
comes to an end: of seventeen digits, the decimal nearest to the magnitude is nearer to it than the
ends of the interval (`roundsTo_roundQuotient`).  Distances are told in rational numbers: a magnitude
is its significand times its `spacing`.

* `exists_onGrid?`: on a grid that is fine enough there is a decimal.
* `onGrid?_shortestFrom`: the search takes one that is on its grid.
* `roundsTo_shortest`: what it takes is rounded to the magnitude.
-/

namespace FlowPlan

namespace Double

variable {p : Nat} {k : Int} {v : ℚ}

/-- The distance between a magnitude and the next. -/
def spacing (p : Nat) : ℚ :=
  2 ^ (parts p).2 / unit

/-- The number that a magnitude is. -/
def quantity (p : Nat) : ℚ :=
  (parts p).1 * spacing p

theorem spacing_pos (p : Nat) : 0 < spacing p :=
  div_pos (by positivity) (Nat.cast_pos.2 unit_pos)

/-- A power of ten as a quotient, whatever its sign. -/
theorem zpow_eq_div (k : Int) : (10 : ℚ) ^ k = (10 ^ k.toNat : Nat) / (10 ^ (-k).toNat : Nat) := by
  rcases Int.le_total 0 k with nonneg | nonpos
  · obtain ⟨n, rfl⟩ := Int.eq_ofNat_of_zero_le nonneg
    simp
  · obtain ⟨n, rfl⟩ : ∃ n : Nat, k = -n := ⟨(-k).toNat, by omega⟩
    simp

/-- The rounding interval of a magnitude does not reach below zero. -/
theorem gapBelow_le {m e : Nat} (pos : 0 < m) :
    (if m = 2 ^ 52 ∧ 0 < e then 2 ^ (e - 1) else 2 ^ e) ≤ m * 2 ^ (e + 1) := by
  have finer : 2 ^ (e - 1) ≤ 2 ^ e := Nat.pow_le_pow_right two_pos (Nat.sub_le e 1)
  have most : 2 ^ e ≤ m * 2 ^ (e + 1) := by
    rw [pow_succ]
    nlinarith [Nat.two_pow_pos e]
  split <;> omega

/-- What is closer to a magnitude than half of its spacing is rounded to it; where the grid is finer
below the magnitude, it has to be closer than a quarter if it is below. -/
theorem roundsTo_of_near (pos : 0 < (parts p).1) (above : v - quantity p < spacing p / 2)
    (below : quantity p - v < if (parts p).1 = 2 ^ 52 then spacing p / 4 else spacing p / 2) :
    RoundsTo p v := by
  left
  -- Everything is counted in halves of the least magnitude, as the interval is.
  have posQ : (0 : ℚ) < 2 * unit := mul_pos two_pos (Nat.cast_pos.2 unit_pos)
  have step : spacing p * (2 * unit) = 2 * 2 ^ (parts p).2 := by
    have ne : (unit : ℚ) ≠ 0 := (Nat.cast_pos.2 unit_pos).ne'
    rw [spacing]
    field_simp
  have centre : quantity p * (2 * unit) = (parts p).1 * (2 * 2 ^ (parts p).2) := by
    rw [quantity, mul_assoc, step]
  have above := mul_lt_mul_of_pos_right above posQ
  have below := mul_lt_mul_of_pos_right below posQ
  simp only [roundingInterval, Nat.pow_eq]
  generalize (parts p).1 = m at *
  generalize (parts p).2 = e at *
  rw [sub_mul, centre] at above below
  have half : spacing p / 2 * (2 * unit) = 2 ^ e := by linarith
  have quarter : spacing p / 4 * (2 * unit) = 2 ^ e / 2 := by linarith
  rw [half] at above
  have power : (0 : ℚ) < 2 ^ e := by positivity
  constructor
  · have least : (m * (2 * 2 ^ e) - v * (2 * unit) : ℚ) <
        ((if m = 2 ^ 52 ∧ 0 < e then 2 ^ (e - 1) else 2 ^ e : Nat) : ℚ) := by
      split at below
      · rw [quarter] at below
        split
        · next finer =>
          obtain ⟨f, rfl⟩ : ∃ f, e = f + 1 := ⟨e - 1, by omega⟩
          rw [pow_succ] at below ⊢
          push_cast [Nat.add_sub_cancel]
          linarith
        · push_cast
          linarith
      · next other =>
        rw [half] at below
        rw [if_neg (by tauto)]
        push_cast
        linarith
    rw [Nat.cast_sub (gapBelow_le pos)]
    push_cast at least ⊢
    rw [pow_succ]
    linarith
  · push_cast
    rw [pow_succ]
    linarith

/-- What is checked on a grid is that the quotient is rounded to the magnitude. -/
theorem isRoundedTo_iff {num den : Nat} (pos : 0 < den) :
    isRoundedTo p num den ↔ RoundsTo p (num / den) := by
  have posQ : (0 : ℚ) < den := Nat.cast_pos.2 pos
  have scaled : (num / den : ℚ) * (2 * unit) = (num * (2 * unit) : Nat) / den := by
    push_cast
    ring
  rw [RoundsTo, scaled, lt_div_iff₀ posQ, div_lt_iff₀ posQ, le_div_iff₀ posQ, div_le_iff₀ posQ,
    isRoundedTo]
  generalize num * (2 * unit) = halves
  simp only [← Nat.cast_mul, Nat.cast_lt, Nat.cast_le]
  split <;> simp_all
  intro low high
  exact ⟨low.le, high.le⟩

/-- What is found on a grid is rounded to the magnitude. -/
theorem roundsTo_of_onGrid? {n : Nat} (found : onGrid? p k = some n) :
    RoundsTo p (n * 10 ^ k) := by
  have inside := List.find?_some found
  have pos : 0 < Nat.pow 10 (-k).toNat := Nat.pow_pos (by decide)
  rw [isRoundedTo_iff pos] at inside
  rwa [zpow_eq_div, ← mul_div_assoc, ← Nat.cast_mul]

/-- The quantity of a magnitude, in steps of a grid. -/
theorem quantity_eq (p : Nat) (k : Int) :
    quantity p = ((parts p).1 * 2 ^ (parts p).2 * 10 ^ (-k).toNat : Nat) /
      (unit * 10 ^ k.toNat : Nat) * 10 ^ k := by
  have ne : (unit : ℚ) ≠ 0 := (Nat.cast_pos.2 unit_pos).ne'
  rw [zpow_eq_div, quantity, spacing]
  push_cast
  field_simp

/-- A quotient is rounded by a half at most. -/
theorem roundQuotient_near (num : Nat) {den : Nat} (pos : 0 < den) :
    |(roundQuotient num den : ℚ) - num / den| ≤ 1 / 2 := by
  have near : 2 * num ≤ 2 * (den * roundQuotient num den) + den ∧
      2 * (den * roundQuotient num den) ≤ 2 * num + den := by
    have split := Nat.div_add_mod num den
    have rest := Nat.mod_lt num pos
    simp only [roundQuotient]
    split
    · omega
    · rw [Nat.mul_add]
      omega
  have posQ : (0 : ℚ) < den := Nat.cast_pos.2 pos
  have low : (2 * num : ℚ) ≤ 2 * (den * roundQuotient num den) + den := by exact_mod_cast near.1
  have high : (2 * (den * roundQuotient num den) : ℚ) ≤ 2 * num + den := by exact_mod_cast near.2
  have le : (num / den : ℚ) ≤ roundQuotient num den + 1 / 2 := by
    rw [div_le_iff₀ posQ]
    linarith
  have ge : (roundQuotient num den - 1 / 2 : ℚ) ≤ num / den := by
    rw [le_div_iff₀ posQ]
    linarith
  rw [abs_le]
  constructor <;> linarith

/-- On a grid that is fine enough, the decimal nearest to a magnitude is rounded to it. -/
theorem roundsTo_roundQuotient {num den : Nat} (pos : 0 < (parts p).1) (posDen : 0 < den)
    (steps : quantity p = num / den * 10 ^ k) (fine : 10 ^ k * 10 ^ 16 ≤ quantity p) :
    RoundsTo p (roundQuotient num den * 10 ^ k) := by
  have half := abs_le.1 (roundQuotient_near num posDen)
  have grid : (0 : ℚ) < 10 ^ k := zpow_pos (by norm_num) k
  have above := mul_le_mul_of_nonneg_right half.2 grid.le
  have below := mul_le_mul_of_nonneg_right half.1 grid.le
  rw [sub_mul, ← steps] at above below
  rw [quantity] at fine
  -- `2 ^ 53` is less than `10 ^ 16`.
  have finer : (10 ^ k : ℚ) < spacing p := by
    have significand : ((parts p).1 : ℚ) < 2 ^ 53 := by exact_mod_cast (parts_spec p).2.1
    have most := mul_lt_mul_of_pos_right significand (spacing_pos p)
    linarith
  apply roundsTo_of_near pos
  · linarith
  · split
    · next power =>
      rw [power] at fine
      push_cast at fine
      linarith
    · linarith

/-- The nearest number is one of the two that are tried. -/
theorem roundQuotient_mem_neighbours (num den : Nat) :
    roundQuotient num den ∈ neighbours num den := by
  unfold roundQuotient neighbours
  dsimp only
  split <;> simp

/-- **A grid that is fine enough has a decimal that is rounded to the magnitude.** -/
theorem exists_onGrid? (pos : 0 < (parts p).1) (fine : 10 ^ k * 10 ^ 16 ≤ quantity p) :
    ∃ n, onGrid? p k = some n := by
  have posUp : 0 < unit * 10 ^ k.toNat := Nat.mul_pos unit_pos (Nat.pow_pos (by decide))
  have posDown : 0 < Nat.pow 10 (-k).toNat := Nat.pow_pos (by decide)
  have near := roundsTo_roundQuotient pos posUp (quantity_eq p k) fine
  rw [zpow_eq_div, ← mul_div_assoc, ← Nat.cast_mul] at near
  exact Option.isSome_iff_exists.1 (List.find?_isSome.2
    ⟨_, roundQuotient_mem_neighbours _ _, (isRoundedTo_iff posDown).2 near⟩)

/-! ### The search -/

/-- The search for a decimal exponent keeps a power of ten that is not above the quotient. -/
theorem le_of_decimalExponent {num den : Nat} (pos : 0 < den) {start : Int} (steps : Nat)
    (below : (10 : ℚ) ^ (start - 1) ≤ num / den) :
    (10 : ℚ) ^ (decimalExponent num den start steps - 1) ≤ num / den := by
  induction steps generalizing start with
  | zero => exact below
  | succ steps ih =>
    have step : decimalExponent num den start (steps + 1) =
      if num * 10 ^ (-start).toNat < den * 10 ^ start.toNat then start
      else decimalExponent num den (start + 1) steps := rfl
    rw [step]
    split
    · exact below
    · next under =>
      refine ih ?_
      have posQ : (0 : ℚ) < den := Nat.cast_pos.2 pos
      have reached : (den * 10 ^ start.toNat : ℚ) ≤ num * 10 ^ (-start).toNat := by
        exact_mod_cast Nat.not_lt.1 under
      rw [add_sub_cancel_right, zpow_eq_div, div_le_div_iff₀ (by positivity) posQ]
      push_cast
      linarith

/-- Two powers compare as their bases do at exponents of the same ratio. -/
theorem pow_le_pow_of_ratio {x y s t m n : Nat} (one : 1 ≤ x) (pos : t ≠ 0)
    (bases : x ^ s ≤ y ^ t) (exponents : t * m ≤ s * n) : x ^ m ≤ y ^ n := by
  rw [← Nat.pow_le_pow_iff_left pos]
  calc (x ^ m) ^ t = x ^ (t * m) := by ring
    _ ≤ x ^ (s * n) := Nat.pow_le_pow_right one exponents
    _ = (x ^ s) ^ n := by ring
    _ ≤ (y ^ t) ^ n := Nat.pow_le_pow_left bases n
    _ = (y ^ n) ^ t := by ring

/-- The binary exponent gives a decimal one whose power of ten is not above the power of two. -/
theorem zpow_le_two_zpow {b : Int} (least : -1074 ≤ b) :
    (10 : ℚ) ^ (b * 301 / 1000 - 1 - 1) ≤ 2 ^ b := by
  obtain ⟨a, floor⟩ : ∃ a, a = b * 301 / 1000 := ⟨_, rfl⟩
  rw [← floor]
  rcases Int.le_total 0 b with nonneg | nonpos
  · obtain ⟨n, rfl⟩ := Int.eq_ofNat_of_zero_le nonneg
    obtain ⟨m, rfl⟩ := Int.eq_ofNat_of_zero_le (by omega : 0 ≤ a)
    have powers : 10 ^ m ≤ 2 ^ n :=
      pow_le_pow_of_ratio (by decide) (by decide) (by decide : 10 ^ 59 ≤ 2 ^ 196) (by omega)
    calc (10 : ℚ) ^ ((m : Int) - 1 - 1) ≤ 10 ^ (m : Int) :=
          zpow_le_zpow_right₀ (by norm_num) (by omega)
      _ = 10 ^ m := zpow_natCast 10 m
      _ ≤ 2 ^ n := by exact_mod_cast powers
      _ = 2 ^ (n : Int) := (zpow_natCast 2 n).symm
  · obtain ⟨n, rfl⟩ : ∃ n : Nat, b = -n := ⟨b.natAbs, by omega⟩
    obtain ⟨m, decimal⟩ : ∃ m : Nat, a - 1 - 1 = -m := ⟨(2 - a).toNat, by omega⟩
    have powers : 2 ^ n ≤ 10 ^ m :=
      pow_le_pow_of_ratio (by decide) (by decide) (by decide : 2 ^ 93 ≤ 10 ^ 28) (by omega)
    rw [decimal, zpow_neg, zpow_neg, zpow_natCast, zpow_natCast]
    refine inv_anti₀ (by positivity) ?_
    exact_mod_cast powers

/-- The search ends on a grid with a decimal, if there is one within its steps. -/
theorem onGrid?_shortestFrom (steps : Nat) (found : ∃ n, onGrid? p (k - steps) = some n) :
    onGrid? p (shortestFrom p k (steps + 1)).2 = some (shortestFrom p k (steps + 1)).1 := by
  induction steps generalizing k with
  | zero =>
    obtain ⟨n, found⟩ := found
    have here : onGrid? p k = some n := by simpa using found
    simp only [shortestFrom, here]
  | succ steps ih =>
    cases here : onGrid? p k with
    | some n => simp only [shortestFrom, here]
    | none =>
      have next : shortestFrom p k (steps + 1 + 1) = shortestFrom p (k - 1) (steps + 1) := by
        simp only [shortestFrom, here]
      rw [next]
      refine ih ?_
      rwa [show k - 1 - steps = k - (steps + 1 : Nat) by push_cast; ring]

/-- Zero is rounded to no other magnitude. -/
theorem pos_of_roundsTo {n : Nat} (pos : 0 < (parts p).1) (rounds : RoundsTo p (n * 10 ^ k)) :
    0 < n := by
  rcases Nat.eq_zero_or_pos n with rfl | positive
  · have low : (roundingInterval p).1 = 0 := by
      rcases rounds with ⟨low, -⟩ | ⟨-, low, -⟩
      · exact absurd low (by simp)
      · simpa using low
    simp only [roundingInterval, Nat.pow_eq, pow_succ, ← Nat.mul_assoc] at low
    have := Nat.two_pow_pos (parts p).2
    have : 2 ^ ((parts p).2 - 1) ≤ 2 ^ (parts p).2 := Nat.pow_le_pow_right two_pos (Nat.sub_le _ 1)
    have : 2 ^ (parts p).2 ≤ (parts p).1 * 2 ^ (parts p).2 := Nat.le_mul_of_pos_left _ pos
    split at low <;> omega
  · exact positive

/-- A zero at the end can be dropped. -/
theorem dropZero_eq (d : Nat × Int) :
    ((dropZero d).1 * 10 ^ (dropZero d).2 : ℚ) = d.1 * 10 ^ d.2 := by
  rw [dropZero]
  split
  · next zero =>
    have whole : d.1 = d.1 / 10 * 10 := by omega
    rw [zpow_add_one₀ (by norm_num)]
    conv_rhs => rw [whole]
    push_cast
    ring
  · rfl

theorem unit_eq_zpow : (unit : ℚ) = 2 ^ (1074 : Int) := by
  unfold unit
  generalize same : 1074 = bits
  have exponent : (1074 : Int) = bits := by omega
  rw [exponent, Nat.pow_eq, Nat.cast_pow, zpow_natCast, Nat.cast_ofNat]

/-- A magnitude is not below the power of two that its significand begins with. -/
theorem two_zpow_le_quantity (pos : 0 < (parts p).1) :
    (2 : ℚ) ^ ((((parts p).1 * Nat.pow 2 (parts p).2).log2 : Int) - 1074) ≤ quantity p := by
  rw [Nat.pow_eq]
  have ne : (parts p).1 * 2 ^ (parts p).2 ≠ 0 := (Nat.mul_pos pos (Nat.two_pow_pos _)).ne'
  have power : (2 ^ ((parts p).1 * 2 ^ (parts p).2).log2 : ℚ) ≤ (parts p).1 * 2 ^ (parts p).2 := by
    exact_mod_cast Nat.log2_self_le ne
  rw [zpow_sub₀ (by norm_num), ← unit_eq_zpow, zpow_natCast, quantity, spacing, ← mul_div_assoc]
  exact div_le_div_of_nonneg_right power (Nat.cast_nonneg unit)

/-- **The shortest decimal is rounded to the magnitude**, for a magnitude other than zero. -/
theorem roundsTo_shortest (pos : 0 < (parts p).1) :
    0 < (shortest p).1 ∧ RoundsTo p ((shortest p).1 * 10 ^ (shortest p).2) := by
  have same : quantity p = ((parts p).1 * Nat.pow 2 (parts p).2 : Nat) / unit := by
    rw [quantity, spacing, Nat.pow_eq]
    push_cast
    ring
  have rounds : RoundsTo p ((shortest p).1 * 10 ^ (shortest p).2) := by
    simp only [shortest, dropZero_eq]
    refine roundsTo_of_onGrid? (onGrid?_shortestFrom 17 (exists_onGrid? pos ?_))
    have start := (zpow_le_two_zpow (by omega)).trans (two_zpow_le_quantity pos)
    rw [same] at start ⊢
    have below := le_of_decimalExponent unit_pos 8 start
    refine le_trans ?_ below
    rw [← zpow_natCast, ← zpow_add₀ (by norm_num)]
    exact zpow_le_zpow_right₀ (by norm_num) (by push_cast; omega)
  exact ⟨pos_of_roundsTo pos rounds, rounds⟩

end Double

end FlowPlan
