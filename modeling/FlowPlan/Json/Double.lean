/-!
# Json — doubles

Finite binary floating-point numbers of sixty-four bits, held as their bit pattern and computed in
exact natural-number arithmetic.  A magnitude is `m · 2^(e - 1074)`; its pattern is the number
`e · 2^52 + m`, so patterns are ordered as the magnitudes are, and a significand that is rounded up
to the next power of two carries into the exponent by itself.  There is no pattern of an infinity or
of what is no number.

* `nearestPattern`: the pattern nearest to a quotient of naturals, ties to the even one; `nearest?`:
  the same, if it is finite.
* `Double.ofScaled?`: a decimal significand times a power of ten.  Significand, power and result
  are each rounded once, which is how decimal text is read here.
* `Double.shortest`: the fewest decimal digits that lie nearer to the number than to any other,
  and of those the nearest.
* `Double.text`: the written form, positional between `1e-5` and `1e16` and scientific outside.
-/

namespace FlowPlan

/-- The first magnitude pattern that is not finite. -/
def Double.infinitePattern : Nat :=
  2047 * Nat.pow 2 52

/-- A finite binary floating-point number, as its sixty-four bits. -/
@[ext]
structure Double where
  bits : UInt64
  /-- Without the sign bit, the bits are the pattern of a finite magnitude. -/
  finite : bits.toNat % Nat.pow 2 63 < Double.infinitePattern
  deriving DecidableEq

instance : Inhabited Double :=
  ⟨⟨0, by decide⟩⟩

namespace Double

/-! ### Magnitudes -/

/-- The pattern of a finite magnitude. -/
abbrev Magnitude := { pattern : Nat // pattern < infinitePattern }

/-- The number of times that one holds the least magnitude other than zero. -/
@[irreducible]
def unit : Nat :=
  Nat.pow 2 1074

/-- The significand and the exponent of a magnitude pattern. -/
def parts (pattern : Nat) : Nat × Nat :=
  if pattern < Nat.pow 2 52 then (pattern, 0)
  else (pattern % Nat.pow 2 52 + Nat.pow 2 52, pattern / Nat.pow 2 52 - 1)

/-- The quotient to the nearest natural number, a tie to the even one. -/
def roundQuotient (num den : Nat) : Nat :=
  let q := num / den
  let twice := 2 * (num % den)
  if twice < den ∨ (twice = den ∧ q % 2 = 0) then q else q + 1

/-- The pattern nearest to `num / den`. -/
def nearestPattern (num den : Nat) : Nat :=
  let scaled := num * unit
  let e := (scaled / den).log2 - 52
  e * Nat.pow 2 52 + roundQuotient scaled (den * Nat.pow 2 e)

/-- The magnitude nearest to `num / den`, and `none` where that is not finite. -/
def nearest? (num den : Nat) : Option Magnitude :=
  if h : nearestPattern num den < infinitePattern then some ⟨nearestPattern num den, h⟩ else none

/-- The magnitude nearest to the product of two. -/
def product? (x y : Magnitude) : Option Magnitude :=
  let (m, e) := parts x
  let (n, f) := parts y
  nearest? (m * n * Nat.pow 2 (e + f)) (unit * unit)

/-- The magnitude nearest to the quotient of two. -/
def quotient? (x y : Magnitude) : Option Magnitude :=
  let (m, e) := parts x
  let (n, f) := parts y
  nearest? (m * Nat.pow 2 e) (n * Nat.pow 2 f)

/-! ### From decimal -/

/-- The magnitude `x · 10^exponent`.  A power below `1e-308` is divided off in steps, at most
`steps` times, after which nothing is left of a decimal significand. -/
def scale? (x : Magnitude) (exponent : Int) : (steps : Nat) → Option Magnitude
  | 0 => some ⟨0, by decide⟩
  | steps + 1 =>
    if exponent.natAbs ≤ 308 then do
      let power ← nearest? (Nat.pow 10 exponent.natAbs) 1
      if 0 ≤ exponent then product? x power else quotient? x power
    else if x.val = 0 then some x
    else if 0 < exponent then none
    else do
      let power ← nearest? (Nat.pow 10 308) 1
      let rest ← quotient? x power
      scale? rest (exponent + 308) steps

/-- The bits of a magnitude with a sign bit, without the sign bit. -/
theorem toNat_ofNat_mod (negative : Bool) (x : Magnitude) :
    (UInt64.ofNat (if negative then Nat.pow 2 63 + x else x)).toNat % Nat.pow 2 63 = x := by
  have below : x.val < Nat.pow 2 63 := Nat.lt_trans x.property (by decide)
  cases negative <;> simp only [UInt64.toNat_ofNat', Nat.pow_eq] at below ⊢ <;> grind

/-- A number from its sign and its magnitude. -/
def ofMagnitude (negative : Bool) (x : Magnitude) : Double :=
  ⟨UInt64.ofNat (if negative then Nat.pow 2 63 + x else x),
    by rw [toNat_ofNat_mod]; exact x.property⟩

/-- The number `± significand · 10^exponent`, and `none` where it is not finite. -/
def ofScaled? (negative : Bool) (significand : Nat) (exponent : Int) : Option Double := do
  let x ← nearest? significand 1
  let x ← scale? x exponent 4
  some (ofMagnitude negative x)

/-! ### To decimal -/

/-- The sign bit. -/
def negative (x : Double) : Bool :=
  Nat.pow 2 63 ≤ x.bits.toNat

/-- The pattern of the magnitude. -/
def pattern (x : Double) : Nat :=
  x.bits.toNat % Nat.pow 2 63

/-- The interval of the quantities that round to the magnitude `pattern`: its ends in halves of the
least magnitude, and whether they belong to it. -/
def roundingInterval (pattern : Nat) : Nat × Nat × Bool :=
  let (m, e) := parts pattern
  let centre := m * Nat.pow 2 (e + 1)
  let above := Nat.pow 2 e
  -- below a power of two the grid is twice as fine
  let below := if m = Nat.pow 2 52 ∧ 0 < e then Nat.pow 2 (e - 1) else Nat.pow 2 e
  (centre - below, centre + above, m % 2 = 0)

/-- A power of ten, as a quotient. -/
def powerOfTen (exponent : Int) : Nat × Nat :=
  (Nat.pow 10 exponent.toNat, Nat.pow 10 (-exponent).toNat)

/-- The decimal exponent `k` with `10^(k-1) ≤ num / den < 10^k`, searched upwards from `start`. -/
def decimalExponent (num den : Nat) (start : Int) : (steps : Nat) → Int
  | 0 => start
  | steps + 1 =>
    let (up, down) := powerOfTen start
    if num * down < den * up then start else decimalExponent num den (start + 1) steps

/-- Whether the quotient `num / den` rounds to a magnitude. -/
def isRoundedTo (pattern num den : Nat) : Bool :=
  let (low, high, closed) := roundingInterval pattern
  let halves := num * (2 * unit)
  if closed then low * den ≤ halves && halves ≤ high * den
  else low * den < halves && halves < high * den

/-- The natural numbers next to a quotient, the nearer one first, and of a tie the even one. -/
def neighbours (num den : Nat) : List Nat :=
  let n := num / den
  let twice := 2 * (num % den)
  if twice < den ∨ (twice = den ∧ n % 2 = 0) then [n, n + 1] else [n + 1, n]

/-- The decimal of the grid of `10^exponent` nearest to `pattern`'s magnitude among those that
round to it, ties to the even one. -/
def onGrid? (pattern : Nat) (exponent : Int) : Option Nat :=
  let (m, e) := parts pattern
  let (up, down) := powerOfTen exponent
  -- the magnitude is `num / den` steps of the grid
  (neighbours (m * Nat.pow 2 e * down) (unit * up)).find? fun n =>
    isRoundedTo pattern (n * up) down

/-- Tries grids that are ten times finer each, from the one of `10^exponent`. -/
def shortestFrom (pattern : Nat) (exponent : Int) : (steps : Nat) → Nat × Int
  | 0 => (0, 0)
  | steps + 1 =>
    match onGrid? pattern exponent with
    | some n => (n, exponent)
    | none => shortestFrom pattern (exponent - 1) steps

/-- The decimal without its last digit, if that is a zero. -/
def dropZero (d : Nat × Int) : Nat × Int :=
  if d.1 % 10 = 0 then (d.1 / 10, d.2 + 1) else d

/-- The shortest decimal `n · 10^k` that rounds to a magnitude other than zero. -/
def shortest (pattern : Nat) : Nat × Int :=
  let (m, e) := parts pattern
  let num := m * Nat.pow 2 e
  -- the decimal exponent as the binary one gives it, from below
  let start : Int := ((num.log2 : Int) - 1074) * 301 / 1000 - 1
  let k := decimalExponent num unit start 8
  -- a round-up to the next power of ten is one digit again
  dropZero (shortestFrom pattern (k - 1) 18)

/-- The digits `ds` with the decimal point `point` places after the first of them. -/
def layout (ds : List Char) (point : Int) : List Char :=
  let n : Int := ds.length
  if n ≤ point ∧ point ≤ 16 then
    ds ++ List.replicate (point - n).toNat '0' ++ ['.', '0']
  else if 0 < point ∧ point ≤ 16 then
    ds.take point.toNat ++ '.' :: ds.drop point.toNat
  else if -5 < point ∧ point ≤ 0 then
    '0' :: '.' :: List.replicate (-point).toNat '0' ++ ds
  else
    let power := point - 1
    let mark := if power < 0 then ['e', '-'] else ['e', '+']
    let fraction := if ds.length ≤ 1 then [] else '.' :: ds.drop 1
    ds.take 1 ++ fraction ++ mark ++ Nat.toDigits 10 power.natAbs

/-- The written form of a number. -/
def text (x : Double) : List Char :=
  let sign := if x.negative then ['-'] else []
  if x.pattern = 0 then sign ++ ['0', '.', '0']
  else
    let (n, exponent) := shortest x.pattern
    let ds := Nat.toDigits 10 n
    sign ++ layout ds (ds.length + exponent)

end Double

end FlowPlan
