import FlowPlan.Flow.Bounds
import FlowPlan.Proofs.Results
import FlowPlan.Proofs.Text.Numerals

/-!
# Text — integers within bounds

What `IntegerBounds.parse` accepts, and what it gives.  The lower bound is tested on the magnitude
behind a minus and the upper one on a numeral without a sign; where the bounds lie on both sides of
zero this is the test that the integer is within them (`parse_eq_ok_iff`).
-/

namespace FlowPlan

open Text

/-! ### Blanks around a numeral -/

theorem Text.isBlank_eq_false_of_isDigit {c : Char} (digit : c.isDigit) : isBlank c = false := by
  have range : 48 ≤ c.toNat ∧ c.toNat ≤ 57 := by
    simpa [Char.isDigit, UInt32.le_iff_toNat_le] using digit
  rw [isBlank, List.any_eq_false]
  simp only [blankRanges, List.forall_mem_cons, Bool.and_eq_true, decide_eq_true_eq]
  refine ⟨?_, ?_, ?_, ?_, ?_, ?_, ?_, ?_, ?_, ?_, by simp⟩ <;> omega

/-- A numeral neither starts nor ends with a blank. -/
theorem Text.Denotes.trim_eq {cs : List Char} {v : Int} (h : Denotes cs v) : trim cs = cs := by
  have blank {ds : List Char} (digits : IsDigits ds) (c : Char) (mem : c ∈ ds) :
      isBlank c = false := isBlank_eq_false_of_isDigit (digits.2 c mem)
  cases h with
  | unsigned digits =>
    exact trim_eq_self (fun c mem => blank digits c (List.mem_of_mem_head? mem))
      fun c mem => blank digits c (List.mem_of_mem_getLast? mem)
  | @negated ds digits =>
    refine trim_eq_self (by simp; decide) fun c mem => blank digits c ?_
    rw [List.getLast?_cons_of_ne_nil digits.1] at mem
    exact List.mem_of_mem_getLast? mem

namespace IntegerBounds

variable {b : IntegerBounds}

/-- The integer is within the bounds. -/
def Contains (b : IntegerBounds) (v : Int) : Prop :=
  b.min ≤ v ∧ v ≤ b.max

/-! ### Parsing -/

theorem readMagnitude_eq_ok_iff {cs : List Char} {n : Nat} :
    readMagnitude cs = .ok n ↔
      IsDigits cs ∧ Nat.ofDigitChars 10 cs 0 = n ∧ n < Nat.pow 2 128 := by
  by_cases signed : cs.head? = some '+'
  · obtain ⟨ds, rfl⟩ := List.head?_eq_some_iff.1 signed
    rw [readMagnitude, if_pos signed]
    simp only [reduceCtorEq, false_iff, not_and]
    intro digits
    exact absurd rfl (digits.ne_cons_of_isDigit_eq_false (by decide))
  · have unsigned (ds : List Char) : cs ≠ '+' :: ds := fun same => signed (same ▸ rfl)
    have read : readMagnitude cs = .ok n ↔ readNatural (Nat.pow 2 128) cs = .ok n := by
      rw [readMagnitude, if_neg signed]
      cases readNatural (Nat.pow 2 128) cs <;> simp [Except.mapError]
    rw [read, readNatural_eq_ok_iff (by decide)]
    simp [unsigned]

/-- Behind a minus the magnitude is tested against the lower bound. -/
theorem parseNegative_eq_ok_iff {cs out : List Char} (h : b.min ≤ 0) :
    b.parseNegative cs = .ok out ↔
      IsDigits cs ∧ b.Contains (-(Nat.ofDigitChars 10 cs 0 : Int)) ∧
        integer (-(Nat.ofDigitChars 10 cs 0 : Int)) = out := by
  have room : Nat.pow 2 127 < Nat.pow 2 128 := by decide
  have least := b.min_ge
  rw [parseNegative, bind_eq_ok_iff]
  simp only [readMagnitude_eq_ok_iff, Contains]
  generalize Nat.ofDigitChars 10 cs 0 = m
  by_cases zero : m = 0
  · subst zero
    have written : integer (-((0 : Nat) : Int)) = natural 0 := integer_ofNat 0
    constructor
    · rintro ⟨n, ⟨digits, rfl, -⟩, done⟩
      rw [if_pos rfl, Except.ok.injEq] at done
      exact ⟨digits, ⟨by omega, by omega⟩, written.trans done⟩
    · rintro ⟨digits, -, rfl⟩
      exact ⟨0, ⟨digits, rfl, by decide⟩, by rw [if_pos rfl, written]⟩
  · constructor
    · rintro ⟨n, ⟨digits, rfl, -⟩, done⟩
      by_cases below : b.min.natAbs < m ∨ b.min = 0
      · rw [if_neg zero, if_pos below] at done
        cases done
      · rw [if_neg zero, if_neg below, Except.ok.injEq] at done
        exact ⟨digits, ⟨by omega, by omega⟩, done⟩
    · rintro ⟨digits, within, rfl⟩
      have above : ¬(b.min.natAbs < m ∨ b.min = 0) := by omega
      exact ⟨m, ⟨digits, rfl, by omega⟩, by rw [if_neg zero, if_neg above]⟩

/-- Without a sign the number is tested against the upper bound. -/
theorem parsePositive_eq_ok_iff {cs out : List Char} (h : b.min ≤ 0) :
    b.parsePositive cs = .ok out ↔
      IsDigits cs ∧ b.Contains (Nat.ofDigitChars 10 cs 0) ∧
        integer (Nat.ofDigitChars 10 cs 0) = out := by
  have greatest := b.max_lt
  rw [parsePositive, bind_eq_ok_iff]
  simp only [readMagnitude_eq_ok_iff, Contains, integer_ofNat]
  generalize Nat.ofDigitChars 10 cs 0 = m
  constructor
  · rintro ⟨n, ⟨digits, rfl, -⟩, done⟩
    by_cases above : b.max < m
    · rw [if_pos above] at done
      cases done
    · rw [if_neg above, Except.ok.injEq] at done
      exact ⟨digits, ⟨by omega, by omega⟩, done⟩
  · rintro ⟨digits, within, rfl⟩
    exact ⟨m, ⟨digits, rfl, by omega⟩, if_neg (by omega)⟩

theorem parseTrimmed_eq_ok_iff {cs out : List Char} (h : b.min ≤ 0) :
    b.parseTrimmed cs = .ok out ↔ ∃ v, Denotes cs v ∧ b.Contains v ∧ integer v = out := by
  by_cases negative : ∃ ds, cs = '-' :: ds
  · obtain ⟨ds, rfl⟩ := negative
    rw [parseTrimmed, parseNegative_eq_ok_iff h]
    constructor
    · rintro ⟨digits, done⟩
      exact ⟨_, .negated digits, done⟩
    · rintro ⟨_, denotes, done⟩
      cases denotes with
      | unsigned digits => exact absurd rfl (digits.ne_cons_of_isDigit_eq_false (by decide))
      | negated digits => exact ⟨digits, done⟩
  · have other (ds : List Char) (same : cs = '-' :: ds) : False := negative ⟨ds, same⟩
    rw [parseTrimmed.eq_2 b cs other, parsePositive_eq_ok_iff h]
    constructor
    · rintro ⟨digits, done⟩
      exact ⟨_, .unsigned digits, done⟩
    · rintro ⟨_, denotes, done⟩
      cases denotes with
      | unsigned digits => exact ⟨digits, done⟩
      | negated => exact (other _ rfl).elim

/-- **Parsing accepts the texts that denote an integer within the bounds**, blanks at both ends apart,
and gives the decimal form of the integer. -/
theorem parse_eq_ok_iff {text out : String} (h : b.min ≤ 0) :
    b.parse text = .ok out ↔
      ∃ v, Denotes (trim text.toList) v ∧ b.Contains v ∧ toString v = out := by
  rw [parse, map_eq_ok_iff]
  simp only [parseTrimmed_eq_ok_iff h]
  constructor
  · rintro ⟨_, ⟨v, denotes, within, rfl⟩, rfl⟩
    exact ⟨v, denotes, within, (ofList_integer v).symm⟩
  · rintro ⟨v, denotes, within, rfl⟩
    exact ⟨_, ⟨v, denotes, within, rfl⟩, ofList_integer v⟩

theorem isCanonical_of_parse {text out : String} (h : b.min ≤ 0) (parsed : b.parse text = .ok out) :
    IsCanonical out.toList := by
  obtain ⟨v, -, -, rfl⟩ := (parse_eq_ok_iff h).1 parsed
  rw [← ofList_integer, String.toList_ofList]
  exact isCanonical_integer v

/-- Texts with one result denote one integer. -/
theorem parse_agree_iff {text other out out' : String} (h : b.min ≤ 0)
    (parsed : b.parse text = .ok out) (parsed' : b.parse other = .ok out') :
    out = out' ↔ ∃ v, Denotes (trim text.toList) v ∧ Denotes (trim other.toList) v := by
  obtain ⟨v, denotes, -, rfl⟩ := (parse_eq_ok_iff h).1 parsed
  obtain ⟨w, denotes', -, rfl⟩ := (parse_eq_ok_iff h).1 parsed'
  constructor
  · intro same
    rw [← ofList_integer, ← ofList_integer, String.ofList_inj] at same
    have equal : v = w := (denotes_integer v).unique (same ▸ denotes_integer w)
    exact ⟨v, denotes, equal ▸ denotes'⟩
  · rintro ⟨u, first, second⟩
    rw [denotes.unique first, denotes'.unique second]

/-- What parsing gives, it gives again. -/
theorem parse_idempotent {text out : String} (h : b.min ≤ 0) (parsed : b.parse text = .ok out) :
    b.parse out = .ok out := by
  obtain ⟨v, -, within, rfl⟩ := (parse_eq_ok_iff h).1 parsed
  refine (parse_eq_ok_iff h).2 ⟨v, ?_, within, rfl⟩
  have written := denotes_integer v
  rwa [← ofList_integer, String.toList_ofList, written.trim_eq]

end IntegerBounds

/-! ### The types of integers -/

/-- An integer type of so many bits is read within the bounds of its words. -/
theorem ParamType.bounds?_eq_some_iff {t : ParamType} {b : IntegerBounds} :
    t.bounds? = some b ↔ ∃ w : Width,
      t = .scalar (.signed w) ∧ b.min = -(Nat.pow 2 (w.bits - 1) : Int) ∧
          (b.max : Int) = Nat.pow 2 (w.bits - 1) - 1 ∨
        t = .scalar (.unsigned w) ∧ b.min = 0 ∧ (b.max : Int) = Nat.pow 2 w.bits - 1 := by
  have pos (n : Nat) : 0 < Nat.pow 2 n := Nat.two_pow_pos n
  constructor
  · intro h
    match t with
    | .scalar (.signed w) =>
      cases h
      have := pos (w.bits - 1)
      exact ⟨w, .inl ⟨rfl, rfl, by simp only [IntegerBounds.signed]; omega⟩⟩
    | .scalar (.unsigned w) =>
      cases h
      have := pos w.bits
      exact ⟨w, .inr ⟨rfl, rfl, by simp only [IntegerBounds.unsigned]; omega⟩⟩
    | .scalar .unit | .scalar .bool | .scalar .string | .vec _ | .tuple _ | .other _ => cases h
  · rintro ⟨w, ⟨rfl, least, greatest⟩ | ⟨rfl, least, greatest⟩⟩
    · have := pos (w.bits - 1)
      have same : b = .signed w := by
        cases b
        rw [IntegerBounds.signed, IntegerBounds.mk.injEq]
        exact ⟨least, by simp only at greatest; omega⟩
      rw [same, bounds?]
    · have := pos w.bits
      have same : b = .unsigned w := by
        cases b
        rw [IntegerBounds.unsigned, IntegerBounds.mk.injEq]
        exact ⟨least, by simp only at greatest; omega⟩
      rw [same, bounds?]

/-- A type of integers reads what its bounds accept, and keeps it as a text. -/
theorem ParamType.value_read {t : ParamType} {b : IntegerBounds} (bounds : t.bounds? = some b)
    {text : String} {x : Value} :
    (t.read text).value = some x ↔ ∃ out, b.parse text = .ok out ∧ .text out = x := by
  rw [read, bounds]
  cases parsed : b.parse text <;>
    simp [StoredValue.value, StoredValue.ok, StoredValue.failed, parsed]

namespace IntegerBounds

/-- **Within bounds on both sides of zero, exactly the texts of integers are accepted**: between blanks
an optional minus and digits, which denote an integer from the lower to the upper bound.  The result
is the decimal form of the integer, without leading zeros and without a minus on zero; so two texts
have one result exactly if they denote one integer, and a result is its own result.  The bounds of a
type are those of a word of its bits, and the type keeps what they accept. -/
theorem parse_exact (b : IntegerBounds) (h : b.min ≤ 0) :
    (∀ text out, b.parse text = .ok out ↔
      ∃ v : Int, Denotes (trim text.toList) v ∧ (b.min ≤ v ∧ v ≤ b.max) ∧ toString v = out) ∧
    (∀ cs ds, trim cs = ds ↔
      (∃ front back, cs = front ++ ds ++ back ∧ (∀ c ∈ front, isBlank c) ∧
        ∀ c ∈ back, isBlank c) ∧
      (∀ c ∈ ds.head?, isBlank c = false) ∧ ∀ c ∈ ds.getLast?, isBlank c = false) ∧
    (∀ text out, b.parse text = .ok out → IsCanonical out.toList ∧ b.parse out = .ok out) ∧
    (∀ text other out out', b.parse text = .ok out → b.parse other = .ok out' →
      (out = out' ↔ ∃ v, Denotes (trim text.toList) v ∧ Denotes (trim other.toList) v)) ∧
    (∀ (t : ParamType) c, t.bounds? = some c ↔ ∃ w : Width,
      t = .scalar (.signed w) ∧ c.min = -(Nat.pow 2 (w.bits - 1) : Int) ∧
          (c.max : Int) = Nat.pow 2 (w.bits - 1) - 1 ∨
        t = .scalar (.unsigned w) ∧ c.min = 0 ∧ (c.max : Int) = Nat.pow 2 w.bits - 1) ∧
    ∀ (t : ParamType) c, t.bounds? = some c → ∀ text x,
      ((t.read text).value = some x ↔ ∃ out, c.parse text = .ok out ∧ .text out = x) :=
  ⟨fun _ _ => parse_eq_ok_iff h, fun _ _ => trim_eq_iff,
    fun _ _ parsed => ⟨isCanonical_of_parse h parsed, parse_idempotent h parsed⟩,
    fun _ _ _ _ => parse_agree_iff h, fun _ _ => ParamType.bounds?_eq_some_iff,
    fun _ _ bounds _ _ => ParamType.value_read bounds⟩

/-- The least integer of a hundred and twenty-eight bits, which has no positive counterpart, behind
zeros and between blanks. -/
theorem least_parse_exact :
    (signed .w128).min ≤ 0 ∧
      (signed .w128).parse "\u2003-00170141183460469231731687303715884105728\n" =
        .ok "-170141183460469231731687303715884105728" ∧
      (signed .w128).parse "-170141183460469231731687303715884105728" =
        .ok "-170141183460469231731687303715884105728" := by
  have least : (signed .w128).min ≤ 0 := by decide
  have parsed : (signed .w128).parse "\u2003-00170141183460469231731687303715884105728\n" =
      .ok "-170141183460469231731687303715884105728" := by decide +kernel
  exact ⟨least, parsed, ((parse_exact _ least).2.2.1 _ _ parsed).2⟩

end IntegerBounds

end FlowPlan
