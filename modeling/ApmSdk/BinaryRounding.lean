import Mathlib.Data.Int.Log
import Mathlib.Data.Rat.Floor
import Mathlib.Tactic.FieldSimp
import Mathlib.Tactic.Linarith

namespace ApmSdk.BinaryRounding

/-!
# Rounding to a binary precision

Floating-point numbers as rationals: an operation takes its exact result to the nearest
number of some precision, and to the one with an even significand between two that are
equally near.  Nothing here overflows or underflows.  On numbers that are whole multiples
of one small unit the same rounding is one of integers.
-/

/-- The nearest integer, and the even one of two. -/
def roundHalfEven (value : ℚ) : ℤ :=
  let below := ⌊value⌋
  let rest := value - below
  if rest < 1 / 2 then below
  else if 1 / 2 < rest then below + 1
  else if below % 2 = 0 then below
  else below + 1

/-- The unit in the last place of a number. -/
def unitInLastPlace (precision : ℕ) (value : ℚ) : ℚ :=
  2 ^ (Int.log 2 |value| + 1 - precision)

/-- The nearest number of a precision. -/
def roundTo (precision : ℕ) (value : ℚ) : ℚ :=
  roundHalfEven (value / unitInLastPlace precision value) *
    unitInLastPlace precision value

/-- The nearest integer to a quotient of integers, and the even one of two. -/
def divideHalfEven (value : ℤ) (divisor : ℕ) : ℤ :=
  let below := value / divisor
  let rest := value % divisor
  if 2 * rest < divisor then below
  else if divisor < 2 * rest then below + 1
  else if below % 2 = 0 then below
  else below + 1

/-- The nearest integer with no more than some bits before the zeros at its end. -/
def roundBits (precision : ℕ) (value : ℤ) : ℤ :=
  divideHalfEven value (2 ^ (value.natAbs.log2 + 1 - precision)) *
    ((2 ^ (value.natAbs.log2 + 1 - precision) : ℕ) : ℤ)

/-- The rational with a count of units of `2 ^ -scale`. -/
def scaled (scale : ℕ) (units : ℤ) : ℚ :=
  units / 2 ^ scale

theorem roundHalfEven_intCast (value : ℤ) : roundHalfEven value = value := by
  have rest : (value : ℚ) - ((⌊(value : ℚ)⌋ : ℤ) : ℚ) < 1 / 2 := by
    rw [Int.floor_intCast, sub_self]
    exact one_half_pos
  unfold roundHalfEven
  dsimp only
  rw [if_pos rest, Int.floor_intCast]

theorem roundHalfEven_div
    (value : ℤ)
    {divisor : ℕ}
    (positive : 0 < divisor) :
    roundHalfEven (value / divisor) = divideHalfEven value divisor := by
  have divisorPos : (0 : ℚ) < divisor := Nat.cast_pos.mpr positive
  have rest :
      (value / divisor : ℚ) - ((value / (divisor : ℤ) : ℤ) : ℚ) =
        ((value % (divisor : ℤ) : ℤ) : ℚ) / divisor := by
    rw [Int.emod_def, Int.cast_sub, Int.cast_mul, Int.cast_natCast]
    field_simp
  have lower :
      ((value % (divisor : ℤ) : ℤ) : ℚ) / divisor < 1 / 2 ↔
        2 * (value % (divisor : ℤ)) < divisor := by
    rw [div_lt_iff₀ divisorPos, one_div, inv_mul_eq_div,
      lt_div_iff₀ two_pos, mul_comm]
    exact_mod_cast Iff.rfl
  have upper :
      1 / 2 < ((value % (divisor : ℤ) : ℤ) : ℚ) / divisor ↔
        (divisor : ℤ) < 2 * (value % (divisor : ℤ)) := by
    rw [lt_div_iff₀ divisorPos, one_div, inv_mul_eq_div,
      div_lt_iff₀ two_pos, mul_comm]
    exact_mod_cast Iff.rfl
  unfold roundHalfEven divideHalfEven
  simp only [Rat.floor_intCast_div_natCast, rest, lower, upper]

/-- A positive number between two consecutive powers of two. -/
theorem log_eq
    {value : ℚ}
    {exponent : ℤ}
    (lower : (2 : ℚ) ^ exponent ≤ value)
    (upper : value < 2 ^ (exponent + 1)) :
    Int.log 2 value = exponent := by
  have positive : 0 < value := (zpow_pos two_pos exponent).trans_le lower
  have above : exponent ≤ Int.log 2 value :=
    (Int.zpow_le_iff_le_log (b := 2) (by norm_num) positive).mp (by exact_mod_cast lower)
  have below : Int.log 2 value < exponent + 1 :=
    (Int.lt_zpow_iff_log_lt (b := 2) (by norm_num) positive).mp (by exact_mod_cast upper)
  omega

theorem log_scaled
    (scale : ℕ)
    {units : ℤ}
    (nonzero : units ≠ 0) :
    Int.log 2 |scaled scale units| = (units.natAbs.log2 : ℤ) - scale := by
  have absNonzero : units.natAbs ≠ 0 := Int.natAbs_ne_zero.mpr nonzero
  have magnitude : |scaled scale units| = (units.natAbs : ℚ) / 2 ^ scale := by
    unfold scaled
    rw [abs_div, abs_of_pos (by positivity : (0 : ℚ) < 2 ^ scale), Nat.cast_natAbs,
      Int.cast_abs]
  rw [magnitude]
  apply log_eq
  · rw [zpow_sub₀ two_ne_zero, zpow_natCast, zpow_natCast]
    gcongr
    exact_mod_cast Nat.log2_self_le absNonzero
  · have exponents :
        (units.natAbs.log2 : ℤ) - scale + 1 = ((units.natAbs.log2 + 1 : ℕ) : ℤ) - scale := by
      push_cast
      ring
    rw [exponents, zpow_sub₀ two_ne_zero, zpow_natCast, zpow_natCast]
    gcongr
    exact_mod_cast Nat.lt_log2_self

theorem divideHalfEven_one (value : ℤ) : divideHalfEven value 1 = value := by
  rw [← roundHalfEven_div value Nat.one_pos, Nat.cast_one, div_one,
    roundHalfEven_intCast]

theorem divideHalfEven_zero
    {divisor : ℕ}
    (positive : 0 < divisor) :
    divideHalfEven 0 divisor = 0 := by
  rw [← roundHalfEven_div 0 positive, Int.cast_zero, zero_div, ← Int.cast_zero,
    roundHalfEven_intCast]

/-- Multiples of a unit are rounded as the integers that count it. -/
theorem roundTo_scaled (precision scale : ℕ) (units : ℤ) :
    roundTo precision (scaled scale units) = scaled scale (roundBits precision units) := by
  by_cases zero : units = 0
  · subst zero
    have nothing : roundHalfEven 0 = 0 := by
      exact_mod_cast roundHalfEven_intCast 0
    unfold roundTo roundBits scaled
    rw [Int.cast_zero, zero_div, zero_div, nothing,
      divideHalfEven_zero (by positivity)]
    simp
  · have ulp :
        unitInLastPlace precision (scaled scale units) =
          2 ^ ((units.natAbs.log2 + 1 : ℕ) - (scale : ℤ) - precision) := by
      unfold unitInLastPlace
      rw [log_scaled scale zero]
      congr 1
      push_cast
      ring
    unfold roundTo roundBits
    rw [ulp]
    generalize units.natAbs.log2 + 1 = bits
    rcases le_total bits precision with short | long
    · -- The number has no more bits than fit, and is its own nearest one.
      obtain ⟨spare, rfl⟩ := Nat.exists_eq_add_of_le short
      have quotient :
          scaled scale units / 2 ^ ((bits : ℤ) - scale - (bits + spare : ℕ)) =
            ((units * 2 ^ spare : ℤ) : ℚ) := by
        have exponent :
            (bits : ℤ) - scale - (bits + spare : ℕ) = -((scale + spare : ℕ) : ℤ) := by
          push_cast
          ring
        unfold scaled
        rw [exponent, zpow_neg, zpow_natCast, div_inv_eq_mul, pow_add]
        push_cast
        field_simp
      rw [Nat.sub_eq_zero_of_le short, pow_zero, divideHalfEven_one,
        Nat.cast_one, mul_one, quotient, roundHalfEven_intCast, ← quotient,
        div_mul_cancel₀ _ (zpow_ne_zero _ two_ne_zero)]
    · obtain ⟨excess, rfl⟩ := Nat.exists_eq_add_of_le long
      have exponent :
          ((precision + excess : ℕ) : ℤ) - scale - precision = (excess : ℤ) - scale := by
        push_cast
        ring
      have quotient :
          scaled scale units / 2 ^ ((excess : ℤ) - scale) =
            (units : ℚ) / ((2 ^ excess : ℕ) : ℚ) := by
        unfold scaled
        rw [zpow_sub₀ two_ne_zero, zpow_natCast, zpow_natCast]
        push_cast
        field_simp
      rw [exponent, quotient, roundHalfEven_div units (by positivity),
        Nat.add_sub_cancel_left]
      unfold scaled
      rw [zpow_sub₀ two_ne_zero, zpow_natCast, zpow_natCast]
      push_cast
      ring

end ApmSdk.BinaryRounding
