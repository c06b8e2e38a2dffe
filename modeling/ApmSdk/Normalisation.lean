import ApmSdk.GainTable
import ApmSdk.SquareRoot
import Mathlib.Tactic.Positivity

namespace ApmSdk

/-!
# Norms and right shifts

A word that is moved up by its norm fits its type, and a right shift cuts less than the
power it divides by.
-/

/-- A right shift moves towards zero. -/
theorem shiftRight_bounds
    {value : Int}
    (nonneg : 0 ≤ value)
    (shift : Nat) :
    0 ≤ value >>> shift ∧ value >>> shift ≤ value := by
  rw [Int.shiftRight_eq_div_pow]
  exact
    ⟨Int.ediv_nonneg nonneg (Int.natCast_nonneg _),
      Int.ediv_le_self _ nonneg⟩

/-- What a right shift cuts off is less than a unit of what is left. -/
theorem shiftRight_cut
    (value : Int)
    (cut : Nat) :
    value >>> cut * 2 ^ cut ≤ value ∧
      value ≤ (value >>> cut + 1) * 2 ^ cut := by
  have positive : (0 : Int) < 2 ^ cut := Int.pow_pos (by decide)
  rw [Int.shiftRight_eq_div_pow, Nat.cast_pow, Nat.cast_ofNat]
  exact
    ⟨Int.ediv_mul_le _ positive.ne',
      (Int.lt_ediv_add_one_mul_self value positive).le⟩

/-- A right shift keeps the order. -/
theorem shiftRight_mono
    {smaller larger : Int}
    (ordered : smaller ≤ larger)
    {cut : Nat} :
    smaller >>> cut ≤ larger >>> cut := by
  rw [Int.shiftRight_eq_div_pow, Int.shiftRight_eq_div_pow]
  exact Int.ediv_le_ediv (by positivity) ordered

/-- A normalised word of 31 bits fits. -/
theorem normW32_fits
    {value : Int}
    (range : 0 ≤ value ∧ value < 2 ^ 31) :
    value * 2 ^ normW32 value < 2 ^ 31 := by
  rcases range.1.eq_or_lt with isZero | positive
  · simp [← isZero]
  · unfold normW32
    rw [if_neg positive.ne', if_neg (not_lt.mpr positive.le)]
    exact
      (leadingZeros_normalises (by decide) (by decide) positive range.2).2

/-- The norm of a negative word is that of its complement. -/
theorem normW32_fits_neg
    {value : Int}
    (range : 0 ≤ value ∧ value ≤ 2 ^ 31) :
    value * 2 ^ normW32 (-value) ≤ 2 ^ 31 := by
  rcases range.1.eq_or_lt with isZero | positive
  · simp [← isZero]
  · unfold normW32
    rw [if_neg (by omega), if_pos (by omega), neg_neg]
    rcases (show 0 ≤ value - 1 by omega).eq_or_lt with isOne | larger
    · have one : value = 1 := by
        omega
      rw [one]
      decide
    · have fits :=
        (leadingZeros_normalises (show 16 ≤ 31 by decide) (by decide)
          larger (by omega)).2
      -- both sides are multiples of the power
      have zeros := leadingZeros_le 31 (value - 1)
      generalize leadingZeros 31 (value - 1) = shift at fits zeros ⊢
      have power : (2 : Int) ^ 31 = 2 ^ (31 - shift) * 2 ^ shift := by
        rw [← pow_add, Nat.sub_add_cancel zeros]
      have positiveShift : (0 : Int) < 2 ^ shift := by
        positivity
      rw [power] at fits ⊢
      have less := lt_of_mul_lt_mul_right fits positiveShift.le
      exact mul_le_mul_of_nonneg_right (by omega) positiveShift.le

theorem normU32_le (word : Int) : Agc.normU32 word ≤ 31 := by
  unfold Agc.normU32
  split
  next =>
      decide
  next =>
      exact leadingZeros_le ..

theorem normW32_le (word : Int) : normW32 word ≤ 31 := by
  unfold normW32
  split
  next =>
      decide
  next =>
      exact leadingZeros_le ..

/-- A word of 32 bits is less than a power that its norm reaches. -/
theorem normU32_fits
    {value : Int}
    (range : 0 ≤ value ∧ value < 2 ^ 32) :
    value * 2 ^ Agc.normU32 value < 2 ^ 32 := by
  rcases range.1.eq_or_lt with isZero | positive
  · simp [← isZero]
  · unfold Agc.normU32
    rw [if_neg positive.ne']
    exact
      (leadingZeros_normalises (by decide) (by decide) positive range.2).2

end ApmSdk
