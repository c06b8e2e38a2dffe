import ApmSdk.AgcVad
import Mathlib.Algebra.Order.Ring.Int
import Mathlib.Tactic.Linarith
import Mathlib.Tactic.Ring

namespace ApmSdk

/-!
# Normalisation and the square root

`WebRtcSpl_NormW32` finds the shift that brings a word to its full width, one halving of
the width at a time.  `WebRtcSpl_Sqrt` normalises with it, so that its Taylor series is only
ever evaluated between a half and one; there no sum of the series leaves 32 bits.
-/

theorem leadingZeros_le
    (width : Nat)
    (word : Int) :
    leadingZeros width word ≤ 31 := by
  simp only [leadingZeros, List.foldl_cons, List.foldl_nil]
  split <;> split <;> split <;> split <;> split <;> omega

/-- One test of the search halves the distance to the full width. -/
theorem leadingZeros_step
    {width : Nat}
    {word : Int}
    {zeros : Nat}
    (shift : Nat)
    (least : 2 ^ (width - 2 * shift) ≤ word * 2 ^ zeros)
    (narrow : shift ≤ width)
    (below : word * 2 ^ zeros < 2 ^ width) :
    let next :=
      if word * 2 ^ zeros < 2 ^ (width - shift) then zeros + shift else zeros
    2 ^ (width - shift) ≤ word * 2 ^ next ∧ word * 2 ^ next < 2 ^ width := by
  dsimp only
  split
  next empty =>
      have positive : (0 : Int) < 2 ^ shift := Int.pow_pos (by decide)
      rw [pow_add, ← mul_assoc]
      constructor
      · calc
          (2 : Int) ^ (width - shift)
            ≤ 2 ^ (width - 2 * shift + shift) :=
              pow_le_pow_right₀ (by decide) (by omega)
          _ = 2 ^ (width - 2 * shift) * 2 ^ shift := pow_add ..
          _ ≤ word * 2 ^ zeros * 2 ^ shift :=
              mul_le_mul_of_nonneg_right least positive.le
      · calc
          word * 2 ^ zeros * 2 ^ shift
            < 2 ^ (width - shift) * 2 ^ shift :=
              mul_lt_mul_of_pos_right empty positive
          _ = 2 ^ (width - shift + shift) := (pow_add ..).symm
          _ = 2 ^ width := by rw [Nat.sub_add_cancel narrow]
  next full =>
      exact ⟨Int.not_lt.mp full, below⟩

/-- The normalised word has the full width. -/
theorem leadingZeros_normalises
    {width : Nat}
    {word : Int}
    (atLeast : 16 ≤ width)
    (atMost : width ≤ 32)
    (positive : 0 < word)
    (below : word < 2 ^ width) :
    2 ^ (width - 1) ≤ word * 2 ^ leadingZeros width word ∧
      word * 2 ^ leadingZeros width word < 2 ^ width := by
  have start : 2 ^ (width - 2 * 16) ≤ word * 2 ^ 0 := by
    rw [Nat.sub_eq_zero_of_le atMost, pow_zero, mul_one]
    exact positive
  have startBelow : word * 2 ^ 0 < 2 ^ width := by
    rw [pow_zero, mul_one]
    exact below
  obtain ⟨least16, below16⟩ := leadingZeros_step 16 start atLeast startBelow
  obtain ⟨least8, below8⟩ := leadingZeros_step 8 least16 (by omega) below16
  obtain ⟨least4, below4⟩ := leadingZeros_step 4 least8 (by omega) below8
  obtain ⟨least2, below2⟩ := leadingZeros_step 2 least4 (by omega) below4
  exact leadingZeros_step 1 least2 (by omega) below2

namespace Agc

/-- A product of a negative and a positive term of the series. -/
theorem term_bounds
    {left right leftBound rightBound : Int}
    (leftLower : -leftBound ≤ left)
    (leftUpper : left ≤ 0)
    (rightLower : 0 ≤ right)
    (rightUpper : right ≤ rightBound) :
    -(leftBound * rightBound) ≤ left * right ∧ left * right ≤ 0 := by
  have magnitude : -left * right ≤ leftBound * rightBound :=
    mul_le_mul (by omega) rightUpper rightLower (by omega)
  have sign : 0 ≤ -left * right := mul_nonneg (by omega) rightLower
  rw [neg_mul] at magnitude sign
  omega

/-- On a mantissa of 15 bits the series stays within 31 bits. -/
theorem sqrtLocal_bounds
    {mantissa : Int}
    (lower : 2 ^ 14 ≤ mantissa)
    (upper : mantissa < 2 ^ 15) :
    2 ^ 30 ≤ sqrtLocal (mantissa * 2 ^ 16) ∧
      sqrtLocal (mantissa * 2 ^ 16) < 2 ^ 31 := by
  have halved : Int.tdiv (mantissa * 2 ^ 16) 2 = mantissa * 2 ^ 15 := by
    rw [Int.tdiv_eq_ediv_of_nonneg (by omega)]
    omega
  have half :
      -(2 ^ 13) ≤ (mantissa * 2 ^ 15 - 0x40000000) >>> (16 : Nat) ∧
        (mantissa * 2 ^ 15 - 0x40000000) >>> (16 : Nat) ≤ -1 := by
    rw [Int.shiftRight_eq_div_pow]
    omega
  unfold sqrtLocal
  dsimp only
  rw [halved]
  generalize (mantissa * 2 ^ 15 - 0x40000000) >>> (16 : Nat) = xHalf at half ⊢
  rw [int16_of_bounds (show -(2 ^ 15) ≤ xHalf by omega) (by omega)]
  have square : 1 ≤ xHalf * xHalf ∧ xHalf * xHalf ≤ 2 ^ 26 := by
    constructor
    · nlinarith
    · nlinarith [mul_nonneg (show 0 ≤ 2 ^ 13 + xHalf by omega)
        (show 0 ≤ 2 ^ 13 - xHalf by omega)]
  generalize xHalf * xHalf = x2 at square ⊢
  -- the power of four, with a weight of 0.625
  have second :
      -(2 ^ 11) ≤ (-(x2 * 2)) >>> (16 : Nat) ∧
        (-(x2 * 2)) >>> (16 : Nat) ≤ 0 := by
    rw [Int.shiftRight_eq_div_pow]
    omega
  generalize (-(x2 * 2)) >>> (16 : Nat) = a2 at second ⊢
  have fourth :
      0 ≤ (a2 * a2 * 2) >>> (16 : Nat) ∧
        (a2 * a2 * 2) >>> (16 : Nat) ≤ 2 ^ 7 := by
    have bounds : 0 ≤ a2 * a2 ∧ a2 * a2 ≤ 2 ^ 22 := by
      constructor <;> nlinarith
    rw [Int.shiftRight_eq_div_pow]
    omega
  generalize (a2 * a2 * 2) >>> (16 : Nat) = a4 at fourth ⊢
  rw [int16_of_bounds (show -(2 ^ 15) ≤ a4 by omega) (by omega)]
  -- the power of five, with a weight of 0.875
  have fifth :
      -(2 ^ 5) ≤ (xHalf * a4 * 2) >>> (16 : Nat) ∧
        (xHalf * a4 * 2) >>> (16 : Nat) ≤ 0 := by
    have bounds := term_bounds half.1 (by omega) fourth.1 fourth.2
    rw [Int.shiftRight_eq_div_pow]
    omega
  generalize (xHalf * a4 * 2) >>> (16 : Nat) = a5 at fifth ⊢
  rw [int16_of_bounds (show -(2 ^ 15) ≤ a5 by omega) (by omega)]
  -- the power of three, with a weight of a half
  have cube :
      0 ≤ (x2 * 2) >>> (16 : Nat) ∧ (x2 * 2) >>> (16 : Nat) ≤ 2 ^ 11 := by
    rw [Int.shiftRight_eq_div_pow]
    omega
  generalize (x2 * 2) >>> (16 : Nat) = a3 at cube ⊢
  rw [int16_of_bounds (show -(2 ^ 15) ≤ a3 by omega) (by omega)]
  have third := term_bounds half.1 (by omega) cube.1 cube.2
  simp only [Int.shiftRight_eq_div_pow]
  omega

/-- The magnitude of a word, normalised and rounded to a mantissa of 15 bits. -/
theorem mantissa_bounds
    {word : Int}
    (lower : 2 ^ 30 ≤ word)
    (upper : word < 2 ^ 31) :
    2 ^ 14 ≤
        int16
          ((if word < 2 ^ 31 - 1 - 32767 then word + 32768 else 2 ^ 31 - 1) >>>
            (16 : Nat)) ∧
      int16
          ((if word < 2 ^ 31 - 1 - 32767 then word + 32768 else 2 ^ 31 - 1) >>>
            (16 : Nat)) <
        2 ^ 15 := by
  rw [Int.shiftRight_eq_div_pow]
  split
  · rw [int16_of_bounds (by omega) (by omega)]
    omega
  · decide

/-- A root between a half and one, shifted back. -/
theorem shiftRight_bounds
    {root : Int}
    {nshift : Nat}
    (lower : 2 ^ 14 ≤ root)
    (upper : root < 2 ^ 16)
    (fewBits : nshift ≤ 14)
    (narrow : root < 2 ^ 15 ∨ 1 ≤ nshift) :
    0 < (root % 2 ^ 16) >>> nshift ∧ (root % 2 ^ 16) >>> nshift < 2 ^ 15 := by
  have positive : (0 : Int) < 2 ^ nshift := Int.pow_pos (by decide)
  have power : (2 : Int) ^ nshift ≤ 2 ^ 14 :=
    pow_le_pow_right₀ (by decide) fewBits
  rw [Int.emod_eq_of_lt (by omega) upper, Int.shiftRight_eq_div_pow]
  push_cast
  constructor
  · apply (Int.le_ediv_iff_mul_le positive).mpr
    omega
  · rw [Int.ediv_lt_iff_lt_mul positive]
    rcases narrow with small | shifted
    · have atLeastOne : (1 : Int) ≤ 2 ^ nshift := positive
      omega
    · have atLeastTwo : (2 : Int) ^ 1 ≤ 2 ^ nshift :=
        pow_le_pow_right₀ (by decide) shifted
      omega

/-- A root, divided by the root of two and rounded. -/
theorem rootTwo_bounds
    {root : Int}
    (lower : 2 ^ 14 ≤ root)
    (upper : root < 2 ^ 15) :
    2 ^ 14 ≤
        ((23170 * int16 root * 2 + 32768) % 2 ^ 31 / 2 ^ 16 * 2 ^ 16) >>>
          (15 : Nat) ∧
      ((23170 * int16 root * 2 + 32768) % 2 ^ 31 / 2 ^ 16 * 2 ^ 16) >>>
          (15 : Nat) <
        2 ^ 16 := by
  rw [int16_of_bounds (by omega) (by omega), Int.shiftRight_eq_div_pow,
    Int.emod_eq_of_lt (by omega) (by omega)]
  omega

/-- The root of a number of 30 bits other than zero is positive and fits in 15 bits. -/
theorem sqrt_bounds
    {value : Int}
    (lower : -(2 ^ 30) < value)
    (upper : value < 2 ^ 30)
    (nonzero : value ≠ 0) :
    0 < sqrt value ∧ sqrt value < 2 ^ 15 := by
  by_cases one : value = 1 ∨ value = -1
  · rcases one with rfl | rfl <;> decide +kernel
  have magnitude :
      ∃ a : Int,
        (if value < 0 then
            if value = -(2 ^ 31) then 2 ^ 31 - 1 else -value
          else value) = a ∧ 1 < a ∧ a < 2 ^ 30 := by
    refine ⟨_, rfl, ?_⟩
    split
    · rw [if_neg (by omega)]
      omega
    · omega
  obtain ⟨a, isMagnitude, large, small⟩ := magnitude
  have normed : normW32 a = leadingZeros 31 a := by
    unfold normW32
    rw [if_neg (by omega), if_neg (by omega)]
  obtain ⟨least, below⟩ := leadingZeros_normalises (by decide) (by decide) (show 0 < a by omega)
      (show a < 2 ^ 31 by omega)
  unfold sqrt
  rw [if_neg nonzero]
  dsimp only
  rw [isMagnitude, normed]
  generalize leadingZeros 31 a = sh at least below ⊢
  have someShift : 1 ≤ sh := by
    by_contra none
    obtain rfl : sh = 0 := by omega
    omega
  have fewShifts : sh ≤ 29 := by
    by_contra many
    have power : (2 : Int) ^ 30 ≤ 2 ^ sh :=
      pow_le_pow_right₀ (by decide) (by omega)
    have tooLarge : 2 * 2 ^ 30 ≤ a * 2 ^ sh :=
      mul_le_mul large power (by decide) (by omega)
    omega
  obtain ⟨mantissaLower, mantissaUpper⟩ := mantissa_bounds least below
  generalize
    int16
      ((if a * 2 ^ sh < 2 ^ 31 - 1 - 32767 then a * 2 ^ sh + 32768
        else 2 ^ 31 - 1) >>> (16 : Nat)) = mantissa
    at mantissaLower mantissaUpper ⊢
  have positive : ((mantissa * 2 ^ 16).natAbs : Int) = mantissa * 2 ^ 16 := by
    omega
  obtain ⟨rootLower, rootUpper⟩ := sqrtLocal_bounds mantissaLower mantissaUpper
  rw [positive]
  generalize sqrtLocal (mantissa * 2 ^ 16) = root at rootLower rootUpper ⊢
  have high : 2 ^ 14 ≤ root >>> (16 : Nat) ∧ root >>> (16 : Nat) < 2 ^ 15 := by
    rw [Int.shiftRight_eq_div_pow]
    omega
  generalize root >>> (16 : Nat) = half at high ⊢
  split
  next even =>
      obtain ⟨halfLower, halfUpper⟩ := rootTwo_bounds high.1 high.2
      exact
        shiftRight_bounds halfLower halfUpper (by omega) (.inr (by omega))
  next odd =>
      exact
        shiftRight_bounds high.1 (by omega) (by omega) (.inl (by omega))

end Agc

end ApmSdk
