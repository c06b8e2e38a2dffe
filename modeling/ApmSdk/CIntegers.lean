import Mathlib.Algebra.Order.Ring.Int
import Mathlib.Data.Int.Init
import Mathlib.Tactic.Common

namespace ApmSdk

/-!
# Fixed-width integers of C

Values are plain integers.  A conversion to a narrower or an unsigned type, and a
signed operation that leaves its type, keep the value modulo the width.
-/

/-- Conversion to `int16_t`. -/
def int16 (value : Int) : Int :=
  Int.bmod value (2 ^ 16)

/-- Conversion to `int32_t`. -/
def int32 (value : Int) : Int :=
  Int.bmod value (2 ^ 32)

/-- Conversion to `uint16_t`. -/
def uint16 (value : Int) : Int :=
  value % 2 ^ 16

/-- Conversion to `uint32_t`. -/
def uint32 (value : Int) : Int :=
  value % 2 ^ 32

theorem int16_bounds (value : Int) :
    -(2 ^ 15) ≤ int16 value ∧ int16 value < 2 ^ 15 :=
  ⟨Int.le_bmod (by decide), Int.bmod_lt (by decide)⟩

theorem int32_bounds (value : Int) :
    -(2 ^ 31) ≤ int32 value ∧ int32 value < 2 ^ 31 :=
  ⟨Int.le_bmod (by decide), Int.bmod_lt (by decide)⟩

theorem int16_of_bounds
    {value : Int}
    (lower : -(2 ^ 15) ≤ value)
    (upper : value < 2 ^ 15) :
    int16 value = value := by
  unfold int16
  rw [Int.bmod_def]
  omega

theorem int32_of_bounds
    {value : Int}
    (lower : -(2 ^ 31) ≤ value)
    (upper : value < 2 ^ 31) :
    int32 value = value := by
  unfold int32
  rw [Int.bmod_def]
  omega

theorem uint16_of_bounds
    {value : Int}
    (lower : 0 ≤ value)
    (upper : value < 2 ^ 16) :
    uint16 value = value :=
  Int.emod_eq_of_lt lower upper

theorem uint32_of_bounds
    {value : Int}
    (lower : 0 ≤ value)
    (upper : value < 2 ^ 32) :
    uint32 value = value :=
  Int.emod_eq_of_lt lower upper

/-- `WebRtcSpl_SatW32ToW16` -/
def satW32ToW16 (value32 : Int) : Int :=
  if 32767 < value32 then 32767
  else if value32 < -32768 then -32768
  else value32

/-- `WebRtcSpl_AddSatW16` -/
def addSatW16 (a b : Int) : Int :=
  satW32ToW16 (a + b)

/-- `WebRtcSpl_DivW32W16`: division truncates, and by zero gives the largest value. -/
def divW32W16 (num den : Int) : Int :=
  if den ≠ 0 then Int.tdiv num den else 0x7FFFFFFF

/-- `WebRtcSpl_DivW32W16ResW16` -/
def divW32W16ResW16 (num den : Int) : Int :=
  if den ≠ 0 then int16 (Int.tdiv num den) else 0x7FFF

/--
Leading zeros of a word of `width` bits, found by testing and shifting by 16, 8, 4,
2 and 1.
-/
def leadingZeros (width : Nat) (word : Int) : Nat :=
  [16, 8, 4, 2, 1].foldl
    (fun zeros shift =>
      if word * 2 ^ zeros < 2 ^ (width - shift) then zeros + shift else zeros)
    0

/-- `WebRtcSpl_NormW32` -/
def normW32 (a : Int) : Nat :=
  if a = 0 then 0
  else leadingZeros 31 (if a < 0 then -a - 1 else a)

/-! ## Truncated quotients -/

/-- A truncated quotient is below a bound where the number is below its multiple. -/
theorem tdiv_lt_iff
    {num den bound : Int}
    (denPositive : 0 < den)
    (boundPositive : 0 < bound) :
    Int.tdiv num den < bound ↔ num < bound * den := by
  rcases Int.le_total 0 num with nonneg | nonpos
  · rw [Int.tdiv_eq_ediv_of_nonneg nonneg, Int.ediv_lt_iff_lt_mul denPositive]
  · have quotient : 0 ≤ Int.tdiv (-num) den :=
      Int.tdiv_nonneg (by omega) (Int.le_of_lt denPositive)
    have product : 0 < bound * den := Int.mul_pos boundPositive denPositive
    rw [Int.neg_tdiv] at quotient
    omega

/-- A truncated quotient is above a bound where the number is above its multiple. -/
theorem neg_lt_tdiv_iff
    {num den bound : Int}
    (denPositive : 0 < den)
    (boundPositive : 0 < bound) :
    -bound < Int.tdiv num den ↔ -(bound * den) < num := by
  have mirrored :
      Int.tdiv (-num) den < bound ↔ -num < bound * den :=
    tdiv_lt_iff denPositive boundPositive
  rw [Int.neg_tdiv] at mirrored
  omega

end ApmSdk
