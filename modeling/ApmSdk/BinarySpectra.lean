import ApmSdk.ArrayCopies
import ApmSdk.BitFields
import ApmSdk.CheckedComputation

namespace ApmSdk.DelayEstimation

/-!
# Binary spectra and their history

A binary spectrum has one bit for each of 32 bands.  The far end keeps the last spectra, the
newest first, each with the number of its bits.
-/

open ArrayCopies
open Nat (ofDigits ofDigits_cons)

/-! ## Counting bits -/

/-- `BitCount`: the bits of each octal digit, of each two of them, and of the six fields that
these make. -/
def bitCount (u32 : UInt32) : UInt32 :=
  let tmp :=
    u32 - ((u32 >>> 1) &&& (0o33333333333 : UInt32)) -
      ((u32 >>> 2) &&& (0o11111111111 : UInt32))
  let tmp := (tmp + (tmp >>> 3)) &&& (0o30707070707 : UInt32)
  let tmp := tmp + (tmp >>> 6)
  (tmp + (tmp >>> 12) + (tmp >>> 24)) &&& (0o77 : UInt32)

/-- A word has eleven octal digits, of which the highest is less than four. -/
theorem exists_octal
    (u32 : UInt32) :
    ∃ d0 d1 d2 d3 d4 d5 d6 d7 d8 d9 d10,
      (∀ digit ∈ [d0, d1, d2, d3, d4, d5, d6, d7, d8, d9, d10], digit < 8) ∧
        d10 < 4 ∧
        ofDigits 8 [d0, d1, d2, d3, d4, d5, d6, d7, d8, d9, d10] =
          u32.toNat := by
  have isWord := u32.toNat_lt
  generalize u32.toNat = word at isWord
  refine
    ⟨word % 8, word / 8 % 8, word / 8 ^ 2 % 8, word / 8 ^ 3 % 8,
      word / 8 ^ 4 % 8, word / 8 ^ 5 % 8, word / 8 ^ 6 % 8,
      word / 8 ^ 7 % 8, word / 8 ^ 8 % 8, word / 8 ^ 9 % 8,
      word / 8 ^ 10, ?_, by omega, ?_⟩
  · simp only [List.forall_mem_cons, List.not_mem_nil, false_implies,
      implies_true, and_true]
    omega
  · simp only [ofDigits_cons, Nat.ofDigits_nil]
    omega

/-- The bits of an octal digit. -/
def ones (digit : Nat) : Nat :=
  digit - digit / 2 - digit / 4

theorem ones_le
    {digit : Nat}
    (isDigit : digit < 8) :
    ones digit ≤ 3 := by
  unfold ones
  omega

/-- The first step counts the bits of each digit. -/
theorem sub_shifted
    {digits : List Nat}
    (areDigits : ∀ digit ∈ digits, digit < 8) :
    ofDigits 8 digits =
      ofDigits 8 (digits.map ones) +
        ((ofDigits 8 digits / 2) &&&
          ofDigits 8 (List.replicate digits.length 3)) +
        ((ofDigits 8 digits / 4) &&&
          ofDigits 8 (List.replicate digits.length 1)) := by
  have halves :=
    @BitFields.land_shifted 3 digits 1 (by omega) areDigits
  have quarters :=
    @BitFields.land_shifted 3 digits 2 (by omega) areDigits
  norm_num only at halves quarters
  rw [halves, quarters, ← BitFields.ofDigits_map_add,
    ← BitFields.ofDigits_map_add]
  refine congrArg _ (Eq.trans (List.map_id _).symm ?_)
  refine List.map_congr_left fun digit _ => ?_
  unfold ones
  dsimp only [id]
  omega

theorem toNat_ones
    {u32 : UInt32}
    {digits : List Nat}
    (isLength : digits.length = 11)
    (areDigits : ∀ digit ∈ digits, digit < 8)
    (isValue : ofDigits 8 digits = u32.toNat) :
    (u32 - ((u32 >>> 1) &&& (0o33333333333 : UInt32)) -
        ((u32 >>> 2) &&& (0o11111111111 : UInt32))).toNat =
      ofDigits 8 (digits.map ones) := by
  have parts := sub_shifted areDigits
  rw [isValue, isLength] at parts
  have halves :
      ((u32 >>> 1) &&& (0o33333333333 : UInt32)).toNat =
        u32.toNat / 2 &&& ofDigits 8 (List.replicate 11 3) := by
    rw [UInt32.toNat_and, UInt32.toNat_shiftRight, Nat.shiftRight_eq_div_pow]
    rfl
  have quarters :
      ((u32 >>> 2) &&& (0o11111111111 : UInt32)).toNat =
        u32.toNat / 4 &&& ofDigits 8 (List.replicate 11 1) := by
    rw [UInt32.toNat_and, UInt32.toNat_shiftRight, Nat.shiftRight_eq_div_pow]
    rfl
  rw [← halves, ← quarters] at parts
  have first :
      (u32 - ((u32 >>> 1) &&& (0o33333333333 : UInt32))).toNat =
        u32.toNat - ((u32 >>> 1) &&& (0o33333333333 : UInt32)).toNat :=
    UInt32.toNat_sub_of_le _ _ (UInt32.le_iff_toNat_le.mpr (by omega))
  rw [UInt32.toNat_sub_of_le _ _ (UInt32.le_iff_toNat_le.mpr (by omega)),
    first]
  omega

/-- The second step adds the counts of two digits each. -/
theorem toNat_pairs
    {tmp : UInt32}
    {c0 c1 c2 c3 c4 c5 c6 c7 c8 c9 c10 : Nat}
    (small :
      ∀ count ∈ [c0, c1, c2, c3, c4, c5, c6, c7, c8, c9, c10], count ≤ 3)
    (top : c10 ≤ 2)
    (isValue :
      tmp.toNat =
        ofDigits 8 [c0, c1, c2, c3, c4, c5, c6, c7, c8, c9, c10]) :
    ((tmp + (tmp >>> 3)) &&& (0o30707070707 : UInt32)).toNat =
      ofDigits 64 [c0 + c1, c2 + c3, c4 + c5, c6 + c7, c8 + c9, c10] := by
  simp only [List.forall_mem_cons] at small
  have sum :
      (tmp + (tmp >>> 3)).toNat =
        ofDigits 64
          [c0 + c1 + 8 * (c1 + c2), c2 + c3 + 8 * (c3 + c4),
            c4 + c5 + 8 * (c5 + c6), c6 + c7 + 8 * (c7 + c8),
            c8 + c9 + 8 * (c9 + c10), c10] := by
    rw [UInt32.toNat_add, UInt32.toNat_shiftRight, isValue,
      Nat.shiftRight_eq_div_pow]
    simp only [ofDigits_cons, Nat.ofDigits_nil, UInt32.reduceToNat,
      Nat.reduceMod, Nat.reducePow]
    omega
  have masked :=
    @BitFields.land_low 6 [3, 3, 3, 3, 3, 2]
      [c0 + c1 + 8 * (c1 + c2), c2 + c3 + 8 * (c3 + c4),
        c4 + c5 + 8 * (c5 + c6), c6 + c7 + 8 * (c7 + c8),
        c8 + c9 + 8 * (c9 + c10), c10]
      (by
        simp only [List.forall₂_cons, List.forall₂_nil_left_iff, and_true]
        omega)
  rw [UInt32.toNat_and, sum]
  refine masked.trans (congrArg _ ?_)
  simp only [List.zipWith_cons_cons, List.zipWith_nil_left,
    List.cons.injEq, and_true]
  omega

/-- The last steps add the six fields. -/
theorem toNat_sum
    {tmp : UInt32}
    {e0 e1 e2 e3 e4 e5 : Nat}
    (small : ∀ count ∈ [e0, e1, e2, e3, e4], count ≤ 6)
    (top : e5 ≤ 2)
    (isValue : tmp.toNat = ofDigits 64 [e0, e1, e2, e3, e4, e5]) :
    ((tmp + (tmp >>> 6) + ((tmp + (tmp >>> 6)) >>> 12) +
          ((tmp + (tmp >>> 6)) >>> 24)) &&&
        (0o77 : UInt32)).toNat =
      e0 + e1 + e2 + e3 + e4 + e5 := by
  simp only [List.forall_mem_cons] at small
  have sum :
      (tmp + (tmp >>> 6)).toNat =
        ofDigits 64 [e0 + e1, e1 + e2, e2 + e3, e3 + e4, e4 + e5, e5] := by
    rw [UInt32.toNat_add, UInt32.toNat_shiftRight, isValue,
      Nat.shiftRight_eq_div_pow]
    simp only [ofDigits_cons, Nat.ofDigits_nil, UInt32.reduceToNat,
      Nat.reduceMod, Nat.reducePow]
    omega
  have isField :
      ∀ field ∈ [e0 + e1, e1 + e2, e2 + e3, e3 + e4, e4 + e5, e5],
        field < 64 := by
    simp only [List.forall_mem_cons, List.not_mem_nil, false_implies,
      implies_true, and_true]
    omega
  have fromThird :
      ((tmp + (tmp >>> 6)) >>> 12).toNat =
        ofDigits 64 [e2 + e3, e3 + e4, e4 + e5, e5] := by
    rw [UInt32.toNat_shiftRight, Nat.shiftRight_eq_div_pow, sum]
    exact Nat.ofDigits_div_pow_eq_ofDigits_drop 2 (by omega) _ isField
  have fromFifth :
      ((tmp + (tmp >>> 6)) >>> 24).toNat = ofDigits 64 [e4 + e5, e5] := by
    rw [UInt32.toNat_shiftRight, Nat.shiftRight_eq_div_pow, sum]
    exact Nat.ofDigits_div_pow_eq_ofDigits_drop 4 (by omega) _ isField
  have isMask : (0o77 : UInt32).toNat = 2 ^ 6 - 1 := by
    decide
  rw [UInt32.toNat_and, isMask, Nat.and_two_pow_sub_one_eq_mod,
    UInt32.toNat_add, UInt32.toNat_add, sum, fromThird, fromFifth]
  simp only [ofDigits_cons, Nat.ofDigits_nil]
  omega

/-- The number of bits is the sum of those of all digits. -/
theorem toNat_bitCount
    {u32 : UInt32}
    {d0 d1 d2 d3 d4 d5 d6 d7 d8 d9 d10 : Nat}
    (areDigits :
      ∀ digit ∈ [d0, d1, d2, d3, d4, d5, d6, d7, d8, d9, d10], digit < 8)
    (top : d10 < 4)
    (isValue :
      ofDigits 8 [d0, d1, d2, d3, d4, d5, d6, d7, d8, d9, d10] =
        u32.toNat) :
    (bitCount u32).toNat =
      ones d0 + ones d1 + (ones d2 + ones d3) + (ones d4 + ones d5) +
        (ones d6 + ones d7) + (ones d8 + ones d9) + ones d10 := by
  have small :
      ∀ count ∈
          [ones d0, ones d1, ones d2, ones d3, ones d4, ones d5, ones d6,
            ones d7, ones d8, ones d9, ones d10],
        count ≤ 3 := by
    intro count member
    obtain ⟨digit, isDigit, rfl⟩ :=
      @List.exists_of_mem_map _ _ ones
        [d0, d1, d2, d3, d4, d5, d6, d7, d8, d9, d10] _ member
    exact ones_le (areDigits digit isDigit)
  have topCount : ones d10 ≤ 2 := by
    unfold ones
    omega
  have counts := toNat_ones rfl areDigits isValue
  simp only [List.map_cons, List.map_nil] at counts
  have pairs := toNat_pairs small topCount counts
  simp only [List.forall_mem_cons] at small
  unfold bitCount
  refine toNat_sum ?_ topCount pairs
  simp only [List.forall_mem_cons, List.not_mem_nil, false_implies,
    implies_true, and_true]
  omega

/-- No more bits than there are. -/
theorem bitCount_le
    (u32 : UInt32) :
    (bitCount u32).toNat ≤ 32 := by
  obtain
      ⟨d0, d1, d2, d3, d4, d5, d6, d7, d8, d9, d10, areDigits, top, isValue⟩ :=
    exists_octal u32
  rw [toNat_bitCount areDigits top isValue]
  simp only [List.forall_mem_cons] at areDigits
  unfold ones
  omega

end ApmSdk.DelayEstimation
