import ApmSdk.CIntegers
import Mathlib.Data.Nat.Sqrt
import Mathlib.Tactic.Linarith
import Mathlib.Tactic.Ring

namespace ApmSdk.SqrtFloor

/-!
# The integer square root

The root is found a bit at a time, from the highest one.  While it is, twice the root is
kept, and the value is what its square leaves of the argument.
-/

/-- `WEBRTC_SPL_SQRT_ITER` -/
def sqrtIter (N : Nat) (value : Int) (root : Nat) : Int × Nat :=
  let try1 := root + 2 ^ N
  if int32 (try1 * 2 ^ N : Nat) ≤ value then
    (value - int32 (try1 * 2 ^ N : Nat), root ||| 2 * 2 ^ N)
  else
    (value, root)

/-- The iterations for so many bits, from the highest one down. -/
def sqrtIters : Nat → Int → Nat → Int × Nat
  | 0, value, root => (value, root)
  | N + 1, value, root =>
      let reached := sqrtIter N value root
      sqrtIters N reached.1 reached.2

/-- `WebRtcSpl_SqrtFloor` -/
def sqrtFloor (value : Int) : Int :=
  ((sqrtIters 16 value 0).2 >>> (1 : Nat) : Nat)

/-- The bits of the root that are found, and what their square leaves. -/
structure Approaches
    (argument bits found : Nat)
    (value : Int)
    (root : Nat) : Prop where
  root_eq : root = 2 * (2 ^ bits * found)
  remainder : value = argument - ((2 ^ bits * found) ^ 2 : Nat)
  below : (2 ^ bits * found) ^ 2 ≤ argument
  above : argument < (2 ^ bits * found + 2 ^ bits) ^ 2

section Iterations

variable {argument bits found root : Nat}
variable {value : Int}

/-- The square of a bit that is tried does not leave 32 bits. -/
theorem tried_lt
    (most : bits < 16)
    (small : argument < 2 ^ 31)
    (below : (2 ^ (bits + 1) * found) ^ 2 ≤ argument) :
    (2 * (2 ^ (bits + 1) * found) + 2 ^ bits) * 2 ^ bits < 2 ^ 31 := by
  have short : 2 ^ (bits + 1) * found < 46341 :=
    lt_of_pow_lt_pow_left₀ 2 (Nat.zero_le _) (below.trans_lt (small.trans (by norm_num)))
  rcases Nat.lt_or_ge bits 15 with lower | top
  · have bit : 2 ^ bits ≤ 2 ^ 14 := Nat.pow_le_pow_right Nat.two_pos (by omega)
    calc
      (2 * (2 ^ (bits + 1) * found) + 2 ^ bits) * 2 ^ bits ≤ (2 * 46340 + 2 ^ 14) * 2 ^ 14 :=
        Nat.mul_le_mul (by omega) bit
      _ < 2 ^ 31 := by norm_num
  · obtain rfl : bits = 15 := by omega
    obtain rfl : found = 0 := by omega
    norm_num

theorem Approaches.iter
    (reached : Approaches argument (bits + 1) found value root)
    (most : bits < 16)
    (small : argument < 2 ^ 31) :
    ∃ found,
      Approaches argument bits found (sqrtIter bits value root).1
        (sqrtIter bits value root).2 := by
  obtain ⟨rfl, rfl, below, above⟩ := reached
  have tried := tried_lt most small below
  have joined :
      2 * (2 ^ (bits + 1) * found) ||| 2 * 2 ^ bits = 2 * (2 ^ bits * (2 * found + 1)) := by
    have bit : 2 * 2 ^ bits < 2 ^ (bits + 2) := by
      have positive := Nat.two_pow_pos bits
      rw [Nat.pow_add]
      omega
    have apart := Nat.two_pow_add_eq_or_of_lt bit found
    rw [show 2 * (2 ^ (bits + 1) * found) = 2 ^ (bits + 2) * found by ring, ← apart]
    ring
  unfold sqrtIter
  dsimp only
  rw [joined, int32_of_bounds (by omega) (by exact_mod_cast tried)]
  rw [show 2 ^ (bits + 1) = 2 * 2 ^ bits from Nat.pow_succ'] at below above ⊢
  -- the next bit belongs to the root if the square with it is still in the argument
  have square :
      (2 * (2 * 2 ^ bits * found) + 2 ^ bits) * 2 ^ bits + (2 * 2 ^ bits * found) ^ 2 =
        (2 ^ bits * (2 * found + 1)) ^ 2 := by
    ring
  split
  next fits =>
      refine ⟨2 * found + 1, rfl, ?_, ?_, ?_⟩
      · rw [← square]
        push_cast
        ring
      · rw [← square]
        omega
      · calc
          argument < (2 * 2 ^ bits * found + 2 * 2 ^ bits) ^ 2 := above
          _ = (2 ^ bits * (2 * found + 1) + 2 ^ bits) ^ 2 := by ring
  next exceeds =>
      have same : 2 * 2 ^ bits * found = 2 ^ bits * (2 * found) := by ring
      rw [same] at below exceeds square ⊢
      refine ⟨2 * found, rfl, rfl, below, ?_⟩
      calc
        argument < (2 ^ bits * (2 * found + 1)) ^ 2 := by
          rw [← square]
          omega
        _ = (2 ^ bits * (2 * found) + 2 ^ bits) ^ 2 := by ring

theorem Approaches.iters
    (reached : Approaches argument bits found value root)
    (most : bits ≤ 16)
    (small : argument < 2 ^ 31) :
    ∃ found,
      Approaches argument 0 found (sqrtIters bits value root).1
        (sqrtIters bits value root).2 := by
  induction bits generalizing found value root with
  | zero => exact ⟨found, reached⟩
  | succ bits inductionHypothesis =>
      obtain ⟨next, nextReached⟩ := reached.iter (by omega) small
      exact inductionHypothesis nextReached (by omega)

/-- Nothing is found in a negative argument. -/
theorem sqrtIters_of_neg
    (most : bits ≤ 16)
    (negative : value < 0) :
    sqrtIters bits value 0 = (value, 0) := by
  induction bits with
  | zero => rfl
  | succ bits inductionHypothesis =>
      have tried : (2 * (2 ^ (bits + 1) * 0) + 2 ^ bits) * 2 ^ bits < 2 ^ 31 :=
        tried_lt (by omega) (show 0 < 2 ^ 31 by norm_num) (by simp)
      rw [Nat.mul_zero, Nat.mul_zero] at tried
      rw [sqrtIters]
      unfold sqrtIter
      dsimp only
      rw [int32_of_bounds (by omega) (by exact_mod_cast tried), if_neg (by omega)]
      exact inductionHypothesis (by omega)

/-- The result is the integer part of the square root. -/
theorem sqrtFloor_of_nonneg
    (nonneg : 0 ≤ value)
    (small : value < 2 ^ 31) :
    sqrtFloor value = Nat.sqrt value.toNat := by
  unfold sqrtFloor
  lift value to Nat using nonneg
  have bound : value < 2 ^ 31 := by exact_mod_cast small
  have start : Approaches value 16 0 value 0 := by
    refine ⟨rfl, by simp, by simp, ?_⟩
    norm_num
    omega
  obtain ⟨found, root_eq, -, below, above⟩ := start.iters le_rfl bound
  rw [Nat.pow_zero, Nat.one_mul] at root_eq below above
  rw [root_eq, Int.toNat_natCast, Nat.shiftRight_one, Nat.mul_div_cancel_left _ Nat.two_pos,
    Nat.cast_inj, Nat.eq_sqrt']
  exact ⟨below, above⟩

/-- The result is the integer part of the square root, and zero for a negative argument. -/
theorem sqrtFloor_eq
    (small : value < 2 ^ 31) :
    sqrtFloor value = Nat.sqrt value.toNat := by
  rcases lt_or_ge value 0 with negative | nonneg
  · unfold sqrtFloor
    rw [sqrtIters_of_neg le_rfl negative, Int.toNat_of_nonpos negative.le]
    simp
  · exact sqrtFloor_of_nonneg nonneg small

/-- The largest argument. -/
theorem sqrtFloor_eq_largest : sqrtFloor 2147483647 = Nat.sqrt (2147483647 : Int).toNat :=
  sqrtFloor_eq (by norm_num)

end Iterations

end ApmSdk.SqrtFloor
