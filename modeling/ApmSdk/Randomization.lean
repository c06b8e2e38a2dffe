import ApmSdk.CIntegers
import ApmSdk.LinearCongruence
import Mathlib.Data.List.Count

namespace ApmSdk.Randomization

/-!
# The generator of random numbers

The seed of 31 bits is a linear congruence, of which the drawn numbers are the upper bits.
Whatever arrays are filled from it one after the other, over its period every number is
drawn equally often.
-/

open LinearCongruence

/-- `kMaxSeedUsed` -/
def kMaxSeedUsed : Nat :=
  0x80000000

/-- `IncreaseSeed` -/
def increaseSeed (seed : Nat) : Nat :=
  (seed * 69069 + 1) % 2 ^ 32 &&& (kMaxSeedUsed - 1)

/-- `WebRtcSpl_RandU`, with the seed it leaves. -/
def randU (seed : Nat) : Int × Nat :=
  (int16 (increaseSeed seed >>> (16 : Nat) : Nat), increaseSeed seed)

/-- `WebRtcSpl_RandUArray`, with the array it fills and the seed it leaves. -/
def randUArray : Nat → Nat → List Int × Nat
  | 0, seed => ([], seed)
  | left + 1, seed =>
      let drawn := randU seed
      let rest := randUArray left drawn.2
      (drawn.1 :: rest.1, rest.2)

/-- The arrays that are filled from a seed, one behind the other, and the seed they leave. -/
def randUArrays : List Nat → Nat → List Int × Nat
  | [], seed => ([], seed)
  | length :: lengths, seed =>
      let drawn := randUArray length seed
      let rest := randUArrays lengths drawn.2
      (drawn.1 ++ rest.1, rest.2)

theorem increaseSeed_eq (seed : Nat) :
    increaseSeed seed = next 69069 1 seed % 2 ^ 31 := by
  unfold increaseSeed kMaxSeedUsed next
  rw [show 0x80000000 - 1 = 2 ^ 31 - 1 from rfl, Nat.and_two_pow_sub_one_eq_mod,
    Nat.mod_mod_of_dvd _ (Nat.pow_dvd_pow 2 (by decide)), Nat.mul_comm]

/-- The number that is drawn from a seed is the upper half of the next one. -/
theorem randU_fst (seed : Nat) : (randU seed).1 = (increaseSeed seed / 2 ^ 16 : Nat) := by
  have below : increaseSeed seed < 2 ^ 31 := by
    rw [increaseSeed_eq]
    exact Nat.mod_lt _ (Nat.two_pow_pos 31)
  unfold randU
  generalize increaseSeed seed = drawn at below ⊢
  rw [Nat.shiftRight_eq_div_pow]
  have inside : drawn / 2 ^ 16 < 2 ^ 15 := by omega
  generalize drawn / 2 ^ 16 = upper at inside ⊢
  dsimp only
  rw [int16_of_bounds (by omega) (by omega)]

theorem randUArray_eq (length seed : Nat) :
    randUArray length seed =
      ((List.range length).map fun draw =>
          ((increaseSeed^[draw + 1] seed / 2 ^ 16 : Nat) : Int),
        increaseSeed^[length] seed) := by
  induction length generalizing seed with
  | zero => rfl
  | succ length inductionHypothesis =>
      rw [randUArray, inductionHypothesis, List.range_succ_eq_map, List.map_cons, List.map_map,
        randU_fst]
      rfl

/-- Arrays that are filled one after the other draw as one array of their length. -/
theorem randUArrays_eq (lengths : List Nat) (seed : Nat) :
    randUArrays lengths seed = randUArray lengths.sum seed := by
  induction lengths generalizing seed with
  | nil => rfl
  | cons length lengths inductionHypothesis =>
      rw [randUArrays, inductionHypothesis, List.sum_cons, randUArray_eq, randUArray_eq,
        randUArray_eq]
      dsimp only
      have later :
          ∀ draw, increaseSeed^[draw] (increaseSeed^[length] seed) =
            increaseSeed^[length + draw] seed := by
        intro draw
        rw [← Function.iterate_add_apply, Nat.add_comm]
      simp only [later, List.range_add, List.map_append, List.map_map]
      rfl

/--
When the arrays filled from a seed have the length of the period together, each number of
fifteen bits has been drawn equally often and the seed is back where it was.
-/
theorem count_randUArrays
    {lengths : List Nat}
    {value : Nat}
    (seed : Nat)
    (whole : lengths.sum = 2 ^ 31)
    (inside : value < 2 ^ 15) :
    (randUArrays lengths seed).1.count (value : Int) = 2 ^ 16 ∧
      (randUArrays lengths seed).2 = seed % 2 ^ 31 := by
  obtain ⟨counted, back⟩ :=
    count_upper 16 15 rfl rfl increaseSeed_eq whole
      inside seed
  rw [randUArrays_eq, randUArray_eq]
  have cast :=
    List.count_map_of_injective
      ((List.range lengths.sum).map fun draw => increaseSeed^[draw + 1] seed / 2 ^ 16)
      Int.ofNat (fun _ _ => Int.ofNat.inj) value
  rw [List.map_map] at cast
  exact ⟨cast.trans counted, whole ▸ back⟩

/-- The arrays of a block of the mobile echo control. -/
theorem count_randUArrays_blocks :
    (randUArrays (List.replicate (2 ^ 25) 64) 666).1.count ((358 : Nat) : Int) = 2 ^ 16 ∧
      (randUArrays (List.replicate (2 ^ 25) 64) 666).2 = 666 % 2 ^ 31 :=
  count_randUArrays 666 (by rw [List.sum_replicate]; norm_num) (by decide)

end ApmSdk.Randomization
