import ApmSdk.ComplexFft
import Mathlib.Algebra.BigOperators.Group.Finset.Basic
import Mathlib.Algebra.Order.Group.Abs
import Mathlib.Algebra.Order.Ring.Abs
import Mathlib.Tactic.Linarith

namespace ApmSdk.ComplexFft

/-!
# The scaling of the inverse transform

The thresholds for the scaling of a stage are chosen so that no butterfly leaves the range of
16 bits.  The stages therefore compute what they would on integers without bounds.
-/

open BitReversal ButterflyNetwork

/-- No part of a value is larger than a bound. -/
def Complex16.Within (bound : Int) (value : Complex16) : Prop :=
  |value.re| ≤ bound ∧ |value.im| ≤ bound

/-- Both parts of a value are 16-bit integers. -/
def Complex16.Fits (value : Complex16) : Prop :=
  int16 value.re = value.re ∧ int16 value.im = value.im

/-- The values in the first places of a buffer are 16-bit integers. -/
def BufferFits (n : Nat) (frfi : Nat → Complex16) : Prop :=
  ∀ i < n, (frfi i).Fits

/-- A butterfly on integers without bounds. -/
def exactButterfly
    (mode : Int)
    (shift : Nat)
    (round2 wr wi : Int)
    (first second : Complex16) :
    Complex16 × Complex16 :=
  let turn := turned mode wr wi second
  ({ re := scaledSum mode shift round2 first.re turn.re
     im := scaledSum mode shift round2 first.im turn.im },
    { re := scaledSum mode shift round2 first.re (-turn.re)
      im := scaledSum mode shift round2 first.im (-turn.im) })

/-- The butterflies of the inverse transform on integers without bounds. -/
def exactInverse
    (mode : Int)
    (shifts : Nat → Nat)
    (width m : Nat) :
    Complex16 → Complex16 → Complex16 × Complex16 :=
  exactButterfly mode (shifts width) (round2For (shifts width)) (sine (m * 2 ^ (9 - width) + 256))
    (sine (m * 2 ^ (9 - width)))

theorem fits_bounds {value : Int} (fits : int16 value = value) : |value| ≤ 32768 := by
  have bounds := int16_bounds value
  rw [abs_le]
  omega

theorem Complex16.Fits.within {value : Complex16} (fits : value.Fits) : value.Within 32768 :=
  ⟨fits_bounds fits.1, fits_bounds fits.2⟩

/-! ## One butterfly -/

section Butterflies

variable {mode wr wi q32 t32 bound : Int}
variable {shift : Nat}
variable {first second : Complex16}

/-- The scaling that the thresholds allow for values up to a bound. -/
def ScaledFor (shift : Nat) (bound : Int) : Prop :=
  (shift = 0 ∧ bound = 13573) ∨ (shift = 1 ∧ bound = 27146) ∨ (shift = 2 ∧ bound = 32768)

theorem twiddles_sum_le :
    ∀ twiddle ∈ twiddles, twiddle.1.natAbs + twiddle.2.natAbs ≤ 46338 := by
  decide +kernel

theorem sine_sum_le
    {j : Nat}
    (below : j < 512) :
    |sine (j + 256)| + |sine j| ≤ 46338 := by
  have sum :=
    twiddles_sum_le _ (List.mem_of_getElem? (twiddles_getElem? (j := j) (by omega)))
  rw [Int.abs_eq_natAbs, Int.abs_eq_natAbs]
  omega

/-- A turned value is longer than its parts by less than the square root of two. -/
theorem abs_product_le
    (unit : |wr| + |wi| ≤ 46338)
    (left : |q32| ≤ bound)
    (right : |t32| ≤ bound) :
    |wr * q32 + wi * t32| ≤ 46338 * bound := by
  have positive : 0 ≤ bound := (abs_nonneg _).trans left
  calc
    |wr * q32 + wi * t32| ≤ |wr| * |q32| + |wi| * |t32| := by
      rw [← abs_mul, ← abs_mul]
      exact abs_add_le _ _
    _ ≤ |wr| * bound + |wi| * bound := by
      have one := mul_le_mul_of_nonneg_left left (abs_nonneg wr)
      have two := mul_le_mul_of_nonneg_left right (abs_nonneg wi)
      omega
    _ = (|wr| + |wi|) * bound := by rw [add_mul]
    _ ≤ 46338 * bound := mul_le_mul_of_nonneg_right unit positive

/-- How large a turned value can be, in the unit of its mode. -/
def turnBound (mode bound : Int) : Int :=
  if mode = 0 then (46338 * bound + 32767) / 32768 else (46338 * bound + 1) / 2

theorem turned_within
    (unit : |wr| + |wi| ≤ 46338)
    (within : second.Within bound) :
    (turned mode wr wi second).Within (turnBound mode bound) := by
  have opposite : |wr| + |-wi| ≤ 46338 := by rwa [abs_neg]
  have re := abs_product_le opposite within.1 within.2
  have im := abs_product_le unit within.2 within.1
  rw [neg_mul, ← sub_eq_add_neg, abs_le] at re
  rw [abs_le] at im
  unfold turned turnBound Complex16.Within cfftrnd cfftsft
  split
  next low =>
      simp only [abs_le, Int.shiftRight_eq_div_pow]
      norm_num
      omega
  next high =>
      simp only [abs_le, Int.shiftRight_eq_div_pow]
      norm_num
      omega

/-- A sum that is scaled for its parts is a 16-bit integer. -/
theorem scaledSum_fits
    (scaled : ScaledFor shift bound)
    (value : |q32| ≤ bound)
    (turn : |t32| ≤ turnBound mode bound) :
    int16 (scaledSum mode shift (round2For shift) q32 t32) =
      scaledSum mode shift (round2For shift) q32 t32 := by
  rw [abs_le] at value turn
  unfold turnBound at turn
  unfold scaledSum round2For cfftsft
  apply int16_of_bounds <;> split at turn <;> simp only [*, if_true, if_false]
  all_goals
    obtain ⟨rfl, rfl⟩ | ⟨rfl, rfl⟩ | ⟨rfl, rfl⟩ := scaled
    all_goals
      simp only [Int.shiftRight_eq_div_pow]
      norm_num at *
      omega

/-- A butterfly whose results are 16-bit integers narrows nothing. -/
theorem butterfly_eq_of_fits
    {round2 : Int}
    (firstFits : (exactButterfly mode shift round2 wr wi first second).1.Fits)
    (secondFits : (exactButterfly mode shift round2 wr wi first second).2.Fits) :
    butterfly mode shift round2 wr wi first second =
      exactButterfly mode shift round2 wr wi first second := by
  obtain ⟨sums, sums'⟩ := firstFits
  obtain ⟨differences, differences'⟩ := secondFits
  unfold exactButterfly at sums sums' differences differences' ⊢
  unfold butterfly
  dsimp only at *
  rw [sums, sums', differences, differences']

theorem butterfly_eq_exact
    (mode : Int)
    (scaled : ScaledFor shift bound)
    (unit : |wr| + |wi| ≤ 46338)
    (firstWithin : first.Within bound)
    (secondWithin : second.Within bound) :
    butterfly mode shift (round2For shift) wr wi first second =
        exactButterfly mode shift (round2For shift) wr wi first second ∧
      (butterfly mode shift (round2For shift) wr wi first second).1.Fits ∧
        (butterfly mode shift (round2For shift) wr wi first second).2.Fits := by
  obtain ⟨re, im⟩ := turned_within unit secondWithin
  have reBack := re
  have imBack := im
  rw [← abs_neg] at reBack imBack
  have sums : (exactButterfly mode shift (round2For shift) wr wi first second).1.Fits :=
    ⟨scaledSum_fits scaled firstWithin.1 re, scaledSum_fits scaled firstWithin.2 im⟩
  have differences : (exactButterfly mode shift (round2For shift) wr wi first second).2.Fits :=
    ⟨scaledSum_fits scaled firstWithin.1 reBack, scaledSum_fits scaled firstWithin.2 imBack⟩
  have same := butterfly_eq_of_fits sums differences
  exact ⟨same, same ▸ sums, same ▸ differences⟩

end Butterflies

/-! ## Runs of the inverse transform -/

section Runs

variable {samples frfi : Nat → Complex16}
variable {shifts : Nat → Nat}
variable {mode scale : Int}
variable {n width rest k : Nat}

theorem within_foldl_max
    (frfi : Nat → Complex16)
    (n : Nat) :
    0 ≤ (List.range n).foldl
        (fun maximum i => max (max maximum |(frfi i).re|) |(frfi i).im|) 0 ∧
      ∀ i < n,
        (frfi i).Within
          ((List.range n).foldl
            (fun maximum i => max (max maximum |(frfi i).re|) |(frfi i).im|) 0) := by
  induction n with
  | zero => exact ⟨le_rfl, fun i below => absurd below (Nat.not_lt_zero i)⟩
  | succ n inductionHypothesis =>
      obtain ⟨nonneg, before⟩ := inductionHypothesis
      rw [List.range_succ, List.foldl_append, List.foldl_cons, List.foldl_nil]
      refine ⟨nonneg.trans ((le_max_left _ _).trans (le_max_left _ _)), fun i below => ?_⟩
      rcases Nat.lt_succ_iff_lt_or_eq.mp below with earlier | rfl
      · have small := before i earlier
        exact
          ⟨small.1.trans ((le_max_left _ _).trans (le_max_left _ _)),
            small.2.trans ((le_max_left _ _).trans (le_max_left _ _))⟩
      · exact ⟨(le_max_right _ _).trans (le_max_left _ _), le_max_right _ _⟩

/-- The scaling of a stage is enough for all values of the buffer. -/
theorem scaledFor_variableShift
    (fits : BufferFits n frfi) :
    ∃ bound,
      ScaledFor (variableShift (maxAbsValueW16 frfi n)) bound ∧
        ∀ i < n, (frfi i).Within bound := by
  obtain ⟨-, within⟩ := within_foldl_max frfi n
  unfold maxAbsValueW16 variableShift ScaledFor
  generalize (List.range n).foldl
    (fun maximum i => max (max maximum |(frfi i).re|) |(frfi i).im|) 0 = maximum at within ⊢
  have larger :
      ∀ bound, maximum ≤ bound → ∀ i < n, (frfi i).Within bound :=
    fun bound above i below =>
      ⟨(within i below).1.trans above, (within i below).2.trans above⟩
  by_cases small : maximum ≤ 13573
  · refine ⟨13573, .inl ⟨?_, rfl⟩, larger _ small⟩
    rw [if_neg (by omega), if_neg (by omega)]
  · by_cases moderate : maximum ≤ 27146
    · refine ⟨27146, .inr (.inl ⟨?_, rfl⟩), larger _ moderate⟩
      rw [if_pos (by omega), if_neg (by omega)]
    · refine ⟨32768, .inr (.inr ⟨?_, rfl⟩), fun i below => (fits i below).within⟩
      rw [if_pos (by omega), if_pos (by omega)]

/-- A stage with the scaling of its data loses nothing. -/
theorem stage_exact
    (inside : width + (rest + 1) ≤ 10)
    (fits : BufferFits (2 ^ (width + 1 + rest)) frfi)
    (scaled : shifts width = variableShift (maxAbsValueW16 frfi (2 ^ (width + 1 + rest)))) :
    stage (2 ^ width) (2 ^ (width + 1 + rest)) (inverse mode shifts width) frfi =
        stage (2 ^ width) (2 ^ (width + 1 + rest)) (exactInverse mode shifts width) frfi ∧
      BufferFits (2 ^ (width + 1 + rest))
        (stage (2 ^ width) (2 ^ (width + 1 + rest)) (inverse mode shifts width) frfi) := by
  obtain ⟨bound, enough, within⟩ := scaledFor_variableShift fits
  rw [← scaled] at enough
  have size : 2 ^ (width + 1 + rest) = 2 ^ rest * (2 * 2 ^ width) := by
    rw [Nat.pow_add, Nat.pow_succ]
    ring
  have crossing :
      ∀ place < 2 ^ width, ∀ first < 2 ^ (width + 1 + rest),
        ∀ second < 2 ^ (width + 1 + rest), _ :=
    fun place placeInside first firstInside second secondInside =>
      butterfly_eq_exact mode enough
        (sine_sum_le (sinePlace_lt (by omega) placeInside))
        (within first firstInside) (within second secondInside)
  rw [size] at crossing ⊢
  have positive := Nat.two_pow_pos width
  constructor
  · funext i
    by_cases below : i < 2 ^ rest * (2 * 2 ^ width)
    · obtain ⟨place, placeInside, first, firstInside, second, secondInside, found | found⟩ :=
        stage_cases frfi positive below
      · rw [found, found]
        exact congrArg Prod.fst
          (crossing place placeInside first firstInside second secondInside).1
      · rw [found, found]
        exact congrArg Prod.snd
          (crossing place placeInside first firstInside second secondInside).1
    · rw [stage_beyond frfi positive (not_lt.mp below),
        stage_beyond frfi positive (not_lt.mp below)]
  · intro i below
    obtain ⟨place, placeInside, first, firstInside, second, secondInside, found | found⟩ :=
      stage_cases frfi positive below
    · rw [found]
      exact (crossing place placeInside first firstInside second secondInside).2.1
    · rw [found]
      exact (crossing place placeInside first firstInside second secondInside).2.2

/-- The scalings of the first stages and their sum. -/
def Scaled (shifts : Nat → Nat) (width : Nat) (scale : Int) : Prop :=
  (∀ stage < width, shifts stage ≤ 2) ∧
    scale = ∑ stage ∈ Finset.range width, (shifts stage : Int)

theorem Scaled.update
    {shift : Nat}
    (scaled : Scaled shifts width scale)
    (most : shift ≤ 2) :
    Scaled (Function.update shifts width shift) (width + 1) (scale + shift) := by
  obtain ⟨small, sum⟩ := scaled
  constructor
  · intro stage below
    rw [Function.update_apply]
    split
    next last =>
        exact most
    next earlier =>
        exact small stage (by omega)
  · rw [Finset.sum_range_succ, Function.update_self, sum]
    congr 1
    refine Finset.sum_congr rfl fun stage member => ?_
    rw [Function.update_of_ne (by have := Finset.mem_range.mp member; omega)]

theorem complexIFFTFrom_exact
    (arranged : Arranged (exactInverse mode shifts) samples width rest frfi)
    (fits : BufferFits (2 ^ (width + rest)) frfi)
    (scaled : Scaled shifts width scale)
    (within : width + rest ≤ 10)
    (count : k + width = 10) :
    ∃ shifts final,
      complexIFFTFrom mode (2 ^ (width + rest)) k (2 ^ width) scale frfi = final ∧
        Arranged (exactInverse mode shifts) samples (width + rest) 0 final.1 ∧
          BufferFits (2 ^ (width + rest)) final.1 ∧
            Scaled shifts (width + rest) final.2 := by
  induction rest generalizing width k frfi shifts scale with
  | zero =>
      refine ⟨shifts, (frfi, scale), ?_, arranged, fits, scaled⟩
      cases k with
      | zero => rfl
      | succ k => rw [complexIFFTFrom, Nat.add_zero, if_neg (lt_irrefl _)]
  | succ rest inductionHypothesis =>
      obtain ⟨k, rfl⟩ : ∃ before, k = before + 1 := ⟨9 - width, by omega⟩
      have further : 2 ^ width < 2 ^ (width + (rest + 1)) :=
        Nat.pow_lt_pow_right Nat.one_lt_two (by omega)
      obtain rfl : k = 9 - width := by omega
      rw [complexIFFTFrom, if_pos further]
      dsimp only
      rw [← Nat.pow_succ]
      rw [show width + (rest + 1) = width + 1 + rest by omega] at fits ⊢
      generalize isShift :
        variableShift (maxAbsValueW16 frfi (2 ^ (width + 1 + rest))) = shift
      have most : shift ≤ 2 := by
        rw [← isShift]
        unfold variableShift
        split <;> split <;> omega
      have here : Function.update shifts width shift width = shift := Function.update_self ..
      have asBefore :
          ∀ stage < width,
            exactInverse mode shifts stage =
              exactInverse mode (Function.update shifts width shift) stage := by
        intro stage below
        unfold exactInverse
        rw [Function.update_of_ne below.ne]
      obtain ⟨same, nextFits⟩ :=
        stage_exact within fits (here.trans isShift.symm)
      have next := (arranged.congr asBefore).stage
      rw [← same] at next
      have butterflies :
          (fun m =>
            butterfly mode shift (round2For shift) (sine (m * 2 ^ (9 - width) + 256))
              (sine (m * 2 ^ (9 - width)))) =
            inverse mode (Function.update shifts width shift) width := by
        unfold inverse
        rw [here]
      rw [butterflies]
      exact inductionHypothesis next nextFits (scaled.update most) (by omega) (by omega)

/--
On 16-bit integers the inverse transform loses nothing in any stage: it is the recursion on
integers without bounds, each stage scaled down by at most two bits, and what it returns is
how many bits these are together.
-/
theorem complexIFFT_exact
    {stages : Nat}
    (samples : Nat → Complex16)
    (mode : Int)
    (most : stages ≤ 10)
    (fits : BufferFits (2 ^ stages) samples) :
    ∃ shifts,
      Scaled shifts stages
          (complexIFFT (complexBitReverse samples stages) stages mode).2 ∧
        ∀ i < 2 ^ stages,
          ((complexIFFT (complexBitReverse samples stages) stages mode).1 i).Fits ∧
            (complexIFFT (complexBitReverse samples stages) stages mode).1 i =
              radix2 (exactInverse mode shifts) stages samples i := by
  have inTable : ¬1024 < 2 ^ stages :=
    not_lt.mpr (Nat.pow_le_pow_right Nat.two_pos most)
  have start :
      Arranged (exactInverse mode fun _ => 0) samples 0 stages (mirrored stages samples) :=
    arranged_mirrored
  have startFits : BufferFits (2 ^ (0 + stages)) (mirrored stages samples) := by
    intro i below
    rw [Nat.zero_add] at below
    rw [mirrored, if_pos below]
    exact fits _ (reversed_lt stages i)
  have unscaled : Scaled (fun _ => 0) 0 0 :=
    ⟨fun stage below => absurd below (Nat.not_lt_zero stage), rfl⟩
  obtain ⟨shifts, final, ran, arranged, finalFits, scaled⟩ :=
    complexIFFTFrom_exact (k := 10) start startFits unscaled (by omega) rfl
  rw [Nat.zero_add] at ran arranged finalFits scaled
  rw [complexIFFT, if_neg inTable, complexBitReverse_eq, ← Nat.pow_zero 2, ran]
  exact ⟨shifts, scaled, fun i below => ⟨finalFits i below, arranged.final below⟩⟩

/-- At full scale, in the size of the mobile echo control. -/
theorem complexIFFT_exact_fullScale :
    ∃ shifts,
      Scaled shifts 7
          (complexIFFT (complexBitReverse (fun _ => ⟨32767, -32768⟩) 7) 7 1).2 ∧
        ∀ i < 2 ^ 7,
          ((complexIFFT (complexBitReverse (fun _ => ⟨32767, -32768⟩) 7) 7 1).1 i).Fits ∧
            (complexIFFT (complexBitReverse (fun _ => ⟨32767, -32768⟩) 7) 7 1).1 i =
              radix2 (exactInverse 1 shifts) 7 (fun _ => ⟨32767, -32768⟩) i :=
  complexIFFT_exact _ 1 (by decide) fun _ _ => ⟨by decide, by decide⟩

end Runs

end ApmSdk.ComplexFft
