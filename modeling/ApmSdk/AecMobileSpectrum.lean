import ApmSdk.ChannelUpdate
import ApmSdk.ComplexFftAccuracy
import ApmSdk.NearFilter
import ApmSdk.SqrtFloor

namespace ApmSdk.Aecm

/-!
# The spectrum of a block

A block of the mobile echo control is scaled up as far as its largest sample allows, taken
through a window and transformed.  The magnitudes that the echo control works on are the
integer parts of the moduli.
-/

open ComplexFft SqrtFloor Complex

/-- `WebRtcAecm_kSqrtHanning` -/
def kSqrtHanning : List Int :=
  [0, 399, 798, 1196, 1594, 1990, 2386, 2780, 3172, 3562, 3951, 4337, 4720, 5101, 5478, 5853,
    6224, 6591, 6954, 7313, 7668, 8019, 8364, 8705, 9040, 9370, 9695, 10013, 10326, 10633,
    10933, 11227, 11514, 11795, 12068, 12335, 12594, 12845, 13089, 13325, 13553, 13773, 13985,
    14189, 14384, 14571, 14749, 14918, 15079, 15231, 15373, 15506, 15631, 15746, 15851, 15947,
    16034, 16111, 16179, 16237, 16286, 16325, 16354, 16373, 16384]

/-- The window at a place of a block, which falls as it rose. -/
def windowAt (i : Nat) : Int :=
  kSqrtHanning.getD (if i < 64 then i else 128 - i) 0

/-- `WebRtcSpl_MaxAbsValueW16` of the samples of a block. -/
def maxAbsSample (timeSignal : Nat → Int) : Int :=
  min 32767 ((List.range 128).foldl (fun maximum i => max maximum |timeSignal i|) 0)

/-- The part of `WindowAndFFT` before the transform. -/
def windowed (timeSignal : Nat → Int) (timeSignalScaling i : Nat) : Int :=
  int16 ((int16 (timeSignal i * 2 ^ timeSignalScaling) * windowAt i) >>> (14 : Nat))

/-- `WindowAndFFT` -/
def windowAndFFT (timeSignal : Nat → Int) (timeSignalScaling : Nat) : Nat → Complex16 :=
  let transformed := (realForwardFFT 7 (windowed timeSignal timeSignalScaling)).1
  fun i =>
    if i < 64 then { re := (transformed i).re, im := int16 (-(transformed i).im) }
    else transformed i

/-- `WEBRTC_SPL_ABS_W16` -/
def absW16 (a : Int) : Int :=
  if 0 ≤ a then a else -a

/-- The magnitude of a bin that is neither the first nor the last. -/
def binMagnitude (bin : Complex16) : Int :=
  if bin.re = 0 then uint16 (absW16 bin.im)
  else if bin.im = 0 then uint16 (absW16 bin.re)
  else
    let tmp16no1 := int16 (absW16 bin.re)
    let tmp16no2 := int16 (absW16 bin.im)
    uint16 (sqrtFloor (addSatW32 (tmp16no1 * tmp16no1) (tmp16no2 * tmp16no2)))

/-- What `TimeToFrequencyDomain` writes and returns. -/
structure BlockSpectrum where
  freqSignal : Nat → Complex16
  freqSignalAbs : List Int
  freqSignalSumAbs : Int
  timeSignalScaling : Nat

/--
`TimeToFrequencyDomain`.  The source begins the sum with the first and the last magnitude,
which makes no difference to a sum modulo `2 ^ 32`.
-/
def timeToFrequencyDomain (timeSignal : Nat → Int) : BlockSpectrum :=
  let timeSignalScaling := normW16 (maxAbsSample timeSignal)
  let transformed := windowAndFFT timeSignal timeSignalScaling
  let freqSignal := fun i =>
    if i = 0 ∨ i = 64 then { re := (transformed i).re, im := 0 } else transformed i
  let freqSignalAbs := (List.range 65).map fun i =>
    if i = 0 ∨ i = 64 then uint16 (absW16 (freqSignal i).re) else binMagnitude (freqSignal i)
  { freqSignal := freqSignal
    freqSignalAbs := freqSignalAbs
    freqSignalSumAbs := freqSignalAbs.foldl (fun sum magnitude => uint32 (sum + magnitude)) 0
    timeSignalScaling := timeSignalScaling }

/-! ## Magnitudes -/

section Magnitudes

variable {bin : Complex16}

theorem Complex16.Fits.bounds
    (fits : bin.Fits) :
    (-(2 ^ 15) ≤ bin.re ∧ bin.re < 2 ^ 15) ∧ -(2 ^ 15) ≤ bin.im ∧ bin.im < 2 ^ 15 := by
  have re := int16_bounds bin.re
  have im := int16_bounds bin.im
  rw [fits.1] at re
  rw [fits.2] at im
  exact ⟨re, im⟩

/-- The square of a magnitude, which is as much as its sign bit can hold. -/
theorem int16_absW16_square
    {value : Int}
    (lower : -(2 ^ 15) ≤ value)
    (upper : value < 2 ^ 15) :
    int16 (absW16 value) * int16 (absW16 value) = value ^ 2 := by
  unfold absW16
  split
  next nonneg =>
      rw [int16_of_bounds lower upper]
      ring
  next negative =>
      rcases lower.eq_or_lt with least | inside
      · rw [← least]
        decide
      · rw [int16_of_bounds (by omega) (by omega)]
        ring

/-- Only two smallest parts saturate, to a sum with the same root. -/
theorem sqrt_addSatW32
    {first second : Int}
    (firstNonneg : 0 ≤ first)
    (secondNonneg : 0 ≤ second)
    (firstMost : first ≤ 2 ^ 30)
    (secondMost : second ≤ 2 ^ 30) :
    sqrtFloor (addSatW32 first second) = Nat.sqrt (first + second).toNat := by
  unfold addSatW32
  dsimp only
  rw [if_neg (by omega)]
  by_cases most : first + second < 2 ^ 31
  · rw [int32_of_bounds (by omega) most, if_neg (by omega)]
    exact sqrtFloor_of_nonneg (by omega) most
  · obtain rfl : first = 2 ^ 30 := by omega
    obtain rfl : second = 2 ^ 30 := by omega
    rw [if_pos (by decide)]
    decide +kernel

theorem sqrt_lt_of_bounds
    (re : -(2 ^ 15) ≤ bin.re ∧ bin.re < 2 ^ 15)
    (im : -(2 ^ 15) ≤ bin.im ∧ bin.im < 2 ^ 15) :
    (Nat.sqrt (bin.re ^ 2 + bin.im ^ 2).toNat : Int) < 2 ^ 16 := by
  have reMost : bin.re ^ 2 ≤ 2 ^ 30 := by nlinarith
  have imMost : bin.im ^ 2 ≤ 2 ^ 30 := by nlinarith
  have root : Nat.sqrt (bin.re ^ 2 + bin.im ^ 2).toNat < 2 ^ 16 := by
    rw [Nat.sqrt_lt']
    omega
  exact_mod_cast root

/-- The magnitude of a bin is the integer part of its modulus. -/
theorem binMagnitude_eq (fits : bin.Fits) :
    binMagnitude bin = Nat.sqrt (bin.re ^ 2 + bin.im ^ 2).toNat := by
  obtain ⟨⟨reLower, reUpper⟩, imLower, imUpper⟩ := Complex16.Fits.bounds fits
  have alone :
      ∀ value : Int, -(2 ^ 15) ≤ value → value < 2 ^ 15 →
        uint16 (absW16 value) = Nat.sqrt (value ^ 2).toNat := by
    intro value lower upper
    have nonneg : absW16 value = value.natAbs := by
      unfold absW16
      split <;> omega
    rw [nonneg, uint16_of_bounds (by omega) (by omega), ← Int.natAbs_sq,
      ← Nat.cast_pow, Int.toNat_natCast, Nat.sqrt_eq']
  unfold binMagnitude
  split
  next zero =>
      rw [zero, alone _ imLower imUpper]
      norm_num
  next =>
      split
      next zero =>
          rw [zero, alone _ reLower reUpper]
          norm_num
      next =>
          dsimp only
          rw [int16_absW16_square reLower reUpper, int16_absW16_square imLower imUpper,
            sqrt_addSatW32 (sq_nonneg _) (sq_nonneg _) (by nlinarith) (by nlinarith)]
          exact
            uint16_of_bounds (by omega)
              (sqrt_lt_of_bounds ⟨reLower, reUpper⟩ ⟨imLower, imUpper⟩)

/-- A magnitude is within one of the modulus. -/
theorem sqrt_close (bin : Complex16) :
    |(Nat.sqrt (bin.re ^ 2 + bin.im ^ 2).toNat : ℝ) - ‖bin.toComplex‖| ≤ 1 := by
  have nonneg : 0 ≤ bin.re ^ 2 + bin.im ^ 2 := by positivity
  have square : ‖bin.toComplex‖ ^ 2 = ((bin.re ^ 2 + bin.im ^ 2).toNat : ℝ) := by
    rw [Complex.sq_norm, normSq_apply]
    have whole : (((bin.re ^ 2 + bin.im ^ 2).toNat : Int) : ℝ) = (bin.re ^ 2 + bin.im ^ 2 : Int) :=
      congrArg _ (Int.toNat_of_nonneg nonneg)
    rw [Int.cast_natCast] at whole
    rw [whole]
    dsimp only [Complex16.toComplex, gaussian]
    push_cast
    ring
  generalize (bin.re ^ 2 + bin.im ^ 2).toNat = sum at square ⊢
  have root : ‖bin.toComplex‖ = Real.sqrt sum := by
    rw [← square, Real.sqrt_sq (norm_nonneg _)]
  have lower := Real.nat_sqrt_le_real_sqrt (a := sum)
  have upper := Real.real_sqrt_lt_nat_sqrt_succ (a := sum)
  rw [root, abs_le]
  constructor <;> linarith

end Magnitudes

/-! ## The window -/

section Window

variable {timeSignal : Nat → Int} {i : Nat}

/-- Only in the middle of a block does the window leave a sample as it is. -/
theorem windowAt_bounds :
    ∀ i ∈ List.range 128,
      0 ≤ windowAt i ∧ windowAt i ≤ 16384 ∧ (i ≠ 64 → windowAt i ≤ 16373) := by
  decide +kernel

theorem le_maxAbs
    (timeSignal : Nat → Int)
    (count : Nat) :
    0 ≤ (List.range count).foldl (fun maximum i => max maximum |timeSignal i|) 0 ∧
      ∀ i < count,
        |timeSignal i| ≤
          (List.range count).foldl (fun maximum i => max maximum |timeSignal i|) 0 := by
  induction count with
  | zero => exact ⟨le_rfl, fun i below => absurd below (Nat.not_lt_zero i)⟩
  | succ count inductionHypothesis =>
      obtain ⟨nonneg, before⟩ := inductionHypothesis
      rw [List.range_succ, List.foldl_append, List.foldl_cons, List.foldl_nil]
      refine ⟨nonneg.trans (le_max_left _ _), fun i below => ?_⟩
      rcases Nat.lt_succ_iff_lt_or_eq.mp below with earlier | rfl
      · exact (before i earlier).trans (le_max_left _ _)
      · exact le_max_right _ _

/-- The scaling of a block keeps its samples in 16 bits. -/
theorem scaled_bounds
    (fits : ∀ i < 128, int16 (timeSignal i) = timeSignal i)
    (inside : i < 128) :
    -(2 ^ 15) ≤ timeSignal i * 2 ^ normW16 (maxAbsSample timeSignal) ∧
      timeSignal i * 2 ^ normW16 (maxAbsSample timeSignal) < 2 ^ 15 := by
  obtain ⟨nonneg, most⟩ := le_maxAbs timeSignal 128
  have sample := most i inside
  have bounds := int16_bounds (timeSignal i)
  rw [fits i inside] at bounds
  unfold maxAbsSample
  generalize (List.range 128).foldl (fun maximum i => max maximum |timeSignal i|) 0 = maximum
    at nonneg sample ⊢
  rcases nonneg.eq_or_lt with zero | positive
  · rw [← zero] at sample ⊢
    rw [abs_nonpos_iff.mp sample]
    norm_num
  · obtain ⟨-, below⟩ :=
      normW16_normalises (show 0 < min 32767 maximum by omega) (by omega)
    have power : (0 : Int) < 2 ^ normW16 (min 32767 maximum) := by positivity
    by_cases large : maximum ≤ 32767
    · rw [min_eq_right large] at below power ⊢
      have scaled := mul_le_mul_of_nonneg_right sample power.le
      rw [← abs_of_pos power, ← abs_mul, abs_of_pos power, abs_le] at scaled
      omega
    · have unscaled : normW16 (min 32767 maximum) = 0 := by
        rw [min_eq_left (by omega)]
        decide
      rw [unscaled]
      omega

/-- A windowed sample, which is rounded down. -/
theorem windowed_spec
    (fits : ∀ i < 128, int16 (timeSignal i) = timeSignal i)
    (inside : i < 128) :
    let sample := timeSignal i * 2 ^ normW16 (maxAbsSample timeSignal)
    let result := windowed timeSignal (normW16 (maxAbsSample timeSignal)) i
    (result * 2 ^ 14 ≤ sample * windowAt i ∧
        sample * windowAt i < result * 2 ^ 14 + 2 ^ 14) ∧
      ((i = 64 → |sample| ≤ 32760) → |result| ≤ 32760) := by
  dsimp only
  obtain ⟨lower, upper⟩ := scaled_bounds fits inside
  obtain ⟨nonneg, most, notMiddle⟩ := windowAt_bounds i (List.mem_range.mpr inside)
  unfold windowed
  rw [int16_of_bounds lower upper]
  generalize timeSignal i * 2 ^ normW16 (maxAbsSample timeSignal) = sample at lower upper ⊢
  have high : sample * windowAt i ≤ 32767 * windowAt i :=
    mul_le_mul_of_nonneg_right (by omega) nonneg
  have low : -32768 * windowAt i ≤ sample * windowAt i :=
    mul_le_mul_of_nonneg_right (by omega) nonneg
  have middle : |sample| ≤ 32760 →
      -32760 * windowAt i ≤ sample * windowAt i ∧ sample * windowAt i ≤ 32760 * windowAt i := by
    intro short
    rw [abs_le] at short
    exact
      ⟨mul_le_mul_of_nonneg_right (by omega) nonneg,
        mul_le_mul_of_nonneg_right (by omega) nonneg⟩
  rw [Int.shiftRight_eq_div_pow]
  generalize windowAt i = window at nonneg most notMiddle high low middle ⊢
  generalize sample * window = product at high low middle ⊢
  norm_num
  rw [int16_of_bounds (by omega) (by omega)]
  refine ⟨⟨by omega, by omega⟩, fun allowed => ?_⟩
  rw [abs_le]
  by_cases isMiddle : i = 64
  · have bounds := middle (allowed isMiddle)
    omega
  · have smaller := notMiddle isMiddle
    omega

end Window

/-! ## Accuracy -/

/-- A sum of so few magnitudes does not leave 32 bits. -/
theorem foldl_uint32
    {magnitudes : List Int}
    {start : Int}
    (nonneg : 0 ≤ start)
    (small : ∀ magnitude ∈ magnitudes, 0 ≤ magnitude ∧ magnitude < 2 ^ 16)
    (room : start + 2 ^ 16 * magnitudes.length < 2 ^ 32) :
    magnitudes.foldl (fun sum magnitude => uint32 (sum + magnitude)) start =
      start + magnitudes.sum := by
  induction magnitudes generalizing start with
  | nil => simp
  | cons magnitude magnitudes inductionHypothesis =>
      obtain ⟨first, rest⟩ := List.forall_mem_cons.mp small
      rw [List.length_cons] at room
      push_cast at room
      rw [List.foldl_cons, uint32_of_bounds (by omega) (by omega),
        inductionHypothesis (by omega) rest (by omega), List.sum_cons]
      ring

section Blocks

variable {timeSignal : Nat → Int} {i : Nat}

/-- The samples of a block behind the window, as real numbers. -/
noncomputable def windowedSignal (timeSignal : Nat → Int) (timeSignalScaling j : Nat) : ℝ :=
  (timeSignal j * 2 ^ timeSignalScaling * windowAt j : Int) / (2 ^ 14 : Nat)

/-- A bin of the transformed block is close to that of the windowed signal. -/
theorem transformed_close
    (fits : ∀ i < 128, int16 (timeSignal i) = timeSignal i)
    (middle : |timeSignal 64 * 2 ^ normW16 (maxAbsSample timeSignal)| ≤ 32760)
    (inside : i < 128) :
    let transformed :=
      (realForwardFFT 7 (windowed timeSignal (normW16 (maxAbsSample timeSignal)))).1 i
    transformed.Fits ∧
      ‖transformed.toComplex -
          meanTransform 7
            (fun j => (windowedSignal timeSignal (normW16 (maxAbsSample timeSignal)) j : ℂ))
            i‖ ≤ 15 := by
  dsimp only
  have spec := fun {j} (below : j < 128) => windowed_spec fits below
  have room :
      ∀ j < 2 ^ 7,
        |windowed timeSignal (normW16 (maxAbsSample timeSignal)) j| ≤ 32767 - (7 : Nat) := by
    intro j below
    refine ((spec below).2 fun isMiddle => ?_).trans (by norm_num)
    rw [isMiddle]
    exact middle
  obtain ⟨small, near⟩ := realForwardFFT_bin_close (by norm_num) room inside
  have rounded :
      ‖meanTransform 7
            (fun j => (windowed timeSignal (normW16 (maxAbsSample timeSignal)) j : ℂ)) i -
          meanTransform 7
            (fun j => (windowedSignal timeSignal (normW16 (maxAbsSample timeSignal)) j : ℂ))
            i‖ ≤ 1 :=
    meanTransform_close
      (fun j below => by
        obtain ⟨⟨lower, upper⟩, -⟩ := spec below
        rw [← ofReal_intCast, ← ofReal_sub, norm_real, Real.norm_eq_abs, abs_le]
        unfold windowedSignal
        have lowerReal := (Int.cast_le (R := ℝ)).mpr lower
        have upperReal := (Int.cast_lt (R := ℝ)).mpr upper
        push_cast at lowerReal upperReal ⊢
        constructor <;> linarith)
      i
  refine ⟨Complex16.fits_of_norm_le ?_, ?_⟩
  · push_cast at small
    linarith
  · refine (norm_sub_le_norm_sub_add_norm_sub _ _ _).trans (add_le_add near rounded |>.trans ?_)
    norm_num

/-- The bins that the magnitudes are of, up to a sign. -/
def magnitudeBin (transformed : Nat → Complex16) (i : Nat) : Complex16 :=
  if i = 0 ∨ i = 64 then { re := (transformed i).re, im := 0 } else transformed i

theorem magnitudeBin_fits
    {transformed : Nat → Complex16}
    (fits : (transformed i).Fits) :
    (magnitudeBin transformed i).Fits := by
  unfold magnitudeBin
  split
  · exact ⟨fits.1, rfl⟩
  · exact fits

/-- Every magnitude is the integer part of the modulus of its bin. -/
theorem freqSignalAbs_eq
    (fits :
      ∀ i < 65,
        ((realForwardFFT 7
          (windowed timeSignal (normW16 (maxAbsSample timeSignal)))).1 i).Fits) :
    (timeToFrequencyDomain timeSignal).freqSignalAbs =
      (List.range 65).map fun i =>
        let bin :=
          magnitudeBin
            (realForwardFFT 7 (windowed timeSignal (normW16 (maxAbsSample timeSignal)))).1 i
        (Nat.sqrt (bin.re ^ 2 + bin.im ^ 2).toNat : Int) := by
  unfold timeToFrequencyDomain
  refine List.map_congr_left fun i member => ?_
  have inside := fits i (List.mem_range.mp member)
  unfold windowAndFFT
  dsimp only
  generalize
    (realForwardFFT 7 (windowed timeSignal (normW16 (maxAbsSample timeSignal)))).1 =
      transformed at inside ⊢
  unfold magnitudeBin
  by_cases edge : i = 0 ∨ i = 64
  · have real : Complex16.Fits { re := (transformed i).re, im := 0 } := ⟨inside.1, rfl⟩
    have magnitude := binMagnitude_eq real
    have same :
        binMagnitude { re := (transformed i).re, im := 0 } =
          uint16 (absW16 (transformed i).re) := by
      unfold binMagnitude
      dsimp only
      split
      next zero => rw [zero]
      next => rfl
    rw [if_pos edge, if_pos edge, if_pos edge, ← magnitude, same]
    split <;> rfl
  · rw [if_neg edge, if_neg edge, if_neg edge, if_pos (by
      have below := List.mem_range.mp member
      omega)]
    have opposite : Complex16.Fits
        { re := (transformed i).re, im := int16 (-(transformed i).im) } := by
      have bounds := int16_bounds (-(transformed i).im)
      exact ⟨inside.1, int16_of_bounds bounds.1 bounds.2⟩
    have square : int16 (-(transformed i).im) ^ 2 = (transformed i).im ^ 2 := by
      obtain ⟨-, lower, upper⟩ := Complex16.Fits.bounds inside
      rcases lower.eq_or_lt with least | larger
      · rw [← least]
        decide
      · rw [int16_of_bounds (by omega) (by omega), neg_sq]
    rw [binMagnitude_eq opposite]
    dsimp only
    rw [square]

/--
A magnitude of the block is within sixteen units of the modulus of the transform of the
scaled and windowed block, and the magnitudes are added up without loss.
-/
theorem timeToFrequencyDomain_close
    (fits : ∀ i < 128, int16 (timeSignal i) = timeSignal i)
    (middle :
      |timeSignal 64 * 2 ^ (timeToFrequencyDomain timeSignal).timeSignalScaling| ≤ 32760) :
    (timeToFrequencyDomain timeSignal).freqSignalSumAbs =
        (timeToFrequencyDomain timeSignal).freqSignalAbs.sum ∧
      ∀ i < 65,
        |((timeToFrequencyDomain timeSignal).freqSignalAbs.getD i 0 : ℝ) -
            ‖meanTransform 7
                (fun j =>
                  (windowedSignal timeSignal
                    (timeToFrequencyDomain timeSignal).timeSignalScaling j : ℂ))
                i‖| ≤ 16 := by
  have close := fun {i} (inside : i < 128) => transformed_close fits middle inside
  dsimp only at close
  have magnitudes :=
    freqSignalAbs_eq fun i below => (close (i := i) (by omega)).1
  rw [show (timeToFrequencyDomain timeSignal).timeSignalScaling =
    normW16 (maxAbsSample timeSignal) from rfl]
  constructor
  · have sum :
        (timeToFrequencyDomain timeSignal).freqSignalSumAbs =
          (timeToFrequencyDomain timeSignal).freqSignalAbs.foldl
            (fun sum magnitude => uint32 (sum + magnitude)) 0 := rfl
    rw [sum, foldl_uint32 le_rfl, zero_add]
    · intro magnitude member
      rw [magnitudes, List.mem_map] at member
      obtain ⟨i, below, rfl⟩ := member
      have bounds :=
        Complex16.Fits.bounds
          (magnitudeBin_fits
            (close (Nat.lt_of_lt_of_le (List.mem_range.mp below) (by norm_num))).1)
      exact ⟨Int.natCast_nonneg _, sqrt_lt_of_bounds bounds.1 bounds.2⟩
    · rw [magnitudes, List.length_map, List.length_range]
      norm_num
  · intro i below
    obtain ⟨binFits, near⟩ := close (i := i) (by omega)
    rw [magnitudes, List.getD_eq_getElem?_getD, List.getElem?_map,
      List.getElem?_range below, Option.map_some, Option.getD_some]
    dsimp only
    generalize
      (realForwardFFT 7 (windowed timeSignal (normW16 (maxAbsSample timeSignal)))).1 =
        transformed at binFits near ⊢
    have real :=
      im_meanTransform_of_real (i := i) 7
        (windowedSignal timeSignal (normW16 (maxAbsSample timeSignal)))
    generalize
      meanTransform 7
          (fun j => (windowedSignal timeSignal (normW16 (maxAbsSample timeSignal)) j : ℂ)) i =
        exact at near real ⊢
    have binNear : ‖(magnitudeBin transformed i).toComplex - exact‖ ≤ 15 := by
      refine le_trans ?_ near
      unfold magnitudeBin
      split
      next edge =>
          have imZero := real (edge.imp id fun middle => by rw [middle]; norm_num)
          have parts :
              Complex16.toComplex { re := (transformed i).re, im := 0 } - exact =
                (((transformed i).toComplex - exact).re : ℂ) := by
            apply Complex.ext
            · simp [Complex16.toComplex, gaussian]
            · simp [Complex16.toComplex, gaussian, imZero]
          rw [parts, norm_real, Real.norm_eq_abs]
          exact abs_re_le_norm _
      next inner =>
          exact le_rfl
    have modulus := (abs_norm_sub_norm_le _ _).trans binNear
    have root := sqrt_close (magnitudeBin transformed i)
    rw [Int.cast_natCast]
    rw [abs_le] at modulus root ⊢
    constructor <;> linarith

end Blocks

/-- A block of two periods of a quiet square wave, which is scaled up five times. -/
def quietBlock (j : Nat) : Int :=
  if j % 64 < 32 then 700 else -700

/-- The magnitudes of the quiet block. -/
theorem timeToFrequencyDomain_close_quietBlock :
    (timeToFrequencyDomain quietBlock).freqSignalSumAbs =
        (timeToFrequencyDomain quietBlock).freqSignalAbs.sum ∧
      ∀ i < 65,
        |((timeToFrequencyDomain quietBlock).freqSignalAbs.getD i 0 : ℝ) -
            ‖meanTransform 7
                (fun j =>
                  (windowedSignal quietBlock
                    (timeToFrequencyDomain quietBlock).timeSignalScaling j : ℂ))
                i‖| ≤ 16 :=
  timeToFrequencyDomain_close
    (fun j _ => by
      unfold quietBlock
      split <;> decide)
    (by decide +kernel)

end ApmSdk.Aecm
