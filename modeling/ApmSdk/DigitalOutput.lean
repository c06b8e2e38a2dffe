import ApmSdk.DigitalGains
import ApmSdk.RingStream
import Mathlib.Data.List.Forall2

namespace ApmSdk.Agc

/-!
# The output of the digital gain control

Every sample of every band is multiplied by a gain that is interpolated over its
millisecond.  The first millisecond saturates; the others keep 16 bits of the product.
-/

/-! ## The interpolated gain -/

/-- The gain at a sample in Q20, over exact integers. -/
def exactGainAt (shift : Nat) (gain next : Int) (n : Nat) : Int :=
  gain * 2 ^ 4 + n * ((next - gain) * 2 ^ shift)

theorem gainRamp_eq
    (start delta : Int)
    (n : Nat) :
    gainRamp (int32 start) (int32 delta) n = int32 (start + n * delta) := by
  induction n with
  | zero =>
      unfold gainRamp
      rw [Nat.cast_zero, Int.zero_mul, Int.add_zero]
  | succ n inductionHypothesis =>
      unfold gainRamp
      rw [inductionHypothesis]
      unfold int32
      rw [Int.add_bmod_bmod, Int.bmod_add_bmod, Nat.cast_succ, Int.add_mul,
        Int.one_mul, Int.add_assoc]

/-- The gain at a sample is the exact one in 32 bits, whatever is lost on the way. -/
theorem gainAt_eq
    (shift : Nat)
    (gain next : Int)
    (n : Nat) :
    gainAt shift gain next n = int32 (exactGainAt shift gain next n) := by
  have delta :
      int32 (int32 (next - gain) * 2 ^ shift) =
        int32 ((next - gain) * 2 ^ shift) :=
    Int.bmod_mul_bmod
  unfold gainAt
  rw [delta]
  exact gainRamp_eq (gain * 2 ^ 4) ((next - gain) * 2 ^ shift) n

/-! ## Samples -/

/-- A sample times a gain in Q20, to 16 bits. -/
def exactOutput (sample gain32 : Int) : Int :=
  (sample * gain32 >>> (4 : Nat)) >>> (16 : Nat)

/-- What an output sample must be: the product saturated, with the sign of the input. -/
structure SampleSaturated (sample gain32 out : Int) : Prop where
  saturated : out = satW32ToW16 (exactOutput sample gain32)
  nonneg : 0 ≤ sample → 0 ≤ out
  nonpos : sample ≤ 0 → out ≤ 0

/-- A sample that a gain keeps within 16 bits. -/
structure SampleFits (sample gain32 : Int) : Prop where
  gain : 0 ≤ gain32 ∧ gain32 < 2 ^ 31
  product : Fits32 (sample * gain32 >>> (4 : Nat))

instance (sample gain32 : Int) : Decidable (SampleFits sample gain32) :=
  decidable_of_iff
    ((0 ≤ gain32 ∧ gain32 < 2 ^ 31) ∧
      Fits32 (sample * gain32 >>> (4 : Nat)))
    ⟨fun ⟨gain, product⟩ => ⟨gain, product⟩,
      fun ⟨gain, product⟩ => ⟨gain, product⟩⟩

/-- `(gain32 + 127) >> 7`, by which the first millisecond estimates its output. -/
def roundedGain (gain32 : Int) : Int :=
  (gain32 + 127) >>> (7 : Nat)

/-- A sample of the first millisecond whose estimate has 32 bits, and exceeds 16 bits
only where the product does. -/
structure FirstSampleFits (sample gain32 : Int) : Prop where
  gain : 0 ≤ gain32 ∧ gain32 + 127 < 2 ^ 31
  estimate : Fits32 (sample * roundedGain gain32)
  above :
    2 ^ 28 ≤ sample * roundedGain gain32 →
      32767 * 2 ^ 16 ≤ sample * gain32 >>> (4 : Nat)
  below :
    sample * roundedGain gain32 < -(2 ^ 28) →
      sample * gain32 >>> (4 : Nat) < -(32767 * 2 ^ 16)

instance (sample gain32 : Int) : Decidable (FirstSampleFits sample gain32) :=
  decidable_of_iff
    ((0 ≤ gain32 ∧ gain32 + 127 < 2 ^ 31) ∧
      Fits32 (sample * roundedGain gain32) ∧
        (2 ^ 28 ≤ sample * roundedGain gain32 →
          32767 * 2 ^ 16 ≤ sample * gain32 >>> (4 : Nat)) ∧
          (sample * roundedGain gain32 < -(2 ^ 28) →
            sample * gain32 >>> (4 : Nat) < -(32767 * 2 ^ 16)))
    ⟨fun ⟨gain, estimate, above, below⟩ => ⟨gain, estimate, above, below⟩,
      fun ⟨gain, estimate, above, below⟩ => ⟨gain, estimate, above, below⟩⟩

/-- A saturated product has the sign of the sample. -/
theorem sampleSaturated_of_nonneg
    {sample gain32 out : Int}
    (gainNonneg : 0 ≤ gain32)
    (saturated : out = satW32ToW16 (exactOutput sample gain32)) :
    SampleSaturated sample gain32 out := by
  have factor : 0 ≤ gain32 >>> (4 : Nat) := by
    rw [Int.shiftRight_eq_div_pow]
    omega
  refine ⟨saturated, ?_, ?_⟩ <;>
    unfold exactOutput satW32ToW16 at saturated <;>
      rw [Int.shiftRight_eq_div_pow] at saturated
  · intro nonneg
    have product : 0 ≤ sample * gain32 >>> (4 : Nat) :=
      Int.mul_nonneg nonneg factor
    generalize sample * gain32 >>> (4 : Nat) = product at *
    split at saturated <;> omega
  · intro nonpos
    have product : sample * gain32 >>> (4 : Nat) ≤ 0 :=
      Int.mul_nonpos_of_nonpos_of_nonneg nonpos factor
    generalize sample * gain32 >>> (4 : Nat) = product at *
    split at saturated <;> omega

/-- A product of 32 bits is not saturated. -/
theorem gainedSample_eq
    {sample gain32 : Int}
    (fits : Fits32 (sample * gain32 >>> (4 : Nat))) :
    gainedSample sample gain32 =
      satW32ToW16 (exactOutput sample gain32) := by
  unfold gainedSample
  rw [fits.int32_eq]
  unfold exactOutput satW32ToW16
  rw [Int.shiftRight_eq_div_pow]
  obtain ⟨lower, upper⟩ := fits
  generalize sample * gain32 >>> (4 : Nat) = product at *
  rw [int16_of_bounds (by omega) (by omega), if_neg (by omega),
    if_neg (by omega)]

theorem SampleFits.saturated
    {sample gain32 : Int}
    (fits : SampleFits sample gain32) :
    SampleSaturated sample gain32 (gainedSample sample gain32) :=
  sampleSaturated_of_nonneg fits.gain.1 (gainedSample_eq fits.product)

/-- A product is within eight times its estimate. -/
theorem product_bounds
    {gain32 : Int}
    (sample : Int)
    (gainNonneg : 0 ≤ gain32) :
    (0 ≤ sample →
        0 ≤ sample * gain32 >>> (4 : Nat) ∧
          sample * gain32 >>> (4 : Nat) ≤
            8 * (sample * roundedGain gain32)) ∧
      (sample ≤ 0 →
        sample * gain32 >>> (4 : Nat) ≤ 0 ∧
          8 * (sample * roundedGain gain32) ≤
            sample * gain32 >>> (4 : Nat)) := by
  have factor :
      0 ≤ gain32 >>> (4 : Nat) ∧
        gain32 >>> (4 : Nat) ≤ 8 * roundedGain gain32 := by
    unfold roundedGain
    simp only [Int.shiftRight_eq_div_pow]
    omega
  obtain ⟨nonneg, atMost⟩ := factor
  rw [Int.mul_left_comm]
  constructor
  · intro sampleNonneg
    exact
      ⟨Int.mul_nonneg sampleNonneg nonneg,
        Int.mul_le_mul_of_nonneg_left atMost sampleNonneg⟩
  · intro sampleNonpos
    exact
      ⟨Int.mul_nonpos_of_nonpos_of_nonneg sampleNonpos nonneg,
        Int.mul_le_mul_of_nonpos_left sampleNonpos atMost⟩

theorem FirstSampleFits.saturated
    {sample gain32 : Int}
    (fits : FirstSampleFits sample gain32) :
    SampleSaturated sample gain32 (gainedFirstSample sample gain32) := by
  obtain ⟨gainNonneg, gainUpper⟩ := fits.gain
  have wide : int32 (gain32 + 127) = gain32 + 127 :=
    int32_of_bounds (by omega) (by omega)
  apply sampleSaturated_of_nonneg gainNonneg
  obtain ⟨positive, negative⟩ := product_bounds sample gainNonneg
  have estimate := fits.estimate.int32_eq
  have above := fits.above
  have below := fits.below
  unfold gainedFirstSample
  rw [wide]
  change
    (let outTmp := int32 (sample * roundedGain gain32) >>> (16 : Nat)
      if 4095 < outTmp then 32767
      else if outTmp < -4096 then -32768
      else gainedSample sample gain32) =
      _
  dsimp only
  rw [estimate, Int.shiftRight_eq_div_pow]
  split
  next large =>
      have product := above (by omega)
      unfold exactOutput satW32ToW16
      rw [Int.shiftRight_eq_div_pow]
      split <;> omega
  next notLarge =>
      split
      next small =>
          have product := below (by omega)
          unfold exactOutput satW32ToW16
          rw [Int.shiftRight_eq_div_pow]
          rw [if_neg (by omega)]
          split <;> omega
      next notSmall =>
          apply gainedSample_eq
          rcases Int.le_total 0 sample with sampleNonneg | sampleNonpos
          · have bounds := positive sampleNonneg
            exact ⟨by omega, by omega⟩
          · have bounds := negative sampleNonpos
            exact ⟨by omega, by omega⟩

/-! ## Frames -/

/-- A sample of a band after the gain. -/
def gainedAt
    (samplesPerMs : Nat)
    (gains band : List Int)
    (k n : Nat) : Int :=
  let gain32 :=
    gainAt (if samplesPerMs = 8 then 1 else 0) (gains.getD k 0)
      (gains.getD (k + 1) 0) n
  let sample := band.getD (k * samplesPerMs + n) 0
  if k = 0 then gainedFirstSample sample gain32
  else gainedSample sample gain32

theorem applyGain_getD
    {samplesPerMs k n : Nat}
    (gains band : List Int)
    (inFrame : k < 10)
    (inPart : n < samplesPerMs) :
    (applyGain samplesPerMs gains band).getD (k * samplesPerMs + n) 0 =
      gainedAt samplesPerMs gains band k n := by
  have sizes
      (item : Nat) :
      ((List.range samplesPerMs).map
          (gainedAt samplesPerMs gains band item)).length =
        samplesPerMs := by
    rw [List.length_map, List.length_range]
  have found :
      window (applyGain samplesPerMs gains band) (samplesPerMs * k)
          samplesPerMs =
        (List.range samplesPerMs).map (gainedAt samplesPerMs gains band k) :=
    window_flatMap sizes (List.getElem?_range inFrame)
  have element := congrArg (·[n]?) found
  rw [window, List.getElem?_take_of_lt inPart, List.getElem?_drop,
    List.getElem?_map, List.getElem?_range inPart,
    Nat.mul_comm samplesPerMs k] at element
  rw [List.getD_eq_getElem?_getD, element]
  rfl

namespace DigitalAgc

/-- The exact gain at a sample of a frame. -/
def gainOf (low : LowBand) (gains : List Int) (k n : Nat) : Int :=
  exactGainAt (rampShift low) (gains.getD k 0) (gains.getD (k + 1) 0) n

/-- What a frame must return: every sample of every band times its gain, saturated. -/
def OutputSaturated (stt : DigitalAgc) (frame : DigitalFrame) : Prop :=
  ∃ limited next outs,
    stt.limitedGains frame.low = some limited ∧
      stt.processDigital frame.bands frame.fs frame.lowlevelSignal =
          some (next, outs, 0) ∧
        List.Forall₂
          (fun band out =>
            ∀ k < 10, ∀ n < frame.perMs,
              SampleSaturated (band.getD (k * frame.perMs + n) 0)
                (gainOf frame.low (stt.appliedGains limited) k n)
                (out.getD (k * frame.perMs + n) 0))
          frame.bands outs

/-- A frame whose limiter ends and whose samples fit, in every band. -/
def OutputFits (stt : DigitalAgc) (frame : DigitalFrame) : Prop :=
  ∃ limited,
    stt.limitedGains frame.low = some limited ∧
      ∀ band ∈ frame.bands, ∀ k < 10, ∀ n < frame.perMs,
        let sample := band.getD (k * frame.perMs + n) 0
        let gain32 := gainOf frame.low (stt.appliedGains limited) k n
        if k = 0 then FirstSampleFits sample gain32
        else SampleFits sample gain32

/-- What a frame whose limiter ends returns. -/
theorem processDigital_eq
    {stt : DigitalAgc}
    {frame : DigitalFrame}
    {limited : List Int}
    (isLimited : stt.limitedGains frame.low = some limited) :
    ∃ next,
      stt.processDigital frame.bands frame.fs frame.lowlevelSignal =
        some
          (next,
            frame.bands.map
              (applyGain frame.perMs (stt.appliedGains limited)),
            0) := by
  unfold DigitalFrame.low at isLimited
  unfold processDigital
  rw [frame.rate]
  dsimp only
  rw [isLimited]
  exact ⟨_, rfl⟩

/-- A sample that fits is gained to the exact one. -/
theorem applyGain_saturated
    {frame : DigitalFrame}
    {gains band : List Int}
    {k n : Nat}
    (inFrame : k < 10)
    (inPart : n < frame.perMs)
    (fits :
      let sample := band.getD (k * frame.perMs + n) 0
      let gain32 := gainOf frame.low gains k n
      if k = 0 then FirstSampleFits sample gain32
      else SampleFits sample gain32) :
    SampleSaturated (band.getD (k * frame.perMs + n) 0)
      (gainOf frame.low gains k n)
      ((applyGain frame.perMs gains band).getD (k * frame.perMs + n) 0) := by
  rw [applyGain_getD gains band inFrame inPart]
  unfold gainedAt
  dsimp only at fits ⊢
  rw [gainAt_eq]
  change
    SampleSaturated _ _
      (if k = 0 then
        gainedFirstSample _ (int32 (gainOf frame.low gains k n))
      else gainedSample _ (int32 (gainOf frame.low gains k n)))
  split at fits
  next first =>
      obtain ⟨nonneg, upper⟩ := fits.gain
      rw [if_pos first, int32_of_bounds (by omega) (by omega)]
      exact fits.saturated
  next later =>
      obtain ⟨nonneg, upper⟩ := fits.gain
      rw [if_neg later, int32_of_bounds (by omega) (by omega)]
      exact fits.saturated

theorem OutputFits.saturated
    {stt : DigitalAgc}
    {frame : DigitalFrame}
    (fits : stt.OutputFits frame) :
    stt.OutputSaturated frame := by
  obtain ⟨limited, isLimited, samples⟩ := fits
  obtain ⟨next, processed⟩ := processDigital_eq isLimited
  refine ⟨limited, next, _, isLimited, processed, ?_⟩
  rw [List.forall₂_map_right_iff, List.forall₂_same]
  intro band member k inFrame n inPart
  exact
    applyGain_saturated inFrame inPart
      (samples band member k inFrame n inPart)

/-- What a call must return. -/
def CallSaturates (stt : DigitalAgc) : DigitalCall → Prop
  | .process frame => stt.OutputSaturated frame
  | _ => True

/-- A call whose samples fit. -/
def CallFits (stt : DigitalAgc) : DigitalCall → Prop
  | .process frame => stt.OutputFits frame
  | _ => True

/--
In every run from `WebRtcAgc_Init` in which the samples of every frame fit, every band
and every millisecond is the sample times its gain, saturated.
-/
theorem run_saturates_of_fits
    {agcMode : Int}
    {gainTable : List Int}
    {calls : List DigitalCall}
    (fits : AlongRun perform CallFits (started agcMode gainTable) calls) :
    AlongRun perform CallSaturates (started agcMode gainTable) calls :=
  AlongRun.of_guard (fun _ => True) (fun _ _ _ => trivial)
    (fun {stt call} _ callFits => by
      cases call with
      | process frame =>
          exact OutputFits.saturated callFits
      | init agcMode =>
          exact trivial
      | setConfig agcConfig =>
          exact trivial
      | addFarend frame =>
          exact trivial)
    trivial fits

/-- The first frame of a constant signal in the adaptive analog mode. -/
theorem outputSaturated_constantBand :
    (started modeAdaptiveAnalog
        ((gainTableOf modeAdaptiveAnalog defaultConfig).getD
          [])).OutputSaturated
      (constantBand 1000 (by decide)) := by
  have along :
      AlongRun perform CallSaturates
        (started modeAdaptiveAnalog
          ((gainTableOf modeAdaptiveAnalog defaultConfig).getD []))
        [.process (constantBand 1000 (by decide))] :=
    run_saturates_of_fits
      ⟨⟨((started modeAdaptiveAnalog
              ((gainTableOf modeAdaptiveAnalog defaultConfig).getD
                [])).limitedGains
            (constantBand 1000 (by decide)).low).getD [],
          by decide +kernel, by decide +kernel⟩,
        fun _ _ => trivial⟩
  exact along.1

end DigitalAgc

/-- A 32 kHz frame whose low band is silent, with its high band at full scale. -/
def highBandFrame : DigitalFrame where
  bands := [List.replicate 160 0, List.replicate 160 32767]
  fs := 32000
  lowlevelSignal := 0
  perMs := 16
  rate := rfl
  nonempty := List.cons_ne_nil _ _
  size := by decide +kernel
  sampled := by decide +kernel

/--
The low band of the frame is silent, so that the gains stay at 1.86, above 0 dB.  The
first millisecond of the high band saturates; in the second, 32767 becomes -4665.
-/
theorem DigitalAgc.not_run_saturates_highBand :
    ¬ ∀ (agcMode : Int) (gainTable : List Int) (calls : List DigitalCall),
        gainTableOf agcMode defaultConfig = some gainTable →
          AlongRun perform CallSaturates (started agcMode gainTable)
            calls := by
  intro claimed
  have default :
      gainTableOf modeAdaptiveAnalog defaultConfig =
        some ((gainTableOf modeAdaptiveAnalog defaultConfig).getD []) := by
    decide +kernel
  obtain ⟨limited, next, outs, -, processed, saturated⟩ :=
    (claimed _ _ [.process highBandFrame] default).1
  have outputs :
      outs =
        (((started modeAdaptiveAnalog
            ((gainTableOf modeAdaptiveAnalog defaultConfig).getD
              [])).processDigital
            highBandFrame.bands highBandFrame.fs
            highBandFrame.lowlevelSignal).map (·.2.1)).getD [] := by
    rw [processed]
    rfl
  rw [outputs] at saturated
  have second := (saturated.get (i := 1) (by decide) (by decide +kernel))
  have nonneg := (second 1 (by decide) 0 (by decide)).nonneg (by decide)
  exact absurd nonneg (by decide +kernel)

end ApmSdk.Agc
