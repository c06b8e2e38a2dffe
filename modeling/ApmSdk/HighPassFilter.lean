import ApmSdk.CIntegers
import Mathlib.Algebra.Order.Ring.Abs

namespace ApmSdk.HighPass

/-!
# The high-pass filter

A recursive section of second order in fixed point.  `BiquadFilter` keeps the two last
values of its accumulator in a high part of 16 bits and a low part of 13 bits, and
limits them for the output alone.
-/

/-- `ba[0]` to `ba[4]`: the coefficients of the input, and those of the two previous
values, negated. -/
structure Coefficients where
  ba0 : Int
  ba1 : Int
  ba2 : Int
  ba3 : Int
  ba4 : Int
  deriving Repr, DecidableEq

/-- `kFilterCoefficients8kHz` -/
def filterCoefficients8kHz : Coefficients :=
  ⟨3798, -7596, 3798, 7807, -3733⟩

/-- `kFilterCoefficients` -/
def filterCoefficients : Coefficients :=
  ⟨4012, -8024, 4012, 8002, -3913⟩

/-- The coefficients for a rate. -/
def coefficients (sampleRateHz : Int) : Coefficients :=
  if sampleRateHz = 8000 then filterCoefficients8kHz else filterCoefficients

/-- `BiquadFilter`: the last two inputs, and a high and a low part for each of the last
two accumulators. -/
structure BiquadFilter where
  ba : Coefficients
  x0 : Int
  x1 : Int
  y0 : Int
  y1 : Int
  y2 : Int
  y3 : Int
  deriving Repr, DecidableEq

/-- `WEBRTC_SPL_SAT` -/
def splSat (upper value lower : Int) : Int :=
  if upper < value then upper else if value < lower then lower else value

namespace BiquadFilter

/-- `BiquadFilter::BiquadFilter` -/
def new (sampleRateHz : Int) : BiquadFilter where
  ba := coefficients sampleRateHz
  x0 := 0
  x1 := 0
  y0 := 0
  y1 := 0
  y2 := 0
  y3 := 0

/-- The accumulator `tmp_int32` before the state is updated. -/
def accumulate (filter : BiquadFilter) (data : Int) : Int :=
  let tmpInt32 := int32 (filter.y1 * filter.ba.ba3)
  let tmpInt32 := int32 (tmpInt32 + filter.y3 * filter.ba.ba4)
  let tmpInt32 := tmpInt32 >>> (15 : Nat)
  let tmpInt32 := int32 (tmpInt32 + filter.y0 * filter.ba.ba3)
  let tmpInt32 := int32 (tmpInt32 + filter.y2 * filter.ba.ba4)
  let tmpInt32 := int32 (tmpInt32 * 2)
  let tmpInt32 := int32 (tmpInt32 + data * filter.ba.ba0)
  let tmpInt32 := int32 (tmpInt32 + filter.x0 * filter.ba.ba1)
  int32 (tmpInt32 + filter.x1 * filter.ba.ba2)

/-- One pass of the loop of `BiquadFilter::Process`. -/
def step (filter : BiquadFilter) (data : Int) : BiquadFilter × Int :=
  let tmpInt32 := filter.accumulate data
  let y0 := int16 (tmpInt32 >>> (13 : Nat))
  ({ filter with
      x0 := data
      x1 := filter.x0
      y0
      y1 := int16 (int32 (int32 (tmpInt32 - y0 * 2 ^ 13) * 2 ^ 2))
      y2 := filter.y0
      y3 := filter.y1 },
    int16 (splSat 134217727 (int32 (tmpInt32 + 2048)) (-134217728) >>>
      (12 : Nat)))

/-- `BiquadFilter::Process`; the samples are what it leaves in `data`. -/
def process : BiquadFilter → List Int → BiquadFilter × List Int
  | filter, [] => (filter, [])
  | filter, data :: rest =>
      let (next, sample) := filter.step data
      let (last, samples) := next.process rest
      (last, sample :: samples)

/-- Frames are filtered like one stream of samples. -/
theorem process_append
    (filter : BiquadFilter)
    (frame later : List Int) :
    filter.process (frame ++ later) =
      (((filter.process frame).1.process later).1,
        (filter.process frame).2 ++
          ((filter.process frame).1.process later).2) := by
  induction frame generalizing filter with
  | nil =>
      rfl
  | cons data rest inductionHypothesis =>
      rw [List.cons_append, process, process]
      dsimp only
      rw [inductionHypothesis]
      rfl

end BiquadFilter

/-! ## The exact filter -/

/-- The same section, with accumulators of any size. -/
structure ExactFilter where
  ba : Coefficients
  x0 : Int
  x1 : Int
  last : Int
  previous : Int
  deriving Repr, DecidableEq

/-- The part of an accumulator above its 13 lowest bits. -/
def highPart (accumulator : Int) : Int :=
  accumulator >>> (13 : Nat)

/-- The 13 lowest bits, in Q15 of the high part. -/
def lowPart (accumulator : Int) : Int :=
  accumulator % 2 ^ 13 * 2 ^ 2

namespace ExactFilter

/-- The filter before its first sample. -/
def new (sampleRateHz : Int) : ExactFilter where
  ba := coefficients sampleRateHz
  x0 := 0
  x1 := 0
  last := 0
  previous := 0

/-- The accumulator over exact integers. -/
def accumulate (filter : ExactFilter) (data : Int) : Int :=
  2 *
      ((lowPart filter.last * filter.ba.ba3 +
          lowPart filter.previous * filter.ba.ba4) >>> (15 : Nat) +
        highPart filter.last * filter.ba.ba3 +
          highPart filter.previous * filter.ba.ba4) +
    data * filter.ba.ba0 + filter.x0 * filter.ba.ba1 +
      filter.x1 * filter.ba.ba2

/-- The filter after a sample. -/
def step (filter : ExactFilter) (data : Int) : ExactFilter :=
  { filter with
    x0 := data
    x1 := filter.x0
    last := filter.accumulate data
    previous := filter.last }

/-- The accumulators of a stream of samples. -/
def accumulators : ExactFilter → List Int → List Int
  | _, [] => []
  | filter, data :: rest =>
      filter.accumulate data :: (filter.step data).accumulators rest

end ExactFilter

/-- The state of a filter stands for the last accumulators of the exact one. -/
structure Represents
    (exact : ExactFilter)
    (filter : BiquadFilter) : Prop where
  ba : filter.ba = exact.ba
  x0 : filter.x0 = exact.x0
  x1 : filter.x1 = exact.x1
  y0 : filter.y0 = highPart exact.last
  y1 : filter.y1 = lowPart exact.last
  y2 : filter.y2 = highPart exact.previous
  y3 : filter.y3 = lowPart exact.previous

/-- An accumulator whose high part has 16 bits. -/
def Fits (accumulator : Int) : Prop :=
  -(2 ^ 28) ≤ accumulator ∧ accumulator < 2 ^ 28

instance (accumulator : Int) : Decidable (Fits accumulator) :=
  inferInstanceAs (Decidable (_ ∧ _))

/-- A sample of 16 bits. -/
def Sampled (data : Int) : Prop :=
  -32768 ≤ data ∧ data ≤ 32767

instance (data : Int) : Decidable (Sampled data) :=
  inferInstanceAs (Decidable (_ ∧ _))

/-- Coefficients of 13 bits, and of 14 bits for the middle tap and for the last value. -/
structure Coefficients.Small (ba : Coefficients) : Prop where
  ba0 : |ba.ba0| ≤ 2 ^ 12
  ba1 : |ba.ba1| ≤ 2 ^ 13
  ba2 : |ba.ba2| ≤ 2 ^ 12
  ba3 : |ba.ba3| ≤ 2 ^ 13
  ba4 : |ba.ba4| ≤ 2 ^ 12

theorem small_coefficients (sampleRateHz : Int) :
    (coefficients sampleRateHz).Small := by
  unfold coefficients
  split
  · exact ⟨by decide, by decide, by decide, by decide, by decide⟩
  · exact ⟨by decide, by decide, by decide, by decide, by decide⟩

/-- A filter whose state is in range. -/
structure ExactFilter.InRange (exact : ExactFilter) : Prop where
  small : exact.ba.Small
  x0 : Sampled exact.x0
  x1 : Sampled exact.x1
  last : Fits exact.last
  previous : Fits exact.previous

theorem lowPart_bounds (accumulator : Int) :
    |lowPart accumulator| ≤ 2 ^ 15 := by
  rw [abs_le]
  unfold lowPart
  omega

theorem highPart_bounds
    {accumulator : Int}
    (fits : Fits accumulator) :
    |highPart accumulator| ≤ 2 ^ 15 := by
  obtain ⟨lower, upper⟩ := fits
  rw [abs_le]
  unfold highPart
  rw [Int.shiftRight_eq_div_pow]
  omega

/-- What a sample of the run must do: no sum overflows, the state stands for the
accumulator, and the output is the accumulator rounded and saturated. -/
def StepExact
    (exact : ExactFilter)
    (filter : BiquadFilter)
    (data : Int) : Prop :=
  filter.accumulate data = exact.accumulate data ∧
    Represents (exact.step data) (filter.step data).1 ∧
      (filter.step data).2 =
        satW32ToW16 ((exact.accumulate data + 2048) >>> (12 : Nat))

/-- So must every sample. -/
def RunExact : ExactFilter → BiquadFilter → List Int → Prop
  | _, _, [] => True
  | exact, filter, data :: rest =>
      StepExact exact filter data ∧
        RunExact (exact.step data) (filter.step data).1 rest

theorem Sampled.magnitude
    {data : Int}
    (sampled : Sampled data) :
    |data| ≤ 2 ^ 15 := by
  obtain ⟨lower, upper⟩ := sampled
  rw [abs_le]
  omega

/-- A product of a value of 16 bits and a coefficient. -/
theorem product_bounds
    {value coefficient bound : Int}
    (valueLe : |value| ≤ 2 ^ 15)
    (coefficientLe : |coefficient| ≤ bound) :
    -(2 ^ 15 * bound) ≤ value * coefficient ∧
      value * coefficient ≤ 2 ^ 15 * bound := by
  rw [← abs_le, abs_mul]
  exact mul_le_mul valueLe coefficientLe (abs_nonneg coefficient) (by decide)

/-- No sum of the accumulation overflows. -/
theorem accumulate_eq
    {exact : ExactFilter}
    {filter : BiquadFilter}
    {data : Int}
    (held : Represents exact filter)
    (inRange : exact.InRange)
    (sampled : Sampled data) :
    filter.accumulate data = exact.accumulate data ∧
      -(2 ^ 31 - 2 ^ 29) ≤ exact.accumulate data ∧
        exact.accumulate data ≤ 2 ^ 31 - 2 ^ 29 := by
  obtain ⟨small, x0, x1, last, previous⟩ := inRange
  have lastLow := product_bounds (lowPart_bounds exact.last) small.ba3
  have previousLow :=
    product_bounds (lowPart_bounds exact.previous) small.ba4
  have lastHigh := product_bounds (highPart_bounds last) small.ba3
  have previousHigh := product_bounds (highPart_bounds previous) small.ba4
  have input := product_bounds sampled.magnitude small.ba0
  have input0 := product_bounds x0.magnitude small.ba1
  have input1 := product_bounds x1.magnitude small.ba2
  unfold BiquadFilter.accumulate ExactFilter.accumulate
  rw [held.ba, held.x0, held.x1, held.y0, held.y1, held.y2, held.y3]
  generalize lowPart exact.last * exact.ba.ba3 = low3 at *
  generalize lowPart exact.previous * exact.ba.ba4 = low4 at *
  generalize highPart exact.last * exact.ba.ba3 = high3 at *
  generalize highPart exact.previous * exact.ba.ba4 = high4 at *
  generalize data * exact.ba.ba0 = in0 at *
  generalize exact.x0 * exact.ba.ba1 = in1 at *
  generalize exact.x1 * exact.ba.ba2 = in2 at *
  dsimp only
  rw [int32_of_bounds (show -(2 ^ 31) ≤ low3 by omega) (by omega),
    int32_of_bounds (show -(2 ^ 31) ≤ low3 + low4 by omega) (by omega)]
  have low :
      -(2 ^ 15) ≤ (low3 + low4) >>> (15 : Nat) ∧
        (low3 + low4) >>> (15 : Nat) ≤ 2 ^ 15 := by
    rw [Int.shiftRight_eq_div_pow]
    omega
  generalize (low3 + low4) >>> (15 : Nat) = carry at *
  rw [int32_of_bounds (show -(2 ^ 31) ≤ carry + high3 by omega) (by omega)]
  have high :
      -(2 ^ 29) ≤ carry + high3 + high4 ∧
        carry + high3 + high4 ≤ 2 ^ 29 := by
    omega
  generalize carry + high3 + high4 = fed at *
  rw [int32_of_bounds (show -(2 ^ 31) ≤ fed by omega) (by omega),
    int32_of_bounds (show -(2 ^ 31) ≤ fed * 2 by omega) (by omega),
    int32_of_bounds (show -(2 ^ 31) ≤ fed * 2 + in0 by omega) (by omega),
    int32_of_bounds (show -(2 ^ 31) ≤ fed * 2 + in0 + in1 by omega)
      (by omega),
    int32_of_bounds (show -(2 ^ 31) ≤ fed * 2 + in0 + in1 + in2 by omega)
      (by omega)]
  omega

/-- The output is the accumulator rounded and saturated, whatever the accumulator. -/
theorem output_eq
    {accumulator : Int}
    (lower : -(2 ^ 31 - 2 ^ 29) ≤ accumulator)
    (upper : accumulator ≤ 2 ^ 31 - 2 ^ 29) :
    int16
        (splSat 134217727 (int32 (accumulator + 2048)) (-134217728) >>>
          (12 : Nat)) =
      satW32ToW16 ((accumulator + 2048) >>> (12 : Nat)) := by
  rw [int32_of_bounds (by omega) (by omega)]
  unfold splSat satW32ToW16
  simp only [Int.shiftRight_eq_div_pow]
  rw [int16_of_bounds]
  · split
    · rw [if_pos (by omega)]
      rfl
    · split
      · rw [if_neg (by omega), if_pos (by omega)]
        rfl
      · rw [if_neg (by omega), if_neg (by omega)]
  · split
    · decide
    · split
      · decide
      · omega
  · split
    · decide
    · split
      · decide
      · omega

/-- The low part is always the one of the accumulator. -/
theorem lowPart_eq (accumulator : Int) :
    int16
        (int32
          (int32
              (accumulator - int16 (accumulator >>> (13 : Nat)) * 2 ^ 13) *
            2 ^ 2)) =
      lowPart accumulator := by
  unfold lowPart int32 int16
  simp only [Int.shiftRight_eq_div_pow, Int.bmod_def]
  omega

/-- The high part is the one of the accumulator where that fits. -/
theorem highPart_eq_iff (accumulator : Int) :
    int16 (accumulator >>> (13 : Nat)) = highPart accumulator ↔
      Fits accumulator := by
  unfold highPart Fits int16
  simp only [Int.shiftRight_eq_div_pow, Int.bmod_def]
  omega

/-- A step is exact where the accumulator fits, and the next state is in range. -/
theorem stepExact_iff
    {exact : ExactFilter}
    {filter : BiquadFilter}
    {data : Int}
    (held : Represents exact filter)
    (inRange : exact.InRange)
    (sampled : Sampled data) :
    StepExact exact filter data ↔ Fits (exact.accumulate data) := by
  obtain ⟨accumulated, lower, upper⟩ :=
    accumulate_eq held inRange sampled
  constructor
  · rintro ⟨-, represents, -⟩
    have high := represents.y0
    unfold BiquadFilter.step at high
    rw [accumulated] at high
    exact (highPart_eq_iff _).mp high
  · intro fits
    refine ⟨accumulated, ?_, ?_⟩
    · refine ⟨held.ba, rfl, held.x0, ?_, ?_, held.y0, held.y1⟩
      · unfold BiquadFilter.step
        rw [accumulated]
        exact (highPart_eq_iff _).mpr fits
      · unfold BiquadFilter.step
        rw [accumulated]
        exact lowPart_eq _
    · unfold BiquadFilter.step
      rw [accumulated]
      exact output_eq lower upper

theorem ExactFilter.InRange.step
    {exact : ExactFilter}
    {data : Int}
    (inRange : exact.InRange)
    (sampled : Sampled data)
    (fits : Fits (exact.accumulate data)) :
    (exact.step data).InRange :=
  ⟨inRange.small, sampled, inRange.x0, fits, inRange.last⟩

/-- A run is exact where all accumulators of the exact filter fit. -/
theorem runExact_iff
    {exact : ExactFilter}
    {filter : BiquadFilter}
    {samples : List Int}
    (held : Represents exact filter)
    (inRange : exact.InRange)
    (sampled : ∀ data ∈ samples, Sampled data) :
    RunExact exact filter samples ↔
      ∀ accumulator ∈ exact.accumulators samples, Fits accumulator := by
  induction samples generalizing exact filter with
  | nil =>
      exact iff_of_true trivial fun accumulator member => nomatch member
  | cons data rest inductionHypothesis =>
      rw [List.forall_mem_cons] at sampled
      have first := stepExact_iff held inRange sampled.1
      rw [RunExact, ExactFilter.accumulators, List.forall_mem_cons]
      constructor
      · rintro ⟨here, later⟩
        have fits := first.mp here
        exact ⟨fits,
          (inductionHypothesis here.2.1 (inRange.step sampled.1 fits)
            sampled.2).mp later⟩
      · rintro ⟨fits, later⟩
        have here := first.mpr fits
        exact ⟨here,
          (inductionHypothesis here.2.1 (inRange.step sampled.1 fits)
            sampled.2).mpr later⟩

theorem represents_new (sampleRateHz : Int) :
    Represents (.new sampleRateHz) (.new sampleRateHz) :=
  ⟨rfl, rfl, rfl, rfl, rfl, rfl, rfl⟩

theorem inRange_new (sampleRateHz : Int) :
    (ExactFilter.new sampleRateHz).InRange :=
  ⟨small_coefficients sampleRateHz, (by decide : Sampled 0),
    (by decide : Sampled 0), (by decide : Fits 0), (by decide : Fits 0)⟩

/--
In every run of frames from a new filter, the state stands for the accumulator after
every sample, no sum overflows, and every output is the accumulator rounded and
saturated, if and only if the accumulators of the exact filter have at most 29 bits.
-/
theorem runExact_iff_accumulators_fit
    (sampleRateHz : Int)
    {frames : List (List Int)}
    (sampled : ∀ frame ∈ frames, ∀ data ∈ frame, Sampled data) :
    RunExact (.new sampleRateHz) (.new sampleRateHz) frames.flatten ↔
      ∀ accumulator ∈
          (ExactFilter.new sampleRateHz).accumulators frames.flatten,
        Fits accumulator := by
  apply runExact_iff (represents_new sampleRateHz) (inRange_new sampleRateHz)
  intro data member
  obtain ⟨frame, inFrames, inFrame⟩ := List.mem_flatten.mp member
  exact sampled frame inFrames data inFrame

/-- 10 ms at 8 kHz at the lowest level. -/
def lowestFrame : List Int :=
  List.replicate 80 (-32768)

theorem runExact_lowestFrame :
    RunExact (.new 8000) (.new 8000) [lowestFrame].flatten :=
  (runExact_iff_accumulators_fit 8000 (by decide +kernel)).mpr
    (by decide +kernel)

/--
At 16 kHz the largest value after 30 of the lowest takes the accumulator to
268954124, whose high part does not fit.
-/
theorem not_runExact_jump :
    ¬ ∀ (sampleRateHz : Int) (frames : List (List Int)),
        (∀ frame ∈ frames, ∀ data ∈ frame, Sampled data) →
        RunExact (.new sampleRateHz) (.new sampleRateHz) frames.flatten := by
  intro claimed
  have exactRun :=
    claimed 16000
      [List.replicate 30 (-32768) ++ 32767 :: List.replicate 129 0]
      (by decide +kernel)
  rw [runExact_iff (represents_new 16000) (inRange_new 16000)
    (by decide +kernel)] at exactRun
  revert exactRun
  decide +kernel

end ApmSdk.HighPass
