import ApmSdk.RingBuffer
import Mathlib.Data.Rat.Floor
import Mathlib.Tactic.Linarith

namespace ApmSdk.Echo

/-!
# Drift resampling of the far end

`WebRtcAec_ResampleLinear` decides by floating-point sums how many samples a frame
becomes.  The sums are exact here and every result goes through a rounding, of which
only what both `float` and `double` do is assumed.
-/

/-- `FRAME_LEN` -/
abbrev frameLen : Nat := 80

/-- `kResamplingDelay` -/
abbrev kResamplingDelay : Nat := 1

/-- `kResamplerBufferSize` -/
abbrev kResamplerBufferSize : Nat := frameLen * 4

/-- `MAX_RESAMP_LEN` -/
abbrev maxResampLen : Nat := 5 * frameLen

/-- The rounding of a binary floating-point type. -/
structure Rounding where
  round : Rat → Rat
  mono : ∀ {x y}, x ≤ y → round x ≤ round y
  half : round (1 / 2) = 1 / 2
  close :
    ∀ {x},
      -2 ^ 14 ≤ x → x ≤ 2 ^ 14 →
        x - 1 / 2 ^ 9 ≤ round x ∧ round x ≤ x + 1 / 2 ^ 9

instance : CoeFun Rounding (fun _ => Rat → Rat) :=
  ⟨Rounding.round⟩

/-- Arithmetic without rounding. -/
def Rounding.exact : Rounding where
  round := id
  mono := id
  half := rfl
  close := by
    intro x _ _
    dsimp only [id]
    constructor <;> linarith

/-- The roundings to `float` and to `double`. -/
structure FloatArithmetic where
  single : Rounding
  double : Rounding

/-- Conversion to an integer type: towards zero. -/
def truncate (value : Rat) : Int :=
  if 0 ≤ value then value.floor else -(-value).floor

theorem truncate_nonneg
    {value : Rat}
    (above : -1 < value) :
    0 ≤ truncate value := by
  unfold truncate
  split
  next nonneg => exact Rat.le_floor_iff.mpr (by exact_mod_cast nonneg)
  next negative =>
    have small : (-value).floor < 1 := by
      rw [Rat.floor_lt_iff]
      push_cast
      linarith
    omega

theorem le_truncate_iff
    {value : Rat}
    {bound : Int}
    (positive : 0 < bound) :
    bound ≤ truncate value ↔ (bound : Rat) ≤ value := by
  unfold truncate
  split
  · exact Rat.le_floor_iff
  next negative =>
    rw [not_le] at negative
    have floorNonneg : 0 ≤ (-value).floor :=
      Rat.le_floor_iff.mpr (by push_cast; linarith)
    have boundPositive : (0 : Rat) < bound := by exact_mod_cast positive
    constructor
    · intro atMost
      omega
    · intro atMost
      linarith

/-- The samples of a resampler and what it does between two of them. -/
structure SampleArithmetic where
  Sample : Type
  zero : Sample
  /-- `y[tn] + (tnew - tn) * (y[tn + 1] - y[tn])` -/
  interpolate : Rat → Sample → Sample → Sample

/-- `AecResampler`, without the measurements of the skew. -/
structure AecResampler (samples : SampleArithmetic) where
  buffer : List samples.Sample
  position : Rat

namespace AecResampler

variable {samples : SampleArithmetic}

/-- `WebRtcAec_InitResampler` -/
def init : AecResampler samples where
  buffer := List.replicate kResamplerBufferSize samples.zero
  position := 0

/-- `be * mm + obj->position` -/
def tnew
    (single : Rounding)
    (be position : Rat)
    (mm : Nat) : Rat :=
  single (single (be * mm) + position)

/-- The sample before that place. -/
def tn
    (single : Rounding)
    (be position : Rat)
    (mm : Nat) : Nat :=
  asSize (truncate (tnew single be position mm))

/--
The loop of `WebRtcAec_ResampleLinear` from an index on, with the room that is left in
the output array; `none` where it would write past its end.
-/
def interpolateFrom
    (single : Rounding)
    (be position : Rat)
    (y : List samples.Sample)
    (size : Nat) :
    (room mm : Nat) → Option (List samples.Sample)
  | room, mm =>
      let place := tn single be position mm
      if place < size then
        match room with
        | 0 => none
        | room + 1 =>
            (interpolateFrom single be position y size room (mm + 1)).map
              (samples.interpolate
                (single (tnew single be position mm - place))
                (y.getD place samples.zero)
                (y.getD (place + 1) samples.zero) :: ·)
      else
        some []

/-- `WebRtcAec_ResampleLinear` -/
def resampleLinear
    (single : Rounding)
    (resampler : AecResampler samples)
    (inspeech : List samples.Sample)
    (skew : Rat) :
    Option (AecResampler samples × List samples.Sample) :=
  let size := inspeech.length
  let buffer :=
    memcpy resampler.buffer (frameLen + kResamplingDelay) inspeech
  let be := single (1 + skew)
  (interpolateFrom single be resampler.position (buffer.drop frameLen)
      size maxResampLen 0).map fun outspeech =>
    ({ buffer :=
         buffer.drop size ++ buffer.drop (kResamplerBufferSize - size)
       position :=
         single
           (resampler.position +
             single (single (outspeech.length * be) - size)) },
      outspeech)

/-! ## How many samples come out -/

/-- The loop ends with the first place that is past the frame. -/
theorem interpolateFrom_spec
    {single : Rounding}
    {be position : Rat}
    {y : List samples.Sample}
    {size stop : Nat}
    (stops : size ≤ tn single be position stop)
    (room mm : Nat)
    (ahead : mm ≤ stop)
    (inRoom : stop ≤ mm + room) :
    ∃ outspeech,
      interpolateFrom single be position y size room mm = some outspeech ∧
        size ≤ tn single be position (mm + outspeech.length) ∧
        ∀ index,
          mm ≤ index →
          index < mm + outspeech.length →
            tn single be position index < size := by
  induction room generalizing mm with
  | zero =>
      obtain rfl : mm = stop := by omega
      unfold interpolateFrom
      rw [if_neg (by omega)]
      exact ⟨[], rfl, stops, fun index low high => by
        rw [List.length_nil] at high
        omega⟩
  | succ room inductionHypothesis =>
      unfold interpolateFrom
      dsimp only
      by_cases before : tn single be position mm < size
      · have further : mm + 1 ≤ stop := by
          rcases Nat.lt_or_ge mm stop with less | reached
          · exact less
          · obtain rfl : mm = stop := by omega
            omega
        obtain ⟨rest, looped, past, inside⟩ :=
          inductionHypothesis (mm + 1) further (by omega)
        rw [if_pos before, looped, Option.map_some]
        refine ⟨_, rfl, ?_, ?_⟩
        · rw [List.length_cons, ← Nat.add_assoc, Nat.add_right_comm]
          exact past
        · intro index low high
          rw [List.length_cons] at high
          rcases Nat.eq_or_lt_of_le low with same | later
          · exact same ▸ before
          · exact inside index later (by omega)
      · rw [if_neg before]
        exact ⟨[], rfl, Nat.le_of_not_lt before, fun index low high => by
          rw [List.length_nil] at high
          omega⟩

/-- The position between two frames. -/
structure InStep (position : Rat) : Prop where
  lower : -1 / 4 ≤ position
  upper : position ≤ 3

/-- The sample rate ratio of a limited skew. -/
structure Ratio (be : Rat) : Prop where
  lower : 1 / 2 ≤ be
  upper : be ≤ 2 + 1 / 2 ^ 9

theorem ratio_of_skew
    (single : Rounding)
    {skew : Rat}
    (lower : -1 / 2 ≤ skew)
    (upper : skew ≤ 1) :
    Ratio (single (1 + skew)) where
  lower := by
    have least : single (1 / 2) ≤ single (1 + skew) :=
      single.mono (by linarith)
    rw [single.half] at least
    exact least
  upper := by
    have close :=
      single.close (show -2 ^ 14 ≤ 1 + skew by linarith)
        (show 1 + skew ≤ 2 ^ 14 by linarith)
    linarith [close.2]

section Bounds

variable {single : Rounding}
variable {be position : Rat}
variable {mm size : Nat}

/-- The product of the loop lies in the range where roundings are close. -/
theorem Ratio.mul_bounds
    (ratio : Ratio be)
    (few : mm ≤ 400) :
    (mm : Rat) / 2 ≤ be * mm ∧ be * mm ≤ 1000 := by
  have nonneg : (0 : Rat) ≤ mm := by exact_mod_cast Nat.zero_le mm
  have small : (mm : Rat) ≤ 400 := by exact_mod_cast few
  have low : 1 / 2 * (mm : Rat) ≤ be * mm :=
    mul_le_mul_of_nonneg_right ratio.lower nonneg
  have high : be * (mm : Rat) ≤ (2 + 1 / 2 ^ 9) * 400 :=
    mul_le_mul ratio.upper small nonneg (by norm_num)
  constructor <;> linarith

/-- The place of an output sample, up to two roundings. -/
theorem tnew_close
    (ratio : Ratio be)
    (inStep : InStep position)
    (few : mm ≤ 400) :
    be * mm + position - 2 / 2 ^ 9 ≤ tnew single be position mm ∧
      tnew single be position mm ≤ be * mm + position + 2 / 2 ^ 9 := by
  obtain ⟨low, high⟩ := ratio.mul_bounds few
  have nonneg : (0 : Rat) ≤ mm := by exact_mod_cast Nat.zero_le mm
  have product :=
    single.close (show -2 ^ 14 ≤ be * mm by linarith)
      (show be * mm ≤ 2 ^ 14 by linarith)
  have positionLow := inStep.lower
  have positionHigh := inStep.upper
  have sum :=
    single.close
      (show -2 ^ 14 ≤ single (be * mm) + position by linarith [product.1])
      (show single (be * mm) + position ≤ 2 ^ 14 by linarith [product.2])
  unfold tnew
  constructor
  · linarith [product.1, sum.1]
  · linarith [product.2, sum.2]

/-- The index compared with the frame, by the place itself. -/
theorem le_tn_iff
    (ratio : Ratio be)
    (inStep : InStep position)
    (few : mm ≤ 400)
    (positive : 0 < size) :
    size ≤ tn single be position mm ↔
      (size : Rat) ≤ tnew single be position mm := by
  obtain ⟨low, high⟩ := ratio.mul_bounds few
  obtain ⟨placeLow, placeHigh⟩ :=
    @tnew_close single be position mm ratio inStep few
  have nonneg : (0 : Rat) ≤ mm := by exact_mod_cast Nat.zero_le mm
  have positionLow := inStep.lower
  have positionHigh := inStep.upper
  have truncated : 0 ≤ truncate (tnew single be position mm) :=
    truncate_nonneg (by linarith)
  have small : truncate (tnew single be position mm) < 2 ^ 31 := by
    by_contra large
    have reached :=
      (le_truncate_iff (by norm_num)).mp (not_lt.mp large)
    push_cast at reached
    linarith
  unfold tn
  rw [asSize_of_nonneg truncated small]
  have exact_iff :
      (size : Int) ≤ truncate (tnew single be position mm) ↔
        ((size : Int) : Rat) ≤ tnew single be position mm :=
    le_truncate_iff (by exact_mod_cast positive)
  rw [Int.cast_natCast] at exact_iff
  rw [← exact_iff]
  omega

/-- The position after a loop that has just gone past the frame. -/
theorem inStep_next
    (ratio : Ratio be)
    (inStep : InStep position)
    (few : mm ≤ 400)
    (fits : size ≤ 160)
    (past : (size : Rat) ≤ tnew single be position mm)
    (justPast : be * mm + position ≤ size + 2 + 1 / 2 ^ 7) :
    InStep (single (position + single (single (mm * be) - size))) := by
  obtain ⟨low, high⟩ := ratio.mul_bounds few
  have nonneg : (0 : Rat) ≤ mm := by exact_mod_cast Nat.zero_le mm
  have sizeNonneg : (0 : Rat) ≤ size := by exact_mod_cast Nat.zero_le size
  have sizeHigh : (size : Rat) ≤ 160 := by exact_mod_cast fits
  have positionLow := inStep.lower
  have positionHigh := inStep.upper
  have place := (@tnew_close single be position mm ratio inStep few).2
  rw [mul_comm (mm : Rat) be]
  have product :=
    single.close (show -2 ^ 14 ≤ be * mm by linarith)
      (show be * mm ≤ 2 ^ 14 by linarith)
  have difference :=
    single.close
      (show -2 ^ 14 ≤ single (be * mm) - size by linarith [product.1])
      (show single (be * mm) - size ≤ 2 ^ 14 by linarith [product.2])
  have sum :=
    single.close
      (show -2 ^ 14 ≤ position + single (single (be * mm) - size) by
        linarith [product.1, difference.1])
      (show position + single (single (be * mm) - size) ≤ 2 ^ 14 by
        linarith [product.2, difference.2])
  constructor
  · linarith [product.1, difference.1, sum.1]
  · linarith [product.2, difference.2, sum.2]

end Bounds

/--
A frame becomes at most 321 samples, and the resampler is in step again, where the
skew has been limited.
-/
theorem resampleLinear_spec
    (single : Rounding)
    {resampler : AecResampler samples}
    {inspeech : List samples.Sample}
    {skew : Rat}
    (lower : -1 / 2 ≤ skew)
    (upper : skew ≤ 1)
    (inStep : InStep resampler.position)
    (long : 4 ≤ inspeech.length)
    (short : inspeech.length ≤ 160) :
    ∃ next outspeech,
      resampleLinear single resampler inspeech skew =
          some (next, outspeech) ∧
        outspeech.length ≤ 321 ∧ InStep next.position := by
  have ratio := ratio_of_skew single lower upper
  unfold resampleLinear
  dsimp only
  generalize single (1 + skew) = be at ratio ⊢
  generalize
    memcpy resampler.buffer (frameLen + kResamplingDelay) inspeech = buffer
  generalize resampler.position = position at inStep ⊢
  generalize inspeech.length = size at long short ⊢
  have sizeLow : (4 : Rat) ≤ size := by exact_mod_cast long
  have sizeHigh : (size : Rat) ≤ 160 := by exact_mod_cast short
  have positionLow := inStep.lower
  have positionHigh := inStep.upper
  -- The product alone reaches the frame with half a sample for each output sample.
  have stops : size ≤ tn single be position 321 := by
    rw [le_tn_iff ratio inStep (by norm_num) (by omega)]
    have product := (@Ratio.mul_bounds be 321 ratio (by norm_num)).1
    have place :=
      (@tnew_close single be position 321 ratio inStep (by norm_num)).1
    push_cast at product place
    linarith
  obtain ⟨outspeech, looped, past, inside⟩ :=
    @interpolateFrom_spec samples single be position (buffer.drop frameLen)
      size 321 stops maxResampLen 0 (by omega) (by norm_num)
  rw [Nat.zero_add] at past inside
  have few : outspeech.length ≤ 321 := by
    by_contra more
    exact absurd (inside 321 (by omega) (by omega)) (by omega)
  rw [looped, Option.map_some]
  refine ⟨_, outspeech, rfl, few, ?_⟩
  rw [le_tn_iff ratio inStep (by omega) (by omega)] at past
  refine inStep_next ratio inStep (by omega) short past ?_
  rcases Nat.eq_zero_or_pos outspeech.length with none | some
  · rw [none]
    push_cast
    linarith
  · have previous := inside (outspeech.length - 1) (by omega) (by omega)
    rw [← not_le, le_tn_iff ratio inStep (by omega) (by omega),
      not_le] at previous
    have place :=
      (@tnew_close single be position (outspeech.length - 1) ratio inStep
        (by omega)).1
    rw [Nat.cast_sub (by omega), Nat.cast_one, mul_sub, mul_one] at place
    have ratioHigh := ratio.upper
    linarith

end AecResampler

end ApmSdk.Echo
