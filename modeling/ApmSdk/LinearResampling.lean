import ApmSdk.AecResampler
import Mathlib.Algebra.Order.Field.Rat
import Mathlib.Tactic.Ring

namespace ApmSdk.Echo

/-!
# Linear resampling of a stream

`WebRtcAec_ResampleLinear` over exact numbers, with every access to its buffer checked.
However the stream is cut into frames, the output is the stream, delayed by one sample
and interpolated at the multiples of the sample rate ratio.
-/

/-- Samples over exact numbers. -/
abbrev exactArithmetic : SampleArithmetic where
  Sample := Rat
  zero := 0
  interpolate := fun fraction before after =>
    before + fraction * (after - before)

/-- The loop of `WebRtcAec_ResampleLinear` from an index on; `none` where it would read or
write outside an array. -/
def interpolateExact
    (be position : Rat)
    (y : List Rat)
    (size : Nat) :
    (room mm : Nat) → Option (List Rat)
  | room, mm =>
      let tnew := be * mm + position
      let tn := tnew.floor.toNat
      if tn < size then
        match room with
        | 0 => none
        | room + 1 =>
            y[tn]?.bind fun before =>
              y[tn + 1]?.bind fun after =>
                (interpolateExact be position y size room (mm + 1)).map
                  ((before + (tnew - tn) * (after - before)) :: ·)
      else
        some []

/-- `WebRtcAec_ResampleLinear` over exact numbers. -/
def resampleExact
    (skew : Rat)
    (resampler : AecResampler exactArithmetic)
    (inspeech : List Rat) :
    Option (AecResampler exactArithmetic × List Rat) :=
  let size := inspeech.length
  if kResamplerBufferSize < frameLen + kResamplingDelay + size then none
  else
    let buffer :=
      memcpy resampler.buffer (frameLen + kResamplingDelay) inspeech
    let be := 1 + skew
    (interpolateExact be resampler.position (buffer.drop frameLen) size
        maxResampLen 0).map fun outspeech =>
      ({ buffer :=
           buffer.drop size ++ buffer.drop (kResamplerBufferSize - size)
         position := resampler.position + (outspeech.length * be - size) },
        outspeech)

/-- Frames one after another, with all of the output. -/
def resampleAll
    (skew : Rat) :
    AecResampler exactArithmetic → List (List Rat) →
      Option (AecResampler exactArithmetic × List Rat)
  | resampler, [] => some (resampler, [])
  | resampler, frame :: rest =>
      (resampleExact skew resampler frame).bind fun (next, outspeech) =>
        (resampleAll skew next rest).map fun (last, later) =>
          (last, outspeech ++ later)

/-! ## What the output must be -/

/-- A stream that is delayed by one sample, with a zero before it. -/
def delayed (stream : List Rat) : Nat → Rat
  | 0 => 0
  | n + 1 => stream.getD n 0

/-- The linear interpolation of samples at a place. -/
def linearAt (sample : Nat → Rat) (place : Rat) : Rat :=
  let before := place.floor.toNat
  sample before + (place - before) * (sample (before + 1) - sample before)

/-- The output for a stream: the interpolation at all multiples of the ratio that are in
it. -/
structure IsInterpolation
    (be : Rat)
    (stream outspeech : List Rat) : Prop where
  count : ∀ k : Nat, k < outspeech.length ↔ be * k < stream.length
  output :
    ∀ k < outspeech.length,
      outspeech[k]? = some (linearAt (delayed stream) (be * k))

/-! ## One frame -/

theorem floor_toNat_lt_iff
    {place : Rat}
    {size : Nat}
    (nonneg : 0 ≤ place) :
    place.floor.toNat < size ↔ place < size := by
  have floorNonneg : 0 ≤ place.floor :=
    Rat.le_floor_iff.mpr (by exact_mod_cast nonneg)
  rw [Int.toNat_lt floorNonneg, Rat.floor_lt_iff, Int.cast_natCast]

/-- A whole number of samples moves the place of an interpolation. -/
theorem linearAt_add
    (sample : Nat → Rat)
    (offset : Nat)
    {place : Rat}
    (nonneg : 0 ≤ place) :
    linearAt (fun n => sample (offset + n)) place =
      linearAt sample (offset + place) := by
  have floorNonneg : 0 ≤ place.floor :=
    Rat.le_floor_iff.mpr (by exact_mod_cast nonneg)
  have moved :
      ((offset : Rat) + place).floor.toNat = offset + place.floor.toNat := by
    have whole : ((offset : Rat) + place).floor = place.floor + offset := by
      rw [add_comm, ← Int.cast_natCast offset, Rat.floor_add_intCast]
    rw [whole]
    omega
  unfold linearAt
  dsimp only
  rw [moved]
  push_cast
  rw [add_sub_add_left_eq_sub, Nat.add_assoc]

section Loop

variable {be position : Rat}
variable {y : List Rat}
variable {size : Nat}

/-- The loop returns the interpolated samples of all places before the end of the frame,
where the output has room for them. -/
theorem interpolateExact_spec
    (positive : 0 < be)
    (nonneg : 0 ≤ position)
    (inBuffer : size < y.length)
    (room mm : Nat)
    (enough : (size : Rat) ≤ be * (mm + room) + position) :
    ∃ outspeech,
      interpolateExact be position y size room mm = some outspeech ∧
        (∀ k : Nat,
          k < outspeech.length ↔ be * (mm + k) + position < size) ∧
          ∀ k < outspeech.length,
            outspeech[k]? =
              some (linearAt (y.getD · 0) (be * (mm + k) + position)) := by
  have placeNonneg
      (k : Nat) :
      0 ≤ be * k + position := by
    positivity
  have stopped
      (index : Nat)
      (past : ¬ be * index + position < size)
      (k : Nat) :
      k < ([] : List Rat).length ↔ be * (index + k) + position < size := by
    have later : 0 ≤ be * (k : Rat) := by positivity
    constructor
    · intro inside
      exact absurd inside (Nat.not_lt_zero k)
    · intro inside
      rw [mul_add] at inside
      linarith
  induction room generalizing mm with
  | zero =>
      have past : ¬ be * mm + position < size := by
        rw [Nat.cast_zero, add_zero] at enough
        exact not_lt.mpr enough
      unfold interpolateExact
      rw [if_neg (by rwa [floor_toNat_lt_iff (placeNonneg mm)])]
      exact
        ⟨[], rfl, stopped mm past, fun k inside =>
          absurd inside (Nat.not_lt_zero k)⟩
  | succ room inductionHypothesis =>
      unfold interpolateExact
      dsimp only
      by_cases inFrame : be * mm + position < size
      · obtain ⟨rest, looped, count, output⟩ :=
          inductionHypothesis (mm + 1)
            (by push_cast at enough ⊢; linarith)
        have place := (floor_toNat_lt_iff (placeNonneg mm)).mpr inFrame
        have before : y[(be * mm + position).floor.toNat]? = _ :=
          List.getElem?_eq_getElem (by omega)
        have after : y[(be * mm + position).floor.toNat + 1]? = _ :=
          List.getElem?_eq_getElem (by omega)
        rw [if_pos place, before, after, looped]
        refine ⟨_, rfl, ?_, ?_⟩
        · intro k
          cases k with
          | zero =>
              rw [Nat.cast_zero, add_zero]
              exact iff_of_true (Nat.zero_lt_succ _) inFrame
          | succ k =>
              rw [List.length_cons, Nat.add_lt_add_iff_right, count k]
              push_cast
              rw [add_right_comm, add_assoc (mm : Rat)]
        · intro k inside
          cases k with
          | zero =>
              rw [List.getElem?_cons_zero, Nat.cast_zero, add_zero]
              unfold linearAt
              dsimp only
              rw [List.getD_eq_getElem?_getD, List.getD_eq_getElem?_getD,
                before, after]
              rfl
          | succ k =>
              rw [List.getElem?_cons_succ,
                output k (Nat.lt_of_succ_lt_succ inside)]
              push_cast
              rw [add_right_comm, add_assoc (mm : Rat)]
      · rw [if_neg (by rwa [floor_toNat_lt_iff (placeNonneg mm)])]
        exact
          ⟨[], rfl, stopped mm inFrame, fun k inside =>
            absurd inside (Nat.not_lt_zero k)⟩

end Loop

/-- An interpolation reads the samples around its place alone. -/
theorem linearAt_congr
    {sample other : Nat → Rat}
    {size : Nat}
    {place : Rat}
    (same : ∀ n ≤ size, sample n = other n)
    (nonneg : 0 ≤ place)
    (inFrame : place < size) :
    linearAt sample place = linearAt other place := by
  have before := (floor_toNat_lt_iff nonneg).mpr inFrame
  unfold linearAt
  dsimp only
  rw [same _ (by omega), same _ (by omega)]

/-- A resampler that has read a part of a stream and returned a number of samples. -/
structure Carries
    (be : Rat)
    (stream : List Rat)
    (read returned : Nat)
    (resampler : AecResampler exactArithmetic) : Prop where
  size : resampler.buffer.length = kResamplerBufferSize
  last : resampler.buffer[frameLen]? = some (delayed stream read)
  position : resampler.position = be * returned - read
  lower : 0 ≤ resampler.position
  upper : resampler.position < be

theorem carries_init
    {be : Rat}
    (positive : 0 < be)
    (stream : List Rat) :
    Carries be stream 0 0 AecResampler.init where
  size := List.length_replicate
  last := rfl
  position := by
    rw [Nat.cast_zero, mul_zero, sub_zero]
    rfl
  lower := le_refl 0
  upper := positive

section Frame

variable {be skew : Rat}
variable {stream inspeech : List Rat}
variable {read returned : Nat}
variable {resampler : AecResampler exactArithmetic}

/-- The buffer of a call, from the current frame on, is the delayed stream. -/
theorem Carries.current
    (carries : Carries be stream read returned resampler)
    (short : inspeech.length ≤ 160)
    (isNext : ∀ i < inspeech.length, inspeech[i]? = stream[read + i]?)
    (n : Nat)
    (inFrame : n ≤ inspeech.length) :
    (memcpy resampler.buffer (frameLen + kResamplingDelay) inspeech)[frameLen +
        n]? =
      some (delayed stream (read + n)) := by
  have size := carries.size
  have last := carries.last
  dsimp only [frameLen, kResamplingDelay, kResamplerBufferSize] at *
  rw [getElem?_memcpy (by omega)]
  cases n with
  | zero =>
      rw [if_neg (by omega)]
      exact last
  | succ n =>
      have inside : n < inspeech.length := inFrame
      have found := isNext n inside
      rw [List.getElem?_eq_getElem inside] at found
      rw [if_pos (by omega),
        show 80 + (n + 1) - (80 + 1) = n by omega,
        List.getElem?_eq_getElem inside, found]
      change _ = some (stream.getD (read + n) 0)
      rw [List.getD_eq_getElem?_getD, ← found]
      rfl

/-- A frame is read within the buffers, and the output goes on where it was. -/
theorem Carries.resampleExact
    (carries : Carries (1 + skew) stream read returned resampler)
    (atLeast : -1 / 2 ≤ skew)
    (short : inspeech.length ≤ 160)
    (isNext : ∀ i < inspeech.length, inspeech[i]? = stream[read + i]?) :
    ∃ next outspeech,
      resampleExact skew resampler inspeech = some (next, outspeech) ∧
        Carries (1 + skew) stream (read + inspeech.length)
            (returned + outspeech.length) next ∧
          (∀ k : Nat,
            k < outspeech.length ↔
              (1 + skew) * (returned + k) < read + inspeech.length) ∧
            ∀ k < outspeech.length,
              outspeech[k]? =
                some
                  (linearAt (delayed stream)
                    ((1 + skew) * (returned + k))) := by
  have ratio : 1 / 2 ≤ 1 + skew := by linarith
  have isShort : (inspeech.length : Rat) ≤ 160 := by exact_mod_cast short
  have current := carries.current short isNext
  have position := carries.position
  have lower := carries.lower
  have size := carries.size
  unfold Echo.resampleExact
  dsimp only [frameLen, kResamplingDelay, kResamplerBufferSize,
    maxResampLen] at *
  have bufferLength :
      (memcpy resampler.buffer (80 + 1) inspeech).length = 320 := by
    rw [length_memcpy (by omega), size]
  rw [if_neg (by omega)]
  generalize memcpy resampler.buffer (80 + 1) inspeech = buffer
    at current bufferLength ⊢
  generalize 1 + skew = be at *
  obtain ⟨outspeech, looped, count, output⟩ :=
    interpolateExact_spec (by linarith) lower
      (show inspeech.length < (buffer.drop 80).length by
        rw [List.length_drop, bufferLength]
        omega)
      400 0 (by push_cast; linarith)
  rw [looped]
  refine ⟨_, outspeech, rfl, ?_, ?_, ?_⟩
  · have atEnd := (count outspeech.length).not.mp (Nat.lt_irrefl _)
    have notBefore := not_lt.mp atEnd
    rw [Nat.cast_zero, zero_add] at notBefore
    refine ⟨?_, ?_, ?_, ?_, ?_⟩
    · dsimp only
      rw [List.length_append, List.length_drop, List.length_drop,
        bufferLength]
      change _ = 320
      omega
    · dsimp only [frameLen]
      rw [List.getElem?_append_left
          (by rw [List.length_drop, bufferLength]; omega),
        List.getElem?_drop, Nat.add_comm,
        current inspeech.length (Nat.le_refl _)]
    · dsimp only
      rw [position]
      push_cast
      ring
    · dsimp only
      linarith
    · dsimp only
      rcases Nat.eq_zero_or_pos outspeech.length with none | some
      · rw [none, Nat.cast_zero]
        have upper := carries.upper
        have nonneg : (0 : Rat) ≤ inspeech.length := by positivity
        linarith
      · have previous := (count (outspeech.length - 1)).mp (by omega)
        rw [Nat.cast_sub some] at previous
        push_cast at previous
        linarith
  · intro k
    rw [count k, position]
    push_cast
    constructor <;> intro inside <;> linarith
  · intro k inside
    have inFrame := (count k).mp inside
    have nonneg : 0 ≤ be * ((0 : Nat) + k) + resampler.position := by
      positivity
    have sameSamples :
        linearAt ((buffer.drop 80).getD · 0)
            (be * ((0 : Nat) + k) + resampler.position) =
          linearAt (fun n => delayed stream (read + n))
            (be * ((0 : Nat) + k) + resampler.position) :=
      linearAt_congr
        (fun n near => by
          dsimp only
          rw [List.getD_eq_getElem?_getD, List.getElem?_drop,
            current n near]
          rfl)
        nonneg inFrame
    have samePlace :
        (read : Rat) + (be * ((0 : Nat) + k) + resampler.position) =
          be * (returned + k) := by
      rw [position]
      push_cast
      ring
    rw [output k inside, sameSamples, linearAt_add _ _ nonneg, samePlace]

end Frame

/-! ## The conversions of the code -/

/-- Places of 31 bits are converted exactly. -/
theorem tn_exact
    {be position : Rat}
    {mm : Nat}
    (nonneg : 0 ≤ be * mm + position)
    (small : be * mm + position < 2 ^ 31) :
    AecResampler.tn Rounding.exact be position mm =
      (be * mm + position).floor.toNat := by
  have truncated :
      truncate (AecResampler.tnew Rounding.exact be position mm) =
        (be * mm + position).floor :=
    if_pos nonneg
  have floorNonneg : 0 ≤ (be * mm + position).floor :=
    Rat.le_floor_iff.mpr (by exact_mod_cast nonneg)
  have floorSmall : (be * mm + position).floor < 2 ^ 31 := by
    rw [Rat.floor_lt_iff]
    exact_mod_cast small
  unfold AecResampler.tn
  rw [truncated, asSize_of_nonneg floorNonneg floorSmall]

/-- Where the checked loop ends, the loop with the conversions of the code returns the
same samples. -/
theorem interpolateFrom_exact
    {be position : Rat}
    {y outspeech : List Rat}
    {size : Nat}
    (room mm : Nat)
    (places :
      ∀ index ≤ mm + room,
        0 ≤ be * index + position ∧ be * index + position < 2 ^ 31)
    (exact : interpolateExact be position y size room mm = some outspeech) :
    @AecResampler.interpolateFrom exactArithmetic Rounding.exact be position
        y size room mm =
      some outspeech := by
  obtain ⟨nonneg, small⟩ := places mm (by omega)
  have place := tn_exact nonneg small
  induction room generalizing mm outspeech with
  | zero =>
      unfold interpolateExact at exact
      dsimp only at exact
      unfold AecResampler.interpolateFrom
      dsimp only
      rw [place]
      split at exact
      next inFrame =>
          cases exact
      next past =>
          rw [if_neg past]
          exact exact
  | succ room inductionHypothesis =>
      unfold interpolateExact at exact
      dsimp only at exact
      unfold AecResampler.interpolateFrom
      dsimp only
      rw [place]
      split at exact
      next inFrame =>
          obtain ⟨before, isBefore, exact⟩ := Option.bind_eq_some_iff.mp exact
          obtain ⟨after, isAfter, exact⟩ := Option.bind_eq_some_iff.mp exact
          obtain ⟨rest, isRest, rfl⟩ := Option.map_eq_some_iff.mp exact
          obtain ⟨laterNonneg, laterSmall⟩ := places (mm + 1) (by omega)
          rw [if_pos inFrame,
            inductionHypothesis (mm + 1)
              (fun index inside => places index (by omega)) isRest
              laterNonneg laterSmall (tn_exact laterNonneg laterSmall),
            List.getD_eq_getElem?_getD, List.getD_eq_getElem?_getD, isBefore,
            isAfter]
          rfl
      next past =>
          rw [if_neg past]
          exact exact

/-- For a skew that has been limited, the code computes the same over exact numbers. -/
theorem resampleLinear_exact
    {skew : Rat}
    {resampler next : AecResampler exactArithmetic}
    {inspeech outspeech : List Rat}
    (atMost : skew ≤ 1)
    (lower : 0 ≤ resampler.position)
    (upper : resampler.position < 1 + skew)
    (exact :
      resampleExact skew resampler inspeech = some (next, outspeech)) :
    AecResampler.resampleLinear Rounding.exact resampler inspeech skew =
      some (next, outspeech) := by
  unfold resampleExact at exact
  dsimp only at exact
  split at exact
  · exact nomatch exact
  next fits =>
      obtain ⟨samples, looped, same⟩ := Option.map_eq_some_iff.mp exact
      have places
          (index : Nat)
          (inside : index ≤ 0 + maxResampLen) :
          0 ≤ (1 + skew) * index + resampler.position ∧
            (1 + skew) * index + resampler.position < 2 ^ 31 := by
        have few : (index : Rat) ≤ 400 := by exact_mod_cast inside
        have nonneg : (0 : Rat) ≤ index := by positivity
        have product : (1 + skew) * index ≤ 2 * 400 :=
          mul_le_mul (by linarith) few nonneg (by norm_num)
        have productNonneg : 0 ≤ (1 + skew) * index :=
          mul_nonneg (by linarith) nonneg
        constructor <;> linarith
      unfold AecResampler.resampleLinear
      dsimp only
      rw [show Rounding.exact.round (1 + skew) = 1 + skew from rfl,
        interpolateFrom_exact maxResampLen 0 places looped]
      exact congrArg some same

/-! ## Streams -/

/-- Frames are read within the buffers, and the output is the interpolated stream from
where it was. -/
theorem Carries.resampleAll
    {skew : Rat}
    {stream : List Rat}
    {frames : List (List Rat)}
    {read returned : Nat}
    {resampler : AecResampler exactArithmetic}
    (carries : Carries (1 + skew) stream read returned resampler)
    (atLeast : -1 / 2 ≤ skew)
    (short : ∀ frame ∈ frames, frame.length ≤ 160)
    (isRest : frames.flatten = stream.drop read)
    (inStream : read ≤ stream.length) :
    ∃ last outspeech,
      resampleAll skew resampler frames = some (last, outspeech) ∧
        Carries (1 + skew) stream stream.length
            (returned + outspeech.length) last ∧
          (∀ k : Nat,
            k < outspeech.length ↔
              (1 + skew) * (returned + k) < stream.length) ∧
            ∀ k < outspeech.length,
              outspeech[k]? =
                some
                  (linearAt (delayed stream)
                    ((1 + skew) * (returned + k))) := by
  induction frames generalizing read returned resampler with
  | nil =>
      have atEnd : read = stream.length := by
        have none := congrArg List.length isRest
        rw [List.flatten_nil, List.length_nil, List.length_drop] at none
        omega
      subst atEnd
      refine
        ⟨resampler, [], rfl, carries, ?_, fun k inside =>
          absurd inside (Nat.not_lt_zero k)⟩
      intro k
      have lower := carries.lower
      have later : 0 ≤ (1 + skew) * (k : Rat) := by
        have ratio : 0 ≤ 1 + skew := by linarith
        positivity
      rw [carries.position] at lower
      constructor
      · intro inside
        exact absurd inside (Nat.not_lt_zero k)
      · intro inside
        rw [mul_add] at inside
        linarith
  | cons frame rest inductionHypothesis =>
      rw [List.forall_mem_cons] at short
      rw [List.flatten_cons] at isRest
      have isNext
          (i : Nat)
          (inside : i < frame.length) :
          frame[i]? = stream[read + i]? := by
        rw [← List.getElem?_drop, ← isRest, List.getElem?_append_left inside]
      have lengths := congrArg List.length isRest
      rw [List.length_append, List.length_drop] at lengths
      have isLater : rest.flatten = stream.drop (read + frame.length) := by
        rw [← List.drop_drop, ← isRest, List.drop_left]
      obtain ⟨next, outspeech, resampled, nextCarries, count, output⟩ :=
        carries.resampleExact atLeast short.1 isNext
      obtain ⟨last, later, restResampled, lastCarries, laterCount,
          laterOutput⟩ :=
        inductionHypothesis nextCarries short.2 isLater (by omega)
      refine ⟨last, outspeech ++ later, ?_, ?_, ?_, ?_⟩
      · unfold Echo.resampleAll
        rw [resampled, Option.bind_some]
        dsimp only
        rw [restResampled]
        rfl
      · rw [List.length_append, ← Nat.add_assoc]
        exact lastCarries
      · intro k
        rw [List.length_append]
        rcases Nat.lt_or_ge k outspeech.length with early | late
        · have inFrame := (count k).mp early
          have frameInStream :
              (read : Rat) + frame.length ≤ stream.length := by
            exact_mod_cast show read + frame.length ≤ stream.length by omega
          exact iff_of_true (by omega) (by linarith)
        · obtain ⟨j, rfl⟩ := Nat.exists_eq_add_of_le late
          rw [Nat.add_lt_add_iff_left, laterCount j]
          push_cast
          rw [add_assoc]
      · intro k inside
        rw [List.length_append] at inside
        rcases Nat.lt_or_ge k outspeech.length with early | late
        · rw [List.getElem?_append_left early, output k early]
        · obtain ⟨j, rfl⟩ := Nat.exists_eq_add_of_le late
          rw [List.getElem?_append_right late, Nat.add_sub_cancel_left,
            laterOutput j (by omega)]
          push_cast
          rw [add_assoc]

/--
However a stream is cut into frames of 80 or 160 samples, the output is its linear
interpolation at the multiples of the ratio, no access is out of bounds, and the position
ends within one step.
-/
theorem resampleAll_isInterpolation
    {skew : Rat}
    {frames : List (List Rat)}
    (atLeast : -1 / 2 ≤ skew)
    (sizes : ∀ frame ∈ frames, frame.length = 80 ∨ frame.length = 160) :
    ∃ last outspeech,
      resampleAll skew AecResampler.init frames = some (last, outspeech) ∧
        IsInterpolation (1 + skew) frames.flatten outspeech ∧
          0 ≤ last.position ∧ last.position < 1 + skew := by
  obtain ⟨last, outspeech, resampled, carries, count, output⟩ :=
    (carries_init (show 0 < 1 + skew by linarith) frames.flatten).resampleAll
      atLeast
      (fun frame member => by
        rcases sizes frame member with size | size <;> omega)
      rfl (Nat.zero_le _)
  refine ⟨last, outspeech, resampled, ⟨?_, ?_⟩, carries.lower, carries.upper⟩
  · intro k
    rw [count k, Nat.cast_zero, zero_add]
  · intro k inside
    rw [output k inside, Nat.cast_zero, zero_add]

/-- Two frames with a skew of one quarter. -/
theorem resampleAll_quarter :
    ∃ last outspeech,
      resampleAll (1 / 4) AecResampler.init
          [List.replicate 80 1, List.replicate 160 2] =
          some (last, outspeech) ∧
        IsInterpolation (1 + 1 / 4)
            [List.replicate 80 1, List.replicate 160 2].flatten outspeech ∧
          0 ≤ last.position ∧ last.position < 1 + 1 / 4 :=
  resampleAll_isInterpolation (by norm_num) (by decide +kernel)

end ApmSdk.Echo
