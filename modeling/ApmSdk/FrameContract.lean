import ApmSdk.FrameRounds

namespace ApmSdk.FrameBuffers

/-!
# What a frame through an audio buffer is promised

`DeinterleaveFrom` and then `InterleaveTo` write every sample of the output frame, each from
the output data, and stay within the buffers.  They do where the output has as many frames as
the processing, and nowhere else.
-/

open StoreLoops
open BufferViews (SampleConversion)

/-! ## The loop that `InterleaveTo` chooses -/

/-- The channel that is written to a channel of the frame. -/
def channelOf (numOut numChannels : Nat) : Nat → Nat :=
  if numOut = numChannels then id else fun _ => 0

/-- The samples of the frame after the loop for its channels. -/
def writeOut
    (channels : Channels Int16)
    (numFrames numChannels numOut : Nat)
    (samples : List Int16) : Option (List Int16) :=
  if numOut = numChannels then
    interleave channels numFrames numChannels samples
  else upmixMonoToInterleaved channels numFrames numOut samples

section

variable {channels : Channels Int16}
variable {numFrames outFrames numChannels numOut : Nat}
variable {samples : List Int16}

/-- As many frames as the channels have, or fewer, are written. -/
theorem writeOut_returns
    (shape : channels.HasShape outFrames numChannels)
    (hasFirst : 0 < numChannels)
    (within : numFrames ≤ outFrames)
    (enough : numFrames * numOut ≤ samples.length) :
    Returns (writeOut channels numFrames numChannels numOut samples)
      (Carries channels (channelOf numOut numChannels) numFrames numOut
        samples) := by
  obtain ⟨rfl, rfl⟩ := shape
  unfold writeOut channelOf
  split_ifs with asMany
  · rw [asMany] at enough ⊢
    exact interleave_returns within rfl enough
  · exact upmix_returns within hasFirst enough

/-- More frames than the channels have are not there. -/
theorem writeOut_beyond
    (shape : channels.HasShape outFrames numChannels)
    (either : numOut = numChannels ∨ numChannels = 1)
    (hasOut : 0 < numOut)
    (beyond : outFrames < numFrames) :
    writeOut channels numFrames numChannels numOut samples = none := by
  obtain ⟨rfl, rfl⟩ := shape
  unfold writeOut
  split_ifs with asMany
  · -- the last channel has nothing behind it
    have member :
        (channels.numChannels - 1, channels.numFrames) ∈
          nested channels.numChannels numFrames :=
      mem_nested.mpr ⟨by omega, beyond⟩
    exact
      storeAll_of_mem member
        (Or.inl (Channels.read_last (by omega) (Nat.le_refl _)))
  · have isMono := either.resolve_left asMany
    have member : (channels.numFrames, 0) ∈ nested numFrames numOut :=
      mem_nested.mpr ⟨beyond, hasOut⟩
    exact
      storeAll_of_mem member
        (Or.inl (Channels.read_last (by omega) (Nat.le_refl _)))

/-- To a frame without channels nothing is written. -/
theorem writeOut_zero
    (hasFirst : 0 < numChannels) :
    writeOut channels numFrames numChannels 0 samples = some samples := by
  have noItems : nested numFrames 0 = [] := by
    rw [List.eq_nil_iff_forall_not_mem]
    intro (i, j) member
    exact Nat.not_lt_zero _ (mem_nested.mp member).2
  rw [writeOut, if_neg (by omega), upmixMonoToInterleaved, noItems]
  rfl

/-- If fewer frames are written than there are, some sample of the frame need not be that of
the channels. -/
theorem writeOut_short
    (shape : channels.HasShape outFrames numChannels)
    (hasFirst : 0 < numChannels)
    (hasOut : 0 < numOut)
    (short : numFrames < outFrames) :
    ∃ samples : List Int16,
      samples.length = outFrames * numOut ∧
        ∀ written,
          writeOut channels numFrames numChannels numOut samples =
              some written →
            ¬ Carries channels (channelOf numOut numChannels) outFrames
                numOut samples written := by
  have inChannels : channelOf numOut numChannels 0 < channels.numChannels := by
    rw [shape.2, channelOf]
    split_ifs
    · exact hasFirst
    · exact hasFirst
  rw [← shape.1] at short
  obtain ⟨sample, isSample⟩ := Channels.exists_read inChannels short
  rw [shape.1] at short
  have inside : numFrames * numOut < outFrames * numOut :=
    Nat.mul_lt_mul_of_pos_right short hasOut
  have fresh : sample + 1 ≠ sample := by
    simp
  have room :
      (List.replicate (outFrames * numOut) (sample + 1)).length =
        outFrames * numOut :=
    List.length_replicate
  refine ⟨_, room, fun written isWritten carries => ?_⟩
  have returns :
      Returns
        (writeOut channels numFrames numChannels numOut
          (List.replicate (outFrames * numOut) (sample + 1)))
        (Carries channels (channelOf numOut numChannels) numFrames numOut
          (List.replicate (outFrames * numOut) (sample + 1))) :=
    writeOut_returns shape hasFirst short.le (by rw [room]; exact inside.le)
  obtain ⟨other, isOther, stays⟩ := returns
  obtain rfl := Option.some.inj (isWritten.symm.trans isOther)
  have unchanged := stays.untouched _ (Nat.le_refl _)
  rw [List.getElem?_replicate_of_lt inside] at unchanged
  obtain ⟨expected, isExpected, isThere⟩ :=
    carries.written numFrames short 0 hasOut
  rw [isSample] at isExpected
  rw [Nat.add_zero, unchanged, ← Option.some.inj isExpected] at isThere
  exact fresh (Option.some.inj isThere)

end

/-! ## Frames in and out -/

variable {conversion : SampleConversion}
variable {sinc : SincResampler conversion.Value}
variable {ndebug : Bool}
variable {audio : AudioBuffer sinc}

/-- A frame that the assertions of `InterleaveTo` let through is written by the loop for its
channels, from the output data. -/
theorem interleaveTo_eq
    {next : AudioBuffer sinc}
    {channels : Channels Int16}
    {numOut : Nat}
    {samples : List Int16}
    (sound : Sound audio)
    (either :
      numOut = audio.config.numProcChannels ∨
        audio.config.numProcChannels = 1)
    (isOutput : audio.outputData = some (next, channels))
    (isSound : Sound next)
    (sameConfig : next.config = audio.config) :
    audio.interleaveTo ndebug
        ⟨audio.config.outputNumFrames, numOut, samples⟩ true =
      (writeOut channels audio.config.procNumFrames
        audio.config.numProcChannels numOut samples).map fun written =>
          (next, ⟨audio.config.outputNumFrames, numOut, written⟩) := by
  have channelsMatch :
      assert ndebug
        (numOut = audio.numChannels ∨ audio.numChannels = 1) = some () := by
    rw [sound.numChannels]
    exact assert_of (Or.inr either)
  have framesMatch :
      assert ndebug
        (audio.config.outputNumFrames = audio.config.outputNumFrames) =
          some () :=
    assert_of (Or.inr rfl)
  unfold AudioBuffer.interleaveTo
  dsimp only
  rw [if_pos rfl, channelsMatch, framesMatch, isOutput]
  dsimp only [Option.bind_eq_bind, Option.bind_some]
  rw [isSound.numChannels, sameConfig]
  unfold writeOut
  split_ifs
  · exact Option.map_eq_bind.symm
  · exact Option.map_eq_bind.symm

/-- What an audio buffer can be after frames have come and gone. -/
inductive Reached (ndebug : Bool) : AudioBuffer sinc → Prop where
  | create (config : Config) :
      Reached ndebug (.create config)
  | deinterleave
      {audio next : AudioBuffer sinc}
      {frame : Frame}
      (reached : Reached ndebug audio)
      (fits :
        frame.Fits audio.config.inputNumFrames audio.config.numInputChannels)
      (isNext : audio.deinterleaveFrom ndebug frame = some next) :
      Reached ndebug next
  | process
      {audio : AudioBuffer sinc}
      (data : IFChannels conversion)
      (reached : Reached ndebug audio)
      (shape :
        data.HasShape audio.config.procNumFrames
          audio.config.numProcChannels) :
      Reached ndebug { audio with data }
  | interleave
      {audio next : AudioBuffer sinc}
      {samples written : Frame}
      {dataChanged : Bool}
      (reached : Reached ndebug audio)
      (fits :
        samples.samplesPerChannel = audio.config.outputNumFrames ∧
          (samples.numChannels = audio.config.numProcChannels ∨
            audio.config.numProcChannels = 1))
      (isNext :
        audio.interleaveTo ndebug samples dataChanged = some (next, written)) :
      Reached ndebug next

/-- The counts are those of the configuration all the time. -/
theorem Reached.sound
    (reached : Reached ndebug audio) :
    Sound audio := by
  induction reached with
  | create config =>
      exact sound_create config
  | @deinterleave audio next frame reached fits isNext inductionHypothesis =>
      by_cases passes : audio.config.Passes ndebug
      · obtain ⟨other, isOther, _, sound⟩ :=
          deinterleaveFrom_returns inductionHypothesis passes fits
        rw [Option.some.inj (isNext.symm.trans isOther)]
        exact sound
      · rw [deinterleaveFrom_rejects passes] at isNext
        contradiction
  | process data reached shape inductionHypothesis =>
      exact { inductionHypothesis with data := shape }
  | @interleave audio next samples written dataChanged reached fits isNext
      inductionHypothesis =>
      cases dataChanged with
      | false =>
          obtain ⟨rfl, _⟩ := Prod.mk.inj (Option.some.inj isNext)
          exact inductionHypothesis
      | true =>
          obtain ⟨numFrames, numOut, before⟩ := samples
          obtain ⟨rfl, either⟩ := fits
          obtain ⟨⟨other, channels⟩, isOutput, sameConfig, sound, _⟩ :=
            outputData_returns inductionHypothesis
          rw [interleaveTo_eq inductionHypothesis either isOutput sound
            sameConfig] at isNext
          obtain ⟨after, _, isPair⟩ := Option.map_eq_some_iff.mp isNext
          rw [← (Prod.mk.inj isPair).1]
          exact sound

/-! ## The contract -/

/-- What is in the buffer leaves as a whole: the output data has as many frames as the output,
and any frame with some channels and room for them holds exactly that data afterwards, and what
was behind it before. -/
def Leaves
    (ndebug : Bool)
    (audio : AudioBuffer sinc)
    (numOut : Nat) : Prop :=
  Returns audio.outputData fun (next, out) =>
    out.HasShape audio.config.outputNumFrames audio.config.numProcChannels ∧
      ∀ samples : List Int16,
        audio.config.outputNumFrames * numOut ≤ samples.length →
          Returns
            (audio.interleaveTo ndebug
              ⟨audio.config.outputNumFrames, numOut, samples⟩ true)
            fun (after, frame) =>
              after = next ∧
                frame.samplesPerChannel = audio.config.outputNumFrames ∧
                frame.numChannels = numOut ∧
                Carries out (channelOf numOut audio.config.numProcChannels)
                  audio.config.outputNumFrames numOut samples frame.data

/-- A frame is deinterleaved and leaves as a whole. -/
def RoundKept
    (ndebug : Bool)
    (audio : AudioBuffer sinc)
    (frame : Frame)
    (numOut : Nat) : Prop :=
  Returns (audio.deinterleaveFrom ndebug frame) fun middle =>
    middle.config = audio.config ∧ Leaves ndebug middle numOut

/-- The output has as many frames as the processing, or the output frame has no channels, and
the channels pass. -/
def RoundClean
    (ndebug : Bool)
    (config : Config)
    (numOut : Nat) : Prop :=
  (config.procNumFrames = config.outputNumFrames ∨ numOut = 0) ∧
    config.Passes ndebug

/-- With other frame counts some frame is left with a sample of its own, or a sample behind
the output data is read. -/
theorem not_leaves
    {numOut : Nat}
    (sound : Sound audio)
    (either :
      numOut = audio.config.numProcChannels ∨
        audio.config.numProcChannels = 1)
    (differ : audio.config.procNumFrames ≠ audio.config.outputNumFrames)
    (hasOut : 0 < numOut) :
    ¬ Leaves ndebug audio numOut := by
  rintro ⟨⟨next, out⟩, isOutput, shape, writes⟩
  obtain ⟨other, isOther, sameConfig, isSound, _⟩ := outputData_returns sound
  rw [isOutput] at isOther
  obtain rfl := Option.some.inj isOther
  have hasFirst := audio.config.procChannels.1
  have written
      (samples : List Int16)
      (room : audio.config.outputNumFrames * numOut ≤ samples.length) :
      Returns
        (writeOut out audio.config.procNumFrames
          audio.config.numProcChannels numOut samples)
        (Carries out (channelOf numOut audio.config.numProcChannels)
          audio.config.outputNumFrames numOut samples) := by
    obtain ⟨⟨_, frame⟩, isFrame, _, _, _, carries⟩ := writes samples room
    rw [interleaveTo_eq sound either isOutput isSound sameConfig] at isFrame
    obtain ⟨data, isData, isPair⟩ := Option.map_eq_some_iff.mp isFrame
    rw [← (Prod.mk.inj isPair).2] at carries
    exact ⟨data, isData, carries⟩
  obtain short | beyond := Nat.lt_or_gt_of_ne differ
  · obtain ⟨samples, isLength, fails⟩ :=
      writeOut_short shape hasFirst hasOut short
    obtain ⟨data, isData, carries⟩ := written samples isLength.ge
    exact fails data isData carries
  · obtain ⟨data, isData, _⟩ :=
      written
        (List.replicate (audio.config.outputNumFrames * numOut) 0)
        List.length_replicate.ge
    rw [writeOut_beyond shape either hasOut beyond] at isData
    contradiction

/-- With the same frame counts all of the output data is written. -/
theorem leaves_of_clean
    {numOut : Nat}
    (sound : Sound audio)
    (either :
      numOut = audio.config.numProcChannels ∨
        audio.config.numProcChannels = 1)
    (clean :
      audio.config.procNumFrames = audio.config.outputNumFrames ∨
        numOut = 0) :
    Leaves ndebug audio numOut := by
  have hasFirst := audio.config.procChannels.1
  obtain ⟨⟨next, out⟩, isOutput, sameConfig, isSound, shape⟩ :=
    outputData_returns sound
  refine ⟨(next, out), isOutput, shape, fun samples room => ?_⟩
  have written :
      Returns
        (writeOut out audio.config.procNumFrames
          audio.config.numProcChannels numOut samples)
        (Carries out (channelOf numOut audio.config.numProcChannels)
          audio.config.outputNumFrames numOut samples) := by
    obtain sameRate | rfl := clean
    · rw [sameRate]
      exact writeOut_returns shape hasFirst (Nat.le_refl _) room
    · rw [writeOut_zero hasFirst]
      exact
        Returns.pure
          ⟨rfl, fun _ _ _ inNone => absurd inNone (Nat.not_lt_zero _),
            fun _ _ => rfl⟩
  obtain ⟨data, isData, carries⟩ := written
  rw [interleaveTo_eq sound either isOutput isSound sameConfig, isData]
  exact Returns.pure ⟨rfl, rfl, rfl, carries⟩

/-- In an audio buffer that can be reached, a frame that is deinterleaved leaves as a whole if
and only if the counts are such that it can. -/
theorem round_kept_iff
    {numOut : Nat}
    {frame : Frame}
    (reached : Reached ndebug audio)
    (fits :
      frame.Fits audio.config.inputNumFrames audio.config.numInputChannels)
    (either :
      numOut = audio.config.numProcChannels ∨
        audio.config.numProcChannels = 1) :
    RoundKept ndebug audio frame numOut ↔
      RoundClean ndebug audio.config numOut := by
  have before := reached.sound
  constructor
  · rintro ⟨middle, isMiddle, sameConfig, leaves⟩
    have sound := (Reached.deinterleave reached fits isMiddle).sound
    refine ⟨?_, ?_⟩
    · by_contra neither
      obtain ⟨differ, hasOut⟩ := not_or.mp neither
      rw [← sameConfig] at either differ
      exact not_leaves sound either differ (by omega) leaves
    · by_contra fails
      rw [deinterleaveFrom_rejects fails] at isMiddle
      contradiction
  · rintro ⟨clean, passes⟩
    refine
      (deinterleaveFrom_returns before passes fits).imp
        fun middle ⟨sameConfig, sound⟩ => ⟨sameConfig, ?_⟩
    rw [← sameConfig] at either clean
    exact leaves_of_clean sound either clean

/-! ## Two configurations -/

/-- A resampler that fills the destination with silence. -/
def silentSinc (conversion : SampleConversion) :
    SincResampler conversion.Value where
  State := Unit
  initial := ()
  resample := fun state _ frames =>
    (state, List.replicate frames (conversion.toFloat 0))
  length_resample := fun _ _ _ => List.length_replicate

/-- 16 kHz in, for the processing and out. -/
def wideband : Config :=
  ⟨160, 2, 160, 1, 160, by decide, by decide, by decide,
    Nat.zero_lt_two, by decide⟩

/-- 48 kHz in and out, with the processing at 16 kHz. -/
def reverseStream : Config :=
  ⟨480, 1, 160, 1, 480, by decide, by decide, by decide, by decide,
    by decide⟩

/-- A frame of zeros. -/
def silent (numFrames numChannels : Nat) : Frame :=
  ⟨numFrames, numChannels, List.replicate (numFrames * numChannels) 0⟩

/-- At one rate a mono downmix of a stereo frame leaves as a whole, to both channels. -/
theorem round_kept_iff_wideband :
    RoundKept false
      (AudioBuffer.create wideband :
        AudioBuffer (silentSinc BufferViews.exactSamples))
      (silent 160 2) 2 :=
  (round_kept_iff (Reached.create wideband)
    ⟨rfl, rfl, List.length_replicate.ge⟩ (Or.inr rfl)).mpr
    ⟨Or.inl rfl, Or.inr (Or.inl rfl)⟩

/-- At 16 kHz a third of a frame at 48 kHz is written. -/
theorem not_round_kept_reverseStream :
    ¬ RoundKept false
      (AudioBuffer.create reverseStream :
        AudioBuffer (silentSinc BufferViews.exactSamples))
      (silent 480 1) 1 := by
  rintro ⟨middle, isMiddle, sameConfig, leaves⟩
  have sound :=
    (Reached.deinterleave (Reached.create reverseStream)
      ⟨rfl, rfl, List.length_replicate.ge⟩ isMiddle).sound
  have config : middle.config = reverseStream := sameConfig
  refine not_leaves sound (Or.inr ?_) ?_ Nat.one_pos leaves
  · rw [config]
    rfl
  · rw [config]
    decide

end ApmSdk.FrameBuffers
