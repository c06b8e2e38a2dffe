import ApmSdk.FrameLoops

namespace ApmSdk.FrameBuffers

/-!
# A frame through an audio buffer

The buffers and the resamplers of an `AudioBuffer` keep the counts they are created with.
Whether a frame that is deinterleaved leaves as a whole is then a matter of these counts:
`InterleaveTo` takes as many samples of each channel as the processing has, not as the output
has.
-/

open ArrayCopies StoreLoops
open BufferViews (SampleConversion)

variable {conversion : SampleConversion}
variable {sinc : SincResampler conversion.Value}

/-! ## Buffers and resamplers keep their counts -/

/-- Both copies of the samples have some counts. -/
def IFChannels.HasShape
    (buffer : IFChannels conversion)
    (numFrames numChannels : Nat) : Prop :=
  buffer.ibuf.HasShape numFrames numChannels ∧
    buffer.fbuf.HasShape numFrames numChannels

namespace IFChannels

variable {buffer : IFChannels conversion}
variable {numFrames numChannels : Nat}

theorem hasShape_create :
    (create numFrames numChannels : IFChannels conversion).HasShape
      numFrames numChannels :=
  ⟨⟨rfl, rfl⟩, ⟨rfl, rfl⟩⟩

theorem hasShape_refreshF
    (shape : buffer.HasShape numFrames numChannels) :
    buffer.refreshF.HasShape numFrames numChannels := by
  unfold refreshF
  split
  next =>
      exact shape
  next =>
      exact ⟨shape.1, shape.1⟩

theorem hasShape_openF
    (shape : buffer.HasShape numFrames numChannels) :
    buffer.openF.HasShape numFrames numChannels :=
  hasShape_refreshF shape

theorem hasShape_openI
    (shape : buffer.HasShape numFrames numChannels) :
    buffer.openI.HasShape numFrames numChannels := by
  unfold openI refreshI
  split
  next =>
      exact shape
  next =>
      exact ⟨shape.2, shape.2⟩

/-- A buffer that is made when it is first needed has the counts either way. -/
theorem hasShape_getD
    {lazy : Option (IFChannels conversion)}
    (shape : ∀ buffer ∈ lazy, buffer.HasShape numFrames numChannels) :
    (lazy.getD (create numFrames numChannels)).HasShape numFrames
      numChannels := by
  cases lazy with
  | none =>
      exact hasShape_create
  | some buffer =>
      exact shape buffer rfl

end IFChannels

/-- The resamplers of some channels are between two frame counts. -/
def Between
    (resamplers : List (PushSincResampler sinc))
    (sourceFrames destinationFrames numChannels : Nat) : Prop :=
  resamplers.length = numChannels ∧
    ∀ resampler ∈ resamplers,
      resampler.requestFrames = sourceFrames ∧
        resampler.destinationFrames = destinationFrames

theorem between_newResamplers
    {sourceFrames destinationFrames numChannels : Nat}
    (differ : sourceFrames ≠ destinationFrames) :
    Between
      (AudioBuffer.newResamplers sourceFrames destinationFrames numChannels :
        List (PushSincResampler sinc))
      sourceFrames destinationFrames numChannels := by
  unfold AudioBuffer.newResamplers
  rw [if_pos differ]
  refine ⟨List.length_replicate, fun resampler member => ?_⟩
  rw [List.eq_of_mem_replicate member]
  exact ⟨rfl, rfl⟩

/-- A resampler reads one channel and fills another, if the buffers have its counts. -/
theorem resample_returns
    {resampler : PushSincResampler sinc}
    {source destination : Channels conversion.Value}
    {numChannels channel : Nat}
    (shape : source.HasShape resampler.requestFrames numChannels)
    (into : destination.HasShape resampler.destinationFrames numChannels)
    (inChannels : channel < numChannels) :
    Returns
      (resampler.resample source resampler.requestFrames destination
        resampler.destinationFrames channel)
      fun (next, filled) =>
        next.requestFrames = resampler.requestFrames ∧
          next.destinationFrames = resampler.destinationFrames ∧
          filled.HasShape resampler.destinationFrames numChannels := by
  obtain ⟨sourceFrames, sourceChannels⟩ := shape
  obtain ⟨destinationFrames, destinationChannels⟩ := into
  have rows (length : Nat) :
      channel * length + length ≤ length * numChannels := by
    rw [← Nat.succ_mul, Nat.mul_comm]
    exact Nat.mul_le_mul_left _ inChannels
  have readable := rows source.numFrames
  have writable := rows destination.numFrames
  rw [← sourceChannels, ← source.size] at readable
  rw [← destinationChannels, ← destination.size] at writable
  unfold PushSincResampler.resample
  rw [if_neg (by omega), slice, if_pos (by omega)]
  have isLength :=
    sinc.length_resample resampler.state
      ((source.data.drop (channel * source.numFrames)).take
        resampler.requestFrames)
      resampler.destinationFrames
  dsimp only [Option.bind_eq_bind, Option.bind_some]
  cases isNext :
      overwrite destination.data (channel * destination.numFrames)
        (sinc.resample resampler.state
          ((source.data.drop (channel * source.numFrames)).take
            resampler.requestFrames)
          resampler.destinationFrames).2 with
  | none =>
      rw [overwrite, if_pos (by omega)] at isNext
      contradiction
  | some data =>
      rw [Option.bind_some]
      refine
        Returns.bind (Channels.withData_returns (length_of_overwrite isNext))
          fun filled shaped => ?_
      obtain ⟨⟨sameFrames, sameChannels⟩, -⟩ := shaped
      exact
        Returns.pure
          ⟨rfl, rfl, sameFrames.trans destinationFrames,
            sameChannels.trans destinationChannels⟩

/-- The loop over the channels resamples them all. -/
theorem resampleAll_returns
    {resamplers : List (PushSincResampler sinc)}
    {source destination : Channels conversion.Value}
    {sourceFrames destinationFrames numChannels : Nat}
    (between :
      Between resamplers sourceFrames destinationFrames numChannels)
    (shape : source.HasShape sourceFrames numChannels)
    (into : destination.HasShape destinationFrames numChannels) :
    Returns
      (resampleAll resamplers source sourceFrames destination
        destinationFrames numChannels)
      fun (next, filled) =>
        Between next sourceFrames destinationFrames numChannels ∧
          filled.HasShape destinationFrames numChannels := by
  refine Returns.foldlM _ ⟨between, into⟩ ?_
  intro (resamplers, destination) i member ⟨⟨isLength, counts⟩, into⟩
  have inChannels := List.mem_range.mp member
  have inside : i < resamplers.length := isLength ▸ inChannels
  obtain ⟨requests, fills⟩ := counts _ (List.getElem_mem inside)
  dsimp only
  rw [List.getElem?_eq_getElem inside, Option.bind_eq_bind, Option.bind_some,
    ← requests, ← fills]
  rw [← requests] at shape
  rw [← fills] at into
  refine
    Returns.bind (resample_returns shape into inChannels)
      fun (next, filled) ⟨sameRequests, sameFills, filledShape⟩ => ?_
  refine Returns.pure ⟨⟨List.length_set.trans isLength, ?_⟩, filledShape⟩
  intro other isOther
  obtain before | rfl := List.mem_or_eq_of_mem_set isOther
  · rw [requests, fills]
    exact counts other before
  · exact ⟨sameRequests, sameFills⟩

/-! ## The audio buffer keeps its counts -/

/-- A frame has some counts, and room for their samples. -/
def Frame.Fits (frame : Frame) (numFrames numChannels : Nat) : Prop :=
  frame.samplesPerChannel = numFrames ∧
    frame.numChannels = numChannels ∧
    numFrames * numChannels ≤ frame.data.length

/-- The assertion on the channels of a frame that is deinterleaved passes, or is left out. -/
def Config.Passes (config : Config) (ndebug : Bool) : Prop :=
  ndebug ∨
    config.numProcChannels = 1 ∨
    config.numProcChannels = config.numInputChannels

/-- The buffers and resamplers have the counts of the configuration. -/
structure Sound (audio : AudioBuffer sinc) : Prop where
  numChannels : audio.numChannels = audio.config.numProcChannels
  data :
    audio.data.HasShape audio.config.procNumFrames
      audio.config.numProcChannels
  inputBuffer :
    ∀ buffer ∈ audio.inputBuffer,
      buffer.HasShape audio.config.inputNumFrames audio.config.numProcChannels
  outputBuffer :
    ∀ buffer ∈ audio.outputBuffer,
      buffer.HasShape audio.config.outputNumFrames
        audio.config.numProcChannels
  inputResamplers :
    audio.config.inputNumFrames ≠ audio.config.procNumFrames →
      Between audio.inputResamplers audio.config.inputNumFrames
        audio.config.procNumFrames audio.config.numProcChannels
  outputResamplers :
    audio.config.procNumFrames ≠ audio.config.outputNumFrames →
      Between audio.outputResamplers audio.config.procNumFrames
        audio.config.outputNumFrames audio.config.numProcChannels

/-- The constructor establishes the counts. -/
theorem sound_create
    (config : Config) :
    Sound (AudioBuffer.create config : AudioBuffer sinc) where
  numChannels := rfl
  data := IFChannels.hasShape_create
  inputBuffer := by
    intro buffer isBuffer
    contradiction
  outputBuffer := by
    intro buffer isBuffer
    contradiction
  inputResamplers := between_newResamplers
  outputResamplers := between_newResamplers

variable {ndebug : Bool}
variable {audio : AudioBuffer sinc}
variable {frame : Frame}

theorem assert_of
    {condition : Prop}
    [Decidable condition]
    (holds : ndebug ∨ condition) :
    assert ndebug condition = some () :=
  if_pos holds

/-- A frame that fits is deinterleaved or downmixed into a buffer of its length. -/
theorem fill_returns
    {deinterleaved : Channels Int16}
    (passes : audio.config.Passes ndebug)
    (fits :
      frame.Fits audio.config.inputNumFrames audio.config.numInputChannels)
    (shape :
      deinterleaved.HasShape audio.config.inputNumFrames
        audio.config.numProcChannels) :
    Returns (audio.fill ndebug frame deinterleaved) fun next =>
      next.HasShape audio.config.inputNumFrames
        audio.config.numProcChannels := by
  obtain ⟨_, _, enough⟩ := fits
  unfold AudioBuffer.fill
  dsimp only
  by_cases isMono : audio.config.numProcChannels = 1
  · rw [if_pos isMono]
    rw [isMono] at shape ⊢
    exact (downmix_returns shape enough).imp fun _ filled => filled.1
  · rw [if_neg isMono,
      assert_of (passes.imp_right fun either => either.resolve_left isMono)]
    have within :=
      Nat.mul_le_mul_left audio.config.inputNumFrames
        audio.config.procChannels.2
    exact
      (deinterleave_returns shape (within.trans enough)).imp
        fun _ filled => filled.1

/-- A frame that fits is taken into the buffer. -/
theorem deinterleaveFrom_returns
    (sound : Sound audio)
    (passes : audio.config.Passes ndebug)
    (fits :
      frame.Fits audio.config.inputNumFrames audio.config.numInputChannels) :
    Returns (audio.deinterleaveFrom ndebug frame) fun next =>
      next.config = audio.config ∧ Sound next := by
  unfold AudioBuffer.deinterleaveFrom
  dsimp only
  rw [assert_of (Or.inr fits.2.1), assert_of (Or.inr fits.1)]
  dsimp only [Option.bind_eq_bind, Option.bind_some]
  by_cases sameRate :
      audio.config.inputNumFrames = audio.config.procNumFrames
  · rw [if_pos sameRate]
    have shape := IFChannels.hasShape_openI sound.data
    rw [← sameRate] at shape
    refine
      Returns.bind
        (@fill_returns conversion sinc ndebug
          { audio with numChannels := audio.config.numProcChannels } frame _
          passes fits shape.1)
        fun ibuf filled => ?_
    refine Returns.pure ⟨rfl, { sound with numChannels := rfl, data := ?_ }⟩
    rw [← sameRate]
    exact ⟨filled, shape.2⟩
  · rw [if_neg sameRate]
    have inputShape :=
      IFChannels.hasShape_openI
        (IFChannels.hasShape_getD sound.inputBuffer)
    refine
      Returns.bind
        (@fill_returns conversion sinc ndebug
          { audio with numChannels := audio.config.numProcChannels } frame _
          passes fits inputShape.1)
        fun ibuf filled => ?_
    have filledShape :=
      @IFChannels.hasShape_refreshF _
        { (audio.inputBuffer.getD
            (.create audio.config.inputNumFrames
              audio.config.numProcChannels)).openI with ibuf } _ _
        ⟨filled, inputShape.2⟩
    have dataShape := IFChannels.hasShape_openF sound.data
    refine
      Returns.bind
        (resampleAll_returns (sound.inputResamplers sameRate) filledShape.2
          dataShape.2)
        fun (resamplers, fbuf) ⟨between, filledData⟩ => ?_
    refine
      Returns.pure
        ⟨rfl,
          { sound with
            numChannels := rfl
            data := ⟨dataShape.1, filledData⟩
            inputBuffer := ?_
            inputResamplers := fun _ => between }⟩
    intro buffer isBuffer
    rw [← Option.some.inj isBuffer]
    exact filledShape

/-- A frame is not taken where an assertion on its channels fails. -/
theorem deinterleaveFrom_rejects
    (fails : ¬ audio.config.Passes ndebug) :
    audio.deinterleaveFrom ndebug frame = none := by
  obtain ⟨isDebug, neither⟩ := not_or.mp fails
  obtain ⟨isStereo, differs⟩ := not_or.mp neither
  have stops
      (deinterleaved : Channels Int16) :
      AudioBuffer.fill ndebug
          { audio with numChannels := audio.config.numProcChannels } frame
          deinterleaved = none := by
    unfold AudioBuffer.fill
    dsimp only
    rw [if_neg isStereo, assert, if_neg (not_or.mpr ⟨isDebug, differs⟩)]
    rfl
  unfold AudioBuffer.deinterleaveFrom
  dsimp only
  simp only [stops, Option.bind_eq_bind, Option.bind_none, ite_self,
    Option.bind_fun_none]

/-- The output is resampled if necessary. -/
theorem outputData_returns
    (sound : Sound audio) :
    Returns audio.outputData fun (next, channels) =>
      next.config = audio.config ∧
        Sound next ∧
        channels.HasShape audio.config.outputNumFrames
          audio.config.numProcChannels := by
  unfold AudioBuffer.outputData
  dsimp only
  by_cases sameRate :
      audio.config.procNumFrames = audio.config.outputNumFrames
  · rw [if_neg (not_not.mpr sameRate)]
    have shape := IFChannels.hasShape_openI sound.data
    refine Returns.pure ⟨rfl, { sound with data := shape }, ?_⟩
    rw [← sameRate]
    exact shape.1
  · rw [if_pos sameRate, sound.numChannels]
    have outputShape :=
      IFChannels.hasShape_openF
        (IFChannels.hasShape_getD sound.outputBuffer)
    have dataShape := IFChannels.hasShape_openF sound.data
    refine
      Returns.bind
        (resampleAll_returns (sound.outputResamplers sameRate) dataShape.2
          outputShape.2)
        fun (resamplers, fbuf) ⟨between, filled⟩ => ?_
    have filledShape :=
      @IFChannels.hasShape_openI _
        { (audio.outputBuffer.getD
            (.create audio.config.outputNumFrames
              audio.config.numProcChannels)).openF with fbuf } _ _
        ⟨outputShape.1, filled⟩
    refine
      Returns.pure
        ⟨rfl,
          { sound with
            numChannels := rfl
            data := dataShape
            outputBuffer := ?_
            outputResamplers := fun _ => between },
          filledShape.1⟩
    intro buffer isBuffer
    rw [← Option.some.inj isBuffer]
    exact filledShape

end ApmSdk.FrameBuffers
