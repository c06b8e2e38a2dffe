import ApmSdk.ApmProcessing
import ApmSdk.CancellerExclusion

namespace ApmSdk.AudioProcessing

/-!
# Which formats the wrapper serves with whole frames

The wrapper copies `samples_per_channel_` samples where an interleaved frame has
that many for each channel.  With more than one channel the module is handed a
frame whose end comes from somewhere else.
-/

variable {cores : Cores}

namespace AudioProcessingImpl

section Idle

/-- No component is enabled. -/
def Idle (apm : AudioProcessingImpl cores) : Prop :=
  ∀ flag ∈ apm.enabledFlags, flag = false

/-- The flags are part of the configuration. -/
theorem enabledFlags_of_configuration
    {before after : AudioProcessingImpl cores}
    (same : after.configuration = before.configuration) :
    after.enabledFlags = before.enabledFlags :=
  congrArg
    (fun configuration : Configuration =>
      [configuration.echoCancellation.enabled,
        configuration.echoControlMobile.enabled,
        configuration.gainControl.enabled, configuration.highPassEnabled,
        configuration.noiseSuppression.enabled,
        configuration.levelEstimatorEnabled,
        configuration.voiceDetection.enabled])
    same

theorem isDataProcessed_of_idle
    {apm : AudioProcessingImpl cores}
    (idle : apm.Idle) :
    apm.isDataProcessed = false := by
  have none_enabled : apm.enabledFlags.count true = 0 := by
    rw [List.count_eq_zero]
    intro enabled
    cases idle true enabled
  simp [isDataProcessed, none_enabled]

theorem enabledFlags_initializeLocked
    (created : Creations)
    (apm : AudioProcessingImpl cores) :
    (initializeLocked created apm).1.enabledFlags = apm.enabledFlags := by
  refine runStages_frame enabledFlags ?_ apm
  unfold initializeStages
  refine forall_mem_stages_cons (fun _ => rfl) ?_
  refine forall_mem_stages_cons (fun apm => ?echo) ?_
  case echo =>
      simp only [initializeEcho, onEchoCancellation, enabledFlags,
        EchoCancellation.enabled_initializeComponent]
  refine forall_mem_stages_cons (fun apm => ?mobile) ?_
  case mobile =>
      simp only [initializeMobile, onEchoControlMobile, enabledFlags,
        EchoControlMobile.enabled_initializeComponent]
  refine forall_mem_stages_cons (fun apm => ?gain) ?_
  case gain =>
      simp only [initializeGain, onGainControl, enabledFlags,
        GainControl.enabled_initializeComponent]
  exact forall_mem_stages_cons (fun _ => rfl) (List.forall_mem_nil _)

/--
`MaybeInitialize` changes no flag; the format that was asked for is in force
afterwards, or the module is as it was and there is an error.
-/
theorem maybeInitialize_format
    (created : Creations)
    (config : ProcessingConfig)
    (apm : AudioProcessingImpl cores) :
    let ran := maybeInitialize created config apm
    ran.1.enabledFlags = apm.enabledFlags ∧
      (ran.1.formats.apiFormat = config ∨ ran.1 = apm ∧ ran.2 ≠ none) := by
  unfold maybeInitialize
  split
  next same => exact ⟨rfl, .inl same.symm⟩
  next other =>
      unfold initializeLockedWith
      split
      next code checked => exact ⟨rfl, .inr ⟨rfl, Option.some_ne_none _⟩⟩
      next checked =>
          have modes :=
            modes_initializeLocked created
              { apm with
                formats :=
                  .choose config checked apm.echoControlMobile.enabled }
          exact
            ⟨enabledFlags_initializeLocked created _,
              .inl
                (congrArg (fun modes => StreamFormats.apiFormat modes.1)
                  modes)⟩

/-- Nothing that comes before the components enables one or touches the frame. -/
theorem idle_of_mem_prepareStages
    (created : Creations) :
    ∀ stage ∈ @prepareStages cores created,
      ∀ state : AudioProcessingImpl cores × AudioFrame,
        ((stage state).1.1.enabledFlags, (stage state).1.2) =
          (state.1.enabledFlags, state.2) := by
  have lifted :
      ∀ {stage : Stage (AudioProcessingImpl cores) Exit}
          (state : AudioProcessingImpl cores × AudioFrame),
        (stage state.1).1.enabledFlags = state.1.enabledFlags →
          ((onModule stage state).1.1.enabledFlags,
              (onModule stage state).1.2) =
            (state.1.enabledFlags, state.2) :=
    fun state same => congrArg (fun flags => (flags, state.2)) same
  simp only [prepareStages, List.forall_mem_cons, List.not_mem_nil,
    false_imp_iff, implies_true, and_true]
  refine ⟨?drain, fun _ => rfl, ?format, fun _ => rfl, ?load⟩
  case drain =>
      exact fun state =>
        lifted state
          (enabledFlags_of_configuration
            (keeps_readQueuedRenderData state.1))
  case format =>
      exact fun state =>
        lifted state (maybeInitialize_format created _ state.1).1
  case load =>
      intro state
      unfold loadFrame
      split <;> rfl

/-- The streams in and out have the same number of channels. -/
def SameChannels (apm : AudioProcessingImpl cores) : Prop :=
  apm.formats.apiFormat.outputStream.numChannels =
    apm.formats.apiFormat.inputStream.numChannels

/-- A frame asks for the same number of channels in and out. -/
theorem sameChannels_initializeForFrame
    (created : Creations)
    (state : AudioProcessingImpl cores × AudioFrame) :
    ((initializeForFrame created state).2 = none →
        SameChannels (initializeForFrame created state).1.1) ∧
      (SameChannels state.1 →
        SameChannels (initializeForFrame created state).1.1) := by
  obtain ⟨-, outcome⟩ :=
    maybeInitialize_format created (state.1.captureConfig state.2) state.1
  rcases outcome with inForce | ⟨unchanged, failed⟩
  · have same : SameChannels (initializeForFrame created state).1.1 := by
      simp only [SameChannels, initializeForFrame, onModule, inForce]
      rfl
    exact ⟨fun _ => same, fun _ => same⟩
  · refine ⟨fun passed => absurd passed failed, fun same => ?_⟩
    simp only [initializeForFrame, onModule, unchanged]
    exact same

/-- All stages of a captured frame but the last. -/
def unstoredStages
    (created : Creations) :
    List (Stage (AudioProcessingImpl cores × AudioFrame) Exit) :=
  prepareStages created ++ [onModule processStreamLocked]

theorem processStreamStages_eq (created : Creations) :
    @processStreamStages cores created =
      unstoredStages created ++ storeFrame :: [] := by
  rw [unstoredStages, List.append_assoc]
  rfl

theorem idle_of_mem_unstoredStages
    (created : Creations) :
    ∀ stage ∈ @unstoredStages cores created,
      ∀ state : AudioProcessingImpl cores × AudioFrame,
        ((stage state).1.1.enabledFlags, (stage state).1.2) =
          (state.1.enabledFlags, state.2) := by
  intro stage member
  rcases List.mem_append.mp member with early | chain
  · exact idle_of_mem_prepareStages created stage early
  · rw [List.mem_singleton.mp chain]
    intro state
    exact
      congrArg (fun flags => (flags, state.2))
        (enabledFlags_of_configuration (keeps_processStreamLocked state.1))

theorem sameChannels_of_mem_unstoredStages
    (created : Creations) :
    ∀ stage ∈ @unstoredStages cores created,
      ∀ state : AudioProcessingImpl cores × AudioFrame,
        SameChannels state.1 → SameChannels (stage state).1.1 := by
  have kept :
      ∀ {before after : AudioProcessingImpl cores},
        after.configuration = before.configuration →
          SameChannels before → SameChannels after := by
    intro before after same held
    rw [SameChannels,
      show after.formats = _ from congrArg Configuration.formats same]
    exact held
  simp only [unstoredStages, prepareStages, List.cons_append,
    List.nil_append, List.forall_mem_cons, List.not_mem_nil, false_imp_iff,
    implies_true, and_true]
  refine
    ⟨?drain, fun _ held => held, ?format, fun _ held => held, ?load, ?chain⟩
  case drain =>
      exact fun state => kept (keeps_readQueuedRenderData state.1)
  case format =>
      exact fun state => (sameChannels_initializeForFrame created state).2
  case load =>
      intro state held
      unfold loadFrame
      split <;> exact held
  case chain =>
      exact fun state => kept (keeps_processStreamLocked state.1)

/--
A frame that the module accepts while no component is enabled comes back with the
samples it had.
-/
theorem data_of_idle
    {created : Creations}
    {apm reached : AudioProcessingImpl cores}
    {frame written : AudioFrame}
    (idle : apm.Idle)
    (passed :
      processStream created (apm, frame) = ((reached, written), none)) :
    written.data = frame.data := by
  rw [processStream, processStreamStages_eq] at passed
  obtain ⟨⟨between, loaded⟩, ran, stored, last⟩ :=
    exists_reached_of_completed passed
  have kept :=
    runStages_frame
      (fun state : AudioProcessingImpl cores × AudioFrame =>
        (state.1.enabledFlags, state.2))
      (idle_of_mem_unstoredStages created) (apm, frame)
  rw [ran] at kept
  have flags : between.enabledFlags = apm.enabledFlags :=
    congrArg Prod.fst kept
  obtain rfl : loaded = frame := congrArg Prod.snd kept
  have member : initializeForFrame created ∈ @unstoredStages cores created := by
    simp [unstoredStages, prepareStages]
  have channels :=
    holds_of_completed
      (fun state : AudioProcessingImpl cores × AudioFrame =>
        SameChannels state.1)
      (sameChannels_of_mem_unstoredStages created) member
      (fun state => (sameChannels_initializeForFrame created state).1)
      (congrArg Prod.snd ran)
  rw [ran] at channels
  have unchanged :
      between.outputCopyNeeded between.isDataProcessed = false := by
    have idleStill : between.Idle := by
      rw [Idle, flags]
      exact idle
    rw [isDataProcessed_of_idle idleStill, outputCopyNeeded,
      show _ = _ from channels]
    simp
  have kept : (storeFrame (between, loaded)).1.2.data = loaded.data := by
    simp only [storeFrame, unchanged]
    split
    next => rfl
    next written writes => exact AudioBuffer.data_interleaveTo_unchanged writes
  have final : (storeFrame (between, loaded)).1.2 = written :=
    congrArg (fun ran => ran.1.2) last
  rw [← final]
  exact kept

end Idle

end AudioProcessingImpl

namespace AudioProcessingImpl

section Format

/-- The module writes to a frame without changing its format. -/
theorem format_processStream
    (created : Creations)
    (state : AudioProcessingImpl cores × AudioFrame) :
    let after := (processStream created state).1.2
    after.samplesPerChannel = state.2.samplesPerChannel ∧
      after.numChannels = state.2.numChannels := by
  have kept :=
    runStages_frame
      (fun state : AudioProcessingImpl cores × AudioFrame =>
        (state.2.samplesPerChannel, state.2.numChannels))
      (?_ : ∀ stage ∈ processStreamStages created, _) state
  · exact Prod.mk.inj kept
  · rw [processStreamStages_eq]
    intro stage member before
    rcases List.mem_append.mp member with early | last
    · have same :=
        congrArg Prod.snd
          (idle_of_mem_unstoredStages created stage early before)
      simp only at same
      rw [same]
    · rw [List.mem_singleton.mp last]
      simp only [storeFrame]
      split
      next => rfl
      next written writes =>
          obtain ⟨samples, channels⟩ :=
            AudioBuffer.format_interleaveTo writes
          rw [samples, channels]

/-- A render frame is not written to at all. -/
theorem frame_processReverseStream
    (created : Creations)
    (state : AudioProcessingImpl cores × AudioFrame) :
    (processReverseStream created state).1.2 = state.2 := by
  refine runStages_frame Prod.snd ?_ state
  simp only [prepareReverseStages, List.cons_append, List.nil_append,
    List.forall_mem_cons, List.not_mem_nil, false_imp_iff, implies_true,
    and_true]
  refine
    ⟨fun _ => rfl, fun _ => rfl, fun _ => rfl, ?load, fun _ => rfl⟩
  intro state
  unfold loadReverseFrame
  split <;> rfl

end Format

end AudioProcessingImpl

namespace ApmProcessing

/-- The samples of an interleaved frame. -/
def frameSize (frame : AudioFrame) : Nat :=
  frame.samplesPerChannel * frame.numChannels

/--
A capture call takes the whole interleaved frame: the module is handed all of the
caller's samples, and what comes back is what the module has made of each of them,
or the samples as they were when there is an error.
-/
structure CapturesWhole
    (wrapper : ApmProcessing cores)
    (data : List Int16) : Prop where
  handed :
    ∃ loaded,
      copyIn wrapper.frame data = some loaded ∧
        loaded.data.take (frameSize wrapper.frame) = data
  succeeds :
    ∀ {created target ret written},
      processStream created data wrapper = some (target, ret, written) →
        ret = 0 →
          written = target.frame.data.take (frameSize wrapper.frame) ∧
            (wrapper.apm.Idle → written = data)
  fails :
    ∀ {created target ret written},
      processStream created data wrapper = some (target, ret, written) →
        ret ≠ 0 → written = data

/-- So does a render call, which has nothing to give back. -/
structure RendersWhole
    (wrapper : ApmProcessing cores)
    (data : List Int16) : Prop where
  handed :
    ∃ loaded,
      copyIn wrapper.reverseFrame data = some loaded ∧
        loaded.data.take (frameSize wrapper.reverseFrame) = data
  succeeds :
    ∀ {created target ret written},
      processReverseStream created data wrapper =
          some (target, ret, written) →
        ret = 0 →
          written =
              target.reverseFrame.data.take
                (frameSize wrapper.reverseFrame) ∧
            written = data
  fails :
    ∀ {created target ret written},
      processReverseStream created data wrapper =
          some (target, ret, written) →
        ret ≠ 0 → written = data

/-- The format of both frames, which is the one that `Init` was given. -/
structure Opened
    (sampleRate : Int)
    (channels : Nat)
    (wrapper : ApmProcessing cores) : Prop where
  isInit : wrapper.isInit = true
  frameSamples :
    wrapper.frame.samplesPerChannel = calculateFrames sampleRate
  frameChannels : wrapper.frame.numChannels = channels
  reverseSamples :
    wrapper.reverseFrame.samplesPerChannel = calculateFrames sampleRate
  reverseChannels : wrapper.reverseFrame.numChannels = channels

section Copies

/-- What `copyIn` has made of a frame. -/
theorem copyIn_spec
    {frame loaded : AudioFrame}
    {data : List Int16}
    (loads : copyIn frame data = some loaded) :
    frame.samplesPerChannel ≤ data.length ∧
      frame.samplesPerChannel ≤ kMaxDataSizeSamples ∧
      loaded.data =
        data.take frame.samplesPerChannel ++
          frame.data.drop frame.samplesPerChannel ∧
      loaded.samplesPerChannel = frame.samplesPerChannel ∧
      loaded.numChannels = frame.numChannels := by
  unfold copyIn at loads
  split at loads
  next => cases loads
  next enough =>
      have length :
          (data.take frame.samplesPerChannel).length =
            frame.samplesPerChannel :=
        List.length_take_of_le (Nat.not_lt.mp enough)
      have written := AudioFrame.spec_of_write loads
      rw [length] at written
      exact ⟨Nat.not_lt.mp enough, written⟩

/-- A frame that has as many samples as the caller's data takes it all. -/
theorem copyIn_whole
    {frame : AudioFrame}
    {data : List Int16}
    (whole : data.length = frame.samplesPerChannel)
    (fits : frame.samplesPerChannel ≤ kMaxDataSizeSamples) :
    ∃ loaded,
      copyIn frame data = some loaded ∧
        loaded.data.take frame.samplesPerChannel = data := by
  have taken : data.take frame.samplesPerChannel = data := by
    rw [← whole, List.take_length]
  rw [← whole] at fits
  obtain ⟨loaded, writes⟩ := frame.exists_write fits
  have loads : copyIn frame data = some loaded := by
    rw [copyIn, taken, if_neg (Nat.not_lt.mpr (Nat.le_of_eq whole.symm)), writes]
  refine ⟨loaded, loads, ?_⟩
  rw [(AudioFrame.spec_of_write writes).2.1, ← whole, List.take_left]

end Copies

section Calls

variable {wrapper target : ApmProcessing cores}
variable {created : Creations}
variable {data written : List Int16}
variable {ret : Int}

/-- A call that returns has handed a frame over, and returns what is left of it. -/
theorem processStream_spec
    (isInit : wrapper.isInit = true)
    (returns :
      processStream created data wrapper = some (target, ret, written)) :
    ∃ loaded,
      copyIn wrapper.frame data = some loaded ∧
        let ran := AudioProcessingImpl.processStream created (wrapper.apm, loaded)
        returnValue ran.2 = some ret ∧
          target.isInit = true ∧ target.frame = ran.1.2 ∧
          target.reverseFrame = wrapper.reverseFrame ∧
          written = copyOut ran.1.2 data := by
  simp only [processStream, isInit, Bool.not_true, Bool.false_eq_true,
    if_false] at returns
  split at returns
  next => cases returns
  next loaded loads =>
      obtain ⟨value, returned, same⟩ := Option.map_eq_some_iff.mp returns
      obtain ⟨rfl, rfl, rfl⟩ := same
      exact ⟨loaded, loads, returned, rfl, rfl, rfl, rfl⟩

/-- A render call that returns has handed a frame over and given nothing back. -/
theorem processReverseStream_spec
    (isInit : wrapper.isInit = true)
    (returns :
      processReverseStream created data wrapper =
        some (target, ret, written)) :
    ∃ loaded,
      copyIn wrapper.reverseFrame data = some loaded ∧
        target.isInit = true ∧ target.frame = wrapper.frame ∧
          target.reverseFrame = loaded ∧ written = data := by
  simp only [processReverseStream, isInit, Bool.not_true,
    Bool.false_eq_true, if_false] at returns
  split at returns
  next => cases returns
  next loaded loads =>
      obtain ⟨value, -, same⟩ := Option.map_eq_some_iff.mp returns
      obtain ⟨rfl, rfl, rfl⟩ := same
      exact
        ⟨loaded, loads, rfl, rfl,
          AudioProcessingImpl.frame_processReverseStream created _, rfl⟩

/-- A value is only returned for a call that returns. -/
theorem returnValue_cases
    {outcome : Option Exit}
    (returned : returnValue outcome = some ret) :
    (outcome = none ∧ ret = 0) ∨
      ∃ code, outcome = some (.error code) ∧ ret ≠ 0 := by
  cases outcome with
  | none => exact .inl ⟨rfl, (Option.some.inj returned).symm⟩
  | some exit =>
      cases exit with
      | error code =>
          refine .inr ⟨code, rfl, ?_⟩
          rw [← Option.some.inj returned]
          exact code.value_ne_zero
      | abort => cases returned

/-- Every call keeps the format of the frames. -/
theorem opened_of_step
    {sampleRate : Int}
    {channels : Nat}
    {source target : ApmProcessing cores}
    {call : WrapperCall cores}
    (opened : Opened sampleRate channels source)
    (taken : wrapperStep source call target) :
    Opened sampleRate channels target := by
  cases call with
  | processStream created data =>
      obtain ⟨ret, written, returns⟩ := taken
      obtain ⟨loaded, loads, -, isInit, frame, reverse, -⟩ :=
        processStream_spec opened.isInit returns
      obtain ⟨-, -, -, samples, channels⟩ := copyIn_spec loads
      obtain ⟨sameSamples, sameChannels⟩ :=
        AudioProcessingImpl.format_processStream created
          (source.apm, loaded)
      constructor
      · exact isInit
      · rw [frame]
        exact (sameSamples.trans samples).trans opened.frameSamples
      · rw [frame]
        exact (sameChannels.trans channels).trans opened.frameChannels
      · rw [reverse]
        exact opened.reverseSamples
      · rw [reverse]
        exact opened.reverseChannels
  | processReverseStream created data =>
      obtain ⟨ret, written, returns⟩ := taken
      obtain ⟨loaded, loads, isInit, frame, reverse, -⟩ :=
        processReverseStream_spec opened.isInit returns
      obtain ⟨-, -, -, samples, channels⟩ := copyIn_spec loads
      constructor
      · exact isInit
      · rw [frame]
        exact opened.frameSamples
      · rw [frame]
        exact opened.frameChannels
      · rw [reverse]
        exact samples.trans opened.reverseSamples
      · rw [reverse]
        exact channels.trans opened.reverseChannels
  | onModule record =>
      obtain ⟨-, same⟩ := taken
      rw [same]
      exact
        ⟨opened.isInit, opened.frameSamples, opened.frameChannels,
          opened.reverseSamples, opened.reverseChannels⟩

theorem opened_init (sampleRate : Int) (channels : Nat) :
    Opened sampleRate channels (@init cores sampleRate channels) :=
  ⟨rfl, rfl, rfl, rfl, rfl⟩

end Calls

section Whole

variable {sampleRate : Int} {channels : Nat}
variable {wrapper : ApmProcessing cores}
variable {data : List Int16}

/-- A frame of as many samples as are copied is captured whole. -/
theorem capturesWhole_of_copied
    (opened : Opened sampleRate channels wrapper)
    (whole :
      calculateFrames sampleRate * channels = calculateFrames sampleRate)
    (fits : calculateFrames sampleRate ≤ kMaxDataSizeSamples)
    (length : data.length = calculateFrames sampleRate * channels) :
    CapturesWhole wrapper data := by
  have size : frameSize wrapper.frame = wrapper.frame.samplesPerChannel := by
    rw [frameSize, opened.frameSamples, opened.frameChannels, whole]
  have copied : data.length = wrapper.frame.samplesPerChannel := by
    rw [length, whole, opened.frameSamples]
  rw [← opened.frameSamples] at fits
  have handed := copyIn_whole copied fits
  have back :
      ∀ {created target ret written},
        processStream created data wrapper = some (target, ret, written) →
          ∃ loaded,
            loaded.data.take wrapper.frame.samplesPerChannel = data ∧
              let ran :=
                AudioProcessingImpl.processStream created
                  (wrapper.apm, loaded)
              returnValue ran.2 = some ret ∧
                target.frame = ran.1.2 ∧
                written =
                  ran.1.2.data.take wrapper.frame.samplesPerChannel := by
    intro created target ret written returns
    obtain ⟨loaded, loads, returned, -, frame, -, rfl⟩ :=
      processStream_spec opened.isInit returns
    obtain ⟨taken, takes, all⟩ := handed
    obtain rfl : taken = loaded := Option.some.inj (takes.symm.trans loads)
    refine ⟨taken, all, returned, frame, ?_⟩
    obtain ⟨samples, -⟩ :=
      AudioProcessingImpl.format_processStream created (wrapper.apm, taken)
    obtain ⟨-, -, -, loadedSamples, -⟩ := copyIn_spec loads
    rw [copyOut, samples, loadedSamples, ← copied, List.drop_length,
      List.append_nil]
  constructor
  · rw [size]
    exact handed
  · intro created target ret written returns success
    obtain ⟨loaded, all, returned, frame, rfl⟩ := back returns
    rw [size, frame]
    refine ⟨rfl, fun idle => ?_⟩
    rcases returnValue_cases returned with ⟨passed, -⟩ | ⟨code, -, failed⟩
    · rw [AudioProcessingImpl.data_of_idle idle (eq_of_exit passed)]
      exact all
    · exact absurd success failed
  · intro created target ret written returns failure
    obtain ⟨loaded, all, returned, -, rfl⟩ := back returns
    rcases returnValue_cases returned with ⟨-, success⟩ | ⟨code, failed, -⟩
    · exact absurd success failure
    · obtain ⟨same, -⟩ :=
        AudioProcessingImpl.processStream_of_error (eq_of_exit failed)
      rw [same]
      exact all

/-- So is one that is rendered. -/
theorem rendersWhole_of_copied
    (opened : Opened sampleRate channels wrapper)
    (whole :
      calculateFrames sampleRate * channels = calculateFrames sampleRate)
    (fits : calculateFrames sampleRate ≤ kMaxDataSizeSamples)
    (length : data.length = calculateFrames sampleRate * channels) :
    RendersWhole wrapper data := by
  have size :
      frameSize wrapper.reverseFrame =
        wrapper.reverseFrame.samplesPerChannel := by
    rw [frameSize, opened.reverseSamples, opened.reverseChannels, whole]
  have copied : data.length = wrapper.reverseFrame.samplesPerChannel := by
    rw [length, whole, opened.reverseSamples]
  rw [← opened.reverseSamples] at fits
  obtain ⟨loaded, loads, all⟩ := copyIn_whole copied fits
  constructor
  · rw [size]
    exact ⟨loaded, loads, all⟩
  · intro created target ret written returns _
    obtain ⟨taken, takes, -, -, frame, rfl⟩ :=
      processReverseStream_spec opened.isInit returns
    obtain rfl : loaded = taken := Option.some.inj (loads.symm.trans takes)
    rw [size, frame]
    exact ⟨all.symm, rfl⟩
  · intro created target ret written returns _
    obtain ⟨-, -, -, -, -, same⟩ :=
      processReverseStream_spec opened.isInit returns
    exact same

end Whole

section Formats

/--
What the module is handed of a frame with more channels than one: behind the
copied samples stands what the frame held before.
-/
theorem whole_of_handed
    {sampleRate : Int}
    {channels : Nat}
    (taken :
      let data := List.replicate (calculateFrames sampleRate * channels) 1
      ∃ loaded,
        copyIn (@init cores sampleRate channels).frame data = some loaded ∧
          loaded.data.take (calculateFrames sampleRate * channels) = data) :
    calculateFrames sampleRate * channels = calculateFrames sampleRate ∧
      calculateFrames sampleRate ≤ kMaxDataSizeSamples := by
  obtain ⟨loaded, loads, all⟩ := taken
  obtain ⟨enough, fits, written, -⟩ := copyIn_spec loads
  have samples :
      (@init cores sampleRate channels).frame.samplesPerChannel =
        calculateFrames sampleRate :=
    rfl
  rw [samples] at enough fits written
  rw [List.length_replicate] at enough
  refine ⟨?_, fits⟩
  by_contra different
  have behind :
      calculateFrames sampleRate < calculateFrames sampleRate * channels :=
    Nat.lt_of_le_of_ne enough (Ne.symm different)
  have copied :
      (List.take (calculateFrames sampleRate)
          (List.replicate (calculateFrames sampleRate * channels)
            (1 : Int16))).length =
        calculateFrames sampleRate :=
    List.length_take_of_le (by rw [List.length_replicate]; exact enough)
  have empty :
      (@init cores sampleRate channels).frame.data =
        List.replicate kMaxDataSizeSamples 0 :=
    rfl
  -- The first sample that is not copied is a zero of the empty frame.
  have sample := congrArg (·[calculateFrames sampleRate]?) all
  simp only [List.getElem?_take, behind, if_true, written, empty,
    List.getElem?_append_right (Nat.le_of_eq copied), copied, Nat.sub_self,
    List.getElem?_drop, Nat.add_zero, List.getElem?_replicate] at sample
  split at sample
  next => exact absurd (Option.some.inj sample) (by decide)
  next => cases sample

end Formats

end ApmProcessing

end ApmSdk.AudioProcessing
