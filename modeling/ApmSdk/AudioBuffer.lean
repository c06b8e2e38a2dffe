import ApmSdk.StreamFormats

namespace ApmSdk.AudioProcessing

/-!
# Audio frames and the buffer the components share

The numerical work (band splitting, resampling, the cancellers, the gain
control, noise suppression and voice detection) is a parameter of the model:
`Cores` lists the functions the components call and says nothing about them.
What is translated is everything around them.
-/

/-- `EchoCancellation::SuppressionLevel` -/
inductive SuppressionLevel where
  | kLowSuppression
  | kModerateSuppression
  | kHighSuppression
  deriving Repr, DecidableEq

/-- The `AecConfig` that `ConfigureHandle` fills in. -/
structure AecConfig where
  nlpMode : SuppressionLevel
  skewMode : Bool
  metricsMode : Bool
  delayLogging : Bool
  deriving Repr, DecidableEq

/-- `EchoControlMobile::RoutingMode` -/
inductive RoutingMode where
  | kQuietEarpieceOrHeadset
  | kEarpiece
  | kLoudEarpiece
  | kSpeakerphone
  | kLoudSpeakerphone
  deriving Repr, DecidableEq

/-- The `AecmConfig` that `ConfigureHandle` fills in. -/
structure AecmConfig where
  cngMode : Bool
  echoMode : RoutingMode
  deriving Repr, DecidableEq

/-- `GainControl::Mode` -/
inductive GainMode where
  | kAdaptiveAnalog
  | kAdaptiveDigital
  | kFixedDigital
  deriving Repr, DecidableEq

/-- The `WebRtcAgcConfig` that `ConfigureHandle` fills in. -/
structure AgcConfig where
  targetLevelDbfs : Int
  compressionGaindB : Int
  limiterEnable : Bool
  deriving Repr, DecidableEq

/-- What `WebRtcAgc_Process` writes when it succeeds. -/
structure AgcResult where
  outMicLevel : Int
  saturationWarning : Bool
  deriving Repr, DecidableEq

/-- The signal processing, and whether the build defines `NDEBUG`. -/
structure Cores where
  ndebug : Bool
  /-- The channel buffers of an `AudioBuffer` with its filters and resamplers. -/
  Samples : Type
  /-- One sample of a float band. -/
  FloatSample : Type
  /-- The float channels that the callers pass in and get back. -/
  FloatChannels : Type
  AecCore : Type
  AecmCore : Type
  EchoPath : Type
  AgcCore : Type
  NsState : Type
  VadInst : Type
  RmsLevel : Type
  newSamples :
    (inputNumFrames numInputChannels procNumFrames numProcChannels
      outputNumFrames : Nat) → Samples
  deinterleave : Samples → List Int16 → Samples
  copyFrom : Samples → FloatChannels → Samples
  copyTo : Samples → FloatChannels
  convertRender :
    StreamConfig → StreamConfig → FloatChannels → FloatChannels
  resampleOutput : Samples → Samples
  channelData : Samples → (channel : Nat) → List Int16
  splitIntoFrequencyBands : Samples → Samples
  mergeFrequencyBands : Samples → Samples
  copyLowPassToReference : Samples → Samples
  lowBand : Samples → (channel : Nat) → List Int16
  setLowBand : Samples → (channel : Nat) → List Int16 → Samples
  lowBandF : Samples → (channel : Nat) → List FloatSample
  mixedLowPassData : Samples → List Int16
  newAecCore : AecCore
  aecInit : AecCore → (sampFreq : Int) → AecCore
  aecSetConfig : AecCore → AecConfig → AecCore
  aecBufferFarend : AecCore → List FloatSample → AecCore
  /-- The flag is set when the skew is out of range, which is a warning. -/
  aecProcess :
    AecCore → Samples → (channel : Nat) →
      (msInSndCardBuf skew : Int) → AecCore × Samples × Bool
  aecEchoState : AecCore → Bool
  aecSystemDelay : AecCore → Int
  newAecmCore : AecmCore
  aecmInit : AecmCore → (sampFreq : Int) → AecmCore
  aecmInitEchoPath : AecmCore → EchoPath → AecmCore
  aecmSetConfig : AecmCore → AecmConfig → AecmCore
  aecmBufferFarend : AecmCore → List Int16 → AecmCore
  /-- The last component is false when `WebRtcAecm_ProcessFrame` fails. -/
  aecmProcess :
    AecmCore → Samples → (channel : Nat) → (referenceCopied : Bool) →
      (msInSndCardBuf : Int) → AecmCore × Samples × Bool
  newAgcCore : AgcCore
  agcInit :
    AgcCore → (minLevel maxLevel : Int) → GainMode → (fs : Int) → AgcCore
  agcSetConfig : AgcCore → AgcConfig → AgcCore
  agcAddFarend : AgcCore → List Int16 → AgcCore
  agcAddMic : AgcCore → Samples → (channel : Nat) → AgcCore × Samples
  agcVirtualMic :
    AgcCore → Samples → (channel : Nat) → (micLevelIn : Int) →
      AgcCore × Samples × Int
  agcProcess :
    AgcCore → Samples → (channel : Nat) → (inMicLevel : Int) →
      (echo : Bool) → AgcCore × Samples × Option AgcResult
  nsInit : (sampleRateHz : Int) → NsState
  nsSetPolicy : NsState → (policy : Nat) → NsState
  nsAnalyze : NsState → Samples → (channel : Nat) → NsState
  nsProcess : NsState → Samples → (channel : Nat) → NsState × Samples
  vadInit : VadInst
  vadSetMode : VadInst → (mode : Nat) → VadInst
  vadProcess :
    VadInst → (sampleRateHz : Int) → List Int16 → VadInst × Bool
  rmsReset : RmsLevel
  rmsProcess : RmsLevel → List Int16 → RmsLevel

/-- Signal processing that hands every sample on, in a release build. -/
def Cores.passThrough : Cores where
  ndebug := true
  Samples := List Int16
  FloatSample := Unit
  FloatChannels := Unit
  AecCore := Unit
  AecmCore := Unit
  EchoPath := Unit
  AgcCore := Unit
  NsState := Unit
  VadInst := Unit
  RmsLevel := Unit
  newSamples := fun _ _ _ _ _ => []
  deinterleave := fun _ data => data
  copyFrom := fun samples _ => samples
  copyTo := fun _ => ()
  convertRender := fun _ _ data => data
  resampleOutput := fun samples => samples
  channelData := fun samples _ => samples
  splitIntoFrequencyBands := fun samples => samples
  mergeFrequencyBands := fun samples => samples
  copyLowPassToReference := fun samples => samples
  lowBand := fun samples _ => samples
  setLowBand := fun _ _ band => band
  lowBandF := fun samples _ => samples.map (fun _ => ())
  mixedLowPassData := fun samples => samples
  newAecCore := ()
  aecInit := fun core _ => core
  aecSetConfig := fun core _ => core
  aecBufferFarend := fun core _ => core
  aecProcess := fun core samples _ _ _ => (core, samples, false)
  aecEchoState := fun _ => false
  aecSystemDelay := fun _ => 0
  newAecmCore := ()
  aecmInit := fun core _ => core
  aecmInitEchoPath := fun core _ => core
  aecmSetConfig := fun core _ => core
  aecmBufferFarend := fun core _ => core
  aecmProcess := fun core samples _ _ _ => (core, samples, true)
  newAgcCore := ()
  agcInit := fun core _ _ _ _ => core
  agcSetConfig := fun core _ => core
  agcAddFarend := fun core _ => core
  agcAddMic := fun core samples _ => (core, samples)
  agcVirtualMic := fun core samples _ level => (core, samples, level)
  agcProcess := fun core samples _ level _ =>
    (core, samples, some ⟨level, false⟩)
  nsInit := fun _ => ()
  nsSetPolicy := fun state _ => state
  nsAnalyze := fun state _ _ => state
  nsProcess := fun state samples _ => (state, samples)
  vadInit := ()
  vadSetMode := fun vad _ => vad
  vadProcess := fun vad _ _ => (vad, false)
  rmsReset := ()
  rmsProcess := fun rms _ => rms

/-- `AudioFrame::VADActivity` -/
inductive VadActivity where
  | kVadActive
  | kVadPassive
  | kVadUnknown
  deriving Repr, DecidableEq

/-- `kMaxDataSizeSamples` -/
def kMaxDataSizeSamples : Nat :=
  3840

/-- The part of an `AudioFrame` that the module reads and writes. -/
structure AudioFrame where
  sampleRateHz : Int
  samplesPerChannel : Nat
  numChannels : Nat
  vadActivity : VadActivity
  data : List Int16
  dataLength : data.length = kMaxDataSizeSamples
  deriving Repr, DecidableEq

namespace AudioFrame

/-- `AudioFrame()` -/
def empty : AudioFrame where
  sampleRateHz := 0
  samplesPerChannel := 0
  numChannels := 0
  vadActivity := .kVadUnknown
  data := List.replicate kMaxDataSizeSamples 0
  dataLength := List.length_replicate ..

/-- A silent frame of one of the native formats. -/
def silent (rate : NativeRate) (numChannels : Nat) : AudioFrame :=
  { empty with
    sampleRateHz := rate.hz
    samplesPerChannel := calculateFrames rate.hz
    numChannels := numChannels }

/-- Overwrite the head of `data_`; `none` when it does not fit. -/
def write
    (frame : AudioFrame)
    (samples : List Int16) : Option AudioFrame :=
  if fits : samples.length ≤ kMaxDataSizeSamples then
    some
      { frame with
        data := samples ++ frame.data.drop samples.length
        dataLength := by
          simp [frame.dataLength, Nat.add_sub_cancel' fits] }
  else
    none

/-- What writing has made of a frame: only the head of its data differs. -/
theorem spec_of_write
    {frame written : AudioFrame}
    {samples : List Int16}
    (writes : frame.write samples = some written) :
    samples.length ≤ kMaxDataSizeSamples ∧
      written.data = samples ++ frame.data.drop samples.length ∧
      written.samplesPerChannel = frame.samplesPerChannel ∧
      written.numChannels = frame.numChannels := by
  unfold write at writes
  split at writes
  next fits =>
      obtain rfl := Option.some.inj writes
      exact ⟨fits, rfl, rfl, rfl⟩
  next => cases writes

/-- Samples that fit can be written. -/
theorem exists_write
    (frame : AudioFrame)
    {samples : List Int16}
    (fits : samples.length ≤ kMaxDataSizeSamples) :
    ∃ written, frame.write samples = some written :=
  ⟨_, dif_pos fits⟩

end AudioFrame

/--
The first `samplesPerChannel` samples of `numChannels` channels, one sample of
each channel after another.
-/
def interleave
    (channel : Nat → List Int16)
    (samplesPerChannel numChannels : Nat) : List Int16 :=
  (List.range samplesPerChannel).flatMap
    (fun position =>
      (List.range numChannels).map
        (fun index => (channel index).getD position 0))

/-- An interleaved frame has one sample for each channel and position. -/
@[simp]
theorem length_interleave
    (channel : Nat → List Int16)
    (samplesPerChannel numChannels : Nat) :
    (interleave channel samplesPerChannel numChannels).length =
      samplesPerChannel * numChannels := by
  simp [interleave, List.length_flatMap]

/-- `AudioBuffer` -/
structure AudioBuffer (cores : Cores) where
  inputNumFrames : Nat
  numInputChannels : Nat
  procNumFrames : Nat
  numProcChannels : Nat
  outputNumFrames : Nat
  referenceCopied : Bool
  activity : VadActivity
  samples : cores.Samples

namespace AudioBuffer

variable {cores : Cores}

/-- `AudioBuffer(..)` -/
def create
    (inputNumFrames numInputChannels procNumFrames numProcChannels
      outputNumFrames : Nat) : AudioBuffer cores where
  inputNumFrames := inputNumFrames
  numInputChannels := numInputChannels
  procNumFrames := procNumFrames
  numProcChannels := numProcChannels
  outputNumFrames := outputNumFrames
  referenceCopied := false
  activity := .kVadUnknown
  samples :=
    cores.newSamples inputNumFrames numInputChannels procNumFrames
      numProcChannels outputNumFrames

/-- `num_channels`, which only a beamformer would make smaller. -/
def numChannels (audio : AudioBuffer cores) : Nat :=
  audio.numProcChannels

/-- `NumBandsFromSamplesPerChannel` -/
def numBands (audio : AudioBuffer cores) : Nat :=
  if audio.procNumFrames = 320 ∨ audio.procNumFrames = 480 then
    audio.procNumFrames / 160
  else
    1

/-- `num_frames_per_band` -/
def numFramesPerBand (audio : AudioBuffer cores) : Nat :=
  audio.procNumFrames / audio.numBands

/-- `InitForNewData` -/
def initForNewData (audio : AudioBuffer cores) : AudioBuffer cores :=
  { audio with
    referenceCopied := false
    activity := .kVadUnknown }

/--
`DeinterleaveFrom`, which reads the whole interleaved frame, mixed down or not;
`none` when that is more than `data_` holds.
-/
def deinterleaveFrom
    (audio : AudioBuffer cores)
    (frame : AudioFrame) : Option (AudioBuffer cores) :=
  let size := audio.inputNumFrames * audio.numInputChannels
  if size ≤ kMaxDataSizeSamples then
    some
      { audio.initForNewData with
        activity := frame.vadActivity
        samples :=
          cores.deinterleave audio.samples (frame.data.take size) }
  else
    none

/--
`InterleaveTo`.  The samples written are counted by `proc_num_frames_`, also
after resampling to `output_num_frames_`.
-/
def interleaveTo
    (audio : AudioBuffer cores)
    (frame : AudioFrame)
    (dataChanged : Bool) : Option AudioFrame :=
  let marked := { frame with vadActivity := audio.activity }
  if !dataChanged then
    some marked
  else
    let data :=
      if audio.procNumFrames ≠ audio.outputNumFrames then
        cores.resampleOutput audio.samples
      else
        audio.samples
    if frame.numChannels = audio.numChannels then
      marked.write
        (interleave (cores.channelData data)
          audio.procNumFrames audio.numChannels)
    else
      marked.write
        (interleave (fun _ => cores.channelData data 0)
          audio.procNumFrames frame.numChannels)

/-- `CopyFrom` -/
def copyFrom
    (audio : AudioBuffer cores)
    (data : cores.FloatChannels) : AudioBuffer cores :=
  { audio.initForNewData with
    samples := cores.copyFrom audio.samples data }

/-- `SplitIntoFrequencyBands` -/
def splitIntoFrequencyBands
    (audio : AudioBuffer cores) : AudioBuffer cores :=
  { audio with samples := cores.splitIntoFrequencyBands audio.samples }

/-- `MergeFrequencyBands` -/
def mergeFrequencyBands
    (audio : AudioBuffer cores) : AudioBuffer cores :=
  { audio with samples := cores.mergeFrequencyBands audio.samples }

/-- `CopyLowPassToReference` -/
def copyLowPassToReference
    (audio : AudioBuffer cores) : AudioBuffer cores :=
  { audio with
    referenceCopied := true
    samples := cores.copyLowPassToReference audio.samples }

/-- Interleaving does not change the format of a frame. -/
theorem format_interleaveTo
    {audio : AudioBuffer cores}
    {frame written : AudioFrame}
    {dataChanged : Bool}
    (writes : audio.interleaveTo frame dataChanged = some written) :
    written.samplesPerChannel = frame.samplesPerChannel ∧
      written.numChannels = frame.numChannels := by
  simp only [interleaveTo] at writes
  split at writes
  · obtain rfl := Option.some.inj writes
    exact ⟨rfl, rfl⟩
  · split at writes
    all_goals
      obtain ⟨-, -, same⟩ := AudioFrame.spec_of_write writes
      exact same

/-- A frame whose data is not changed keeps its samples. -/
theorem data_interleaveTo_unchanged
    {audio : AudioBuffer cores}
    {frame written : AudioFrame}
    (writes : audio.interleaveTo frame false = some written) :
    written.data = frame.data := by
  obtain rfl : { frame with vadActivity := audio.activity } = written := by
    simpa [interleaveTo] using writes
  rfl

end AudioBuffer

end ApmSdk.AudioProcessing
