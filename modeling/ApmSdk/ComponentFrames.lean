import ApmSdk.AudioProcessing

namespace ApmSdk.AudioProcessing

/-!
# What processing audio leaves alone

The render and the capture functions of the components change signal state
only: the setups of the handles, the coefficients of the filters, the rates of
the suppressors and the sizes of the buffers stay what initialising made them.
-/

/-- The five sizes an `AudioBuffer` is made with. -/
structure BufferSizes where
  inputNumFrames : Nat
  numInputChannels : Nat
  procNumFrames : Nat
  numProcChannels : Nat
  outputNumFrames : Nat
  deriving Repr, DecidableEq

variable {cores : Cores}

/-- The sizes of a buffer. -/
def AudioBuffer.sizes (audio : AudioBuffer cores) : BufferSizes where
  inputNumFrames := audio.inputNumFrames
  numInputChannels := audio.numInputChannels
  procNumFrames := audio.procNumFrames
  numProcChannels := audio.numProcChannels
  outputNumFrames := audio.outputNumFrames

/-- Loading a frame does not change the sizes of the buffer. -/
theorem AudioBuffer.sizes_deinterleaveFrom
    {audio loaded : AudioBuffer cores}
    {frame : AudioFrame}
    (loads : audio.deinterleaveFrom frame = some loaded) :
    loaded.sizes = audio.sizes := by
  simp only [AudioBuffer.deinterleaveFrom] at loads
  split at loads
  · obtain rfl := Option.some.inj loads
    rfl
  · simp at loads

section EchoCancellation

variable {formats : StreamFormats}

theorem AecHandle.setup_process
    (handle : AecHandle cores)
    (samples : cores.Samples)
    (channel nrOfSamples : Nat)
    (delay skew : Int) :
    (handle.process samples channel nrOfSamples delay skew).1.setup =
      handle.setup := by
  unfold AecHandle.process
  split
  · rfl
  · split <;> rfl

theorem AecHandle.setup_bufferFarend
    (handle : AecHandle cores)
    (farend : List cores.FloatSample) :
    (handle.bufferFarend farend).setup = handle.setup := by
  unfold AecHandle.bufferFarend
  split <;> rfl

theorem AecHandle.setup_setConfig
    (handle : AecHandle cores)
    (config : AecConfig) :
    (handle.setConfig config).1.setup = handle.setup := by
  unfold AecHandle.setConfig
  split <;> rfl

namespace EchoCancellation

/-- The shape of the component, with the setups of its handles. -/
def shape
    (aec : EchoCancellation cores) :
    ProcessingComponent HandleSetup Unit :=
  aec.toProcessingComponent.shape AecHandle.setup

theorem setup_bufferFarend
    (piece : List cores.FloatSample)
    (slot : Option (AecHandle cores)) :
    (bufferFarend piece slot).1.map AecHandle.setup =
      slot.map AecHandle.setup := by
  cases slot with
  | none =>
      rfl
  | some handle =>
      simp [bufferFarend, AecHandle.setup_bufferFarend]

theorem setup_configureHandle
    (aec : EchoCancellation cores)
    (slot : Option (AecHandle cores)) :
    (aec.configureHandle slot).1.map AecHandle.setup =
      slot.map AecHandle.setup := by
  cases slot with
  | none =>
      rfl
  | some handle =>
      simp [configureHandle, AecHandle.setup_setConfig]

theorem setup_processSlot
    (nrOfSamples : Nat)
    (delay drift : Int)
    (index : Nat)
    (slot : Option (AecHandle cores))
    (shared : CaptureLoop cores) :
    (processSlot formats nrOfSamples delay drift index
        (slot, shared)).1.1.map AecHandle.setup =
      slot.map AecHandle.setup := by
  cases slot with
  | none =>
      rfl
  | some handle =>
      simp only [processSlot]
      split
      · simp [AecHandle.setup_process]
      · split <;> simp [AecHandle.setup_process]

@[simp]
theorem shape_configure (aec : EchoCancellation cores) :
    (configure formats aec).1.shape = aec.shape :=
  ProcessingComponent.shape_configure (setup_configureHandle aec)

theorem shape_setSuppressionLevel
    (level : SuppressionLevel)
    (aec : EchoCancellation cores) :
    (setSuppressionLevel formats level aec).1.shape = aec.shape :=
  shape_configure { aec with suppressionLevel := level }

theorem shape_enableDriftCompensation
    (flag : Bool)
    (aec : EchoCancellation cores) :
    (enableDriftCompensation formats flag aec).1.shape = aec.shape :=
  shape_configure { aec with driftCompensationEnabled := flag }

theorem shape_enableMetrics
    (flag : Bool)
    (aec : EchoCancellation cores) :
    (enableMetrics formats flag aec).1.shape = aec.shape :=
  shape_configure { aec with metricsEnabled := flag }

theorem shape_enableDelayLogging
    (flag : Bool)
    (aec : EchoCancellation cores) :
    (enableDelayLogging formats flag aec).1.shape = aec.shape :=
  shape_configure { aec with delayLoggingEnabled := flag }

@[simp]
theorem shape_readQueuedRenderData (aec : EchoCancellation cores) :
    (readQueuedRenderData formats aec).1.shape = aec.shape :=
  ProcessingComponent.shape_readQueuedRenderData setup_bufferFarend _

@[simp]
theorem shape_processRenderAudio
    (audio : AudioBuffer cores)
    (aec : EchoCancellation cores) :
    (processRenderAudio formats audio aec).1.shape = aec.shape := by
  unfold processRenderAudio
  split
  · rfl
  · split
    · rfl
    · split
      · rfl
      · exact
          ProcessingComponent.shape_insertRenderData
            (ProcessingComponent.shape_readQueuedRenderData
              setup_bufferFarend _)

@[simp]
theorem shape_processCaptureAudio
    (delay : Int)
    (wasSet : Bool)
    (aec : EchoCancellation cores)
    (audio : AudioBuffer cores) :
    (processCaptureAudio formats delay wasSet (aec, audio)).1.1.shape =
      aec.shape := by
  simp only [processCaptureAudio]
  split
  · rfl
  · split
    · rfl
    · split
      · rfl
      · split
        · rfl
        · simp only [shape, ProcessingComponent.shape,
            forSlots_map _ _ (Option.map AecHandle.setup)
              (setup_processSlot _ _ _)]

@[simp]
theorem sizes_processCaptureAudio
    (delay : Int)
    (wasSet : Bool)
    (aec : EchoCancellation cores)
    (audio : AudioBuffer cores) :
    (processCaptureAudio formats delay wasSet (aec, audio)).1.2.sizes =
      audio.sizes := by
  simp only [processCaptureAudio]
  split
  · rfl
  · split
    · rfl
    · split
      · rfl
      · split <;> rfl

end EchoCancellation

end EchoCancellation

section EchoControlMobile

variable {formats : StreamFormats}

theorem AecmHandle.setup_process
    (handle : AecmHandle cores)
    (samples : cores.Samples)
    (channel : Nat)
    (referenceCopied : Bool)
    (nrOfSamples : Nat)
    (delay : Int) :
    (handle.process samples channel referenceCopied nrOfSamples
        delay).1.setup =
      handle.setup := by
  unfold AecmHandle.process
  split
  · rfl
  · split <;> rfl

theorem AecmHandle.setup_bufferFarend
    (handle : AecmHandle cores)
    (farend : List Int16) :
    (handle.bufferFarend farend).setup = handle.setup := by
  unfold AecmHandle.bufferFarend
  split <;> rfl

theorem AecmHandle.setup_setConfig
    (handle : AecmHandle cores)
    (config : AecmConfig) :
    (handle.setConfig config).1.setup = handle.setup := by
  unfold AecmHandle.setConfig
  split <;> rfl

namespace EchoControlMobile

/-- The shape of the component, with the setups of its handles. -/
def shape
    (aecm : EchoControlMobile cores) :
    ProcessingComponent HandleSetup Unit :=
  aecm.toProcessingComponent.shape AecmHandle.setup

theorem setup_bufferFarend
    (piece : List Int16)
    (slot : Option (AecmHandle cores)) :
    (bufferFarend piece slot).1.map AecmHandle.setup =
      slot.map AecmHandle.setup := by
  cases slot with
  | none =>
      rfl
  | some handle =>
      simp [bufferFarend, AecmHandle.setup_bufferFarend]

theorem setup_configureHandle
    (aecm : EchoControlMobile cores)
    (slot : Option (AecmHandle cores)) :
    (aecm.configureHandle slot).1.map AecmHandle.setup =
      slot.map AecmHandle.setup := by
  cases slot with
  | none =>
      rfl
  | some handle =>
      simp [configureHandle, AecmHandle.setup_setConfig]

theorem setup_processSlot
    (referenceCopied : Bool)
    (nrOfSamples : Nat)
    (delay : Int)
    (index : Nat)
    (slot : Option (AecmHandle cores))
    (shared : CaptureLoop cores) :
    (processSlot formats referenceCopied nrOfSamples delay index
        (slot, shared)).1.1.map AecmHandle.setup =
      slot.map AecmHandle.setup := by
  cases slot with
  | none =>
      rfl
  | some handle =>
      simp [processSlot, AecmHandle.setup_process]

@[simp]
theorem shape_configure (aecm : EchoControlMobile cores) :
    (configure formats aecm).1.shape = aecm.shape :=
  ProcessingComponent.shape_configure (setup_configureHandle aecm)

theorem shape_setRoutingMode
    (mode : RoutingMode)
    (aecm : EchoControlMobile cores) :
    (setRoutingMode formats mode aecm).1.shape = aecm.shape :=
  shape_configure { aecm with routingMode := mode }

theorem shape_enableComfortNoise
    (flag : Bool)
    (aecm : EchoControlMobile cores) :
    (enableComfortNoise formats flag aecm).1.shape = aecm.shape :=
  shape_configure { aecm with comfortNoiseEnabled := flag }

@[simp]
theorem shape_readQueuedRenderData (aecm : EchoControlMobile cores) :
    (readQueuedRenderData formats aecm).1.shape = aecm.shape :=
  ProcessingComponent.shape_readQueuedRenderData setup_bufferFarend _

@[simp]
theorem shape_processRenderAudio
    (audio : AudioBuffer cores)
    (aecm : EchoControlMobile cores) :
    (processRenderAudio formats audio aecm).1.shape = aecm.shape := by
  unfold processRenderAudio
  split
  · rfl
  · split
    · rfl
    · exact
        ProcessingComponent.shape_insertRenderData
          (ProcessingComponent.shape_readQueuedRenderData
            setup_bufferFarend _)

@[simp]
theorem shape_processCaptureAudio
    (delay : Int)
    (wasSet : Bool)
    (aecm : EchoControlMobile cores)
    (audio : AudioBuffer cores) :
    (processCaptureAudio formats delay wasSet (aecm, audio)).1.1.shape =
      aecm.shape := by
  simp only [processCaptureAudio]
  split
  · rfl
  · split
    · rfl
    · split
      · rfl
      · simp only [shape, ProcessingComponent.shape,
          forSlots_map _ _ (Option.map AecmHandle.setup)
            (setup_processSlot _ _ _)]

@[simp]
theorem sizes_processCaptureAudio
    (delay : Int)
    (wasSet : Bool)
    (aecm : EchoControlMobile cores)
    (audio : AudioBuffer cores) :
    (processCaptureAudio formats delay wasSet (aecm, audio)).1.2.sizes =
      audio.sizes := by
  simp only [processCaptureAudio]
  split
  · rfl
  · split
    · rfl
    · split <;> rfl

end EchoControlMobile

end EchoControlMobile

section GainControl

variable {formats : StreamFormats}

theorem AgcHandle.setup_addFarend
    (handle : AgcHandle cores)
    (farend : List Int16) :
    (handle.addFarend farend).setup = handle.setup := by
  unfold AgcHandle.addFarend
  split <;> rfl

theorem AgcHandle.setup_setConfig
    (handle : AgcHandle cores)
    (config : AgcConfig) :
    (handle.setConfig config).1.setup = handle.setup := by
  unfold AgcHandle.setConfig
  split <;> rfl

namespace GainControl

/-- The shape of the component, with the setups of its handles. -/
def shape
    (agc : GainControl cores) :
    ProcessingComponent HandleSetup Unit :=
  agc.toProcessingComponent.shape AgcHandle.setup

theorem setup_bufferFarend
    (piece : List Int16)
    (slot : Option (AgcHandle cores)) :
    (bufferFarend piece slot).1.map AgcHandle.setup =
      slot.map AgcHandle.setup := by
  cases slot with
  | none =>
      rfl
  | some handle =>
      simp [bufferFarend, AgcHandle.setup_addFarend]

theorem setup_configureHandle
    (agc : GainControl cores)
    (slot : Option (AgcHandle cores)) :
    (agc.configureHandle slot).1.map AgcHandle.setup =
      slot.map AgcHandle.setup := by
  cases slot with
  | none =>
      rfl
  | some handle =>
      simp [configureHandle, AgcHandle.setup_setConfig]

theorem setup_addMicSlot
    (nrOfSamples index : Nat)
    (slot : Option (AgcHandle cores))
    (shared : CaptureLoop cores) :
    (addMicSlot nrOfSamples index (slot, shared)).1.1.map
        AgcHandle.setup =
      slot.map AgcHandle.setup := by
  cases slot with
  | none =>
      rfl
  | some handle =>
      simp only [addMicSlot]
      split <;> rfl

theorem setup_virtualMicSlot
    (nrOfSamples : Nat)
    (level : Int)
    (index : Nat)
    (slot : Option (AgcHandle cores))
    (shared : CaptureLoop cores) :
    (virtualMicSlot nrOfSamples level index (slot, shared)).1.1.map
        AgcHandle.setup =
      slot.map AgcHandle.setup := by
  cases slot <;> rfl

theorem setup_processSlot
    (nrOfSamples : Nat)
    (echo : Bool)
    (index : Nat)
    (slot : Option (AgcHandle cores))
    (shared : CaptureLoop cores) :
    (processSlot nrOfSamples echo index (slot, shared)).1.1.map
        AgcHandle.setup =
      slot.map AgcHandle.setup := by
  cases slot with
  | none =>
      rfl
  | some handle =>
      simp only [processSlot]
      split
      · rfl
      · split <;> rfl

@[simp]
theorem shape_configure (agc : GainControl cores) :
    (configure formats agc).1.shape = agc.shape :=
  ProcessingComponent.shape_configure (setup_configureHandle agc)

@[simp]
theorem settings_configure (agc : GainControl cores) :
    (configure formats agc).1.settings = agc.settings :=
  rfl

@[simp]
theorem shape_readQueuedRenderData (agc : GainControl cores) :
    (readQueuedRenderData agc).1.shape = agc.shape :=
  ProcessingComponent.shape_readQueuedRenderData setup_bufferFarend _

@[simp]
theorem settings_readQueuedRenderData (agc : GainControl cores) :
    (readQueuedRenderData agc).1.settings = agc.settings :=
  rfl

@[simp]
theorem shape_processRenderAudio
    (audio : AudioBuffer cores)
    (agc : GainControl cores) :
    (processRenderAudio audio agc).1.shape = agc.shape := by
  unfold processRenderAudio
  split
  · rfl
  · split
    · rfl
    · exact
        ProcessingComponent.shape_insertRenderData
          (ProcessingComponent.shape_readQueuedRenderData
            setup_bufferFarend _)

@[simp]
theorem settings_processRenderAudio
    (audio : AudioBuffer cores)
    (agc : GainControl cores) :
    (processRenderAudio audio agc).1.settings = agc.settings := by
  unfold processRenderAudio
  split
  · rfl
  · split <;> rfl

/-- What a capture function of the gain control leaves alone. -/
structure Kept
    (before after : GainControl cores × AudioBuffer cores) : Prop where
  shape : after.1.shape = before.1.shape
  settings : after.1.settings = before.1.settings
  sizes : after.2.sizes = before.2.sizes

theorem kept_captureLoop
    {slot : Nat → Stage (Option (AgcHandle cores) × CaptureLoop cores) Exit}
    (setups :
      ∀ index visited shared,
        (slot index (visited, shared)).1.1.map AgcHandle.setup =
          visited.map AgcHandle.setup)
    (state : GainControl cores × AudioBuffer cores) :
    Kept state (captureLoop slot state).1 where
  shape := by
    simp only [captureLoop, GainControl.shape, ProcessingComponent.shape,
      forSlots_map _ _ (Option.map AgcHandle.setup) setups]
  settings := rfl
  sizes := rfl

theorem kept_analyzeCaptureAudio
    (state : GainControl cores × AudioBuffer cores) :
    Kept state (analyzeCaptureAudio state).1 := by
  simp only [analyzeCaptureAudio]
  split
  · exact ⟨rfl, rfl, rfl⟩
  · split
    · exact ⟨rfl, rfl, rfl⟩
    · split
      · have kept :=
          kept_captureLoop (setup_addMicSlot state.2.numFramesPerBand)
            ({ state.1 with
                captureLevels :=
                  List.replicate state.1.numHandles
                    state.1.analogCaptureLevel },
              state.2)
        exact ⟨kept.shape, kept.settings, kept.sizes⟩
      · exact kept_captureLoop (setup_virtualMicSlot _ _) state
      · exact ⟨rfl, rfl, rfl⟩

theorem kept_processCaptureAudio
    (echo : Bool)
    (state : GainControl cores × AudioBuffer cores) :
    Kept state (processCaptureAudio echo state).1 := by
  simp only [processCaptureAudio]
  split
  · exact ⟨rfl, rfl, rfl⟩
  · split
    · exact ⟨rfl, rfl, rfl⟩
    · split
      · exact ⟨rfl, rfl, rfl⟩
      · have kept :=
          kept_captureLoop
            (setup_processSlot state.2.numFramesPerBand echo)
            ({ state.1 with streamIsSaturated := false }, state.2)
        split
        next failed exit ran =>
            rw [ran] at kept
            exact ⟨kept.shape, kept.settings, kept.sizes⟩
        next processed after ran =>
            rw [ran] at kept
            exact ⟨kept.shape, kept.settings, kept.sizes⟩

end GainControl

end GainControl

section Effects

namespace HighPassFilter

/-- The coefficients of the filters, channel by channel. -/
def coefficients (highPass : HighPassFilter) : List (List Int) :=
  highPass.filters.map BiquadFilter.ba

/-- The filters keep their coefficients, and the buffer its sizes. -/
theorem kept_processCaptureAudio
    (highPass : HighPassFilter)
    (audio : AudioBuffer cores) :
    let after := (processCaptureAudio (highPass, audio)).1
    after.1.enabled = highPass.enabled ∧
      after.1.coefficients = highPass.coefficients ∧
      after.2.sizes = audio.sizes := by
  simp only [processCaptureAudio]
  split
  · exact ⟨rfl, rfl, rfl⟩
  · split
    · exact ⟨rfl, rfl, rfl⟩
    · refine ⟨rfl, ?_, rfl⟩
      exact
        forSlots_map _ _ BiquadFilter.ba
          (fun _ filter _ => BiquadFilter.ba_process filter _) ..

end HighPassFilter

namespace NoiseSuppression

/-- What initialising the suppressor decides. -/
structure Setup where
  enabled : Bool
  channels : Nat
  sampleRateHz : Int
  suppressorRates : List Int
  deriving Repr, DecidableEq

/-- The setup of the suppressor. -/
def setup (noise : NoiseSuppression cores) : Setup where
  enabled := noise.enabled
  channels := noise.channels
  sampleRateHz := noise.sampleRateHz
  suppressorRates := noise.suppressors.map Suppressor.sampleRateHz

theorem kept_captureLoop
    {slot : Nat → Stage (Suppressor cores × cores.Samples) Exit}
    (rates :
      ∀ index suppressor samples,
        (slot index (suppressor, samples)).1.1.sampleRateHz =
          suppressor.sampleRateHz)
    (noise : NoiseSuppression cores)
    (audio : AudioBuffer cores) :
    let after := (captureLoop slot (noise, audio)).1
    after.1.setup = noise.setup ∧ after.2.sizes = audio.sizes := by
  simp only [captureLoop]
  split
  · exact ⟨rfl, rfl⟩
  · split
    · exact ⟨rfl, rfl⟩
    · refine ⟨?_, rfl⟩
      simp only [setup, forSlots_map _ _ Suppressor.sampleRateHz rates]

@[simp]
theorem setup_setLevel
    (level : NoiseLevel)
    (noise : NoiseSuppression cores) :
    (noise.setLevel level).setup = noise.setup := by
  simp [setLevel, setup, Function.comp_def]

end NoiseSuppression

namespace VoiceDetection

/-- What initialising the detector decides. -/
structure Setup where
  enabled : Bool
  sampleRateHz : Int
  hasVad : Bool
  deriving Repr, DecidableEq

/-- The setup of the detector. -/
def setup (voice : VoiceDetection cores) : Setup where
  enabled := voice.enabled
  sampleRateHz := voice.sampleRateHz
  hasVad := voice.vad.isSome

theorem kept_processCaptureAudio
    (voice : VoiceDetection cores)
    (audio : AudioBuffer cores) :
    let after := (processCaptureAudio (voice, audio)).1
    after.1.setup = voice.setup ∧ after.2.sizes = audio.sizes := by
  simp only [processCaptureAudio]
  split
  · exact ⟨rfl, rfl⟩
  · split
    · exact ⟨rfl, rfl⟩
    · split
      · exact ⟨rfl, rfl⟩
      next vad present =>
          simp [setup, present, AudioBuffer.sizes]

@[simp]
theorem setup_setLikelihood
    (likelihood : Likelihood)
    (voice : VoiceDetection cores) :
    (voice.setLikelihood likelihood).setup = voice.setup := by
  simp only [setLikelihood, setup]
  split <;> simp

end VoiceDetection

end Effects

end ApmSdk.AudioProcessing
