import ApmSdk.CancellerExclusion

namespace ApmSdk.AudioProcessing

/-!
# The format in force and the components that are ready for it

`InitializeLocked(config)` stores the new formats before it initialises the
components, and a later call decides by the stored formats whether to initialise
again.  The components follow the formats as long as none of them can refuse.
-/

variable {cores : Cores}

section Setups

namespace StreamFormats

/-- The sizes of `capture_audio` for these formats. -/
def captureSizes (formats : StreamFormats) : BufferSizes where
  inputNumFrames := formats.apiFormat.inputStream.numFrames
  numInputChannels := formats.apiFormat.inputStream.numChannels
  procNumFrames := formats.fwdProcFrames
  numProcChannels := formats.numOutputChannels
  outputNumFrames := formats.apiFormat.outputStream.numFrames

/-- The sizes of `render_audio` for these formats, where there is one. -/
def renderSizes (formats : StreamFormats) : Option BufferSizes :=
  let api := formats.apiFormat
  if 0 < api.reverseInputStream.numChannels then
    some
      { inputNumFrames := api.reverseInputStream.numFrames
        numInputChannels := api.reverseInputStream.numChannels
        procNumFrames := formats.revProcFrames
        numProcChannels := formats.numReverseChannels
        outputNumFrames :=
          if api.reverseOutputStream.numFrames = 0 then
            formats.revProcFrames
          else
            api.reverseOutputStream.numFrames }
  else
    none

end StreamFormats

namespace HighPassFilter

/-- The coefficients of `channels` filters for a rate. -/
def coefficientsAt (channels : Nat) (sampleRateHz : Int) :
    List (List Int) :=
  List.replicate channels (BiquadFilter.coefficientsFor sampleRateHz)

theorem coefficients_initializeComponent
    (channels : Nat)
    (sampleRateHz : Int)
    (highPass : HighPassFilter) :
    (highPass.initializeComponent channels sampleRateHz).coefficients =
      coefficientsAt channels sampleRateHz := by
  simp [initializeComponent, coefficients, coefficientsAt,
    BiquadFilter.create]

/-- Resetting the filters keeps their coefficients. -/
theorem coefficients_enable
    (flag : Bool)
    (highPass : HighPassFilter) :
    (highPass.enable flag).coefficients = highPass.coefficients := by
  simp only [enable, coefficients]
  split
  · rw [List.map_map]
    rfl
  · rfl

end HighPassFilter

namespace NoiseSuppression

/-- The setup of a suppressor that has been initialised. -/
def Setup.at
    (enabled : Bool)
    (channels : Nat)
    (sampleRateHz : Int) : Setup where
  enabled := enabled
  channels := channels
  sampleRateHz := sampleRateHz
  suppressorRates :=
    if enabled then List.replicate channels sampleRateHz else []

theorem setup_initializeComponent
    (channels : Nat)
    (sampleRateHz : Int)
    (noise : NoiseSuppression cores) :
    (noise.initializeComponent channels sampleRateHz).setup =
      .at noise.enabled channels sampleRateHz := by
  simp only [initializeComponent, setup_setLevel]
  cases noise.enabled <;> simp [setup, Setup.at]

/-- `Enable` initialises for the channels and the rate that are stored. -/
theorem setup_enable
    (flag : Bool)
    {noise : NoiseSuppression cores}
    {channels : Nat}
    {sampleRateHz : Int}
    (ready : noise.setup = .at noise.setup.enabled channels sampleRateHz) :
    (noise.enable flag).setup =
      .at (noise.enable flag).setup.enabled channels sampleRateHz := by
  suffices asked :
      (noise.enable flag).setup = .at flag channels sampleRateHz by
    rw [asked]
    rfl
  have stored : noise.channels = channels ∧
      noise.sampleRateHz = sampleRateHz :=
    ⟨congrArg Setup.channels ready, congrArg Setup.sampleRateHz ready⟩
  unfold enable
  split
  · rw [setup_initializeComponent, stored.1, stored.2]
  next same =>
      rw [ready, ← Decidable.not_not.mp same]
      rfl

end NoiseSuppression

namespace VoiceDetection

/-- The setup of a detector that has been initialised. -/
def Setup.at (enabled : Bool) (sampleRateHz : Int) : Setup where
  enabled := enabled
  sampleRateHz := sampleRateHz
  hasVad := enabled

theorem setup_initializeComponent
    (sampleRateHz : Int)
    (voice : VoiceDetection cores) :
    (voice.initializeComponent sampleRateHz).setup =
      .at voice.enabled sampleRateHz := by
  simp only [initializeComponent, setup_setLikelihood]
  cases voice.enabled <;> simp [setup, Setup.at]

/-- `Enable` initialises for the rate that is stored. -/
theorem setup_enable
    (flag : Bool)
    {voice : VoiceDetection cores}
    {sampleRateHz : Int}
    (ready : voice.setup = .at voice.setup.enabled sampleRateHz) :
    (voice.enable flag).setup =
      .at (voice.enable flag).setup.enabled sampleRateHz := by
  suffices asked : (voice.enable flag).setup = .at flag sampleRateHz by
    rw [asked]
    rfl
  have stored : voice.sampleRateHz = sampleRateHz :=
    congrArg Setup.sampleRateHz ready
  unfold enable
  split
  · rw [setup_initializeComponent, stored]
  next same =>
      rw [ready, ← Decidable.not_not.mp same]
      rfl

end VoiceDetection

end Setups

/-- Every part of the module has been initialised for the formats in force. -/
structure Configuration.Ready (configuration : Configuration) : Prop where
  echoCancellation :
    configuration.echoCancellation.enabled = true →
      ProcessingComponent.ReadyFor
        (EchoCancellation.numHandlesRequired configuration.formats)
        configuration.formats.fwdProcRate configuration.echoCancellation
  echoControlMobile :
    configuration.echoControlMobile.enabled = true →
      ProcessingComponent.ReadyFor
        (EchoControlMobile.numHandlesRequired configuration.formats)
        configuration.formats.fwdProcRate configuration.echoControlMobile
  gainControl :
    configuration.gainControl.enabled = true →
      ProcessingComponent.ReadyFor
        (GainControl.numHandlesRequired configuration.formats)
        configuration.formats.fwdProcRate configuration.gainControl
  highPassFilter :
    configuration.highPassCoefficients =
      HighPassFilter.coefficientsAt configuration.formats.numProcChannels
        configuration.formats.fwdProcRate.hz
  noiseSuppression :
    configuration.noiseSuppression =
      .at configuration.noiseSuppression.enabled
        configuration.formats.numProcChannels
        configuration.formats.fwdProcRate.hz
  voiceDetection :
    configuration.voiceDetection =
      .at configuration.voiceDetection.enabled
        configuration.formats.splitRate.hz
  captureAudio :
    configuration.captureSizes = configuration.formats.captureSizes
  renderAudio :
    configuration.renderSizes = configuration.formats.renderSizes

/-- The level limits of an enabled gain control are some that the library takes. -/
def Configuration.LimitsTaken (configuration : Configuration) : Prop :=
  configuration.gainControl.enabled = true →
    configuration.gainSettings.takenByInit = true

instance (configuration : Configuration) :
    Decidable configuration.LimitsTaken :=
  inferInstanceAs (Decidable (_ → _))

namespace AudioProcessingImpl

section Initialize

theorem renderSizes_allocateBuffers (apm : AudioProcessingImpl cores) :
    (allocateBuffers apm).1.configuration.renderSizes =
      apm.formats.renderSizes := by
  simp only [allocateBuffers, configuration, StreamFormats.renderSizes]
  split <;> rfl

/-- An initialisation that completes has made every part ready. -/
theorem ready_initializeLocked
    {created : Creations}
    {apm : AudioProcessingImpl cores}
    (passed : (initializeLocked created apm).2 = none) :
    (initializeLocked created apm).1.configuration.Ready := by
  obtain ⟨final, ran⟩ :
      ∃ final, initializeLocked created apm = (final, none) :=
    ⟨_, Prod.ext rfl passed⟩
  rw [ran]
  obtain ⟨-, rest⟩ := completed_cons ran
  obtain ⟨echoPassed, rest⟩ := completed_cons rest
  obtain ⟨mobilePassed, rest⟩ := completed_cons rest
  obtain ⟨gainPassed, rest⟩ := completed_cons rest
  obtain ⟨-, rest⟩ := completed_cons rest
  obtain rfl := congrArg Prod.fst rest
  constructor
  · intro enabled
    exact
      EchoCancellation.initializeComponent_ready apm.echoCancellation
        ((EchoCancellation.enabled_initializeComponent _).symm.trans enabled)
        echoPassed
  · intro enabled
    exact
      EchoControlMobile.initializeComponent_ready apm.echoControlMobile
        ((EchoControlMobile.enabled_initializeComponent _).symm.trans
          enabled)
        mobilePassed
  · intro enabled
    exact
      GainControl.initializeComponent_ready apm.gainControl
        ((GainControl.enabled_initializeComponent _).symm.trans enabled)
        gainPassed
  · exact HighPassFilter.coefficients_initializeComponent _ _ _
  · exact NoiseSuppression.setup_initializeComponent _ _ _
  · exact VoiceDetection.setup_initializeComponent _ _
  · rfl
  · exact renderSizes_allocateBuffers apm

/-- Initialising neither enables a gain control nor changes its settings. -/
theorem limitsTaken_initializeLocked
    {created : Creations}
    {apm : AudioProcessingImpl cores}
    (taken : apm.configuration.LimitsTaken) :
    (initializeLocked created apm).1.configuration.LimitsTaken := by
  refine
    runStages_invariant
      (fun apm : AudioProcessingImpl cores => apm.configuration.LimitsTaken)
      ?_ taken
  unfold initializeStages
  refine forall_mem_stages_cons (fun _ taken => taken) ?_
  refine forall_mem_stages_cons (fun _ taken => taken) ?_
  refine forall_mem_stages_cons (fun _ taken => taken) ?_
  refine forall_mem_stages_cons (fun apm taken => ?gain) ?_
  case gain =>
      intro enabled
      obtain ⟨-, -, settings⟩ :=
        GainControl.initializeComponent_base apm.formats apm.gainControl
      have before :=
        taken
          ((GainControl.enabled_initializeComponent _).symm.trans enabled)
      exact (congrArg GainSettings.takenByInit settings).trans before
  exact
    forall_mem_stages_cons (fun _ taken => taken) (List.forall_mem_nil _)

/--
Initialising completes when every handle can be allocated, the mobile canceller
works at the rate and the library takes the level limits.
-/
theorem initializeLocked_passes
    {created : Creations}
    (succeed : created.Succeed)
    {apm : AudioProcessingImpl cores}
    (exclusive : apm.configuration.Exclusive)
    (taken : apm.configuration.LimitsTaken) :
    (initializeLocked created apm).2 = none := by
  have allocated : (allocateBuffers apm).2 = none := rfl
  unfold initializeLocked initializeStages
  rw [runStages_cons_of_none allocated]
  have echo :
      (initializeEcho created (allocateBuffers apm).1).2 = none :=
    EchoCancellation.initializeComponent_passes apm.echoCancellation
      succeed.aec
  rw [runStages_cons_of_none echo]
  have mobile :
      (initializeMobile created
        (initializeEcho created (allocateBuffers apm).1).1).2 = none :=
    EchoControlMobile.initializeComponent_passes apm.echoControlMobile
      exclusive.narrow succeed.aecm
  rw [runStages_cons_of_none mobile]
  have gain :
      (initializeGain
        (initializeMobile created
          (initializeEcho created (allocateBuffers apm).1).1).1).2 =
        none :=
    GainControl.initializeComponent_passes apm.gainControl taken
  rw [runStages_cons_of_none gain]
  rfl

/--
`InitializeLocked(config)` that cannot fail in a component either refuses the
format and changes nothing, or makes every part ready for it.
-/
theorem initializeLockedWith_cases
    {created : Creations}
    (succeed : created.Succeed)
    {apm : AudioProcessingImpl cores}
    (exclusive : apm.configuration.Exclusive)
    (taken : apm.configuration.LimitsTaken)
    (config : ProcessingConfig) :
    (∃ code,
        initializeLockedWith created config apm =
          (apm, some (.error code))) ∨
      (initializeLockedWith created config apm).2 = none ∧
        let reached := (initializeLockedWith created config apm).1
        reached.configuration.Ready ∧
          reached.formats.apiFormat = config := by
  unfold initializeLockedWith
  split
  next code checked => exact .inl ⟨code, rfl⟩
  next checked =>
      have passed :=
        @initializeLocked_passes _ created succeed
          { apm with
            formats :=
              .choose config checked apm.echoControlMobile.enabled }
          (exclusive_choose exclusive checked) taken
      have modes :=
        modes_initializeLocked created
          { apm with
            formats :=
              .choose config checked apm.echoControlMobile.enabled }
      refine .inr ⟨passed, ready_initializeLocked passed, ?_⟩
      exact
        congrArg (fun modes => StreamFormats.apiFormat modes.1) modes

end Initialize

end AudioProcessingImpl

section Enable

variable {formats : StreamFormats}
variable {created : Nat → Bool}
variable {other flag : Bool}

/-- An enabled echo canceller is ready, also after `Enable`. -/
theorem EchoCancellation.ready_enable
    {aec : EchoCancellation cores}
    (before :
      aec.enabled = true →
        ProcessingComponent.ReadyFor (numHandlesRequired formats)
          formats.fwdProcRate aec.shape)
    (after : (enable formats created other flag aec).1.enabled = true) :
    ProcessingComponent.ReadyFor (numHandlesRequired formats)
      formats.fwdProcRate (enable formats created other flag aec).1.shape := by
  simp only [enable] at after ⊢
  split at after
  next refused =>
      rw [if_pos refused]
      exact before after
  next taken =>
      rw [if_neg taken]
      exact
        enableComponent_ensures
          (fun component : EchoCancellation cores => component.enabled)
          (fun component =>
            ProcessingComponent.ReadyFor (numHandlesRequired formats)
              formats.fwdProcRate component.shape)
          (fun _ _ => rfl)
          (fun _ _ ready =>
            ⟨ready.initialized, ready.numHandles, ready.handles⟩)
          initializeComponent_ready before after

/-- So is an enabled mobile echo canceller. -/
theorem EchoControlMobile.ready_enable
    {aecm : EchoControlMobile cores}
    (before :
      aecm.enabled = true →
        ProcessingComponent.ReadyFor (numHandlesRequired formats)
          formats.fwdProcRate aecm.shape)
    (after : (enable formats created other flag aecm).1.enabled = true) :
    ProcessingComponent.ReadyFor (numHandlesRequired formats)
      formats.fwdProcRate (enable formats created other flag aecm).1.shape := by
  simp only [enable] at after ⊢
  split at after
  next refused =>
      rw [if_pos refused]
      exact before after
  next taken =>
      rw [if_neg taken]
      exact
        enableComponent_ensures
          (fun component : EchoControlMobile cores => component.enabled)
          (fun component =>
            ProcessingComponent.ReadyFor (numHandlesRequired formats)
              formats.fwdProcRate component.shape)
          (fun _ _ => rfl)
          (fun _ _ ready =>
            ⟨ready.initialized, ready.numHandles, ready.handles⟩)
          initializeComponent_ready before after

/-- And an enabled gain control. -/
theorem GainControl.ready_enable
    {agc : GainControl cores}
    (before :
      agc.enabled = true →
        ProcessingComponent.ReadyFor (numHandlesRequired formats)
          formats.fwdProcRate agc.shape)
    (after : (enable formats flag agc).1.enabled = true) :
    ProcessingComponent.ReadyFor (numHandlesRequired formats)
      formats.fwdProcRate (enable formats flag agc).1.shape :=
  enableComponent_ensures
    (fun component : GainControl cores => component.enabled)
    (fun component =>
      ProcessingComponent.ReadyFor (numHandlesRequired formats)
        formats.fwdProcRate component.shape)
    (fun _ _ => rfl)
    (fun _ _ ready => ⟨ready.initialized, ready.numHandles, ready.handles⟩)
    initializeComponent_ready before after

end Enable

section Settings

variable {formats : StreamFormats}

/-- A new echo path initialises the canceller for the rate that it had. -/
theorem EchoControlMobile.ready_setEchoPath
    {created : Nat → Bool}
    {path : Option cores.EchoPath}
    {sizeMatches : Bool}
    {aecm : EchoControlMobile cores}
    (before :
      aecm.enabled = true →
        ProcessingComponent.ReadyFor (numHandlesRequired formats)
          formats.fwdProcRate aecm.shape)
    (after :
      (setEchoPath formats created path sizeMatches aecm).1.enabled =
        true) :
    ProcessingComponent.ReadyFor (numHandlesRequired formats)
      formats.fwdProcRate
      (setEchoPath formats created path sizeMatches aecm).1.shape := by
  cases path with
  | none => exact before after
  | some path =>
      cases sizeMatches with
      | false => exact before after
      | true =>
          have enabled : aecm.enabled = true :=
            (enabled_initializeComponent
              { aecm with externalEchoPath := some path }).symm.trans after
          exact
            initializeComponent_keeps_ready
              { aecm with externalEchoPath := some path } (before enabled)

namespace GainControl

/-- A function of the gain control that leaves it as ready as it was. -/
structure KeepsReady
    (formats : StreamFormats)
    (stage : Stage (GainControl cores) Exit) : Prop where
  enabled : ∀ agc, (stage agc).1.enabled = agc.enabled
  ready :
    ∀ agc,
      ProcessingComponent.ReadyFor (numHandlesRequired formats)
          formats.fwdProcRate agc.shape →
        ProcessingComponent.ReadyFor (numHandlesRequired formats)
          formats.fwdProcRate (stage agc).1.shape

/-- Keeping the shape keeps the gain control ready. -/
theorem keepsReady_of_shape
    {stage : Stage (GainControl cores) Exit}
    (same : ∀ agc, (stage agc).1.shape = agc.shape) :
    KeepsReady formats stage where
  enabled := fun agc =>
    congrArg
      (fun shape : ProcessingComponent HandleSetup Unit => shape.enabled)
      (same agc)
  ready := fun agc ready => by
    rw [same]
    exact ready

theorem keepsReady_setMode (mode : GainMode) :
    KeepsReady formats (@setMode cores formats mode) where
  enabled := fun _ => enabled_initializeComponent _
  ready := fun agc ready =>
    initializeComponent_keeps_ready
      { agc with settings := { agc.settings with mode := mode } } ready

theorem keepsReady_setAnalogLevelLimits (minimum maximum : Int) :
    KeepsReady formats
      (@setAnalogLevelLimits cores formats minimum maximum) where
  enabled := by
    intro agc
    unfold setAnalogLevelLimits
    split
    · exact enabled_initializeComponent _
    · rfl
  ready := by
    intro agc ready
    unfold setAnalogLevelLimits
    split
    · exact initializeComponent_keeps_ready { agc with settings := _ } ready
    · exact ready

theorem keepsReady_setTargetLevelDbfs (level : Int) :
    KeepsReady formats (@setTargetLevelDbfs cores formats level) := by
  refine keepsReady_of_shape fun agc => ?_
  unfold setTargetLevelDbfs
  split
  · exact shape_configure { agc with settings := _ }
  · rfl

theorem keepsReady_setCompressionGainDb (gain : Int) :
    KeepsReady formats (@setCompressionGainDb cores formats gain) := by
  refine keepsReady_of_shape fun agc => ?_
  unfold setCompressionGainDb
  split
  · exact shape_configure { agc with settings := _ }
  · rfl

theorem keepsReady_enableLimiter (flag : Bool) :
    KeepsReady formats (@enableLimiter cores formats flag) :=
  keepsReady_of_shape fun agc => shape_configure { agc with settings := _ }

end GainControl

end Settings

namespace AudioProcessingImpl

section Calls

/-- A function that keeps the gain control ready keeps every part ready. -/
theorem ready_onGainControl
    {apm : AudioProcessingImpl cores}
    {stage : Stage (GainControl cores) Exit}
    (kept : GainControl.KeepsReady apm.formats stage)
    (ready : apm.configuration.Ready) :
    (onGainControl stage apm).1.configuration.Ready :=
  { ready with
    gainControl := fun enabled =>
      kept.ready _
        (ready.gainControl ((kept.enabled _).symm.trans enabled)) }

/-- Enabling or disabling a component keeps every part ready. -/
theorem ready_enable
    (created : Creations)
    (component : Component)
    (flag : Bool)
    {apm : AudioProcessingImpl cores}
    (ready : apm.configuration.Ready) :
    (enable created component flag apm).1.configuration.Ready := by
  cases component with
  | echoCancellation =>
      exact
        { ready with
          echoCancellation :=
            EchoCancellation.ready_enable ready.echoCancellation }
  | echoControlMobile =>
      exact
        { ready with
          echoControlMobile :=
            EchoControlMobile.ready_enable ready.echoControlMobile }
  | gainControl =>
      exact
        { ready with
          gainControl := GainControl.ready_enable ready.gainControl }
  | highPassFilter =>
      exact
        { ready with
          highPassFilter :=
            (HighPassFilter.coefficients_enable flag _).trans
              ready.highPassFilter }
  | noiseSuppression =>
      exact
        { ready with
          noiseSuppression :=
            NoiseSuppression.setup_enable flag ready.noiseSuppression }
  | levelEstimator => exact { ready with }
  | voiceDetection =>
      exact
        { ready with
          voiceDetection :=
            VoiceDetection.setup_enable flag ready.voiceDetection }

/-- Every call that does not initialise keeps every part ready. -/
theorem ready_perform
    (created : Creations)
    {call : Call cores}
    (mayNot : call.mayInitialize = false)
    {apm : AudioProcessingImpl cores}
    (ready : apm.configuration.Ready) :
    (perform created call apm).1.configuration.Ready := by
  by_cases sets : call.setsParameter = true
  · rw [configuration_of_setsParameter created sets]
    exact ready
  · cases call with
    | enable component flag => exact ready_enable created component flag ready
    | setEchoPath path sizeMatches =>
        refine { ready with echoControlMobile := ?_ }
        exact EchoControlMobile.ready_setEchoPath ready.echoControlMobile
    | setMode mode =>
        exact ready_onGainControl (GainControl.keepsReady_setMode mode) ready
    | setAnalogLevelLimits minimum maximum =>
        exact
          ready_onGainControl
            (GainControl.keepsReady_setAnalogLevelLimits minimum maximum)
            ready
    | setTargetLevelDbfs level =>
        exact
          ready_onGainControl (GainControl.keepsReady_setTargetLevelDbfs level)
            ready
    | setCompressionGainDb gain =>
        exact
          ready_onGainControl (GainControl.keepsReady_setCompressionGainDb gain)
            ready
    | enableLimiter flag =>
        exact
          ready_onGainControl (GainControl.keepsReady_enableLimiter flag) ready
    | _ => first | exact absurd rfl sets | cases mayNot

end Calls

end AudioProcessingImpl

end ApmSdk.AudioProcessing
