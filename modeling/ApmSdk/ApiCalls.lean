import ApmSdk.Configuration
import ApmSdk.LabelledPath

namespace ApmSdk.AudioProcessing

/-!
# Calls of the programming interface

Any sequence of calls of the module and its components, from a module that
`AudioProcessing::Create` has just made.  A call that does not return ends the
run, and every other call is one step.
-/

/-- The components with an `Enable` function. -/
inductive Component where
  | echoCancellation
  | echoControlMobile
  | gainControl
  | highPassFilter
  | noiseSuppression
  | levelEstimator
  | voiceDetection
  deriving Repr, DecidableEq

/-- The calls, with their arguments; a null pointer is `none`. -/
inductive Call (cores : Cores) where
  | initializeCurrent
  | initializeWith (config : ProcessingConfig)
  | processStream (frame : Option AudioFrame)
  | processStreamFloat
      (data : Option cores.FloatChannels)
      (inputConfig outputConfig : StreamConfig)
  | processReverseStream (frame : Option AudioFrame)
  | processReverseStreamFloat
      (data : Option cores.FloatChannels)
      (inputConfig outputConfig : StreamConfig)
  | setStreamDelayMs (delay : Int)
  | setDelayOffsetMs (offset : Int)
  | enable (component : Component) (flag : Bool)
  | setSuppressionLevel (level : SuppressionLevel)
  | enableDriftCompensation (flag : Bool)
  | setStreamDriftSamples (drift : Int)
  | enableMetrics (flag : Bool)
  | enableDelayLogging (flag : Bool)
  | setRoutingMode (mode : RoutingMode)
  | enableComfortNoise (flag : Bool)
  | setEchoPath (path : Option cores.EchoPath) (sizeMatches : Bool)
  | setStreamAnalogLevel (level : Int)
  | setMode (mode : GainMode)
  | setAnalogLevelLimits (minimum maximum : Int)
  | setTargetLevelDbfs (level : Int)
  | setCompressionGainDb (gain : Int)
  | enableLimiter (flag : Bool)
  | setNoiseLevel (level : NoiseLevel)
  | setLikelihood (likelihood : Likelihood)
  | setStreamHasVoice (hasVoice : Bool)

variable {cores : Cores}

namespace AudioProcessingImpl

/-- A function with data of the caller, when only the module matters. -/
def withData
    {Data : Type}
    (data : Data)
    (stage : Stage (AudioProcessingImpl cores × Data) Exit) :
    Stage (AudioProcessingImpl cores) Exit :=
  fun apm =>
    let ran := stage (apm, data)
    (ran.1.1, ran.2)

/-- A function that only sets fields. -/
def always
    (change : AudioProcessingImpl cores → AudioProcessingImpl cores) :
    Stage (AudioProcessingImpl cores) Exit :=
  fun apm => (change apm, none)

/-- A call that returns `kNullPointerError`. -/
def refuseNull : Stage (AudioProcessingImpl cores) Exit :=
  fun apm => (apm, some (.error .kNullPointerError))

/-- `Enable` of each component. -/
def enable
    (created : Creations)
    (component : Component)
    (flag : Bool) : Stage (AudioProcessingImpl cores) Exit :=
  fun apm =>
    match component with
    | .echoCancellation =>
        onEchoCancellation
          (EchoCancellation.enable apm.formats created.aec
            apm.echoControlMobile.enabled flag) apm
    | .echoControlMobile =>
        onEchoControlMobile
          (EchoControlMobile.enable apm.formats created.aecm
            apm.echoCancellation.enabled flag) apm
    | .gainControl =>
        onGainControl (GainControl.enable apm.formats flag) apm
    | .highPassFilter =>
        always
          (fun apm =>
            { apm with highPassFilter := apm.highPassFilter.enable flag })
          apm
    | .noiseSuppression =>
        always
          (fun apm =>
            { apm with
              noiseSuppression := apm.noiseSuppression.enable flag })
          apm
    | .levelEstimator =>
        always
          (fun apm =>
            { apm with levelEstimator := apm.levelEstimator.enable flag })
          apm
    | .voiceDetection =>
        always
          (fun apm =>
            { apm with voiceDetection := apm.voiceDetection.enable flag })
          apm

/-- What a call does to the module. -/
def perform
    (created : Creations)
    (call : Call cores) : Stage (AudioProcessingImpl cores) Exit :=
  fun apm =>
    match call with
    | .initializeCurrent => initializeLocked created apm
    | .initializeWith config => initializeLockedWith created config apm
    | .processStream none =>
        runStages [readQueuedRenderData, refuseNull] apm
    | .processStream (some frame) =>
        withData frame (processStream created) apm
    | .processStreamFloat none _ _ =>
        runStages [readQueuedRenderData, refuseNull] apm
    | .processStreamFloat (some data) inputConfig outputConfig =>
        withData data
          (processStreamFloat created data inputConfig outputConfig) apm
    | .processReverseStream none => refuseNull apm
    | .processReverseStream (some frame) =>
        withData frame (processReverseStream created) apm
    | .processReverseStreamFloat none _ _ => refuseNull apm
    | .processReverseStreamFloat (some data) inputConfig outputConfig =>
        withData data
          (processReverseStreamFloat created data inputConfig outputConfig)
          apm
    | .setStreamDelayMs delay => setStreamDelayMs delay apm
    | .setDelayOffsetMs offset => setDelayOffsetMs offset apm
    | .enable component flag => enable created component flag apm
    | .setSuppressionLevel level =>
        onEchoCancellation
          (EchoCancellation.setSuppressionLevel apm.formats level) apm
    | .enableDriftCompensation flag =>
        onEchoCancellation
          (EchoCancellation.enableDriftCompensation apm.formats flag) apm
    | .setStreamDriftSamples drift =>
        onEchoCancellation
          (EchoCancellation.setStreamDriftSamples drift) apm
    | .enableMetrics flag =>
        onEchoCancellation
          (EchoCancellation.enableMetrics apm.formats flag) apm
    | .enableDelayLogging flag =>
        onEchoCancellation
          (EchoCancellation.enableDelayLogging apm.formats flag) apm
    | .setRoutingMode mode =>
        onEchoControlMobile
          (EchoControlMobile.setRoutingMode apm.formats mode) apm
    | .enableComfortNoise flag =>
        onEchoControlMobile
          (EchoControlMobile.enableComfortNoise apm.formats flag) apm
    | .setEchoPath path sizeMatches =>
        onEchoControlMobile
          (EchoControlMobile.setEchoPath apm.formats created.aecm path
            sizeMatches) apm
    | .setStreamAnalogLevel level =>
        onGainControl (GainControl.setStreamAnalogLevel level) apm
    | .setMode mode =>
        onGainControl (GainControl.setMode apm.formats mode) apm
    | .setAnalogLevelLimits minimum maximum =>
        onGainControl
          (GainControl.setAnalogLevelLimits apm.formats minimum maximum)
          apm
    | .setTargetLevelDbfs level =>
        onGainControl
          (GainControl.setTargetLevelDbfs apm.formats level) apm
    | .setCompressionGainDb gain =>
        onGainControl
          (GainControl.setCompressionGainDb apm.formats gain) apm
    | .enableLimiter flag =>
        onGainControl (GainControl.enableLimiter apm.formats flag) apm
    | .setNoiseLevel level =>
        always
          (fun apm =>
            { apm with
              noiseSuppression := apm.noiseSuppression.setLevel level })
          apm
    | .setLikelihood likelihood =>
        always
          (fun apm =>
            { apm with
              voiceDetection :=
                apm.voiceDetection.setLikelihood likelihood })
          apm
    | .setStreamHasVoice hasVoice =>
        always
          (fun apm =>
            { apm with
              voiceDetection :=
                apm.voiceDetection.setStreamHasVoice hasVoice })
          apm

end AudioProcessingImpl

/-- A call as it happened: which handles could be allocated, and its status. -/
structure CallRecord (cores : Cores) where
  call : Call cores
  created : Creations
  status : Option Error

/-- One call that returns with its status; `kNoError` is `none`. -/
def apiStep
    (source : AudioProcessingImpl cores)
    (record : CallRecord cores)
    (target : AudioProcessingImpl cores) : Prop :=
  AudioProcessingImpl.perform record.created record.call source =
    (target, record.status.map Exit.error)

/-- The state that the call of a step leaves. -/
theorem apiStep.performed
    {source target : AudioProcessingImpl cores}
    {record : CallRecord cores}
    (taken : apiStep source record target) :
    (AudioProcessingImpl.perform record.created record.call source).1 =
      target :=
  congrArg Prod.fst taken

/-- How the call of a step ends. -/
theorem apiStep.returned
    {source target : AudioProcessingImpl cores}
    {record : CallRecord cores}
    (taken : apiStep source record target) :
    (AudioProcessingImpl.perform record.created record.call source).2 =
      record.status.map Exit.error :=
  congrArg Prod.snd taken

/-- A sequence of calls that have all returned. -/
abbrev Calls (cores : Cores) :=
  List (Move (AudioProcessingImpl cores) (CallRecord cores))

/-- Whether calls made one after another return with the recorded statuses. -/
def allReturn (source : AudioProcessingImpl cores) :
    List (CallRecord cores) → Bool
  | [] => true
  | record :: rest =>
      let ran :=
        AudioProcessingImpl.perform record.created record.call source
      ran.2 == record.status.map Exit.error && allReturn ran.1 rest

/-- The moves that calls take when they are made one after another. -/
def movesOf (source : AudioProcessingImpl cores) :
    List (CallRecord cores) → Calls cores
  | [] => []
  | record :: rest =>
      let target :=
        (AudioProcessingImpl.perform record.created record.call source).1
      ⟨source, record, target⟩ :: movesOf target rest

/-- The state that calls leave when they are made one after another. -/
def stateAfter (source : AudioProcessingImpl cores)
    (records : List (CallRecord cores)) : AudioProcessingImpl cores :=
  records.foldl
    (fun state record =>
      (AudioProcessingImpl.perform record.created record.call state).1)
    source

/-- Calls that return as recorded are a path. -/
theorem path_movesOf
    {source : AudioProcessingImpl cores}
    {records : List (CallRecord cores)}
    (returns : allReturn source records = true) :
    Path apiStep source (movesOf source records)
      (stateAfter source records) := by
  induction records generalizing source with
  | nil =>
      exact .nil source
  | cons record rest inductionHypothesis =>
      rw [allReturn, Bool.and_eq_true, beq_iff_eq] at returns
      exact
        .cons record (Prod.ext rfl returns.1)
          (inductionHypothesis returns.2)

namespace Call

/-- The calls that may initialise the module for a format. -/
def mayInitialize : Call cores → Bool
  | .initializeCurrent => true
  | .initializeWith _ => true
  | .processStream _ => true
  | .processStreamFloat _ _ _ => true
  | .processReverseStream _ => true
  | .processReverseStreamFloat _ _ _ => true
  | _ => false

/-- The two overloads of `ProcessStream`. -/
def isProcessStream : Call cores → Bool
  | .processStream _ => true
  | .processStreamFloat _ _ _ => true
  | _ => false

/-- The calls that set a parameter which no configuration depends on. -/
def setsParameter : Call cores → Bool
  | .setStreamDelayMs _ => true
  | .setDelayOffsetMs _ => true
  | .setSuppressionLevel _ => true
  | .enableDriftCompensation _ => true
  | .setStreamDriftSamples _ => true
  | .enableMetrics _ => true
  | .enableDelayLogging _ => true
  | .setRoutingMode _ => true
  | .enableComfortNoise _ => true
  | .setStreamAnalogLevel _ => true
  | .setNoiseLevel _ => true
  | .setLikelihood _ => true
  | .setStreamHasVoice _ => true
  | _ => false

/-- `set_stream_delay_ms` -/
def isSetStreamDelay : Call cores → Bool
  | .setStreamDelayMs _ => true
  | _ => false

end Call

namespace AudioProcessingImpl

/-- Setting a parameter keeps the configuration. -/
theorem configuration_of_setsParameter
    (created : Creations)
    {call : Call cores}
    (sets : call.setsParameter = true)
    (apm : AudioProcessingImpl cores) :
    (perform created call apm).1.configuration = apm.configuration := by
  cases call with
  | setStreamDelayMs _ => rfl
  | setDelayOffsetMs _ => rfl
  | setStreamDriftSamples _ => rfl
  | setStreamHasVoice _ => rfl
  | setSuppressionLevel level =>
      exact
        keeps_onEchoCancellation
          (EchoCancellation.shape_setSuppressionLevel level) apm
  | enableDriftCompensation flag =>
      exact
        keeps_onEchoCancellation
          (EchoCancellation.shape_enableDriftCompensation flag) apm
  | enableMetrics flag =>
      exact
        keeps_onEchoCancellation
          (EchoCancellation.shape_enableMetrics flag) apm
  | enableDelayLogging flag =>
      exact
        keeps_onEchoCancellation
          (EchoCancellation.shape_enableDelayLogging flag) apm
  | setRoutingMode mode =>
      exact
        keeps_onEchoControlMobile
          (EchoControlMobile.shape_setRoutingMode mode) apm
  | enableComfortNoise flag =>
      exact
        keeps_onEchoControlMobile
          (EchoControlMobile.shape_enableComfortNoise flag) apm
  | setStreamAnalogLevel level =>
      simp only [perform, onGainControl, GainControl.setStreamAnalogLevel]
      split <;> rfl
  | setNoiseLevel level =>
      simp [perform, always, configuration, NoiseSuppression.setup_setLevel]
  | setLikelihood likelihood =>
      simp [perform, always, configuration,
        VoiceDetection.setup_setLikelihood]
  | _ => cases sets

/--
A relation between module states that every part of the processing calls
respects: the initialisations, reading the queues, exchanging the samples of a
buffer, and the two processing chains.
-/
structure ProcessingRelation
    (created : Creations)
    (related :
      AudioProcessingImpl cores → AudioProcessingImpl cores → Prop) :
    Prop where
  unchanged : ∀ apm, related apm apm
  composed :
    ∀ {first second third},
      related first second → related second third → related first third
  initializes : ∀ apm, related apm (initializeLocked created apm).1
  initializesWith :
    ∀ config apm, related apm (initializeLockedWith created config apm).1
  reads : ∀ apm, related apm (readQueuedRenderData apm).1
  loadsCapture :
    ∀ (apm : AudioProcessingImpl cores) (audio : AudioBuffer cores),
      audio.sizes = apm.captureAudio.sizes →
        related apm { apm with captureAudio := audio }
  loadsRender :
    ∀ (apm : AudioProcessingImpl cores) (before after : AudioBuffer cores),
      apm.renderAudio = some before →
      after.sizes = before.sizes →
        related apm { apm with renderAudio := some after }
  captures : ∀ apm, related apm (processStreamLocked apm).1
  renders : ∀ apm, related apm (processReverseStreamLocked apm).1

namespace ProcessingRelation

variable {created : Creations}
variable
  {related : AudioProcessingImpl cores → AudioProcessingImpl cores → Prop}

/-- `MaybeInitialize` does nothing or initialises. -/
theorem maybeInitialize
    (relation : ProcessingRelation created related)
    (config : ProcessingConfig)
    (apm : AudioProcessingImpl cores) :
    related apm
      (AudioProcessingImpl.maybeInitialize created config apm).1 := by
  unfold AudioProcessingImpl.maybeInitialize
  split
  · exact relation.unchanged apm
  · exact relation.initializesWith config apm

/-- Stages with data of the caller, seen from the module. -/
theorem runStages
    {Data : Type}
    (relation : ProcessingRelation created related)
    {stages : List (Stage (AudioProcessingImpl cores × Data) Exit)}
    (each :
      ∀ stage ∈ stages, ∀ state : AudioProcessingImpl cores × Data,
        related state.1 (stage state).1.1)
    (state : AudioProcessingImpl cores × Data) :
    related state.1 (ApmSdk.runStages stages state).1.1 := by
  apply
    runStages_related
      (fun (before after : AudioProcessingImpl cores × Data) =>
        related before.1 after.1)
  · exact fun state => relation.unchanged state.1
  · intro first second third earlier later
    exact relation.composed earlier later
  · exact each

/-- Every stage of `ProcessStream(AudioFrame*)` respects the relation. -/
theorem processStreamStages
    (relation : ProcessingRelation created related) :
    ∀ stage ∈ @AudioProcessingImpl.processStreamStages cores created,
      ∀ state : AudioProcessingImpl cores × AudioFrame,
        related state.1 (stage state).1.1 := by
  unfold AudioProcessingImpl.processStreamStages prepareStages
  simp only [List.cons_append, List.nil_append, List.forall_mem_cons, List.not_mem_nil, false_imp_iff,
    implies_true, and_true]
  refine ⟨?drain, ?rate, ?format, ?length, ?load, ?capture, ?store⟩
  case drain => exact fun state => relation.reads state.1
  case rate => exact fun state => relation.unchanged state.1
  case format => exact fun state => relation.maybeInitialize _ state.1
  case length => exact fun state => relation.unchanged state.1
  case load =>
      intro state
      unfold loadFrame
      split
      next => exact relation.unchanged state.1
      next loaded loads =>
          exact
            relation.loadsCapture state.1 loaded
              (AudioBuffer.sizes_deinterleaveFrom loads)
  case capture => exact fun state => relation.captures state.1
  case store =>
      intro state
      simp only [storeFrame]
      split <;> exact relation.unchanged state.1

/-- Every stage of the overload with float data respects the relation. -/
theorem processStreamFloatStages
    (relation : ProcessingRelation created related)
    (src : cores.FloatChannels)
    (inputConfig outputConfig : StreamConfig) :
    ∀ stage ∈
        AudioProcessingImpl.processStreamFloatStages created src
          inputConfig outputConfig,
      ∀ state : AudioProcessingImpl cores × cores.FloatChannels,
        related state.1 (stage state).1.1 := by
  unfold AudioProcessingImpl.processStreamFloatStages prepareFloatStages
  simp only [List.cons_append, List.nil_append, List.forall_mem_cons, List.not_mem_nil, false_imp_iff,
    implies_true, and_true]
  refine ⟨?drain, ?format, ?load, ?capture, ?store⟩
  case drain => exact fun state => relation.reads state.1
  case format => exact fun state => relation.maybeInitialize _ state.1
  case load => exact fun state => relation.loadsCapture state.1 _ rfl
  case capture => exact fun state => relation.captures state.1
  case store => exact fun state => relation.unchanged state.1

theorem processReverseStream
    (relation : ProcessingRelation created related)
    (state : AudioProcessingImpl cores × AudioFrame) :
    related state.1
      (AudioProcessingImpl.processReverseStream created state).1.1 := by
  refine relation.runStages ?_ state
  unfold prepareReverseStages
  simp only [List.cons_append, List.nil_append, List.forall_mem_cons, List.not_mem_nil, false_imp_iff,
    implies_true, and_true]
  refine ⟨?check, ?format, ?length, ?load, ?render⟩
  case check => exact fun state => relation.unchanged state.1
  case format => exact fun state => relation.maybeInitialize _ state.1
  case length => exact fun state => relation.unchanged state.1
  case load =>
      intro state
      unfold loadReverseFrame
      split
      next => exact relation.unchanged state.1
      next loaded loads =>
          obtain ⟨audio, present, loads⟩ := Option.bind_eq_some_iff.mp loads
          exact
            relation.loadsRender state.1 audio loaded present
              (AudioBuffer.sizes_deinterleaveFrom loads)
  case render => exact fun state => relation.renders state.1

theorem processReverseStreamFloat
    (relation : ProcessingRelation created related)
    (src : cores.FloatChannels)
    (inputConfig outputConfig : StreamConfig)
    (state : AudioProcessingImpl cores × cores.FloatChannels) :
    related state.1
      (AudioProcessingImpl.processReverseStreamFloat created src
        inputConfig outputConfig state).1.1 := by
  refine relation.runStages ?_ state
  unfold prepareReverseFloatStages
  simp only [List.cons_append, List.nil_append, List.forall_mem_cons, List.not_mem_nil, false_imp_iff,
    implies_true, and_true]
  refine ⟨?check, ?format, ?load, ?render, ?store⟩
  case check => exact fun state => relation.unchanged state.1
  case format => exact fun state => relation.maybeInitialize _ state.1
  case load =>
      intro state
      simp only [loadReverseFloat, onModule]
      split
      next => exact relation.unchanged state.1
      next audio present =>
          exact relation.loadsRender state.1 audio _ present rfl
  case render => exact fun state => relation.renders state.1
  case store => exact fun state => relation.unchanged state.1

/-- A call for `ProcessStream` with a null pointer only reads the queues. -/
theorem refusesNull
    (relation : ProcessingRelation created related)
    (apm : AudioProcessingImpl cores) :
    related apm
      (ApmSdk.runStages [readQueuedRenderData, refuseNull] apm).1 :=
  runStages_related related relation.unchanged
    (fun first second => relation.composed first second)
    (forall_mem_stages_cons relation.reads
      (forall_mem_stages_cons relation.unchanged (List.forall_mem_nil _)))
    apm

/-- Every call that may initialise the module respects the relation. -/
theorem perform
    (relation : ProcessingRelation created related)
    {call : Call cores}
    (may : call.mayInitialize = true)
    (apm : AudioProcessingImpl cores) :
    related apm (AudioProcessingImpl.perform created call apm).1 := by
  cases call with
  | initializeCurrent => exact relation.initializes apm
  | initializeWith config => exact relation.initializesWith config apm
  | processStream frame =>
      cases frame with
      | none => exact relation.refusesNull apm
      | some frame =>
          exact relation.runStages relation.processStreamStages (apm, frame)
  | processStreamFloat data inputConfig outputConfig =>
      cases data with
      | none => exact relation.refusesNull apm
      | some data =>
          exact
            relation.runStages
              (relation.processStreamFloatStages data _ _) (apm, data)
  | processReverseStream frame =>
      cases frame with
      | none => exact relation.unchanged apm
      | some frame => exact relation.processReverseStream (apm, frame)
  | processReverseStreamFloat data inputConfig outputConfig =>
      cases data with
      | none => exact relation.unchanged apm
      | some data =>
          exact relation.processReverseStreamFloat data _ _ (apm, data)
  | _ => simp [Call.mayInitialize] at may

end ProcessingRelation

/--
An invariant of the configuration that initialising preserves is respected by
every processing call.
-/
theorem processingRelation_of_configuration
    {created : Creations}
    (holds : Configuration → Prop)
    (initializes :
      ∀ apm : AudioProcessingImpl cores,
        holds apm.configuration →
          holds (initializeLocked created apm).1.configuration)
    (initializesWith :
      ∀ (config : ProcessingConfig) (apm : AudioProcessingImpl cores),
        holds apm.configuration →
          holds (initializeLockedWith created config apm).1.configuration) :
    ProcessingRelation created
      (fun before after : AudioProcessingImpl cores =>
        holds before.configuration → holds after.configuration) where
  unchanged := fun _ held => held
  composed := fun first second held => second (first held)
  initializes := initializes
  initializesWith := initializesWith
  reads := by
    intro apm held
    rw [keeps_readQueuedRenderData apm]
    exact held
  loadsCapture := by
    intro apm audio sizes held
    simpa only [configuration, sizes] using held
  loadsRender := by
    intro apm before after present sizes held
    simpa only [configuration, present, Option.map_some, sizes] using held
  captures := by
    intro apm held
    rw [keeps_processStreamLocked apm]
    exact held
  renders := by
    intro apm held
    rw [keeps_processReverseStreamLocked apm]
    exact held

end AudioProcessingImpl

end ApmSdk.AudioProcessing
