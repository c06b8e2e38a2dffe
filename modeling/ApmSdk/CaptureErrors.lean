import ApmSdk.ApiCalls

namespace ApmSdk.AudioProcessing

/-!
# What a failing `ProcessStream` leaves behind

A call that returns an error is not undone: the components that ran before the one
that failed keep what they did.  What does not change is the caller's frame and
the parameters that were set for it.
-/

variable {cores : Cores}

/-- Analysing a captured frame does not use the analog level up. -/
theorem GainControl.wasAnalogLevelSet_analyzeCaptureAudio
    (state : GainControl cores × AudioBuffer cores) :
    (analyzeCaptureAudio state).1.1.wasAnalogLevelSet =
      state.1.wasAnalogLevelSet := by
  simp only [analyzeCaptureAudio]
  split
  · rfl
  · split
    · rfl
    · split <;> rfl

/-- Processing one uses it up only when it succeeds. -/
theorem GainControl.wasAnalogLevelSet_processCaptureAudio
    {echo : Bool}
    {state : GainControl cores × AudioBuffer cores}
    (failed : (processCaptureAudio echo state).2 ≠ none) :
    (processCaptureAudio echo state).1.1.wasAnalogLevelSet =
      state.1.wasAnalogLevelSet := by
  simp only [processCaptureAudio] at failed ⊢
  split
  · rfl
  · split
    · rfl
    · split
      · rfl
      next enabled level channels =>
          rw [if_neg enabled, if_neg level, if_neg channels] at failed
          split at failed
          next stopped exit ran =>
              have kept :
                  (captureLoop
                      (processSlot state.2.numFramesPerBand echo)
                      ({ state.1 with streamIsSaturated := false },
                        state.2)).1.1.wasAnalogLevelSet =
                    state.1.wasAnalogLevelSet := rfl
              rw [ran] at kept
              exact kept
          next => exact absurd rfl failed

/-- Initialising does not use the analog level up. -/
theorem GainControl.wasAnalogLevelSet_initializeComponent
    (formats : StreamFormats)
    (agc : GainControl cores) :
    (initializeComponent formats agc).1.wasAnalogLevelSet =
      agc.wasAnalogLevelSet := by
  simp only [initializeComponent]
  split
  · rfl
  · split <;> rfl

namespace AudioProcessingImpl

/-- The parameters that callers set for the next captured frame. -/
def frameParameters
    (apm : AudioProcessingImpl cores) : StreamDelay × Bool × Bool :=
  (apm.streamDelayMs, apm.wasStreamDelaySet,
    apm.gainControl.wasAnalogLevelSet)

section Preparation

theorem frameParameters_initializeLocked
    (created : Creations)
    (apm : AudioProcessingImpl cores) :
    (initializeLocked created apm).1.frameParameters =
      apm.frameParameters := by
  refine runStages_frame frameParameters ?_ apm
  unfold initializeStages
  refine forall_mem_stages_cons (fun _ => rfl) ?_
  refine forall_mem_stages_cons (fun _ => rfl) ?_
  refine forall_mem_stages_cons (fun _ => rfl) ?_
  refine forall_mem_stages_cons (fun apm => ?gain) ?_
  case gain =>
      simp only [initializeGain, onGainControl, frameParameters,
        GainControl.wasAnalogLevelSet_initializeComponent]
  exact forall_mem_stages_cons (fun _ => rfl) (List.forall_mem_nil _)

theorem frameParameters_maybeInitialize
    (created : Creations)
    (config : ProcessingConfig)
    (apm : AudioProcessingImpl cores) :
    (maybeInitialize created config apm).1.frameParameters =
      apm.frameParameters := by
  unfold maybeInitialize
  split
  · rfl
  · unfold initializeLockedWith
    split
    · rfl
    next checked =>
        exact
          frameParameters_initializeLocked created
            { apm with
              formats :=
                .choose config checked apm.echoControlMobile.enabled }

theorem frameParameters_readQueuedRenderData
    (apm : AudioProcessingImpl cores) :
    (readQueuedRenderData apm).1.frameParameters = apm.frameParameters := by
  refine runStages_frame frameParameters ?_ apm
  refine forall_mem_stages_cons (fun _ => rfl) ?_
  refine forall_mem_stages_cons (fun _ => rfl) ?_
  exact forall_mem_stages_cons (fun _ => rfl) (List.forall_mem_nil _)

/-- A function that keeps the parameters keeps them beside any data. -/
theorem parameters_onModule
    {Data : Type}
    {stage : Stage (AudioProcessingImpl cores) Exit}
    {state : AudioProcessingImpl cores × Data}
    (same : (stage state.1).1.frameParameters = state.1.frameParameters) :
    ((onModule stage state).1.1.frameParameters,
        (onModule stage state).1.2) =
      (state.1.frameParameters, state.2) :=
  congrArg (fun parameters => (parameters, state.2)) same

/-- Nothing that comes before the components touches frame or parameters. -/
theorem parameters_of_mem_prepareStages
    (created : Creations) :
    ∀ stage ∈ @prepareStages cores created,
      ∀ state : AudioProcessingImpl cores × AudioFrame,
        ((stage state).1.1.frameParameters, (stage state).1.2) =
          (state.1.frameParameters, state.2) := by
  simp only [prepareStages, List.forall_mem_cons, List.not_mem_nil,
    false_imp_iff, implies_true, and_true]
  refine ⟨?drain, fun _ => rfl, ?format, fun _ => rfl, ?load⟩
  case drain =>
      exact fun state =>
        parameters_onModule (frameParameters_readQueuedRenderData _)
  case format =>
      exact fun state =>
        parameters_onModule (frameParameters_maybeInitialize created _ _)
  case load =>
      intro state
      unfold loadFrame
      split <;> rfl

/--
A call that fails before the components run has read the queued render data and
initialised the module for the frame at most.
-/
theorem prepareStages_of_error
    {created : Creations}
    {apm reached : AudioProcessingImpl cores}
    {frame written : AudioFrame}
    {code : Error}
    (failed :
      runStages (prepareStages created) (apm, frame) =
        ((reached, written), some (.error code))) :
    let drained := (readQueuedRenderData apm).1
    reached = drained ∨
      reached =
        (maybeInitialize created (drained.captureConfig frame)
          drained).1 := by
  intro drained
  rcases stopped_cons failed with drain | ⟨-, failed⟩
  · exact .inl (congrArg (fun ran => ran.1.1) drain).symm
  rcases stopped_cons failed with rate | ⟨-, failed⟩
  · exact .inl (congrArg (fun ran => ran.1.1) rate).symm
  rcases stopped_cons failed with format | ⟨-, failed⟩
  · exact .inr (congrArg (fun ran => ran.1.1) format).symm
  rcases stopped_cons failed with length | ⟨-, failed⟩
  · exact .inr (congrArg (fun ran => ran.1.1) length).symm
  refine absurd (congrArg Prod.snd failed) (runStages_ne_of_never ?_ _)
  refine List.forall_mem_singleton.mpr fun state => ?_
  unfold loadFrame
  split <;> simp

end Preparation

section Chain

/-- The stages of `ProcessStreamLocked` before the gain control's last one. -/
def earlyStages
    (dataProcessed : Bool) :
    List (Stage (AudioProcessingImpl cores) Exit) :=
  [maybeUpdateHistograms,
    splitCapture dataProcessed,
    filterCapture,
    gainCapture GainControl.analyzeCaptureAudio,
    noiseCapture NoiseSuppression.analyzeCaptureAudio,
    echoCapture,
    referenceCapture,
    noiseCapture NoiseSuppression.processCaptureAudio,
    mobileCapture,
    voiceCapture]

theorem captureStages_eq (dataProcessed : Bool) :
    @captureStages cores dataProcessed =
      earlyStages dataProcessed ++
        gainProcess ::
          [mergeCapture dataProcessed, estimateLevel, clearStreamDelay] :=
  rfl

/-- None of them touches the parameters of the frame. -/
theorem parameters_of_mem_earlyStages
    (dataProcessed : Bool) :
    ∀ stage ∈ @earlyStages cores dataProcessed,
      ∀ apm, (stage apm).1.frameParameters = apm.frameParameters := by
  unfold earlyStages
  refine forall_mem_stages_cons (fun apm => ?histograms) ?_
  case histograms =>
      simp only [maybeUpdateHistograms]
      split
      · rfl
      · split <;> rfl
  refine forall_mem_stages_cons (fun apm => ?split) ?_
  case split =>
      unfold splitCapture
      split <;> rfl
  refine forall_mem_stages_cons (fun _ => rfl) ?_
  refine forall_mem_stages_cons (fun apm => ?analyze) ?_
  case analyze =>
      simp only [gainCapture, frameParameters,
        GainControl.wasAnalogLevelSet_analyzeCaptureAudio]
  refine forall_mem_stages_cons (fun _ => rfl) ?_
  refine forall_mem_stages_cons (fun _ => rfl) ?_
  refine forall_mem_stages_cons (fun apm => ?reference) ?_
  case reference =>
      unfold referenceCapture
      split <;> rfl
  refine forall_mem_stages_cons (fun _ => rfl) ?_
  refine forall_mem_stages_cons (fun _ => rfl) ?_
  exact forall_mem_stages_cons (fun _ => rfl) (List.forall_mem_nil _)

/-- A capture chain that stops leaves the parameters of the frame. -/
theorem frameParameters_processStreamLocked
    {apm reached : AudioProcessingImpl cores}
    {exit : Exit}
    (stopped : processStreamLocked apm = (reached, some exit)) :
    reached.frameParameters = apm.frameParameters := by
  rw [processStreamLocked, captureStages_eq] at stopped
  refine
    frame_of_stopped frameParameters
      (parameters_of_mem_earlyStages apm.isDataProcessed) ?_ ?_ stopped
  · intro state failed
    simp only [gainProcess, gainCapture, frameParameters,
      GainControl.wasAnalogLevelSet_processCaptureAudio failed]
  · have passes : (none : Option Exit) ≠ some exit :=
      (Option.some_ne_none exit).symm
    refine forall_mem_stages_cons (fun _ => passes) ?_
    refine forall_mem_stages_cons (fun _ => passes) ?_
    exact forall_mem_stages_cons (fun _ => passes) (List.forall_mem_nil _)

end Chain

/-- Storing a frame fails in no other way than by not returning. -/
theorem storeFrame_never_returns_error
    (code : Error)
    (state : AudioProcessingImpl cores × AudioFrame) :
    (storeFrame state).2 ≠ some (.error code) := by
  simp only [storeFrame]
  split <;> simp

/--
A `ProcessStream` call that returns an error has changed neither the frame nor
the parameters that were set for it.  Either no component has run, and the call
has read the queued render data and initialised the module for the frame at most;
or the components up to the one that failed have run once each, in order, and no
later one has.
-/
theorem processStream_of_error
    {created : Creations}
    {apm reached : AudioProcessingImpl cores}
    {frame written : AudioFrame}
    {code : Error}
    (failed :
      processStream created (apm, frame) =
        ((reached, written), some (.error code))) :
    written = frame ∧
      reached.frameParameters = apm.frameParameters ∧
      ((let drained := (readQueuedRenderData apm).1
        reached = drained ∨
          reached =
            (maybeInitialize created (drained.captureConfig frame)
              drained).1) ∨
        ∃ loaded before stage after between,
          runStages (prepareStages created) (apm, frame) =
              ((loaded, frame), none) ∧
            captureStages loaded.isDataProcessed =
              before ++ stage :: after ∧
            runStages before loaded = (between, none) ∧
            stage between = (reached, some (.error code))) := by
  rw [processStream, processStreamStages] at failed
  have kept :
      (reached.frameParameters, written) = (apm.frameParameters, frame) := by
    refine
      frame_of_stopped
        (fun state : AudioProcessingImpl cores × AudioFrame =>
          (state.1.frameParameters, state.2))
        (parameters_of_mem_prepareStages created) ?_ ?_ failed
    · intro state stopped
      obtain ⟨exit, exits⟩ := Option.ne_none_iff_exists'.mp stopped
      exact
        parameters_onModule
          (frameParameters_processStreamLocked
            (stage_of_onModule (Prod.ext rfl exits)))
    · exact
        List.forall_mem_singleton.mpr (storeFrame_never_returns_error code)
  obtain ⟨parameters, rfl⟩ := Prod.mk.inj kept
  refine ⟨rfl, parameters, ?_⟩
  obtain ⟨⟨loaded, after⟩, outcome, prepared⟩ :
      ∃ state outcome,
        runStages (prepareStages created) (apm, written) =
          (state, outcome) :=
    ⟨_, _, rfl⟩
  cases outcome with
  | some exit =>
      left
      rw [runStages_append_of_some prepared] at failed
      rw [failed] at prepared
      exact prepareStages_of_error prepared
  | none =>
      right
      have same :=
        runStages_frame
          (fun state : AudioProcessingImpl cores × AudioFrame =>
            (state.1.frameParameters, state.2))
          (parameters_of_mem_prepareStages created) (apm, written)
      rw [prepared] at same
      obtain rfl : after = written := congrArg Prod.snd same
      rw [runStages_append_of_none prepared] at failed
      rcases stopped_cons failed with chain | ⟨-, stored⟩
      · have stopped := stage_of_onModule chain
        rw [processStreamLocked] at stopped
        obtain ⟨before, stage, later, between, shape, ran, fails⟩ :=
          exists_stage_of_stopped stopped
        exact
          ⟨loaded, before, stage, later, between, prepared, shape, ran, fails⟩
      · exact
          absurd (congrArg Prod.snd stored)
            (runStages_ne_of_never
              (List.forall_mem_singleton.mpr
                (storeFrame_never_returns_error code)) _)

/-- The echo canceller has no delay, and the frame is as it was. -/
theorem processStream_of_error_undelayed :
    let frame : AudioFrame := .silent .kSampleRate16kHz 1
    let source : AudioProcessingImpl .passThrough :=
      (perform .all (.enable .echoCancellation true) create).1
    let failed := processStream .all (source, frame)
    failed.2 = some (.error .kStreamParameterNotSetError) ∧
      failed.1.2 = frame := by
  intro frame source failed
  have stopped :
      failed.2 = some (.error .kStreamParameterNotSetError) := by
    decide +kernel
  clear_value frame source
  exact ⟨stopped, (processStream_of_error (eq_of_exit stopped)).1⟩

/--
The high-pass filter has processed a frame that the echo canceller then refuses
for want of a delay.  With the delay set, the same frame comes out otherwise than
it would have at the first call.
-/
theorem processStream_error_not_atomic :
    let frame : AudioFrame :=
      ((AudioFrame.silent .kSampleRate16kHz 1).write [16384]).getD .empty
    let records : List (CallRecord .passThrough) :=
      [⟨.enable .highPassFilter true, .all, none⟩,
        ⟨.enable .echoCancellation true, .all, none⟩]
    let source := stateAfter create records
    let failed := processStream .all (source, frame)
    let retried :=
      processStream .all ((setStreamDelayMs 50 failed.1.1).1, frame)
    let first := processStream .all ((setStreamDelayMs 50 source).1, frame)
    Path apiStep create (movesOf create records) source ∧
      failed.2 = some (.error .kStreamParameterNotSetError) ∧
      failed.1.1.highPassFilter ≠ source.highPassFilter ∧
      retried.2 = none ∧ first.2 = none ∧
      retried.1.2.data ≠ first.1.2.data := by
  intro frame records source failed retried first
  exact
    ⟨path_movesOf (by decide +kernel), by decide +kernel,
      by decide +kernel, by decide +kernel, by decide +kernel,
      by decide +kernel⟩

end AudioProcessingImpl

end ApmSdk.AudioProcessing
