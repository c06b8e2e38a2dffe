import ApmSdk.CaptureErrors
import ApmSdk.CaptureLevels

namespace ApmSdk.AudioProcessing.GainControl

/-!
# The recommended level over a run of the gain control

A caller of the adaptive analog mode feeds the level that `stream_analog_level()` has
returned back before every capture frame.
-/

variable {cores : Cores}

/-! ## One frame of such a caller -/

/-- A buffer made for the formats. -/
def FrameFits
    (formats : StreamFormats)
    (audio : AudioBuffer cores) : Prop :=
  audio.procNumFrames = formats.fwdProcFrames ∧
    audio.numProcChannels = formats.numProcChannels

/-- `set_stream_analog_level(stream_analog_level())` -/
def feedBackLevel : Stage (GainControl cores × AudioBuffer cores) Exit :=
  fun state =>
    let ran := setStreamAnalogLevel state.1.analogCaptureLevel state.1
    ((ran.1, state.2), ran.2)

/-- What the other components do to the samples between the two functions. -/
def otherComponents
    (others : cores.Samples → cores.Samples) :
    Stage (GainControl cores × AudioBuffer cores) Exit :=
  fun state =>
    ((state.1, { state.2 with samples := others state.2.samples }), none)

/-- A capture frame for which the level is fed back. -/
def feedBackFrame
    (others : cores.Samples → cores.Samples)
    (echo : Bool) : Stage (GainControl cores × AudioBuffer cores) Exit :=
  runStages
    [feedBackLevel, analyzeCaptureAudio, otherComponents others,
      processCaptureAudio echo]

variable {keeping : LevelKeeping cores}
variable {formats : StreamFormats}
variable {agc : GainControl cores}
variable {audio : AudioBuffer cores}

/-- The handles take the frames of the formats. -/
theorem acceptsFrame_of_fits
    {handle : AgcHandle cores}
    (fits : FrameFits formats audio)
    (ready : handle.setup = HandleSetup.at formats.fwdProcRate) :
    handle.acceptsFrame audio.numFramesPerBand = true ∧
      handle.acceptsMicFrame audio.numFramesPerBand = true := by
  have rate : handle.fs = formats.fwdProcRate.hz :=
    congrArg HandleSetup.sampFreq ready
  have frames : audio.procNumFrames = calculateFrames formats.fwdProcRate.hz :=
    fits.1
  unfold AgcHandle.acceptsFrame AgcHandle.acceptsMicFrame
    AudioBuffer.numFramesPerBand AudioBuffer.numBands
  rw [rate, frames]
  cases formats.fwdProcRate <;> decide

/-- Analysing a frame that fits passes. -/
theorem analyzeCaptureAudio_passes
    (analog : agc.settings.mode = .kAdaptiveAnalog)
    (fits : FrameFits formats audio)
    (held : LevelHeld keeping formats agc) :
    (analyzeCaptureAudio (agc, audio)).2 = none := by
  unfold analyzeCaptureAudio
  dsimp only
  split
  · rfl
  next enabled =>
    rw [Bool.not_eq_true', Bool.not_eq_false] at enabled
    have ready := held.ready enabled
    have channels : audio.numChannels = agc.numHandles :=
      fits.2.trans ready.numHandles.symm
    rw [if_neg (by simp [channels]), analog]
    refine
      (captureReady_captureLoop audio
        (fun index _ _ _ kept levels => addMicSlot_spec index kept levels)
        (ready.assignLevels held.contained)).2 ?_
    rintro index visited shared - ⟨handle, rfl, set, -⟩ -
    unfold addMicSlot
    dsimp only
    rw [(acceptsFrame_of_fits fits set).2]
    rfl

/-- Processing a frame that fits passes once the level has been set. -/
theorem processCaptureAudio_passes
    (echo : Bool)
    (told : agc.wasAnalogLevelSet = true)
    (fits : FrameFits formats audio)
    (held : LevelHeld keeping formats agc) :
    (processCaptureAudio echo (agc, audio)).2 = none := by
  unfold processCaptureAudio
  dsimp only
  split
  · rfl
  next enabled =>
    rw [Bool.not_eq_true', Bool.not_eq_false] at enabled
    have ready := held.ready enabled
    have channels : audio.numChannels = agc.numHandles :=
      fits.2.trans ready.numHandles.symm
    rw [if_neg (by simp [told]), if_neg (by simp [channels])]
    have passes :=
      (@captureReady_captureLoop _ keeping formats
        { agc with streamIsSaturated := false }
        (processSlot audio.numFramesPerBand echo) audio
        (fun index _ _ inLoop kept levels =>
          processSlot_spec index inLoop kept levels)
        ⟨ready.numHandles, ready.slots, ready.levelCount, ready.levels⟩).2
    have completed :
        (captureLoop (processSlot audio.numFramesPerBand echo)
          ({ agc with streamIsSaturated := false }, audio)).2 = none := by
      refine passes ?_
      rintro index visited shared inLoop ⟨handle, rfl, set, keeps⟩ levels
      obtain ⟨atLeast, atMost⟩ := levels.getD inLoop
      obtain ⟨-, result, answer, -⟩ :=
        keeping.process shared.samples index
          (shared.captureLevels.getD index 0) echo keeps atLeast atMost
      unfold processSlot
      dsimp only
      rw [(acceptsFrame_of_fits fits set).1, answer]
      rfl
    split
    next failed exit ran =>
      rw [ran] at completed
      cases completed
    next => rfl

/-- A frame for which a held level is fed back passes. -/
theorem feedBackFrame_passes
    (others : cores.Samples → cores.Samples)
    (echo : Bool)
    (analog : agc.settings.mode = .kAdaptiveAnalog)
    (fits : FrameFits formats audio)
    (held : LevelHeld keeping formats agc) :
    (feedBackFrame others echo (agc, audio)).2 = none := by
  have fedBack :
      feedBackLevel (agc, audio) =
        (({ agc with wasAnalogLevelSet := true }, audio), none) := by
    unfold feedBackLevel setStreamAnalogLevel
    dsimp only
    rw [if_neg (not_or.mpr ⟨Int.not_lt.mpr held.contained.1,
      Int.not_lt.mpr held.contained.2⟩)]
  have told :
      LevelHeld keeping formats { agc with wasAnalogLevelSet := true } :=
    ⟨held.ordered, held.contained, fun on =>
      ⟨(held.ready on).numHandles, (held.ready on).slots,
        (held.ready on).levelCount, (held.ready on).levels⟩⟩
  have analyzePasses :
      (analyzeCaptureAudio
        ({ agc with wasAnalogLevelSet := true }, audio)).2 = none :=
    analyzeCaptureAudio_passes analog fits told
  have analyzedHeld :=
    analogHeld_analyzeCaptureAudio audio (fun _ => told)
  have kept :=
    kept_analyzeCaptureAudio
      ({ agc with wasAnalogLevelSet := true }, audio)
  have stillSet :=
    wasAnalogLevelSet_analyzeCaptureAudio
      ({ agc with wasAnalogLevelSet := true }, audio)
  unfold feedBackFrame
  rw [runStages_cons_of_none (by rw [fedBack]), fedBack,
    runStages_cons_of_none analyzePasses]
  generalize
    analyzeCaptureAudio ({ agc with wasAnalogLevelSet := true }, audio) = ran
    at analyzedHeld kept stillSet ⊢
  obtain ⟨⟨analyzed, after⟩, exit⟩ := ran
  rw [runStages_cons_of_none rfl]
  have sizes := kept.sizes
  have afterFits :
      FrameFits formats
        ({ after with samples := others after.samples } :
          AudioBuffer cores) :=
    ⟨(congrArg BufferSizes.procNumFrames sizes).trans fits.1,
      (congrArg BufferSizes.numProcChannels sizes).trans fits.2⟩
  have passes :=
    processCaptureAudio_passes echo stillSet afterFits
      (analyzedHeld ((congrArg GainSettings.mode kept.settings).trans analog))
  unfold otherComponents
  dsimp only at passes ⊢
  rw [runStages_cons_of_none passes]
  rfl

/-! ## Runs -/

/-- The calls on a `GainControlImpl`; initialising comes with the formats of the
module. -/
inductive GainCall (cores : Cores) where
  | enable (flag : Bool)
  | initializeWith (formats : StreamFormats)
  | setMode (mode : GainMode)
  | setAnalogLevelLimits (minimum maximum : Int)
  | setStreamAnalogLevel (level : Int)
  | setTargetLevelDbfs (level : Int)
  | setCompressionGainDb (gain : Int)
  | enableLimiter (enable : Bool)
  | processRenderAudio (audio : AudioBuffer cores)
  | readQueuedRenderData
  | analyzeCaptureAudio (audio : AudioBuffer cores)
  | processCaptureAudio (audio : AudioBuffer cores) (streamHasEcho : Bool)

/-- The component and the formats it works with. -/
structure GainState (cores : Cores) where
  agc : GainControl cores
  formats : StreamFormats

/-- The state after a call, and how the call ends early. -/
def GainState.perform
    (state : GainState cores) :
    GainCall cores → GainState cores × Option Exit
  | .enable flag =>
      let ran := GainControl.enable state.formats flag state.agc
      ({ state with agc := ran.1 }, ran.2)
  | .initializeWith formats =>
      let ran := initializeComponent formats state.agc
      (⟨ran.1, formats⟩, ran.2)
  | .setMode mode =>
      let ran := GainControl.setMode state.formats mode state.agc
      ({ state with agc := ran.1 }, ran.2)
  | .setAnalogLevelLimits minimum maximum =>
      let ran :=
        GainControl.setAnalogLevelLimits state.formats minimum maximum
          state.agc
      ({ state with agc := ran.1 }, ran.2)
  | .setStreamAnalogLevel level =>
      let ran := GainControl.setStreamAnalogLevel level state.agc
      ({ state with agc := ran.1 }, ran.2)
  | .setTargetLevelDbfs level =>
      let ran := GainControl.setTargetLevelDbfs state.formats level state.agc
      ({ state with agc := ran.1 }, ran.2)
  | .setCompressionGainDb gain =>
      let ran :=
        GainControl.setCompressionGainDb state.formats gain state.agc
      ({ state with agc := ran.1 }, ran.2)
  | .enableLimiter enable =>
      let ran := GainControl.enableLimiter state.formats enable state.agc
      ({ state with agc := ran.1 }, ran.2)
  | .processRenderAudio audio =>
      let ran := GainControl.processRenderAudio audio state.agc
      ({ state with agc := ran.1 }, ran.2)
  | .readQueuedRenderData =>
      let ran := GainControl.readQueuedRenderData state.agc
      ({ state with agc := ran.1 }, ran.2)
  | .analyzeCaptureAudio audio =>
      let ran := GainControl.analyzeCaptureAudio (state.agc, audio)
      ({ state with agc := ran.1.1 }, ran.2)
  | .processCaptureAudio audio streamHasEcho =>
      let ran :=
        GainControl.processCaptureAudio streamHasEcho (state.agc, audio)
      ({ state with agc := ran.1.1 }, ran.2)

/-- One call of a run, whatever it returns. -/
def GainState.step
    (state : GainState cores)
    (call : GainCall cores) : Option (GainState cores) :=
  some (state.perform call).1

/--
A call does not take the limits away from the level: in the adaptive analog mode limits
are set that differ and are around the level, and that mode is only chosen with
such limits.
-/
def GainCall.AroundLevel
    (state : GainState cores) : GainCall cores → Prop
  | .setAnalogLevelLimits minimum maximum =>
      state.agc.settings.mode = .kAdaptiveAnalog →
        minimum < maximum ∧
          minimum ≤ state.agc.analogCaptureLevel ∧
            state.agc.analogCaptureLevel ≤ maximum
  | .setMode .kAdaptiveAnalog =>
      state.agc.settings.minimumCaptureLevel <
          state.agc.settings.maximumCaptureLevel ∧
        state.agc.settings.Contains state.agc.analogCaptureLevel
  | _ => True

/-- A setting that is only handed to the library keeps the level held. -/
theorem analogHeld_configure_settings
    {settings : GainSettings}
    (mode : settings.mode = agc.settings.mode)
    (minimum :
      settings.minimumCaptureLevel = agc.settings.minimumCaptureLevel)
    (maximum :
      settings.maximumCaptureLevel = agc.settings.maximumCaptureLevel)
    (held : AnalogHeld keeping formats agc) :
    AnalogHeld keeping formats
      (configure formats { agc with settings := settings }).1 := by
  apply analogHeld_configure
  intro analog
  obtain ⟨ordered, contained, ready⟩ := held (mode.symm.trans analog)
  have within : ∀ {level}, agc.settings.Contains level → settings.Contains level := by
    intro level inside
    unfold GainSettings.Contains
    rw [minimum, maximum]
    exact inside
  refine ⟨?_, within contained, fun on => ?_⟩
  · dsimp only
    rw [minimum, maximum]
    exact ordered
  · have before := ready on
    have slots := before.slots
    unfold SlotKeeps at slots
    rw [← minimum, ← maximum] at slots
    exact ⟨before.numHandles, slots, before.levelCount, fun level member =>
      within (before.levels level member)⟩

/-- Every such call keeps the level held. -/
theorem analogHeld_perform
    {state : GainState cores}
    {call : GainCall cores}
    (around : call.AroundLevel state)
    (held : AnalogHeld keeping state.formats state.agc) :
    AnalogHeld keeping (state.perform call).1.formats
      (state.perform call).1.agc := by
  cases call with
  | enable flag =>
      exact analogHeld_enable flag held
  | initializeWith formats =>
      intro analog
      have same := (initializeComponent_base formats state.agc).2.2
      have before : state.agc.settings.mode = .kAdaptiveAnalog :=
        (congrArg GainSettings.mode same).symm.trans analog
      obtain ⟨ordered, contained, -⟩ := held before
      exact levelHeld_initializeComponent before ordered contained
  | setMode mode =>
      refine analogHeld_setMode fun analog => ?_
      subst analog
      exact around
  | setAnalogLevelLimits minimum maximum =>
      exact analogHeld_setAnalogLevelLimits around held
  | setStreamAnalogLevel level =>
      exact analogHeld_setStreamAnalogLevel level held
  | setTargetLevelDbfs level =>
      dsimp only [GainState.perform]
      unfold GainControl.setTargetLevelDbfs
      split
      · exact analogHeld_configure_settings rfl rfl rfl held
      · exact held
  | setCompressionGainDb gain =>
      dsimp only [GainState.perform]
      unfold GainControl.setCompressionGainDb
      split
      · exact analogHeld_configure_settings rfl rfl rfl held
      · exact held
  | enableLimiter enable =>
      exact analogHeld_configure_settings rfl rfl rfl held
  | processRenderAudio audio =>
      exact analogHeld_processRenderAudio audio held
  | readQueuedRenderData =>
      exact analogHeld_readQueuedRenderData held
  | analyzeCaptureAudio audio =>
      exact analogHeld_analyzeCaptureAudio audio held
  | processCaptureAudio audio streamHasEcho =>
      exact analogHeld_processCaptureAudio audio streamHasEcho held

/-! ## The level that the caller is told -/

/-- The recommended level is within the limits, and feeding it back is accepted for every
frame of the current formats. -/
structure LevelAnswers (state : GainState cores) : Prop where
  inLimits : state.agc.settings.Contains state.agc.analogCaptureLevel
  framePasses :
    ∀ audio others echo,
      FrameFits state.formats audio →
        (feedBackFrame others echo (state.agc, audio)).2 = none

/-- A held level answers. -/
theorem levelAnswers_of_held
    {state : GainState cores}
    (analog : state.agc.settings.mode = .kAdaptiveAnalog)
    (held : AnalogHeld keeping state.formats state.agc) :
    LevelAnswers state where
  inLimits := (held analog).contained
  framePasses := fun _ others echo fits =>
    feedBackFrame_passes others echo analog fits (held analog)

/-- A new component holds its level. -/
theorem analogHeld_create :
    AnalogHeld keeping formats create := by
  intro _
  have limits : GainSettings.default.Contains 0 := by decide
  have differ :
      GainSettings.default.minimumCaptureLevel <
        GainSettings.default.maximumCaptureLevel := by
    decide
  exact ⟨differ, limits, fun enabled => nomatch enabled⟩

/--
With the gain control of `analog_agc.c`, the level answers in every state in the adaptive
analog mode of a run that keeps the limits around it.
-/
theorem levelAnswers_of_aroundLevel
    (cores : Cores)
    (access : BandAccess cores)
    (formats : StreamFormats)
    {moves :
      List (Move (GainState (cores.withLegacyAgc access))
        (GainCall (cores.withLegacyAgc access)))}
    {final : GainState (cores.withLegacyAgc access)}
    (path : Path (stepOf GainState.step) ⟨create, formats⟩ moves final)
    (around : ∀ move ∈ moves, move.label.AroundLevel move.source) :
    (∀ move ∈ moves,
        move.target.agc.settings.mode = .kAdaptiveAnalog →
          LevelAnswers move.target) ∧
      (final.agc.settings.mode = .kAdaptiveAnalog → LevelAnswers final) := by
  have keeping := levelKeeping_legacyAgc cores access
  have preserved :
      ∀ {source : GainState (cores.withLegacyAgc access)} {label target},
        AnalogHeld keeping source.formats source.agc →
        label.AroundLevel source →
        stepOf GainState.step source label target →
          AnalogHeld keeping target.formats target.agc := by
    intro source label target held allowed taken
    obtain rfl : (source.perform label).1 = target := Option.some.inj taken
    exact analogHeld_perform allowed held
  obtain ⟨along, last⟩ :=
    path.invariant_of_guard
      (fun state => AnalogHeld keeping state.formats state.agc)
      (fun source label => label.AroundLevel source)
      preserved analogHeld_create around
  exact ⟨fun move member analog =>
      levelAnswers_of_held analog (along move member).2,
    fun analog => levelAnswers_of_held analog last⟩

/-- Limits around the level, set before the component is enabled. -/
theorem levelAnswers_of_aroundLevel_narrowed :
    let access := BandAccess.untouched .passThrough
    let initial : GainState (Cores.passThrough.withLegacyAgc access) :=
      ⟨create, .initial⟩
    let narrowed := (initial.perform (.setAnalogLevelLimits 0 200)).1
    let enabled := (narrowed.perform (.enable true)).1
    LevelAnswers enabled := by
  intro access initial narrowed enabled
  have path :
      Path (stepOf GainState.step) initial
        [⟨initial, .setAnalogLevelLimits 0 200, narrowed⟩,
          ⟨narrowed, .enable true, enabled⟩] enabled :=
    .cons _ rfl (.cons _ rfl (.nil _))
  refine
    (levelAnswers_of_aroundLevel .passThrough access .initial path ?_).2
      (by decide +kernel)
  simp only [List.forall_mem_cons]
  exact ⟨fun _ => by decide +kernel, trivial, List.forall_mem_nil _⟩

/-- A level outside the limits is refused when it is fed back, and stays where it is. -/
theorem feedBackFrame_of_outside
    (others : cores.Samples → cores.Samples)
    (echo : Bool)
    (outside : ¬ agc.settings.Contains agc.analogCaptureLevel) :
    feedBackFrame others echo (agc, audio) =
      (({ agc with wasAnalogLevelSet := true }, audio),
        some (.error .kBadParameterError)) := by
  have refused :
      feedBackLevel (agc, audio) =
        (({ agc with wasAnalogLevelSet := true }, audio),
          some (.error .kBadParameterError)) := by
    unfold feedBackLevel setStreamAnalogLevel
    dsimp only
    rw [if_pos]
    by_contra within
    rw [not_or, Int.not_lt, Int.not_lt] at within
    exact outside within
  unfold feedBackFrame
  rw [runStages, refused]

/-- So are all later frames of the caller. -/
theorem feedBackFrame_fails_forever
    (others : cores.Samples → cores.Samples)
    (echo : Bool)
    (outside : ¬ agc.settings.Contains agc.analogCaptureLevel)
    (frames : List (AudioBuffer cores)) :
    let after :=
      frames.foldl
        (fun agc audio => (feedBackFrame others echo (agc, audio)).1.1) agc
    ∀ audio,
      (feedBackFrame others echo (after, audio)).2 =
        some (.error .kBadParameterError) := by
  induction frames generalizing agc with
  | nil =>
      intro after audio
      dsimp only [after, List.foldl_nil]
      rw [feedBackFrame_of_outside others echo outside]
  | cons frame rest inductionHypothesis =>
      rw [List.foldl_cons, feedBackFrame_of_outside others echo outside]
      exact inductionHypothesis outside

/--
An enabled component takes the limits 200 to 255, but keeps recommending the level 0.  A
caller that feeds it back fails with every frame.
-/
theorem not_levelAnswers_of_raisedLimits :
    let access := BandAccess.untouched .passThrough
    let initial : GainState (Cores.passThrough.withLegacyAgc access) :=
      ⟨create, .initial⟩
    let enabled := initial.perform (.enable true)
    let raised := enabled.1.perform (.setAnalogLevelLimits 200 255)
    Path (stepOf GainState.step) initial
        [⟨initial, .enable true, enabled.1⟩,
          ⟨enabled.1, .setAnalogLevelLimits 200 255, raised.1⟩] raised.1 ∧
      enabled.2 = none ∧
      raised.2 = none ∧
      raised.1.agc.settings.mode = .kAdaptiveAnalog ∧
      ¬ raised.1.agc.settings.Contains raised.1.agc.analogCaptureLevel ∧
      ∀ (frames : List (AudioBuffer (Cores.passThrough.withLegacyAgc access)))
        (echo : Bool),
        let after :=
          frames.foldl
            (fun agc audio => (feedBackFrame id echo (agc, audio)).1.1)
            raised.1.agc
        ∀ audio,
          (feedBackFrame id echo (after, audio)).2 =
            some (.error .kBadParameterError) := by
  intro access initial enabled raised
  have outside :
      ¬ raised.1.agc.settings.Contains raised.1.agc.analogCaptureLevel := by
    decide +kernel
  exact ⟨.cons _ rfl (.cons _ rfl (.nil _)), by decide +kernel,
    by decide +kernel, by decide +kernel, outside,
    fun frames echo => feedBackFrame_fails_forever id echo outside frames⟩

end ApmSdk.AudioProcessing.GainControl
