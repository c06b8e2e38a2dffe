import ApmSdk.LegacyGainCore
import ApmSdk.ComponentFrames
import ApmSdk.Readiness
import ApmSdk.LabelledPath
import Mathlib.Algebra.Order.BigOperators.Group.List
import Mathlib.Algebra.Order.Ring.Int

namespace ApmSdk.AudioProcessing

/-!
# The recommended level of the gain control

In the adaptive analog mode the component keeps the level that
`stream_analog_level()` returns next to the limits, and the library instances keep
copies of both.  Initialising brings the copies up to date, but leaves the level of
the component as it is.
-/

/-- The level lies between the configured limits. -/
def GainSettings.Contains
    (settings : GainSettings)
    (level : Int) : Prop :=
  settings.minimumCaptureLevel ≤ level ∧ level ≤ settings.maximumCaptureLevel

instance (settings : GainSettings) (level : Int) :
    Decidable (settings.Contains level) :=
  inferInstanceAs (Decidable (_ ∧ _))

/-- The average of levels within limits is within them. -/
theorem GainSettings.contains_average
    {settings : GainSettings}
    {levels : List Int}
    (some : levels ≠ [])
    (within : ∀ level ∈ levels, settings.Contains level) :
    settings.Contains (levels.sum.tdiv levels.length) := by
  have positive : 0 < (levels.length : Int) := by
    exact_mod_cast List.length_pos_of_ne_nil some
  have lower :
      levels.length • settings.minimumCaptureLevel ≤ levels.sum :=
    List.card_nsmul_le_sum levels _ fun level member =>
      (within level member).1
  have upper :
      levels.sum ≤ levels.length • settings.maximumCaptureLevel :=
    List.sum_le_card_nsmul levels _ fun level member =>
      (within level member).2
  rw [nsmul_eq_mul] at lower upper
  have nonneg : 0 ≤ levels.sum :=
    (mul_nonneg positive.le settings.levelsInRange.1).trans lower
  unfold Contains
  rw [Int.tdiv_eq_ediv_of_nonneg nonneg]
  exact ⟨Int.le_ediv_of_mul_le positive (by rwa [mul_comm]),
    Int.ediv_le_of_le_mul positive (by rwa [mul_comm])⟩

namespace GainControl

variable {cores : Cores}
variable (keeping : LevelKeeping cores)
variable (formats : StreamFormats)

/-- A handle that has been initialised for the limits of the settings. -/
def SlotKeeps
    (settings : GainSettings)
    (slot : Option (AgcHandle cores)) : Prop :=
  ∃ handle,
    slot = some handle ∧
      handle.setup = HandleSetup.at formats.fwdProcRate ∧
        keeping.keeps settings.minimumCaptureLevel
          settings.maximumCaptureLevel handle.core

/-- An enabled component that has been initialised for its limits. -/
structure CaptureReady (agc : GainControl cores) : Prop where
  numHandles : agc.numHandles = numHandlesRequired formats
  slots :
    ProcessingComponent.AllSlots (SlotKeeps keeping formats agc.settings)
      agc.toProcessingComponent
  levelCount : agc.captureLevels.length = agc.numHandles
  levels : ∀ level ∈ agc.captureLevels, agc.settings.Contains level

/-- In the adaptive analog mode the level is within limits that the library takes. -/
structure LevelHeld (agc : GainControl cores) : Prop where
  ordered :
    agc.settings.minimumCaptureLevel < agc.settings.maximumCaptureLevel
  contained : agc.settings.Contains agc.analogCaptureLevel
  ready : agc.enabled = true → CaptureReady keeping formats agc

/-- The same in the mode to which it applies. -/
def AnalogHeld (agc : GainControl cores) : Prop :=
  agc.settings.mode = .kAdaptiveAnalog → LevelHeld keeping formats agc

variable {keeping : LevelKeeping cores}
variable {formats : StreamFormats}
variable {agc : GainControl cores}

/-! ## Initialising and configuring -/

theorem slotKeeps_configureHandle
    {settings : GainSettings}
    {slot : Option (AgcHandle cores)}
    (kept : SlotKeeps keeping formats settings slot) :
    SlotKeeps keeping formats settings (agc.configureHandle slot).1 := by
  obtain ⟨handle, rfl, ready, keeps⟩ := kept
  have initialized : handle.initFlag = true :=
    congrArg HandleSetup.initFlag ready
  refine ⟨(handle.setConfig agc.settings.config).1, rfl, ?_, ?_⟩
  · rw [AgcHandle.setup_setConfig]
    exact ready
  · unfold AgcHandle.setConfig
    rw [initialized]
    exact keeping.setConfig agc.settings.config keeps

theorem slotKeeps_initializeSlot
    (analog : agc.settings.mode = .kAdaptiveAnalog)
    (ordered :
      agc.settings.minimumCaptureLevel < agc.settings.maximumCaptureLevel)
    (index : Nat)
    (slot : Option (AgcHandle cores)) :
    SlotKeeps keeping formats agc.settings
      (ProcessingComponent.initializeSlot (agc.methods formats) index
        (slot, ())).1.1 := by
  obtain ⟨nonneg, -, small⟩ := agc.settings.levelsInRange
  unfold ProcessingComponent.initializeSlot
  cases slot with
  | none =>
      refine ⟨_, rfl, rfl, ?_⟩
      dsimp only [methods, AgcHandle.init, AgcHandle.levelRange]
      rw [analog]
      exact keeping.init _ _ _ formats.fwdProcRate nonneg ordered small
  | some handle =>
      refine ⟨_, rfl, rfl, ?_⟩
      dsimp only [methods, AgcHandle.init, AgcHandle.levelRange]
      rw [analog]
      exact keeping.init _ _ _ formats.fwdProcRate nonneg ordered small

/-- `Initialize` of an enabled component whose base class's passes. -/
theorem initializeComponent_of_enabled
    (enabled : agc.enabled = true)
    (passed :
      (agc.toProcessingComponent.initializeComponent
        (agc.methods formats)).2 = none) :
    let base :=
      (agc.toProcessingComponent.initializeComponent (agc.methods formats)).1
    initializeComponent formats agc =
      ({ agc with
          toProcessingComponent := { base with renderSignalQueue := [] }
          captureLevels :=
            List.replicate base.numHandles agc.analogCaptureLevel },
        none) := by
  have stays :
      (agc.toProcessingComponent.initializeComponent
        (agc.methods formats)).1.enabled = true :=
    (ProcessingComponent.enabled_initializeComponent _ _).trans enabled
  unfold initializeComponent ProcessingComponent.initializeWithQueue
  generalize
    agc.toProcessingComponent.initializeComponent (agc.methods formats) = ran
    at passed stays ⊢
  obtain ⟨base, exit⟩ := ran
  dsimp only at passed stays
  subst passed
  simp [stays]

/-- Initialising in the adaptive analog mode holds the level, where the library takes
the limits and they contain it. -/
theorem levelHeld_initializeComponent
    (analog : agc.settings.mode = .kAdaptiveAnalog)
    (ordered :
      agc.settings.minimumCaptureLevel < agc.settings.maximumCaptureLevel)
    (contained : agc.settings.Contains agc.analogCaptureLevel) :
    LevelHeld keeping formats (initializeComponent formats agc).1 := by
  by_cases enabled : agc.enabled = true
  · have taken : agc.settings.takenByInit = true := by
      unfold GainSettings.takenByInit AgcHandle.levelRange
      rw [analog]
      exact decide_eq_true ordered
    have passed :=
      (initializeComponent_base formats agc).2.1.symm.trans
        (initializeComponent_passes agc fun _ => taken)
    obtain ⟨numHandles, slots⟩ :=
      @ProcessingComponent.allSlots_initializeComponent _ _
        (agc.methods formats) agc.toProcessingComponent
        (SlotKeeps keeping formats agc.settings)
        (fun index slot _ => slotKeeps_initializeSlot analog ordered index slot)
        (fun slot kept => slotKeeps_configureHandle kept)
        enabled passed
    rw [initializeComponent_of_enabled enabled passed]
    refine ⟨ordered, contained, fun _ => ⟨numHandles, slots, ?_, ?_⟩⟩
    · exact List.length_replicate ..
    · intro level member
      rw [List.eq_of_mem_replicate member]
      exact contained
  · have disabled : agc.enabled = false := Bool.not_eq_true _ ▸ enabled
    have same :
        (initializeComponent formats agc).1 = agc := by
      unfold initializeComponent ProcessingComponent.initializeWithQueue
      rw [ProcessingComponent.initializeComponent_of_disabled disabled]
      simp [disabled]
    rw [same]
    exact ⟨ordered, contained, fun on => absurd on enabled⟩

/-- Configuring keeps the level held. -/
theorem analogHeld_configure
    (held : AnalogHeld keeping formats agc) :
    AnalogHeld keeping formats (configure formats agc).1 := by
  intro analog
  obtain ⟨ordered, contained, ready⟩ := held analog
  have numHandles :
      (agc.toProcessingComponent.configure (agc.methods formats)).1.numHandles =
        agc.numHandles := by
    unfold ProcessingComponent.configure
    split <;> rfl
  have enabled :
      (agc.toProcessingComponent.configure (agc.methods formats)).1.enabled =
        agc.enabled := by
    unfold ProcessingComponent.configure
    split <;> rfl
  refine ⟨ordered, contained, fun on => ?_⟩
  have before := ready (enabled.symm.trans on)
  exact ⟨numHandles.trans before.numHandles,
    ProcessingComponent.allSlots_configure
      (fun slot kept => slotKeeps_configureHandle kept) before.slots,
    before.levelCount.trans numHandles.symm, before.levels⟩

/-- So does enabling or disabling. -/
theorem analogHeld_enable
    (flag : Bool)
    (held : AnalogHeld keeping formats agc) :
    AnalogHeld keeping formats (enable formats flag agc).1 := by
  have flagged :
      ∀ {component : GainControl cores} (on : Bool),
        AnalogHeld keeping formats component →
        (on = false ∨ component.enabled = true) →
          AnalogHeld keeping formats { component with enabled := on } := by
    intro component on componentHeld reason analog
    obtain ⟨ordered, contained, ready⟩ := componentHeld analog
    refine ⟨ordered, contained, fun isOn => ?_⟩
    have before :=
      ready (reason.resolve_left (by rw [show on = true from isOn]; decide))
    exact ⟨before.numHandles, before.slots, before.levelCount, before.levels⟩
  have initialised :
      AnalogHeld keeping formats
        (initializeComponent formats { agc with enabled := true }).1 := by
    intro analog
    rw [(initializeComponent_base formats _).2.2] at analog
    obtain ⟨ordered, contained, -⟩ := held analog
    exact levelHeld_initializeComponent analog ordered contained
  unfold enable
  rcases @enableComponent_cases _ (fun component : GainControl cores =>
      component.enabled)
      (fun on component => { component with enabled := on })
      (initializeComponent formats) flag agc with
    ⟨reason, ran⟩ | ⟨-, -, ⟨-, ran⟩ | ⟨exit, -, ran⟩⟩
  · rw [ran]
    exact flagged flag held reason
  · rw [ran]
    exact initialised
  · rw [ran]
    exact flagged false initialised (Or.inl rfl)

/-- A new mode keeps the level held when its limits allow it. -/
theorem analogHeld_setMode
    {mode : GainMode}
    (allowed :
      mode = .kAdaptiveAnalog →
        agc.settings.minimumCaptureLevel <
            agc.settings.maximumCaptureLevel ∧
          agc.settings.Contains agc.analogCaptureLevel) :
    AnalogHeld keeping formats (setMode formats mode agc).1 := by
  intro analog
  unfold setMode at analog ⊢
  rw [(initializeComponent_base formats _).2.2] at analog
  obtain ⟨ordered, contained⟩ := allowed analog
  exact levelHeld_initializeComponent analog ordered contained

/-- New limits keep the level held when they are around it. -/
theorem analogHeld_setAnalogLevelLimits
    {minimum maximum : Int}
    (allowed :
      agc.settings.mode = .kAdaptiveAnalog →
        minimum < maximum ∧
          minimum ≤ agc.analogCaptureLevel ∧
            agc.analogCaptureLevel ≤ maximum)
    (held : AnalogHeld keeping formats agc) :
    AnalogHeld keeping formats
      (setAnalogLevelLimits formats minimum maximum agc).1 := by
  unfold setAnalogLevelLimits
  split
  · intro analog
    rw [(initializeComponent_base formats _).2.2] at analog
    obtain ⟨ordered, contained⟩ := allowed analog
    exact levelHeld_initializeComponent analog ordered contained
  · exact held

/-- A level from outside is only taken within the limits. -/
theorem analogHeld_setStreamAnalogLevel
    (level : Int)
    (held : AnalogHeld keeping formats agc) :
    AnalogHeld keeping formats (setStreamAnalogLevel level agc).1 := by
  unfold setStreamAnalogLevel
  dsimp only
  split
  · intro analog
    obtain ⟨ordered, contained, ready⟩ := held analog
    exact ⟨ordered, contained, fun on =>
      ⟨(ready on).numHandles, (ready on).slots, (ready on).levelCount,
        (ready on).levels⟩⟩
  next within =>
    intro analog
    obtain ⟨ordered, -, ready⟩ := held analog
    rw [not_or, Int.not_lt, Int.not_lt] at within
    exact ⟨ordered, within, fun on =>
      ⟨(ready on).numHandles, (ready on).slots, (ready on).levelCount,
        (ready on).levels⟩⟩

/-! ## Render frames -/

theorem slotKeeps_bufferFarend
    {settings : GainSettings}
    {slot : Option (AgcHandle cores)}
    (piece : List Int16)
    (kept : SlotKeeps keeping formats settings slot) :
    SlotKeeps keeping formats settings (bufferFarend piece slot).1 := by
  obtain ⟨handle, rfl, ready, keeps⟩ := kept
  refine ⟨handle.addFarend piece, rfl, ?_, ?_⟩
  · rw [AgcHandle.setup_addFarend]
    exact ready
  · unfold AgcHandle.addFarend
    split
    · exact keeping.addFarend piece keeps
    · exact keeps

/-- A change of the handles, the queue and the saturation flag alone. -/
theorem AnalogHeld.of_component
    {next : GainControl cores}
    (held : AnalogHeld keeping formats agc)
    (shape : next.shape = agc.shape)
    (settings : next.settings = agc.settings)
    (level : next.analogCaptureLevel = agc.analogCaptureLevel)
    (levels : next.captureLevels = agc.captureLevels)
    (slots :
      ProcessingComponent.AllSlots (SlotKeeps keeping formats agc.settings)
          agc.toProcessingComponent →
        ProcessingComponent.AllSlots (SlotKeeps keeping formats agc.settings)
          next.toProcessingComponent) :
    AnalogHeld keeping formats next := by
  intro analog
  rw [settings] at analog
  obtain ⟨ordered, contained, ready⟩ := held analog
  have numHandles : next.numHandles = agc.numHandles :=
    congrArg (fun view : ProcessingComponent HandleSetup Unit =>
      view.numHandles) shape
  have enabled : next.enabled = agc.enabled :=
    congrArg (fun view : ProcessingComponent HandleSetup Unit =>
      view.enabled) shape
  refine ⟨?_, ?_, fun on => ?_⟩
  · rw [settings]
    exact ordered
  · rw [settings, level]
    exact contained
  · have before := ready (enabled.symm.trans on)
    refine ⟨numHandles.trans before.numHandles, ?_, ?_, ?_⟩
    · rw [settings]
      exact slots before.slots
    · rw [levels, numHandles]
      exact before.levelCount
    · rw [levels, settings]
      exact before.levels

theorem analogHeld_readQueuedRenderData
    (held : AnalogHeld keeping formats agc) :
    AnalogHeld keeping formats (readQueuedRenderData agc).1 :=
  held.of_component (shape_readQueuedRenderData agc) rfl rfl rfl fun slots =>
    ProcessingComponent.allSlots_readQueuedRenderData
      (fun piece _ kept => slotKeeps_bufferFarend piece kept) slots

theorem analogHeld_processRenderAudio
    (audio : AudioBuffer cores)
    (held : AnalogHeld keeping formats agc) :
    AnalogHeld keeping formats (processRenderAudio audio agc).1 := by
  unfold processRenderAudio
  split
  · exact held
  · split
    · exact held
    · exact held.of_component
        (ProcessingComponent.shape_insertRenderData
          (ProcessingComponent.shape_readQueuedRenderData
            setup_bufferFarend _))
        rfl rfl rfl fun slots =>
          ProcessingComponent.allSlots_insertRenderData slots
            (ProcessingComponent.allSlots_readQueuedRenderData
              (fun piece _ kept => slotKeeps_bufferFarend piece kept) slots)

/-! ## Capture frames -/

/-- The capture levels of a loop are one for each handle, all within the limits. -/
def LevelsContained
    (settings : GainSettings)
    (count : Nat)
    (shared : CaptureLoop cores) : Prop :=
  shared.captureLevels.length = count ∧
    ∀ level ∈ shared.captureLevels, settings.Contains level

theorem LevelsContained.getD
    {settings : GainSettings}
    {count index : Nat}
    {shared : CaptureLoop cores}
    (contained : LevelsContained settings count shared)
    (inLoop : index < count) :
    settings.Contains (shared.captureLevels.getD index 0) := by
  rw [← contained.1] at inLoop
  rw [List.getD_eq_getElem?_getD, List.getElem?_eq_getElem inLoop,
    Option.getD_some]
  exact contained.2 _ (List.getElem_mem inLoop)

theorem LevelsContained.set
    {settings : GainSettings}
    {count : Nat}
    {shared : CaptureLoop cores}
    (index : Nat)
    {level : Int}
    {samples : cores.Samples}
    {saturated : Bool}
    (contained : LevelsContained settings count shared)
    (within : settings.Contains level) :
    @LevelsContained cores settings count
      ⟨samples, shared.captureLevels.set index level, saturated⟩ := by
  refine ⟨(List.length_set ..).trans contained.1, ?_⟩
  intro other member
  rcases List.mem_or_eq_of_mem_set member with before | new
  · exact contained.2 other before
  · rw [new]
    exact within

/-- A turn of the analog loop of `AnalyzeCaptureAudio` keeps the handle and levels. -/
theorem addMicSlot_spec
    {settings : GainSettings}
    {nrOfSamples count : Nat}
    (index : Nat)
    {slot : Option (AgcHandle cores)}
    {shared : CaptureLoop cores}
    (kept : SlotKeeps keeping formats settings slot)
    (contained : LevelsContained settings count shared) :
    SlotKeeps keeping formats settings
        (addMicSlot nrOfSamples index (slot, shared)).1.1 ∧
      LevelsContained settings count
        (addMicSlot nrOfSamples index (slot, shared)).1.2 := by
  obtain ⟨handle, rfl, ready, keeps⟩ := kept
  unfold addMicSlot
  dsimp only
  split
  · exact ⟨⟨handle, rfl, ready, keeps⟩, contained⟩
  · exact ⟨⟨_, rfl, ready, keeping.addMic _ _ keeps⟩, contained⟩

/-- So does a turn of the loop of `ProcessCaptureAudio`. -/
theorem processSlot_spec
    {settings : GainSettings}
    {nrOfSamples count : Nat}
    {echo : Bool}
    (index : Nat)
    {slot : Option (AgcHandle cores)}
    {shared : CaptureLoop cores}
    (inLoop : index < count)
    (kept : SlotKeeps keeping formats settings slot)
    (contained : LevelsContained settings count shared) :
    SlotKeeps keeping formats settings
        (processSlot nrOfSamples echo index (slot, shared)).1.1 ∧
      LevelsContained settings count
        (processSlot nrOfSamples echo index (slot, shared)).1.2 := by
  obtain ⟨handle, rfl, ready, keeps⟩ := kept
  obtain ⟨atLeast, atMost⟩ := contained.getD inLoop
  obtain ⟨nextKeeps, result, answer, lower, upper⟩ :=
    keeping.process shared.samples index
      (shared.captureLevels.getD index 0) echo keeps atLeast atMost
  unfold processSlot
  dsimp only
  split
  · exact ⟨⟨handle, rfl, ready, keeps⟩, contained⟩
  · rw [answer]
    exact ⟨⟨_, rfl, ready, nextKeeps⟩, contained.set index ⟨lower, upper⟩⟩

/-- A capture loop whose turns keep the handles and levels keeps the component ready,
and it completes when no turn stops. -/
theorem captureReady_captureLoop
    {slot : Nat → Stage (Option (AgcHandle cores) × CaptureLoop cores) Exit}
    (audio : AudioBuffer cores)
    (visits :
      ∀ index visited shared,
        index < agc.numHandles →
        SlotKeeps keeping formats agc.settings visited →
        LevelsContained agc.settings agc.numHandles shared →
          SlotKeeps keeping formats agc.settings
              (slot index (visited, shared)).1.1 ∧
            LevelsContained agc.settings agc.numHandles
              (slot index (visited, shared)).1.2)
    (ready : CaptureReady keeping formats agc) :
    CaptureReady keeping formats (captureLoop slot (agc, audio)).1.1 ∧
      ((∀ index visited shared,
          index < agc.numHandles →
          SlotKeeps keeping formats agc.settings visited →
          LevelsContained agc.settings agc.numHandles shared →
            (slot index (visited, shared)).2 = none) →
        (captureLoop slot (agc, audio)).2 = none) := by
  obtain ⟨slots, contained, passes⟩ :=
    @forSlots_invariant _ _ _ slot .abort
      (SlotKeeps keeping formats agc.settings)
      (LevelsContained agc.settings agc.numHandles) 0 agc.numHandles
      (fun index visited shared _ inLoop =>
        visits index visited shared (by omega))
      agc.handles
      { samples := audio.samples
        captureLevels := agc.captureLevels
        streamIsSaturated := agc.streamIsSaturated }
      ready.slots.1 ready.slots.2 ⟨ready.levelCount, ready.levels⟩
  refine ⟨⟨ready.numHandles, ⟨?_, slots⟩, contained.1, contained.2⟩,
    fun turns => passes fun index visited shared _ inLoop =>
      turns index visited shared (by omega)⟩
  dsimp only [captureLoop]
  rw [length_forSlots]
  exact ready.slots.1

/-- The component with the levels that `AnalyzeCaptureAudio` starts with. -/
theorem CaptureReady.assignLevels
    (contained : agc.settings.Contains agc.analogCaptureLevel)
    (ready : CaptureReady keeping formats agc) :
    CaptureReady keeping formats
      { agc with
        captureLevels :=
          List.replicate agc.numHandles agc.analogCaptureLevel } :=
  ⟨ready.numHandles, ready.slots, List.length_replicate .., by
    intro level member
    rw [List.eq_of_mem_replicate member]
    exact contained⟩

/-- Analysing a capture frame keeps the level held. -/
theorem analogHeld_analyzeCaptureAudio
    (audio : AudioBuffer cores)
    (held : AnalogHeld keeping formats agc) :
    AnalogHeld keeping formats
      (analyzeCaptureAudio (agc, audio)).1.1 := by
  intro analog
  rw [(kept_analyzeCaptureAudio (agc, audio)).settings] at analog
  obtain ⟨ordered, contained, ready⟩ := held analog
  dsimp only at analog
  unfold analyzeCaptureAudio
  dsimp only
  split
  · exact ⟨ordered, contained, ready⟩
  next enabled =>
    rw [Bool.not_eq_true', Bool.not_eq_false] at enabled
    split
    · exact ⟨ordered, contained, ready⟩
    · rw [analog]
      exact ⟨ordered, contained, fun _ =>
        (captureReady_captureLoop audio
          (fun index _ _ _ kept levels => addMicSlot_spec index kept levels)
          ((ready enabled).assignLevels contained)).1⟩

/-- The average of the levels of a ready component is within the limits. -/
theorem CaptureReady.contains_averageLevel
    (ready : CaptureReady keeping formats agc) :
    agc.settings.Contains agc.averageLevel := by
  have channels : 0 < agc.numHandles := by
    rw [ready.numHandles]
    exact formats.numOutputChannels_pos
  have all : agc.captureLevels.take agc.numHandles = agc.captureLevels :=
    List.take_of_length_le ready.levelCount.le
  unfold averageLevel
  rw [all, ← ready.levelCount]
  refine GainSettings.contains_average ?_ ready.levels
  intro none
  rw [← ready.levelCount, none] at channels
  exact absurd channels (Nat.lt_irrefl 0)

/-- Processing a capture frame keeps the level held. -/
theorem analogHeld_processCaptureAudio
    (audio : AudioBuffer cores)
    (echo : Bool)
    (held : AnalogHeld keeping formats agc) :
    AnalogHeld keeping formats
      (processCaptureAudio echo (agc, audio)).1.1 := by
  intro analog
  rw [(kept_processCaptureAudio echo (agc, audio)).settings] at analog
  obtain ⟨ordered, contained, ready⟩ := held analog
  dsimp only at analog
  unfold processCaptureAudio
  dsimp only
  split
  · exact ⟨ordered, contained, ready⟩
  next enabled =>
    rw [Bool.not_eq_true', Bool.not_eq_false] at enabled
    split
    · exact ⟨ordered, contained, ready⟩
    · split
      · exact ⟨ordered, contained, ready⟩
      · have looped :=
          (@captureReady_captureLoop _ keeping formats
            { agc with streamIsSaturated := false }
            (processSlot audio.numFramesPerBand echo) audio
            (fun index _ _ inLoop kept levels =>
              processSlot_spec index inLoop kept levels)
            ⟨(ready enabled).numHandles, (ready enabled).slots,
              (ready enabled).levelCount, (ready enabled).levels⟩).1
        have settings :
            (captureLoop (processSlot audio.numFramesPerBand echo)
              ({ agc with streamIsSaturated := false }, audio)).1.1.settings =
              agc.settings :=
          rfl
        have level :
            (captureLoop (processSlot audio.numFramesPerBand echo)
              ({ agc with streamIsSaturated := false },
                audio)).1.1.analogCaptureLevel =
              agc.analogCaptureLevel :=
          rfl
        split
        next failed exit ran =>
          rw [ran] at looped settings level
          refine ⟨settings ▸ ordered, ?_, fun _ => looped⟩
          rw [settings, level]
          exact contained
        next processed after ran =>
          rw [ran] at looped settings
          dsimp only at looped settings ⊢
          rw [if_pos (settings ▸ analog)]
          exact ⟨settings ▸ ordered, looped.contains_averageLevel, fun _ =>
            ⟨looped.numHandles, looped.slots, looped.levelCount,
              looped.levels⟩⟩

end GainControl

end ApmSdk.AudioProcessing
