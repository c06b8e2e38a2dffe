import ApmSdk.AnalogLevelLimits

namespace ApmSdk.AudioProcessing

/-!
# Settings of the gain control after an error

A setter of the gain control stores its argument before it initialises or
configures the handles with it.  An error leaves it stored.
-/

namespace GainControl

variable {cores : Cores}

/-- The setters, with their arguments. -/
inductive Setter where
  | setMode (mode : GainMode)
  | setAnalogLevelLimits (minimum maximum : Int)
  | setTargetLevelDbfs (level : Int)
  | setCompressionGainDb (gain : Int)
  | enableLimiter (enable : Bool)
  | setStreamAnalogLevel (level : Int)
  deriving Repr, DecidableEq

/-- What a setter does. -/
def Setter.run
    (formats : StreamFormats) : Setter → Stage (GainControl cores) Exit
  | .setMode mode => GainControl.setMode formats mode
  | .setAnalogLevelLimits minimum maximum =>
      GainControl.setAnalogLevelLimits formats minimum maximum
  | .setTargetLevelDbfs level =>
      GainControl.setTargetLevelDbfs formats level
  | .setCompressionGainDb gain =>
      GainControl.setCompressionGainDb formats gain
  | .enableLimiter enable => GainControl.enableLimiter formats enable
  | .setStreamAnalogLevel level => GainControl.setStreamAnalogLevel level

/-- Everything that a setter can set. -/
def recorded (agc : GainControl cores) : GainSettings × Int × Bool :=
  (agc.settings, agc.analogCaptureLevel, agc.wasAnalogLevelSet)

/-- The setter leaves everything as it was when it returns an error. -/
def Setter.KeepsOnError
    (formats : StreamFormats)
    (setter : Setter)
    (agc : GainControl cores) : Prop :=
  ∀ code,
    (setter.run formats agc).2 = some (.error code) →
      (setter.run formats agc).1.recorded = agc.recorded

/-- `Initialize` reaches a handle with limits that the library refuses. -/
def InitializeFails
    (formats : StreamFormats)
    (agc : GainControl cores)
    (stored : GainSettings) : Prop :=
  agc.enabled = true ∧
    0 < formats.numProcChannels ∧
      stored.takenByInit = false

/-- What `ConfigureHandle` answers for a handle, whatever the settings. -/
def configRefusal : Option (AgcHandle cores) → Option Exit
  | none => some (if cores.ndebug then .error .kUnspecifiedError else .abort)
  | some handle =>
      if handle.initFlag then none else some (.error .kUnspecifiedError)

/-- `Configure` reaches a handle that does not take a configuration. -/
def ConfigureFails (agc : GainControl cores) : Prop :=
  agc.initialized = true ∧
    ∃ code,
      (agc.handles.take agc.numHandles).findSome? configRefusal =
        some (.error code)

/-- A setter that initialises: its error is harmless if it stores what was there. -/
def InitializeHarmless
    (formats : StreamFormats)
    (agc : GainControl cores)
    (stored : GainSettings) : Prop :=
  stored = agc.settings ∨ ¬ agc.InitializeFails formats stored

/-- A setter that configures: its error is harmless if it stores what was there. -/
def ConfigureHarmless
    (agc : GainControl cores)
    (stored : GainSettings) : Prop :=
  stored = agc.settings ∨ ¬ agc.ConfigureFails

/-- The states and arguments with which an error of the setter leaves nothing behind. -/
def Setter.Harmless
    (formats : StreamFormats)
    (agc : GainControl cores) : Setter → Prop
  | .setMode mode =>
      agc.InitializeHarmless formats { agc.settings with mode := mode }
  | .setAnalogLevelLimits minimum maximum =>
      ∀ legal : 0 ≤ minimum ∧ minimum ≤ maximum ∧ maximum ≤ 65535,
        agc.InitializeHarmless formats
          { agc.settings with
            minimumCaptureLevel := minimum
            maximumCaptureLevel := maximum
            levelsInRange := legal }
  | .setTargetLevelDbfs level =>
      ∀ legal : 0 ≤ level ∧ level ≤ 31,
        agc.ConfigureHarmless
          { agc.settings with
            targetLevelDbfs := level
            targetInRange := legal }
  | .setCompressionGainDb gain =>
      ∀ legal : 0 ≤ gain ∧ gain ≤ 90,
        agc.ConfigureHarmless
          { agc.settings with
            compressionGainDb := gain
            compressionInRange := legal }
  | .enableLimiter enable =>
      agc.ConfigureHarmless { agc.settings with limiterEnabled := enable }
  | .setStreamAnalogLevel level =>
      agc.wasAnalogLevelSet = true ∨
        (agc.settings.minimumCaptureLevel ≤ level ∧
          level ≤ agc.settings.maximumCaptureLevel)

/-- `Initialize` sets nothing that a setter can set. -/
theorem recorded_initializeComponent
    (formats : StreamFormats)
    (agc : GainControl cores) :
    (initializeComponent formats agc).1.recorded = agc.recorded := by
  unfold initializeComponent
  split
  · rfl
  · split <;> rfl

/-- The library refuses limits that it does not take for every handle alike. -/
theorem exit_initializeSlot
    (formats : StreamFormats)
    (agc : GainControl cores)
    (refused : agc.settings.takenByInit = false)
    (index : Nat)
    (slot : Option (AgcHandle cores))
    (shared : Unit) :
    (ProcessingComponent.initializeSlot (agc.methods formats) index
        (slot, shared)).2 =
      some (.error .kUnspecifiedError) := by
  have fails : ∀ handle : AgcHandle cores,
      ((agc.methods formats).initializeHandle handle).2 = true := by
    intro handle
    rw [← Bool.not_eq_false, initializeHandle_passes_iff, refused]
    decide
  cases slot with
  | none =>
      exact if_pos (fails .create)
  | some handle =>
      exact if_pos (fails handle)

/-- Refused limits stop the initialisation of the first handle, if there is one. -/
theorem exit_initializeComponent
    (formats : StreamFormats)
    (agc : GainControl cores)
    (enabled : agc.enabled = true)
    (refused : agc.settings.takenByInit = false) :
    (initializeComponent formats agc).2 =
      if 0 < formats.numProcChannels then
        some (.error .kUnspecifiedError)
      else
        none := by
  have visits :=
    @exit_forSlots _ _ _ _ Exit.abort (fun _ => _)
      (exit_initializeSlot formats agc refused) 0 formats.numProcChannels
      (agc.toProcessingComponent.resized formats.numProcChannels) ()
  have enough :
      formats.numProcChannels ≤
        (agc.toProcessingComponent.resized formats.numProcChannels).length := by
    simp only [ProcessingComponent.resized, List.length_append,
      List.length_replicate]
    omega
  have required :
      (agc.methods formats).numHandlesRequired = formats.numProcChannels :=
    rfl
  rw [(initializeComponent_base formats agc).2.1,
    ProcessingComponent.initializeComponent, enabled]
  simp only [Bool.not_true, Bool.false_eq_true, if_false, required, visits]
  cases channels : formats.numProcChannels with
  | zero =>
      simp [ProcessingComponent.configure, forSlots]
  | succ count =>
      cases slots : agc.toProcessingComponent.resized (count + 1) with
      | nil =>
          rw [channels, slots] at enough
          simp at enough
      | cons slot rest =>
          simp

/-- `Initialize` returns an error exactly where it reaches limits that are refused. -/
theorem initializeComponent_error_iff
    (formats : StreamFormats)
    (agc : GainControl cores) :
    (∃ code, (initializeComponent formats agc).2 = some (.error code)) ↔
      agc.InitializeFails formats agc.settings := by
  by_cases passes : agc.enabled = true → agc.settings.takenByInit = true
  · rw [initializeComponent_passes agc passes]
    refine iff_of_false (by simp) ?_
    rintro ⟨enabled, -, refused⟩
    rw [passes enabled] at refused
    cases refused
  · rw [Classical.not_imp, Bool.not_eq_true] at passes
    obtain ⟨enabled, refused⟩ := passes
    rw [exit_initializeComponent formats agc enabled refused]
    simp [InitializeFails, enabled, refused]

/-- `Configure` sets nothing that a setter can set. -/
theorem recorded_configure
    (formats : StreamFormats)
    (agc : GainControl cores) :
    (configure formats agc).1.recorded = agc.recorded :=
  rfl

/-- What a handle answers to a configuration does not depend on the settings. -/
theorem exit_configureHandle
    (agc : GainControl cores)
    (slot : Option (AgcHandle cores)) :
    (agc.configureHandle slot).2 = configRefusal slot := by
  cases slot with
  | none =>
      rfl
  | some handle =>
      cases initialized : handle.initFlag <;>
        simp [configureHandle, configRefusal, AgcHandle.setConfig, initialized]

/-- `Configure` returns an error exactly where it reaches a handle that refuses. -/
theorem configure_error_iff
    (formats : StreamFormats)
    (agc : GainControl cores) :
    (∃ code, (configure formats agc).2 = some (.error code)) ↔
      agc.ConfigureFails := by
  have visits :=
    @exit_forSlots _ _ _
      (ProcessingComponent.configureSlot (agc.methods formats)) Exit.abort
      configRefusal (fun _ slot _ => exit_configureHandle agc slot) 0
      agc.numHandles agc.handles ()
  cases initialized : agc.initialized with
  | false =>
      simp [configure, ProcessingComponent.configure, ConfigureFails,
        initialized]
  | true =>
      simp only [configure, ProcessingComponent.configure, ConfigureFails,
        initialized, Bool.not_true, Bool.false_eq_true, if_false, visits,
        true_and]
      cases (agc.handles.take agc.numHandles).findSome? configRefusal with
      | none =>
          simp only [Option.none_or, reduceCtorEq, exists_false, iff_false]
          split <;> simp
      | some exit =>
          simp

/-- Settings that were stored stay stored: an error is harmless if they were there. -/
theorem keeps_iff_of_stored
    {agc after : GainControl cores}
    {exit : Option Exit}
    {stored : GainSettings}
    {fails : Prop}
    (left : after.recorded = recorded { agc with settings := stored })
    (errs : (∃ code, exit = some (.error code)) ↔ fails) :
    (∀ code, exit = some (.error code) → after.recorded = agc.recorded) ↔
      stored = agc.settings ∨ ¬ fails := by
  have same : after.recorded = agc.recorded ↔ stored = agc.settings := by
    rw [left]
    simp [recorded]
  rw [← errs, same]
  constructor
  · intro kept
    by_cases failed : ∃ code, exit = some (.error code)
    · obtain ⟨code, isError⟩ := failed
      exact Or.inl (kept code isError)
    · exact Or.inr failed
  · rintro (unchanged | passed) code isError
    · exact unchanged
    · exact absurd ⟨code, isError⟩ passed

/-- An error of a setter leaves everything as it was exactly where it is harmless. -/
theorem Setter.keepsOnError_iff
    (formats : StreamFormats)
    (setter : Setter)
    (agc : GainControl cores) :
    setter.KeepsOnError formats agc ↔ setter.Harmless formats agc := by
  have initializes : ∀ stored : GainSettings,
      (∀ code,
        (initializeComponent formats { agc with settings := stored }).2 =
            some (.error code) →
          (initializeComponent formats
            { agc with settings := stored }).1.recorded = agc.recorded) ↔
        agc.InitializeHarmless formats stored :=
    fun stored =>
      keeps_iff_of_stored
        (recorded_initializeComponent formats { agc with settings := stored })
        (initializeComponent_error_iff formats { agc with settings := stored })
  have configures : ∀ stored : GainSettings,
      (∀ code,
        (configure formats { agc with settings := stored }).2 =
            some (.error code) →
          (configure formats
            { agc with settings := stored }).1.recorded = agc.recorded) ↔
        agc.ConfigureHarmless stored :=
    fun stored =>
      keeps_iff_of_stored
        (recorded_configure formats { agc with settings := stored })
        (configure_error_iff formats { agc with settings := stored })
  cases setter with
  | setMode mode =>
      exact initializes { agc.settings with mode := mode }
  | setAnalogLevelLimits minimum maximum =>
      by_cases legal :
          0 ≤ minimum ∧ minimum ≤ maximum ∧ maximum ≤ 65535
      · simp only [Setter.KeepsOnError, Setter.run, Setter.Harmless,
          GainControl.setAnalogLevelLimits, dif_pos legal]
        exact (initializes _).trans ⟨fun kept _ => kept, fun kept => kept legal⟩
      · simp [Setter.KeepsOnError, Setter.run, Setter.Harmless,
          GainControl.setAnalogLevelLimits, legal]
  | setTargetLevelDbfs level =>
      by_cases legal : 0 ≤ level ∧ level ≤ 31
      · simp only [Setter.KeepsOnError, Setter.run, Setter.Harmless,
          GainControl.setTargetLevelDbfs, dif_pos legal]
        exact (configures _).trans ⟨fun kept _ => kept, fun kept => kept legal⟩
      · simp [Setter.KeepsOnError, Setter.run, Setter.Harmless,
          GainControl.setTargetLevelDbfs, legal]
  | setCompressionGainDb gain =>
      by_cases legal : 0 ≤ gain ∧ gain ≤ 90
      · simp only [Setter.KeepsOnError, Setter.run, Setter.Harmless,
          GainControl.setCompressionGainDb, dif_pos legal]
        exact (configures _).trans ⟨fun kept _ => kept, fun kept => kept legal⟩
      · simp [Setter.KeepsOnError, Setter.run, Setter.Harmless,
          GainControl.setCompressionGainDb, legal]
  | enableLimiter enable =>
      exact configures { agc.settings with limiterEnabled := enable }
  | setStreamAnalogLevel level =>
      simp only [Setter.KeepsOnError, Setter.run, Setter.Harmless,
        GainControl.setStreamAnalogLevel]
      by_cases outside :
          level < agc.settings.minimumCaptureLevel ∨
            agc.settings.maximumCaptureLevel < level
      · rw [if_pos outside]
        have flag :
            recorded { agc with wasAnalogLevelSet := true } = agc.recorded ↔
              agc.wasAnalogLevelSet = true := by
          simp only [recorded, Prod.mk.injEq, true_and]
          exact eq_comm
        simp only [flag]
        constructor
        · exact fun kept => Or.inl (kept _ rfl)
        · rintro (wasSet | inside) code -
          · exact wasSet
          · omega
      · rw [if_neg outside]
        refine iff_of_true (fun code impossible => ?_) ?_
        · cases impossible
        · omega

end GainControl

end ApmSdk.AudioProcessing
