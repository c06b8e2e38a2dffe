import ApmSdk.ApiCalls

namespace ApmSdk.AudioProcessing

/-!
# Components that are ready for the format in force

`InitializeLocked` either fails in one of the components with handles or leaves
every component set up for the chosen formats.  The only reasons to fail are a
handle that cannot be allocated and level limits that the gain control refuses.
-/

variable {cores : Cores}

section EchoCancellation

theorem AecHandle.init_native
    (handle : AecHandle cores)
    (rate : NativeRate) :
    handle.init rate.hz =
      ({ core := cores.aecInit handle.core rate.hz
         initFlag := true
         sampFreq := rate.hz }, none) := by
  cases rate <;> rfl

namespace EchoCancellation

variable {formats : StreamFormats} {created : Nat → Bool}

theorem initializes_methods (aec : EchoCancellation cores) :
    ProcessingComponent.Initializes AecHandle.setup
      (aec.methods formats created) formats.fwdProcRate where
  sets := by
    intro handle _
    simp only [methods, AecHandle.init_native]
    rfl
  configureKeeps := setup_configureHandle aec

theorem configureHandle_passes
    (aec : EchoCancellation cores)
    (rate : NativeRate)
    (slot : Option (AecHandle cores))
    (ready : slot.map AecHandle.setup = some (HandleSetup.at rate)) :
    (aec.configureHandle slot).2 = none := by
  cases slot with
  | none =>
      simp at ready
  | some handle =>
      simp only [Option.map_some, Option.some.injEq] at ready
      have initialized : handle.initFlag = true :=
        congrArg HandleSetup.initFlag ready
      simp [configureHandle, AecHandle.setConfig, initialized]

/-- The echo canceller initialises whenever its handles can be allocated. -/
theorem initializeComponent_passes
    (aec : EchoCancellation cores)
    (creates : ∀ index, created index = true) :
    (initializeComponent formats created aec).2 = none := by
  simp only [initializeComponent,
    ProcessingComponent.initializeWithQueue_shape AecHandle.setup]
  apply ProcessingComponent.initializeComponent_passes
    (initializes_methods aec)
  · intro index
    simp [methods, creates index]
  · intro handle
    simp [methods, AecHandle.init_native]
  · exact configureHandle_passes aec formats.fwdProcRate

@[simp]
theorem enabled_initializeComponent (aec : EchoCancellation cores) :
    (initializeComponent formats created aec).1.enabled = aec.enabled := by
  have same :=
    ProcessingComponent.initializeWithQueue_shape AecHandle.setup
      (aec.methods formats created) aec.toProcessingComponent
  have flags := congrArg ProcessingComponent.enabled same.1
  exact
    flags.trans (ProcessingComponent.enabled_initializeComponent
      (aec.methods formats created) aec.toProcessingComponent)

/-- An enabled echo canceller that initialises is ready for its formats. -/
theorem initializeComponent_ready
    (aec : EchoCancellation cores)
    (enabled : aec.enabled = true)
    (passed : (initializeComponent formats created aec).2 = none) :
    ProcessingComponent.ReadyFor (numHandlesRequired formats)
      formats.fwdProcRate (initializeComponent formats created aec).1.shape := by
  have same :=
    ProcessingComponent.initializeWithQueue_shape AecHandle.setup
      (aec.methods formats created) aec.toProcessingComponent
  have ready :=
    ProcessingComponent.initializeComponent_ready
      (initializes_methods aec) enabled (same.2.symm.trans passed)
  rw [← same.1] at ready
  exact ready

end EchoCancellation

end EchoCancellation

section EchoControlMobile

theorem AecmHandle.init_native
    (handle : AecmHandle cores)
    {rate : NativeRate}
    (narrow : rate.hz ≤ 16000) :
    handle.init rate.hz =
      ({ core := cores.aecmInit handle.core rate.hz
         initFlag := true
         sampFreq := rate.hz }, none) := by
  cases rate with
  | kSampleRate8kHz => rfl
  | kSampleRate16kHz => rfl
  | kSampleRate32kHz => simp [NativeRate.hz] at narrow
  | kSampleRate48kHz => simp [NativeRate.hz] at narrow

namespace EchoControlMobile

variable {formats : StreamFormats} {created : Nat → Bool}

/-- Initialising a handle at a rate it accepts cannot fail. -/
theorem initializeHandle_narrow
    (aecm : EchoControlMobile cores)
    (handle : AecmHandle cores)
    (narrow : formats.fwdProcRate.hz ≤ 16000) :
    (initializeHandle formats aecm handle).1.setup =
        HandleSetup.at formats.fwdProcRate ∧
      (initializeHandle formats aecm handle).2 = false := by
  simp only [initializeHandle, AecmHandle.init_native handle narrow]
  split
  · exact ⟨rfl, rfl⟩
  · exact ⟨rfl, rfl⟩

theorem initializes_methods
    (aecm : EchoControlMobile cores)
    (narrow : formats.fwdProcRate.hz ≤ 16000) :
    ProcessingComponent.Initializes AecmHandle.setup
      (aecm.methods formats created) formats.fwdProcRate where
  sets := fun handle _ => (initializeHandle_narrow aecm handle narrow).1
  configureKeeps := setup_configureHandle aecm

theorem configureHandle_passes
    (aecm : EchoControlMobile cores)
    (rate : NativeRate)
    (slot : Option (AecmHandle cores))
    (ready : slot.map AecmHandle.setup = some (HandleSetup.at rate)) :
    (aecm.configureHandle slot).2 = none := by
  cases slot with
  | none =>
      simp at ready
  | some handle =>
      simp only [Option.map_some, Option.some.injEq] at ready
      have initialized : handle.initFlag = true :=
        congrArg HandleSetup.initFlag ready
      simp [configureHandle, AecmHandle.setConfig, initialized]

/-- A rate that the mobile canceller accepts is not above its limit. -/
theorem not_above_of_narrow
    (narrow : formats.fwdProcRate.hz ≤ 16000) :
    ¬ NativeRate.kSampleRate16kHz.hz < formats.fwdProcRate.hz :=
  Int.not_lt.mpr narrow

/--
The mobile echo canceller initialises at a rate it accepts whenever its handles
can be allocated.
-/
theorem initializeComponent_passes
    (aecm : EchoControlMobile cores)
    (narrow : aecm.enabled = true → formats.fwdProcRate.hz ≤ 16000)
    (creates : ∀ index, created index = true) :
    (initializeComponent formats created aecm).2 = none := by
  by_cases enabled : aecm.enabled = true
  · simp only [initializeComponent, enabled, Bool.not_true,
      Bool.false_eq_true, if_false, not_above_of_narrow (narrow enabled),
      ProcessingComponent.initializeWithQueue_shape AecmHandle.setup]
    apply ProcessingComponent.initializeComponent_passes
      (initializes_methods aecm (narrow enabled))
    · intro index
      simp [methods, creates index]
    · intro handle
      exact (initializeHandle_narrow aecm handle (narrow enabled)).2
    · exact configureHandle_passes aecm formats.fwdProcRate
  · simp [initializeComponent, enabled]

@[simp]
theorem enabled_initializeComponent (aecm : EchoControlMobile cores) :
    (initializeComponent formats created aecm).1.enabled =
      aecm.enabled := by
  have same :=
    ProcessingComponent.initializeWithQueue_shape AecmHandle.setup
      (aecm.methods formats created) aecm.toProcessingComponent
  have flags := congrArg ProcessingComponent.enabled same.1
  simp only [initializeComponent]
  split
  · rfl
  · split
    · rfl
    · exact
        flags.trans (ProcessingComponent.enabled_initializeComponent
          (aecm.methods formats created) aecm.toProcessingComponent)

/-- A mobile canceller that initialises runs at a rate it accepts. -/
theorem narrow_of_initializeComponent
    (aecm : EchoControlMobile cores)
    (enabled : aecm.enabled = true)
    (passed : (initializeComponent formats created aecm).2 = none) :
    formats.fwdProcRate.hz ≤ 16000 := by
  by_contra above
  have wide :
      NativeRate.kSampleRate16kHz.hz < formats.fwdProcRate.hz :=
    Int.not_le.mp above
  simp [initializeComponent, enabled, wide] at passed

/-- An enabled mobile canceller that initialises is ready for its formats. -/
theorem initializeComponent_ready
    (aecm : EchoControlMobile cores)
    (enabled : aecm.enabled = true)
    (passed : (initializeComponent formats created aecm).2 = none) :
    ProcessingComponent.ReadyFor (numHandlesRequired formats)
      formats.fwdProcRate
      (initializeComponent formats created aecm).1.shape := by
  have narrow := narrow_of_initializeComponent aecm enabled passed
  have same :=
    ProcessingComponent.initializeWithQueue_shape AecmHandle.setup
      (aecm.methods formats created) aecm.toProcessingComponent
  simp only [initializeComponent, enabled, Bool.not_true,
    Bool.false_eq_true, if_false, not_above_of_narrow narrow] at passed ⊢
  have ready :=
    ProcessingComponent.initializeComponent_ready
      (initializes_methods aecm narrow) enabled
      (same.2.symm.trans passed)
  rw [← same.1] at ready
  exact ready

/-- A ready mobile canceller is ready after initialising again. -/
theorem initializeComponent_keeps_ready
    (aecm : EchoControlMobile cores)
    (ready :
      ProcessingComponent.ReadyFor (numHandlesRequired formats)
        formats.fwdProcRate aecm.shape) :
    ProcessingComponent.ReadyFor (numHandlesRequired formats)
      formats.fwdProcRate
      (initializeComponent formats created aecm).1.shape := by
  have same :=
    ProcessingComponent.initializeWithQueue_shape AecmHandle.setup
      (aecm.methods formats created) aecm.toProcessingComponent
  simp only [initializeComponent]
  split
  · exact ready
  · split
    · exact ready
    next above =>
        have narrow : formats.fwdProcRate.hz ≤ 16000 := Int.not_lt.mp above
        have kept :=
          ProcessingComponent.initializeComponent_keeps_ready
            (@initializes_methods _ _ created aecm narrow)
            (fun handle => (initializeHandle_narrow aecm handle narrow).1)
            ready
        rw [← same.1] at kept
        exact kept

end EchoControlMobile

end EchoControlMobile

section GainControl

namespace GainControl

variable {formats : StreamFormats}

theorem initializes_methods (agc : GainControl cores) :
    ProcessingComponent.Initializes AgcHandle.setup
      (agc.methods formats) formats.fwdProcRate where
  sets := fun _ _ => rfl
  configureKeeps := setup_configureHandle agc

theorem configureHandle_passes
    (agc : GainControl cores)
    (rate : NativeRate)
    (slot : Option (AgcHandle cores))
    (ready : slot.map AgcHandle.setup = some (HandleSetup.at rate)) :
    (agc.configureHandle slot).2 = none := by
  cases slot with
  | none =>
      simp at ready
  | some handle =>
      simp only [Option.map_some, Option.some.injEq] at ready
      have initialized : handle.initFlag = true :=
        congrArg HandleSetup.initFlag ready
      simp [configureHandle, AgcHandle.setConfig, initialized]

/-- What `Initialize` does, up to the levels that it sets at its end. -/
theorem initializeComponent_base
    (formats : StreamFormats)
    (agc : GainControl cores) :
    (initializeComponent formats agc).1.shape =
        ((agc.toProcessingComponent.initializeComponent
          (agc.methods formats)).1.shape AgcHandle.setup) ∧
      (initializeComponent formats agc).2 =
        (agc.toProcessingComponent.initializeComponent
          (agc.methods formats)).2 ∧
      (initializeComponent formats agc).1.settings = agc.settings := by
  have same :=
    ProcessingComponent.initializeWithQueue_shape AgcHandle.setup
      (agc.methods formats) agc.toProcessingComponent
  rw [← same.1, ← same.2]
  unfold initializeComponent
  split
  next failed exit ran =>
      rw [ran]
      exact ⟨rfl, rfl, rfl⟩
  next ready ran =>
      rw [ran]
      split <;> exact ⟨rfl, rfl, rfl⟩

/-- The gain control initialises whenever the library takes its limits. -/
theorem initializeComponent_passes
    (agc : GainControl cores)
    (taken : agc.enabled = true → agc.settings.takenByInit = true) :
    (initializeComponent formats agc).2 = none := by
  rw [(initializeComponent_base formats agc).2.1]
  by_cases enabled : agc.enabled = true
  · apply ProcessingComponent.initializeComponent_passes
      (initializes_methods agc)
    · intro index
      rfl
    · intro handle
      have range := taken enabled
      simp only [GainSettings.takenByInit, decide_eq_true_eq] at range
      simp [methods, AgcHandle.init, range]
    · exact configureHandle_passes agc formats.fwdProcRate
  · rw [Bool.not_eq_true] at enabled
    rw [ProcessingComponent.initializeComponent_of_disabled enabled]

@[simp]
theorem enabled_initializeComponent (agc : GainControl cores) :
    (initializeComponent formats agc).1.enabled = agc.enabled := by
  have flags :=
    congrArg ProcessingComponent.enabled
      (initializeComponent_base formats agc).1
  exact
    flags.trans (ProcessingComponent.enabled_initializeComponent
      (agc.methods formats) agc.toProcessingComponent)

/-- An enabled gain control that initialises is ready for its formats. -/
theorem initializeComponent_ready
    (agc : GainControl cores)
    (enabled : agc.enabled = true)
    (passed : (initializeComponent formats agc).2 = none) :
    ProcessingComponent.ReadyFor (numHandlesRequired formats)
      formats.fwdProcRate (initializeComponent formats agc).1.shape := by
  obtain ⟨shape, exit, -⟩ := initializeComponent_base formats agc
  rw [shape]
  exact
    ProcessingComponent.initializeComponent_ready
      (initializes_methods agc) enabled (exit.symm.trans passed)

/-- A ready gain control is ready after initialising again, refused or not. -/
theorem initializeComponent_keeps_ready
    (agc : GainControl cores)
    (ready :
      ProcessingComponent.ReadyFor (numHandlesRequired formats)
        formats.fwdProcRate agc.shape) :
    ProcessingComponent.ReadyFor (numHandlesRequired formats)
      formats.fwdProcRate (initializeComponent formats agc).1.shape := by
  rw [(initializeComponent_base formats agc).1]
  exact
    ProcessingComponent.initializeComponent_keeps_ready
      (initializes_methods agc) (fun _ => rfl) ready

end GainControl

end GainControl

end ApmSdk.AudioProcessing
