import ApmSdk.Readiness

namespace ApmSdk.AudioProcessing

/-!
# The two echo cancellers exclude each other

`Enable` of either canceller refuses while the other one is enabled, and
`InitializeLocked` chooses a rate that an enabled mobile canceller works at.
Together these keep one invariant over every sequence of calls.
-/

variable {cores : Cores}

/--
At most one echo canceller is enabled, and the mobile one only at a rate that it
works at.
-/
structure Configuration.Exclusive
    (configuration : Configuration) : Prop where
  notBoth :
    ¬ (configuration.echoCancellation.enabled = true ∧
        configuration.echoControlMobile.enabled = true)
  narrow :
    configuration.echoControlMobile.enabled = true →
      configuration.formats.fwdProcRate.hz ≤ 16000

namespace AudioProcessingImpl

/-- The formats and the flags of the two echo cancellers. -/
def modes (apm : AudioProcessingImpl cores) : StreamFormats × Bool × Bool :=
  (apm.formats, apm.echoCancellation.enabled, apm.echoControlMobile.enabled)

/-- The exclusion is about nothing else. -/
theorem exclusive_of_modes
    {before after : AudioProcessingImpl cores}
    (same : after.modes = before.modes)
    (held : before.configuration.Exclusive) :
    after.configuration.Exclusive := by
  simp only [modes, Prod.mk.injEq] at same
  obtain ⟨formats, echo, mobile⟩ := same
  constructor
  · rintro ⟨echoEnabled, mobileEnabled⟩
    exact
      held.notBoth ⟨echo.symm.trans echoEnabled, mobile.symm.trans mobileEnabled⟩
  · intro mobileEnabled
    have narrow := held.narrow (mobile.symm.trans mobileEnabled)
    rw [show after.configuration.formats = _ from formats]
    exact narrow

section Initialize

/-- `InitializeLocked()` changes neither the formats nor the flags. -/
theorem modes_initializeLocked
    (created : Creations)
    (apm : AudioProcessingImpl cores) :
    (initializeLocked created apm).1.modes = apm.modes := by
  refine runStages_frame modes ?_ apm
  unfold initializeStages
  refine forall_mem_stages_cons (fun _ => rfl) ?_
  refine forall_mem_stages_cons (fun apm => ?echo) ?_
  case echo =>
      simp only [initializeEcho, onEchoCancellation, modes,
        EchoCancellation.enabled_initializeComponent]
  refine forall_mem_stages_cons (fun apm => ?mobile) ?_
  case mobile =>
      simp only [initializeMobile, onEchoControlMobile, modes,
        EchoControlMobile.enabled_initializeComponent]
  refine forall_mem_stages_cons (fun _ => rfl) ?_
  exact forall_mem_stages_cons (fun _ => rfl) (List.forall_mem_nil _)

/-- The rate that is chosen for a format suits the canceller that is enabled. -/
theorem exclusive_choose
    {apm : AudioProcessingImpl cores}
    (held : apm.configuration.Exclusive)
    {config : ProcessingConfig}
    (checked : config.refusal = none) :
    Configuration.Exclusive
      { apm.configuration with
        formats :=
          .choose config checked apm.echoControlMobile.enabled } := by
  refine ⟨held.notBoth, fun mobileEnabled => ?_⟩
  have enabled : apm.echoControlMobile.enabled = true := mobileEnabled
  simp only [StreamFormats.choose, enabled]
  exact StreamFormats.chooseFwdProcRate_le_of_aecm _

/-- So the exclusion outlasts every initialisation. -/
theorem exclusive_initializeLockedWith
    (created : Creations)
    (config : ProcessingConfig)
    {apm : AudioProcessingImpl cores}
    (held : apm.configuration.Exclusive) :
    (initializeLockedWith created config
      apm).1.configuration.Exclusive := by
  unfold initializeLockedWith
  split
  next => exact held
  next checked =>
      exact
        exclusive_of_modes (modes_initializeLocked created _)
          (exclusive_choose held checked)

end Initialize

end AudioProcessingImpl

section Enable

variable {formats : StreamFormats}
variable {created : Nat → Bool}
variable {other flag : Bool}

namespace EchoCancellation

/-- The flag after `Enable` is the one asked for, unless there is an error. -/
theorem enabled_enable (aec : EchoCancellation cores) :
    (enable formats created other flag aec).1.enabled =
      if (enable formats created other flag aec).2.isNone then
        flag
      else
        aec.enabled := by
  simp only [enable]
  split
  · simp
  · exact
      isEnabled_enableComponent
        (fun component : EchoCancellation cores => component.enabled)
        (fun _ _ => rfl) enabled_initializeComponent

theorem enabled_enable_of_error
    {aec : EchoCancellation cores}
    (failed : (enable formats created other flag aec).2 ≠ none) :
    (enable formats created other flag aec).1.enabled = aec.enabled := by
  rw [enabled_enable, if_neg (mt Option.isNone_iff_eq_none.mp failed)]

/-- The canceller is only enabled while the other one is not. -/
theorem other_of_enable
    {aec : EchoCancellation cores}
    (passed : (enable formats created other true aec).2 = none) :
    other = false := by
  cases other with
  | false => rfl
  | true => simp [enable] at passed

/-- `Enable` that fails with all handles allocated has changed nothing. -/
theorem enable_of_error
    (creates : ∀ index, created index = true)
    {aec : EchoCancellation cores}
    (failed : (enable formats created other flag aec).2 ≠ none) :
    (enable formats created other flag aec).1 = aec := by
  by_cases refused : (flag && other) = true
  · simp only [enable, refused, if_true]
  · simp only [enable, refused, Bool.false_eq_true, if_false] at failed ⊢
    rcases @enableComponent_cases _ (fun component => component.enabled)
        (fun flag (component : EchoCancellation cores) =>
          { component with enabled := flag })
        (initializeComponent formats created) flag aec with
      ⟨-, ran⟩ | ⟨-, -, ⟨passed, ran⟩ | ⟨exit, stopped, -⟩⟩
    · rw [ran] at failed
      exact absurd rfl failed
    · rw [ran] at failed
      exact absurd passed failed
    · rw [initializeComponent_passes _ creates] at stopped
      cases stopped

end EchoCancellation

namespace EchoControlMobile

theorem enabled_enable (aecm : EchoControlMobile cores) :
    (enable formats created other flag aecm).1.enabled =
      if (enable formats created other flag aecm).2.isNone then
        flag
      else
        aecm.enabled := by
  simp only [enable]
  split
  · simp
  · exact
      isEnabled_enableComponent
        (fun component : EchoControlMobile cores => component.enabled)
        (fun _ _ => rfl) enabled_initializeComponent

theorem enabled_enable_of_error
    {aecm : EchoControlMobile cores}
    (failed : (enable formats created other flag aecm).2 ≠ none) :
    (enable formats created other flag aecm).1.enabled = aecm.enabled := by
  rw [enabled_enable, if_neg (mt Option.isNone_iff_eq_none.mp failed)]

theorem other_of_enable
    {aecm : EchoControlMobile cores}
    (passed : (enable formats created other true aecm).2 = none) :
    other = false := by
  cases other with
  | false => rfl
  | true => simp [enable] at passed

/-- The canceller that has been enabled works at the rate in force. -/
theorem narrow_of_enable
    {aecm : EchoControlMobile cores}
    (already : aecm.enabled = true → formats.fwdProcRate.hz ≤ 16000)
    (passed : (enable formats created other true aecm).2 = none) :
    formats.fwdProcRate.hz ≤ 16000 := by
  obtain rfl := other_of_enable passed
  simp only [enable, Bool.and_false, Bool.false_eq_true, if_false] at passed
  rcases @enableComponent_cases _ (fun component => component.enabled)
      (fun flag (component : EchoControlMobile cores) =>
        { component with enabled := flag })
      (initializeComponent formats created) true aecm with
    ⟨reason, -⟩ | ⟨-, -, ⟨ready, -⟩ | ⟨exit, -, ran⟩⟩
  · exact already (reason.resolve_left (by decide))
  · exact narrow_of_initializeComponent _ rfl ready
  · rw [ran] at passed
    cases passed

/-- A rate that is too high is refused before anything is touched. -/
theorem initializeComponent_of_wide
    {aecm : EchoControlMobile cores}
    (enabled : aecm.enabled = true)
    (wide : ¬ formats.fwdProcRate.hz ≤ 16000) :
    initializeComponent formats created aecm =
      (aecm, some (.error .kBadSampleRateError)) := by
  have above : NativeRate.kSampleRate16kHz.hz < formats.fwdProcRate.hz :=
    Int.not_le.mp wide
  simp [initializeComponent, enabled, above]

theorem enable_of_error
    (creates : ∀ index, created index = true)
    {aecm : EchoControlMobile cores}
    (failed : (enable formats created other flag aecm).2 ≠ none) :
    (enable formats created other flag aecm).1 = aecm := by
  by_cases refused : (flag && other) = true
  · simp only [enable, refused, if_true]
  · simp only [enable, refused, Bool.false_eq_true, if_false] at failed ⊢
    rcases @enableComponent_cases _ (fun component => component.enabled)
        (fun flag (component : EchoControlMobile cores) =>
          { component with enabled := flag })
        (initializeComponent formats created) flag aecm with
      ⟨-, ran⟩ | ⟨-, down, ⟨passed, ran⟩ | ⟨exit, stopped, ran⟩⟩
    · rw [ran] at failed
      exact absurd rfl failed
    · rw [ran] at failed
      exact absurd passed failed
    · by_cases narrow : formats.fwdProcRate.hz ≤ 16000
      · rw [initializeComponent_passes _ (fun _ => narrow) creates] at stopped
        cases stopped
      · have refused :=
          @initializeComponent_of_wide _ _ created
            { aecm with enabled := true } rfl narrow
        rw [refused] at ran
        rw [ran, ← down]

end EchoControlMobile

end Enable

namespace AudioProcessingImpl

section Calls

/-- Enabling a component keeps the exclusion. -/
theorem exclusive_enable
    (created : Creations)
    (component : Component)
    (flag : Bool)
    {apm : AudioProcessingImpl cores}
    (held : apm.configuration.Exclusive) :
    (enable created component flag apm).1.configuration.Exclusive := by
  obtain ⟨notBoth, narrow⟩ := held
  cases component with
  | echoCancellation =>
      have flags :=
        @EchoCancellation.enabled_enable _ apm.formats created.aec
          apm.echoControlMobile.enabled flag apm.echoCancellation
      refine ⟨?_, narrow⟩
      rintro ⟨echoEnabled, mobileEnabled⟩
      have echoNow := flags.symm.trans echoEnabled
      split at echoNow
      next passed =>
          subst echoNow
          have otherDown :=
            EchoCancellation.other_of_enable
              (Option.isNone_iff_eq_none.mp passed)
          exact Bool.false_ne_true (otherDown.symm.trans mobileEnabled)
      next =>
          exact notBoth ⟨echoNow, mobileEnabled⟩
  | echoControlMobile =>
      have flags :=
        @EchoControlMobile.enabled_enable _ apm.formats created.aecm
          apm.echoCancellation.enabled flag apm.echoControlMobile
      constructor
      · rintro ⟨echoEnabled, mobileEnabled⟩
        have mobileNow := flags.symm.trans mobileEnabled
        split at mobileNow
        next passed =>
            subst mobileNow
            have otherDown :=
              EchoControlMobile.other_of_enable
                (Option.isNone_iff_eq_none.mp passed)
            exact Bool.false_ne_true (otherDown.symm.trans echoEnabled)
        next =>
            exact notBoth ⟨echoEnabled, mobileNow⟩
      · intro mobileEnabled
        have mobileNow := flags.symm.trans mobileEnabled
        split at mobileNow
        next passed =>
            subst mobileNow
            exact
              EchoControlMobile.narrow_of_enable narrow
                (Option.isNone_iff_eq_none.mp passed)
        next =>
            exact narrow mobileNow
  | _ => exact ⟨notBoth, narrow⟩

/-- Every call keeps the exclusion. -/
theorem exclusive_perform
    (created : Creations)
    (call : Call cores)
    {apm : AudioProcessingImpl cores}
    (held : apm.configuration.Exclusive) :
    (perform created call apm).1.configuration.Exclusive := by
  by_cases may : call.mayInitialize = true
  · have relation :=
      processingRelation_of_configuration Configuration.Exclusive
        (fun (apm : AudioProcessingImpl cores) =>
          exclusive_of_modes (modes_initializeLocked created apm))
        (fun config _ =>
          exclusive_initializeLockedWith created config)
    exact relation.perform may apm held
  · by_cases sets : call.setsParameter = true
    · rw [configuration_of_setsParameter created sets]
      exact held
    · cases call with
      | enable component flag =>
          exact exclusive_enable created component flag held
      | setEchoPath path sizeMatches =>
          refine exclusive_of_modes ?_ held
          simp only [perform, onEchoControlMobile,
            EchoControlMobile.setEchoPath]
          split
          · rfl
          · split
            · rfl
            · simp only [modes,
                EchoControlMobile.enabled_initializeComponent]
      | setMode _ => exact @exclusive_of_modes _ apm _ rfl held
      | setAnalogLevelLimits _ _ => exact @exclusive_of_modes _ apm _ rfl held
      | setTargetLevelDbfs _ => exact @exclusive_of_modes _ apm _ rfl held
      | setCompressionGainDb _ => exact @exclusive_of_modes _ apm _ rfl held
      | enableLimiter _ => exact @exclusive_of_modes _ apm _ rfl held
      | _ => first | exact absurd rfl may | exact absurd rfl sets

/-- A call that enables or disables one of the echo cancellers. -/
def enablesCanceller : Call cores → Bool
  | .enable .echoCancellation _ => true
  | .enable .echoControlMobile _ => true
  | _ => false

/-- An `Enable` call that fails leaves the flags of both cancellers alone. -/
theorem modes_of_enable_error
    {created : Creations}
    {call : Call cores}
    (enables : enablesCanceller call = true)
    {apm : AudioProcessingImpl cores}
    (failed : (perform created call apm).2 ≠ none) :
    (perform created call apm).1.modes = apm.modes := by
  cases call with
  | enable component flag =>
      cases component with
      | echoCancellation =>
          exact
            congrArg (fun up => (apm.formats, up, _))
              (EchoCancellation.enabled_enable_of_error failed)
      | echoControlMobile =>
          exact
            congrArg (fun up => (apm.formats, _, up))
              (EchoControlMobile.enabled_enable_of_error failed)
      | _ => cases enables
  | _ => cases enables

/-- With all handles allocated it leaves the whole module alone. -/
theorem perform_of_enable_error
    {created : Creations}
    (succeed : created.Succeed)
    {call : Call cores}
    (enables : enablesCanceller call = true)
    {apm : AudioProcessingImpl cores}
    (failed : (perform created call apm).2 ≠ none) :
    (perform created call apm).1 = apm := by
  cases call with
  | enable component flag =>
      cases component with
      | echoCancellation =>
          exact
            congrArg (fun aec => { apm with echoCancellation := aec })
              (EchoCancellation.enable_of_error succeed.aec failed)
      | echoControlMobile =>
          exact
            congrArg (fun aecm => { apm with echoControlMobile := aecm })
              (EchoControlMobile.enable_of_error succeed.aecm failed)
      | _ => cases enables
  | _ => cases enables

end Calls

section Runs

/-- No canceller is enabled in a module that has just been created. -/
theorem exclusive_create :
    (@create cores).configuration.Exclusive := by
  refine exclusive_of_modes (modes_initializeLocked .all construct) ?_
  constructor
  · rintro ⟨echoEnabled, -⟩
    cases echoEnabled
  · intro mobileEnabled
    cases mobileEnabled

/--
In every state that a sequence of calls reaches the echo cancellers exclude each
other and the mobile one runs at 16 kHz at most.  An `Enable` call of either that
returns an error leaves the flags as they were, and it leaves the whole module as
it was when every handle it asks for can be allocated.
-/
theorem run_exclusive_atomic
    {moves : Calls cores}
    {final : AudioProcessingImpl cores}
    (path : Path apiStep create moves final) :
    final.configuration.Exclusive ∧
      (∀ move ∈ moves, move.target.configuration.Exclusive) ∧
      ∀ move ∈ moves,
        enablesCanceller move.label.call = true →
          move.label.status ≠ none →
            move.target.modes = move.source.modes ∧
              (move.label.created.Succeed → move.target = move.source) := by
  have kept :=
    Path.invariant (fun apm => apm.configuration.Exclusive)
      (fun held taken => by
        rw [← apiStep.performed taken]
        exact exclusive_perform _ _ held)
      exclusive_create path
  refine ⟨kept.2, fun move member => (kept.1 move member).2, ?_⟩
  intro move member enables failed
  have taken := path.step_of_mem member
  have stopped :
      (perform move.label.created move.label.call move.source).2 ≠ none := by
    rw [taken.returned]
    simpa using failed
  rw [← taken.performed]
  exact
    ⟨modes_of_enable_error enables stopped,
      fun succeed => perform_of_enable_error succeed enables stopped⟩

/-- The mobile canceller is refused while the other one is enabled. -/
theorem run_exclusive_atomic_refused :
    let records : List (CallRecord .passThrough) :=
      [⟨.enable .echoCancellation true, .all, none⟩,
        ⟨.enable .echoControlMobile true, .all, some .kBadParameterError⟩]
    (stateAfter create records).configuration.Exclusive ∧
      (movesOf create records).length = 2 := by
  intro records
  exact
    ⟨(run_exclusive_atomic (path_movesOf (by decide +kernel))).1, rfl⟩

/--
The echo canceller has been used for one channel, and the second handle of a
stereo format cannot be allocated: `Enable` returns an error, but the component
keeps the new handle count with a null handle, which the next setting follows.
-/
theorem enable_echo_not_atomic :
    ∃ (moves : Calls .passThrough) (final : AudioProcessingImpl .passThrough),
      Path apiStep create moves final ∧
        ∃ move ∈ moves,
          enablesCanceller move.label.call = true ∧
            move.label.status = some .kCreationFailedError ∧
            move.source.echoCancellation.numHandles = 1 ∧
            move.target.echoCancellation.numHandles = 2 ∧
            (perform .all (.setSuppressionLevel .kHighSuppression)
              move.source).2 = none ∧
            (perform .all (.setSuppressionLevel .kHighSuppression)
              move.target).2 = some .abort := by
  let records : List (CallRecord .passThrough) :=
    [⟨.enable .echoCancellation true, .all, none⟩,
      ⟨.enable .echoCancellation false, .all, none⟩,
      ⟨.processStream (some (.silent .kSampleRate16kHz 2)), .all, none⟩]
  let failing : CallRecord .passThrough :=
    { call := .enable .echoCancellation true
      created := ⟨fun index => index != 1, fun _ => true⟩
      status := some .kCreationFailedError }
  have leading :
      Path apiStep create (movesOf create records)
        (stateAfter create records) :=
    path_movesOf (by decide +kernel)
  have taken :
      Path apiStep (stateAfter create records)
        (movesOf (stateAfter create records) [failing])
        (stateAfter (stateAfter create records) [failing]) :=
    path_movesOf (by decide +kernel)
  refine
    ⟨_, _, leading.append taken, _,
      List.mem_append_right _ (List.mem_singleton.mpr rfl), rfl, rfl, ?_⟩
  exact
    ⟨by decide +kernel, by decide +kernel, by decide +kernel,
      by decide +kernel⟩

end Runs

end AudioProcessingImpl

end ApmSdk.AudioProcessing
