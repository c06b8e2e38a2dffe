import ApmSdk.Readiness

namespace ApmSdk.AudioProcessing

/-!
# The flag `was_stream_delay_set` in every call

Only `set_stream_delay_ms` raises the flag, `ProcessStreamLocked` lowers it when
it succeeds, and both echo cancellers refuse a frame without it.  Every other
part of every call leaves it up at most where it was, and passes no delay that
is out of range.
-/

variable {cores : Cores}

namespace AudioProcessingImpl

/-- Every delay in a record is one that `set_stream_delay_ms` can store. -/
def InDelayRange (delays : List Int) : Prop :=
  ∀ delay ∈ delays, 0 ≤ delay ∧ delay ≤ 500

theorem inDelayRange_append
    {delays : List Int}
    (inRange : InDelayRange delays)
    (delay : StreamDelay) :
    InDelayRange (delays ++ [delay.ms]) := by
  intro passed member
  rcases List.mem_append.mp member with old | new
  · exact inRange passed old
  · rw [List.mem_singleton.mp new]
    exact delay.inRange

/-- The delays that the two cancellers have been given so far are in range. -/
structure DelaysInRange (apm : AudioProcessingImpl cores) : Prop where
  echo : InDelayRange apm.echoCancellation.passedDelays
  mobile : InDelayRange apm.echoControlMobile.passedDelays

/-- A change that raises no flag and passes no delay out of range. -/
structure DelayStep (before after : AudioProcessingImpl cores) : Prop where
  flag :
    after.wasStreamDelaySet = true → before.wasStreamDelaySet = true
  delays : DelaysInRange before → DelaysInRange after

namespace DelayStep

theorem refl (apm : AudioProcessingImpl cores) : DelayStep apm apm :=
  ⟨id, id⟩

theorem trans
    {first second third : AudioProcessingImpl cores}
    (earlier : DelayStep first second)
    (later : DelayStep second third) :
    DelayStep first third :=
  ⟨earlier.flag ∘ later.flag, later.delays ∘ earlier.delays⟩

/-- Touching neither the flag nor the two records is such a change. -/
theorem of_same
    {before after : AudioProcessingImpl cores}
    (flag : after.wasStreamDelaySet = before.wasStreamDelaySet)
    (echo :
      after.echoCancellation.passedDelays =
        before.echoCancellation.passedDelays)
    (mobile :
      after.echoControlMobile.passedDelays =
        before.echoControlMobile.passedDelays) :
    DelayStep before after where
  flag := fun up => flag.symm.trans up
  delays := fun inRange =>
    ⟨by rw [echo]; exact inRange.echo,
      by rw [mobile]; exact inRange.mobile⟩

end DelayStep

section Capture

/-- The capture loop of the echo canceller passes on the delay it is given. -/
theorem inDelayRange_echoCapture
    {formats : StreamFormats}
    {wasSet : Bool}
    (delay : StreamDelay)
    {aec : EchoCancellation cores}
    (audio : AudioBuffer cores)
    (inRange : InDelayRange aec.passedDelays) :
    InDelayRange
      (EchoCancellation.processCaptureAudio formats delay.ms wasSet
        (aec, audio)).1.1.passedDelays := by
  simp only [EchoCancellation.processCaptureAudio]
  split
  · exact inRange
  · split
    · exact inRange
    · split
      · exact inRange
      · split
        · exact inRange
        · refine
            forSlots_shared _ _
              (fun loop : EchoCancellation.CaptureLoop cores =>
                InDelayRange loop.passedDelays)
              ?_ _ _ _ inRange
          intro index slot shared held
          cases slot with
          | none =>
              exact held
          | some handle =>
              have passed := inDelayRange_append held delay
              simp only [EchoCancellation.processSlot]
              split
              · exact passed
              · split <;> exact passed

/-- So does that of the mobile echo canceller. -/
theorem inDelayRange_mobileCapture
    {formats : StreamFormats}
    {wasSet : Bool}
    (delay : StreamDelay)
    {aecm : EchoControlMobile cores}
    (audio : AudioBuffer cores)
    (inRange : InDelayRange aecm.passedDelays) :
    InDelayRange
      (EchoControlMobile.processCaptureAudio formats delay.ms wasSet
        (aecm, audio)).1.1.passedDelays := by
  simp only [EchoControlMobile.processCaptureAudio]
  split
  · exact inRange
  · split
    · exact inRange
    · split
      · exact inRange
      · refine
          forSlots_shared _ _
            (fun loop : EchoControlMobile.CaptureLoop cores =>
              InDelayRange loop.passedDelays)
            ?_ _ _ _ inRange
        intro index slot shared held
        cases slot with
        | none =>
            exact held
        | some handle =>
            exact inDelayRange_append held delay

theorem delayStep_echoCapture (apm : AudioProcessingImpl cores) :
    DelayStep apm (echoCapture apm).1 where
  flag := id
  delays := fun inRange =>
    ⟨inDelayRange_echoCapture apm.streamDelayMs _ inRange.echo,
      inRange.mobile⟩

theorem delayStep_mobileCapture (apm : AudioProcessingImpl cores) :
    DelayStep apm (mobileCapture apm).1 where
  flag := id
  delays := fun inRange =>
    ⟨inRange.echo,
      inDelayRange_mobileCapture apm.streamDelayMs _ inRange.mobile⟩

/-- Every stage of the capture chain is such a change. -/
theorem delayStep_of_mem_captureStages
    (dataProcessed : Bool) :
    ∀ stage ∈ @captureStages cores dataProcessed,
      ∀ apm, DelayStep apm (stage apm).1 := by
  unfold captureStages
  refine forall_mem_stages_cons (fun apm => ?histograms) ?_
  case histograms =>
      simp only [maybeUpdateHistograms]
      split
      · exact .refl apm
      · split <;> exact .of_same rfl rfl rfl
  refine forall_mem_stages_cons (fun apm => ?split) ?_
  case split =>
      unfold splitCapture
      split <;> exact .of_same rfl rfl rfl
  refine forall_mem_stages_cons (fun _ => .of_same rfl rfl rfl) ?_
  refine forall_mem_stages_cons (fun _ => .of_same rfl rfl rfl) ?_
  refine forall_mem_stages_cons (fun _ => .of_same rfl rfl rfl) ?_
  refine forall_mem_stages_cons delayStep_echoCapture ?_
  refine forall_mem_stages_cons (fun apm => ?reference) ?_
  case reference =>
      unfold referenceCapture
      split <;> exact .of_same rfl rfl rfl
  refine forall_mem_stages_cons (fun _ => .of_same rfl rfl rfl) ?_
  refine forall_mem_stages_cons delayStep_mobileCapture ?_
  refine forall_mem_stages_cons (fun _ => .of_same rfl rfl rfl) ?_
  refine forall_mem_stages_cons (fun _ => .of_same rfl rfl rfl) ?_
  refine forall_mem_stages_cons (fun apm => ?merge) ?_
  case merge =>
      unfold mergeCapture
      split <;> exact .of_same rfl rfl rfl
  refine forall_mem_stages_cons (fun _ => .of_same rfl rfl rfl) ?_
  refine forall_mem_stages_cons (fun apm => ?clear) (List.forall_mem_nil _)
  case clear =>
      constructor
      · intro up
        simp [clearStreamDelay] at up
      · exact fun inRange => ⟨inRange.echo, inRange.mobile⟩

/-- A captured frame that is processed uses the delay up. -/
theorem flag_processStreamLocked
    {apm : AudioProcessingImpl cores}
    (passed : (processStreamLocked apm).2 = none) :
    (processStreamLocked apm).1.wasStreamDelaySet = false := by
  refine
    holds_of_completed
      (fun reached : AudioProcessingImpl cores =>
        reached.wasStreamDelaySet = false)
      ?_ (?_ : clearStreamDelay ∈ captureStages apm.isDataProcessed)
      (fun _ _ => rfl) passed
  · intro stage member reached down
    have step :=
      delayStep_of_mem_captureStages apm.isDataProcessed stage member reached
    rw [← Bool.not_eq_true] at down ⊢
    exact fun up => down (step.flag up)
  · simp [captureStages]

end Capture

/-- A processing call changes the two flags of the cancellers in no way. -/
structure SessionStep (before after : AudioProcessingImpl cores) : Prop where
  delay : DelayStep before after
  echo :
    after.echoCancellation.enabled = before.echoCancellation.enabled
  mobile :
    after.echoControlMobile.enabled = before.echoControlMobile.enabled

namespace SessionStep

theorem refl (apm : AudioProcessingImpl cores) : SessionStep apm apm :=
  ⟨.refl apm, rfl, rfl⟩

theorem trans
    {first second third : AudioProcessingImpl cores}
    (earlier : SessionStep first second)
    (later : SessionStep second third) :
    SessionStep first third :=
  ⟨earlier.delay.trans later.delay, later.echo.trans earlier.echo,
    later.mobile.trans earlier.mobile⟩

/-- The flags are part of the configuration. -/
theorem of_configuration
    {before after : AudioProcessingImpl cores}
    (delay : DelayStep before after)
    (same : after.configuration = before.configuration) :
    SessionStep before after where
  delay := delay
  echo :=
    congrArg (fun configuration => configuration.echoCancellation.enabled)
      same
  mobile :=
    congrArg (fun configuration => configuration.echoControlMobile.enabled)
      same

end SessionStep

theorem sessionStep_initializeLocked
    (created : Creations)
    (apm : AudioProcessingImpl cores) :
    SessionStep apm (initializeLocked created apm).1 := by
  refine
    runStages_related SessionStep SessionStep.refl SessionStep.trans ?_ apm
  unfold initializeStages
  refine forall_mem_stages_cons (fun apm => ⟨.of_same rfl rfl rfl, rfl, rfl⟩) ?_
  refine forall_mem_stages_cons (fun apm => ?echo) ?_
  case echo =>
      exact
        ⟨.of_same rfl rfl rfl,
          EchoCancellation.enabled_initializeComponent _, rfl⟩
  refine forall_mem_stages_cons (fun apm => ?mobile) ?_
  case mobile =>
      refine
        ⟨.of_same rfl rfl ?_, rfl,
          EchoControlMobile.enabled_initializeComponent _⟩
      simp only [initializeMobile, onEchoControlMobile,
        EchoControlMobile.initializeComponent]
      split
      · rfl
      · split <;> rfl
  refine forall_mem_stages_cons (fun apm => ⟨.of_same rfl rfl rfl, rfl, rfl⟩) ?_
  exact
    forall_mem_stages_cons
      (fun apm => ⟨.of_same rfl rfl rfl, rfl, rfl⟩) (List.forall_mem_nil _)

/-- Every part of a processing call is such a change. -/
theorem sessionStep_relation (created : Creations) :
    ProcessingRelation created (@SessionStep cores) where
  unchanged := .refl
  composed := .trans
  initializes := sessionStep_initializeLocked created
  initializesWith := by
    intro config apm
    unfold initializeLockedWith
    split
    · exact .refl apm
    next checked =>
        have prepared :
            SessionStep apm
              { apm with
                formats :=
                  .choose config checked apm.echoControlMobile.enabled } :=
          ⟨.of_same rfl rfl rfl, rfl, rfl⟩
        exact prepared.trans (sessionStep_initializeLocked created _)
  reads := by
    intro apm
    refine .of_configuration ?_ (keeps_readQueuedRenderData apm)
    refine
      runStages_related DelayStep DelayStep.refl DelayStep.trans ?_ apm
    exact
      forall_mem_stages_cons (fun _ => .of_same rfl rfl rfl)
        (forall_mem_stages_cons (fun _ => .of_same rfl rfl rfl)
          (forall_mem_stages_cons (fun _ => .of_same rfl rfl rfl)
            (List.forall_mem_nil _)))
  loadsCapture := fun _ _ _ => ⟨.of_same rfl rfl rfl, rfl, rfl⟩
  loadsRender := fun _ _ _ _ _ => ⟨.of_same rfl rfl rfl, rfl, rfl⟩
  captures := by
    intro apm
    refine .of_configuration ?_ (keeps_processStreamLocked apm)
    exact
      runStages_related DelayStep DelayStep.refl DelayStep.trans
        (delayStep_of_mem_captureStages apm.isDataProcessed) apm
  renders := by
    intro apm
    refine .of_configuration ?_ (keeps_processReverseStreamLocked apm)
    have withRender_step :
        ∀ {stage :
            AudioBuffer cores → Stage (AudioProcessingImpl cores) Exit},
          (∀ audio apm, DelayStep apm (stage audio apm).1) →
            ∀ apm, DelayStep apm (withRender stage apm).1 := by
      intro stage each apm
      unfold withRender
      split
      · exact .refl apm
      · exact each _ apm
    refine
      runStages_related DelayStep DelayStep.refl DelayStep.trans ?_ apm
    refine forall_mem_stages_cons (fun apm => ?split) ?_
    case split =>
        unfold splitRender
        split <;> exact .of_same rfl rfl rfl
    refine
      forall_mem_stages_cons (withRender_step fun audio apm => ?echo) ?_
    case echo =>
        refine .of_same rfl ?_ rfl
        simp only [onEchoCancellation, EchoCancellation.processRenderAudio]
        split
        · rfl
        · split
          · rfl
          · split <;> rfl
    refine
      forall_mem_stages_cons (withRender_step fun audio apm => ?mobile) ?_
    case mobile =>
        refine .of_same rfl rfl ?_
        simp only [onEchoControlMobile,
          EchoControlMobile.processRenderAudio]
        split
        · rfl
        · split <;> rfl
    exact
      forall_mem_stages_cons
        (withRender_step fun _ _ => .of_same rfl rfl rfl)
        (List.forall_mem_nil _)

section Calls

/-- `Initialize` of the mobile canceller passes no delay. -/
theorem passedDelays_initializeMobile
    (formats : StreamFormats)
    (created : Nat → Bool)
    (aecm : EchoControlMobile cores) :
    (EchoControlMobile.initializeComponent formats created
        aecm).1.passedDelays =
      aecm.passedDelays := by
  simp only [EchoControlMobile.initializeComponent]
  split
  · rfl
  · split <;> rfl

/-- Enabling a component raises no flag and passes no delay. -/
theorem delayStep_enable
    (created : Creations)
    (component : Component)
    (flag : Bool)
    (apm : AudioProcessingImpl cores) :
    DelayStep apm (enable created component flag apm).1 := by
  cases component with
  | echoCancellation =>
      refine .of_same rfl ?_ rfl
      simp only [enable, onEchoCancellation, EchoCancellation.enable]
      split
      · rfl
      · apply enableComponent_frame EchoCancellation.passedDelays
        · exact fun _ _ => rfl
        · exact fun _ => rfl
  | echoControlMobile =>
      refine .of_same rfl rfl ?_
      simp only [enable, onEchoControlMobile, EchoControlMobile.enable]
      split
      · rfl
      · apply enableComponent_frame EchoControlMobile.passedDelays
        · exact fun _ _ => rfl
        · exact passedDelays_initializeMobile _ _
  | _ => exact .of_same rfl rfl rfl

/-- Every call but `set_stream_delay_ms` is a change that grants nothing. -/
theorem delayStep_perform
    (created : Creations)
    {call : Call cores}
    (other : call.isSetStreamDelay = false)
    (apm : AudioProcessingImpl cores) :
    DelayStep apm (perform created call apm).1 := by
  by_cases may : call.mayInitialize = true
  · exact ((sessionStep_relation created).perform may apm).delay
  · cases call with
    | initializeCurrent
    | initializeWith _
    | processStream _
    | processStreamFloat _ _ _
    | processReverseStream _
    | processReverseStreamFloat _ _ _ => exact absurd rfl may
    | setStreamDelayMs delay => cases other
    | enable component flag =>
        exact delayStep_enable created component flag apm
    | setEchoPath path sizeMatches =>
        refine .of_same rfl rfl ?_
        simp only [perform, onEchoControlMobile,
          EchoControlMobile.setEchoPath]
        split
        · rfl
        · split
          · rfl
          · exact passedDelays_initializeMobile ..
    | _ => exact .of_same rfl rfl rfl

/-- Whether either canceller is enabled. -/
def cancels (apm : AudioProcessingImpl cores) : Bool :=
  apm.echoCancellation.enabled || apm.echoControlMobile.enabled

/-- A canceller is enabled and has no delay to work with. -/
def Undelayed (apm : AudioProcessingImpl cores) : Prop :=
  apm.wasStreamDelaySet = false ∧ apm.cancels = true

theorem SessionStep.undelayed
    {before after : AudioProcessingImpl cores}
    (step : SessionStep before after)
    (undelayed : Undelayed before) :
    Undelayed after := by
  refine ⟨?_, ?_⟩
  · rw [← Bool.not_eq_true]
    intro up
    have raised := step.delay.flag up
    rw [undelayed.1] at raised
    cases raised
  · rw [cancels, step.echo, step.mobile]
    exact undelayed.2

/-- The capture chain does not complete without a delay for a canceller. -/
theorem processStreamLocked_of_undelayed
    {apm : AudioProcessingImpl cores}
    (undelayed : Undelayed apm) :
    (processStreamLocked apm).2 ≠ none := by
  have preserved :
      ∀ stage ∈ @captureStages cores apm.isDataProcessed, ∀ reached,
        SessionStep reached (stage reached).1 := by
    intro stage member reached
    exact
      .of_configuration
        (delayStep_of_mem_captureStages _ stage member reached)
        (keeps_of_mem_captureStages _ stage member reached)
  cases echo : apm.echoCancellation.enabled with
  | true =>
      refine
        not_completed_of_blocked
          (fun reached : AudioProcessingImpl cores =>
            reached.wasStreamDelaySet = false ∧
              reached.echoCancellation.enabled = true)
          ?_ (?_ : echoCapture ∈ captureStages apm.isDataProcessed)
          ?_ ⟨undelayed.1, echo⟩
      · intro stage member reached held
        have step := preserved stage member reached
        exact
          ⟨(step.undelayed ⟨held.1, by simp [cancels, held.2]⟩).1,
            step.echo.trans held.2⟩
      · simp [captureStages]
      · rintro reached ⟨unset, enabled⟩
        simp [echoCapture, EchoCancellation.processCaptureAudio, unset,
          enabled]
  | false =>
      have mobile : apm.echoControlMobile.enabled = true := by
        simpa [cancels, echo] using undelayed.2
      refine
        not_completed_of_blocked
          (fun reached : AudioProcessingImpl cores =>
            reached.wasStreamDelaySet = false ∧
              reached.echoControlMobile.enabled = true)
          ?_ (?_ : mobileCapture ∈ captureStages apm.isDataProcessed)
          ?_ ⟨undelayed.1, mobile⟩
      · intro stage member reached held
        have step := preserved stage member reached
        exact
          ⟨(step.undelayed ⟨held.1, by simp [cancels, held.2]⟩).1,
            step.mobile.trans held.2⟩
      · simp [captureStages]
      · rintro reached ⟨unset, enabled⟩
        simp [mobileCapture, EchoControlMobile.processCaptureAudio, unset,
          enabled]

section ProcessStream

variable {Data : Type}
variable {stages : List (Stage (AudioProcessingImpl cores × Data) Exit)}

/-- Stages that are session steps and run the capture chain need a delay. -/
theorem stages_of_undelayed
    (each :
      ∀ stage ∈ stages, ∀ state : AudioProcessingImpl cores × Data,
        SessionStep state.1 (stage state).1.1)
    (member : onModule processStreamLocked ∈ stages)
    (state : AudioProcessingImpl cores × Data)
    (undelayed : Undelayed state.1) :
    (runStages stages state).2 ≠ none :=
  not_completed_of_blocked (fun reached => Undelayed reached.1)
    (fun stage among reached held =>
      (each stage among reached).undelayed held)
    member
    (fun _ held => processStreamLocked_of_undelayed held)
    undelayed

/-- When they complete, the delay has been used up. -/
theorem flag_stages
    (each :
      ∀ stage ∈ stages, ∀ state : AudioProcessingImpl cores × Data,
        SessionStep state.1 (stage state).1.1)
    (member : onModule processStreamLocked ∈ stages)
    {state : AudioProcessingImpl cores × Data}
    (completed : (runStages stages state).2 = none) :
    (runStages stages state).1.1.wasStreamDelaySet = false := by
  refine
    holds_of_completed
      (fun reached : AudioProcessingImpl cores × Data =>
        reached.1.wasStreamDelaySet = false)
      ?_ member (fun _ passed => flag_processStreamLocked passed) completed
  intro stage among reached down
  have step := each stage among reached
  rw [← Bool.not_eq_true] at down ⊢
  exact fun up => down (step.delay.flag up)

end ProcessStream

/-- A `ProcessStream` call that succeeds leaves no delay for the next one. -/
theorem flag_processStream
    {created : Creations}
    {call : Call cores}
    {apm : AudioProcessingImpl cores}
    (processes : call.isProcessStream = true)
    (succeeds : (perform created call apm).2 = none) :
    (perform created call apm).1.wasStreamDelaySet = false ∧
      (apm.cancels = true → apm.wasStreamDelaySet = true) := by
  have needed :
      ∀ {outcome : Option Exit},
        (Undelayed apm → outcome ≠ none) → outcome = none →
          apm.cancels = true → apm.wasStreamDelaySet = true := by
    intro outcome refuses passed cancelling
    by_contra unset
    exact refuses ⟨Bool.not_eq_true _ ▸ unset, cancelling⟩ passed
  have relation := @sessionStep_relation cores created
  cases call with
  | processStream frame =>
      cases frame with
      | none =>
          refine absurd succeeds ?_
          exact
            not_completed_of_blocked (fun _ => True) (fun _ _ _ _ => trivial)
              (List.mem_cons_of_mem _ (List.mem_singleton.mpr rfl))
              (fun _ _ => Option.some_ne_none _) trivial
      | some frame =>
          have member :
              onModule processStreamLocked ∈
                @processStreamStages cores created := by
            simp [processStreamStages]
          exact
            ⟨flag_stages relation.processStreamStages member succeeds,
              needed
                (stages_of_undelayed relation.processStreamStages member
                  (apm, frame))
                succeeds⟩
  | processStreamFloat data inputConfig outputConfig =>
      cases data with
      | none =>
          refine absurd succeeds ?_
          exact
            not_completed_of_blocked (fun _ => True) (fun _ _ _ _ => trivial)
              (List.mem_cons_of_mem _ (List.mem_singleton.mpr rfl))
              (fun _ _ => Option.some_ne_none _) trivial
      | some data =>
          have each :=
            relation.processStreamFloatStages data inputConfig outputConfig
          have member :
              onModule processStreamLocked ∈
                processStreamFloatStages created data inputConfig
                  outputConfig := by
            simp [processStreamFloatStages]
          exact
            ⟨flag_stages each member succeeds,
              needed
                (stages_of_undelayed each member (apm, data))
                succeeds⟩
  | _ => simp [Call.isProcessStream] at processes

end Calls

end AudioProcessingImpl

end ApmSdk.AudioProcessing
