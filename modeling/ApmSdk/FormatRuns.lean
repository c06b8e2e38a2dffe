import ApmSdk.FormatReadiness

namespace ApmSdk.AudioProcessing

/-!
# Frames are processed in their own format

A call whose initialisation cannot be stopped by a component leaves the format in
force and the components together, and its data reaches the components in the
format that it was asked for.
-/

variable {cores : Cores}

/-- The format in force is one that every part of the module is ready for. -/
structure Configuration.Agrees (configuration : Configuration) : Prop where
  exclusive : configuration.Exclusive
  ready : configuration.Ready

namespace AudioProcessingImpl

section Calls

variable {created : Creations}
variable {apm : AudioProcessingImpl cores}

/--
No component that a call initialises can stop it: every handle can be allocated,
and the library takes the level limits of an enabled gain control.
-/
def Clean
    (source : AudioProcessingImpl cores)
    (record : CallRecord cores) : Prop :=
  record.call.mayInitialize = true →
    record.created.Succeed ∧ source.configuration.LimitsTaken

/-- `InitializeLocked()` of a clean call makes every part ready. -/
theorem agrees_initializeLocked
    (succeed : created.Succeed)
    (exclusive : apm.configuration.Exclusive)
    (taken : apm.configuration.LimitsTaken) :
    (initializeLocked created apm).1.configuration.Agrees where
  exclusive := exclusive_of_modes (modes_initializeLocked created apm) exclusive
  ready :=
    ready_initializeLocked (initializeLocked_passes succeed exclusive taken)

/-- Every processing call that is clean keeps format and components together. -/
theorem agreeingRelation (succeed : created.Succeed) :
    ProcessingRelation created
      (fun before after : AudioProcessingImpl cores =>
        before.configuration.Agrees ∧ before.configuration.LimitsTaken →
          after.configuration.Agrees ∧ after.configuration.LimitsTaken) := by
  apply
    processingRelation_of_configuration
      (fun configuration =>
        configuration.Agrees ∧ configuration.LimitsTaken)
  · rintro apm ⟨agrees, taken⟩
    exact
      ⟨agrees_initializeLocked succeed agrees.exclusive taken,
        limitsTaken_initializeLocked taken⟩
  · rintro config apm ⟨agrees, taken⟩
    unfold initializeLockedWith
    split
    next => exact ⟨agrees, taken⟩
    next checked =>
        exact
          ⟨agrees_initializeLocked succeed
              (exclusive_choose agrees.exclusive checked) taken,
            limitsTaken_initializeLocked taken⟩

/-- A clean call leaves format and components together. -/
theorem agrees_of_step
    {source target : AudioProcessingImpl cores}
    {record : CallRecord cores}
    (agrees : source.configuration.Agrees)
    (clean : Clean source record)
    (taken : apiStep source record target) :
    target.configuration.Agrees := by
  rw [← taken.performed]
  cases may : record.call.mayInitialize with
  | true =>
      obtain ⟨succeed, limits⟩ := clean may
      exact
        ((agreeingRelation succeed).perform may source ⟨agrees, limits⟩).1
  | false =>
      exact
        ⟨exclusive_perform record.created record.call agrees.exclusive,
          ready_perform record.created may agrees.ready⟩

/-- A `MaybeInitialize` that fails without a component has changed nothing. -/
theorem maybeInitialize_of_error
    (succeed : created.Succeed)
    (exclusive : apm.configuration.Exclusive)
    (taken : apm.configuration.LimitsTaken)
    {config : ProcessingConfig}
    (failed : (maybeInitialize created config apm).2 ≠ none) :
    (maybeInitialize created config apm).1 = apm := by
  unfold maybeInitialize at failed ⊢
  split
  · rfl
  next other =>
      rw [if_neg other] at failed
      rcases initializeLockedWith_cases succeed exclusive taken config with
        ⟨code, refused⟩ | ⟨passed, -⟩
      · rw [refused]
      · exact absurd passed failed

/-- One that passes has the format in force and every part ready for it. -/
theorem maybeInitialize_of_passed
    (succeed : created.Succeed)
    (agrees : apm.configuration.Agrees)
    (taken : apm.configuration.LimitsTaken)
    {config : ProcessingConfig}
    (passed : (maybeInitialize created config apm).2 = none) :
    let reached := (maybeInitialize created config apm).1
    reached.configuration.Ready ∧ reached.formats.apiFormat = config := by
  unfold maybeInitialize at passed ⊢
  split
  next same => exact ⟨agrees.ready, same.symm⟩
  next other =>
      rw [if_neg other] at passed
      rcases
        initializeLockedWith_cases succeed agrees.exclusive taken config with
        ⟨code, refused⟩ | ⟨-, initialized⟩
      · rw [refused] at passed
        cases passed
      · exact initialized

end Calls

section Prepared

variable {created : Creations}
variable {source reached : AudioProcessingImpl cores}

/--
The stages around a `MaybeInitialize` that keep the configuration: when they have
all completed, every part is ready for the format that was asked for.
-/
theorem ready_of_prepared
    {Data : Type}
    (ask : AudioProcessingImpl cores → Data → ProcessingConfig)
    (asksByFormat :
      ∀ {before after : AudioProcessingImpl cores} {data : Data},
        after.formats = before.formats → ask after data = ask before data)
    {before after : List (Stage (AudioProcessingImpl cores × Data) Exit)}
    (beforeKeeps :
      ∀ stage ∈ before, ∀ state : AudioProcessingImpl cores × Data,
        ((stage state).1.1.configuration, (stage state).1.2) =
          (state.1.configuration, state.2))
    (afterKeeps :
      ∀ stage ∈ after, ∀ state : AudioProcessingImpl cores × Data,
        (stage state).1.1.configuration = state.1.configuration)
    (succeed : created.Succeed)
    (agrees : source.configuration.Agrees)
    (taken : source.configuration.LimitsTaken)
    {data written : Data}
    (completed :
      runStages
          (before ++
            (fun state =>
              onModule (maybeInitialize created (ask state.1 state.2))
                state) ::
            after)
          (source, data) =
        ((reached, written), none)) :
    reached.configuration.Ready ∧
      reached.formats.apiFormat = ask source data := by
  obtain ⟨between, leading, passed, trailing⟩ :=
    exists_reached_of_completed completed
  have kept :=
    runStages_frame
      (fun state : AudioProcessingImpl cores × Data =>
        (state.1.configuration, state.2))
      beforeKeeps (source, data)
  rw [leading] at kept
  obtain ⟨sameConfiguration, sameData⟩ := Prod.mk.inj kept
  have initialized :=
    maybeInitialize_of_passed succeed (sameConfiguration ▸ agrees)
      (sameConfiguration ▸ taken) passed
  have last :=
    runStages_frame
      (fun state : AudioProcessingImpl cores × Data =>
        state.1.configuration)
      afterKeeps
      (onModule (maybeInitialize created (ask between.1 between.2))
        between).1
  rw [trailing] at last
  have asked : ask between.1 between.2 = ask source data := by
    rw [show between.2 = data from sameData]
    exact asksByFormat (congrArg Configuration.formats sameConfiguration)
  constructor
  · rw [show reached.configuration = _ from last]
    exact initialized.1
  · rw [show reached.formats = _ from congrArg Configuration.formats last,
      ← asked]
    exact initialized.2

/--
The components get to process the data of a call, which asks for a format, in a
state of the module.
-/
inductive Reaches
    (created : Creations)
    (source : AudioProcessingImpl cores) :
    Call cores → ProcessingConfig → AudioProcessingImpl cores → Prop where
  | capture
      {frame written : AudioFrame}
      {reached : AudioProcessingImpl cores}
      (completed :
        runStages (prepareStages created) (source, frame) =
          ((reached, written), none)) :
      Reaches created source (.processStream (some frame))
        (source.captureConfig frame) reached
  | captureFloat
      {data written : cores.FloatChannels}
      {inputConfig outputConfig : StreamConfig}
      {reached : AudioProcessingImpl cores}
      (completed :
        runStages
            (prepareFloatStages created data inputConfig outputConfig)
            (source, data) =
          ((reached, written), none)) :
      Reaches created source
        (.processStreamFloat (some data) inputConfig outputConfig)
        (source.captureFloatConfig inputConfig outputConfig) reached
  | render
      {frame written : AudioFrame}
      {reached : AudioProcessingImpl cores}
      (completed :
        runStages (prepareReverseStages created) (source, frame) =
          ((reached, written), none)) :
      Reaches created source (.processReverseStream (some frame))
        (source.renderConfig frame) reached
  | renderFloat
      {data written : cores.FloatChannels}
      {inputConfig outputConfig : StreamConfig}
      {reached : AudioProcessingImpl cores}
      (completed :
        runStages
            (prepareReverseFloatStages created data inputConfig
              outputConfig)
            (source, data) =
          ((reached, written), none)) :
      Reaches created source
        (.processReverseStreamFloat (some data) inputConfig outputConfig)
        (source.renderFloatConfig inputConfig outputConfig) reached

/-- Loading a captured frame keeps the configuration. -/
theorem configuration_loadFrame
    (state : AudioProcessingImpl cores × AudioFrame) :
    (loadFrame state).1.1.configuration = state.1.configuration := by
  unfold loadFrame
  split
  next => rfl
  next loaded loads =>
      have sizes := AudioBuffer.sizes_deinterleaveFrom loads
      simp only [configuration, sizes]

/-- Loading a render frame keeps the configuration. -/
theorem configuration_loadReverseFrame
    (state : AudioProcessingImpl cores × AudioFrame) :
    (loadReverseFrame state).1.1.configuration =
      state.1.configuration := by
  unfold loadReverseFrame
  split
  next => rfl
  next loaded loads =>
      obtain ⟨audio, present, loads⟩ := Option.bind_eq_some_iff.mp loads
      have sizes := AudioBuffer.sizes_deinterleaveFrom loads
      simp only [configuration, present, Option.map_some, sizes]

/-- So does loading float render data. -/
theorem configuration_loadReverseFloat
    (src : cores.FloatChannels)
    (state : AudioProcessingImpl cores × cores.FloatChannels) :
    (loadReverseFloat src state).1.1.configuration =
      state.1.configuration := by
  simp only [loadReverseFloat, onModule]
  split
  next => rfl
  next audio present =>
      simp only [configuration, present, Option.map_some]
      rfl

/-- Data that reaches the components of a clean call is in their format. -/
theorem Reaches.ready
    {call : Call cores}
    {config : ProcessingConfig}
    (reaches : Reaches created source call config reached)
    (succeed : created.Succeed)
    (agrees : source.configuration.Agrees)
    (taken : source.configuration.LimitsTaken) :
    reached.configuration.Ready ∧ reached.formats.apiFormat = config := by
  have drains :
      ∀ {Data : Type} (state : AudioProcessingImpl cores × Data),
        ((onModule readQueuedRenderData state).1.1.configuration,
            (onModule readQueuedRenderData state).1.2) =
          (state.1.configuration, state.2) :=
    fun state =>
      congrArg (fun configuration => (configuration, state.2))
        (keeps_readQueuedRenderData state.1)
  cases reaches with
  | capture completed =>
      refine
        ready_of_prepared captureConfig
          (fun same => by simp only [captureConfig, same])
          (?_ : ∀ stage ∈ [onModule readQueuedRenderData, checkFrameRate], _)
          (?_ : ∀ stage ∈ [checkFrameLength, loadFrame], _)
          succeed agrees taken completed
      · exact
          List.forall_mem_cons.mpr
            ⟨drains, List.forall_mem_singleton.mpr fun _ => rfl⟩
      · exact
          List.forall_mem_cons.mpr
            ⟨fun _ => rfl,
              List.forall_mem_singleton.mpr configuration_loadFrame⟩
  | @captureFloat data _ inputConfig outputConfig _ completed =>
      refine
        ready_of_prepared
          (fun apm _ => apm.captureFloatConfig inputConfig outputConfig)
          (fun same => by simp only [captureFloatConfig, same])
          (?_ : ∀ stage ∈ [onModule readQueuedRenderData], _)
          (?_ : ∀ stage ∈ [loadFloat data], _)
          succeed agrees taken completed
      · exact List.forall_mem_singleton.mpr drains
      · exact List.forall_mem_singleton.mpr fun _ => rfl
  | render completed =>
      refine
        ready_of_prepared renderConfig
          (fun same => by simp only [renderConfig, same])
          (?_ : ∀ stage ∈ [checkReverseFrame], _)
          (?_ : ∀ stage ∈ [checkReverseFrameLength, loadReverseFrame], _)
          succeed agrees taken completed
      · exact List.forall_mem_singleton.mpr fun _ => rfl
      · exact
          List.forall_mem_cons.mpr
            ⟨fun _ => rfl,
              List.forall_mem_singleton.mpr configuration_loadReverseFrame⟩
  | @renderFloat data _ inputConfig outputConfig _ completed =>
      refine
        ready_of_prepared
          (fun apm _ => apm.renderFloatConfig inputConfig outputConfig)
          (fun same => by simp only [renderFloatConfig, same])
          (?_ : ∀ stage ∈ [checkReverseChannels inputConfig], _)
          (?_ : ∀ stage ∈ [loadReverseFloat data], _)
          succeed agrees taken completed
      · exact List.forall_mem_singleton.mpr fun _ => rfl
      · exact
          List.forall_mem_singleton.mpr (configuration_loadReverseFloat data)

end Prepared

section Runs

theorem limitsTaken_construct :
    (@construct cores).configuration.LimitsTaken := by
  intro enabled
  cases enabled

/-- A module that has just been created is ready for its default format. -/
theorem agrees_create : (@create cores).configuration.Agrees := by
  refine
    agrees_initializeLocked Creations.succeed_all ⟨?_, ?_⟩
      limitsTaken_construct
  · rintro ⟨enabled, -⟩
    cases enabled
  · intro enabled
    cases enabled

/--
In a run of clean calls every state has its components ready for the format in
force, an initialisation that fails leaves the module as it was, and data reaches
the components only in the format that they have been made ready for.
-/
theorem run_ready_of_clean
    {moves : Calls cores}
    {final : AudioProcessingImpl cores}
    (path : Path apiStep create moves final)
    (clean : ∀ move ∈ moves, Clean move.source move.label) :
    ∀ move ∈ moves,
      move.target.configuration.Ready ∧
        (move.label.call.mayInitialize = true →
          ∀ (apm : AudioProcessingImpl cores) (config : ProcessingConfig),
            apm.configuration = move.source.configuration →
              (maybeInitialize move.label.created config apm).2 ≠ none →
                (maybeInitialize move.label.created config apm).1 = apm) ∧
        ∀ config reached,
          Reaches move.label.created move.source move.label.call config
              reached →
            reached.configuration.Ready ∧
              reached.formats.apiFormat = config := by
  have kept :=
    Path.invariant_of_guard
      (fun apm : AudioProcessingImpl cores => apm.configuration.Agrees)
      Clean agrees_of_step agrees_create path clean
  intro move member
  obtain ⟨before, after⟩ := kept.1 move member
  refine ⟨after.ready, ?fails, ?reaches⟩
  case fails =>
      intro may apm config same failed
      obtain ⟨succeed, taken⟩ := clean move member may
      exact
        maybeInitialize_of_error succeed (same ▸ before.exclusive)
          (same ▸ taken) failed
  case reaches =>
      intro config reached reaches
      have may : move.label.call.mayInitialize = true := by
        generalize move.label.call = call at reaches
        cases reaches <;> rfl
      obtain ⟨succeed, taken⟩ := clean move member may
      exact reaches.ready succeed before taken

/-- Three formats one after another, the third of which is refused. -/
theorem run_ready_of_clean_three :
    let records : List (CallRecord .passThrough) :=
      [⟨.enable .highPassFilter true, .all, none⟩,
        ⟨.processStream (some (.silent .kSampleRate8kHz 1)), .all, none⟩,
        ⟨.processStream (some (.silent .kSampleRate48kHz 2)), .all, none⟩,
        ⟨.initializeWith (.uniform 0 1), .all, some .kBadSampleRateError⟩]
    ∀ move ∈ movesOf create records, move.target.configuration.Ready := by
  intro records move member
  have clean :
      ∀ move ∈ movesOf create records, Clean move.source move.label := by
    simp only [records, movesOf, List.forall_mem_cons]
    refine ⟨?_, ?_, ?_, ?_, List.forall_mem_nil _⟩
    · exact fun may => nomatch may
    · exact fun _ => ⟨Creations.succeed_all, by decide +kernel⟩
    · exact fun _ => ⟨Creations.succeed_all, by decide +kernel⟩
    · exact fun _ => ⟨Creations.succeed_all, by decide +kernel⟩
  exact
    (run_ready_of_clean (path_movesOf (by decide +kernel)) clean move
      member).1

/--
A gain control whose limits the library refuses stops the initialisation for
8 kHz; the same frame again is then processed, by a high-pass filter that still
has the coefficients for 16 kHz.
-/
theorem run_not_ready_of_limits :
    let frame : AudioFrame := .silent .kSampleRate8kHz 1
    let records : List (CallRecord .passThrough) :=
      [⟨.enable .highPassFilter true, .all, none⟩,
        ⟨.setMode .kFixedDigital, .all, none⟩,
        ⟨.enable .gainControl true, .all, none⟩,
        ⟨.setAnalogLevelLimits 7 7, .all, some .kUnspecifiedError⟩,
        ⟨.processStream (some frame), .all, some .kUnspecifiedError⟩,
        ⟨.processStream (some frame), .all, none⟩]
    let final := stateAfter create records
    Path apiStep create (movesOf create records) final ∧
      final.formats.apiFormat.inputStream.sampleRateHz = 8000 ∧
      final.highPassFilter.enabled = true ∧
      final.configuration.highPassCoefficients =
        HighPassFilter.coefficientsAt 1 16000 ∧
      ¬ final.configuration.Ready := by
  intro frame records final
  have coefficients :
      final.configuration.highPassCoefficients =
        HighPassFilter.coefficientsAt 1 16000 := by
    decide +kernel
  refine
    ⟨path_movesOf (by decide +kernel), by decide +kernel,
      by decide +kernel, coefficients, ?_⟩
  intro ready
  have narrow :
      HighPassFilter.coefficientsAt final.configuration.formats.numProcChannels
          final.configuration.formats.fwdProcRate.hz =
        HighPassFilter.coefficientsAt 1 8000 := by
    decide +kernel
  have same := ready.highPassFilter.symm.trans coefficients
  rw [narrow] at same
  exact absurd same (by decide)

end Runs

end AudioProcessingImpl

end ApmSdk.AudioProcessing
