import ApmSdk.AecInstance
import ApmSdk.AecMobile
import ApmSdk.AnalogAgc
import ApmSdk.SettingErrors

namespace ApmSdk

/-!
# Settings of the libraries after an error

The `set_config` functions of the three libraries store some fields of the
configuration before they look at the others.  An error leaves these stored.
-/

namespace Agc.LegacyAgc

/-- The configuration that an instance works with, and the one that it reports. -/
def configuration (stt : LegacyAgc) : AgcConfig × AgcConfig :=
  (⟨stt.targetLevelDbfs, stt.compressionGaindB, stt.limiterEnable⟩,
    stt.usedConfig)

/-- An error of `WebRtcAgc_set_config` leaves the configuration as it was. -/
def KeepsOnError (stt : LegacyAgc) (agcConfig : AgcConfig) : Prop :=
  (stt.setConfig agcConfig).2 ≠ 0 →
    (stt.setConfig agcConfig).1.configuration = stt.configuration

/--
What is stored before a check fails is what was there: the limiter and the gain
before the target level is looked at, all three before the gain table is made.
-/
def Harmless (stt : LegacyAgc) (agcConfig : AgcConfig) : Prop :=
  stt.initFlag = initCheck →
  (agcConfig.limiterEnable = 0 ∨ agcConfig.limiterEnable = 1) →
    if agcConfig.targetLevelDbfs < 0 ∨ 31 < agcConfig.targetLevelDbfs then
      agcConfig.limiterEnable = stt.limiterEnable ∧
        agcConfig.compressionGaindB = stt.compressionGaindB
    else
      calculateGainTable (stt.storeConfig agcConfig).compressionGaindB = -1 →
        agcConfig.limiterEnable = stt.limiterEnable ∧
          (stt.storeConfig agcConfig).compressionGaindB =
              stt.compressionGaindB ∧
            agcConfig.targetLevelDbfs = stt.targetLevelDbfs

/-- An error of `WebRtcAgc_set_config` leaves nothing behind exactly where it is harmless. -/
theorem keepsOnError_iff
    (stt : LegacyAgc)
    (agcConfig : AgcConfig) :
    stt.KeepsOnError agcConfig ↔ stt.Harmless agcConfig := by
  unfold KeepsOnError Harmless setConfig
  by_cases initialized : stt.initFlag = initCheck
  · by_cases limiter :
        agcConfig.limiterEnable = 0 ∨ agcConfig.limiterEnable = 1
    · have legal :
          ¬ (agcConfig.limiterEnable ≠ 0 ∧ agcConfig.limiterEnable ≠ 1) := by
        omega
      by_cases target :
          agcConfig.targetLevelDbfs < 0 ∨ 31 < agcConfig.targetLevelDbfs
      · rw [if_neg (not_not.mpr initialized), if_neg legal, if_pos target]
        simp only [configuration, Prod.mk.injEq, AgcConfig.mk.injEq]
        simp [initialized, limiter, target, and_comm]
      · rw [if_neg (not_not.mpr initialized), if_neg legal, if_neg target]
        by_cases table :
            calculateGainTable
              (stt.storeConfig agcConfig).compressionGaindB = -1
        · simp only [if_pos table, if_neg target]
          have stored :
              (stt.storeConfig agcConfig).configuration =
                (⟨agcConfig.targetLevelDbfs,
                    (stt.storeConfig agcConfig).compressionGaindB,
                    agcConfig.limiterEnable⟩, stt.usedConfig) :=
            rfl
          rw [stored]
          simp only [configuration, Prod.mk.injEq, AgcConfig.mk.injEq]
          simp [initialized, limiter, table]
          exact ⟨fun ⟨first, second, third⟩ => ⟨third, second, first⟩,
            fun ⟨first, second, third⟩ => ⟨third, second, first⟩⟩
        · simp only [if_neg table, if_neg target]
          exact iff_of_true (fun failed => absurd rfl failed)
            fun _ _ failed => absurd failed table
    · have illegal :
          agcConfig.limiterEnable ≠ 0 ∧ agcConfig.limiterEnable ≠ 1 := by
        omega
      rw [if_neg (not_not.mpr initialized), if_pos illegal]
      exact iff_of_true (fun _ => rfl) fun _ isLegal => absurd isLegal limiter
  · rw [if_pos initialized]
    exact iff_of_true (fun _ => rfl) fun isReady => absurd isReady initialized

end Agc.LegacyAgc

namespace Echo.Aec

variable {canceller : EchoCanceller}

/-- The modes that `WebRtcAec_SetConfigCore` sets in the core. -/
structure CoreModes where
  nlpMode : Int
  metricsMode : Int
  delayLoggingEnabled : Bool
  deriving Repr, DecidableEq

/-- `WebRtcAec_SetConfigCore` -/
def setConfigCore
    (aecpc : Aec canceller)
    (config : AecConfig) : CoreModes where
  nlpMode := config.nlpMode
  metricsMode := config.metricsMode
  delayLoggingEnabled :=
    config.delayLogging ≠ 0 || aecpc.aec.delayAgnosticEnabled

/-- `WebRtcAec_set_config` on an instance and the modes of its core. -/
def setConfigWithCore
    (state : Aec canceller × CoreModes)
    (config : AecConfig) : (Aec canceller × CoreModes) × Int :=
  let ran := state.1.setConfig config
  ((ran.1, if ran.2 = 0 then ran.1.setConfigCore config else state.2), ran.2)

/-- An error of `WebRtcAec_set_config` leaves the instance and the modes as they were. -/
def KeepsOnError
    (state : Aec canceller × CoreModes)
    (config : AecConfig) : Prop :=
  (setConfigWithCore state config).2 ≠ 0 →
    (setConfigWithCore state config).1 = state

/-- The modes that the core is given are ones that it has. -/
def CoreModesLegal (config : AecConfig) : Prop :=
  (config.nlpMode = 0 ∨ config.nlpMode = 1 ∨ config.nlpMode = 2) ∧
    (config.metricsMode = 0 ∨ config.metricsMode = 1) ∧
      (config.delayLogging = 0 ∨ config.delayLogging = 1)

/-- The skew mode, stored first, is the one that was there, or no later check fails. -/
def Harmless
    (state : Aec canceller × CoreModes)
    (config : AecConfig) : Prop :=
  state.1.initFlag = initCheck →
  (config.skewMode = 0 ∨ config.skewMode = 1) →
    config.skewMode = state.1.skewMode ∨ CoreModesLegal config

/-- What `WebRtcAec_set_config` returns for the modes of the core. -/
def modesCode (config : AecConfig) : Int :=
  if config.nlpMode ≠ 0 ∧ config.nlpMode ≠ 1 ∧ config.nlpMode ≠ 2 then
    badParameterError
  else if config.metricsMode ≠ 0 ∧ config.metricsMode ≠ 1 then
    badParameterError
  else if config.delayLogging ≠ 0 ∧ config.delayLogging ≠ 1 then
    badParameterError
  else
    0

theorem modesCode_eq_zero_iff
    (config : AecConfig) :
    modesCode config = 0 ↔ CoreModesLegal config := by
  have nonzero : badParameterError ≠ 0 := by
    decide
  unfold modesCode CoreModesLegal
  split
  · simp only [nonzero, false_iff]
    omega
  · split
    · simp only [nonzero, false_iff]
      omega
    · split
      · simp only [nonzero, false_iff]
        omega
      · simp only [true_iff]
        omega

/-- An error of `WebRtcAec_set_config` leaves nothing behind exactly where it is harmless. -/
theorem keepsOnError_iff
    (state : Aec canceller × CoreModes)
    (config : AecConfig) :
    KeepsOnError state config ↔ Harmless state config := by
  obtain ⟨aecpc, modes⟩ := state
  unfold KeepsOnError Harmless setConfigWithCore
  by_cases initialized : aecpc.initFlag = initCheck
  · by_cases skew : config.skewMode = 0 ∨ config.skewMode = 1
    · have told :
          aecpc.setConfig config =
            ({ aecpc with skewMode := config.skewMode },
              modesCode config) := by
        have legal : ¬ (config.skewMode ≠ 0 ∧ config.skewMode ≠ 1) := by
          omega
        rw [setConfig, if_neg (not_not.mpr initialized), if_neg legal,
          modesCode]
      have stored :
          { aecpc with skewMode := config.skewMode } = aecpc ↔
            config.skewMode = aecpc.skewMode := by
        cases aecpc
        simp
      have code := modesCode_eq_zero_iff config
      simp only [told]
      by_cases modesLegal : CoreModesLegal config
      · refine iff_of_true (fun failed => ?_) fun _ _ => Or.inr modesLegal
        exact absurd (code.mpr modesLegal) failed
      · have failed : modesCode config ≠ 0 := fun zero =>
          modesLegal (code.mp zero)
        rw [if_neg failed, Prod.mk.injEq, stored]
        simp [failed, initialized, skew, modesLegal]
    · have told :
          aecpc.setConfig config = (aecpc, badParameterError) := by
        rw [setConfig, if_neg (not_not.mpr initialized)]
        exact if_pos (by omega)
      simp only [told]
      exact iff_of_true (fun _ => rfl) fun _ isLegal => absurd isLegal skew
  · have told :
        aecpc.setConfig config = (aecpc, uninitializedError) :=
      if_pos initialized
    simp only [told]
    exact iff_of_true (fun _ => rfl) fun isReady => absurd isReady initialized

end Echo.Aec

namespace Aecm.AecMobile

variable {processor : BlockProcessor}

/-- An error of `WebRtcAecm_set_config` leaves the instance as it was. -/
def KeepsOnError
    (aecm : AecMobile processor)
    (cngMode echoMode : Int) : Prop :=
  (aecm.setConfig cngMode echoMode).2.retVal ≠ 0 →
    (aecm.setConfig cngMode echoMode).1 = aecm

/--
The comfort noise mode, stored first, is the one that was there, or the echo mode is
one of the five.
-/
def Harmless
    (aecm : AecMobile processor)
    (cngMode echoMode : Int) : Prop :=
  aecm.initFlag = initCheck →
  (cngMode = 0 ∨ cngMode = 1) →
    processor.setCngMode aecm.aecmCore.block cngMode = aecm.aecmCore.block ∨
      (0 ≤ echoMode ∧ echoMode ≤ 4)

/-- An error of `WebRtcAecm_set_config` leaves nothing behind exactly where it is harmless. -/
theorem keepsOnError_iff
    (aecm : AecMobile processor)
    (cngMode echoMode : Int) :
    aecm.KeepsOnError cngMode echoMode ↔
      aecm.Harmless cngMode echoMode := by
  unfold KeepsOnError Harmless setConfig
  by_cases initialized : aecm.initFlag = initCheck
  · by_cases cng : cngMode = 0 ∨ cngMode = 1
    · have legal : ¬ (cngMode ≠ 0 ∧ cngMode ≠ 1) := by
        omega
      rw [if_neg (not_not.mpr initialized), if_neg legal]
      by_cases echo : echoMode < 0 ∨ echoMode > 4
      · simp only [if_pos echo]
        have stored :
            { aecm with
              aecmCore :=
                { aecm.aecmCore with
                  block :=
                    processor.setCngMode aecm.aecmCore.block cngMode } } =
                aecm ↔
              processor.setCngMode aecm.aecmCore.block cngMode =
                aecm.aecmCore.block := by
          constructor
          · intro same
            exact congrArg (fun told => told.aecmCore.block) same
          · intro same
            rw [same]
        have outside : ¬ (0 ≤ echoMode ∧ echoMode ≤ 4) := by
          omega
        have failed : badParameterError ≠ 0 := by
          decide
        rw [stored]
        simp [failed, initialized, cng, outside]
      · simp only [if_neg echo]
        refine iff_of_true (fun failed => absurd rfl failed) ?_
        intro _ _
        exact Or.inr ⟨by omega, by omega⟩
    · have illegal : cngMode ≠ 0 ∧ cngMode ≠ 1 := by
        omega
      rw [if_neg (not_not.mpr initialized), if_pos illegal]
      exact iff_of_true (fun _ => rfl) fun _ isLegal => absurd isLegal cng
  · rw [if_pos initialized]
    exact iff_of_true (fun _ => rfl) fun isReady => absurd isReady initialized

end Aecm.AecMobile

/--
Each setter of the gain control and each `set_config` function leaves the settings
as they were, whenever it returns an error, exactly where its error is harmless.
-/
theorem settings_kept_iff
    {cores : AudioProcessing.Cores}
    (formats : AudioProcessing.StreamFormats)
    (setter : AudioProcessing.GainControl.Setter)
    (agc : AudioProcessing.GainControl cores)
    (stt : Agc.LegacyAgc)
    (agcConfig : Agc.AgcConfig)
    {canceller : Echo.EchoCanceller}
    (state : Echo.Aec canceller × Echo.Aec.CoreModes)
    (config : Echo.AecConfig)
    {processor : Aecm.BlockProcessor}
    (aecm : Aecm.AecMobile processor)
    (cngMode echoMode : Int) :
    (setter.KeepsOnError formats agc ↔ setter.Harmless formats agc) ∧
      (stt.KeepsOnError agcConfig ↔ stt.Harmless agcConfig) ∧
      (Echo.Aec.KeepsOnError state config ↔
        Echo.Aec.Harmless state config) ∧
      (aecm.KeepsOnError cngMode echoMode ↔
        aecm.Harmless cngMode echoMode) :=
  ⟨setter.keepsOnError_iff formats agc,
    stt.keepsOnError_iff agcConfig,
    Echo.Aec.keepsOnError_iff state config,
    aecm.keepsOnError_iff cngMode echoMode⟩

open AudioProcessing (CallRecord AudioProcessingImpl stateAfter movesOf
  path_movesOf apiStep) in
/--
A gain control with one level for both limits is enabled in the adaptive digital
mode.  The adaptive analog mode is refused then, and in force.  A target level out of
range is refused by the library, with the limiter switched off.
-/
theorem settings_not_kept :
    let records : List (CallRecord .passThrough) :=
      [⟨.setMode .kAdaptiveDigital, .all, none⟩,
        ⟨.setAnalogLevelLimits 7 7, .all, none⟩,
        ⟨.enable .gainControl true, .all, none⟩]
    let apm := stateAfter .create records
    let setter : AudioProcessing.GainControl.Setter :=
      .setMode .kAdaptiveAnalog
    let ran := setter.run apm.formats apm.gainControl
    let stt :=
      (Agc.LegacyAgc.blank.init 0 255 Agc.modeAdaptiveAnalog 16000).1
    Path apiStep .create (movesOf .create records) apm ∧
      ran.2 = some (.error .kUnspecifiedError) ∧
        apm.gainControl.settings.mode = .kAdaptiveDigital ∧
          ran.1.settings.mode = .kAdaptiveAnalog ∧
            ¬ setter.KeepsOnError apm.formats apm.gainControl ∧
              ¬ stt.KeepsOnError ⟨32, 9, 0⟩ := by
  intro records apm setter ran stt
  have refused : ran.2 = some (.error .kUnspecifiedError) := by
    decide +kernel
  have before : apm.gainControl.settings.mode = .kAdaptiveDigital := by
    decide +kernel
  have after : ran.1.settings.mode = .kAdaptiveAnalog := by
    decide +kernel
  refine ⟨path_movesOf (by decide +kernel), refused, before, after, ?_, ?_⟩
  · intro kept
    have same := congrArg (fun recorded => recorded.1.mode) (kept _ refused)
    exact absurd (after.symm.trans (same.trans before)) (by decide)
  · intro kept
    exact absurd (kept (by decide +kernel)) (by decide +kernel)

end ApmSdk
