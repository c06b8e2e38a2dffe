import ApmSdk.AnalogAgcInvariant
import ApmSdk.GainControl

namespace ApmSdk.AudioProcessing

/-!
# The legacy gain control behind the component

`GainControlImpl` calls the functions of `analog_agc.c` for each channel.  Its
adaptive analog mode relies on the levels they hand out, which `LevelKeeping` states
for any core and the model of `analog_agc.c` satisfies.
-/

open Agc

/-- `MapSetting` -/
def GainMode.agcMode : GainMode → Int
  | .kAdaptiveAnalog => modeAdaptiveAnalog
  | .kAdaptiveDigital => modeAdaptiveDigital
  | .kFixedDigital => modeFixedDigital

/-- How the gain control reaches the bands of a channel, and what it does to the
signal in the modes without an analog level. -/
structure BandAccess (cores : Cores) where
  splitBands : cores.Samples → (channel : Nat) → List (List Int)
  setSplitBands :
    cores.Samples → (channel : Nat) → List (List Int) → cores.Samples
  virtualMic :
    LegacyAgc → cores.Samples → (channel : Nat) → (micLevelIn : Int) →
      LegacyAgc × cores.Samples × Int
  processDigital : LegacyAgc → cores.Samples → (channel : Nat) → cores.Samples

/-- An access that shows no bands and leaves every signal as it is. -/
def BandAccess.untouched (cores : Cores) : BandAccess cores where
  splitBands := fun _ _ => []
  setSplitBands := fun samples _ _ => samples
  virtualMic := fun stt samples _ micLevelIn => (stt, samples, micLevelIn)
  processDigital := fun _ samples _ => samples

/-- Signal processing whose gain control is the one of `analog_agc.c`. -/
def Cores.withLegacyAgc
    (cores : Cores)
    (access : BandAccess cores) : Cores :=
  { cores with
    AgcCore := LegacyAgc
    newAgcCore := .blank
    agcInit := fun stt minLevel maxLevel mode fs =>
      (stt.init minLevel maxLevel mode.agcMode fs).1
    agcSetConfig := fun stt config =>
      (stt.setConfig
        { targetLevelDbfs := config.targetLevelDbfs
          compressionGaindB := config.compressionGaindB
          limiterEnable := if config.limiterEnable then 1 else 0 }).1
    agcAddFarend := fun stt _ => stt
    agcAddMic := fun stt samples channel =>
      match stt.addMic (access.splitBands samples channel) stt.micSamples with
      | none => (stt, samples)
      | some (next, bands, _) =>
          (next, access.setSplitBands samples channel bands)
    agcVirtualMic := access.virtualMic
    agcProcess := fun stt samples channel inMicLevel echo =>
      let ran :=
        stt.process (stt.frameSamples.getD 0) inMicLevel (if echo then 1 else 0)
      (ran.1, access.processDigital stt samples channel,
        if ran.2.code = -1 then none
        else
          ran.2.outMicLevel.map fun outMicLevel =>
            { outMicLevel
              saturationWarning := ran.2.saturationWarning }) }

/--
What the adaptive analog mode relies on: a core initialised with a range answers every
level of the range with another one, whatever else it has been used for since.
-/
structure LevelKeeping (cores : Cores) where
  keeps : (minLevel maxLevel : Int) → cores.AgcCore → Prop
  init :
    ∀ core minLevel maxLevel (rate : NativeRate),
      0 ≤ minLevel → minLevel < maxLevel → maxLevel ≤ 65535 →
        keeps minLevel maxLevel
          (cores.agcInit core minLevel maxLevel .kAdaptiveAnalog rate.hz)
  setConfig :
    ∀ {minLevel maxLevel core} config,
      keeps minLevel maxLevel core →
        keeps minLevel maxLevel (cores.agcSetConfig core config)
  addFarend :
    ∀ {minLevel maxLevel core} farend,
      keeps minLevel maxLevel core →
        keeps minLevel maxLevel (cores.agcAddFarend core farend)
  addMic :
    ∀ {minLevel maxLevel core} samples channel,
      keeps minLevel maxLevel core →
        keeps minLevel maxLevel (cores.agcAddMic core samples channel).1
  process :
    ∀ {minLevel maxLevel core} samples channel inMicLevel echo,
      keeps minLevel maxLevel core →
      minLevel ≤ inMicLevel → inMicLevel ≤ maxLevel →
        keeps minLevel maxLevel
            (cores.agcProcess core samples channel inMicLevel echo).1 ∧
          ∃ result,
            (cores.agcProcess core samples channel inMicLevel echo).2.2 =
                some result ∧
              minLevel ≤ result.outMicLevel ∧
                result.outMicLevel ≤ maxLevel

/-- An instance of `analog_agc.c` that keeps the levels of a range. -/
def KeepsLevels
    (minLevel maxLevel : Int)
    (stt : LegacyAgc) : Prop :=
  ∃ range : LevelRange,
    range.agcMode = modeAdaptiveAnalog ∧
      (∃ rate : NativeRate, range.fs = rate.hz) ∧
        range.minLevel = minLevel ∧
          range.maxAnalog = maxLevel ∧
            LevelInvariant range stt

/-- The gain control of `analog_agc.c` keeps the levels of every range that the
component lets through. -/
def levelKeeping_legacyAgc
    (cores : Cores)
    (access : BandAccess cores) :
    LevelKeeping (cores.withLegacyAgc access) where
  keeps := KeepsLevels
  init := by
    intro core minLevel maxLevel rate nonneg ordered small
    obtain ⟨range, mode, fs, lower, upper, held⟩ :=
      levelInvariant_init core rate.hz
        (show LegacyAgc.LegalRange minLevel maxLevel from
          ⟨ordered, by omega, by omega⟩)
        (by omega)
    exact ⟨range, mode, ⟨rate, fs⟩, lower, upper, held⟩
  setConfig := by
    rintro minLevel maxLevel core config ⟨range, mode, fs, lower, upper, held⟩
    exact ⟨range, mode, fs, lower, upper, held.setConfig _⟩
  addFarend := fun _ kept => kept
  addMic := by
    rintro minLevel maxLevel core samples channel
      ⟨range, mode, fs, lower, upper, held⟩
    obtain ⟨next, bands, code, added, nextHeld⟩ :=
      held.addMic (access.splitBands samples channel) core.micSamples
    refine ⟨range, mode, fs, lower, upper, ?_⟩
    dsimp only [Cores.withLegacyAgc]
    rw [added]
    exact nextHeld
  process := by
    rintro minLevel maxLevel core samples channel inMicLevel echo
      ⟨range, mode, ⟨rate, fs⟩, rfl, rfl, held⟩ atLeast atMost
    have lowest : range.minLevel ≤ range.minOutput :=
      (held.range_eq ▸ held.sound.range : range.Sound).minLevel_le
    have rate_eq : core.fs = rate.hz :=
      (congrArg LevelRange.fs held.range_eq).trans fs
    obtain ⟨samplesCount, sized⟩ : ∃ count, core.frameSamples = some count := by
      unfold LegacyAgc.frameSamples
      rw [rate_eq]
      cases rate <;> exact ⟨_, rfl⟩
    obtain ⟨outMicLevel, saturationWarning, answer, lower, upper⟩ :=
      held.process_result (if echo then 1 else 0) mode sized atLeast atMost
    refine ⟨⟨range, mode, ⟨rate, fs⟩, rfl, rfl,
      held.process _ _ atLeast atMost⟩, ⟨outMicLevel, saturationWarning⟩,
      ?_, Int.le_trans lowest lower, upper⟩
    dsimp only [Cores.withLegacyAgc]
    rw [sized, Option.getD_some, answer]
    rfl

end ApmSdk.AudioProcessing
