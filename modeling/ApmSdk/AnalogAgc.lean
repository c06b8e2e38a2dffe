import ApmSdk.AgcVad

namespace ApmSdk.Agc

/-!
# The analog part of the legacy gain control

`analog_agc.c` without `MIC_LEVEL_FEEDBACK`.  Of the digital part only the codes it
returns are kept: it changes none of the fields below.  `none` is behaviour that C
leaves undefined: a division by zero, or an index past the end of the gain table.
-/

/-- `kAgcModeUnchanged` -/
abbrev modeUnchanged : Int := 0

/-- `kAgcModeAdaptiveAnalog` -/
abbrev modeAdaptiveAnalog : Int := 1

/-- `kAgcModeAdaptiveDigital` -/
abbrev modeAdaptiveDigital : Int := 2

/-- `kAgcModeFixedDigital` -/
abbrev modeFixedDigital : Int := 3

/-- `AGC_UNSPECIFIED_ERROR` -/
abbrev unspecifiedError : Int := 18000

/-- `AGC_UNINITIALIZED_ERROR` -/
abbrev uninitializedError : Int := 18002

/-- `AGC_BAD_PARAMETER_ERROR` -/
abbrev badParameterError : Int := 18004

/-- `kInitCheck` -/
abbrev initCheck : Int := 42

/-- `kMsecSpeechInner` -/
abbrev msecSpeechInner : Int := 520

/-- `kMsecSpeechOuter` -/
abbrev msecSpeechOuter : Int := 340

/-- `kNormalVadThreshold` -/
abbrev normalVadThreshold : Int := 400

/-- `kMuteGuardTimeMs` -/
abbrev muteGuardTimeMs : Int := 8000

/-- `RXX_BUFFER_LEN` -/
abbrev rxxBufferLen : Nat := 10

/-- `GAIN_TBL_LEN` -/
abbrev gainTblLen : Nat := 32

/-- `kGainTableAnalog` -/
def gainTableAnalog : List Int :=
  [4096, 4251, 4412, 4579, 4752, 4932, 5118, 5312, 5513, 5722, 5938, 6163, 6396,
    6638, 6889, 7150, 7420, 7701, 7992, 8295, 8609, 8934, 9273, 9623, 9987, 10365,
    10758, 11165, 11587, 12025, 12480, 12953]

/-- A slope in Q13 and an offset in Q14 for each of the eight curves of a table pair. -/
abbrev Curves := List (Int × Int)

/-- `kSlope1` and `kOffset1` -/
def curves1 : Curves :=
  [(21793, 25395), (12517, 23911), (7189, 22206), (4129, 20737), (2372, 19612),
    (1362, 18805), (472, 17951), (78, 17367)]

/-- `kSlope2` and `kOffset2` -/
def curves2 : Curves :=
  [(2063, 18432), (1731, 18379), (1452, 18290), (1218, 18177), (1021, 18052),
    (857, 17920), (597, 17670), (337, 17286)]

/-- The energy limits, `RXX_BUFFER_LEN * kTargetLevelTable[20 + …]`. -/
structure EnergyLimits where
  analogTargetLevel : Int
  startUpperLimit : Int
  startLowerLimit : Int
  upperPrimaryLimit : Int
  lowerPrimaryLimit : Int
  upperSecondaryLimit : Int
  lowerSecondaryLimit : Int
  deriving Repr, DecidableEq

/-- The limits that `WebRtcAgc_UpdateAgcThresholds` sets, whatever the configuration. -/
def energyLimits : EnergyLimits where
  analogTargetLevel := rxxBufferLen * 1342095
  startUpperLimit := rxxBufferLen * 1689598
  startLowerLimit := rxxBufferLen * 1066064
  upperPrimaryLimit := rxxBufferLen * 2127078
  lowerPrimaryLimit := rxxBufferLen * 846805
  upperSecondaryLimit := rxxBufferLen * 4244078
  lowerSecondaryLimit := rxxBufferLen * 424408

/-- `WebRtcAgcConfig` -/
structure AgcConfig where
  targetLevelDbfs : Int
  compressionGaindB : Int
  limiterEnable : Int
  deriving Repr, DecidableEq

/-- `defaultConfig` -/
def defaultConfig : AgcConfig where
  targetLevelDbfs := 3
  compressionGaindB := 9
  limiterEnable := 1

/-- `LegacyAgc`, the fields that the analog part uses. -/
structure LegacyAgc where
  fs : Int
  compressionGaindB : Int
  targetLevelDbfs : Int
  agcMode : Int
  limiterEnable : Int
  usedConfig : AgcConfig
  initFlag : Int
  lastError : Int
  limits : EnergyLimits
  analogTarget : Int
  filterState : FilterState
  upperLimit : Int
  lowerLimit : Int
  rxx160 : Int
  rxx16Lp : Int
  rxx160Lp : Int
  rxx16LpMax : Int
  rxx16Vector : List Int
  rxx16Array : List Int × List Int
  env : List Int × List Int
  rxx16pos : Nat
  envSum : Int
  vadThreshold : Int
  msTooLow : Int
  msTooHigh : Int
  changeToSlowMode : Int
  firstCall : Int
  msZero : Int
  msecSpeechOuterChange : Int
  msecSpeechInnerChange : Int
  activeSpeech : Int
  muteGuardMs : Int
  inQueue : Int
  micRef : Int
  gainTableIdx : Nat
  micGainIdx : Int
  micVol : Int
  maxLevel : Int
  maxAnalog : Int
  maxInit : Int
  minLevel : Int
  minOutput : Int
  zeroCtrlMax : Int
  lastInMicLevel : Int
  scale : Nat
  vadMic : AgcVad
  lowLevelSignal : Int
  deriving Repr, DecidableEq

namespace LegacyAgc

/-- `WebRtcAgc_Create`: an instance before its first initialisation, with zeros where
`malloc` leaves anything. -/
def blank : LegacyAgc where
  fs := 0
  compressionGaindB := 0
  targetLevelDbfs := 0
  agcMode := modeUnchanged
  limiterEnable := 0
  usedConfig := defaultConfig
  initFlag := 0
  lastError := 0
  limits := energyLimits
  analogTarget := 0
  filterState := .zero
  upperLimit := 0
  lowerLimit := 0
  rxx160 := 0
  rxx16Lp := 0
  rxx160Lp := 0
  rxx16LpMax := 0
  rxx16Vector := []
  rxx16Array := ([], [])
  env := ([], [])
  rxx16pos := 0
  envSum := 0
  vadThreshold := 0
  msTooLow := 0
  msTooHigh := 0
  changeToSlowMode := 0
  firstCall := 0
  msZero := 0
  msecSpeechOuterChange := 0
  msecSpeechInnerChange := 0
  activeSpeech := 0
  muteGuardMs := 0
  inQueue := 0
  micRef := 0
  gainTableIdx := 0
  micGainIdx := 0
  micVol := 0
  maxLevel := 0
  maxAnalog := 0
  maxInit := 0
  minLevel := 0
  minOutput := 0
  zeroCtrlMax := 0
  lastInMicLevel := 0
  scale := 0
  vadMic := .init
  lowLevelSignal := 0

/-! ## Configuration -/

/-- `WebRtcAgc_UpdateAgcThresholds` -/
def updateAgcThresholds (stt : LegacyAgc) : LegacyAgc :=
  let tmp16 := divW32W16ResW16 (int16 (5 * stt.compressionGaindB + 5)) 11
  let analogTarget := max (4 + tmp16) 4
  { stt with
    analogTarget :=
      if stt.agcMode = modeFixedDigital then stt.compressionGaindB
      else analogTarget
    limits := energyLimits
    upperLimit := energyLimits.startUpperLimit
    lowerLimit := energyLimits.startLowerLimit }

/-- The code that `WebRtcAgc_CalculateGainTable` returns. -/
def calculateGainTable (digCompGaindB : Int) : Int :=
  let diffGain := divW32W16ResW16 (digCompGaindB * 2 + 1) 3
  if diffGain < 0 ∨ 128 ≤ diffGain then -1 else 0

/-- The fields that `WebRtcAgc_set_config` sets for a target level in range. -/
def storeConfig (stt : LegacyAgc) (agcConfig : AgcConfig) : LegacyAgc :=
  let stt :=
    { stt with
      limiterEnable := agcConfig.limiterEnable
      targetLevelDbfs := agcConfig.targetLevelDbfs
      compressionGaindB :=
        if stt.agcMode = modeFixedDigital then
          int16 (agcConfig.compressionGaindB + agcConfig.targetLevelDbfs)
        else agcConfig.compressionGaindB }
  stt.updateAgcThresholds

/-- `WebRtcAgc_set_config` -/
def setConfig
    (stt : LegacyAgc)
    (agcConfig : AgcConfig) : LegacyAgc × Int :=
  if stt.initFlag ≠ initCheck then
    ({ stt with lastError := uninitializedError }, -1)
  else if agcConfig.limiterEnable ≠ 0 ∧ agcConfig.limiterEnable ≠ 1 then
    ({ stt with lastError := badParameterError }, -1)
  else if agcConfig.targetLevelDbfs < 0 ∨ 31 < agcConfig.targetLevelDbfs then
    ({ stt with
        limiterEnable := agcConfig.limiterEnable
        compressionGaindB := agcConfig.compressionGaindB
        lastError := badParameterError }, -1)
  else
    let stt := stt.storeConfig agcConfig
    if calculateGainTable stt.compressionGaindB = -1 then (stt, -1)
    else ({ stt with usedConfig := agcConfig }, 0)

/-- The levels that `WebRtcAgc_Init` derives from the range; they are static in the
adaptive digital mode. -/
def initLevels
    (stt : LegacyAgc)
    (minLevel maxLevel : Int) : LegacyAgc :=
  let maxAdd := Int.tdiv (int32 (maxLevel - minLevel)) 4
  let supplemented := int32 (maxLevel + maxAdd)
  let micVol := if stt.agcMode = modeAdaptiveDigital then 127 else maxLevel
  { stt with
    minLevel
    maxAnalog := maxLevel
    maxLevel := supplemented
    maxInit := supplemented
    zeroCtrlMax := maxLevel
    lastInMicLevel := 0
    micVol
    micRef := micVol
    micGainIdx := 127
    -- 4% above the lowest level
    minOutput :=
      int32 (minLevel + int32 (int32 (supplemented - minLevel) * 10) >>> (8 : Nat)) }

/-- The other variables that `WebRtcAgc_Init` sets before it applies the default
configuration. -/
def initAnalog (stt : LegacyAgc) : LegacyAgc :=
  { stt with
    msTooLow := 0
    msTooHigh := 0
    changeToSlowMode := 0
    firstCall := 0
    msZero := 0
    muteGuardMs := 0
    gainTableIdx := 0
    msecSpeechInnerChange := msecSpeechInner
    msecSpeechOuterChange := msecSpeechOuter
    activeSpeech := 0
    rxx16LpMax := 0
    vadThreshold := normalVadThreshold
    rxx16Vector := List.replicate rxxBufferLen 1000
    rxx160 := 125 * rxxBufferLen
    rxx16pos := 0
    rxx16Lp := 16284
    rxx16Array := (List.replicate 5 0, stt.rxx16Array.2)
    env := (List.replicate 10 0, List.replicate 10 0)
    inQueue := 0
    filterState := .zero
    initFlag := initCheck }

/-- `minLevel >= maxLevel || maxLevel & 0xFC000000`, negated. -/
def LegalRange (minLevel maxLevel : Int) : Prop :=
  minLevel < maxLevel ∧ 0 ≤ maxLevel ∧ maxLevel < 2 ^ 26

instance (minLevel maxLevel : Int) : Decidable (LegalRange minLevel maxLevel) :=
  inferInstanceAs (Decidable (_ ∧ _))

/-- `WebRtcAgc_Init`; the range is looked at after everything has been set. -/
def init
    (stt : LegacyAgc)
    (minLevel maxLevel : Int)
    (agcMode fs : Int) : LegacyAgc × Int :=
  let stt := { stt with envSum := 0 }
  if agcMode < modeUnchanged ∨ modeFixedDigital < agcMode then (stt, -1)
  else
    let range :=
      if agcMode = modeAdaptiveDigital then (0, 255) else (minLevel, maxLevel)
    let stt := { stt with agcMode, fs, vadMic := .init, scale := 0 }
    let stt := (stt.initLevels range.1 range.2).initAnalog
    let (stt, err) := stt.setConfig defaultConfig
    if err = -1 then ({ stt with lastError := unspecifiedError }, -1)
    else
      let stt :=
        { stt with
          rxx160Lp := stt.limits.analogTargetLevel
          lowLevelSignal := 0 }
      (stt, if LegalRange range.1 range.2 then 0 else -1)

/-! ## A frame from the microphone -/

/-- The gain index that `WebRtcAgc_AddMic` moves towards. -/
def targetGainIdx (stt : LegacyAgc) : Option Int :=
  let tmp32 := ((gainTblLen : Int) - 1) * int16 (stt.micVol - stt.maxAnalog)
  let tmp16 := int16 (stt.maxLevel - stt.maxAnalog)
  if tmp16 = 0 then none else some (uint16 (Int.tdiv tmp32 tmp16))

/-- One step through the gain table towards the target. -/
def stepGainTableIdx (gainTableIdx : Nat) (targetGainIdx : Int) : Nat :=
  if (gainTableIdx : Int) < targetGainIdx then gainTableIdx + 1
  else if targetGainIdx < gainTableIdx then gainTableIdx - 1
  else gainTableIdx

/-- The slowly varying digital gain: the new state, and the samples amplified. -/
def digitalGain
    (stt : LegacyAgc)
    (inMic : List (List Int)) : Option (LegacyAgc × List (List Int)) :=
  if stt.maxAnalog < stt.micVol then
    stt.targetGainIdx.bind fun target =>
      let gainTableIdx := stepGainTableIdx stt.gainTableIdx target
      gainTableAnalog[gainTableIdx]?.map fun gain =>
        ({ stt with gainTableIdx },
          inMic.map (List.map fun (sample : Int) =>
            satW32ToW16 ((sample * gain) >>> (12 : Nat))))
  else
    some ({ stt with gainTableIdx := 0 }, inMic)

/-- The largest energy of a sample in each of the ten subframes. -/
def envelope (input : List Int) (samplesPerSubframe : Nat) : List Int :=
  (List.range 10).map fun i =>
    ((input.drop (i * samplesPerSubframe)).take samplesPerSubframe).foldl
      (fun maxNrg sample => max maxNrg (sample * sample)) 0

/-- The energies of the five blocks of 16 samples at 8 kHz. -/
def blockEnergies
    (stt : LegacyAgc)
    (input : List Int) : List Int × FilterState :=
  (List.range 5).foldl
    (fun (energies, filterState) i =>
      if stt.fs = 16000 then
        let (speech, filterState) :=
          downsampleBy2 ((input.drop (i * 32)).take 32) filterState
        (energies ++ [energyWithScale speech 4], filterState)
      else
        let speech := (input.drop (i * 16)).take 16
        (energies ++ [energyWithScale speech 4], filterState))
    ([], stt.filterState)

/-- What `WebRtcAgc_AddMic` measures on the low band. -/
def measure
    (stt : LegacyAgc)
    (input : List Int)
    (samples : Nat) : LegacyAgc :=
  let env := envelope input (if stt.fs = 8000 then 8 else 16)
  let (energies, filterState) := stt.blockEnergies input
  let stt :=
    if 0 < stt.inQueue then
      { stt with
        env := (stt.env.1, env)
        rxx16Array := (stt.rxx16Array.1, energies) }
    else
      { stt with
        env := (env, stt.env.2)
        rxx16Array := (energies, stt.rxx16Array.2) }
  { stt with
    filterState
    inQueue := if stt.inQueue = 0 then 1 else 2
    vadMic := stt.vadMic.process input samples }

/-- The number of samples that `WebRtcAgc_AddMic` takes. -/
def micSamples (stt : LegacyAgc) : Nat :=
  if stt.fs = 8000 then 80 else 160

/-- `WebRtcAgc_AddMic`; the bands are what it leaves in `in_mic`. -/
def addMic
    (stt : LegacyAgc)
    (inMic : List (List Int))
    (samples : Nat) : Option (LegacyAgc × List (List Int) × Int) :=
  if samples ≠ stt.micSamples then
    some (stt, inMic, -1)
  else
    (stt.digitalGain inMic).map fun (stt, inMic) =>
      (stt.measure (inMic.headD []) samples, inMic, 0)

/-! ## The level of the microphone -/

/-- The level 10% into the range that a very low level is raised to. -/
def raisedStart (stt : LegacyAgc) : Int :=
  stt.minLevel + int32 ((stt.maxLevel - stt.minLevel) * 51) >>> (9 : Nat)

/-- What the first call does to the level. -/
def firstLevel
    (stt : LegacyAgc)
    (inMicLevelTmp : Int) : LegacyAgc × Int :=
  if stt.firstCall = 0 then
    let inMicLevelTmp :=
      if inMicLevelTmp < stt.raisedStart ∧
          stt.agcMode = modeAdaptiveAnalog then
        stt.raisedStart
      else inMicLevelTmp
    ({ stt with firstCall := 1, micVol := inMicLevelTmp }, inMicLevelTmp)
  else (stt, inMicLevelTmp)

/-- The previous level, where there is digital gain. -/
def previousLevel (stt : LegacyAgc) (inMicLevelTmp : Int) : Int :=
  if inMicLevelTmp = stt.maxAnalog ∧ stt.maxAnalog < stt.micVol then
    stt.micVol
  else inMicLevelTmp

/-- A level that was decreased by hand to a very low value is raised. -/
def raiseManual
    (stt : LegacyAgc)
    (inMicLevelTmp : Int) : LegacyAgc × Int :=
  if inMicLevelTmp ≠ stt.micVol ∧ inMicLevelTmp < stt.minOutput then
    ({ stt with micVol := stt.raisedStart }, stt.raisedStart)
  else (stt, inMicLevelTmp)

/-- A level that has changed is followed; one that the device did not change, although
it was asked to, is not. -/
def followLevel
    (stt : LegacyAgc)
    (inMicLevel inMicLevelTmp : Int) : LegacyAgc × Int :=
  if inMicLevelTmp = stt.micVol then (stt, inMicLevelTmp)
  else if inMicLevel = stt.lastInMicLevel then (stt, stt.micVol)
  else ({ stt with micVol := inMicLevelTmp }, inMicLevelTmp)

/-- The level to adapt, after what has changed since the last frame. -/
def startLevel
    (stt : LegacyAgc)
    (inMicLevel inMicLevelTmp : Int) : LegacyAgc × Int :=
  let (stt, inMicLevelTmp) := stt.firstLevel inMicLevelTmp
  let (stt, inMicLevelTmp) :=
    stt.raiseManual (stt.previousLevel inMicLevelTmp)
  let (stt, inMicLevelTmp) := stt.followLevel inMicLevel inMicLevelTmp
  ({ stt with
      maxLevel := max stt.maxLevel inMicLevelTmp
      lastInMicLevel := inMicLevel },
    inMicLevelTmp)

/-- `WebRtcAgc_SaturationCtrl`; the flag is `*saturated`. -/
def saturationCtrl
    (stt : LegacyAgc)
    (env : List Int) : LegacyAgc × Bool :=
  let envSum :=
    (env.take 10).foldl
      (fun envSum (energy : Int) =>
        let tmpW16 := int16 (energy >>> (20 : Nat))
        if 875 < tmpW16 then int16 (envSum + tmpW16) else envSum)
      stt.envSum
  let saturated := decide (25000 < envSum)
  let envSum := if saturated then 0 else envSum
  ({ stt with envSum := int16 ((envSum * 32440) >>> (15 : Nat)) }, saturated)

/-- The level lowered by a factor in Q15, and by `step` at least. -/
def loweredLevel
    (stt : LegacyAgc)
    (factor inMicLevelTmp lastMicVol step : Int) : Int :=
  let tmpU32 := uint32 (factor * uint32 (inMicLevelTmp - stt.minLevel))
  min (int32 (tmpU32 >>> (15 : Nat) + stt.minLevel)) (lastMicVol - step)

/-- A saturated signal lowers the level; the flag is `*saturationWarning`. -/
def lowerSaturated
    (stt : LegacyAgc)
    (inMicLevelTmp lastMicVol : Int) : LegacyAgc × Int × Bool :=
  let micVol := stt.loweredLevel 29591 inMicLevelTmp lastMicVol 2
  ({ stt with
      rxx160Lp := Int.tdiv stt.rxx160Lp 8 * 7
      zeroCtrlMax := stt.micVol
      micVol
      msTooHigh := -100
      activeSpeech := 0
      rxx16LpMax := 0
      msecSpeechInnerChange := msecSpeechInner
      msecSpeechOuterChange := msecSpeechOuter
      changeToSlowMode := 0
      muteGuardMs := 0
      upperLimit := stt.limits.startUpperLimit
      lowerLimit := stt.limits.startLowerLimit },
    micVol, decide (micVol < stt.minOutput))

/-- The time without a signal, and what is left of the time after a mute event. -/
def countSilence (stt : LegacyAgc) (env : List Int) : LegacyAgc :=
  let tmp32 := int32 (env.take 10).sum
  { stt with
    msZero := if tmp32 < 500 then stt.msZero + 10 else 0
    muteGuardMs :=
      if 0 < stt.muteGuardMs then stt.muteGuardMs - 10
      else stt.muteGuardMs }

/-- A level below 50% is raised after 500 ms without a signal. -/
def raiseSilent (stt : LegacyAgc) (inMicLevel : Int) : LegacyAgc × Int :=
  let stt :=
    { stt with
      msZero := 0
      activeSpeech := 0
      rxx16LpMax := 0
      muteGuardMs := muteGuardTimeMs }
  let midVal := Int.tdiv (stt.maxAnalog + stt.minLevel + 1) 2
  if inMicLevel < midVal then
    let inMicLevel := min (int32 (1126 * inMicLevel) >>> (10 : Nat)) stt.zeroCtrlMax
    ({ stt with micVol := inMicLevel }, inMicLevel)
  else (stt, inMicLevel)

/-- `WebRtcAgc_ZeroCtrl` -/
def zeroCtrl
    (stt : LegacyAgc)
    (inMicLevel : Int)
    (env : List Int) : LegacyAgc × Int :=
  let stt := stt.countSilence env
  if 500 < stt.msZero then stt.raiseSilent inMicLevel
  else (stt, inMicLevel)

/-- `WebRtcAgc_SpeakerInactiveCtrl` -/
def speakerInactiveCtrl (stt : LegacyAgc) : LegacyAgc :=
  if stt.vadMic.stdLongTerm < 2500 then { stt with vadThreshold := 1500 }
  else
    let vadThresh :=
      if stt.vadMic.stdLongTerm < 4500 then
        normalVadThreshold + Int.tdiv (4500 - stt.vadMic.stdLongTerm) 2
      else normalVadThreshold
    { stt with
      vadThreshold := int16 ((vadThresh + 31 * stt.vadThreshold) >>> (5 : Nat)) }

/-- Saturated, silent and inactive input, before the loop over the blocks. -/
def protect
    (stt : LegacyAgc)
    (inMicLevelTmp lastMicVol : Int) : LegacyAgc × Int × Bool :=
  let (stt, saturated) := stt.saturationCtrl stt.env.1
  let (stt, inMicLevelTmp, saturationWarning) :=
    if saturated then stt.lowerSaturated inMicLevelTmp lastMicVol
    else (stt, inMicLevelTmp, false)
  let (stt, inMicLevelTmp) := stt.zeroCtrl inMicLevelTmp stt.env.1
  (stt.speakerInactiveCtrl, inMicLevelTmp, saturationWarning)

/-- The running energies after one block of 16 samples. -/
def updateEnergies (stt : LegacyAgc) (rxx16 : Int) : LegacyAgc :=
  let oldest := stt.rxx16Vector.getD stt.rxx16pos 0
  { stt with
    rxx160 := stt.rxx160 + (rxx16 - oldest) >>> (3 : Nat)
    rxx16Vector := stt.rxx16Vector.set stt.rxx16pos rxx16
    rxx16pos :=
      if stt.rxx16pos + 1 = rxxBufferLen then 0 else stt.rxx16pos + 1
    rxx16Lp := stt.rxx16Lp + (rxx16 - stt.rxx16Lp) >>> (6 : Nat) }

/-- The long-term energy while there is speech; it is set anew from the largest
short-term energy of the first 200 ms. -/
def updateLongTerm (stt : LegacyAgc) : LegacyAgc :=
  let stt :=
    if stt.activeSpeech < 250 then
      { stt with
        activeSpeech := stt.activeSpeech + 2
        rxx16LpMax := max stt.rxx16LpMax stt.rxx16Lp }
    else if stt.activeSpeech = 250 then
      { stt with
        activeSpeech := stt.activeSpeech + 2
        rxx160Lp := stt.rxx16LpMax >>> (3 : Nat) * rxxBufferLen }
    else stt
  { stt with
    rxx160Lp := stt.rxx160Lp + (stt.rxx160 - stt.rxx160Lp) >>> (10 : Nat) }

/-- The level and the largest level after too much energy for long enough. -/
def lower
    (stt : LegacyAgc)
    (factor inMicLevelTmp lastMicVol : Int) : LegacyAgc × Int :=
  let micVol := stt.loweredLevel factor inMicLevelTmp lastMicVol 1
  ({ stt with
      msTooHigh := 0
      maxLevel := max (Int.tdiv (15 * stt.maxLevel + stt.micVol) 16) stt.maxAnalog
      zeroCtrlMax := stt.micVol
      micVol },
    micVol)

/-- `WebRtcAgc_ExpCurve` -/
def expCurve (volume : Int) : Nat :=
  if 5243 < volume then
    if 7864 < volume then
      if 12124 < volume then 7 else 6
    else
      if 6554 < volume then 5 else 4
  else
    if 2621 < volume then
      if 3932 < volume then 3 else 2
    else
      if 1311 < volume then 1 else 0

/-- The volume in Q14 of the initial range. -/
def volNorm (stt : LegacyAgc) (inMicLevelTmp : Int) : Int :=
  if stt.maxInit ≠ stt.minLevel then
    int16 (Int.tdiv (int32 ((inMicLevelTmp - stt.minLevel) * 2 ^ 14))
      (stt.maxInit - stt.minLevel))
  else 16384

/-- The level raised along one of the curves, and by `step` at least. -/
def raisedLevel
    (stt : LegacyAgc)
    (curves : Curves)
    (inMicLevelTmp lastMicVol step : Int) : Int :=
  let volNormFix := stt.volNorm inMicLevelTmp
  let (slope, offset) := curves.getD (expCurve volNormFix) (0, 0)
  let weightFix := int16 (offset - int16 ((slope * volNormFix) >>> (13 : Nat)))
  let tmpU32 :=
    uint32 (uint32 weightFix * uint32 (inMicLevelTmp - stt.minLevel))
  max (int32 (tmpU32 >>> (14 : Nat) + stt.minLevel)) (lastMicVol + step)

/-- The level after too little energy for long enough. -/
def raise
    (stt : LegacyAgc)
    (curves : Curves)
    (inMicLevelTmp lastMicVol step : Int) : LegacyAgc × Int :=
  let micVol := stt.raisedLevel curves inMicLevelTmp lastMicVol step
  ({ stt with
      msTooLow := 0
      rxx160Lp := Int.tdiv stt.rxx160Lp 64 * 67
      micVol },
    micVol)

/-- The time in which the energy has been too high. -/
def tooHigh (stt : LegacyAgc) : LegacyAgc :=
  { stt with
    msTooHigh := stt.msTooHigh + 2
    msTooLow := 0
    changeToSlowMode := 0 }

/-- The time in which the energy has been too low. -/
def tooLow (stt : LegacyAgc) : LegacyAgc :=
  { stt with
    msTooHigh := 0
    msTooLow := stt.msTooLow + 2
    changeToSlowMode := 0 }

/-- The energy is inside the desired range. -/
def inRange (stt : LegacyAgc) (inMicLevelTmp : Int) : LegacyAgc :=
  let stt :=
    if 4000 < stt.changeToSlowMode then
      { stt with
        msecSpeechInnerChange := 1000
        msecSpeechOuterChange := 500
        upperLimit := stt.limits.upperPrimaryLimit
        lowerLimit := stt.limits.lowerPrimaryLimit }
    else { stt with changeToSlowMode := stt.changeToSlowMode + 2 }
  { stt with msTooLow := 0, msTooHigh := 0, micVol := inMicLevelTmp }

/-- What speech does to the level, by the long-term energy. -/
def adapt
    (stt : LegacyAgc)
    (inMicLevelTmp lastMicVol : Int) : LegacyAgc × Int :=
  if stt.limits.upperSecondaryLimit < stt.rxx160Lp then
    let stt := stt.tooHigh
    if stt.msecSpeechOuterChange < stt.msTooHigh then
      ({ stt with
        rxx160Lp := stt.rxx160Lp >>> (6 : Nat) * 53
        activeSpeech := 0
        rxx16LpMax := 0 }).lower 31130 inMicLevelTmp lastMicVol
    else (stt, inMicLevelTmp)
  else if stt.upperLimit < stt.rxx160Lp then
    let stt := stt.tooHigh
    if stt.msecSpeechInnerChange < stt.msTooHigh then
      ({ stt with rxx160Lp := Int.tdiv stt.rxx160Lp 64 * 53 }).lower
        31621 inMicLevelTmp lastMicVol
    else (stt, inMicLevelTmp)
  else if stt.rxx160Lp < stt.limits.lowerSecondaryLimit then
    let stt := stt.tooLow
    if stt.msecSpeechOuterChange < stt.msTooLow then
      stt.raise curves1 inMicLevelTmp lastMicVol 2
    else (stt, inMicLevelTmp)
  else if stt.rxx160Lp < stt.lowerLimit then
    let stt := stt.tooLow
    if stt.msecSpeechInnerChange < stt.msTooLow then
      stt.raise curves2 inMicLevelTmp lastMicVol 1
    else (stt, inMicLevelTmp)
  else (stt.inRange inMicLevelTmp, inMicLevelTmp)

/-- One of the five blocks of the loop of `WebRtcAgc_ProcessAnalog`. -/
def processBlock
    (vadLogRatio lastMicVol : Int)
    (level : LegacyAgc × Int)
    (rxx16 : Int) : LegacyAgc × Int :=
  let stt := level.1.updateEnergies rxx16
  if stt.vadThreshold < vadLogRatio then
    stt.updateLongTerm.adapt level.2 lastMicVol
  else (stt, level.2)

/-- The volume, not increased with echo or soon after a mute event. -/
def guardedVolume (stt : LegacyAgc) (echo lastMicVol : Int) : Int :=
  if echo = 1 ∨ 0 < stt.muteGuardMs ∧ stt.muteGuardMs < muteGuardTimeMs then
    min stt.micVol lastMicVol
  else stt.micVol

/-- The last limits on the level. -/
def limitLevel (stt : LegacyAgc) (echo lastMicVol : Int) : LegacyAgc :=
  let micVol := stt.guardedVolume echo lastMicVol
  { stt with
    micVol :=
      if stt.maxLevel < micVol then stt.maxLevel
      else if micVol < stt.minOutput then stt.minOutput
      else micVol }

/-- What a call returns: its code, `*outMicLevel` where it writes it, and
`*saturationWarning`. -/
structure AnalogResult where
  code : Int
  outMicLevel : Option Int
  saturationWarning : Bool
  deriving Repr, DecidableEq

/-- `WebRtcAgc_ProcessAnalog` -/
def processAnalog
    (stt : LegacyAgc)
    (inMicLevel : Int)
    (vadLogRatio echo : Int) : LegacyAgc × AnalogResult :=
  let inMicLevelTmp := inMicLevel * 2 ^ stt.scale
  if stt.maxAnalog < inMicLevelTmp ∨ inMicLevelTmp < stt.minLevel then
    (stt, ⟨-1, none, false⟩)
  else
    let (stt, inMicLevelTmp) := stt.startLevel inMicLevel inMicLevelTmp
    let lastMicVol := stt.micVol
    let (stt, inMicLevelTmp, saturationWarning) :=
      stt.protect inMicLevelTmp lastMicVol
    let (stt, _) :=
      (stt.rxx16Array.1.take 5).foldl (processBlock vadLogRatio lastMicVol)
        (stt, inMicLevelTmp)
    let stt := stt.limitLevel echo lastMicVol
    let outMicLevel := min stt.micVol stt.maxAnalog >>> stt.scale
    (stt, ⟨0, some outMicLevel, saturationWarning⟩)

/-- The code that `WebRtcAgc_ProcessDigital` returns. -/
def processDigital (fs : Int) : Int :=
  if fs = 8000 ∨ fs = 16000 ∨ fs = 32000 ∨ fs = 48000 then 0 else -1

/-- The number of samples in a frame; `none` for an unknown rate. -/
def frameSamples (stt : LegacyAgc) : Option Nat :=
  if stt.fs = 8000 then some 80
  else if stt.fs = 16000 ∨ stt.fs = 32000 ∨ stt.fs = 48000 then some 160
  else none

/-- The queue of measurements after a frame. -/
def updateQueue (stt : LegacyAgc) : LegacyAgc :=
  let stt :=
    if 1 < stt.inQueue then
      { stt with
        env := (stt.env.2, stt.env.2)
        rxx16Array := (stt.rxx16Array.2, stt.rxx16Array.2) }
    else stt
  if 0 < stt.inQueue then { stt with inQueue := stt.inQueue - 1 } else stt

/-- `WebRtcAgc_Process`, the levels; a level that is not adapted is handed on. -/
def process
    (stt : LegacyAgc)
    (samples : Nat)
    (inMicLevel echo : Int) : LegacyAgc × AnalogResult :=
  if stt.frameSamples ≠ some samples then (stt, ⟨-1, none, false⟩)
  else if processDigital stt.fs = -1 then
    (stt, ⟨-1, some inMicLevel, false⟩)
  else if stt.agcMode < modeFixedDigital ∧
      (stt.lowLevelSignal = 0 ∨ stt.agcMode ≠ modeAdaptiveDigital) then
    let (stt, result) :=
      stt.processAnalog inMicLevel stt.vadMic.logRatio echo
    if result.code = -1 then
      (stt, { result with outMicLevel := some inMicLevel })
    else (stt.updateQueue, result)
  else (stt.updateQueue, ⟨0, some inMicLevel, false⟩)

end LegacyAgc

end ApmSdk.Agc
