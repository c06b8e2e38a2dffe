import ApmSdk.CompressionSteps
import ApmSdk.GainControl
import ApmSdk.LoudnessHistogram

namespace ApmSdk.AgcManager

/-!
# The experimental gain control

`AgcManagerDirect` with its `Agc`, the `GainControlImpl` whose compressor it sets, and the
`GainControlForExperimentalAgc` that keeps the microphone volume between it and the
application.  The bins and probabilities of the frames come from the voice activity
detector, and the logarithm that makes an error in decibels of a histogram is a parameter.
-/

open AudioProcessing LoudnessHistogram

/-- `kClippedLevelMin` -/
def kClippedLevelMin : Int :=
  170

/-- `kClippedLevelStep` -/
def kClippedLevelStep : Int :=
  15

/-- `kClippedRatioThreshold` -/
def kClippedRatioThreshold : ℚ :=
  single (1 / 10)

/-- `kClippedWaitFrames` -/
def kClippedWaitFrames : Int :=
  300

/-- `kLevelQuantizationSlack` -/
def kLevelQuantizationSlack : Int :=
  25

/-- `kDefaultCompressionGain` -/
def kDefaultCompressionGain : Int :=
  7

/-- `kMaxCompressionGain` -/
def kMaxCompressionGain : Int :=
  12

/-- `kMinCompressionGain` -/
def kMinCompressionGain : Int :=
  2

/-- `kMaxMicLevel` -/
def kMaxMicLevel : Int :=
  255

/-- `kMinMicLevel` -/
def kMinMicLevel : Int :=
  12

/-- `kMaxResidualGainChange` -/
def kMaxResidualGainChange : Int :=
  15

/-- `kSurplusCompressionGain` -/
def kSurplusCompressionGain : Int :=
  6

/-- `kNumAnalysisFrames` -/
def kNumAnalysisFrames : Nat :=
  100

/-- `kActivityThreshold` -/
def kActivityThreshold : ℚ :=
  double (3 / 10)

/-- `kGainMap` -/
def kGainMap : List Int :=
  [-56, -54, -52, -50, -48, -47, -45, -43, -42, -40, -38, -37, -35, -34, -33, -31, -30,
    -29, -27, -26, -25, -24, -23, -22, -20, -19, -18, -17, -16, -15, -14, -14, -13, -12,
    -11, -10, -9, -8, -8, -7, -6, -5, -5, -4, -3, -2, -2, -1, 0, 0, 1, 1, 2, 3, 3, 4, 4, 5,
    5, 6, 6, 7, 7, 8, 8, 9, 9, 10, 10, 11, 11, 12, 12, 13, 13, 13, 14, 14, 15, 15, 15, 16,
    16, 17, 17, 17, 18, 18, 18, 19, 19, 19, 20, 20, 21, 21, 21, 22, 22, 22, 23, 23, 23, 24,
    24, 24, 24, 25, 25, 25, 26, 26, 26, 27, 27, 27, 28, 28, 28, 28, 29, 29, 29, 30, 30, 30,
    30, 31, 31, 31, 32, 32, 32, 32, 33, 33, 33, 33, 34, 34, 34, 35, 35, 35, 35, 36, 36, 36,
    36, 37, 37, 37, 38, 38, 38, 38, 39, 39, 39, 39, 40, 40, 40, 40, 41, 41, 41, 41, 42, 42,
    42, 42, 43, 43, 43, 44, 44, 44, 44, 45, 45, 45, 45, 46, 46, 46, 46, 47, 47, 47, 47, 48,
    48, 48, 48, 49, 49, 49, 49, 50, 50, 50, 50, 51, 51, 51, 51, 52, 52, 52, 52, 53, 53, 53,
    53, 54, 54, 54, 54, 55, 55, 55, 55, 56, 56, 56, 56, 57, 57, 57, 57, 58, 58, 58, 58, 59,
    59, 59, 59, 60, 60, 60, 60, 61, 61, 61, 61, 62, 62, 62, 62, 63, 63, 63, 63, 64]

/-- `kGainMap` at a level, which need not be a place of it. -/
def gainAt (level : Int) : Option Int :=
  if 0 ≤ level then kGainMap[level.toNat]? else none

/-- `ClampLevel` -/
def clampLevel (micLevel : Int) : Int :=
  min (max kMinMicLevel micLevel) kMaxMicLevel

/-- The loop of `LevelFromGainError` for a positive error, with the levels that are left. -/
def raiseLevel (gain gainError : Int) : Nat → Int → Option Int
  | 0, newLevel => do
      let _ ← gainAt newLevel
      some newLevel
  | left + 1, newLevel => do
      let newGain ← gainAt newLevel
      if newGain - gain < gainError then
        raiseLevel gain gainError left (newLevel + 1)
      else
        some newLevel

/-- The loop of `LevelFromGainError` for a negative error, with the levels that are left. -/
def lowerLevel (gain gainError : Int) : Nat → Int → Option Int
  | 0, newLevel => do
      let _ ← gainAt newLevel
      some newLevel
  | left + 1, newLevel => do
      let newGain ← gainAt newLevel
      if gainError < newGain - gain then
        lowerLevel gain gainError left (newLevel - 1)
      else
        some newLevel

/-- `LevelFromGainError` -/
def levelFromGainError (gainError level : Int) : Option Int := do
  if gainError = 0 then
    some level
  else
    let gain ← gainAt level
    if 0 < gainError then
      raiseLevel gain gainError (kMaxMicLevel - level).toNat level
    else
      lowerLevel gain gainError (level - kMinMicLevel).toNat level

/-! ## The analysis -/

/-- The histogram that `Agc` fills; the one for inactive frames is never used. -/
structure Agc where
  histogram : Histogram

namespace Agc

/-- `AnalyzePreproc` -/
def analyzePreproc (audio : List Int16) : ℚ :=
  let numClipped := audio.countP fun sample => sample == 32767 || sample == -32768
  single (single numClipped / single audio.length)

/-- A chunk as the voice activity detector reports it. -/
structure Chunk where
  activityProbQ10 : Int
  histIndex : Fin kHistSize

/-- `Process`, for the chunks that the voice activity detector reports. -/
def process
    (agc : Agc)
    (chunks : List Chunk) : Option Agc := do
  let histogram ←
    chunks.foldlM
      (fun histogram chunk =>
        histogram.update chunk.activityProbQ10 chunk.histIndex)
      agc.histogram
  some ⟨histogram⟩

/-- `AudioContent` -/
def audioContent (histogram : Histogram) : ℚ :=
  double (double histogram.audioContentQ10 / 1024)

/-- `GetRmsErrorDb` -/
def getRmsErrorDb
    (rmsErrorDb : Histogram → Int)
    (agc : Agc) : Agc × Option Int :=
  if agc.histogram.numUpdates < kNumAnalysisFrames then
    (agc, none)
  else if audioContent agc.histogram <
      double (kNumAnalysisFrames * kActivityThreshold) then
    (agc, none)
  else
    (⟨agc.histogram.reset⟩, some (rmsErrorDb agc.histogram))

/-- `Reset` -/
def reset (agc : Agc) : Agc :=
  ⟨agc.histogram.reset⟩

end Agc

/-! ## The manager -/

/-- `AgcManagerDirect` -/
structure AgcManagerDirect extends Compressor where
  framesSinceClipped : Int
  level : Int
  maxLevel : Int
  maxCompressionGain : Int
  targetCompression : Int
  captureMuted : Bool
  checkVolumeOnNextProcess : Bool
  startup : Bool
  startupMinLevel : Int

/-- The manager and what it works with: `volume` is the `volume_` of
`GainControlForExperimentalAgc`, which is the manager's `VolumeCallbacks`. -/
structure AgcSession (cores : Cores) where
  manager : AgcManagerDirect
  agc : Agc
  volume : Int
  gainControl : GainControl cores
  formats : StreamFormats
  outputWillBeMuted : Bool

/-- `AgcManagerDirect(..)` -/
def AgcManagerDirect.create (startupMinLevel : Int) : AgcManagerDirect where
  compression := kDefaultCompressionGain
  compressionAccumulator := single kDefaultCompressionGain
  framesSinceClipped := kClippedWaitFrames
  level := 0
  maxLevel := kMaxMicLevel
  maxCompressionGain := kMaxCompressionGain
  targetCompression := kDefaultCompressionGain
  captureMuted := false
  checkVolumeOnNextProcess := true
  startup := true
  startupMinLevel := clampLevel startupMinLevel

/-- `SetMaxLevel`, where all but the last sum is of type `float`. -/
def AgcManagerDirect.setMaxLevel
    (manager : AgcManagerDirect)
    (level : Int) : AgcManagerDirect :=
  let restricted := single (255 - level)
  let surplus := single (single (restricted / 85) * 6)
  { manager with
    maxLevel := level
    maxCompressionGain := kMaxCompressionGain + ⌊single (surplus + 1 / 2)⌋ }

/-- `SetCaptureMuted` -/
def AgcManagerDirect.setCaptureMuted
    (manager : AgcManagerDirect)
    (muted : Bool) : AgcManagerDirect :=
  if manager.captureMuted = muted then
    manager
  else if muted then
    { manager with captureMuted := true }
  else
    -- When we unmute, we should reset things to be safe.
    { manager with
      captureMuted := false
      checkVolumeOnNextProcess := true }

/-- The target that the received one is moved halfway to, or the end of the range that
this would not reach. -/
def AgcManagerDirect.nextTarget
    (manager : AgcManagerDirect)
    (rawCompression : Int) : Int :=
  if (rawCompression = manager.maxCompressionGain ∧
        manager.targetCompression = manager.maxCompressionGain - 1) ∨
      (rawCompression = kMinCompressionGain ∧
        manager.targetCompression = kMinCompressionGain + 1) then
    rawCompression
  else
    (rawCompression - manager.targetCompression).tdiv 2 + manager.targetCompression

namespace AgcSession

variable {cores : Cores}

/-- `SetLevel` -/
def setLevel
    (session : AgcSession cores)
    (newLevel : Int) : AgcSession cores :=
  let manager := session.manager
  let voeLevel := session.volume
  if voeLevel < 0 then
    session
  else if voeLevel = 0 then
    session
  else if kMaxMicLevel < voeLevel then
    session
  else if manager.level + kLevelQuantizationSlack < voeLevel ∨
      voeLevel < manager.level - kLevelQuantizationSlack then
    -- Mic volume was manually adjusted.
    let adjusted := { manager with level := voeLevel }
    { session with
      manager :=
        -- Always allow the user to increase the volume.
        if manager.maxLevel < voeLevel then
          adjusted.setMaxLevel voeLevel
        else
          adjusted
      agc := session.agc.reset }
  else
    let allowed := min newLevel manager.maxLevel
    if allowed = manager.level then
      session
    else
      { session with
        volume := allowed
        manager := { manager with level := allowed } }

/-- `CheckVolumeAndReset` -/
def checkVolumeAndReset (session : AgcSession cores) : AgcSession cores :=
  let manager := session.manager
  let level := session.volume
  if level < 0 then
    session
  else if level = 0 ∧ !manager.startup then
    session
  else if kMaxMicLevel < level then
    session
  else
    let minLevel :=
      if manager.startup then manager.startupMinLevel else kMinMicLevel
    let raised := max level minLevel
    { session with
      volume := raised
      agc := session.agc.reset
      manager := { manager with level := raised, startup := false } }

/-- `UpdateGain` -/
def updateGain
    (rmsErrorDb : Histogram → Int)
    (session : AgcSession cores) : Option (AgcSession cores) :=
  let asked := session.agc.getRmsErrorDb rmsErrorDb
  let answered := { session with agc := asked.1 }
  match asked.2 with
  | none => some answered
  | some received => do
      -- The compressor will always add at least kMinCompressionGain.
      let rmsError := received + kMinCompressionGain
      let manager := answered.manager
      let rawCompression :=
        max (min rmsError manager.maxCompressionGain) kMinCompressionGain
      let targeted :=
        { answered with
          manager :=
            { manager with
              targetCompression := manager.nextTarget rawCompression } }
      let residualGain :=
        min (max (rmsError - rawCompression) (-kMaxResidualGainChange))
          kMaxResidualGainChange
      if residualGain = 0 then
        some targeted
      else
        let newLevel ← levelFromGainError residualGain targeted.manager.level
        some (targeted.setLevel newLevel)

/-- `UpdateCompressor`; an error of `set_compression_gain_db` is only logged. -/
def updateCompressor (session : AgcSession cores) : AgcSession cores :=
  let manager := session.manager
  let next := manager.toCompressor.updateCompressor manager.targetCompression
  { session with
    manager := { manager with toCompressor := next }
    gainControl :=
      if next.compression = manager.compression then
        session.gainControl
      else
        (GainControl.setCompressionGainDb session.formats next.compression
          session.gainControl).1 }

/-- The check of the volume that `Process` makes when it has been asked for. -/
def checkVolumeIfAsked (session : AgcSession cores) : AgcSession cores :=
  if session.manager.checkVolumeOnNextProcess then
    checkVolumeAndReset
      { session with
        manager := { session.manager with checkVolumeOnNextProcess := false } }
  else
    session

/-- `Process` -/
def process
    (rmsErrorDb : Histogram → Int)
    (session : AgcSession cores)
    (chunks : List Agc.Chunk) : Option (AgcSession cores) :=
  if session.manager.captureMuted then
    some session
  else do
    let agc ← session.checkVolumeIfAsked.agc.process chunks
    let updated ←
      updateGain rmsErrorDb { session.checkVolumeIfAsked with agc }
    some updated.updateCompressor

/-- Always decrease the maximum level, even if the current level is below threshold. -/
def restrictLevel (session : AgcSession cores) : AgcSession cores :=
  { session with
    manager :=
      { session.manager.setMaxLevel
          (max kClippedLevelMin (session.manager.maxLevel - kClippedLevelStep)) with
        framesSinceClipped := 0 } }

/-- What a clipped frame changes in `AnalyzePreProcess`. -/
def reactToClipping (session : AgcSession cores) : AgcSession cores :=
  if kClippedLevelMin < session.manager.level then
    let lowered :=
      session.restrictLevel.setLevel
        (max kClippedLevelMin (session.manager.level - kClippedLevelStep))
    -- Reset the AGC since the level has changed.
    { lowered with agc := lowered.agc.reset }
  else
    session.restrictLevel

/-- `AnalyzePreProcess` -/
def analyzePreProcess
    (session : AgcSession cores)
    (audio : List Int16) : AgcSession cores :=
  let manager := session.manager
  if manager.captureMuted then
    session
  else if manager.framesSinceClipped < kClippedWaitFrames then
    { session with
      manager :=
        { manager with framesSinceClipped := manager.framesSinceClipped + 1 } }
  else if kClippedRatioThreshold < Agc.analyzePreproc audio then
    session.reactToClipping
  else
    session

/-- The calls on the gain control that `Initialize` makes. -/
def configureGainControl
    (formats : StreamFormats) : Stage (GainControl cores) Exit :=
  runStages
    [GainControl.setMode formats .kFixedDigital,
      GainControl.setTargetLevelDbfs formats 2,
      GainControl.setCompressionGainDb formats kDefaultCompressionGain,
      GainControl.enableLimiter formats true]

/-- `Initialize` of the manager, with how it fails. -/
def initializeManager : Stage (AgcSession cores) Exit :=
  fun session =>
    let ran := configureGainControl session.formats session.gainControl
    ({ session with
        manager :=
          { session.manager with
            maxLevel := kMaxMicLevel
            maxCompressionGain := kMaxCompressionGain
            targetCompression := kDefaultCompressionGain
            compression := kDefaultCompressionGain
            compressionAccumulator := single kDefaultCompressionGain
            captureMuted := false
            checkVolumeOnNextProcess := true }
        gainControl := ran.1 }, ran.2)

/-- `InitializeExperimentalAgc`, which does not look at what `Initialize` returns. -/
def initializeExperimentalAgc (session : AgcSession cores) : AgcSession cores :=
  let initialized := (initializeManager session).1
  { initialized with
    manager :=
      initialized.manager.setCaptureMuted initialized.outputWillBeMuted }

/-- The part of `InitializeLocked` that is about the gain control, which is the last of
the components: its own `Initialize`, and the manager's if no component has failed. -/
def initializeLocked
    (session : AgcSession cores)
    (formats : StreamFormats)
    (othersPass : Bool) : AgcSession cores :=
  if othersPass then
    let ran := GainControl.initializeComponent formats session.gainControl
    let prepared := { session with gainControl := ran.1, formats }
    if ran.2.isNone then prepared.initializeExperimentalAgc else prepared
  else
    { session with formats }

/-- `set_output_will_be_muted` -/
def setOutputWillBeMuted
    (session : AgcSession cores)
    (muted : Bool) : AgcSession cores :=
  { session with
    outputWillBeMuted := muted
    manager := session.manager.setCaptureMuted muted }

/-- `Enable` of the wrapper. -/
def enable
    (session : AgcSession cores)
    (flag : Bool) : AgcSession cores :=
  { session with
    gainControl :=
      (GainControl.enable session.formats flag session.gainControl).1 }

/-- `set_stream_analog_level` of the wrapper, which keeps any level. -/
def setStreamAnalogLevel
    (session : AgcSession cores)
    (level : Int) : AgcSession cores :=
  { session with volume := level }

/-- A session as it starts, when the modules have been made and nothing is initialised. -/
def create
    (startupMinLevel : Int)
    (formats : StreamFormats)
    (memory : Memory kNumAnalysisFrames) : AgcSession cores where
  manager := .create startupMinLevel
  agc := ⟨Histogram.create memory⟩
  volume := 0
  gainControl := .create
  formats
  outputWillBeMuted := false

end AgcSession

/-- The settings that the wrapper takes and leaves alone. -/
inductive IgnoredSetting where
  | setMode (mode : GainMode)
  | setTargetLevelDbfs (level : Int)
  | setCompressionGainDb (gain : Int)
  | enableLimiter (flag : Bool)
  | setAnalogLevelLimits (minimum maximum : Int)

/-- The calls on a session: the application's through the wrapper, and the module's. -/
inductive AgcCall where
  | initializeLocked (formats : StreamFormats) (othersPass : Bool)
  | setOutputWillBeMuted (muted : Bool)
  | enable (flag : Bool)
  | setStreamAnalogLevel (level : Int)
  | ignored (setting : IgnoredSetting)
  | analyzePreProcess (audio : List Int16)
  | process (chunks : List Agc.Chunk)

/-- One call of a run. -/
def AgcSession.perform
    {cores : Cores}
    (rmsErrorDb : Histogram → Int)
    (session : AgcSession cores) : AgcCall → Option (AgcSession cores)
  | .initializeLocked formats othersPass =>
      some (session.initializeLocked formats othersPass)
  | .setOutputWillBeMuted muted => some (session.setOutputWillBeMuted muted)
  | .enable flag => some (session.enable flag)
  | .setStreamAnalogLevel level => some (session.setStreamAnalogLevel level)
  | .ignored _ => some session
  | .analyzePreProcess audio => some (session.analyzePreProcess audio)
  | .process chunks => session.process rmsErrorDb chunks

end ApmSdk.AgcManager
