import ApmSdk.AnalogAgcRuns

namespace ApmSdk.Agc

/-!
# What the analog gain control measures

The sum of the envelope peaks and the sliding window of energies, apart from the
levels.  `WebRtcAgc_ProcessAnalog` changes them in `WebRtcAgc_SaturationCtrl` and in
the loop over the blocks alone.
-/

/-- The sliding energy, the window it is taken over, and the position in it. -/
structure EnergyWindow where
  rxx160 : Int
  rxx16Vector : List Int
  rxx16pos : Nat
  deriving Repr, DecidableEq

namespace EnergyWindow

/-- The energy that the next block replaces. -/
def oldest (window : EnergyWindow) : Int :=
  window.rxx16Vector.getD window.rxx16pos 0

/-- The window after one block of 16 samples. -/
def update (window : EnergyWindow) (rxx16 : Int) : EnergyWindow where
  rxx160 := window.rxx160 + (rxx16 - window.oldest) >>> (3 : Nat)
  rxx16Vector := window.rxx16Vector.set window.rxx16pos rxx16
  rxx16pos :=
    if window.rxx16pos + 1 = rxxBufferLen then 0 else window.rxx16pos + 1

end EnergyWindow

/-- The measurements that the level is adapted to. -/
structure Measures where
  envSum : Int
  env : List Int × List Int
  rxx16Array : List Int × List Int
  inQueue : Int
  window : EnergyWindow
  deriving Repr, DecidableEq

/-- `envSum` after the loop of `WebRtcAgc_SaturationCtrl`. -/
def accumulate (envSum : Int) (env : List Int) : Int :=
  (env.take 10).foldl
    (fun envSum (energy : Int) =>
      let tmpW16 := int16 (energy >>> (20 : Nat))
      if 875 < tmpW16 then int16 (envSum + tmpW16) else envSum)
    envSum

/-- `envSum` when `WebRtcAgc_SaturationCtrl` returns. -/
def decayed (envSum : Int) (env : List Int) : Int :=
  let envSum := accumulate envSum env
  int16 (((if 25000 < envSum then 0 else envSum) * 32440) >>> (15 : Nat))

namespace LegacyAgc

variable {stt : LegacyAgc}

/-- The measurements of an instance. -/
def measures (stt : LegacyAgc) : Measures where
  envSum := stt.envSum
  env := stt.env
  rxx16Array := stt.rxx16Array
  inQueue := stt.inQueue
  window :=
    { rxx160 := stt.rxx160
      rxx16Vector := stt.rxx16Vector
      rxx16pos := stt.rxx16pos }

/-- What `WebRtcAgc_SaturationCtrl` returns and leaves. -/
theorem saturationCtrl_eq (stt : LegacyAgc) (env : List Int) :
    stt.saturationCtrl env =
      ({ stt with envSum := decayed stt.envSum env },
        decide (25000 < accumulate stt.envSum env)) := by
  unfold saturationCtrl decayed
  dsimp only
  rw [show
    ((env.take 10).foldl
      (fun envSum (energy : Int) =>
        if 875 < int16 (energy >>> (20 : Nat)) then
          int16 (envSum + int16 (energy >>> (20 : Nat)))
        else envSum)
      stt.envSum) = accumulate stt.envSum env from rfl]
  simp only [decide_eq_true_eq]

/-! ## What leaves the measurements alone -/

theorem measures_firstLevel (stt : LegacyAgc) (level : Int) :
    (stt.firstLevel level).1.measures = stt.measures := by
  unfold firstLevel
  split <;> rfl

theorem measures_raiseManual (stt : LegacyAgc) (level : Int) :
    (stt.raiseManual level).1.measures = stt.measures := by
  unfold raiseManual
  split <;> rfl

theorem measures_followLevel (stt : LegacyAgc) (inMicLevel level : Int) :
    (stt.followLevel inMicLevel level).1.measures = stt.measures := by
  unfold followLevel
  split
  · rfl
  · split <;> rfl

theorem measures_startLevel (stt : LegacyAgc) (inMicLevel level : Int) :
    (stt.startLevel inMicLevel level).1.measures = stt.measures := by
  unfold startLevel
  have first := measures_firstLevel stt level
  generalize stt.firstLevel level = state at first ⊢
  obtain ⟨called, calledLevel⟩ := state
  have raised :=
    measures_raiseManual called (called.previousLevel calledLevel)
  dsimp only at first ⊢
  generalize called.raiseManual (called.previousLevel calledLevel) = state
    at raised ⊢
  obtain ⟨checked, checkedLevel⟩ := state
  have followed := measures_followLevel checked inMicLevel checkedLevel
  dsimp only at raised ⊢
  generalize checked.followLevel inMicLevel checkedLevel = state
    at followed ⊢
  obtain ⟨last, lastLevel⟩ := state
  exact followed.trans (raised.trans first)

theorem measures_zeroCtrl
    (stt : LegacyAgc)
    (level : Int)
    (env : List Int) :
    (stt.zeroCtrl level env).1.measures = stt.measures := by
  unfold zeroCtrl raiseSilent
  dsimp only
  split
  · split <;> rfl
  · rfl

theorem measures_speakerInactiveCtrl (stt : LegacyAgc) :
    stt.speakerInactiveCtrl.measures = stt.measures := by
  unfold speakerInactiveCtrl
  split <;> rfl

theorem measures_updateLongTerm (stt : LegacyAgc) :
    stt.updateLongTerm.measures = stt.measures := by
  unfold updateLongTerm
  dsimp only
  split
  · rfl
  · split <;> rfl

theorem measures_inRange (stt : LegacyAgc) (level : Int) :
    (stt.inRange level).measures = stt.measures := by
  unfold inRange
  dsimp only
  split <;> rfl

theorem measures_adapt (stt : LegacyAgc) (level lastMicVol : Int) :
    (stt.adapt level lastMicVol).1.measures = stt.measures := by
  unfold adapt
  dsimp only
  split
  · split <;> rfl
  · split
    · split <;> rfl
    · split
      · split <;> rfl
      · split
        · split <;> rfl
        · exact measures_inRange stt level

/-! ## What changes them -/

/-- Before the loop only the sum of the peaks changes. -/
theorem measures_protect (stt : LegacyAgc) (level lastMicVol : Int) :
    (stt.protect level lastMicVol).1.measures =
      { stt.measures with envSum := decayed stt.envSum stt.env.1 } := by
  unfold protect
  rw [saturationCtrl_eq]
  dsimp only
  rw [measures_speakerInactiveCtrl, measures_zeroCtrl]
  split <;> rfl

theorem measures_updateEnergies (stt : LegacyAgc) (rxx16 : Int) :
    (stt.updateEnergies rxx16).measures =
      { stt.measures with window := stt.measures.window.update rxx16 } :=
  rfl

/-- A block enters the window. -/
theorem measures_processBlock
    (vadLogRatio lastMicVol : Int)
    (state : LegacyAgc × Int)
    (rxx16 : Int) :
    (processBlock vadLogRatio lastMicVol state rxx16).1.measures =
      { state.1.measures with
        window := state.1.measures.window.update rxx16 } := by
  unfold processBlock
  dsimp only
  split
  · rw [measures_adapt, measures_updateLongTerm, measures_updateEnergies]
  · exact measures_updateEnergies ..

/-- So do all blocks of a frame. -/
theorem measures_foldl_processBlock
    (vadLogRatio lastMicVol : Int)
    (energies : List Int)
    (state : LegacyAgc × Int) :
    (energies.foldl (processBlock vadLogRatio lastMicVol)
        state).1.measures =
      { state.1.measures with
        window := energies.foldl EnergyWindow.update state.1.measures.window } := by
  induction energies generalizing state with
  | nil =>
      rfl
  | cons rxx16 rest inductionHypothesis =>
      rw [List.foldl_cons, inductionHypothesis, measures_processBlock,
        List.foldl_cons]

/-- The level is in the range that `WebRtcAgc_ProcessAnalog` checks. -/
def Accepts (stt : LegacyAgc) (inMicLevel : Int) : Prop :=
  ¬(stt.maxAnalog < inMicLevel * 2 ^ stt.scale ∨
    inMicLevel * 2 ^ stt.scale < stt.minLevel)

instance (stt : LegacyAgc) (inMicLevel : Int) :
    Decidable (stt.Accepts inMicLevel) :=
  inferInstanceAs (Decidable (¬ _))

/-- What an analog frame does to the measurements. -/
theorem measures_processAnalog
    (stt : LegacyAgc)
    (inMicLevel vadLogRatio echo : Int) :
    (stt.processAnalog inMicLevel vadLogRatio echo).1.measures =
      if stt.Accepts inMicLevel then
        { stt.measures with
          envSum := decayed stt.envSum stt.env.1
          window :=
            (stt.rxx16Array.1.take 5).foldl EnergyWindow.update
              stt.measures.window }
      else stt.measures := by
  unfold processAnalog
  dsimp only
  split
  next refused =>
      have notAccepted : ¬stt.Accepts inMicLevel := not_not_intro refused
      rw [if_neg notAccepted]
  next accepted =>
      have isAccepted : stt.Accepts inMicLevel := accepted
      rw [if_pos isAccepted]
      have started :=
        measures_startLevel stt inMicLevel (inMicLevel * 2 ^ stt.scale)
      generalize stt.startLevel inMicLevel (inMicLevel * 2 ^ stt.scale) =
        start at started ⊢
      obtain ⟨first, level⟩ := start
      have shielded := measures_protect first level first.micVol
      dsimp only at started ⊢
      generalize first.protect level first.micVol = shield at shielded ⊢
      obtain ⟨second, secondLevel, saturationWarning⟩ := shield
      have looped :=
        measures_foldl_processBlock vadLogRatio first.micVol
          (second.rxx16Array.1.take 5) (second, secondLevel)
      dsimp only at shielded looped ⊢
      generalize (second.rxx16Array.1.take 5).foldl
        (processBlock vadLogRatio first.micVol) (second, secondLevel) = loop
        at looped ⊢
      have sameArray : second.rxx16Array = stt.rxx16Array :=
        (congrArg Measures.rxx16Array shielded).trans
          (congrArg Measures.rxx16Array started)
      have sameSum : first.envSum = stt.envSum :=
        congrArg Measures.envSum started
      have sameEnv : first.env = stt.env :=
        congrArg Measures.env started
      rw [shielded, started, sameArray, sameSum, sameEnv] at looped
      exact looped

/-- A configuration measures nothing. -/
theorem measures_setConfig (stt : LegacyAgc) (agcConfig : AgcConfig) :
    (stt.setConfig agcConfig).1.measures = stt.measures := by
  unfold setConfig
  dsimp only
  split
  · rfl
  · split
    · rfl
    · split
      · rfl
      · split <;> rfl

/-- Amplification measures nothing either. -/
theorem measures_digitalGain
    {next : LegacyAgc}
    {inMic amplified : List (List Int)}
    (gained : stt.digitalGain inMic = some (next, amplified)) :
    next.measures = stt.measures := by
  unfold digitalGain at gained
  split at gained
  · obtain ⟨target, -, later⟩ := Option.bind_eq_some_iff.mp gained
    obtain ⟨gain, -, same⟩ := Option.map_eq_some_iff.mp later
    obtain ⟨rfl, -⟩ := Prod.mk.inj same
    rfl
  · obtain ⟨rfl, -⟩ := Prod.mk.inj (Option.some.inj gained)
    rfl

/-- What an initialisation sets the measurements to. -/
theorem measures_init
    {memory : LegacyAgc}
    {minLevel maxLevel agcMode fs : Int}
    (initialised : memory.init minLevel maxLevel agcMode fs = (stt, 0)) :
    stt.measures =
      { envSum := 0
        env := (List.replicate 10 0, List.replicate 10 0)
        rxx16Array := (List.replicate 5 0, memory.rxx16Array.2)
        inQueue := 0
        window :=
          { rxx160 := 125 * rxxBufferLen
            rxx16Vector := List.replicate rxxBufferLen 1000
            rxx16pos := 0 } } := by
  unfold init at initialised
  by_cases badMode : agcMode < modeUnchanged ∨ modeFixedDigital < agcMode
  · rw [if_pos badMode] at initialised
    have code : (-1 : Int) = 0 := congrArg Prod.snd initialised
    exact absurd code (by decide)
  · rw [if_neg badMode] at initialised
    dsimp only at initialised
    generalize (if agcMode = modeAdaptiveDigital then ((0 : Int), (255 : Int))
      else (minLevel, maxLevel)) = range at initialised
    generalize startShape :
      ({ memory with envSum := 0, agcMode, fs, vadMic := .init, scale := 0 } :
        LegacyAgc) = start at initialised
    have sameArray : start.rxx16Array = memory.rxx16Array :=
      startShape ▸ rfl
    have noPeaks : start.envSum = 0 := startShape ▸ rfl
    have configured :=
      measures_setConfig (start.initLevels range.1 range.2).initAnalog
        defaultConfig
    generalize (start.initLevels range.1 range.2).initAnalog.setConfig
      defaultConfig = result at initialised configured
    obtain ⟨next, err⟩ := result
    dsimp only at initialised configured
    have measured :
        (start.initLevels range.1 range.2).initAnalog.measures =
          { envSum := start.envSum
            env := (List.replicate 10 0, List.replicate 10 0)
            rxx16Array := (List.replicate 5 0, start.rxx16Array.2)
            inQueue := 0
            window :=
              { rxx160 := 125 * rxxBufferLen
                rxx16Vector := List.replicate rxxBufferLen 1000
                rxx16pos := 0 } } :=
      rfl
    rw [measured, noPeaks, sameArray] at configured
    by_cases failed : err = -1
    · rw [if_pos failed] at initialised
      have code : (-1 : Int) = 0 := congrArg Prod.snd initialised
      exact absurd code (by decide)
    · rw [if_neg failed] at initialised
      obtain ⟨rfl, -⟩ := Prod.mk.inj initialised
      exact configured

/-! ## Calls -/

/-- `WebRtcAgc_ProcessAnalog` fails for levels out of range alone. -/
theorem code_processAnalog
    (stt : LegacyAgc)
    (inMicLevel vadLogRatio echo : Int) :
    (stt.processAnalog inMicLevel vadLogRatio echo).2.code = -1 ↔
      ¬stt.Accepts inMicLevel := by
  unfold processAnalog
  dsimp only
  split
  next refused =>
      exact iff_of_true rfl (not_not_intro refused)
  next accepted =>
      refine iff_of_false ?_ (not_not_intro accepted)
      show ¬(0 : Int) = -1
      decide

/-- `WebRtcAgc_Process` adapts the level: the frame has the right length, the mode has
an analog part, and the level is in range. -/
def AdaptsLevel
    (stt : LegacyAgc)
    (samples : Nat)
    (inMicLevel : Int) : Prop :=
  stt.frameSamples = some samples ∧
    stt.agcMode < modeFixedDigital ∧
      (stt.lowLevelSignal = 0 ∨ stt.agcMode ≠ modeAdaptiveDigital) ∧
        stt.Accepts inMicLevel

instance (stt : LegacyAgc) (samples : Nat) (inMicLevel : Int) :
    Decidable (stt.AdaptsLevel samples inMicLevel) :=
  inferInstanceAs (Decidable (_ ∧ _ ∧ _ ∧ _))

/-- The digital part knows the rates of the frames. -/
theorem processDigital_of_frameSamples
    {samples : Nat}
    (frame : stt.frameSamples = some samples) :
    LegacyAgc.processDigital stt.fs ≠ -1 := by
  unfold frameSamples at frame
  unfold LegacyAgc.processDigital
  split at frame
  next fs =>
      simp [fs]
  next =>
      split at frame
      next fs =>
          rcases fs with fs | fs | fs <;> simp [fs]
      next =>
          cases frame

/-- A queue of measurements moves on without changing the sum or the window. -/
theorem updateQueue_measures (stt : LegacyAgc) :
    stt.updateQueue.measures.envSum = stt.measures.envSum ∧
      stt.updateQueue.measures.window = stt.measures.window ∧
        (stt.inQueue = 1 → stt.updateQueue.inQueue = 0) := by
  unfold updateQueue
  dsimp only
  split
  next more =>
      have notOne : ¬stt.inQueue = 1 := by omega
      split <;> exact ⟨rfl, rfl, fun isOne => absurd isOne notOne⟩
  next =>
      split
      · exact ⟨rfl, rfl, fun isOne => by rw [isOne]; rfl⟩
      next none =>
          exact ⟨rfl, rfl, fun isOne => absurd isOne (by omega)⟩

/-- A frame that adapts the level is an analog frame, and moves the queue on. -/
theorem process_of_adaptsLevel
    {samples : Nat}
    {inMicLevel : Int}
    (echo : Int)
    (adapts : stt.AdaptsLevel samples inMicLevel) :
    (stt.process samples inMicLevel echo).1 =
      (stt.processAnalog inMicLevel stt.vadMic.logRatio
        echo).1.updateQueue := by
  obtain ⟨frame, mode, level, accepted⟩ := adapts
  have code :=
    code_processAnalog stt inMicLevel stt.vadMic.logRatio echo
  unfold process
  rw [if_neg (not_not_intro frame),
    if_neg (processDigital_of_frameSamples frame), if_pos ⟨mode, level⟩]
  dsimp only
  rw [if_neg fun failed => code.mp failed accepted]

/-- What a frame does to the sum of the peaks and to the window. -/
theorem measures_process
    (stt : LegacyAgc)
    (samples : Nat)
    (inMicLevel echo : Int) :
    (stt.process samples inMicLevel echo).1.measures.envSum =
        (if stt.AdaptsLevel samples inMicLevel then
          decayed stt.envSum stt.env.1
        else stt.envSum) ∧
      (stt.process samples inMicLevel echo).1.measures.window =
        (if stt.AdaptsLevel samples inMicLevel then
          (stt.rxx16Array.1.take 5).foldl EnergyWindow.update
            stt.measures.window
        else stt.measures.window) := by
  have analog :=
    measures_processAnalog stt inMicLevel stt.vadMic.logRatio echo
  by_cases adapts : stt.AdaptsLevel samples inMicLevel
  · rw [if_pos adapts.2.2.2] at analog
    obtain ⟨envSum, window, -⟩ :=
      updateQueue_measures
        (stt.processAnalog inMicLevel stt.vadMic.logRatio echo).1
    rw [analog] at envSum window
    rw [process_of_adaptsLevel echo adapts, if_pos adapts, if_pos adapts]
    exact ⟨envSum, window⟩
  · rw [if_neg adapts, if_neg adapts]
    unfold process
    by_cases frame : stt.frameSamples = some samples
    · rw [if_neg (not_not_intro frame),
        if_neg (processDigital_of_frameSamples frame)]
      by_cases mode :
          stt.agcMode < modeFixedDigital ∧
            (stt.lowLevelSignal = 0 ∨ stt.agcMode ≠ modeAdaptiveDigital)
      · have refused : ¬stt.Accepts inMicLevel :=
          fun accepted => adapts ⟨frame, mode.1, mode.2, accepted⟩
        rw [if_neg refused] at analog
        have code :=
          (code_processAnalog stt inMicLevel stt.vadMic.logRatio echo).mpr
            refused
        rw [if_pos mode]
        dsimp only
        rw [if_pos code]
        dsimp only
        rw [analog]
        exact ⟨rfl, rfl⟩
      · rw [if_neg mode]
        obtain ⟨envSum, window, -⟩ := updateQueue_measures stt
        exact ⟨envSum, window⟩
    · rw [if_pos frame]
      exact ⟨rfl, rfl⟩

end LegacyAgc

end ApmSdk.Agc
