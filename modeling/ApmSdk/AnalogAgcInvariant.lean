import ApmSdk.AnalogAgc

namespace ApmSdk.Agc

/-!
# What the analog gain control keeps of its levels

Every branch of `WebRtcAgc_ProcessAnalog` may move the level, and a lowering also the
largest level.  The invariant says that no level exceeds the largest one that
`WebRtcAgc_Init` allows.  Inside the loop over the five blocks the level may exceed
it after it has been raised, but then it has not been too high for long enough to be
lowered in the same call.
-/

/-- What no call changes. -/
structure LevelRange where
  agcMode : Int
  fs : Int
  scale : Nat
  minLevel : Int
  maxAnalog : Int
  maxInit : Int
  minOutput : Int
  deriving Repr, DecidableEq

/-- The fields that bound the level. -/
structure LevelBounds where
  range : LevelRange
  maxLevel : Int
  zeroCtrlMax : Int
  msecSpeechInnerChange : Int
  msecSpeechOuterChange : Int
  gainTableIdx : Nat
  deriving Repr, DecidableEq

/-- The bounds that an instance holds. -/
def LegacyAgc.bounds (stt : LegacyAgc) : LevelBounds where
  range :=
    { agcMode := stt.agcMode
      fs := stt.fs
      scale := stt.scale
      minLevel := stt.minLevel
      maxAnalog := stt.maxAnalog
      maxInit := stt.maxInit
      minOutput := stt.minOutput }
  maxLevel := stt.maxLevel
  zeroCtrlMax := stt.zeroCtrlMax
  msecSpeechInnerChange := stt.msecSpeechInnerChange
  msecSpeechOuterChange := stt.msecSpeechOuterChange
  gainTableIdx := stt.gainTableIdx

/-- A range narrow enough for `WebRtcAgc_AddMic`. -/
structure LevelRange.Sound (range : LevelRange) : Prop where
  unscaled : range.scale = 0
  minLevel_le : range.minLevel ≤ range.minOutput
  span : range.maxInit - range.minLevel < 2 ^ 20
  headroom : range.maxInit - range.maxAnalog < 2 ^ 15
  minOutput_le : range.minOutput ≤ range.maxAnalog

/-- The bounds that such a range gives, and that every call keeps. -/
structure LevelBounds.Sound (bounds : LevelBounds) : Prop where
  range : bounds.range.Sound
  maxAnalog_le : bounds.range.maxAnalog ≤ bounds.maxLevel
  maxLevel_le : bounds.maxLevel ≤ bounds.range.maxInit
  zeroCtrlMax_le : bounds.zeroCtrlMax ≤ bounds.range.maxInit
  inner : msecSpeechOuter ≤ bounds.msecSpeechInnerChange
  outer : msecSpeechOuter ≤ bounds.msecSpeechOuterChange
  gainTableIdx_lt : bounds.gainTableIdx < gainTblLen

/-- An instance with given bounds, whose level and volume are within them. -/
structure AtMost
    (bounds : LevelBounds)
    (state : LegacyAgc × Int) : Prop where
  bounds_eq : state.1.bounds = bounds
  volume : state.1.micVol ≤ bounds.maxLevel
  level : state.2 ≤ bounds.maxLevel

namespace LegacyAgc

variable {stt : LegacyAgc}
variable {bounds : LevelBounds}
variable {level : Int}

/-! ## The steps before the loop -/

theorem raisedStart_le
    (sound : stt.bounds.Sound) :
    stt.raisedStart ≤ stt.maxLevel := by
  have lower : stt.minLevel ≤ stt.maxAnalog :=
    Int.le_trans sound.range.minLevel_le sound.range.minOutput_le
  have span : stt.maxInit - stt.minLevel < 2 ^ 20 := sound.range.span
  have middle : stt.maxAnalog ≤ stt.maxLevel := sound.maxAnalog_le
  have upper : stt.maxLevel ≤ stt.maxInit := sound.maxLevel_le
  unfold raisedStart
  rw [int32_of_bounds (by omega) (by omega), Int.shiftRight_eq_div_pow]
  omega

theorem atMost_firstLevel
    (sound : bounds.Sound)
    (held : AtMost bounds (stt, level)) :
    AtMost bounds (stt.firstLevel level) := by
  obtain ⟨rfl, volume, inRange⟩ := held
  unfold firstLevel
  split
  · refine ⟨rfl, ?_, ?_⟩ <;> dsimp only <;> split
    · exact raisedStart_le sound
    · exact inRange
    · exact raisedStart_le sound
    · exact inRange
  · exact ⟨rfl, volume, inRange⟩

theorem atMost_previousLevel
    (held : AtMost bounds (stt, level)) :
    AtMost bounds (stt, stt.previousLevel level) := by
  refine ⟨held.bounds_eq, held.volume, ?_⟩
  dsimp only [previousLevel]
  split
  · exact held.volume
  · exact held.level

theorem atMost_raiseManual
    (sound : bounds.Sound)
    (held : AtMost bounds (stt, level)) :
    AtMost bounds (stt.raiseManual level) := by
  obtain ⟨rfl, volume, inRange⟩ := held
  unfold raiseManual
  split
  · exact ⟨rfl, raisedStart_le sound, raisedStart_le sound⟩
  · exact ⟨rfl, volume, inRange⟩

theorem atMost_followLevel
    (inMicLevel : Int)
    (held : AtMost bounds (stt, level)) :
    AtMost bounds (stt.followLevel inMicLevel level) := by
  obtain ⟨rfl, volume, inRange⟩ := held
  unfold followLevel
  split
  · exact ⟨rfl, volume, inRange⟩
  · split
    · exact ⟨rfl, volume, volume⟩
    · exact ⟨rfl, inRange, inRange⟩

/-- Before the loop the level is at most the largest one, which has not changed. -/
theorem atMost_startLevel
    (inMicLevel : Int)
    (sound : bounds.Sound)
    (held : AtMost bounds (stt, level)) :
    AtMost bounds (stt.startLevel inMicLevel level) := by
  unfold startLevel
  have first := atMost_firstLevel sound held
  generalize stt.firstLevel level = state at first ⊢
  obtain ⟨stt, level⟩ := state
  have raised := atMost_raiseManual sound (atMost_previousLevel first)
  dsimp only
  generalize stt.raiseManual (stt.previousLevel level) = state at raised ⊢
  obtain ⟨stt, level⟩ := state
  have followed := atMost_followLevel inMicLevel raised
  dsimp only
  generalize stt.followLevel inMicLevel level = state at followed ⊢
  obtain ⟨stt, level⟩ := state
  obtain ⟨rfl, volume, inRange⟩ := followed
  have largest : max stt.maxLevel level = stt.maxLevel :=
    Int.max_eq_left inRange
  refine ⟨?_, volume, inRange⟩
  dsimp only
  rw [largest]
  rfl

/-! ## Saturated, silent and inactive input -/

end LegacyAgc

/--
An instance whose bounds are sound and keep the range, and whose volume does not
exceed the largest level of the range.
-/
structure Capped
    (range : LevelRange)
    (stt : LegacyAgc) : Prop where
  sound : stt.bounds.Sound
  range_eq : stt.bounds.range = range
  volume : stt.micVol ≤ range.maxInit

namespace LegacyAgc

variable {stt : LegacyAgc}
variable {range : LevelRange}
variable {level lastMicVol : Int}

/-- A lowered level is below the one before. -/
theorem loweredLevel_le
    (stt : LegacyAgc)
    (factor level lastMicVol step : Int) :
    stt.loweredLevel factor level lastMicVol step ≤ lastMicVol - step :=
  Int.min_le_right _ _

theorem capped_lowerSaturated
    (last : lastMicVol ≤ range.maxInit)
    (capped : Capped range stt) :
    Capped range (stt.lowerSaturated level lastMicVol).1 := by
  obtain ⟨sound, rfl, volume⟩ := capped
  have lowered := loweredLevel_le stt 29591 level lastMicVol 2
  refine ⟨⟨sound.range, sound.maxAnalog_le, sound.maxLevel_le, volume, ?_,
    Int.le_refl _, sound.gainTableIdx_lt⟩, rfl, ?_⟩
  · exact show msecSpeechOuter ≤ msecSpeechInner by decide
  · exact Int.le_trans lowered (by omega)

theorem capped_raiseSilent
    (capped : Capped range stt) :
    Capped range (stt.raiseSilent level).1 := by
  obtain ⟨sound, rfl, volume⟩ := capped
  unfold raiseSilent
  dsimp only
  split
  · exact ⟨sound, rfl,
      Int.le_trans (Int.min_le_right _ _) sound.zeroCtrlMax_le⟩
  · exact ⟨sound, rfl, volume⟩

theorem capped_zeroCtrl
    {env : List Int}
    (capped : Capped range stt) :
    Capped range (stt.zeroCtrl level env).1 := by
  have counted : Capped range (stt.countSilence env) :=
    ⟨capped.sound, capped.range_eq, capped.volume⟩
  unfold zeroCtrl
  dsimp only
  split
  · exact capped_raiseSilent counted
  · exact counted

theorem capped_speakerInactiveCtrl
    (capped : Capped range stt) :
    Capped range stt.speakerInactiveCtrl := by
  unfold speakerInactiveCtrl
  split <;> exact ⟨capped.sound, capped.range_eq, capped.volume⟩

theorem capped_protect
    (last : lastMicVol ≤ range.maxInit)
    (capped : Capped range stt) :
    Capped range (stt.protect level lastMicVol).1 := by
  unfold protect
  have summed : Capped range (stt.saturationCtrl stt.env.1).1 :=
    ⟨capped.sound, capped.range_eq, capped.volume⟩
  generalize stt.saturationCtrl stt.env.1 = summedState at summed ⊢
  obtain ⟨stt, saturated⟩ := summedState
  cases saturated with
  | false =>
      exact capped_speakerInactiveCtrl (capped_zeroCtrl summed)
  | true =>
      exact capped_speakerInactiveCtrl
        (capped_zeroCtrl (capped_lowerSaturated last summed))

/-! ## The loop over the blocks -/

end LegacyAgc

/--
What holds after `blocks` blocks of a frame: the bounds, and either the volume has not
exceeded the largest level, or it has been raised and not been too high for more than
these blocks since.
-/
structure BlockInvariant
    (range : LevelRange)
    (blocks : Int)
    (stt : LegacyAgc) : Prop where
  sound : stt.bounds.Sound
  range_eq : stt.bounds.range = range
  volume : stt.micVol ≤ range.maxInit ∨ stt.msTooHigh ≤ 2 * blocks

namespace BlockInvariant

variable {range : LevelRange}
variable {blocks : Int}
variable {stt : LegacyAgc}
variable {level lastMicVol : Int}

theorem mono
    (held : BlockInvariant range blocks stt) :
    BlockInvariant range (blocks + 1) stt :=
  ⟨held.sound, held.range_eq, by
    rcases held.volume with atMost | recent
    · exact Or.inl atMost
    · exact Or.inr (by omega)⟩

theorem tooHigh
    (held : BlockInvariant range blocks stt) :
    BlockInvariant range (blocks + 1) stt.tooHigh :=
  ⟨held.sound, held.range_eq, by
    rcases held.volume with atMost | recent
    · exact Or.inl atMost
    · exact Or.inr (by
        show stt.msTooHigh + 2 ≤ 2 * (blocks + 1)
        omega)⟩

/-- Too high for long enough, so the volume has not been raised in this call. -/
theorem volume_of_tooHigh
    {threshold : Int}
    (few : blocks ≤ 5)
    (long : msecSpeechOuter ≤ threshold)
    (exceeds : threshold < stt.msTooHigh)
    (held : BlockInvariant range blocks stt) :
    stt.micVol ≤ range.maxInit := by
  rcases held.volume with atMost | recent
  · exact atMost
  · exfalso
    unfold msecSpeechOuter at long
    omega

theorem lower
    (factor : Int)
    (last : lastMicVol ≤ range.maxInit)
    (volume : stt.micVol ≤ range.maxInit)
    (held : BlockInvariant range blocks stt) :
    BlockInvariant range blocks
      (stt.lower factor level lastMicVol).1 := by
  obtain ⟨sound, rfl, -⟩ := held
  have lowered :=
    LegacyAgc.loweredLevel_le stt factor level lastMicVol 1
  have largest : stt.maxLevel ≤ stt.maxInit := sound.maxLevel_le
  have headroom : stt.maxAnalog ≤ stt.maxInit :=
    Int.le_trans sound.maxAnalog_le sound.maxLevel_le
  have average :
      Int.tdiv (15 * stt.maxLevel + stt.micVol) 16 ≤ stt.maxInit :=
    calc
      _ ≤ Int.tdiv (16 * stt.maxInit) 16 :=
        Int.tdiv_le_tdiv (by decide) (by
          have atMost : stt.micVol ≤ stt.maxInit := volume
          omega)
      _ = stt.maxInit := Int.mul_tdiv_cancel_left _ (by decide)
  refine ⟨⟨sound.range, Int.le_max_right _ _, Int.max_le.mpr ⟨average, headroom⟩,
    volume, sound.inner, sound.outer, sound.gainTableIdx_lt⟩, rfl, Or.inl ?_⟩
  exact Int.le_trans lowered (by omega)

theorem raise
    (curves : Curves)
    (step : Int)
    (reset : stt.msTooHigh ≤ 0)
    (some : 0 ≤ blocks)
    (held : BlockInvariant range blocks stt) :
    BlockInvariant range blocks
      (stt.raise curves level lastMicVol step).1 :=
  ⟨held.sound, held.range_eq, Or.inr (Int.le_trans reset (by omega))⟩

theorem tooLow
    (some : 0 ≤ blocks)
    (held : BlockInvariant range blocks stt) :
    BlockInvariant range blocks stt.tooLow :=
  ⟨held.sound, held.range_eq, Or.inr (show 0 ≤ 2 * blocks by omega)⟩

theorem inRange
    (some : 0 ≤ blocks)
    (held : BlockInvariant range blocks stt) :
    BlockInvariant range blocks (stt.inRange level) := by
  obtain ⟨sound, rfl, -⟩ := held
  unfold LegacyAgc.inRange
  split
  · refine ⟨⟨sound.range, sound.maxAnalog_le, sound.maxLevel_le,
      sound.zeroCtrlMax_le, ?_, ?_, sound.gainTableIdx_lt⟩, rfl,
      Or.inr (show 0 ≤ 2 * blocks by omega)⟩
    · exact show msecSpeechOuter ≤ 1000 by decide
    · exact show msecSpeechOuter ≤ 500 by decide
  · exact ⟨sound, rfl, Or.inr (show 0 ≤ 2 * blocks by omega)⟩

/-- Whatever the long-term energy does to the level keeps the invariant. -/
theorem adapt
    (some : 0 ≤ blocks)
    (few : blocks < 5)
    (last : lastMicVol ≤ range.maxInit)
    (held : BlockInvariant range blocks stt) :
    BlockInvariant range (blocks + 1)
      (stt.adapt level lastMicVol).1 := by
  have later : 0 ≤ blocks + 1 := by omega
  unfold LegacyAgc.adapt
  split
  · dsimp only
    split
    next exceeds =>
      have high := held.tooHigh
      have volume :=
        high.volume_of_tooHigh (by omega) high.sound.outer exceeds
      exact BlockInvariant.lower 31130 last volume
        ⟨high.sound, high.range_eq, high.volume⟩
    next => exact held.tooHigh
  · split
    · dsimp only
      split
      next exceeds =>
        have high := held.tooHigh
        have volume :=
          high.volume_of_tooHigh (by omega) high.sound.inner exceeds
        exact BlockInvariant.lower 31621 last volume
          ⟨high.sound, high.range_eq, high.volume⟩
      next => exact held.tooHigh
    · split
      · dsimp only
        split
        · exact (held.mono.tooLow later).raise curves1 2 (Int.le_refl 0) later
        · exact held.mono.tooLow later
      · split
        · dsimp only
          split
          · exact (held.mono.tooLow later).raise curves2 1 (Int.le_refl 0) later
          · exact held.mono.tooLow later
        · exact held.mono.inRange later

/-- One block of the loop keeps the invariant. -/
theorem processBlock
    (vadLogRatio rxx16 : Int)
    {state : LegacyAgc × Int}
    (some : 0 ≤ blocks)
    (few : blocks < 5)
    (last : lastMicVol ≤ range.maxInit)
    (held : BlockInvariant range blocks state.1) :
    BlockInvariant range (blocks + 1)
      (LegacyAgc.processBlock vadLogRatio lastMicVol state rxx16).1 := by
  have updated :
      BlockInvariant range blocks (state.1.updateEnergies rxx16) :=
    ⟨held.sound, held.range_eq, held.volume⟩
  unfold LegacyAgc.processBlock
  dsimp only
  split
  · have speech :
        BlockInvariant range blocks
          (state.1.updateEnergies rxx16).updateLongTerm := by
      unfold LegacyAgc.updateLongTerm
      split
      · exact ⟨updated.sound, updated.range_eq, updated.volume⟩
      · split <;> exact ⟨updated.sound, updated.range_eq, updated.volume⟩
    exact speech.adapt some few last
  · exact updated.mono

/-- So do all blocks of a frame. -/
theorem foldl_processBlock
    (vadLogRatio : Int)
    (energies : List Int)
    {state : LegacyAgc × Int}
    (some : 0 ≤ blocks)
    (few : blocks + energies.length ≤ 5)
    (last : lastMicVol ≤ range.maxInit)
    (held : BlockInvariant range blocks state.1) :
    BlockInvariant range (blocks + energies.length)
      (energies.foldl
        (LegacyAgc.processBlock vadLogRatio lastMicVol) state).1 := by
  induction energies generalizing blocks state with
  | nil =>
      simpa using held
  | cons rxx16 rest inductionHypothesis =>
      rw [List.length_cons] at few ⊢
      have first :=
        held.processBlock vadLogRatio rxx16 some (by omega) last
      have later := inductionHypothesis (by omega) (by omega) first
      rw [show blocks + ((rest.length + 1 : Nat) : Int) =
        blocks + 1 + rest.length from by omega]
      exact later

end BlockInvariant

/-! ## Whole calls -/

/-- A configuration changes no level. -/
theorem LegacyAgc.setConfig_levels
    (stt : LegacyAgc)
    (agcConfig : AgcConfig) :
    (stt.setConfig agcConfig).1.bounds = stt.bounds ∧
      (stt.setConfig agcConfig).1.micVol = stt.micVol := by
  unfold LegacyAgc.setConfig
  dsimp only
  split
  · exact ⟨rfl, rfl⟩
  · split
    · exact ⟨rfl, rfl⟩
    · split
      · exact ⟨rfl, rfl⟩
      · split <;> exact ⟨rfl, rfl⟩

/-- What every call keeps. -/
structure LevelInvariant
    (range : LevelRange)
    (stt : LegacyAgc) : Prop where
  sound : stt.bounds.Sound
  range_eq : stt.bounds.range = range
  minOutput_le : range.minOutput ≤ stt.micVol
  volume : stt.micVol ≤ stt.maxLevel

namespace LevelInvariant

variable {range : LevelRange}
variable {stt : LegacyAgc}

/-- A call that touches neither the bounds nor the volume. -/
theorem congr
    {next : LegacyAgc}
    (held : LevelInvariant range stt)
    (bounds : next.bounds = stt.bounds)
    (volume : next.micVol = stt.micVol) :
    LevelInvariant range next := by
  obtain ⟨sound, rfl, minOutput, atMost⟩ := held
  have largest : next.maxLevel = stt.maxLevel :=
    congrArg LevelBounds.maxLevel bounds
  refine ⟨?_, ?_, ?_, ?_⟩
  · rw [bounds]
    exact sound
  · rw [bounds]
  · rw [volume]
    exact minOutput
  · rw [volume, largest]
    exact atMost

/-- The last bounds on the level restore the invariant. -/
theorem limitLevel
    (echo lastMicVol : Int)
    (sound : stt.bounds.Sound)
    (range_eq : stt.bounds.range = range) :
    LevelInvariant range (stt.limitLevel echo lastMicVol) := by
  subst range_eq
  have reachable : stt.minOutput ≤ stt.maxLevel :=
    Int.le_trans sound.range.minOutput_le sound.maxAnalog_le
  suffices limited :
      stt.minOutput ≤ (stt.limitLevel echo lastMicVol).micVol ∧
        (stt.limitLevel echo lastMicVol).micVol ≤ stt.maxLevel from
    ⟨sound, rfl, limited.1, limited.2⟩
  dsimp only [LegacyAgc.limitLevel]
  generalize stt.guardedVolume echo lastMicVol = volume
  split
  · exact ⟨reachable, Int.le_refl _⟩
  next atMost =>
    split
    · exact ⟨Int.le_refl _, reachable⟩
    next atLeast =>
      exact ⟨Int.not_lt.mp atLeast, Int.not_lt.mp atMost⟩

/-- The level handed out lies between `minOutput` and `maxAnalog`. -/
theorem outMicLevel
    (held : LevelInvariant range stt) :
    range.minOutput ≤ min stt.micVol stt.maxAnalog >>> stt.scale ∧
      min stt.micVol stt.maxAnalog >>> stt.scale ≤ range.maxAnalog := by
  obtain ⟨sound, rfl, minOutput, -⟩ := held
  rw [show stt.scale = 0 from sound.range.unscaled, Int.shiftRight_zero]
  exact ⟨Int.le_min.mpr ⟨minOutput, sound.range.minOutput_le⟩,
    Int.min_le_right _ _⟩

/-- An analog frame returns 0 and a level of the range, and keeps the invariant. -/
theorem processAnalog
    {inMicLevel : Int}
    (vadLogRatio echo : Int)
    (atLeast : range.minLevel ≤ inMicLevel)
    (atMost : inMicLevel ≤ range.maxAnalog)
    (held : LevelInvariant range stt) :
    LevelInvariant range
        (stt.processAnalog inMicLevel vadLogRatio echo).1 ∧
      ∃ outMicLevel saturationWarning,
        (stt.processAnalog inMicLevel vadLogRatio echo).2 =
            ⟨0, some outMicLevel, saturationWarning⟩ ∧
          range.minOutput ≤ outMicLevel ∧ outMicLevel ≤ range.maxAnalog := by
  obtain ⟨sound, rfl, minOutput, volume⟩ := held
  have unscaled : inMicLevel * 2 ^ stt.scale = inMicLevel := by
    rw [show stt.scale = 0 from sound.range.unscaled, Int.pow_zero,
      Int.mul_one]
  have accepted :
      ¬(stt.maxAnalog < inMicLevel ∨ inMicLevel < stt.minLevel) :=
    not_or.mpr ⟨Int.not_lt.mpr atMost, Int.not_lt.mpr atLeast⟩
  unfold LegacyAgc.processAnalog
  rw [unscaled]
  dsimp only
  rw [if_neg accepted]
  have started :=
    LegacyAgc.atMost_startLevel inMicLevel sound
      ⟨rfl, volume, Int.le_trans atMost sound.maxAnalog_le⟩
  generalize stt.startLevel inMicLevel inMicLevel = start at started ⊢
  obtain ⟨first, level⟩ := start
  obtain ⟨bounds_eq, firstVolume, -⟩ := started
  have last : first.micVol ≤ stt.bounds.range.maxInit :=
    Int.le_trans firstVolume sound.maxLevel_le
  have shielded : Capped stt.bounds.range (first.protect level first.micVol).1 :=
    LegacyAgc.capped_protect last
      ⟨bounds_eq ▸ sound, congrArg LevelBounds.range bounds_eq, last⟩
  dsimp only
  generalize first.protect level first.micVol = shield at shielded ⊢
  obtain ⟨second, level, saturationWarning⟩ := shield
  have adapted :=
    BlockInvariant.foldl_processBlock vadLogRatio
      (second.rxx16Array.1.take 5)
      (Int.le_refl 0)
      (by
        have few := List.length_take_le 5 second.rxx16Array.1
        omega)
      last
      (show BlockInvariant stt.bounds.range 0 (second, level).1 from
        ⟨shielded.sound, shielded.range_eq, Or.inl shielded.volume⟩)
  dsimp only
  generalize (second.rxx16Array.1.take 5).foldl
    (LegacyAgc.processBlock vadLogRatio first.micVol) (second, level) = loop
    at adapted ⊢
  have limited :=
    limitLevel echo first.micVol adapted.sound adapted.range_eq
  exact ⟨limited, _, _, rfl, limited.outMicLevel⟩

/-- The digital gain divides by a positive number, and its target is in the table. -/
theorem targetGainIdx
    (held : LevelInvariant range stt)
    (above : stt.maxAnalog < stt.micVol) :
    0 < int16 (stt.maxLevel - stt.maxAnalog) ∧
      ∃ target,
        stt.targetGainIdx = some target ∧
          0 ≤ target ∧ target < gainTblLen := by
  obtain ⟨sound, rfl, -, volume⟩ := held
  have largest : stt.maxLevel ≤ stt.maxInit := sound.maxLevel_le
  have headroom : stt.maxInit - stt.maxAnalog < 2 ^ 15 :=
    sound.range.headroom
  have divisor :
      int16 (stt.maxLevel - stt.maxAnalog) = stt.maxLevel - stt.maxAnalog :=
    int16_of_bounds (by omega) (by omega)
  have excess :
      int16 (stt.micVol - stt.maxAnalog) = stt.micVol - stt.maxAnalog :=
    int16_of_bounds (by omega) (by omega)
  have positive : 0 < stt.maxLevel - stt.maxAnalog := by omega
  have numerator :
      ((gainTblLen : Int) - 1) * (stt.micVol - stt.maxAnalog) =
        31 * (stt.micVol - stt.maxAnalog) := rfl
  have quotient_nonneg :
      0 ≤ Int.tdiv (31 * (stt.micVol - stt.maxAnalog))
        (stt.maxLevel - stt.maxAnalog) :=
    Int.tdiv_nonneg (by omega) (by omega)
  have quotient_le :
      Int.tdiv (31 * (stt.micVol - stt.maxAnalog))
        (stt.maxLevel - stt.maxAnalog) ≤ 31 := by
    rw [Int.tdiv_eq_ediv_of_nonneg (by omega)]
    exact Int.ediv_le_of_le_mul positive (by omega)
  unfold LegacyAgc.targetGainIdx
  simp only [divisor, excess, numerator]
  rw [if_neg (by omega), uint16_of_bounds quotient_nonneg (by omega)]
  exact ⟨positive, _, rfl, quotient_nonneg, Int.lt_add_one_of_le quotient_le⟩

theorem stepGainTableIdx_lt
    {gainTableIdx : Nat}
    {target : Int}
    (inTable : gainTableIdx < gainTblLen)
    (targetInTable : target < gainTblLen) :
    LegacyAgc.stepGainTableIdx gainTableIdx target < gainTblLen := by
  unfold LegacyAgc.stepGainTableIdx
  split
  · omega
  · split <;> omega

theorem withGainTableIdx
    {gainTableIdx : Nat}
    (inTable : gainTableIdx < gainTblLen)
    (held : LevelInvariant range stt) :
    LevelInvariant range { stt with gainTableIdx } := by
  obtain ⟨sound, rfl, minOutput, volume⟩ := held
  exact ⟨⟨sound.range, sound.maxAnalog_le, sound.maxLevel_le,
    sound.zeroCtrlMax_le, sound.inner, sound.outer, inTable⟩, rfl,
    minOutput, volume⟩

/-- The digital gain is defined, and it keeps the invariant. -/
theorem digitalGain
    (inMic : List (List Int))
    (held : LevelInvariant range stt) :
    ∃ next amplified,
      stt.digitalGain inMic = some (next, amplified) ∧
        LevelInvariant range next := by
  unfold LegacyAgc.digitalGain
  by_cases above : stt.maxAnalog < stt.micVol
  · obtain ⟨-, target, reached, -, inTable⟩ := held.targetGainIdx above
    have stepped :=
      stepGainTableIdx_lt held.sound.gainTableIdx_lt inTable
    rw [if_pos above, reached, Option.bind_some]
    dsimp only [LegacyAgc.bounds] at stepped ⊢
    generalize
      LegacyAgc.stepGainTableIdx stt.gainTableIdx target = gainTableIdx
      at stepped ⊢
    have entry : gainTableAnalog[gainTableIdx]? = some _ :=
      List.getElem?_eq_getElem stepped
    rw [entry, Option.map_some]
    exact ⟨_, _, rfl, held.withGainTableIdx stepped⟩
  · rw [if_neg above]
    exact ⟨_, _, rfl, held.withGainTableIdx (by decide)⟩

theorem measure
    (input : List Int)
    (samples : Nat)
    (held : LevelInvariant range stt) :
    LevelInvariant range (stt.measure input samples) := by
  unfold LegacyAgc.measure
  dsimp only
  split <;> exact held.congr rfl rfl

/-- A frame from the microphone is defined, and it keeps the invariant. -/
theorem addMic
    (inMic : List (List Int))
    (samples : Nat)
    (held : LevelInvariant range stt) :
    ∃ next amplified code,
      stt.addMic inMic samples = some (next, amplified, code) ∧
        LevelInvariant range next := by
  unfold LegacyAgc.addMic
  split
  · exact ⟨_, _, _, rfl, held⟩
  · obtain ⟨next, amplified, gained, nextHeld⟩ := held.digitalGain inMic
    rw [gained, Option.map_some]
    exact ⟨_, _, _, rfl, nextHeld.measure (amplified.headD []) samples⟩

theorem setConfig
    (agcConfig : AgcConfig)
    (held : LevelInvariant range stt) :
    LevelInvariant range (stt.setConfig agcConfig).1 :=
  held.congr (stt.setConfig_levels agcConfig).1
    (stt.setConfig_levels agcConfig).2

theorem updateQueue
    (held : LevelInvariant range stt) :
    LevelInvariant range stt.updateQueue := by
  unfold LegacyAgc.updateQueue
  dsimp only
  split <;> split <;> exact held.congr rfl rfl

/-- A frame keeps the invariant. -/
theorem process
    {inMicLevel : Int}
    (samples : Nat)
    (echo : Int)
    (atLeast : range.minLevel ≤ inMicLevel)
    (atMost : inMicLevel ≤ range.maxAnalog)
    (held : LevelInvariant range stt) :
    LevelInvariant range (stt.process samples inMicLevel echo).1 := by
  have adapted :=
    (held.processAnalog stt.vadMic.logRatio echo atLeast atMost).1
  unfold LegacyAgc.process
  split
  · exact held
  · split
    · exact held
    · split
      · generalize
          stt.processAnalog inMicLevel stt.vadMic.logRatio echo = frame
          at adapted ⊢
        obtain ⟨next, result⟩ := frame
        dsimp only
        split
        · exact adapted
        · exact adapted.updateQueue
      · exact held.updateQueue

end LevelInvariant

namespace LevelInvariant

variable {range : LevelRange}
variable {stt : LegacyAgc}

/-- A frame of the right size returns 0 and a level of the range. -/
theorem process_result
    {inMicLevel : Int}
    {samples : Nat}
    (echo : Int)
    (analog : range.agcMode = modeAdaptiveAnalog)
    (sized : stt.frameSamples = some samples)
    (atLeast : range.minLevel ≤ inMicLevel)
    (atMost : inMicLevel ≤ range.maxAnalog)
    (held : LevelInvariant range stt) :
    ∃ outMicLevel saturationWarning,
      (stt.process samples inMicLevel echo).2 =
          ⟨0, some outMicLevel, saturationWarning⟩ ∧
        range.minOutput ≤ outMicLevel ∧ outMicLevel ≤ range.maxAnalog := by
  obtain ⟨-, outMicLevel, saturationWarning, answer, inRange⟩ :=
    held.processAnalog stt.vadMic.logRatio echo atLeast atMost
  have mode : stt.agcMode = modeAdaptiveAnalog :=
    (congrArg LevelRange.agcMode held.range_eq).trans analog
  have digital : LegacyAgc.processDigital stt.fs ≠ -1 := by
    unfold LegacyAgc.frameSamples at sized
    unfold LegacyAgc.processDigital
    split at sized
    next narrow => simp [narrow]
    next =>
      split at sized
      next wide => simp [wide]
      next => cases sized
  refine ⟨outMicLevel, saturationWarning, ?_, inRange⟩
  unfold LegacyAgc.process
  rw [if_neg (not_not.mpr sized), if_neg digital, mode,
    if_pos ⟨by decide, Or.inr (by decide)⟩]
  generalize
    stt.processAnalog inMicLevel stt.vadMic.logRatio echo = frame
    at answer ⊢
  obtain ⟨next, result⟩ := frame
  obtain rfl : result = _ := answer
  rfl

end LevelInvariant

/-! ## Initialisation -/

/-- The default configuration is accepted. -/
theorem setConfig_defaultConfig
    (stt : LegacyAgc)
    (created : stt.initFlag = initCheck)
    (analog : stt.agcMode = modeAdaptiveAnalog) :
    (stt.setConfig defaultConfig).2 = 0 := by
  have gain :
      (stt.storeConfig defaultConfig).compressionGaindB = 9 := by
    show (if stt.agcMode = modeFixedDigital then _ else _) = (9 : Int)
    rw [analog]
    rfl
  unfold LegacyAgc.setConfig
  rw [if_neg (not_not.mpr created), if_neg (by decide), if_neg (by decide)]
  dsimp only
  rw [gain, if_neg (by decide)]

/-- What initialisation sets, and when it succeeds. -/
theorem init_adaptiveAnalog
    (memory : LegacyAgc)
    (minLevel maxLevel fs : Int) :
    ∃ start : LegacyAgc,
      start.scale = 0 ∧
        start.agcMode = modeAdaptiveAnalog ∧
          start.fs = fs ∧
            (memory.init minLevel maxLevel modeAdaptiveAnalog fs).1.bounds =
                (start.initLevels minLevel maxLevel).initAnalog.bounds ∧
              (memory.init minLevel maxLevel modeAdaptiveAnalog fs).1.micVol =
                  maxLevel ∧
                (memory.init minLevel maxLevel modeAdaptiveAnalog fs).2 =
                  if LegacyAgc.LegalRange minLevel maxLevel then 0 else -1 := by
  unfold LegacyAgc.init
  rw [if_neg (by decide), if_neg (by decide)]
  dsimp only
  generalize startShape :
    ({ memory with
        envSum := 0, agcMode := modeAdaptiveAnalog, fs, vadMic := .init,
        scale := 0 } : LegacyAgc) = start
  have analog : start.agcMode = modeAdaptiveAnalog := startShape ▸ rfl
  have accepted :=
    setConfig_defaultConfig
      (start.initLevels minLevel maxLevel).initAnalog rfl analog
  have levels :=
    (start.initLevels minLevel maxLevel).initAnalog.setConfig_levels
      defaultConfig
  have volume :
      (start.initLevels minLevel maxLevel).initAnalog.micVol = maxLevel := by
    show (if start.agcMode = modeAdaptiveDigital then (127 : Int)
      else maxLevel) = maxLevel
    rw [analog]
    rfl
  rw [accepted, if_neg (by decide)]
  exact ⟨start, startShape ▸ rfl, analog, startShape ▸ rfl, levels.1,
    levels.2.trans volume, rfl⟩

/-- The levels of a narrow range, where no sum wraps. -/
theorem bounds_initLevels
    {start : LegacyAgc}
    {minLevel maxLevel : Int}
    (unscaled : start.scale = 0)
    (legal : LegacyAgc.LegalRange minLevel maxLevel)
    (narrow : maxLevel - minLevel ≤ 131071) :
    (start.initLevels minLevel maxLevel).initAnalog.bounds =
      { range :=
          { agcMode := start.agcMode
            fs := start.fs
            scale := 0
            minLevel
            maxAnalog := maxLevel
            maxInit := maxLevel + (maxLevel - minLevel) / 4
            minOutput :=
              minLevel +
                (maxLevel + (maxLevel - minLevel) / 4 - minLevel) * 10 / 2 ^ 8 }
        maxLevel := maxLevel + (maxLevel - minLevel) / 4
        zeroCtrlMax := maxLevel
        msecSpeechInnerChange := msecSpeechInner
        msecSpeechOuterChange := msecSpeechOuter
        gainTableIdx := 0 } := by
  obtain ⟨ordered, nonneg, small⟩ := legal
  have maxAdd :
      Int.tdiv (int32 (maxLevel - minLevel)) 4 = (maxLevel - minLevel) / 4 := by
    rw [int32_of_bounds (by omega) (by omega),
      Int.tdiv_eq_ediv_of_nonneg (by omega)]
  have supplemented :
      int32 (maxLevel + (maxLevel - minLevel) / 4) =
        maxLevel + (maxLevel - minLevel) / 4 :=
    int32_of_bounds (by omega) (by omega)
  have span :
      int32 (maxLevel + (maxLevel - minLevel) / 4 - minLevel) =
        maxLevel + (maxLevel - minLevel) / 4 - minLevel :=
    int32_of_bounds (by omega) (by omega)
  have tenfold :
      int32 ((maxLevel + (maxLevel - minLevel) / 4 - minLevel) * 10) =
        (maxLevel + (maxLevel - minLevel) / 4 - minLevel) * 10 :=
    int32_of_bounds (by omega) (by omega)
  have minOutput :
      int32 (minLevel +
          (maxLevel + (maxLevel - minLevel) / 4 - minLevel) * 10 / 2 ^ 8) =
        minLevel +
          (maxLevel + (maxLevel - minLevel) / 4 - minLevel) * 10 / 2 ^ 8 :=
    int32_of_bounds (by omega) (by omega)
  dsimp only [LegacyAgc.bounds, LegacyAgc.initAnalog, LegacyAgc.initLevels]
  rw [unscaled, maxAdd, supplemented, span, tenfold,
    Int.shiftRight_eq_div_pow]
  exact congrArg
    (fun minOutput => { range := { minOutput, .. }, .. : LevelBounds }) minOutput

/-- These bounds are sound. -/
theorem sound_initLevels
    {start : LegacyAgc}
    {minLevel maxLevel : Int}
    (unscaled : start.scale = 0)
    (legal : LegacyAgc.LegalRange minLevel maxLevel)
    (narrow : maxLevel - minLevel ≤ 131071) :
    (start.initLevels minLevel maxLevel).initAnalog.bounds.Sound := by
  rw [bounds_initLevels unscaled legal narrow]
  obtain ⟨ordered, nonneg, small⟩ := legal
  refine ⟨⟨rfl, ?_, ?_, ?_, ?_⟩, ?_, ?_, ?_, ?_, ?_, ?_⟩ <;> dsimp only <;>
    first | omega | decide

/-- A legal range of at most 131071 steps gives the invariant. -/
theorem levelInvariant_init
    (memory : LegacyAgc)
    {minLevel maxLevel : Int}
    (fs : Int)
    (legal : LegacyAgc.LegalRange minLevel maxLevel)
    (narrow : maxLevel - minLevel ≤ 131071) :
    ∃ range : LevelRange,
      range.agcMode = modeAdaptiveAnalog ∧
        range.fs = fs ∧
          range.minLevel = minLevel ∧
            range.maxAnalog = maxLevel ∧
              LevelInvariant range
                (memory.init minLevel maxLevel modeAdaptiveAnalog fs).1 := by
  obtain ⟨start, unscaled, analog, rate, bounds, volume, -⟩ :=
    init_adaptiveAnalog memory minLevel maxLevel fs
  have sound := sound_initLevels unscaled legal narrow
  rw [← bounds] at sound
  have maxAnalog :
      (memory.init minLevel maxLevel modeAdaptiveAnalog fs).1.maxAnalog =
        maxLevel :=
    congrArg (fun bounds => bounds.range.maxAnalog) bounds
  refine ⟨_, (congrArg (fun bounds => bounds.range.agcMode) bounds).trans analog,
    (congrArg (fun bounds => bounds.range.fs) bounds).trans rate,
    congrArg (fun bounds => bounds.range.minLevel) bounds, maxAnalog,
    sound, rfl, ?_, ?_⟩
  · rw [volume, ← maxAnalog]
    exact sound.range.minOutput_le
  · rw [volume, ← maxAnalog]
    exact sound.maxAnalog_le

end ApmSdk.Agc
