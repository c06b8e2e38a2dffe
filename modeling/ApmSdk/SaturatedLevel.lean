import ApmSdk.AnalogMeasures

namespace ApmSdk.Agc

/-!
# The level after a saturated frame

`WebRtcAgc_ProcessAnalog` lowers the level of a saturated frame first.  The time in
which the energy has been too low is not reset by this, so that one of the five blocks
may still raise the level, and a raise is taken from the level before.
-/

namespace LegacyAgc

variable {stt : LegacyAgc}

/-- What an analog frame starts from, after the adjustment to the caller's level. -/
def entry (stt : LegacyAgc) (inMicLevel : Int) : LegacyAgc × Int :=
  stt.startLevel inMicLevel (inMicLevel * 2 ^ stt.scale)

/-- The energy has been too low for long enough. -/
def RaisesLevel (stt : LegacyAgc) : Prop :=
  ¬stt.limits.upperSecondaryLimit < stt.rxx160Lp ∧
    ¬stt.upperLimit < stt.rxx160Lp ∧
      if stt.rxx160Lp < stt.limits.lowerSecondaryLimit then
        stt.msecSpeechOuterChange < stt.msTooLow + 2
      else
        stt.rxx160Lp < stt.lowerLimit ∧
          stt.msecSpeechInnerChange < stt.msTooLow + 2

instance (stt : LegacyAgc) : Decidable stt.RaisesLevel :=
  inferInstanceAs (Decidable (_ ∧ _ ∧ ite ..))

/-- A block with speech raises the level. -/
def BlockRaises
    (vadLogRatio : Int)
    (stt : LegacyAgc)
    (rxx16 : Int) : Prop :=
  (stt.updateEnergies rxx16).vadThreshold < vadLogRatio ∧
    (stt.updateEnergies rxx16).updateLongTerm.RaisesLevel

/-- One of the blocks of a frame raises the level. -/
def BlocksRaise
    (vadLogRatio lastMicVol : Int) :
    LegacyAgc × Int → List Int → Prop
  | _, [] => False
  | state, rxx16 :: rest =>
      BlockRaises vadLogRatio state.1 rxx16 ∨
        BlocksRaise vadLogRatio lastMicVol
          (processBlock vadLogRatio lastMicVol state rxx16) rest

instance decidableBlocksRaise (vadLogRatio lastMicVol : Int) :
    ∀ (state : LegacyAgc × Int) (energies : List Int),
      Decidable (BlocksRaise vadLogRatio lastMicVol state energies)
  | _, [] => inferInstanceAs (Decidable False)
  | state, rxx16 :: rest =>
      have := decidableBlocksRaise vadLogRatio lastMicVol
        (processBlock vadLogRatio lastMicVol state rxx16) rest
      inferInstanceAs
        (Decidable ((_ < vadLogRatio ∧ RaisesLevel _) ∨ BlocksRaise ..))

/-- `WebRtcAgc_ZeroCtrl` raises a level that was lowered to where it was before. -/
def RestoresLevel (stt : LegacyAgc) (inMicLevelTmp : Int) : Prop :=
  let lowered := stt.loweredLevel 29591 inMicLevelTmp stt.micVol 2
  int32 (stt.env.1.take 10).sum < 500 ∧
    500 < stt.msZero + 10 ∧
      lowered < Int.tdiv (stt.maxAnalog + stt.minLevel + 1) 2 ∧
        stt.micVol ≤ int32 (1126 * lowered) >>> (10 : Nat)

end LegacyAgc

/--
What holds after `blocks` blocks of a saturated frame that started from `first`: the
level is the volume, and it has not been too high for more than these blocks.
-/
structure AfterSaturation
    (first : LegacyAgc)
    (blocks : Int)
    (state : LegacyAgc × Int) : Prop where
  level : state.1.micVol = state.2
  recent : state.1.msTooHigh ≤ 2 * blocks
  inner : msecSpeechOuter ≤ state.1.msecSpeechInnerChange
  outer : msecSpeechOuter ≤ state.1.msecSpeechOuterChange
  maxLevel : state.1.maxLevel = first.maxLevel
  minOutput : state.1.minOutput = first.minOutput
  noGuard :
    ¬(0 < state.1.muteGuardMs ∧ state.1.muteGuardMs < muteGuardTimeMs)

namespace AfterSaturation

variable {first stt : LegacyAgc}
variable {blocks level lastMicVol : Int}

/-- The energy has not been too high for long enough to lower the level again. -/
theorem notLong
    {threshold : Int}
    (few : blocks < 5)
    (long : msecSpeechOuter ≤ threshold)
    (held : AfterSaturation first blocks (stt, level)) :
    ¬threshold < stt.tooHigh.msTooHigh := by
  have recent : stt.msTooHigh ≤ 2 * blocks := held.recent
  show ¬threshold < stt.msTooHigh + 2
  unfold msecSpeechOuter at long
  omega

theorem tooHigh
    (held : AfterSaturation first blocks (stt, level)) :
    AfterSaturation first (blocks + 1) (stt.tooHigh, level) := by
  obtain ⟨same, recent, inner, outer, maxLevel, minOutput, noGuard⟩ := held
  refine ⟨same, ?_, inner, outer, maxLevel, minOutput, noGuard⟩
  show stt.msTooHigh + 2 ≤ 2 * (blocks + 1)
  have earlier : stt.msTooHigh ≤ 2 * blocks := recent
  omega

theorem tooLow
    (some : 0 ≤ blocks)
    (held : AfterSaturation first blocks (stt, level)) :
    AfterSaturation first (blocks + 1) (stt.tooLow, level) := by
  obtain ⟨same, -, inner, outer, maxLevel, minOutput, noGuard⟩ := held
  refine ⟨same, ?_, inner, outer, maxLevel, minOutput, noGuard⟩
  show 0 ≤ 2 * (blocks + 1)
  omega

theorem raise
    (curves : Curves)
    (step : Int)
    (held : AfterSaturation first blocks (stt, level)) :
    AfterSaturation first blocks (stt.raise curves level lastMicVol step) :=
  ⟨rfl, held.recent, held.inner, held.outer, held.maxLevel, held.minOutput,
    held.noGuard⟩

theorem lt_raise
    (stt : LegacyAgc)
    (curves : Curves)
    (level lastMicVol step : Int)
    (positive : 0 < step) :
    lastMicVol < (stt.raise curves level lastMicVol step).2 := by
  have atLeast :
      lastMicVol + step ≤ (stt.raise curves level lastMicVol step).2 :=
    Int.le_max_right _ _
  omega

theorem inRange
    (some : 0 ≤ blocks)
    (held : AfterSaturation first blocks (stt, level)) :
    AfterSaturation first (blocks + 1) (stt.inRange level, level) := by
  obtain ⟨-, -, inner, outer, maxLevel, minOutput, noGuard⟩ := held
  have reset : 0 ≤ 2 * (blocks + 1) := by omega
  unfold LegacyAgc.inRange
  split
  · refine ⟨rfl, reset, ?_, ?_, maxLevel, minOutput, noGuard⟩
    · exact show msecSpeechOuter ≤ 1000 by decide
    · exact show msecSpeechOuter ≤ 500 by decide
  · exact ⟨rfl, reset, inner, outer, maxLevel, minOutput, noGuard⟩

/-- The level is raised above the one before, or it stays. -/
theorem adapt
    (lastMicVol : Int)
    (some : 0 ≤ blocks)
    (few : blocks < 5)
    (held : AfterSaturation first blocks (stt, level)) :
    AfterSaturation first (blocks + 1) (stt.adapt level lastMicVol) ∧
      (stt.RaisesLevel → lastMicVol < (stt.adapt level lastMicVol).2) ∧
        (¬stt.RaisesLevel → (stt.adapt level lastMicVol).2 = level) := by
  unfold LegacyAgc.adapt LegacyAgc.RaisesLevel
  split
  next high =>
      dsimp only
      have short : ¬stt.tooHigh.msecSpeechOuterChange < stt.tooHigh.msTooHigh :=
        held.notLong few held.outer
      rw [if_neg short]
      exact ⟨held.tooHigh, fun raises => absurd high raises.1, fun _ => rfl⟩
  next notHigh =>
      split
      next high =>
          dsimp only
          have short :
              ¬stt.tooHigh.msecSpeechInnerChange < stt.tooHigh.msTooHigh :=
            held.notLong few held.inner
          rw [if_neg short]
          exact ⟨held.tooHigh, fun raises => absurd high raises.2.1,
            fun _ => rfl⟩
      next notUpper =>
          split
          next low =>
              dsimp only
              split
              next long =>
                  exact ⟨(held.tooLow some).raise curves1 2,
                    fun _ => lt_raise _ _ _ _ _ (by decide),
                    fun stays => absurd ⟨notHigh, notUpper, long⟩ stays⟩
              next short =>
                  exact ⟨held.tooLow some,
                    fun raises => absurd raises.2.2 short, fun _ => rfl⟩
          next notLow =>
              split
              next low =>
                  dsimp only
                  split
                  next long =>
                      exact ⟨(held.tooLow some).raise curves2 1,
                        fun _ => lt_raise _ _ _ _ _ (by decide),
                        fun stays =>
                          absurd ⟨notHigh, notUpper, low, long⟩ stays⟩
                  next short =>
                      exact ⟨held.tooLow some,
                        fun raises => absurd raises.2.2.2 short, fun _ => rfl⟩
              next notLower =>
                  exact ⟨held.inRange some,
                    fun raises => absurd raises.2.2.1 notLower, fun _ => rfl⟩

/-- So is it in a block. -/
theorem processBlock
    (vadLogRatio lastMicVol rxx16 : Int)
    {state : LegacyAgc × Int}
    (some : 0 ≤ blocks)
    (few : blocks < 5)
    (held : AfterSaturation first blocks state) :
    AfterSaturation first (blocks + 1)
        (LegacyAgc.processBlock vadLogRatio lastMicVol state rxx16) ∧
      (LegacyAgc.BlockRaises vadLogRatio state.1 rxx16 →
        lastMicVol <
          (LegacyAgc.processBlock vadLogRatio lastMicVol state rxx16).2) ∧
        (¬LegacyAgc.BlockRaises vadLogRatio state.1 rxx16 →
          (LegacyAgc.processBlock vadLogRatio lastMicVol state rxx16).2 =
            state.2) := by
  obtain ⟨stt, level⟩ := state
  have updated :
      AfterSaturation first blocks
        ((stt.updateEnergies rxx16).updateLongTerm, level) := by
    obtain ⟨same, recent, inner, outer, maxLevel, minOutput, noGuard⟩ := held
    unfold LegacyAgc.updateLongTerm
    split
    · exact ⟨same, recent, inner, outer, maxLevel, minOutput, noGuard⟩
    · split <;>
        exact ⟨same, recent, inner, outer, maxLevel, minOutput, noGuard⟩
  unfold LegacyAgc.processBlock LegacyAgc.BlockRaises
  dsimp only
  split
  next speech =>
      obtain ⟨next, raised, stayed⟩ :=
        updated.adapt lastMicVol some few
      exact ⟨next, fun raises => raised raises.2,
        fun stays => stayed fun raises => stays ⟨speech, raises⟩⟩
  next silent =>
      obtain ⟨same, recent, inner, outer, maxLevel, minOutput, noGuard⟩ := held
      refine ⟨⟨same, ?_, inner, outer, maxLevel, minOutput, noGuard⟩,
        fun raises => absurd raises.1 silent, fun _ => rfl⟩
      show stt.msTooHigh ≤ 2 * (blocks + 1)
      have earlier : stt.msTooHigh ≤ 2 * blocks := recent
      omega

/-- A level that has been raised stays above the one before. -/
theorem lt_processBlock
    (vadLogRatio rxx16 : Int)
    {state : LegacyAgc × Int}
    (some : 0 ≤ blocks)
    (few : blocks < 5)
    (above : lastMicVol < state.2)
    (held : AfterSaturation first blocks state) :
    lastMicVol <
      (LegacyAgc.processBlock vadLogRatio lastMicVol state rxx16).2 := by
  obtain ⟨-, raised, stayed⟩ :=
    held.processBlock vadLogRatio lastMicVol rxx16 some few
  by_cases raises : LegacyAgc.BlockRaises vadLogRatio state.1 rxx16
  · exact raised raises
  · rw [stayed raises]
    exact above

/-- Over the blocks of a frame the level is raised above the one before, or it stays. -/
theorem foldl_processBlock
    (vadLogRatio lastMicVol : Int)
    (energies : List Int)
    {state : LegacyAgc × Int}
    (some : 0 ≤ blocks)
    (few : blocks + energies.length ≤ 5)
    (held : AfterSaturation first blocks state) :
    AfterSaturation first (blocks + energies.length)
        (energies.foldl (LegacyAgc.processBlock vadLogRatio lastMicVol)
          state) ∧
      (LegacyAgc.BlocksRaise vadLogRatio lastMicVol state energies ∨
          lastMicVol < state.2 →
        lastMicVol <
          (energies.foldl (LegacyAgc.processBlock vadLogRatio lastMicVol)
            state).2) ∧
        (¬LegacyAgc.BlocksRaise vadLogRatio lastMicVol state energies →
          (energies.foldl (LegacyAgc.processBlock vadLogRatio lastMicVol)
            state).2 = state.2) := by
  induction energies generalizing blocks state with
  | nil =>
      refine ⟨by simpa using held, ?_, fun _ => rfl⟩
      rintro (⟨⟨⟩⟩ | above)
      exact above
  | cons rxx16 rest inductionHypothesis =>
      rw [List.length_cons] at few ⊢
      obtain ⟨next, raised, stayed⟩ :=
        held.processBlock vadLogRatio lastMicVol rxx16 some (by omega)
      obtain ⟨last, laterRaised, laterStayed⟩ :=
        inductionHypothesis (by omega) (by omega) next
      rw [List.foldl_cons]
      refine ⟨?_, ?_, ?_⟩
      · rw [show blocks + ((rest.length + 1 : Nat) : Int) =
          blocks + 1 + rest.length from by omega]
        exact last
      · rintro ((raises | raises) | above)
        · exact laterRaised (Or.inr (raised raises))
        · exact laterRaised (Or.inl raises)
        · exact laterRaised
            (Or.inr
              (held.lt_processBlock vadLogRatio rxx16 some (by omega) above))
      · intro stays
        obtain ⟨here, later⟩ := not_or.mp stays
        exact (laterStayed later).trans (stayed here)

/-- What the last limits make of the level. -/
theorem limitLevel
    (echo : Int)
    {state : LegacyAgc × Int}
    (largest : lastMicVol ≤ first.maxLevel)
    (held : AfterSaturation first blocks state) :
    ((state.1.limitLevel echo lastMicVol).micVol < lastMicVol ∨
          (state.1.limitLevel echo lastMicVol).micVol = first.minOutput) ∧
        (state.1.limitLevel echo lastMicVol).micVol ≤ lastMicVol ↔
      first.minOutput ≤ lastMicVol ∧
        (state.2 < lastMicVol ∨
          lastMicVol = first.minOutput ∧
            (lastMicVol < state.2 →
              echo = 1 ∨ first.maxLevel = lastMicVol)) := by
  obtain ⟨stt, level⟩ := state
  obtain ⟨same, -, -, -, maxLevel, minOutput, noGuard⟩ := held
  dsimp only at same maxLevel minOutput noGuard ⊢
  have guarded :
      stt.guardedVolume echo lastMicVol =
        if echo = 1 then min level lastMicVol else level := by
    unfold LegacyAgc.guardedVolume
    rw [same]
    simp only [noGuard, or_false]
  unfold LegacyAgc.limitLevel
  dsimp only
  rw [guarded, maxLevel, minOutput]
  by_cases isEcho : echo = 1
  · rw [if_pos isEcho]
    simp only [isEcho, true_or, implies_true, and_true]
    split
    · omega
    · split <;> omega
  · rw [if_neg isEcho]
    simp only [isEcho, false_or]
    split
    · omega
    · split <;> omega

end AfterSaturation

namespace LegacyAgc

variable {stt : LegacyAgc}

/-! ## Before the blocks -/

/-- A frame starts from a level that is the volume, and at most the largest one. -/
theorem entry_level (stt : LegacyAgc) (inMicLevel : Int) :
    (stt.entry inMicLevel).1.micVol = (stt.entry inMicLevel).2 ∧
      (stt.entry inMicLevel).2 ≤ (stt.entry inMicLevel).1.maxLevel := by
  unfold entry startLevel
  generalize stt.firstLevel (inMicLevel * 2 ^ stt.scale) = first
  obtain ⟨first, level⟩ := first
  dsimp only
  generalize first.raiseManual (first.previousLevel level) = raised
  obtain ⟨raised, level⟩ := raised
  have followed :
      (raised.followLevel inMicLevel level).1.micVol =
        (raised.followLevel inMicLevel level).2 := by
    unfold followLevel
    split
    next same =>
        exact same.symm
    next =>
        split <;> rfl
  dsimp only
  generalize raised.followLevel inMicLevel level = last at followed ⊢
  exact ⟨followed, Int.le_max_right _ _⟩

theorem minOutput_firstLevel (stt : LegacyAgc) (level : Int) :
    (stt.firstLevel level).1.minOutput = stt.minOutput := by
  unfold firstLevel
  split <;> rfl

theorem minOutput_raiseManual (stt : LegacyAgc) (level : Int) :
    (stt.raiseManual level).1.minOutput = stt.minOutput := by
  unfold raiseManual
  split <;> rfl

theorem minOutput_followLevel (stt : LegacyAgc) (inMicLevel level : Int) :
    (stt.followLevel inMicLevel level).1.minOutput = stt.minOutput := by
  unfold followLevel
  split
  · rfl
  · split <;> rfl

/-- The adjustment does not change where the level is clipped. -/
theorem minOutput_entry (stt : LegacyAgc) (inMicLevel : Int) :
    (stt.entry inMicLevel).1.minOutput = stt.minOutput :=
  calc
    _ = ((stt.firstLevel (inMicLevel * 2 ^ stt.scale)).1.raiseManual
          ((stt.firstLevel (inMicLevel * 2 ^ stt.scale)).1.previousLevel
            (stt.firstLevel
              (inMicLevel * 2 ^ stt.scale)).2)).1.minOutput :=
      minOutput_followLevel ..
    _ = (stt.firstLevel (inMicLevel * 2 ^ stt.scale)).1.minOutput :=
      minOutput_raiseManual ..
    _ = stt.minOutput := minOutput_firstLevel ..

/-- `WebRtcAgc_ZeroCtrl` after the level was lowered. -/
theorem zeroCtrl_afterSaturation
    {first : LegacyAgc}
    {level : Int}
    (env : List Int)
    (noMute : stt.muteGuardMs = 0)
    (held : AfterSaturation first 0 (stt, level)) :
    AfterSaturation first 0 (stt.zeroCtrl level env) ∧
      (stt.zeroCtrl level env).2 =
        if int32 (env.take 10).sum < 500 ∧
            500 < stt.msZero + 10 ∧
              level < Int.tdiv (stt.maxAnalog + stt.minLevel + 1) 2 then
          min (int32 (1126 * level) >>> (10 : Nat)) stt.zeroCtrlMax
        else level := by
  obtain ⟨same, recent, inner, outer, maxLevel, minOutput, -⟩ := held
  have silent :
      500 < (stt.countSilence env).msZero ↔
        int32 (env.take 10).sum < 500 ∧ 500 < stt.msZero + 10 := by
    unfold countSilence
    dsimp only
    split
    next quiet =>
        exact (and_iff_right quiet).symm
    next loud =>
        exact iff_of_false (by decide) fun quiet => loud quiet.1
  unfold zeroCtrl
  dsimp only
  split
  next long =>
      obtain ⟨quiet, counted⟩ := silent.mp long
      unfold raiseSilent
      dsimp only
      split
      next below =>
          refine ⟨⟨rfl, recent, inner, outer, maxLevel, minOutput, ?_⟩, ?_⟩
          · exact show
              ¬(0 < muteGuardTimeMs ∧ muteGuardTimeMs < muteGuardTimeMs) by
              decide
          · exact (if_pos ⟨quiet, counted, below⟩).symm
      next above =>
          refine ⟨⟨same, recent, inner, outer, maxLevel, minOutput, ?_⟩, ?_⟩
          · exact show
              ¬(0 < muteGuardTimeMs ∧ muteGuardTimeMs < muteGuardTimeMs) by
              decide
          · exact (if_neg fun raises => above raises.2.2).symm
  next short =>
      refine ⟨⟨same, recent, inner, outer, maxLevel, minOutput, ?_⟩, ?_⟩
      · unfold countSilence
        dsimp only
        rw [noMute]
        decide
      · exact
          (if_neg fun raises =>
            short (silent.mpr ⟨raises.1, raises.2.1⟩)).symm

/-- `WebRtcAgc_SpeakerInactiveCtrl` changes a threshold. -/
theorem speakerInactiveCtrl_afterSaturation
    {first : LegacyAgc}
    {state : LegacyAgc × Int}
    (held : AfterSaturation first 0 state) :
    AfterSaturation first 0 (state.1.speakerInactiveCtrl, state.2) := by
  obtain ⟨same, recent, inner, outer, maxLevel, minOutput, noGuard⟩ := held
  unfold speakerInactiveCtrl
  split <;>
    exact ⟨same, recent, inner, outer, maxLevel, minOutput, noGuard⟩

/-- The level that a saturated signal is lowered to. -/
theorem lowerSaturated_afterSaturation
    (first : LegacyAgc)
    (envSum level lastMicVol : Int) :
    AfterSaturation first 0
      (({ first with envSum }.lowerSaturated level lastMicVol).1,
        ({ first with envSum }.lowerSaturated level lastMicVol).2.1) :=
  ⟨rfl, show (-100 : Int) ≤ 2 * 0 by decide,
    show msecSpeechOuter ≤ msecSpeechInner by decide, Int.le_refl _, rfl, rfl,
    show ¬((0 : Int) < 0 ∧ (0 : Int) < muteGuardTimeMs) by decide⟩

/-- The level is restored where `WebRtcAgc_ZeroCtrl` raises it far enough. -/
theorem restoresLevel_iff
    {level value : Int}
    (isLevel :
      value =
        if int32 (stt.env.1.take 10).sum < 500 ∧
            500 < stt.msZero + 10 ∧
              stt.loweredLevel 29591 level stt.micVol 2 <
                Int.tdiv (stt.maxAnalog + stt.minLevel + 1) 2 then
          min
            (int32 (1126 * stt.loweredLevel 29591 level stt.micVol 2) >>>
              (10 : Nat))
            stt.micVol
        else stt.loweredLevel 29591 level stt.micVol 2) :
    value ≤ stt.micVol ∧
      (value = stt.micVol ↔ stt.RestoresLevel level) := by
  have below : stt.loweredLevel 29591 level stt.micVol 2 ≤ stt.micVol - 2 :=
    loweredLevel_le ..
  rw [isLevel]
  split
  next raises =>
      refine ⟨Int.min_le_right _ _, ?_⟩
      constructor
      · intro reached
        exact ⟨raises.1, raises.2.1, raises.2.2,
          Int.le_trans (Int.le_of_eq reached.symm) (Int.min_le_left _ _)⟩
      · intro restores
        exact Int.min_eq_right restores.2.2.2
  next stays =>
      refine ⟨by omega, iff_of_false (by omega) fun restores => ?_⟩
      exact stays ⟨restores.1, restores.2.1, restores.2.2.1⟩

/-- A saturated signal is lowered; the time without one may restore the level. -/
theorem protect_saturated
    {first : LegacyAgc}
    (level : Int)
    (saturated : (first.saturationCtrl first.env.1).2 = true) :
    AfterSaturation first 0
        ((first.protect level first.micVol).1,
          (first.protect level first.micVol).2.1) ∧
      (first.protect level first.micVol).2.1 ≤ first.micVol ∧
        ((first.protect level first.micVol).2.1 = first.micVol ↔
          first.RestoresLevel level) := by
  have controlled :=
    zeroCtrl_afterSaturation first.env.1 rfl
      (lowerSaturated_afterSaturation first
        (decayed first.envSum first.env.1) level first.micVol)
  rw [saturationCtrl_eq] at saturated
  unfold protect
  rw [saturationCtrl_eq]
  dsimp only at saturated ⊢
  rw [if_pos saturated]
  obtain ⟨held, restored⟩ := controlled
  refine ⟨speakerInactiveCtrl_afterSaturation held, ?_⟩
  have isLowered :
      (({ first with envSum := decayed first.envSum first.env.1 } :
          LegacyAgc).lowerSaturated level first.micVol).2.1 =
        first.loweredLevel 29591 level first.micVol 2 :=
    rfl
  have largest :
      (({ first with envSum := decayed first.envSum first.env.1 } :
          LegacyAgc).lowerSaturated level
            first.micVol).1.zeroCtrlMax = first.micVol :=
    rfl
  rw [isLowered, largest] at restored
  exact restoresLevel_iff restored

/-! ## Whole frames -/

/-- The frame ends with a lower level, or with one clipped at `minOutput`, and never
with a higher one. -/
def LowersLevel
    (stt : LegacyAgc)
    (inMicLevel vadLogRatio echo : Int) : Prop :=
  let lastMicVol := (stt.entry inMicLevel).1.micVol
  let micVol := (stt.processAnalog inMicLevel vadLogRatio echo).1.micVol
  (micVol < lastMicVol ∨ micVol = stt.minOutput) ∧ micVol ≤ lastMicVol

/-- A block of the frame raises the level that was lowered. -/
def RaisesSaturated
    (stt : LegacyAgc)
    (inMicLevel vadLogRatio : Int) : Prop :=
  let first := (stt.entry inMicLevel).1
  let lowered := first.protect (stt.entry inMicLevel).2 first.micVol
  BlocksRaise vadLogRatio first.micVol (lowered.1, lowered.2.1)
    (lowered.1.rxx16Array.1.take 5)

/--
The level is not below `minOutput` before, and nothing raises it again; or it cannot
be lowered, because it is at `minOutput`, and nothing raises it above.
-/
def KeepsLowered
    (stt : LegacyAgc)
    (inMicLevel vadLogRatio echo : Int) : Prop :=
  let first := (stt.entry inMicLevel).1
  stt.minOutput ≤ first.micVol ∧
    (¬stt.RaisesSaturated inMicLevel vadLogRatio ∧
        ¬first.RestoresLevel (stt.entry inMicLevel).2 ∨
      first.micVol = stt.minOutput ∧
        (stt.RaisesSaturated inMicLevel vadLogRatio →
          echo = 1 ∨ first.maxLevel = first.micVol))

instance
    (stt : LegacyAgc)
    (inMicLevel vadLogRatio echo : Int) :
    Decidable (stt.KeepsLowered inMicLevel vadLogRatio echo) := by
  unfold KeepsLowered RaisesSaturated RestoresLevel
  infer_instance

instance
    (stt : LegacyAgc)
    (inMicLevel vadLogRatio echo : Int) :
    Decidable (stt.LowersLevel inMicLevel vadLogRatio echo) :=
  inferInstanceAs (Decidable ((_ ∨ _) ∧ _))

/-- The saturation of a frame does not depend on the adjustment of its level. -/
theorem saturated_entry
    (inMicLevel : Int)
    (saturated : (stt.saturationCtrl stt.env.1).2 = true) :
    ((stt.entry inMicLevel).1.saturationCtrl
      (stt.entry inMicLevel).1.env.1).2 = true := by
  have measured := measures_startLevel stt inMicLevel
    (inMicLevel * 2 ^ stt.scale)
  have sameSum : (stt.entry inMicLevel).1.envSum = stt.envSum :=
    congrArg Measures.envSum measured
  have sameEnv : (stt.entry inMicLevel).1.env = stt.env :=
    congrArg Measures.env measured
  rw [saturationCtrl_eq] at saturated ⊢
  rw [sameSum, sameEnv]
  exact saturated

end LegacyAgc

/-- 10 ms at 8 kHz with one peak in each of the ten subframes. -/
def peakSamples (amplitude : Int) : List Int :=
  (List.range 80).map fun i => if i % 8 = 0 then amplitude else 0

/-- A frame of peaks, with a level from the device. -/
def peaksFrame (inMicLevel : Int) : List Call :=
  [.addMic [peakSamples (-32768)] 80, .process 80 inMicLevel 0]

/-- A new instance after two frames of peaks and the microphone part of a third. -/
def thirdPeaks : LegacyAgc :=
  ((peaksFrame 128 ++ peaksFrame 128 ++
      [Call.addMic [peakSamples (-32768)] 80]).foldlM
    LegacyAgc.perform
    (LegacyAgc.blank.init 0 255 modeAdaptiveAnalog 8000).1).getD
      LegacyAgc.blank

end ApmSdk.Agc
