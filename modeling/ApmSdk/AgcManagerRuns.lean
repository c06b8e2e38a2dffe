import ApmSdk.AgcManagerDirect
import ApmSdk.Readiness

namespace ApmSdk.AgcManager

/-!
# Runs of the experimental gain control

Whatever the application and the module call, and in whatever order, the levels and gains
of the manager stay where the tables and the compressor take them.
-/

open AudioProcessing BinaryRounding LoudnessHistogram Histogram

/-! ## The gain map -/

theorem gainAt_inside
    {level : Int}
    (inside : 0 ≤ level ∧ level ≤ kMaxMicLevel) :
    ∃ gain, gainAt level = some gain := by
  have place : level.toNat < kGainMap.length := by
    have size : kGainMap.length = 256 := by decide +kernel
    unfold kMaxMicLevel at inside
    omega
  unfold gainAt
  rw [if_pos inside.1, List.getElem?_eq_getElem place]
  exact ⟨_, rfl⟩

/-- The gain at a level is too small. -/
def FallsShort (gain gainError level : Int) : Prop :=
  ∃ found, gainAt level = some found ∧ found - gain < gainError

/-- The gain at a level is too large. -/
def Exceeds (gain gainError level : Int) : Prop :=
  ∃ found, gainAt level = some found ∧ gainError < found - gain

section Levels

variable {gain gainError level : Int}

/-- The loop stops at the first level with enough gain, or at the highest. -/
theorem raiseLevel_spec
    (gain gainError : Int)
    {left : Nat}
    (lower : 0 ≤ level)
    (upper : level + left = kMaxMicLevel) :
    ∃ raised,
      raiseLevel gain gainError left level = some raised ∧
        level ≤ raised ∧ raised ≤ kMaxMicLevel ∧
          (∀ between, level ≤ between → between < raised →
            FallsShort gain gainError between) ∧
            (raised = kMaxMicLevel ∨ ¬FallsShort gain gainError raised) := by
  induction left generalizing level with
  | zero =>
      obtain ⟨found, here⟩ := gainAt_inside (show 0 ≤ level ∧ level ≤ kMaxMicLevel by omega)
      refine ⟨level, ?_, le_rfl, by omega, fun between above below => ?_,
        .inl (by omega)⟩
      · rw [raiseLevel, here]
        rfl
      · omega
  | succ left inductionHypothesis =>
      obtain ⟨found, here⟩ := gainAt_inside (show 0 ≤ level ∧ level ≤ kMaxMicLevel by omega)
      rw [raiseLevel, here, Option.bind_eq_bind, Option.bind_some]
      split
      next short =>
          obtain ⟨raised, ran, above, below, shortBetween, enough⟩ :=
            inductionHypothesis (show 0 ≤ level + 1 by omega) (by omega)
          refine ⟨raised, ran, by omega, below, fun between start stop => ?_, enough⟩
          rcases start.eq_or_lt with rfl | later
          · exact ⟨found, here, short⟩
          · exact shortBetween between (by omega) stop
      next enough =>
          refine ⟨level, rfl, le_rfl, by omega, fun between above below => ?_, .inr ?_⟩
          · omega
          · rintro ⟨other, same, short⟩
            obtain rfl := Option.some.inj (here.symm.trans same)
            exact enough short

/-- The loop stops at the first level with little enough gain, or at the lowest. -/
theorem lowerLevel_spec
    (gain gainError : Int)
    {left : Nat}
    (lower : level = min level kMinMicLevel + left)
    (nonneg : 0 ≤ level)
    (upper : level ≤ kMaxMicLevel) :
    ∃ lowered,
      lowerLevel gain gainError left level = some lowered ∧
        min level kMinMicLevel ≤ lowered ∧ lowered ≤ level ∧
          (∀ between, lowered < between → between ≤ level →
            Exceeds gain gainError between) ∧
            (lowered = min level kMinMicLevel ∨ ¬Exceeds gain gainError lowered) := by
  induction left generalizing level with
  | zero =>
      obtain ⟨found, here⟩ := gainAt_inside (show 0 ≤ level ∧ level ≤ kMaxMicLevel by omega)
      refine ⟨level, ?_, by omega, le_rfl, fun between above below => ?_,
        .inl (by omega)⟩
      · rw [lowerLevel, here]
        rfl
      · omega
  | succ left inductionHypothesis =>
      obtain ⟨found, here⟩ := gainAt_inside (show 0 ≤ level ∧ level ≤ kMaxMicLevel by omega)
      unfold kMinMicLevel at *
      rw [lowerLevel, here, Option.bind_eq_bind, Option.bind_some]
      split
      next large =>
          obtain ⟨lowered, ran, above, below, largeBetween, enough⟩ :=
            inductionHypothesis
              (show level - 1 = min (level - 1) kMinMicLevel + left by unfold kMinMicLevel; omega)
              (by omega) (by omega)
          refine ⟨lowered, ran, by omega, by omega, fun between start stop => ?_, ?_⟩
          · rcases stop.eq_or_lt with rfl | later
            · exact ⟨found, here, large⟩
            · exact largeBetween between start (by omega)
          · exact enough.imp (fun lowest => by omega) id
      next enough =>
          refine ⟨level, rfl, by omega, le_rfl, fun between above below => ?_, .inr ?_⟩
          · omega
          · rintro ⟨other, same, large⟩
            obtain rfl := Option.some.inj (here.symm.trans same)
            exact enough large

/-- Every level that an error asks for is one of the map, and never one below the least
that the manager lowers to. -/
theorem levelFromGainError_spec
    (gainError : Int)
    (inside : 0 ≤ level ∧ level ≤ kMaxMicLevel) :
    ∃ newLevel,
      levelFromGainError gainError level = some newLevel ∧
        min level kMinMicLevel ≤ newLevel ∧ newLevel ≤ kMaxMicLevel ∧
          (0 ≤ gainError → level ≤ newLevel) ∧
            (gainError ≤ 0 → newLevel ≤ level) := by
  unfold levelFromGainError
  split
  next none =>
      exact ⟨level, rfl, by omega, inside.2, fun _ => le_rfl, fun _ => le_rfl⟩
  next some =>
      obtain ⟨found, here⟩ := gainAt_inside inside
      rw [here, Option.bind_eq_bind, Option.bind_some]
      split
      next positive =>
          obtain ⟨raised, ran, above, below, -, -⟩ :=
            raiseLevel_spec found gainError inside.1
              (show level + (kMaxMicLevel - level).toNat = kMaxMicLevel by omega)
          exact ⟨raised, ran, by omega, below, fun _ => above, fun _ => by omega⟩
      next negative =>
          obtain ⟨lowered, ran, above, below, -, -⟩ :=
            lowerLevel_spec found gainError
              (show level = min level kMinMicLevel + (level - kMinMicLevel).toNat by omega)
              inside.1 inside.2
          exact ⟨lowered, ran, above, by omega, fun _ => by omega, fun _ => below⟩

/-- The map goes up by no more than two decibels from a level to the next. -/
theorem kGainMap_steps :
    ∀ place ∈ List.range 255,
      ∃ gain ∈ kGainMap[place]?, ∃ next ∈ kGainMap[place + 1]?,
        gain ≤ next ∧ next ≤ gain + 2 := by
  have steps :
      ∀ place ∈ List.range 255,
        kGainMap.getD place 0 ≤ kGainMap.getD (place + 1) 0 ∧
          kGainMap.getD (place + 1) 0 ≤ kGainMap.getD place 0 + 2 := by
    decide +kernel
  have size : kGainMap.length = 256 := by decide +kernel
  intro place member
  have step := steps place member
  rw [List.mem_range] at member
  have here : place < kGainMap.length := by omega
  have there : place + 1 < kGainMap.length := by omega
  rw [List.getD_eq_getElem?_getD, List.getD_eq_getElem?_getD, List.getElem?_eq_getElem here,
    List.getElem?_eq_getElem there, Option.getD_some, Option.getD_some] at step
  exact ⟨_, List.getElem?_eq_getElem here, _, List.getElem?_eq_getElem there, step⟩

theorem gainAt_step
    {found next : Int}
    (lower : 0 ≤ level)
    (upper : level < kMaxMicLevel)
    (here : gainAt level = some found)
    (there : gainAt (level + 1) = some next) :
    found ≤ next ∧ next ≤ found + 2 := by
  unfold kMaxMicLevel at upper
  obtain ⟨first, isFirst, second, isSecond, step⟩ :=
    kGainMap_steps level.toNat (List.mem_range.mpr (by omega))
  unfold gainAt at here there
  rw [if_pos lower] at here
  rw [if_pos (by omega), Int.toNat_add lower zero_le_one] at there
  obtain rfl := Option.some.inj (isFirst.symm.trans here)
  obtain rfl := Option.some.inj (isSecond.symm.trans there)
  exact step

/--
The level for a gain that is too low is the lowest one that makes up for it, to within a
decibel, unless even the highest does not; every level below it falls short.
-/
theorem levelFromGainError_raises
    {found : Int}
    (inside : 0 ≤ level ∧ level ≤ kMaxMicLevel)
    (here : gainAt level = some found)
    (tooLow : 0 < gainError) :
    ∃ newLevel newGain,
      levelFromGainError gainError level = some newLevel ∧
        gainAt newLevel = some newGain ∧
          (∀ between, level ≤ between → between < newLevel →
            FallsShort found gainError between) ∧
            newGain - found ≤ gainError + 1 ∧
              (newLevel = kMaxMicLevel ∨ gainError ≤ newGain - found) := by
  obtain ⟨newLevel, ran, above, below, shortBetween, enough⟩ :=
    raiseLevel_spec found gainError inside.1
      (show level + (kMaxMicLevel - level).toNat = kMaxMicLevel by omega)
  obtain ⟨newGain, there⟩ := gainAt_inside ⟨inside.1.trans above, below⟩
  refine ⟨newLevel, newGain, ?_, there, shortBetween, ?_, enough.imp id fun reaches => ?_⟩
  · unfold levelFromGainError
    rw [if_neg tooLow.ne', here, Option.bind_eq_bind, Option.bind_some, if_pos tooLow]
    exact ran
  · rcases above.eq_or_lt with rfl | higher
    · obtain rfl := Option.some.inj (here.symm.trans there)
      omega
    · obtain ⟨before, isBefore, short⟩ := shortBetween (newLevel - 1) (by omega) (by omega)
      have step :=
        gainAt_step (by omega) (by omega) isBefore
          (by rwa [sub_add_cancel])
      omega
  · by_contra short
    exact reaches ⟨newGain, there, by omega⟩

/-- From the level a hundred, sixteen levels up make up for five decibels. -/
theorem levelFromGainError_raises_five :
    ∃ newLevel newGain,
      levelFromGainError 5 100 = some newLevel ∧
        gainAt newLevel = some newGain ∧
          (∀ between, 100 ≤ between → between < newLevel → FallsShort 23 5 between) ∧
            newGain - 23 ≤ 5 + 1 ∧ (newLevel = kMaxMicLevel ∨ 5 ≤ newGain - 23) :=
  levelFromGainError_raises (by decide) (by decide) (by decide)

end Levels

/-! ## The range of the manager -/

/-- The part of the manager's state that steers the microphone and the target. -/
structure AgcManagerDirect.InRange (manager : AgcManagerDirect) : Prop where
  level : 0 ≤ manager.level ∧ manager.level ≤ kMaxMicLevel
  maxLevel : kClippedLevelMin ≤ manager.maxLevel ∧ manager.maxLevel ≤ kMaxMicLevel
  maxCompressionGain :
    kMaxCompressionGain ≤ manager.maxCompressionGain ∧
      manager.maxCompressionGain ≤ kMaxCompressionGain + kSurplusCompressionGain
  targetCompression :
    kMinCompressionGain ≤ manager.targetCompression ∧
      manager.targetCompression ≤ kMaxCompressionGain + kSurplusCompressionGain
  startupMinLevel :
    kMinMicLevel ≤ manager.startupMinLevel ∧ manager.startupMinLevel ≤ kMaxMicLevel
  framesSinceClipped :
    0 ≤ manager.framesSinceClipped ∧ manager.framesSinceClipped ≤ kClippedWaitFrames

/-- The surplus gains for the levels that can be the highest. -/
theorem surplus_table :
    ∀ restricted ∈ List.range 86,
      ⌊single (single (single (single (restricted : ℤ) / 85) * 6) + 1 / 2)⌋ =
        (12 * (restricted : ℤ) + 85) / 170 := by
  decide +kernel

/-- The surplus gain is the restriction of the level in proportion, rounded. -/
theorem maxCompressionGain_setMaxLevel
    (manager : AgcManagerDirect)
    {level : Int}
    (inside : kClippedLevelMin ≤ level ∧ level ≤ kMaxMicLevel) :
    (manager.setMaxLevel level).maxCompressionGain =
      kMaxCompressionGain + (12 * (255 - level) + 85) / 170 := by
  unfold kClippedLevelMin kMaxMicLevel at inside
  have entry :=
    surplus_table (255 - level).toNat (List.mem_range.mpr (by omega))
  rw [Int.toNat_of_nonneg (by omega)] at entry
  push_cast at entry
  unfold AgcManagerDirect.setMaxLevel
  dsimp only
  rw [entry]

namespace AgcManagerDirect.InRange

variable {manager : AgcManagerDirect}

theorem setMaxLevel
    {level : Int}
    (inRange : manager.InRange)
    (inside : kClippedLevelMin ≤ level ∧ level ≤ kMaxMicLevel) :
    (manager.setMaxLevel level).InRange where
  level := inRange.level
  maxLevel := inside
  maxCompressionGain := by
    rw [maxCompressionGain_setMaxLevel manager inside]
    unfold kClippedLevelMin kMaxMicLevel at inside
    unfold kMaxCompressionGain kSurplusCompressionGain
    omega
  targetCompression := inRange.targetCompression
  startupMinLevel := inRange.startupMinLevel
  framesSinceClipped := inRange.framesSinceClipped

theorem withLevel
    {level : Int}
    (inRange : manager.InRange)
    (inside : 0 ≤ level ∧ level ≤ kMaxMicLevel) :
    { manager with level }.InRange :=
  { inRange with level := inside }

theorem withTarget
    {targetCompression : Int}
    (inRange : manager.InRange)
    (inside :
      kMinCompressionGain ≤ targetCompression ∧
        targetCompression ≤ kMaxCompressionGain + kSurplusCompressionGain) :
    { manager with targetCompression }.InRange :=
  { inRange with targetCompression := inside }

theorem setCaptureMuted
    (inRange : manager.InRange)
    (muted : Bool) :
    (manager.setCaptureMuted muted).InRange := by
  unfold AgcManagerDirect.setCaptureMuted
  split
  · exact inRange
  · split <;> exact { inRange with }

/-- The target moves within the range of the target before and the gain that is asked for. -/
theorem nextTarget
    {rawCompression : Int}
    (inRange : manager.InRange)
    (inside :
      kMinCompressionGain ≤ rawCompression ∧
        rawCompression ≤ kMaxCompressionGain + kSurplusCompressionGain) :
    kMinCompressionGain ≤ manager.nextTarget rawCompression ∧
      manager.nextTarget rawCompression ≤
        kMaxCompressionGain + kSurplusCompressionGain := by
  have before := inRange.targetCompression
  unfold AgcManagerDirect.nextTarget
  split
  · exact inside
  · have halved : ∀ difference : Int,
        difference.tdiv 2 = if 0 ≤ difference then difference / 2 else -(-difference / 2) := by
      intro difference
      split
      next nonneg =>
          exact Int.tdiv_eq_ediv_of_nonneg nonneg
      next negative =>
          rw [← Int.tdiv_eq_ediv_of_nonneg (by omega), Int.neg_tdiv, neg_neg]
    rw [halved]
    split <;> omega

end AgcManagerDirect.InRange

/-! ## One call -/

/-- A call other than the application's own change of the level. -/
def AgcCall.NotSetByUser : AgcCall → Prop
  | .setStreamAnalogLevel _ => False
  | _ => True

namespace AgcSession

variable {cores : Cores}
variable {session : AgcSession cores}

/-- What has to be so for every call to be well defined and to keep it so. -/
structure Sound (session : AgcSession cores) : Prop where
  manager : session.manager.InRange
  compressor :
    ∃ count : Twentieths,
      count.InRange ∧ Represents session.manager.toCompressor count
  histogram :
    ∃ entries, Tracks session.agc.histogram kNumAnalysisFrames entries

/-- The volume is left alone, or one that the manager may set. -/
def VolumeAllowed (before after : AgcSession cores) : Prop :=
  after.volume = before.volume ∨
    1 ≤ after.volume ∧ after.volume ≤ kMaxMicLevel ∧
      (after.volume ≤ after.manager.maxLevel ∨
        after.volume = after.manager.startupMinLevel)

/-- What the steps of `Process` before the last leave alone. -/
structure Untouched (cores : Cores) where
  compressor : Compressor
  framesSinceClipped : Int
  captureMuted : Bool
  startupMinLevel : Int
  gainControl : GainControl cores
  formats : StreamFormats

/-- That part of a session. -/
def untouched (session : AgcSession cores) : Untouched cores where
  compressor := session.manager.toCompressor
  framesSinceClipped := session.manager.framesSinceClipped
  captureMuted := session.manager.captureMuted
  startupMinLevel := session.manager.startupMinLevel
  gainControl := session.gainControl
  formats := session.formats

/-- What a step of `Process` does to the levels. -/
structure Steers (before after : AgcSession cores) : Prop where
  sound : after.Sound
  volume : VolumeAllowed before after
  maxLevel : before.manager.maxLevel ≤ after.manager.maxLevel
  untouched : after.untouched = before.untouched

theorem Steers.trans
    {before middle after : AgcSession cores}
    (first : Steers before middle)
    (later : Steers middle after) : Steers before after where
  sound := later.sound
  volume := by
    have firstVolume := first.volume
    have laterVolume := later.volume
    have maxLevel := later.maxLevel
    have startupMinLevel :
        after.manager.startupMinLevel = middle.manager.startupMinLevel :=
      congrArg Untouched.startupMinLevel later.untouched
    unfold VolumeAllowed at *
    omega
  maxLevel := first.maxLevel.trans later.maxLevel
  untouched := later.untouched.trans first.untouched

theorem Steers.refl (sound : session.Sound) : Steers session session :=
  ⟨sound, .inl rfl, le_rfl, rfl⟩

theorem tracks_resetAgc
    (agc : Agc)
    (tracked : ∃ entries, Tracks agc.histogram kNumAnalysisFrames entries) :
    ∃ entries, Tracks agc.reset.histogram kNumAnalysisFrames entries := by
  obtain ⟨entries, tracks⟩ := tracked
  have size := tracks.lenCircularBuffer
  exact ⟨[], tracks_reset (by decide) size
    (tracks.shows.probabilityLength.trans size)
    (tracks.shows.binLength.trans size)⟩

/-- A new level keeps the session sound, and sets no volume that it may not. -/
theorem steers_setLevel
    {newLevel : Int}
    (sound : session.Sound)
    (inside : 0 ≤ newLevel ∧ newLevel ≤ kMaxMicLevel)
    (meaningful : newLevel = session.manager.level ∨ 1 ≤ newLevel) :
    Steers session (session.setLevel newLevel) := by
  have range := sound.manager
  unfold setLevel
  dsimp only
  split
  · exact .refl sound
  · split
    · exact .refl sound
    · split
      · exact .refl sound
      · split
        next adjusted =>
            have levelInside : 0 ≤ session.volume ∧ session.volume ≤ kMaxMicLevel := by
              omega
            have withVolume := range.withLevel levelInside
            by_cases raised : session.manager.maxLevel < session.volume
            · rw [if_pos raised]
              exact ⟨⟨withVolume.setMaxLevel
                  ⟨range.maxLevel.1.trans raised.le, levelInside.2⟩,
                sound.compressor, tracks_resetAgc _ sound.histogram⟩,
                .inl rfl, raised.le, rfl⟩
            · rw [if_neg raised]
              exact ⟨⟨withVolume, sound.compressor,
                tracks_resetAgc _ sound.histogram⟩, .inl rfl, le_rfl, rfl⟩
        next near =>
            split
            next same =>
                exact .refl sound
            next other =>
                have maxLevel := range.maxLevel
                unfold kClippedLevelMin at maxLevel
                have allowed :
                    1 ≤ min newLevel session.manager.maxLevel ∧
                      min newLevel session.manager.maxLevel ≤ kMaxMicLevel := by
                  omega
                exact ⟨⟨range.withLevel ⟨by omega, allowed.2⟩, sound.compressor,
                  sound.histogram⟩,
                  .inr ⟨allowed.1, allowed.2, .inl (min_le_right _ _)⟩, le_rfl, rfl⟩

/-- Checking the volume keeps the session sound, and sets no volume that it may not. -/
theorem steers_checkVolumeAndReset
    (sound : session.Sound) :
    Steers session session.checkVolumeAndReset := by
  have range := sound.manager
  have startupMinLevel := range.startupMinLevel
  have maxLevel := range.maxLevel
  unfold checkVolumeAndReset
  dsimp only
  split
  · exact .refl sound
  · split
    · exact .refl sound
    · split
      · exact .refl sound
      · have minLevel :
            ∃ minLevel,
              (if session.manager.startup then session.manager.startupMinLevel
                else kMinMicLevel) = minLevel ∧
              1 ≤ minLevel ∧ minLevel ≤ kMaxMicLevel ∧
              (minLevel ≤ session.manager.maxLevel ∨
                minLevel = session.manager.startupMinLevel) := by
          unfold kClippedLevelMin kMinMicLevel kMaxMicLevel at *
          split
          · exact ⟨_, rfl, by omega, by omega, .inr rfl⟩
          · exact ⟨_, rfl, by omega, by omega, .inl (by omega)⟩
        obtain ⟨minLevel, same, positive, upper, allowed⟩ := minLevel
        rw [same]
        refine ⟨⟨range.withLevel ⟨by omega, by omega⟩ |> fun withLevel =>
            { withLevel with }, sound.compressor, tracks_resetAgc _ sound.histogram⟩,
          ?_, le_rfl, rfl⟩
        unfold VolumeAllowed
        dsimp only
        omega

/-- The frames go into the histogram. -/
theorem process_agc
    {agc : Agc}
    (tracked : ∃ entries, Tracks agc.histogram kNumAnalysisFrames entries)
    (chunks : List Agc.Chunk) :
    ∃ next,
      agc.process chunks = some next ∧
        ∃ entries, Tracks next.histogram kNumAnalysisFrames entries := by
  have filled : ∀ (histogram : Histogram),
      (∃ entries, Tracks histogram kNumAnalysisFrames entries) →
      ∃ next,
        chunks.foldlM
            (fun histogram chunk =>
              histogram.update chunk.activityProbQ10 chunk.histIndex) histogram =
          some next ∧
        ∃ entries, Tracks next kNumAnalysisFrames entries := by
    induction chunks with
    | nil =>
        exact fun histogram tracked => ⟨histogram, rfl, tracked⟩
    | cons chunk rest inductionHypothesis =>
        rintro histogram ⟨entries, tracks⟩
        obtain ⟨updated, ran, updatedTracks⟩ :=
          tracks.update (by decide) ⟨chunk.activityProbQ10, chunk.histIndex⟩
        obtain ⟨next, restRan, nextTracks⟩ :=
          inductionHypothesis updated ⟨_, updatedTracks⟩
        refine ⟨next, ?_, nextTracks⟩
        rw [List.foldlM_cons, ran]
        exact restRan
  obtain ⟨next, ran, tracks⟩ := filled agc.histogram tracked
  refine ⟨⟨next⟩, ?_, tracks⟩
  unfold Agc.process
  rw [ran]
  rfl

/-- A gain update reads the map within its bounds and keeps the session sound. -/
theorem steers_updateGain
    (rmsErrorDb : Histogram → Int)
    (sound : session.Sound) :
    ∃ updated,
      updateGain rmsErrorDb session = some updated ∧ Steers session updated := by
  have answered :
      ∃ entries,
        Tracks (session.agc.getRmsErrorDb rmsErrorDb).1.histogram
          kNumAnalysisFrames entries := by
    unfold Agc.getRmsErrorDb
    split
    · exact sound.histogram
    · split
      · exact sound.histogram
      · exact tracks_resetAgc session.agc sound.histogram
  have range := sound.manager
  unfold updateGain
  dsimp only
  generalize (session.agc.getRmsErrorDb rmsErrorDb).1 = agc at answered ⊢
  generalize (session.agc.getRmsErrorDb rmsErrorDb).2 = received
  cases received with
  | none =>
      exact ⟨_, rfl, ⟨range, sound.compressor, answered⟩, .inl rfl, le_rfl, rfl⟩
  | some received =>
      have maxCompressionGain := range.maxCompressionGain
      dsimp only
      have rawInside :
          kMinCompressionGain ≤
              max (min (received + kMinCompressionGain)
                session.manager.maxCompressionGain) kMinCompressionGain ∧
            max (min (received + kMinCompressionGain)
                session.manager.maxCompressionGain) kMinCompressionGain ≤
              kMaxCompressionGain + kSurplusCompressionGain := by
        unfold kMinCompressionGain kMaxCompressionGain kSurplusCompressionGain at *
        omega
      generalize
        max (min (received + kMinCompressionGain)
          session.manager.maxCompressionGain) kMinCompressionGain = raw at rawInside ⊢
      have targeted := range.withTarget (range.nextTarget rawInside)
      generalize
        min (max (received + kMinCompressionGain - raw) (-kMaxResidualGainChange))
          kMaxResidualGainChange = residual
      split
      · exact ⟨_, rfl, ⟨targeted, sound.compressor, answered⟩, .inl rfl, le_rfl, rfl⟩
      · obtain ⟨newLevel, found, lower, upper, raised, lowered⟩ :=
          levelFromGainError_spec residual range.level
        have level := range.level
        unfold kMinMicLevel at lower
        rw [found, Option.bind_eq_bind, Option.bind_some]
        have targetedSound :
            Sound
              { session with
                agc
                manager :=
                  { session.manager with
                    targetCompression := session.manager.nextTarget raw } } :=
          ⟨targeted, sound.compressor, answered⟩
        have steered :=
          steers_setLevel targetedSound ⟨show 0 ≤ newLevel by omega, upper⟩
            (by
              dsimp only
              omega)
        exact ⟨_, rfl, steered.sound, steered.volume, steered.maxLevel,
          steered.untouched⟩

/-- A compressor update keeps the session sound. -/
theorem sound_updateCompressor
    (sound : session.Sound) : session.updateCompressor.Sound := by
  obtain ⟨count, inRange, represents⟩ := sound.compressor
  have target := sound.manager.targetCompression
  unfold kMinCompressionGain kMaxCompressionGain kSurplusCompressionGain at target
  exact ⟨{ sound.manager with }, ⟨_, inRange.update target,
    represents.updateCompressor inRange target⟩, sound.histogram⟩

theorem steers_checkVolumeIfAsked
    (sound : session.Sound) : Steers session session.checkVolumeIfAsked := by
  unfold checkVolumeIfAsked
  split
  · have askedSound :
        Sound
          { session with
            manager := { session.manager with checkVolumeOnNextProcess := false } } :=
      ⟨{ sound.manager with }, sound.compressor, sound.histogram⟩
    have steered := steers_checkVolumeAndReset askedSound
    exact ⟨steered.sound, steered.volume, steered.maxLevel, steered.untouched⟩
  · exact .refl sound

/-- Unless it is muted, `Process` steers the levels and then updates the compressor. -/
theorem process_cases
    (rmsErrorDb : Histogram → Int)
    (sound : session.Sound)
    (chunks : List Agc.Chunk) :
    session.process rmsErrorDb chunks = some session ∨
      ∃ updated,
        session.process rmsErrorDb chunks = some updated.updateCompressor ∧
          Steers session updated := by
  unfold process
  split
  next muted =>
      exact .inl rfl
  next heard =>
      have checked := steers_checkVolumeIfAsked sound
      obtain ⟨agc, ran, tracked⟩ := process_agc checked.sound.histogram chunks
      have filled :
          Steers session.checkVolumeIfAsked { session.checkVolumeIfAsked with agc } :=
        ⟨⟨checked.sound.manager, checked.sound.compressor, tracked⟩, .inl rfl, le_rfl,
          rfl⟩
      obtain ⟨updated, updateRan, steered⟩ :=
        steers_updateGain rmsErrorDb filled.sound
      refine .inr ⟨updated, ?_, (checked.trans filled).trans steered⟩
      rw [ran, Option.bind_eq_bind, Option.bind_some, updateRan]
      rfl

/-- `Process` never fails, and keeps the session sound. -/
theorem process_spec
    (rmsErrorDb : Histogram → Int)
    (sound : session.Sound)
    (chunks : List Agc.Chunk) :
    ∃ processed,
      session.process rmsErrorDb chunks = some processed ∧
        processed.Sound ∧ VolumeAllowed session processed := by
  rcases process_cases rmsErrorDb sound chunks with
    ran | ⟨updated, ran, steered⟩
  · exact ⟨session, ran, sound, .inl rfl⟩
  · exact ⟨_, ran, sound_updateCompressor steered.sound, steered.volume⟩

theorem sound_restrictLevel
    (sound : session.Sound) : session.restrictLevel.Sound := by
  have maxLevel := sound.manager.maxLevel
  have inside :
      kClippedLevelMin ≤
          max kClippedLevelMin (session.manager.maxLevel - kClippedLevelStep) ∧
        max kClippedLevelMin (session.manager.maxLevel - kClippedLevelStep) ≤
          kMaxMicLevel := by
    unfold kClippedLevelMin kClippedLevelStep kMaxMicLevel at *
    omega
  have lowered := sound.manager.setMaxLevel inside
  exact
    ⟨{ lowered with
        framesSinceClipped :=
          (by decide : (0 : Int) ≤ 0 ∧ 0 ≤ kClippedWaitFrames) },
      sound.compressor, sound.histogram⟩

/-- A clipped frame lowers the highest level, by a step at most, and starts the wait. -/
theorem reactToClipping_spec
    (sound : session.Sound) :
    session.reactToClipping.Sound ∧
      VolumeAllowed session session.reactToClipping ∧
        session.reactToClipping.untouched = session.restrictLevel.untouched ∧
          session.restrictLevel.manager.maxLevel ≤
            session.reactToClipping.manager.maxLevel := by
  have restricted := sound_restrictLevel sound
  have level := sound.manager.level
  unfold reactToClipping
  split
  next above =>
      have inside :
          0 ≤ max kClippedLevelMin (session.manager.level - kClippedLevelStep) ∧
            max kClippedLevelMin (session.manager.level - kClippedLevelStep) ≤
              kMaxMicLevel := by
        unfold kClippedLevelMin kClippedLevelStep kMaxMicLevel at *
        omega
      have steered :=
        steers_setLevel restricted inside
          (.inr (by
            unfold kClippedLevelMin
            omega))
      exact ⟨⟨steered.sound.manager, steered.sound.compressor,
        tracks_resetAgc _ steered.sound.histogram⟩, steered.volume, steered.untouched,
        steered.maxLevel⟩
  next below =>
      exact ⟨restricted, .inl rfl, rfl, le_rfl⟩

/-- Analysing a frame keeps the session sound, and sets no volume that it may not. -/
theorem analyzePreProcess_spec
    (sound : session.Sound)
    (audio : List Int16) :
    (session.analyzePreProcess audio).Sound ∧
      VolumeAllowed session (session.analyzePreProcess audio) := by
  have frames := sound.manager.framesSinceClipped
  unfold analyzePreProcess
  dsimp only
  split
  · exact ⟨sound, .inl rfl⟩
  · split
    next waiting =>
        exact ⟨⟨{ sound.manager with
          framesSinceClipped := ⟨by dsimp only; omega, by dsimp only; omega⟩ },
          sound.compressor, sound.histogram⟩, .inl rfl⟩
    next ready =>
        split
        · have reacted := reactToClipping_spec sound
          exact ⟨reacted.1, reacted.2.1⟩
        · exact ⟨sound, .inl rfl⟩

theorem single_kDefaultCompressionGain :
    single kDefaultCompressionGain = kDefaultCompressionGain := by
  rw [intCast_eq_scaled, single, roundTo_scaled]
  exact congrArg (scaled unitScale) (by decide)

theorem toCompressor_setCaptureMuted
    (manager : AgcManagerDirect)
    (muted : Bool) :
    (manager.setCaptureMuted muted).toCompressor = manager.toCompressor := by
  unfold AgcManagerDirect.setCaptureMuted
  split
  · rfl
  · split <;> rfl

/-- The compressor as it starts. -/
theorem compressor_start :
    ∃ count : Twentieths,
      count.InRange ∧
        Represents ⟨kDefaultCompressionGain, single kDefaultCompressionGain⟩ count := by
  rw [single_kDefaultCompressionGain]
  exact ⟨⟨kDefaultCompressionGain, 0⟩, ⟨by decide, by decide⟩, represents_start _⟩

/-- Initialising the manager takes everything but the startup back to its start. -/
theorem sound_initializeExperimentalAgc
    (sound : session.Sound) : session.initializeExperimentalAgc.Sound := by
  have initialized : session.initializeManager.1.manager.InRange :=
    { sound.manager with
      maxLevel :=
        (by decide : kClippedLevelMin ≤ kMaxMicLevel ∧ kMaxMicLevel ≤ kMaxMicLevel)
      maxCompressionGain :=
        (by decide :
          kMaxCompressionGain ≤ kMaxCompressionGain ∧
            kMaxCompressionGain ≤ kMaxCompressionGain + kSurplusCompressionGain)
      targetCompression :=
        (by decide :
          kMinCompressionGain ≤ kDefaultCompressionGain ∧
            kDefaultCompressionGain ≤ kMaxCompressionGain + kSurplusCompressionGain) }
  refine ⟨initialized.setCaptureMuted _, ?_, sound.histogram⟩
  unfold initializeExperimentalAgc
  dsimp only
  rw [toCompressor_setCaptureMuted]
  exact compressor_start

/-- A session as it starts is sound. -/
theorem sound_create
    (startupMinLevel : Int)
    (formats : StreamFormats)
    (memory : Memory kNumAnalysisFrames) :
    (create startupMinLevel formats memory : AgcSession cores).Sound where
  manager :=
    { level := (by decide : (0 : Int) ≤ 0 ∧ 0 ≤ kMaxMicLevel)
      maxLevel :=
        (by decide : kClippedLevelMin ≤ kMaxMicLevel ∧ kMaxMicLevel ≤ kMaxMicLevel)
      maxCompressionGain :=
        (by decide :
          kMaxCompressionGain ≤ kMaxCompressionGain ∧
            kMaxCompressionGain ≤ kMaxCompressionGain + kSurplusCompressionGain)
      targetCompression :=
        (by decide :
          kMinCompressionGain ≤ kDefaultCompressionGain ∧
            kDefaultCompressionGain ≤ kMaxCompressionGain + kSurplusCompressionGain)
      startupMinLevel := by
        dsimp only [create, AgcManagerDirect.create, clampLevel]
        unfold kMinMicLevel kMaxMicLevel
        omega
      framesSinceClipped :=
        (by decide :
          (0 : Int) ≤ kClippedWaitFrames ∧ kClippedWaitFrames ≤ kClippedWaitFrames) }
  compressor := compressor_start
  histogram := ⟨[], tracks_create (by decide) memory⟩

/-! ## Runs -/

/-- Every call of a sound session returns, and keeps it sound. -/
theorem perform_spec
    (rmsErrorDb : Histogram → Int)
    (sound : session.Sound)
    (call : AgcCall) :
    ∃ next,
      session.perform rmsErrorDb call = some next ∧
        next.Sound ∧ (call.NotSetByUser → VolumeAllowed session next) := by
  cases call with
  | initializeLocked formats othersPass =>
      refine ⟨_, rfl, ?_, fun _ => .inl ?_⟩
      · unfold initializeLocked
        split
        · dsimp only
          split
          · exact sound_initializeExperimentalAgc
              ⟨sound.manager, sound.compressor, sound.histogram⟩
          · exact ⟨sound.manager, sound.compressor, sound.histogram⟩
        · exact ⟨sound.manager, sound.compressor, sound.histogram⟩
      · unfold initializeLocked
        split
        · dsimp only
          split <;> rfl
        · rfl
  | setOutputWillBeMuted muted =>
      refine ⟨_, rfl, ⟨sound.manager.setCaptureMuted muted, ?_, sound.histogram⟩,
        fun _ => .inl rfl⟩
      unfold setOutputWillBeMuted
      dsimp only
      rw [toCompressor_setCaptureMuted]
      exact sound.compressor
  | enable flag =>
      exact ⟨_, rfl, ⟨sound.manager, sound.compressor, sound.histogram⟩,
        fun _ => .inl rfl⟩
  | setStreamAnalogLevel level =>
      exact ⟨_, rfl, ⟨sound.manager, sound.compressor, sound.histogram⟩, False.elim⟩
  | ignored setting =>
      exact ⟨_, rfl, sound, fun _ => .inl rfl⟩
  | analyzePreProcess audio =>
      obtain ⟨next, allowed⟩ := analyzePreProcess_spec sound audio
      exact ⟨_, rfl, next, fun _ => allowed⟩
  | process chunks =>
      obtain ⟨processed, ran, next, allowed⟩ := process_spec rmsErrorDb sound chunks
      exact ⟨processed, ran, next, fun _ => allowed⟩

/-- Every run of calls returns and keeps the session sound. -/
theorem foldlM_perform_sound
    (rmsErrorDb : Histogram → Int)
    (sound : session.Sound)
    (calls : List AgcCall) :
    ∃ final,
      calls.foldlM (AgcSession.perform rmsErrorDb) session = some final ∧
        final.Sound := by
  induction calls generalizing session with
  | nil =>
      exact ⟨session, rfl, sound⟩
  | cons call rest inductionHypothesis =>
      obtain ⟨next, ran, nextSound, -⟩ := perform_spec rmsErrorDb sound call
      obtain ⟨final, restRan, finalSound⟩ := inductionHypothesis nextSound
      refine ⟨final, ?_, finalSound⟩
      rw [List.foldlM_cons, ran]
      exact restRan

/--
In every run of calls from the start, whatever the application sets the volume to, no
table or buffer is read outside its bounds, the manager's levels, gains and counters keep
to their ranges, and every volume that is not the application's own is between 1 and 255,
and no higher than the highest level but for the lowest one to start with.
-/
theorem run_inRange
    (rmsErrorDb : Histogram → Int)
    (startupMinLevel : Int)
    (formats : StreamFormats)
    (memory : Memory kNumAnalysisFrames)
    (calls : List AgcCall) :
    ∃ final moves,
      calls.foldlM (AgcSession.perform rmsErrorDb)
          (create startupMinLevel formats memory : AgcSession cores) = some final ∧
        Path (stepOf (AgcSession.perform rmsErrorDb))
          (create startupMinLevel formats memory) moves final ∧
        moves.map Move.label = calls ∧
        ∀ move ∈ moves,
          move.target.manager.InRange ∧
            2 ≤ move.target.manager.compression ∧
              move.target.manager.compression ≤ 18 ∧
                (move.label.NotSetByUser →
                  VolumeAllowed move.source move.target) := by
  have start : (create startupMinLevel formats memory : AgcSession cores).Sound :=
    sound_create startupMinLevel formats memory
  obtain ⟨final, ran, -⟩ := foldlM_perform_sound rmsErrorDb start calls
  obtain ⟨moves, path, labels⟩ := Path.exists_of_foldlM ran
  have kept :=
    path.invariant Sound
      (fun sound taken => by
        obtain ⟨next, nextRan, nextSound, -⟩ := perform_spec rmsErrorDb sound _
        obtain rfl := Option.some.inj (nextRan.symm.trans taken)
        exact nextSound)
      start
  refine ⟨final, moves, ran, path, labels, fun move member => ?_⟩
  obtain ⟨source, target⟩ := kept.1 move member
  obtain ⟨count, ⟨gain, -⟩, compression, -⟩ := target.compressor
  obtain ⟨next, nextRan, -, allowed⟩ :=
    perform_spec rmsErrorDb source move.label
  obtain rfl : next = move.target :=
    Option.some.inj (nextRan.symm.trans (path.step_of_mem member))
  exact ⟨target.manager, compression ▸ gain.1, compression ▸ gain.2, allowed⟩

end AgcSession

end ApmSdk.AgcManager
