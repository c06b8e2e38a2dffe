import ApmSdk.AgcManagerRuns
import ApmSdk.EventSpacing

namespace ApmSdk.AgcManager

/-!
# How often the experimental gain control reacts

Clipping lowers the highest level no more than once in 300 frames, and the compressor takes
twenty frames for each decibel.  Nothing else that is called in between undoes these
counts.
-/

open AudioProcessing LoudnessHistogram Histogram

variable {cores : Cores}
variable {rmsErrorDb : Histogram → Int}

namespace AgcSession

variable {session next : AgcSession cores}

/-! ## Clipping -/

/-- The highest level is lowered. -/
def Lowers (move : Move (AgcSession cores) AgcCall) : Prop :=
  move.target.manager.maxLevel < move.source.manager.maxLevel

/-- Whether a frame is looked at for clipping. -/
def heardFrames (move : Move (AgcSession cores) AgcCall) : Nat :=
  match move.label with
  | .analyzePreProcess _ => if move.source.manager.captureMuted then 0 else 1
  | _ => 0

/-- What initialising the module does to the part that watches for clipping. -/
theorem initializeLocked_clipping
    (sound : session.Sound)
    (formats : StreamFormats)
    (othersPass : Bool) :
    (session.initializeLocked formats othersPass).manager.framesSinceClipped =
        session.manager.framesSinceClipped ∧
      session.manager.maxLevel ≤
        (session.initializeLocked formats othersPass).manager.maxLevel := by
  have mutedKeeps : ∀ (manager : AgcManagerDirect) (muted : Bool),
      (manager.setCaptureMuted muted).framesSinceClipped =
          manager.framesSinceClipped ∧
        (manager.setCaptureMuted muted).maxLevel = manager.maxLevel := by
    intro manager muted
    unfold AgcManagerDirect.setCaptureMuted
    split
    · exact ⟨rfl, rfl⟩
    · split <;> exact ⟨rfl, rfl⟩
  unfold initializeLocked
  split
  · dsimp only
    split
    · unfold initializeExperimentalAgc
      dsimp only
      rw [(mutedKeeps _ _).1, (mutedKeeps _ _).2]
      exact ⟨rfl, sound.manager.maxLevel.2⟩
    · exact ⟨rfl, le_rfl⟩
  · exact ⟨rfl, le_rfl⟩

/-- A frame that is analysed lowers the highest level only after the wait, and by no more
than a step. -/
theorem analyzePreProcess_clipping
    (sound : session.Sound)
    (audio : List Int16) :
    let next := session.analyzePreProcess audio
    (next.manager.maxLevel = session.manager.maxLevel ∧
        next.manager.framesSinceClipped ≤
          session.manager.framesSinceClipped +
            (if session.manager.captureMuted then 0 else 1 : Nat)) ∨
      (kClippedWaitFrames ≤ session.manager.framesSinceClipped ∧
        session.manager.captureMuted = false ∧
          next.manager.framesSinceClipped = 0 ∧
            session.manager.maxLevel - kClippedLevelStep ≤ next.manager.maxLevel) := by
  unfold analyzePreProcess
  dsimp only
  split
  next muted =>
      exact .inl ⟨rfl, by simp⟩
  next heard =>
      split
      next waiting =>
          exact .inl ⟨rfl, le_rfl⟩
      next ready =>
          split
          · obtain ⟨-, -, untouched, maxLevel⟩ := reactToClipping_spec sound
            have frames := congrArg Untouched.framesSinceClipped untouched
            refine .inr ⟨not_lt.mp ready, by simpa using heard, frames, ?_⟩
            exact (le_max_right _ _).trans maxLevel
          · refine .inl ⟨rfl, ?_⟩
            push_cast
            omega

/-- `Process` does not lower the highest level, and leaves the wait alone. -/
theorem process_clipping
    (sound : session.Sound)
    {chunks : List Agc.Chunk}
    (ran : session.process rmsErrorDb chunks = some next) :
    next.manager.framesSinceClipped = session.manager.framesSinceClipped ∧
      session.manager.maxLevel ≤ next.manager.maxLevel := by
  rcases process_cases rmsErrorDb sound chunks with
    same | ⟨updated, steps, steered⟩
  · obtain rfl := Option.some.inj (same.symm.trans ran)
    exact ⟨rfl, le_rfl⟩
  · obtain rfl := Option.some.inj (steps.symm.trans ran)
    exact ⟨congrArg Untouched.framesSinceClipped steered.untouched, steered.maxLevel⟩

/-- Every call lowers the highest level only after the wait, by no more than a step. -/
theorem perform_clipping
    (sound : session.Sound)
    {call : AgcCall}
    (ran : session.perform rmsErrorDb call = some next) :
    (session.manager.maxLevel ≤ next.manager.maxLevel ∧
        next.manager.framesSinceClipped ≤
          session.manager.framesSinceClipped + heardFrames ⟨session, call, next⟩) ∨
      (kClippedWaitFrames ≤ session.manager.framesSinceClipped ∧
        heardFrames ⟨session, call, next⟩ = 1 ∧
          next.manager.framesSinceClipped = 0 ∧
            session.manager.maxLevel - kClippedLevelStep ≤ next.manager.maxLevel) := by
  cases call with
  | initializeLocked formats othersPass =>
      obtain rfl := Option.some.inj ran
      obtain ⟨frames, maxLevel⟩ := initializeLocked_clipping sound formats othersPass
      exact .inl ⟨maxLevel, by simp [frames, heardFrames]⟩
  | setOutputWillBeMuted muted =>
      obtain rfl := Option.some.inj ran
      refine .inl ?_
      unfold setOutputWillBeMuted AgcManagerDirect.setCaptureMuted heardFrames
      dsimp only
      split
      · simp
      · split <;> simp
  | enable flag =>
      obtain rfl := Option.some.inj ran
      exact .inl ⟨le_rfl, by simp [heardFrames, enable]⟩
  | setStreamAnalogLevel level =>
      obtain rfl := Option.some.inj ran
      exact .inl ⟨le_rfl, by simp [heardFrames, setStreamAnalogLevel]⟩
  | ignored setting =>
      obtain rfl := Option.some.inj ran
      exact .inl ⟨le_rfl, by simp [heardFrames]⟩
  | analyzePreProcess audio =>
      obtain rfl := Option.some.inj ran
      rcases analyzePreProcess_clipping sound audio with
        ⟨maxLevel, frames⟩ | ⟨waited, heard, frames, maxLevel⟩
      · exact .inl ⟨maxLevel.ge, frames⟩
      · exact .inr ⟨waited, by simp [heardFrames, heard], frames, maxLevel⟩
  | process chunks =>
      obtain ⟨frames, maxLevel⟩ := process_clipping sound ran
      exact .inl ⟨maxLevel, by simp [frames, heardFrames]⟩

theorem sound_of_step
    {call : AgcCall}
    (sound : session.Sound)
    (taken : stepOf (AgcSession.perform rmsErrorDb) session call next) :
    next.Sound := by
  obtain ⟨reached, ran, reachedSound, -⟩ := perform_spec rmsErrorDb sound call
  obtain rfl := Option.some.inj (ran.symm.trans taken)
  exact reachedSound

/-- Every state of a run from a sound session is sound. -/
theorem sound_of_path
    {final : AgcSession cores}
    {moves : List (Move (AgcSession cores) AgcCall)}
    (sound : session.Sound)
    (path : Path (stepOf (AgcSession.perform rmsErrorDb)) session moves final) :
    ∀ move ∈ moves, move.source.Sound := fun move member =>
  ((path.invariant Sound (fun sound taken => sound_of_step sound taken) sound).1
    move member).1

/--
The highest level is lowered by 15 at most, and between any two times more than 300
frames are looked at, whatever else is called.
-/
theorem lowered_levels_spaced
    {startupMinLevel : Int}
    {formats : StreamFormats}
    {memory : Memory kNumAnalysisFrames}
    {final : AgcSession cores}
    {moves leading between trailing : List (Move (AgcSession cores) AgcCall)}
    {first second : Move (AgcSession cores) AgcCall}
    (path :
      Path (stepOf (AgcSession.perform rmsErrorDb))
        (create startupMinLevel formats memory) moves final)
    (shape : moves = leading ++ first :: (between ++ second :: trailing))
    (firstLowers : Lowers first)
    (secondLowers : Lowers second) :
    300 < ((between ++ [second]).map heardFrames).sum ∧
      second.source.manager.maxLevel - 15 ≤ second.target.manager.maxLevel := by
  have held :=
    sound_of_path (sound_create startupMinLevel formats memory) path
  constructor
  · refine Path.spaced Sound
      (fun session count => session.manager.framesSinceClipped ≤ count)
      heardFrames Lowers 301 ?_ ?_ ?_ held path shape firstLowers secondLowers
    · intro source label target count sound taken within
      rcases perform_clipping sound taken with
        ⟨-, frames⟩ | ⟨-, -, frames, -⟩
      · push_cast
        omega
      · rw [frames]
        omega
    · intro source label target sound taken lowers
      rcases perform_clipping sound taken with
        ⟨maxLevel, -⟩ | ⟨-, -, frames, -⟩
      · exact absurd lowers maxLevel.not_gt
      · rw [frames]
        rfl
    · intro source label target count sound taken lowers within
      rcases perform_clipping sound taken with
        ⟨maxLevel, -⟩ | ⟨waited, heard, -, -⟩
      · exact absurd lowers maxLevel.not_gt
      · unfold kClippedWaitFrames at waited
        omega
  · have member : second ∈ moves := by
      rw [shape]
      simp
    rcases perform_clipping (held second member) (path.step_of_mem member) with
      ⟨maxLevel, -⟩ | ⟨-, -, -, maxLevel⟩
    · exact absurd secondLowers maxLevel.not_gt
    · exact maxLevel

/-! ### Two clipped frames -/

/-- A frame of one sample that is clipped. -/
def clippedFrame : List Int16 :=
  [32767]

/-- The session after some more frames of the wait. -/
def waited (session : AgcSession cores) (count : Int) : AgcSession cores :=
  { session with
    manager :=
      { session.manager with
        framesSinceClipped := session.manager.framesSinceClipped + count } }

/-- A frame of the wait is only counted. -/
theorem perform_waiting
    (heard : session.manager.captureMuted = false)
    (waiting : session.manager.framesSinceClipped < kClippedWaitFrames)
    (audio : List Int16) :
    session.perform rmsErrorDb (.analyzePreProcess audio) = some (session.waited 1) := by
  unfold perform analyzePreProcess
  dsimp only
  rw [if_neg (by simp [heard]), if_pos waiting]
  rfl

/-- Frames of the wait, as a path. -/
theorem path_waiting
    (count : Nat)
    (heard : session.manager.captureMuted = false)
    (waiting : session.manager.framesSinceClipped + count ≤ kClippedWaitFrames)
    (audio : List Int16) :
    ∃ moves,
      Path (stepOf (AgcSession.perform rmsErrorDb)) session moves
        (session.waited count) := by
  induction count generalizing session with
  | zero =>
      refine ⟨[], ?_⟩
      have same : session.waited ((0 : Nat) : Int) = session := by
        unfold waited
        rw [Nat.cast_zero, add_zero]
      rw [same]
      exact .nil session
  | succ count inductionHypothesis =>
      push_cast at waiting
      have taken :
          stepOf (AgcSession.perform rmsErrorDb) session (.analyzePreProcess audio)
            (session.waited 1) :=
        perform_waiting heard (by omega) audio
      have stillHeard : (session.waited 1).manager.captureMuted = false := heard
      obtain ⟨moves, path⟩ :=
        inductionHypothesis stillHeard (by
          unfold waited
          dsimp only
          omega)
      have together :
          (session.waited 1).waited count = session.waited ((count + 1 : Nat) : Int) := by
        unfold waited
        dsimp only
        rw [add_assoc, add_comm 1]
        push_cast
        rfl
      rw [together] at path
      exact ⟨_, .cons (.analyzePreProcess audio) taken path⟩

/-- A clipped frame that is not waited for, when the level has not been read yet. -/
theorem perform_clipped
    (heard : session.manager.captureMuted = false)
    (ready : session.manager.framesSinceClipped = kClippedWaitFrames)
    (unread : session.manager.level = 0) :
    session.perform rmsErrorDb (.analyzePreProcess clippedFrame) =
      some session.restrictLevel := by
  have clipped : kClippedRatioThreshold < Agc.analyzePreproc clippedFrame := by
    decide +kernel
  unfold perform analyzePreProcess reactToClipping
  dsimp only
  rw [if_neg (by simp [heard]), if_neg (by omega), if_pos clipped,
    if_neg (by rw [unread]; decide)]

/-- Two clipped frames lower the highest level when they are 300 frames apart. -/
theorem lowered_levels_spaced_clipped :
    ∃ first second : Move (AgcSession Cores.passThrough) AgcCall,
      ∃ between, Lowers first ∧ Lowers second ∧
        300 < ((between ++ [second]).map heardFrames).sum ∧
          second.source.manager.maxLevel - 15 ≤ second.target.manager.maxLevel := by
  let start : AgcSession Cores.passThrough := create 0 .initial (zeroMemory kNumAnalysisFrames)
  have firstTaken :
      stepOf (AgcSession.perform fun _ => 0) start (.analyzePreProcess clippedFrame)
        start.restrictLevel :=
    perform_clipped rfl rfl rfl
  obtain ⟨between, waited⟩ :
      ∃ moves,
        Path (stepOf (AgcSession.perform fun _ => 0)) start.restrictLevel moves
          (start.restrictLevel.waited (300 : Nat)) :=
    path_waiting 300 rfl (by decide) clippedFrame
  have secondTaken :
      stepOf (AgcSession.perform fun _ => 0) (start.restrictLevel.waited (300 : Nat))
        (.analyzePreProcess clippedFrame)
        (start.restrictLevel.waited (300 : Nat)).restrictLevel :=
    perform_clipped rfl rfl rfl
  have path :=
    Path.cons (.analyzePreProcess clippedFrame) firstTaken
      (waited.append (Path.single secondTaken))
  have firstLowers : Lowers ⟨start, .analyzePreProcess clippedFrame, start.restrictLevel⟩ :=
    (by decide : (240 : Int) < 255)
  have secondLowers :
      Lowers
        ⟨start.restrictLevel.waited (300 : Nat), .analyzePreProcess clippedFrame,
          (start.restrictLevel.waited (300 : Nat)).restrictLevel⟩ :=
    (by decide : (225 : Int) < 240)
  have spaced :=
    lowered_levels_spaced path (show _ = [] ++ _ :: (between ++ _ :: []) from rfl)
      firstLowers secondLowers
  exact ⟨_, _, between, firstLowers, secondLowers, spaced⟩

/-! ## The compressor -/

/-- `Process` changes the gain of the compressor. -/
def AdaptsGain (move : Move (AgcSession cores) AgcCall) : Prop :=
  (∃ chunks, move.label = .process chunks) ∧
    move.target.manager.compression ≠ move.source.manager.compression

/-- Whether a frame is processed. -/
def processedFrames (move : Move (AgcSession cores) AgcCall) : Nat :=
  match move.label with
  | .process _ => 1
  | _ => 0

/-- No more than some twentieths are added to the gain. -/
def WithinTwentieths (session : AgcSession cores) (most : Nat) : Prop :=
  ∃ count : Twentieths,
    count.InRange ∧ Represents session.manager.toCompressor count ∧
      count.twentieths.natAbs ≤ most

/-- A target between 2 and 18, and the compressor after it. -/
theorem process_compressor
    (sound : session.Sound)
    {chunks : List Agc.Chunk}
    (ran : session.process rmsErrorDb chunks = some next) :
    next.manager.toCompressor = session.manager.toCompressor ∨
      ∃ targetCompression, 2 ≤ targetCompression ∧ targetCompression ≤ 18 ∧
        next.manager.toCompressor =
          session.manager.toCompressor.updateCompressor targetCompression := by
  rcases process_cases rmsErrorDb sound chunks with
    same | ⟨updated, steps, steered⟩
  · obtain rfl := Option.some.inj (same.symm.trans ran)
    exact .inl rfl
  · obtain rfl := Option.some.inj (steps.symm.trans ran)
    have compressor : updated.manager.toCompressor = session.manager.toCompressor :=
      congrArg Untouched.compressor steered.untouched
    have target := steered.sound.manager.targetCompression
    unfold kMinCompressionGain kMaxCompressionGain kSurplusCompressionGain at target
    refine .inr ⟨updated.manager.targetCompression, target.1, target.2, ?_⟩
    rw [← compressor]
    rfl

/-- The other calls leave the compressor alone or take it back to its start. -/
theorem perform_compressor
    {call : AgcCall}
    (ran : session.perform rmsErrorDb call = some next)
    (sound : session.Sound) :
    next.manager.toCompressor = session.manager.toCompressor ∨
      ((∃ formats othersPass, call = .initializeLocked formats othersPass) ∧
        next.manager.toCompressor =
          ⟨kDefaultCompressionGain, single kDefaultCompressionGain⟩) ∨
        ∃ chunks targetCompression, call = .process chunks ∧
          2 ≤ targetCompression ∧ targetCompression ≤ 18 ∧
            next.manager.toCompressor =
              session.manager.toCompressor.updateCompressor targetCompression := by
  cases call with
  | initializeLocked formats othersPass =>
      obtain rfl := Option.some.inj ran
      unfold initializeLocked
      split
      · dsimp only
        split
        · refine .inr (.inl ⟨⟨formats, othersPass, rfl⟩, ?_⟩)
          unfold initializeExperimentalAgc
          dsimp only
          rw [toCompressor_setCaptureMuted]
          rfl
        · exact .inl rfl
      · exact .inl rfl
  | setOutputWillBeMuted muted =>
      obtain rfl := Option.some.inj ran
      exact .inl (toCompressor_setCaptureMuted _ _)
  | enable flag =>
      obtain rfl := Option.some.inj ran
      exact .inl rfl
  | setStreamAnalogLevel level =>
      obtain rfl := Option.some.inj ran
      exact .inl rfl
  | ignored setting =>
      obtain rfl := Option.some.inj ran
      exact .inl rfl
  | analyzePreProcess audio =>
      obtain rfl := Option.some.inj ran
      unfold analyzePreProcess
      dsimp only
      split
      · exact .inl rfl
      · split
        · exact .inl rfl
        · split
          · exact .inl
              (congrArg Untouched.compressor (reactToClipping_spec sound).2.2.1)
          · exact .inl rfl
  | process chunks =>
      rcases process_compressor sound ran with same | ⟨target, lower, upper, updated⟩
      · exact .inl same
      · exact .inr (.inr ⟨chunks, target, rfl, lower, upper, updated⟩)

/-- One update counts one twentieth, or completes a decibel. -/
theorem Twentieths.update_cases
    {count : Twentieths}
    (inRange : count.InRange)
    (targetCompression : ℤ) :
    ((count.update targetCompression).compression = count.compression ∧
        (count.update targetCompression).twentieths.natAbs ≤
          count.twentieths.natAbs + 1) ∨
      (count.twentieths.natAbs = 19 ∧
        (count.update targetCompression).twentieths = 0 ∧
          ((count.update targetCompression).compression = count.compression + 1 ∨
            (count.update targetCompression).compression = count.compression - 1)) := by
  have offset := inRange.offset
  unfold Twentieths.update
  split
  · exact .inl ⟨rfl, by omega⟩
  · split
    · split
      next full =>
          exact .inr ⟨by omega, rfl, .inl rfl⟩
      next more =>
          exact .inl ⟨rfl, by dsimp only; omega⟩
    · split
      next full =>
          exact .inr ⟨by omega, rfl, .inr rfl⟩
      next more =>
          exact .inl ⟨rfl, by dsimp only; omega⟩

/-- What a call does to the twentieths of a decibel. -/
theorem perform_twentieths
    {call : AgcCall}
    (ran : session.perform rmsErrorDb call = some next)
    (sound : session.Sound)
    {most : Nat}
    (within : WithinTwentieths session most) :
    (¬AdaptsGain ⟨session, call, next⟩ ∧
        WithinTwentieths next (most + processedFrames ⟨session, call, next⟩)) ∨
      (19 ≤ most ∧ processedFrames ⟨session, call, next⟩ = 1 ∧
        WithinTwentieths next 0 ∧
          (next.manager.compression = session.manager.compression + 1 ∨
            next.manager.compression = session.manager.compression - 1)) := by
  obtain ⟨count, inRange, represents, bound⟩ := within
  rcases perform_compressor ran sound with
    same | ⟨⟨formats, othersPass, rfl⟩, start⟩ | ⟨chunks, target, rfl, lower, upper, updated⟩
  · refine .inl ⟨fun adapts => adapts.2 (congrArg Compressor.compression same),
      count, inRange, ?_, bound.trans (Nat.le_add_right ..)⟩
    rw [same]
    exact represents
  · refine .inl ⟨?_, ⟨kDefaultCompressionGain, 0⟩, ⟨by decide, by decide⟩, ?_,
      Nat.zero_le _⟩
    · rintro ⟨⟨chunks, isProcess⟩, -⟩
      cases isProcess
    · rw [start, single_kDefaultCompressionGain]
      exact represents_start _
  · have nextRepresents : Represents next.manager.toCompressor (count.update target) := by
      rw [updated]
      exact represents.updateCompressor inRange ⟨lower, upper⟩
    have before := represents.1
    have after := nextRepresents.1
    rcases Twentieths.update_cases inRange target with
      ⟨kept, counted⟩ | ⟨full, restarted, moved⟩
    · refine .inl ⟨fun adapts => adapts.2 (after.trans (kept.trans before.symm)),
        _, inRange.update ⟨lower, upper⟩, nextRepresents, ?_⟩
      exact counted.trans (Nat.add_le_add_right bound 1)
    · refine .inr ⟨full ▸ bound, rfl,
        ⟨_, inRange.update ⟨lower, upper⟩, nextRepresents, by omega⟩, ?_⟩
      rw [after, before]
      exact moved

/--
The compressor is adapted by one decibel at a time, and from one time to the next at least
twenty frames are processed, however the targets change in between.
-/
theorem adapted_gains_spaced
    {start final : AgcSession cores}
    {moves leading between trailing : List (Move (AgcSession cores) AgcCall)}
    {first second : Move (AgcSession cores) AgcCall}
    (sound : start.Sound)
    (path : Path (stepOf (AgcSession.perform rmsErrorDb)) start moves final)
    (shape : moves = leading ++ first :: (between ++ second :: trailing))
    (firstAdapts : AdaptsGain first)
    (secondAdapts : AdaptsGain second) :
    20 ≤ ((between ++ [second]).map processedFrames).sum ∧
      (second.target.manager.compression = second.source.manager.compression + 1 ∨
        second.target.manager.compression = second.source.manager.compression - 1) := by
  have held := sound_of_path sound path
  have anyCount : ∀ {session : AgcSession cores}, session.Sound →
      ∃ most, WithinTwentieths session most := by
    rintro session sound
    obtain ⟨count, inRange, represents⟩ := sound.compressor
    exact ⟨_, count, inRange, represents, le_rfl⟩
  constructor
  · refine Path.spaced Sound WithinTwentieths processedFrames AdaptsGain 20
      ?_ ?_ ?_ held path shape firstAdapts secondAdapts
    · intro source label target most sound taken within
      rcases perform_twentieths taken sound within with
        ⟨-, counted⟩ | ⟨-, -, ⟨count, inRange, represents, bound⟩, -⟩
      · exact counted
      · exact ⟨count, inRange, represents, bound.trans (Nat.zero_le _)⟩
    · intro source label target sound taken adapts
      obtain ⟨most, within⟩ := anyCount sound
      rcases perform_twentieths taken sound within with
        ⟨kept, -⟩ | ⟨-, -, restarted, -⟩
      · exact absurd adapts kept
      · exact restarted
    · intro source label target most sound taken adapts within
      rcases perform_twentieths taken sound within with
        ⟨kept, -⟩ | ⟨full, counted, -, -⟩
      · exact absurd adapts kept
      · omega
  · have member : second ∈ moves := by
      rw [shape]
      simp
    obtain ⟨most, within⟩ := anyCount (held second member)
    rcases perform_twentieths (path.step_of_mem member) (held second member) within with
      ⟨kept, -⟩ | ⟨-, -, -, moved⟩
    · exact absurd secondAdapts kept
    · exact moved

/-! ### Two decibels on the way to a target -/

/-- Nothing but the compressor changes when a frame has no chunks. -/
structure Idle (session : AgcSession cores) (count : Twentieths) : Prop where
  heard : session.manager.captureMuted = false
  checked : session.manager.checkVolumeOnNextProcess = false
  early : session.agc.histogram.numUpdates < kNumAnalysisFrames
  target : session.manager.targetCompression = 9
  inRange : count.InRange
  represents : Represents session.manager.toCompressor count

theorem step_idle
    {count : Twentieths}
    (idle : Idle session count) :
    stepOf (AgcSession.perform rmsErrorDb) session (.process [])
      session.updateCompressor := by
  have asked : session.checkVolumeIfAsked = session := by
    unfold checkVolumeIfAsked
    rw [if_neg (by simp [idle.checked])]
  have silent : session.agc.getRmsErrorDb rmsErrorDb = (session.agc, none) := by
    unfold Agc.getRmsErrorDb
    rw [if_pos idle.early]
  have kept : updateGain rmsErrorDb session = some session := by
    unfold updateGain
    rw [silent]
  have analysed : session.agc.process [] = some session.agc := rfl
  change session.process rmsErrorDb [] = some session.updateCompressor
  unfold process
  rw [if_neg (by simp [idle.heard]), asked, analysed, Option.bind_eq_bind,
    Option.bind_some, kept]
  rfl

theorem Idle.updateCompressor
    {count : Twentieths}
    (idle : Idle session count) :
    Idle session.updateCompressor (count.update 9) := by
  have represents :=
    idle.represents.updateCompressor idle.inRange
      (show 2 ≤ (9 : Int) ∧ (9 : Int) ≤ 18 by norm_num)
  rw [← idle.target] at represents
  refine ⟨idle.heard, idle.checked, idle.early, idle.target,
    idle.inRange.update (by norm_num), ?_⟩
  rw [← idle.target]
  exact represents

/-- Frames without chunks, as a path. -/
theorem path_idle
    (rmsErrorDb : Histogram → Int)
    (frames : Nat)
    {count : Twentieths}
    (idle : Idle session count) :
    ∃ moves next,
      Path (stepOf (AgcSession.perform rmsErrorDb)) session moves next ∧
        Idle next ((fun count => count.update 9)^[frames] count) := by
  induction frames generalizing session count with
  | zero =>
      exact ⟨[], session, .nil session, idle⟩
  | succ frames inductionHypothesis =>
      obtain ⟨moves, next, path, reached⟩ := inductionHypothesis idle.updateCompressor
      exact ⟨_, next, .cons (.process []) (step_idle idle) path, reached⟩

/-- The compressor comes from 7 to 9 in two times twenty frames. -/
theorem adapted_gains_spaced_nine :
    ∃ first second : Move (AgcSession Cores.passThrough) AgcCall,
      ∃ between, AdaptsGain first ∧ AdaptsGain second ∧
        20 ≤ ((between ++ [second]).map processedFrames).sum ∧
          (second.target.manager.compression = second.source.manager.compression + 1 ∨
            second.target.manager.compression =
              second.source.manager.compression - 1) := by
  let made : AgcSession Cores.passThrough :=
    create 0 .initial (zeroMemory kNumAnalysisFrames)
  let start : AgcSession Cores.passThrough :=
    { made with
      manager :=
        { made.manager with
          targetCompression := 9
          checkVolumeOnNextProcess := false } }
  have madeSound : made.Sound := sound_create 0 .initial (zeroMemory kNumAnalysisFrames)
  have sound : start.Sound :=
    ⟨{ madeSound.manager with
        targetCompression :=
          (by decide :
            kMinCompressionGain ≤ 9 ∧ 9 ≤ kMaxCompressionGain + kSurplusCompressionGain) },
      madeSound.compressor, madeSound.histogram⟩
  have idle : Idle start ⟨7, 0⟩ :=
    ⟨rfl, rfl, by decide, rfl, ⟨by decide, by decide⟩, by
      have represents := represents_start kDefaultCompressionGain
      rwa [← single_kDefaultCompressionGain] at represents⟩
  obtain ⟨leading, before, toFirst, idleBefore⟩ := path_idle (fun _ => 0) 19 idle
  obtain ⟨between, later, toSecond, idleLater⟩ :=
    path_idle (fun _ => 0) 19 idleBefore.updateCompressor
  have path :=
    toFirst.append
      (Path.cons (.process []) (step_idle idleBefore)
        (toSecond.append
          (Path.single (step_idle idleLater))))
  have firstAdapts :
      AdaptsGain ⟨before, .process [], before.updateCompressor⟩ := by
    refine ⟨⟨[], rfl⟩, ?_⟩
    dsimp only
    rw [idleBefore.updateCompressor.represents.1, idleBefore.represents.1]
    decide
  have secondAdapts : AdaptsGain ⟨later, .process [], later.updateCompressor⟩ := by
    refine ⟨⟨[], rfl⟩, ?_⟩
    dsimp only
    rw [idleLater.updateCompressor.represents.1, idleLater.represents.1]
    decide
  have spaced :=
    adapted_gains_spaced sound path
      (show _ = leading ++ _ :: (between ++ _ :: []) from rfl) firstAdapts secondAdapts
  exact ⟨_, _, between, firstAdapts, secondAdapts, spaced⟩

/-! ## The settings of the gain control -/

/-- The gain control has the settings that the manager has given it. -/
structure Agrees (session : AgcSession cores) : Prop where
  compression :
    session.gainControl.settings.compressionGainDb = session.manager.compression
  mode : session.gainControl.settings.mode = .kFixedDigital
  target : session.gainControl.settings.targetLevelDbfs = 2
  limiter : session.gainControl.settings.limiterEnabled = true

theorem settings_initializeComponent
    (formats : StreamFormats)
    (gainControl : GainControl cores) :
    (GainControl.initializeComponent formats gainControl).1.settings =
      gainControl.settings :=
  (GainControl.initializeComponent_base formats gainControl).2.2

/-- Enabling the gain control does not change its settings. -/
theorem settings_enable
    (formats : StreamFormats)
    (flag : Bool)
    (gainControl : GainControl cores) :
    (GainControl.enable formats flag gainControl).1.settings = gainControl.settings :=
  enableComponent_frame GainControl.settings (fun _ _ => rfl)
    (settings_initializeComponent formats)

/-- A legal compression gain is stored, whatever configuring the handles returns. -/
theorem settings_setCompressionGainDb
    (formats : StreamFormats)
    {gain : Int}
    (legal : 0 ≤ gain ∧ gain ≤ 90)
    (gainControl : GainControl cores) :
    let settings :=
      (GainControl.setCompressionGainDb formats gain gainControl).1.settings
    settings.compressionGainDb = gain ∧
      settings.mode = gainControl.settings.mode ∧
        settings.targetLevelDbfs = gainControl.settings.targetLevelDbfs ∧
          settings.limiterEnabled = gainControl.settings.limiterEnabled := by
  unfold GainControl.setCompressionGainDb
  rw [dif_pos legal]
  exact ⟨rfl, rfl, rfl, rfl⟩

/-- The settings that the manager's calls leave when none of them fails. -/
theorem settings_configureGainControl
    (formats : StreamFormats)
    {gainControl : GainControl cores}
    (passed : (configureGainControl formats gainControl).2 = none) :
    let settings := (configureGainControl formats gainControl).1.settings
    settings.compressionGainDb = kDefaultCompressionGain ∧
      settings.mode = .kFixedDigital ∧ settings.targetLevelDbfs = 2 ∧
        settings.limiterEnabled = true := by
  unfold configureGainControl at passed ⊢
  obtain ⟨modePassed, rest⟩ := completed_cons (Prod.ext rfl passed)
  obtain ⟨targetPassed, rest⟩ := completed_cons rest
  obtain ⟨compressionPassed, rest⟩ := completed_cons rest
  obtain ⟨limiterPassed, -⟩ := completed_cons rest
  rw [runStages_cons_of_none modePassed, runStages_cons_of_none targetPassed,
    runStages_cons_of_none compressionPassed, runStages_cons_of_none limiterPassed]
  refine ⟨rfl, ?_, rfl, rfl⟩
  exact congrArg GainSettings.mode (settings_initializeComponent formats _)

/-- When the manager is initialised, none of its calls on the gain control fails. -/
def Passes (session : AgcSession cores) : AgcCall → Prop
  | .initializeLocked formats true =>
      let ran := GainControl.initializeComponent formats session.gainControl
      ran.2 = none → (configureGainControl formats ran.1).2 = none
  | _ => True

/-- Initialising the manager without a failure makes the gain control agree. -/
theorem agrees_initializeExperimentalAgc
    (passed : (configureGainControl session.formats session.gainControl).2 = none) :
    Agrees session.initializeExperimentalAgc := by
  obtain ⟨compression, mode, target, limiter⟩ :=
    settings_configureGainControl session.formats passed
  refine ⟨compression.trans ?_, mode, target, limiter⟩
  exact
    (congrArg Compressor.compression
      (toCompressor_setCaptureMuted session.initializeManager.1.manager _)).symm

theorem Agrees.of_same
    (agrees : Agrees session)
    (settings : next.gainControl.settings = session.gainControl.settings)
    (compression : next.manager.compression = session.manager.compression) :
    Agrees next where
  compression := by
    rw [settings, compression, agrees.compression]
  mode := by
    rw [settings, agrees.mode]
  target := by
    rw [settings, agrees.target]
  limiter := by
    rw [settings, agrees.limiter]

/-- A gain that is adapted is handed to the gain control. -/
theorem Agrees.updateCompressor
    (agrees : Agrees session)
    (sound : session.Sound) :
    Agrees session.updateCompressor := by
  obtain ⟨count, inRange, compression, -⟩ :=
    (sound_updateCompressor sound).compressor
  by_cases same :
      session.updateCompressor.manager.compression = session.manager.compression
  · refine agrees.of_same ?_ same
    unfold AgcSession.updateCompressor at same ⊢
    dsimp only at same ⊢
    rw [if_pos same]
  · have stored :=
      settings_setCompressionGainDb session.formats
        (show 0 ≤ session.updateCompressor.manager.compression ∧
            session.updateCompressor.manager.compression ≤ 90 by
          have gain := inRange.gain
          omega)
        session.gainControl
    have given :
        session.updateCompressor.gainControl =
          (GainControl.setCompressionGainDb session.formats
            session.updateCompressor.manager.compression session.gainControl).1 := by
      unfold AgcSession.updateCompressor at same ⊢
      dsimp only at same ⊢
      rw [if_neg same]
    obtain ⟨gain, mode, target, limiter⟩ := stored
    rw [← given] at gain mode target limiter
    exact ⟨gain, mode.trans agrees.mode, target.trans agrees.target,
      limiter.trans agrees.limiter⟩

/-- Every call keeps the agreement, unless it initialises the manager with a failure. -/
theorem Agrees.perform
    {call : AgcCall}
    (agrees : Agrees session)
    (sound : session.Sound)
    (passes : session.Passes call)
    (ran : session.perform rmsErrorDb call = some next) :
    Agrees next := by
  cases call with
  | initializeLocked formats othersPass =>
      obtain rfl := Option.some.inj ran
      cases othersPass with
      | false =>
          exact agrees.of_same rfl rfl
      | true =>
          unfold initializeLocked
          rw [if_pos rfl]
          dsimp only
          split
          next passed =>
              exact agrees_initializeExperimentalAgc
                (passes (Option.isNone_iff_eq_none.mp passed))
          next failed =>
              exact agrees.of_same (settings_initializeComponent formats _) rfl
  | setOutputWillBeMuted muted =>
      obtain rfl := Option.some.inj ran
      exact agrees.of_same rfl
        (congrArg Compressor.compression (toCompressor_setCaptureMuted _ _))
  | enable flag =>
      obtain rfl := Option.some.inj ran
      exact agrees.of_same (settings_enable _ flag _) rfl
  | setStreamAnalogLevel level =>
      obtain rfl := Option.some.inj ran
      exact agrees.of_same rfl rfl
  | ignored setting =>
      obtain rfl := Option.some.inj ran
      exact agrees
  | analyzePreProcess audio =>
      obtain rfl := Option.some.inj ran
      unfold analyzePreProcess
      dsimp only
      split
      · exact agrees
      · split
        · exact agrees.of_same rfl rfl
        · split
          · have untouched := (reactToClipping_spec sound).2.2.1
            exact agrees.of_same
              (congrArg (fun part => part.gainControl.settings) untouched)
              (congrArg (fun part => part.compressor.compression) untouched)
          · exact agrees
  | process chunks =>
      rcases process_cases rmsErrorDb sound chunks with
        same | ⟨updated, steps, steered⟩
      · obtain rfl := Option.some.inj (same.symm.trans ran)
        exact agrees
      · obtain rfl := Option.some.inj (steps.symm.trans ran)
        have kept : Agrees updated :=
          agrees.of_same
            (congrArg (fun part => part.gainControl.settings) steered.untouched)
            (congrArg (fun part => part.compressor.compression) steered.untouched)
        exact kept.updateCompressor steered.sound

/--
From when the manager has been initialised without a failure, the gain control has the
manager's compression, its mode, target and limiter in every state, whatever the
application sets through the wrapper.
-/
theorem gainControl_agrees
    {start final : AgcSession cores}
    {formats : StreamFormats}
    {moves : List (Move (AgcSession cores) AgcCall)}
    (sound : start.Sound)
    (initialized :
      (GainControl.initializeComponent formats start.gainControl).2 = none)
    (passed : start.Passes (.initializeLocked formats true))
    (path :
      Path (stepOf (AgcSession.perform rmsErrorDb))
        (start.initializeLocked formats true) moves final)
    (guarded : ∀ move ∈ moves, move.source.Passes move.label) :
    Agrees (start.initializeLocked formats true) ∧
      ∀ move ∈ moves, Agrees move.target := by
  have firstAgrees : Agrees (start.initializeLocked formats true) := by
    unfold initializeLocked
    rw [if_pos rfl]
    dsimp only
    rw [if_pos (Option.isNone_iff_eq_none.mpr initialized)]
    exact agrees_initializeExperimentalAgc (passed initialized)
  have firstSound : (start.initializeLocked formats true).Sound :=
    sound_of_step sound
      (show stepOf (AgcSession.perform rmsErrorDb) start (.initializeLocked formats true) _
        from rfl)
  have kept :=
    path.invariant_of_guard (fun session => session.Sound ∧ Agrees session) Passes
      (fun both passes taken =>
        ⟨sound_of_step both.1 taken, both.2.perform both.1 passes taken⟩)
      ⟨firstSound, firstAgrees⟩ guarded
  exact ⟨firstAgrees, fun move member => (kept.1 move member).2.2⟩

/-- The application asks for another gain, which is ignored. -/
theorem gainControl_agrees_ignored :
    let start : AgcSession Cores.passThrough :=
      create 0 .initial (zeroMemory kNumAnalysisFrames)
    let initialized := start.initializeLocked .initial true
    Path (stepOf (AgcSession.perform fun _ => 0)) initialized
        [⟨initialized, .ignored (.setCompressionGainDb 50), initialized⟩] initialized ∧
      Agrees initialized := by
  intro start initialized
  have taken :
      stepOf (AgcSession.perform fun _ => 0) initialized
        (.ignored (.setCompressionGainDb 50)) initialized := rfl
  have agrees :=
    gainControl_agrees
      (show start.Sound from sound_create 0 .initial (zeroMemory kNumAnalysisFrames)) rfl
      (fun _ => rfl) (Path.single taken) (by simp [Passes])
  exact ⟨Path.single taken, agrees.1⟩

end AgcSession

end ApmSdk.AgcManager
