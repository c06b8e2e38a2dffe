import ApmSdk.AecMobileSessions

namespace ApmSdk.Aecm

/-!
# The clean near end of the mobile echo canceller

Noise suppression can be switched while the canceller runs, so a frame may come
without a clean near end.  Its clean ring and its clean time buffer then stand still,
while those of the noisy near end and of the far end move on.
-/

/-- The clean near-end samples of a frame; there are none where it has no clean near
end. -/
def Frame.cleanSamples (frame : Frame) : List (Option Short) :=
  match frame.clean with
  | some clean => clean.1.map some
  | none => List.replicate frameLen none

/-- The clean near-end samples of frames. -/
def cleanStream (frames : List Frame) : List (Option Short) :=
  frames.flatMap Frame.cleanSamples

/-- The same behind the zeros that the time buffer starts with. -/
def paddedClean (samples : List (Option Short)) : List (Option Short) :=
  List.replicate partLen (some 0) ++ samples

/-- What every block was handed is the far, the noisy and, where it is there, the
clean near end over the same two block lengths. -/
def Session.WindowsAligned
    {core : SpectralCore}
    (session : Session core) : Prop :=
  ∀ index block,
    session.handed[index]? = some block →
      block.far.1 =
          window (padded (farStream session.frames)) (partLen * index)
            partLen2 ∧
        block.noisy.1 =
            window (padded (noisyStream session.frames))
              (partLen * index) partLen2 ∧
          ∀ clean,
            block.clean = some clean →
              clean.1.map some =
                window (paddedClean (cleanStream session.frames))
                  (partLen * index) partLen2

/-- No frame with a clean near end follows one without. -/
def NeverResumes (frames : List Frame) : Prop :=
  frames.IsChain fun frame next =>
    next.clean.isSome → frame.clean.isSome

theorem length_cleanSamples (frame : Frame) :
    frame.cleanSamples.length = frameLen := by
  unfold Frame.cleanSamples
  cases frame.clean with
  | some clean =>
      rw [List.length_map, clean.2]
  | none =>
      exact List.length_replicate

theorem cleanStream_append (frames : List Frame) (frame : Frame) :
    cleanStream (frames ++ [frame]) =
      cleanStream frames ++ frame.cleanSamples := by
  simp [cleanStream]

theorem paddedClean_append (samples more : List (Option Short)) :
    paddedClean (samples ++ more) = paddedClean samples ++ more :=
  (List.append_assoc ..).symm

theorem paddedClean_map (stream : List Short) :
    paddedClean (stream.map some) = (padded stream).map some := by
  rw [paddedClean, padded, List.map_append, List.map_replicate]

theorem length_paddedClean (samples : List (Option Short)) :
    (paddedClean samples).length = partLen + samples.length := by
  rw [paddedClean, List.length_append, List.length_replicate]

theorem length_cleanStream (frames : List Frame) :
    (cleanStream frames).length = frameLen * frames.length := by
  unfold cleanStream
  induction frames with
  | nil =>
      rfl
  | cons frame rest inductionHypothesis =>
      rw [List.flatMap_cons, List.length_append, inductionHypothesis,
        length_cleanSamples, List.length_cons, Nat.mul_succ, Nat.add_comm]

section Resuming

variable {frames : List Frame}
variable {index : Nat}
variable {frame : Frame}

/-- Before the first block of the frame after one without a clean near end, a clean
sample is missing. -/
theorem getElem?_paddedClean_of_none
    (isFrame : frames[index]? = some frame)
    (noClean : frame.clean = none) :
    (window (paddedClean (cleanStream frames))
        (partLen * blocksAfter (index + 1)) partLen2)[partLen - 1]? =
      some none := by
  have part : window (cleanStream frames) (frameLen * index) frameLen =
      frame.cleanSamples :=
    window_flatMap length_cleanSamples isFrame
  have whole := partLen_mul_blocksAfter_le (index + 1)
  have next := lt_partLen_mul_blocksAfter (index + 1)
  have sizes : partLen = 64 ∧ frameLen = 80 := ⟨rfl, rfl⟩
  simp only [sizes] at whole next
  have distance :
      64 * blocksAfter (index + 1) - 1 - 80 * index < frameLen := by
    omega
  have missing :
      (window (cleanStream frames) (frameLen * index) frameLen)[64 *
        blocksAfter (index + 1) - 1 - 80 * index]? = some none := by
    rw [part, Frame.cleanSamples, noClean]
    exact List.getElem?_replicate_of_lt distance
  rw [getElem?_window distance] at missing
  rw [getElem?_window (by decide), paddedClean,
    List.getElem?_append_right (by
      rw [List.length_replicate]
      simp only [sizes]
      omega),
    List.length_replicate, ← missing]
  congr 1
  simp only [sizes]
  omega

end Resuming

variable {core : SpectralCore}

/-- Where every window is aligned, the clean near end has never come back. -/
theorem neverResumes_of_windowsAligned
    {session : Session core}
    (running : session.Running)
    (aligned : session.WindowsAligned) :
    NeverResumes session.frames := by
  unfold NeverResumes
  rw [List.isChain_iff_getElem]
  intro index inRange resumes
  by_contra hasNone
  have noClean : session.frames[index].clean = none := by
    simpa using hasNone
  have isFrame :
      session.frames[index]? = some session.frames[index] :=
    List.getElem?_eq_getElem (by omega)
  have isNext :
      session.frames[index + 1]? = some session.frames[index + 1] :=
    List.getElem?_eq_getElem inRange
  obtain ⟨block, isBlock, sameFlag⟩ :=
    running.flags _ _ isNext _ (Nat.le_refl _)
      (OutputFrames.blocksAfter_lt_succ (index + 1))
  rw [resumes] at sameFlag
  obtain ⟨clean, isClean⟩ := Option.isSome_iff_exists.mp sameFlag
  have samples := (aligned _ _ isBlock).2.2 clean isClean
  have missing := getElem?_paddedClean_of_none isFrame noClean
  rw [← samples, List.getElem?_map, Option.map_eq_some_iff] at missing
  obtain ⟨sample, -, isNone⟩ := missing
  cases isNone

/-- The clean windows of the blocks on record, over the samples of a clean stream. -/
def CleanAligned
    (handed : List Handed)
    (samples : List (Option Short)) : Prop :=
  ∀ index block clean,
    handed[index]? = some block →
      block.clean = some clean →
        clean.1.map some =
          window (paddedClean samples) (partLen * index) partLen2

/-- Windows stay aligned when the stream grows. -/
theorem CleanAligned.append_samples
    {handed : List Handed}
    {samples : List (Option Short)}
    (aligned : CleanAligned handed samples)
    (enough : partLen * handed.length ≤ samples.length)
    (more : List (Option Short)) :
    CleanAligned handed (samples ++ more) := by
  intro index block clean isBlock isClean
  have before : index + 1 ≤ handed.length :=
    (List.getElem?_eq_some_iff.mp isBlock).1
  have inside : partLen * (index + 1) ≤ partLen * handed.length :=
    Nat.mul_le_mul_left _ before
  rw [Nat.mul_succ] at inside
  have sizes : partLen = 64 ∧ partLen2 = 128 := ⟨rfl, rfl⟩
  rw [paddedClean_append,
    window_append (by rw [length_paddedClean]; omega)]
  exact aligned index block clean isBlock isClean

/-- One more block keeps the windows aligned if its own is. -/
theorem CleanAligned.append_block
    {handed : List Handed}
    {samples : List (Option Short)}
    {block : Handed}
    (aligned : CleanAligned handed samples)
    (last :
      ∀ clean,
        block.clean = some clean →
          clean.1.map some =
            window (paddedClean samples) (partLen * handed.length)
              partLen2) :
    CleanAligned (handed ++ [block]) samples := by
  intro index taken clean isTaken
  exact OutputFrames.forall_getElem?_concat
    (fun index taken isTaken clean isClean =>
      aligned index taken clean isTaken isClean)
    last index taken isTaken clean

/-- The clean ring and the clean time buffer stand where the other ones do. -/
structure CleanInStep
    (stream : List Short)
    (blocks : Nat)
    (aecm : AecmCore core.blockProcessor) : Prop where
  ring :
    RingBuffer.Carries frameBufLen aecm.nearCleanFrameBuf (inRing stream)
      (frameBufLen + partLen * blocks)
  old :
    aecm.block.dBufClean.1 =
      window (padded stream) (partLen * blocks) partLen
  aligned : CleanAligned aecm.block.handed (stream.map some)

section Blocks

variable {far noisy : List Short}
variable {position blocks count : Nat}
variable {aecm : AecmCore core.blockProcessor}

/-- The blocks of a frame without a clean near end can be processed. -/
theorem Blocked.exists_processBlocks_noisy
    {samples : List (Option Short)}
    (blocked : Blocked far noisy position blocks aecm)
    (enoughFar : partLen * (blocks + count) ≤ far.length)
    (enoughNoisy : partLen * (blocks + count) ≤ noisy.length)
    (room : partLen * (blocks + count) ≤ position)
    (aligned : CleanAligned aecm.block.handed samples) :
    ∃ next : AecmCore core.blockProcessor,
      AecmCore.processBlocks false count aecm = some (next, true) ∧
        CleanAligned next.block.handed samples := by
  induction count generalizing blocks aecm with
  | zero =>
      exact ⟨aecm, rfl, aligned⟩
  | succ count inductionHypothesis =>
      have bound :
          partLen * (blocks + 1) ≤ partLen * (blocks + (count + 1)) :=
        Nat.mul_le_mul_left _ (by omega)
      have readClean :
          AecmCore.readClean false aecm.nearCleanFrameBuf =
            some (aecm.nearCleanFrameBuf, none) :=
        rfl
      obtain ⟨middle, block, isMiddle, middleBlocked, handed, isClean, -,
          -⟩ :=
        blocked.processOneBlock (Nat.le_trans bound enoughFar)
          (Nat.le_trans bound enoughNoisy) (Nat.le_trans bound room)
          readClean
      have middleAligned : CleanAligned middle.block.handed samples := by
        rw [handed]
        apply aligned.append_block
        intro clean isSome
        rw [isClean] at isSome
        cases isSome
      have shift : blocks + (count + 1) = blocks + 1 + count := by
        omega
      rw [shift] at enoughFar enoughNoisy room
      obtain ⟨next, isNext, nextAligned⟩ :=
        inductionHypothesis middleBlocked enoughFar enoughNoisy room
          middleAligned
      refine ⟨next, ?_, nextAligned⟩
      simp only [AecmCore.processBlocks, isMiddle, Option.bind_eq_bind,
        Option.bind_some, if_true, isNext]

/-- The blocks of a frame with a clean near end find its samples where the clean ring
is in step. -/
theorem Blocked.exists_processBlocks_clean
    {stream : List Short}
    (blocked : Blocked far noisy position blocks aecm)
    (enoughFar : partLen * (blocks + count) ≤ far.length)
    (enoughNoisy : partLen * (blocks + count) ≤ noisy.length)
    (enoughClean : partLen * (blocks + count) ≤ stream.length)
    (room : partLen * (blocks + count) ≤ position)
    (inStep : CleanInStep stream blocks aecm) :
    ∃ next : AecmCore core.blockProcessor,
      AecmCore.processBlocks true count aecm = some (next, true) ∧
        CleanInStep stream (blocks + count) next := by
  induction count generalizing blocks aecm with
  | zero =>
      exact ⟨aecm, rfl, inStep⟩
  | succ count inductionHypothesis =>
      have bound :
          partLen * (blocks + 1) ≤ partLen * (blocks + (count + 1)) :=
        Nat.mul_le_mul_left _ (by omega)
      obtain ⟨cleanBuf, cleanBlock, isRead, isBlock, carries⟩ :=
        AecmCore.readBlock_carries inStep.ring
          (Nat.le_trans bound enoughClean)
      have readClean :
          AecmCore.readClean true aecm.nearCleanFrameBuf =
            some (cleanBuf, some cleanBlock) := by
        rw [AecmCore.readClean, if_pos rfl, isRead]
        rfl
      obtain ⟨cleanWindow, cleanOld⟩ := join_windows inStep.old isBlock
      obtain ⟨middle, block, isMiddle, middleBlocked, handed, isClean,
          old, ring⟩ :=
        blocked.processOneBlock (Nat.le_trans bound enoughFar)
          (Nat.le_trans bound enoughNoisy) (Nat.le_trans bound room)
          readClean
      have middleInStep : CleanInStep stream (blocks + 1) middle := by
        constructor
        case ring =>
            rw [ring]
            exact carries
        case old =>
            rw [old]
            exact cleanOld
        case aligned =>
            rw [handed]
            apply inStep.aligned.append_block
            intro clean isSome
            rw [isClean, Option.map_some] at isSome
            obtain rfl := Option.some.inj isSome
            rw [cleanWindow, map_window, paddedClean_map, blocked.count]
      have shift : blocks + (count + 1) = blocks + 1 + count := by
        omega
      rw [shift] at enoughFar enoughNoisy enoughClean room ⊢
      obtain ⟨next, isNext, nextInStep⟩ :=
        inductionHypothesis middleBlocked enoughFar enoughNoisy
          enoughClean room middleInStep
      refine ⟨next, ?_, nextInStep⟩
      simp only [AecmCore.processBlocks, isMiddle, Option.bind_eq_bind,
        Option.bind_some, if_true, isNext]

end Blocks

namespace Session

/-- The clean windows of a session; as long as every frame has had a clean near end,
the clean ring is in step. -/
structure CleanAccount (session : Session core) : Prop where
  aligned : CleanAligned session.handed (cleanStream session.frames)
  supplied :
    (∀ frame ∈ session.frames, frame.clean.isSome) →
      ∃ stream,
        cleanStream session.frames = stream.map some ∧
          CleanInStep stream (blocksAfter session.frames.length)
            session.aecm

variable {session : Session core}
variable {frame : Frame}

/-- A frame without a clean near end is answered. -/
theorem CleanAccount.processFrame_noisy
    (account : session.CleanAccount)
    (running : session.Running)
    (noClean : frame.clean = none) :
    ∃ next : Session core,
      session.processFrame frame = some next ∧
        next.Running ∧
          next.CleanAccount ∧ next.frames = session.frames ++ [frame] := by
  obtain ⟨count, buffered, isCount, blocked, sameBlock, -, isProcessed⟩ :=
    running.upToOutput frame
  have enough := partLen_mul_blocksAfter_le (session.frames.length + 1)
  have grown :
      CleanAligned buffered.block.handed
        (cleanStream (session.frames ++ [frame])) := by
    rw [sameBlock, cleanStream_append]
    apply account.aligned.append_samples
    rw [length_cleanStream]
    exact running.blocked.count ▸
      partLen_mul_blocksAfter_le session.frames.length
  obtain ⟨middle, isMiddle, middleAligned⟩ :=
    blocked.exists_processBlocks_noisy
      (by
        rw [isCount, length_farStream, List.length_append]
        exact enough)
      (by
        rw [isCount, length_noisyStream, List.length_append]
        exact enough)
      (by
        rw [isCount]
        exact OutputFrames.mul_le_outPosition _)
      grown
  rw [noClean, Option.isSome_none, isMiddle] at isProcessed
  obtain ⟨next, isNext, nextRunning, frames, nextBlock, -⟩ :=
    running.processFrame isProcessed
  refine ⟨next, isNext, nextRunning, ?_, frames⟩
  constructor
  case aligned =>
      rw [handed, nextBlock, frames]
      exact middleAligned
  case supplied =>
      intro allClean
      have last := allClean frame (by rw [frames]; simp)
      rw [noClean] at last
      cases last

/-- So is one with a clean near end, if every frame before it had one. -/
theorem CleanAccount.processFrame_clean
    {clean : Samples frameLen}
    (account : session.CleanAccount)
    (running : session.Running)
    (isClean : frame.clean = some clean)
    (allClean : ∀ earlier ∈ session.frames, earlier.clean.isSome) :
    ∃ next : Session core,
      session.processFrame frame = some next ∧
        next.Running ∧
          next.CleanAccount ∧ next.frames = session.frames ++ [frame] := by
  obtain ⟨count, buffered, isCount, blocked, sameBlock, sameRing,
    isProcessed⟩ :=
    running.upToOutput frame
  obtain ⟨stream, isStream, inStep⟩ := account.supplied allClean
  have enough := partLen_mul_blocksAfter_le (session.frames.length + 1)
  have short := lt_partLen_mul_blocksAfter session.frames.length
  have whole := partLen_mul_blocksAfter_le session.frames.length
  have streamLength :
      stream.length = frameLen * session.frames.length := by
    rw [← length_cleanStream, isStream, List.length_map]
  have grownStream :
      cleanStream (session.frames ++ [frame]) =
        (stream ++ clean.1).map some := by
    rw [cleanStream_append, isStream, List.map_append,
      Frame.cleanSamples, isClean]
  have grown :
      CleanInStep (stream ++ clean.1)
        (blocksAfter session.frames.length) buffered := by
    rw [Nat.mul_succ] at short
    have sizes : frameBufLen = 144 ∧ partLen = 64 ∧ frameLen = 80 :=
      ⟨rfl, rfl, rfl⟩
    constructor
    case ring =>
        rw [sameRing, isClean, inRing_append]
        apply inStep.ring.writeBuffer
        rw [length_inRing, clean.2]
        omega
    case old =>
        rw [sameBlock, padded_append,
          window_append (by rw [length_padded]; omega)]
        exact inStep.old
    case aligned =>
        rw [sameBlock, List.map_append]
        apply inStep.aligned.append_samples
        rw [List.length_map, streamLength]
        exact running.blocked.count ▸ whole
  obtain ⟨middle, isMiddle, middleInStep⟩ :=
    blocked.exists_processBlocks_clean
      (by
        rw [isCount, length_farStream, List.length_append]
        exact enough)
      (by
        rw [isCount, length_noisyStream, List.length_append]
        exact enough)
      (by
        rw [isCount, List.length_append, streamLength, clean.2,
          ← Nat.mul_succ]
        exact enough)
      (by
        rw [isCount]
        exact OutputFrames.mul_le_outPosition _)
      grown
  rw [isClean, Option.isSome_some, isMiddle] at isProcessed
  rw [isCount] at middleInStep
  obtain ⟨next, isNext, nextRunning, frames, nextBlock, nextRing⟩ :=
    running.processFrame isProcessed
  refine ⟨next, isNext, nextRunning, ?_, frames⟩
  constructor
  case aligned =>
      rw [handed, nextBlock, frames, grownStream]
      exact middleInStep.aligned
  case supplied =>
      intro _
      rw [frames, grownStream, List.length_append]
      exact ⟨_, rfl,
        { ring := nextRing ▸ middleInStep.ring
          old := nextBlock ▸ middleInStep.old
          aligned := nextBlock ▸ middleInStep.aligned }⟩

/-- Frames among which the clean near end never comes back are all answered. -/
theorem CleanAccount.foldlM
    {frames : List Frame}
    (account : session.CleanAccount)
    (running : session.Running)
    (ordered :
      (session.frames ++ frames).Pairwise fun frame next =>
        next.clean.isSome → frame.clean.isSome) :
    ∃ final : Session core,
      frames.foldlM processFrame session = some final ∧
        final.Running ∧
          final.CleanAccount ∧
            final.frames = session.frames ++ frames := by
  induction frames generalizing session with
  | nil =>
      exact ⟨session, rfl, running, account, by simp⟩
  | cons frame rest inductionHypothesis =>
      obtain ⟨next, isNext, nextRunning, nextAccount, nextFrames⟩ :
          ∃ next : Session core,
            session.processFrame frame = some next ∧
              next.Running ∧
                next.CleanAccount ∧
                  next.frames = session.frames ++ [frame] := by
        cases isClean : frame.clean with
        | none =>
            exact account.processFrame_noisy running isClean
        | some clean =>
            apply account.processFrame_clean running isClean
            intro earlier member
            apply (List.pairwise_append.mp ordered).2.2 earlier member
              frame (List.mem_cons_self ..)
            rw [isClean, Option.isSome_some]
      have shape :
          session.frames ++ frame :: rest = next.frames ++ rest := by
        rw [nextFrames, List.append_assoc]
        rfl
      rw [shape] at ordered ⊢
      obtain ⟨final, isFinal, finalAll⟩ :=
        inductionHypothesis nextAccount nextRunning ordered
      refine ⟨final, ?_, finalAll⟩
      rw [List.foldlM_cons, isNext]
      exact isFinal

/--
In every run of frames with and without a clean near end, each block is handed windows
of the far, the noisy and the clean near end over the same samples, if and only if the
clean near end never comes back after a frame without it.
-/
theorem run_windowsAligned_iff_neverResumes
    (memory : AecMobile core.blockProcessor)
    (samplingFreq : Int)
    (frames : List Frame) :
    (∃ final : Session core,
        run memory samplingFreq frames = some final ∧
          final.WindowsAligned) ↔
      NeverResumes frames := by
  constructor
  · rintro ⟨final, processed, aligned⟩
    obtain ⟨running, sameFrames⟩ := running_of_run processed
    rw [← sameFrames]
    exact neverResumes_of_windowsAligned running aligned
  · intro never
    have transitive :
        Trans (fun frame next : Frame =>
            next.clean.isSome → frame.clean.isSome)
          (fun frame next : Frame =>
            next.clean.isSome → frame.clean.isSome)
          (fun frame next : Frame =>
            next.clean.isSome → frame.clean.isSome) :=
      ⟨fun first second isSome => first (second isSome)⟩
    have ordered := List.isChain_iff_pairwise.mp never
    obtain ⟨session, isStart, running, noFrames, old, ring⟩ :=
      exists_start memory samplingFreq
    have noBlocks : blocksAfter 0 = 0 := by
      decide
    have noHanded : session.handed = [] := by
      apply List.eq_nil_of_length_eq_zero
      rw [handed, running.blocked.count, noFrames]
      exact noBlocks
    have account : session.CleanAccount := by
      constructor
      case aligned =>
          intro index block clean isBlock
          rw [noHanded] at isBlock
          cases isBlock
      case supplied =>
          intro _
          rw [noFrames, List.length_nil, noBlocks]
          refine ⟨[], rfl, ring, ?_, ?_⟩
          · rw [old]
            simp [Samples.zeros, window, padded]
          · intro index block clean isBlock
            change session.handed[index]? = some block at isBlock
            rw [noHanded] at isBlock
            cases isBlock
    rw [← List.nil_append frames, ← noFrames] at ordered
    obtain ⟨final, isFinal, finalRunning, finalAccount, sameFrames⟩ :=
      account.foldlM running ordered
    refine ⟨final, by rw [run, isStart]; exact isFinal, ?_⟩
    intro index block isBlock
    obtain ⟨far, noisy⟩ :=
      finalRunning.blocked.windows index block isBlock
    exact ⟨far, noisy, fun clean => finalAccount.aligned index block clean
      isBlock⟩

end Session

/-- Spectral work that answers silence. -/
def silentCore : SpectralCore where
  State := Unit
  init _ := ()
  setCngMode _ _ := ()
  setEchoMode _ _ := ()
  process _ _ _ _ := ((), Samples.zeros partLen)

/-- Memory full of zeros. -/
def silentMemory : AecMobile silentCore.blockProcessor where
  sampFreq := 0
  bufSizeStart := 0
  knownDelay := 0
  farendOld := (Samples.zeros frameLen, Samples.zeros frameLen)
  initFlag := 0
  counter := 0
  sum := 0
  firstVal := 0
  checkBufSizeCtr := 0
  msInSndCardBuf := 0
  filtDelay := 0
  timeForDelayChange := 0
  ecStartup := false
  checkBuffSize := false
  delayChange := false
  lastDelayDiff := 0
  echoMode := 0
  farendBuf := ⟨0, 0, 0, .sameWrap, []⟩
  aecmCore := {
    farBufWritePos := 0
    farBufReadPos := 0
    knownDelay := 0
    lastKnownDelay := 0
    farFrameBuf := ⟨0, 0, 0, .sameWrap, []⟩
    nearNoisyFrameBuf := ⟨0, 0, 0, .sameWrap, []⟩
    nearCleanFrameBuf := ⟨0, 0, 0, .sameWrap, []⟩
    outFrameBuf := ⟨0, 0, 0, .sameWrap, []⟩
    farBuf := Samples.zeros farBufLen
    mult := 0
    block := silentCore.blockProcessor.init 0
  }

/-- A frame of samples that count up. -/
def countUp (first : Nat) : Samples frameLen :=
  ⟨(List.range frameLen).map fun index => Int16.ofNat (first + index),
    by simp⟩

/-- Noise suppression is switched on after the first frame, and leaves the near end as
it is. -/
def switchedOn : List Frame :=
  [⟨countUp 0, countUp 0, none⟩, ⟨countUp 80, countUp 80, some (countUp 80)⟩]

/-- The first new sample of the noisy and of the clean near end of a block. -/
def Handed.firstSamples (block : Handed) : Option Short × Option Short :=
  (block.noisy.1[partLen]?,
    block.clean.bind fun clean : Samples partLen2 => clean.1[partLen]?)

/-- The second block is handed the near end from sample 64 on, and as its clean version
the samples from 80 on. -/
theorem run_switchedOn_not_aligned :
    (∃ final,
        Session.run silentMemory 16000 switchedOn = some final ∧
          final.handed[1]?.map Handed.firstSamples =
            some (some 64, some 80)) ∧
      ¬ ∃ final,
        Session.run silentMemory 16000 switchedOn = some final ∧
          final.WindowsAligned := by
  have handed :
      ((Session.run silentMemory 16000 switchedOn).bind fun final =>
        final.handed[1]?.map Handed.firstSamples) =
        some (some 64, some 80) := by
    decide +kernel
  constructor
  · obtain ⟨final, isFinal, isHanded⟩ := Option.bind_eq_some_iff.mp handed
    exact ⟨final, isFinal, isHanded⟩
  · rintro ⟨final, isFinal, aligned⟩
    obtain ⟨running, sameFrames⟩ := Session.running_of_run isFinal
    have never := neverResumes_of_windowsAligned running aligned
    rw [sameFrames] at never
    have resumes : ¬ NeverResumes switchedOn := by
      simp [NeverResumes, switchedOn]
    exact resumes never

end ApmSdk.Aecm
