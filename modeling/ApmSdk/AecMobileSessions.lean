import ApmSdk.AecMobileFrames

namespace ApmSdk.Aecm

/-!
# What the blocks of a run are made of

After any number of frames, the blocks that have been processed are the streams of
the far and of the noisy near end cut up, each in a time buffer behind the one before
it.
-/

/-- What lies behind a block in a padded stream is the block at the same position of
the stream. -/
theorem window_padded
    (stream : List Short)
    (position : Nat) :
    window (padded stream) (position + partLen) partLen =
      window stream position partLen := by
  unfold padded
  rw [window_leading _ (by rw [List.length_replicate]; omega),
    List.length_replicate, Nat.add_sub_cancel]

/-- A block joined to the one before it. -/
theorem join_windows
    {stream : List Short}
    {blocks : Nat}
    {old new : Samples partLen}
    (isOld : old.1 = window (padded stream) (partLen * blocks) partLen)
    (isNew : new.1 = window stream (partLen * blocks) partLen) :
    (old.join new).1 =
        window (padded stream) (partLen * blocks) partLen2 ∧
      new.1 = window (padded stream) (partLen * (blocks + 1)) partLen := by
  have whole :
      window (padded stream) (partLen * blocks) (partLen + partLen) =
        window (padded stream) (partLen * blocks) partLen ++
          window (padded stream) (partLen * blocks + partLen) partLen :=
    window_split partLen partLen
  rw [window_padded] at whole
  refine ⟨?_, ?_⟩
  · change old.1 ++ new.1 = _
    rw [isOld, isNew]
    exact whole.symm
  · rw [Nat.mul_succ, window_padded, isNew]

/-- A core that has processed `blocks` blocks of these streams, with its output ring
read up to a position. -/
structure Blocked
    {core : SpectralCore}
    (far noisy : List Short)
    (position blocks : Nat)
    (aecm : AecmCore core.blockProcessor) : Prop where
  inStep : aecm.InStep
  farRing :
    RingBuffer.Carries frameBufLen aecm.farFrameBuf (inRing far)
      (frameBufLen + partLen * blocks)
  noisyRing :
    RingBuffer.Carries frameBufLen aecm.nearNoisyFrameBuf (inRing noisy)
      (frameBufLen + partLen * blocks)
  outRing :
    RingBuffer.Carries frameBufLen aecm.outFrameBuf
      (inRing (outStream aecm.block.handed)) position
  count : aecm.block.handed.length = blocks
  farOld :
    aecm.block.xBuf.1 = window (padded far) (partLen * blocks) partLen
  noisyOld :
    aecm.block.dBufNoisy.1 =
      window (padded noisy) (partLen * blocks) partLen
  windows :
    ∀ index block,
      aecm.block.handed[index]? = some block →
        block.far.1 =
            window (padded far) (partLen * index) partLen2 ∧
          block.noisy.1 =
            window (padded noisy) (partLen * index) partLen2

namespace Blocked

variable {core : SpectralCore}
variable {far noisy : List Short}
variable {position blocks : Nat}
variable {aecm : AecmCore core.blockProcessor}

/-- One more block: it is put on record with its windows, and written to the output
ring. -/
theorem processOneBlock
    {hasClean : Bool}
    {cleanBuf : RingBuffer Short}
    {clean : Option (Samples partLen)}
    (blocked : Blocked far noisy position blocks aecm)
    (enoughFar : partLen * (blocks + 1) ≤ far.length)
    (enoughNoisy : partLen * (blocks + 1) ≤ noisy.length)
    (room : partLen * (blocks + 1) ≤ position)
    (readClean :
      AecmCore.readClean hasClean aecm.nearCleanFrameBuf =
        some (cleanBuf, clean)) :
    ∃ (next : AecmCore core.blockProcessor) (block : Handed),
      aecm.processOneBlock hasClean = some (next, true) ∧
        Blocked far noisy position (blocks + 1) next ∧
          next.block.handed = aecm.block.handed ++ [block] ∧
            block.clean = clean.map aecm.block.dBufClean.join ∧
              next.block.dBufClean = clean.getD aecm.block.dBufClean ∧
                next.nearCleanFrameBuf = cleanBuf := by
  obtain ⟨farBuf, farBlock, readFar, isFar, farCarries⟩ :=
    AecmCore.readBlock_carries blocked.farRing enoughFar
  obtain ⟨noisyBuf, noisyBlock, readNoisy, isNoisy, noisyCarries⟩ :=
    AecmCore.readBlock_carries blocked.noisyRing enoughNoisy
  obtain ⟨farWindow, farOld⟩ := join_windows blocked.farOld isFar
  obtain ⟨noisyWindow, noisyOld⟩ := join_windows blocked.noisyOld isNoisy
  let block : Handed :=
    { far := aecm.block.xBuf.join farBlock
      noisy := aecm.block.dBufNoisy.join noisyBlock
      clean := clean.map aecm.block.dBufClean.join
      out :=
        (core.process aecm.block.spectral
          (aecm.block.xBuf.join farBlock)
          (aecm.block.dBufNoisy.join noisyBlock)
          (clean.map aecm.block.dBufClean.join)).2 }
  have fits :
      (inRing (outStream aecm.block.handed)).length +
          block.out.1.length ≤ position + frameBufLen := by
    rw [length_inRing, length_outStream, blocked.count, block.out.2]
    rw [Nat.mul_succ] at room
    omega
  have written := blocked.outRing.writeBuffer fits
  let next : AecmCore core.blockProcessor :=
    { aecm with
      farFrameBuf := farBuf
      nearNoisyFrameBuf := noisyBuf
      nearCleanFrameBuf := cleanBuf
      outFrameBuf := (aecm.outFrameBuf.writeBuffer block.out.1).1
      block :=
        (core.processBlock aecm.block farBlock noisyBlock clean).1 }
  refine ⟨next, block, ?_, ?_, rfl, rfl, rfl, rfl⟩
  · unfold AecmCore.processOneBlock
    rw [readFar, readNoisy, readClean]
    rfl
  · constructor
    case inStep => exact ⟨blocked.inStep.knownDelay,
      blocked.inStep.lastKnownDelay, blocked.inStep.samePosition,
      blocked.inStep.inRange⟩
    case farRing => exact farCarries
    case noisyRing => exact noisyCarries
    case outRing =>
        have stream :
            inRing (outStream (aecm.block.handed ++ [block])) =
              inRing (outStream aecm.block.handed) ++ block.out.1 := by
          rw [← inRing_append]
          simp [outStream]
        exact stream ▸ written
    case count =>
        exact List.length_append.trans
          (congrArg (· + 1) blocked.count)
    case farOld => exact farOld
    case noisyOld => exact noisyOld
    case windows =>
        intro index taken isTaken
        change (aecm.block.handed ++ [block])[index]? = some taken
          at isTaken
        rcases Nat.lt_trichotomy index blocks with before | rfl | behind
        · rw [List.getElem?_append_left (blocked.count ▸ before)]
            at isTaken
          exact blocked.windows index taken isTaken
        · rw [← blocked.count, List.getElem?_concat_length] at isTaken
          obtain rfl := Option.some.inj isTaken
          exact ⟨farWindow, noisyWindow⟩
        · rw [List.getElem?_eq_none] at isTaken
          · cases isTaken
          · rw [List.length_append, blocked.count]
            exact behind

/-- The blocks of a frame have a clean near end if the frame has. -/
theorem isSome_of_readClean
    {hasClean : Bool}
    {buffer target : RingBuffer Short}
    {clean : Option (Samples partLen)}
    (read : AecmCore.readClean hasClean buffer = some (target, clean)) :
    clean.isSome = hasClean := by
  unfold AecmCore.readClean at read
  split at read
  next isTrue =>
      obtain ⟨taken, -, same⟩ := Option.map_eq_some_iff.mp read
      obtain ⟨-, rfl⟩ := Prod.mk.inj same
      exact isTrue.symm
  next isFalse =>
      obtain ⟨-, rfl⟩ := Prod.mk.inj (Option.some.inj read)
      exact (Bool.eq_false_iff.mpr isFalse).symm

/-- A block that has been processed has found its clean part. -/
theorem exists_readClean
    {hasClean : Bool}
    {result : AecmCore core.blockProcessor × Bool}
    (processed : aecm.processOneBlock hasClean = some result) :
    ∃ read,
      AecmCore.readClean hasClean aecm.nearCleanFrameBuf = some read := by
  simp only [AecmCore.processOneBlock, Option.bind_eq_bind,
    Option.bind_eq_some_iff] at processed
  obtain ⟨-, -, -, -, read, isRead, -⟩ := processed
  exact ⟨read, isRead⟩

/-- The blocks of a frame, where they can be processed. -/
theorem processBlocks
    {hasClean : Bool}
    {count : Nat}
    {next : AecmCore core.blockProcessor}
    {succeeded : Bool}
    (blocked : Blocked far noisy position blocks aecm)
    (enoughFar : partLen * (blocks + count) ≤ far.length)
    (enoughNoisy : partLen * (blocks + count) ≤ noisy.length)
    (room : partLen * (blocks + count) ≤ position)
    (processed :
      AecmCore.processBlocks hasClean count aecm =
        some (next, succeeded)) :
    succeeded = true ∧
      Blocked far noisy position (blocks + count) next ∧
        ∃ more,
          next.block.handed = aecm.block.handed ++ more ∧
            ∀ block ∈ more, block.clean.isSome = hasClean := by
  induction count generalizing blocks aecm with
  | zero =>
      obtain ⟨rfl, rfl⟩ := Prod.mk.inj (Option.some.inj processed)
      exact ⟨rfl, blocked, [], by simp, by simp⟩
  | succ count inductionHypothesis =>
      simp only [AecmCore.processBlocks, Option.bind_eq_bind,
        Option.bind_eq_some_iff] at processed
      obtain ⟨⟨middle, flag⟩, isMiddle, rest⟩ := processed
      obtain ⟨⟨cleanBuf, clean⟩, readClean⟩ := exists_readClean isMiddle
      have bound : partLen * (blocks + 1) ≤ partLen * (blocks + (count + 1)) :=
        Nat.mul_le_mul_left _ (by omega)
      obtain ⟨stepped, block, isStepped, steppedBlocked, handed, isClean,
          -, -⟩ :=
        blocked.processOneBlock (Nat.le_trans bound enoughFar)
          (Nat.le_trans bound enoughNoisy) (Nat.le_trans bound room)
          readClean
      obtain ⟨rfl, rfl⟩ :=
        Prod.mk.inj (Option.some.inj (isMiddle.symm.trans isStepped))
      have shift : blocks + (count + 1) = blocks + 1 + count := by
        omega
      rw [shift] at enoughFar enoughNoisy room ⊢
      obtain ⟨isTrue, nextBlocked, more, allHanded, flags⟩ :=
        inductionHypothesis steppedBlocked enoughFar enoughNoisy room
          rest
      refine ⟨isTrue, nextBlocked, block :: more, ?_, ?_⟩
      · rw [allHanded, handed, List.append_assoc]
        rfl
      · rw [List.forall_mem_cons]
        refine ⟨?_, flags⟩
        rw [isClean, Option.isSome_map]
        exact isSome_of_readClean readClean

/-- Buffering a frame appends it to the streams. -/
theorem bufferFrames
    (blocked : Blocked far noisy position blocks aecm)
    (sameLength : noisy.length = far.length)
    (short : far.length < partLen * (blocks + 1))
    (farBuf : Samples farBufLen)
    (frame : Frame) :
    Blocked (far ++ frame.farend.1) (noisy ++ frame.noisy.1) position blocks
      ((aecm.stepFar farBuf).bufferFrames frame.farend frame.noisy
        frame.clean) := by
  have inStream := blocked.farRing.bounds.1
  have consumed : partLen * blocks ≤ far.length := by
    rw [length_inRing] at inStream
    omega
  rw [Nat.mul_succ] at short
  have sizes :
      frameBufLen = 144 ∧ partLen = 64 ∧ frameLen = 80 ∧ partLen2 = 128 :=
    ⟨rfl, rfl, rfl, rfl⟩
  have fits :
      (inRing far).length + frame.farend.1.length ≤
        frameBufLen + partLen * blocks + frameBufLen := by
    rw [length_inRing, frame.farend.2]
    omega
  have fitsNoisy :
      (inRing noisy).length + frame.noisy.1.length ≤
        frameBufLen + partLen * blocks + frameBufLen := by
    rw [length_inRing, frame.noisy.2]
    omega
  have stepped := AecmCore.inStep_stepFar blocked.inStep farBuf
  constructor
  case inStep => exact ⟨stepped.knownDelay, stepped.lastKnownDelay,
    stepped.samePosition, stepped.inRange⟩
  case farRing =>
      rw [inRing_append]
      exact blocked.farRing.writeBuffer fits
  case noisyRing =>
      rw [inRing_append]
      exact blocked.noisyRing.writeBuffer fitsNoisy
  case outRing => exact blocked.outRing
  case count => exact blocked.count
  case farOld =>
      rw [padded_append, window_append (by rw [length_padded]; omega)]
      exact blocked.farOld
  case noisyOld =>
      rw [padded_append, window_append (by rw [length_padded]; omega)]
      exact blocked.noisyOld
  case windows =>
      intro index block isBlock
      have before : index + 1 ≤ blocks := by
        rw [← blocked.count]
        exact (List.getElem?_eq_some_iff.mp isBlock).1
      have inside : partLen * (index + 1) ≤ partLen * blocks :=
        Nat.mul_le_mul_left _ before
      rw [Nat.mul_succ] at inside
      rw [padded_append, padded_append,
        window_append (by rw [length_padded]; omega),
        window_append (by rw [length_padded]; omega)]
      exact blocked.windows index block isBlock

/-- The frame that comes out behind the blocks. -/
theorem finishFrame
    (blocked : Blocked far noisy position blocks aecm) :
    ∃ (next : AecmCore core.blockProcessor) (out : Samples frameLen),
      aecm.finishFrame true = some (next, some out) ∧
        Blocked far noisy
            (min position (frameBufLen + partLen * blocks - frameLen) +
              frameLen)
            blocks next ∧
          out.1 =
              window (inRing (outStream aecm.block.handed))
                (min position (frameBufLen + partLen * blocks - frameLen))
                frameLen ∧
            next.block = aecm.block ∧
              next.nearCleanFrameBuf = aecm.nearCleanFrameBuf := by
  obtain ⟨target, out, read, isOut, carries⟩ :=
    AecmCore.readOutput_carries blocked.outRing
  rw [length_inRing, length_outStream, blocked.count] at isOut carries
  refine ⟨{ aecm with outFrameBuf := target }, out, ?_, ?_, isOut, rfl,
    rfl⟩
  · unfold AecmCore.finishFrame
    rw [if_pos rfl, read]
    rfl
  · exact
      { inStep := ⟨blocked.inStep.knownDelay,
          blocked.inStep.lastKnownDelay, blocked.inStep.samePosition,
          blocked.inStep.inRange⟩
        farRing := blocked.farRing
        noisyRing := blocked.noisyRing
        outRing := carries
        count := blocked.count
        farOld := blocked.farOld
        noisyOld := blocked.noisyOld
        windows := blocked.windows }

end Blocked

/-- The blocks that are whole after so many frames. -/
abbrev blocksAfter (frames : Nat) : Nat :=
  OutputFrames.blocksAfter frames

/-- How far the output ring has been read after so many frames. -/
abbrev outPosition (frames : Nat) : Nat :=
  OutputFrames.outPosition frames

theorem partLen_mul_blocksAfter_le (frames : Nat) :
    partLen * blocksAfter frames ≤ frameLen * frames :=
  OutputFrames.mul_blocksAfter_le frames

theorem lt_partLen_mul_blocksAfter (frames : Nat) :
    frameLen * frames < partLen * (blocksAfter frames + 1) :=
  OutputFrames.lt_mul_blocksAfter frames

/-- The blocks that a frame makes whole. -/
theorem blocksAfter_succ (frames : Nat) :
    blocksAfter frames +
        (frameBufLen + frameLen * (frames + 1) -
          (frameBufLen + partLen * blocksAfter frames)) / partLen =
      blocksAfter (frames + 1) := by
  rw [Nat.add_sub_add_left]
  exact OutputFrames.blocksAfter_succ frames

namespace Session

variable {core : SpectralCore}

/-- A session after any number of frames. -/
structure Running (session : Session core) : Prop where
  blocked :
    Blocked (farStream session.frames) (noisyStream session.frames)
      (outPosition session.frames.length)
      (blocksAfter session.frames.length) session.aecm
  flags :
    ∀ index frame,
      session.frames[index]? = some frame →
        ∀ number,
          blocksAfter index ≤ number →
            number < blocksAfter (index + 1) →
              ∃ block,
                session.handed[number]? = some block ∧
                  block.clean.isSome = frame.clean.isSome
  outputCount : session.outputs.length = session.frames.length
  played :
    OutputFrames.Played 0 (session.handed.map fun block => block.out.1)
      (session.outputs.map fun out => out.1) session.stuffed

/-- A frame is buffered, its blocks are processed, and the output frame is read. -/
theorem Running.upToOutput
    {session : Session core}
    (running : session.Running)
    (frame : Frame) :
    ∃ (count : Nat) (buffered : AecmCore core.blockProcessor),
      blocksAfter session.frames.length + count =
          blocksAfter (session.frames.length + 1) ∧
        Blocked (farStream (session.frames ++ [frame]))
            (noisyStream (session.frames ++ [frame]))
            (outPosition session.frames.length)
            (blocksAfter session.frames.length) buffered ∧
          buffered.block = session.aecm.block ∧
            buffered.nearCleanFrameBuf =
                (match frame.clean with
                | some clean =>
                    (session.aecm.nearCleanFrameBuf.writeBuffer
                      clean.1).1
                | none => session.aecm.nearCleanFrameBuf) ∧
              session.aecm.upToOutput frame =
                AecmCore.processBlocks frame.clean.isSome count
                  buffered := by
  obtain ⟨first, farBuf, isBuffered, isFetched⟩ :=
    AecmCore.fetch_buffered running.blocked.inStep frame.farend
  have short :
      (farStream session.frames).length <
        partLen * (blocksAfter session.frames.length + 1) := by
    rw [length_farStream]
    exact lt_partLen_mul_blocksAfter _
  have sameLength :
      (noisyStream session.frames).length =
        (farStream session.frames).length := by
    rw [length_noisyStream, length_farStream]
  have buffered :=
    running.blocked.bufferFrames sameLength short farBuf frame
  rw [← farStream_append, ← noisyStream_append] at buffered
  have available := buffered.farRing.availableRead_eq
  rw [length_inRing, length_farStream, List.length_append,
    List.length_singleton] at available
  refine ⟨_, _, blocksAfter_succ session.frames.length, buffered, rfl,
    rfl, ?_⟩
  unfold AecmCore.upToOutput
  rw [isBuffered, Option.bind_eq_bind, Option.bind_some, isFetched,
    Option.bind_eq_bind, Option.bind_some]
  dsimp only
  rw [available]

/-- The record of the blocks, with those of one more frame. -/
theorem flags_append
    {frames : List Frame}
    {handed more : List Handed}
    {frame : Frame}
    (flags :
      ∀ index frame,
        frames[index]? = some frame →
          ∀ number,
            blocksAfter index ≤ number →
              number < blocksAfter (index + 1) →
                ∃ block,
                  handed[number]? = some block ∧
                    block.clean.isSome = frame.clean.isSome)
    (count : handed.length = blocksAfter frames.length)
    (moreCount :
      (handed ++ more).length = blocksAfter (frames.length + 1))
    (moreFlags : ∀ block ∈ more, block.clean.isSome = frame.clean.isSome)
    (index : Nat)
    (taken : Frame)
    (isTaken : (frames ++ [frame])[index]? = some taken)
    (number : Nat)
    (first : blocksAfter index ≤ number)
    (last : number < blocksAfter (index + 1)) :
    ∃ block,
      (handed ++ more)[number]? = some block ∧
        block.clean.isSome = taken.clean.isSome := by
  by_cases before : index < frames.length
  · rw [List.getElem?_append_left before] at isTaken
    obtain ⟨block, isBlock, sameFlag⟩ :=
      flags index taken isTaken number first last
    have inHanded := (List.getElem?_eq_some_iff.mp isBlock).1
    exact ⟨block, by rw [List.getElem?_append_left inHanded, isBlock],
      sameFlag⟩
  · have bound := (List.getElem?_eq_some_iff.mp isTaken).1
    rw [List.length_append, List.length_singleton] at bound
    obtain rfl : index = frames.length := by
      omega
    rw [List.getElem?_concat_length] at isTaken
    obtain rfl := Option.some.inj isTaken
    rw [List.length_append] at moreCount
    have inMore : number - handed.length < more.length := by
      omega
    refine ⟨more[number - handed.length], ?_,
      moreFlags _ (List.getElem_mem inMore)⟩
    rw [List.getElem?_append_right (by omega),
      List.getElem?_eq_getElem inMore]

/-- A frame whose blocks can be processed is answered. -/
theorem Running.processFrame
    {session : Session core}
    {frame : Frame}
    {middle : AecmCore core.blockProcessor}
    {succeeded : Bool}
    (running : session.Running)
    (processed :
      session.aecm.upToOutput frame = some (middle, succeeded)) :
    ∃ next : Session core,
      session.processFrame frame = some next ∧
        next.Running ∧
          next.frames = session.frames ++ [frame] ∧
            next.aecm.block = middle.block ∧
              next.aecm.nearCleanFrameBuf =
                middle.nearCleanFrameBuf := by
  obtain ⟨count, buffered, isCount, bufferedBlocked, sameBlock, -,
    isProcessed⟩ :=
    running.upToOutput frame
  rw [processed, eq_comm] at isProcessed
  have enough :=
    partLen_mul_blocksAfter_le (session.frames.length + 1)
  obtain ⟨rfl, middleBlocked, more, handed, moreFlags⟩ :=
    bufferedBlocked.processBlocks
      (by
        rw [isCount, length_farStream, List.length_append]
        exact enough)
      (by
        rw [isCount, length_noisyStream, List.length_append]
        exact enough)
      (by
        rw [isCount]
        exact OutputFrames.mul_le_outPosition _)
      isProcessed
  rw [isCount] at middleBlocked
  rw [sameBlock] at handed
  obtain ⟨finished, out, isFinished, finishedBlocked, isOut, finishedBlock,
    finishedClean⟩ :=
    middleBlocked.finishFrame
  have start :
      min (outPosition session.frames.length)
            (frameBufLen + partLen * blocksAfter (session.frames.length + 1) -
              frameLen) +
          frameLen =
        outPosition (session.frames.length + 1) :=
    OutputFrames.outPosition_succ session.frames.length
  rw [start] at finishedBlocked
  have available := middleBlocked.outRing.availableRead_eq
  rw [length_inRing, length_outStream, middleBlocked.count] at available
  let next : Session core :=
    { aecm := finished
      frames := session.frames ++ [frame]
      outputs := session.outputs ++ [out]
      stuffed :=
        session.stuffed ++
          [frameLen - middle.outFrameBuf.availableRead] }
  have nextHanded : next.handed = session.handed ++ more := by
    change finished.block.handed = _
    rw [finishedBlock]
    exact handed
  have sameCount := running.blocked.count
  refine ⟨next, ?_, ?_, rfl, finishedBlock, finishedClean⟩
  · have answered :
        session.aecm.processFrame frame.farend frame.noisy frame.clean =
          some (finished, some out) := by
      rw [AecmCore.processFrame_eq, processed, Option.bind_some]
      exact isFinished
    have missing :
        session.aecm.missingOutput frame =
          some (frameLen - middle.outFrameBuf.availableRead) := by
      rw [AecmCore.missingOutput, processed]
      rfl
    unfold Session.processFrame
    rw [answered, missing]
    rfl
  constructor
  case blocked =>
      rw [List.length_append]
      exact finishedBlocked
  case flags =>
      intro index taken isTaken
      rw [nextHanded]
      apply flags_append running.flags sameCount _ moreFlags index taken
        isTaken
      exact (congrArg List.length handed.symm).trans middleBlocked.count
  case outputCount =>
      simp only [next, List.length_append, running.outputCount,
        List.length_singleton]
  case played =>
      have outputCount :
          (session.outputs.map fun out => out.1).length =
            session.frames.length := by
        rw [List.length_map, running.outputCount]
      have allBlocks :
          (middle.block.handed.map fun block => block.out.1) =
            (session.handed.map fun block => block.out.1) ++
              more.map fun block => block.out.1 := by
        rw [handed, List.map_append]
        rfl
      rw [nextHanded, List.map_append, List.map_append]
      apply running.played.append
      · intro block member
        obtain ⟨taken, -, rfl⟩ := List.mem_map.mp member
        exact taken.out.2
      · rw [← allBlocks, List.length_map, middleBlocked.count,
          outputCount]
      · rw [← allBlocks, outputCount, ← List.flatMap_def]
        exact isOut
      · rw [available, outputCount]

/-- A frame that is answered keeps the account. -/
theorem Running.of_processFrame
    {session next : Session core}
    {frame : Frame}
    (running : session.Running)
    (processed : session.processFrame frame = some next) :
    next.Running ∧ next.frames = session.frames ++ [frame] := by
  have blocked :
      ∃ middle succeeded,
        session.aecm.upToOutput frame = some (middle, succeeded) := by
    simp only [Session.processFrame, AecmCore.missingOutput,
      Option.bind_eq_bind, Option.bind_eq_some_iff,
      Option.map_eq_some_iff] at processed
    obtain ⟨-, -, -, -, -, ⟨⟨middle, succeeded⟩, isMiddle, -⟩, -⟩ :=
      processed
    exact ⟨middle, succeeded, isMiddle⟩
  obtain ⟨middle, succeeded, isMiddle⟩ := blocked
  obtain ⟨other, isOther, otherRunning, frames, -⟩ :=
    running.processFrame isMiddle
  obtain rfl := Option.some.inj (processed.symm.trans isOther)
  exact ⟨otherRunning, frames⟩

/-- So do any number of them. -/
theorem Running.of_foldlM
    {frames : List Frame}
    {session final : Session core}
    (running : session.Running)
    (processed : frames.foldlM Session.processFrame session = some final) :
    final.Running ∧ final.frames = session.frames ++ frames := by
  induction frames generalizing session with
  | nil =>
      obtain rfl : session = final := by
        simpa using processed
      exact ⟨running, by simp⟩
  | cons frame rest inductionHypothesis =>
      rw [List.foldlM_cons, Option.bind_eq_bind,
        Option.bind_eq_some_iff] at processed
      obtain ⟨middle, isMiddle, restProcessed⟩ := processed
      obtain ⟨middleRunning, middleFrames⟩ :=
        running.of_processFrame isMiddle
      obtain ⟨finalRunning, finalFrames⟩ :=
        inductionHypothesis middleRunning restProcessed
      refine ⟨finalRunning, ?_⟩
      rw [finalFrames, middleFrames, List.append_assoc]
      rfl

/-- A core can be created and initialised, and then nothing has been processed. -/
theorem exists_start
    (memory : AecMobile core.blockProcessor)
    (samplingFreq : Int) :
    ∃ session : Session core,
      start memory samplingFreq = some session ∧
        session.Running ∧
          session.frames = [] ∧
            session.aecm.block.dBufClean = Samples.zeros partLen ∧
              RingBuffer.Carries frameBufLen
                session.aecm.nearCleanFrameBuf (inRing []) frameBufLen := by
  obtain ⟨created, isCreated⟩ :
      ∃ created, AecMobile.create memory = some created :=
    ⟨_, rfl⟩
  have sizes := AecMobile.sizes_of_create isCreated
  simp only [AecMobile.sizes, AecmCore.bufferSizes, List.cons.injEq,
    and_true] at sizes
  obtain ⟨-, far, noisy, clean, out⟩ := sizes
  have fresh :
      ∀ buffer : RingBuffer Short,
        buffer.elementCount = frameBufLen →
          RingBuffer.Carries frameBufLen (buffer.initBuffer 0) (inRing [])
            frameBufLen := by
    intro buffer count
    rw [inRing, OutputFrames.inRing, List.append_nil]
    exact RingBuffer.carries_initBuffer 0 (by decide) count
  have zeros :
      (Samples.zeros partLen).1 = window (padded []) 0 partLen := by
    simp [Samples.zeros, window, padded]
  let session : Session core :=
    { aecm := created.aecmCore.initCore samplingFreq
      frames := []
      outputs := []
      stuffed := [] }
  have noBlocks : blocksAfter 0 = 0 := by
    decide
  refine ⟨session, by rw [start, isCreated]; rfl, ?_, rfl, rfl,
    fresh _ clean⟩
  constructor
  case blocked =>
      change Blocked [] [] frameBufLen (blocksAfter 0) session.aecm
      rw [noBlocks]
      exact
        { inStep := ⟨rfl, rfl, rfl, Nat.zero_le _⟩
          farRing := fresh _ far
          noisyRing := fresh _ noisy
          outRing := fresh _ out
          count := rfl
          farOld := zeros
          noisyOld := zeros
          windows := fun index block isBlock => by cases isBlock }
  case flags => exact fun index frame isFrame => by cases isFrame
  case outputCount => rfl
  case played => exact .nil

/-- Every run that is answered keeps the account. -/
theorem running_of_run
    {memory : AecMobile core.blockProcessor}
    {samplingFreq : Int}
    {frames : List Frame}
    {final : Session core}
    (processed : run memory samplingFreq frames = some final) :
    final.Running ∧ final.frames = frames := by
  obtain ⟨session, isStart, running, noFrames, -⟩ :=
    exists_start memory samplingFreq
  rw [run, isStart, Option.bind_some] at processed
  obtain ⟨finalRunning, finalFrames⟩ := running.of_foldlM processed
  refine ⟨finalRunning, ?_⟩
  rw [finalFrames, noFrames]
  rfl

end Session

end ApmSdk.Aecm
