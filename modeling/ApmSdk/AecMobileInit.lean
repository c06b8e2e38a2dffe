import ApmSdk.AecMobile
import ApmSdk.LabelledPath

namespace ApmSdk.Aecm

/-!
# What an initialisation of the mobile canceller leaves behind

Two instances that are initialised alike differ at most in the far-end history of
the core, in the reported delay, and in the second saved far-end frame: the 160
bytes that `WebRtcAecm_Init` clears are the first one.  The history of the core is
overwritten before it is read and the delay is reported before it is used, so only
the saved frame can reach the output.
-/

namespace AecmCore

variable {processor : BlockProcessor}

/-- A core with another far-end history and the positions and delays of `far`. -/
def withFar (aecm far : AecmCore processor) : AecmCore processor :=
  { aecm with
    farBufWritePos := far.farBufWritePos
    farBufReadPos := far.farBufReadPos
    knownDelay := far.knownDelay
    lastKnownDelay := far.lastKnownDelay
    farBuf := far.farBuf }

/-- A block is processed without a look at the far-end history. -/
theorem processOneBlock_withFar
    (hasClean : Bool)
    (aecm far : AecmCore processor) :
    (aecm.withFar far).processOneBlock hasClean =
      (aecm.processOneBlock hasClean).map fun result =>
        (result.1.withFar far, result.2) := by
  simp only [processOneBlock, withFar]
  rcases readBlock aecm.farFrameBuf with _ | farRead
  · rfl
  rcases readBlock aecm.nearNoisyFrameBuf with _ | noisyRead
  · rfl
  rcases readClean hasClean aecm.nearCleanFrameBuf with _ | cleanRead
  · rfl
  rfl

/-- Blocks are processed without a look at the far-end history. -/
theorem processBlocks_withFar
    (hasClean : Bool)
    (blocks : Nat)
    (aecm far : AecmCore processor) :
    processBlocks hasClean blocks (aecm.withFar far) =
      (processBlocks hasClean blocks aecm).map fun result =>
        (result.1.withFar far, result.2) := by
  induction blocks generalizing aecm with
  | zero =>
      rfl
  | succ blocks inductionHypothesis =>
      simp only [processBlocks, processOneBlock_withFar]
      rcases processOneBlock hasClean aecm with _ | ⟨next, succeeded⟩
      · rfl
      cases succeeded with
      | false =>
          rfl
      | true =>
          exact inductionHypothesis next

/-- An output frame is read without a look at the far-end history. -/
theorem finishFrame_withFar
    (aecm far : AecmCore processor)
    (processed : Bool) :
    (aecm.withFar far).finishFrame processed =
      (aecm.finishFrame processed).map fun result =>
        (result.1.withFar far, result.2) := by
  cases processed with
  | false =>
      rfl
  | true =>
      simp only [finishFrame, if_true, Option.map_map]
      rfl

/-- Nothing after the fetch of the far frame looks at the far-end history. -/
theorem processFetched_withFar
    (aecm far : AecmCore processor)
    (farFrame nearendNoisy : Samples frameLen)
    (nearendClean : Option (Samples frameLen)) :
    (aecm.withFar far).processFetched farFrame nearendNoisy nearendClean =
      (aecm.processFetched farFrame nearendNoisy nearendClean).map
        fun result => (result.1.withFar far, result.2) := by
  have buffered :
      (aecm.withFar far).bufferFrames farFrame nearendNoisy
          nearendClean =
        (aecm.bufferFrames farFrame nearendNoisy nearendClean).withFar
          far :=
    rfl
  simp only [processFetched, buffered, processBlocks_withFar,
    Option.bind_eq_bind, Option.map_bind, Option.bind_map]
  exact congrArg _ (funext fun result =>
    finishFrame_withFar result.1 far result.2)

/-- The far-end history of a core that has run since its initialisation: without a
known delay, reading goes on where writing does. -/
structure InStep (aecm : AecmCore processor) : Prop where
  knownDelay : aecm.knownDelay = 0
  lastKnownDelay : aecm.lastKnownDelay = 0
  samePosition : aecm.farBufReadPos = aecm.farBufWritePos
  inRange : aecm.farBufWritePos ≤ farBufLen

/-- Where the next frame ends in the far-end history. -/
def nextPos (position : Nat) : Nat :=
  if position + frameLen > farBufLen then
    frameLen - (farBufLen - position)
  else
    position + frameLen

/-- A core that has buffered and fetched a frame. -/
def stepFar
    (aecm : AecmCore processor)
    (farBuf : Samples farBufLen) : AecmCore processor :=
  { aecm with
    farBufWritePos := nextPos aecm.farBufWritePos
    farBufReadPos := nextPos aecm.farBufWritePos
    lastKnownDelay := aecm.knownDelay
    farBuf := farBuf }

/-- What has been copied to a position is what is read from there. -/
theorem take_drop_memcpy
    {destination source : List Short}
    {position : Nat}
    (inArray : position ≤ destination.length) :
    ((memcpy destination position source).drop position).take
        source.length = source := by
  have head : (destination.take position).length = position :=
    List.length_take_of_le inArray
  simp only [memcpy, List.append_assoc]
  rw [List.drop_append_of_le_length (Nat.le_of_eq head.symm),
    List.drop_eq_nil_of_le (Nat.le_of_eq head), List.nil_append,
    List.take_left]

/-- A copy to the start leaves alone what is behind it. -/
theorem drop_memcpy_zero
    {destination source : List Short}
    {position : Nat}
    (behind : source.length ≤ position) :
    (memcpy destination 0 source).drop position =
      destination.drop position := by
  obtain ⟨distance, rfl⟩ := Nat.exists_eq_add_of_le behind
  simp only [memcpy, List.take_zero, List.nil_append, Nat.zero_add]
  rw [← List.drop_drop, List.drop_left, List.drop_drop]

/-- Copying what fits does not fail. -/
theorem copyTo_of_le
    {size : Nat}
    (array : Samples size)
    {position : Nat}
    {source : List Short}
    (fits : position + source.length ≤ size) :
    ∃ copied : Samples size,
      array.copyTo position source = some copied ∧
        copied.1 = memcpy array.1 position source := by
  have fitsArray : position + source.length ≤ array.1.length := by
    rw [array.2]
    exact fits
  exact ⟨⟨_, _⟩, dif_pos fitsArray, rfl⟩

/-- An array of the right size can be filled. -/
theorem ofList?_of_eq
    {size : Nat}
    {samples : List Short}
    (array : Samples size)
    (same : samples = array.1) :
    Samples.ofList? size samples = some array := by
  subst same
  exact dif_pos array.2

/-- The fetched frame is the one that has just been buffered, without a wrap. -/
theorem fetch_buffered_straight
    {aecm : AecmCore processor}
    (inStep : InStep aecm)
    (farend : Samples frameLen)
    (straight : ¬ aecm.farBufWritePos + frameLen > farBufLen) :
    ∃ buffered farBuf,
      aecm.bufferFarFrame farend = some buffered ∧
        buffered.fetchFarFrame buffered.knownDelay =
          some (aecm.stepFar farBuf, farend) := by
  obtain ⟨knownDelay, lastKnownDelay, samePosition, inRange⟩ := inStep
  obtain ⟨copied, isCopied, values⟩ :=
    copyTo_of_le aecm.farBuf
      (show aecm.farBufWritePos + farend.1.length ≤ farBufLen by
        rw [farend.2]
        omega)
  have readPos :
      (((aecm.farBufReadPos : Int) - (aecm.knownDelay -
        aecm.lastKnownDelay)) % (farBufLen : Int)).toNat =
          aecm.farBufWritePos := by
    simp only [farBufLen, frameLen] at straight ⊢
    omega
  have seen :
      (copied.1.drop aecm.farBufWritePos).take frameLen = farend.1 := by
    have inArray : aecm.farBufWritePos ≤ aecm.farBuf.1.length := by
      rw [aecm.farBuf.2]
      exact inRange
    have same := @take_drop_memcpy _ farend.1 _ inArray
    rwa [farend.2, ← values] at same
  refine ⟨{ aecm with
      farBuf := copied
      farBufWritePos := aecm.farBufWritePos + frameLen },
    copied, ?_, ?_⟩
  · simp only [bufferFarFrame, if_neg straight, isCopied,
      Option.bind_eq_bind, Option.bind_some]
  · simp only [fetchFarFrame, readPos, if_neg straight,
      Option.bind_eq_bind, ofList?_of_eq farend seen, Option.bind_some,
      stepFar, nextPos]

/-- The fetched frame is the one that has just been buffered, across a wrap. -/
theorem fetch_buffered_wrapped
    {aecm : AecmCore processor}
    (inStep : InStep aecm)
    (farend : Samples frameLen)
    (wraps : aecm.farBufWritePos + frameLen > farBufLen) :
    ∃ buffered farBuf,
      aecm.bufferFarFrame farend = some buffered ∧
        buffered.fetchFarFrame buffered.knownDelay =
          some (aecm.stepFar farBuf, farend) := by
  obtain ⟨knownDelay, lastKnownDelay, samePosition, inRange⟩ := inStep
  have length := farend.2
  generalize shape : farBufLen - aecm.farBufWritePos = writeLen
  simp only [farBufLen, frameLen] at wraps inRange shape length
  have firstLength : (farend.1.take writeLen).length = writeLen :=
    List.length_take_of_le (by omega)
  have secondLength : (farend.1.drop writeLen).length = 80 - writeLen := by
    rw [List.length_drop, length]
  obtain ⟨first, isFirst, firstValues⟩ :=
    copyTo_of_le aecm.farBuf
      (show aecm.farBufWritePos + (farend.1.take writeLen).length ≤
          farBufLen by
        simp only [farBufLen]
        omega)
  obtain ⟨second, isSecond, secondValues⟩ :=
    copyTo_of_le first
      (show 0 + (farend.1.drop writeLen).length ≤ farBufLen by
        simp only [farBufLen]
        omega)
  have buffered :
      aecm.bufferFarFrame farend =
        some { aecm with
          farBuf := second
          farBufWritePos := 80 - writeLen } := by
    simp only [bufferFarFrame, farBufLen, frameLen, if_pos wraps, shape,
      isFirst, isSecond, Option.bind_eq_bind, Option.bind_some]
  have atEnd :
      (second.1.drop aecm.farBufWritePos).take writeLen =
        farend.1.take writeLen := by
    have inArray : aecm.farBufWritePos ≤ aecm.farBuf.1.length := by
      rw [aecm.farBuf.2]
      exact inRange
    have same :=
      @take_drop_memcpy _ (farend.1.take writeLen) _ inArray
    rw [secondValues, drop_memcpy_zero (by omega), firstValues]
    rwa [firstLength] at same
  have atStart :
      second.1.take (80 - writeLen) = farend.1.drop writeLen := by
    have same :=
      @take_drop_memcpy first.1 (farend.1.drop writeLen) 0
        (Nat.zero_le _)
    rwa [List.drop_zero, secondLength, ← secondValues] at same
  have readPos :
      (((aecm.farBufReadPos : Int) - (aecm.knownDelay -
        aecm.lastKnownDelay)) % ((256 : Nat) : Int)).toNat =
          aecm.farBufWritePos % 256 := by
    omega
  refine ⟨_, second, buffered, ?_⟩
  simp only [fetchFarFrame, farBufLen, frameLen, readPos, stepFar,
    nextPos, if_pos wraps, shape]
  by_cases atLimit : aecm.farBufWritePos = 256
  · -- Nothing fitted before the end: both positions start over.
    have noneFitted : writeLen = 0 := by omega
    subst noneFitted
    have seen : second.1.take 80 = farend.1 := atStart
    simp only [atLimit, Nat.mod_self, Nat.zero_add, Nat.reduceGT, if_false, List.drop_zero, seen, Nat.sub_zero,
      ofList?_of_eq farend rfl, Option.bind_eq_bind, Option.bind_some]
  · have inside : aecm.farBufWritePos % 256 = aecm.farBufWritePos :=
      Nat.mod_eq_of_lt (by omega)
    have joined :
        farend.1.take writeLen ++ farend.1.drop writeLen = farend.1 :=
      List.take_append_drop writeLen farend.1
    simp only [inside, if_pos wraps, shape, atEnd, atStart, joined,
      ofList?_of_eq farend rfl, Option.bind_eq_bind, Option.bind_some]

/-- The frame that is fetched is the one that has just been buffered. -/
theorem fetch_buffered
    {aecm : AecmCore processor}
    (inStep : InStep aecm)
    (farend : Samples frameLen) :
    ∃ buffered farBuf,
      aecm.bufferFarFrame farend = some buffered ∧
        buffered.fetchFarFrame buffered.knownDelay =
          some (aecm.stepFar farBuf, farend) := by
  by_cases wraps : aecm.farBufWritePos + frameLen > farBufLen
  · exact fetch_buffered_wrapped inStep farend wraps
  · exact fetch_buffered_straight inStep farend wraps

/-- Stepping keeps both positions together. -/
theorem inStep_stepFar
    {aecm : AecmCore processor}
    (inStep : InStep aecm)
    (farBuf : Samples farBufLen) :
    InStep (aecm.stepFar farBuf) where
  knownDelay := inStep.knownDelay
  lastKnownDelay := inStep.knownDelay
  samePosition := rfl
  inRange := by
    have inRange := inStep.inRange
    simp only [stepFar, nextPos, farBufLen, frameLen] at inRange ⊢
    split <;> omega

/-- A frame is processed as with any other far-end history, which stays in step. -/
theorem processFrame_otherFar
    {aecm result : AecmCore processor}
    {farend nearendNoisy : Samples frameLen}
    {nearendClean out : Option (Samples frameLen)}
    (inStep : InStep aecm)
    (processed :
      aecm.processFrame farend nearendNoisy nearendClean =
        some (result, out))
    (other : Samples farBufLen) :
    InStep result ∧
      ∃ farBuf,
        ({ aecm with farBuf := other } : AecmCore processor).processFrame
            farend nearendNoisy nearendClean =
          some ({ result with farBuf := farBuf }, out) := by
  obtain ⟨buffered, first, isBuffered, fetched⟩ :=
    fetch_buffered inStep farend
  have otherInStep : InStep { aecm with farBuf := other } :=
    ⟨inStep.knownDelay, inStep.lastKnownDelay, inStep.samePosition,
      inStep.inRange⟩
  obtain ⟨otherBuffered, second, otherIsBuffered, otherFetched⟩ :=
    fetch_buffered otherInStep farend
  simp only [processFrame, isBuffered, fetched, Option.bind_eq_bind,
    Option.bind_some] at processed
  have unchanged :=
    processFetched_withFar (aecm.stepFar first) (aecm.stepFar first)
      farend nearendNoisy nearendClean
  have changed :=
    processFetched_withFar (aecm.stepFar first) (aecm.stepFar second)
      farend nearendNoisy nearendClean
  rw [processed, Option.map_some] at unchanged changed
  have kept : result.withFar (aecm.stepFar first) = result := by
    have same := processed.symm.trans unchanged
    simp only [Option.some.injEq, Prod.mk.injEq] at same
    exact same.1.symm
  have stepped := inStep_stepFar inStep first
  constructor
  · rw [← kept]
    exact ⟨stepped.knownDelay, stepped.lastKnownDelay,
      stepped.samePosition, stepped.inRange⟩
  · refine ⟨second, ?_⟩
    simp only [processFrame, otherIsBuffered, otherFetched,
      Option.bind_eq_bind, Option.bind_some]
    refine changed.trans ?_
    rw [← kept]
    rfl

end AecmCore

namespace AecMobile

variable {processor : BlockProcessor}

/-- An instance with another second saved frame, reported delay and far-end
history. -/
def vary
    (aecm : AecMobile processor)
    (saved : Samples frameLen)
    (msInSndCardBuf : Int)
    (farBuf : Samples farBufLen) : AecMobile processor :=
  { aecm with
    farendOld := (aecm.farendOld.1, saved)
    msInSndCardBuf := msInSndCardBuf
    aecmCore := { aecm.aecmCore with farBuf := farBuf } }

/--
Two instances that have been initialised alike: they differ at most in the far-end
history of the core, in the reported delay while they are starting up, and in the
second saved frame until one has been stored.
-/
structure Alike
    (stored : Prop)
    (first second : AecMobile processor) : Prop where
  varied :
    second =
      first.vary second.farendOld.2 second.msInSndCardBuf
        second.aecmCore.farBuf
  inStep : first.aecmCore.InStep
  delay :
    first.ecStartup = false →
      second.msInSndCardBuf = first.msInSndCardBuf
  saved : stored → second.farendOld.2 = first.farendOld.2

/-- The delay estimate takes the delay from its argument. -/
theorem estBufDelay_vary
    (aecm : AecMobile processor)
    (delay : Int)
    (saved : Samples frameLen)
    (msInSndCardBuf : Int)
    (farBuf : Samples farBufLen) :
    (aecm.vary saved msInSndCardBuf farBuf).estBufDelay delay =
      (aecm.estBufDelay delay).map
        (·.vary saved msInSndCardBuf farBuf) := by
  simp only [estBufDelay, Option.map_map]
  rfl

/-- The compensation uses the reported delay. -/
theorem delayComp_vary
    (aecm : AecMobile processor)
    (saved : Samples frameLen)
    (farBuf : Samples farBufLen) :
    (aecm.vary saved aecm.msInSndCardBuf farBuf).delayComp =
      aecm.delayComp.map (·.vary saved aecm.msInSndCardBuf farBuf) := by
  simp only [delayComp]
  rw [apply_ite (Option.map _), Option.map_map]
  rfl

/-- The stability check uses the reported delay, and keeps it. -/
theorem checkSoundCard_vary
    (aecm : AecMobile processor)
    (nBlocks10ms : Int)
    (saved : Samples frameLen)
    (farBuf : Samples farBufLen) :
    (aecm.checkSoundCard nBlocks10ms).msInSndCardBuf =
        aecm.msInSndCardBuf ∧
      (aecm.vary saved aecm.msInSndCardBuf farBuf).checkSoundCard
          nBlocks10ms =
        (aecm.checkSoundCard nBlocks10ms).vary saved
          aecm.msInSndCardBuf farBuf := by
  have counted :
      (aecm.vary saved aecm.msInSndCardBuf farBuf).countStable =
        aecm.countStable.vary saved aecm.countStable.msInSndCardBuf
          farBuf :=
    rfl
  have fromSum
      (counted : AecMobile processor) :
      (counted.sizeFromSum nBlocks10ms).msInSndCardBuf =
          counted.msInSndCardBuf ∧
        (counted.vary saved counted.msInSndCardBuf farBuf).sizeFromSum
            nBlocks10ms =
          (counted.sizeFromSum nBlocks10ms).vary saved
            counted.msInSndCardBuf farBuf := by
    simp only [sizeFromSum]
    rw [apply_ite (fun aecm => vary aecm saved _ farBuf),
      apply_ite AecMobile.msInSndCardBuf, ite_self]
    exact ⟨rfl, rfl⟩
  have fromLast
      (counted : AecMobile processor) :
      (counted.sizeFromLast nBlocks10ms).msInSndCardBuf =
          counted.msInSndCardBuf ∧
        (counted.vary saved counted.msInSndCardBuf farBuf).sizeFromLast
            nBlocks10ms =
          (counted.sizeFromLast nBlocks10ms).vary saved
            counted.msInSndCardBuf farBuf := by
    simp only [sizeFromLast]
    rw [apply_ite (fun aecm => vary aecm saved _ farBuf),
      apply_ite AecMobile.msInSndCardBuf, ite_self]
    exact ⟨rfl, rfl⟩
  obtain ⟨sumKept, sumVaried⟩ := fromSum aecm.countStable
  obtain ⟨lastKept, lastVaried⟩ :=
    fromLast (aecm.countStable.sizeFromSum nBlocks10ms)
  rw [sumKept] at lastKept lastVaried
  exact ⟨lastKept, by
    simp only [checkSoundCard, counted, sumVaried]
    exact lastVaried⟩

/-- The start-up phase uses the reported delay. -/
theorem startUp_vary
    (aecm : AecMobile processor)
    (nBlocks10ms : Int)
    (saved : Samples frameLen)
    (farBuf : Samples farBufLen) :
    (aecm.vary saved aecm.msInSndCardBuf farBuf).startUp nBlocks10ms =
      (aecm.startUp nBlocks10ms).map
        (·.vary saved aecm.msInSndCardBuf farBuf) := by
  have left
      (started : AecMobile processor)
      (delay : Int) :
      (started.vary saved delay farBuf).leaveStartUp =
        started.leaveStartUp.map (·.vary saved delay farBuf) := by
    simp only [leaveStartUp]
    rw [apply_ite (Option.map _), apply_ite (Option.map _),
      Option.map_map]
    rfl
  have checked := (checkSoundCard_vary aecm nBlocks10ms saved farBuf).2
  simp only [startUp]
  by_cases checking : aecm.checkBuffSize
  · have varied :
        (aecm.vary saved aecm.msInSndCardBuf farBuf).checkBuffSize :=
      checking
    rw [if_pos checking, if_pos varied, checked,
      apply_ite (Option.map _), ← left]
    rfl
  · have varied :
        ¬ (aecm.vary saved aecm.msInSndCardBuf farBuf).checkBuffSize :=
      checking
    rw [if_neg checking, if_neg varied, apply_ite (Option.map _),
      ← left]
    rfl

/-- The check of the sound card keeps what its counters and the size it finds do not decide. -/
theorem checkSoundCard_keeps
    {Value : Type*}
    (kept : AecMobile processor → Value)
    (counts : ∀ aecm, kept (countStable aecm) = kept aecm)
    (sizes :
      ∀ (aecm : AecMobile processor) (bufSizeStart : Int),
        kept
            { aecm with
              bufSizeStart := bufSizeStart
              checkBuffSize := false } =
          kept aecm)
    (aecm : AecMobile processor)
    (nBlocks10ms : Int) :
    kept (aecm.checkSoundCard nBlocks10ms) = kept aecm := by
  unfold checkSoundCard
  have fromSum :
      kept (aecm.countStable.sizeFromSum nBlocks10ms) = kept aecm := by
    unfold sizeFromSum
    split
    · exact (sizes _ _).trans (counts aecm)
    · exact counts aecm
  unfold sizeFromLast
  split
  · exact (sizes _ _).trans fromSum
  · exact fromSum

/-- The start-up phase keeps what its check of the sound card and its end keep. -/
theorem startUp_keeps
    {Value : Type*}
    (kept : AecMobile processor → Value)
    (checks :
      ∀ (aecm : AecMobile processor) (nBlocks10ms : Int),
        kept (aecm.checkSoundCard nBlocks10ms) = kept aecm)
    (ends :
      ∀ aecm : AecMobile processor,
        kept { aecm with ecStartup := false } = kept aecm)
    (moves :
      ∀ (aecm : AecMobile processor) (distance : Int)
          (moved : RingBuffer Short × Int),
        aecm.farendBuf.moveReadPtr distance = some moved →
          kept { aecm with farendBuf := moved.1, ecStartup := false } =
            kept aecm)
    {aecm next : AecMobile processor}
    {nBlocks10ms : Int}
    (started : aecm.startUp nBlocks10ms = some next) :
    kept next = kept aecm := by
  have left
      {source target : AecMobile processor}
      (isLeft : source.leaveStartUp = some target) :
      kept target = kept source := by
    unfold leaveStartUp at isLeft
    split at isLeft
    · obtain rfl := Option.some.inj isLeft
      exact ends source
    split at isLeft
    · obtain ⟨moved, isMoved, rfl⟩ := Option.map_eq_some_iff.mp isLeft
      exact moves source _ moved isMoved
    · obtain rfl := Option.some.inj isLeft
      rfl
  have afterCheck :
      kept
          (if aecm.checkBuffSize then aecm.checkSoundCard nBlocks10ms
            else aecm) =
        kept aecm := by
    split
    · exact checks aecm nBlocks10ms
    · rfl
  unfold startUp at started
  dsimp only at started
  generalize (if aecm.checkBuffSize then aecm.checkSoundCard nBlocks10ms
    else aecm) = after at afterCheck started
  split at started
  · exact (left started).trans afterCheck
  · obtain rfl := Option.some.inj started
    exact afterCheck

/-- The start-up phase leaves the delay, the saved frames and the core. -/
theorem startUp_frame
    {aecm next : AecMobile processor}
    {nBlocks10ms : Int}
    (started : aecm.startUp nBlocks10ms = some next) :
    next.msInSndCardBuf = aecm.msInSndCardBuf ∧
      next.farendOld = aecm.farendOld ∧
        next.aecmCore = aecm.aecmCore := by
  let frame := fun aecm : AecMobile processor =>
    (aecm.msInSndCardBuf, aecm.farendOld, aecm.aecmCore)
  have kept : frame next = frame aecm :=
    startUp_keeps frame
      (checkSoundCard_keeps frame (fun _ => rfl) fun _ _ => rfl)
      (fun _ => rfl) (fun _ _ _ _ => rfl) started
  obtain ⟨sameDelay, sameRest⟩ := Prod.mk.inj kept
  obtain ⟨sameOld, sameCore⟩ := Prod.mk.inj sameRest
  exact ⟨sameDelay, sameOld, sameCore⟩

/-- The next far-end frame depends on the second saved frame only where that one is
reused, and replaces it where one is stored. -/
theorem nextFarend_vary
    {aecm next : AecMobile processor}
    {i : Nat}
    {farend saved : Samples frameLen}
    (taken : aecm.nextFarend i = some (next, farend))
    (fresh :
      i = 0 ∨ aecm.nmbrOfFilledBuffers > 0 ∨ saved = aecm.farendOld.2)
    (msInSndCardBuf : Int)
    (farBuf : Samples farBufLen) :
    ∃ kept,
      (aecm.vary saved msInSndCardBuf farBuf).nextFarend i =
          some (next.vary kept msInSndCardBuf farBuf, farend) ∧
        (saved = aecm.farendOld.2 ∨
            i ≠ 0 ∧ aecm.nmbrOfFilledBuffers > 0 →
          kept = next.farendOld.2) := by
  simp only [nextFarend] at taken ⊢
  have sameFilled :
      (aecm.vary saved msInSndCardBuf farBuf).nmbrOfFilledBuffers =
        aecm.nmbrOfFilledBuffers :=
    rfl
  have sameBuffer :
      (aecm.vary saved msInSndCardBuf farBuf).farendBuf =
        aecm.farendBuf :=
    rfl
  rw [sameFilled, sameBuffer]
  by_cases filled : aecm.nmbrOfFilledBuffers > 0
  · rw [if_pos filled] at taken ⊢
    simp only [Option.bind_eq_bind, Option.bind_eq_some_iff] at taken
    obtain ⟨⟨target, result⟩, read, frame, isFrame, same⟩ := taken
    simp only [Option.some.injEq, Prod.mk.injEq] at same
    obtain ⟨rfl, rfl⟩ := same
    simp only [read, isFrame, Option.bind_eq_bind, Option.bind_some]
    by_cases first : i = 0
    · subst first
      exact ⟨saved, rfl, fun cases => cases.elim id
        fun stored => absurd rfl stored.1⟩
    · refine ⟨(setRow aecm.farendOld i frame).2, ?_, fun _ => rfl⟩
      simp only [vary, setRow, if_neg first]
  · rw [if_neg filled] at taken ⊢
    simp only [Option.some.injEq, Prod.mk.injEq] at taken
    obtain ⟨rfl, rfl⟩ := taken
    refine ⟨saved, ?_, fun cases => cases.elim id
      fun stored => absurd stored.2 filled⟩
    rcases fresh with first | isFilled | same
    · subst first
      rfl
    · exact absurd isFilled filled
    · subst same
      rfl

/-- The delay estimate leaves the saved frames, the start-up flag and the core. -/
theorem estimateAt_vary
    {aecm next : AecMobile processor}
    {i : Nat}
    (estimated : aecm.estimateAt i = some next)
    (saved : Samples frameLen)
    (farBuf : Samples farBufLen) :
    (aecm.vary saved aecm.msInSndCardBuf farBuf).estimateAt i =
        some (next.vary saved next.msInSndCardBuf farBuf) ∧
      next.farendOld = aecm.farendOld ∧
        next.ecStartup = aecm.ecStartup ∧
          next.msInSndCardBuf = aecm.msInSndCardBuf ∧
            next.aecmCore = aecm.aecmCore := by
  simp only [estimateAt] at estimated
  have varied :
      (aecm.vary saved aecm.msInSndCardBuf farBuf).estimateAt i =
        (aecm.estimateAt i).map
          (·.vary saved aecm.msInSndCardBuf farBuf) := by
    simp only [estimateAt]
    rw [apply_ite (Option.map _), ← estBufDelay_vary]
    rfl
  rw [varied]
  simp only [estimateAt]
  split at estimated
  next estimates =>
    rw [if_pos estimates]
    simp only [estBufDelay, Option.map_eq_some_iff] at estimated ⊢
    obtain ⟨measured, isMeasured, rfl⟩ := estimated
    exact ⟨⟨_, ⟨measured, isMeasured, rfl⟩, rfl⟩, rfl, rfl, rfl, rfl⟩
  next estimates =>
    rw [if_neg estimates]
    obtain rfl := Option.some.inj estimated
    exact ⟨rfl, rfl, rfl, rfl, rfl⟩

/-- Taking a far-end frame leaves the start-up flag, the delay and the core. -/
theorem nextFarend_frame
    {aecm next : AecMobile processor}
    {i : Nat}
    {farend : Samples frameLen}
    (taken : aecm.nextFarend i = some (next, farend)) :
    next.ecStartup = aecm.ecStartup ∧
      next.msInSndCardBuf = aecm.msInSndCardBuf ∧
        next.aecmCore = aecm.aecmCore := by
  simp only [nextFarend] at taken
  split at taken
  · simp only [Option.bind_eq_bind, Option.bind_eq_some_iff] at taken
    obtain ⟨_, _, _, _, same⟩ := taken
    simp only [Option.some.injEq, Prod.mk.injEq] at same
    obtain ⟨rfl, _⟩ := same
    exact ⟨rfl, rfl, rfl⟩
  · simp only [Option.some.injEq, Prod.mk.injEq] at taken
    obtain ⟨rfl, _⟩ := taken
    exact ⟨rfl, rfl, rfl⟩

/-- Two instances alike take the same far-end frame, if neither reuses a second
frame saved before the initialisation. -/
theorem takeFarend_alike
    {stored : Prop}
    {first second next : AecMobile processor}
    {i : Nat}
    {farend : Samples frameLen}
    (alike : Alike stored first second)
    (running : first.ecStartup = false)
    (fresh : i = 0 ∨ first.nmbrOfFilledBuffers > 0 ∨ stored)
    (taken : first.takeFarend i = some (next, farend)) :
    ∃ other,
      second.takeFarend i = some (other, farend) ∧
        Alike (stored ∨ i ≠ 0 ∧ first.nmbrOfFilledBuffers > 0)
          next other ∧
          next.ecStartup = false := by
  obtain ⟨varied, inStep, delay, saved⟩ := alike
  rw [delay running] at varied
  simp only [takeFarend, Option.bind_eq_bind,
    Option.bind_eq_some_iff] at taken
  obtain ⟨⟨fetched, frame⟩, isFetched, estimated, isEstimated, same⟩ :=
    taken
  simp only [Option.some.injEq, Prod.mk.injEq] at same
  obtain ⟨rfl, rfl⟩ := same
  obtain ⟨sameStartup, sameDelay, sameCore⟩ :=
    nextFarend_frame isFetched
  obtain ⟨kept, otherFetched, keptSaved⟩ :=
    nextFarend_vary isFetched
      (fresh.imp id (Or.imp id saved)) first.msInSndCardBuf
      second.aecmCore.farBuf
  rw [← varied, ← sameDelay] at otherFetched
  obtain ⟨otherEstimated, sameOld, startup, estimatedDelay, core⟩ :=
    estimateAt_vary isEstimated kept second.aecmCore.farBuf
  refine ⟨estimated.vary kept estimated.msInSndCardBuf
    second.aecmCore.farBuf, ?_, ⟨rfl, ?_, fun _ => rfl, ?_⟩, ?_⟩
  · simp only [takeFarend, otherFetched, otherEstimated,
      Option.bind_eq_bind, Option.bind_some]
  · rw [core, sameCore]
    exact inStep
  · intro isStored
    have storedBefore :
        second.farendOld.2 = first.farendOld.2 ∨
          i ≠ 0 ∧ first.nmbrOfFilledBuffers > 0 :=
      isStored.imp saved id
    exact (keptSaved storedBefore).trans (congrArg Prod.snd sameOld.symm)
  · rw [startup, sameStartup, running]

/-- Two instances alike give the same frame of output. -/
theorem processNth_alike
    {stored : Prop}
    {first second next : AecMobile processor}
    {nearendNoisy : List Short}
    {nearendClean : Option (List Short)}
    {i : Nat}
    {out : Option (Samples frameLen)}
    (alike : Alike stored first second)
    (running : first.ecStartup = false)
    (fresh : i = 0 ∨ first.nmbrOfFilledBuffers > 0 ∨ stored)
    (processed :
      first.processNth nearendNoisy nearendClean i = some (next, out)) :
    ∃ other,
      second.processNth nearendNoisy nearendClean i =
          some (other, out) ∧
        Alike (stored ∨ i ≠ 0 ∧ first.nmbrOfFilledBuffers > 0)
          next other ∧
          next.ecStartup = false := by
  simp only [processNth, Option.bind_eq_bind,
    Option.bind_eq_some_iff] at processed
  obtain ⟨⟨taken, farend⟩, isTaken, noisy, isNoisy, clean, isClean,
    ⟨core, frame⟩, isProcessed, same⟩ := processed
  simp only [Option.some.injEq, Prod.mk.injEq] at same
  obtain ⟨rfl, rfl⟩ := same
  obtain ⟨other, otherTaken, takenAlike, stillRunning⟩ :=
    takeFarend_alike alike running fresh isTaken
  obtain ⟨inStep, farBuf, otherProcessed⟩ :=
    AecmCore.processFrame_otherFar takenAlike.inStep isProcessed
      other.aecmCore.farBuf
  have sameCore :
      other.aecmCore =
        { taken.aecmCore with farBuf := other.aecmCore.farBuf } :=
    congrArg AecMobile.aecmCore takenAlike.varied
  rw [← sameCore] at otherProcessed
  refine ⟨{ other with
    aecmCore := { core with farBuf := farBuf } }, ?_,
    ⟨?_, inStep, takenAlike.delay, takenAlike.saved⟩, stillRunning⟩
  · simp only [processNth, otherTaken, isNoisy, isClean, otherProcessed,
      Option.bind_eq_bind, Option.bind_some]
  · have varied := takenAlike.varied
    generalize other.farendOld.2 = saved at varied ⊢
    generalize other.msInSndCardBuf = delay at varied ⊢
    generalize other.aecmCore.farBuf = far at varied
    subst varied
    rfl

/-- Whether the far-end buffer holds a frame for the second near-end frame of a
call, on an enabled canceller. -/
def secondFrame
    (aecm : AecMobile processor) :
    Call → Option Bool
  | .process nearendNoisy _ outIsNull nrOfSamples msInSndCardBuf =>
      if aecm.processError nearendNoisy outIsNull nrOfSamples = 0 ∧
          nrOfSamples = 160 ∧ aecm.ecStartup = false then
        ({ aecm with
            msInSndCardBuf := (clipDelay msInSndCardBuf).1 }.takeFarend
              0).map fun taken : AecMobile processor × Samples frameLen =>
          decide (taken.1.nmbrOfFilledBuffers > 0)
      else
        none
  | _ => none

/-- The core leaves the far-end buffer alone. -/
theorem nmbrOfFilledBuffers_processNth
    {aecm next : AecMobile processor}
    {nearendNoisy : List Short}
    {nearendClean : Option (List Short)}
    {i : Nat}
    {out : Option (Samples frameLen)}
    (processed :
      aecm.processNth nearendNoisy nearendClean i = some (next, out)) :
    ∃ taken,
      aecm.takeFarend i = some taken ∧
        taken.1.nmbrOfFilledBuffers = next.nmbrOfFilledBuffers := by
  simp only [processNth, Option.bind_eq_bind,
    Option.bind_eq_some_iff] at processed
  obtain ⟨taken, isTaken, noisy, _, clean, _, core, _, same⟩ := processed
  simp only [Option.some.injEq, Prod.mk.injEq] at same
  obtain ⟨rfl, _⟩ := same
  exact ⟨taken, isTaken, rfl⟩

/-- A weaker record of stored frames is kept. -/
theorem Alike.mono
    {stored less : Prop}
    {first second : AecMobile processor}
    (alike : Alike stored first second)
    (implied : less → stored) :
    Alike less first second :=
  ⟨alike.varied, alike.inStep, alike.delay,
    fun isStored => alike.saved (implied isStored)⟩

/-- Two instances alike give the same output for the last frame of a call. -/
theorem processFrames_last_alike
    {stored : Prop}
    {first second next : AecMobile processor}
    {nearendNoisy : List Short}
    {nearendClean : Option (List Short)}
    {i : Nat}
    {result : List Short × Bool}
    (alike : Alike stored first second)
    (running : first.ecStartup = false)
    (fresh : i = 0 ∨ first.nmbrOfFilledBuffers > 0 ∨ stored)
    (processed :
      processFrames nearendNoisy nearendClean 1 i first =
        some (next, result)) :
    ∃ other,
      processFrames nearendNoisy nearendClean 1 i second =
          some (other, result) ∧
        Alike (stored ∨ i ≠ 0 ∧ first.nmbrOfFilledBuffers > 0)
          next other := by
  simp only [processFrames, Option.bind_eq_bind,
    Option.bind_eq_some_iff] at processed
  obtain ⟨⟨mid, out⟩, isMid, rest⟩ := processed
  obtain ⟨other, otherMid, midAlike, _⟩ :=
    processNth_alike alike running fresh isMid
  cases out with
  | none =>
      simp only [Option.some.injEq, Prod.mk.injEq] at rest
      obtain ⟨rfl, rfl⟩ := rest
      refine ⟨other, ?_, midAlike⟩
      simp only [processFrames, otherMid, Option.bind_eq_bind,
        Option.bind_some]
  | some out =>
      simp only [Option.map_some, Option.some.injEq, Prod.mk.injEq] at rest
      obtain ⟨rfl, rfl⟩ := rest
      refine ⟨other, ?_, midAlike⟩
      simp only [processFrames, otherMid, Option.bind_eq_bind,
        Option.bind_some, Option.map_some]

/-- Two instances alike give the same output for two frames, if neither reuses a
second frame saved before the initialisation. -/
theorem processFrames_two_alike
    {stored : Prop}
    {first second next : AecMobile processor}
    {nearendNoisy : List Short}
    {nearendClean : Option (List Short)}
    {result : List Short × Bool}
    (alike : Alike stored first second)
    (running : first.ecStartup = false)
    (fresh :
      ∀ taken, first.takeFarend 0 = some taken →
        taken.1.nmbrOfFilledBuffers > 0 ∨ stored)
    (processed :
      processFrames nearendNoisy nearendClean 2 0 first =
        some (next, result)) :
    ∃ other,
      processFrames nearendNoisy nearendClean 2 0 second =
          some (other, result) ∧
        Alike
          (stored ∨
            (∃ taken, first.takeFarend 0 = some taken ∧
              taken.1.nmbrOfFilledBuffers > 0) ∧
              80 ≤ result.1.length)
          next other := by
  rw [processFrames] at processed ⊢
  simp only [Option.bind_eq_bind, Option.bind_eq_some_iff] at processed
  obtain ⟨⟨mid, out⟩, isMid, rest⟩ := processed
  obtain ⟨taken, isTaken, sameFilled⟩ :=
    nmbrOfFilledBuffers_processNth isMid
  obtain ⟨other, otherMid, midAlike, stillRunning⟩ :=
    processNth_alike alike running (.inl rfl) isMid
  have midStored : Alike stored mid other := midAlike.mono .inl
  simp only [otherMid, Option.bind_eq_bind, Option.bind_some]
  cases out with
  | none =>
      simp only [Option.some.injEq, Prod.mk.injEq] at rest
      obtain ⟨rfl, rfl⟩ := rest
      refine ⟨other, rfl, midStored.mono ?_⟩
      rintro (isStored | ⟨_, tooShort⟩)
      · exact isStored
      · exact absurd tooShort (by decide)
  | some out =>
      simp only [Option.map_eq_some_iff] at rest ⊢
      obtain ⟨⟨last, later⟩, isLast, same⟩ := rest
      simp only [Prod.mk.injEq] at same
      obtain ⟨rfl, rfl⟩ := same
      have lastFresh :
          1 = 0 ∨ mid.nmbrOfFilledBuffers > 0 ∨ stored := by
        rw [← sameFilled]
        exact .inr (fresh taken isTaken)
      obtain ⟨otherLast, otherIsLast, lastAlike⟩ :=
        processFrames_last_alike midStored stillRunning lastFresh isLast
      refine ⟨otherLast, ⟨(otherLast, later), otherIsLast, rfl⟩,
        lastAlike.mono ?_⟩
      rintro (isStored | ⟨⟨again, isAgain, filled⟩, _⟩)
      · exact .inl isStored
      · rw [isTaken] at isAgain
        obtain rfl := Option.some.inj isAgain
        rw [sameFilled] at filled
        exact .inr ⟨by decide, filled⟩

/-- Two instances alike are an instance and a variation of it. -/
theorem Alike.exists_vary
    {stored : Prop}
    {first second : AecMobile processor}
    (alike : Alike stored first second) :
    ∃ kept delay farBuf,
      second = first.vary kept delay farBuf ∧
        (first.ecStartup = false → delay = first.msInSndCardBuf) ∧
          (stored → kept = first.farendOld.2) :=
  ⟨second.farendOld.2, second.msInSndCardBuf, second.aecmCore.farBuf,
    alike.varied, alike.delay, alike.saved⟩

/-- A configuration call of two instances alike gives the same answer. -/
theorem setConfig_alike
    {stored : Prop}
    {first second : AecMobile processor}
    (alike : Alike stored first second)
    (cngMode echoMode : Int) :
    (second.setConfig cngMode echoMode).2 =
        (first.setConfig cngMode echoMode).2 ∧
      Alike stored (first.setConfig cngMode echoMode).1
        (second.setConfig cngMode echoMode).1 := by
  obtain ⟨kept, delay, farBuf, rfl, sameDelay, saved⟩ :=
    alike.exists_vary
  have sameFlag :
      (first.vary kept delay farBuf).initFlag = first.initFlag :=
    rfl
  have inStep := alike.inStep
  simp only [setConfig, sameFlag]
  split
  · exact ⟨rfl, alike⟩
  split
  · exact ⟨rfl, alike⟩
  split
  · exact ⟨rfl, rfl, ⟨inStep.knownDelay, inStep.lastKnownDelay,
      inStep.samePosition, inStep.inRange⟩, sameDelay, saved⟩
  · exact ⟨rfl, rfl, ⟨inStep.knownDelay, inStep.lastKnownDelay,
      inStep.samePosition, inStep.inRange⟩, sameDelay, saved⟩

/-- The compensation leaves the start-up flag, the delay, the saved frames and the
core. -/
theorem delayComp_frame
    {aecm next : AecMobile processor}
    (compensated : aecm.delayComp = some next) :
    next.ecStartup = aecm.ecStartup ∧
      next.msInSndCardBuf = aecm.msInSndCardBuf ∧
        next.farendOld = aecm.farendOld ∧
          next.aecmCore = aecm.aecmCore := by
  simp only [delayComp] at compensated
  split at compensated
  · simp only [Option.map_eq_some_iff] at compensated
    obtain ⟨_, _, rfl⟩ := compensated
    exact ⟨rfl, rfl, rfl, rfl⟩
  · obtain rfl := Option.some.inj compensated
    exact ⟨rfl, rfl, rfl, rfl⟩

/-- A far-end call of two instances alike gives the same answer. -/
theorem bufferFarend_alike
    {stored : Prop}
    {first second next : AecMobile processor}
    {farend : Option (List Short)}
    {nrOfSamples : Nat}
    {answer : Answer}
    (alike : Alike stored first second)
    (buffered :
      first.bufferFarend farend nrOfSamples = some (next, answer)) :
    ∃ other,
      second.bufferFarend farend nrOfSamples = some (other, answer) ∧
        Alike stored next other := by
  obtain ⟨kept, delay, farBuf, rfl, sameDelay, saved⟩ :=
    alike.exists_vary
  have sameError :
      (first.vary kept delay farBuf).getBufferFarendError farend
          nrOfSamples =
        first.getBufferFarendError farend nrOfSamples :=
    rfl
  have sameStartup :
      (first.vary kept delay farBuf).ecStartup = first.ecStartup :=
    rfl
  simp only [bufferFarend, sameError, sameStartup] at buffered ⊢
  split at buffered
  next refused =>
    simp only [Option.some.injEq, Prod.mk.injEq] at buffered
    obtain ⟨rfl, rfl⟩ := buffered
    exact ⟨_, if_pos refused, alike⟩
  next accepted =>
    rw [if_neg accepted]
    by_cases startup : first.ecStartup = false
    · have running : (!first.ecStartup) = true := by
        rw [startup]
        rfl
      obtain rfl := sameDelay startup
      rw [if_pos running] at buffered
      rw [if_pos running, delayComp_vary]
      simp only [Option.bind_eq_bind, Option.bind_eq_some_iff,
        Option.some.injEq, Prod.mk.injEq] at buffered
      obtain ⟨compensated, isCompensated, rfl, rfl⟩ := buffered
      obtain ⟨_, keptDelay, keptOld, keptCore⟩ :=
        delayComp_frame isCompensated
      simp only [isCompensated, Option.map_some, Option.bind_eq_bind,
        Option.bind_some]
      refine ⟨_, rfl, rfl, ?_, fun _ => keptDelay.symm, ?_⟩
      · rw [keptCore]
        exact alike.inStep
      · intro isStored
        rw [keptOld]
        exact saved isStored
    · have starting : ¬ (!first.ecStartup) = true := by
        simpa using startup
      rw [if_neg starting] at buffered
      rw [if_neg starting]
      simp only [Option.bind_eq_bind, Option.bind_some,
        Option.some.injEq, Prod.mk.injEq] at buffered
      obtain ⟨rfl, rfl⟩ := buffered
      exact ⟨_, rfl, rfl, alike.inStep, sameDelay, saved⟩

/-- A near-end call takes one frame or two. -/
theorem nrOfSamples_of_processError
    {aecm : AecMobile processor}
    {nearendNoisy : Option (List Short)}
    {outIsNull : Bool}
    {nrOfSamples : Nat}
    (accepted :
      aecm.processError nearendNoisy outIsNull nrOfSamples = 0) :
    nrOfSamples = 80 ∨ nrOfSamples = 160 := by
  by_contra other
  rw [not_or] at other
  simp only [processError, if_pos other] at accepted
  split at accepted
  · cases accepted
  split at accepted
  · cases accepted
  split at accepted <;> cases accepted

/-- A near-end call that has been accepted gives the same answer on two instances
alike, if it does not reuse a second frame saved before the initialisation. -/
theorem processAccepted_alike
    {stored : Prop}
    {first second next : AecMobile processor}
    {nearendNoisy : List Short}
    {nearendClean : Option (List Short)}
    {nrOfSamples : Nat}
    {retVal : Int}
    {answer : Answer}
    (alike : Alike stored first second)
    (sameDelay : second.msInSndCardBuf = first.msInSndCardBuf)
    (size : nrOfSamples = 80 ∨ nrOfSamples = 160)
    (fresh :
      nrOfSamples = 160 → first.ecStartup = false →
        ∀ taken, first.takeFarend 0 = some taken →
          taken.1.nmbrOfFilledBuffers > 0 ∨ stored)
    (processed :
      first.processAccepted nearendNoisy nearendClean nrOfSamples
        retVal = some (next, answer)) :
    ∃ other,
      second.processAccepted nearendNoisy nearendClean nrOfSamples
          retVal = some (other, answer) ∧
        Alike
          (stored ∨
            (nrOfSamples = 160 ∧ first.ecStartup = false ∧
              ∃ taken, first.takeFarend 0 = some taken ∧
                taken.1.nmbrOfFilledBuffers > 0) ∧
              80 ≤ answer.out.length)
          next other := by
  have sameStartup := congrArg AecMobile.ecStartup alike.varied
  have sameMult :=
    congrArg (fun aecm : AecMobile processor => aecm.aecmCore.mult)
      alike.varied
  simp only [vary] at sameStartup sameMult
  simp only [processAccepted, sameStartup, sameMult] at processed ⊢
  by_cases startup : first.ecStartup = true
  · rw [if_pos startup] at processed ⊢
    have starting : first.ecStartup ≠ false := by
      rw [startup]
      decide
    have varied := alike.varied
    rw [sameDelay] at varied
    simp only [Option.map_eq_some_iff, Prod.mk.injEq] at processed ⊢
    obtain ⟨started, isStarted, rfl, rfl⟩ := processed
    obtain ⟨keptDelay, keptOld, keptCore⟩ := startUp_frame isStarted
    have otherStarted :=
      startUp_vary first
        (((nrOfSamples / frameLen : Nat) : Int) / first.aecmCore.mult)
        second.farendOld.2 second.aecmCore.farBuf
    rw [← varied, isStarted, Option.map_some] at otherStarted
    refine ⟨_, ⟨_, otherStarted, rfl, rfl⟩, rfl, ?_,
      fun _ => keptDelay.symm, ?_⟩
    · rw [keptCore]
      exact alike.inStep
    · rintro (isStored | ⟨⟨_, running, _⟩, _⟩)
      · rw [keptOld]
        exact alike.saved isStored
      · exact absurd running starting
  · rw [if_neg startup] at processed ⊢
    have running : first.ecStartup = false := by
      simpa using startup
    simp only [Option.map_eq_some_iff, Prod.mk.injEq] at processed ⊢
    obtain ⟨⟨last, result⟩, isLast, rfl, rfl⟩ := processed
    rcases size with rfl | rfl
    · obtain ⟨other, isOther, lastAlike⟩ :=
        processFrames_last_alike alike running (.inl rfl) isLast
      refine ⟨other, ⟨(other, result), isOther, rfl, rfl⟩,
        lastAlike.mono ?_⟩
      rintro (isStored | ⟨⟨impossible, _⟩, _⟩)
      · exact .inl isStored
      · cases impossible
    · obtain ⟨other, isOther, lastAlike⟩ :=
        processFrames_two_alike alike running (fresh rfl running) isLast
      refine ⟨other, ⟨(other, result), isOther, rfl, rfl⟩,
        lastAlike.mono ?_⟩
      rintro (isStored | ⟨⟨_, _, filled⟩, long⟩)
      · exact .inl isStored
      · exact .inr ⟨filled, long⟩

/-- A near-end call on two instances alike gives the same answer, if it does not
reuse a second frame saved before the initialisation. -/
theorem process_alike
    {stored : Prop}
    {first second next : AecMobile processor}
    {nearendNoisy nearendClean : Option (List Short)}
    {outIsNull : Bool}
    {nrOfSamples : Nat}
    {msInSndCardBuf : Int}
    {answer : Answer}
    (alike : Alike stored first second)
    (fresh :
      first.secondFrame
          (.process nearendNoisy nearendClean outIsNull nrOfSamples
            msInSndCardBuf) = some false →
        stored)
    (processed :
      first.process nearendNoisy nearendClean outIsNull nrOfSamples
          msInSndCardBuf =
        some (next, answer)) :
    ∃ other,
      second.process nearendNoisy nearendClean outIsNull nrOfSamples
          msInSndCardBuf = some (other, answer) ∧
        Alike
          (stored ∨
            first.secondFrame
                (.process nearendNoisy nearendClean outIsNull
                  nrOfSamples msInSndCardBuf) = some true ∧
              80 ≤ answer.out.length)
          next other := by
  obtain ⟨kept, delay, farBuf, rfl, sameDelay, saved⟩ :=
    alike.exists_vary
  have sameError :
      (first.vary kept delay farBuf).processError nearendNoisy outIsNull
          nrOfSamples =
        first.processError nearendNoisy outIsNull nrOfSamples :=
    rfl
  simp only [process, sameError] at processed ⊢
  by_cases accepted :
      first.processError nearendNoisy outIsNull nrOfSamples = 0
  · rw [if_neg (not_not_intro accepted)] at processed ⊢
    generalize ready :
      ({ first with msInSndCardBuf := (clipDelay msInSndCardBuf).1 } :
        AecMobile processor) = reported at processed
    have reportedAlike :
        Alike stored reported
          { first.vary kept delay farBuf with
            msInSndCardBuf := (clipDelay msInSndCardBuf).1 } := by
      subst ready
      exact ⟨rfl, alike.inStep, fun _ => rfl, saved⟩
    have sameReported :
        ({ first.vary kept delay farBuf with
            msInSndCardBuf := (clipDelay msInSndCardBuf).1 } :
          AecMobile processor).msInSndCardBuf =
            reported.msInSndCardBuf := by
      subst ready
      rfl
    have second :
        nrOfSamples = 160 → reported.ecStartup = false →
          ∀ taken, reported.takeFarend 0 = some taken →
            first.secondFrame
                (.process nearendNoisy nearendClean outIsNull
                  nrOfSamples msInSndCardBuf) =
              some (decide (taken.1.nmbrOfFilledBuffers > 0)) := by
      intro two running taken isTaken
      subst ready
      simp only [secondFrame]
      rw [if_pos ⟨accepted, two, running⟩, isTaken]
      rfl
    obtain ⟨other, isOther, nextAlike⟩ :=
      processAccepted_alike reportedAlike sameReported
        (nrOfSamples_of_processError accepted)
        (fun two running taken isTaken => by
          by_cases filled : taken.1.nmbrOfFilledBuffers > 0
          · exact .inl filled
          · refine .inr (fresh ?_)
            rw [second two running taken isTaken, decide_eq_false filled])
        processed
    refine ⟨other, isOther, nextAlike.mono ?_⟩
    rintro (isStored | ⟨stores, long⟩)
    · exact .inl isStored
    · refine .inr ⟨?_, long⟩
      simp only [secondFrame] at stores
      split at stores
      next conditions =>
        simp only [Option.map_eq_some_iff, decide_eq_true_eq] at stores
        rw [ready] at stores
        subst ready
        exact ⟨conditions.2.1, conditions.2.2, stores⟩
      next =>
        cases stores
  · rw [if_pos accepted] at processed ⊢
    obtain ⟨rfl, rfl⟩ := Prod.mk.inj (Option.some.inj processed)
    refine ⟨_, rfl, alike.mono ?_⟩
    rintro (isStored | ⟨_, tooShort⟩)
    · exact isStored
    · simp at tooShort

end AecMobile

end ApmSdk.Aecm
