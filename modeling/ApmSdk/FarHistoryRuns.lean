import ApmSdk.FarHistory

namespace ApmSdk.Aecm

/-!
# Runs of the far-end history

A frame is buffered and one is fetched.  Whatever the delays were before, the read position
after a pair is the last delay behind the write position, and so the next frame that is
fetched is the stream behind its own delay.
-/

open ArrayCopies StreamWindow

/-! ## The core of the canceller -/

/-- Copying to an array of a fixed size is overwriting it. -/
theorem copyTo_eq_overwrite
    {size : Nat}
    (array : Samples size)
    (position : Nat)
    (source : List Short) :
    (array.copyTo position source).map (fun copied => copied.1) =
      overwrite array.1 position source := by
  unfold Samples.copyTo overwrite
  split
  · rfl
  · rfl

namespace AecmCore

variable {processor : BlockProcessor}

/-- The core buffers a far-end frame as the history does. -/
theorem farHistory_bufferFarFrame
    (aecm : AecmCore processor)
    (farend : Samples frameLen) :
    (aecm.bufferFarFrame farend).map farHistory =
      aecm.farHistory.bufferFarFrame farend.1 := by
  have length := farend.2
  by_cases wraps : aecm.farBufWritePos + frameLen > farBufLen
  · rw [FarHistory.bufferFarFrame_wrapped (by rw [length]; exact wraps) rfl
        (by rw [length]; decide) (by rw [length]; decide)]
    unfold bufferFarFrame
    rw [if_pos wraps, length]
    unfold farHistory
    dsimp only
    rw [← copyTo_eq_overwrite]
    cases aecm.farBuf.copyTo aecm.farBufWritePos
        (farend.1.take (farBufLen - aecm.farBufWritePos)) with
    | none =>
        rfl
    | some first =>
        rw [Option.map_some, Option.bind_some, ← copyTo_eq_overwrite]
        simp only [Option.bind_eq_bind, Option.bind_some]
        cases first.copyTo 0
            (farend.1.drop (farBufLen - aecm.farBufWritePos)) with
        | none =>
            rfl
        | some second =>
            rfl
  · rw [FarHistory.bufferFarFrame_inside
        (by rw [length]; exact Nat.le_of_not_gt wraps)]
    unfold bufferFarFrame
    rw [if_neg wraps, length]
    unfold farHistory
    dsimp only
    rw [← copyTo_eq_overwrite]
    cases aecm.farBuf.copyTo aecm.farBufWritePos farend.1 with
    | none =>
        rfl
    | some copied =>
        rfl

/-- The core fetches a far-end frame as the history does, whatever is in the array of the
caller. -/
theorem farHistory_fetchFarFrame
    (aecm : AecmCore processor)
    (farFrame : Samples frameLen)
    (knownDelay : Int) :
    ((aecm.fetchFarFrame knownDelay).map fun result =>
        (result.1.farHistory, result.2.1)) =
      aecm.farHistory.fetchFarFrame farFrame.1 knownDelay := by
  have length := farFrame.2
  have bufLength := aecm.farBuf.2
  have frameFits : frameLen ≤ farBufLen := by decide
  obtain ⟨-, below⟩ := aecm.farHistory.startPos_eq knownDelay
  have isStart :
      ((aecm.farBufReadPos - (knownDelay - aecm.lastKnownDelay)) %
          (farBufLen : Int)).toNat =
        aecm.farHistory.startPos knownDelay :=
    rfl
  generalize isPos : aecm.farHistory.startPos knownDelay = position at *
  by_cases wraps : position + frameLen > farBufLen
  · have firstPart :
        slice aecm.farHistory.farBuf position (farBufLen - position) =
          some ((aecm.farBuf.1.drop position).take (farBufLen - position)) :=
      @slice_of_le _ aecm.farBuf.1 _ _ (by omega)
    have secondPart :
        slice aecm.farHistory.farBuf 0
            (frameLen - (farBufLen - position)) =
          some
            ((aecm.farBuf.1.drop 0).take
              (frameLen - (farBufLen - position))) :=
      @slice_of_le _ aecm.farBuf.1 _ _ (by omega)
    have full :
        ((aecm.farBuf.1.drop position).take (farBufLen - position) ++
            aecm.farBuf.1.take
              (frameLen - (farBufLen - position))).length = frameLen := by
      rw [List.length_append, List.length_take, List.length_take,
        List.length_drop]
      omega
    rw [FarHistory.fetchFarFrame_wrapped (by rw [isPos, length]; exact wraps)
        rfl (by rw [length]; decide),
      isPos, length, firstPart, Option.bind_some, secondPart,
      Option.map_some]
    unfold fetchFarFrame
    dsimp only
    rw [isStart, if_pos wraps]
    dsimp only
    unfold Samples.ofList?
    rw [dif_pos full]
    rfl
  · have part :
        slice aecm.farHistory.farBuf position frameLen =
          some ((aecm.farBuf.1.drop position).take frameLen) :=
      @slice_of_le _ aecm.farBuf.1 _ _ (by omega)
    have full :
        ((aecm.farBuf.1.drop position).take frameLen).length = frameLen := by
      rw [List.length_take, List.length_drop]
      omega
    rw [FarHistory.fetchFarFrame_inside (by rw [isPos, length]; omega),
      isPos, length, part, Option.map_some]
    unfold fetchFarFrame
    dsimp only
    rw [isStart, if_neg wraps]
    dsimp only
    unfold Samples.ofList?
    rw [dif_pos full]
    rfl

end AecmCore

/-! ## Pairs of calls -/

/-- A frame to buffer, the delay to fetch one with, and what is in the array of the caller
before the fetched frame. -/
structure FarPair where
  farend : Samples frameLen
  farFrame : Samples frameLen
  knownDelay : Int
  nonneg : 0 ≤ knownDelay
  inHistory : knownDelay ≤ (farBufLen : Int) - frameLen

/-- The stream that has been buffered. -/
def bufferedStream (pairs : List FarPair) : List Short :=
  pairs.flatMap fun pair => pair.farend.1

/-- A frame of a stream, up to a position, behind a delay. -/
structure IsDelayed
    (stream : List Short)
    (position : Nat)
    (delay : Int)
    (frame : List Short) : Prop where
  inStream : delay ≤ position
  samples : frame = (stream.drop (position - delay).toNat).take frameLen

namespace FarHistory

/-- `WebRtcAecm_BufferFarFrame` and `WebRtcAecm_FetchFarFrame` -/
def performPair
    (history : FarHistory)
    (pair : FarPair) : Option (FarHistory × List Short) := do
  let history ← history.bufferFarFrame pair.farend.1
  history.fetchFarFrame pair.farFrame.1 pair.knownDelay

/-- The frames that are fetched. -/
def fetchAll : FarHistory → List FarPair → Option (List (List Short))
  | _, [] => some []
  | history, pair :: rest => do
      let (next, fetched) ← history.performPair pair
      let later ← next.fetchAll rest
      some (fetched :: later)

/-- The history of a stream: the write position is where the stream ends, and the read
position is the last delay behind it. -/
structure Tracks (history : FarHistory) (stream : List Short) : Prop where
  length : history.farBuf.length = farBufLen
  inRange : history.farBufWritePos ≤ farBufLen
  writePos : history.farBufWritePos % farBufLen = stream.length % farBufLen
  readPos :
    history.farBufReadPos % (farBufLen : Int) =
      ((stream.length : Int) - history.lastKnownDelay) % farBufLen
  holds : Holds history.farBuf stream

/-- A frame is fetched from its delay behind the end of the stream. -/
theorem Tracks.startPos
    {history : FarHistory}
    {stream : List Short}
    (tracks : Tracks history stream)
    (knownDelay : Int) :
    (history.startPos knownDelay : Int) % farBufLen =
      ((stream.length : Int) - knownDelay) % farBufLen := by
  obtain ⟨isStart, -⟩ := history.startPos_eq knownDelay
  have readPos := tracks.readPos
  rw [isStart]
  simp only [farBufLen] at readPos ⊢
  omega

/-- A pair keeps the positions, and the fetched frame is the stream behind its delay from
when the stream is that long. -/
theorem Tracks.performPair
    {history : FarHistory}
    {stream : List Short}
    (tracks : Tracks history stream)
    (pair : FarPair) :
    ∃ next frame,
      history.performPair pair = some (next, frame) ∧
        Tracks next (stream ++ pair.farend.1) ∧
          (pair.knownDelay ≤ stream.length →
            IsDelayed (stream ++ pair.farend.1) stream.length
              pair.knownDelay frame) := by
  have frameFits : frameLen ≤ farBufLen := by decide
  have size := pair.farend.2
  obtain ⟨farBuf, writePos, isBuffered, written, writeInRange, isWritePos⟩ :=
    bufferFarFrame_written tracks.length tracks.inRange
      (show pair.farend.1.length ≤ farBufLen by omega)
  have length := written.length.trans tracks.length
  obtain ⟨frame, readPos, isFetched, read, frameLength, isReadPos⟩ :=
    @fetchFarFrame_read
      { history with farBuf, farBufWritePos := writePos } pair.farFrame.1
      pair.knownDelay length (by rw [pair.farFrame.2]; exact frameFits)
  rw [pair.farFrame.2] at frameLength isReadPos
  have isStart := tracks.startPos pair.knownDelay
  have sameStart :
      FarHistory.startPos { history with farBuf, farBufWritePos := writePos }
          pair.knownDelay = history.startPos pair.knownDelay :=
    rfl
  rw [sameStart] at read isReadPos
  have atEnd :
      history.farBufWritePos % history.farBuf.length =
        stream.length % history.farBuf.length := by
    rw [tracks.length]
    exact tracks.writePos
  have holds := tracks.holds.append (written.congr atEnd)
  have streamLength :
      (stream ++ pair.farend.1).length = stream.length + frameLen := by
    rw [List.length_append, size]
  refine
    ⟨⟨farBuf, writePos, readPos, pair.knownDelay⟩, frame, ?_,
      ⟨length, writeInRange, ?_, ?_, holds⟩, ?_⟩
  · unfold FarHistory.performPair
    rw [isBuffered]
    exact isFetched
  · dsimp only
    rw [streamLength, isWritePos, size, Nat.add_mod, tracks.writePos,
      ← Nat.add_mod]
  · dsimp only
    rw [streamLength]
    generalize history.startPos pair.knownDelay = start at isStart isReadPos
    simp only [farBufLen, frameLen] at isStart isReadPos ⊢
    omega
  · intro inStream
    refine ⟨inStream, ?_⟩
    have nonneg := pair.nonneg
    have inHistory := pair.inHistory
    obtain ⟨start, isDelayed⟩ :=
      Int.eq_ofNat_of_zero_le
        (show 0 ≤ (stream.length : Int) - pair.knownDelay by omega)
    rw [isDelayed, Int.toNat_natCast]
    rw [isDelayed, ← Int.natCast_mod, ← Int.natCast_mod] at isStart
    have isFrame :=
      holds.read read
        (show history.startPos pair.knownDelay % farBuf.length =
            start % farBuf.length by
          rw [length]
          exact Int.ofNat_inj.mp isStart)
        (by rw [frameLength, streamLength]; omega)
        (by rw [length, streamLength]; omega)
    rwa [frameLength] at isFrame

/-- The fetched frames of a run from a history of a stream. -/
theorem Tracks.fetchAll
    {history : FarHistory}
    {stream : List Short}
    (tracks : Tracks history stream)
    (pairs : List FarPair) :
    ∃ fetched,
      history.fetchAll pairs = some fetched ∧
        fetched.length = pairs.length ∧
          ∀ (n : Nat) (pair : FarPair) (frame : List Short),
            pairs[n]? = some pair →
              fetched[n]? = some frame →
                pair.knownDelay ≤ (stream.length + n * frameLen : Nat) →
                  IsDelayed (stream ++ bufferedStream pairs)
                    (stream.length + n * frameLen) pair.knownDelay frame := by
  induction pairs generalizing history stream with
  | nil =>
      exact ⟨[], rfl, rfl, fun n pair frame isPair => nomatch isPair⟩
  | cons first rest inductionHypothesis =>
      obtain ⟨next, firstFrame, isFirst, nextTracks, firstDelayed⟩ :=
        tracks.performPair first
      obtain ⟨later, isLater, laterLength, laterDelayed⟩ :=
        inductionHypothesis nextTracks
      have whole :
          stream ++ bufferedStream (first :: rest) =
            stream ++ first.farend.1 ++ bufferedStream rest := by
        unfold bufferedStream
        rw [List.flatMap_cons, List.append_assoc]
      refine ⟨firstFrame :: later, ?_, ?_, ?_⟩
      · unfold FarHistory.fetchAll
        rw [isFirst, Option.bind_eq_bind, Option.bind_some]
        dsimp only
        rw [isLater]
        rfl
      · rw [List.length_cons, List.length_cons, laterLength]
      · intro n pair frame isPair isFrame inStream
        rw [whole]
        cases n with
        | zero =>
            obtain rfl := Option.some.inj isPair
            obtain rfl := Option.some.inj isFrame
            rw [Nat.zero_mul, Nat.add_zero] at inStream ⊢
            obtain ⟨-, samples⟩ := firstDelayed inStream
            refine ⟨inStream, samples.trans ?_⟩
            have nonneg := first.nonneg
            have size := first.farend.2
            have enough :
                ((stream.length : Int) - first.knownDelay).toNat + frameLen ≤
                  (stream ++ first.farend.1).length := by
              rw [List.length_append, size]
              omega
            have cut :
                (stream ++ first.farend.1 ++ bufferedStream rest).drop
                    ((stream.length : Int) - first.knownDelay).toNat =
                  (stream ++ first.farend.1).drop
                      ((stream.length : Int) - first.knownDelay).toNat ++
                    bufferedStream rest :=
              List.drop_append_of_le_length (by omega)
            rw [cut, List.take_append_of_le_length]
            rw [List.length_drop]
            omega
        | succ n =>
            have shifted :
                stream.length + (n + 1) * frameLen =
                  (stream ++ first.farend.1).length + n * frameLen := by
              rw [List.length_append, first.farend.2, Nat.succ_mul]
              omega
            rw [shifted] at inStream ⊢
            exact laterDelayed n pair frame isPair isFrame inStream

/-- The history of `WebRtcAecm_InitCore`, whatever the array holds. -/
theorem tracks_initCore
    {processor : BlockProcessor}
    (aecm : AecmCore processor)
    (samplingFreq : Int) :
    Tracks (aecm.initCore samplingFreq).farHistory [] where
  length := aecm.farBuf.2
  inRange := Nat.zero_le _
  writePos := rfl
  readPos := rfl
  holds := holds_nil _

/--
In every run of pairs of calls with frames of 80 samples and delays that the history can
hold, every frame is fetched, and from when `FAR_BUF_LEN` samples have been buffered it is
the buffered stream behind the delay of its own call.
-/
theorem fetchAll_isDelayed
    {processor : BlockProcessor}
    (aecm : AecmCore processor)
    (samplingFreq : Int)
    (pairs : List FarPair) :
    ∃ fetched,
      (aecm.initCore samplingFreq).farHistory.fetchAll pairs =
          some fetched ∧
        fetched.length = pairs.length ∧
          ∀ (n : Nat) (pair : FarPair) (frame : List Short),
            pairs[n]? = some pair →
              fetched[n]? = some frame →
                farBufLen ≤ (n + 1) * frameLen →
                  IsDelayed (bufferedStream pairs) (n * frameLen)
                    pair.knownDelay frame := by
  obtain ⟨fetched, isFetched, length, delayed⟩ :=
    (tracks_initCore aecm samplingFreq).fetchAll pairs
  refine ⟨fetched, isFetched, length, ?_⟩
  intro n pair frame isPair isFrame buffered
  have isDelayed := delayed n pair frame isPair isFrame
  rw [List.nil_append, List.length_nil, Nat.zero_add] at isDelayed
  apply isDelayed
  have inHistory := pair.inHistory
  simp only [farBufLen, frameLen] at buffered inHistory ⊢
  omega

end FarHistory

end ApmSdk.Aecm
