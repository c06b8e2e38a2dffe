import ApmSdk.AecMobile
import ApmSdk.StreamWindow

namespace ApmSdk.Aecm

/-!
# The far-end history of the mobile canceller

`WebRtcAecm_BufferFarFrame` and `WebRtcAecm_FetchFarFrame` with their loops.  The history
holds the end of the far-end stream.  The write position is where the stream ends and the
read position is as far behind it as the last known delay, both counted round the array,
in which either may stand at the end instead of at the start.
-/

open ArrayCopies StreamWindow

/-- The fields of `AecmCore` that the history is kept in. -/
structure FarHistory where
  farBuf : List Short
  farBufWritePos : Nat
  farBufReadPos : Int
  lastKnownDelay : Int
  deriving DecidableEq

/-- The history of a core. -/
def AecmCore.farHistory
    {processor : BlockProcessor}
    (aecm : AecmCore processor) : FarHistory where
  farBuf := aecm.farBuf.1
  farBufWritePos := aecm.farBufWritePos
  farBufReadPos := aecm.farBufReadPos
  lastKnownDelay := aecm.lastKnownDelay

namespace FarHistory

/-- The variables of the loop of `WebRtcAecm_BufferFarFrame`. -/
structure WriteLoop where
  farBuf : List Short
  farBufWritePos : Nat
  writeLen : Nat
  writePos : Nat

/-- Check if the write position must be wrapped. -/
def writeLoop (farend : List Short) : Nat → WriteLoop → Option WriteLoop
  | 0, _ => none
  | fuel + 1, loop =>
      if loop.farBufWritePos + loop.writeLen > farBufLen then do
        -- write to the remaining buffer space before wrapping
        let writeLen := farBufLen - loop.farBufWritePos
        let part ← slice farend loop.writePos writeLen
        let farBuf ← overwrite loop.farBuf loop.farBufWritePos part
        writeLoop farend fuel
          { farBuf
            farBufWritePos := 0
            writePos := writeLen
            writeLen := farend.length - writeLen }
      else some loop

/-- `WebRtcAecm_BufferFarFrame` -/
def bufferFarFrame
    (history : FarHistory)
    (farend : List Short) : Option FarHistory := do
  let loop ←
    writeLoop farend (farend.length + 1)
      { farBuf := history.farBuf
        farBufWritePos := history.farBufWritePos
        writeLen := farend.length
        writePos := 0 }
  let part ← slice farend loop.writePos loop.writeLen
  let farBuf ← overwrite loop.farBuf loop.farBufWritePos part
  some
    { history with
      farBuf
      farBufWritePos := loop.farBufWritePos + loop.writeLen }

/-- `while (aecm->farBufReadPos < 0)` -/
def raisePos : Nat → Int → Option Int
  | 0, _ => none
  | fuel + 1, position =>
      if position < 0 then raisePos fuel (position + farBufLen)
      else some position

/-- `while (aecm->farBufReadPos > FAR_BUF_LEN - 1)` -/
def lowerPos : Nat → Int → Option Int
  | 0, _ => none
  | fuel + 1, position =>
      if position > farBufLen - 1 then lowerPos fuel (position - farBufLen)
      else some position

/-- Check if the delay forces a read position wrap.  Either loop takes fewer steps than
the position is away from zero. -/
def wrapPos (position : Int) : Option Int := do
  let raised ← raisePos (position.natAbs + 1) position
  lowerPos (raised.natAbs + 1) raised

/-- The variables of the loop of `WebRtcAecm_FetchFarFrame`. -/
structure ReadLoop where
  farend : List Short
  farBufReadPos : Nat
  readLen : Nat
  readPos : Nat

/-- Check if the read position must be wrapped. -/
def readLoop
    (farBuf : List Short)
    (farLen : Nat) : Nat → ReadLoop → Option ReadLoop
  | 0, _ => none
  | fuel + 1, loop =>
      if loop.farBufReadPos + loop.readLen > farBufLen then do
        -- read from the remaining buffer space before wrapping
        let readLen := farBufLen - loop.farBufReadPos
        let part ← slice farBuf loop.farBufReadPos readLen
        let farend ← overwrite loop.farend loop.readPos part
        readLoop farBuf farLen fuel
          { farend
            farBufReadPos := 0
            readPos := readLen
            readLen := farLen - readLen }
      else some loop

/-- `WebRtcAecm_FetchFarFrame` into an array of the caller's. -/
def fetchFarFrame
    (history : FarHistory)
    (farend : List Short)
    (knownDelay : Int) : Option (FarHistory × List Short) := do
  let delayChange := knownDelay - history.lastKnownDelay
  let farBufReadPos ← wrapPos (history.farBufReadPos - delayChange)
  let loop ←
    readLoop history.farBuf farend.length (farend.length + 1)
      { farend
        farBufReadPos := farBufReadPos.toNat
        readLen := farend.length
        readPos := 0 }
  let part ← slice history.farBuf loop.farBufReadPos loop.readLen
  let farend ← overwrite loop.farend loop.readPos part
  some
    ({ history with
        farBufReadPos := (loop.farBufReadPos + loop.readLen : Nat)
        lastKnownDelay := knownDelay },
      farend)

/-! ## What the loops do -/

theorem raisePos_eq
    {fuel : Nat}
    {position : Int}
    (enough : -position < fuel)
    (some_step : 0 < fuel) :
    ∃ raised,
      raisePos fuel position = some raised ∧
        0 ≤ raised ∧ raised % farBufLen = position % farBufLen := by
  induction fuel generalizing position with
  | zero =>
      exact absurd some_step (Nat.lt_irrefl 0)
  | succ fuel inductionHypothesis =>
      unfold raisePos
      split
      next negative =>
          obtain ⟨raised, isRaised, nonneg, same⟩ :=
            @inductionHypothesis (position + farBufLen)
              (by simp only [farBufLen]; omega) (by omega)
          refine ⟨raised, isRaised, nonneg, ?_⟩
          rw [same, Int.add_emod_right]
      next nonneg =>
          exact ⟨position, rfl, by omega, rfl⟩

theorem lowerPos_eq
    {fuel : Nat}
    {position : Int}
    (nonneg : 0 ≤ position)
    (enough : position < fuel) :
    lowerPos fuel position = some (position % farBufLen) := by
  induction fuel generalizing position with
  | zero =>
      omega
  | succ fuel inductionHypothesis =>
      unfold lowerPos
      simp only [farBufLen] at inductionHypothesis ⊢
      split
      next above =>
          rw [inductionHypothesis (by omega) (by omega)]
          congr 1
          omega
      next below =>
          congr 1
          omega

/-- Both loops bring every position into the array. -/
theorem wrapPos_eq (position : Int) :
    wrapPos position = some (position % farBufLen) := by
  obtain ⟨raised, isRaised, nonneg, same⟩ :=
    @raisePos_eq (position.natAbs + 1) position (by omega)
      (Nat.succ_pos _)
  unfold wrapPos
  rw [isRaised, Option.bind_eq_bind, Option.bind_some,
    lowerPos_eq nonneg (by omega), same]

theorem writeLoop_inside
    {farend : List Short}
    {fuel : Nat}
    {loop : WriteLoop}
    (inside : loop.farBufWritePos + loop.writeLen ≤ farBufLen) :
    writeLoop farend (fuel + 1) loop = some loop := by
  unfold writeLoop
  rw [if_neg (by omega)]

theorem readLoop_inside
    {farBuf : List Short}
    {farLen fuel : Nat}
    {loop : ReadLoop}
    (inside : loop.farBufReadPos + loop.readLen ≤ farBufLen) :
    readLoop farBuf farLen (fuel + 1) loop = some loop := by
  unfold readLoop
  rw [if_neg (by omega)]

/-- A frame up to the end of the array is written at once. -/
theorem bufferFarFrame_inside
    {history : FarHistory}
    {farend : List Short}
    (inside : history.farBufWritePos + farend.length ≤ farBufLen) :
    history.bufferFarFrame farend =
      (overwrite history.farBuf history.farBufWritePos farend).map
        fun farBuf =>
          { history with
            farBuf
            farBufWritePos := history.farBufWritePos + farend.length } := by
  have part : slice farend 0 farend.length = some farend := by
    rw [slice_of_le (by omega), List.drop_zero, List.take_length]
  unfold bufferFarFrame
  rw [writeLoop_inside inside]
  simp only [Option.bind_eq_bind, Option.bind_some]
  rw [part, Option.bind_some, Option.map_eq_bind]
  rfl

/-- A frame across the end of the array is written in two parts. -/
theorem bufferFarFrame_wrapped
    {history : FarHistory}
    {farend : List Short}
    {writeLen : Nat}
    (wraps : farBufLen < history.farBufWritePos + farend.length)
    (isWriteLen : farBufLen - history.farBufWritePos = writeLen)
    (nonempty : 0 < farend.length)
    (fits : farend.length ≤ farBufLen) :
    history.bufferFarFrame farend =
      (overwrite history.farBuf history.farBufWritePos
          (farend.take writeLen)).bind fun first =>
        (overwrite first 0 (farend.drop writeLen)).map fun farBuf =>
          { history with
            farBuf
            farBufWritePos := farend.length - writeLen } := by
  have firstPart :
      slice farend 0 writeLen = some (farend.take writeLen) := by
    rw [slice_of_le (by omega), List.drop_zero]
  have secondPart :
      slice farend writeLen (farend.length - writeLen) =
        some (farend.drop writeLen) := by
    rw [slice_of_le (by omega), ← List.length_drop, List.take_length]
  obtain ⟨fuel, isFuel⟩ : ∃ fuel, farend.length + 1 = fuel + 1 + 1 :=
    ⟨farend.length - 1, by omega⟩
  unfold bufferFarFrame
  rw [isFuel, writeLoop]
  dsimp only
  rw [if_pos wraps, isWriteLen, firstPart]
  simp only [Option.bind_eq_bind, Option.bind_some, Option.bind_assoc]
  refine congrArg _ (funext fun first => ?_)
  rw [writeLoop_inside (by dsimp only; omega)]
  simp only [Option.bind_some]
  rw [secondPart, Option.bind_some, Option.map_eq_bind, Nat.zero_add]
  rfl

/-- A frame is written at the write position, counted round, which goes on by the frame. -/
theorem bufferFarFrame_written
    {history : FarHistory}
    {farend : List Short}
    (length : history.farBuf.length = farBufLen)
    (inRange : history.farBufWritePos ≤ farBufLen)
    (fits : farend.length ≤ farBufLen) :
    ∃ farBuf position,
      history.bufferFarFrame farend =
          some { history with farBuf, farBufWritePos := position } ∧
        WrittenAt history.farBuf history.farBufWritePos farend farBuf ∧
          position ≤ farBufLen ∧
            position % farBufLen =
              (history.farBufWritePos + farend.length) % farBufLen := by
  rcases Nat.lt_or_ge farBufLen (history.farBufWritePos + farend.length) with
    wraps | inside
  · generalize isWriteLen :
      farBufLen - history.farBufWritePos = writeLen
    have firstLength : (farend.take writeLen).length = writeLen :=
      List.length_take_of_le (by omega)
    have secondLength :
        (farend.drop writeLen).length = farend.length - writeLen :=
      List.length_drop
    obtain ⟨middle, isMiddle⟩ :=
      @exists_overwrite _ history.farBuf (farend.take writeLen)
        history.farBufWritePos (by omega)
    have same := length_of_overwrite isMiddle
    obtain ⟨farBuf, isFarBuf⟩ :=
      @exists_overwrite _ middle (farend.drop writeLen) 0 (by omega)
    refine
      ⟨farBuf, farend.length - writeLen, ?_,
        .of_wrapped isMiddle isFarBuf (by omega) (by omega) (by omega),
        by omega, ?_⟩
    · rw [bufferFarFrame_wrapped wraps isWriteLen (by omega) fits, isMiddle,
        Option.bind_some, isFarBuf, Option.map_some]
    · rw [show
          history.farBufWritePos + farend.length =
            farend.length - writeLen + farBufLen by omega,
        Nat.add_mod_right]
  · obtain ⟨farBuf, isFarBuf⟩ :=
      @exists_overwrite _ history.farBuf farend history.farBufWritePos
        (by omega)
    refine
      ⟨farBuf, history.farBufWritePos + farend.length, ?_,
        .of_overwrite isFarBuf, inside, rfl⟩
    rw [bufferFarFrame_inside inside, isFarBuf, Option.map_some]

/-- Where a frame is fetched from: the read position after the change of the delay. -/
def startPos (history : FarHistory) (knownDelay : Int) : Nat :=
  ((history.farBufReadPos - (knownDelay - history.lastKnownDelay)) %
    farBufLen).toNat

theorem startPos_eq (history : FarHistory) (knownDelay : Int) :
    (history.startPos knownDelay : Int) =
        (history.farBufReadPos - (knownDelay - history.lastKnownDelay)) %
          farBufLen ∧
      history.startPos knownDelay < farBufLen := by
  unfold startPos
  simp only [farBufLen]
  omega

/-- A frame that ends inside of the array is read at once. -/
theorem fetchFarFrame_inside
    {history : FarHistory}
    {farend : List Short}
    {knownDelay : Int}
    (inside : history.startPos knownDelay + farend.length ≤ farBufLen) :
    history.fetchFarFrame farend knownDelay =
      (slice history.farBuf (history.startPos knownDelay) farend.length).map
        fun fetched =>
          ({ history with
              farBufReadPos :=
                (history.startPos knownDelay + farend.length : Nat)
              lastKnownDelay := knownDelay },
            fetched) := by
  have isStart := (history.startPos_eq knownDelay).1
  unfold fetchFarFrame
  dsimp only
  rw [wrapPos_eq, ← isStart]
  simp only [Option.bind_eq_bind, Option.bind_some, Int.toNat_natCast]
  rw [readLoop_inside inside, Option.bind_some]
  dsimp only
  cases part :
      slice history.farBuf (history.startPos knownDelay) farend.length with
  | none =>
      rfl
  | some fetched =>
      rw [Option.bind_some, overwrite_all (ReadAt.of_slice part).2,
        Option.bind_some, Option.map_some]

/-- A frame across the end of the array is read in two parts. -/
theorem fetchFarFrame_wrapped
    {history : FarHistory}
    {farend : List Short}
    {knownDelay : Int}
    {readLen : Nat}
    (wraps : farBufLen < history.startPos knownDelay + farend.length)
    (isReadLen : farBufLen - history.startPos knownDelay = readLen)
    (fits : farend.length ≤ farBufLen) :
    history.fetchFarFrame farend knownDelay =
      (slice history.farBuf (history.startPos knownDelay) readLen).bind
        fun first =>
          (slice history.farBuf 0 (farend.length - readLen)).map
            fun second =>
              ({ history with
                  farBufReadPos := (farend.length - readLen : Nat)
                  lastKnownDelay := knownDelay },
                first ++ second) := by
  obtain ⟨isStart, below⟩ := history.startPos_eq knownDelay
  obtain ⟨fuel, isFuel⟩ : ∃ fuel, farend.length + 1 = fuel + 1 + 1 :=
    ⟨farend.length - 1, by omega⟩
  unfold fetchFarFrame
  dsimp only
  rw [wrapPos_eq, ← isStart]
  simp only [Option.bind_eq_bind, Option.bind_some, Int.toNat_natCast]
  rw [isFuel, readLoop]
  dsimp only
  rw [if_pos wraps, isReadLen]
  cases firstPart :
      slice history.farBuf (history.startPos knownDelay) readLen with
  | none =>
      rfl
  | some first =>
      have firstLength := (ReadAt.of_slice firstPart).2
      simp only [Option.bind_eq_bind, Option.bind_some]
      rw [overwrite_start (by omega), Option.bind_some, firstLength,
        readLoop_inside (by dsimp only; omega), Option.bind_some]
      dsimp only
      cases secondPart :
          slice history.farBuf 0 (farend.length - readLen) with
      | none =>
          rfl
      | some second =>
          have secondLength := (ReadAt.of_slice secondPart).2
          rw [Option.bind_some,
            overwrite_end firstLength.symm
              (by rw [secondLength, List.length_drop]),
            Option.bind_some, Option.map_some, Nat.zero_add]

/-- A fetched frame is what stands at the read position after the change of the delay,
counted round, and the read position goes on by the frame. -/
theorem fetchFarFrame_read
    {history : FarHistory}
    {farend : List Short}
    (knownDelay : Int)
    (length : history.farBuf.length = farBufLen)
    (fits : farend.length ≤ farBufLen) :
    ∃ (fetched : List Short) (position : Nat),
      history.fetchFarFrame farend knownDelay =
          some
            ({ history with
                farBufReadPos := position
                lastKnownDelay := knownDelay },
              fetched) ∧
        ReadAt history.farBuf (history.startPos knownDelay) fetched ∧
          fetched.length = farend.length ∧
            position % farBufLen =
              (history.startPos knownDelay + farend.length) % farBufLen := by
  have below := (history.startPos_eq knownDelay).2
  rcases Nat.lt_or_ge farBufLen
      (history.startPos knownDelay + farend.length) with wraps | inside
  · generalize isReadLen :
      farBufLen - history.startPos knownDelay = readLen
    have firstPart :
        slice history.farBuf (history.startPos knownDelay) readLen =
          some
            ((history.farBuf.drop (history.startPos knownDelay)).take
              readLen) :=
      slice_of_le (by omega)
    have secondPart :
        slice history.farBuf 0 (farend.length - readLen) =
          some ((history.farBuf.drop 0).take (farend.length - readLen)) :=
      slice_of_le (by omega)
    refine
      ⟨_, farend.length - readLen, ?_,
        .of_wrapped firstPart secondPart (by omega), ?_, ?_⟩
    · rw [fetchFarFrame_wrapped wraps isReadLen fits, firstPart,
        Option.bind_some, secondPart, Option.map_some]
    · rw [List.length_append, (ReadAt.of_slice firstPart).2,
        (ReadAt.of_slice secondPart).2]
      omega
    · rw [show
          history.startPos knownDelay + farend.length =
            farend.length - readLen + farBufLen by omega,
        Nat.add_mod_right]
  · have part :
        slice history.farBuf (history.startPos knownDelay) farend.length =
          some
            ((history.farBuf.drop (history.startPos knownDelay)).take
              farend.length) :=
      slice_of_le (by omega)
    obtain ⟨read, sameLength⟩ := ReadAt.of_slice part
    refine
      ⟨_, history.startPos knownDelay + farend.length, ?_, read, sameLength,
        rfl⟩
    rw [fetchFarFrame_inside inside, part, Option.map_some]

end FarHistory

end ApmSdk.Aecm
