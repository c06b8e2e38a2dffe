import ApmSdk.AecLevels
import ApmSdk.OutputFrames

namespace ApmSdk.Echo

/-!
# The output rings of the echo canceller

The blocks that a core produces are put on record, and followed through the output
rings of its bands.  What happens to the far end leaves these rings alone.
-/

/-- A canceller that also keeps the blocks it has produced since `InitAec`. -/
def EchoCanceller.recording (canceller : EchoCanceller) : EchoCanceller where
  toSampleArithmetic := canceller.toSampleArithmetic
  android := canceller.android
  float := canceller.float
  State := canceller.State × List (Nat → Block canceller.Sample)
  init sampFreq := (canceller.init sampFreq, [])
  processBlock state numPartitions extended nearend farend :=
    let (next, output) :=
      canceller.processBlock state.1 numPartitions extended nearend farend
    ((next, state.2 ++ [output]), output)
  lastDelay state := canceller.lastDelay state.1
  lastDelay_lt state := canceller.lastDelay_lt state.1
  lastDelayQuality state := canceller.lastDelayQuality state.1
  softReset state delayShift :=
    (canceller.softReset state.1 delayShift, state.2)
  setAllowedOffset state offset :=
    (canceller.setAllowedOffset state.1 offset, state.2)
  SkewData := canceller.SkewData
  newSkewData := canceller.newSkewData
  getSkew := canceller.getSkew

namespace Band

variable {Sample : Type}

/-- Each of the first bands has been visited, and what was read of it collected; the
others are as they were. -/
theorem forHigh_getElem?
    {Out : Type}
    {visit : Band Sample → Option (Band Sample × Out)}
    {count : Nat}
    {bands next : List (Band Sample)}
    {outs : List Out}
    (visited : forHigh visit count bands = some (next, outs)) :
    outs.length = count ∧
      ∀ index band,
        bands[index]? = some band →
          if index < count then
            ∃ after out,
              visit band = some (after, out) ∧
                next[index]? = some after ∧ outs[index]? = some out
          else
            next[index]? = some band := by
  induction count generalizing bands next outs with
  | zero =>
      obtain ⟨rfl, rfl⟩ := Prod.mk.inj (Option.some.inj visited)
      exact ⟨rfl, fun index band isBand => isBand⟩
  | succ count inductionHypothesis =>
      cases bands with
      | nil =>
          cases visited
      | cons first rest =>
          simp only [forHigh, Option.bind_eq_bind,
            Option.bind_eq_some_iff] at visited
          obtain ⟨⟨after, out⟩, isVisited, ⟨later, laterOuts⟩, isLater,
            same⟩ := visited
          obtain ⟨rfl, rfl⟩ := Prod.mk.inj (Option.some.inj same)
          obtain ⟨laterCount, laterBands⟩ := inductionHypothesis isLater
          refine ⟨congrArg (· + 1) laterCount, ?_⟩
          intro index band isBand
          cases index with
          | zero =>
              obtain rfl := Option.some.inj isBand
              rw [if_pos (Nat.zero_lt_succ _)]
              exact ⟨after, out, isVisited, rfl, rfl⟩
          | succ index =>
              have laterBand := laterBands index band isBand
              simp only [Nat.add_lt_add_iff_right, List.getElem?_cons_succ]
              exact laterBand

/-- There are bands enough for the loop. -/
theorem le_of_forHigh
    {Out : Type}
    {visit : Band Sample → Option (Band Sample × Out)}
    {count : Nat}
    {bands next : List (Band Sample)}
    {outs : List Out}
    (visited : forHigh visit count bands = some (next, outs)) :
    count ≤ bands.length := by
  induction count generalizing bands next outs with
  | zero =>
      exact Nat.zero_le _
  | succ count inductionHypothesis =>
      cases bands with
      | nil =>
          cases visited
      | cons first rest =>
          simp only [forHigh, Option.bind_eq_bind,
            Option.bind_eq_some_iff] at visited
          obtain ⟨_, _, ⟨later, laterOuts⟩, isLater, -⟩ := visited
          exact Nat.succ_le_succ (inductionHypothesis isLater)

/-- The loop keeps the number of the bands. -/
theorem length_of_forHigh
    {Out : Type}
    {visit : Band Sample → Option (Band Sample × Out)}
    {count : Nat}
    {bands next : List (Band Sample)}
    {outs : List Out}
    (visited : forHigh visit count bands = some (next, outs)) :
    next.length = bands.length := by
  induction count generalizing bands next outs with
  | zero =>
      obtain ⟨rfl, -⟩ := Prod.mk.inj (Option.some.inj visited)
      rfl
  | succ count inductionHypothesis =>
      cases bands with
      | nil =>
          cases visited
      | cons first rest =>
          simp only [forHigh, Option.bind_eq_bind,
            Option.bind_eq_some_iff] at visited
          obtain ⟨_, _, ⟨later, laterOuts⟩, isLater, same⟩ := visited
          obtain ⟨rfl, -⟩ := Prod.mk.inj (Option.some.inj same)
          exact congrArg (· + 1) (inductionHypothesis isLater)

/-- What a band plays: its ring is stuffed by what is missing in that of the low band,
and a frame is read. -/
theorem readOut_carries
    {band next : Band Sample}
    {written out : List Sample}
    {position : Nat}
    (carries :
      RingBuffer.Carries (frameLen + partLen) band.outFrBuf written position)
    (read :
      band.readOut ((written.length - position : Nat) : Int) =
        some (next, out)) :
    out =
        window written (min position (written.length - frameLen))
          frameLen ∧
      RingBuffer.Carries (frameLen + partLen) next.outFrBuf written
          (min position (written.length - frameLen) + frameLen) ∧
        next.nearFrBuf = band.nearFrBuf := by
  obtain ⟨inStream, kept, filled⟩ := carries.bounds
  have frame : frameLen = 80 := rfl
  have part : partLen = 64 := rfl
  obtain ⟨stuffed, isStuffed, stuffedCarries, sameNear⟩ :
      ∃ stuffed : Band Sample,
        band.stuffOut ((written.length - position : Nat) : Int) =
            some stuffed ∧
          RingBuffer.Carries (frameLen + partLen) stuffed.outFrBuf written
              (min position (written.length - frameLen)) ∧
            stuffed.nearFrBuf = band.nearFrBuf := by
    unfold stuffOut
    by_cases short : written.length - position < frameLen
    · have room :
          written.length + (frameLen - (written.length - position)) ≤
            position + (frameLen + partLen) := by
        omega
      obtain ⟨moved, isMoved, movedCarries⟩ :=
        carries.moveReadPtr_back (by decide) room
      have back :
          ((written.length - position : Nat) : Int) - frameLen =
            -((frameLen - (written.length - position) : Nat) : Int) := by
        omega
      have start :
          min position (written.length - frameLen) =
            position - (frameLen - (written.length - position)) := by
        omega
      rw [if_pos (by omega), back, isMoved, start]
      exact ⟨_, rfl, movedCarries, rfl⟩
    · rw [if_neg (by omega), Nat.min_eq_left (by omega)]
      exact ⟨band, rfl, carries, rfl⟩
  have enough :
      min position (written.length - frameLen) + frameLen ≤
        written.length := by
    omega
  obtain ⟨target, copied, isRead, copies, nextCarries⟩ :=
    stuffedCarries.readBuffer_copied (by decide) enough
  unfold readOut at read
  rw [isStuffed, Option.bind_eq_bind, Option.bind_some, isRead,
    Option.bind_eq_bind, Option.bind_some] at read
  obtain ⟨rfl, rfl⟩ := Prod.mk.inj (Option.some.inj read)
  exact ⟨copies, nextCarries, sameNear⟩

end Band

namespace AecCore

variable {canceller : EchoCanceller}

/-- The output ring of a band, the low one first. -/
def outRing
    (aec : AecCore canceller) :
    Nat → Option (RingBuffer canceller.Sample)
  | 0 => some aec.low.outFrBuf
  | index + 1 =>
      if index < aec.numBands - 1 then
        aec.high[index]?.map Band.outFrBuf
      else
        none

theorem outRing_succ (aec : AecCore canceller) (index : Nat) :
    aec.outRing (index + 1) =
      if index < aec.numBands - 1 then
        aec.high[index]?.map Band.outFrBuf
      else
        none :=
  rfl

/-- What nothing at the far end changes. -/
structure SameBands (before after : AecCore canceller) : Prop where
  low : after.low = before.low
  high : after.high = before.high
  numBands : after.numBands = before.numBands

theorem SameBands.refl (aec : AecCore canceller) : SameBands aec aec :=
  ⟨rfl, rfl, rfl⟩

theorem SameBands.trans
    {before middle after : AecCore canceller}
    (first : SameBands before middle)
    (later : SameBands middle after) :
    SameBands before after :=
  ⟨later.low.trans first.low, later.high.trans first.high,
    later.numBands.trans first.numBands⟩

theorem SameBands.outRing
    {before after : AecCore canceller}
    (same : SameBands before after)
    (index : Nat) :
    after.outRing index = before.outRing index := by
  cases index with
  | zero =>
      rw [AecCore.outRing, same.low, AecCore.outRing]
  | succ index =>
      rw [AecCore.outRing, same.high, same.numBands, AecCore.outRing]

/-- The blocks produced since `InitAec`. -/
def produced
    (aec : AecCore canceller.recording) :
    List (Nat → Block canceller.recording.Sample) :=
  aec.signal.2

/-- A step at the far end, which leaves the bands and the record of the blocks. -/
structure FarEndOnly (before after : AecCore canceller.recording) : Prop
    extends SameBands before after where
  produced : after.produced = before.produced

theorem FarEndOnly.refl (aec : AecCore canceller.recording) :
    FarEndOnly aec aec :=
  ⟨.refl aec, rfl⟩

theorem FarEndOnly.trans
    {before middle after : AecCore canceller.recording}
    (first : FarEndOnly before middle)
    (later : FarEndOnly middle after) :
    FarEndOnly before after :=
  ⟨first.toSameBands.trans later.toSameBands,
    later.produced.trans first.produced⟩

section FarEnd

variable {aec next : AecCore canceller.recording}

theorem farEndOnly_moveFarReadPtr
    {elements moved : Int}
    (isMoved : aec.moveFarReadPtr elements = some (next, moved)) :
    FarEndOnly aec next := by
  obtain ⟨ring, -, same⟩ := Option.map_eq_some_iff.mp isMoved
  obtain ⟨rfl, -⟩ := Prod.mk.inj same
  exact ⟨⟨rfl, rfl, rfl⟩, rfl⟩

theorem farEndOnly_bufferFarendPartition
    {farend : List canceller.Sample}
    (buffered : aec.bufferFarendPartition farend = some next) :
    FarEndOnly aec next := by
  obtain ⟨flushed, isFlushed, rfl⟩ := Option.map_eq_some_iff.mp buffered
  have flush : FarEndOnly aec flushed := by
    unfold flushWhenFull at isFlushed
    split at isFlushed
    · obtain ⟨⟨moved, count⟩, isMoved, rfl⟩ :=
        Option.map_eq_some_iff.mp isFlushed
      exact farEndOnly_moveFarReadPtr isMoved
    · obtain rfl := Option.some.inj isFlushed
      exact .refl aec
  exact flush.trans ⟨⟨rfl, rfl, rfl⟩, rfl⟩

theorem farEndOnly_stuffFarEnd
    (stuffed : aec.stuffFarEnd = some next) :
    FarEndOnly aec next := by
  unfold stuffFarEnd at stuffed
  split at stuffed
  · obtain ⟨⟨moved, count⟩, isMoved, rfl⟩ :=
      Option.map_eq_some_iff.mp stuffed
    exact farEndOnly_moveFarReadPtr isMoved
  · obtain rfl := Option.some.inj stuffed
    exact .refl aec

theorem farEndOnly_proposeCorrection
    (aec : AecCore canceller.recording)
    (lastDelay : Int) :
    FarEndOnly aec (aec.proposeCorrection lastDelay).1 := by
  unfold proposeCorrection
  dsimp only
  generalize -(lastDelay - aec.lookahead) +
    (if aec.shiftOffset < lastDelay - aec.lookahead then
      aec.shiftOffset
    else
      1) = correction
  split
  · split
    · exact ⟨⟨rfl, rfl, rfl⟩, rfl⟩
    · exact ⟨⟨rfl, rfl, rfl⟩, rfl⟩
  · exact .refl aec

theorem farEndOnly_signalBasedDelayCorrection
    (aec : AecCore canceller.recording) :
    FarEndOnly aec aec.signalBasedDelayCorrection.1 := by
  have raised
      (first : AecCore canceller.recording)
      (quality : Rat) :
      FarEndOnly first (first.raiseThreshold quality) := by
    unfold raiseThreshold
    dsimp only
    split
    · exact ⟨⟨rfl, rfl, rfl⟩, rfl⟩
    · exact .refl first
  unfold signalBasedDelayCorrection
  split
  · exact .refl aec
  · dsimp only
    split
    · exact (farEndOnly_proposeCorrection aec _).trans (raised _ _)
    · exact raised aec _

theorem farEndOnly_correctSignalDelay
    (corrected : aec.correctSignalDelay = some next) :
    FarEndOnly aec next := by
  simp only [correctSignalDelay, moveByCorrection, Option.bind_eq_bind,
    Option.bind_eq_some_iff, Option.map_eq_some_iff] at corrected
  obtain ⟨⟨moved, elements⟩, ⟨ring, -, same⟩, rest⟩ := corrected
  obtain ⟨rfl, rfl⟩ := Prod.mk.inj same
  have chosen := farEndOnly_signalBasedDelayCorrection aec
  generalize aec.signalBasedDelayCorrection = choice at chosen rest
  have accepted :
      FarEndOnly aec
        (({ choice.1 with farTimeBuf := ring.1 } :
          AecCore canceller.recording).acceptCorrection ring.2) :=
    chosen.trans ⟨⟨rfl, rfl, rfl⟩, rfl⟩
  split at rest
  · obtain ⟨⟨last, count⟩, isLast, rfl⟩ :=
      Option.map_eq_some_iff.mp rest
    exact accepted.trans (farEndOnly_moveFarReadPtr isLast)
  · obtain rfl := Option.some.inj rest
    exact accepted

theorem farEndOnly_adjustFarEnd
    {knownDelay : Int}
    (adjusted : aec.adjustFarEnd knownDelay = some next) :
    FarEndOnly aec next := by
  unfold adjustFarEnd at adjusted
  split at adjusted
  · obtain ⟨moved, -, rfl⟩ := Option.map_eq_some_iff.mp adjusted
    exact ⟨⟨rfl, rfl, rfl⟩, rfl⟩
  · exact farEndOnly_correctSignalDelay adjusted

end FarEnd

/-! ## A frame of 80 samples -/

/-- Buffering near-end frames leaves the output buffers of the high bands. -/
theorem map_outFrBuf_writeNearH
    {canceller : EchoCanceller}
    (frames : List (Frame canceller.Sample))
    (high : List (Band canceller.Sample)) :
    (writeNearH frames high).map Band.outFrBuf =
      high.map Band.outFrBuf := by
  unfold writeNearH
  induction frames generalizing high with
  | nil =>
      simp
  | cons frame rest inductionHypothesis =>
      cases high with
      | nil =>
          rfl
      | cons band bands =>
          rw [List.zipWith_cons_cons, List.length_cons, List.drop_succ_cons,
            List.cons_append, List.map_cons, List.map_cons,
            inductionHypothesis bands]
          rfl

theorem outRing_bufferNear
    {canceller : EchoCanceller}
    (aec : AecCore canceller)
    (nearend : Frame canceller.Sample)
    (nearendH : List (Frame canceller.Sample))
    (index : Nat) :
    (aec.bufferNear nearend nearendH).outRing index =
      aec.outRing index := by
  cases index with
  | zero =>
      rfl
  | succ index =>
      have sameRings :
          (writeNearH nearendH aec.high)[index]?.map Band.outFrBuf =
            aec.high[index]?.map Band.outFrBuf := by
        rw [← List.getElem?_map, map_outFrBuf_writeNearH,
          List.getElem?_map]
      unfold outRing bufferNear
      dsimp only
      rw [sameRings]

/-- The blocks taken from the near end leave the output rings. -/
theorem takeBlock_spec
    {canceller : EchoCanceller}
    {aec next : AecCore canceller}
    {nearend : List (List canceller.Sample)}
    {farend : List canceller.Sample}
    (taken : aec.takeBlock = some (next, nearend, farend))
    (near : RingBuffer.Sized (frameLen + partLen) aec.low.nearFrBuf) :
    next.numBands = aec.numBands ∧
      next.signal = aec.signal ∧
        RingBuffer.Sized (frameLen + partLen) next.low.nearFrBuf ∧
          next.low.nearFrBuf.availableRead =
              aec.low.nearFrBuf.availableRead - partLen ∧
            ∀ index, next.outRing index = aec.outRing index := by
  simp only [takeBlock, Option.bind_eq_bind,
    Option.bind_eq_some_iff] at taken
  obtain ⟨⟨high, nearendH⟩, readsHigh, ⟨low, block⟩, readsLow,
    ⟨farTimeBuf, result⟩, -, same⟩ := taken
  obtain ⟨rfl, -⟩ := Prod.mk.inj (Option.some.inj same)
  obtain ⟨nearFrBuf, read, reads, nextNear, level, -⟩ :=
    near.readBuffer (by decide) true partLen
  simp only [Band.readNear, reads, Option.map_some, Option.some.injEq,
    Prod.mk.injEq] at readsLow
  obtain ⟨rfl, -⟩ := readsLow
  refine ⟨rfl, rfl, nextNear, level, ?_⟩
  intro index
  cases index with
  | zero =>
      rfl
  | succ index =>
      unfold outRing
      dsimp only
      split
      next inBands =>
          obtain ⟨-, bands⟩ := Band.forHigh_getElem? readsHigh
          cases isBand : aec.high[index]? with
          | none =>
              have short := List.getElem?_eq_none_iff.mp isBand
              have sameLength := Band.length_of_forHigh readsHigh
              rw [List.getElem?_eq_none (by omega)]
          | some band =>
              have visited := bands index band isBand
              rw [if_pos inBands] at visited
              obtain ⟨after, out, isRead, isAfter, -⟩ := visited
              rw [isAfter]
              obtain ⟨ring, -, same⟩ :=
                Option.map_eq_some_iff.mp isRead
              obtain ⟨rfl, -⟩ := Prod.mk.inj same
              rfl
      next =>
          rfl

/-- A block is written to the output ring of each band. -/
theorem outRing_putBlock
    {canceller : EchoCanceller}
    (aec : AecCore canceller)
    (signal : canceller.State)
    (output : Nat → Block canceller.Sample)
    (index : Nat) :
    (aec.putBlock signal output).outRing index =
      (aec.outRing index).map fun ring =>
        (ring.writeBuffer (output index).1).1 := by
  cases index with
  | zero =>
      rfl
  | succ index =>
      unfold outRing putBlock
      dsimp only
      split
      next inBands =>
          rw [List.getElem?_mapIdx, Option.map_map, Option.map_map]
          apply congrArg (Option.map · aec.high[index]?)
          funext band
          simp only [Function.comp_apply, if_pos inBands]
          rfl
      next =>
          rfl

/-- The blocks of a band among those that have been produced. -/
def bandBlocks
    {Sample : Type}
    (produced : List (Nat → Block Sample))
    (index : Nat) : List (List Sample) :=
  produced.map fun output => (output index).1

theorem length_bandBlocks
    {Sample : Type}
    (produced : List (Nat → Block Sample))
    (index : Nat) :
    (bandBlocks produced index).flatten.length = partLen * produced.length := by
  rw [OutputFrames.length_flatten_blocks, bandBlocks, List.length_map]
  intro block member
  obtain ⟨output, -, rfl⟩ := List.mem_map.mp member
  exact (output index).2

/-- The output ring of each band holds the blocks of the band, and stands at the same
position of them. -/
structure Ringed
    (aec : AecCore canceller.recording)
    (position : Nat) : Prop where
  near : RingBuffer.Sized (frameLen + partLen) aec.low.nearFrBuf
  rings :
    ∀ index ring,
      aec.outRing index = some ring →
        RingBuffer.Carries (frameLen + partLen) ring
          (OutputFrames.inRing canceller.recording.zero
            (bandBlocks aec.produced index).flatten)
          position

section Frames

variable {aec next : AecCore canceller.recording}
variable {position : Nat}

/-- The rings of another core with the same bands and the same record. -/
theorem Ringed.of_farEndOnly
    (ringed : Ringed aec position)
    (step : FarEndOnly aec next) :
    Ringed next position where
  near := step.low ▸ ringed.near
  rings index ring isRing := by
    rw [step.outRing] at isRing
    rw [step.produced]
    exact ringed.rings index ring isRing

/-- A block is put on record and written to the ring of every band. -/
theorem Ringed.processBlock
    (ringed : Ringed aec position)
    (room : partLen * (aec.produced.length + 1) ≤ position)
    (processed : aec.processBlock = some next) :
    Ringed next position ∧
      next.numBands = aec.numBands ∧
        next.low.nearFrBuf.availableRead =
            aec.low.nearFrBuf.availableRead - partLen ∧
          (∃ output, next.produced = aec.produced ++ [output]) ∧
            ∀ index,
              (next.outRing index).isSome = (aec.outRing index).isSome := by
  obtain ⟨⟨taken, nearend, farend⟩, isTaken, same⟩ :=
    Option.bind_eq_some_iff.mp processed
  obtain rfl := Option.some.inj same
  obtain ⟨numBands, signal, near, level, outRings⟩ :=
    takeBlock_spec isTaken ringed.near
  let output : Nat → Block canceller.recording.Sample :=
    (taken.produce nearend farend).2
  have record :
      (taken.putBlock (taken.produce nearend farend).1 output).produced =
        aec.produced ++ [output] := by
    unfold produced
    rw [← signal]
    rfl
  refine ⟨⟨near, ?_⟩, numBands, level, ⟨output, record⟩, ?_⟩
  · intro index ring isRing
    rw [outRing_putBlock, outRings] at isRing
    obtain ⟨before, isBefore, rfl⟩ := Option.map_eq_some_iff.mp isRing
    have carries := ringed.rings index before isBefore
    have stream :
        (bandBlocks (aec.produced ++ [output]) index).flatten =
          (bandBlocks aec.produced index).flatten ++
            (output index).1 := by
      simp [bandBlocks]
    have fits :
        (OutputFrames.inRing canceller.recording.zero
              (bandBlocks aec.produced index).flatten).length +
            (output index).1.length ≤
          position + (frameLen + partLen) := by
      have frame : frameLen = 80 := rfl
      have part : partLen = 64 := rfl
      rw [OutputFrames.length_inRing, length_bandBlocks, (output index).2]
      rw [Nat.mul_succ] at room
      omega
    have written := carries.writeBuffer fits
    rw [← OutputFrames.inRing_append, ← stream, ← record] at written
    exact written
  · intro index
    rw [outRing_putBlock, outRings, Option.isSome_map]

/-- So are all the blocks of a frame. -/
theorem Ringed.processBlocks
    {blocks : Nat}
    (ringed : Ringed aec position)
    (room : partLen * (aec.produced.length + blocks) ≤ position)
    (processed : AecCore.processBlocks blocks aec = some next) :
    Ringed next position ∧
      next.numBands = aec.numBands ∧
        next.low.nearFrBuf.availableRead =
            aec.low.nearFrBuf.availableRead - partLen * blocks ∧
          (∃ more,
              next.produced = aec.produced ++ more ∧
                more.length = blocks) ∧
            ∀ index,
              (next.outRing index).isSome = (aec.outRing index).isSome := by
  induction blocks generalizing aec with
  | zero =>
      obtain rfl := Option.some.inj processed
      exact ⟨ringed, rfl, rfl, ⟨[], by simp⟩, fun _ => rfl⟩
  | succ blocks inductionHypothesis =>
      obtain ⟨middle, isMiddle, rest⟩ :=
        Option.bind_eq_some_iff.mp processed
      have firstRoom : partLen * (aec.produced.length + 1) ≤ position :=
        Nat.le_trans (Nat.mul_le_mul_left _ (by omega)) room
      obtain ⟨middleRinged, middleBands, middleLevel, ⟨output, record⟩,
        middleRings⟩ :=
        ringed.processBlock firstRoom isMiddle
      have laterRoom :
          partLen * (middle.produced.length + blocks) ≤ position := by
        rw [record, List.length_append, List.length_singleton,
          Nat.add_assoc, Nat.add_comm 1 blocks]
        exact room
      obtain ⟨nextRinged, nextBands, nextLevel, ⟨more, moreRecord, count⟩,
        nextRings⟩ :=
        inductionHypothesis middleRinged laterRoom rest
      refine ⟨nextRinged, nextBands.trans middleBands, ?_,
        ⟨output :: more, ?_, by rw [List.length_cons, count]⟩,
        fun index => (nextRings index).trans (middleRings index)⟩
      · rw [nextLevel, middleLevel, Nat.mul_succ]
        omega
      · rw [moreRecord, record, List.append_assoc]
        rfl

/-- How much has been written to the ring of each band. -/
theorem length_inRing_bandBlocks
    (aec : AecCore canceller.recording)
    (index : Nat) :
    (OutputFrames.inRing canceller.recording.zero
        (bandBlocks aec.produced index).flatten).length =
      144 + 64 * aec.produced.length := by
  rw [OutputFrames.length_inRing, length_bandBlocks]

/-- The frame of a band, read by what is in the ring of the low one. -/
def bandFrame
    (aec : AecCore canceller.recording)
    (position index : Nat) : List canceller.recording.Sample :=
  window
    (OutputFrames.inRing canceller.recording.zero
      (bandBlocks aec.produced index).flatten)
    (min position (144 + 64 * aec.produced.length - 80)) 80

/-- What is read from the ring of a band. -/
theorem Ringed.readOut
    {index : Nat}
    {band after : Band canceller.recording.Sample}
    {out : List canceller.recording.Sample}
    (ringed : Ringed aec position)
    (isRing : aec.outRing index = some band.outFrBuf)
    (isRead :
      band.readOut
          ((144 + 64 * aec.produced.length - position : Nat) : Int) =
        some (after, out)) :
    out = aec.bandFrame position index ∧
      RingBuffer.Carries (frameLen + partLen) after.outFrBuf
          (OutputFrames.inRing canceller.recording.zero
            (bandBlocks aec.produced index).flatten)
          (min position (144 + 64 * aec.produced.length - 80) + 80) ∧
        after.nearFrBuf = band.nearFrBuf := by
  have carries := ringed.rings index band.outFrBuf isRing
  rw [← length_inRing_bandBlocks aec index] at isRead
  have result := Band.readOut_carries carries isRead
  rw [length_inRing_bandBlocks] at result
  exact result

/-- A high band with an output ring. -/
theorem exists_band_of_outRing
    {canceller : EchoCanceller}
    {aec : AecCore canceller}
    {index : Nat}
    {ring : RingBuffer canceller.Sample}
    (isRing : aec.outRing (index + 1) = some ring) :
    index < aec.numBands - 1 ∧
      ∃ band, aec.high[index]? = some band ∧ band.outFrBuf = ring := by
  rw [outRing_succ] at isRing
  split at isRing
  next inBands =>
      exact ⟨inBands, Option.map_eq_some_iff.mp isRing⟩
  next =>
      cases isRing

/-- Where a frame has been read, every band has an output ring. -/
theorem isSome_outRing_of_readOutput
    {canceller : EchoCanceller}
    {aec next : AecCore canceller}
    {outs : List (List canceller.Sample)}
    (read : aec.readOutput = some (next, outs))
    (band : Nat)
    (inBands : band < aec.numBands) :
    (aec.outRing band).isSome := by
  simp only [AecCore.readOutput, Option.bind_eq_bind,
    Option.bind_eq_some_iff] at read
  obtain ⟨-, -, ⟨high, outH⟩, readsHigh, -⟩ := read
  have enough := Band.le_of_forHigh readsHigh
  cases band with
  | zero =>
      rfl
  | succ index =>
      rw [outRing_succ, if_pos (by omega), Option.isSome_map,
        List.getElem?_eq_getElem (by omega)]
      rfl

/-- All bands are read from the same position. -/
theorem Ringed.readOutput
    {outs : List (List canceller.recording.Sample)}
    (ringed : Ringed aec position)
    (read : aec.readOutput = some (next, outs)) :
    Ringed next
        (min position (144 + 64 * aec.produced.length - 80) + 80) ∧
      next.numBands = aec.numBands ∧
        next.low.nearFrBuf = aec.low.nearFrBuf ∧
          next.produced = aec.produced ∧
            ∀ index,
              (next.outRing index).isSome = (aec.outRing index).isSome ∧
                ((aec.outRing index).isSome →
                  outs[index]? =
                    some (aec.bandFrame position index)) := by
  simp only [AecCore.readOutput, Option.bind_eq_bind,
    Option.bind_eq_some_iff] at read
  obtain ⟨⟨low, out⟩, readsLow, ⟨high, outH⟩, readsHigh, same⟩ := read
  obtain ⟨rfl, rfl⟩ := Prod.mk.inj (Option.some.inj same)
  have lowCarries := ringed.rings 0 aec.low.outFrBuf rfl
  have size :
      asInt aec.low.outFrBuf.availableRead =
        (144 + 64 * aec.produced.length - position : Nat) := by
    obtain ⟨inStream, kept, -⟩ := lowCarries.bounds
    have frame : frameLen = 80 := rfl
    have part : partLen = 64 := rfl
    rw [length_inRing_bandBlocks] at inStream kept
    rw [lowCarries.availableRead_eq, length_inRing_bandBlocks,
      asInt_of_lt (by omega)]
  rw [size] at readsLow readsHigh
  have lowRing : aec.outRing 0 = some aec.low.outFrBuf := rfl
  obtain ⟨isOut, nextLow, sameNear⟩ := ringed.readOut lowRing readsLow
  obtain ⟨-, bands⟩ := Band.forHigh_getElem? readsHigh
  have sameLength := Band.length_of_forHigh readsHigh
  -- What became of a high band.
  have highRing :
      ∀ index ring,
        aec.outRing (index + 1) = some ring →
          ∃ after : Band canceller.recording.Sample,
            ({ aec with low := low, high := high } :
                AecCore canceller.recording).outRing (index + 1) =
                some after.outFrBuf ∧
              outH[index]? = some (aec.bandFrame position (index + 1)) ∧
                RingBuffer.Carries (frameLen + partLen) after.outFrBuf
                  (OutputFrames.inRing canceller.recording.zero
                    (bandBlocks aec.produced (index + 1)).flatten)
                  (min position (144 + 64 * aec.produced.length - 80) +
                    80) := by
    intro index ring isRing
    obtain ⟨inBands, band, isBand, rfl⟩ := exists_band_of_outRing isRing
    have visited := bands index band isBand
    rw [if_pos inBands] at visited
    obtain ⟨after, read, isRead, isAfter, isOut⟩ := visited
    obtain ⟨rfl, carries, -⟩ := ringed.readOut isRing isRead
    refine ⟨after, ?_, isOut, carries⟩
    rw [outRing_succ, if_pos inBands, isAfter]
    rfl
  refine ⟨⟨?_, ?_⟩, rfl, sameNear, rfl, ?_⟩
  · exact sameNear ▸ ringed.near
  · intro index ring isRing
    cases index with
    | zero =>
        obtain rfl := Option.some.inj isRing
        exact nextLow
    | succ index =>
        obtain ⟨inBands, band, isBand, rfl⟩ :=
          exists_band_of_outRing isRing
        have wasInBands : index < aec.numBands - 1 := inBands
        have inHigh : index < aec.high.length := by
          rw [← sameLength]
          exact (List.getElem?_eq_some_iff.mp isBand).1
        have before :
            aec.outRing (index + 1) =
              some aec.high[index].outFrBuf := by
          rw [outRing_succ, if_pos wasInBands,
            List.getElem?_eq_getElem inHigh]
          rfl
        obtain ⟨after, isAfter, -, carries⟩ := highRing index _ before
        have sameRing := Option.some.inj (isRing.symm.trans isAfter)
        rw [sameRing]
        exact carries
  · intro index
    cases index with
    | zero =>
        exact ⟨rfl, fun _ => congrArg some isOut⟩
    | succ index =>
        cases isRing : aec.outRing (index + 1) with
        | none =>
            refine ⟨?_, fun isSome => by cases isSome⟩
            rw [outRing_succ] at isRing ⊢
            dsimp only
            split at isRing
            next inBands =>
                rw [if_pos inBands]
                have outside :=
                  List.getElem?_eq_none_iff.mp
                    (Option.map_eq_none_iff.mp isRing)
                rw [List.getElem?_eq_none (by omega)]
                rfl
            next outside =>
                rw [if_neg outside]
        | some ring =>
            obtain ⟨after, isAfter, isOutH, -⟩ :=
              highRing index ring isRing
            refine ⟨?_, fun _ => isOutH⟩
            rw [isAfter]
            rfl

end Frames

end AecCore

end ApmSdk.Echo
