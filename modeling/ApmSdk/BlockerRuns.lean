import ApmSdk.Blocker
import Mathlib.Algebra.Ring.Int.Defs
import Mathlib.Tactic.IntervalCases

namespace ApmSdk.Blocking

open ApmSdk.OverlapAdd

/-!
# Runs of a re-blocked stream

Within a chunk the loop stands at a multiple of the shift.  So do the rings, and the
output buffer holds the sums of the blocks so far, from the start of the chunk on.
-/

/-! ## Frames -/

/-- What a buffer of values holds. -/
theorem getElem?_map_range
    {Sample : Type}
    (values : Nat → Sample)
    (capacity index : Nat) :
    ((List.range capacity).map values)[index]? =
      if index < capacity then some (values index) else none := by
  rw [List.getElem?_map]
  split
  next inBuffer =>
      rw [List.getElem?_range inBuffer, Option.map_some]
  next outside =>
      rw [List.getElem?_eq_none (by rw [List.length_range]; omega),
        Option.map_none]

variable {Sample State : Type} [Semiring Sample]

theorem length_applyWindow
    {window frames : List Sample}
    (same : frames.length = window.length) :
    (applyWindow window frames).length = window.length := by
  unfold applyWindow
  rw [List.length_zipWith, same, min_self]

/-- A block is added to the values of a buffer, from its start on. -/
theorem addFrames_eq
    {capacity start : Nat}
    {block : List Sample}
    (values : Nat → Sample)
    (fits : start + block.length ≤ capacity) :
    addFrames ((List.range capacity).map values) start block block.length =
      some
        ((List.range capacity).map fun index =>
          values index +
            if start ≤ index then block.getD (index - start) 0 else 0) := by
  have length : ((List.range capacity).map values).length = capacity := by
    rw [List.length_map, List.length_range]
  have added :
      ((((List.range capacity).map values).drop start).zipWith (· + ·)
          block).length = block.length := by
    rw [List.length_zipWith, List.length_drop, length]
    omega
  unfold addFrames
  rw [List.take_length, length, if_pos fits, Option.some.injEq]
  refine List.ext_getElem? fun index => ?_
  rw [getElem?_memcpy (by omega), added, getElem?_map_range,
    getElem?_map_range]
  by_cases inside : start ≤ index ∧ index < start + block.length
  · obtain ⟨offset, rfl⟩ := Nat.exists_eq_add_of_le inside.1
    have inBlock : offset < block.length := by
      omega
    rw [if_pos inside, Nat.add_sub_cancel_left, List.getElem?_zipWith,
      List.getElem?_drop, getElem?_map_range, if_pos (by omega),
      if_pos (by omega), List.getElem?_eq_getElem inBlock,
      if_pos inside.1, List.getD_eq_getElem _ _ inBlock]
  · have nothing :
        (if start ≤ index then block.getD (index - start) 0 else 0) = 0 := by
      split
      next behind =>
          exact List.getD_eq_default _ _ (by omega)
      next =>
          rfl
    rw [if_neg inside, nothing, add_zero]

/-- The rest of a buffer is moved to its start, and zeros follow it. -/
theorem zeroOut_moveFrames
    (start numFrames : Nat)
    (values : Nat → Sample) :
    zeroOut
        (moveFrames ((List.range (start + numFrames)).map values) start
          numFrames 0)
        numFrames start =
      (List.range (start + numFrames)).map fun index =>
        if index < numFrames then values (start + index) else 0 := by
  have length :
      ((List.range (start + numFrames)).map values).length =
        start + numFrames := by
    rw [List.length_map, List.length_range]
  have rest :
      ((((List.range (start + numFrames)).map values).drop start).take
          numFrames).length = numFrames := by
    rw [List.length_take, List.length_drop, length]
    omega
  unfold zeroOut moveFrames
  refine List.ext_getElem? fun index => ?_
  rw [getElem?_memcpy
      (by rw [length_memcpy (by omega), List.length_replicate]; omega),
    getElem?_memcpy (by omega), List.length_replicate, rest,
    getElem?_map_range, getElem?_map_range]
  by_cases moved : index < numFrames
  · rw [if_neg (by omega), if_pos (by omega), Nat.sub_zero,
      List.getElem?_take_of_lt moved, List.getElem?_drop, getElem?_map_range,
      if_pos (by omega), if_pos (by omega), if_pos moved]
  · by_cases inBuffer : index < start + numFrames
    · rw [if_pos (by omega), List.getElem?_replicate_of_lt (by omega),
        if_pos inBuffer, if_neg moved]
    · rw [if_neg (by omega), if_neg (by omega), if_neg inBuffer,
        if_neg inBuffer]

namespace Setup

variable {setup : Setup Sample State} {callback : State}
variable {stream : Channels setup.numInputChannels Sample}

/-- Blocks keep their size. -/
theorem length_blockState
    (number : Nat)
    (channel : Fin setup.numOutputChannels) :
    ((setup.blockState callback stream number).2 channel).length =
      setup.blockSize := by
  induction number generalizing channel with
  | zero =>
      exact List.length_replicate
  | succ number inductionHypothesis =>
      unfold blockState
      dsimp only
      rw [length_applyWindow, setup.windowSize]
      rw [setup.windowSize]
      exact setup.blockKept _ _ _ inductionHypothesis channel

end Setup

/-! ## The loop -/

/-- Where a blocker stands `first` samples into a chunk, behind `past` samples of the
stream and after some of its blocks. -/
structure Reached
    (setup : Setup Sample State)
    (callback : State)
    (stream : Channels setup.numInputChannels Sample)
    (past : Nat)
    (written : Channels setup.numInputChannels Sample)
    (number : Nat)
    (blocker : Blocker setup)
    (first : Nat) : Prop where
  place : setup.shiftAmount * number = past + first
  inputBuffer :
    0 < setup.capacity →
      blocker.inputBuffer.CarriesAll setup.capacity
        (fun channel =>
          List.replicate setup.chunkSize 0 ++ written channel)
        (setup.chunkSize + setup.shiftAmount * number)
        (setup.readPos number)
  noBuffer :
    setup.capacity = 0 →
      ∀ channel, blocker.inputBuffer.buffers channel = none
  outputBuffer :
    ∀ channel,
      blocker.outputBuffer channel =
        (List.range setup.capacity).map fun index =>
          partialSum setup.shiftAmount
            (setup.windowedBlock callback stream channel) number
            (past + index)
  ended :
    ∀ earlier < number,
      setup.shiftAmount * earlier + setup.blockSize ≤
        past + setup.capacity
  blockState :
    setup.blockState callback stream number =
      (blocker.callback, blocker.outputBlock)

/-- The samples of a stream that have been written when a chunk is processed. -/
structure IsWritten
    (setup : Setup Sample State)
    (stream written : Channels setup.numInputChannels Sample)
    (past : Nat) : Prop where
  isPrefix : ∀ channel, written channel <+: stream channel
  size :
    ∀ channel,
      (written channel).length =
        setup.initialDelay + past + setup.chunkSize
  multiple : setup.chunkSize ∣ past

namespace Reached

variable {setup : Setup Sample State} {callback : State}
variable {stream written : Channels setup.numInputChannels Sample}
variable {past number first : Nat} {blocker : Blocker setup}

/-- A block that starts in a chunk ends in the buffers. -/
theorem room
    (reached : Reached setup callback stream past written number blocker first)
    (multiple : setup.chunkSize ∣ past)
    (inChunk : first < setup.chunkSize) :
    first + setup.blockSize ≤ setup.capacity := by
  have delay := setup.initialDelay_add
  have chunk := Nat.gcd_dvd_left setup.chunkSize setup.shiftAmount
  have shift := Nat.gcd_dvd_right setup.chunkSize setup.shiftAmount
  have steps : Nat.gcd setup.chunkSize setup.shiftAmount ∣ past + first := by
    rw [← reached.place]
    exact shift.mul_right number
  have place : Nat.gcd setup.chunkSize setup.shiftAmount ∣ first :=
    (Nat.dvd_add_right (chunk.trans multiple)).mp steps
  have rest :
      Nat.gcd setup.chunkSize setup.shiftAmount ≤ setup.chunkSize - first :=
    Nat.le_of_dvd (by omega) (Nat.dvd_sub chunk place)
  unfold Setup.capacity
  omega

/-- What is read for a block. -/
theorem window_written
    (reached : Reached setup callback stream past written number blocker first)
    (isWritten : IsWritten setup stream written past)
    (inChunk : first < setup.chunkSize)
    (channel : Fin setup.numInputChannels) :
    window (List.replicate setup.chunkSize 0 ++ written channel)
        (setup.chunkSize + setup.shiftAmount * number) setup.blockSize =
      window (stream channel) (setup.shiftAmount * number)
        setup.blockSize := by
  have place := reached.place
  have room := reached.room isWritten.multiple inChunk
  have size := isWritten.size channel
  obtain ⟨more, isStream⟩ := isWritten.isPrefix channel
  unfold Setup.capacity at room
  rw [window_leading _ (by rw [List.length_replicate]; omega),
    List.length_replicate, Nat.add_sub_cancel_left, ← isStream,
    window_append (by omega)]

/-- Adding a block to the sums so far. -/
theorem addFrames
    (reached : Reached setup callback stream past written number blocker first)
    (room : first + setup.blockSize ≤ setup.capacity)
    (channel : Fin setup.numOutputChannels) :
    addFrames (blocker.outputBuffer channel) first
        (setup.windowedBlock callback stream channel number)
        setup.blockSize =
      some
        ((List.range setup.capacity).map fun index =>
          partialSum setup.shiftAmount
            (setup.windowedBlock callback stream channel) (number + 1)
            (past + index)) := by
  have place := reached.place
  have length :
      (setup.windowedBlock callback stream channel number).length =
        setup.blockSize :=
    setup.length_blockState (number + 1) channel
  have added :=
    addFrames_eq
      (fun index =>
        partialSum setup.shiftAmount
          (setup.windowedBlock callback stream channel) number
          (past + index))
      (show
        first + (setup.windowedBlock callback stream channel number).length ≤
          setup.capacity by omega)
  rw [length] at added
  rw [reached.outputBuffer channel, added, Option.some.injEq]
  refine List.map_congr_left fun index _ => ?_
  rw [partialSum_succ]
  congr 1
  split
  next started =>
      exact (contribution_of_started (by omega)).symm
  next ahead =>
      exact (contribution_of_ahead (by omega)).symm

/-- A turn of the loop, where an `int` can hold the position of the rings. -/
theorem processBlock
    (reached : Reached setup callback stream past written number blocker first)
    (isWritten : IsWritten setup stream written past)
    (inChunk : first < setup.chunkSize)
    (isInt : setup.capacity < 2 ^ 31)
    (fits : setup.Fits number) :
    ∃ next,
      blocker.processBlock first = some next ∧
        Reached setup callback stream past written (number + 1) next
          (first + setup.shiftAmount) := by
  have place := reached.place
  have room := reached.room isWritten.multiple inChunk
  have shift := setup.shiftLe
  have isCapacity : setup.capacity = setup.chunkSize + setup.initialDelay := rfl
  have length :
      ∀ channel,
        (List.replicate setup.chunkSize 0 ++ written channel).length =
          setup.chunkSize +
            (setup.initialDelay + past + setup.chunkSize) := by
    intro channel
    rw [List.length_append, List.length_replicate, isWritten.size]
  have carries := reached.inputBuffer (by omega)
  obtain ⟨read, isRead, readCarries⟩ :=
    carries.read isInt fits (fun channel => by rw [length]; omega)
  obtain ⟨moved, isMoved, movedCarries⟩ :=
    @AudioRingBuffer.CarriesAll.moveReadPositionBackward _ _ _ _ _ _ _
      readCarries isInt (setup.blockSize - setup.shiftAmount)
      (fun channel => by rw [length]; omega)
      (fun channel => by rw [length]; omega)
  have content := funext (reached.window_written isWritten inChunk)
  rw [content] at isRead
  have after :
      setup.blockState callback stream (number + 1) =
        (let processed :=
          setup.processBlock blocker.callback
            (fun channel =>
              applyWindow setup.window
                (window (stream channel) (setup.shiftAmount * number)
                  setup.blockSize))
            blocker.outputBlock
        (processed.1,
          fun channel => applyWindow setup.window (processed.2 channel))) := by
    rw [Setup.blockState, reached.blockState]
  have added :
      ∀ channel,
        Blocking.addFrames (blocker.outputBuffer channel) first
            ((setup.blockState callback stream (number + 1)).2 channel)
            setup.blockSize =
          some
            ((List.range setup.capacity).map fun index =>
              partialSum setup.shiftAmount
                (setup.windowedBlock callback stream channel) (number + 1)
                (past + index)) :=
    reached.addFrames room
  rw [after] at added
  refine
    ⟨{ blocker with
        inputBuffer := moved
        outputBuffer := fun channel =>
          (List.range setup.capacity).map fun index =>
            partialSum setup.shiftAmount
              (setup.windowedBlock callback stream channel) (number + 1)
              (past + index)
        outputBlock := (setup.blockState callback stream (number + 1)).2
        callback := (setup.blockState callback stream (number + 1)).1 },
      ?_, ?_⟩
  · unfold Blocker.processBlock
    simp only [isRead, Option.bind_eq_bind, Option.bind_some, isMoved,
      allChannels_eq_some added, after]
  · exact
      { place := by
          rw [Nat.mul_succ]
          omega
        inputBuffer := by
          intro positive
          have position :
              setup.chunkSize + setup.shiftAmount * number +
                    setup.blockSize -
                  (setup.blockSize - setup.shiftAmount) =
                setup.chunkSize + setup.shiftAmount * (number + 1) := by
            rw [Nat.mul_succ]
            omega
          rw [position] at movedCarries
          exact movedCarries
        noBuffer := by
          intro isZero
          omega
        outputBuffer := fun channel => rfl
        ended := by
          intro earlier before
          obtain earlier | isLast := Nat.lt_succ_iff_lt_or_eq.mp before
          · exact reached.ended _ earlier
          · rw [isLast]
            omega
        blockState := rfl }

/-- A turn of the loop, where no `int` can hold the position. -/
theorem processBlock_of_overflow
    (reached : Reached setup callback stream past written number blocker first)
    (isWritten : IsWritten setup stream written past)
    (inChunk : first < setup.chunkSize)
    (isInt : setup.capacity < 2 ^ 31)
    (overflow : ¬setup.Fits number) :
    blocker.processBlock first = none := by
  have place := reached.place
  have room := reached.room isWritten.multiple inChunk
  have isCapacity : setup.capacity = setup.chunkSize + setup.initialDelay := rfl
  have carries := reached.inputBuffer (by omega)
  obtain ⟨positive, beyond⟩ := Classical.not_imp.mp overflow
  have missing :=
    carries.read_of_overflow ⟨0, positive⟩ isInt (not_lt.mp beyond)
      (by
        rw [List.length_append, List.length_replicate, isWritten.size]
        omega)
  unfold Blocker.processBlock
  rw [missing]
  rfl

/-- The loop ends behind the chunk, unless an `int` cannot hold a position in between. -/
theorem processBlocks
    (reached : Reached setup callback stream past written number blocker first)
    (isWritten : IsWritten setup stream written past)
    (isInt : setup.capacity < 2 ^ 31) :
    (∃ last lastFirst lastNumber,
      blocker.processBlocks first = some (last, lastFirst) ∧
        Reached setup callback stream past written lastNumber last
            lastFirst ∧
          setup.chunkSize ≤ lastFirst ∧
            ∀ block,
              number ≤ block → block < lastNumber → setup.Fits block) ∨
      blocker.processBlocks first = none ∧
        ∃ block,
          setup.shiftAmount * block < past + setup.chunkSize ∧
            ¬setup.Fits block := by
  have place := reached.place
  induction left : setup.chunkSize - first using Nat.strong_induction_on
    generalizing blocker first number with
  | _ left inductionHypothesis =>
      unfold Blocker.processBlocks
      split
      next inChunk =>
          by_cases fits : setup.Fits number
          · obtain ⟨next, isNext, nextReached⟩ :=
              reached.processBlock isWritten inChunk isInt fits
            have positive := setup.shiftPositive
            rw [isNext, Option.bind_some]
            obtain ⟨last, lastFirst, lastNumber, isLast, lastReached, behind,
              allFit⟩ | overflow :=
                inductionHypothesis _ (by omega) nextReached
                  nextReached.place rfl
            · refine
                .inl
                  ⟨last, lastFirst, lastNumber, isLast, lastReached, behind,
                    ?_⟩
              intro block notBefore before
              obtain isFirst | later := Nat.eq_or_lt_of_le notBefore
              · exact isFirst ▸ fits
              · exact allFit block later before
            · exact .inr overflow
          · refine .inr ⟨?_, number, by omega, fits⟩
            rw [reached.processBlock_of_overflow isWritten inChunk isInt fits]
            rfl
      next behind =>
          refine
            .inl
              ⟨blocker, first, number, rfl, reached, not_lt.mp behind, ?_⟩
          intro block later earlier
          omega

/-! ## Chunks -/

/-- Writing a chunk. -/
theorem write
    (reached :
      Reached setup callback stream past written number blocker
        blocker.frameOffset)
    (chunk : Chunk setup)
    (size :
      ∀ channel,
        (written channel).length = setup.initialDelay + past) :
    ∃ inputBuffer,
      blocker.inputBuffer.write chunk.frames = some inputBuffer ∧
        Reached setup callback stream past
          (fun channel => written channel ++ chunk.frames channel) number
          { blocker with inputBuffer } blocker.frameOffset := by
  have place := reached.place
  have isCapacity : setup.capacity = setup.chunkSize + setup.initialDelay := rfl
  obtain isZero | positive := Nat.eq_zero_or_pos setup.capacity
  · have nothing : ∀ channel, (chunk.frames channel).length = 0 := by
      intro channel
      rw [chunk.size]
      omega
    refine
      ⟨_, AudioRingBuffer.write_of_none (reached.noBuffer isZero) nothing,
        ?_⟩
    exact
      { reached with
        inputBuffer := fun positive => absurd isZero positive.ne'
        noBuffer := fun _ _ => rfl }
  · obtain ⟨next, isNext, carries⟩ :=
      @AudioRingBuffer.CarriesAll.write _ _ _ _ _ _ _
        (reached.inputBuffer positive) chunk.frames
        (fun channel => by
          rw [List.length_append, List.length_replicate, size, chunk.size]
          omega)
    refine ⟨next, isNext, ?_⟩
    exact
      { reached with
        inputBuffer := by
          intro _
          simp only [List.append_assoc] at carries
          exact carries
        noBuffer := fun isZero => absurd isZero positive.ne' }

/-- What is given back for a chunk, and where the next one starts. -/
theorem finish
    (reached : Reached setup callback stream past written number blocker first)
    (behind : setup.chunkSize ≤ first) :
    let next : Blocker setup :=
      { blocker with
        outputBuffer := fun channel =>
          zeroOut
            (moveFrames (blocker.outputBuffer channel) setup.chunkSize
              setup.initialDelay 0)
            setup.initialDelay setup.chunkSize
        frameOffset := first - setup.chunkSize }
    Reached setup callback stream (past + setup.chunkSize) written number next
        next.frameOffset ∧
      ∀ channel,
        copyFrames (blocker.outputBuffer channel) 0 setup.chunkSize =
          (List.range setup.chunkSize).map fun index =>
            overlapAdd setup.shiftAmount
              (setup.windowedBlock callback stream channel)
              (past + index) := by
  have place := reached.place
  have isCapacity : setup.capacity = setup.chunkSize + setup.initialDelay := rfl
  constructor
  · exact
      { reached with
        place := by
          dsimp only
          omega
        outputBuffer := by
          intro channel
          dsimp only
          rw [reached.outputBuffer channel, isCapacity, zeroOut_moveFrames]
          refine List.map_congr_left fun index _ => ?_
          split
          next =>
              rw [Nat.add_assoc]
          next beyond =>
              refine (partialSum_of_ended fun earlier before => ?_).symm
              have ended := reached.ended earlier before
              have length :
                  (setup.windowedBlock callback stream channel
                      earlier).length =
                    setup.blockSize :=
                setup.length_blockState (earlier + 1) channel
              omega
        ended := by
          intro earlier before
          have ended := reached.ended earlier before
          omega }
  · intro channel
    rw [reached.outputBuffer channel]
    unfold copyFrames
    rw [List.drop_zero, ← List.map_take, List.take_range,
      min_eq_left (by omega)]
    refine List.map_congr_left fun index inRange => ?_
    have inChunk := List.mem_range.mp inRange
    exact partialSum_eq_overlapAdd setup.shiftPositive (by omega)

/-- A chunk is given back and the next one can follow, unless an `int` cannot hold a
position in between. -/
theorem processChunk
    (reached :
      Reached setup callback stream past written number blocker
        blocker.frameOffset)
    (isInt : setup.capacity < 2 ^ 31)
    (chunk : Chunk setup)
    (size :
      ∀ channel,
        (written channel).length = setup.initialDelay + past)
    (isWritten :
      IsWritten setup stream
        (fun channel => written channel ++ chunk.frames channel) past) :
    (∃ next output nextNumber,
      blocker.processChunk chunk = some (next, output) ∧
        Reached setup callback stream (past + setup.chunkSize)
            (fun channel => written channel ++ chunk.frames channel)
            nextNumber next next.frameOffset ∧
          (∀ channel,
            output channel =
              (List.range setup.chunkSize).map fun index =>
                overlapAdd setup.shiftAmount
                  (setup.windowedBlock callback stream channel)
                  (past + index)) ∧
            ∀ block,
              number ≤ block → block < nextNumber → setup.Fits block) ∨
      blocker.processChunk chunk = none ∧
        ∃ block,
          setup.shiftAmount * block < past + setup.chunkSize ∧
            ¬setup.Fits block := by
  obtain ⟨inputBuffer, isWrite, writeReached⟩ := reached.write chunk size
  unfold Blocker.processChunk
  rw [isWrite]
  simp only [Option.bind_eq_bind, Option.bind_some]
  obtain ⟨last, lastFirst, lastNumber, isLast, lastReached, behind, allFit⟩ |
    ⟨missing, overflow⟩ := writeReached.processBlocks isWritten isInt
  · obtain ⟨nextReached, output⟩ := lastReached.finish behind
    rw [isLast]
    exact .inl ⟨_, _, lastNumber, rfl, nextReached, output, allFit⟩
  · rw [missing]
    exact .inr ⟨rfl, overflow⟩

/-- So are the chunks of a run. -/
theorem processChunks
    (reached :
      Reached setup callback stream past written number blocker
        blocker.frameOffset)
    (isInt : setup.capacity < 2 ^ 31)
    (chunks : List (Chunk setup))
    (size :
      ∀ channel,
        (written channel).length = setup.initialDelay + past)
    (multiple : setup.chunkSize ∣ past)
    (isStream :
      ∀ channel,
        stream channel =
          written channel ++
            chunks.flatMap fun chunk => chunk.frames channel) :
    (∃ final outputs,
      blocker.processChunks chunks = some (final, outputs) ∧
        (∀ channel,
          outputs.flatMap (fun output => output channel) =
            (List.range (chunks.length * setup.chunkSize)).map fun index =>
              overlapAdd setup.shiftAmount
                (setup.windowedBlock callback stream channel)
                (past + index)) ∧
          ∀ block,
            number ≤ block →
              setup.shiftAmount * block <
                  past + chunks.length * setup.chunkSize →
                setup.Fits block) ∨
      blocker.processChunks chunks = none ∧
        ∃ block,
          setup.shiftAmount * block <
              past + chunks.length * setup.chunkSize ∧
            ¬setup.Fits block := by
  induction chunks generalizing past written number blocker with
  | nil =>
      refine .inl ⟨blocker, [], rfl, by simp, ?_⟩
      intro block later inRange
      have place := reached.place
      have ordered := Nat.mul_le_mul_left setup.shiftAmount later
      rw [List.length_nil, Nat.zero_mul] at inRange
      omega
  | cons chunk rest inductionHypothesis =>
      have total :
          past + (chunk :: rest).length * setup.chunkSize =
            past + setup.chunkSize + rest.length * setup.chunkSize := by
        rw [List.length_cons, Nat.succ_mul]
        omega
      have isWritten :
          IsWritten setup stream
            (fun channel => written channel ++ chunk.frames channel) past :=
        { isPrefix := by
            intro channel
            rw [isStream, List.flatMap_cons, ← List.append_assoc]
            exact List.prefix_append ..
          size := by
            intro channel
            rw [List.length_append, size, chunk.size]
          multiple }
      unfold Blocker.processChunks
      rw [total]
      obtain ⟨next, output, nextNumber, isNext, nextReached, isOutput,
        chunkFits⟩ | ⟨missing, block, inChunk, overflow⟩ :=
          reached.processChunk isInt chunk size isWritten
      · rw [isNext, Option.bind_some]
        obtain ⟨final, outputs, isFinal, isOutputs, restFits⟩ |
          ⟨missing, overflow⟩ :=
            inductionHypothesis nextReached
              (fun channel => by rw [isWritten.size, Nat.add_assoc])
              ((Nat.dvd_add_right multiple).mpr dvd_rfl)
              (fun channel => by
                rw [isStream, List.flatMap_cons, List.append_assoc])
        · refine .inl ⟨final, output :: outputs, ?_, ?_, ?_⟩
          · rw [isFinal]
            rfl
          · intro channel
            rw [List.flatMap_cons, isOutput, isOutputs, List.length_cons,
              Nat.succ_mul, Nat.add_comm (rest.length * _), List.range_add,
              List.map_append, List.map_map]
            congr 1
            refine List.map_congr_left fun index _ => ?_
            rw [Function.comp_apply, Nat.add_assoc]
          · intro block later inRange
            by_cases inRest : nextNumber ≤ block
            · exact restFits block inRest inRange
            · exact chunkFits block later (not_le.mp inRest)
        · rw [missing]
          exact .inr ⟨rfl, overflow⟩
      · refine .inr ⟨?_, block, by omega, overflow⟩
        rw [missing]
        rfl

end Reached

/-- A blocker stands at the start of its stream, which the delay precedes. -/
theorem reached_create
    (setup : Setup Sample State)
    (isInt : setup.capacity < 2 ^ 31)
    (callback : State)
    (stream : Channels setup.numInputChannels Sample) :
    ∃ blocker,
      Blocker.create setup callback = some blocker ∧
        Reached setup callback stream 0
          (fun _ => List.replicate setup.initialDelay 0) 0 blocker
          blocker.frameOffset := by
  have isCapacity : setup.capacity = setup.chunkSize + setup.initialDelay := rfl
  have start :
      ∀ channel : Fin setup.numOutputChannels,
        List.replicate setup.capacity (0 : Sample) =
          (List.range setup.capacity).map fun index =>
            partialSum setup.shiftAmount
              (setup.windowedBlock callback stream channel) 0
              (0 + index) := by
    intro channel
    refine (List.eq_replicate_iff.mpr ⟨?_, ?_⟩).symm
    · rw [List.length_map, List.length_range]
    · intro value member
      obtain ⟨index, -, rfl⟩ := List.mem_map.mp member
      exact Finset.sum_range_zero _
  unfold Blocker.create
  obtain isZero | positive := Nat.eq_zero_or_pos setup.capacity
  · have none :
        ∀ channel,
          (AudioRingBuffer.create setup.numInputChannels setup.capacity
              (0 : Sample)).buffers channel = .none := by
      intro channel
      exact if_pos isZero
    have noDelay : setup.initialDelay = 0 := by
      omega
    rw [noDelay, AudioRingBuffer.moveReadPositionBackward_of_none none]
    refine ⟨_, rfl, ?_⟩
    exact
      { place := rfl
        inputBuffer := fun positive => absurd isZero positive.ne'
        noBuffer := fun _ _ => rfl
        outputBuffer := start
        ended := fun _ before => absurd before (Nat.not_lt_zero _)
        blockState := rfl }
  · obtain ⟨moved, isMoved, carries⟩ :=
      @AudioRingBuffer.CarriesAll.moveReadPositionBackward _ _ _ _ _ _ _
        (AudioRingBuffer.carriesAll_create (0 : Sample) positive) isInt
        setup.initialDelay
        (fun channel => by rw [List.length_replicate]; omega)
        (fun channel => by rw [List.length_replicate])
    rw [isMoved]
    refine ⟨_, rfl, ?_⟩
    exact
      { place := rfl
        inputBuffer := by
          intro _
          have position :
              setup.capacity - setup.initialDelay = setup.chunkSize := by
            omega
          rw [position, Int.zero_sub] at carries
          intro channel
          obtain ⟨ring, isRing, ringCarries, isPosition⟩ := carries channel
          refine ⟨ring, isRing, ?_, isPosition⟩
          rw [← List.replicate_add, ← isCapacity]
          exact ringCarries
        noBuffer := fun isZero => absurd isZero positive.ne'
        outputBuffer := start
        ended := fun _ before => absurd before (Nat.not_lt_zero _)
        blockState := rfl }

/-- A run that takes the rings to where no `int` can hold their position ends without a
result. -/
theorem not_delivers_of_overflow
    (setup : Setup Sample State)
    (isInt : setup.capacity < 2 ^ 31)
    (callback : State)
    (chunks : List (Chunk setup))
    {block : Nat}
    (inRange :
      setup.shiftAmount * block < chunks.length * setup.chunkSize)
    (overflow : ¬setup.Fits block) :
    ¬setup.Delivers callback chunks := by
  rintro ⟨created, final, outputs, isCreated, isRun, -⟩
  obtain ⟨blocker, isBlocker, reached⟩ :=
    reached_create setup isInt callback (setup.delayedStream chunks)
  obtain rfl := Option.some.inj (isBlocker.symm.trans isCreated)
  obtain ⟨-, -, -, -, allFit⟩ | ⟨missing, -⟩ :=
    reached.processChunks isInt chunks
      (fun channel => List.length_replicate) (Nat.dvd_zero _)
      (fun channel => rfl)
  · exact overflow (allFit block (Nat.zero_le _) (by omega))
  · rw [missing] at isRun
    cases isRun

/-- In buffers whose size is an `int`, every run of chunks gives back the overlap-add of
the processed blocks, behind the initial delay, as long as an `int` can hold where the
rings stand behind each block, and no longer. -/
theorem delivers_iff
    (setup : Setup Sample State)
    (isInt : setup.capacity < 2 ^ 31)
    (callback : State)
    (chunks : List (Chunk setup)) :
    setup.Delivers callback chunks ↔
      ∀ block,
        setup.shiftAmount * block < chunks.length * setup.chunkSize →
          setup.Fits block := by
  constructor
  · intro delivers block inRange
    by_contra overflow
    exact
      not_delivers_of_overflow setup isInt callback chunks inRange overflow
        delivers
  · intro allFit
    obtain ⟨blocker, isBlocker, reached⟩ :=
      reached_create setup isInt callback (setup.delayedStream chunks)
    obtain ⟨final, outputs, isRun, delivered, -⟩ |
      ⟨-, block, inRange, overflow⟩ :=
        reached.processChunks isInt chunks
          (fun channel => List.length_replicate) (Nat.dvd_zero _)
          (fun channel => rfl)
    · refine ⟨blocker, final, outputs, isBlocker, isRun, fun channel => ?_⟩
      rw [delivered channel]
      simp only [Nat.zero_add]
    · exact absurd (allFit block (by omega)) overflow

/-- Three channels in, two out, and a callback that adds 3 to every sample. -/
def plusThree : Setup Int Unit where
  chunkSize := 5
  blockSize := 4
  numInputChannels := 3
  numOutputChannels := 2
  window := [2, 2, 2, 2]
  shiftAmount := 2
  processBlock _ input _ :=
    ((), fun channel =>
      (List.range 4).map fun index =>
        (input channel.castSucc).getD index 0 + 3)
  channelsLe := by decide
  shiftLe := by decide
  shiftPositive := Nat.zero_lt_two
  windowSize := rfl
  blockKept _ _ _ _ _ := by
    rw [List.length_map, List.length_range]

theorem delivers_plusThree :
    plusThree.Delivers ()
      [⟨fun channel => List.replicate 5 (channel + 1 : Nat),
        fun _ => List.length_replicate⟩] := by
  have isCapacity : plusThree.capacity = 8 := by
    unfold Setup.capacity Setup.initialDelay
    rw [gcd_eq]
    rfl
  refine (delivers_iff plusThree (by omega) () _).mpr ?_
  intro block inRange _
  have few : block < 3 := by
    simp only [plusThree, List.length_singleton] at inRange
    omega
  have isDelay : plusThree.initialDelay = 3 := by
    unfold Setup.initialDelay
    rw [gcd_eq]
    rfl
  interval_cases block <;>
    simp only [Setup.readPos, isCapacity, isDelay] <;> decide

/-- Chunks and blocks of one size, for a callback that leaves them as they are. -/
def unchanged (size : Nat) (positive : 0 < size) : Setup Int Unit where
  chunkSize := size
  blockSize := size
  numInputChannels := 1
  numOutputChannels := 1
  window := List.replicate size 1
  shiftAmount := size
  processBlock _ input _ :=
    ((), fun channel =>
      (List.range size).map fun index => (input channel).getD index 0)
  channelsLe := Nat.le_refl _
  shiftLe := Nat.le_refl _
  shiftPositive := positive
  windowSize := List.length_replicate
  blockKept _ _ _ _ _ := by
    rw [List.length_map, List.length_range]

/-- A chunk of silence. -/
def silence (size : Nat) (positive : 0 < size) :
    Chunk (unchanged size positive) where
  frames _ := List.replicate size 0
  size _ := List.length_replicate

/-- In the second chunk of 2^30 samples, the rings are read from their end on, and moved
by 2^30 more. -/
theorem not_delivers_silence :
    ¬(unchanged (2 ^ 30) (by decide)).Delivers ()
      [silence (2 ^ 30) (by decide), silence (2 ^ 30) (by decide)] := by
  have noDelay : (unchanged (2 ^ 30) (by decide)).initialDelay = 0 := by
    unfold Setup.initialDelay
    rw [gcd_eq]
    decide
  have isCapacity : (unchanged (2 ^ 30) (by decide)).capacity = 2 ^ 30 := by
    unfold Setup.capacity
    rw [noDelay]
    rfl
  refine
    @not_delivers_of_overflow _ _ _ (unchanged (2 ^ 30) (by decide))
      (by rw [isCapacity]; decide) () _ 1 ?_ ?_
  · simp only [unchanged]
    decide
  · intro fits
    have atEnd : (unchanged (2 ^ 30) (by decide)).readPos 1 = 2 ^ 30 := by
      simp only [Setup.readPos, isCapacity, noDelay]
      decide
    have below := fits (by decide)
    rw [atEnd] at below
    exact absurd below (by decide)

end ApmSdk.Blocking
