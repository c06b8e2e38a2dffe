import ApmSdk.AudioRingBuffer
import ApmSdk.OverlapAdd
import Mathlib.Algebra.Ring.Defs

namespace ApmSdk.Blocking

open ApmSdk.OverlapAdd

/-!
# Re-blocking a stream

`Blocker` is given a stream in chunks of one size and hands it to a callback in windowed
blocks of another, one every `shift_amount` samples.  The processed blocks are windowed
again and overlap-added, and what is finished of the sum is given back in chunks.
-/

/-- `gcd` -/
def gcd (a b : Nat) : Nat :=
  if b = 0 then a else gcd b (a % b)
termination_by b
decreasing_by exact Nat.mod_lt _ (by omega)

theorem gcd_eq (a b : Nat) : gcd a b = Nat.gcd a b := by
  induction a, b using gcd.induct with
  | case1 a =>
      rw [gcd, if_pos rfl, Nat.gcd_zero_right]
  | case2 a b positive inductionHypothesis =>
      rw [gcd, if_neg positive, inductionHypothesis, Nat.gcd_comm a b,
        Nat.gcd_rec b a, Nat.gcd_comm]

/-- What a `Blocker` is constructed with, where its checks hold, and the callback, which
is given what is left in the output block and writes no more than that. -/
structure Setup (Sample State : Type) where
  chunkSize : Nat
  blockSize : Nat
  numInputChannels : Nat
  numOutputChannels : Nat
  window : List Sample
  shiftAmount : Nat
  processBlock :
    State →
      Channels numInputChannels Sample →
        Channels numOutputChannels Sample →
          State × Channels numOutputChannels Sample
  channelsLe : numOutputChannels ≤ numInputChannels
  shiftLe : shiftAmount ≤ blockSize
  shiftPositive : 0 < shiftAmount
  windowSize : window.length = blockSize
  blockKept :
    ∀ state input output,
      (∀ channel, (output channel).length = blockSize) →
        ∀ channel,
          ((processBlock state input output).2 channel).length = blockSize

/-! ## Frames of a channel -/

section Frames

variable {Sample : Type} [Semiring Sample]

/-- `ApplyWindow` -/
def applyWindow (window frames : List Sample) : List Sample :=
  frames.zipWith (· * ·) window

/-- `AddFrames`, into the buffer that is added to; `none` outside of it. -/
def addFrames
    (a : List Sample)
    (start : Nat)
    (b : List Sample)
    (numFrames : Nat) : Option (List Sample) :=
  if start + numFrames ≤ a.length then
    some (memcpy a start ((a.drop start).zipWith (· + ·) (b.take numFrames)))
  else none

/-- `CopyFrames` -/
def copyFrames (src : List Sample) (start numFrames : Nat) : List Sample :=
  (src.drop start).take numFrames

/-- `MoveFrames` within a buffer. -/
def moveFrames
    (src : List Sample)
    (start numFrames destination : Nat) : List Sample :=
  memcpy src destination ((src.drop start).take numFrames)

/-- `ZeroOut` -/
def zeroOut (buffer : List Sample) (start numFrames : Nat) : List Sample :=
  memcpy buffer start (List.replicate numFrames 0)

end Frames

namespace Setup

variable {Sample State : Type} (setup : Setup Sample State)

/-- `initial_delay_` -/
def initialDelay : Nat :=
  setup.blockSize - gcd setup.chunkSize setup.shiftAmount

/-- The size of the input and of the output buffer. -/
def capacity : Nat :=
  setup.chunkSize + setup.initialDelay

/-- The delay is what a block has more than the steps between the places of blocks and
chunks. -/
theorem initialDelay_add (setup : Setup Sample State) :
    setup.initialDelay + Nat.gcd setup.chunkSize setup.shiftAmount =
      setup.blockSize := by
  have least :=
    Nat.le_of_dvd setup.shiftPositive
      (Nat.gcd_dvd_right setup.chunkSize setup.shiftAmount)
  have shift := setup.shiftLe
  unfold initialDelay
  rw [gcd_eq]
  omega

end Setup

/-- A chunk of the size that `ProcessChunk` checks. -/
structure Chunk {Sample State : Type} (setup : Setup Sample State) where
  frames : Channels setup.numInputChannels Sample
  size : ∀ channel, (frames channel).length = setup.chunkSize

/-- `Blocker`, with the state of its callback. -/
structure Blocker {Sample State : Type} (setup : Setup Sample State) where
  frameOffset : Nat
  inputBuffer : AudioRingBuffer setup.numInputChannels Sample
  outputBuffer : Channels setup.numOutputChannels Sample
  outputBlock : Channels setup.numOutputChannels Sample
  callback : State

namespace Blocker

variable {Sample State : Type} [Semiring Sample]
variable {setup : Setup Sample State}

/-- `Blocker::Blocker` -/
def create
    (setup : Setup Sample State)
    (callback : State) : Option (Blocker setup) :=
  ((AudioRingBuffer.create setup.numInputChannels setup.capacity
      (0 : Sample)).moveReadPositionBackward setup.initialDelay).map
    fun inputBuffer =>
      { frameOffset := 0
        inputBuffer
        outputBuffer := fun _ => List.replicate setup.capacity 0
        outputBlock := fun _ => List.replicate setup.blockSize 0
        callback }

/-- A turn of the loop through the blocks. -/
def processBlock
    (blocker : Blocker setup)
    (firstFrameInBlock : Nat) : Option (Blocker setup) := do
  let (inputBuffer, inputBlock) ← blocker.inputBuffer.read setup.blockSize
  let inputBuffer ←
    inputBuffer.moveReadPositionBackward (setup.blockSize - setup.shiftAmount)
  let processed :=
    setup.processBlock blocker.callback
      (fun channel => applyWindow setup.window (inputBlock channel))
      blocker.outputBlock
  let outputBlock :=
    fun channel => applyWindow setup.window (processed.2 channel)
  let outputBuffer ←
    allChannels fun channel =>
      addFrames (blocker.outputBuffer channel) firstFrameInBlock
        (outputBlock channel) setup.blockSize
  some
    { blocker with
      inputBuffer
      outputBuffer
      outputBlock
      callback := processed.1 }

/-- The loop through the blocks, with `first_frame_in_block` behind it. -/
def processBlocks
    (blocker : Blocker setup)
    (firstFrameInBlock : Nat) : Option (Blocker setup × Nat) :=
  if firstFrameInBlock < setup.chunkSize then
    (blocker.processBlock firstFrameInBlock).bind fun next =>
      next.processBlocks (firstFrameInBlock + setup.shiftAmount)
  else some (blocker, firstFrameInBlock)
termination_by setup.chunkSize - firstFrameInBlock
decreasing_by
  have := setup.shiftPositive
  omega

/-- `Blocker::ProcessChunk` -/
def processChunk
    (blocker : Blocker setup)
    (chunk : Chunk setup) :
    Option (Blocker setup × Channels setup.numOutputChannels Sample) := do
  let inputBuffer ← blocker.inputBuffer.write chunk.frames
  let (blocker, firstFrameInBlock) ←
    { blocker with inputBuffer }.processBlocks blocker.frameOffset
  some
    ({ blocker with
        outputBuffer := fun channel =>
          zeroOut
            (moveFrames (blocker.outputBuffer channel) setup.chunkSize
              setup.initialDelay 0)
            setup.initialDelay setup.chunkSize
        frameOffset := firstFrameInBlock - setup.chunkSize },
      fun channel =>
        copyFrames (blocker.outputBuffer channel) 0 setup.chunkSize)

/-- Chunks one after another, with the chunks that are given back. -/
def processChunks
    (blocker : Blocker setup) :
    List (Chunk setup) →
      Option
        (Blocker setup × List (Channels setup.numOutputChannels Sample))
  | [] => some (blocker, [])
  | chunk :: rest =>
      (blocker.processChunk chunk).bind fun processed =>
        (processed.1.processChunks rest).map fun later =>
          (later.1, processed.2 :: later.2)

end Blocker

/-! ## What a run must deliver -/

namespace Setup

variable {Sample State : Type} [Semiring Sample]
variable (setup : Setup Sample State)

/-- The stream of the chunks behind the initial delay. -/
def delayedStream
    (chunks : List (Chunk setup)) :
    Channels setup.numInputChannels Sample :=
  fun channel =>
    List.replicate setup.initialDelay 0 ++
      chunks.flatMap fun chunk => chunk.frames channel

/-- The callback after some blocks of a stream, one every `shiftAmount` samples, and the
last block, windowed again. -/
def blockState
    (callback : State)
    (stream : Channels setup.numInputChannels Sample) :
    Nat → State × Channels setup.numOutputChannels Sample
  | 0 => (callback, fun _ => List.replicate setup.blockSize 0)
  | number + 1 =>
      let before := blockState callback stream number
      let processed :=
        setup.processBlock before.1
          (fun channel =>
            applyWindow setup.window
              (ApmSdk.window (stream channel) (setup.shiftAmount * number)
                setup.blockSize))
          before.2
      (processed.1,
        fun channel => applyWindow setup.window (processed.2 channel))

/-- A block of the stream, windowed, processed and windowed again. -/
def windowedBlock
    (callback : State)
    (stream : Channels setup.numInputChannels Sample)
    (channel : Fin setup.numOutputChannels)
    (number : Nat) : List Sample :=
  (setup.blockState callback stream (number + 1)).2 channel

/-- No check fails, and the chunks given back are the overlap-add of the blocks of the
delayed stream. -/
def Delivers (callback : State) (chunks : List (Chunk setup)) : Prop :=
  ∃ blocker final outputs,
    Blocker.create setup callback = some blocker ∧
      blocker.processChunks chunks = some (final, outputs) ∧
        ∀ channel,
          outputs.flatMap (fun output => output channel) =
            (List.range (chunks.length * setup.chunkSize)).map
              (overlapAdd setup.shiftAmount
                (setup.windowedBlock callback (setup.delayedStream chunks)
                  channel))

/-- Where the rings are read for a block. -/
def readPos : Nat → Int
  | 0 => RingBuffer.wrapPos setup.capacity (-setup.initialDelay)
  | number + 1 =>
      RingBuffer.wrapPos setup.capacity
        (RingBuffer.wrapPos setup.capacity
            (readPos number + setup.blockSize) -
          (setup.blockSize - setup.shiftAmount : Nat))

/-- Behind a block, an `int` can hold the position of the rings. -/
def Fits (number : Nat) : Prop :=
  0 < setup.numInputChannels →
    setup.readPos number + setup.blockSize < 2 ^ 31

end Setup

end ApmSdk.Blocking
