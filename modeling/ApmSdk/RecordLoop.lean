import ApmSdk.LabelledPath
import ApmSdk.StreamReframer

namespace ApmSdk.RecordLoop

open StreamReframer (Covered Session processStream initialSession)

/-!
# The record loop and the decoder callback

The record thread reads microphone bytes into one buffer and, while the
decoder has delivered something, passes the buffer and the decoder's chunk to
`processStream`.  The two threads share the slot `bgmData[0]`, which the record
thread reads three times in an iteration: for the null test, for the wrapped
buffer and for the length.

Chunks are numbered in decoding order.  The model records which chunk an
iteration took, with the samples it passed for it.
-/

/-- `sampleRateInHz` -/
def sampleRateInHz : Nat :=
  48000

/-- The `byte[2048]` the microphone is read into. -/
structure RecordBuffer where
  bytes : List UInt8
  length : bytes.length = 2048
  deriving DecidableEq

/-- The shorts of a byte buffer in native (little-endian) order. -/
def asShortBuffer : List UInt8 → List Short
  | low :: high :: rest =>
      Int16.ofNat (low.toNat + 256 * high.toNat) :: asShortBuffer rest
  | _ => []

/-- An odd last byte makes no short. -/
@[simp]
theorem length_asShortBuffer
    (bytes : List UInt8) :
    (asShortBuffer bytes).length = bytes.length / 2 := by
  fun_induction asShortBuffer bytes with
  | case1 low high rest inductionHypothesis =>
      simp only [List.length_cons, inductionHypothesis]
      omega
  | case2 bytes short =>
      match bytes, short with
      | [], _ => simp
      | [_], _ => simp
      | low :: high :: rest, short => exact (short low high rest rfl).elim

/-- `BufferUtils.getBuffer` on the record buffer. -/
def getBuffer
    (buffer : RecordBuffer)
    (length : Nat) : Except JavaThrowable ShortArray :=
  if inBuffer : length / 2 ≤ (asShortBuffer buffer.bytes).length then
    .ok ⟨(asShortBuffer buffer.bytes).take (length / 2), by
      have size := buffer.length
      simp only [length_asShortBuffer, size] at inBuffer
      simp only [List.length_take, length_asShortBuffer, size]
      omega⟩
  else
    .error .bufferUnderflow

/-- Bytes the decoder handed over, with their number in decoding order. -/
structure Chunk where
  index : Nat
  bytes : List UInt8
  deriving Repr, DecidableEq

/-- Far-end samples of a `processStream` call, with the chunk they stand for. -/
structure FarInput where
  index : Nat
  samples : ShortArray
  deriving Repr, DecidableEq

/-- What one iteration read, and the near-end samples it made of it. -/
structure Iteration where
  reported : List UInt8
  near : ShortArray
  deriving Repr, DecidableEq

/-- Where the record thread is; `near` is its local `byteBuffershorts`. -/
inductive RecordPoint where
  | loopHead
  | testSlot (near : ShortArray)
  | wrapSlot (near : ShortArray)
  | readSlot (near : ShortArray)
  | process (near : ShortArray) (far : FarInput)
  | finished
  deriving Repr, DecidableEq

/-- The variables of both threads, with what has gone through them. -/
structure Recorder where
  buffer : RecordBuffer
  bgmData : Option Chunk
  point : RecordPoint
  session : Session
  decoded : List (List UInt8)
  iterations : List Iteration
  farInputs : List FarInput
  deriving DecidableEq

/-- `new byte[2048]` and an empty slot. -/
def started : Recorder where
  buffer := ⟨List.replicate 2048 0, List.length_replicate⟩
  bgmData := none
  point := .loopHead
  session := initialSession
  decoded := []
  iterations := []
  farInputs := []

/-- The steps of the two threads. -/
inductive Step where
  /-- `getAudioDecoderData` -/
  | callback (chunk : List UInt8)
  /-- `isRecording` is false at the loop head. -/
  | leaveLoop
  /-- `audioRecord.read` reports these bytes, or none and an error code. -/
  | read (reported : List UInt8)
  /-- The record thread runs to its next read of the slot, or on from it. -/
  | advance
  deriving Repr, DecidableEq

namespace Recorder

/-- `getAudioDecoderData`: overwrite the slot. -/
def callback
    (recorder : Recorder)
    (chunk : List UInt8) : Recorder :=
  { recorder with
    bgmData := some ⟨recorder.decoded.length, chunk⟩
    decoded := recorder.decoded ++ [chunk] }

/-- The record buffer after a read that reports these bytes. -/
def readInto
    (buffer : RecordBuffer)
    (reported : List UInt8)
    (fits : reported.length ≤ 2048) : RecordBuffer where
  bytes := reported ++ buffer.bytes.drop reported.length
  length := by
    have size := buffer.length
    simp only [List.length_append, List.length_drop]
    omega

/--
The start of an iteration.  The near-end samples are taken from the whole
buffer, `buffer.length` bytes, whatever the read reported.
-/
def read
    (recorder : Recorder)
    (reported : List UInt8)
    (fits : reported.length ≤ 2048) : Recorder :=
  let buffer := readInto recorder.buffer reported fits
  match getBuffer buffer buffer.bytes.length with
  | .error _ => { recorder with buffer, point := .finished }
  | .ok near =>
      { recorder with
        buffer
        point := .testSlot near
        iterations := recorder.iterations ++ [⟨reported, near⟩] }

/--
The next step of an iteration.  The far-end samples are taken from
`byteBuffer`, which wraps the record buffer; only their number comes from the
slot.
-/
def advance (recorder : Recorder) : Option Recorder :=
  match recorder.point with
  | .loopHead => none
  | .testSlot near =>
      match recorder.bgmData with
      | none => some { recorder with point := .loopHead }
      | some _ => some { recorder with point := .wrapSlot near }
  | .wrapSlot near =>
      match recorder.bgmData with
      | none => some { recorder with point := .finished }
      | some _ => some { recorder with point := .readSlot near }
  | .readSlot near =>
      match recorder.bgmData with
      | none => some { recorder with point := .finished }
      | some chunk =>
          match getBuffer recorder.buffer chunk.bytes.length with
          | .error _ => some { recorder with point := .finished }
          | .ok samples =>
              some { recorder with
                point := .process near ⟨chunk.index, samples⟩ }
  | .process near far =>
      let called :=
        processStream sampleRateInHz near far.samples recorder.session
      some { recorder with
        session := called.1
        farInputs := recorder.farInputs ++ [far]
        point :=
          match called.2 with
          | none => .loopHead
          | some _ => .finished }
  | .finished => none

/-- The state after a step, if the step can be taken. -/
def next
    (recorder : Recorder) : Step → Option Recorder
  | .callback chunk => some (recorder.callback chunk)
  | .leaveLoop =>
      if recorder.point = .loopHead then
        some { recorder with point := .finished }
      else
        none
  | .read reported =>
      if fits : reported.length ≤ 2048 then
        if recorder.point = .loopHead then
          some (recorder.read reported fits)
        else
          none
      else
        none
  | .advance => recorder.advance

/-- The far input of a call about to be made. -/
def farInFlight (recorder : Recorder) : List FarInput :=
  match recorder.point with
  | .process _ far => [far]
  | _ => []

/-- Far inputs in the order of their `processStream` calls. -/
def farTaken (recorder : Recorder) : List FarInput :=
  recorder.farInputs ++ recorder.farInFlight

@[simp]
theorem callback_farTaken
    (recorder : Recorder)
    (chunk : List UInt8) :
    (recorder.callback chunk).farTaken = recorder.farTaken :=
  rfl

@[simp]
theorem callback_decoded
    (recorder : Recorder)
    (chunk : List UInt8) :
    (recorder.callback chunk).decoded = recorder.decoded ++ [chunk] :=
  rfl

@[simp]
theorem callback_point
    (recorder : Recorder)
    (chunk : List UInt8) :
    (recorder.callback chunk).point = recorder.point :=
  rfl

/-- Steps that make no call and have none to make leave the far inputs alone. -/
theorem farTaken_of_farInFlight
    {source target : Recorder}
    (sameInputs : target.farInputs = source.farInputs)
    (sourceIdle : source.farInFlight = [])
    (targetIdle : target.farInFlight = []) :
    target.farTaken = source.farTaken := by
  simp [farTaken, sameInputs, sourceIdle, targetIdle]

end Recorder

/-- The transition relation of the two threads. -/
abbrev recorderStep : Recorder → Step → Recorder → Prop :=
  stepOf Recorder.next

end ApmSdk.RecordLoop
