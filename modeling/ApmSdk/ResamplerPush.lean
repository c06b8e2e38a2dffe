import ApmSdk.ArrayCopies
import ApmSdk.Resampler

namespace ApmSdk.Resampler

/-!
# Pushing samples through a resampler

`Push` runs the samples it is given through the filters of its mode, by way of buffers that it
allocates, into a buffer of the caller's.  Reads and writes outside of a buffer, and filters
that are not there or are of another kind, have no value.  What the block converters compute
is left open, but for how many samples they put out.
-/

open ArrayCopies

/-- The `WebRtcSpl_Resample` functions for blocks: what they put out for a block, and the words
of the state behind it. -/
structure Converters where
  run : Converter → List Int → List Int → List Int × List Int
  length_run :
    ∀ which words block,
      block.length = which.inLength →
        (run which words block).1.length = which.outLength

/-- The function that a filter is run with. -/
inductive Routine where
  | upsampleBy2
  | downsampleBy2
  | convert (which : Converter)

variable (converters : Converters)

/-- What a function puts out for a block, and the memory behind it. -/
def Routine.run :
    Routine → FilterMemory → List Int → Option (List Int × FilterMemory)
  | upsampleBy2, .by2 filtState, block =>
      let (produced, filtState) := HalfBand.upsampleBy2 filtState block
      some (produced, .by2 filtState)
  | downsampleBy2, .by2 filtState, block =>
      let (produced, filtState) := HalfBand.downsampleBy2 filtState block
      some (produced, .by2 filtState)
  | convert which, .converter other words, block =>
      if other = which then
        let (produced, words) := converters.run which words block
        some (produced, .converter which words)
      else none
  | _, _, _ => none

/-- A call of a function on a part of an input, for a part of an output. -/
def Routine.call
    (routine : Routine)
    (input : List Int)
    (start count : Nat)
    (output : List Int)
    (offset : Nat)
    (state : Option Filter) : Option (List Int × Option Filter) := do
  let filter ← state
  let block ← slice input start count
  let (produced, memory) ← routine.run converters filter.memory block
  let output ← overwrite output offset produced
  return (output, some ⟨memory, filter.fed + count⟩)

/-- One pass over an input into an output. -/
abbrev Pass : Type :=
  List Int → List Int → Option Filter → Option (List Int × Option Filter)

/-- `WebRtcSpl_UpsampleBy2` -/
def upsampleBy2 (length : Nat) : Pass :=
  fun input output state =>
    Routine.upsampleBy2.call converters input 0 length output 0 state

/-- `WebRtcSpl_DownsampleBy2` -/
def downsampleBy2 (length : Nat) : Pass :=
  fun input output state =>
    Routine.downsampleBy2.call converters input 0 length output 0 state

/-- A number of turns of the loop that runs a converter on one block after another. -/
def convertTurns
    (which : Converter)
    (offset : Nat → Nat)
    (turns : Nat) : Pass :=
  fun input output state =>
    (List.range turns).foldlM
      (fun (output, state) turn =>
        let i := turn * which.inLength
        (Routine.convert which).call converters input i which.inLength output
          (offset i) state)
      (output, state)

/-- The loop takes turns as long as a block begins within the length. -/
def convertBlocks
    (which : Converter)
    (offset : Nat → Nat)
    (length : Nat) : Pass :=
  convertTurns converters which offset
    ((length + which.inLength - 1) / which.inLength)

/-- `malloc` of a number of bytes, as samples of two bytes. -/
def malloc (bytes : Nat) : List Int :=
  List.replicate (bytes / 2) 0

/-- What `Push` returns and leaves behind. -/
structure Pushed (State : Type) where
  result : Int
  samplesOut : List Int
  outLen : Nat
  state : State
deriving Repr, DecidableEq

section Channel

variable (channel : Channel)
variable (samplesIn samplesOut : List Int)
variable (outLen : Nat)

/-- `return -1` before anything has been done. -/
def reject : Option (Pushed Channel) :=
  some ⟨-1, samplesOut, outLen, channel⟩

/-- A mode with one filter. -/
def pushThrough (pass : Pass) (outLen : Nat) : Option (Pushed Channel) := do
  let (samplesOut, state1) ←
    pass samplesIn samplesOut channel.states.state1
  return ⟨0, samplesOut, outLen,
    { channel with states := { channel.states with state1 } }⟩

/-- A mode with two filters and a buffer between them. -/
def pushVia
    (first : Pass)
    (tmpBytes : Nat)
    (second : Pass)
    (outLen : Nat) : Option (Pushed Channel) := do
  let (tmp, state1) ←
    first samplesIn (malloc tmpBytes) channel.states.state1
  let (samplesOut, state2) ← second tmp samplesOut channel.states.state2
  return ⟨0, samplesOut, outLen,
    { channel with states := { channel.states with state1, state2 } }⟩

/-- The mode from 1 to 12, which puts the samples of its first filter into the output. -/
def push1To12 : Option (Pushed Channel) := do
  let lengthIn := samplesIn.length
  let tmp := malloc (2 * 4 * lengthIn)
  let (samplesOut, state1) ←
    upsampleBy2 converters lengthIn samplesIn samplesOut
      channel.states.state1
  let outLen := lengthIn * 2
  let (tmp, state2) ←
    upsampleBy2 converters outLen samplesOut tmp channel.states.state2
  let outLen := outLen * 2
  let (samplesOut, state3) ←
    convertBlocks converters .from16khzTo48khz (fun i => i * 3) outLen tmp
      samplesOut channel.states.state3
  return ⟨0, samplesOut, outLen * 3,
    { channel with states := { state1, state2, state3 } }⟩

/-- The mode from 11 to 32, which puts the samples of its first filter into the output. -/
def push11To32 : Option (Pushed Channel) := do
  let lengthIn := samplesIn.length
  let tmp := malloc (2 * lengthIn * 2)
  let (samplesOut, state1) ←
    upsampleBy2 converters lengthIn samplesIn samplesOut
      channel.states.state1
  let (tmp, state2) ←
    convertBlocks converters .from22khzTo16khz (fun i => i / 220 * 160)
      (lengthIn * 2) samplesOut tmp channel.states.state2
  let (samplesOut, state3) ←
    upsampleBy2 converters (lengthIn * 16 / 11) tmp samplesOut
      channel.states.state3
  return ⟨0, samplesOut, lengthIn * 32 / 11,
    { channel with states := { state1, state2, state3 } }⟩

/-- The mode from 12 to 1, with two buffers between its filters. -/
def push12To1 : Option (Pushed Channel) := do
  let lengthIn := samplesIn.length
  let tmp := malloc (2 * lengthIn / 3)
  let tmp2 := malloc (2 * lengthIn / 6)
  let (tmp, state1) ←
    convertBlocks converters .from48khzTo16khz (fun i => i / 3) lengthIn
      samplesIn tmp channel.states.state1
  let outLen := lengthIn / 3
  let (tmp2, state2) ←
    downsampleBy2 converters outLen tmp tmp2 channel.states.state2
  let outLen := outLen / 2
  let (samplesOut, state3) ←
    downsampleBy2 converters outLen tmp2 samplesOut channel.states.state3
  return ⟨0, samplesOut, outLen / 2,
    { channel with states := { state1, state2, state3 } }⟩

/-- The mode from 3 to 2, which looks at the length behind its first filter. -/
def push3To2 : Option (Pushed Channel) := do
  let maxLen := samplesOut.length
  let lengthIn := samplesIn.length
  if maxLen < lengthIn * 2 / 3 then
    reject channel samplesOut outLen
  else
    let tmp := malloc (2 * lengthIn * 2)
    let (tmp, state1) ←
      upsampleBy2 converters lengthIn samplesIn tmp channel.states.state1
    let lengthIn := lengthIn * 2
    if lengthIn % 480 ≠ 0 then
      some ⟨-1, samplesOut, outLen,
        { channel with states := { channel.states with state1 } }⟩
    else
      let (samplesOut, state2) ←
        convertBlocks converters .from48khzTo16khz (fun i => i / 3) lengthIn
          tmp samplesOut channel.states.state2
      return ⟨0, samplesOut, lengthIn / 3,
        { channel with states := { channel.states with state1, state2 } }⟩

/-- The switch of `Push`. -/
def Channel.pushMode (mode : ResamplerMode) : Option (Pushed Channel) :=
  let lengthIn := samplesIn.length
  let maxLen := samplesOut.length
  let rejected := reject channel samplesOut outLen
  let through := pushThrough channel samplesIn samplesOut
  let via := pushVia channel samplesIn samplesOut
  let up := upsampleBy2 converters
  let down := downsampleBy2 converters
  let convert := convertBlocks converters
  match mode with
  | .mode1To1 => do
      let samplesOut ← overwrite samplesOut 0 samplesIn
      return ⟨0, samplesOut, lengthIn, channel⟩
  | .mode1To2 =>
      if maxLen < lengthIn * 2 then rejected
      else through (up lengthIn) (lengthIn * 2)
  | .mode1To3 =>
      if lengthIn % 160 ≠ 0 then rejected
      else if maxLen < lengthIn * 3 then rejected
      else
        through
          (convert .from16khzTo48khz (fun i => i * 3) lengthIn)
          (lengthIn * 3)
  | .mode1To4 =>
      if maxLen < lengthIn * 4 then rejected
      else
        via (up lengthIn) (2 * 2 * lengthIn) (up (lengthIn * 2))
          (lengthIn * 4)
  | .mode1To6 =>
      if lengthIn % 80 ≠ 0 then rejected
      else if maxLen < lengthIn * 6 then rejected
      else
        via (up lengthIn) (2 * 2 * lengthIn)
          (convert .from16khzTo48khz (fun i => i * 3) (lengthIn * 2))
          (lengthIn * 2 * 3)
  | .mode1To12 =>
      if lengthIn % 40 ≠ 0 then rejected
      else if maxLen < lengthIn * 12 then rejected
      else push1To12 converters channel samplesIn samplesOut
  | .mode2To3 =>
      if maxLen < lengthIn * 3 / 2 then rejected
      else if lengthIn % 160 ≠ 0 then rejected
      else
        via (convert .from16khzTo48khz (fun i => i * 3) lengthIn)
          (2 * lengthIn * 3) (down (lengthIn * 3)) (lengthIn * 3 / 2)
  | .mode2To11 =>
      if lengthIn % 80 ≠ 0 then rejected
      else if maxLen < lengthIn * 11 / 2 then rejected
      else
        via (up lengthIn) (2 * 2 * lengthIn)
          (convert .from8khzTo22khz (fun i => i * 11 / 4) (lengthIn * 2))
          (lengthIn * 2 * 11 / 4)
  | .mode4To11 =>
      if lengthIn % 80 ≠ 0 then rejected
      else if maxLen < lengthIn * 11 / 4 then rejected
      else
        through (convert .from8khzTo22khz (fun i => i * 11 / 4) lengthIn)
          (lengthIn * 11 / 4)
  | .mode8To11 =>
      if lengthIn % 160 ≠ 0 then rejected
      else if maxLen < lengthIn * 11 / 8 then rejected
      else
        through (convert .from16khzTo22khz (fun i => i * 11 / 8) lengthIn)
          (lengthIn * 11 / 8)
  | .mode11To16 =>
      if lengthIn % 110 ≠ 0 then rejected
      else if maxLen < lengthIn * 16 / 11 then rejected
      else
        via (up lengthIn) (2 * lengthIn * 2)
          (convert .from22khzTo16khz (fun i => i / 220 * 160)
            (lengthIn * 2))
          (lengthIn * 16 / 11)
  | .mode11To32 =>
      if lengthIn % 110 ≠ 0 then rejected
      else if maxLen < lengthIn * 32 / 11 then rejected
      else push11To32 converters channel samplesIn samplesOut
  | .mode2To1 =>
      if maxLen < lengthIn / 2 then rejected
      else through (down lengthIn) (lengthIn / 2)
  | .mode3To1 =>
      if lengthIn % 480 ≠ 0 then rejected
      else if maxLen < lengthIn / 3 then rejected
      else
        through (convert .from48khzTo16khz (fun i => i / 3) lengthIn)
          (lengthIn / 3)
  | .mode4To1 =>
      if maxLen < lengthIn / 4 then rejected
      else
        via (down lengthIn) (2 * lengthIn / 2) (down (lengthIn / 2))
          (lengthIn / 4)
  | .mode6To1 =>
      if lengthIn % 480 ≠ 0 then rejected
      else if maxLen < lengthIn / 6 then rejected
      else
        via (convert .from48khzTo16khz (fun i => i / 3) lengthIn)
          (2 * lengthIn / 3) (down (lengthIn / 3)) (lengthIn / 3 / 2)
  | .mode12To1 =>
      if lengthIn % 480 ≠ 0 then rejected
      else if maxLen < lengthIn / 12 then rejected
      else push12To1 converters channel samplesIn samplesOut
  | .mode3To2 =>
      push3To2 converters channel samplesIn samplesOut outLen
  | .mode11To2 =>
      if lengthIn % 220 ≠ 0 then rejected
      else if maxLen < lengthIn * 2 / 11 then rejected
      else
        via (convert .from22khzTo8khz (fun i => i * 4 / 11) lengthIn)
          (lengthIn * 4 / 11 * 2) (down (lengthIn * 4 / 11))
          (lengthIn * 4 / 11 / 2)
  | .mode11To4 =>
      if lengthIn % 220 ≠ 0 then rejected
      else if maxLen < lengthIn * 4 / 11 then rejected
      else
        through (convert .from22khzTo8khz (fun i => i * 4 / 11) lengthIn)
          (lengthIn * 4 / 11)
  | .mode11To8 =>
      if lengthIn % 220 ≠ 0 then rejected
      else if maxLen < lengthIn * 8 / 11 then rejected
      else
        through (convert .from22khzTo16khz (fun i => i * 8 / 11) lengthIn)
          (lengthIn * 8 / 11)

/-- `Resampler::Push` for one channel. -/
def Channel.push : Option (Pushed Channel) :=
  channel.pushMode converters samplesIn samplesOut outLen channel.myMode

end Channel

/-! ## Two channels -/

/-- A turn of the loop that splits the samples. -/
def splitTurn
    (samplesIn : List Int)
    (channels : List Int × List Int)
    (turn : Nat) : Option (List Int × List Int) := do
  let (left, right) := channels
  let i := turn * 2
  let left ← overwrite left (i / 2) [← samplesIn[i]?]
  let right ← overwrite right (i / 2) [← samplesIn[i + 1]?]
  return (left, right)

/-- The loop takes turns as long as a left sample is within the length. -/
def splitChannels
    (samplesIn : List Int) : Option (List Int × List Int) :=
  (List.range ((samplesIn.length + 1) / 2)).foldlM (splitTurn samplesIn)
    (malloc (samplesIn.length * 2 / 2), malloc (samplesIn.length * 2 / 2))

/-- A turn of the loop that puts the samples together again. -/
def joinTurn
    (outLeft outRight samplesOut : List Int)
    (i : Nat) : Option (List Int) := do
  let samplesOut ← overwrite samplesOut (i * 2) [← outLeft[i]?]
  overwrite samplesOut (i * 2 + 1) [← outRight[i]?]

/-- The loop puts a number of samples of each channel together. -/
def joinChannels
    (outLeft outRight samplesOut : List Int)
    (length : Nat) : Option (List Int) :=
  (List.range length).foldlM (joinTurn outLeft outRight) samplesOut

/-- `Resampler::Push` -/
def push
    (resampler : Resampler)
    (samplesIn samplesOut : List Int)
    (outLen : Nat) : Option (Pushed Resampler) :=
  if resampler.numChannels = 2 then do
    let maxLen := samplesOut.length
    let (left, right) ← splitChannels samplesIn
    let slaveLeft ← resampler.slaveLeft
    let slaveRight ← resampler.slaveRight
    let pushedLeft ←
      slaveLeft.push converters left (malloc (maxLen / 2 * 2)) 0
    let pushedRight ←
      slaveRight.push converters right (malloc (maxLen / 2 * 2)) 0
    let next : Resampler :=
      { resampler with
        slaveLeft := some pushedLeft.state
        slaveRight := some pushedRight.state }
    if pushedLeft.result ≠ 0 ∨ pushedRight.result ≠ 0 ∨
        pushedLeft.outLen ≠ pushedRight.outLen then
      return ⟨-1, samplesOut, outLen, next⟩
    else
      let samplesOut ←
        joinChannels pushedLeft.samplesOut pushedRight.samplesOut samplesOut
          pushedLeft.outLen
      return ⟨0, samplesOut, 2 * pushedLeft.outLen, next⟩
  else do
    let pushed ←
      resampler.toChannel.push converters samplesIn samplesOut outLen
    return ⟨pushed.result, pushed.samplesOut, pushed.outLen,
      { resampler with toChannel := pushed.state }⟩

end ApmSdk.Resampler
