import ApmSdk.JavaArrays
import ApmSdk.RingBuffer

namespace ApmSdk.Aecm

/-!
# An instance of the mobile echo canceller

`echo_control_mobile.c` and the frame layer of `aecm_core.c`.  The spectral work
on one block of 64 samples is a parameter: `InitCore` sets every field it keeps,
from the sampling frequency alone.  `none` is behaviour that C leaves undefined: an
`int` that overflows, or an array read where nothing has been written.
-/

/-- `FRAME_LEN` -/
abbrev frameLen : Nat := 80

/-- `PART_LEN` -/
abbrev partLen : Nat := 64

/-- `FAR_BUF_LEN` -/
abbrev farBufLen : Nat := 256

/-- `BUF_SIZE_FRAMES` -/
abbrev bufSizeFrames : Nat := 50

/-- `kSampMsNb` -/
abbrev sampMsNb : Nat := 8

/-- `kInitCheck` -/
abbrev initCheck : Int := 42

/-- `AECM_UNINITIALIZED_ERROR` -/
abbrev uninitializedError : Int := 12002

/-- `AECM_NULL_POINTER_ERROR` -/
abbrev nullPointerError : Int := 12003

/-- `AECM_BAD_PARAMETER_ERROR` -/
abbrev badParameterError : Int := 12004

/-- `AECM_BAD_PARAMETER_WARNING` -/
abbrev badParameterWarning : Int := 12100

/-- A `short` array of a fixed size. -/
abbrev Samples (size : Nat) :=
  { samples : List Short // samples.length = size }

namespace Samples

/-- The array filled from a list; `none` where elements would be missing. -/
def ofList?
    (size : Nat)
    (samples : List Short) : Option (Samples size) :=
  if full : samples.length = size then some ⟨samples, full⟩ else none

/-- `memset` to zero. -/
def zeros (size : Nat) : Samples size :=
  ⟨List.replicate size 0, List.length_replicate⟩

/-- `memcpy` into the array; `none` where it would write past the end. -/
def copyTo
    {size : Nat}
    (array : Samples size)
    (position : Nat)
    (source : List Short) : Option (Samples size) :=
  if fits : position + source.length ≤ array.1.length then
    some ⟨memcpy array.1 position source,
      (length_memcpy fits).trans array.2⟩
  else
    none

/-- `memset` of the first bytes of the array to zero. -/
def clear
    {size : Nat}
    (array : Samples size)
    (bytes : Nat) : Samples size :=
  ⟨List.replicate (min (bytes / 2) size) 0 ++
      array.1.drop (min (bytes / 2) size), by
    simp only [List.length_append, List.length_replicate,
      List.length_drop, array.2]
    omega⟩

end Samples

/-- A `short` that an `int` is stored in. -/
def toShort (value : Int) : Int :=
  Int.bmod value (2 ^ 16)

/-- The spectral part of `aecm_core.c`: what it keeps between blocks, and what it
does with one. -/
structure BlockProcessor where
  /-- The fields of `AecmCore` that only `WebRtcAecm_ProcessBlock` uses. -/
  State : Type
  /-- What `WebRtcAecm_InitCore` sets them to. -/
  init : Int → State
  /-- `aecm->aecmCore->cngMode = …` -/
  setCngMode : State → Int → State
  /-- The suppression gains that `WebRtcAecm_set_config` sets. -/
  setEchoMode : State → Int → State
  /-- `WebRtcAecm_ProcessBlock` of the far, the noisy and the clean near block; no
  block comes out where it returns -1. -/
  processBlock :
    State →
    Samples partLen →
    Samples partLen →
    Option (Samples partLen) →
    State × Option (Samples partLen)

/-- `AecmCore` -/
structure AecmCore (processor : BlockProcessor) where
  farBufWritePos : Nat
  farBufReadPos : Nat
  knownDelay : Int
  lastKnownDelay : Int
  farFrameBuf : RingBuffer Short
  nearNoisyFrameBuf : RingBuffer Short
  nearCleanFrameBuf : RingBuffer Short
  outFrameBuf : RingBuffer Short
  farBuf : Samples farBufLen
  mult : Int
  block : processor.State

namespace AecmCore

variable {processor : BlockProcessor}

/-- `WebRtcAecm_InitCore`, for a frequency that has been checked. -/
def initCore
    (aecm : AecmCore processor)
    (samplingFreq : Int) : AecmCore processor :=
  { aecm with
    mult := samplingFreq / 8000
    farBufWritePos := 0
    farBufReadPos := 0
    knownDelay := 0
    lastKnownDelay := 0
    farFrameBuf := aecm.farFrameBuf.initBuffer 0
    nearNoisyFrameBuf := aecm.nearNoisyFrameBuf.initBuffer 0
    nearCleanFrameBuf := aecm.nearCleanFrameBuf.initBuffer 0
    outFrameBuf := aecm.outFrameBuf.initBuffer 0
    block := processor.init samplingFreq }

/-- `WebRtcAecm_BufferFarFrame`; a frame wraps at most once. -/
def bufferFarFrame
    (aecm : AecmCore processor)
    (farend : Samples frameLen) : Option (AecmCore processor) :=
  if aecm.farBufWritePos + frameLen > farBufLen then do
    let writeLen := farBufLen - aecm.farBufWritePos
    let first ←
      aecm.farBuf.copyTo aecm.farBufWritePos (farend.1.take writeLen)
    let second ← first.copyTo 0 (farend.1.drop writeLen)
    some { aecm with
      farBuf := second
      farBufWritePos := frameLen - writeLen }
  else do
    let copied ← aecm.farBuf.copyTo aecm.farBufWritePos farend.1
    some { aecm with
      farBuf := copied
      farBufWritePos := aecm.farBufWritePos + frameLen }

/-- `WebRtcAecm_FetchFarFrame`; the two loops bring the position into the array. -/
def fetchFarFrame
    (aecm : AecmCore processor)
    (knownDelay : Int) :
    Option (AecmCore processor × Samples frameLen) := do
  let delayChange := knownDelay - aecm.lastKnownDelay
  let readPos :=
    ((aecm.farBufReadPos - delayChange) % (farBufLen : Int)).toNat
  let (readPos, samples) :=
    if readPos + frameLen > farBufLen then
      let readLen := farBufLen - readPos
      (frameLen - readLen,
        (aecm.farBuf.1.drop readPos).take readLen ++
          aecm.farBuf.1.take (frameLen - readLen))
    else
      (readPos + frameLen, (aecm.farBuf.1.drop readPos).take frameLen)
  let farend ← Samples.ofList? frameLen samples
  some ({ aecm with
    lastKnownDelay := knownDelay
    farBufReadPos := readPos }, farend)

/-- `WebRtc_ReadBuffer` of a block: through the pointer it returns, which may see
elements past the ones that were there to be read. -/
def readBlock
    (buffer : RingBuffer Short) :
    Option (RingBuffer Short × Samples partLen) := do
  let (target, result) ← buffer.readBuffer true partLen
  let seen :=
    match result.pointer with
    | .view position => (target.data.drop position).take partLen
    | .callerData => result.copied
  let block ← Samples.ofList? partLen seen
  some (target, block)

/-- `WebRtc_ReadBuffer` of a clean block, where there is a clean near end. -/
def readClean
    (hasClean : Bool)
    (buffer : RingBuffer Short) :
    Option (RingBuffer Short × Option (Samples partLen)) :=
  if hasClean then
    (readBlock buffer).map fun read => (read.1, some read.2)
  else
    some (buffer, none)

/-- One block of the loop of `WebRtcAecm_ProcessFrame`; the flag is down when
`WebRtcAecm_ProcessBlock` has failed. -/
def processOneBlock
    (hasClean : Bool)
    (aecm : AecmCore processor) : Option (AecmCore processor × Bool) := do
  let (farFrameBuf, far) ← readBlock aecm.farFrameBuf
  let (nearNoisyFrameBuf, noisy) ← readBlock aecm.nearNoisyFrameBuf
  let (nearCleanFrameBuf, clean) ←
    readClean hasClean aecm.nearCleanFrameBuf
  let (block, outBlock) :=
    processor.processBlock aecm.block far noisy clean
  let outFrameBuf :=
    match outBlock with
    | some outBlock => (aecm.outFrameBuf.writeBuffer outBlock.1).1
    | none => aecm.outFrameBuf
  some
    ({ aecm with
        farFrameBuf := farFrameBuf
        nearNoisyFrameBuf := nearNoisyFrameBuf
        nearCleanFrameBuf := nearCleanFrameBuf
        outFrameBuf := outFrameBuf
        block := block },
      outBlock.isSome)

/-- The blocks that `WebRtcAecm_ProcessFrame` finds in the buffered frames. -/
def processBlocks
    (hasClean : Bool) :
    Nat →
    AecmCore processor →
    Option (AecmCore processor × Bool)
  | 0, aecm => some (aecm, true)
  | blocks + 1, aecm => do
      let (aecm, succeeded) ← aecm.processOneBlock hasClean
      if succeeded then
        processBlocks hasClean blocks aecm
      else
        some (aecm, false)

/-- Stuff an output buffer that holds less than a frame. -/
def stuffOutput
    (outFrameBuf : RingBuffer Short) : Option (RingBuffer Short) :=
  let size := asInt outFrameBuf.availableRead
  if size < frameLen then
    (outFrameBuf.moveReadPtr (size - frameLen)).map Prod.fst
  else
    some outFrameBuf

/-- An output frame. -/
def readOutput
    (outFrameBuf : RingBuffer Short) :
    Option (RingBuffer Short × Samples frameLen) := do
  let stuffed ← stuffOutput outFrameBuf
  let (target, result) ← stuffed.readBuffer true frameLen
  let out ← Samples.ofList? frameLen (result.elements target)
  some (target, out)

/-- Buffer the synchronised far and near frames. -/
def bufferFrames
    (aecm : AecmCore processor)
    (farFrame nearendNoisy : Samples frameLen)
    (nearendClean : Option (Samples frameLen)) : AecmCore processor :=
  { aecm with
    farFrameBuf := (aecm.farFrameBuf.writeBuffer farFrame.1).1
    nearNoisyFrameBuf :=
      (aecm.nearNoisyFrameBuf.writeBuffer nearendNoisy.1).1
    nearCleanFrameBuf :=
      match nearendClean with
      | some clean => (aecm.nearCleanFrameBuf.writeBuffer clean.1).1
      | none => aecm.nearCleanFrameBuf }

/-- Obtain the output frame, unless a block has failed. -/
def finishFrame
    (aecm : AecmCore processor)
    (processed : Bool) :
    Option (AecmCore processor × Option (Samples frameLen)) :=
  if processed then
    (readOutput aecm.outFrameBuf).map fun read =>
      ({ aecm with outFrameBuf := read.1 }, some read.2)
  else
    some (aecm, none)

/-- `WebRtcAecm_ProcessFrame` from the fetched far frame on; no frame comes out
where it returns -1. -/
def processFetched
    (aecm : AecmCore processor)
    (farFrame nearendNoisy : Samples frameLen)
    (nearendClean : Option (Samples frameLen)) :
    Option (AecmCore processor × Option (Samples frameLen)) := do
  let aecm := aecm.bufferFrames farFrame nearendNoisy nearendClean
  let (aecm, processed) ←
    processBlocks nearendClean.isSome
      (aecm.farFrameBuf.availableRead / partLen) aecm
  aecm.finishFrame processed

/-- `WebRtcAecm_ProcessFrame` -/
def processFrame
    (aecm : AecmCore processor)
    (farend nearendNoisy : Samples frameLen)
    (nearendClean : Option (Samples frameLen)) :
    Option (AecmCore processor × Option (Samples frameLen)) := do
  let aecm ← aecm.bufferFarFrame farend
  let (aecm, farFrame) ← aecm.fetchFarFrame aecm.knownDelay
  aecm.processFetched farFrame nearendNoisy nearendClean

end AecmCore

/-- `AecMobile` -/
structure AecMobile (processor : BlockProcessor) where
  sampFreq : Int
  bufSizeStart : Int
  knownDelay : Int
  /-- The two rows of `farendOld`, the last frames read from `farendBuf`. -/
  farendOld : Samples frameLen × Samples frameLen
  initFlag : Int
  counter : Int
  sum : Int
  firstVal : Int
  checkBufSizeCtr : Int
  msInSndCardBuf : Int
  filtDelay : Int
  timeForDelayChange : Int
  ecStartup : Bool
  checkBuffSize : Bool
  delayChange : Bool
  lastDelayDiff : Int
  echoMode : Int
  farendBuf : RingBuffer Short
  aecmCore : AecmCore processor

/-- What a call returns, and what it has written to `out`. -/
structure Answer where
  retVal : Int
  out : List Short
  deriving Repr, DecidableEq

namespace AecMobile

variable {processor : BlockProcessor}

/-- `WebRtcAecm_Create` in memory that holds anything, with memory enough. -/
def create
    (memory : AecMobile processor) : Option (AecMobile processor) := do
  let farFrameBuf ← RingBuffer.createBuffer (frameLen + partLen) 0
  let nearNoisyFrameBuf ← RingBuffer.createBuffer (frameLen + partLen) 0
  let nearCleanFrameBuf ← RingBuffer.createBuffer (frameLen + partLen) 0
  let outFrameBuf ← RingBuffer.createBuffer (frameLen + partLen) 0
  let farendBuf ← RingBuffer.createBuffer (bufSizeFrames * frameLen) 0
  some { memory with
    initFlag := 0
    farendBuf := farendBuf
    aecmCore := { memory.aecmCore with
      farFrameBuf := farFrameBuf
      nearNoisyFrameBuf := nearNoisyFrameBuf
      nearCleanFrameBuf := nearCleanFrameBuf
      outFrameBuf := outFrameBuf } }

/-- `memset` from the start of the two rows of `farendOld`; a sample is two bytes. -/
def clearFarendOld
    (farendOld : Samples frameLen × Samples frameLen)
    (bytes : Nat) : Samples frameLen × Samples frameLen :=
  (farendOld.1.clear bytes, farendOld.2.clear (bytes - 2 * frameLen))

/-- `WebRtcAecm_set_config` -/
def setConfig
    (aecm : AecMobile processor)
    (cngMode echoMode : Int) : AecMobile processor × Answer :=
  if aecm.initFlag ≠ initCheck then
    (aecm, ⟨uninitializedError, []⟩)
  else if cngMode ≠ 0 ∧ cngMode ≠ 1 then
    (aecm, ⟨badParameterError, []⟩)
  else
    let core := aecm.aecmCore
    let core :=
      { core with block := processor.setCngMode core.block cngMode }
    if echoMode < 0 ∨ echoMode > 4 then
      ({ aecm with aecmCore := core }, ⟨badParameterError, []⟩)
    else
      ({ aecm with
          echoMode := toShort echoMode
          aecmCore :=
            { core with
              block := processor.setEchoMode core.block echoMode } },
        ⟨0, []⟩)

/-- `WebRtcAecm_Init` -/
def init
    (aecm : AecMobile processor)
    (sampFreq : Int) : AecMobile processor × Answer :=
  if sampFreq ≠ 8000 ∧ sampFreq ≠ 16000 then
    (aecm, ⟨badParameterError, []⟩)
  else
    let aecm :=
      { aecm with
        sampFreq := sampFreq
        aecmCore := aecm.aecmCore.initCore sampFreq
        farendBuf := aecm.farendBuf.initBuffer 0
        initFlag := initCheck
        delayChange := true
        sum := 0
        counter := 0
        checkBuffSize := true
        firstVal := 0
        ecStartup := true
        bufSizeStart := 0
        checkBufSizeCtr := 0
        filtDelay := 0
        timeForDelayChange := 0
        knownDelay := 0
        lastDelayDiff := 0
        farendOld := clearFarendOld aecm.farendOld 160 }
    aecm.setConfig 1 3

/-- `WebRtcAecm_DelayComp` -/
def delayComp
    (aecm : AecMobile processor) : Option (AecMobile processor) :=
  let nSampFar := asInt aecm.farendBuf.availableRead
  let nSampSndCard := aecm.msInSndCardBuf * sampMsNb * aecm.aecmCore.mult
  let delayNew := nSampSndCard - nSampFar
  let maxStuffSamp : Int := 10 * frameLen
  if delayNew > farBufLen - frameLen * aecm.aecmCore.mult then
    let nSampAdd := max (nSampSndCard / 2 - nSampFar) frameLen
    let nSampAdd := min nSampAdd maxStuffSamp
    (aecm.farendBuf.moveReadPtr (-nSampAdd)).map fun moved =>
      { aecm with
        farendBuf := moved.1
        delayChange := true }
  else
    some aecm

/-- `WebRtcAecm_GetBufferFarendError` -/
def getBufferFarendError
    (aecm : AecMobile processor)
    (farend : Option (List Short))
    (nrOfSamples : Nat) : Int :=
  if farend = none then
    nullPointerError
  else if aecm.initFlag ≠ initCheck then
    uninitializedError
  else if nrOfSamples ≠ 80 ∧ nrOfSamples ≠ 160 then
    badParameterError
  else
    0

/-- `WebRtcAecm_BufferFarend` -/
def bufferFarend
    (aecm : AecMobile processor)
    (farend : Option (List Short))
    (nrOfSamples : Nat) : Option (AecMobile processor × Answer) :=
  let err := aecm.getBufferFarendError farend nrOfSamples
  if err ≠ 0 then
    some (aecm, ⟨err, []⟩)
  else do
    let aecm ←
      if !aecm.ecStartup then
        aecm.delayComp
      else
        some aecm
    some ({ aecm with
      farendBuf :=
        (aecm.farendBuf.writeBuffer
          ((farend.getD []).take nrOfSamples)).1 }, ⟨0, []⟩)

/-- The start of `WebRtcAecm_EstBufDelay`: the new delay, and the buffer after a
move that brings the delay up to a frame. -/
def measureDelay
    (aecm : AecMobile processor)
    (msInSndCardBuf : Int) : Option (RingBuffer Short × Int) :=
  let nSampFar := toShort aecm.farendBuf.availableRead
  let nSampSndCard :=
    toShort (msInSndCardBuf * sampMsNb * aecm.aecmCore.mult)
  let delayNew := toShort (nSampSndCard - nSampFar)
  if delayNew < frameLen then
    (aecm.farendBuf.moveReadPtr frameLen).map fun moved =>
      (moved.1, toShort (delayNew + frameLen))
  else
    some (aecm.farendBuf, delayNew)

/-- The rest of `WebRtcAecm_EstBufDelay`: the filtered and the known delay. -/
def filterDelay
    (aecm : AecMobile processor)
    (farendBuf : RingBuffer Short)
    (delayNew : Int) : AecMobile processor :=
  let filtDelay :=
    toShort (max 0 ((8 * aecm.filtDelay + 2 * delayNew).tdiv 10))
  let diff := toShort (filtDelay - aecm.knownDelay)
  let timeForDelayChange :=
    if diff > 224 then
      if aecm.lastDelayDiff < 96 then 0 else aecm.timeForDelayChange + 1
    else if diff < 96 ∧ aecm.knownDelay > 0 then
      if aecm.lastDelayDiff > 224 then 0 else aecm.timeForDelayChange + 1
    else
      0
  { aecm with
    farendBuf := farendBuf
    filtDelay := filtDelay
    timeForDelayChange := timeForDelayChange
    lastDelayDiff := diff
    knownDelay :=
      if timeForDelayChange > 25 then
        max (filtDelay - 160) 0
      else
        aecm.knownDelay }

/-- `WebRtcAecm_EstBufDelay` -/
def estBufDelay
    (aecm : AecMobile processor)
    (msInSndCardBuf : Int) : Option (AecMobile processor) :=
  (aecm.measureDelay msInSndCardBuf).map fun measured =>
    aecm.filterDelay measured.1 measured.2

/-- `nmbrOfFilledBuffers` -/
def nmbrOfFilledBuffers (aecm : AecMobile processor) : Int :=
  (toShort aecm.farendBuf.availableRead).tdiv frameLen

/-- A row of `farendOld`. -/
def row
    (farendOld : Samples frameLen × Samples frameLen)
    (i : Nat) : Samples frameLen :=
  if i = 0 then farendOld.1 else farendOld.2

/-- Store a frame in a row of `farendOld`. -/
def setRow
    (farendOld : Samples frameLen × Samples frameLen)
    (i : Nat)
    (farend : Samples frameLen) : Samples frameLen × Samples frameLen :=
  if i = 0 then (farend, farendOld.2) else (farendOld.1, farend)

/-- The far-end frame for the near-end frame `i`: the next one in the buffer, which
is also stored, or the stored one when the buffer holds no whole frame. -/
def nextFarend
    (aecm : AecMobile processor)
    (i : Nat) : Option (AecMobile processor × Samples frameLen) :=
  if aecm.nmbrOfFilledBuffers > 0 then do
    let (target, result) ← aecm.farendBuf.readBuffer true frameLen
    let farend ← Samples.ofList? frameLen (result.elements target)
    some ({ aecm with
      farendBuf := target
      farendOld := setRow aecm.farendOld i farend }, farend)
  else
    some (aecm, row aecm.farendOld i)

/-- The delay estimate, made when all data of 10 ms is extracted. -/
def estimateAt
    (aecm : AecMobile processor)
    (i : Nat) : Option (AecMobile processor) :=
  if i = 0 ∧ aecm.sampFreq = 8000 ∨ i = 1 ∧ aecm.sampFreq = 16000 then
    aecm.estBufDelay aecm.msInSndCardBuf
  else
    some aecm

/-- The far-end frame for the near-end frame `i`, and the delay estimate. -/
def takeFarend
    (aecm : AecMobile processor)
    (i : Nat) : Option (AecMobile processor × Samples frameLen) := do
  let (aecm, farend) ← aecm.nextFarend i
  let aecm ← aecm.estimateAt i
  some (aecm, farend)

/-- The 80 samples of frame `i` of a caller's array. -/
def nearFrame
    (nearend : List Short)
    (i : Nat) : Option (Samples frameLen) :=
  Samples.ofList? frameLen ((nearend.drop (frameLen * i)).take frameLen)

/-- The same of an array that may be null. -/
def nearFrame? :
    Option (List Short) →
    Nat →
    Option (Option (Samples frameLen))
  | none, _ => some none
  | some nearend, i => (nearFrame nearend i).map some

/-- Frame `i` of an enabled canceller; no samples come out where the core fails. -/
def processNth
    (aecm : AecMobile processor)
    (nearendNoisy : List Short)
    (nearendClean : Option (List Short))
    (i : Nat) :
    Option (AecMobile processor × Option (Samples frameLen)) := do
  let (aecm, farend) ← aecm.takeFarend i
  let noisy ← nearFrame nearendNoisy i
  let clean ← nearFrame? nearendClean i
  let (core, out) ← aecm.aecmCore.processFrame farend noisy clean
  some ({ aecm with aecmCore := core }, out)

/-- The frames of an enabled canceller from frame `i` on: the samples written to
`out`, and whether every frame succeeded. -/
def processFrames
    (nearendNoisy : List Short)
    (nearendClean : Option (List Short)) :
    Nat →
    Nat →
    AecMobile processor →
    Option (AecMobile processor × List Short × Bool)
  | 0, _, aecm => some (aecm, [], true)
  | frames + 1, i, aecm => do
      let (aecm, out) ← aecm.processNth nearendNoisy nearendClean i
      match out with
      | none => some (aecm, [], false)
      | some out =>
          (processFrames nearendNoisy nearendClean frames (i + 1)
              aecm).map fun later =>
            (later.1, out.1 ++ later.2.1, later.2.2)

/-- The counters of the start-up phase.  `0.2 * msInSndCardBuf` exceeds an integer
exactly when a fifth of it does. -/
def countStable (aecm : AecMobile processor) : AecMobile processor :=
  let ms := aecm.msInSndCardBuf
  let firstVal := if aecm.counter = 0 then ms else aecm.firstVal
  let sum := if aecm.counter = 0 then 0 else aecm.sum
  let isStable : Bool :=
    5 * (firstVal - ms).natAbs < max ms (5 * sampMsNb)
  { aecm with
    checkBufSizeCtr := toShort (aecm.checkBufSizeCtr + 1)
    firstVal := firstVal
    sum := if isStable then toShort (sum + ms) else sum
    counter := if isStable then toShort (aecm.counter + 1) else 0 }

/-- The buffer size after enough stable frames; the product is a `size_t`. -/
def sizeFromSum
    (aecm : AecMobile processor)
    (nBlocks10ms : Int) : AecMobile processor :=
  if 6 ≤ asSize (aecm.counter * nBlocks10ms) then
    { aecm with
      bufSizeStart :=
        toShort (min
          ((3 * aecm.sum * aecm.aecmCore.mult).tdiv (aecm.counter * 40))
          bufSizeFrames)
      checkBuffSize := false }
  else
    aecm

/-- The buffer size of a really bad sound card. -/
def sizeFromLast
    (aecm : AecMobile processor)
    (nBlocks10ms : Int) : AecMobile processor :=
  if 50 < asSize (aecm.checkBufSizeCtr * nBlocks10ms) then
    { aecm with
      bufSizeStart :=
        toShort (min
          ((3 * aecm.msInSndCardBuf * aecm.aecmCore.mult).tdiv 40)
          bufSizeFrames)
      checkBuffSize := false }
  else
    aecm

/-- The stability check of the start-up phase. -/
def checkSoundCard
    (aecm : AecMobile processor)
    (nBlocks10ms : Int) : AecMobile processor :=
  (aecm.countStable.sizeFromSum nBlocks10ms).sizeFromLast nBlocks10ms

/-- The end of the start-up phase, when the far-end buffer holds about as much as
the sound card. -/
def leaveStartUp
    (aecm : AecMobile processor) : Option (AecMobile processor) :=
  if aecm.nmbrOfFilledBuffers = aecm.bufSizeStart then
    some { aecm with ecStartup := false }
  else if aecm.nmbrOfFilledBuffers > aecm.bufSizeStart then
    (aecm.farendBuf.moveReadPtr
        (asInt aecm.farendBuf.availableRead -
          aecm.bufSizeStart * frameLen)).map fun moved =>
      { aecm with
        farendBuf := moved.1
        ecStartup := false }
  else
    some aecm

/-- The start-up phase of `WebRtcAecm_Process`. -/
def startUp
    (aecm : AecMobile processor)
    (nBlocks10ms : Int) : Option (AecMobile processor) :=
  let aecm :=
    if aecm.checkBuffSize then aecm.checkSoundCard nBlocks10ms else aecm
  if !aecm.checkBuffSize then
    aecm.leaveStartUp
  else
    some aecm

/-- The delay that `WebRtcAecm_Process` stores, and the warning it returns. -/
def clipDelay (msInSndCardBuf : Int) : Int × Int :=
  if msInSndCardBuf < 0 then
    (10, badParameterWarning)
  else if msInSndCardBuf > 500 then
    (510, badParameterWarning)
  else
    (msInSndCardBuf + 10, 0)

/-- The checks at the start of `WebRtcAecm_Process`. -/
def processError
    (aecm : AecMobile processor)
    (nearendNoisy : Option (List Short))
    (outIsNull : Bool)
    (nrOfSamples : Nat) : Int :=
  if nearendNoisy = none then
    nullPointerError
  else if outIsNull then
    nullPointerError
  else if aecm.initFlag ≠ initCheck then
    uninitializedError
  else if nrOfSamples ≠ 80 ∧ nrOfSamples ≠ 160 then
    badParameterError
  else
    0

/-- `WebRtcAecm_Process` after its checks, with the delay stored. -/
def processAccepted
    (aecm : AecMobile processor)
    (nearendNoisy : List Short)
    (nearendClean : Option (List Short))
    (nrOfSamples : Nat)
    (retVal : Int) : Option (AecMobile processor × Answer) :=
  let nFrames := nrOfSamples / frameLen
  let nBlocks10ms := (nFrames : Int) / aecm.aecmCore.mult
  if aecm.ecStartup then
    (aecm.startUp nBlocks10ms).map fun started =>
      (started,
        ⟨retVal, (nearendClean.getD nearendNoisy).take nrOfSamples⟩)
  else
    (processFrames nearendNoisy nearendClean nFrames 0 aecm).map
      fun processed =>
        (processed.1,
          ⟨if processed.2.2 then retVal else -1, processed.2.1⟩)

/-- `WebRtcAecm_Process` -/
def process
    (aecm : AecMobile processor)
    (nearendNoisy nearendClean : Option (List Short))
    (outIsNull : Bool)
    (nrOfSamples : Nat)
    (msInSndCardBuf : Int) : Option (AecMobile processor × Answer) :=
  let err := aecm.processError nearendNoisy outIsNull nrOfSamples
  if err ≠ 0 then
    some (aecm, ⟨err, []⟩)
  else
    let (ms, retVal) := clipDelay msInSndCardBuf
    { aecm with msInSndCardBuf := ms }.processAccepted
      (nearendNoisy.getD []) nearendClean nrOfSamples retVal

/-- A call on an instance that has been created. -/
inductive Call where
  | init (sampFreq : Int)
  | setConfig (cngMode echoMode : Int)
  | bufferFarend (farend : Option (List Short)) (nrOfSamples : Nat)
  | process
      (nearendNoisy nearendClean : Option (List Short))
      (outIsNull : Bool)
      (nrOfSamples : Nat)
      (msInSndCardBuf : Int)
  deriving Repr, DecidableEq

/-- Perform a call; `none` where C leaves it undefined. -/
def perform
    (aecm : AecMobile processor) :
    Call → Option (AecMobile processor × Answer)
  | .init sampFreq => some (aecm.init sampFreq)
  | .setConfig cngMode echoMode => some (aecm.setConfig cngMode echoMode)
  | .bufferFarend farend nrOfSamples =>
      aecm.bufferFarend farend nrOfSamples
  | .process nearendNoisy nearendClean outIsNull nrOfSamples ms =>
      aecm.process nearendNoisy nearendClean outIsNull nrOfSamples ms

/-- A call with the answer it gets is a step of the instance. -/
def Step
    (source : AecMobile processor)
    (exchange : Call × Answer)
    (target : AecMobile processor) : Prop :=
  source.perform exchange.1 = some (target, exchange.2)

end AecMobile

end ApmSdk.Aecm
