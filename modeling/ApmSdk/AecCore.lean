import ApmSdk.AecResampler
import ApmSdk.RingLevels

namespace ApmSdk.Echo

/-!
# The far end in the core of the echo canceller

The buffers of `aec_core.c` and the decisions that move their read pointers.  The
echo subtraction and the delay estimator behind them are a parameter.  `none` is
behaviour that C leaves undefined or a caller that breaks the contract, and sums of
`int` are taken without overflow.
-/

/-- `PART_LEN` -/
abbrev partLen : Nat := 64

/-- `PART_LEN2` -/
abbrev partLen2 : Nat := partLen * 2

/-- `NUM_HIGH_BANDS_MAX` -/
abbrev numHighBandsMax : Nat := 2

/-- `kBufSizePartitions` -/
abbrev kBufSizePartitions : Nat := 250

/-- `kNormalNumPartitions` -/
abbrev kNormalNumPartitions : Int := 12

/-- `kExtendedNumPartitions` -/
abbrev kExtendedNumPartitions : Int := 32

/-- `kLookaheadBlocks` -/
abbrev kLookaheadBlocks : Int := 15

/-- `kHistorySizeBlocks` -/
abbrev kHistorySizeBlocks : Int := 125

/-- `kInitialShiftOffset` -/
abbrev kInitialShiftOffset : Int := 5

/-- `kDelayCorrectionStart` -/
abbrev kDelayCorrectionStart : Int := 1500

/-- `kDelayQualityThresholdMax`, the `float` next to 0.07. -/
def kDelayQualityThresholdMax : Rat :=
  9395241 / 2 ^ 27

/-- `kDelayQualityThresholdMin`, the `float` next to 0.01. -/
def kDelayQualityThresholdMin : Rat :=
  5368709 / 2 ^ 29

/-- A frame of one band. -/
abbrev Frame (Sample : Type) :=
  { samples : List Sample // samples.length = frameLen }

/-- A block of one band, as the core works on it. -/
abbrev Block (Sample : Type) :=
  { samples : List Sample // samples.length = partLen }

/-- What the book-keeping of the far end is built for and calls. -/
structure EchoCanceller extends SampleArithmetic where
  /-- Whether `WEBRTC_ANDROID` is defined. -/
  android : Bool
  float : FloatArithmetic
  /-- The fields of `AecCore` that only the processing of a block uses, with those
  of the delay estimator. -/
  State : Type
  /-- What `WebRtcAec_InitAec` sets them to. -/
  init : Int → State
  /-- `ProcessBlock` from the near blocks of all bands and the far block on, for the
  number of partitions and the filter mode; a block for each band comes out. -/
  processBlock :
    State →
    Int →
    Bool →
    List (List Sample) →
    List Sample →
    State × (Nat → Block Sample)
  /-- `WebRtc_last_delay`, an index into the history where it is not negative. -/
  lastDelay : State → Int
  lastDelay_lt : ∀ state, lastDelay state < kHistorySizeBlocks
  /-- `WebRtc_last_delay_quality` -/
  lastDelayQuality : State → Rat
  /-- The soft resets of the delay estimator, besides its lookahead. -/
  softReset : State → Int → State
  /-- `WebRtc_set_allowed_offset` -/
  setAllowedOffset : State → Int → State
  /-- The measurements of the skew. -/
  SkewData : Type
  newSkewData : SkewData
  /-- `WebRtcAec_GetSkew` for a raw skew and the estimate so far. -/
  getSkew : SkewData → Int → Rat → SkewData × Option Rat

/-- The assertions about the far end, and whether they have held since the last
`InitAec`.  A release build goes on where one fails. -/
structure Assertions where
  /-- `WebRtc_available_read(aec->far_time_buf) > 0` in `ProcessBlock`. -/
  farBlockFound : Bool
  /-- `delay >= 0` in `WebRtcAec_SetSystemDelay`. -/
  systemDelayNonneg : Bool
  /-- `shift_size > 0` in `WebRtc_SoftResetBinaryDelayEstimatorFarend`. -/
  shiftInHistory : Bool
  deriving Repr, DecidableEq

/-- The buffers of a band, `nearFrBuf` and `outFrBuf` or `nearFrBufH` and
`outFrBufH`. -/
structure Band (Sample : Type) where
  nearFrBuf : RingBuffer Sample
  outFrBuf : RingBuffer Sample

namespace Band

variable {Sample : Type}

/-- Two new buffers. -/
def create (zero : Sample) : Option (Band Sample) := do
  let nearFrBuf ← RingBuffer.createBuffer (frameLen + partLen) zero
  let outFrBuf ← RingBuffer.createBuffer (frameLen + partLen) zero
  some ⟨nearFrBuf, outFrBuf⟩

/-- Both buffers initialised. -/
def init (band : Band Sample) (zero : Sample) : Band Sample where
  nearFrBuf := band.nearFrBuf.initBuffer zero
  outFrBuf := band.outFrBuf.initBuffer zero

/-- Buffer a near-end frame. -/
def writeNear (band : Band Sample) (frame : Frame Sample) : Band Sample :=
  { band with nearFrBuf := (band.nearFrBuf.writeBuffer frame.1).1 }

/-- Take a near-end block. -/
def readNear (band : Band Sample) : Option (Band Sample × List Sample) :=
  (band.nearFrBuf.readBuffer true partLen).map fun (nearFrBuf, read) =>
    ({ band with nearFrBuf := nearFrBuf }, read.elements nearFrBuf)

/-- Buffer a block of output. -/
def writeOut (band : Band Sample) (block : Block Sample) : Band Sample :=
  { band with outFrBuf := (band.outFrBuf.writeBuffer block.1).1 }

/-- Stuff the output buffer when there is less than a frame in that of the low band. -/
def stuffOut
    (outElements : Int)
    (band : Band Sample) : Option (Band Sample) :=
  if outElements < frameLen then
    (band.outFrBuf.moveReadPtr (outElements - frameLen)).map
      fun (outFrBuf, _) => { band with outFrBuf := outFrBuf }
  else
    some band

/-- Read a frame of output. -/
def readOut
    (outElements : Int)
    (band : Band Sample) : Option (Band Sample × List Sample) := do
  let band ← band.stuffOut outElements
  let (outFrBuf, out) ← band.outFrBuf.readBuffer false frameLen
  some ({ band with outFrBuf := outFrBuf }, out.copied)

/-- A loop over the first of the high bands that collects what it reads. -/
def forHigh
    {Out : Type}
    (visit : Band Sample → Option (Band Sample × Out)) :
    Nat → List (Band Sample) → Option (List (Band Sample) × List Out)
  | 0, bands => some (bands, [])
  | _ + 1, [] => none
  | count + 1, band :: rest => do
      let (band, out) ← visit band
      let (rest, outs) ← forHigh visit count rest
      some (band :: rest, out :: outs)

end Band

/-- `AecCore` -/
structure AecCore (canceller : EchoCanceller) where
  numBands : Nat
  low : Band canceller.Sample
  high : List (Band canceller.Sample)
  farTimeBuf : RingBuffer (List canceller.Sample)
  mult : Int
  systemDelay : Int
  knownDelay : Int
  delayAgnosticEnabled : Bool
  extendedFilterEnabled : Bool
  numPartitions : Int
  frameCount : Int
  signalDelayCorrection : Int
  previousDelay : Int
  delayCorrectionCount : Int
  shiftOffset : Int
  delayQualityThreshold : Rat
  /-- The lookahead of the delay estimator. -/
  lookahead : Int
  signal : canceller.State
  assertions : Assertions

namespace AecCore

variable {canceller : EchoCanceller}

/-- `WebRtcAec_CreateAec` in memory that holds anything, with memory enough. -/
def createAec (memory : AecCore canceller) : Option (AecCore canceller) := do
  let low ← Band.create canceller.zero
  let first ← Band.create canceller.zero
  let second ← Band.create canceller.zero
  let farTimeBuf ←
    RingBuffer.createBuffer kBufSizePartitions
      (List.replicate partLen2 canceller.zero)
  some { memory with
    low := low
    high := [first, second]
    farTimeBuf := farTimeBuf
    delayAgnosticEnabled := canceller.android
    lookahead := if canceller.android then 0 else kLookaheadBlocks
    extendedFilterEnabled := false }

/-- `WebRtcAec_InitAec`; the lookahead of the delay estimator stays as it is. -/
def initAec
    (aec : AecCore canceller)
    (sampFreq : Int) : AecCore canceller :=
  let numBands :=
    if sampFreq = 8000 then 1 else (sampFreq.tdiv 16000).toNat
  { aec with
    numBands := numBands
    low := aec.low.init canceller.zero
    high := aec.high.map fun band => band.init canceller.zero
    farTimeBuf :=
      aec.farTimeBuf.initBuffer (List.replicate partLen2 canceller.zero)
    systemDelay := 0
    signalDelayCorrection := 0
    previousDelay := -2
    delayCorrectionCount := 0
    shiftOffset := kInitialShiftOffset
    delayQualityThreshold := kDelayQualityThresholdMin
    numPartitions := kNormalNumPartitions
    frameCount := 0
    mult := if 1 < numBands then 2 else sampFreq.tdiv 8000
    knownDelay := 0
    signal :=
      canceller.setAllowedOffset (canceller.init sampFreq)
        (kNormalNumPartitions.tdiv 2)
    assertions := ⟨true, true, true⟩ }

/-- `WebRtcAec_SetSystemDelay` -/
def setSystemDelay
    (aec : AecCore canceller)
    (delay : Int) : AecCore canceller :=
  { aec with
    systemDelay := delay
    assertions :=
      { aec.assertions with
        systemDelayNonneg :=
          aec.assertions.systemDelayNonneg && decide (0 ≤ delay) } }

/-- `WebRtcAec_enable_extended_filter` -/
def enableExtendedFilter
    (aec : AecCore canceller)
    (enable : Bool) : AecCore canceller :=
  let numPartitions :=
    if enable then kExtendedNumPartitions else kNormalNumPartitions
  { aec with
    extendedFilterEnabled := enable
    numPartitions := numPartitions
    signal := canceller.setAllowedOffset aec.signal (numPartitions.tdiv 2) }

/-- `WebRtcAec_MoveFarReadPtr` -/
def moveFarReadPtr
    (aec : AecCore canceller)
    (elements : Int) : Option (AecCore canceller × Int) :=
  (aec.farTimeBuf.moveReadPtr elements).map fun (farTimeBuf, moved) =>
    ({ aec with
        farTimeBuf := farTimeBuf
        systemDelay := aec.systemDelay - moved * partLen }, moved)

/-- The flush when the far-end buffer is full. -/
def flushWhenFull
    (aec : AecCore canceller) : Option (AecCore canceller) :=
  if aec.farTimeBuf.availableWrite < 1 then
    (aec.moveFarReadPtr 1).map Prod.fst
  else
    some aec

/-- `WebRtcAec_BufferFarendPartition` -/
def bufferFarendPartition
    (aec : AecCore canceller)
    (farend : List canceller.Sample) : Option (AecCore canceller) :=
  aec.flushWhenFull.map fun aec =>
    { aec with farTimeBuf := (aec.farTimeBuf.writeBuffer [farend]).1 }

/-! ## The signal-based delay correction -/

/-- The correction for a delay estimate that is new and good enough. -/
def proposeCorrection
    (aec : AecCore canceller)
    (lastDelay : Int) : AecCore canceller × Int :=
  let delay := lastDelay - aec.lookahead
  let upperBound := (aec.numPartitions * 3).tdiv 4
  if delay ≤ 0 ∨ upperBound < delay then
    let correction :=
      -delay + if aec.shiftOffset < delay then aec.shiftOffset else 1
    let shiftOffset :=
      if aec.shiftOffset - 1 ≤ 1 then 1 else aec.shiftOffset - 1
    if asInt aec.farTimeBuf.availableRead - aec.mult - 1 < correction then
      ({ aec with shiftOffset := shiftOffset }, 0)
    else
      ({ aec with
          shiftOffset := shiftOffset
          previousDelay := lastDelay
          delayCorrectionCount := aec.delayCorrectionCount + 1 }, correction)
  else
    (aec, 0)

/-- The threshold rises with the quality once there has been a correction. -/
def raiseThreshold
    (aec : AecCore canceller)
    (quality : Rat) : AecCore canceller :=
  if 0 < aec.delayCorrectionCount then
    let delayQuality :=
      if kDelayQualityThresholdMax < quality then
        kDelayQualityThresholdMax
      else
        quality
    { aec with
      delayQualityThreshold :=
        if aec.delayQualityThreshold < delayQuality then
          delayQuality
        else
          aec.delayQualityThreshold }
  else
    aec

/-- `SignalBasedDelayCorrection` -/
def signalBasedDelayCorrection
    (aec : AecCore canceller) : AecCore canceller × Int :=
  if !canceller.android && aec.frameCount < kDelayCorrectionStart then
    (aec, 0)
  else
    let lastDelay := canceller.lastDelay aec.signal
    let quality := canceller.lastDelayQuality aec.signal
    let (aec, correction) :=
      if 0 ≤ lastDelay ∧ lastDelay ≠ aec.previousDelay ∧
          aec.delayQualityThreshold < quality then
        aec.proposeCorrection lastDelay
      else
        (aec, 0)
    (aec.raiseThreshold quality, correction)

/-- The soft resets of the delay estimator and of its far end. -/
def softResetDelayEstimator
    (aec : AecCore canceller)
    (delayShift : Int) : AecCore canceller :=
  let lookahead := aec.lookahead - delayShift
  let lookahead := if lookahead < 0 then 0 else lookahead
  { aec with
    lookahead :=
      if kHistorySizeBlocks < lookahead then kHistorySizeBlocks else lookahead
    signal := canceller.softReset aec.signal delayShift
    assertions :=
      { aec.assertions with
        shiftInHistory :=
          aec.assertions.shiftInHistory &&
            decide (0 < kHistorySizeBlocks - delayShift.natAbs) } }

/-! ## A frame of 80 samples -/

/-- Step 1: rewind when the system delay says that there is too little. -/
def stuffFarEnd (aec : AecCore canceller) : Option (AecCore canceller) :=
  if aec.systemDelay < frameLen then
    (aec.moveFarReadPtr (-(aec.mult + 1))).map Prod.fst
  else
    some aec

/-- Step 2 a: follow a change of the known delay. -/
def followKnownDelay
    (aec : AecCore canceller)
    (knownDelay : Int) : Option (AecCore canceller) :=
  let moveElements := (aec.knownDelay - knownDelay - 32).tdiv partLen
  (aec.farTimeBuf.moveReadPtr moveElements).map fun (farTimeBuf, moved) =>
    { aec with
      farTimeBuf := farTimeBuf
      knownDelay := aec.knownDelay - moved * partLen }

/-- The move of step 2 b, by the correction that is chosen for the signal. -/
def moveByCorrection
    (aec : AecCore canceller) : Option (AecCore canceller × Int) :=
  let (aec, moveElements) := aec.signalBasedDelayCorrection
  (aec.farTimeBuf.moveReadPtr moveElements).map
    fun (farTimeBuf, movedElements) =>
      ({ aec with farTimeBuf := farTimeBuf }, movedElements)

/-- How many blocks the far end is ahead of the near end. -/
def farNearBufferDiff (aec : AecCore canceller) : Int :=
  (aec.farTimeBuf.availableRead : Int) -
    (aec.low.nearFrBuf.availableRead / partLen : Nat)

/-- What the core makes of a move by the correction. -/
def acceptCorrection
    (aec : AecCore canceller)
    (movedElements : Int) : AecCore canceller :=
  let aec := aec.softResetDelayEstimator movedElements
  { aec with
    signalDelayCorrection := aec.signalDelayCorrection + movedElements }

/-- Step 2 b: apply the correction, and rewind when it leaves too little. -/
def correctSignalDelay
    (aec : AecCore canceller) : Option (AecCore canceller) := do
  let (aec, movedElements) ← aec.moveByCorrection
  let farNearBufferDiff := aec.farNearBufferDiff
  let aec := aec.acceptCorrection movedElements
  if farNearBufferDiff < 0 then
    (aec.moveFarReadPtr farNearBufferDiff).map Prod.fst
  else
    some aec

/-- Take the blocks of both ends from the buffers. -/
def takeBlock
    (aec : AecCore canceller) :
    Option
      (AecCore canceller ×
        List (List canceller.Sample) ×
        List canceller.Sample) := do
  let (high, nearendH) ←
    Band.forHigh Band.readNear (aec.numBands - 1) aec.high
  let (low, nearend) ← aec.low.readNear
  let found := decide (0 < aec.farTimeBuf.availableRead)
  let (farTimeBuf, farend) ← aec.farTimeBuf.readBuffer true 1
  some
    ({ aec with
        low := low
        high := high
        farTimeBuf := farTimeBuf
        assertions :=
          { aec.assertions with
            farBlockFound := aec.assertions.farBlockFound && found } },
      nearend :: nearendH, (farend.elements farTimeBuf).flatten)

/-- Process the blocks that have been taken. -/
def produce
    (aec : AecCore canceller)
    (nearend : List (List canceller.Sample))
    (farend : List canceller.Sample) :
    canceller.State × (Nat → Block canceller.Sample) :=
  canceller.processBlock aec.signal aec.numPartitions
    aec.extendedFilterEnabled nearend farend

/-- Buffer the blocks of output of the bands. -/
def putBlock
    (aec : AecCore canceller)
    (signal : canceller.State)
    (output : Nat → Block canceller.Sample) : AecCore canceller :=
  { aec with
    low := aec.low.writeOut (output 0)
    high :=
      aec.high.mapIdx fun index band =>
        if index < aec.numBands - 1 then
          band.writeOut (output (index + 1))
        else
          band
    signal := signal }

/-- `ProcessBlock` -/
def processBlock (aec : AecCore canceller) : Option (AecCore canceller) := do
  let (aec, nearend, farend) ← aec.takeBlock
  let (signal, output) := aec.produce nearend farend
  some (aec.putBlock signal output)

/-- Step 4: as many blocks as there are in the near-end buffer. -/
def processBlocks :
    Nat → AecCore canceller → Option (AecCore canceller)
  | 0, aec => some aec
  | blocks + 1, aec => do
      let aec ← aec.processBlock
      processBlocks blocks aec

/-- Step 6: the output frames of the bands. -/
def readOutput
    (aec : AecCore canceller) :
    Option (AecCore canceller × List (List canceller.Sample)) := do
  let outElements := asInt aec.low.outFrBuf.availableRead
  let (low, out) ← aec.low.readOut outElements
  let (high, outH) ←
    Band.forHigh (Band.readOut outElements) (aec.numBands - 1) aec.high
  some ({ aec with low := low, high := high }, out :: outH)

/-- Steps 2 a and 2 b, of which the mode chooses one. -/
def adjustFarEnd
    (aec : AecCore canceller)
    (knownDelay : Int) : Option (AecCore canceller) :=
  if !aec.delayAgnosticEnabled then
    aec.followKnownDelay knownDelay
  else
    aec.correctSignalDelay

/-- The buffers of the high bands with the near-end frames of theirs. -/
def writeNearH
    (frames : List (Frame canceller.Sample))
    (high : List (Band canceller.Sample)) : List (Band canceller.Sample) :=
  List.zipWith Band.writeNear high frames ++ high.drop frames.length

/-- Buffer the near-end frames. -/
def bufferNear
    (aec : AecCore canceller)
    (nearend : Frame canceller.Sample)
    (nearendH : List (Frame canceller.Sample)) : AecCore canceller :=
  { aec with
    low := aec.low.writeNear nearend
    high := writeNearH nearendH aec.high }

/-- One turn of the loop of `WebRtcAec_ProcessFrames`, for the frames of the low band
and of the high ones. -/
def processFrame
    (knownDelay : Int)
    (aec : AecCore canceller)
    (nearend : Frame canceller.Sample)
    (nearendH : List (Frame canceller.Sample)) :
    Option (AecCore canceller × List (List canceller.Sample)) := do
  let aec ← (aec.bufferNear nearend nearendH).stuffFarEnd
  let aec ← aec.adjustFarEnd knownDelay
  let aec ←
    processBlocks (aec.low.nearFrBuf.availableRead / partLen) aec
  -- Step 5: the frame is accounted for.
  readOutput { aec with systemDelay := aec.systemDelay - frameLen }

/-- The frames of all bands, the low one first. -/
abbrev BandFrames (canceller : EchoCanceller) :=
  Frame canceller.Sample × List (Frame canceller.Sample)

/-- The loop of `WebRtcAec_ProcessFrames` over the frames of a call. -/
def processEach
    (knownDelay : Int) :
    List (BandFrames canceller) →
    AecCore canceller →
    Option (AecCore canceller × List (List (List canceller.Sample)))
  | [], aec => some (aec, [])
  | nearend :: rest, aec => do
      let (aec, first) ← processFrame knownDelay aec nearend.1 nearend.2
      let (aec, later) ← processEach knownDelay rest aec
      some (aec, first :: later)

/-- `WebRtcAec_ProcessFrames`; callers pass as many bands as the core has. -/
def processFrames
    (aec : AecCore canceller)
    (nearend : List (BandFrames canceller))
    (knownDelay : Int) :
    Option (AecCore canceller × List (List (List canceller.Sample))) :=
  if nearend.all fun frames => frames.2.length + 1 == aec.numBands then
    processEach knownDelay nearend
      { aec with frameCount := aec.frameCount + 1 }
  else
    none

end AecCore

end ApmSdk.Echo
