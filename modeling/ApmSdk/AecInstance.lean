import ApmSdk.AecCore
import ApmSdk.CIntegers

namespace ApmSdk.Echo

/-!
# An instance of the echo canceller

The functions of `echo_cancellation.c` for a build without `WEBRTC_UNTRUSTED_DELAY`
and `WEBRTC_MAC`.  The normal and the extended filter mode estimate the delay in the
same way, with other numbers.
-/

/-- `AEC_UNINITIALIZED_ERROR` -/
abbrev uninitializedError : Int := 12002

/-- `AEC_NULL_POINTER_ERROR` -/
abbrev nullPointerError : Int := 12003

/-- `AEC_BAD_PARAMETER_ERROR` -/
abbrev badParameterError : Int := 12004

/-- `AEC_BAD_PARAMETER_WARNING` -/
abbrev badParameterWarning : Int := 12050

/-- `initCheck` -/
abbrev initCheck : Int := 42

/-- `kFixedDelayMs` -/
abbrev kFixedDelayMs : Int := 50

/-- `kMinTrustedDelayMs` -/
abbrev kMinTrustedDelayMs : Int := 20

/-- `kMaxTrustedDelayMs` -/
abbrev kMaxTrustedDelayMs : Int := 500

/-- `kMaxBufSizeStart`, in partitions. -/
abbrev kMaxBufSizeStart : Int := 62

/-- `sampMsNb` -/
abbrev sampMsNb : Int := 8

/-- `(short)` of a `double`; `none` where the value does not fit. -/
def toShort? (value : Rat) : Option Int :=
  let kept := truncate value
  if -(2 ^ 15) ≤ kept ∧ kept < 2 ^ 15 then some kept else none

/-- `Aec` -/
structure Aec (canceller : EchoCanceller) where
  sampFreq : Int
  splitSampFreq : Int
  scSampFreq : Int
  sampFactor : Rat
  skewMode : Int
  bufSizeStart : Int
  knownDelay : Int
  rateFactor : Int
  initFlag : Int
  counter : Int
  sum : Int
  firstVal : Int
  checkBufSizeCtr : Int
  msInSndCardBuf : Int
  filtDelay : Int
  timeForDelayChange : Int
  startupPhase : Bool
  checkBuffSize : Bool
  lastDelayDiff : Int
  resampler : AecResampler canceller.toSampleArithmetic
  skewData : canceller.SkewData
  skewFrCtr : Int
  resample : Bool
  skew : Rat
  farPreBuf : RingBuffer canceller.Sample
  farendStarted : Bool
  aec : AecCore canceller

/-- What a call returns, and the frames of all bands it has written to `out`. -/
structure Answer (canceller : EchoCanceller) where
  retVal : Int
  out : List (List (List canceller.Sample))

/-- `AecConfig` -/
structure AecConfig where
  nlpMode : Int
  skewMode : Int
  metricsMode : Int
  delayLogging : Int
  deriving Repr, DecidableEq

namespace Aec

variable {canceller : EchoCanceller}

/-- `WebRtcAec_Create` in memory that holds anything, with memory enough. -/
def create (memory : Aec canceller) : Option (Aec canceller) := do
  let aec ← memory.aec.createAec
  let farPreBuf ←
    RingBuffer.createBuffer (partLen2 + kResamplerBufferSize) canceller.zero
  some { memory with
    aec := aec
    farPreBuf := farPreBuf
    initFlag := 0 }

/-- `WebRtcAec_set_config`, as far as the book-keeping depends on it. -/
def setConfig
    (self : Aec canceller)
    (config : AecConfig) : Aec canceller × Int :=
  if self.initFlag ≠ initCheck then
    (self, uninitializedError)
  else if config.skewMode ≠ 0 ∧ config.skewMode ≠ 1 then
    (self, badParameterError)
  else
    ({ self with skewMode := config.skewMode },
      if config.nlpMode ≠ 0 ∧ config.nlpMode ≠ 1 ∧ config.nlpMode ≠ 2 then
        badParameterError
      else if config.metricsMode ≠ 0 ∧ config.metricsMode ≠ 1 then
        badParameterError
      else if config.delayLogging ≠ 0 ∧ config.delayLogging ≠ 1 then
        badParameterError
      else
        0)

/-- The state that `WebRtcAec_Init` sets, for frequencies that have been checked and a
pre-buffer that has been rewound for the overlap. -/
def initState
    (aecpc : Aec canceller)
    (sampFreq scSampFreq : Int)
    (farPreBuf : RingBuffer canceller.Sample) : Aec canceller :=
  let splitSampFreq :=
    if sampFreq = 32000 ∨ sampFreq = 48000 then 16000 else sampFreq
  { sampFreq := sampFreq
    splitSampFreq := splitSampFreq
    scSampFreq := scSampFreq
    sampFactor := canceller.float.single (scSampFreq / splitSampFreq)
    skewMode := aecpc.skewMode
    bufSizeStart := 0
    knownDelay := 0
    rateFactor := splitSampFreq.tdiv 8000
    initFlag := initCheck
    counter := 0
    sum := 0
    firstVal := 0
    checkBufSizeCtr := 0
    msInSndCardBuf := 0
    filtDelay := -1
    timeForDelayChange := 0
    startupPhase :=
      aecpc.aec.extendedFilterEnabled || !aecpc.aec.delayAgnosticEnabled
    checkBuffSize := true
    lastDelayDiff := 0
    resampler := .init
    skewData := canceller.newSkewData
    skewFrCtr := 0
    resample := false
    skew := 0
    farPreBuf := farPreBuf
    farendStarted := false
    aec := aecpc.aec.initAec sampFreq }

/-- `WebRtcAec_Init` -/
def init
    (aecpc : Aec canceller)
    (sampFreq scSampFreq : Int) : Option (Aec canceller × Int) :=
  if sampFreq ≠ 8000 ∧ sampFreq ≠ 16000 ∧ sampFreq ≠ 32000 ∧
      sampFreq ≠ 48000 then
    some (aecpc, badParameterError)
  else if scSampFreq < 1 ∨ 96000 < scSampFreq then
    some ({ aecpc with sampFreq := sampFreq }, badParameterError)
  else do
    let (farPreBuf, _) ←
      (aecpc.farPreBuf.initBuffer canceller.zero).moveReadPtr (-partLen)
    -- The default settings.
    some
      ((aecpc.initState sampFreq scSampFreq farPreBuf).setConfig
        ⟨1, 0, 0, 0⟩)

/-! ## The far end -/

/-- `WebRtcAec_GetBufferFarendError` -/
def getBufferFarendError
    (aecpc : Aec canceller)
    (farend : Option (List canceller.Sample)) : Int :=
  match farend with
  | none => nullPointerError
  | some farend =>
      if aecpc.initFlag ≠ initCheck then
        uninitializedError
      else if farend.length ≠ 80 ∧ farend.length ≠ 160 then
        badParameterError
      else
        0

/-- The frame that is buffered: resampled where drift is compensated. -/
def resampleFarend
    (aecpc : Aec canceller)
    (farend : List canceller.Sample) :
    Option (Aec canceller × List canceller.Sample) :=
  if aecpc.skewMode = 1 ∧ aecpc.resample = true then
    (aecpc.resampler.resampleLinear canceller.float.single farend
        aecpc.skew).map fun (resampler, newFarend) =>
      ({ aecpc with resampler := resampler }, newFarend)
  else
    some (aecpc, farend)

/--
The loop of `WebRtcAec_BufferFarend` that hands partitions to the core.  Each turn takes
64 samples away, so that the given number of turns suffices.
-/
def bufferPartitions :
    Nat → Aec canceller → Option (Aec canceller)
  | 0, aecpc => some aecpc
  | turns + 1, aecpc =>
      if aecpc.farPreBuf.availableRead < partLen2 then
        some aecpc
      else do
        let (farPreBuf, read) ← aecpc.farPreBuf.readBuffer true partLen2
        let aec ← aecpc.aec.bufferFarendPartition (read.elements farPreBuf)
        -- Rewind for the overlap.
        let (farPreBuf, _) ← farPreBuf.moveReadPtr (-partLen)
        bufferPartitions turns
          { aecpc with
            farPreBuf := farPreBuf
            aec := aec }

/-- Account for a far-end frame and write it to the pre-buffer. -/
def acceptFarend
    (aecpc : Aec canceller)
    (newFarend : List canceller.Sample) : Aec canceller :=
  { aecpc with
    farendStarted := true
    aec :=
      aecpc.aec.setSystemDelay (aecpc.aec.systemDelay + newFarend.length)
    farPreBuf := (aecpc.farPreBuf.writeBuffer newFarend).1 }

/-- `WebRtcAec_BufferFarend` -/
def bufferFarend
    (aecpc : Aec canceller)
    (farend : Option (List canceller.Sample)) :
    Option (Aec canceller × Int) :=
  let errorCode := aecpc.getBufferFarendError farend
  if errorCode ≠ 0 then
    some (aecpc, errorCode)
  else do
    let (aecpc, newFarend) ← aecpc.resampleFarend (farend.getD [])
    let aecpc := aecpc.acceptFarend newFarend
    let aecpc ←
      bufferPartitions (aecpc.farPreBuf.availableRead / partLen) aecpc
    some (aecpc, 0)

/-! ## The delay estimate -/

/-- The numbers by which the two filter modes differ. -/
structure DelayEstimator where
  /-- How many blocks are flushed when the delay is not causal. -/
  flush : Int
  /-- The new value of `filtDelay`. -/
  smooth : Rounding → (filtDelay currentDelay : Int) → Option Int
  upper : Int
  lower : Int
  back : Int

/-- How `EstBufDelayNormal` smooths the delay. -/
def smoothNormal
    (double : Rounding)
    (filtDelay currentDelay : Int) : Option Int :=
  let filtDelay := if filtDelay < 0 then 0 else filtDelay
  (toShort?
      (double (double (double (4 / 5) * filtDelay) +
        double (double (1 / 5) * currentDelay)))).map fun smoothed =>
    max 0 smoothed

/-- How `EstBufDelayExtended` smooths the delay. -/
def smoothExtended
    (double : Rounding)
    (filtDelay currentDelay : Int) : Option Int :=
  if filtDelay = -1 then
    toShort? (max 0 (double (1 / 2 * currentDelay)))
  else
    (toShort?
        (double (double (double (19 / 20) * filtDelay) +
          double (double (1 / 20) * currentDelay)))).map fun smoothed =>
      max 0 smoothed

/-- The numbers of `EstBufDelayNormal`. -/
def estimatorNormal : DelayEstimator :=
  { flush := 1, smooth := smoothNormal, upper := 224, lower := 96, back := 160 }

/-- The numbers of `EstBufDelayExtended`. -/
def estimatorExtended : DelayEstimator :=
  { flush := 2, smooth := smoothExtended, upper := 384, lower := 128, back := 256 }

/-- The known delay follows when the difference has lasted. -/
def followFiltDelay
    (estimator : DelayEstimator)
    (aecpc : Aec canceller) : Aec canceller :=
  let delayDifference := aecpc.filtDelay - aecpc.knownDelay
  let timeForDelayChange :=
    if estimator.upper < delayDifference then
      if aecpc.lastDelayDiff < estimator.lower then
        0
      else
        aecpc.timeForDelayChange + 1
    else if delayDifference < estimator.lower ∧ 0 < aecpc.knownDelay then
      if estimator.upper < aecpc.lastDelayDiff then
        0
      else
        aecpc.timeForDelayChange + 1
    else
      0
  { aecpc with
    timeForDelayChange := timeForDelayChange
    lastDelayDiff := int16 delayDifference
    knownDelay :=
      if 25 < timeForDelayChange then
        max (aecpc.filtDelay - estimator.back) 0
      else
        aecpc.knownDelay }

/-- The delay before it is smoothed. -/
def currentDelay (aecpc : Aec canceller) : Int :=
  aecpc.msInSndCardBuf * sampMsNb * aecpc.rateFactor -
      aecpc.aec.systemDelay +
    frameLen * aecpc.rateFactor -
      if aecpc.skewMode = 1 ∧ aecpc.resample = true then
        kResamplingDelay
      else
        0

/-- The core and the current delay after the flush that forces causality. -/
def forceCausality
    (estimator : DelayEstimator)
    (aec : AecCore canceller)
    (currentDelay : Int) : Option (AecCore canceller × Int) :=
  if currentDelay < partLen then
    (aec.moveFarReadPtr estimator.flush).map fun (aec, moved) =>
      (aec, currentDelay + moved * partLen)
  else
    some (aec, currentDelay)

/-- `EstBufDelayNormal` and `EstBufDelayExtended` -/
def estBufDelay
    (estimator : DelayEstimator)
    (aecpc : Aec canceller) : Option (Aec canceller) := do
  let (aec, currentDelay) ←
    forceCausality estimator aecpc.aec aecpc.currentDelay
  let filtDelay ←
    estimator.smooth canceller.float.double aecpc.filtDelay currentDelay
  some
    (followFiltDelay estimator
      { aecpc with
        aec := aec
        filtDelay := filtDelay })

/-! ## The near end -/

/-- The skew that drift compensation works with from the 26th frame on. -/
def updateSkew
    (aecpc : Aec canceller)
    (nrOfSamples : Nat)
    (skew : Int) : Aec canceller × Int :=
  if aecpc.skewMode ≠ 1 then
    (aecpc, 0)
  else if aecpc.skewFrCtr < 25 then
    ({ aecpc with skewFrCtr := aecpc.skewFrCtr + 1 }, 0)
  else
    let single := canceller.float.single
    let (skewData, answer) :=
      canceller.getSkew aecpc.skewData skew aecpc.skew
    let estimate :=
      single (answer.getD 0 / single (aecpc.sampFactor * nrOfSamples))
    ({ aecpc with
        skewData := skewData
        resample :=
          !(decide (estimate < 1 / 1000) && decide (-1 / 1000 < estimate))
        skew :=
          if estimate < -1 / 2 then -1 / 2
          else if 1 < estimate then 1
          else estimate },
      if answer.isNone then badParameterWarning else 0)

/-- Count the calls whose reported delay is close to the first of them. -/
def countStable (aecpc : Aec canceller) : Aec canceller :=
  let double := canceller.float.double
  let ms := aecpc.msInSndCardBuf
  let firstVal := if aecpc.counter = 0 then ms else aecpc.firstVal
  let sum := if aecpc.counter = 0 then 0 else aecpc.sum
  let stable : Bool :=
    decide (((firstVal - ms).natAbs : Rat) <
      max (double (double (1 / 5) * ms)) sampMsNb)
  { aecpc with
    checkBufSizeCtr := int16 (aecpc.checkBufSizeCtr + 1)
    firstVal := firstVal
    sum := if stable then sum + ms else sum
    counter := if stable then int16 (aecpc.counter + 1) else 0 }

/-- The size to start with, once the delay has been stable for six blocks. -/
def determineBufSize
    (nBlocks10ms : Nat)
    (aecpc : Aec canceller) : Aec canceller :=
  if 6 ≤ asSize (aecpc.counter * nBlocks10ms) then
    { aecpc with
      bufSizeStart :=
        min
          ((3 * aecpc.sum * aecpc.rateFactor * 8).tdiv
            (4 * aecpc.counter * partLen))
          kMaxBufSizeStart
      checkBuffSize := false }
  else
    aecpc

/-- The size to start with after half a second in any case. -/
def limitStartup
    (nBlocks10ms : Nat)
    (aecpc : Aec canceller) : Aec canceller :=
  if 50 < asSize (aecpc.checkBufSizeCtr * nBlocks10ms) then
    { aecpc with
      bufSizeStart :=
        min ((aecpc.msInSndCardBuf * aecpc.rateFactor * 3).tdiv 40)
          kMaxBufSizeStart
      checkBuffSize := false }
  else
    aecpc

/-- The check of the start-up phase that the reported delay is stable. -/
def checkStability
    (aecpc : Aec canceller)
    (nBlocks10ms : Nat) : Aec canceller :=
  if !aecpc.checkBuffSize then
    aecpc
  else
    limitStartup nBlocks10ms
      (determineBufSize nBlocks10ms aecpc.countStable)

/-- The end of the start-up phase, when there is enough far-end data. -/
def leaveStartup (aecpc : Aec canceller) : Option (Aec canceller) :=
  if aecpc.checkBuffSize then
    some aecpc
  else
    let overheadElements :=
      aecpc.aec.systemDelay.tdiv partLen - aecpc.bufSizeStart
    if overheadElements = 0 then
      some { aecpc with startupPhase := false }
    else if 0 < overheadElements then
      (aecpc.aec.moveFarReadPtr overheadElements).map fun moved =>
        { aecpc with
          aec := moved.1
          startupPhase := false }
    else
      some aecpc

/-- A frame of an array; `none` where it would be read past its end. -/
def frameAt
    (samples : List canceller.Sample)
    (index : Nat) : Option (Frame canceller.Sample) :=
  let frame := (samples.drop (index * frameLen)).take frameLen
  if full : frame.length = frameLen then some ⟨frame, full⟩ else none

/-- The frames of 80 samples of the bands of a call. -/
def framesOf
    (nearend : List (List canceller.Sample))
    (nrOfSamples : Nat) : Option (List (AecCore.BandFrames canceller)) :=
  (List.range (nrOfSamples / frameLen)).mapM fun index =>
    match nearend with
    | [] => none
    | low :: high => do
        let lowFrame ← frameAt low index
        let highFrames ← high.mapM fun band => frameAt band index
        some (lowFrame, highFrames)

/-- The frames as `out` has them when they are copied. -/
def copied
    (nearend : List (AecCore.BandFrames canceller)) :
    List (List (List canceller.Sample)) :=
  nearend.map fun frames => frames.1.1 :: frames.2.map Subtype.val

/-- Call the core where there is a known delay to call it with, or copy the frames. -/
def callCore
    (aecpc : Aec canceller)
    (nearend : List (AecCore.BandFrames canceller)) :
    Option Int →
    Option (Aec canceller × List (List (List canceller.Sample)))
  | none => some (aecpc, copied nearend)
  | some knownDelay =>
      (aecpc.aec.processFrames nearend knownDelay).map fun (aec, out) =>
        ({ aecpc with aec := aec }, out)

/-- `ProcessNormal` until it calls the core: what it returns, and the known delay that
it calls the core with unless it only copies. -/
def processNormal
    (aecpc : Aec canceller)
    (nrOfSamples : Nat)
    (msInSndCardBuf skew : Int) :
    Option (Aec canceller × Int × Option Int) :=
  let msInSndCardBuf :=
    (if kMaxTrustedDelayMs < msInSndCardBuf then
      kMaxTrustedDelayMs
    else
      msInSndCardBuf) + 10
  let (aecpc, retVal) :=
    { aecpc with msInSndCardBuf := msInSndCardBuf }.updateSkew
      nrOfSamples skew
  if aecpc.startupPhase then
    let nBlocks10ms := nrOfSamples / (frameLen * aecpc.rateFactor.toNat)
    ((aecpc.checkStability nBlocks10ms).leaveStartup).map fun aecpc =>
      (aecpc, retVal, none)
  else
    (aecpc.estBufDelay estimatorNormal).map fun aecpc =>
      (aecpc, retVal, some aecpc.knownDelay)

/-- The special action of `ProcessExtended` on the first frame. -/
def startExtended
    (self : Aec canceller)
    (reportedDelayMs : Int) : Option (Aec canceller) :=
  if !self.startupPhase then
    some self
  else
    let startupSizeMs :=
      if reportedDelayMs < kFixedDelayMs then
        kFixedDelayMs
      else
        reportedDelayMs
    let delay := startupSizeMs * self.rateFactor * 8
    let targetDelay := if canceller.android then delay else delay.tdiv 2
    let overheadElements :=
      (self.aec.systemDelay - targetDelay).tdiv partLen
    (self.aec.moveFarReadPtr overheadElements).map fun moved =>
      { self with
        aec := moved.1
        startupPhase := false }

/-- The delay that `ProcessExtended` takes for the reported one. -/
def trustedDelay (reportedDelayMs : Int) : Int :=
  let reportedDelayMs :=
    if reportedDelayMs < kMinTrustedDelayMs then
      kMinTrustedDelayMs
    else
      reportedDelayMs
  if kMaxTrustedDelayMs ≤ reportedDelayMs then
    kFixedDelayMs
  else
    reportedDelayMs

/-- `ProcessExtended` until it calls the core, with the known delay that it calls the
core with unless it only copies. -/
def processExtended
    (self : Aec canceller)
    (reportedDelayMs : Int) : Option (Aec canceller × Option Int) :=
  let reportedDelayMs := trustedDelay reportedDelayMs
  let self := { self with msInSndCardBuf := reportedDelayMs }
  if !self.farendStarted then
    some (self, none)
  else do
    let self ← self.startExtended reportedDelayMs
    let self ← self.estBufDelay estimatorExtended
    some (self, some (max 0 self.knownDelay))

/-- The checked part of `WebRtcAec_Process` until it calls the core. -/
def prepare
    (aecpc : Aec canceller)
    (nrOfSamples : Nat)
    (msInSndCardBuf skew : Int) :
    Option (Aec canceller × Int × Option Int) :=
  let reported := if msInSndCardBuf < 0 then 0 else msInSndCardBuf
  if aecpc.aec.extendedFilterEnabled then
    (aecpc.processExtended reported).map fun (aecpc, knownDelay) =>
      (aecpc,
        if msInSndCardBuf < 0 ∨ kMaxTrustedDelayMs < msInSndCardBuf then
          badParameterWarning
        else
          0, knownDelay)
  else
    aecpc.processNormal nrOfSamples reported skew

/-- `WebRtcAec_Process` -/
def process
    (aecpc : Aec canceller)
    (nearend : List (List canceller.Sample))
    (hasOut : Bool)
    (nrOfSamples : Nat)
    (msInSndCardBuf skew : Int) :
    Option (Aec canceller × Answer canceller) :=
  if !hasOut then
    some (aecpc, ⟨nullPointerError, []⟩)
  else if aecpc.initFlag ≠ initCheck then
    some (aecpc, ⟨uninitializedError, []⟩)
  else if nrOfSamples ≠ 80 ∧ nrOfSamples ≠ 160 then
    some (aecpc, ⟨badParameterError, []⟩)
  else do
    let frames ← framesOf nearend nrOfSamples
    let (aecpc, retVal, knownDelay) ←
      aecpc.prepare nrOfSamples msInSndCardBuf skew
    let (aecpc, out) ← aecpc.callCore frames knownDelay
    some (aecpc, ⟨retVal, out⟩)

/-! ## Calls -/

/-- The calls on an instance and on its core, as `EchoCancellationImpl` makes them. -/
inductive Call (canceller : EchoCanceller) where
  | init (sampFreq scSampFreq : Int)
  | setConfig (config : AecConfig)
  | enableExtendedFilter (enable : Bool)
  | enableDelayAgnostic (enable : Bool)
  | bufferFarend (farend : Option (List canceller.Sample))
  | process
      (nearend : List (List canceller.Sample))
      (hasOut : Bool)
      (nrOfSamples : Nat)
      (msInSndCardBuf skew : Int)

/-- The state after a call. -/
def perform
    (aecpc : Aec canceller) :
    Call canceller → Option (Aec canceller)
  | .init sampFreq scSampFreq =>
      (aecpc.init sampFreq scSampFreq).map Prod.fst
  | .setConfig config => some (aecpc.setConfig config).1
  | .enableExtendedFilter enable =>
      some { aecpc with aec := aecpc.aec.enableExtendedFilter enable }
  | .enableDelayAgnostic enable =>
      some { aecpc with
        aec := { aecpc.aec with delayAgnosticEnabled := enable } }
  | .bufferFarend farend => (aecpc.bufferFarend farend).map Prod.fst
  | .process nearend hasOut nrOfSamples msInSndCardBuf skew =>
      (aecpc.process nearend hasOut nrOfSamples msInSndCardBuf skew).map
        Prod.fst

end Aec

end ApmSdk.Echo
