import ApmSdk.AecMobileInit

namespace ApmSdk.Aecm

/-!
# Runs of the mobile canceller after an initialisation

Whatever two instances have been through, an initialisation makes them alike but for
the second saved far-end frame, so a run of one is a run of the other as long as no
call falls back on that frame before it has been stored anew.
-/

namespace AecmCore

variable {processor : BlockProcessor}

/-- The sizes of the four buffers of a core. -/
def bufferSizes (aecm : AecmCore processor) : List Nat :=
  [aecm.farFrameBuf.elementCount, aecm.nearNoisyFrameBuf.elementCount,
    aecm.nearCleanFrameBuf.elementCount, aecm.outFrameBuf.elementCount]

/-- An initialisation forgets all but the sizes and the far-end history. -/
theorem initCore_congr
    {first second : AecmCore processor}
    (sameSizes : first.bufferSizes = second.bufferSizes)
    (samplingFreq : Int) :
    second.initCore samplingFreq =
      { first.initCore samplingFreq with farBuf := second.farBuf } := by
  simp only [bufferSizes, List.cons.injEq, and_true] at sameSizes
  obtain ⟨far, noisy, clean, out⟩ := sameSizes
  simp only [initCore, RingBuffer.initBuffer_congr far,
    RingBuffer.initBuffer_congr noisy, RingBuffer.initBuffer_congr clean,
    RingBuffer.initBuffer_congr out]

theorem elementCount_of_readBlock
    {buffer target : RingBuffer Short}
    {block : Samples partLen}
    (read : readBlock buffer = some (target, block)) :
    target.elementCount = buffer.elementCount := by
  simp only [readBlock, Option.bind_eq_bind, Option.bind_eq_some_iff,
    Option.some.injEq, Prod.mk.injEq] at read
  obtain ⟨_, isRead, _, _, rfl, _⟩ := read
  exact RingBuffer.elementCount_of_readBuffer isRead

theorem elementCount_of_readClean
    {hasClean : Bool}
    {buffer target : RingBuffer Short}
    {block : Option (Samples partLen)}
    (read : readClean hasClean buffer = some (target, block)) :
    target.elementCount = buffer.elementCount := by
  simp only [readClean] at read
  split at read
  · simp only [Option.map_eq_some_iff, Prod.mk.injEq] at read
    obtain ⟨_, isRead, rfl, _⟩ := read
    exact elementCount_of_readBlock isRead
  · obtain ⟨rfl, _⟩ := Prod.mk.inj (Option.some.inj read)
    rfl

theorem elementCount_of_readOutput
    {buffer target : RingBuffer Short}
    {out : Samples frameLen}
    (read : readOutput buffer = some (target, out)) :
    target.elementCount = buffer.elementCount := by
  simp only [readOutput, Option.bind_eq_bind,
    Option.bind_eq_some_iff] at read
  obtain ⟨stuffed, isStuffed, ⟨readTarget, result⟩, isRead, frame, _,
    same⟩ := read
  obtain ⟨rfl, _⟩ := Prod.mk.inj (Option.some.inj same)
  rw [RingBuffer.elementCount_of_readBuffer isRead]
  simp only [stuffOutput] at isStuffed
  split at isStuffed
  · simp only [Option.map_eq_some_iff] at isStuffed
    obtain ⟨⟨moved, distance⟩, isMoved, rfl⟩ := isStuffed
    exact RingBuffer.elementCount_of_moveReadPtr isMoved
  · rw [Option.some.inj isStuffed]

/-- One block keeps the sizes. -/
theorem bufferSizes_of_processOneBlock
    {hasClean : Bool}
    {aecm next : AecmCore processor}
    {succeeded : Bool}
    (processed :
      aecm.processOneBlock hasClean = some (next, succeeded)) :
    next.bufferSizes = aecm.bufferSizes := by
  simp only [processOneBlock, Option.bind_eq_bind,
    Option.bind_eq_some_iff] at processed
  obtain ⟨far, isFar, noisy, isNoisy, clean, isClean, same⟩ := processed
  obtain ⟨rfl, _⟩ := Prod.mk.inj (Option.some.inj same)
  simp only [bufferSizes, elementCount_of_readBlock isFar,
    elementCount_of_readBlock isNoisy, elementCount_of_readClean isClean]
  split <;> simp only [RingBuffer.elementCount_writeBuffer]

/-- The blocks of a frame keep the sizes. -/
theorem bufferSizes_of_processBlocks
    {hasClean : Bool}
    {blocks : Nat}
    {aecm next : AecmCore processor}
    {succeeded : Bool}
    (processed :
      processBlocks hasClean blocks aecm = some (next, succeeded)) :
    next.bufferSizes = aecm.bufferSizes := by
  induction blocks generalizing aecm with
  | zero =>
      obtain ⟨rfl, _⟩ := Prod.mk.inj (Option.some.inj processed)
      rfl
  | succ blocks inductionHypothesis =>
      simp only [processBlocks, Option.bind_eq_bind,
        Option.bind_eq_some_iff] at processed
      obtain ⟨⟨mid, one⟩, isMid, rest⟩ := processed
      have kept := bufferSizes_of_processOneBlock isMid
      split at rest
      · exact (inductionHypothesis rest).trans kept
      · obtain ⟨rfl, _⟩ := Prod.mk.inj (Option.some.inj rest)
        exact kept

/-- A frame keeps the sizes. -/
theorem bufferSizes_of_processFrame
    {aecm next : AecmCore processor}
    {farend nearendNoisy : Samples frameLen}
    {nearendClean out : Option (Samples frameLen)}
    (processed :
      aecm.processFrame farend nearendNoisy nearendClean =
        some (next, out)) :
    next.bufferSizes = aecm.bufferSizes := by
  simp only [processFrame, processFetched, Option.bind_eq_bind,
    Option.bind_eq_some_iff] at processed
  obtain ⟨buffered, isBuffered, ⟨fetched, farFrame⟩, isFetched,
    ⟨blocked, succeeded⟩, isBlocked, finished⟩ := processed
  have bufferedKept : buffered.bufferSizes = aecm.bufferSizes := by
    simp only [bufferFarFrame] at isBuffered
    split at isBuffered <;>
      simp only [Option.bind_eq_bind, Option.bind_eq_some_iff,
        Option.some.injEq] at isBuffered
    · obtain ⟨_, _, _, _, rfl⟩ := isBuffered
      rfl
    · obtain ⟨_, _, rfl⟩ := isBuffered
      rfl
  have fetchedKept : fetched.bufferSizes = buffered.bufferSizes := by
    simp only [fetchFarFrame, Option.bind_eq_bind,
      Option.bind_eq_some_iff] at isFetched
    obtain ⟨_, _, same⟩ := isFetched
    obtain ⟨rfl, _⟩ := Prod.mk.inj (Option.some.inj same)
    rfl
  have blockedKept := bufferSizes_of_processBlocks isBlocked
  have framesKept :
      (fetched.bufferFrames farFrame nearendNoisy
        nearendClean).bufferSizes = fetched.bufferSizes := by
    cases nearendClean <;>
      simp only [bufferFrames, bufferSizes,
        RingBuffer.elementCount_writeBuffer]
  have finishedKept : next.bufferSizes = blocked.bufferSizes := by
    simp only [finishFrame] at finished
    split at finished
    · simp only [Option.map_eq_some_iff, Prod.mk.injEq] at finished
      obtain ⟨⟨target, frame⟩, isRead, rfl, _⟩ := finished
      simp only [bufferSizes, elementCount_of_readOutput isRead]
    · obtain ⟨rfl, _⟩ := Prod.mk.inj (Option.some.inj finished)
      rfl
  rw [finishedKept, blockedKept, framesKept, fetchedKept, bufferedKept]

end AecmCore

namespace AecMobile

variable {processor : BlockProcessor}

/-- The sizes of the buffers of an instance. -/
def sizes (aecm : AecMobile processor) : List Nat :=
  aecm.farendBuf.elementCount :: aecm.aecmCore.bufferSizes

/-- The sizes that every instance is created with. -/
theorem sizes_of_create
    {memory aecm : AecMobile processor}
    (created : create memory = some aecm) :
    aecm.sizes = [4000, 144, 144, 144, 144] := by
  simp only [create, Option.bind_eq_bind,
    Option.bind_eq_some_iff] at created
  obtain ⟨far, isFar, noisy, isNoisy, clean, isClean, out, isOut, farend,
    isFarend, same⟩ := created
  obtain rfl := Option.some.inj same
  simp only [sizes, AecmCore.bufferSizes,
    RingBuffer.elementCount_of_createBuffer isFar,
    RingBuffer.elementCount_of_createBuffer isNoisy,
    RingBuffer.elementCount_of_createBuffer isClean,
    RingBuffer.elementCount_of_createBuffer isOut,
    RingBuffer.elementCount_of_createBuffer isFarend]
  rfl

/-- A configuration keeps the sizes. -/
theorem sizes_setConfig
    (aecm : AecMobile processor)
    (cngMode echoMode : Int) :
    (aecm.setConfig cngMode echoMode).1.sizes = aecm.sizes := by
  simp only [setConfig]
  split
  · rfl
  split
  · rfl
  split <;> rfl

/-- An initialisation keeps the sizes. -/
theorem sizes_init
    (aecm : AecMobile processor)
    (sampFreq : Int) :
    (aecm.init sampFreq).1.sizes = aecm.sizes := by
  simp only [init]
  split
  · rfl
  · rw [sizes_setConfig]
    rfl

/-- The compensation keeps the sizes. -/
theorem sizes_of_delayComp
    {aecm next : AecMobile processor}
    (compensated : aecm.delayComp = some next) :
    next.sizes = aecm.sizes := by
  simp only [delayComp] at compensated
  split at compensated
  · simp only [Option.map_eq_some_iff] at compensated
    obtain ⟨⟨target, moved⟩, isMoved, rfl⟩ := compensated
    simp only [sizes, RingBuffer.elementCount_of_moveReadPtr isMoved]
  · obtain rfl := Option.some.inj compensated
    rfl

/-- The delay estimate keeps the sizes. -/
theorem sizes_of_estBufDelay
    {aecm next : AecMobile processor}
    {delay : Int}
    (estimated : aecm.estBufDelay delay = some next) :
    next.sizes = aecm.sizes := by
  simp only [estBufDelay, Option.map_eq_some_iff] at estimated
  obtain ⟨⟨target, delayNew⟩, isMeasured, rfl⟩ := estimated
  have kept : target.elementCount = aecm.farendBuf.elementCount := by
    simp only [measureDelay] at isMeasured
    split at isMeasured
    · simp only [Option.map_eq_some_iff, Prod.mk.injEq] at isMeasured
      obtain ⟨⟨moved, distance⟩, isMoved, rfl, _⟩ := isMeasured
      exact RingBuffer.elementCount_of_moveReadPtr isMoved
    · obtain ⟨rfl, _⟩ := Prod.mk.inj (Option.some.inj isMeasured)
      rfl
  simp only [sizes, filterDelay, kept]

/-- Taking a far-end frame keeps the sizes. -/
theorem sizes_of_takeFarend
    {aecm next : AecMobile processor}
    {i : Nat}
    {farend : Samples frameLen}
    (taken : aecm.takeFarend i = some (next, farend)) :
    next.sizes = aecm.sizes := by
  simp only [takeFarend, Option.bind_eq_bind,
    Option.bind_eq_some_iff] at taken
  obtain ⟨⟨fetched, frame⟩, isFetched, estimated, isEstimated, same⟩ :=
    taken
  obtain ⟨rfl, _⟩ := Prod.mk.inj (Option.some.inj same)
  have fetchedKept : fetched.sizes = aecm.sizes := by
    simp only [nextFarend] at isFetched
    split at isFetched
    · simp only [Option.bind_eq_bind, Option.bind_eq_some_iff] at isFetched
      obtain ⟨⟨target, result⟩, isRead, _, _, same⟩ := isFetched
      obtain ⟨rfl, _⟩ := Prod.mk.inj (Option.some.inj same)
      simp only [sizes, RingBuffer.elementCount_of_readBuffer isRead]
    · obtain ⟨rfl, _⟩ := Prod.mk.inj (Option.some.inj isFetched)
      rfl
  simp only [estimateAt] at isEstimated
  split at isEstimated
  · exact (sizes_of_estBufDelay isEstimated).trans fetchedKept
  · obtain rfl := Option.some.inj isEstimated
    exact fetchedKept

/-- The frames of an enabled canceller keep the sizes. -/
theorem sizes_of_processFrames
    {nearendNoisy : List Short}
    {nearendClean : Option (List Short)}
    {frames i : Nat}
    {aecm next : AecMobile processor}
    {result : List Short × Bool}
    (processed :
      processFrames nearendNoisy nearendClean frames i aecm =
        some (next, result)) :
    next.sizes = aecm.sizes := by
  induction frames generalizing i aecm result with
  | zero =>
      obtain ⟨rfl, _⟩ := Prod.mk.inj (Option.some.inj processed)
      rfl
  | succ frames inductionHypothesis =>
      simp only [processFrames, Option.bind_eq_bind,
        Option.bind_eq_some_iff] at processed
      obtain ⟨⟨mid, out⟩, isMid, rest⟩ := processed
      have midKept : mid.sizes = aecm.sizes := by
        simp only [processNth, Option.bind_eq_bind,
          Option.bind_eq_some_iff] at isMid
        obtain ⟨⟨taken, farend⟩, isTaken, _, _, _, _, ⟨core, frame⟩,
          isProcessed, same⟩ := isMid
        obtain ⟨rfl, _⟩ := Prod.mk.inj (Option.some.inj same)
        rw [← sizes_of_takeFarend isTaken]
        simp only [sizes,
          AecmCore.bufferSizes_of_processFrame isProcessed]
      cases out with
      | none =>
          obtain ⟨rfl, _⟩ := Prod.mk.inj (Option.some.inj rest)
          exact midKept
      | some out =>
          simp only [Option.map_eq_some_iff, Prod.mk.injEq] at rest
          obtain ⟨⟨last, later⟩, isLast, rfl, _⟩ := rest
          exact (inductionHypothesis isLast).trans midKept

/-- The start-up phase keeps the sizes. -/
theorem sizes_of_startUp
    {aecm next : AecMobile processor}
    {nBlocks10ms : Int}
    (started : aecm.startUp nBlocks10ms = some next) :
    next.sizes = aecm.sizes := by
  refine
    startUp_keeps sizes
      (checkSoundCard_keeps sizes (fun _ => rfl) fun _ _ => rfl)
      (fun _ => rfl) ?_ started
  intro source distance moved isMoved
  simp only [sizes, RingBuffer.elementCount_of_moveReadPtr isMoved]

/-- An accepted near-end call keeps the sizes. -/
theorem sizes_of_processAccepted
    {aecm next : AecMobile processor}
    {nearendNoisy : List Short}
    {nearendClean : Option (List Short)}
    {nrOfSamples : Nat}
    {retVal : Int}
    {answer : Answer}
    (processed :
      aecm.processAccepted nearendNoisy nearendClean nrOfSamples retVal =
        some (next, answer)) :
    next.sizes = aecm.sizes := by
  simp only [processAccepted] at processed
  split at processed
  · simp only [Option.map_eq_some_iff, Prod.mk.injEq] at processed
    obtain ⟨started, isStarted, rfl, _⟩ := processed
    exact sizes_of_startUp isStarted
  · simp only [Option.map_eq_some_iff, Prod.mk.injEq] at processed
    obtain ⟨⟨last, result⟩, isLast, rfl, _⟩ := processed
    exact sizes_of_processFrames isLast

/-- Every call keeps the sizes. -/
theorem sizes_of_perform
    {source target : AecMobile processor}
    {call : Call}
    {answer : Answer}
    (performed : source.perform call = some (target, answer)) :
    target.sizes = source.sizes := by
  cases call with
  | init sampFreq =>
      obtain ⟨rfl, _⟩ := Prod.mk.inj (Option.some.inj performed)
      exact sizes_init source sampFreq
  | setConfig cngMode echoMode =>
      obtain ⟨rfl, _⟩ := Prod.mk.inj (Option.some.inj performed)
      exact sizes_setConfig source cngMode echoMode
  | bufferFarend farend nrOfSamples =>
      simp only [perform, bufferFarend] at performed
      split at performed
      · obtain ⟨rfl, _⟩ := Prod.mk.inj (Option.some.inj performed)
        rfl
      split at performed
      · simp only [Option.bind_eq_bind, Option.bind_eq_some_iff]
          at performed
        obtain ⟨compensated, isCompensated, same⟩ := performed
        obtain ⟨rfl, _⟩ := Prod.mk.inj (Option.some.inj same)
        rw [← sizes_of_delayComp isCompensated]
        simp only [sizes, RingBuffer.elementCount_writeBuffer]
      · simp only [Option.bind_eq_bind, Option.bind_some] at performed
        obtain ⟨rfl, _⟩ := Prod.mk.inj (Option.some.inj performed)
        simp only [sizes, RingBuffer.elementCount_writeBuffer]
  | process nearendNoisy nearendClean outIsNull nrOfSamples ms =>
      simp only [perform, process] at performed
      split at performed
      · obtain ⟨rfl, _⟩ := Prod.mk.inj (Option.some.inj performed)
        rfl
      have kept := sizes_of_processAccepted performed
      exact kept

/-- Along a run the sizes stay as they are. -/
theorem sizes_of_path
    {source target : AecMobile processor}
    {moves : List (Move (AecMobile processor) (Call × Answer))}
    (path : Path Step source moves target) :
    target.sizes = source.sizes :=
  (Path.invariant (fun aecm => aecm.sizes = source.sizes)
    (fun same performed => (sizes_of_perform performed).trans same)
    rfl path).2

/-- The bytes that an initialisation clears are the first row of `farendOld`. -/
theorem clearFarendOld_160
    (farendOld : Samples frameLen × Samples frameLen) :
    clearFarendOld farendOld 160 =
      (Samples.zeros frameLen, farendOld.2) := by
  obtain ⟨⟨first, firstLength⟩, second⟩ := farendOld
  have noneLeft : first.drop 80 = [] :=
    List.drop_eq_nil_of_le (Nat.le_of_eq firstLength)
  apply Prod.ext
  · apply Subtype.ext
    simp [clearFarendOld, Samples.clear, Samples.zeros, frameLen,
      noneLeft]
  · apply Subtype.ext
    simp [clearFarendOld, Samples.clear, frameLen]

/-- The core after an initialisation with its default configuration. -/
def configuredCore
    (aecm : AecMobile processor)
    (sampFreq : Int) : AecmCore processor :=
  let core := aecm.aecmCore.initCore sampFreq
  { core with
    block := processor.setEchoMode (processor.setCngMode core.block 1) 3 }

/-- What an initialisation at a supported rate leaves. -/
theorem init_of_supported
    (aecm : AecMobile processor)
    {sampFreq : Int}
    (supported : sampFreq = 8000 ∨ sampFreq = 16000) :
    aecm.init sampFreq =
      ({ aecm with
          sampFreq := sampFreq
          aecmCore := aecm.configuredCore sampFreq
          farendBuf := aecm.farendBuf.initBuffer 0
          initFlag := initCheck
          delayChange := true
          sum := 0
          counter := 0
          checkBuffSize := true
          firstVal := 0
          ecStartup := true
          bufSizeStart := 0
          checkBufSizeCtr := 0
          filtDelay := 0
          timeForDelayChange := 0
          knownDelay := 0
          lastDelayDiff := 0
          farendOld := (Samples.zeros frameLen, aecm.farendOld.2)
          echoMode := toShort 3 }, ⟨0, []⟩) := by
  have accepted : ¬ (sampFreq ≠ 8000 ∧ sampFreq ≠ 16000) := by
    omega
  simp only [init, if_neg accepted, clearFarendOld_160]
  rfl

/-- Two instances that are initialised at the same rate are alike but for their
second saved frames. -/
theorem init_alike
    {first second : AecMobile processor}
    (sameSizes : first.sizes = second.sizes)
    {sampFreq : Int}
    (supported : sampFreq = 8000 ∨ sampFreq = 16000) :
    (second.init sampFreq).2 = (first.init sampFreq).2 ∧
      Alike (second.farendOld.2 = first.farendOld.2)
        (first.init sampFreq).1 (second.init sampFreq).1 := by
  simp only [sizes, List.cons.injEq] at sameSizes
  obtain ⟨sameFarend, sameCore⟩ := sameSizes
  have configured :
      second.configuredCore sampFreq =
        { first.configuredCore sampFreq with
          farBuf := second.aecmCore.farBuf } := by
    simp only [configuredCore, AecmCore.initCore_congr sameCore]
  have sameBuffer := RingBuffer.initBuffer_congr sameFarend 0
  rw [init_of_supported first supported,
    init_of_supported second supported, configured, sameBuffer]
  refine ⟨rfl, rfl, ⟨rfl, rfl, rfl, Nat.zero_le _⟩, ?_, id⟩
  intro running
  cases running

/-- A call that stores a second far-end frame, having written a first frame. -/
def SavesSecond
    (move : Move (AecMobile processor) (Call × Answer)) : Prop :=
  move.source.secondFrame move.label.1 = some true ∧
    80 ≤ move.label.2.out.length

/-- A call whose second frame finds no whole far-end frame and falls back on the
saved one. -/
def ReusesSecond
    (move : Move (AecMobile processor) (Call × Answer)) : Prop :=
  move.source.secondFrame move.label.1 = some false

/-- A call on one of two instances alike is the same call with the same answer on the
other, if it does not reuse a second frame saved before the initialisation. -/
theorem step_alike
    {stored : Prop}
    {first second next : AecMobile processor}
    {exchange : Call × Answer}
    (alike : Alike stored first second)
    (fresh : ReusesSecond ⟨first, exchange, next⟩ → stored)
    (performed : Step first exchange next) :
    ∃ other,
      Step second exchange other ∧
        Alike (stored ∨ SavesSecond ⟨first, exchange, next⟩)
          next other := by
  obtain ⟨call, answer⟩ := exchange
  simp only [Step, ReusesSecond, SavesSecond] at performed fresh ⊢
  cases call with
  | init sampFreq =>
      have sameSizes : first.sizes = second.sizes :=
        (congrArg AecMobile.sizes alike.varied).symm
      simp only [perform] at performed ⊢
      by_cases supported : sampFreq = 8000 ∨ sampFreq = 16000
      · obtain ⟨rfl, rfl⟩ := Prod.mk.inj (Option.some.inj performed)
        obtain ⟨sameAnswer, nextAlike⟩ := init_alike sameSizes supported
        refine ⟨_, congrArg some (Prod.ext rfl sameAnswer),
          nextAlike.mono ?_⟩
        rintro (isStored | ⟨impossible, _⟩)
        · exact alike.saved isStored
        · cases impossible
      · have refused : sampFreq ≠ 8000 ∧ sampFreq ≠ 16000 := by
          omega
        simp only [init, if_pos refused] at performed ⊢
        obtain ⟨rfl, rfl⟩ := Prod.mk.inj (Option.some.inj performed)
        refine ⟨second, rfl, alike.mono ?_⟩
        rintro (isStored | ⟨impossible, _⟩)
        · exact isStored
        · cases impossible
  | setConfig cngMode echoMode =>
      obtain ⟨rfl, rfl⟩ := Prod.mk.inj (Option.some.inj performed)
      obtain ⟨sameAnswer, nextAlike⟩ :=
        setConfig_alike alike cngMode echoMode
      refine ⟨_, congrArg some (Prod.ext rfl sameAnswer),
        nextAlike.mono ?_⟩
      rintro (isStored | ⟨impossible, _⟩)
      · exact isStored
      · cases impossible
  | bufferFarend farend nrOfSamples =>
      obtain ⟨other, isOther, nextAlike⟩ :=
        bufferFarend_alike alike performed
      refine ⟨other, isOther, nextAlike.mono ?_⟩
      rintro (isStored | ⟨impossible, _⟩)
      · exact isStored
      · cases impossible
  | process nearendNoisy nearendClean outIsNull nrOfSamples ms =>
      exact process_alike alike fresh performed

/--
Two instances with any histories that are initialised at the same rate answer the
same calls alike, if their second saved far-end frames are the same or no call falls
back on that frame before it has been stored since.
-/
theorem run_alike_of_saved
    {memory₁ memory₂ created₁ created₂ first second final :
      AecMobile processor}
    {past₁ past₂ moves : List (Move (AecMobile processor) (Call × Answer))}
    {sampFreq : Int}
    (create₁ : create memory₁ = some created₁)
    (create₂ : create memory₂ = some created₂)
    (history₁ : Path Step created₁ past₁ first)
    (history₂ : Path Step created₂ past₂ second)
    (supported : sampFreq = 8000 ∨ sampFreq = 16000)
    (run : Path Step (first.init sampFreq).1 moves final)
    (saved :
      second.farendOld.2 = first.farendOld.2 ∨
        ∀ earlier move later,
          moves = earlier ++ move :: later →
            ReusesSecond move →
              ∃ before ∈ earlier, SavesSecond before) :
    (second.init sampFreq).2 = (first.init sampFreq).2 ∧
      ∃ others last,
        Path Step (second.init sampFreq).1 others last ∧
          others.map Move.label = moves.map Move.label := by
  have sameSizes : first.sizes = second.sizes := by
    rw [sizes_of_path history₁, sizes_of_path history₂,
      sizes_of_create create₁, sizes_of_create create₂]
  obtain ⟨sameAnswer, alike⟩ := init_alike sameSizes supported
  refine ⟨sameAnswer, ?_⟩
  -- The record of a stored frame: the same one all along, or a move so far.
  let stored (taken : List (Move (AecMobile processor) (Call × Answer))) :
      Prop :=
    second.farendOld.2 = first.farendOld.2 ∨
      ∃ before ∈ taken, SavesSecond before
  obtain ⟨others, last, path, labels, _⟩ :=
    Path.twin
      (fun taken => Alike (stored taken))
      (fun taken move => ReusesSecond move → stored taken)
      (by
        intro taken source label target other sourceAlike fresh performed
        obtain ⟨next, otherStep, nextAlike⟩ :=
          step_alike sourceAlike fresh performed
        refine ⟨next, otherStep, nextAlike.mono ?_⟩
        rintro (same | ⟨before, member, saves⟩)
        · exact .inl (.inl same)
        · rcases List.mem_append.mp member with earlier | isLast
          · exact .inl (.inr ⟨before, earlier, saves⟩)
          · rw [List.mem_singleton] at isLast
            subst isLast
            exact .inr saves)
      (show Alike (stored []) (first.init sampFreq).1
          (second.init sampFreq).1 from
        alike.mono fun isStored => isStored.elim id
          fun ⟨_, member, _⟩ => absurd member List.not_mem_nil)
      run
      (fun earlier move later shape reuses => by
        rw [List.nil_append]
        exact saved.imp id
          fun before => before earlier move later shape reuses)
  exact ⟨others, last, path, labels⟩

/-! ## A run that hears what was played before -/

/-- Spectral work that passes the far block on. -/
def passFar : BlockProcessor where
  State := Unit
  init _ := ()
  setCngMode _ _ := ()
  setEchoMode _ _ := ()
  processBlock _ far _ _ := ((), some far)

/-- Memory full of zeros. -/
def zeroMemory : AecMobile passFar where
  sampFreq := 0
  bufSizeStart := 0
  knownDelay := 0
  farendOld := (Samples.zeros frameLen, Samples.zeros frameLen)
  initFlag := 0
  counter := 0
  sum := 0
  firstVal := 0
  checkBufSizeCtr := 0
  msInSndCardBuf := 0
  filtDelay := 0
  timeForDelayChange := 0
  ecStartup := false
  checkBuffSize := false
  delayChange := false
  lastDelayDiff := 0
  echoMode := 0
  farendBuf := ⟨0, 0, 0, .sameWrap, []⟩
  aecmCore := {
    farBufWritePos := 0
    farBufReadPos := 0
    knownDelay := 0
    lastKnownDelay := 0
    farFrameBuf := ⟨0, 0, 0, .sameWrap, []⟩
    nearNoisyFrameBuf := ⟨0, 0, 0, .sameWrap, []⟩
    nearCleanFrameBuf := ⟨0, 0, 0, .sameWrap, []⟩
    outFrameBuf := ⟨0, 0, 0, .sameWrap, []⟩
    farBuf := Samples.zeros farBufLen
    mult := 0
    block := ()
  }

/-- Ten milliseconds of near-end silence at 16 kHz. -/
def silence : Call :=
  .process (some (List.replicate 160 0)) none false 160 0

/-- An instance created in memory with the given second saved frame. -/
def newInstance (saved : Samples frameLen) : AecMobile passFar :=
  (create (zeroMemory.vary saved 0 (Samples.zeros farBufLen))).getD
    zeroMemory

/-- A saved frame of loud samples. -/
def loudFrame : Samples frameLen :=
  ⟨List.replicate 80 1000, List.length_replicate⟩

/-- Ten milliseconds of start-up are answered alike, whatever the second saved frame
holds. -/
theorem run_alike_of_saved_silence :
    ∃ others last,
      Path Step ((newInstance loudFrame).init 16000).1 others last ∧
        others.map Move.label =
          [(silence, ⟨0, List.replicate 160 0⟩)] := by
  have answered :
      (((newInstance (Samples.zeros frameLen)).init 16000).1.perform
          silence).map Prod.snd =
        some ⟨0, List.replicate 160 0⟩ := by
    decide +kernel
  obtain ⟨⟨next, answer⟩, performed, isAnswer⟩ :=
    Option.map_eq_some_iff.mp answered
  simp only at isAnswer
  have startingUp :
      ((newInstance (Samples.zeros frameLen)).init
          16000).1.secondFrame silence = none := by
    decide +kernel
  have step :
      Step ((newInstance (Samples.zeros frameLen)).init 16000).1
        (silence, ⟨0, List.replicate 160 0⟩) next := by
    rw [← isAnswer]
    exact performed
  have run :=
    run_alike_of_saved
      (show create (zeroMemory.vary (Samples.zeros frameLen) 0
          (Samples.zeros farBufLen)) =
        some (newInstance (Samples.zeros frameLen)) from rfl)
      (show create (zeroMemory.vary loudFrame 0
          (Samples.zeros farBufLen)) =
        some (newInstance loudFrame) from rfl)
      (.nil _) (.nil _) (.inr rfl) (Path.single step)
      (.inr fun earlier move later shape reuses => by
        have member : move ∈ earlier ++ move :: later := by simp
        rw [← shape, List.mem_singleton] at member
        subst member
        simp only [ReusesSecond, startingUp] at reuses
        cases reuses)
  exact run.2

/-- Calls one after another. -/
def performAll
    (aecm : AecMobile processor) :
    List Call → Option (AecMobile processor × List Answer)
  | [] => some (aecm, [])
  | call :: calls =>
      (aecm.perform call).bind fun performed =>
        (performed.1.performAll calls).map fun later =>
          (later.1, performed.2 :: later.2)

/-- The start-up phase, up to an enabled canceller with a silent far end. -/
def quietCalls : List Call :=
  List.replicate 6 silence ++
    [.bufferFarend (some (List.replicate 80 0)) 80, silence]

/-- Calls in which the far end becomes loud. -/
def loudCalls : List Call :=
  .init 16000 :: quietCalls ++
    [.bufferFarend (some (List.replicate 160 1000)) 160, silence]

/-- The second saved frame after a history and an initialisation at 16 kHz. -/
def savedAfter (history : List Call) : Option (List Short) := do
  let created ← create zeroMemory
  let used ← created.performAll history
  some (used.1.init 16000).1.farendOld.2.1

/-- The answers to calls after a history and an initialisation at 16 kHz. -/
def answersAfter
    (history calls : List Call) : Option (List Answer) := do
  let created ← create zeroMemory
  let used ← created.performAll history
  let answered ← (used.1.init 16000).1.performAll calls
  some answered.2

/-- After a loud far end, an initialisation at 16 kHz leaves a second saved frame
that the same silent calls play back, and that a new instance does not know. -/
theorem answersAfter_loudCalls :
    savedAfter loudCalls = some (List.replicate 80 1000) ∧
      savedAfter [] = some (List.replicate 80 0) ∧
        (answersAfter loudCalls (quietCalls ++ [silence])).isSome ∧
          (answersAfter [] (quietCalls ++ [silence])).isSome ∧
            answersAfter loudCalls (quietCalls ++ [silence]) ≠
              answersAfter [] (quietCalls ++ [silence]) := by
  decide +kernel

end AecMobile

end ApmSdk.Aecm
