import ApmSdk.AecCalls
import ApmSdk.LabelledPath

namespace ApmSdk.Echo

/-!
# The balance of the far end over whole runs

Far-end samples that came in are in the pre-buffer or in a partition, or they are on the
books: in the system delay, in the known delay or in the corrections by the signal.
-/

namespace AecCore

variable {canceller : EchoCanceller}
variable {aec before after : AecCore canceller}

/-- The soft resets of the delay estimator stay inside its history. -/
structure ShiftsInHistory (aec : AecCore canceller) : Prop where
  lookahead : 0 ≤ aec.lookahead
  lookahead_lt : aec.lookahead < kHistorySizeBlocks - 1
  shiftInHistory : aec.assertions.shiftInHistory = true

theorem Sized.within
    (sized : aec.Sized) :
    aec.account.Within :=
  ⟨Int.natCast_nonneg _,
    Int.ofNat_le.mpr sized.farTimeBuf.availableRead_le⟩

/-- The correction that is asked for and the part of it that is made both leave the
lookahead in the history. -/
theorem FrameStep.shiftsInHistory
    {knownDelay : Int}
    {adjusted : Account}
    (step : FrameStep knownDelay before after adjusted)
    (ready : before.Ready)
    (shifts : ShiftsInHistory before) :
    ShiftsInHistory after := by
  have lower := shifts.lookahead
  have upper := shifts.lookahead_lt
  have history : kHistorySizeBlocks = 125 := rfl
  rcases step.adjusts with ⟨mode, lookahead, shiftInHistory⟩ |
    ⟨mode, elements, realigned⟩
  · exact
      ⟨lookahead ▸ lower, lookahead ▸ upper,
        shiftInHistory.trans shifts.shiftInHistory⟩
  · have within : before.stuffedAccount.Within :=
      Account.Within.stuff
        (show before.account.receive.Within from
          ⟨ready.within.lower, ready.within.upper⟩) _
    obtain ⟨clipLower, clipUpper⟩ := within.clip_bounds elements
    have least := realigned.lower upper
    have most := realigned.upper lower
    refine ⟨?_, ?_, ?_⟩
    · rw [realigned.lookahead]
      omega
    · rw [realigned.lookahead]
      omega
    · rw [realigned.shiftInHistory, shifts.shiftInHistory, Bool.true_and,
        decide_eq_true_eq]
      omega

theorem FarMove.shiftsInHistory
    (move : FarMove before after)
    (shifts : ShiftsInHistory before) :
    ShiftsInHistory after :=
  ⟨move.lookahead ▸ shifts.lookahead,
    move.lookahead ▸ shifts.lookahead_lt,
    move.shiftInHistory.trans shifts.shiftInHistory⟩

/-- No condition on the frames is one that all of them meet. -/
theorem atFrames_true
    (knownDelay : Int)
    (nearend : List (BandFrames canceller))
    (aec : AecCore canceller) :
    AtFrames (fun _ => True) knownDelay nearend aec := by
  induction nearend generalizing aec with
  | nil => trivial
  | cons frames rest inductionHypothesis =>
      exact ⟨trivial, fun next _ _ => inductionHypothesis next⟩

end AecCore

namespace Aec

variable {canceller : EchoCanceller}
variable {aecpc before after : Aec canceller}

/-- The books of the far end balance. -/
def Balanced (aecpc : Aec canceller) : Prop :=
  64 * (aecpc.aec.farTimeBuf.availableRead : Int) +
      ((aecpc.farPreBuf.availableRead : Int) - 64) =
    aecpc.aec.systemDelay + aecpc.aec.low.nearFrBuf.availableRead +
        aecpc.aec.knownDelay -
      64 * aecpc.aec.signalDelayCorrection

theorem balanced_iff :
    aecpc.Balanced ↔ aecpc.aec.account.surplus + aecpc.pending = 0 := by
  have size : (partLen : Int) = 64 := rfl
  unfold Balanced pending Account.surplus AecCore.account
  dsimp only
  rw [size]
  omega

/-- What holds of an instance in every state of a run. -/
structure Accounted (aecpc : Aec canceller) : Prop extends Sized aecpc where
  lookahead : 0 ≤ aecpc.aec.lookahead
  lookahead_lt : aecpc.aec.lookahead < kHistorySizeBlocks - 1
  running : aecpc.initFlag = initCheck → aecpc.Running
  shiftInHistory :
    aecpc.initFlag = initCheck → aecpc.aec.assertions.shiftInHistory = true
  surplus :
    aecpc.initFlag = initCheck →
      aecpc.aec.assertions.farBlockFound = true →
        aecpc.aec.account.surplus + aecpc.pending = 0

theorem accounted_create
    {memory : Aec canceller}
    (created : memory.create = some aecpc) :
    aecpc.Accounted := by
  unfold create at created
  obtain ⟨aec, aecCreated, created⟩ := Option.bind_eq_some_iff.mp created
  obtain ⟨farPreBuf, bufferCreated, created⟩ :=
    Option.bind_eq_some_iff.mp created
  obtain rfl := Option.some.inj created
  have lookahead :
      aec.lookahead = if canceller.android then 0 else kLookaheadBlocks := by
    unfold AecCore.createAec at aecCreated
    simp only [Option.bind_eq_bind, Option.bind_eq_some_iff] at aecCreated
    obtain ⟨_, _, _, _, _, _, _, _, isCreated⟩ := aecCreated
    cases isCreated
    rfl
  have unflagged : (0 : Int) ≠ initCheck := by decide
  refine
    { aec := AecCore.sized_createAec aecCreated
      farPreBuf := (RingBuffer.sized_createBuffer bufferCreated).1
      lookahead := ?_
      lookahead_lt := ?_
      running := fun flagged => absurd flagged unflagged
      shiftInHistory := fun flagged => absurd flagged unflagged
      surplus := fun flagged => absurd flagged unflagged }
  · dsimp only
    rw [lookahead]
    split <;> decide
  · dsimp only
    rw [lookahead]
    split <;> decide

/-- A setting changes nothing on the books. -/
theorem Accounted.setConfig
    (accounted : aecpc.Accounted)
    (config : AecConfig) :
    (aecpc.setConfig config).1.Accounted := by
  unfold Aec.setConfig
  split
  · exact accounted
  · split
    · exact accounted
    · exact
        { accounted with
          running := fun flagged =>
            { accounted.running flagged with } }

/-- The frequencies that `WebRtcAec_Init` accepts. -/
def LegalFrequency (sampFreq : Int) : Prop :=
  sampFreq = 8000 ∨ sampFreq = 16000 ∨ sampFreq = 32000 ∨
    sampFreq = 48000

theorem ready_initAec
    {aec : AecCore canceller}
    {sampFreq : Int}
    (sized : aec.Sized)
    (legal : LegalFrequency sampFreq) :
    (aec.initAec sampFreq).Ready := by
  obtain ⟨initSized, books⟩ := sized.initAec sampFreq
  have near :
      (aec.initAec sampFreq).low.nearFrBuf.availableRead = 0 :=
    Int.ofNat_eq_zero.mp (congrArg Account.near books)
  have bands :
      (if sampFreq = 8000 then 1 else (sampFreq.tdiv 16000).toNat) - 1 ≤
        numHighBandsMax := by
    rcases legal with rfl | rfl | rfl | rfl <;> decide
  have positive : 1 ≤ kInitialShiftOffset := by decide
  exact
    { initSized with
      near := near ▸ Nat.zero_lt_succ _
      bands := bands
      shiftOffset := positive }

/-- The pre-buffer of an initialised instance has been rewound for the overlap. -/
theorem running_initState
    {sampFreq : Int}
    {farPreBuf : RingBuffer canceller.Sample}
    (sized : aecpc.aec.Sized)
    (legal : LegalFrequency sampFreq)
    (scSampFreq : Int)
    (rewound :
      RingBuffer.Sized (partLen2 + kResamplerBufferSize) farPreBuf)
    (level : farPreBuf.availableRead = partLen) :
    (aecpc.initState sampFreq scSampFreq farPreBuf).Running where
  aec := (sized.initAec sampFreq).1
  farPreBuf := rewound
  core := ready_initAec sized legal
  overlap := Nat.le_of_eq level.symm
  below := by
    show farPreBuf.availableRead < partLen2
    rw [level]
    decide
  skewLower := by
    show (-1 / 2 : Rat) ≤ 0
    norm_num
  skewUpper := by
    show (0 : Rat) ≤ 1
    norm_num
  inStep :=
    { lower := by
        show (-1 / 4 : Rat) ≤ 0
        norm_num
      upper := by
        show (0 : Rat) ≤ 3
        norm_num }

/-- An initialised instance starts with empty books. -/
theorem Accounted.initState
    {sampFreq : Int}
    {farPreBuf : RingBuffer canceller.Sample}
    (accounted : aecpc.Accounted)
    (legal : LegalFrequency sampFreq)
    (scSampFreq : Int)
    (rewound :
      RingBuffer.Sized (partLen2 + kResamplerBufferSize) farPreBuf)
    (level : farPreBuf.availableRead = partLen) :
    (aecpc.initState sampFreq scSampFreq farPreBuf).Accounted where
  aec := (accounted.aec.initAec sampFreq).1
  farPreBuf := rewound
  lookahead := accounted.lookahead
  lookahead_lt := accounted.lookahead_lt
  running _ :=
    running_initState accounted.aec legal scSampFreq rewound level
  shiftInHistory _ := rfl
  surplus _ _ := by
    have books := (accounted.aec.initAec sampFreq).2
    show (aecpc.aec.initAec sampFreq).account.surplus +
      ((farPreBuf.availableRead : Int) - partLen) = 0
    rw [books, level]
    decide

/-- What an initialisation leaves: another frequency if it is refused, else a core that is set up
behind a buffer with one partition to read. -/
theorem Accounted.init_cases
    (accounted : aecpc.Accounted)
    {sampFreq scSampFreq code : Int}
    {next : Aec canceller}
    (initialised :
      aecpc.init sampFreq scSampFreq = some (next, code)) :
    (∃ otherSampFreq, next = { aecpc with sampFreq := otherSampFreq }) ∨
      ∃ farPreBuf,
        LegalFrequency sampFreq ∧
          RingBuffer.Sized (partLen2 + kResamplerBufferSize) farPreBuf ∧
          farPreBuf.availableRead = partLen ∧
          next =
            ((aecpc.initState sampFreq scSampFreq farPreBuf).setConfig
              ⟨1, 0, 0, 0⟩).1 := by
  unfold Aec.init at initialised
  split at initialised
  · cases initialised
    exact .inl ⟨aecpc.sampFreq, rfl⟩
  next legal =>
    split at initialised
    · cases initialised
      exact .inl ⟨sampFreq, rfl⟩
    · obtain ⟨emptied, noElements⟩ :=
        RingBuffer.sized_initBuffer canceller.zero (by decide)
          accounted.farPreBuf
      obtain ⟨farPreBuf, moves, rewound, level⟩ :=
        emptied.moveReadPtr (by decide) (-partLen)
      rw [noElements, RingBuffer.clipMove_back (by decide)] at moves level
      rw [moves, Option.bind_eq_bind, Option.bind_some] at initialised
      have isLegal : LegalFrequency sampFreq := by
        unfold LegalFrequency
        omega
      have isNext := congrArg Prod.fst (Option.some.inj initialised)
      exact .inr ⟨farPreBuf, isLegal, rewound, by omega, isNext.symm⟩

theorem Accounted.init
    (accounted : aecpc.Accounted)
    {sampFreq scSampFreq code : Int}
    {next : Aec canceller}
    (initialised :
      aecpc.init sampFreq scSampFreq = some (next, code)) :
    next.Accounted := by
  rcases accounted.init_cases initialised with ⟨otherSampFreq, rfl⟩ |
    ⟨farPreBuf, legal, rewound, level, rfl⟩
  · exact
      { accounted with
        running := fun flagged =>
          { accounted.running flagged with } }
  · exact
      (accounted.initState legal scSampFreq rewound level).setConfig
        ⟨1, 0, 0, 0⟩

/-- An uninitialised instance refuses a far-end frame. -/
theorem bufferFarend_uninitialised
    (unflagged : aecpc.initFlag ≠ initCheck)
    (farend : Option (List canceller.Sample)) :
    ∃ code, aecpc.bufferFarend farend = some (aecpc, code) := by
  have refused : aecpc.getBufferFarendError farend ≠ 0 := fun noError =>
    unflagged (getBufferFarendError_eq_zero noError).1
  unfold Aec.bufferFarend
  dsimp only
  rw [if_pos refused]
  exact ⟨_, rfl⟩

theorem Accounted.bufferFarend
    (accounted : aecpc.Accounted)
    {farend : Option (List canceller.Sample)}
    {next : Aec canceller}
    {code : Int}
    (buffered : aecpc.bufferFarend farend = some (next, code)) :
    next.Accounted := by
  by_cases flagged : aecpc.initFlag = initCheck
  · obtain ⟨other, otherCode, otherBuffered, nextRunning, fed⟩ :=
      (accounted.running flagged).bufferFarend farend
    cases otherBuffered.symm.trans buffered
    rcases fed with rfl | ⟨length, fed⟩
    · exact accounted
    · have lookahead : next.aec.lookahead = aecpc.aec.lookahead :=
        fed.move.lookahead
      exact
        { nextRunning with
          lookahead := lookahead ▸ accounted.lookahead
          lookahead_lt := lookahead ▸ accounted.lookahead_lt
          running := fun _ => nextRunning
          shiftInHistory := fun _ =>
            fed.move.shiftInHistory.trans
              (accounted.shiftInHistory flagged)
          surplus := fun _ found =>
            fed.surplus.trans
              (accounted.surplus flagged
                (fed.move.farBlockFound.symm.trans found)) }
  · obtain ⟨otherCode, refused⟩ :=
      bufferFarend_uninitialised flagged farend
    cases refused.symm.trans buffered
    exact accounted

/-- A call with a known delay processes frames, the others copy them. -/
theorem Accounted.callCore
    (accounted : aecpc.Accounted)
    (flagged : aecpc.initFlag = initCheck)
    {nearend : List (AecCore.BandFrames canceller)}
    {knownDelay : Option Int}
    {next : Aec canceller}
    {out : List (List (List canceller.Sample))}
    (called : aecpc.callCore nearend knownDelay = some (next, out)) :
    next.Accounted := by
  cases knownDelay with
  | none =>
      cases called
      exact accounted
  | some knownDelay =>
      obtain ⟨⟨aec, frames⟩, processed, isNext⟩ :=
        Option.map_eq_some_iff.mp called
      cases isNext
      have running := accounted.running flagged
      obtain ⟨coreReady, shifts, surplus⟩ :=
        running.core.processFrames
          (fun core =>
            AecCore.ShiftsInHistory core ∧
              (core.assertions.farBlockFound = true →
                core.account.surplus + aecpc.pending = 0))
          (fun _ => True)
          (fun ready holds _ step =>
            ⟨step.shiftsInHistory ready holds.1, fun found =>
              have ⟨foundBefore, same⟩ := step.surplus found
              same.symm ▸ holds.2 foundBefore⟩)
          ⟨⟨accounted.lookahead, accounted.lookahead_lt,
            accounted.shiftInHistory flagged⟩, accounted.surplus flagged⟩
          (AecCore.atFrames_true ..) processed
      exact
        { aec := coreReady.toSized
          farPreBuf := accounted.farPreBuf
          lookahead := shifts.lookahead
          lookahead_lt := shifts.lookahead_lt
          running := fun _ =>
            { running with
              aec := coreReady.toSized
              core := coreReady }
          shiftInHistory := fun _ => shifts.shiftInHistory
          surplus := fun _ => surplus }

/-- What happens before the frames changes nothing on the books. -/
theorem Accounted.ofPrepared
    {next : Aec canceller}
    (accounted : aecpc.Accounted)
    (flagged : aecpc.initFlag = initCheck)
    (prepared : Prepared aecpc next)
    (sized : next.aec.Sized) :
    next.Accounted where
  aec := sized
  farPreBuf := prepared.farPreBuf ▸ accounted.farPreBuf
  lookahead := prepared.move.lookahead ▸ accounted.lookahead
  lookahead_lt := prepared.move.lookahead ▸ accounted.lookahead_lt
  running _ := (accounted.running flagged).ofPrepared prepared sized
  shiftInHistory _ :=
    prepared.move.shiftInHistory.trans (accounted.shiftInHistory flagged)
  surplus _ found := by
    unfold pending
    rw [prepared.surplus, prepared.farPreBuf]
    exact
      accounted.surplus flagged
        (prepared.move.farBlockFound.symm.trans found)

theorem Accounted.process
    (accounted : aecpc.Accounted)
    {nearend : List (List canceller.Sample)}
    {hasOut : Bool}
    {nrOfSamples : Nat}
    {msInSndCardBuf skew : Int}
    {next : Aec canceller}
    {answer : Answer canceller}
    (processed :
      aecpc.process nearend hasOut nrOfSamples msInSndCardBuf skew =
        some (next, answer)) :
    next.Accounted := by
  rcases process_cases processed with ⟨rfl, -⟩ |
    ⟨checked, frames, prepared, retVal, knownDelay, out, -, prepares,
      called⟩
  · exact accounted
  · obtain ⟨preparing, sized⟩ := prepared_prepare accounted.aec prepares
    exact
      (accounted.ofPrepared checked.initFlag preparing sized).callCore
        (preparing.initFlag.trans checked.initFlag) called

/-- The modes are no part of the books. -/
theorem Accounted.withModes
    (accounted : aecpc.Accounted)
    {aec : AecCore canceller}
    (sized : aec.Sized)
    (ready : aecpc.aec.Ready → aec.Ready)
    (lookahead : aec.lookahead = aecpc.aec.lookahead)
    (assertions : aec.assertions = aecpc.aec.assertions)
    (account : aec.account = aecpc.aec.account) :
    ({ aecpc with aec := aec } : Aec canceller).Accounted where
  aec := sized
  farPreBuf := accounted.farPreBuf
  lookahead := lookahead ▸ accounted.lookahead
  lookahead_lt := lookahead ▸ accounted.lookahead_lt
  running flagged :=
    { accounted.running flagged with
      aec := sized
      core := ready (accounted.running flagged).core }
  shiftInHistory flagged := by
    rw [assertions]
    exact accounted.shiftInHistory flagged
  surplus flagged found := by
    rw [assertions] at found
    unfold pending
    rw [account]
    exact accounted.surplus flagged found

/-- Every call keeps the books in order. -/
theorem Accounted.perform
    (accounted : aecpc.Accounted)
    {call : Call canceller}
    {next : Aec canceller}
    (performed : aecpc.perform call = some next) :
    next.Accounted := by
  cases call with
  | init sampFreq scSampFreq =>
      obtain ⟨⟨_, _⟩, initialised, rfl⟩ :=
        Option.map_eq_some_iff.mp performed
      exact accounted.init initialised
  | setConfig config =>
      obtain rfl := Option.some.inj performed
      exact accounted.setConfig config
  | enableExtendedFilter enable =>
      obtain rfl := Option.some.inj performed
      exact
        accounted.withModes { accounted.aec with }
          (fun ready => { ready with }) rfl rfl rfl
  | enableDelayAgnostic enable =>
      obtain rfl := Option.some.inj performed
      exact
        accounted.withModes { accounted.aec with }
          (fun ready => { ready with }) rfl rfl rfl
  | bufferFarend farend =>
      obtain ⟨⟨_, _⟩, buffered, rfl⟩ :=
        Option.map_eq_some_iff.mp performed
      exact accounted.bufferFarend buffered
  | process nearend hasOut nrOfSamples msInSndCardBuf skew =>
      obtain ⟨⟨_, _⟩, processed, rfl⟩ :=
        Option.map_eq_some_iff.mp performed
      exact accounted.process processed

/-- So does every run from a created instance. -/
theorem accounted_run
    {memory created final : Aec canceller}
    {moves : List (Move (Aec canceller) (Call canceller))}
    (creates : memory.create = some created)
    (path : Path (stepOf perform) created moves final) :
    final.Accounted :=
  (path.invariant Accounted (fun accounted taken => accounted.perform taken)
    (accounted_create creates)).2

/-! ## A canceller whose samples have no value -/

/-- Its delay estimator is certain that there is no delay. -/
def plain : EchoCanceller where
  Sample := Unit
  zero := ()
  interpolate _ sample _ := sample
  android := true
  float := ⟨.exact, .exact⟩
  State := Unit
  init _ := ()
  processBlock state _ _ _ _ :=
    (state, fun _ => ⟨List.replicate partLen (), List.length_replicate⟩)
  lastDelay _ := 0
  lastDelay_lt _ := by decide
  lastDelayQuality _ := 1
  softReset state _ := state
  setAllowedOffset state _ := state
  SkewData := Unit
  newSkewData := ()
  getSkew data _ _ := (data, some 0)

/-- A ring without elements. -/
def noRing {α : Type} : RingBuffer α :=
  ⟨0, 0, 0, .sameWrap, []⟩

/-- Memory full of zeros. -/
def zeroMemory (canceller : EchoCanceller) : Aec canceller where
  sampFreq := 0
  splitSampFreq := 0
  scSampFreq := 0
  sampFactor := 0
  skewMode := 0
  bufSizeStart := 0
  knownDelay := 0
  rateFactor := 0
  initFlag := 0
  counter := 0
  sum := 0
  firstVal := 0
  checkBufSizeCtr := 0
  msInSndCardBuf := 0
  filtDelay := 0
  timeForDelayChange := 0
  startupPhase := false
  checkBuffSize := false
  lastDelayDiff := 0
  resampler := .init
  skewData := canceller.newSkewData
  skewFrCtr := 0
  resample := false
  skew := 0
  farPreBuf := noRing
  farendStarted := false
  aec := {
    numBands := 0
    low := ⟨noRing, noRing⟩
    high := []
    farTimeBuf := noRing
    mult := 0
    systemDelay := 0
    knownDelay := 0
    delayAgnosticEnabled := false
    extendedFilterEnabled := false
    numPartitions := 0
    frameCount := 0
    signalDelayCorrection := 0
    previousDelay := 0
    delayCorrectionCount := 0
    shiftOffset := 0
    delayQualityThreshold := 0
    lookahead := 0
    signal := canceller.init 0
    assertions := ⟨false, false, false⟩
  }

/-- Ten milliseconds of far end at 8 kHz. -/
def playTenMs : Call canceller :=
  .bufferFarend (some (List.replicate 80 canceller.zero))

/-- Ten milliseconds of near end at 8 kHz, with a reported delay of 50 ms. -/
def captureTenMs : Call canceller :=
  .process [List.replicate 80 canceller.zero] true 80 50 0

/-- An initialisation, four far-end frames and a near-end frame. -/
def firstCalls : List (Call canceller) :=
  .init 8000 48000 :: List.replicate 4 playTenMs ++ [captureTenMs]

/-- The state after calls on a new instance. -/
def stateAfter (calls : List (Call canceller)) : Option (Aec canceller) :=
  (zeroMemory canceller).create.bind (calls.foldlM perform)

/-- Calls on a new instance are a run. -/
theorem path_of_stateAfter
    {calls : List (Call canceller)}
    {final : Aec canceller}
    (reached : stateAfter calls = some final) :
    ∃ created moves,
      (zeroMemory canceller).create = some created ∧
        Path (stepOf perform) created moves final ∧
        moves.map Move.label = calls := by
  obtain ⟨created, creates, followed⟩ := Option.bind_eq_some_iff.mp reached
  obtain ⟨moves, path, labels⟩ := Path.exists_of_foldlM followed
  exact ⟨created, moves, creates, path, labels⟩

/-- The first frame is processed with a correction by one block. -/
theorem stateAfter_firstCalls :
    (stateAfter (@firstCalls plain)).any (fun final =>
      final.initFlag = initCheck &&
        final.aec.assertions.farBlockFound &&
        final.aec.signalDelayCorrection == 1) = true := by
  decide +kernel

/--
In every state that an initialised instance reaches, the books balance as long as every
block has found a far-end block since the initialisation.
-/
theorem balanced_of_farBlockFound
    {memory created final : Aec canceller}
    {moves : List (Move (Aec canceller) (Call canceller))}
    (creates : memory.create = some created)
    (path : Path (stepOf perform) created moves final)
    (initialised : final.initFlag = initCheck)
    (found : final.aec.assertions.farBlockFound = true) :
    final.Balanced :=
  balanced_iff.mpr
    ((accounted_run creates path).surplus initialised found)

/-- The books balance after the first frame. -/
theorem balanced_after_firstCalls :
    ∃ final,
      stateAfter (@firstCalls plain) = some final ∧
        final.aec.signalDelayCorrection = 1 ∧ final.Balanced := by
  obtain ⟨final, reached, evaluated⟩ :=
    (Option.any_eq_true _ _).mp stateAfter_firstCalls
  simp only [Bool.and_eq_true, decide_eq_true_eq, beq_iff_eq] at evaluated
  obtain ⟨⟨initialised, found⟩, corrected⟩ := evaluated
  obtain ⟨created, moves, creates, path, -⟩ := path_of_stateAfter reached
  exact
    ⟨final, reached, corrected,
      balanced_of_farBlockFound creates path initialised found⟩

/--
In every state that an initialised instance reaches, each correction by the signal has
moved fewer blocks than the delay estimator remembers, and its lookahead is an index into
what it remembers.
-/
theorem corrections_in_history
    {memory created final : Aec canceller}
    {moves : List (Move (Aec canceller) (Call canceller))}
    (creates : memory.create = some created)
    (path : Path (stepOf perform) created moves final)
    (initialised : final.initFlag = initCheck) :
    final.aec.assertions.shiftInHistory = true ∧
      0 ≤ final.aec.lookahead ∧
        final.aec.lookahead ≤ kHistorySizeBlocks := by
  have accounted := accounted_run creates path
  have less := accounted.lookahead_lt
  exact
    ⟨accounted.shiftInHistory initialised, accounted.lookahead, by omega⟩

/-- The correction of the first frame is one of a block. -/
theorem corrections_after_firstCalls :
    ∃ final,
      stateAfter (@firstCalls plain) = some final ∧
        final.aec.signalDelayCorrection = 1 ∧
          final.aec.assertions.shiftInHistory = true ∧
            0 ≤ final.aec.lookahead ∧
              final.aec.lookahead ≤ kHistorySizeBlocks := by
  obtain ⟨final, reached, evaluated⟩ :=
    (Option.any_eq_true _ _).mp stateAfter_firstCalls
  simp only [Bool.and_eq_true, decide_eq_true_eq, beq_iff_eq] at evaluated
  obtain ⟨⟨initialised, -⟩, corrected⟩ := evaluated
  obtain ⟨created, moves, creates, path, -⟩ := path_of_stateAfter reached
  exact
    ⟨final, reached, corrected,
      corrections_in_history creates path initialised⟩

end Aec

end ApmSdk.Echo
