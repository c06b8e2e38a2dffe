import ApmSdk.AecAccount

namespace ApmSdk.Echo

/-!
# What a frame does to the account of the core

Every ring of the core keeps its size, so that its operations are defined, and each
step of a frame does to the levels and the delays what the account does.
-/

namespace Band

variable {Sample : Type}
variable {band : Band Sample}

/-- Both buffers of a band have their size. -/
structure Sized (band : Band Sample) : Prop where
  nearFrBuf : RingBuffer.Sized (frameLen + partLen) band.nearFrBuf
  outFrBuf : RingBuffer.Sized (frameLen + partLen) band.outFrBuf

theorem sized_create
    {zero : Sample}
    (created : create zero = some band) :
    band.Sized := by
  unfold create at created
  obtain ⟨nearFrBuf, nearCreated, created⟩ :=
    Option.bind_eq_some_iff.mp created
  obtain ⟨outFrBuf, outCreated, created⟩ :=
    Option.bind_eq_some_iff.mp created
  obtain rfl := Option.some.inj created
  exact
    ⟨(RingBuffer.sized_createBuffer nearCreated).1,
      (RingBuffer.sized_createBuffer outCreated).1⟩

theorem Sized.init
    (sized : band.Sized)
    (zero : Sample) :
    (band.init zero).Sized ∧
      (band.init zero).nearFrBuf.availableRead = 0 := by
  obtain ⟨nearFrBuf, empty⟩ :=
    RingBuffer.sized_initBuffer zero (by decide) sized.nearFrBuf
  obtain ⟨outFrBuf, -⟩ :=
    RingBuffer.sized_initBuffer zero (by decide) sized.outFrBuf
  exact ⟨⟨nearFrBuf, outFrBuf⟩, empty⟩

theorem Sized.writeNear
    (sized : band.Sized)
    (frame : Frame Sample) :
    (band.writeNear frame).Sized :=
  ⟨(sized.nearFrBuf.writeBuffer frame.1).1, sized.outFrBuf⟩

/-- Between two frames there is room for a frame. -/
theorem Sized.writeNear_level
    (sized : band.Sized)
    (less : band.nearFrBuf.availableRead < partLen)
    (frame : Frame Sample) :
    (band.writeNear frame).nearFrBuf.availableRead =
      band.nearFrBuf.availableRead + frameLen := by
  have frameLength := frame.2
  have fits :
      band.nearFrBuf.availableRead + frame.1.length ≤
        frameLen + partLen := by
    rw [frameLength]
    omega
  rw [← frameLength]
  exact (sized.nearFrBuf.writeBuffer_of_fits fits).2

theorem Sized.readNear
    (sized : band.Sized) :
    ∃ next block,
      band.readNear = some (next, block) ∧
        next.Sized ∧
        next.nearFrBuf.availableRead =
          band.nearFrBuf.availableRead - partLen := by
  obtain ⟨nearFrBuf, read, reads, next, level, -⟩ :=
    sized.nearFrBuf.readBuffer (by decide) true partLen
  unfold Band.readNear
  rw [reads]
  exact ⟨_, _, rfl, ⟨next, sized.outFrBuf⟩, level⟩

theorem Sized.writeOut
    (sized : band.Sized)
    (block : Block Sample) :
    (band.writeOut block).Sized :=
  ⟨sized.nearFrBuf, (sized.outFrBuf.writeBuffer block.1).1⟩

theorem Sized.stuffOut
    (sized : band.Sized)
    (outElements : Int) :
    ∃ next,
      band.stuffOut outElements = some next ∧
        next.Sized ∧
        next.nearFrBuf = band.nearFrBuf := by
  unfold Band.stuffOut
  split
  · obtain ⟨outFrBuf, moves, next, -⟩ :=
      sized.outFrBuf.moveReadPtr (by decide) (outElements - frameLen)
    rw [moves]
    exact ⟨_, rfl, ⟨sized.nearFrBuf, next⟩, rfl⟩
  · exact ⟨band, rfl, sized, rfl⟩

theorem Sized.readOut
    (sized : band.Sized)
    (outElements : Int) :
    ∃ next out,
      band.readOut outElements = some (next, out) ∧
        next.Sized ∧
        next.nearFrBuf = band.nearFrBuf := by
  obtain ⟨stuffed, moves, moved, sameNear⟩ := sized.stuffOut outElements
  obtain ⟨outFrBuf, read, reads, next, -⟩ :=
    moved.outFrBuf.readBuffer (by decide) false frameLen
  unfold Band.readOut
  rw [moves, Option.bind_eq_bind, Option.bind_some, reads]
  exact ⟨_, _, rfl, ⟨moved.nearFrBuf, next⟩, sameNear⟩

/-- A loop over high bands that are there keeps what each of its turns keeps. -/
theorem forHigh_spec
    {Out : Type}
    {visit : Band Sample → Option (Band Sample × Out)}
    {holds : Band Sample → Prop}
    (visits :
      ∀ band,
        holds band →
          ∃ next out, visit band = some (next, out) ∧ holds next)
    (count : Nat)
    (bands : List (Band Sample))
    (enough : count ≤ bands.length)
    (start : ∀ band ∈ bands, holds band) :
    ∃ next outs,
      forHigh visit count bands = some (next, outs) ∧
        next.length = bands.length ∧
        ∀ band ∈ next, holds band := by
  induction count generalizing bands with
  | zero => exact ⟨bands, [], rfl, rfl, start⟩
  | succ count inductionHypothesis =>
      cases bands with
      | nil => exact absurd enough (by simp)
      | cons band rest =>
          rw [List.forall_mem_cons] at start
          obtain ⟨next, out, visited, held⟩ := visits band start.1
          obtain ⟨later, outs, looped, sameLength, heldLater⟩ :=
            inductionHypothesis rest (Nat.le_of_succ_le_succ enough)
              start.2
          unfold forHigh
          rw [visited, Option.bind_eq_bind, Option.bind_some, looped]
          exact
            ⟨next :: later, out :: outs, rfl, by simp [sameLength],
              List.forall_mem_cons.mpr ⟨held, heldLater⟩⟩

end Band

namespace AecCore

variable {canceller : EchoCanceller}
variable {aec before after final : AecCore canceller}

/-- The account of a core. -/
def account (aec : AecCore canceller) : Account where
  far := aec.farTimeBuf.availableRead
  near := aec.low.nearFrBuf.availableRead
  systemDelay := aec.systemDelay
  knownDelay := aec.knownDelay
  correction := aec.signalDelayCorrection

/-- The buffers of the core have their size. -/
structure Sized (aec : AecCore canceller) : Prop where
  low : aec.low.Sized
  high : ∀ band ∈ aec.high, band.Sized
  highCount : aec.high.length = numHighBandsMax
  farTimeBuf : RingBuffer.Sized kBufSizePartitions aec.farTimeBuf

/-- What no step of a frame changes. -/
structure SameSetup (before after : AecCore canceller) : Prop where
  numBands : after.numBands = before.numBands
  mult : after.mult = before.mult
  delayAgnosticEnabled :
    after.delayAgnosticEnabled = before.delayAgnosticEnabled
  extendedFilterEnabled :
    after.extendedFilterEnabled = before.extendedFilterEnabled
  numPartitions : after.numPartitions = before.numPartitions
  frameCount : after.frameCount = before.frameCount
  systemDelayNonneg :
    after.assertions.systemDelayNonneg = before.assertions.systemDelayNonneg

theorem SameSetup.refl (aec : AecCore canceller) : SameSetup aec aec :=
  ⟨rfl, rfl, rfl, rfl, rfl, rfl, rfl⟩

theorem SameSetup.trans
    (first : SameSetup before after)
    (later : SameSetup after final) :
    SameSetup before final where
  numBands := later.numBands.trans first.numBands
  mult := later.mult.trans first.mult
  delayAgnosticEnabled :=
    later.delayAgnosticEnabled.trans first.delayAgnosticEnabled
  extendedFilterEnabled :=
    later.extendedFilterEnabled.trans first.extendedFilterEnabled
  numPartitions := later.numPartitions.trans first.numPartitions
  frameCount := later.frameCount.trans first.frameCount
  systemDelayNonneg :=
    later.systemDelayNonneg.trans first.systemDelayNonneg

/-- What a step on the far end leaves alone. -/
structure FarStep (before after : AecCore canceller) : Prop extends
    SameSetup before after where
  low : after.low = before.low
  high : after.high = before.high
  farBlockFound :
    after.assertions.farBlockFound = before.assertions.farBlockFound

theorem FarStep.refl (aec : AecCore canceller) : FarStep aec aec :=
  ⟨.refl aec, rfl, rfl, rfl⟩

theorem FarStep.trans
    (first : FarStep before after)
    (later : FarStep after final) :
    FarStep before final :=
  ⟨first.toSameSetup.trans later.toSameSetup, later.low.trans first.low,
    later.high.trans first.high,
    later.farBlockFound.trans first.farBlockFound⟩

/-- What a step on the far end without a correction leaves alone. -/
structure FarMove (before after : AecCore canceller) : Prop extends
    FarStep before after where
  lookahead : after.lookahead = before.lookahead
  shiftOffset : after.shiftOffset = before.shiftOffset
  shiftInHistory :
    after.assertions.shiftInHistory = before.assertions.shiftInHistory

theorem FarMove.refl (aec : AecCore canceller) : FarMove aec aec :=
  ⟨.refl aec, rfl, rfl, rfl⟩

/-! ## Created and initialised -/

theorem sized_createAec
    {memory : AecCore canceller}
    (created : memory.createAec = some aec) :
    aec.Sized := by
  unfold createAec at created
  obtain ⟨low, lowCreated, created⟩ := Option.bind_eq_some_iff.mp created
  obtain ⟨first, firstCreated, created⟩ :=
    Option.bind_eq_some_iff.mp created
  obtain ⟨second, secondCreated, created⟩ :=
    Option.bind_eq_some_iff.mp created
  obtain ⟨farTimeBuf, farCreated, created⟩ :=
    Option.bind_eq_some_iff.mp created
  obtain rfl := Option.some.inj created
  refine
    ⟨Band.sized_create lowCreated, ?_, rfl,
      (RingBuffer.sized_createBuffer farCreated).1⟩
  simp only [List.forall_mem_cons]
  exact
    ⟨Band.sized_create firstCreated, Band.sized_create secondCreated,
      by simp⟩

/-- An initialised core has an account of zeros. -/
theorem Sized.initAec
    (sized : aec.Sized)
    (sampFreq : Int) :
    (aec.initAec sampFreq).Sized ∧
      (aec.initAec sampFreq).account = ⟨0, 0, 0, 0, 0⟩ := by
  obtain ⟨low, nearEmpty⟩ := sized.low.init canceller.zero
  obtain ⟨farTimeBuf, farEmpty⟩ :=
    RingBuffer.sized_initBuffer
      (List.replicate partLen2 canceller.zero) (by decide) sized.farTimeBuf
  refine ⟨⟨low, ?_, ?_, farTimeBuf⟩, ?_⟩
  · intro band member
    obtain ⟨created, createdMember, rfl⟩ := List.mem_map.mp member
    exact ((sized.high created createdMember).init canceller.zero).1
  · rw [← sized.highCount]
    exact List.length_map _
  · unfold account AecCore.initAec
    dsimp only
    rw [nearEmpty, farEmpty]
    rfl

/-! ## The far end -/

theorem clipMove_eq_clip
    (sized : aec.Sized)
    (elements : Int) :
    RingBuffer.clipMove kBufSizePartitions aec.farTimeBuf.availableRead
        elements =
      aec.account.clip elements := by
  have atMost := sized.farTimeBuf.availableRead_le
  unfold RingBuffer.clipMove Account.clip account
  dsimp only
  omega

/-- A core with another far-end buffer of the same size. -/
theorem Sized.withFarTimeBuf
    (sized : aec.Sized)
    {farTimeBuf : RingBuffer (List canceller.Sample)}
    (next : RingBuffer.Sized kBufSizePartitions farTimeBuf)
    (step : FarStep aec after)
    (placed : after.farTimeBuf = farTimeBuf) :
    after.Sized where
  low := step.low ▸ sized.low
  high := step.high ▸ sized.high
  highCount := step.high ▸ sized.highCount
  farTimeBuf := placed ▸ next

theorem Sized.moveFarReadPtr
    (sized : aec.Sized)
    (elements : Int) :
    ∃ next,
      aec.moveFarReadPtr elements =
          some (next, aec.account.clip elements) ∧
        next.Sized ∧
        next.account = aec.account.moveFar elements ∧
        FarMove aec next := by
  obtain ⟨farTimeBuf, moves, next, level⟩ :=
    sized.farTimeBuf.moveReadPtr (by decide) elements
  rw [clipMove_eq_clip sized] at moves level
  have step :
      FarMove aec
        { aec with
          farTimeBuf := farTimeBuf
          systemDelay :=
            aec.systemDelay - aec.account.clip elements * partLen } :=
    ⟨⟨⟨rfl, rfl, rfl, rfl, rfl, rfl, rfl⟩, rfl, rfl, rfl⟩, rfl, rfl, rfl⟩
  unfold AecCore.moveFarReadPtr
  rw [moves]
  refine ⟨_, rfl, sized.withFarTimeBuf next step.toFarStep rfl, ?_, step⟩
  unfold Account.moveFar
  rw [account, level]
  rfl

theorem Sized.stuffFarEnd
    (sized : aec.Sized) :
    ∃ next,
      aec.stuffFarEnd = some next ∧
        next.Sized ∧
        next.account = aec.account.stuff aec.mult ∧
        FarMove aec next := by
  unfold AecCore.stuffFarEnd Account.stuff
  by_cases short : aec.systemDelay < frameLen
  · obtain ⟨next, moves, nextSized, moved, step⟩ :=
      sized.moveFarReadPtr (-(aec.mult + 1))
    rw [if_pos short, if_pos (show aec.account.systemDelay < _ from short),
      moves]
    exact ⟨next, rfl, nextSized, moved, step⟩
  · rw [if_neg short,
      if_neg (show ¬ aec.account.systemDelay < _ from short)]
    exact ⟨aec, rfl, sized, rfl, .refl aec⟩

theorem Sized.followKnownDelay
    (sized : aec.Sized)
    (knownDelay : Int) :
    ∃ next,
      aec.followKnownDelay knownDelay = some next ∧
        next.Sized ∧
        next.account = aec.account.follow knownDelay ∧
        FarMove aec next := by
  obtain ⟨farTimeBuf, moves, nextSized, level⟩ :=
    sized.farTimeBuf.moveReadPtr (by decide)
      ((aec.knownDelay - knownDelay - 32).tdiv partLen)
  rw [clipMove_eq_clip sized] at moves level
  unfold AecCore.followKnownDelay
  dsimp only
  rw [moves]
  have step :
      FarMove aec
        { aec with
          farTimeBuf := farTimeBuf
          knownDelay :=
            aec.knownDelay -
              aec.account.clip
                  ((aec.knownDelay - knownDelay - 32).tdiv partLen) *
                partLen } :=
    ⟨⟨⟨rfl, rfl, rfl, rfl, rfl, rfl, rfl⟩, rfl, rfl, rfl⟩, rfl, rfl, rfl⟩
  refine ⟨_, rfl, sized.withFarTimeBuf nextSized step.toFarStep rfl, ?_, step⟩
  unfold Account.follow
  rw [account, level]
  rfl

/-! ## The correction -/

/-- What the choice of a correction leaves alone, and between which numbers the
correction lies. -/
structure Proposed
    (before after : AecCore canceller)
    (elements : Int) : Prop extends FarStep before after where
  farTimeBuf : after.farTimeBuf = before.farTimeBuf
  account : after.account = before.account
  lookahead : after.lookahead = before.lookahead
  shiftInHistory :
    after.assertions.shiftInHistory = before.assertions.shiftInHistory
  shiftOffset : 1 ≤ before.shiftOffset → 1 ≤ after.shiftOffset
  lower :
    before.lookahead < kHistorySizeBlocks - 1 →
      before.lookahead - (kHistorySizeBlocks - 2) ≤ elements
  upper : 0 ≤ before.lookahead → elements ≤ before.lookahead + 1
  left :
    elements = 0 ∨
      elements ≤ asInt before.farTimeBuf.availableRead - before.mult - 1

theorem Proposed.none (aec : AecCore canceller) : Proposed aec aec 0 where
  toFarStep := .refl aec
  farTimeBuf := rfl
  account := rfl
  lookahead := rfl
  shiftInHistory := rfl
  shiftOffset := id
  lower := by omega
  upper := by omega
  left := .inl rfl

/-- No more is proposed than the offset brings the delay to. -/
theorem proposeCorrection_spec
    {lastDelay : Int}
    (index : 0 ≤ lastDelay)
    (inHistory : lastDelay < kHistorySizeBlocks)
    (positive : 1 ≤ aec.shiftOffset) :
    Proposed aec (aec.proposeCorrection lastDelay).1
      (aec.proposeCorrection lastDelay).2 := by
  have positiveNext :
      1 ≤ if aec.shiftOffset - 1 ≤ 1 then 1 else aec.shiftOffset - 1 := by
    split <;> omega
  -- The offset that is kept stays below the delay, unless it is one.
  have kept :
      ∀ delay : Int,
        1 ≤ (if aec.shiftOffset < delay then aec.shiftOffset else 1) ∧
          ((if aec.shiftOffset < delay then aec.shiftOffset else 1) < delay ∨
            (if aec.shiftOffset < delay then aec.shiftOffset else 1) =
              1) := by
    intro delay
    split <;> omega
  unfold proposeCorrection
  dsimp only
  specialize kept (lastDelay - aec.lookahead)
  generalize
    (if aec.shiftOffset < lastDelay - aec.lookahead then aec.shiftOffset
      else 1) = offset at kept ⊢
  generalize
    (if aec.shiftOffset - 1 ≤ 1 then 1 else aec.shiftOffset - 1) =
      shiftOffset at positiveNext ⊢
  split
  · split
    · exact
        { Proposed.none aec with
          shiftOffset := fun _ => positiveNext }
    next enough =>
      exact
        { Proposed.none aec with
          shiftOffset := fun _ => positiveNext
          lower := by omega
          upper := by omega
          left := .inr (Int.not_lt.mp enough) }
  · exact .none aec

theorem raiseThreshold_spec
    (aec : AecCore canceller)
    (quality : Rat) :
    ∃ threshold,
      aec.raiseThreshold quality =
        { aec with delayQualityThreshold := threshold } := by
  unfold raiseThreshold
  split
  · exact ⟨_, rfl⟩
  · exact ⟨aec.delayQualityThreshold, rfl⟩

theorem signalBasedDelayCorrection_spec
    (aec : AecCore canceller)
    (positive : 1 ≤ aec.shiftOffset) :
    Proposed aec aec.signalBasedDelayCorrection.1
      aec.signalBasedDelayCorrection.2 := by
  unfold signalBasedDelayCorrection
  split
  · exact .none aec
  · have chosen :
        ∀ next elements,
          Proposed aec next elements →
            Proposed aec
              (next.raiseThreshold (canceller.lastDelayQuality aec.signal))
              elements := by
      intro next elements proposed
      obtain ⟨threshold, raised⟩ :=
        next.raiseThreshold_spec (canceller.lastDelayQuality aec.signal)
      rw [raised]
      exact { proposed with }
    dsimp only
    split
    next usable =>
      exact
        chosen _ _
          (proposeCorrection_spec usable.1
            (canceller.lastDelay_lt aec.signal) positive)
    · exact chosen _ _ (.none aec)

/-- What step 2 b leaves of the delay estimator, for the account that it finds. -/
structure Realigned
    (before : AecCore canceller)
    (account : Account)
    (after : AecCore canceller)
    (elements : Int) : Prop where
  shiftOffset : 1 ≤ after.shiftOffset
  lower :
    before.lookahead < kHistorySizeBlocks - 1 →
      before.lookahead - (kHistorySizeBlocks - 2) ≤ elements
  upper : 0 ≤ before.lookahead → elements ≤ before.lookahead + 1
  left : elements = 0 ∨ elements ≤ account.far - before.mult - 1
  lookahead :
    after.lookahead =
      max 0
        (min (before.lookahead - account.clip elements) kHistorySizeBlocks)
  shiftInHistory :
    after.assertions.shiftInHistory =
      (before.assertions.shiftInHistory &&
        decide (0 < kHistorySizeBlocks - (account.clip elements).natAbs))

/-- The rewind when the far end is behind the near end. -/
theorem Sized.moveBehind
    (sized : aec.Sized)
    (elements : Int) :
    ∃ next,
      (if elements < 0 then
        (aec.moveFarReadPtr elements).map Prod.fst
      else
        some aec) = some next ∧
        next.Sized ∧
        next.account =
          (if elements < 0 then
            aec.account.moveFar elements
          else
            aec.account) ∧
        FarMove aec next := by
  split
  · obtain ⟨next, moves, nextSized, moved, step⟩ :=
      sized.moveFarReadPtr elements
    rw [moves]
    exact ⟨next, rfl, nextSized, moved, step⟩
  · exact ⟨aec, rfl, sized, rfl, .refl aec⟩

/-- The correction that has been chosen is applied to the account. -/
theorem Sized.correctSignalDelay
    (sized : aec.Sized)
    (positive : 1 ≤ aec.shiftOffset) :
    ∃ next elements,
      aec.correctSignalDelay = some next ∧
        next.Sized ∧
        next.account = aec.account.correct elements ∧
        FarStep aec next ∧
        Realigned aec aec.account next elements := by
  have proposed := aec.signalBasedDelayCorrection_spec positive
  unfold AecCore.correctSignalDelay moveByCorrection
  generalize aec.signalBasedDelayCorrection = chosen at proposed ⊢
  obtain ⟨first, elements⟩ := chosen
  dsimp only at proposed ⊢
  have firstSized : first.Sized :=
    sized.withFarTimeBuf sized.farTimeBuf proposed.toFarStep
      proposed.farTimeBuf
  obtain ⟨farTimeBuf, moves, movedSized, level⟩ :=
    firstSized.farTimeBuf.moveReadPtr (by decide) elements
  rw [clipMove_eq_clip firstSized, proposed.account] at moves level
  rw [moves, Option.map_some, Option.bind_eq_bind, Option.bind_some]
  dsimp only
  generalize clipped : aec.account.clip elements = movedElements at level ⊢
  -- The core after the move by the correction, and what it is accepted as.
  generalize moved : { first with farTimeBuf := farTimeBuf } = second
  generalize accepted : second.acceptCorrection movedElements = third
  have step : FarStep first third := by
    subst accepted moved
    exact ⟨⟨rfl, rfl, rfl, rfl, rfl, rfl, rfl⟩, rfl, rfl, rfl⟩
  have thirdSized : third.Sized :=
    firstSized.withFarTimeBuf movedSized step
      (by subst accepted moved; rfl)
  have thirdAccount :
      third.account =
        { aec.account with
          far := aec.account.far - movedElements
          correction := aec.account.correction + movedElements } := by
    rw [← proposed.account]
    subst accepted moved
    unfold account acceptCorrection
    dsimp only [softResetDelayEstimator]
    rw [level]
  have lookahead :
      third.lookahead =
        max 0 (min (aec.lookahead - movedElements) kHistorySizeBlocks) := by
    rw [← proposed.lookahead]
    subst accepted moved
    unfold acceptCorrection softResetDelayEstimator
    have history : kHistorySizeBlocks = 125 := rfl
    dsimp only
    split <;> split <;> omega
  have shiftInHistory :
      third.assertions.shiftInHistory =
        (aec.assertions.shiftInHistory &&
          decide (0 < kHistorySizeBlocks - movedElements.natAbs)) := by
    rw [← proposed.shiftInHistory]
    subst accepted moved
    rfl
  have shiftOffset : 1 ≤ third.shiftOffset := by
    have proposedPositive := proposed.shiftOffset positive
    subst accepted moved
    exact proposedPositive
  have far : asInt aec.farTimeBuf.availableRead = aec.account.far := by
    have atMost : aec.farTimeBuf.availableRead ≤ 250 :=
      sized.farTimeBuf.availableRead_le
    exact asInt_of_lt (by omega)
  have difference :
      second.farNearBufferDiff =
        third.account.far - third.account.near / (partLen : Int) := by
    subst accepted moved
    unfold farNearBufferDiff account
    rfl
  rw [difference]
  obtain ⟨next, moves, nextSized, nextAccount, move⟩ :=
    thirdSized.moveBehind
      (third.account.far - third.account.near / (partLen : Int))
  refine
    ⟨next, elements, moves, nextSized, ?_,
      (proposed.toFarStep.trans step).trans move.toFarStep, ?_⟩
  · rw [nextAccount, thirdAccount]
    unfold Account.correct
    rw [clipped]
  · exact
      { shiftOffset := move.shiftOffset ▸ shiftOffset
        lower := proposed.lower
        upper := proposed.upper
        left := far ▸ proposed.left
        lookahead := by rw [clipped, move.lookahead, lookahead]
        shiftInHistory := by
          rw [clipped, move.shiftInHistory, shiftInHistory] }

/-! ## Partitions and blocks -/

theorem Sized.bufferFarendPartition
    (sized : aec.Sized)
    (farend : List canceller.Sample) :
    ∃ next,
      aec.bufferFarendPartition farend = some next ∧
        next.Sized ∧
        next.account = aec.account.bufferPartition ∧
        FarMove aec next := by
  have flushed :
      ∃ next,
        aec.flushWhenFull = some next ∧
          next.Sized ∧
          next.account =
            (if aec.account.far < kBufSizePartitions then aec.account
              else aec.account.moveFar 1) ∧
          next.farTimeBuf.availableRead < kBufSizePartitions ∧
          FarMove aec next := by
    have atMost : aec.farTimeBuf.availableRead ≤ 250 :=
      sized.farTimeBuf.availableRead_le
    have far : aec.account.far = aec.farTimeBuf.availableRead := rfl
    have size : kBufSizePartitions = 250 := rfl
    unfold flushWhenFull
    rw [sized.farTimeBuf.availableWrite_eq]
    by_cases room : aec.farTimeBuf.availableRead < 250
    · rw [if_neg (by omega), if_pos (by omega)]
      exact ⟨aec, rfl, sized, rfl, room, .refl aec⟩
    · rw [if_pos (by omega), if_neg (by omega)]
      obtain ⟨next, moves, nextSized, moved, step⟩ :=
        sized.moveFarReadPtr 1
      have less : (next.account).far < 250 := by
        rw [moved]
        unfold Account.moveFar Account.clip
        dsimp only
        omega
      rw [moves]
      exact
        ⟨next, rfl, nextSized, moved, Int.ofNat_lt.mp less, step⟩
  obtain ⟨next, flushes, nextSized, nextAccount, room, step⟩ := flushed
  obtain ⟨written, level⟩ :=
    nextSized.farTimeBuf.writeBuffer_of_fits
      (show _ + [farend].length ≤ _ from room)
  unfold AecCore.bufferFarendPartition
  rw [flushes]
  have writes :
      FarMove aec
        { next with
          farTimeBuf := (next.farTimeBuf.writeBuffer [farend]).1 } :=
    { step with }
  refine ⟨_, rfl, sized.withFarTimeBuf written writes.toFarStep rfl, ?_, writes⟩
  unfold Account.bufferPartition
  rw [← nextAccount]
  unfold account
  dsimp only
  rw [level]
  rfl

/-- What the processing of blocks leaves alone. -/
structure BlockStep (before after : AecCore canceller) : Prop extends
    SameSetup before after where
  systemDelay : after.systemDelay = before.systemDelay
  knownDelay : after.knownDelay = before.knownDelay
  signalDelayCorrection :
    after.signalDelayCorrection = before.signalDelayCorrection
  lookahead : after.lookahead = before.lookahead
  shiftOffset : after.shiftOffset = before.shiftOffset
  shiftInHistory :
    after.assertions.shiftInHistory = before.assertions.shiftInHistory

theorem BlockStep.refl (aec : AecCore canceller) : BlockStep aec aec :=
  ⟨.refl aec, rfl, rfl, rfl, rfl, rfl, rfl⟩

theorem BlockStep.trans
    (first : BlockStep before after)
    (later : BlockStep after final) :
    BlockStep before final where
  toSameSetup := first.toSameSetup.trans later.toSameSetup
  systemDelay := later.systemDelay.trans first.systemDelay
  knownDelay := later.knownDelay.trans first.knownDelay
  signalDelayCorrection :=
    later.signalDelayCorrection.trans first.signalDelayCorrection
  lookahead := later.lookahead.trans first.lookahead
  shiftOffset := later.shiftOffset.trans first.shiftOffset
  shiftInHistory := later.shiftInHistory.trans first.shiftInHistory

/-- Blocks of near end and as many of far end, as far as there are any. -/
structure Processed
    (before after : AecCore canceller)
    (blocks : Nat) : Prop extends BlockStep before after where
  near :
    after.low.nearFrBuf.availableRead =
      before.low.nearFrBuf.availableRead - blocks * partLen
  far :
    after.farTimeBuf.availableRead =
      before.farTimeBuf.availableRead - blocks
  farBlockFound :
    after.assertions.farBlockFound =
      (before.assertions.farBlockFound &&
        decide (blocks ≤ before.farTimeBuf.availableRead))

theorem Sized.takeBlock
    (sized : aec.Sized)
    (bands : aec.numBands - 1 ≤ numHighBandsMax) :
    ∃ next nearend farend,
      aec.takeBlock = some (next, nearend, farend) ∧
        next.Sized ∧
        Processed aec next 1 := by
  obtain ⟨high, nearendH, readsHigh, sameCount, highSized⟩ :=
    Band.forHigh_spec
      (fun band sized =>
        have ⟨next, block, reads, nextSized, _⟩ := Band.Sized.readNear sized
        ⟨next, block, reads, nextSized⟩)
      (aec.numBands - 1) aec.high (by rw [sized.highCount]; exact bands)
      sized.high
  obtain ⟨low, nearend, reads, lowSized, near⟩ := sized.low.readNear
  obtain ⟨farTimeBuf, farend, readsFar, farSized, far, -⟩ :=
    sized.farTimeBuf.readBuffer (by decide) true 1
  unfold AecCore.takeBlock
  simp only [readsHigh, reads, readsFar, Option.bind_eq_bind,
    Option.bind_some]
  exact
    ⟨_, _, _, rfl,
      ⟨lowSized, highSized, sameCount.trans sized.highCount, farSized⟩,
      { BlockStep.refl aec with
        near := by rw [Nat.one_mul]; exact near
        far := far
        farBlockFound := rfl }⟩

theorem Sized.putBlock
    (sized : aec.Sized)
    (signal : canceller.State)
    (output : Nat → Block canceller.Sample) :
    (aec.putBlock signal output).Sized := by
  refine ⟨sized.low.writeOut _, ?_, ?_, sized.farTimeBuf⟩
  · intro band member
    obtain ⟨index, inRange, written⟩ := List.mem_mapIdx.mp member
    have source := sized.high _ (List.getElem_mem inRange)
    split at written
    · exact written ▸ source.writeOut _
    · exact written ▸ source
  · show (aec.high.mapIdx _).length = _
    rw [List.length_mapIdx, sized.highCount]

theorem Sized.processBlock
    (sized : aec.Sized)
    (bands : aec.numBands - 1 ≤ numHighBandsMax) :
    ∃ next,
      aec.processBlock = some next ∧ next.Sized ∧ Processed aec next 1 := by
  obtain ⟨taken, nearend, farend, takes, takenSized, processed⟩ :=
    sized.takeBlock bands
  unfold AecCore.processBlock
  rw [takes]
  exact ⟨_, rfl, takenSized.putBlock _ _, { processed with }⟩

/-- So do all the blocks of a frame. -/
theorem Sized.processBlocks
    (sized : aec.Sized)
    (bands : aec.numBands - 1 ≤ numHighBandsMax)
    (blocks : Nat) :
    ∃ next,
      processBlocks blocks aec = some next ∧
        next.Sized ∧
        Processed aec next blocks := by
  induction blocks generalizing aec with
  | zero =>
      refine ⟨aec, rfl, sized, ?_⟩
      exact
        { BlockStep.refl aec with
          near := by omega
          far := rfl
          farBlockFound := by simp }
  | succ blocks inductionHypothesis =>
      obtain ⟨first, processes, firstSized, processed⟩ :=
        sized.processBlock bands
      obtain ⟨next, looped, nextSized, later⟩ :=
        inductionHypothesis firstSized (processed.numBands ▸ bands)
      unfold AecCore.processBlocks
      rw [processes, Option.bind_eq_bind, Option.bind_some, looped]
      refine ⟨next, rfl, nextSized, ?_⟩
      exact
        { processed.toBlockStep.trans later.toBlockStep with
          near := by
            rw [later.near, processed.near, Nat.sub_sub, ← Nat.add_mul,
              Nat.add_comm]
          far := by
            rw [later.far, processed.far]
            omega
          farBlockFound := by
            rw [later.farBlockFound, processed.farBlockFound, processed.far,
              Bool.and_assoc, ← Bool.decide_and]
            congr 2
            exact propext (by omega) }

theorem Sized.readOutput
    (sized : aec.Sized)
    (bands : aec.numBands - 1 ≤ numHighBandsMax) :
    ∃ low high out,
      aec.readOutput = some ({ aec with low := low, high := high }, out) ∧
        low.Sized ∧
        low.nearFrBuf = aec.low.nearFrBuf ∧
        (∀ band ∈ high, band.Sized) ∧
        high.length = numHighBandsMax := by
  obtain ⟨low, out, reads, lowSized, sameNear⟩ :=
    sized.low.readOut (asInt aec.low.outFrBuf.availableRead)
  obtain ⟨high, outH, readsHigh, sameCount, highSized⟩ :=
    Band.forHigh_spec
      (fun band sized =>
        have ⟨next, out, reads, nextSized, _⟩ :=
          Band.Sized.readOut sized (asInt aec.low.outFrBuf.availableRead)
        ⟨next, out, reads, nextSized⟩)
      (aec.numBands - 1) aec.high (by rw [sized.highCount]; exact bands)
      sized.high
  unfold AecCore.readOutput
  dsimp only
  rw [reads, Option.bind_eq_bind, Option.bind_some, readsHigh]
  exact
    ⟨low, high, out :: outH, rfl, lowSized, sameNear, highSized,
      sameCount.trans sized.highCount⟩

end AecCore

end ApmSdk.Echo
