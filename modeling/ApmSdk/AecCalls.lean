import ApmSdk.AecFrames
import ApmSdk.AecInstance

namespace ApmSdk.Echo

/-!
# What the calls of an instance do to the far end

Between two calls the pre-buffer of an initialised instance holds less than two
partitions, so that it has room for any frame, resampled or not.
-/

namespace AecCore

variable {canceller : EchoCanceller}
variable {before after : AecCore canceller}

/-- A core stays ready when only its far end moves. -/
theorem Ready.ofFarMove
    (ready : before.Ready)
    (sized : after.Sized)
    (move : FarMove before after) :
    after.Ready where
  toSized := sized
  near := move.low ▸ ready.near
  bands := move.numBands ▸ ready.bands
  shiftOffset := move.shiftOffset ▸ ready.shiftOffset

theorem FarMove.trans
    {final : AecCore canceller}
    (first : FarMove before after)
    (later : FarMove after final) :
    FarMove before final :=
  ⟨first.toFarStep.trans later.toFarStep,
    later.lookahead.trans first.lookahead,
    later.shiftOffset.trans first.shiftOffset,
    later.shiftInHistory.trans first.shiftInHistory⟩

/-- The system delay shrinks only for a buffer that is then full, and stays so; the
known delay and the corrections stay as they are. -/
structure Filled (before after : AecCore canceller) : Prop where
  systemDelay :
    after.systemDelay = before.systemDelay ∨
      after.account.far = kBufSizePartitions
  full :
    before.account.far = kBufSizePartitions →
      after.account.far = kBufSizePartitions
  knownDelay : after.knownDelay = before.knownDelay
  signalDelayCorrection :
    after.signalDelayCorrection = before.signalDelayCorrection

theorem Filled.refl (aec : AecCore canceller) : Filled aec aec :=
  ⟨.inl rfl, id, rfl, rfl⟩

theorem Filled.trans
    {final : AecCore canceller}
    (first : Filled before after)
    (later : Filled after final) :
    Filled before final where
  systemDelay := by
    rcases later.systemDelay with same | full
    · rcases first.systemDelay with sameFirst | full
      · exact .inl (same.trans sameFirst)
      · exact .inr (later.full full)
    · exact .inr full
  full := later.full ∘ first.full
  knownDelay := later.knownDelay.trans first.knownDelay
  signalDelayCorrection :=
    later.signalDelayCorrection.trans first.signalDelayCorrection

theorem Sized.filled
    (sized : before.Sized)
    (account : after.account = before.account.bufferPartition) :
    Filled before after := by
  have atMost : before.account.far ≤ 250 :=
    Int.ofNat_le.mpr sized.farTimeBuf.availableRead_le
  have size : kBufSizePartitions = 250 := rfl
  have delay : after.systemDelay = after.account.systemDelay := rfl
  have known : after.knownDelay = after.account.knownDelay := rfl
  have correction :
      after.signalDelayCorrection = after.account.correction :=
    rfl
  by_cases room : before.account.far < kBufSizePartitions
  · rw [Account.bufferPartition, if_pos room] at account
    refine ⟨.inl ?_, fun full => absurd full (by omega), ?_, ?_⟩
    · rw [delay, account]
      rfl
    · rw [known, account]
      rfl
    · rw [correction, account]
      rfl
  · rw [Account.bufferPartition, if_neg room] at account
    have full : after.account.far = kBufSizePartitions := by
      rw [account]
      unfold Account.moveFar Account.clip
      dsimp only
      omega
    refine ⟨.inr full, fun _ => full, ?_, ?_⟩
    · rw [known, account]
      rfl
    · rw [correction, account]
      rfl

end AecCore

namespace Aec

variable {canceller : EchoCanceller}
variable {aecpc : Aec canceller}

/-- The buffers of an instance have their size. -/
structure Sized (aecpc : Aec canceller) : Prop where
  aec : aecpc.aec.Sized
  farPreBuf :
    RingBuffer.Sized (partLen2 + kResamplerBufferSize) aecpc.farPreBuf

/-- What holds of an initialised instance between two calls. -/
structure Running (aecpc : Aec canceller) : Prop extends Sized aecpc where
  core : aecpc.aec.Ready
  overlap : partLen ≤ aecpc.farPreBuf.availableRead
  below : aecpc.farPreBuf.availableRead < partLen2
  skewLower : -1 / 2 ≤ aecpc.skew
  skewUpper : aecpc.skew ≤ 1
  inStep : AecResampler.InStep aecpc.resampler.position

/-- What is in the pre-buffer and not yet in a partition. -/
def pending (aecpc : Aec canceller) : Int :=
  (aecpc.farPreBuf.availableRead : Int) - partLen

/-! ## The far end -/

/-- A partition leaves the pre-buffer for the core. -/
theorem bufferPartitions_spec
    (turns : Nat)
    (sized : aecpc.Sized)
    (overlap : partLen ≤ aecpc.farPreBuf.availableRead)
    (enough : aecpc.farPreBuf.availableRead < partLen2 + turns * partLen) :
    ∃ farPreBuf aec,
      bufferPartitions turns aecpc =
          some { aecpc with farPreBuf := farPreBuf, aec := aec } ∧
        RingBuffer.Sized (partLen2 + kResamplerBufferSize) farPreBuf ∧
        aec.Sized ∧
        AecCore.FarMove aecpc.aec aec ∧
        partLen ≤ farPreBuf.availableRead ∧
        farPreBuf.availableRead < partLen2 ∧
        aec.account.surplus + farPreBuf.availableRead =
          aecpc.aec.account.surplus + aecpc.farPreBuf.availableRead ∧
        AecCore.Filled aecpc.aec aec := by
  induction turns generalizing aecpc with
  | zero =>
      rw [Nat.zero_mul, Nat.add_zero] at enough
      exact
        ⟨aecpc.farPreBuf, aecpc.aec, rfl, sized.farPreBuf, sized.aec,
          .refl _, overlap, enough, rfl, .refl _⟩
  | succ turns inductionHypothesis =>
      unfold bufferPartitions
      by_cases less : aecpc.farPreBuf.availableRead < partLen2
      · rw [if_pos less]
        exact
          ⟨aecpc.farPreBuf, aecpc.aec, rfl, sized.farPreBuf, sized.aec,
            .refl _, overlap, less, rfl, .refl _⟩
      · rw [if_neg less]
        obtain ⟨taken, read, reads, takenSized, takenLevel, -⟩ :=
          sized.farPreBuf.readBuffer (by decide) true partLen2
        obtain ⟨aec, buffers, aecSized, account, move⟩ :=
          sized.aec.bufferFarendPartition (read.elements taken)
        have room :
            taken.availableRead + partLen ≤ partLen2 + kResamplerBufferSize := by
          have atMost : aecpc.farPreBuf.availableRead ≤ 448 :=
            sized.farPreBuf.availableRead_le
          rw [takenLevel]
          show _ - 128 + 64 ≤ 448
          omega
        obtain ⟨rewound, moves, rewoundSized, rewoundLevel⟩ :=
          takenSized.moveReadPtr (by decide) (-partLen)
        rw [RingBuffer.clipMove_back room] at moves rewoundLevel
        have level :
            rewound.availableRead =
              aecpc.farPreBuf.availableRead - partLen := by
          have twice : partLen2 = partLen + partLen := rfl
          omega
        obtain ⟨farPreBuf, last, looped, farPreBufSized, lastSized, later,
            lastOverlap, lastBelow, kept, filled⟩ :=
          @inductionHypothesis
            { aecpc with farPreBuf := rewound, aec := aec }
            ⟨aecSized, rewoundSized⟩
            (by
              have twice : partLen2 = partLen + partLen := rfl
              dsimp only
              omega)
            (by
              dsimp only
              rw [Nat.succ_mul] at enough
              omega)
        simp only [reads, buffers, moves, looped, Option.bind_eq_bind,
          Option.bind_some]
        refine
          ⟨farPreBuf, last, rfl, farPreBufSized, lastSized, move.trans later,
            lastOverlap, lastBelow, ?_, (sized.aec.filled account).trans filled⟩
        dsimp only at kept
        rw [account, Account.surplus_bufferPartition] at kept
        omega

theorem getBufferFarendError_eq_zero
    {farend : Option (List canceller.Sample)}
    (noError : aecpc.getBufferFarendError farend = 0) :
    aecpc.initFlag = initCheck ∧
      ((farend.getD []).length = 80 ∨ (farend.getD []).length = 160) := by
  unfold getBufferFarendError at noError
  cases farend with
  | none => cases noError
  | some samples =>
      dsimp only at noError
      split at noError
      · cases noError
      next initialised =>
        split at noError
        · cases noError
        next legal =>
          refine ⟨not_ne_iff.mp initialised, ?_⟩
          rw [Option.getD_some]
          omega

/-- What comes out of the resampler fits into the pre-buffer. -/
theorem Running.resampleFarend
    (running : aecpc.Running)
    {farend : List canceller.Sample}
    (legal : farend.length = 80 ∨ farend.length = 160) :
    ∃ resampler newFarend,
      aecpc.resampleFarend farend =
          some ({ aecpc with resampler := resampler }, newFarend) ∧
        newFarend.length ≤ 321 ∧
        AecResampler.InStep resampler.position := by
  unfold Aec.resampleFarend
  split
  · obtain ⟨resampler, newFarend, resampled, short, inStep⟩ :=
      AecResampler.resampleLinear_spec canceller.float.single
        running.skewLower running.skewUpper running.inStep
        (show 4 ≤ farend.length by omega) (by omega)
    rw [resampled]
    exact ⟨resampler, newFarend, rfl, short, inStep⟩
  · exact
      ⟨aecpc.resampler, farend, rfl, by omega, running.inStep⟩

/-- What a far-end frame does to an instance. -/
structure Fed (before after : Aec canceller) (length : Nat) : Prop where
  others :
    ∃ resampler,
      after =
        { before with
          resampler := resampler
          farendStarted := true
          farPreBuf := after.farPreBuf
          aec := after.aec }
  move :
    AecCore.FarMove
      (before.aec.setSystemDelay (before.aec.systemDelay + length))
      after.aec
  filled :
    AecCore.Filled
      (before.aec.setSystemDelay (before.aec.systemDelay + length))
      after.aec
  surplus :
    after.aec.account.surplus + after.pending =
      before.aec.account.surplus + before.pending

/-- A far-end frame is refused or buffered as a whole. -/
theorem Running.bufferFarend
    (running : aecpc.Running)
    (farend : Option (List canceller.Sample)) :
    ∃ next code,
      aecpc.bufferFarend farend = some (next, code) ∧
        next.Running ∧
        (next = aecpc ∨ ∃ length, Fed aecpc next length) := by
  unfold Aec.bufferFarend
  dsimp only
  by_cases noError : aecpc.getBufferFarendError farend = 0
  · obtain ⟨-, legal⟩ := getBufferFarendError_eq_zero noError
    obtain ⟨resampler, newFarend, resampled, short, inStep⟩ :=
      running.resampleFarend legal
    have fits :
        aecpc.farPreBuf.availableRead + newFarend.length ≤
          partLen2 + kResamplerBufferSize := by
      have below : aecpc.farPreBuf.availableRead < 128 := running.below
      show _ ≤ 448
      omega
    obtain ⟨written, level⟩ :=
      running.farPreBuf.writeBuffer_of_fits fits
    generalize accepted :
      ({ aecpc with resampler := resampler } : Aec canceller).acceptFarend
        newFarend = middle
    have middlePreBuf :
        middle.farPreBuf.availableRead =
          aecpc.farPreBuf.availableRead + newFarend.length := by
      rw [← accepted]
      exact level
    have middleSized : middle.Sized := by
      rw [← accepted]
      exact
        ⟨⟨running.core.low, running.core.high, running.core.highCount,
          running.core.farTimeBuf⟩, written⟩
    obtain ⟨farPreBuf, aec, loops, farPreBufSized, aecSized, move, overlap,
        below, kept, filled⟩ :=
      bufferPartitions_spec (middle.farPreBuf.availableRead / partLen)
        middleSized
        (by
          have before := running.overlap
          omega)
        (by
          have whole :=
            Nat.lt_div_mul_add (a := middle.farPreBuf.availableRead)
              (b := partLen) (by decide)
          have twice : partLen2 = partLen + partLen := rfl
          omega)
    simp only [noError, resampled, accepted, loops, ne_eq,
      not_true_eq_false, if_false, Option.bind_eq_bind, Option.bind_some]
    refine ⟨_, 0, rfl, ?_, .inr ⟨newFarend.length, ?_⟩⟩
    · have measured :
          (aecpc.aec.setSystemDelay
            (aecpc.aec.systemDelay + newFarend.length)).Ready :=
        { running.core with }
      subst accepted
      exact
        { aec := aecSized
          farPreBuf := farPreBufSized
          core := measured.ofFarMove aecSized move
          overlap := overlap
          below := below
          skewLower := running.skewLower
          skewUpper := running.skewUpper
          inStep := inStep }
    · have accounted :
          middle.aec.account.surplus =
            aecpc.aec.account.surplus - newFarend.length := by
        rw [← accepted]
        unfold Account.surplus AecCore.account acceptFarend
          AecCore.setSystemDelay
        dsimp only
        omega
      subst accepted
      refine ⟨⟨resampler, rfl⟩, move, filled, ?_⟩
      unfold pending
      dsimp only
      omega
  · rw [if_pos noError]
    exact ⟨aecpc, _, rfl, running, .inl rfl⟩

/-! ## Before the frames -/

/-- What `WebRtcAec_Process` leaves alone until it calls the core. -/
structure Prepared (before after : Aec canceller) : Prop where
  initFlag : after.initFlag = before.initFlag
  farPreBuf : after.farPreBuf = before.farPreBuf
  resampler : after.resampler = before.resampler
  rateFactor : after.rateFactor = before.rateFactor
  skew :
    -1 / 2 ≤ before.skew ∧ before.skew ≤ 1 →
      -1 / 2 ≤ after.skew ∧ after.skew ≤ 1
  move : AecCore.FarMove before.aec after.aec
  knownDelay : after.aec.knownDelay = before.aec.knownDelay
  signalDelayCorrection :
    after.aec.signalDelayCorrection = before.aec.signalDelayCorrection
  surplus : after.aec.account.surplus = before.aec.account.surplus

theorem Prepared.refl (aecpc : Aec canceller) : Prepared aecpc aecpc :=
  ⟨rfl, rfl, rfl, rfl, id, .refl _, rfl, rfl, rfl⟩

theorem Prepared.trans
    {before after final : Aec canceller}
    (first : Prepared before after)
    (later : Prepared after final) :
    Prepared before final where
  initFlag := later.initFlag.trans first.initFlag
  farPreBuf := later.farPreBuf.trans first.farPreBuf
  resampler := later.resampler.trans first.resampler
  rateFactor := later.rateFactor.trans first.rateFactor
  skew := later.skew ∘ first.skew
  move := first.move.trans later.move
  knownDelay := later.knownDelay.trans first.knownDelay
  signalDelayCorrection :=
    later.signalDelayCorrection.trans first.signalDelayCorrection
  surplus := later.surplus.trans first.surplus

/-- So is a move of the far end that the system delay takes part in. -/
theorem Prepared.ofMove
    {aec : AecCore canceller}
    {elements : Int}
    (account : aec.account = aecpc.aec.account.moveFar elements)
    (move : AecCore.FarMove aecpc.aec aec) :
    Prepared aecpc { aecpc with aec := aec } :=
  { Prepared.refl aecpc with
    move := move
    knownDelay := congrArg Account.knownDelay account
    signalDelayCorrection := congrArg Account.correction account
    surplus := by
      dsimp only
      rw [account, Account.surplus_moveFar] }

/-- The skew is limited before it is used. -/
theorem prepared_updateSkew
    (aecpc : Aec canceller)
    (nrOfSamples : Nat)
    (skew : Int) :
    Prepared aecpc (aecpc.updateSkew nrOfSamples skew).1 ∧
      (aecpc.updateSkew nrOfSamples skew).1.aec = aecpc.aec := by
  unfold updateSkew
  split
  · exact ⟨.refl aecpc, rfl⟩
  · split
    · exact ⟨{ Prepared.refl aecpc with }, rfl⟩
    · refine ⟨{ Prepared.refl aecpc with skew := fun _ => ?_ }, rfl⟩
      dsimp only
      split
      · norm_num
      · split
        · norm_num
        next lower upper => exact ⟨not_lt.mp lower, not_lt.mp upper⟩

/-- The check of the start-up phase sets only what it decides by. -/
theorem checkStability_eq
    (aecpc : Aec canceller)
    (nBlocks10ms : Nat) :
    ∃ checkBufSizeCtr firstVal sum counter bufSizeStart checkBuffSize,
      aecpc.checkStability nBlocks10ms =
        { aecpc with
          checkBufSizeCtr := checkBufSizeCtr
          firstVal := firstVal
          sum := sum
          counter := counter
          bufSizeStart := bufSizeStart
          checkBuffSize := checkBuffSize } := by
  unfold checkStability limitStartup
  split
  · exact ⟨_, _, _, _, _, _, rfl⟩
  · unfold determineBufSize
    split <;> split <;> exact ⟨_, _, _, _, _, _, rfl⟩

theorem prepared_checkStability
    (aecpc : Aec canceller)
    (nBlocks10ms : Nat) :
    Prepared aecpc (aecpc.checkStability nBlocks10ms) := by
  obtain ⟨_, _, _, _, _, _, checked⟩ :=
    aecpc.checkStability_eq nBlocks10ms
  rw [checked]
  exact { Prepared.refl aecpc with }

/-- A move of the far end that the system delay takes part in. -/
theorem Sized.prepared_moveFarReadPtr
    (sized : aecpc.aec.Sized)
    (elements : Int) :
    ∃ aec moved,
      aecpc.aec.moveFarReadPtr elements = some (aec, moved) ∧
        aec.Sized ∧
        aec.account = aecpc.aec.account.moveFar elements ∧
        Prepared aecpc { aecpc with aec := aec } := by
  obtain ⟨aec, moves, aecSized, account, move⟩ :=
    sized.moveFarReadPtr elements
  exact ⟨aec, _, moves, aecSized, account, .ofMove account move⟩

theorem prepared_leaveStartup
    {next : Aec canceller}
    (sized : aecpc.aec.Sized)
    (left : aecpc.leaveStartup = some next) :
    Prepared aecpc next ∧ next.aec.Sized := by
  unfold leaveStartup at left
  split at left
  · cases left
    exact ⟨.refl aecpc, sized⟩
  · dsimp only at left
    split at left
    · cases left
      exact ⟨{ Prepared.refl aecpc with }, sized⟩
    · split at left
      · obtain ⟨aec, moved, moves, aecSized, -, prepared⟩ :=
          Sized.prepared_moveFarReadPtr sized
            (aecpc.aec.systemDelay.tdiv partLen - aecpc.bufSizeStart)
        rw [moves] at left
        cases left
        exact ⟨{ prepared with }, aecSized⟩
      · cases left
        exact ⟨.refl aecpc, sized⟩

theorem prepared_startExtended
    {next : Aec canceller}
    {reportedDelayMs : Int}
    (sized : aecpc.aec.Sized)
    (started : aecpc.startExtended reportedDelayMs = some next) :
    Prepared aecpc next ∧ next.aec.Sized := by
  unfold startExtended at started
  split at started
  · cases started
    exact ⟨.refl aecpc, sized⟩
  · obtain ⟨⟨aec, moved⟩, moves, rfl⟩ :=
      Option.map_eq_some_iff.mp started
    obtain ⟨other, otherMoved, otherMoves, otherSized, -, prepared⟩ :=
      Sized.prepared_moveFarReadPtr sized _
    cases otherMoves.symm.trans moves
    exact ⟨{ prepared with }, otherSized⟩

/-- The flush that forces causality, when there is one. -/
theorem forceCausality_spec
    (estimator : DelayEstimator)
    (sized : aecpc.aec.Sized)
    (currentDelay : Int) :
    ∃ aec remaining,
      forceCausality estimator aecpc.aec currentDelay =
          some (aec, remaining) ∧
        aec.Sized ∧
        Prepared aecpc { aecpc with aec := aec } ∧
        (aec = aecpc.aec ∧ remaining = currentDelay ∨
          currentDelay < partLen ∧
            aec.account = aecpc.aec.account.moveFar estimator.flush ∧
            remaining =
              currentDelay +
                aecpc.aec.account.clip estimator.flush * partLen) := by
  unfold forceCausality
  by_cases acausal : currentDelay < partLen
  · obtain ⟨aec, moves, aecSized, account, move⟩ :=
      sized.moveFarReadPtr estimator.flush
    rw [if_pos acausal, moves]
    exact
      ⟨aec, _, rfl, aecSized, .ofMove account move,
        .inr ⟨acausal, account, rfl⟩⟩
  · rw [if_neg acausal]
    exact
      ⟨aecpc.aec, currentDelay, rfl, sized, .refl aecpc, .inl ⟨rfl, rfl⟩⟩

theorem prepared_estBufDelay
    {estimator : DelayEstimator}
    {next : Aec canceller}
    (sized : aecpc.aec.Sized)
    (estimated : aecpc.estBufDelay estimator = some next) :
    Prepared aecpc next ∧ next.aec.Sized := by
  obtain ⟨aec, remaining, forced, aecSized, prepared, -⟩ :=
    forceCausality_spec estimator sized aecpc.currentDelay
  unfold estBufDelay at estimated
  rw [forced, Option.bind_eq_bind, Option.bind_some] at estimated
  obtain ⟨filtDelay, -, estimated⟩ := Option.bind_eq_some_iff.mp estimated
  obtain rfl := Option.some.inj estimated
  exact ⟨{ prepared with }, aecSized⟩

theorem prepared_processNormal
    {next : Aec canceller}
    {nrOfSamples : Nat}
    {msInSndCardBuf skew retVal : Int}
    {knownDelay : Option Int}
    (sized : aecpc.aec.Sized)
    (processed :
      aecpc.processNormal nrOfSamples msInSndCardBuf skew =
        some (next, retVal, knownDelay)) :
    Prepared aecpc next ∧ next.aec.Sized := by
  unfold processNormal at processed
  dsimp only at processed
  generalize
    (if kMaxTrustedDelayMs < msInSndCardBuf then kMaxTrustedDelayMs
      else msInSndCardBuf) + 10 = ms at processed
  obtain ⟨skewed, sameCore⟩ :=
    prepared_updateSkew { aecpc with msInSndCardBuf := ms } nrOfSamples skew
  generalize
    updateSkew { aecpc with msInSndCardBuf := ms } nrOfSamples skew =
      updated at processed skewed sameCore
  obtain ⟨middle, code⟩ := updated
  dsimp only at processed skewed sameCore
  have entered : Prepared aecpc middle := { skewed with }
  have middleSized : middle.aec.Sized := sameCore ▸ sized
  split at processed
  · obtain ⟨last, left, isNext⟩ := Option.map_eq_some_iff.mp processed
    cases isNext
    have checked :=
      prepared_checkStability middle
        (nrOfSamples / (frameLen * middle.rateFactor.toNat))
    obtain ⟨leaving, nextSized⟩ :=
      prepared_leaveStartup (by
        obtain ⟨_, _, _, _, _, _, stable⟩ :=
          middle.checkStability_eq
            (nrOfSamples / (frameLen * middle.rateFactor.toNat))
        rw [stable]
        exact middleSized) left
    exact ⟨(entered.trans checked).trans leaving, nextSized⟩
  · obtain ⟨last, estimated, isNext⟩ := Option.map_eq_some_iff.mp processed
    cases isNext
    obtain ⟨estimating, nextSized⟩ :=
      prepared_estBufDelay middleSized estimated
    exact ⟨entered.trans estimating, nextSized⟩

theorem prepared_processExtended
    {next : Aec canceller}
    {reportedDelayMs : Int}
    {knownDelay : Option Int}
    (sized : aecpc.aec.Sized)
    (processed :
      aecpc.processExtended reportedDelayMs = some (next, knownDelay)) :
    Prepared aecpc next ∧ next.aec.Sized := by
  unfold processExtended at processed
  dsimp only at processed
  split at processed
  · cases processed
    exact ⟨{ Prepared.refl aecpc with }, sized⟩
  · obtain ⟨started, starts, processed⟩ :=
      Option.bind_eq_some_iff.mp processed
    obtain ⟨last, estimated, isNext⟩ :=
      Option.bind_eq_some_iff.mp processed
    cases isNext
    obtain ⟨starting, startedSized⟩ :=
      prepared_startExtended (by exact sized) starts
    obtain ⟨estimating, nextSized⟩ :=
      prepared_estBufDelay startedSized estimated
    exact ⟨{ starting.trans estimating with }, nextSized⟩

/-- Whatever happens before the frames only moves the far end. -/
theorem prepared_prepare
    {next : Aec canceller}
    {nrOfSamples : Nat}
    {msInSndCardBuf skew retVal : Int}
    {knownDelay : Option Int}
    (sized : aecpc.aec.Sized)
    (prepared :
      aecpc.prepare nrOfSamples msInSndCardBuf skew =
        some (next, retVal, knownDelay)) :
    Prepared aecpc next ∧ next.aec.Sized := by
  unfold prepare at prepared
  dsimp only at prepared
  split at prepared
  · obtain ⟨⟨last, known⟩, processed, isNext⟩ :=
      Option.map_eq_some_iff.mp prepared
    cases isNext
    exact prepared_processExtended sized processed
  · exact prepared_processNormal sized prepared

/-- An instance stays ready until it calls the core. -/
theorem Running.ofPrepared
    {next : Aec canceller}
    (running : aecpc.Running)
    (prepared : Prepared aecpc next)
    (sized : next.aec.Sized) :
    next.Running where
  aec := sized
  farPreBuf := prepared.farPreBuf ▸ running.farPreBuf
  core := running.core.ofFarMove sized prepared.move
  overlap := prepared.farPreBuf ▸ running.overlap
  below := prepared.farPreBuf ▸ running.below
  skewLower := (prepared.skew ⟨running.skewLower, running.skewUpper⟩).1
  skewUpper := (prepared.skew ⟨running.skewLower, running.skewUpper⟩).2
  inStep := prepared.resampler ▸ running.inStep

/-- A call of `WebRtcAec_Process` that passes the checks. -/
structure Checked
    (aecpc : Aec canceller)
    (hasOut : Bool)
    (nrOfSamples : Nat) : Prop where
  initFlag : aecpc.initFlag = initCheck
  hasOut : hasOut = true
  length : nrOfSamples = 80 ∨ nrOfSamples = 160

/-- `WebRtcAec_Process` is refused, or prepared and then passed on to the core. -/
theorem process_cases
    {nearend : List (List canceller.Sample)}
    {hasOut : Bool}
    {nrOfSamples : Nat}
    {msInSndCardBuf skew : Int}
    {next : Aec canceller}
    {answer : Answer canceller}
    (processed :
      aecpc.process nearend hasOut nrOfSamples msInSndCardBuf skew =
        some (next, answer)) :
    (next = aecpc ∧ ¬ aecpc.Checked hasOut nrOfSamples) ∨
      aecpc.Checked hasOut nrOfSamples ∧
        ∃ frames prepared retVal knownDelay out,
          framesOf nearend nrOfSamples = some frames ∧
            aecpc.prepare nrOfSamples msInSndCardBuf skew =
              some (prepared, retVal, knownDelay) ∧
            prepared.callCore frames knownDelay = some (next, out) := by
  unfold Aec.process at processed
  split at processed
  next missing =>
    cases processed
    exact .inl ⟨rfl, fun checked => by simp [checked.hasOut] at missing⟩
  next present =>
    split at processed
    next unflagged =>
      cases processed
      exact .inl ⟨rfl, fun checked => unflagged checked.initFlag⟩
    next flagged =>
      split at processed
      next illegal =>
        cases processed
        exact .inl ⟨rfl, fun checked => by
          have length := checked.length
          omega⟩
      next legal =>
        obtain ⟨frames, framed, processed⟩ :=
          Option.bind_eq_some_iff.mp processed
        obtain ⟨⟨prepared, retVal, knownDelay⟩, prepares, processed⟩ :=
          Option.bind_eq_some_iff.mp processed
        obtain ⟨⟨last, out⟩, called, isNext⟩ :=
          Option.bind_eq_some_iff.mp processed
        cases isNext
        exact
          .inr
            ⟨⟨not_ne_iff.mp flagged, by simpa using present, by omega⟩,
              frames, prepared, retVal, knownDelay, out, framed, prepares,
              called⟩

end Aec

end ApmSdk.Echo
