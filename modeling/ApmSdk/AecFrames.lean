import ApmSdk.AecLevels

namespace ApmSdk.Echo

/-!
# A frame as a whole

Between two frames the near-end buffer of the low band holds less than a block, so that
the next frame has room and as many blocks are processed as it completes.
-/

namespace Account

/-- A frame of near end comes in. -/
def receive (account : Account) : Account :=
  { account with near := account.near + frameLen }

/-- The blocks that are there to be processed. -/
def blocks (account : Account) : Int :=
  account.near / (partLen : Int)

/-- The blocks are processed and the frame is taken from the system delay. -/
def finish (account : Account) : Account :=
  { account with
    far := max 0 (account.far - account.blocks)
    near := account.near - account.blocks * partLen
    systemDelay := account.systemDelay - frameLen }

/-- A frame changes the surplus only where there were too few blocks. -/
theorem surplus_finish
    {account : Account}
    (enough : account.blocks ≤ account.far) :
    account.finish.surplus = account.surplus + frameLen := by
  unfold finish surplus
  dsimp only
  rw [Int.max_eq_right (by omega)]
  ring

@[simp]
theorem surplus_receive (account : Account) :
    account.receive.surplus = account.surplus - frameLen := by
  unfold receive surplus
  dsimp only
  ring

end Account

namespace AecCore

variable {canceller : EchoCanceller}
variable {aec before after : AecCore canceller}

/-- What holds of a core between two frames. -/
structure Ready (aec : AecCore canceller) : Prop extends Sized aec where
  near : aec.low.nearFrBuf.availableRead < partLen
  bands : aec.numBands - 1 ≤ numHighBandsMax
  shiftOffset : 1 ≤ aec.shiftOffset

/-- The account after the first step of a frame. -/
def stuffedAccount (aec : AecCore canceller) : Account :=
  aec.account.receive.stuff aec.mult

/-- What the second step makes of the account, and of the delay estimator. -/
inductive Adjusts
    (knownDelay : Int)
    (before after : AecCore canceller) :
    Account → Prop where
  | followed
      (mode : before.delayAgnosticEnabled = false)
      (lookahead : after.lookahead = before.lookahead)
      (shiftInHistory :
        after.assertions.shiftInHistory =
          before.assertions.shiftInHistory) :
      Adjusts knownDelay before after
        (before.stuffedAccount.follow knownDelay)
  | corrected
      (mode : before.delayAgnosticEnabled = true)
      (elements : Int)
      (realigned :
        Realigned before before.stuffedAccount after elements) :
      Adjusts knownDelay before after
        (before.stuffedAccount.correct elements)

/-- What a frame does, with the account that its blocks are processed from. -/
structure FrameStep
    (knownDelay : Int)
    (before after : AecCore canceller)
    (adjusted : Account) : Prop extends SameSetup before after where
  adjusts : Adjusts knownDelay before after adjusted
  account : after.account = adjusted.finish
  farBlockFound :
    after.assertions.farBlockFound =
      (before.assertions.farBlockFound &&
        decide (adjusted.blocks ≤ adjusted.far))

theorem Sized.writeNearH
    (sized : aec.Sized)
    {frames : List (Frame canceller.Sample)}
    (few : frames.length ≤ numHighBandsMax) :
    (∀ band ∈ writeNearH frames aec.high, band.Sized) ∧
      (writeNearH frames aec.high).length = numHighBandsMax := by
  unfold AecCore.writeNearH
  constructor
  · intro band member
    rcases List.mem_append.mp member with written | kept
    · rw [← List.map_uncurry_zip_eq_zipWith] at written
      obtain ⟨⟨source, frame⟩, paired, rfl⟩ := List.mem_map.mp written
      exact
        (sized.high source (List.of_mem_zip paired).1).writeNear frame
    · exact sized.high band (List.mem_of_mem_drop kept)
  · rw [List.length_append, List.length_zipWith, List.length_drop,
      sized.highCount]
    omega

/-- Step 2, whichever the mode chooses. -/
theorem Sized.adjustFarEnd
    (sized : aec.Sized)
    (positive : 1 ≤ aec.shiftOffset)
    (knownDelay : Int) :
    ∃ next,
      aec.adjustFarEnd knownDelay = some next ∧
        next.Sized ∧
        FarStep aec next ∧
        1 ≤ next.shiftOffset ∧
        ((aec.delayAgnosticEnabled = false ∧
            next.account = aec.account.follow knownDelay ∧
            FarMove aec next) ∨
          (aec.delayAgnosticEnabled = true ∧
            ∃ elements,
              next.account = aec.account.correct elements ∧
                Realigned aec aec.account next elements)) := by
  unfold AecCore.adjustFarEnd
  cases mode : aec.delayAgnosticEnabled with
  | false =>
      obtain ⟨next, follows, nextSized, followed, step⟩ :=
        sized.followKnownDelay knownDelay
      exact
        ⟨next, follows, nextSized, step.toFarStep,
          step.shiftOffset ▸ positive, .inl ⟨rfl, followed, step⟩⟩
  | true =>
      obtain ⟨next, elements, corrects, nextSized, corrected, step,
          realigned⟩ := sized.correctSignalDelay positive
      exact
        ⟨next, corrects, nextSized, step, realigned.shiftOffset,
          .inr ⟨rfl, elements, corrected, realigned⟩⟩

/-- The near-end frames find room. -/
theorem Ready.bufferNear
    (ready : aec.Ready)
    (nearend : Frame canceller.Sample)
    {nearendH : List (Frame canceller.Sample)}
    (few : nearendH.length ≤ numHighBandsMax) :
    (aec.bufferNear nearend nearendH).Sized ∧
      (aec.bufferNear nearend nearendH).account = aec.account.receive := by
  obtain ⟨highSized, highCount⟩ := ready.toSized.writeNearH few
  refine
    ⟨⟨ready.low.writeNear nearend, highSized, highCount,
      ready.farTimeBuf⟩, ?_⟩
  unfold account Account.receive AecCore.bufferNear
  dsimp only
  rw [ready.low.writeNear_level ready.near nearend]
  rfl

/-- A frame is defined between two frames. -/
theorem Ready.processFrame
    (ready : aec.Ready)
    (knownDelay : Int)
    (nearend : Frame canceller.Sample)
    {nearendH : List (Frame canceller.Sample)}
    (few : nearendH.length ≤ numHighBandsMax) :
    ∃ next out adjusted,
      processFrame knownDelay aec nearend nearendH = some (next, out) ∧
        next.Ready ∧
        FrameStep knownDelay aec next adjusted := by
  obtain ⟨bufferedSized, buffered⟩ := ready.bufferNear nearend few
  have buffering :
      SameSetup aec (aec.bufferNear nearend nearendH) :=
    ⟨rfl, rfl, rfl, rfl, rfl, rfl, rfl⟩
  obtain ⟨stuffed, stuffs, stuffedSized, stuffedAccount, stuffing⟩ :=
    bufferedSized.stuffFarEnd
  obtain ⟨adjusted, adjusts, adjustedSized, adjustment, positive, chosen⟩ :=
    stuffedSized.adjustFarEnd
      (stuffing.shiftOffset ▸ ready.shiftOffset) knownDelay
  have setup : SameSetup aec adjusted :=
    (buffering.trans stuffing.toSameSetup).trans adjustment.toSameSetup
  have bands : adjusted.numBands - 1 ≤ numHighBandsMax :=
    setup.numBands ▸ ready.bands
  obtain ⟨processed, processes, processedSized, processing⟩ :=
    adjustedSized.processBlocks bands
      (adjusted.low.nearFrBuf.availableRead / partLen)
  have measured :
      ({ processed with
          systemDelay := processed.systemDelay - frameLen } :
        AecCore canceller).Sized :=
    ⟨processedSized.low, processedSized.high, processedSized.highCount,
      processedSized.farTimeBuf⟩
  obtain ⟨low, high, out, reads, lowSized, sameNear, highSized, sameCount⟩ :=
    measured.readOutput (processing.numBands ▸ bands)
  have remaining :
      processed.low.nearFrBuf.availableRead =
        adjusted.low.nearFrBuf.availableRead % partLen := by
    rw [processing.near]
    exact Nat.mod_eq_sub_div_mul.symm
  unfold AecCore.processFrame
  rw [Option.bind_eq_bind, stuffs, Option.bind_some, adjusts,
    Option.bind_some, processes, Option.bind_some, reads]
  refine ⟨_, out, adjusted.account, rfl, ?_, ?_⟩
  · exact
      { low := lowSized
        high := highSized
        highCount := sameCount
        farTimeBuf := processedSized.farTimeBuf
        near := by
          rw [sameNear, remaining]
          exact Nat.mod_lt _ (by decide)
        bands := processing.numBands ▸ bands
        shiftOffset := processing.shiftOffset ▸ positive }
  · rw [buffered] at stuffedAccount
    have atStuffed : stuffed.account = aec.stuffedAccount := stuffedAccount
    have mode :
        stuffed.delayAgnosticEnabled = aec.delayAgnosticEnabled :=
      stuffing.delayAgnosticEnabled
    have mult : stuffed.mult = aec.mult := stuffing.mult
    have lookahead : stuffed.lookahead = aec.lookahead := stuffing.lookahead
    have shiftInHistory :
        stuffed.assertions.shiftInHistory =
          aec.assertions.shiftInHistory :=
      stuffing.shiftInHistory
    have found :
        adjusted.assertions.farBlockFound = aec.assertions.farBlockFound :=
      adjustment.farBlockFound.trans stuffing.farBlockFound
    have blocks :
        adjusted.account.blocks =
          (adjusted.low.nearFrBuf.availableRead / partLen : Nat) := by
      rw [Int.natCast_ediv]
      rfl
    refine
      { setup.trans processing.toSameSetup with
        adjusts := ?_
        account := ?_
        farBlockFound := ?_ }
    · rcases chosen with ⟨chosen, followed, move⟩ |
        ⟨chosen, elements, corrected, realigned⟩
      · rw [followed, atStuffed]
        exact
          .followed (mode.symm.trans chosen)
            (processing.lookahead.trans (move.lookahead.trans lookahead))
            (processing.shiftInHistory.trans
              (move.shiftInHistory.trans shiftInHistory))
      · have left := realigned.left
        have nextLookahead :=
          processing.lookahead.trans realigned.lookahead
        have nextShift :=
          processing.shiftInHistory.trans realigned.shiftInHistory
        rw [corrected, atStuffed]
        rw [atStuffed, mult] at left
        rw [atStuffed, lookahead] at nextLookahead
        rw [atStuffed, shiftInHistory] at nextShift
        exact
          .corrected (mode.symm.trans chosen) elements
            { shiftOffset := processing.shiftOffset ▸ positive
              lower := lookahead ▸ realigned.lower
              upper := lookahead ▸ realigned.upper
              left := left
              lookahead := nextLookahead
              shiftInHistory := nextShift }
    · unfold Account.finish
      rw [blocks]
      unfold account
      dsimp only
      rw [sameNear, processing.near, processing.far, processing.systemDelay,
        processing.knownDelay, processing.signalDelayCorrection]
      congr 1
      · omega
      · rw [Int.ofNat_sub (Nat.div_mul_le_self ..), Int.natCast_mul]
    · rw [blocks, ← found, processing.farBlockFound]
      congr 1
      exact decide_eq_decide.mpr Int.ofNat_le.symm

/-! ## The frames of a call -/

/-- A condition on the core at the start of each frame of a call. -/
def AtFrames
    (condition : AecCore canceller → Prop)
    (knownDelay : Int) :
    List (BandFrames canceller) → AecCore canceller → Prop
  | [], _ => True
  | nearend :: rest, aec =>
      condition aec ∧
        ∀ next out,
          AecCore.processFrame knownDelay aec nearend.1 nearend.2 =
              some (next, out) →
            AtFrames condition knownDelay rest next

/-- What a frame keeps, under a condition on the core before it, a call keeps. -/
theorem Ready.processEach
    (holds condition : AecCore canceller → Prop)
    {knownDelay : Int}
    (preserved :
      ∀ {before after adjusted},
        before.Ready →
        holds before →
        condition before →
        FrameStep knownDelay before after adjusted →
        holds after)
    (ready : aec.Ready)
    (start : holds aec)
    (nearend : List (BandFrames canceller))
    (bands : ∀ frames ∈ nearend, frames.2.length + 1 = aec.numBands)
    (met : AtFrames condition knownDelay nearend aec) :
    ∃ next out,
      processEach knownDelay nearend aec = some (next, out) ∧
        next.Ready ∧
        holds next := by
  induction nearend generalizing aec with
  | nil => exact ⟨aec, [], rfl, ready, start⟩
  | cons frames rest inductionHypothesis =>
      rw [List.forall_mem_cons] at bands
      obtain ⟨frameBands, restBands⟩ := bands
      have few : frames.2.length ≤ numHighBandsMax := by
        have high := ready.bands
        omega
      obtain ⟨atFirst, later⟩ := met
      obtain ⟨middle, first, adjusted, processed, middleReady, step⟩ :=
        ready.processFrame knownDelay frames.1 few
      obtain ⟨next, outs, looped, nextReady, held⟩ :=
        inductionHypothesis middleReady
          (preserved ready start atFirst step)
          (step.numBands ▸ restBands) (later middle first processed)
      unfold AecCore.processEach
      simp only [processed, looped, Option.bind_eq_bind, Option.bind_some]
      exact ⟨next, first :: outs, rfl, nextReady, held⟩

theorem Ready.processFrames
    (holds condition : AecCore canceller → Prop)
    {knownDelay : Int}
    (preserved :
      ∀ {before after adjusted},
        before.Ready →
        holds before →
        condition before →
        FrameStep knownDelay before after adjusted →
        holds after)
    (ready : aec.Ready)
    (start : holds { aec with frameCount := aec.frameCount + 1 })
    {nearend : List (BandFrames canceller)}
    (met :
      AtFrames condition knownDelay nearend
        { aec with frameCount := aec.frameCount + 1 })
    {next : AecCore canceller}
    {out : List (List (List canceller.Sample))}
    (returned : aec.processFrames nearend knownDelay = some (next, out)) :
    next.Ready ∧ holds next := by
  unfold AecCore.processFrames at returned
  split at returned
  next bands =>
    have counted :
        ({ aec with frameCount := aec.frameCount + 1 } :
          AecCore canceller).Ready :=
      { ready with }
    obtain ⟨last, outs, looped, lastReady, held⟩ :=
      counted.processEach holds condition preserved start nearend
        (by simpa using List.all_eq_true.mp bands) met
    rw [looped] at returned
    cases returned
    exact ⟨lastReady, held⟩
  · cases returned

/-! ## The balance -/

/-- While blocks are found, a frame changes nothing of the surplus. -/
theorem FrameStep.surplus
    {knownDelay : Int}
    {adjusted : Account}
    (step : FrameStep knownDelay before after adjusted)
    (found : after.assertions.farBlockFound = true) :
    before.assertions.farBlockFound = true ∧
      after.account.surplus = before.account.surplus := by
  rw [step.farBlockFound, Bool.and_eq_true, decide_eq_true_eq] at found
  obtain ⟨foundBefore, enough⟩ := found
  refine ⟨foundBefore, ?_⟩
  have adjustedSurplus :
      adjusted.surplus = before.account.surplus - frameLen := by
    rcases step.adjusts with ⟨mode, lookahead, shiftInHistory⟩ |
      ⟨mode, elements, realigned⟩
    · simp [stuffedAccount]
    · simp [stuffedAccount]
  rw [step.account, Account.surplus_finish enough, adjustedSurplus]
  omega

end AecCore

end ApmSdk.Echo
