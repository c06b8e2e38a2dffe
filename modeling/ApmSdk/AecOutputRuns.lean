import ApmSdk.AecBalance
import ApmSdk.AecMobileClean
import ApmSdk.AecOutput

namespace ApmSdk.Echo

/-!
# What the frames of a run play

The calls on a core after `InitAec` in any order.  The frames that come out are read
from the rings of their bands, which are stuffed for three frames and not for one.
-/

namespace AecCore

variable {canceller : EchoCanceller}

/-- A turn of the loop of `WebRtcAec_ProcessFrames` up to the output. -/
def upToOutput
    (knownDelay : Int)
    (aec : AecCore canceller)
    (nearend : BandFrames canceller) : Option (AecCore canceller) := do
  let aec ← (aec.bufferNear nearend.1 nearend.2).stuffFarEnd
  let aec ← aec.adjustFarEnd knownDelay
  let aec ←
    processBlocks (aec.low.nearFrBuf.availableRead / partLen) aec
  some { aec with systemDelay := aec.systemDelay - frameLen }

theorem processFrame_eq
    (knownDelay : Int)
    (aec : AecCore canceller)
    (nearend : BandFrames canceller) :
    processFrame knownDelay aec nearend.1 nearend.2 =
      (aec.upToOutput knownDelay nearend).bind readOutput := by
  unfold processFrame upToOutput
  cases (aec.bufferNear nearend.1 nearend.2).stuffFarEnd with
  | none =>
      rw [Option.bind_eq_bind, Option.bind_none, Option.bind_eq_bind,
        Option.bind_none, Option.bind_none]
  | some stuffed =>
      rw [Option.bind_eq_bind, Option.bind_some, Option.bind_eq_bind,
        Option.bind_some]
      cases stuffed.adjustFarEnd knownDelay with
      | none =>
          rw [Option.bind_none, Option.bind_none, Option.bind_none]
      | some adjusted =>
          rw [Option.bind_some, Option.bind_some]
          cases processBlocks
              (adjusted.low.nearFrBuf.availableRead / partLen) adjusted with
          | none =>
              rw [Option.bind_none, Option.bind_none, Option.bind_none]
          | some middle =>
              rw [Option.bind_some, Option.bind_some, Option.bind_some]

/-- The samples that the output ring of the low band lacks for a frame, by which those
of all bands are stuffed. -/
def missingOutput
    (knownDelay : Int)
    (aec : AecCore canceller)
    (nearend : BandFrames canceller) : Option Nat :=
  (aec.upToOutput knownDelay nearend).map fun middle =>
    frameLen - middle.low.outFrBuf.availableRead

end AecCore

/-- The calls on a core after `InitAec`. -/
inductive CoreCall (canceller : EchoCanceller) where
  | bufferFarend (farend : List canceller.Sample)
  | moveFarReadPtr (elements : Int)
  | setSystemDelay (delay : Int)
  | enableExtendedFilter (enable : Bool)
  | enableDelayAgnostic (enable : Bool)
  /-- `WebRtcAec_SetConfigCore`, by what it does to the processing of a block. -/
  | setConfig (change : canceller.State → canceller.State)
  | processFrames
      (nearend : List (AecCore.BandFrames canceller.recording))
      (knownDelay : Int)

/-- The near-end frames of a call. -/
def CoreCall.frames
    {canceller : EchoCanceller} :
    CoreCall canceller → List (AecCore.BandFrames canceller.recording)
  | processFrames nearend _ => nearend
  | _ => []

/-- A core with the output frames of all bands, frame by frame, and with the numbers
of samples its output rings were stuffed by. -/
structure CoreSession (canceller : EchoCanceller) where
  aec : AecCore canceller.recording
  outputs : List (List (List canceller.recording.Sample))
  stuffed : List Nat

namespace CoreSession

variable {canceller : EchoCanceller}

/-- A core that has been created and initialised. -/
def start
    (memory : AecCore canceller.recording)
    (sampFreq : Int) : Option (CoreSession canceller) :=
  memory.createAec.map fun created =>
    { aec := created.initAec sampFreq
      outputs := []
      stuffed := [] }

/-- A turn of the loop of `WebRtcAec_ProcessFrames`. -/
def processFrame
    (knownDelay : Int)
    (session : CoreSession canceller)
    (nearend : AecCore.BandFrames canceller.recording) :
    Option (CoreSession canceller) := do
  let (aec, out) ←
    AecCore.processFrame knownDelay session.aec nearend.1 nearend.2
  let missing ← session.aec.missingOutput knownDelay nearend
  some
    { aec := aec
      outputs := session.outputs ++ [out]
      stuffed := session.stuffed ++ [missing] }

/-- `WebRtcAec_ProcessFrames` -/
def processFrames
    (session : CoreSession canceller)
    (nearend : List (AecCore.BandFrames canceller.recording))
    (knownDelay : Int) : Option (CoreSession canceller) :=
  if nearend.all fun frames =>
      frames.2.length + 1 == session.aec.numBands then
    nearend.foldlM (processFrame knownDelay)
      { session with
        aec :=
          { session.aec with frameCount := session.aec.frameCount + 1 } }
  else
    none

/-- A call on the core. -/
def perform
    (session : CoreSession canceller) :
    CoreCall canceller → Option (CoreSession canceller)
  | .bufferFarend farend =>
      (session.aec.bufferFarendPartition farend).map fun aec =>
        { session with aec := aec }
  | .moveFarReadPtr elements =>
      (session.aec.moveFarReadPtr elements).map fun (aec, _) =>
        { session with aec := aec }
  | .setSystemDelay delay =>
      some { session with aec := session.aec.setSystemDelay delay }
  | .enableExtendedFilter enable =>
      some { session with aec := session.aec.enableExtendedFilter enable }
  | .enableDelayAgnostic enable =>
      some { session with
        aec := { session.aec with delayAgnosticEnabled := enable } }
  | .setConfig change =>
      some { session with
        aec :=
          { session.aec with
            signal :=
              (change session.aec.signal.1, session.aec.signal.2) } }
  | .processFrames nearend knownDelay =>
      session.processFrames nearend knownDelay

/-- Calls one after another, from the initialisation on. -/
def run
    (memory : AecCore canceller.recording)
    (sampFreq : Int)
    (calls : List (CoreCall canceller)) : Option (CoreSession canceller) :=
  (start memory sampFreq).bind fun session =>
    calls.foldlM perform session

/-- What a band has played, frame by frame. -/
def played
    (session : CoreSession canceller)
    (band : Nat) : List (List canceller.recording.Sample) :=
  session.outputs.map fun out => out.getD band []

/-- The frames of a session are those that `WebRtcAec_ProcessFrames` returns. -/
theorem processFrames_of_foldlM
    {session final : CoreSession canceller}
    {nearend : List (AecCore.BandFrames canceller.recording)}
    {knownDelay : Int}
    (processed :
      nearend.foldlM (processFrame knownDelay) session = some final) :
    ∃ outs,
      AecCore.processEach knownDelay nearend session.aec =
          some (final.aec, outs) ∧
        final.outputs = session.outputs ++ outs := by
  induction nearend generalizing session with
  | nil =>
      obtain rfl := Option.some.inj processed
      exact ⟨[], rfl, by simp⟩
  | cons first rest inductionHypothesis =>
      rw [List.foldlM_cons] at processed
      obtain ⟨next, isNext, isFinal⟩ :=
        Option.bind_eq_some_iff.mp processed
      obtain ⟨⟨aec, out⟩, isOut, isMissing⟩ :=
        Option.bind_eq_some_iff.mp isNext
      obtain ⟨missing, -, same⟩ := Option.bind_eq_some_iff.mp isMissing
      obtain rfl := Option.some.inj same
      obtain ⟨outs, areOuts, outputs⟩ := inductionHypothesis isFinal
      refine ⟨out :: outs, ?_, ?_⟩
      · rw [AecCore.processEach, isOut, Option.bind_eq_bind,
          Option.bind_some]
        dsimp only at areOuts ⊢
        rw [areOuts]
        rfl
      · rw [outputs, List.append_assoc]
        rfl

/-- A session after any number of frames: the near-end ring holds what is short of a
block, and the output rings are where they are after so many frames. -/
structure Running (session : CoreSession canceller) : Prop where
  ringed :
    session.aec.Ringed (OutputFrames.outPosition session.outputs.length)
  level :
    session.aec.low.nearFrBuf.availableRead =
      80 * session.outputs.length -
        64 * OutputFrames.blocksAfter session.outputs.length
  bands :
    session.outputs ≠ [] →
      ∀ band, band < session.aec.numBands → (session.aec.outRing band).isSome
  played :
    ∀ band,
      (session.aec.outRing band).isSome →
        OutputFrames.Played canceller.recording.zero
          (AecCore.bandBlocks session.aec.produced band)
          (session.played band) session.stuffed

namespace Running

variable {session next : CoreSession canceller}

theorem length_played (session : CoreSession canceller) (band : Nat) :
    (session.played band).length = session.outputs.length :=
  List.length_map _

/-- The blocks are those that are whole after so many frames. -/
theorem producedCount (running : session.Running) :
    session.aec.produced.length =
      OutputFrames.blocksAfter session.outputs.length := by
  have count := (running.played 0 rfl).blockCount
  rw [AecCore.bandBlocks, List.length_map, length_played] at count
  exact count

/-- A step at the far end keeps the account. -/
theorem of_farEndOnly
    {aec : AecCore canceller.recording}
    (running : session.Running)
    (step : AecCore.FarEndOnly session.aec aec) :
    ({ session with aec := aec } : CoreSession canceller).Running where
  ringed := running.ringed.of_farEndOnly step
  level := by
    dsimp only
    rw [step.low]
    exact running.level
  bands played band inBands := by
    dsimp only at inBands ⊢
    rw [step.outRing]
    rw [step.numBands] at inBands
    exact running.bands played band inBands
  played band isSome := by
    dsimp only at isSome ⊢
    rw [step.outRing] at isSome
    rw [step.produced]
    exact running.played band isSome

/-- A frame is buffered, and its blocks are processed. -/
theorem upToOutput
    {knownDelay : Int}
    {nearend : AecCore.BandFrames canceller.recording}
    {middle : AecCore canceller.recording}
    (running : session.Running)
    (processed :
      session.aec.upToOutput knownDelay nearend = some middle) :
    middle.Ringed (OutputFrames.outPosition session.outputs.length) ∧
      middle.numBands = session.aec.numBands ∧
        middle.low.nearFrBuf.availableRead =
            80 * (session.outputs.length + 1) -
              64 * OutputFrames.blocksAfter (session.outputs.length + 1) ∧
          (∃ more,
              middle.produced = session.aec.produced ++ more ∧
                middle.produced.length =
                  OutputFrames.blocksAfter (session.outputs.length + 1)) ∧
            ∀ band,
              (middle.outRing band).isSome =
                (session.aec.outRing band).isSome := by
  obtain ⟨stuffed, isStuffed, adjusts⟩ :=
    Option.bind_eq_some_iff.mp processed
  obtain ⟨adjusted, isAdjusted, processes⟩ :=
    Option.bind_eq_some_iff.mp adjusts
  obtain ⟨last, isLast, same⟩ := Option.bind_eq_some_iff.mp processes
  obtain rfl := Option.some.inj same
  let buffered : AecCore canceller.recording :=
    session.aec.bufferNear nearend.1 nearend.2
  have whole := OutputFrames.mul_blocksAfter_le session.outputs.length
  have short := OutputFrames.lt_mul_blocksAfter session.outputs.length
  rw [Nat.mul_succ] at short
  have fits :
      session.aec.low.nearFrBuf.availableRead + nearend.1.1.length ≤
        frameLen + partLen := by
    have frame : frameLen = 80 := rfl
    have part : partLen = 64 := rfl
    rw [running.level, nearend.1.2]
    omega
  obtain ⟨near, nearLevel⟩ :=
    running.ringed.near.writeBuffer_of_fits fits
  have bufferedRinged :
      buffered.Ringed
        (OutputFrames.outPosition session.outputs.length) := by
    refine ⟨near, ?_⟩
    intro band ring isRing
    rw [AecCore.outRing_bufferNear] at isRing
    exact running.ringed.rings band ring isRing
  have farEnd : AecCore.FarEndOnly buffered adjusted :=
    (AecCore.farEndOnly_stuffFarEnd isStuffed).trans
      (AecCore.farEndOnly_adjustFarEnd isAdjusted)
  have adjustedLevel :
      adjusted.low.nearFrBuf.availableRead =
        80 * (session.outputs.length + 1) -
          64 * OutputFrames.blocksAfter session.outputs.length := by
    have frame : frameLen = 80 := rfl
    rw [farEnd.low]
    refine nearLevel.trans ?_
    rw [running.level, nearend.1.2, Nat.mul_succ]
    omega
  have count :
      OutputFrames.blocksAfter session.outputs.length +
          adjusted.low.nearFrBuf.availableRead / partLen =
        OutputFrames.blocksAfter (session.outputs.length + 1) := by
    rw [adjustedLevel]
    exact OutputFrames.blocksAfter_succ _
  have adjustedProduced :
      adjusted.produced.length =
        OutputFrames.blocksAfter session.outputs.length := by
    rw [farEnd.produced]
    exact running.producedCount
  have room :
      partLen *
          (adjusted.produced.length +
            adjusted.low.nearFrBuf.availableRead / partLen) ≤
        OutputFrames.outPosition session.outputs.length := by
    rw [adjustedProduced, count]
    exact OutputFrames.mul_le_outPosition _
  obtain ⟨ringed, numBands, level, ⟨more, record, moreCount⟩, sameRings⟩ :=
    (bufferedRinged.of_farEndOnly farEnd).processBlocks room isLast
  refine ⟨⟨ringed.near, ringed.rings⟩, numBands.trans farEnd.numBands, ?_,
    ⟨more, ?_, ?_⟩, ?_⟩
  · refine level.trans ?_
    rw [adjustedLevel] at count ⊢
    rw [Nat.sub_sub, ← count, Nat.mul_add 64]
  · refine record.trans ?_
    rw [farEnd.produced]
    rfl
  · refine (congrArg List.length record).trans ?_
    rw [List.length_append, adjustedProduced, moreCount, count]
  · intro band
    refine (sameRings band).trans ?_
    rw [farEnd.outRing, AecCore.outRing_bufferNear]

/-- An output frame is read in every band. -/
theorem processFrame
    {knownDelay : Int}
    {nearend : AecCore.BandFrames canceller.recording}
    (running : session.Running)
    (processed :
      session.processFrame knownDelay nearend = some next) :
    next.Running ∧ next.outputs.length = session.outputs.length + 1 := by
  obtain ⟨⟨aec, out⟩, isOut, isMissing⟩ :=
    Option.bind_eq_some_iff.mp processed
  obtain ⟨missing, missed, same⟩ := Option.bind_eq_some_iff.mp isMissing
  obtain rfl := Option.some.inj same
  obtain ⟨middle, isMiddle, rfl⟩ := Option.map_eq_some_iff.mp missed
  rw [AecCore.processFrame_eq, isMiddle, Option.bind_some] at isOut
  obtain ⟨ringed, numBands, level, ⟨more, record, count⟩, sameRings⟩ :=
    running.upToOutput isMiddle
  obtain ⟨nextRinged, nextBands, nextNear, nextRecord, frames⟩ :=
    ringed.readOutput isOut
  have outputCount :
      (session.outputs ++ [out]).length = session.outputs.length + 1 :=
    List.length_append
  have lowCarries := ringed.rings 0 middle.low.outFrBuf rfl
  have available := lowCarries.availableRead_eq
  rw [AecCore.length_inRing_bandBlocks, count] at available
  refine ⟨⟨?_, ?_, ?_, ?_⟩, outputCount⟩
  · dsimp only
    rw [outputCount, ← OutputFrames.outPosition_succ, ← count]
    exact nextRinged
  · dsimp only
    rw [outputCount, nextNear]
    exact level
  · intro _ band inBands
    dsimp only at inBands ⊢
    rw [nextBands] at inBands
    rw [(frames band).1]
    exact AecCore.isSome_outRing_of_readOutput isOut band inBands
  · intro band isSome
    dsimp only at isSome ⊢
    rw [(frames band).1] at isSome
    have bandFrame := (frames band).2 isSome
    rw [sameRings] at isSome
    have playedOut :
        CoreSession.played
            { aec := aec
              outputs := session.outputs ++ [out]
              stuffed :=
                session.stuffed ++
                  [frameLen - middle.low.outFrBuf.availableRead] }
            band =
          session.played band ++
            [middle.bandFrame
              (OutputFrames.outPosition session.outputs.length) band] := by
      unfold CoreSession.played
      rw [List.map_append, List.map_singleton, List.getD, bandFrame]
      rfl
    have blocks :
        AecCore.bandBlocks middle.produced band =
          AecCore.bandBlocks session.aec.produced band ++
            AecCore.bandBlocks more band := by
      rw [record]
      exact List.map_append
    rw [nextRecord, playedOut, blocks]
    apply (running.played band isSome).append
    · intro block member
      obtain ⟨output, -, rfl⟩ := List.mem_map.mp member
      exact (output band).2
    · rw [← blocks, length_played, AecCore.bandBlocks, List.length_map,
        count]
    · rw [← blocks, length_played, ← count]
      rfl
    · rw [length_played, available]

/-- So are the frames of a call. -/
theorem foldlM
    {knownDelay : Int}
    {nearend : List (AecCore.BandFrames canceller.recording)}
    (running : session.Running)
    (processed :
      nearend.foldlM (CoreSession.processFrame knownDelay) session =
        some next) :
    next.Running ∧
      next.outputs.length = session.outputs.length + nearend.length := by
  induction nearend generalizing session with
  | nil =>
      obtain rfl := Option.some.inj processed
      exact ⟨running, rfl⟩
  | cons first rest inductionHypothesis =>
      rw [List.foldlM_cons] at processed
      obtain ⟨middle, isMiddle, isNext⟩ :=
        Option.bind_eq_some_iff.mp processed
      obtain ⟨middleRunning, middleCount⟩ := running.processFrame isMiddle
      obtain ⟨nextRunning, nextCount⟩ :=
        inductionHypothesis middleRunning isNext
      refine ⟨nextRunning, ?_⟩
      rw [nextCount, middleCount, List.length_cons]
      omega

/-- Every call keeps the account, and only `WebRtcAec_ProcessFrames` plays frames. -/
theorem perform
    {call : CoreCall canceller}
    (running : session.Running)
    (performed : session.perform call = some next) :
    next.Running ∧
      next.outputs.length = session.outputs.length + call.frames.length := by
  cases call with
  | bufferFarend farend =>
      obtain ⟨aec, isBuffered, rfl⟩ := Option.map_eq_some_iff.mp performed
      exact
        ⟨running.of_farEndOnly
          (AecCore.farEndOnly_bufferFarendPartition isBuffered), rfl⟩
  | moveFarReadPtr elements =>
      obtain ⟨⟨aec, moved⟩, isMoved, rfl⟩ :=
        Option.map_eq_some_iff.mp performed
      exact
        ⟨running.of_farEndOnly
          (AecCore.farEndOnly_moveFarReadPtr isMoved), rfl⟩
  | setSystemDelay delay =>
      obtain rfl := Option.some.inj performed
      exact ⟨running.of_farEndOnly ⟨⟨rfl, rfl, rfl⟩, rfl⟩, rfl⟩
  | enableExtendedFilter enable =>
      obtain rfl := Option.some.inj performed
      exact ⟨running.of_farEndOnly ⟨⟨rfl, rfl, rfl⟩, rfl⟩, rfl⟩
  | enableDelayAgnostic enable =>
      obtain rfl := Option.some.inj performed
      exact ⟨running.of_farEndOnly ⟨⟨rfl, rfl, rfl⟩, rfl⟩, rfl⟩
  | setConfig change =>
      obtain rfl := Option.some.inj performed
      exact ⟨running.of_farEndOnly ⟨⟨rfl, rfl, rfl⟩, rfl⟩, rfl⟩
  | processFrames nearend knownDelay =>
      change session.processFrames nearend knownDelay = some next at performed
      unfold CoreSession.processFrames at performed
      split at performed
      · have counted :
            AecCore.FarEndOnly session.aec
              { session.aec with
                frameCount := session.aec.frameCount + 1 } :=
          ⟨⟨rfl, rfl, rfl⟩, rfl⟩
        exact (running.of_farEndOnly counted).foldlM performed
      · cases performed

/-- Nothing has been played after the initialisation. -/
theorem of_start
    {memory : AecCore canceller.recording}
    {sampFreq : Int}
    (started : start memory sampFreq = some session) :
    session.Running ∧ session.outputs = [] := by
  obtain ⟨created, isCreated, rfl⟩ := Option.map_eq_some_iff.mp started
  have createdSized := AecCore.sized_createAec isCreated
  obtain ⟨sized, account⟩ := createdSized.initAec sampFreq
  have zeros
      (band : Band canceller.recording.Sample)
      (bandSized : band.Sized) :
      RingBuffer.Carries (frameLen + partLen)
        (band.init canceller.recording.zero).outFrBuf
        (OutputFrames.inRing canceller.recording.zero []) 144 := by
    obtain ⟨fifo, represents⟩ := bandSized.outFrBuf
    have carries :=
      RingBuffer.carries_initBuffer canceller.recording.zero (by decide)
        represents.count
    rw [OutputFrames.inRing, List.append_nil]
    exact carries
  refine ⟨⟨⟨sized.low.nearFrBuf, ?_⟩, ?_, ?_, ?_⟩, rfl⟩
  · intro band ring isRing
    cases band with
    | zero =>
        obtain rfl := Option.some.inj isRing
        exact zeros created.low createdSized.low
    | succ index =>
        obtain ⟨-, band, isBand, rfl⟩ :=
          AecCore.exists_band_of_outRing isRing
        obtain ⟨before, isBefore, rfl⟩ :=
          Option.map_eq_some_iff.mp
            ((List.getElem?_map ..).symm.trans isBand)
        exact
          zeros before
            (createdSized.high before (List.mem_of_getElem? isBefore))
  · have nearEmpty :
        (created.initAec sampFreq).low.nearFrBuf.availableRead = 0 :=
      Int.ofNat.inj (congrArg Account.near account)
    dsimp only
    rw [nearEmpty, List.length_nil, OutputFrames.blocksAfter_zero]
  · intro notEmpty
    exact absurd rfl notEmpty
  · intro band _
    exact .nil

/-- In a run the frames that are played are those of its calls. -/
theorem of_run
    {memory : AecCore canceller.recording}
    {sampFreq : Int}
    {calls : List (CoreCall canceller)}
    (performed : run memory sampFreq calls = some next) :
    next.Running ∧
      next.outputs.length = (calls.flatMap CoreCall.frames).length := by
  obtain ⟨session, started, follows⟩ :=
    Option.bind_eq_some_iff.mp performed
  obtain ⟨running, noOutputs⟩ := of_start started
  suffices
      ∀ (calls : List (CoreCall canceller)) (session : CoreSession canceller),
        session.Running →
          calls.foldlM CoreSession.perform session = some next →
            next.Running ∧
              next.outputs.length =
                session.outputs.length +
                  (calls.flatMap CoreCall.frames).length by
    have result := this calls session running follows
    rwa [noOutputs, List.length_nil, Nat.zero_add] at result
  intro calls
  induction calls with
  | nil =>
      intro session running follows
      obtain rfl := Option.some.inj follows
      exact ⟨running, rfl⟩
  | cons call rest inductionHypothesis =>
      intro session running follows
      rw [List.foldlM_cons] at follows
      obtain ⟨middle, isMiddle, isNext⟩ :=
        Option.bind_eq_some_iff.mp follows
      obtain ⟨middleRunning, middleCount⟩ := running.perform isMiddle
      obtain ⟨nextRunning, nextCount⟩ :=
        inductionHypothesis middle middleRunning isNext
      refine ⟨nextRunning, ?_⟩
      rw [nextCount, middleCount, List.flatMap_cons, List.length_append]
      omega

/-- Every band plays from its own blocks. -/
theorem played_of_lt
    {band : Nat}
    (running : session.Running)
    (inBands : band < session.aec.numBands) :
    OutputFrames.Played canceller.recording.zero
      (AecCore.bandBlocks session.aec.produced band)
      (session.played band) session.stuffed := by
  by_cases noOutputs : session.outputs = []
  · -- Without a frame there are no blocks either.
    have blockCount := running.producedCount
    rw [noOutputs, List.length_nil, OutputFrames.blocksAfter_zero]
      at blockCount
    have noBlocks := List.eq_nil_of_length_eq_zero blockCount
    have stuffedCount := (running.played 0 rfl).stuffedCount
    rw [length_played, noOutputs, List.length_nil] at stuffedCount
    have noStuffed := List.eq_nil_of_length_eq_zero stuffedCount
    rw [noStuffed, CoreSession.played, noOutputs, noBlocks]
    exact .nil
  · exact running.played band (running.bands noOutputs band inBands)

end Running

end CoreSession

/-- A block of numbers that count up over the blocks. -/
def countedBlock (blocks : Nat) : Block Nat :=
  ⟨(List.range partLen).map fun index => partLen * blocks + index + 1,
    by simp⟩

/-- A canceller whose output counts up. -/
def counting : EchoCanceller where
  Sample := Nat
  zero := 0
  interpolate _ sample _ := sample
  android := true
  float := ⟨.exact, .exact⟩
  State := Nat
  init _ := 0
  processBlock blocks _ _ _ _ := (blocks + 1, fun _ => countedBlock blocks)
  lastDelay _ := 0
  lastDelay_lt _ := by decide
  lastDelayQuality _ := 1
  softReset state _ := state
  setAllowedOffset state _ := state
  SkewData := Unit
  newSkewData := ()
  getSkew data _ _ := (data, some 0)

/-- The same for the fixed-point canceller. -/
def countingCore : Aecm.SpectralCore where
  State := Nat
  init _ := 0
  setCngMode state _ := state
  setEchoMode state _ := state
  process blocks _ _ _ :=
    (blocks + 1,
      ⟨(countedBlock blocks).1.map Int16.ofNat, by
        rw [List.length_map]
        exact (countedBlock blocks).2⟩)

/-- Silent near-end frames of two bands in one call. -/
def silentFrames (count : Nat) : CoreCall counting :=
  let silence : Frame Nat :=
    ⟨List.replicate frameLen 0, List.length_replicate⟩
  .processFrames (List.replicate count (silence, [silence])) 0

/-- Silent frames of the fixed-point canceller. -/
def silentMobileFrames (count : Nat) : List Aecm.Frame :=
  List.replicate count
    ⟨Aecm.Samples.zeros frameLen, Aecm.Samples.zeros frameLen, none⟩

/-- Memory of the fixed-point canceller. -/
def countingMemory : Aecm.AecMobile countingCore.blockProcessor :=
  { Aecm.silentMemory with
    aecmCore :=
      { Aecm.silentMemory.aecmCore with
        block := countingCore.blockProcessor.init 0 } }

/--
In every run of either canceller the output frames of every band are the blocks of the
band behind a fixed run of zeros, with the output ring stuffed for the first frame
alone, if and only if at most one frame is processed.
-/
theorem outputs_seamless_iff_atMostOneFrame
    {canceller : EchoCanceller}
    {core : Aecm.SpectralCore}
    {memory : AecCore canceller.recording}
    {sampFreq : Int}
    {calls : List (CoreCall canceller)}
    {session : CoreSession canceller}
    {mobileMemory : Aecm.AecMobile core.blockProcessor}
    {samplingFreq : Int}
    {frames : List Aecm.Frame}
    {mobile : Aecm.Session core}
    (performed : CoreSession.run memory sampFreq calls = some session)
    (mobilePerformed :
      Aecm.Session.run mobileMemory samplingFreq frames = some mobile) :
    (∀ band,
        band < session.aec.numBands →
          (OutputFrames.Seamless canceller.recording.zero
              (AecCore.bandBlocks session.aec.produced band)
              (session.played band) session.stuffed ↔
            (calls.flatMap CoreCall.frames).length ≤ 1)) ∧
      (OutputFrames.Seamless 0 (mobile.handed.map fun block => block.out.1)
          (mobile.outputs.map fun out => out.1) mobile.stuffed ↔
        frames.length ≤ 1) := by
  constructor
  · intro band inBands
    obtain ⟨running, count⟩ := CoreSession.Running.of_run performed
    rw [(running.played_of_lt inBands).seamless_iff,
      CoreSession.Running.length_played, count]
  · obtain ⟨running, sameFrames⟩ :=
      Aecm.Session.running_of_run mobilePerformed
    rw [running.played.seamless_iff, List.length_map, running.outputCount,
      sameFrames]

/-- A single frame of two bands, and one of the fixed-point canceller. -/
theorem outputs_seamless_oneFrame :
    ∃ (session : CoreSession counting) (mobile : Aecm.Session countingCore),
      CoreSession.run (Aec.zeroMemory counting.recording).aec 32000
            [silentFrames 1] =
          some session ∧
        Aecm.Session.run countingMemory 16000 (silentMobileFrames 1) =
            some mobile ∧
          session.aec.numBands = 2 ∧
            (∀ band,
                band < 2 →
                  OutputFrames.Seamless counting.recording.zero
                    (AecCore.bandBlocks session.aec.produced band)
                    (session.played band) session.stuffed) ∧
              OutputFrames.Seamless 0
                (mobile.handed.map fun block => block.out.1)
                (mobile.outputs.map fun out => out.1) mobile.stuffed := by
  have performs :
      (CoreSession.run (Aec.zeroMemory counting.recording).aec 32000
          [silentFrames 1]).map (fun session => session.aec.numBands) =
        some 2 := by
    decide +kernel
  have mobilePerforms :
      (Aecm.Session.run countingMemory 16000
        (silentMobileFrames 1)).isSome := by
    decide +kernel
  obtain ⟨session, performed, bands⟩ := Option.map_eq_some_iff.mp performs
  obtain ⟨mobile, mobilePerformed⟩ :=
    Option.isSome_iff_exists.mp mobilePerforms
  obtain ⟨seamless, mobileSeamless⟩ :=
    outputs_seamless_iff_atMostOneFrame performed mobilePerformed
  rw [bands] at seamless
  exact
    ⟨session, mobile, performed, mobilePerformed, bands,
      fun band inBands => (seamless band inBands).mpr (by decide),
      mobileSeamless.mpr (by decide)⟩

/-- The samples that the low band has played. -/
def lowPlayed (session : CoreSession counting) : List Nat :=
  (session.played 0).flatten

/-- The samples of the blocks of the low band. -/
def lowBlocks (session : CoreSession counting) : List Nat :=
  (AecCore.bandBlocks session.aec.produced 0).flatten

/-- Numbers that count up, of which the 64th is followed by the 49th again, are not the
numbers from 1 to 128 behind any run of zeros. -/
theorem not_counted_of_repeated
    {played : List Nat}
    (last : played[79]? = some 64)
    (next : played[80]? = some 49) :
    ¬ ∃ leading,
      played =
        (List.replicate leading 0 ++ (List.range 128).map (· + 1)).take
          played.length := by
  rintro ⟨leading, same⟩
  have inPlayed := (List.getElem?_eq_some_iff.mp next).1
  rw [same, List.getElem?_take_of_lt (by omega)] at last
  rw [same, List.getElem?_take_of_lt (by omega)] at next
  by_cases inZeros : 79 < leading
  · rw [List.getElem?_append_left (by rw [List.length_replicate]; exact inZeros),
      List.getElem?_replicate, if_pos inZeros] at last
    cases last
  · rw [List.getElem?_append_right (by rw [List.length_replicate]; omega),
      List.length_replicate, List.getElem?_map, List.getElem?_range (by omega)]
      at last
    have leadingIs : leading = 16 := by
      have counted : 79 - leading + 1 = 64 := Option.some.inj last
      omega
    rw [leadingIs] at next
    revert next
    decide

/-- The second frame begins with the last 16 samples of the first, in either
canceller. -/
theorem not_outputs_seamless_twoFrames :
    ∃ (session : CoreSession counting) (mobile : Aecm.Session countingCore),
      CoreSession.run (Aec.zeroMemory counting.recording).aec 32000
            [silentFrames 2] =
          some session ∧
        Aecm.Session.run countingMemory 16000 (silentMobileFrames 2) =
            some mobile ∧
          session.stuffed = [16, 16] ∧
            mobile.stuffed = [16, 16] ∧
              (¬ ∃ leading,
                (session.played 0).flatten =
                  (List.replicate leading counting.recording.zero ++
                      (AecCore.bandBlocks session.aec.produced
                        0).flatten).take
                    (session.played 0).flatten.length) ∧
                (¬ ∀ band,
                  band < session.aec.numBands →
                    OutputFrames.Seamless counting.recording.zero
                      (AecCore.bandBlocks session.aec.produced band)
                      (session.played band) session.stuffed) ∧
                  ¬ OutputFrames.Seamless 0
                    (mobile.handed.map fun block => block.out.1)
                    (mobile.outputs.map fun out => out.1)
                    mobile.stuffed := by
  have performs :
      (CoreSession.run (Aec.zeroMemory counting.recording).aec 32000
          [silentFrames 2]).map (fun session =>
            (session.stuffed, lowPlayed session, lowBlocks session,
              session.aec.numBands)) =
        some
          ([16, 16],
            List.replicate 16 0 ++ (List.range 64).map (· + 1) ++
              (List.range' 48 16).map (· + 1) ++
                (List.range' 64 64).map (· + 1),
            (List.range 128).map (· + 1), 2) := by
    decide +kernel
  have mobilePerforms :
      (Aecm.Session.run countingMemory 16000
          (silentMobileFrames 2)).map (fun mobile => mobile.stuffed) =
        some [16, 16] := by
    decide +kernel
  obtain ⟨session, performed, evaluated⟩ :=
    Option.map_eq_some_iff.mp performs
  obtain ⟨mobile, mobilePerformed, mobileStuffed⟩ :=
    Option.map_eq_some_iff.mp mobilePerforms
  obtain ⟨stuffed, later⟩ := Prod.mk.inj evaluated
  obtain ⟨isPlayed, blocksAndBands⟩ := Prod.mk.inj later
  obtain ⟨blocks, bands⟩ := Prod.mk.inj blocksAndBands
  have repeats :
      ¬ ∃ leading,
        lowPlayed session =
          (List.replicate leading 0 ++ lowBlocks session).take
            (lowPlayed session).length := by
    rw [blocks]
    apply not_counted_of_repeated
    · rw [isPlayed]
      decide
    · rw [isPlayed]
      decide
  refine
    ⟨session, mobile, performed, mobilePerformed, stuffed, mobileStuffed,
      repeats, ?_, ?_⟩
  · intro seamless
    exact repeats (seamless 0 (by rw [bands]; decide)).1
  · rintro ⟨-, once⟩
    rw [mobileStuffed] at once
    exact absurd (once 16 (by decide)) (by decide)

end ApmSdk.Echo
