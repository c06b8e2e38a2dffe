import ApmSdk.AecMobileRuns
import ApmSdk.RingStream

namespace ApmSdk.Aecm

/-!
# The known delay of the mobile echo canceller

`WebRtcAecm_EstBufDelay` determines a known delay in the wrapper.  The core has a known
delay of its own, by which `WebRtcAecm_FetchFarFrame` reads back in the far-end
history.  Here every near-end frame that is processed is put on record with the two
delays and the far-end frames before and after the fetch.
-/

variable {processor : BlockProcessor}

/-- A processed near-end frame: its number in the call, the instance that its delay
estimate finds, the far-end frame given to the core, the one that is fetched for it,
the delay it is fetched with, and the delay that the estimate has left. -/
structure Pairing (processor : BlockProcessor) where
  i : Nat
  found : AecMobile processor
  fed : Samples frameLen
  fetched : Samples frameLen
  delay : Int
  knownDelay : Int

namespace AecMobile

/-- `WebRtcAecm_EstBufDelay` is called for the frame `i`. -/
def Estimates
    (aecm : AecMobile processor)
    (i : Nat) : Prop :=
  i = 0 ∧ aecm.sampFreq = 8000 ∨ i = 1 ∧ aecm.sampFreq = 16000

/-- It takes the branch that sets the known delay: the filtered delay has been out of
range for more than 25 estimates. -/
def SetsDelay
    (aecm : AecMobile processor)
    (i : Nat) : Prop :=
  aecm.Estimates i ∧
    ∃ measured,
      aecm.measureDelay aecm.msInSndCardBuf = some measured ∧
        25 <
          (aecm.filterDelay measured.1 measured.2).timeForDelayChange

/-- What the frame `i` is paired with. -/
def pairingAt
    (aecm : AecMobile processor)
    (i : Nat) : Option (Pairing processor) := do
  let (found, farend) ← aecm.nextFarend i
  let estimated ← found.estimateAt i
  let buffered ← estimated.aecmCore.bufferFarFrame farend
  let (_, fetched) ← buffered.fetchFarFrame buffered.knownDelay
  some
    { i := i
      found := found
      fed := farend
      fetched := fetched
      delay := buffered.knownDelay
      knownDelay := estimated.knownDelay }

/-- The same for the frames of a call from frame `i` on. -/
def pairings
    (nearendNoisy : List Short)
    (nearendClean : Option (List Short)) :
    Nat →
    Nat →
    AecMobile processor →
    Option (List (Pairing processor))
  | 0, _, _ => some []
  | frames + 1, i, aecm => do
      let pairing ← aecm.pairingAt i
      let (next, out) ← aecm.processNth nearendNoisy nearendClean i
      match out with
      | none => some [pairing]
      | some _ =>
          (pairings nearendNoisy nearendClean frames (i + 1) next).map
            (pairing :: ·)

/-- The frames that a call processes: those of a near-end call that is accepted after
the start-up phase. -/
def pairingsOf
    (aecm : AecMobile processor) :
    Call → Option (List (Pairing processor))
  | .process nearendNoisy nearendClean outIsNull nrOfSamples ms =>
      if aecm.processError nearendNoisy outIsNull nrOfSamples ≠ 0 then
        some []
      else if aecm.ecStartup then
        some []
      else
        pairings (nearendNoisy.getD []) nearendClean
          (nrOfSamples / frameLen) 0
          { aecm with msInSndCardBuf := (clipDelay ms).1 }
  | _ => some []

/-- The frames that calls process one after another. -/
def pairingsOfAll
    (aecm : AecMobile processor) :
    List Call → Option (List (Pairing processor))
  | [] => some []
  | call :: calls => do
      let pairings ← aecm.pairingsOf call
      let (next, _) ← aecm.perform call
      let later ← next.pairingsOfAll calls
      some (pairings ++ later)

end AecMobile

namespace Pairing

/-- The far-end frame is fetched with the known delay, the history reaches back that
far, and what is fetched is the stream of the frames fed to the core so much
earlier. -/
def Delayed
    (paired : List (Pairing processor))
    (number : Nat)
    (pairing : Pairing processor) : Prop :=
  pairing.delay = pairing.knownDelay ∧
    0 ≤ pairing.knownDelay ∧
      pairing.knownDelay + frameLen ≤ farBufLen ∧
        ∀ index < frameLen,
          ∀ position : Nat,
            position + pairing.knownDelay = frameLen * number + index →
              pairing.fetched.1[index]? =
                (paired.flatMap fun earlier => earlier.fed.1)[position]?

/-- The frame is paired with the far-end frame just fed, and the estimate has left no
delay. -/
structure Undelayed (pairing : Pairing processor) : Prop where
  fetched : pairing.fetched = pairing.fed
  delay : pairing.delay = 0
  knownDelay : pairing.knownDelay = 0

/-- Where there is no known delay, being paired with the frame just fed is right. -/
theorem Undelayed.delayed
    {paired : List (Pairing processor)}
    {number : Nat}
    {pairing : Pairing processor}
    (undelayed : pairing.Undelayed)
    (isPairing : paired[number]? = some pairing) :
    pairing.Delayed paired number := by
  refine ⟨undelayed.delay.trans undelayed.knownDelay.symm, ?_, ?_, ?_⟩
  · exact Int.le_of_eq undelayed.knownDelay.symm
  · rw [undelayed.knownDelay]
    decide
  · intro index inFrame position isPosition
    rw [undelayed.knownDelay] at isPosition
    obtain rfl : position = frameLen * number + index := by
      omega
    have part :
        window (paired.flatMap fun earlier => earlier.fed.1)
            (frameLen * number) frameLen =
          pairing.fed.1 :=
      window_flatMap (fun earlier : Pairing processor => earlier.fed.2)
        isPairing
    rw [undelayed.fetched, ← part, getElem?_window inFrame]

end Pairing

namespace AecMobile

/-- An instance without a known delay, in the wrapper and in the core. -/
structure NoDelay (aecm : AecMobile processor) : Prop where
  inStep : aecm.aecmCore.InStep
  knownDelay : aecm.knownDelay = 0

theorem toShort_idem (value : Int) :
    toShort (toShort value) = toShort value :=
  Int.bmod_bmod

/-- From no delay, the branch that sets the known delay sets one. -/
theorem knownDelay_filterDelay
    {aecm : AecMobile processor}
    (noDelay : aecm.knownDelay = 0)
    (farendBuf : RingBuffer Short)
    (delayNew : Int) :
    (aecm.filterDelay farendBuf delayNew).knownDelay = 0 ↔
      ¬ 25 <
        (aecm.filterDelay farendBuf delayNew).timeForDelayChange := by
  simp only [filterDelay, noDelay, Int.sub_zero, toShort_idem,
    Int.lt_irrefl, and_false, if_false]
  generalize toShort (max 0 ((8 * aecm.filtDelay + 2 * delayNew).tdiv 10)) =
    filtDelay
  constructor
  · intro zero late
    rw [if_pos late] at zero
    split at late
    next large =>
        omega
    next =>
        omega
  · intro early
    rw [if_neg early]

/-- Taking a far-end frame leaves the known delay and the rate. -/
theorem knownDelay_of_nextFarend
    {aecm next : AecMobile processor}
    {i : Nat}
    {farend : Samples frameLen}
    (taken : aecm.nextFarend i = some (next, farend)) :
    next.knownDelay = aecm.knownDelay := by
  simp only [nextFarend] at taken
  split at taken
  · simp only [Option.bind_eq_bind, Option.bind_eq_some_iff,
      Option.some.injEq, Prod.mk.injEq] at taken
    obtain ⟨-, -, -, -, rfl, -⟩ := taken
    rfl
  · simp only [Option.some.injEq, Prod.mk.injEq] at taken
    obtain ⟨rfl, -⟩ := taken
    rfl

/-- From no delay, the estimate leaves none exactly where it does not take the branch
that sets it. -/
theorem knownDelay_of_estimateAt
    {aecm next : AecMobile processor}
    {i : Nat}
    (noDelay : aecm.knownDelay = 0)
    (estimated : aecm.estimateAt i = some next) :
    next.aecmCore = aecm.aecmCore ∧
      (next.knownDelay = 0 ↔ ¬ aecm.SetsDelay i) := by
  unfold estimateAt at estimated
  split at estimated
  next estimates =>
      unfold estBufDelay at estimated
      obtain ⟨measured, isMeasured, rfl⟩ :=
        Option.map_eq_some_iff.mp estimated
      refine ⟨rfl, ?_⟩
      rw [knownDelay_filterDelay noDelay, not_iff_not]
      constructor
      · intro late
        exact ⟨estimates, measured, isMeasured, late⟩
      · rintro ⟨-, other, isOther, late⟩
        obtain rfl := Option.some.inj (isMeasured.symm.trans isOther)
        exact late
  next idle =>
      obtain rfl := Option.some.inj estimated
      refine ⟨rfl, fun _ sets => idle sets.1, fun _ => noDelay⟩

/-- Buffering a far-end frame leaves the known delay of the core. -/
theorem knownDelay_of_bufferFarFrame
    {core next : AecmCore processor}
    {farend : Samples frameLen}
    (buffered : core.bufferFarFrame farend = some next) :
    next.knownDelay = core.knownDelay := by
  unfold AecmCore.bufferFarFrame at buffered
  split at buffered <;>
    simp only [Option.bind_eq_bind, Option.bind_eq_some_iff,
      Option.some.injEq] at buffered
  · obtain ⟨-, -, -, -, rfl⟩ := buffered
    rfl
  · obtain ⟨-, -, rfl⟩ := buffered
    rfl

/-- A frame is paired with the one just fed; that is right exactly where the estimate
does not set the delay, and then there still is none. -/
theorem NoDelay.pairingAt
    {aecm : AecMobile processor}
    {i : Nat}
    {pairing : Pairing processor}
    (noDelay : aecm.NoDelay)
    (isPairing : aecm.pairingAt i = some pairing) :
    (pairing.delay = pairing.knownDelay ↔
        ¬ pairing.found.SetsDelay pairing.i) ∧
      (¬ pairing.found.SetsDelay pairing.i → pairing.Undelayed) := by
  simp only [AecMobile.pairingAt, Option.bind_eq_bind,
    Option.bind_eq_some_iff] at isPairing
  obtain ⟨⟨found, farend⟩, isFound, estimated, isEstimated, buffered,
    isBuffered, ⟨after, fetched⟩, isFetched, same⟩ := isPairing
  obtain rfl := Option.some.inj same
  have foundNoDelay : found.knownDelay = 0 :=
    (knownDelay_of_nextFarend isFound).trans noDelay.knownDelay
  obtain ⟨sameCore, decided⟩ :=
    knownDelay_of_estimateAt foundNoDelay isEstimated
  have inStep : estimated.aecmCore.InStep := by
    rw [sameCore, (nextFarend_frame isFound).2.2]
    exact noDelay.inStep
  obtain ⟨other, farBuf, isOther, fetches⟩ :=
    AecmCore.fetch_buffered inStep farend
  obtain rfl := Option.some.inj (isBuffered.symm.trans isOther)
  obtain ⟨-, rfl⟩ :=
    Prod.mk.inj (Option.some.inj (isFetched.symm.trans fetches))
  have delay : buffered.knownDelay = 0 :=
    (knownDelay_of_bufferFarFrame isBuffered).trans inStep.knownDelay
  refine ⟨?_, fun stays => ⟨rfl, delay, decided.mpr stays⟩⟩
  rw [← decided]
  dsimp only
  rw [delay, eq_comm]

/-- Without a delay set, a processed frame leaves none. -/
theorem NoDelay.processNth
    {aecm next : AecMobile processor}
    {nearendNoisy : List Short}
    {nearendClean : Option (List Short)}
    {i : Nat}
    {out : Option (Samples frameLen)}
    {pairing : Pairing processor}
    (noDelay : aecm.NoDelay)
    (processed :
      aecm.processNth nearendNoisy nearendClean i = some (next, out))
    (isPairing : aecm.pairingAt i = some pairing)
    (stays : ¬ pairing.found.SetsDelay pairing.i) :
    next.NoDelay := by
  have undelayed := (noDelay.pairingAt isPairing).2 stays
  simp only [AecMobile.pairingAt, Option.bind_eq_bind,
    Option.bind_eq_some_iff] at isPairing
  obtain ⟨⟨found, farend⟩, isFound, estimated, isEstimated, _, _, _, _,
    same⟩ := isPairing
  obtain rfl := Option.some.inj same
  simp only [AecMobile.processNth, AecMobile.takeFarend, isFound,
    isEstimated, Option.bind_eq_bind, Option.bind_some,
    Option.bind_eq_some_iff] at processed
  obtain ⟨_, _, _, _, ⟨core, frame⟩, isCore, same⟩ := processed
  obtain ⟨rfl, -⟩ := Prod.mk.inj (Option.some.inj same)
  have foundNoDelay : found.knownDelay = 0 :=
    (knownDelay_of_nextFarend isFound).trans noDelay.knownDelay
  have inStep : estimated.aecmCore.InStep := by
    rw [(knownDelay_of_estimateAt foundNoDelay isEstimated).1,
      (nextFarend_frame isFound).2.2]
    exact noDelay.inStep
  exact
    { inStep :=
        (AecmCore.processFrame_otherFar inStep isCore
          (Samples.zeros farBufLen)).1
      knownDelay := undelayed.knownDelay }

/-- The frames of a part of a run are fetched with the known delay exactly where no
estimate sets it; then they are undelayed, and so is what follows. -/
def Decided
    (paired : List (Pairing processor))
    (next : AecMobile processor) : Prop :=
  ((∀ pairing ∈ paired, pairing.delay = pairing.knownDelay) ↔
      ∀ pairing ∈ paired, ¬ pairing.found.SetsDelay pairing.i) ∧
    ((∀ pairing ∈ paired, ¬ pairing.found.SetsDelay pairing.i) →
      (∀ pairing ∈ paired, pairing.Undelayed) ∧ next.NoDelay)

/-- A part without frames. -/
theorem NoDelay.decided_nil
    {next : AecMobile processor}
    (noDelay : next.NoDelay) :
    Decided [] next :=
  ⟨by simp, fun _ => ⟨by simp, noDelay⟩⟩

/-- Two parts, one after the other. -/
theorem Decided.append
    {first later : List (Pairing processor)}
    {middle next : AecMobile processor}
    (firstDecided : Decided first middle)
    (laterDecided : middle.NoDelay → Decided later next) :
    Decided (first ++ later) next := by
  obtain ⟨firstIff, firstStays⟩ := firstDecided
  unfold Decided
  simp only [List.forall_mem_append]
  refine ⟨⟨?_, ?_⟩, ?_⟩
  · rintro ⟨firstDelays, laterDelays⟩
    have stays := firstIff.mp firstDelays
    obtain ⟨-, middleNoDelay⟩ := firstStays stays
    exact ⟨stays, (laterDecided middleNoDelay).1.mp laterDelays⟩
  · rintro ⟨stays, laterStays⟩
    obtain ⟨-, middleNoDelay⟩ := firstStays stays
    exact ⟨firstIff.mpr stays,
      (laterDecided middleNoDelay).1.mpr laterStays⟩
  · rintro ⟨stays, laterStays⟩
    obtain ⟨undelayed, middleNoDelay⟩ := firstStays stays
    obtain ⟨laterUndelayed, nextNoDelay⟩ :=
      (laterDecided middleNoDelay).2 laterStays
    exact ⟨⟨undelayed, laterUndelayed⟩, nextNoDelay⟩

/-- One frame. -/
theorem NoDelay.decided_single
    {aecm next : AecMobile processor}
    {nearendNoisy : List Short}
    {nearendClean : Option (List Short)}
    {i : Nat}
    {out : Option (Samples frameLen)}
    {pairing : Pairing processor}
    (noDelay : aecm.NoDelay)
    (processed :
      aecm.processNth nearendNoisy nearendClean i = some (next, out))
    (isPairing : aecm.pairingAt i = some pairing) :
    Decided [pairing] next := by
  obtain ⟨decided, undelayed⟩ := noDelay.pairingAt isPairing
  unfold Decided
  simp only [List.forall_mem_singleton]
  exact ⟨decided, fun stays =>
    ⟨undelayed stays, noDelay.processNth processed isPairing stays⟩⟩

/-- The frames of a call. -/
theorem NoDelay.pairings
    {aecm next : AecMobile processor}
    {nearendNoisy : List Short}
    {nearendClean : Option (List Short)}
    {frames i : Nat}
    {result : List Short × Bool}
    {paired : List (Pairing processor)}
    (noDelay : aecm.NoDelay)
    (processed :
      AecMobile.processFrames nearendNoisy nearendClean frames i aecm =
        some (next, result))
    (isPaired :
      AecMobile.pairings nearendNoisy nearendClean frames i aecm =
        some paired) :
    Decided paired next := by
  induction frames generalizing aecm i result paired with
  | zero =>
      obtain ⟨rfl, -⟩ := Prod.mk.inj (Option.some.inj processed)
      obtain rfl := Option.some.inj isPaired
      exact noDelay.decided_nil
  | succ frames inductionHypothesis =>
      simp only [AecMobile.pairings, Option.bind_eq_bind,
        Option.bind_eq_some_iff] at isPaired
      obtain ⟨pairing, isPairing, ⟨middle, out⟩, isMiddle, isRest⟩ :=
        isPaired
      simp only [AecMobile.processFrames, isMiddle, Option.bind_eq_bind,
        Option.bind_some] at processed
      have first := noDelay.decided_single isMiddle isPairing
      cases out with
      | none =>
          obtain ⟨rfl, -⟩ := Prod.mk.inj (Option.some.inj processed)
          obtain rfl := Option.some.inj isRest
          exact first
      | some out =>
          obtain ⟨⟨last, later⟩, isLast, same⟩ :=
            Option.map_eq_some_iff.mp processed
          obtain ⟨rfl, -⟩ := Prod.mk.inj same
          obtain ⟨rest, restPaired, rfl⟩ :=
            Option.map_eq_some_iff.mp isRest
          exact first.append fun middleNoDelay =>
            inductionHypothesis middleNoDelay isLast restPaired

/-- An instance that is initialised has no delay. -/
theorem noDelay_init
    (aecm : AecMobile processor)
    {sampFreq : Int}
    (supported : sampFreq = 8000 ∨ sampFreq = 16000) :
    (aecm.init sampFreq).1.NoDelay := by
  rw [init_of_supported aecm supported]
  exact
    { inStep := ⟨rfl, rfl, rfl, Nat.zero_le _⟩
      knownDelay := rfl }

/-- A configuration leaves the known delay. -/
theorem NoDelay.setConfig
    {aecm : AecMobile processor}
    (noDelay : aecm.NoDelay)
    (cngMode echoMode : Int) :
    (aecm.setConfig cngMode echoMode).1.NoDelay := by
  have configured (state : processor.State) (mode : Int) :
      NoDelay
        { aecm with
          echoMode := mode
          aecmCore := { aecm.aecmCore with block := state } } :=
    { inStep := ⟨noDelay.inStep.knownDelay, noDelay.inStep.lastKnownDelay,
        noDelay.inStep.samePosition, noDelay.inStep.inRange⟩
      knownDelay := noDelay.knownDelay }
  unfold AecMobile.setConfig
  split
  · exact noDelay
  split
  · exact noDelay
  dsimp only
  split
  · exact configured _ _
  · exact configured _ _

/-- A far-end call leaves the known delay. -/
theorem NoDelay.bufferFarend
    {aecm next : AecMobile processor}
    {farend : Option (List Short)}
    {nrOfSamples : Nat}
    {answer : Answer}
    (noDelay : aecm.NoDelay)
    (buffered :
      aecm.bufferFarend farend nrOfSamples = some (next, answer)) :
    next.NoDelay := by
  have compensated
      {compensated : AecMobile processor}
      (isCompensated : aecm.delayComp = some compensated) :
      compensated.NoDelay := by
    unfold delayComp at isCompensated
    dsimp only at isCompensated
    split at isCompensated
    · obtain ⟨moved, -, rfl⟩ := Option.map_eq_some_iff.mp isCompensated
      exact ⟨noDelay.inStep, noDelay.knownDelay⟩
    · obtain rfl := Option.some.inj isCompensated
      exact noDelay
  unfold AecMobile.bufferFarend at buffered
  dsimp only at buffered
  split at buffered
  · obtain ⟨rfl, -⟩ := Prod.mk.inj (Option.some.inj buffered)
    exact noDelay
  split at buffered
  · obtain ⟨middle, isMiddle, same⟩ :=
      Option.bind_eq_some_iff.mp buffered
    obtain ⟨rfl, -⟩ := Prod.mk.inj (Option.some.inj same)
    have middleNoDelay := compensated isMiddle
    exact ⟨middleNoDelay.inStep, middleNoDelay.knownDelay⟩
  · obtain ⟨rfl, -⟩ := Prod.mk.inj (Option.some.inj buffered)
    exact ⟨noDelay.inStep, noDelay.knownDelay⟩

/-- The start-up phase leaves the known delay. -/
theorem knownDelay_of_startUp
    {aecm next : AecMobile processor}
    {nBlocks10ms : Int}
    (started : aecm.startUp nBlocks10ms = some next) :
    next.knownDelay = aecm.knownDelay :=
  startUp_keeps (·.knownDelay)
    (checkSoundCard_keeps (·.knownDelay) (fun _ => rfl) fun _ _ => rfl)
    (fun _ => rfl) (fun _ _ _ _ => rfl) started

/-- A call. -/
theorem NoDelay.pairingsOf
    {aecm next : AecMobile processor}
    {call : Call}
    {answer : Answer}
    {paired : List (Pairing processor)}
    (noDelay : aecm.NoDelay)
    (performed : aecm.perform call = some (next, answer))
    (isPaired : aecm.pairingsOf call = some paired) :
    Decided paired next := by
  cases call with
  | init sampFreq =>
      have isNext : (aecm.init sampFreq).1 = next :=
        congrArg Prod.fst (Option.some.inj performed)
      obtain rfl := Option.some.inj isPaired
      apply NoDelay.decided_nil
      rw [← isNext]
      by_cases supported : sampFreq = 8000 ∨ sampFreq = 16000
      · exact noDelay_init aecm supported
      · rw [not_or] at supported
        unfold AecMobile.init
        rw [if_pos supported]
        exact noDelay
  | setConfig cngMode echoMode =>
      obtain ⟨rfl, -⟩ := Prod.mk.inj (Option.some.inj performed)
      obtain rfl := Option.some.inj isPaired
      exact (noDelay.setConfig cngMode echoMode).decided_nil
  | bufferFarend farend nrOfSamples =>
      obtain rfl := Option.some.inj isPaired
      exact (noDelay.bufferFarend performed).decided_nil
  | process nearendNoisy nearendClean outIsNull nrOfSamples ms =>
      have delayed :
          NoDelay { aecm with msInSndCardBuf := (clipDelay ms).1 } :=
        ⟨noDelay.inStep, noDelay.knownDelay⟩
      unfold AecMobile.pairingsOf at isPaired
      unfold perform AecMobile.process at performed
      dsimp only at isPaired performed
      split at isPaired
      next refused =>
          rw [if_pos refused] at performed
          obtain ⟨rfl, -⟩ := Prod.mk.inj (Option.some.inj performed)
          obtain rfl := Option.some.inj isPaired
          exact noDelay.decided_nil
      next accepted =>
          rw [if_neg accepted] at performed
          unfold processAccepted at performed
          dsimp only at performed
          split at isPaired
          next starting =>
              rw [if_pos starting] at performed
              obtain ⟨started, isStarted, same⟩ :=
                Option.map_eq_some_iff.mp performed
              obtain ⟨rfl, -⟩ := Prod.mk.inj same
              obtain rfl := Option.some.inj isPaired
              apply NoDelay.decided_nil
              constructor
              · rw [(startUp_frame isStarted).2.2]
                exact delayed.inStep
              · exact (knownDelay_of_startUp isStarted).trans
                  delayed.knownDelay
          next running =>
              rw [if_neg running] at performed
              obtain ⟨⟨last, result⟩, isLast, same⟩ :=
                Option.map_eq_some_iff.mp performed
              obtain ⟨rfl, -⟩ := Prod.mk.inj same
              exact delayed.pairings isLast isPaired

/-- Calls one after another. -/
theorem NoDelay.pairingsOfAll
    {aecm : AecMobile processor}
    {calls : List Call}
    {paired : List (Pairing processor)}
    (noDelay : aecm.NoDelay)
    (isPaired : aecm.pairingsOfAll calls = some paired) :
    ∃ final, Decided paired final := by
  induction calls generalizing aecm paired with
  | nil =>
      obtain rfl := Option.some.inj isPaired
      exact ⟨aecm, noDelay.decided_nil⟩
  | cons call calls inductionHypothesis =>
      simp only [AecMobile.pairingsOfAll, Option.bind_eq_bind,
        Option.bind_eq_some_iff] at isPaired
      obtain ⟨first, isFirst, ⟨middle, answer⟩, isMiddle, later, isLater,
        same⟩ := isPaired
      obtain rfl := Option.some.inj same
      have firstDecided := noDelay.pairingsOf isMiddle isFirst
      by_cases stays :
          ∀ pairing ∈ first, ¬ pairing.found.SetsDelay pairing.i
      · obtain ⟨-, middleNoDelay⟩ := firstDecided.2 stays
        obtain ⟨final, laterDecided⟩ :=
          inductionHypothesis middleNoDelay isLater
        exact ⟨final, firstDecided.append fun _ => laterDecided⟩
      · refine ⟨middle, firstDecided.append fun middleNoDelay => ?_⟩
        obtain ⟨final, laterDecided⟩ :=
          inductionHypothesis middleNoDelay isLater
        refine ⟨laterDecided.1, fun laterStays => ?_⟩
        exact ⟨(laterDecided.2 laterStays).1, middleNoDelay⟩

/-- A processed frame has a pairing. -/
theorem exists_pairingAt
    {aecm : AecMobile processor}
    {nearendNoisy : List Short}
    {nearendClean : Option (List Short)}
    {i : Nat}
    {result : AecMobile processor × Option (Samples frameLen)}
    (processed :
      aecm.processNth nearendNoisy nearendClean i = some result) :
    ∃ pairing, aecm.pairingAt i = some pairing := by
  simp only [AecMobile.processNth, takeFarend, AecmCore.processFrame,
    Option.bind_eq_bind, Option.bind_eq_some_iff] at processed
  obtain ⟨taken, ⟨⟨found, farend⟩, isFound, estimated, isEstimated, same⟩,
    _, _, _, _, _, ⟨buffered, isBuffered, fetched, isFetched, _⟩, _⟩ :=
    processed
  obtain rfl := Option.some.inj same
  unfold AecMobile.pairingAt
  simp only [isFound, isEstimated, isBuffered, isFetched,
    Option.bind_eq_bind, Option.bind_some]
  exact ⟨_, rfl⟩

/-- So have the frames of a call. -/
theorem exists_pairings
    {aecm : AecMobile processor}
    {nearendNoisy : List Short}
    {nearendClean : Option (List Short)}
    {frames i : Nat}
    {result : AecMobile processor × List Short × Bool}
    (processed :
      AecMobile.processFrames nearendNoisy nearendClean frames i aecm =
        some result) :
    ∃ paired,
      AecMobile.pairings nearendNoisy nearendClean frames i aecm =
        some paired := by
  induction frames generalizing aecm i result with
  | zero =>
      exact ⟨[], rfl⟩
  | succ frames inductionHypothesis =>
      simp only [AecMobile.processFrames, Option.bind_eq_bind,
        Option.bind_eq_some_iff] at processed
      obtain ⟨⟨middle, out⟩, isMiddle, rest⟩ := processed
      obtain ⟨pairing, isPairing⟩ := exists_pairingAt isMiddle
      simp only [AecMobile.pairings, isPairing, isMiddle,
        Option.bind_eq_bind, Option.bind_some]
      cases out with
      | none =>
          exact ⟨_, rfl⟩
      | some out =>
          obtain ⟨last, isLast, -⟩ := Option.map_eq_some_iff.mp rest
          obtain ⟨later, isLater⟩ := inductionHypothesis isLast
          exact ⟨_, congrArg (Option.map _) isLater⟩

/-- Every run whose behaviour is defined is on record. -/
theorem exists_pairingsOfAll
    {aecm : AecMobile processor}
    {calls : List Call}
    {result : AecMobile processor × List Answer}
    (performed : aecm.performAll calls = some result) :
    ∃ paired, aecm.pairingsOfAll calls = some paired := by
  induction calls generalizing aecm result with
  | nil =>
      exact ⟨[], rfl⟩
  | cons call calls inductionHypothesis =>
      simp only [performAll, Option.bind_eq_some_iff] at performed
      obtain ⟨⟨next, answer⟩, isNext, rest⟩ := performed
      obtain ⟨last, isLast, -⟩ := Option.map_eq_some_iff.mp rest
      obtain ⟨later, isLater⟩ := inductionHypothesis isLast
      obtain ⟨first, isFirst⟩ :
          ∃ first, aecm.pairingsOf call = some first := by
        cases call with
        | process nearendNoisy nearendClean outIsNull nrOfSamples ms =>
            unfold AecMobile.pairingsOf
            unfold perform AecMobile.process processAccepted at isNext
            dsimp only at isNext ⊢
            split
            · exact ⟨[], rfl⟩
            next accepted =>
                rw [if_neg accepted] at isNext
                split
                · exact ⟨[], rfl⟩
                next running =>
                    rw [if_neg running] at isNext
                    obtain ⟨processed, isProcessed, -⟩ :=
                      Option.map_eq_some_iff.mp isNext
                    exact exists_pairings isProcessed
        | _ => exact ⟨[], rfl⟩
      simp only [AecMobile.pairingsOfAll, isFirst, isNext, isLater,
        Option.bind_eq_bind, Option.bind_some]
      exact ⟨_, rfl⟩

/-- An estimate that has not been out of range for long does not set the delay. -/
theorem not_setsDelay_of_early
    {aecm : AecMobile processor}
    {i : Nat}
    (nonneg : 0 ≤ aecm.timeForDelayChange)
    (early : aecm.timeForDelayChange < 25) :
    ¬ aecm.SetsDelay i := by
  rintro ⟨-, measured, -, late⟩
  simp only [filterDelay] at late
  split at late <;> split at late <;> omega

/--
In a run of calls on an instance that has been initialised, every processed near-end
frame is paired with the far-end stream delayed by the known delay, within reach of the
far-end history, if and only if no delay estimate ever takes the branch that sets the
known delay.
-/
theorem run_delayed_iff_never_set
    {aecm : AecMobile processor}
    {sampFreq : Int}
    {calls : List Call}
    {paired : List (Pairing processor)}
    (supported : sampFreq = 8000 ∨ sampFreq = 16000)
    (isPaired :
      (aecm.init sampFreq).1.pairingsOfAll calls = some paired) :
    (∀ (number : Nat) (pairing : Pairing processor),
        paired[number]? = some pairing →
          pairing.Delayed paired number) ↔
      ∀ pairing ∈ paired, ¬ pairing.found.SetsDelay pairing.i := by
  obtain ⟨final, decided, undelayed⟩ :=
    (noDelay_init aecm supported).pairingsOfAll isPaired
  constructor
  · intro delayed
    apply decided.mp
    intro pairing member
    obtain ⟨number, isPairing⟩ := List.getElem?_of_mem member
    exact (delayed number pairing isPairing).1
  · intro stays number pairing isPairing
    exact ((undelayed stays).1 pairing
      (List.mem_of_getElem? isPairing)).delayed isPairing

/-- Ten milliseconds of near-end silence at 8 kHz, with a sound-card delay. -/
def quietNearEnd (ms : Int) : Call :=
  .process (some (List.replicate 80 0)) none false 80 ms

/-- The start-up phase and two frames with little delay. -/
def shortDelay : List Call :=
  List.replicate 6 (quietNearEnd 0) ++
    [.bufferFarend (some (List.replicate 80 1)) 80, quietNearEnd 0,
      .bufferFarend (some (List.replicate 80 2)) 80, quietNearEnd 0]

/-- Their far-end frames are those just fed. -/
theorem run_delayed_iff_never_set_shortDelay :
    ∃ paired,
      ((newInstance (Samples.zeros frameLen)).init 8000).1.pairingsOfAll
            shortDelay =
          some paired ∧
        paired.length = 2 ∧
          ∀ (number : Nat) (pairing : Pairing passFar),
            paired[number]? = some pairing →
              pairing.Delayed paired number := by
  have counted :
      (((newInstance (Samples.zeros frameLen)).init 8000).1.pairingsOfAll
        shortDelay).map
          (List.map fun pairing => pairing.found.timeForDelayChange) =
        some [0, 0] := by
    decide +kernel
  obtain ⟨paired, isPaired, counts⟩ := Option.map_eq_some_iff.mp counted
  refine ⟨paired, isPaired, ?_, ?_⟩
  · have length := congrArg List.length counts
    simpa using length
  · apply (run_delayed_iff_never_set (.inl rfl) isPaired).mpr
    intro pairing member
    have early : pairing.found.timeForDelayChange ∈ ([0, 0] : List Int) := by
      rw [← counts]
      exact List.mem_map_of_mem member
    have zero : pairing.found.timeForDelayChange = 0 := by
      simpa using early
    exact not_setsDelay_of_early (by omega) (by omega)

/-- The start-up phase, a delay of 320 samples for 31 frames, and a far-end frame that
counts up from 1. -/
def longDelay : List Call :=
  List.replicate 6 (quietNearEnd 0) ++
    List.replicate 31 (quietNearEnd 30) ++
      .bufferFarend
          (some ((List.range 80).map fun index => Int16.ofNat (index + 1)))
          80 ::
        List.replicate 3 (quietNearEnd 30)

/-- What is to be seen of a pairing: both delays, the first sample fetched, and the
sample of the far-end stream that the known delay leads to. -/
def summary
    (paired : List (Pairing passFar))
    (number : Nat) :
    Option (Int × Int × Option Short × Option Short) :=
  paired[number]?.map fun pairing =>
    (pairing.delay, pairing.knownDelay, pairing.fetched.1[0]?,
      (paired.flatMap fun earlier => earlier.fed.1)[frameLen * number -
        pairing.knownDelay.toNat]?)

/-- The known delay is 156 samples, and the frame just fed is fetched all the same. -/
theorem run_longDelay_not_delayed :
    ∃ paired,
      ((newInstance (Samples.zeros frameLen)).init 8000).1.pairingsOfAll
            longDelay =
          some paired ∧
        summary paired 33 = some (0, 156, some 1, some 0) ∧
          ¬ ∀ (number : Nat) (pairing : Pairing passFar),
            paired[number]? = some pairing →
              pairing.Delayed paired number := by
  have seen :
      ((((newInstance (Samples.zeros frameLen)).init 8000).1.pairingsOfAll
        longDelay).bind fun paired => summary paired 33) =
        some (0, 156, some 1, some 0) := by
    decide +kernel
  obtain ⟨paired, isPaired, isSeen⟩ := Option.bind_eq_some_iff.mp seen
  refine ⟨paired, isPaired, isSeen, fun delayed => ?_⟩
  obtain ⟨pairing, isPairing, same⟩ := Option.map_eq_some_iff.mp isSeen
  simp only [Prod.mk.injEq] at same
  obtain ⟨delay, knownDelay, -⟩ := same
  have sameDelay := (delayed 33 pairing isPairing).1
  rw [delay, knownDelay] at sameDelay
  cases sameDelay

end AecMobile

end ApmSdk.Aecm
