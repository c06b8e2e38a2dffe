import ApmSdk.AecBalance

namespace ApmSdk.Echo

/-!
# When every block finds a far-end block

With the known delay alone the stuffing of a frame is enough for its blocks.  A
correction that the signal-based mode has left behind takes blocks away that the system
delay still counts, and a large displacement leaves no room for the stuffing.
-/

namespace Account

variable {account : Account}

/-- How far the read position is behind where the system delay puts it. -/
def displacement (account : Account) : Int :=
  account.knownDelay - partLen * account.correction

/-- The known delay that step 2 a brings about. -/
def followed (account : Account) (knownDelay : Int) : Int :=
  account.knownDelay -
    (account.knownDelay - knownDelay - 32).tdiv partLen * partLen

/-- Rounding towards zero changes less than a partition. -/
theorem tdiv_partLen_bounds (value : Int) :
    value - 63 ≤ value.tdiv partLen * partLen ∧
      value.tdiv partLen * partLen ≤ value + 63 := by
  have split := Int.tdiv_mul_add_tmod value partLen
  have size : (partLen : Int) = 64 := rfl
  have less := Int.tmod_lt_of_pos value (show (0 : Int) < partLen by decide)
  have more := Int.lt_tmod_of_pos value (show (0 : Int) < partLen by decide)
  omega

/-- What holds of the account between two frames, with the samples that are pending. -/
structure Safe (account : Account) (pending : Int) : Prop extends
    Within account where
  near : 0 ≤ account.near
  near_lt : account.near < partLen
  systemDelay : 0 ≤ account.systemDelay
  knownDelay : 0 ≤ account.knownDelay
  wholeBlocks : account.knownDelay % partLen = 0
  surplus : account.surplus + pending = 0

/-- An account that has been stuffed for a frame. -/
structure Stuffed (account : Account) (pending : Int) : Prop extends
    Within account where
  near : frameLen ≤ account.near
  near_lt : account.near < frameLen + partLen
  systemDelay : frameLen ≤ account.systemDelay
  surplus : account.surplus + pending + frameLen = 0

/-- The displacement that leaves room for the stuffing of every frame. -/
abbrev maxDisplacement : Int := 15713

/-- Where the displacement leaves room for it, the stuffing is enough for a frame. -/
theorem Safe.stuffed
    {pending mult : Int}
    (safe : account.Safe pending)
    (pendingNonneg : 0 ≤ pending)
    (positive : 1 ≤ mult)
    (atMostTwo : mult ≤ 2)
    (displaced : account.displacement ≤ maxDisplacement) :
    (account.receive.stuff mult).Stuffed pending ∧
      (account.receive.stuff mult).knownDelay = account.knownDelay ∧
      (account.receive.stuff mult).correction = account.correction := by
  have size : (partLen : Int) = 64 := rfl
  have capacity : (kBufSizePartitions : Int) = 250 := rfl
  have length : (frameLen : Int) = 80 := rfl
  have limit : maxDisplacement = 15713 := rfl
  have surplus := safe.surplus
  have near := safe.near
  have near_lt := safe.near_lt
  have systemDelay := safe.systemDelay
  have lower := safe.lower
  have upper := safe.upper
  have books :
      (account.receive.stuff mult).surplus + pending + frameLen = 0 := by
    rw [surplus_stuff, surplus_receive]
    omega
  unfold Account.stuff receive at books ⊢
  dsimp only at books ⊢
  by_cases short : account.systemDelay < frameLen
  · have room :
        clip { account with near := account.near + frameLen }
            (-(mult + 1)) =
          -(mult + 1) := by
      unfold displacement at displaced
      unfold Account.surplus at surplus
      rw [size] at surplus displaced
      unfold clip
      dsimp only
      omega
    have rewound : -(mult + 1) * (partLen : Int) = -64 * mult - 64 := by
      rw [size]
      ring
    rw [if_pos short] at books ⊢
    unfold moveFar at books ⊢
    rw [room] at books ⊢
    refine ⟨⟨⟨?_, ?_⟩, ?_, ?_, ?_, books⟩, rfl, rfl⟩
    · dsimp only
      omega
    · unfold displacement at displaced
      unfold Account.surplus at surplus
      rw [size] at surplus displaced
      dsimp only
      omega
    all_goals
      dsimp only
      omega
  · rw [if_neg short] at books ⊢
    refine ⟨⟨⟨lower, upper⟩, ?_, ?_, ?_, books⟩, rfl, rfl⟩
    all_goals
      dsimp only
      omega

/-- An account with a far-end block for every block of the frame. -/
structure Stocked (account : Account) (pending : Int) : Prop extends
    Stuffed account pending where
  blocks : account.blocks ≤ account.far
  knownDelay : 0 ≤ account.knownDelay
  wholeBlocks : account.knownDelay % partLen = 0

/-- Then the account is safe again after the frame. -/
theorem Stocked.finish
    {pending : Int}
    (stocked : account.Stocked pending) :
    account.finish.Safe pending := by
  have size : (partLen : Int) = 64 := rfl
  have length : (frameLen : Int) = 80 := rfl
  have near := stocked.near
  have lower := stocked.lower
  have upper := stocked.upper
  have systemDelay := stocked.systemDelay
  have enough := stocked.blocks
  have books := stocked.surplus
  have rest := surplus_finish enough
  have whole : account.blocks = account.near / (partLen : Int) := rfl
  have product : account.blocks * (partLen : Int) = 64 * account.blocks := by
    rw [size]
    ring
  rw [size] at whole
  refine
    { lower := Int.le_max_left ..
      upper := ?_
      near := ?_
      near_lt := ?_
      systemDelay := ?_
      knownDelay := stocked.knownDelay
      wholeBlocks := stocked.wholeBlocks
      surplus := by omega }
  all_goals
    unfold Account.finish
    dsimp only
    omega

/-- In the known-delay mode there is a far-end block for every block, unless a correction
has taken more than the known delay that is to be in force. -/
theorem Stuffed.follow
    {pending knownDelay : Int}
    (stuffed : account.Stuffed pending)
    (few : pending < partLen)
    (nonneg : 0 ≤ account.knownDelay)
    (wholeBlocks : account.knownDelay % partLen = 0)
    (knownNonneg : 0 ≤ knownDelay)
    (absorbed :
      0 < account.correction →
        partLen * account.correction ≤ account.followed knownDelay) :
    (account.follow knownDelay).Stocked pending ∧
      (account.follow knownDelay).knownDelay ≤
        max account.knownDelay (knownDelay + 95) ∧
      (account.follow knownDelay).correction = account.correction := by
  have size : (partLen : Int) = 64 := rfl
  have capacity : (kBufSizePartitions : Int) = 250 := rfl
  have length : (frameLen : Int) = 80 := rfl
  obtain ⟨roundLower, roundUpper⟩ :=
    tdiv_partLen_bounds (account.knownDelay - knownDelay - 32)
  have near := stuffed.near
  have near_lt := stuffed.near_lt
  have lower := stuffed.lower
  have upper := stuffed.upper
  have systemDelay := stuffed.systemDelay
  have books := stuffed.surplus
  have booksAfter :
      (account.follow knownDelay).surplus + pending + frameLen = 0 := by
    rw [surplus_follow]
    exact books
  unfold followed at absorbed
  unfold Account.surplus at books
  unfold Account.follow clip at booksAfter ⊢
  generalize
    (account.knownDelay - knownDelay - 32).tdiv partLen = elements
    at roundLower roundUpper absorbed booksAfter ⊢
  rw [size] at roundLower roundUpper absorbed near_lt books wholeBlocks few
  dsimp only at booksAfter ⊢
  refine
    ⟨{ lower := ?_
       upper := ?_
       near := near
       near_lt := near_lt
       systemDelay := systemDelay
       surplus := booksAfter
       blocks := ?_
       knownDelay := ?_
       wholeBlocks := ?_ }, ?_, rfl⟩
  · dsimp only
    omega
  · dsimp only
    omega
  · unfold Account.blocks
    rw [size]
    dsimp only
    omega
  · rw [size]
    dsimp only
    omega
  · rw [size]
    dsimp only
    omega
  · rw [size]
    omega

/-- In the signal-based mode the far end is rewound to as many blocks. -/
theorem Stuffed.correct
    {pending : Int}
    (stuffed : account.Stuffed pending)
    (nonneg : 0 ≤ account.knownDelay)
    (wholeBlocks : account.knownDelay % partLen = 0)
    (elements : Int) :
    (account.correct elements).Stocked pending ∧
      (account.correct elements).knownDelay = account.knownDelay ∧
      (account.correct elements).correction =
        account.correction + account.clip elements := by
  have size : (partLen : Int) = 64 := rfl
  have capacity : (kBufSizePartitions : Int) = 250 := rfl
  have length : (frameLen : Int) = 80 := rfl
  have near := stuffed.near
  have near_lt := stuffed.near_lt
  have lower := stuffed.lower
  have upper := stuffed.upper
  have systemDelay := stuffed.systemDelay
  have books :
      (account.correct elements).surplus + pending + frameLen = 0 := by
    rw [surplus_correct]
    exact stuffed.surplus
  have clipped : account.clip elements = max (min elements account.far)
      (account.far - kBufSizePartitions) := rfl
  unfold Account.correct at books ⊢
  generalize account.clip elements = moved at clipped books ⊢
  rw [size] at near_lt
  rw [capacity] at clipped
  dsimp only at books ⊢
  have blocks : 0 ≤ account.near / (partLen : Int) ∧
      account.near / (partLen : Int) ≤ 2 := by
    rw [size]
    omega
  by_cases behind :
      account.far - moved - account.near / (partLen : Int) < 0
  · have room :
        clip
            { account with
              far := account.far - moved
              correction := account.correction + moved }
            (account.far - moved - account.near / (partLen : Int)) =
          account.far - moved - account.near / (partLen : Int) := by
      unfold clip
      dsimp only
      omega
    rw [if_pos behind] at books ⊢
    unfold moveFar at books ⊢
    rw [room] at books ⊢
    have product :
        (account.far - moved - account.near / (partLen : Int)) *
            (partLen : Int) ≤
          0 := by
      rw [size] at behind ⊢
      omega
    refine
      ⟨{ lower := ?_
         upper := ?_
         near := near
         near_lt := near_lt
         systemDelay := ?_
         surplus := books
         blocks := ?_
         knownDelay := nonneg
         wholeBlocks := wholeBlocks }, rfl, rfl⟩
    · dsimp only
      omega
    · dsimp only
      omega
    · dsimp only
      omega
    · unfold Account.blocks
      dsimp only
      omega
  · rw [if_neg behind] at books ⊢
    refine
      ⟨{ lower := ?_
         upper := ?_
         near := near
         near_lt := near_lt
         systemDelay := systemDelay
         surplus := books
         blocks := ?_
         knownDelay := nonneg
         wholeBlocks := wholeBlocks }, rfl, rfl⟩
    · dsimp only
      omega
    · dsimp only
      omega
    · unfold Account.blocks
      dsimp only
      omega

end Account

namespace AecCore

variable {canceller : EchoCanceller}
variable {aec before after : AecCore canceller}

/-- The assertions of the core hold between two frames, with what that takes. -/
structure Asserted (aec : AecCore canceller) (pending : Int) : Prop
    extends ShiftsInHistory aec where
  farBlockFound : aec.assertions.farBlockFound = true
  systemDelayNonneg : aec.assertions.systemDelayNonneg = true
  safe : aec.account.Safe pending
  mult : 1 ≤ aec.mult
  mult_le : aec.mult ≤ 2
  knownDelay : aec.knownDelay ≤ 15000
  absorbed : 0 ≤ aec.signalDelayCorrection + aec.lookahead

/-- A move of the far end that leaves enough of the system delay. -/
theorem Asserted.ofMove
    {pending elements : Int}
    (asserted : before.Asserted pending)
    (move : FarMove before after)
    (account : after.account = before.account.moveFar elements)
    (enough :
      before.account.clip elements * partLen ≤ before.systemDelay) :
    after.Asserted pending := by
  have safe := asserted.safe
  have within := safe.toWithin.moveFar elements
  have known : after.knownDelay = before.knownDelay :=
    congrArg Account.knownDelay account
  have correction :
      after.signalDelayCorrection = before.signalDelayCorrection :=
    congrArg Account.correction account
  exact
    { move.shiftsInHistory asserted.toShiftsInHistory with
      farBlockFound := move.farBlockFound.trans asserted.farBlockFound
      systemDelayNonneg :=
        move.systemDelayNonneg.trans asserted.systemDelayNonneg
      safe := by
        rw [account]
        exact
          { within with
            near := safe.near
            near_lt := safe.near_lt
            systemDelay := Int.sub_nonneg_of_le enough
            knownDelay := safe.knownDelay
            wholeBlocks := safe.wholeBlocks
            surplus := by
              rw [Account.surplus_moveFar]
              exact safe.surplus }
      mult := move.mult ▸ asserted.mult
      mult_le := move.mult ▸ asserted.mult_le
      knownDelay := known ▸ asserted.knownDelay
      absorbed := by
        rw [correction, move.lookahead]
        exact asserted.absorbed }

/-- What a frame is processed under: the known delay that is to be in force makes up for
a correction that is left over, and a known delay and a correction that are both in force
leave room for the stuffing. -/
structure Stuffable (knownDelay : Int) (aec : AecCore canceller) :
    Prop where
  absorbed :
    aec.delayAgnosticEnabled = false →
      0 < aec.signalDelayCorrection →
        partLen * aec.signalDelayCorrection ≤
          aec.account.followed knownDelay
  displacement :
    0 < aec.knownDelay →
      aec.signalDelayCorrection < 0 →
        aec.account.displacement ≤ Account.maxDisplacement

theorem Asserted.displacement
    {pending : Int}
    (asserted : aec.Asserted pending)
    (both :
      0 < aec.knownDelay →
        aec.signalDelayCorrection < 0 →
          aec.account.displacement ≤ Account.maxDisplacement) :
    aec.account.displacement ≤ Account.maxDisplacement := by
  have size : (partLen : Int) = 64 := rfl
  have limit : Account.maxDisplacement = 15713 := rfl
  have history : kHistorySizeBlocks = 125 := rfl
  have absorbed := asserted.absorbed
  have lookahead := asserted.lookahead_lt
  have known := asserted.knownDelay
  by_cases inForce : 0 < aec.knownDelay ∧ aec.signalDelayCorrection < 0
  · exact both inForce.1 inForce.2
  · unfold Account.displacement account
    dsimp only
    rw [size]
    omega

/-- A frame that can be stuffed finds its blocks and leaves a core that is safe. -/
theorem FrameStep.asserted
    {knownDelay pending : Int}
    {adjusted : Account}
    (step : FrameStep knownDelay before after adjusted)
    (ready : before.Ready)
    (pendingNonneg : 0 ≤ pending)
    (few : pending < partLen)
    (nonneg : 0 ≤ knownDelay)
    (known : knownDelay ≤ 14840)
    (asserted : before.Asserted pending)
    (stuffable : Stuffable knownDelay before) :
    after.Asserted pending := by
  have history : kHistorySizeBlocks = 125 := rfl
  obtain ⟨stuffed, stuffedKnown, stuffedCorrection⟩ :=
    asserted.safe.stuffed pendingNonneg asserted.mult asserted.mult_le
      (asserted.displacement stuffable.displacement)
  have stuffedNonneg : 0 ≤ before.stuffedAccount.knownDelay :=
    stuffedKnown ▸ asserted.safe.knownDelay
  have stuffedBlocks :
      before.stuffedAccount.knownDelay % partLen = 0 :=
    stuffedKnown ▸ asserted.safe.wholeBlocks
  have shifts := step.shiftsInHistory ready asserted.toShiftsInHistory
  have lookahead := asserted.lookahead
  have lookahead_lt := asserted.lookahead_lt
  have absorbed := asserted.absorbed
  have knownBefore := asserted.knownDelay
  have stocked :
      adjusted.Stocked pending ∧
        adjusted.knownDelay ≤ 15000 ∧
        0 ≤ adjusted.correction + after.lookahead := by
    rcases step.adjusts with ⟨mode, sameLookahead, -⟩ |
      ⟨mode, elements, realigned⟩
    · obtain ⟨stocked, bound, correction⟩ :=
        Account.Stuffed.follow stuffed few stuffedNonneg stuffedBlocks
          nonneg (by
            rw [show (before.account.receive.stuff before.mult).followed
                  knownDelay = before.account.followed knownDelay by
                unfold Account.followed
                rw [stuffedKnown],
              stuffedCorrection]
            exact stuffable.absorbed mode)
      refine ⟨stocked, ?_, ?_⟩
      · rw [stuffedKnown] at bound
        exact
          Int.le_trans bound (Int.max_le.mpr ⟨knownBefore, by omega⟩)
      · rw [sameLookahead,
          show (before.stuffedAccount.follow knownDelay).correction =
            before.signalDelayCorrection from
            correction.trans stuffedCorrection]
        exact absorbed
    · obtain ⟨stocked, sameKnown, correction⟩ :=
        Account.Stuffed.correct stuffed stuffedNonneg stuffedBlocks elements
      have within : before.stuffedAccount.Within := stuffed.toWithin
      obtain ⟨clipLower, clipUpper⟩ := within.clip_bounds elements
      have least := realigned.lower lookahead_lt
      refine ⟨stocked, ?_, ?_⟩
      · rw [show (before.stuffedAccount.correct elements).knownDelay =
          before.knownDelay from sameKnown.trans stuffedKnown]
        exact knownBefore
      · have corrected :
            (before.stuffedAccount.correct elements).correction =
              before.signalDelayCorrection +
                before.stuffedAccount.clip elements := by
          rw [← show before.stuffedAccount.correction =
            before.signalDelayCorrection from stuffedCorrection]
          exact correction
        rw [corrected, realigned.lookahead]
        omega
  obtain ⟨stocked, bound, correction⟩ := stocked
  have afterKnown : after.knownDelay = adjusted.knownDelay :=
    congrArg Account.knownDelay step.account
  have afterCorrection :
      after.signalDelayCorrection = adjusted.correction :=
    congrArg Account.correction step.account
  exact
    { shifts with
      farBlockFound := by
        rw [step.farBlockFound, asserted.farBlockFound, Bool.true_and]
        exact decide_eq_true stocked.blocks
      systemDelayNonneg :=
        step.systemDelayNonneg.trans asserted.systemDelayNonneg
      safe := step.account ▸ stocked.finish
      mult := step.mult ▸ asserted.mult
      mult_le := step.mult ▸ asserted.mult_le
      knownDelay := afterKnown ▸ bound
      absorbed := afterCorrection ▸ correction }

/-! ## One mode alone -/

/-- One of the two modes has been at work, and the other has left nothing behind. -/
def OneMode (aec : AecCore canceller) : Prop :=
  if aec.delayAgnosticEnabled then
    aec.knownDelay = 0
  else
    aec.signalDelayCorrection = 0

theorem OneMode.stuffable
    (oneMode : aec.OneMode)
    (knownDelay : Int) :
    Stuffable knownDelay aec := by
  unfold OneMode at oneMode
  cases mode : aec.delayAgnosticEnabled with
  | false =>
      rw [mode] at oneMode
      have none : aec.signalDelayCorrection = 0 := oneMode
      exact
        ⟨fun _ positive => absurd positive (by omega),
          fun _ negative => absurd negative (by omega)⟩
  | true =>
      rw [mode] at oneMode
      have none : aec.knownDelay = 0 := oneMode
      exact
        ⟨fun other => absurd (other.symm.trans mode) nofun,
          fun positive => absurd positive (by omega)⟩

/-- A frame works in one mode alone. -/
theorem FrameStep.oneMode
    {knownDelay : Int}
    {adjusted : Account}
    (step : FrameStep knownDelay before after adjusted)
    (oneMode : before.OneMode) :
    after.OneMode := by
  have known : after.knownDelay = adjusted.knownDelay :=
    congrArg Account.knownDelay step.account
  have correction : after.signalDelayCorrection = adjusted.correction :=
    congrArg Account.correction step.account
  have stuffed :
      before.stuffedAccount.knownDelay = before.knownDelay ∧
        before.stuffedAccount.correction =
          before.signalDelayCorrection := by
    unfold stuffedAccount Account.stuff
    split <;> exact ⟨rfl, rfl⟩
  unfold OneMode at oneMode ⊢
  rw [step.delayAgnosticEnabled, known, correction]
  rcases step.adjusts with ⟨mode, -, -⟩ | ⟨mode, elements, -⟩
  · rw [mode] at oneMode ⊢
    exact stuffed.2.trans oneMode
  · rw [mode] at oneMode ⊢
    have same :
        (before.stuffedAccount.correct elements).knownDelay =
          before.stuffedAccount.knownDelay := by
      unfold Account.correct
      dsimp only
      split <;> rfl
    exact same.trans (stuffed.1.trans oneMode)

/-- Frames of one mode can all be stuffed. -/
theorem OneMode.atFrames
    (ready : aec.Ready)
    (oneMode : aec.OneMode)
    (knownDelay : Int)
    (nearend : List (BandFrames canceller))
    (few : ∀ frames ∈ nearend, frames.2.length ≤ numHighBandsMax) :
    AtFrames (Stuffable knownDelay) knownDelay nearend aec := by
  induction nearend generalizing aec with
  | nil => trivial
  | cons frames rest inductionHypothesis =>
      rw [List.forall_mem_cons] at few
      refine ⟨oneMode.stuffable knownDelay, fun next out processed => ?_⟩
      obtain ⟨other, otherOut, adjusted, otherProcessed, otherReady, step⟩ :=
        ready.processFrame knownDelay frames.1 few.1
      cases otherProcessed.symm.trans processed
      exact inductionHypothesis otherReady (step.oneMode oneMode) few.2

/-- An initialised core has nothing of either mode. -/
theorem oneMode_initAec
    (aec : AecCore canceller)
    (sampFreq : Int) :
    (aec.initAec sampFreq).OneMode := by
  unfold OneMode
  split <;> rfl

end AecCore

end ApmSdk.Echo
