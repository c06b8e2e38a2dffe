import ApmSdk.AecSafety

namespace ApmSdk.Echo

/-!
# The bounds of the delays of an instance

Every delay estimate is a mean of the one before and of what the sound card, the frame
and the system delay make of it, so that the known delay stays below a fixed bound.
-/

/-! ## The smoothed delay -/

theorem Rounding.le_of_le
    (rounding : Rounding)
    {value bound : Rat}
    (atMost : value ≤ bound)
    (low : -2 ^ 14 ≤ bound)
    (high : bound ≤ 2 ^ 14) :
    rounding value ≤ bound + 1 / 2 ^ 9 :=
  le_trans (rounding.mono atMost) (rounding.close low high).2

theorem truncate_le
    {value : Rat}
    {bound : Int}
    (nonneg : 0 ≤ bound)
    (less : value < bound + 1) :
    truncate value ≤ bound := by
  by_contra more
  have atLeast :=
    (le_truncate_iff (show 0 < bound + 1 by omega)).mp
      (Int.not_le.mp more)
  push_cast at atLeast
  linarith

theorem le_of_toShort?
    {value : Rat}
    {bound kept : Int}
    (nonneg : 0 ≤ bound)
    (less : value < bound + 1)
    (converted : toShort? value = some kept) :
    kept ≤ bound := by
  unfold toShort? at converted
  dsimp only at converted
  split at converted
  · cases converted
    exact truncate_le nonneg less
  · cases converted

theorem nonneg_of_toShort?
    {value : Rat}
    {kept : Int}
    (nonneg : 0 ≤ value)
    (converted : toShort? value = some kept) :
    0 ≤ kept := by
  unfold toShort? at converted
  dsimp only at converted
  split at converted
  · cases converted
    exact truncate_nonneg (by linarith)
  · cases converted

/-- A weighted mean of a delay that is at most 15000 and one that is at most 8320. -/
theorem weightedMean_lt
    (double : Rounding)
    (kept added : Rat)
    {filtDelay currentDelay : Int}
    (keptNonneg : 0 ≤ kept)
    (weights : kept + added = 1)
    (much : 1 / 20 ≤ added)
    (filtNonneg : 0 ≤ filtDelay)
    (filt : filtDelay ≤ 15000)
    (current : currentDelay ≤ 8320) :
    double (double (double kept * filtDelay) +
        double (double added * currentDelay)) <
      (15000 : Int) + 1 := by
  have keptClose :=
    double.close (show -2 ^ 14 ≤ kept by linarith)
      (show kept ≤ 2 ^ 14 by linarith)
  have addedClose :=
    double.close (show -2 ^ 14 ≤ added by linarith)
      (show added ≤ 2 ^ 14 by linarith)
  have filtRat : (filtDelay : Rat) ≤ 15000 := by exact_mod_cast filt
  have filtRatNonneg : (0 : Rat) ≤ filtDelay := by exact_mod_cast filtNonneg
  have currentRat : (currentDelay : Rat) ≤ 8320 := by
    exact_mod_cast current
  have first :
      double kept * filtDelay ≤ (kept + 1 / 2 ^ 9) * 15000 :=
    mul_le_mul keptClose.2 filtRat filtRatNonneg (by linarith)
  have second :
      double added * currentDelay ≤ (added + 1 / 2 ^ 9) * 8320 := by
    have addedNonneg : 0 ≤ double added := by linarith [addedClose.1]
    exact
      le_trans (mul_le_mul_of_nonneg_left currentRat addedNonneg)
        (mul_le_mul_of_nonneg_right addedClose.2 (by norm_num))
  have firstRounded :=
    double.le_of_le first (by linarith) (by linarith)
  have secondRounded :=
    double.le_of_le second (by linarith) (by linarith)
  have sum :=
    double.le_of_le (add_le_add firstRounded secondRounded)
      (by linarith) (by linarith)
  push_cast
  linarith

namespace Aec

/-- What keeps the known delay within its bounds, for both filter modes. -/
structure Sound (estimator : DelayEstimator) : Prop where
  smooth :
    ∀ {double : Rounding} {filtDelay currentDelay smoothed : Int},
      -1 ≤ filtDelay →
      filtDelay ≤ 15000 →
      currentDelay ≤ 8320 →
      estimator.smooth double filtDelay currentDelay = some smoothed →
        0 ≤ smoothed ∧ smoothed ≤ 15000
  back : 160 ≤ estimator.back
  flush : 0 ≤ estimator.flush
  flush_le : estimator.flush ≤ 2

theorem sound_estimatorNormal : Sound estimatorNormal where
  smooth := by
    intro double filtDelay currentDelay smoothed _ filt current isSmoothed
    obtain ⟨kept, converted, rfl⟩ := Option.map_eq_some_iff.mp isSmoothed
    exact
      ⟨Int.le_max_left ..,
        Int.max_le.mpr
          ⟨by decide,
            le_of_toShort? (by decide)
              (weightedMean_lt double (4 / 5) (1 / 5) (by norm_num)
                (by norm_num) (by norm_num) (by split <;> omega)
                (by split <;> omega) current)
              converted⟩⟩
  back := by decide
  flush := by decide
  flush_le := by decide

theorem sound_estimatorExtended : Sound estimatorExtended where
  smooth := by
    intro double filtDelay currentDelay smoothed lower filt current
      isSmoothed
    have split :
        smoothExtended double filtDelay currentDelay = some smoothed :=
      isSmoothed
    unfold smoothExtended at split
    by_cases first : filtDelay = -1
    · rw [if_pos first] at split
      have currentRat : (currentDelay : Rat) ≤ 8320 := by
        exact_mod_cast current
      have halved :=
        double.le_of_le
          (show 1 / 2 * (currentDelay : Rat) ≤ 4160 by linarith)
          (by norm_num) (by norm_num)
      refine
        ⟨nonneg_of_toShort? (le_max_left ..) split,
          le_of_toShort? (by decide) (max_lt ?_ ?_) split⟩
      · norm_num
      · push_cast
        linarith
    · rw [if_neg first] at split
      obtain ⟨kept, converted, rfl⟩ := Option.map_eq_some_iff.mp split
      exact
        ⟨Int.le_max_left ..,
          Int.max_le.mpr
            ⟨by decide,
              le_of_toShort? (by decide)
                (weightedMean_lt double (19 / 20) (1 / 20) (by norm_num)
                  (by norm_num) (by norm_num) (by omega) filt current)
                converted⟩⟩
  back := by decide
  flush := by decide
  flush_le := by decide

variable {canceller : EchoCanceller}
variable {aecpc : Aec canceller}

/-- The delays of an instance stay within their bounds, and nothing has been processed
in the start-up phase. -/
structure Guarded (aecpc : Aec canceller) : Prop where
  asserted : aecpc.aec.Asserted aecpc.pending
  rate : aecpc.rateFactor = 1 ∨ aecpc.rateFactor = 2
  known : 0 ≤ aecpc.knownDelay
  known_le : aecpc.knownDelay ≤ 14840
  filt : -1 ≤ aecpc.filtDelay
  filt_le : aecpc.filtDelay ≤ 15000
  startup :
    aecpc.startupPhase = true →
      aecpc.aec.account.near = 0 ∧
        aecpc.aec.account.knownDelay = 0 ∧
          aecpc.aec.account.correction = 0

theorem Running.pending_bounds
    (running : aecpc.Running) :
    0 ≤ aecpc.pending ∧ aecpc.pending < partLen := by
  have overlap : 64 ≤ aecpc.farPreBuf.availableRead := running.overlap
  have below : aecpc.farPreBuf.availableRead < 128 := running.below
  have size : (partLen : Int) = 64 := rfl
  unfold pending
  omega

/-- Before anything is processed, the system delay covers the far-end buffer. -/
theorem Guarded.startupMove
    (guarded : aecpc.Guarded)
    (running : aecpc.Running)
    (startup : aecpc.startupPhase = true)
    (elements : Int) :
    aecpc.aec.account.clip elements * partLen ≤ aecpc.aec.systemDelay := by
  obtain ⟨near, known, correction⟩ := guarded.startup startup
  have size : (partLen : Int) = 64 := rfl
  have capacity : (kBufSizePartitions : Int) = 250 := rfl
  have pending := running.pending_bounds.1
  have lower := guarded.asserted.safe.lower
  have books := guarded.asserted.safe.surplus
  have delay : aecpc.aec.account.systemDelay = aecpc.aec.systemDelay := rfl
  unfold Account.surplus at books
  rw [near, known, correction, size, delay] at books
  rw [size]
  unfold Account.clip
  omega

/-! ## The far end -/

/-- A far-end frame adds to the system delay what a full buffer may take away again. -/
theorem Guarded.ofFed
    {next : Aec canceller}
    {length : Nat}
    (guarded : aecpc.Guarded)
    (nextRunning : next.Running)
    (fed : Fed aecpc next length)
    (both :
      0 < aecpc.aec.knownDelay →
        aecpc.aec.signalDelayCorrection < 0 →
          aecpc.aec.account.displacement ≤ Account.maxDisplacement) :
    next.Guarded := by
  have asserted := guarded.asserted
  have safe := asserted.safe
  have size : (partLen : Int) = 64 := rfl
  have capacity : (kBufSizePartitions : Int) = 250 := rfl
  have limit : Account.maxDisplacement = 15713 := rfl
  have displaced := asserted.displacement both
  have near_lt := safe.near_lt
  have systemDelay : 0 ≤ aecpc.aec.systemDelay := safe.systemDelay
  have pending := nextRunning.pending_bounds.1
  have near : next.aec.account.near = aecpc.aec.account.near :=
    congrArg (fun band => (band.nearFrBuf.availableRead : Int)) fed.move.low
  have known : next.aec.account.knownDelay = aecpc.aec.account.knownDelay :=
    fed.filled.knownDelay
  have correction :
      next.aec.account.correction = aecpc.aec.account.correction :=
    fed.filled.signalDelayCorrection
  have books : next.aec.account.surplus + next.pending = 0 :=
    fed.surplus.trans safe.surplus
  have delay : 0 ≤ next.aec.account.systemDelay := by
    rcases fed.filled.systemDelay with added | full
    · have sum :
          next.aec.account.systemDelay =
            aecpc.aec.systemDelay + length :=
        added
      omega
    · have sum := books
      unfold Account.surplus at sum
      unfold Account.displacement at displaced
      rw [full, near, known, correction, size, capacity] at sum
      rw [size] at displaced near_lt
      omega
  obtain ⟨resampler, others⟩ := fed.others
  have shifts :
      AecCore.ShiftsInHistory next.aec :=
    fed.move.shiftsInHistory
      ⟨asserted.lookahead, asserted.lookahead_lt, asserted.shiftInHistory⟩
  have nonneg :
      next.aec.assertions.systemDelayNonneg =
        (aecpc.aec.assertions.systemDelayNonneg &&
          decide (0 ≤ aecpc.aec.systemDelay + length)) :=
    fed.move.systemDelayNonneg
  exact
    { asserted :=
        { shifts with
          farBlockFound :=
            fed.move.farBlockFound.trans asserted.farBlockFound
          systemDelayNonneg := by
            rw [nonneg, asserted.systemDelayNonneg, Bool.true_and,
              decide_eq_true_eq]
            omega
          safe :=
            { nextRunning.aec.within with
              near := near ▸ safe.near
              near_lt := near ▸ safe.near_lt
              systemDelay := delay
              knownDelay := known ▸ safe.knownDelay
              wholeBlocks := known ▸ safe.wholeBlocks
              surplus := books }
          mult := fed.move.mult ▸ asserted.mult
          mult_le := fed.move.mult ▸ asserted.mult_le
          knownDelay := fed.filled.knownDelay ▸ asserted.knownDelay
          absorbed := by
            rw [fed.filled.signalDelayCorrection, fed.move.lookahead]
            exact asserted.absorbed }
      rate := others ▸ guarded.rate
      known := others ▸ guarded.known
      known_le := others ▸ guarded.known_le
      filt := others ▸ guarded.filt
      filt_le := others ▸ guarded.filt_le
      startup := fun phase => by
        rw [near, known, correction]
        exact guarded.startup (by rw [others] at phase; exact phase) }

/-! ## The delay estimate -/

/-- The delay that the sound card and the frame account for. -/
def reported (aecpc : Aec canceller) : Int :=
  aecpc.msInSndCardBuf * sampMsNb * aecpc.rateFactor +
    frameLen * aecpc.rateFactor

/-- A delay estimate flushes no more than the system delay has. -/
theorem Guarded.estBufDelay
    {estimator : DelayEstimator}
    {next : Aec canceller}
    (guarded : aecpc.Guarded)
    (running : aecpc.Running)
    (started : aecpc.startupPhase = false)
    (sound : Sound estimator)
    (lower : estimator.flush * partLen + partLen ≤ aecpc.reported)
    (upper : aecpc.reported ≤ 8320)
    (estimated : aecpc.estBufDelay estimator = some next) :
    next.Guarded ∧ next.startupPhase = false := by
  have size : (partLen : Int) = 64 := rfl
  have skewed :
      aecpc.reported - aecpc.aec.systemDelay - 1 ≤ aecpc.currentDelay ∧
        aecpc.currentDelay ≤ aecpc.reported - aecpc.aec.systemDelay := by
    have one : (kResamplingDelay : Int) = 1 := rfl
    unfold reported currentDelay
    split <;> omega
  have systemDelay : 0 ≤ aecpc.aec.systemDelay :=
    guarded.asserted.safe.systemDelay
  have within := guarded.asserted.safe.toWithin
  obtain ⟨clipLower, clipUpper⟩ := within.clip_bounds estimator.flush
  have flush := sound.flush
  have flush_le := sound.flush_le
  obtain ⟨aec, remaining, forced, aecSized, prepared, flushed⟩ :=
    forceCausality_spec estimator running.aec aecpc.currentDelay
  rw [size] at lower flushed
  have asserted : aec.Asserted aecpc.pending ∧ remaining ≤ 8320 := by
    rcases flushed with ⟨rfl, rfl⟩ | ⟨acausal, account, rfl⟩
    · exact ⟨guarded.asserted, by omega⟩
    · refine ⟨guarded.asserted.ofMove prepared.move account ?_, by omega⟩
      rw [size]
      omega
  unfold Aec.estBufDelay at estimated
  rw [forced, Option.bind_eq_bind, Option.bind_some] at estimated
  obtain ⟨filtDelay, isSmoothed, estimated⟩ :=
    Option.bind_eq_some_iff.mp estimated
  obtain rfl := Option.some.inj estimated
  obtain ⟨filtNonneg, filt_le⟩ :=
    sound.smooth guarded.filt guarded.filt_le asserted.2 isSmoothed
  have back := sound.back
  have known := guarded.known
  have known_le := guarded.known_le
  refine
    ⟨{ asserted := asserted.1
       rate := guarded.rate
       known := ?_
       known_le := ?_
       filt := Int.le_trans (by decide) filtNonneg
       filt_le := filt_le
       startup := fun phase => absurd (phase.symm.trans started) nofun },
      started⟩
  · unfold followFiltDelay
    dsimp only
    split <;> omega
  · unfold followFiltDelay
    dsimp only
    split <;> omega

/-! ## Before the frames -/

/-- The start-up phase ends with a flush of the overhead, if there is any. -/
theorem Guarded.leaveStartup
    {next : Aec canceller}
    (guarded : aecpc.Guarded)
    (running : aecpc.Running)
    (startup : aecpc.startupPhase = true)
    (left : aecpc.leaveStartup = some next) :
    next.Guarded := by
  unfold Aec.leaveStartup at left
  split at left
  · cases left
    exact guarded
  · dsimp only at left
    split at left
    · cases left
      exact { guarded with startup := nofun }
    · split at left
      · obtain ⟨aec, moves, aecSized, account, move⟩ :=
          running.aec.moveFarReadPtr
            (aecpc.aec.systemDelay.tdiv partLen - aecpc.bufSizeStart)
        rw [moves] at left
        cases left
        exact
          { guarded with
            asserted :=
              guarded.asserted.ofMove move account
                (guarded.startupMove running startup _)
            startup := nofun }
      · cases left
        exact guarded

theorem Guarded.startExtended
    {next : Aec canceller}
    {reportedDelayMs : Int}
    (guarded : aecpc.Guarded)
    (running : aecpc.Running)
    (started : aecpc.startExtended reportedDelayMs = some next) :
    next.Guarded ∧ next.startupPhase = false ∧
      next.msInSndCardBuf = aecpc.msInSndCardBuf := by
  unfold Aec.startExtended at started
  cases startup : aecpc.startupPhase with
  | false =>
      rw [startup] at started
      cases started
      exact ⟨guarded, startup, rfl⟩
  | true =>
      rw [startup] at started
      obtain ⟨⟨aec, moved⟩, moves, rfl⟩ :=
        Option.map_eq_some_iff.mp started
      obtain ⟨other, otherMoves, otherSized, account, move⟩ :=
        running.aec.moveFarReadPtr _
      cases otherMoves.symm.trans moves
      exact
        ⟨{ guarded with
            asserted :=
              guarded.asserted.ofMove move account
                (guarded.startupMove running startup _)
            startup := nofun }, rfl, rfl⟩

/-- The skew is no part of what is guarded. -/
theorem Guarded.updateSkew
    (guarded : aecpc.Guarded)
    (nrOfSamples : Nat)
    (skew : Int) :
    (aecpc.updateSkew nrOfSamples skew).1.Guarded ∧
      (aecpc.updateSkew nrOfSamples skew).1.msInSndCardBuf =
        aecpc.msInSndCardBuf := by
  unfold Aec.updateSkew
  split
  · exact ⟨guarded, rfl⟩
  · split
    · exact ⟨{ guarded with }, rfl⟩
    · exact ⟨{ guarded with }, rfl⟩

/-- What is known of the call of the core. -/
structure Entered (aecpc : Aec canceller) (knownDelay : Int) : Prop where
  known : 0 ≤ knownDelay
  known_le : knownDelay ≤ 14840
  started : aecpc.startupPhase = false

theorem Guarded.processNormal
    {next : Aec canceller}
    {nrOfSamples : Nat}
    {msInSndCardBuf skew retVal : Int}
    {knownDelay : Option Int}
    (guarded : aecpc.Guarded)
    (running : aecpc.Running)
    (nonneg : 0 ≤ msInSndCardBuf)
    (processed :
      aecpc.processNormal nrOfSamples msInSndCardBuf skew =
        some (next, retVal, knownDelay)) :
    next.Guarded ∧ ∀ known ∈ knownDelay, next.Entered known := by
  unfold Aec.processNormal at processed
  dsimp only at processed
  have limited :
      10 ≤ (if kMaxTrustedDelayMs < msInSndCardBuf then kMaxTrustedDelayMs
          else msInSndCardBuf) + 10 ∧
        (if kMaxTrustedDelayMs < msInSndCardBuf then kMaxTrustedDelayMs
          else msInSndCardBuf) + 10 ≤ 510 := by
    have most : kMaxTrustedDelayMs = 500 := rfl
    split <;> omega
  generalize
    (if kMaxTrustedDelayMs < msInSndCardBuf then kMaxTrustedDelayMs
      else msInSndCardBuf) + 10 = ms at limited processed
  obtain ⟨prepared, sameCore⟩ :=
    prepared_updateSkew { aecpc with msInSndCardBuf := ms } nrOfSamples skew
  have entering : ({ aecpc with msInSndCardBuf := ms } : Aec canceller).Running :=
    { running with }
  obtain ⟨middleGuarded, sameMs⟩ :=
    Guarded.updateSkew
      (show ({ aecpc with msInSndCardBuf := ms } : Aec canceller).Guarded from
        { guarded with })
      nrOfSamples skew
  generalize
    Aec.updateSkew { aecpc with msInSndCardBuf := ms } nrOfSamples skew =
      updated at processed prepared sameCore middleGuarded sameMs
  obtain ⟨middle, code⟩ := updated
  dsimp only at processed prepared sameCore middleGuarded sameMs
  have middleRunning : middle.Running :=
    entering.ofPrepared prepared (sameCore ▸ running.aec)
  split at processed
  next startup =>
    obtain ⟨last, left, isNext⟩ := Option.map_eq_some_iff.mp processed
    cases isNext
    obtain ⟨_, _, _, _, _, _, checked⟩ :=
      middle.checkStability_eq
        (nrOfSamples / (frameLen * middle.rateFactor.toNat))
    rw [checked] at left
    exact
      ⟨Guarded.leaveStartup (by exact { middleGuarded with })
        (by exact { middleRunning with }) (by exact startup) left, nofun⟩
  next started =>
    obtain ⟨last, estimated, isNext⟩ := Option.map_eq_some_iff.mp processed
    cases isNext
    have bounds :
        128 ≤ middle.reported ∧ middle.reported ≤ 8320 := by
      unfold reported
      rw [sameMs]
      have eight : sampMsNb = 8 := rfl
      have length : (frameLen : Int) = 80 := rfl
      rcases middleGuarded.rate with rate | rate
      · rw [rate, eight]
        omega
      · rw [rate, eight]
        omega
    obtain ⟨nextGuarded, nextStarted⟩ :=
      middleGuarded.estBufDelay middleRunning
        (Bool.eq_false_iff.mpr started) sound_estimatorNormal bounds.1
        bounds.2 estimated
    refine ⟨nextGuarded, fun known isKnown => ?_⟩
    cases isKnown
    exact ⟨nextGuarded.known, nextGuarded.known_le, nextStarted⟩

theorem trustedDelay_bounds (reportedDelayMs : Int) :
    20 ≤ trustedDelay reportedDelayMs ∧ trustedDelay reportedDelayMs < 500 := by
  have least : kMinTrustedDelayMs = 20 := rfl
  have most : kMaxTrustedDelayMs = 500 := rfl
  have fixed : kFixedDelayMs = 50 := rfl
  unfold trustedDelay
  dsimp only
  split <;> split <;> omega

theorem Guarded.processExtended
    {next : Aec canceller}
    {reportedDelayMs : Int}
    {knownDelay : Option Int}
    (guarded : aecpc.Guarded)
    (running : aecpc.Running)
    (processed :
      aecpc.processExtended reportedDelayMs = some (next, knownDelay)) :
    next.Guarded ∧ ∀ known ∈ knownDelay, next.Entered known := by
  unfold Aec.processExtended at processed
  dsimp only at processed
  obtain ⟨least, most⟩ := trustedDelay_bounds reportedDelayMs
  generalize trustedDelay reportedDelayMs = ms at least most processed
  split at processed
  · cases processed
    exact ⟨{ guarded with }, nofun⟩
  · obtain ⟨middle, starts, processed⟩ :=
      Option.bind_eq_some_iff.mp processed
    obtain ⟨last, estimated, isNext⟩ :=
      Option.bind_eq_some_iff.mp processed
    cases isNext
    have entering :
        ({ aecpc with msInSndCardBuf := ms } : Aec canceller).Running :=
      { running with }
    obtain ⟨middleGuarded, started, sameMs⟩ :=
      Guarded.startExtended
        (show ({ aecpc with msInSndCardBuf := ms } : Aec canceller).Guarded
          from { guarded with })
        entering starts
    obtain ⟨prepared, middleSized⟩ :=
      prepared_startExtended entering.aec starts
    have middleRunning := entering.ofPrepared prepared middleSized
    have bounds :
        192 ≤ middle.reported ∧ middle.reported ≤ 8320 := by
      unfold reported
      rw [sameMs]
      have eight : sampMsNb = 8 := rfl
      have length : (frameLen : Int) = 80 := rfl
      rcases middleGuarded.rate with rate | rate
      · rw [rate, eight]
        dsimp only
        omega
      · rw [rate, eight]
        dsimp only
        omega
    obtain ⟨nextGuarded, nextStarted⟩ :=
      middleGuarded.estBufDelay middleRunning started
        sound_estimatorExtended bounds.1 bounds.2 estimated
    refine ⟨nextGuarded, fun known isKnown => ?_⟩
    cases isKnown
    exact
      ⟨Int.le_max_left ..,
        Int.max_le.mpr ⟨by decide, nextGuarded.known_le⟩, nextStarted⟩

theorem Guarded.prepare
    {next : Aec canceller}
    {nrOfSamples : Nat}
    {msInSndCardBuf skew retVal : Int}
    {knownDelay : Option Int}
    (guarded : aecpc.Guarded)
    (running : aecpc.Running)
    (prepared :
      aecpc.prepare nrOfSamples msInSndCardBuf skew =
        some (next, retVal, knownDelay)) :
    next.Guarded ∧ ∀ known ∈ knownDelay, next.Entered known := by
  unfold Aec.prepare at prepared
  dsimp only at prepared
  split at prepared
  · obtain ⟨⟨last, known⟩, processed, isNext⟩ :=
      Option.map_eq_some_iff.mp prepared
    cases isNext
    exact guarded.processExtended running processed
  · exact guarded.processNormal running (by split <;> omega) prepared

end Aec

end ApmSdk.Echo
