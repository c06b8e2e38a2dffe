import ApmSdk.AecGuarded

namespace ApmSdk.Echo

/-!
# The assertions of the core over whole runs

Only a correction that is left over can empty the far end for a frame with a known delay,
and only together with a large known delay can it leave no room for the stuffing.
-/

namespace Aec

variable {canceller : EchoCanceller}
variable {aecpc : Aec canceller}

/-! ## Calls -/

/-- What the calls of a run are made under, in the state before them: a far-end frame
while the displacement leaves room, and every near-end frame while it can be stuffed. -/
def Admits (aecpc : Aec canceller) : Call canceller → Prop
  | .bufferFarend _ =>
      aecpc.initFlag = initCheck →
        0 < aecpc.aec.knownDelay →
          aecpc.aec.signalDelayCorrection < 0 →
            aecpc.aec.account.displacement ≤ Account.maxDisplacement
  | .process nearend hasOut nrOfSamples msInSndCardBuf skew =>
      aecpc.Checked hasOut nrOfSamples →
        ∀ frames prepared retVal knownDelay,
          framesOf nearend nrOfSamples = some frames →
          aecpc.prepare nrOfSamples msInSndCardBuf skew =
              some (prepared, retVal, some knownDelay) →
            AecCore.AtFrames (AecCore.Stuffable knownDelay) knownDelay
              frames
              { prepared.aec with
                frameCount := prepared.aec.frameCount + 1 }
  | _ => True

/-- What holds of an instance in every state of a run under these conditions. -/
structure Upheld (aecpc : Aec canceller) : Prop extends Accounted aecpc where
  guarded : aecpc.initFlag = initCheck → aecpc.Guarded

theorem mult_initAec
    (aec : AecCore canceller)
    {sampFreq : Int}
    (legal : LegalFrequency sampFreq) :
    (aec.initAec sampFreq).mult = 1 ∨ (aec.initAec sampFreq).mult = 2 := by
  rcases legal with rfl | rfl | rfl | rfl
  · exact .inl rfl
  all_goals exact .inr rfl

theorem rateFactor_initState
    (aecpc : Aec canceller)
    {sampFreq : Int}
    (legal : LegalFrequency sampFreq)
    (scSampFreq : Int)
    (farPreBuf : RingBuffer canceller.Sample) :
    (aecpc.initState sampFreq scSampFreq farPreBuf).rateFactor = 1 ∨
      (aecpc.initState sampFreq scSampFreq farPreBuf).rateFactor = 2 := by
  rcases legal with rfl | rfl | rfl | rfl
  · exact .inl rfl
  all_goals exact .inr rfl

/-- An initialised instance has processed nothing. -/
theorem guarded_initState
    {sampFreq : Int}
    {farPreBuf : RingBuffer canceller.Sample}
    (accounted : aecpc.Accounted)
    (legal : LegalFrequency sampFreq)
    (scSampFreq : Int)
    (level : farPreBuf.availableRead = partLen) :
    (aecpc.initState sampFreq scSampFreq farPreBuf).Guarded where
  asserted :=
    { lookahead := accounted.lookahead
      lookahead_lt := accounted.lookahead_lt
      shiftInHistory := rfl
      farBlockFound := rfl
      systemDelayNonneg := rfl
      safe := by
        show (aecpc.aec.initAec sampFreq).account.Safe
          ((farPreBuf.availableRead : Int) - partLen)
        rw [(accounted.aec.initAec sampFreq).2, level]
        exact
          { lower := by decide
            upper := by decide
            near := by decide
            near_lt := by decide
            systemDelay := by decide
            knownDelay := by decide
            wholeBlocks := by decide
            surplus := by decide }
      mult := by
        rcases mult_initAec aecpc.aec legal with one | two
        · exact Int.le_of_eq one.symm
        · exact Int.le_trans (by decide) (Int.le_of_eq two.symm)
      mult_le := by
        rcases mult_initAec aecpc.aec legal with one | two
        · exact Int.le_trans (Int.le_of_eq one) (by decide)
        · exact Int.le_of_eq two
      knownDelay := by
        show (0 : Int) ≤ 15000
        decide
      absorbed := by
        show 0 ≤ 0 + aecpc.aec.lookahead
        rw [Int.zero_add]
        exact accounted.lookahead }
  rate := rateFactor_initState aecpc legal scSampFreq farPreBuf
  known := by
    show (0 : Int) ≤ 0
    decide
  known_le := by
    show (0 : Int) ≤ 14840
    decide
  filt := by
    show (-1 : Int) ≤ -1
    decide
  filt_le := by
    show (-1 : Int) ≤ 15000
    decide
  startup _ := by
    show (aecpc.aec.initAec sampFreq).account.near = 0 ∧
      (aecpc.aec.initAec sampFreq).account.knownDelay = 0 ∧
        (aecpc.aec.initAec sampFreq).account.correction = 0
    rw [(accounted.aec.initAec sampFreq).2]
    exact ⟨rfl, rfl, rfl⟩

theorem Guarded.setConfig
    (guarded : aecpc.Guarded)
    (config : AecConfig) :
    (aecpc.setConfig config).1.Guarded := by
  unfold Aec.setConfig
  split
  · exact guarded
  · split
    · exact guarded
    · exact { guarded with }

theorem Upheld.init
    (upheld : aecpc.Upheld)
    {sampFreq scSampFreq code : Int}
    {next : Aec canceller}
    (initialised :
      aecpc.init sampFreq scSampFreq = some (next, code)) :
    next.Upheld where
  toAccounted := upheld.toAccounted.init initialised
  guarded := by
    intro flagged
    rcases upheld.toAccounted.init_cases initialised with
      ⟨otherSampFreq, rfl⟩ | ⟨farPreBuf, legal, -, level, rfl⟩
    · exact { upheld.guarded flagged with }
    · exact
        (guarded_initState upheld.toAccounted legal scSampFreq
          level).setConfig ⟨1, 0, 0, 0⟩

/-- Frames that can be stuffed leave an instance guarded. -/
theorem Guarded.callCore
    {nearend : List (AecCore.BandFrames canceller)}
    {knownDelay : Option Int}
    {next : Aec canceller}
    {out : List (List (List canceller.Sample))}
    (guarded : aecpc.Guarded)
    (running : aecpc.Running)
    (entered : ∀ known ∈ knownDelay, aecpc.Entered known)
    (stuffable :
      ∀ known ∈ knownDelay,
        AecCore.AtFrames (AecCore.Stuffable known) known nearend
          { aecpc.aec with frameCount := aecpc.aec.frameCount + 1 })
    (called : aecpc.callCore nearend knownDelay = some (next, out)) :
    next.Guarded := by
  cases knownDelay with
  | none =>
      cases called
      exact guarded
  | some knownDelay =>
      obtain ⟨known, known_le, started⟩ := entered knownDelay rfl
      obtain ⟨⟨aec, frames⟩, processed, isNext⟩ :=
        Option.map_eq_some_iff.mp called
      cases isNext
      obtain ⟨pendingNonneg, few⟩ := running.pending_bounds
      obtain ⟨-, asserted⟩ :=
        running.core.processFrames
          (fun core => core.Asserted aecpc.pending)
          (AecCore.Stuffable knownDelay)
          (fun ready asserted stuffable step =>
            step.asserted ready pendingNonneg few known known_le asserted
              stuffable)
          { guarded.asserted with } (stuffable knownDelay rfl) processed
      exact
        { guarded with
          asserted := asserted
          startup := fun phase => absurd (phase.symm.trans started) nofun }

theorem Upheld.process
    (upheld : aecpc.Upheld)
    {nearend : List (List canceller.Sample)}
    {hasOut : Bool}
    {nrOfSamples : Nat}
    {msInSndCardBuf skew : Int}
    {next : Aec canceller}
    {answer : Answer canceller}
    (admits :
      aecpc.Admits
        (.process nearend hasOut nrOfSamples msInSndCardBuf skew))
    (processed :
      aecpc.process nearend hasOut nrOfSamples msInSndCardBuf skew =
        some (next, answer)) :
    next.Upheld where
  toAccounted := upheld.toAccounted.process processed
  guarded := by
    intro flagged
    rcases process_cases processed with ⟨rfl, -⟩ |
      ⟨checked, frames, prepared, retVal, knownDelay, out, framed, prepares,
        called⟩
    · exact upheld.guarded flagged
    · have running := upheld.running checked.initFlag
      obtain ⟨preparing, sized⟩ := prepared_prepare upheld.aec prepares
      obtain ⟨preparedGuarded, entered⟩ :=
        (upheld.guarded checked.initFlag).prepare running prepares
      refine
        preparedGuarded.callCore (running.ofPrepared preparing sized)
          entered ?_ called
      intro known isKnown
      cases isKnown
      exact admits checked frames prepared retVal known framed prepares

/-- Every call that is made under the conditions upholds the assertions. -/
theorem Upheld.perform
    (upheld : aecpc.Upheld)
    {call : Call canceller}
    {next : Aec canceller}
    (admits : aecpc.Admits call)
    (performed : aecpc.perform call = some next) :
    next.Upheld := by
  have accounted := upheld.toAccounted.perform performed
  cases call with
  | init sampFreq scSampFreq =>
      obtain ⟨⟨_, _⟩, initialised, rfl⟩ :=
        Option.map_eq_some_iff.mp performed
      exact upheld.init initialised
  | setConfig config =>
      obtain rfl := Option.some.inj performed
      refine ⟨accounted, fun flagged => ?_⟩
      have unchanged : (aecpc.setConfig config).1.initFlag = aecpc.initFlag := by
        unfold Aec.setConfig
        split
        · rfl
        · split <;> rfl
      exact (upheld.guarded (unchanged.symm.trans flagged)).setConfig config
  | enableExtendedFilter enable =>
      obtain rfl := Option.some.inj performed
      refine ⟨accounted, fun flagged => ?_⟩
      have guarded := upheld.guarded flagged
      exact { guarded with asserted := { guarded.asserted with } }
  | enableDelayAgnostic enable =>
      obtain rfl := Option.some.inj performed
      refine ⟨accounted, fun flagged => ?_⟩
      have guarded := upheld.guarded flagged
      exact { guarded with asserted := { guarded.asserted with } }
  | bufferFarend farend =>
      obtain ⟨⟨next, code⟩, buffered, rfl⟩ :=
        Option.map_eq_some_iff.mp performed
      refine ⟨accounted, fun flaggedNext => ?_⟩
      by_cases flagged : aecpc.initFlag = initCheck
      · obtain ⟨other, otherCode, otherBuffered, nextRunning, fed⟩ :=
          (upheld.running flagged).bufferFarend farend
        cases otherBuffered.symm.trans buffered
        rcases fed with rfl | ⟨length, fed⟩
        · exact upheld.guarded flagged
        · exact
            (upheld.guarded flagged).ofFed nextRunning fed
              (admits flagged)
      · obtain ⟨otherCode, refused⟩ :=
          bufferFarend_uninitialised flagged farend
        cases refused.symm.trans buffered
        exact absurd flaggedNext flagged
  | process nearend hasOut nrOfSamples msInSndCardBuf skew =>
      obtain ⟨⟨_, _⟩, processed, rfl⟩ :=
        Option.map_eq_some_iff.mp performed
      exact upheld.process admits processed

/-- What a setting changes. -/
theorem setConfig_eq
    (aecpc : Aec canceller)
    (config : AecConfig) :
    ∃ skewMode,
      (aecpc.setConfig config).1 = { aecpc with skewMode := skewMode } := by
  unfold setConfig
  split
  · exact ⟨aecpc.skewMode, rfl⟩
  · split
    · exact ⟨aecpc.skewMode, rfl⟩
    · exact ⟨config.skewMode, rfl⟩

/-- A core that has processed frames had frames for all of its bands. -/
theorem bands_of_processFrames
    {aec : AecCore canceller}
    {nearend : List (AecCore.BandFrames canceller)}
    {knownDelay : Int}
    {result : AecCore canceller × List (List (List canceller.Sample))}
    (processed : aec.processFrames nearend knownDelay = some result) :
    ∀ frames ∈ nearend, frames.2.length + 1 = aec.numBands := by
  unfold AecCore.processFrames at processed
  split at processed
  next bands => simpa using List.all_eq_true.mp bands
  · cases processed

/-- Calls that are made in one mode are made under the conditions. -/
theorem Accounted.admits
    {call : Call canceller}
    {next : Aec canceller}
    (accounted : aecpc.Accounted)
    (oneMode : aecpc.initFlag = initCheck → aecpc.aec.OneMode)
    (performed : aecpc.perform call = some next) :
    aecpc.Admits call := by
  cases call with
  | bufferFarend farend =>
      intro flagged
      exact ((oneMode flagged).stuffable 0).displacement
  | process nearend hasOut nrOfSamples msInSndCardBuf skew =>
      intro checked frames prepared retVal knownDelay framed prepares
      obtain ⟨⟨_, _⟩, processed, -⟩ := Option.map_eq_some_iff.mp performed
      rcases process_cases processed with ⟨-, refused⟩ |
        ⟨-, others, otherPrepared, otherRetVal, otherDelay, out,
          otherFramed, otherPrepares, called⟩
      · exact absurd checked refused
      · cases otherFramed.symm.trans framed
        cases otherPrepares.symm.trans prepares
        obtain ⟨⟨aec, _⟩, framesProcessed, -⟩ :=
          Option.map_eq_some_iff.mp called
        obtain ⟨preparing, sized⟩ := prepared_prepare accounted.aec prepares
        have ready :=
          (accounted.running checked.initFlag).core.ofFarMove sized
            preparing.move
        have sameMode : prepared.aec.OneMode := by
          unfold AecCore.OneMode
          rw [preparing.move.delayAgnosticEnabled, preparing.knownDelay,
            preparing.signalDelayCorrection]
          exact oneMode checked.initFlag
        have counted :
            ({ prepared.aec with
                frameCount := prepared.aec.frameCount + 1 } :
              AecCore canceller).Ready :=
          { ready with }
        refine
          AecCore.OneMode.atFrames counted sameMode knownDelay frames ?_
        intro bands member
        have few := ready.bands
        have count := bands_of_processFrames framesProcessed bands member
        omega
  | _ => trivial

/-- A call in one mode that switches to none leaves nothing of the other. -/
theorem Accounted.oneMode_perform
    {call : Call canceller}
    {next : Aec canceller}
    (accounted : aecpc.Accounted)
    (oneMode : aecpc.initFlag = initCheck → aecpc.aec.OneMode)
    (noSwitch : ∀ enable, call ≠ .enableDelayAgnostic enable)
    (performed : aecpc.perform call = some next) :
    next.initFlag = initCheck → next.aec.OneMode := by
  intro flaggedNext
  cases call with
  | init sampFreq scSampFreq =>
      obtain ⟨⟨_, _⟩, initialised, rfl⟩ :=
        Option.map_eq_some_iff.mp performed
      rcases accounted.init_cases initialised with ⟨otherSampFreq, rfl⟩ |
        ⟨farPreBuf, -, -, -, rfl⟩
      · exact oneMode flaggedNext
      · exact AecCore.oneMode_initAec aecpc.aec sampFreq
  | setConfig config =>
      obtain rfl := Option.some.inj performed
      obtain ⟨skewMode, configured⟩ := aecpc.setConfig_eq config
      rw [configured] at flaggedNext ⊢
      exact oneMode flaggedNext
  | enableExtendedFilter enable =>
      obtain rfl := Option.some.inj performed
      exact oneMode flaggedNext
  | enableDelayAgnostic enable => exact absurd rfl (noSwitch enable)
  | bufferFarend farend =>
      obtain ⟨⟨next, code⟩, buffered, rfl⟩ :=
        Option.map_eq_some_iff.mp performed
      by_cases flagged : aecpc.initFlag = initCheck
      · obtain ⟨other, otherCode, otherBuffered, -, fed⟩ :=
          (accounted.running flagged).bufferFarend farend
        cases otherBuffered.symm.trans buffered
        rcases fed with rfl | ⟨length, fed⟩
        · exact oneMode flagged
        · have mode :
              next.aec.delayAgnosticEnabled =
                aecpc.aec.delayAgnosticEnabled :=
            fed.move.delayAgnosticEnabled
          unfold AecCore.OneMode
          rw [mode, fed.filled.knownDelay, fed.filled.signalDelayCorrection]
          exact oneMode flagged
      · obtain ⟨otherCode, refused⟩ :=
          bufferFarend_uninitialised flagged farend
        cases refused.symm.trans buffered
        exact absurd flaggedNext flagged
  | process nearend hasOut nrOfSamples msInSndCardBuf skew =>
      obtain ⟨⟨_, _⟩, processed, rfl⟩ :=
        Option.map_eq_some_iff.mp performed
      rcases process_cases processed with ⟨rfl, -⟩ |
        ⟨checked, frames, prepared, retVal, knownDelay, out, -, prepares,
          called⟩
      · exact oneMode flaggedNext
      · obtain ⟨preparing, sized⟩ := prepared_prepare accounted.aec prepares
        have running :=
          (accounted.running checked.initFlag).ofPrepared preparing sized
        have sameMode : prepared.aec.OneMode := by
          unfold AecCore.OneMode
          rw [preparing.move.delayAgnosticEnabled, preparing.knownDelay,
            preparing.signalDelayCorrection]
          exact oneMode checked.initFlag
        cases knownDelay with
        | none =>
            cases called
            exact sameMode
        | some knownDelay =>
            obtain ⟨⟨aec, _⟩, framesProcessed, isNext⟩ :=
              Option.map_eq_some_iff.mp called
            cases isNext
            exact
              (running.core.processFrames AecCore.OneMode (fun _ => True)
                (fun _ oneMode _ step => step.oneMode oneMode) sameMode
                (AecCore.atFrames_true ..) framesProcessed).2


theorem uninitialised_of_create
    {memory created : Aec canceller}
    (creates : memory.create = some created) :
    created.initFlag ≠ initCheck := by
  unfold create at creates
  obtain ⟨_, -, creates⟩ := Option.bind_eq_some_iff.mp creates
  obtain ⟨_, -, creates⟩ := Option.bind_eq_some_iff.mp creates
  obtain rfl := Option.some.inj creates
  show (0 : Int) ≠ initCheck
  decide

/-- A run that never switches the mode is made under the conditions. -/
theorem admitted_of_noSwitch
    {memory created final : Aec canceller}
    {moves : List (Move (Aec canceller) (Call canceller))}
    (creates : memory.create = some created)
    (path : Path (stepOf perform) created moves final)
    (noSwitch :
      ∀ move ∈ moves, ∀ enable, move.label ≠ .enableDelayAgnostic enable) :
    ∀ move ∈ moves, move.source.Admits move.label := by
  have oneMode :=
    path.invariant_of_guard
      (fun aecpc =>
        aecpc.Accounted ∧ (aecpc.initFlag = initCheck → aecpc.aec.OneMode))
      (fun _ call => ∀ enable, call ≠ .enableDelayAgnostic enable)
      (fun held noSwitch taken =>
        ⟨held.1.perform taken, held.1.oneMode_perform held.2 noSwitch taken⟩)
      ⟨accounted_create creates,
        fun flagged =>
          absurd flagged (uninitialised_of_create creates)⟩
      noSwitch
  intro move member
  obtain ⟨accounted, mode⟩ := (oneMode.1 move member).1
  exact accounted.admits mode (path.step_of_mem member)

/--
In every run from a created instance whose calls are all made under the conditions, every
block has found a far-end block and no negative system delay has been set since the
initialisation.
-/
theorem assertions_hold_of_admitted
    {memory created final : Aec canceller}
    {moves : List (Move (Aec canceller) (Call canceller))}
    (creates : memory.create = some created)
    (path : Path (stepOf perform) created moves final)
    (admitted : ∀ move ∈ moves, move.source.Admits move.label)
    (initialised : final.initFlag = initCheck) :
    final.aec.assertions.farBlockFound = true ∧
      final.aec.assertions.systemDelayNonneg = true := by
  have start : created.Upheld :=
    ⟨accounted_create creates,
      fun flagged => absurd flagged (uninitialised_of_create creates)⟩
  have upheld :=
    (path.invariant_of_guard Upheld Admits
      (fun upheld admits taken => upheld.perform admits taken) start
      admitted).2
  have asserted := (upheld.guarded initialised).asserted
  exact ⟨asserted.farBlockFound, asserted.systemDelayNonneg⟩

/-- The first frame of a new instance keeps the assertions. -/
theorem assertions_hold_after_firstCalls :
    ∃ final,
      stateAfter (@firstCalls plain) = some final ∧
        final.aec.signalDelayCorrection = 1 ∧
          final.aec.assertions.farBlockFound = true ∧
            final.aec.assertions.systemDelayNonneg = true := by
  obtain ⟨final, reached, evaluated⟩ :=
    (Option.any_eq_true _ _).mp stateAfter_firstCalls
  simp only [Bool.and_eq_true, decide_eq_true_eq, beq_iff_eq] at evaluated
  obtain ⟨⟨initialised, -⟩, corrected⟩ := evaluated
  obtain ⟨created, moves, creates, path, labels⟩ :=
    path_of_stateAfter reached
  have noSwitch :
      ∀ move ∈ moves, ∀ enable,
        move.label ≠ .enableDelayAgnostic enable := by
    intro move member enable
    have called : move.label ∈ @firstCalls plain :=
      labels ▸ List.mem_map_of_mem member
    simp only [firstCalls, playTenMs, captureTenMs, List.cons_append,
      List.mem_cons, List.mem_append, List.mem_replicate,
      List.not_mem_nil, or_false] at called
    rcases called with isInit | ⟨-, isPlay⟩ | isCapture
    · rw [isInit]
      nofun
    · rw [isPlay]
      nofun
    · rw [isCapture]
      nofun
  exact
    ⟨final, reached, corrected,
      assertions_hold_of_admitted creates path
        (admitted_of_noSwitch creates path noSwitch) initialised⟩

/-! ## A correction that is left over -/

/-- A canceller whose delay estimator needs 50 blocks to find that there is no delay. -/
def late : EchoCanceller where
  Sample := Unit
  zero := ()
  interpolate _ sample _ := sample
  android := true
  float := ⟨.exact, .exact⟩
  State := Nat
  init _ := 0
  processBlock blocks _ _ _ _ :=
    (blocks + 1, fun _ => ⟨List.replicate partLen (), List.length_replicate⟩)
  lastDelay blocks := if blocks < 50 then -2 else 0
  lastDelay_lt blocks := by
    split <;> decide
  lastDelayQuality _ := 1
  softReset blocks _ := blocks
  setAllowedOffset blocks _ := blocks
  SkewData := Unit
  newSkewData := ()
  getSkew data _ _ := (data, some 0)

/-- Half a second of both ends, in which a correction by one block is made, then the
switch to the known delay and five near-end frames without a far end. -/
def switchedCalls : List (Call late) :=
  .init 8000 48000 :: List.replicate 4 playTenMs ++
    (List.replicate 42 [playTenMs, captureTenMs]).flatten ++
      .enableDelayAgnostic false :: List.replicate 5 captureTenMs

/-- The mode can be switched while a correction is in force, and then a block is
processed that finds the far-end buffer empty. -/
theorem not_assertions_hold_after_switch :
    ¬ ∀ (canceller : EchoCanceller) (memory created final : Aec canceller)
        (moves : List (Move (Aec canceller) (Call canceller))),
        memory.create = some created →
        Path (stepOf perform) created moves final →
        final.initFlag = initCheck →
          final.aec.assertions.farBlockFound = true ∧
            final.aec.assertions.systemDelayNonneg = true := by
  intro claimed
  have failed :
      (stateAfter switchedCalls).any (fun final =>
        final.initFlag = initCheck &&
          !final.aec.assertions.farBlockFound) = true := by
    decide +kernel
  obtain ⟨final, reached, evaluated⟩ := (Option.any_eq_true _ _).mp failed
  simp only [Bool.and_eq_true, decide_eq_true_eq, Bool.not_eq_true']
    at evaluated
  obtain ⟨initialised, empty⟩ := evaluated
  obtain ⟨created, moves, creates, path, -⟩ := path_of_stateAfter reached
  have found :=
    (claimed late _ created final moves creates path initialised).1
  exact absurd (found.symm.trans empty) nofun

end Aec

end ApmSdk.Echo
