import ApmSdk.DelayEstimatorDecision
import ApmSdk.LabelledPath

namespace ApmSdk.DelayEstimation

/-!
# Runs of the delay estimator

Spectra of both ends come in any order, and between them the settings may change and the
histories may be shifted.
-/

/-! ## Settings -/

namespace Estimator

variable {float : FloatOperations}
variable (self : Estimator float)

/-- `WebRtc_set_lookahead` -/
def setLookahead (lookahead : Int) : Estimator float × Int :=
  if (self.nearHistorySize : Int) - 1 < lookahead ∨ lookahead < 0 then
    (self, -1)
  else ({ self with lookahead }, lookahead)

/-- `WebRtc_set_allowed_offset` -/
def setAllowedOffset (allowedOffset : Int) : Estimator float × Int :=
  if allowedOffset < 0 then (self, -1) else ({ self with allowedOffset }, 0)

/-- `WebRtc_enable_robust_validation` -/
def enableRobustValidation (enable : Int) : Estimator float × Int :=
  if enable < 0 ∨ 1 < enable then (self, -1)
  else ({ self with robustValidationEnabled := enable = 1 }, 0)

end Estimator

/-- What is called between two initialisations. -/
inductive Call where
  | addFar (spectrum : UInt32)
  | processNear (spectrum : UInt32)
  | softReset (delayShift : Int)
  | softResetFar (delayShift : Int)
  | setLookahead (lookahead : Int)
  | setAllowedOffset (allowedOffset : Int)
  | enableRobustValidation (enable : Int)
deriving Repr, DecidableEq

variable {float : FloatOperations}

/-- The estimator after a call, if that stays within its arrays. -/
def perform (self : Estimator float) (call : Call) :
    Option (Estimator float) :=
  match call with
  | .addFar spectrum => do
      let farend ← self.farend.addSpectrum spectrum
      return { self with farend }
  | .processNear spectrum => do
      let (next, _) ← self.processBinarySpectrum spectrum
      return next
  | .softReset delayShift => some (self.softReset delayShift)
  | .softResetFar delayShift => do
      let farend ← self.farend.softReset delayShift
      return { self with farend }
  | .setLookahead lookahead => some (self.setLookahead lookahead).1
  | .setAllowedOffset allowedOffset =>
      some (self.setAllowedOffset allowedOffset).1
  | .enableRobustValidation enable =>
      some (self.enableRobustValidation enable).1

/-- A soft reset of the far end leaves some of the history, as it asserts. -/
def Call.Fits (call : Call) (historySize : Nat) : Prop :=
  ∀ delayShift, call = .softResetFar delayShift →
    delayShift.natAbs < historySize

/-- Some delay once known is known for good, and the size stays. -/
def Follows
    (dummyOk : Int → Prop)
    (self next : Estimator float) : Prop :=
  next.Sound dummyOk ∧
    next.historySize = self.historySize ∧
    (0 ≤ self.lastDelay → 0 ≤ next.lastDelay)

variable {dummyOk : Int → Prop}

namespace Estimator

variable {self : Estimator float}

/-- A sound far end of the same size can replace the far end. -/
theorem follows_farend
    {farend : Farend}
    (sound : self.Sound dummyOk)
    (farSound : farend.Sound)
    (sameSize : farend.historySize = self.farend.historySize) :
    Follows dummyOk self { self with farend } :=
  ⟨{ sound with
      farend := farSound
      matching := sameSize.trans sound.matching
      delays := sound.delays },
    rfl, id⟩

/-- The lookahead can become another one within the near-end history. -/
theorem follows_lookahead
    {lookahead : Int}
    (sound : self.Sound dummyOk)
    (nonneg : 0 ≤ lookahead)
    (inside : lookahead < self.nearHistorySize) :
    Follows dummyOk self { self with lookahead } :=
  ⟨{ sound with
      lookahead := ⟨nonneg, inside⟩
      delays := sound.delays },
    rfl, id⟩

theorem follows_softReset
    (delayShift : Int)
    (sound : self.Sound dummyOk) :
    Follows dummyOk self (self.softReset delayShift) := by
  have positive := sound.nearPositive
  unfold softReset
  apply follows_lookahead sound
  · split_ifs <;> omega
  · split_ifs <;> omega

theorem follows_setLookahead
    (lookahead : Int)
    (sound : self.Sound dummyOk) :
    Follows dummyOk self (self.setLookahead lookahead).1 := by
  unfold setLookahead
  split
  next =>
      exact ⟨sound, rfl, id⟩
  next inside =>
      exact follows_lookahead sound (by omega) (by omega)

theorem follows_setAllowedOffset
    (allowedOffset : Int)
    (sound : self.Sound dummyOk) :
    Follows dummyOk self (self.setAllowedOffset allowedOffset).1 := by
  unfold setAllowedOffset
  split
  next =>
      exact ⟨sound, rfl, id⟩
  next =>
      exact ⟨{ sound with delays := sound.delays }, rfl, id⟩

theorem follows_enableRobustValidation
    (enable : Int)
    (sound : self.Sound dummyOk) :
    Follows dummyOk self (self.enableRobustValidation enable).1 := by
  unfold enableRobustValidation
  split
  next =>
      exact ⟨sound, rfl, id⟩
  next =>
      exact ⟨{ sound with delays := sound.delays }, rfl, id⟩

end Estimator

open Estimator

variable {self next : Estimator float}
variable {call : Call}

/-- A call that fits stays within all arrays. -/
theorem perform_returns
    (sound : self.Sound dummyOk)
    (fits : call.Fits self.historySize) :
    Returns (perform self call) (Follows dummyOk self) := by
  cases call with
  | addFar spectrum =>
      have positive := sound.positive
      rw [← sound.matching] at positive
      refine
        Returns.bind (Farend.addSpectrum_returns spectrum positive sound.farend)
          fun farend ⟨farSound, sameSize⟩ => ?_
      exact Returns.pure (follows_farend sound farSound sameSize)
  | processNear spectrum =>
      refine
        Returns.bind (processBinarySpectrum_returns spectrum sound)
          fun (next, delay) ⟨nextSound, sameSize, _, kept⟩ => ?_
      exact Returns.pure ⟨nextSound, sameSize, kept⟩
  | softReset delayShift =>
      exact Returns.pure (follows_softReset delayShift sound)
  | softResetFar delayShift =>
      have stays := fits delayShift rfl
      rw [← sound.matching] at stays
      refine
        Returns.bind (Farend.softReset_returns stays sound.farend)
          fun farend ⟨farSound, sameSize⟩ => ?_
      exact Returns.pure (follows_farend sound farSound sameSize)
  | setLookahead lookahead =>
      exact Returns.pure (follows_setLookahead lookahead sound)
  | setAllowedOffset allowedOffset =>
      exact Returns.pure (follows_setAllowedOffset allowedOffset sound)
  | enableRobustValidation enable =>
      exact Returns.pure (follows_enableRobustValidation enable sound)

/-- A call that stays within all arrays is one that fits. -/
theorem fits_of_perform
    (sound : self.Sound dummyOk)
    (taken : perform self call = some next) :
    call.Fits self.historySize := by
  rintro delayShift rfl
  by_contra tooFar
  rw [← sound.matching, not_lt] at tooFar
  dsimp only [perform] at taken
  rw [Farend.softReset, if_pos tooFar] at taken
  contradiction

/-- What one call keeps. -/
theorem follows_of_perform
    (sound : self.Sound dummyOk)
    (taken : perform self call = some next) :
    Follows dummyOk self next := by
  obtain ⟨other, isOther, follows⟩ :=
    perform_returns sound (fits_of_perform sound taken)
  rw [Option.some.inj (taken.symm.trans isOther)]
  exact follows

/-! ## Initialised estimators -/

/-- What the allocation leaves: sizes that match and are not zero, and a lookahead within the
near-end history. -/
structure Allocated (estimator : Estimator float) : Prop where
  positive : 0 < estimator.historySize
  matching : estimator.farend.historySize = estimator.historySize
  nearPositive : 0 < estimator.nearHistorySize
  lookahead : 0 ≤ estimator.lookahead ∧ estimator.lookahead < estimator.nearHistorySize

/-- Both ends are initialised. -/
def initialised (self : Estimator float) : Estimator float :=
  { self.init with farend := self.farend.init }

/-- The initialisation of the near end fills all of its arrays. -/
theorem sound_init
    (dummyMeets : dummyOk (20 * 2 ^ 9))
    (allocated : Allocated self)
    (farSound : self.farend.Sound) :
    self.init.Sound dummyOk where
  positive := allocated.positive
  nearPositive := allocated.nearPositive
  farend := farSound
  matching := allocated.matching
  bitCounts := List.length_replicate
  nearHistory := List.length_replicate
  lookahead := allocated.lookahead
  means := by
    refine ⟨List.length_replicate, fun i mean isEntry => ?_⟩
    rw [List.eq_of_mem_replicate (List.mem_of_getElem? isEntry)]
    exact ⟨fun _ => by decide, fun _ => dummyMeets⟩
  histogram := List.length_replicate
  delays := Or.inl ⟨rfl, rfl⟩

/-- An estimator after it has been initialised, with any calls and further initialisations of
the near end since. -/
inductive Reached : Estimator float → Prop where
  | start
      {self : Estimator float}
      (allocated : Allocated self) :
      Reached (initialised self)
  | again
      {self : Estimator float}
      (reached : Reached self) :
      Reached self.init
  | call
      {self next : Estimator float}
      (call : Call)
      (reached : Reached self)
      (taken : perform self call = some next) :
      Reached next

/-- An initialised estimator stays sound. -/
theorem Reached.sound
    (reached : Reached self) :
    self.Sound IsMean := by
  induction reached with
  | @start self allocated =>
      exact
        @sound_init _ IsMean { self with farend := self.farend.init }
          (by decide)
          ⟨allocated.positive, allocated.matching, allocated.nearPositive,
            allocated.lookahead⟩
          Farend.sound_init
  | again reached inductionHypothesis =>
      exact
        sound_init (by decide)
          ⟨inductionHypothesis.positive, inductionHypothesis.matching,
            inductionHypothesis.nearPositive,
            inductionHypothesis.lookahead⟩
          inductionHypothesis.farend
  | call call reached taken inductionHypothesis =>
      exact (follows_of_perform inductionHypothesis taken).1

/-- A delay that is known stays known over all calls. -/
theorem lastDelay_nonneg_of_path
    {moves : List (Move (Estimator float) Call)}
    {later : Estimator float}
    (sound : self.Sound dummyOk)
    (known : 0 ≤ self.lastDelay)
    (path : Path (stepOf perform) self moves later) :
    0 ≤ later.lastDelay := by
  have kept :=
    path.invariant
      (fun estimator => estimator.Sound dummyOk ∧ 0 ≤ estimator.lastDelay)
      (fun before taken => by
        obtain ⟨nextSound, _, stays⟩ := follows_of_perform before.1 taken
        exact ⟨nextSound, stays before.2⟩)
      ⟨sound, known⟩
  exact kept.2.2

/-! ## The contract -/

/-- What is promised of an estimator: its means are below all bits, a candidate is found among
the delays of its history, the result is one of them or there is none yet, and once there is
one there is one after any calls.  All of it stays within the arrays. -/
structure Promised (estimator : Estimator float) : Prop where
  means :
    estimator.meanBitCounts.length = estimator.historySize + 1 ∧
      ∀ mean ∈ estimator.meanBitCounts, 0 ≤ mean ∧ mean < 32 * 2 ^ 9
  measured :
    ∀ spectrum,
      Returns (estimator.measure spectrum) fun (_, found) =>
        0 ≤ found.candidateDelay ∧ found.candidateDelay < estimator.historySize
  processed :
    ∀ spectrum,
      Returns (estimator.processBinarySpectrum spectrum) fun (next, delay) =>
        delay = next.lastDelay ∧
          (delay = -2 ∨ 0 ≤ delay ∧ delay < estimator.historySize)
  performed :
    ∀ call : Call,
      call.Fits estimator.historySize →
        Returns (perform estimator call) fun next =>
          next.historySize = estimator.historySize
  known :
    0 ≤ estimator.lastDelay →
      ∀ (moves : List (Move (Estimator float) Call)) (later : Estimator float),
        Path (stepOf perform) estimator moves later → 0 ≤ later.lastDelay

/-- Every initialised estimator keeps its promises. -/
theorem estimator_promised
    (reached : Reached self) :
    Promised self := by
  have sound := reached.sound
  refine ⟨⟨sound.means.1, fun mean member => ?_⟩, ?_, ?_, ?_, ?_⟩
  · obtain ⟨i, isEntry⟩ := List.getElem?_of_mem member
    obtain ⟨inside, _⟩ := List.getElem?_eq_some_iff.mp isEntry
    have isLength := sound.means.1
    obtain ⟨below, dummy⟩ := sound.means.2 i mean isEntry
    obtain inHistory | isDummy : i < self.historySize ∨ i = self.historySize := by
      omega
    · exact below inHistory
    · exact dummy isDummy
  · intro spectrum
    exact
      (measure_returns spectrum sound).imp
        fun _ ⟨_, _, _, isDelay⟩ => isDelay
  · intro spectrum
    refine
      (processBinarySpectrum_returns spectrum sound).imp
        fun (next, delay) ⟨nextSound, sameSize, isLast, _⟩ => ⟨isLast, ?_⟩
    obtain ⟨isNone, _⟩ | ⟨nonneg, inside, _⟩ := nextSound.delays
    · exact Or.inl (isLast.trans isNone)
    · rw [isLast, ← sameSize]
      exact Or.inr ⟨nonneg, inside⟩
  · intro call fits
    exact (perform_returns sound fits).imp fun _ follows => follows.2.1
  · intro known moves later path
    exact lastDelay_nonneg_of_path sound known path

/-- Arithmetic without rounding. -/
def exactOperations : FloatOperations where
  Value := Rat
  ofInt := fun value => value
  literal := id
  add := (· + ·)
  sub := (· - ·)
  mul := (· * ·)
  less := fun first second => first < second
  lessEqual := fun first second => first ≤ second

/-- An estimator for two delays, without lookahead, before it is initialised. -/
def twoDelays : Estimator exactOperations where
  meanBitCounts := []
  bitCounts := []
  binaryNearHistory := []
  nearHistorySize := 1
  historySize := 2
  minimumProbability := 0
  lastDelayProbability := 0
  lastDelay := 0
  robustValidationEnabled := true
  allowedOffset := 0
  lastCandidateDelay := 0
  compareDelay := 0
  candidateHits := 0
  histogram := []
  lastDelayHistogram := (0 : Rat)
  lookahead := 0
  farend := ⟨[], [], 2⟩

/-- The estimator for two delays keeps its promises once it is initialised. -/
theorem estimator_promised_twoDelays :
    Promised (initialised twoDelays) :=
  estimator_promised
    (Reached.start ⟨by decide, rfl, by decide, by decide, by decide⟩)

end ApmSdk.DelayEstimation
