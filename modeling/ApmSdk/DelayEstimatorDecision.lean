import ApmSdk.DelayEstimatorSteps

namespace ApmSdk.DelayEstimation.Estimator

/-!
# What the validation of a candidate keeps

The histogram is read and written at the candidate, at the last delay and, as long as there is
none, at the dummy entry.  Whatever the validation says, the last delay is as before or the
candidate.
-/

variable {float : FloatOperations}
variable {self : Estimator float}
variable {dummyOk : Int → Prop}

/-- The compared entry, the dummy one included, is within the arrays. -/
theorem Sound.compareDelay_inside
    (sound : self.Sound dummyOk) :
    0 ≤ self.compareDelay ∧ self.compareDelay < self.historySize + 1 := by
  obtain ⟨_, isDummy⟩ | ⟨nonneg, inside, isLast⟩ := sound.delays
  · omega
  · omega

section

variable {candidateDelay : Int}

theorem decreaseInLastSet_returns
    (candidateHits maxHitsForSlowChange valleyLevelQ14 : Int)
    (valleyDepth : float.Value)
    (sound : self.Sound dummyOk) :
    Returns
      (self.decreaseInLastSet candidateHits maxHitsForSlowChange
        valleyLevelQ14 valleyDepth)
      fun _ => True := by
  obtain ⟨nonneg, inside⟩ := sound.compareDelay_inside
  have isLength := sound.means.1
  unfold decreaseInLastSet
  split
  next =>
      obtain ⟨mean, isMean, _⟩ :=
        @load_returns _ self.meanBitCounts _ nonneg (by omega)
      rw [isMean]
      exact Returns.pure trivial
  next =>
      exact Returns.pure trivial

/-- The loop stays within the histogram. -/
theorem lowerHistogram_returns
    {histogram : List float.Value}
    (decreaseInLastSet valleyDepth : float.Value)
    (isLength : histogram.length = self.historySize + 1) :
    Returns
      (self.lowerHistogram candidateDelay decreaseInLastSet valleyDepth
        histogram)
      fun next => next.length = self.historySize + 1 := by
  refine
    Returns.foldlM
      (fun next : List float.Value => next.length = self.historySize + 1)
      isLength fun histogram i member isLength => ?_
  have inside := List.mem_range.mp member
  rw [List.getElem?_eq_getElem (by omega), Option.bind_eq_bind,
    Option.bind_some]
  exact
    (write_returns _ (Int.natCast_nonneg i) (by omega)).imp
      fun next ⟨sameLength, _⟩ => sameLength.trans isLength

/-- The statistics are updated within the arrays. -/
theorem updateRobustValidationStatistics_returns
    (valleyDepthQ14 valleyLevelQ14 : Int)
    (sound : self.Sound dummyOk)
    (nonneg : 0 ≤ candidateDelay)
    (inside : candidateDelay < self.historySize) :
    Returns
      (self.updateRobustValidationStatistics candidateDelay valleyDepthQ14
        valleyLevelQ14)
      fun next =>
        next.Sound dummyOk ∧
          next.historySize = self.historySize ∧
          next.lastDelay = self.lastDelay := by
  have isLength := sound.histogram
  unfold updateRobustValidationStatistics
  dsimp only
  refine
    Returns.bind (load_returns nonneg (by omega)) fun value _ => ?_
  refine
    Returns.bind (write_returns _ nonneg (by omega))
      fun raised ⟨raisedLength, _⟩ => ?_
  refine
    Returns.bind (decreaseInLastSet_returns _ _ _ _ sound)
      fun decreaseInLastSet _ => ?_
  refine
    Returns.bind
      (lowerHistogram_returns decreaseInLastSet _
        (raisedLength.trans isLength))
      fun lowered loweredLength => ?_
  exact
    Returns.pure
      ⟨{ sound with histogram := loweredLength, delays := sound.delays },
        rfl, rfl⟩

/-- The validation reads within the histogram. -/
theorem histogramBasedValidation_returns
    (sound : self.Sound dummyOk)
    (nonneg : 0 ≤ candidateDelay)
    (inside : candidateDelay < self.historySize) :
    Returns (self.histogramBasedValidation candidateDelay) fun _ => True := by
  have isLength := sound.histogram
  obtain ⟨compareNonneg, compareInside⟩ := sound.compareDelay_inside
  unfold histogramBasedValidation
  dsimp only
  refine
    Returns.bind (load_returns compareNonneg (by omega)) fun threshold _ => ?_
  refine Returns.bind (load_returns nonneg (by omega)) fun value _ => ?_
  exact Returns.pure trivial

theorem validate_returns
    (validCandidate : Bool)
    (sound : self.Sound dummyOk)
    (nonneg : 0 ≤ candidateDelay)
    (inside : candidateDelay < self.historySize) :
    Returns (self.validate candidateDelay validCandidate) fun _ => True := by
  have isLength := sound.histogram
  unfold validate robustValidation
  split
  next =>
      refine
        Returns.bind (histogramBasedValidation_returns sound nonneg inside)
          fun isHistogramValid _ => ?_
      refine Returns.bind (load_returns nonneg (by omega)) fun value _ => ?_
      exact Returns.pure trivial
  next =>
      exact Returns.pure trivial

/-- The histogram is adjusted within it. -/
theorem changeHistogram_returns
    (sound : self.Sound dummyOk)
    (nonneg : 0 ≤ candidateDelay)
    (inside : candidateDelay < self.historySize) :
    Returns (self.changeHistogram candidateDelay) fun next =>
      next.Sound dummyOk ∧ next.historySize = self.historySize := by
  have isLength := sound.histogram
  obtain ⟨compareNonneg, compareInside⟩ := sound.compareDelay_inside
  have lowered
      (value compared : float.Value) :
      Returns (self.lowerCompared value compared) fun histogram =>
        histogram.length = self.historySize + 1 := by
    unfold lowerCompared
    split
    next =>
        exact
          (write_returns _ compareNonneg (by omega)).imp
            fun next ⟨sameLength, _⟩ => sameLength.trans isLength
    next =>
        exact Returns.pure isLength
  unfold changeHistogram
  dsimp only
  refine Returns.bind (load_returns nonneg (by omega)) fun value _ => ?_
  refine
    Returns.bind (load_returns compareNonneg (by omega)) fun compared _ => ?_
  refine Returns.bind (lowered value compared) fun histogram loweredLength => ?_
  exact
    Returns.pure
      ⟨{ sound with histogram := loweredLength, delays := sound.delays }, rfl⟩

end

variable {found : Found}

theorem sound_setLastDelay
    (sound : self.Sound dummyOk)
    (isDelay : found.IsDelay self.historySize) :
    (self.setLastDelay found).Sound dummyOk :=
  { sound with delays := Or.inr ⟨isDelay.1, isDelay.2, rfl⟩ }

/-- A valid candidate becomes the last delay. -/
theorem accept_returns
    (sound : self.Sound dummyOk)
    (isDelay : found.IsDelay self.historySize) :
    Returns (self.accept found) fun next =>
      next.Sound dummyOk ∧
        next.historySize = self.historySize ∧
        next.lastDelay = found.candidateDelay := by
  unfold accept
  split
  next =>
      obtain ⟨changed, isChanged, changedSound, sameSize⟩ :=
        changeHistogram_returns sound isDelay.1 isDelay.2
      rw [← sameSize] at isDelay
      rw [isChanged]
      exact
        Returns.pure
          ⟨sound_setLastDelay changedSound isDelay, sameSize, rfl⟩
  next =>
      exact Returns.pure ⟨sound_setLastDelay sound isDelay, rfl, rfl⟩

/-- The last delay stays or becomes the candidate. -/
theorem decideDelay_returns
    (sound : self.Sound dummyOk)
    (isDelay : found.IsDelay self.historySize) :
    Returns (self.decideDelay found) fun (next, delay) =>
      next.Sound dummyOk ∧
        next.historySize = self.historySize ∧
        delay = next.lastDelay ∧
        (next.lastDelay = self.lastDelay ∨
          next.lastDelay = found.candidateDelay) := by
  have updated : (self.updateProbabilities found).Sound dummyOk :=
    { sound with delays := sound.delays }
  unfold decideDelay
  dsimp only
  refine
    Returns.bind
      (updateRobustValidationStatistics_returns _ _ updated isDelay.1
        isDelay.2)
      fun counted ⟨countedSound, sameSize, sameDelay⟩ => ?_
  rw [← show counted.historySize = self.historySize from sameSize] at isDelay
  refine
    Returns.bind (validate_returns _ countedSound isDelay.1 isDelay.2)
      fun validCandidate _ => ?_
  cases validCandidate with
  | false =>
      exact
        Returns.pure ⟨countedSound, sameSize, rfl, Or.inl sameDelay⟩
  | true =>
      refine
        Returns.bind (accept_returns countedSound isDelay)
          fun next ⟨nextSound, nextSize, isCandidate⟩ => ?_
      exact
        Returns.pure
          ⟨nextSound, nextSize.trans sameSize, rfl, Or.inr isCandidate⟩

/-- A near-end spectrum is processed within all arrays.  The result is a delay of the history,
or there is none yet. -/
theorem processBinarySpectrum_returns
    (spectrum : UInt32)
    (sound : self.Sound dummyOk) :
    Returns (self.processBinarySpectrum spectrum) fun (next, delay) =>
      next.Sound dummyOk ∧
        next.historySize = self.historySize ∧
        delay = next.lastDelay ∧
        (0 ≤ self.lastDelay → 0 ≤ next.lastDelay) := by
  unfold processBinarySpectrum
  rw [if_neg (not_not.mpr sound.matching)]
  refine
    Returns.bind (measure_returns spectrum sound)
      fun (measured, found) ⟨measuredSound, sameSize, sameDelay, isDelay⟩ => ?_
  rw [← sameSize] at isDelay
  refine
    (decideDelay_returns measuredSound isDelay).imp
      fun (next, delay) ⟨nextSound, nextSize, isLast, either⟩ =>
        ⟨nextSound, nextSize.trans sameSize, isLast, fun before => ?_⟩
  obtain same | isCandidate := either
  · rw [same, sameDelay]
    exact before
  · rw [isCandidate]
    exact isDelay.1

end ApmSdk.DelayEstimation.Estimator
