import ApmSdk.DelayEstimator

namespace ApmSdk.DelayEstimation

/-!
# What each step of the delay estimator keeps

All indices are within their arrays, the dummy entry included, and every mean stays below 32
bits, so that there is always a smallest one.
-/

open ArrayCopies StoreLoops

variable {Value : Type}

/-! ## Arrays -/

section

variable {array history : List Value}
variable {value zero : Value}

/-- A read within an array. -/
theorem load_returns
    {index : Int}
    (nonneg : 0 ≤ index)
    (inside : index < array.length) :
    Returns (load array index) fun value => value ∈ array := by
  unfold load
  rw [if_pos nonneg]
  exact
    ⟨_, List.getElem?_eq_getElem (by omega), List.getElem_mem (by omega)⟩

/-- A write within an array. -/
theorem write_returns
    (value : Value)
    {index : Int}
    (nonneg : 0 ≤ index)
    (inside : index < array.length) :
    Returns (write array index value) fun next =>
      next.length = array.length ∧
        ∀ k entry,
          next[k]? = some entry →
            array[k]? = some entry ∨ k = index.toNat ∧ entry = value := by
  have within : index.toNat < array.length := by
    omega
  unfold write store
  rw [if_pos nonneg, Option.bind_eq_bind, Option.bind_some, if_pos within]
  refine Returns.pure ⟨List.length_set, fun k entry isEntry => ?_⟩
  by_cases same : index.toNat = k
  · rw [← same, List.getElem?_set_self within] at isEntry
    exact Or.inr ⟨same.symm, (Option.some.inj isEntry).symm⟩
  · rw [List.getElem?_set_ne same] at isEntry
    exact Or.inl isEntry

/-- A part of an array within it. -/
theorem slice_returns
    {start count : Nat}
    (inside : start + count ≤ array.length) :
    Returns (slice array start count) fun part =>
      part.length = count ∧ ∀ entry ∈ part, entry ∈ array := by
  unfold slice
  rw [if_pos inside]
  refine Returns.pure ⟨?_, fun entry member => ?_⟩
  · rw [List.length_take, List.length_drop]
    omega
  · exact List.mem_of_mem_drop (List.mem_of_mem_take member)

/-- A part of an array replaced. -/
theorem overwrite_returns
    {start : Nat}
    {block : List Value}
    (inside : start + block.length ≤ array.length) :
    Returns (overwrite array start block) fun next =>
      next.length = array.length ∧
        ∀ entry ∈ next, entry ∈ array ∨ entry ∈ block := by
  unfold overwrite
  rw [if_pos inside]
  refine Returns.pure ⟨?_, fun entry member => ?_⟩
  · simp only [List.length_append, List.length_take, List.length_drop]
    omega
  · rw [List.mem_append, List.mem_append] at member
    obtain (before | inBlock) | behind := member
    · exact Or.inl (List.mem_of_mem_take before)
    · exact Or.inr inBlock
    · exact Or.inl (List.mem_of_mem_drop behind)

/-- A value in front of a history, whose last one is lost. -/
theorem pushFront_returns
    {size : Nat}
    (value : Value)
    (positive : 0 < size)
    (isLength : history.length = size) :
    Returns (pushFront history size value) fun next =>
      next.length = size ∧
        ∀ entry ∈ next, entry ∈ history ∨ entry = value := by
  unfold pushFront
  refine
    Returns.bind (slice_returns (by omega)) fun kept ⟨keptLength, fromKept⟩ => ?_
  refine
    Returns.bind (overwrite_returns (by omega))
      fun moved ⟨movedLength, fromMoved⟩ => ?_
  refine (write_returns value (Int.le_refl 0) (by omega)).imp
    fun next ⟨nextLength, fromNext⟩ => ⟨by omega, fun entry member => ?_⟩
  obtain ⟨k, isEntry⟩ := List.getElem?_of_mem member
  obtain isMoved | ⟨_, isValue⟩ := fromNext k entry isEntry
  · obtain inHistory | inKept :=
      fromMoved entry (List.mem_of_getElem? isMoved)
    · exact Or.inl inHistory
    · exact Or.inl (fromKept entry inKept)
  · exact Or.inr isValue

/-- A shifted history is as long, padded with zeros. -/
theorem shiftHistory_returns
    {historySize : Nat}
    {delayShift : Int}
    (isLength : history.length = historySize)
    (stays : delayShift.natAbs < historySize) :
    Returns (Farend.shiftHistory history zero historySize delayShift)
      fun next =>
        next.length = historySize ∧
          ∀ entry ∈ next, entry ∈ history ∨ entry = zero := by
  unfold Farend.shiftHistory
  dsimp only
  refine
    Returns.bind (slice_returns (by split <;> omega))
      fun kept ⟨keptLength, fromKept⟩ => ?_
  refine
    Returns.bind (overwrite_returns (by split <;> omega))
      fun moved ⟨movedLength, fromMoved⟩ => ?_
  have padding :
      (List.replicate delayShift.natAbs zero).length = delayShift.natAbs :=
    List.length_replicate
  refine (overwrite_returns (by split <;> omega)).imp
    fun next ⟨nextLength, fromNext⟩ => ⟨by omega, fun entry member => ?_⟩
  obtain inMoved | isPadding := fromNext entry member
  · obtain inHistory | inKept := fromMoved entry inMoved
    · exact Or.inl inHistory
    · exact Or.inl (fromKept entry inKept)
  · exact Or.inr (List.eq_of_mem_replicate isPadding)

end

/-! ## The far end -/

/-- The histories of the far end are as long as they should be, and each count is one. -/
structure Farend.Sound (farend : Farend) : Prop where
  history : farend.binaryFarHistory.length = farend.historySize
  length : farend.farBitCounts.length = farend.historySize
  counts : ∀ count ∈ farend.farBitCounts, 0 ≤ count ∧ count ≤ 32

namespace Farend

variable {farend : Farend}

theorem sound_init : farend.init.Sound where
  history := List.length_replicate
  length := List.length_replicate
  counts := by
    intro count member
    rw [List.eq_of_mem_replicate member]
    omega

/-- Another spectrum of the far end is added. -/
theorem addSpectrum_returns
    (spectrum : UInt32)
    (positive : 0 < farend.historySize)
    (sound : farend.Sound) :
    Returns (farend.addSpectrum spectrum) fun next =>
      next.Sound ∧ next.historySize = farend.historySize := by
  unfold addSpectrum
  refine
    Returns.bind (pushFront_returns spectrum positive sound.history)
      fun history ⟨historyLength, _⟩ => ?_
  refine
    Returns.bind
      (pushFront_returns ((bitCount spectrum).toNat : Int) positive
        sound.length)
      fun counts ⟨countsLength, fromCounts⟩ => ?_
  refine Returns.pure ⟨⟨historyLength, countsLength, ?_⟩, rfl⟩
  intro count member
  obtain before | rfl := fromCounts count member
  · exact sound.counts count before
  · have := bitCount_le spectrum
    omega

/-- A soft reset that leaves some of the history. -/
theorem softReset_returns
    {delayShift : Int}
    (stays : delayShift.natAbs < farend.historySize)
    (sound : farend.Sound) :
    Returns (farend.softReset delayShift) fun next =>
      next.Sound ∧ next.historySize = farend.historySize := by
  unfold softReset
  rw [if_neg (by omega)]
  by_cases noShift : delayShift = 0
  · rw [if_pos noShift]
    exact Returns.pure ⟨sound, rfl⟩
  · rw [if_neg noShift]
    refine
      Returns.bind (shiftHistory_returns sound.history stays)
        fun history ⟨historyLength, _⟩ => ?_
    refine
      Returns.bind (shiftHistory_returns sound.length stays)
        fun counts ⟨countsLength, fromCounts⟩ => ?_
    refine Returns.pure ⟨⟨historyLength, countsLength, ?_⟩, rfl⟩
    intro count member
    obtain before | rfl := fromCounts count member
    · exact sound.counts count before
    · omega

end Farend

/-! ## The means -/

/-- A mean of bits stays below all of them: it moves only a part of the way to a new value. -/
theorem meanEstimatorFix_bounds
    {newValue meanValue : Int}
    {factor : Nat}
    (isCount : 0 ≤ newValue ∧ newValue ≤ kMaxBitCountsQ9)
    (isMean : 0 ≤ meanValue ∧ meanValue < kMaxBitCountsQ9)
    (shifted : 1 ≤ factor) :
    0 ≤ meanEstimatorFix newValue factor meanValue ∧
      meanEstimatorFix newValue factor meanValue < kMaxBitCountsQ9 := by
  have half
      {diff : Int}
      (nonneg : 0 ≤ diff) :
      0 ≤ diff >>> factor ∧ 2 * (diff >>> factor) ≤ diff := by
    have atLeast : (2 : Int) ^ 1 ≤ 2 ^ factor :=
      pow_le_pow_right₀ (by omega) shifted
    have positive : (0 : Int) < 2 ^ factor := by
      omega
    have quotient := Int.ediv_nonneg nonneg positive.le
    rw [Int.shiftRight_eq_div_pow]
    refine ⟨quotient, ?_⟩
    calc
      2 * (diff / 2 ^ factor) ≤ 2 ^ factor * (diff / 2 ^ factor) :=
        Int.mul_le_mul_of_nonneg_right (by omega) quotient
      _ ≤ diff := Int.mul_ediv_self_le positive.ne'
  unfold meanEstimatorFix
  dsimp only
  split
  next negative =>
      obtain ⟨lower, upper⟩ :=
        half (Int.neg_nonneg_of_nonpos negative.le)
      generalize (-(newValue - meanValue)) >>> factor = moved at *
      omega
  next nonneg =>
      obtain ⟨lower, upper⟩ := half (Int.not_lt.mp nonneg)
      generalize (newValue - meanValue) >>> factor = moved at *
      omega

/-- A mean is below all bits. -/
def IsMean (mean : Int) : Prop :=
  0 ≤ mean ∧ mean < kMaxBitCountsQ9

instance (mean : Int) : Decidable (IsMean mean) :=
  inferInstanceAs (Decidable (_ ∧ _))

/-- Means of all delays, which are below all bits, and a dummy entry that meets a condition of
its own. -/
def MeansInRange
    (dummyOk : Int → Prop)
    (meanBitCounts : List Int)
    (historySize : Nat) : Prop :=
  meanBitCounts.length = historySize + 1 ∧
    ∀ i mean,
      meanBitCounts[i]? = some mean →
        (i < historySize → IsMean mean) ∧
          (i = historySize → dummyOk mean)

variable {dummyOk : Int → Prop}

/-- What was found is a delay of the history. -/
def Found.IsDelay (found : Found) (historySize : Nat) : Prop :=
  0 ≤ found.candidateDelay ∧ found.candidateDelay < historySize

/-- Among means that are below all bits, the first one already is a candidate. -/
theorem findCandidate_returns
    {meanBitCounts : List Int}
    {historySize : Nat}
    (positive : 0 < historySize)
    (inRange : MeansInRange dummyOk meanBitCounts historySize) :
    Returns (findCandidate meanBitCounts historySize) fun found =>
      found.IsDelay historySize := by
  obtain ⟨isLength, means⟩ := inRange
  have read
      {i : Nat}
      (found : Found)
      (inside : i < historySize) :
      Returns
        (do
          let mean ← meanBitCounts[i]?
          return found.next i mean : Option Found)
        fun next => ∃ mean, next = found.next i mean ∧ IsMean mean := by
    have isRead : meanBitCounts[i]? = some meanBitCounts[i] :=
      List.getElem?_eq_getElem (by omega)
    rw [isRead]
    exact Returns.pure ⟨_, rfl, (means i _ isRead).1 inside⟩
  unfold findCandidate
  obtain ⟨rest, rfl⟩ := Nat.exists_eq_succ_of_ne_zero positive.ne'
  rw [List.range_succ_eq_map, List.foldlM_cons]
  refine
    Returns.bind (read _ positive) fun first ⟨mean, isFirst, _, below⟩ => ?_
  have isDelay : first.IsDelay (rest + 1) := by
    rw [isFirst, Found.IsDelay, Found.next, if_pos below]
    exact ⟨Int.le_refl 0, Int.ofNat_lt.mpr (Nat.succ_pos rest)⟩
  refine Returns.foldlM _ isDelay fun found i member before => ?_
  obtain ⟨j, inRest, rfl⟩ := List.mem_map.mp member
  have inside : j.succ < rest + 1 := by
    have := List.mem_range.mp inRest
    omega
  refine (read found inside).imp fun next ⟨mean, isNext, _⟩ => ?_
  rw [isNext, Found.IsDelay, Found.next]
  dsimp only
  split
  · omega
  · exact before

namespace Estimator

variable {float : FloatOperations}

/-- The last delay is that of the comparison, or there is none yet and the dummy entry is
compared. -/
def DelaysMatch (self : Estimator float) : Prop :=
  self.lastDelay = -2 ∧ self.compareDelay = self.historySize ∨
    0 ≤ self.lastDelay ∧
      self.lastDelay < self.historySize ∧
      self.compareDelay = self.lastDelay

/-- All arrays have the sizes that the estimator goes by. -/
structure Sound
    (dummyOk : Int → Prop)
    (estimator : Estimator float) : Prop where
  positive : 0 < estimator.historySize
  nearPositive : 0 < estimator.nearHistorySize
  farend : estimator.farend.Sound
  matching : estimator.farend.historySize = estimator.historySize
  bitCounts : estimator.bitCounts.length = estimator.historySize
  nearHistory :
    estimator.binaryNearHistory.length = estimator.nearHistorySize
  lookahead :
    0 ≤ estimator.lookahead ∧
      estimator.lookahead < estimator.nearHistorySize
  means :
    MeansInRange dummyOk estimator.meanBitCounts estimator.historySize
  histogram : estimator.histogram.length = estimator.historySize + 1
  delays : estimator.DelaysMatch

variable {self : Estimator float}

/-- The near-end spectrum that is compared is there. -/
theorem delayNear_returns
    (spectrum : UInt32)
    (sound : self.Sound dummyOk) :
    Returns (self.delayNear spectrum) fun (history, _) =>
      history.length = self.nearHistorySize := by
  unfold delayNear
  split
  next =>
      refine
        Returns.bind
          (pushFront_returns spectrum sound.nearPositive sound.nearHistory)
          fun history ⟨isLength, _⟩ => ?_
      obtain ⟨nonneg, inside⟩ := sound.lookahead
      refine
        Returns.bind (load_returns nonneg (by omega)) fun delayed _ => ?_
      exact Returns.pure isLength
  next =>
      exact Returns.pure sound.nearHistory

/-- The bits that differ are counted for each delay. -/
theorem bitCountComparison_returns
    (spectrum : UInt32)
    (sound : self.Sound dummyOk) :
    Returns
      (bitCountComparison spectrum self.farend.binaryFarHistory
        self.historySize self.bitCounts)
      fun bitCounts =>
        bitCounts.length = self.historySize ∧
          ∀ i < self.historySize,
            ∃ bitCount,
              bitCounts[i]? = some bitCount ∧
                0 ≤ bitCount ∧ bitCount ≤ 32 := by
  have far := sound.farend.history
  rw [sound.matching] at far
  unfold bitCountComparison
  refine (storeAll_eq ?_ ?_).imp fun next ⟨isLength, written, _⟩ => ?_
  · intro n member
    have inside := List.mem_range.mp member
    refine ⟨?_, ?_⟩
    · rw [sound.bitCounts]
      exact inside
    · rw [List.getElem?_eq_getElem (by omega)]
      rfl
  · intro first _ second _ same
    obtain rfl : first = second := same
    rfl
  · refine ⟨isLength.trans sound.bitCounts, fun i inside => ?_⟩
    have inHistory : i < self.farend.binaryFarHistory.length := by
      omega
    have count := bitCount_le (spectrum ^^^ self.farend.binaryFarHistory[i])
    have isCount := written i (List.mem_range.mpr inside)
    rw [List.getElem?_eq_getElem inHistory] at isCount
    exact ⟨_, isCount, by omega, by omega⟩

/-- The mean of a delay is smoothed by the bits that differ there. -/
theorem smoothOne_returns
    {bitCounts meanBitCounts : List Int}
    {i : Nat}
    {bitCount : Int}
    (sound : self.Sound dummyOk)
    (inRange : MeansInRange dummyOk meanBitCounts self.historySize)
    (inside : i < self.historySize)
    (isBitCount : bitCounts[i]? = some bitCount)
    (bits : 0 ≤ bitCount ∧ bitCount ≤ 32) :
    Returns (self.smoothOne bitCounts meanBitCounts i) fun next =>
      MeansInRange dummyOk next self.historySize := by
  obtain ⟨isLength, means⟩ := inRange
  have far := sound.farend.length
  rw [sound.matching] at far
  have inFar : i < self.farend.farBitCounts.length := by
    omega
  have inMeans : i < meanBitCounts.length := by
    omega
  obtain ⟨nonneg, atMost⟩ :=
    sound.farend.counts _ (List.getElem_mem inFar)
  unfold smoothOne
  rw [isBitCount, List.getElem?_eq_getElem inFar,
    List.getElem?_eq_getElem inMeans]
  dsimp only [Option.bind_eq_bind, Option.bind_some]
  split
  next =>
      -- at most 6 of 13 shifts are taken off
      have shifted :
          1 ≤
            (kShiftsAtZero -
              (kShiftsLinearSlope * self.farend.farBitCounts[i]) >>>
                (4 : Nat)).toNat := by
        rw [Int.shiftRight_eq_div_pow]
        dsimp only [kShiftsAtZero, kShiftsLinearSlope]
        omega
      have isMean :=
        (means i _ (List.getElem?_eq_getElem inMeans)).1 inside
      have smoothed :=
        meanEstimatorFix_bounds
          (by dsimp only [kMaxBitCountsQ9]; omega :
            0 ≤ bitCount * 2 ^ 9 ∧ bitCount * 2 ^ 9 ≤ kMaxBitCountsQ9)
          isMean shifted
      refine
        (write_returns _ (Int.natCast_nonneg i)
          (Int.ofNat_lt.mpr inMeans)).imp
          fun next ⟨sameLength, fromMeans⟩ =>
            ⟨sameLength.trans isLength, fun k mean isNext => ?_⟩
      obtain before | ⟨isIndex, rfl⟩ := fromMeans k mean isNext
      · exact means k mean before
      · exact ⟨fun _ => smoothed, fun isDummy => by omega⟩
  next =>
      exact Returns.pure ⟨isLength, means⟩

/-- The part that finds the candidate stays within all arrays and finds one. -/
theorem measure_returns
    (spectrum : UInt32)
    (sound : self.Sound dummyOk) :
    Returns (self.measure spectrum) fun (next, found) =>
      next.Sound dummyOk ∧
        next.historySize = self.historySize ∧
        next.lastDelay = self.lastDelay ∧
        found.IsDelay self.historySize := by
  unfold measure
  refine
    Returns.bind (delayNear_returns spectrum sound)
      fun (history, delayed) nearLength => ?_
  refine
    Returns.bind (bitCountComparison_returns delayed sound)
      fun bitCounts ⟨isLength, counted⟩ => ?_
  refine
    Returns.bind
      (Returns.foldlM (fun means => MeansInRange dummyOk means self.historySize)
        sound.means fun means i member inRange => ?_)
      fun meanBitCounts means => ?_
  · have inside := List.mem_range.mp member
    obtain ⟨bitCount, isBitCount, bits⟩ := counted i inside
    exact smoothOne_returns sound inRange inside isBitCount bits
  · refine
      Returns.bind (findCandidate_returns sound.positive means)
        fun found isDelay => ?_
    refine
      Returns.pure
        ⟨{ sound with
            bitCounts := isLength
            nearHistory := nearLength
            means := means
            delays := sound.delays },
          rfl, rfl, isDelay⟩

end Estimator

end ApmSdk.DelayEstimation
