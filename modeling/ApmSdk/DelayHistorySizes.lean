import ApmSdk.DelayEstimatorRuns

namespace ApmSdk.DelayEstimation

/-!
# Other sizes of the delay history

A delay estimator can be given another history size between two spectra.  The arrays are
reallocated and their new part is cleared, but the last delay and the index that is compared
stay what they were.  Memory never runs out.
-/

open ArrayCopies StoreLoops

variable {Value : Type}

/-! ## Reallocation -/

/-- `realloc`: what is behind the old contents is `fresh`. -/
def realloc (array : List Value) (size : Nat) (fresh : Nat → Value) :
    List Value :=
  (List.range size).map fun i => array.getD i (fresh i)

/-- An array for another history size, with some entries more, whose new part is filled with
zeros. -/
def resizeArray
    (array : List Value)
    (zero : Value)
    (fresh : Nat → Value)
    (oldSize newSize extra : Nat) : Option (List Value) :=
  let array := realloc array (newSize + extra) fresh
  if oldSize < newSize then
    overwrite array oldSize (List.replicate (newSize - oldSize) zero)
  else some array

/-- What memory holds before it is used. -/
structure Fresh (float : FloatOperations) where
  words : Nat → Int
  spectra : Nat → UInt32
  values : Nat → float.Value

variable {float : FloatOperations}

/-- `WebRtc_AllocateFarendBufferMemory` -/
def Farend.allocate
    (self : Farend)
    (historySize : Nat)
    (fresh : Fresh float) : Option Farend := do
  let binaryFarHistory ←
    resizeArray self.binaryFarHistory 0 fresh.spectra self.historySize
      historySize 0
  let farBitCounts ←
    resizeArray self.farBitCounts 0 fresh.words self.historySize historySize 0
  return { binaryFarHistory, farBitCounts, historySize }

namespace Estimator

variable (self : Estimator float)

/-- The far end with a history size, reallocated if it has another one. -/
def matchFarend (historySize : Nat) (fresh : Fresh float) : Option Farend :=
  if historySize ≠ self.farend.historySize then
    self.farend.allocate historySize fresh
  else some self.farend

/-- `WebRtc_AllocateHistoryBufferMemory` -/
def allocate (historySize : Nat) (fresh : Fresh float) :
    Option (Estimator float) := do
  let farend ← self.matchFarend historySize fresh
  let meanBitCounts ←
    resizeArray self.meanBitCounts 0 fresh.words self.historySize
      historySize 1
  let bitCounts ←
    resizeArray self.bitCounts 0 fresh.words self.historySize historySize 0
  let histogram ←
    resizeArray self.histogram (float.literal 0) fresh.values
      self.historySize historySize 1
  return { self with
    farend
    meanBitCounts
    bitCounts
    histogram
    historySize }

/-- `WebRtc_set_history_size` -/
def setHistorySize (historySize : Int) (fresh : Fresh float) :
    Option (Estimator float) :=
  if historySize ≤ 1 then some self
  else self.allocate historySize.toNat fresh

end Estimator

/-! ## Operations -/

/-- The operations on an estimator, initialisations and changes of the history size among
them. -/
inductive Operation (float : FloatOperations) where
  | init
  | initFar
  | setHistorySize (historySize : Int) (fresh : Fresh float)
  | call (call : Call)

/-- The estimator after an operation, if that stays within its arrays. -/
def operate (self : Estimator float) (operation : Operation float) :
    Option (Estimator float) :=
  match operation with
  | .init => some self.init
  | .initFar => some { self with farend := self.farend.init }
  | .setHistorySize historySize fresh =>
      self.setHistorySize historySize fresh
  | .call call => perform self call

/-- The last delay and the compared index are within the history, and as long as there is no
delay the dummy entry is compared. -/
def IndicesKept (self : Estimator float) : Prop :=
  self.compareDelay ≤ self.historySize ∧
    self.lastDelay < self.historySize ∧
    (self.lastDelay = -2 → self.compareDelay = self.historySize)

/-- An operation that meets its assertion stays within the arrays and keeps the indices. -/
def OperationKept
    (self : Estimator float)
    (operation : Operation float) : Prop :=
  (∀ call : Call, operation = .call call → call.Fits self.historySize) →
    Returns (operate self operation) IndicesKept

/-- A history size that is taken is the old one as long as there is no delay, and is larger
than the last delay if there is one. -/
def OperationClean
    (self : Estimator float)
    (operation : Operation float) : Prop :=
  ∀ historySize fresh,
    operation = .setHistorySize historySize fresh →
      historySize ≤ 1 ∨
        if self.lastDelay < 0 then historySize = self.historySize
        else self.lastDelay < historySize

/-! ## What a reallocation leaves -/

section

variable {array block : List Value}

/-- A part that is replaced, entry by entry. -/
theorem getElem?_of_overwrite
    {start : Nat}
    (inside : start + block.length ≤ array.length) :
    Returns (overwrite array start block) fun next =>
      next.length = array.length ∧
        ∀ i,
          next[i]? =
            if start ≤ i ∧ i < start + block.length then block[i - start]?
            else array[i]? := by
  unfold overwrite
  rw [if_pos inside]
  refine Returns.pure ⟨?_, fun i => ?_⟩
  · simp only [List.length_append, List.length_take, List.length_drop]
    omega
  · have headLength : (array.take start).length = start :=
      List.length_take_of_le (by omega)
    rw [List.append_assoc]
    obtain before | inBlock | behind :
        i < start ∨
          start ≤ i ∧ i < start + block.length ∨
          start + block.length ≤ i := by
      omega
    · rw [if_neg (by omega), List.getElem?_append_left (by omega),
        List.getElem?_take_of_lt before]
    · rw [if_pos inBlock, List.getElem?_append_right (by omega), headLength,
        List.getElem?_append_left (by omega)]
    · rw [if_neg (by omega), List.getElem?_append_right (by omega),
        headLength, List.getElem?_append_right (by omega),
        List.getElem?_drop]
      congr 1
      omega

/-- A resized array has its old entries and zeros behind them. -/
theorem resizeArray_returns
    {zero : Value}
    {fresh : Nat → Value}
    {oldSize newSize extra : Nat}
    (isLength : array.length = oldSize + extra) :
    Returns (resizeArray array zero fresh oldSize newSize extra) fun next =>
      next.length = newSize + extra ∧
        ∀ i < newSize,
          next[i]? = if i < oldSize then array[i]? else some zero := by
  have reallocated :
      (realloc array (newSize + extra) fresh).length = newSize + extra := by
    rw [realloc, List.length_map, List.length_range]
  have entry
      {i : Nat}
      (inside : i < newSize + extra)
      (old : i < oldSize) :
      (realloc array (newSize + extra) fresh)[i]? = array[i]? := by
    rw [realloc, List.getElem?_map, List.getElem?_range inside,
      Option.map_some, List.getD_eq_getElem?_getD,
      List.getElem?_eq_getElem (by omega), Option.getD_some]
  unfold resizeArray
  dsimp only
  split
  next grows =>
      have zeros :
          (List.replicate (newSize - oldSize) zero).length =
            newSize - oldSize :=
        List.length_replicate
      refine (getElem?_of_overwrite (by omega)).imp
        fun next ⟨nextLength, entries⟩ =>
          ⟨nextLength.trans reallocated, fun i inside => ?_⟩
      rw [entries, zeros]
      split_ifs
      · omega
      · exact List.getElem?_replicate_of_lt (by omega)
      · exact entry (by omega) (by omega)
      · omega
  next shrinks =>
      refine Returns.pure ⟨reallocated, fun i inside => ?_⟩
      rw [if_pos (by omega)]
      exact entry (by omega) (by omega)

end

/-- A far end of another size is as sound as before. -/
theorem Farend.allocate_returns
    {farend : Farend}
    {historySize : Nat}
    (fresh : Fresh float)
    (sound : farend.Sound) :
    Returns (farend.allocate historySize fresh) fun next =>
      next.Sound ∧ next.historySize = historySize := by
  unfold allocate
  refine
    Returns.bind (resizeArray_returns sound.history)
      fun history ⟨historyLength, _⟩ => ?_
  refine
    Returns.bind (resizeArray_returns sound.length)
      fun counts ⟨countsLength, entries⟩ => ?_
  refine Returns.pure ⟨⟨historyLength, countsLength, ?_⟩, rfl⟩
  intro count member
  dsimp only at member
  obtain ⟨i, isEntry⟩ := List.getElem?_of_mem member
  obtain ⟨inside, _⟩ := List.getElem?_eq_some_iff.mp isEntry
  rw [entries i (by omega)] at isEntry
  split at isEntry
  next =>
      exact sound.counts count (List.mem_of_getElem? isEntry)
  next =>
      rw [← Option.some.inj isEntry]
      decide

/-- Every dummy entry will do. -/
def anyDummy (_ : Int) : Prop :=
  True

namespace Estimator

variable {self : Estimator float}

/-- After a reallocation everything but the indices is as it should be. -/
theorem allocate_returns
    (historySize : Nat)
    (fresh : Fresh float)
    (positive : 0 < historySize)
    (sound : self.Sound anyDummy) :
    Returns (self.allocate historySize fresh) fun next =>
      next.historySize = historySize ∧
        next.lastDelay = self.lastDelay ∧
        next.compareDelay = self.compareDelay ∧
        (next.DelaysMatch → next.Sound anyDummy) := by
  have matched :
      Returns (self.matchFarend historySize fresh) fun farend =>
        farend.Sound ∧ farend.historySize = historySize := by
    unfold matchFarend
    split
    next =>
        exact Farend.allocate_returns fresh sound.farend
    next same =>
        exact Returns.pure ⟨sound.farend, (not_not.mp same).symm⟩
  obtain ⟨meansLength, means⟩ := sound.means
  unfold allocate
  refine Returns.bind matched fun farend ⟨farSound, farSize⟩ => ?_
  refine
    Returns.bind (resizeArray_returns meansLength)
      fun meanBitCounts ⟨newMeansLength, newMeans⟩ => ?_
  refine
    Returns.bind (resizeArray_returns sound.bitCounts)
      fun bitCounts ⟨bitCountsLength, _⟩ => ?_
  refine
    Returns.bind (resizeArray_returns sound.histogram)
      fun histogram ⟨histogramLength, _⟩ => ?_
  refine Returns.pure ⟨rfl, rfl, rfl, fun delays => ?_⟩
  refine
    { sound with
      positive := positive
      farend := farSound
      matching := farSize
      bitCounts := bitCountsLength
      means := ⟨newMeansLength, fun i mean isEntry => ⟨fun inside => ?_, ?_⟩⟩
      histogram := histogramLength
      delays := delays }
  · rw [newMeans i inside] at isEntry
    split at isEntry
    next old =>
        exact (means i mean isEntry).1 old
    next =>
        rw [← Option.some.inj isEntry]
        decide
  · exact fun _ => trivial

/-- A sound estimator has its indices in range. -/
theorem Sound.indicesKept
    (sound : self.Sound anyDummy) :
    IndicesKept self := by
  obtain ⟨isNone, isDummy⟩ | ⟨nonneg, inside, isLast⟩ := sound.delays
  · exact ⟨by omega, by omega, fun _ => isDummy⟩
  · exact ⟨by omega, inside, fun isNone => by omega⟩

/-- Indices that are kept match each other, if there is no delay but -2 and later ones. -/
theorem delaysMatch_of_indicesKept
    {next : Estimator float}
    (delays : self.DelaysMatch)
    (sameLast : next.lastDelay = self.lastDelay)
    (sameCompared : next.compareDelay = self.compareDelay)
    (kept : IndicesKept next) :
    next.DelaysMatch := by
  obtain ⟨_, inside, dummy⟩ := kept
  unfold DelaysMatch at *
  obtain ⟨isNone, _⟩ | ⟨nonneg, _, isLast⟩ := delays
  · exact Or.inl ⟨by omega, dummy (by omega)⟩
  · exact Or.inr ⟨by omega, inside, by omega⟩

/-- Whether a taken size keeps the indices. -/
theorem indicesKept_allocated_iff
    {next : Estimator float}
    {historySize : Int}
    (delays : self.DelaysMatch)
    (taken : 1 < historySize)
    (isSize : next.historySize = historySize.toNat)
    (sameLast : next.lastDelay = self.lastDelay)
    (sameCompared : next.compareDelay = self.compareDelay) :
    IndicesKept next ↔
      if self.lastDelay < 0 then historySize = self.historySize
      else self.lastDelay < historySize := by
  unfold IndicesKept
  unfold DelaysMatch at delays
  split_ifs <;> omega

end Estimator

open Estimator

variable {self next : Estimator float}
variable {operation : Operation float}

/-- A clean operation keeps an estimator sound. -/
theorem sound_of_operate
    (sound : self.Sound anyDummy)
    (clean : OperationClean self operation)
    (taken : operate self operation = some next) :
    next.Sound anyDummy := by
  cases operation with
  | init =>
      rw [← Option.some.inj taken]
      exact
        sound_init trivial
          ⟨sound.positive, sound.matching, sound.nearPositive,
            sound.lookahead⟩
          sound.farend
  | initFar =>
      rw [← Option.some.inj taken]
      exact (follows_farend sound Farend.sound_init rfl).1
  | call call =>
      exact (follows_of_perform sound taken).1
  | setHistorySize historySize fresh =>
      change self.setHistorySize historySize fresh = some next at taken
      unfold setHistorySize at taken
      split at taken
      next =>
          rw [← Option.some.inj taken]
          exact sound
      next large =>
          obtain ⟨other, isOther, isSize, sameLast, sameCompared, isSound⟩ :=
            allocate_returns historySize.toNat fresh (by omega) sound
          obtain rfl := Option.some.inj (taken.symm.trans isOther)
          have inRange := (clean historySize fresh rfl).resolve_left large
          rw [← indicesKept_allocated_iff sound.delays (by omega) isSize
            sameLast sameCompared] at inRange
          exact
            isSound
              (delaysMatch_of_indicesKept sound.delays sameLast sameCompared
                inRange)

/-- An operation keeps the indices exactly if it is clean. -/
theorem operationKept_iff
    (sound : self.Sound anyDummy) :
    OperationKept self operation ↔ OperationClean self operation := by
  constructor
  · rintro kept historySize fresh rfl
    by_cases small : historySize ≤ 1
    · exact Or.inl small
    · obtain ⟨next, isNext, inRange⟩ :=
        kept fun call isCall => by contradiction
      obtain ⟨other, isOther, isSize, sameLast, sameCompared, _⟩ :=
        allocate_returns historySize.toNat fresh (by omega) sound
      change self.setHistorySize historySize fresh = some next at isNext
      rw [setHistorySize, if_neg small, isOther] at isNext
      obtain rfl := Option.some.inj isNext
      exact
        Or.inr
          ((indicesKept_allocated_iff sound.delays (by omega) isSize sameLast
            sameCompared).mp inRange)
  · intro clean fits
    have returns : Returns (operate self operation) fun _ => True := by
      cases operation with
      | init =>
          exact Returns.pure trivial
      | initFar =>
          exact Returns.pure trivial
      | call call =>
          exact (perform_returns sound (fits call rfl)).imp fun _ _ => trivial
      | setHistorySize historySize fresh =>
          change Returns (self.setHistorySize historySize fresh) _
          unfold setHistorySize
          split
          next =>
              exact Returns.pure trivial
          next =>
              exact
                (allocate_returns historySize.toNat fresh (by omega) sound).imp
                  fun _ _ => trivial
    obtain ⟨next, isNext, _⟩ := returns
    exact ⟨next, isNext, (sound_of_operate sound clean isNext).indicesKept⟩

/-- Along any run of an initialised estimator, all operations stay within the arrays and keep
the indices exactly if all history sizes are clean. -/
theorem operations_kept_iff
    (allocated : Allocated self)
    (operations : List (Operation float)) :
    AlongRun operate OperationKept (initialised self) operations ↔
      AlongRun operate OperationClean (initialised self) operations := by
  have start : (initialised self).Sound anyDummy :=
    @sound_init _ anyDummy { self with farend := self.farend.init } trivial
      ⟨allocated.positive, allocated.matching, allocated.nearPositive,
        allocated.lookahead⟩
      Farend.sound_init
  exact
    AlongRun.iff_of_guard (fun estimator => estimator.Sound anyDummy)
      (fun sound clean taken => sound_of_operate sound clean taken)
      (fun sound => operationKept_iff sound)
      start operations

/-! ## Two runs -/

/-- Operations on nothing. -/
def noOperations : FloatOperations where
  Value := Unit
  ofInt := fun _ => ()
  literal := fun _ => ()
  add := fun _ _ => ()
  sub := fun _ _ => ()
  mul := fun _ _ => ()
  less := fun _ _ => false
  lessEqual := fun _ _ => true

/-- An estimator for some delays, without lookahead, before it is initialised. -/
def someDelays (historySize : Nat) : Estimator noOperations where
  meanBitCounts := []
  bitCounts := []
  binaryNearHistory := []
  nearHistorySize := 1
  historySize
  minimumProbability := 0
  lastDelayProbability := 0
  lastDelay := 0
  robustValidationEnabled := false
  allowedOffset := 0
  lastCandidateDelay := 0
  compareDelay := 0
  candidateHits := 0
  histogram := []
  lastDelayHistogram := ()
  lookahead := 0
  farend := ⟨[], [], historySize⟩

/-- Memory of zeros. -/
def zeros : Fresh noOperations :=
  ⟨fun _ => 0, fun _ => 0, fun _ => ()⟩

theorem allocated_someDelays
    {historySize : Nat}
    (positive : 0 < historySize) :
    Allocated (someDelays historySize) :=
  ⟨positive, rfl, Nat.one_pos, Int.le_refl 0, Int.one_pos⟩

/-- The size that it already has can be set. -/
theorem operations_kept_iff_same :
    AlongRun operate OperationKept (initialised (someDelays 2))
      [.setHistorySize 2 zeros] :=
  (operations_kept_iff (allocated_someDelays Nat.two_pos) _).mpr
    ⟨fun historySize fresh isSize => by
      obtain ⟨rfl, _⟩ := Operation.setHistorySize.inj isSize
      exact Or.inr rfl,
      fun _ _ => trivial⟩

/-- A smaller size leaves the compared index behind the arrays, and the next spectrum reads
there. -/
theorem not_operations_kept_smaller :
    ¬ AlongRun operate OperationKept (initialised (someDelays 4))
        [.setHistorySize 2 zeros] ∧
      [.setHistorySize 2 zeros, .call (.processNear 0)].foldlM operate
        (initialised (someDelays 4)) = none := by
  refine ⟨fun along => ?_, by rfl⟩
  obtain ⟨next, isNext, within, _⟩ :=
    along.1 fun call isCall => by contradiction
  obtain rfl := Option.some.inj isNext
  exact absurd within (by decide)

end ApmSdk.DelayEstimation
