import ApmSdk.FeatureExtraction
import Mathlib.Data.List.GetD
import Mathlib.Data.List.Induction

namespace ApmSdk.Nsx

/-!
# The peaks of a histogram

`WebRtcNsx_FeatureParameterExtraction` looks for the two bins with the largest counts in
one pass, and merges them if they are close.  Positions are those of the middle of a bin,
in half bins.
-/

/-- The counts of the frames of a window. -/
structure Histogram where
  counts : List Int
  size : counts.length = histParEst
  range : ∀ count ∈ counts, 0 ≤ count ∧ count < 2 ^ 15

/-- The first of the bins with the largest count, which is not zero, among some bins. -/
structure IsPeak
    (counts : List Int)
    (among : Nat → Prop)
    (bin : Nat) : Prop where
  inRange : bin < counts.length
  member : among bin
  positive : 0 < counts.getD bin 0
  largest : ∀ other, among other → counts.getD other 0 ≤ counts.getD bin 0
  first :
    ∀ other < bin, among other → counts.getD other 0 < counts.getD bin 0

/-- A weight and a position are those of the peak among some bins, or zero if they are all
empty. -/
def IsFound
    (counts : List Int)
    (among : Nat → Prop)
    (weight position : Int) : Prop :=
  (∃ bin,
    IsPeak counts among bin ∧
      weight = counts.getD bin 0 ∧ position = 2 * bin + 1) ∨
    (∀ bin, among bin → counts.getD bin 0 = 0) ∧ weight = 0 ∧ position = 0

/-- The peaks of a histogram, before they are merged. -/
def foundPeaks (counts : List Int) : Peaks :=
  counts.zipIdx.foldl Peaks.visit ⟨0, 0, 0, 0, 0, 0⟩

/-- What the search for the peaks must do: the two bins with the largest counts are found,
and merged if they are close in either order and the second is heavy enough. -/
structure PeaksKept (hist : Histogram) : Prop where
  first :
    IsFound hist.counts (fun _ => True)
      (foundPeaks hist.counts).weightPeak1 (foundPeaks hist.counts).posPeak1
  second :
    IsFound hist.counts
      (fun bin => (foundPeaks hist.counts).posPeak1 ≠ 2 * bin + 1)
      (foundPeaks hist.counts).weightPeak2 (foundPeaks hist.counts).posPeak2
  merged :
    mainPeaks hist.counts =
      let peaks := foundPeaks hist.counts
      if |peaks.posPeak1 - peaks.posPeak2| < limPeakSpaceFlatDiff ∧
          peaks.weightPeak1 < peaks.weightPeak2 * limPeakWeightFlatDiff then
        { peaks with
          weightPeak1 := peaks.weightPeak1 + peaks.weightPeak2
          posPeak1 := (peaks.posPeak1 + peaks.posPeak2) / 2 }
      else peaks

/-- The bin with the second largest count does not follow the one with the largest, or has
at most half of its count. -/
def Histogram.NotBehind (hist : Histogram) : Prop :=
  ∀ first second,
    IsPeak hist.counts (fun _ => True) first →
      IsPeak hist.counts (· ≠ first) second →
        second = first + 1 →
          hist.counts.getD second 0 * limPeakWeightFlatDiff ≤
            hist.counts.getD first 0

/-! ## One more bin -/

section Append

variable {counts : List Int} {count : Int}

theorem getD_append_of_lt
    {bin : Nat}
    (inRange : bin < counts.length) :
    (counts ++ [count]).getD bin 0 = counts.getD bin 0 :=
  List.getD_append _ _ _ _ inRange

theorem getD_append_length :
    (counts ++ [count]).getD counts.length 0 = count := by
  rw [List.getD_append_right _ _ _ _ le_rfl, Nat.sub_self]
  rfl

/-- A bin other than the last has the count that it had. -/
theorem getD_append_of_ne
    {bin : Nat}
    (other : bin ≠ counts.length) :
    (counts ++ [count]).getD bin 0 = counts.getD bin 0 := by
  obtain inRange | behind := Nat.lt_or_gt_of_ne other
  · exact getD_append_of_lt inRange
  · rw [List.getD_eq_default _ _ (by rw [List.length_append]; exact behind),
      List.getD_eq_default _ _ behind.le]

variable {among : Nat → Prop} {weight position : Int}

theorem IsFound.le
    (found : IsFound counts among weight position)
    {bin : Nat}
    (member : among bin) :
    counts.getD bin 0 ≤ weight := by
  obtain ⟨peak, isPeak, isWeight, -⟩ | ⟨empty, isZero, -⟩ := found
  · rw [isWeight]
    exact isPeak.largest bin member
  · rw [isZero, empty bin member]

theorem IsFound.nonneg
    (found : IsFound counts among weight position) :
    0 ≤ weight := by
  obtain ⟨peak, isPeak, isWeight, -⟩ | ⟨-, isZero, -⟩ := found
  · rw [isWeight]
    exact isPeak.positive.le
  · exact isZero.ge

/-- The peak of the bins looked at is that of others, if those before it were looked at and none
of them has a larger count. -/
theorem IsPeak.append
    {looked : Nat → Prop}
    {peak : Nat}
    (isPeak : IsPeak counts looked peak)
    (member : among peak)
    (lookedBefore : ∀ bin < peak, among bin → looked bin)
    (largest :
      ∀ bin, among bin →
        (counts ++ [count]).getD bin 0 ≤ counts.getD peak 0) :
    IsPeak (counts ++ [count]) among peak := by
  have same :
      (counts ++ [count]).getD peak 0 = counts.getD peak 0 :=
    getD_append_of_lt isPeak.inRange
  exact
    { inRange := by
        rw [List.length_append]
        exact Nat.lt_add_right _ isPeak.inRange
      member
      positive := by
        rw [same]
        exact isPeak.positive
      largest := by
        rw [same]
        exact largest
      first := by
        intro other before otherMember
        rw [same, getD_append_of_lt (before.trans isPeak.inRange)]
        exact isPeak.first other before (lookedBefore other before otherMember) }

/-- A count that is no larger than the peak's leaves it as it is. -/
theorem IsFound.append
    (found : IsFound counts among weight position)
    (range : 0 ≤ count ∧ count ≤ weight) :
    IsFound (counts ++ [count]) among weight position := by
  have le :
      ∀ bin, among bin → (counts ++ [count]).getD bin 0 ≤ weight := by
    intro bin member
    by_cases isLast : bin = counts.length
    · rw [isLast, getD_append_length]
      exact range.2
    · rw [getD_append_of_ne isLast]
      exact found.le member
  obtain ⟨peak, isPeak, isWeight, isPosition⟩ |
    ⟨empty, isZero, isPosition⟩ := found
  · rw [isWeight] at le
    refine
      .inl
        ⟨peak, isPeak.append isPeak.member (fun _ _ member => member) le, ?_,
          isPosition⟩
    rw [getD_append_of_lt isPeak.inRange, isWeight]
  · refine .inr ⟨?_, isZero, isPosition⟩
    intro bin member
    by_cases isLast : bin = counts.length
    · rw [isLast, getD_append_length]
      omega
    · rw [getD_append_of_ne isLast]
      exact empty bin member

/-- A larger count is the new peak. -/
theorem IsFound.append_larger
    (found : IsFound counts among weight position)
    (larger : weight < count)
    (member : among counts.length) :
    IsFound (counts ++ [count]) among count (2 * counts.length + 1) := by
  have nonneg := found.nonneg
  have isCount :
      (counts ++ [count]).getD counts.length 0 = count :=
    getD_append_length
  refine .inl ⟨counts.length, ?_, isCount.symm, rfl⟩
  exact
    { inRange := by
        rw [List.length_append]
        exact Nat.lt_succ_self _
      member
      positive := by
        rw [isCount]
        omega
      largest := by
        intro other otherMember
        rw [isCount]
        by_cases isLast : other = counts.length
        · rw [isLast, isCount]
        · rw [getD_append_of_ne isLast]
          exact (found.le otherMember).trans larger.le
      first := by
        intro other before otherMember
        rw [isCount, getD_append_of_lt before]
        exact (found.le otherMember).trans_lt larger }

/-- The peak of the bins so far is the one among them when there is one more. -/
theorem IsFound.append_excluded
    (found : IsFound counts (fun _ => True) weight position)
    (isAmong : ∀ bin, among bin ↔ bin ≠ counts.length) :
    IsFound (counts ++ [count]) among weight position := by
  obtain ⟨peak, isPeak, isWeight, isPosition⟩ |
    ⟨empty, isZero, isPosition⟩ := found
  · have largest :
        ∀ bin, among bin →
          (counts ++ [count]).getD bin 0 ≤ counts.getD peak 0 := by
      intro bin member
      rw [getD_append_of_ne ((isAmong bin).mp member)]
      exact isPeak.largest bin trivial
    refine
      .inl
        ⟨peak,
          isPeak.append ((isAmong peak).mpr isPeak.inRange.ne)
            (fun _ _ _ => trivial) largest,
          ?_, isPosition⟩
    rw [getD_append_of_lt isPeak.inRange, isWeight]
  · refine .inr ⟨?_, isZero, isPosition⟩
    intro bin member
    rw [getD_append_of_ne ((isAmong bin).mp member)]
    exact empty bin trivial

end Append

/-! ## The whole search -/

/-- What the search has found in the bins that it has looked at. -/
structure Scanned (counts : List Int) (peaks : Peaks) : Prop where
  maxPeak1 : peaks.maxPeak1 = peaks.weightPeak1
  maxPeak2 : peaks.maxPeak2 = peaks.weightPeak2
  first :
    IsFound counts (fun _ => True) peaks.weightPeak1 peaks.posPeak1
  second :
    IsFound counts (fun bin => peaks.posPeak1 ≠ 2 * bin + 1)
      peaks.weightPeak2 peaks.posPeak2

theorem IsFound.position_ne
    {counts : List Int}
    {among : Nat → Prop}
    {weight position : Int}
    (found : IsFound counts among weight position) :
    position ≠ 2 * counts.length + 1 := by
  obtain ⟨peak, isPeak, -, isPosition⟩ | ⟨-, -, isZero⟩ := found
  · have inRange := isPeak.inRange
    omega
  · omega

theorem Scanned.visit
    {counts : List Int}
    {peaks : Peaks}
    (scanned : Scanned counts peaks)
    {count : Int}
    (nonneg : 0 ≤ count) :
    Scanned (counts ++ [count]) (peaks.visit (count, counts.length)) := by
  have isMax1 := scanned.maxPeak1
  have isMax2 := scanned.maxPeak2
  unfold Peaks.visit
  dsimp only
  split
  next larger =>
      refine ⟨rfl, isMax1, ?_, ?_⟩
      · exact scanned.first.append_larger (isMax1 ▸ larger) trivial
      · apply scanned.first.append_excluded
        intro bin
        constructor <;> intro other <;> dsimp only at * <;> omega
  next notLarger =>
      have first :
          IsFound (counts ++ [count]) (fun _ => True) peaks.weightPeak1
            peaks.posPeak1 :=
        scanned.first.append ⟨nonneg, by omega⟩
      split
      next larger =>
          refine ⟨isMax1, rfl, first, ?_⟩
          exact
            scanned.second.append_larger (isMax2 ▸ larger)
              scanned.first.position_ne
      next notLarger =>
          exact
            ⟨isMax1, isMax2, first,
              scanned.second.append ⟨nonneg, by omega⟩⟩

/-- The search finds the bin with the largest count, and the largest of the others. -/
theorem scanned_foundPeaks
    {counts : List Int}
    (nonneg : ∀ count ∈ counts, 0 ≤ count) :
    Scanned counts (foundPeaks counts) := by
  induction counts using List.reverseRecOn with
  | nil =>
      exact ⟨rfl, rfl, .inr ⟨fun _ _ => rfl, rfl, rfl⟩,
        .inr ⟨fun _ _ => rfl, rfl, rfl⟩⟩
  | append_singleton counts count ih =>
      have before : Scanned counts (foundPeaks counts) :=
        ih fun other member =>
          nonneg other (List.mem_append_left _ member)
      have isVisit :
          foundPeaks (counts ++ [count]) =
            (foundPeaks counts).visit (count, counts.length) := by
        simp [foundPeaks, List.zipIdx_append]
      rw [isVisit]
      exact before.visit (nonneg count (by simp))

/-- There is one peak. -/
theorem IsPeak.eq
    {counts : List Int}
    {among : Nat → Prop}
    {bin other : Nat}
    (isPeak : IsPeak counts among bin)
    (otherPeak : IsPeak counts among other) :
    bin = other := by
  obtain before | same | after := Nat.lt_trichotomy bin other
  · have smaller := otherPeak.first bin before isPeak.member
    have largest := isPeak.largest other otherPeak.member
    omega
  · exact same
  · have smaller := isPeak.first other after otherPeak.member
    have largest := otherPeak.largest bin isPeak.member
    omega

/-- What is found is the peak, when there is one. -/
theorem IsFound.eq_peak
    {counts : List Int}
    {among : Nat → Prop}
    {weight position : Int}
    (found : IsFound counts among weight position)
    {bin : Nat}
    (isPeak : IsPeak counts among bin) :
    weight = counts.getD bin 0 ∧ position = 2 * bin + 1 := by
  obtain ⟨peak, otherPeak, isWeight, isPosition⟩ | ⟨empty, -, -⟩ := found
  · have same : peak = bin := otherPeak.eq isPeak
    rw [← same]
    exact ⟨isWeight, isPosition⟩
  · have positive := isPeak.positive
    have isZero := empty bin isPeak.member
    omega

namespace Histogram

variable {hist : Histogram}

theorem scanned (hist : Histogram) :
    Scanned hist.counts (foundPeaks hist.counts) :=
  scanned_foundPeaks fun count member => (hist.range count member).1

theorem isOther_iff {first bin : Nat} :
    (2 * first + 1 : Int) ≠ 2 * bin + 1 ↔ bin ≠ first := by
  omega

/-- The peaks that the search has found, when the second has a count. -/
theorem exists_peaks
    (hist : Histogram)
    (positive : 0 < (foundPeaks hist.counts).weightPeak2) :
    ∃ first second,
      IsPeak hist.counts (fun _ => True) first ∧
        IsPeak hist.counts (· ≠ first) second ∧
          (foundPeaks hist.counts).weightPeak1 = hist.counts.getD first 0 ∧
          (foundPeaks hist.counts).posPeak1 = 2 * first + 1 ∧
          (foundPeaks hist.counts).weightPeak2 = hist.counts.getD second 0 ∧
          (foundPeaks hist.counts).posPeak2 = 2 * second + 1 := by
  obtain ⟨second, isSecond, isWeight2, isPosition2⟩ | ⟨-, isZero, -⟩ :=
    hist.scanned.second
  · obtain ⟨first, isFirst, isWeight1, isPosition1⟩ | ⟨empty, -, -⟩ :=
      hist.scanned.first
    · refine ⟨first, second, isFirst, ?_, isWeight1, isPosition1, isWeight2,
        isPosition2⟩
      simpa only [isPosition1, isOther_iff] using isSecond
    · have isZero := empty second trivial
      omega
  · omega

/-- The test of the spacing is the one of the distance, unless the second peak follows the
first. -/
theorem spacing_iff
    {first second : Nat}
    (firstRange : first < histParEst)
    (secondRange : second < histParEst)
    (notBehind : second ≠ first + 1) :
    uint32 ((2 * first + 1) - (2 * second + 1)) < limPeakSpaceFlatDiff ↔
      |(2 * first + 1 : Int) - (2 * second + 1)| < limPeakSpaceFlatDiff := by
  dsimp only [histParEst, limPeakSpaceFlatDiff] at *
  unfold uint32
  rw [abs_lt]
  omega

theorem not_close_of_behind (first : Nat) :
    ¬uint32 ((2 * first + 1) - (2 * (first + 1 : Nat) + 1)) <
      limPeakSpaceFlatDiff := by
  dsimp only [limPeakSpaceFlatDiff]
  unfold uint32
  omega

theorem peaksKept_of_notBehind (notBehind : hist.NotBehind) :
    PeaksKept hist := by
  refine ⟨hist.scanned.first, hist.scanned.second, ?_⟩
  unfold mainPeaks
  change (foundPeaks hist.counts).merge = _
  unfold Peaks.merge
  dsimp only
  by_cases heavy :
    (foundPeaks hist.counts).weightPeak1 <
      (foundPeaks hist.counts).weightPeak2 * limPeakWeightFlatDiff
  · have positive : 0 < (foundPeaks hist.counts).weightPeak2 := by
      have nonneg := hist.scanned.first.nonneg
      dsimp only [limPeakWeightFlatDiff] at heavy
      omega
    obtain ⟨first, second, isFirst, isSecond, isWeight1, isPosition1,
      isWeight2, isPosition2⟩ := hist.exists_peaks positive
    have firstRange : first < histParEst := hist.size ▸ isFirst.inRange
    have secondRange : second < histParEst := hist.size ▸ isSecond.inRange
    have apart : second ≠ first + 1 := by
      intro behind
      have light := notBehind first second isFirst isSecond behind
      rw [isWeight1, isWeight2] at heavy
      exact heavy.not_ge light
    have isMiddle :
        uint32 ((2 * first + 1) + (2 * second + 1)) >>> (1 : Nat) =
          ((2 * first + 1) + (2 * second + 1)) / 2 := by
      dsimp only [histParEst] at firstRange secondRange
      rw [uint32, Int.emod_eq_of_lt (by omega) (by omega),
        Int.shiftRight_eq_div_pow]
      rfl
    simp only [isPosition1, isPosition2, isMiddle,
      spacing_iff firstRange secondRange apart]
  · rw [if_neg fun both => heavy both.2, if_neg fun both => heavy both.2]

theorem notBehind_of_peaksKept (kept : PeaksKept hist) :
    hist.NotBehind := by
  intro first second isFirst isSecond behind
  by_contra heavy
  obtain ⟨isWeight1, isPosition1⟩ := hist.scanned.first.eq_peak isFirst
  have isSecondFound :
      IsPeak hist.counts
        (fun bin => (foundPeaks hist.counts).posPeak1 ≠ 2 * bin + 1)
        second := by
    simpa only [isPosition1, isOther_iff] using isSecond
  obtain ⟨isWeight2, isPosition2⟩ :=
    hist.scanned.second.eq_peak isSecondFound
  have unmerged : mainPeaks hist.counts = foundPeaks hist.counts := by
    change (foundPeaks hist.counts).merge = _
    unfold Peaks.merge
    rw [isPosition1, isPosition2, behind]
    exact if_neg fun both => not_close_of_behind first both.1
  have close :
      |(foundPeaks hist.counts).posPeak1 - (foundPeaks hist.counts).posPeak2| <
        limPeakSpaceFlatDiff := by
    rw [isPosition1, isPosition2, behind, abs_lt]
    dsimp only [limPeakSpaceFlatDiff]
    omega
  have isHeavy :
      (foundPeaks hist.counts).weightPeak1 <
        (foundPeaks hist.counts).weightPeak2 * limPeakWeightFlatDiff := by
    rw [isWeight1, isWeight2]
    exact lt_of_not_ge heavy
  have merged := kept.merged
  dsimp only at merged
  rw [unmerged, if_pos ⟨close, isHeavy⟩] at merged
  have weight := congrArg Peaks.weightPeak1 merged
  have positive := isSecond.positive
  dsimp only at weight
  omega

end Histogram

/-- The search for the peaks does what it must exactly when the second peak does not
directly follow the first, or is too light to be merged with it. -/
theorem peaksKept_iff (hist : Histogram) :
    PeaksKept hist ↔ hist.NotBehind :=
  ⟨Histogram.notBehind_of_peaksKept, Histogram.peaksKept_of_notBehind⟩

/-! ## Two peaks side by side -/

/-- A histogram with 300 frames in one bin, and 211 in the next. -/
def sideBySide : Histogram where
  counts :=
    (List.range histParEst).map fun bin =>
      if bin = 10 then 300 else if bin = 11 then 211 else 0
  size := by
    rw [List.length_map, List.length_range]
  range := by
    intro count member
    obtain ⟨bin, -, rfl⟩ := List.mem_map.mp member
    split_ifs <;> decide

theorem sideBySide_getD (bin : Nat) :
    sideBySide.counts.getD bin 0 =
      if bin = 10 then 300 else if bin = 11 then 211 else 0 := by
  by_cases inRange : bin < histParEst
  · simp [sideBySide, List.getD_eq_getElem?_getD, inRange]
  · rw [List.getD_eq_default _ _ (sideBySide.size ▸ Nat.le_of_not_lt inRange)]
    dsimp only [histParEst] at inRange
    rw [if_neg (by omega), if_neg (by omega)]

theorem sideBySide_not_notBehind : ¬sideBySide.NotBehind := by
  intro notBehind
  have isCount : sideBySide.counts.getD 10 0 = 300 :=
    (sideBySide_getD 10).trans (by decide)
  have isOtherCount : sideBySide.counts.getD 11 0 = 211 :=
    (sideBySide_getD 11).trans (by decide)
  have first : IsPeak sideBySide.counts (fun _ => True) 10 :=
    { inRange := sideBySide.size ▸ by decide
      member := trivial
      positive := by
        rw [isCount]
        decide
      largest := by
        intro other _
        rw [isCount, sideBySide_getD]
        split_ifs <;> decide
      first := by
        intro other before _
        rw [isCount, sideBySide_getD, if_neg (by omega), if_neg (by omega)]
        decide }
  have second : IsPeak sideBySide.counts (· ≠ 10) 11 :=
    { inRange := sideBySide.size ▸ by decide
      member := by decide
      positive := by
        rw [isOtherCount]
        decide
      largest := by
        intro other notFirst
        rw [isOtherCount, sideBySide_getD, if_neg notFirst]
        split_ifs <;> decide
      first := by
        intro other before notFirst
        rw [isOtherCount, sideBySide_getD, if_neg notFirst,
          if_neg (by omega)]
        decide }
  have light := notBehind 10 11 first second rfl
  rw [isCount, isOtherCount] at light
  revert light
  decide

/-- Peaks that are side by side are not merged when the second is behind the first. -/
theorem not_peaksKept_sideBySide : ¬PeaksKept sideBySide :=
  fun kept =>
    sideBySide_not_notBehind (Histogram.notBehind_of_peaksKept kept)

end ApmSdk.Nsx
