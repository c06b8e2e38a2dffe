import Mathlib.Algebra.BigOperators.Group.Finset.Basic
import Mathlib.Algebra.BigOperators.Ring.Finset
import Mathlib.Algebra.BigOperators.Intervals
import Mathlib.Tactic.Ring

namespace ApmSdk

/-!
# Histograms of small numbers

The counts of the numbers below a bound in a list, and what can be read off them
without the list: sums of a function over the values, the number of values in a
window, and the value in the middle.  Nothing here depends on a particular system.
-/

/-- How often each number below `bins` is in a list. -/
def histogram (bins : Nat) (values : List Nat) : List Int :=
  (List.range bins).map fun bin => (values.count bin : Int)

/-- The sum of the counts, each with the weight of its bin, from a first bin on. -/
def weighted (weight : Nat → Int) : Nat → List Int → Int
  | _, [] => 0
  | bin, count :: rest =>
      weight bin * count + weighted weight (bin + 1) rest

/-- The first bin at which more than a number of values have been counted. -/
def reaches : Nat → Int → List Int → Option Nat
  | _, _, [] => none
  | bin, left, count :: rest =>
      if left - count < 0 then some bin
      else reaches (bin + 1) (left - count) rest

namespace Histogram

variable {bins : Nat}
variable {values : List Nat}

theorem length_histogram (bins : Nat) (values : List Nat) :
    (histogram bins values).length = bins := by
  rw [histogram, List.length_map, List.length_range]

/-- Nothing has been counted at first. -/
theorem histogram_nil (bins : Nat) :
    histogram bins [] = List.replicate bins 0 := by
  rw [histogram, List.eq_replicate_iff]
  refine ⟨length_histogram bins [], ?_⟩
  intro count member
  obtain ⟨bin, -, rfl⟩ := List.mem_map.mp member
  rfl

/-- To count one more value. -/
theorem modify_histogram
    (bins : Nat)
    (values : List Nat)
    (value : Nat) :
    (histogram bins values).modify value (· + 1) =
      histogram bins (values ++ [value]) := by
  apply List.ext_getElem
  · rw [List.length_modify, length_histogram, length_histogram]
  · intro bin inBins also
    rw [List.getElem_modify]
    simp only [histogram, List.getElem_map, List.getElem_range,
      List.count_append, List.count_singleton]
    split
    next same =>
        subst same
        simp
    next other =>
        simp [other]

/-- A weighted sum of tabulated counts. -/
theorem weighted_tabulated
    (weight count : Nat → Int)
    (first bins : Nat) :
    weighted weight first ((List.range' first bins).map count) =
      ∑ bin ∈ Finset.range bins, weight (first + bin) * count (first + bin) := by
  induction bins generalizing first with
  | zero =>
      rfl
  | succ bins inductionHypothesis =>
      rw [List.range'_succ, List.map_cons, weighted, inductionHypothesis,
        Finset.sum_range_succ', Int.add_comm]
      congr 1
      apply Finset.sum_congr rfl
      intro bin _
      rw [Nat.add_right_comm, Nat.add_assoc]

/-- A weighted sum of a histogram is the sum of the weights of the values. -/
theorem weighted_histogram
    (weight : Nat → Int)
    (below : ∀ value ∈ values, value < bins) :
    weighted weight 0 (histogram bins values) = (values.map weight).sum := by
  rw [histogram, List.range_eq_range', weighted_tabulated]
  simp only [Nat.zero_add]
  induction values with
  | nil =>
      simp
  | cons value rest inductionHypothesis =>
      rw [List.forall_mem_cons] at below
      rw [List.map_cons, List.sum_cons, ← inductionHypothesis below.2]
      have single :
          ∑ bin ∈ Finset.range bins,
              weight bin * (if value = bin then 1 else 0) = weight value := by
        simp [below.1]
      rw [← single, ← Finset.sum_add_distrib]
      apply Finset.sum_congr rfl
      intro bin _
      rw [List.count_cons]
      simp only [beq_iff_eq]
      split <;> push_cast <;> ring

/-- With the weight 1 the counts are added. -/
theorem weighted_one (first : Nat) (counts : List Int) :
    weighted (fun _ => 1) first counts = counts.sum := by
  induction counts generalizing first with
  | nil =>
      rfl
  | cons count rest inductionHypothesis =>
      rw [weighted, inductionHypothesis, List.sum_cons, Int.one_mul]

/-- A histogram only sees the values below its bound. -/
theorem histogram_filter (bins : Nat) (values : List Nat) :
    histogram bins (values.filter fun value => decide (value < bins)) =
      histogram bins values := by
  apply List.map_congr_left
  intro bin inBins
  have isBelow : decide (bin < bins) = true :=
    decide_eq_true (List.mem_range.mp inBins)
  exact congrArg Nat.cast
    (List.count_filter (p := fun value => decide (value < bins)) isBelow)

/-- The counts of a histogram add up to the number of values below its bound. -/
theorem sum_histogram (bins : Nat) (values : List Nat) :
    (histogram bins values).sum =
      values.countP fun value => decide (value < bins) := by
  have below :
      ∀ value ∈ values.filter fun value => decide (value < bins),
        value < bins := by
    intro value member
    exact of_decide_eq_true (List.mem_filter.mp member).2
  rw [← histogram_filter, ← weighted_one 0, weighted_histogram _ below,
    List.countP_eq_length_filter]
  simp

/-- The first counts of a histogram are a histogram. -/
theorem take_histogram
    {first : Nat}
    (inBins : first ≤ bins) :
    (histogram bins values).take first = histogram first values := by
  rw [histogram, ← List.map_take, List.take_range, Nat.min_eq_left inBins,
    histogram]

/-- The counts of the bins in a window. -/
theorem sum_window
    (values : List Nat)
    {first last : Nat}
    (ordered : first ≤ last)
    (inBins : last ≤ bins) :
    (((histogram bins values).drop first).take (last - first)).sum =
      values.countP fun value =>
        decide (first ≤ value) && decide (value < last) := by
  have split :
      ((histogram bins values).take last).sum =
        ((histogram bins values).take first).sum +
          (((histogram bins values).drop first).take (last - first)).sum := by
    rw [← List.sum_append, ← List.take_add, Nat.add_sub_cancel' ordered]
  rw [take_histogram inBins, take_histogram (by omega), sum_histogram,
    sum_histogram] at split
  have parts :
      (values.countP fun value => decide (value < last)) =
        (values.countP fun value => decide (value < first)) +
          values.countP fun value =>
            decide (first ≤ value) && decide (value < last) := by
    clear split
    induction values with
    | nil =>
        rfl
    | cons value rest inductionHypothesis =>
        simp only [List.countP_cons, inductionHypothesis, Bool.and_eq_true,
          decide_eq_true_eq]
        split <;> split <;> split <;> omega
  omega

/-- The counts of the bins in a window that may exceed the bound. -/
theorem sum_drop_take
    (first width : Nat)
    (below : ∀ value ∈ values, value < bins) :
    (((histogram bins values).drop first).take width).sum =
      values.countP fun value =>
        decide (first ≤ value) && decide (value < first + width) := by
  have sameCount
      (last : Nat)
      (same : ∀ value < bins, value < last ↔ value < first + width) :
      (values.countP fun value =>
          decide (first ≤ value) && decide (value < last)) =
        values.countP fun value =>
          decide (first ≤ value) && decide (value < first + width) := by
    apply List.countP_congr
    intro value member
    simp only [Bool.and_eq_true, decide_eq_true_eq,
      same value (below value member)]
  by_cases fits : first + width ≤ bins
  · have window := sum_window values (Nat.le_add_right first width) fits
    rw [Nat.add_sub_cancel_left] at window
    exact window
  · by_cases inside : first ≤ bins
    · have window := sum_window values inside (Nat.le_refl bins)
      rw [sameCount bins fun value isBelow => by omega,
        List.take_of_length_le
          (by rw [List.length_drop, length_histogram])] at window
      rw [List.take_of_length_le
        (by rw [List.length_drop, length_histogram]; omega)]
      exact window
    · rw [List.drop_of_length_le (by rw [length_histogram]; omega),
        List.take_nil, List.sum_nil, eq_comm, Int.natCast_eq_zero,
        List.countP_eq_zero]
      intro value member
      have isBelow := below value member
      simp
      omega

/-- Where the counts exceed a number of values, a bin is reached, and the counts before
it do not exceed the number. -/
theorem exists_reaches
    {left : Int}
    {counts : List Int}
    (first : Nat)
    (nonneg : 0 ≤ left)
    (exceeds : left < counts.sum) :
    ∃ bin,
      reaches first left counts = some (first + bin) ∧
        bin < counts.length ∧
          (counts.take bin).sum ≤ left ∧
            left < (counts.take (bin + 1)).sum := by
  induction counts generalizing first left with
  | nil =>
      rw [List.sum_nil] at exceeds
      omega
  | cons count rest inductionHypothesis =>
      rw [reaches]
      rw [List.sum_cons] at exceeds
      split
      next here =>
          refine ⟨0, rfl, Nat.zero_lt_succ _, ?_, ?_⟩
          · exact nonneg
          · simp
            omega
      next later =>
          obtain ⟨bin, found, inBins, before, after⟩ :=
            inductionHypothesis (first + 1) (by omega : 0 ≤ left - count)
              (by omega)
          refine ⟨bin + 1, ?_, Nat.succ_lt_succ inBins, ?_, ?_⟩
          · rw [found]
            congr 1
            omega
          · rw [List.take_succ_cons, List.sum_cons]
            omega
          · rw [List.take_succ_cons, List.sum_cons]
            omega

/-! ## The value in the middle -/

end Histogram

/-- As many values as half of them, or fewer, are below the value in the middle, and
more are not above it. -/
structure IsMedian (values : List Nat) (median : Nat) : Prop where
  below :
    values.countP (fun value => decide (value < median)) ≤
      values.length / 2
  notAbove :
    values.length / 2 <
      values.countP fun value => decide (value < median + 1)

namespace Histogram

variable {bins : Nat}
variable {values : List Nat}

/-- Counting down from half of the values reaches the one in the middle. -/
theorem reaches_histogram
    (below : ∀ value ∈ values, value < bins)
    (nonempty : values ≠ []) :
    ∃ median,
      reaches 0 ((values.length : Int) / 2) (histogram bins values) =
          some median ∧
        IsMedian values median := by
  have positive := List.length_pos_of_ne_nil nonempty
  have all :
      (values.countP fun value => decide (value < bins)) = values.length := by
    rw [List.countP_eq_length]
    intro value member
    exact decide_eq_true (below value member)
  obtain ⟨median, found, inBins, before, after⟩ :=
    exists_reaches 0 (by omega : 0 ≤ (values.length : Int) / 2)
      (show (values.length : Int) / 2 < (histogram bins values).sum by
        rw [sum_histogram, all]
        omega)
  rw [length_histogram] at inBins
  rw [take_histogram (by omega), sum_histogram] at before after
  rw [Nat.zero_add] at found
  exact ⟨median, found, by omega, by omega⟩

end Histogram

end ApmSdk
