import ApmSdk.AecCore
import ApmSdk.CIntegers
import ApmSdk.Histogram
import ApmSdk.LabelledPath

namespace ApmSdk.Echo

/-!
# The delay metrics of the echo canceller

`aec_core.c` counts the delay estimates of its blocks in a histogram, and
`UpdateDelayMetrics` reads a median, a deviation and the fraction of poor delays off
it.  The estimates are those of the delay estimator, and the counters are taken
without overflow.
-/

/-- `kDelayMetricsAggregationWindow` -/
abbrev kDelayMetricsAggregationWindow : Int := 1250

/-- `kHistorySizeBlocks`, as a length. -/
abbrev historySizeBlocks : Nat := 125

/-- The two sides of the division that gives `fraction_poor_delays`. -/
structure Fraction where
  numerator : Int
  denominator : Int
  deriving Repr, DecidableEq

/-- The fields of `AecCore` behind the delay metrics, with the lookahead of its delay
estimator. -/
structure DelayMetrics where
  delayLoggingEnabled : Bool
  delayMetricsDelivered : Bool
  delayHistogram : List Int
  numDelayValues : Int
  delayMedian : Int
  delayStd : Int
  fractionPoorDelays : Fraction
  delayAgnosticEnabled : Bool
  numPartitions : Nat
  mult : Int
  lookahead : Nat
  deriving Repr, DecidableEq

namespace DelayMetrics

/-- `WebRtcAec_CreateAec`, with zeros where `malloc` leaves anything. -/
def create (android : Bool) : DelayMetrics where
  delayLoggingEnabled := false
  delayMetricsDelivered := false
  delayHistogram := []
  numDelayValues := 0
  delayMedian := 0
  delayStd := 0
  fractionPoorDelays := ⟨0, 1⟩
  delayAgnosticEnabled := android
  numPartitions := 0
  mult := 0
  lookahead := if android then 0 else kLookaheadBlocks.toNat

/-- `mult` for a rate: the low band is processed at 16 kHz at most. -/
def multiplier (sampFreq : Int) : Int :=
  let numBands := if sampFreq = 8000 then 1 else Int.tdiv sampFreq 16000
  if 1 < numBands then 2 else Int.tdiv sampFreq 8000

/-- `WebRtcAec_InitAec` -/
def initAec (core : DelayMetrics) (sampFreq : Int) : DelayMetrics :=
  { core with
    delayLoggingEnabled := false
    delayMetricsDelivered := false
    delayHistogram := List.replicate historySizeBlocks 0
    numDelayValues := 0
    delayMedian := -1
    delayStd := -1
    fractionPoorDelays := ⟨-1, 1⟩
    numPartitions := kNormalNumPartitions.toNat
    mult := multiplier sampFreq }

/-- `median` in `UpdateDelayMetrics`, before the lookahead is accounted for. -/
def median (core : DelayMetrics) : Nat :=
  (reaches 0 (core.numDelayValues >>> (1 : Nat)) core.delayHistogram).getD 0

/-- A distance between two bins. -/
def distance (median bin : Nat) : Int :=
  ((bin : Int) - median).natAbs

/-- `l1_norm`: the products are `int`, and the sum is `int64_t`. -/
def l1Norm (median : Nat) : Nat → List Int → Int
  | _, [] => 0
  | bin, count :: rest =>
      int32 (distance median bin * count) + l1Norm median (bin + 1) rest

/-- `kMsPerBlock` -/
def msPerBlock (core : DelayMetrics) : Int :=
  Int.tdiv partLen (core.mult * 8)

/-- The counts that are out of bounds. -/
def numDelaysOutOfBounds (core : DelayMetrics) : Int :=
  core.numDelayValues -
    ((core.delayHistogram.drop core.lookahead).take core.numPartitions).sum

/-- `UpdateDelayMetrics` -/
def updateDelayMetrics (core : DelayMetrics) : DelayMetrics :=
  if core.numDelayValues = 0 then
    { core with
      delayMedian := -1
      delayStd := -1
      fractionPoorDelays := ⟨-1, 1⟩ }
  else
    { core with
      delayMedian := ((core.median : Int) - core.lookahead) * core.msPerBlock
      delayStd :=
        int32
            (Int.tdiv
              (l1Norm core.median 0 core.delayHistogram +
                Int.tdiv core.numDelayValues 2)
              core.numDelayValues) *
          core.msPerBlock
      fractionPoorDelays :=
        ⟨core.numDelaysOutOfBounds, core.numDelayValues⟩
      delayHistogram := List.replicate historySizeBlocks 0
      numDelayValues := 0 }

/-- An estimate that is not negative enters the histogram. -/
def countDelay (core : DelayMetrics) (delayEstimate : Int) : DelayMetrics :=
  if 0 ≤ delayEstimate then
    { core with
      delayHistogram :=
        core.delayHistogram.modify delayEstimate.toNat (· + 1)
      numDelayValues := core.numDelayValues + 1 }
  else core

/-- The metrics have been read, and there are enough values for new ones. -/
def Aggregated (core : DelayMetrics) : Prop :=
  core.delayMetricsDelivered = true ∧
    kDelayMetricsAggregationWindow ≤ core.numDelayValues

instance (core : DelayMetrics) : Decidable core.Aggregated :=
  inferInstanceAs (Decidable (_ ∧ _))

/-- The delay logging of `ProcessBlock`, for what the delay estimator returns. -/
def logDelay (core : DelayMetrics) (delayEstimate : Int) : DelayMetrics :=
  if core.delayLoggingEnabled then
    let core := core.countDelay delayEstimate
    if core.Aggregated then core.updateDelayMetrics else core
  else core

/-- `WebRtcAec_GetDelayMetricsCore`; the metrics are those that it leaves. -/
def getDelayMetricsCore (core : DelayMetrics) : DelayMetrics × Int :=
  if core.delayLoggingEnabled = false then (core, -1)
  else if core.delayMetricsDelivered = false then
    ({ core.updateDelayMetrics with delayMetricsDelivered := true }, 0)
  else (core, 0)

/-- `WebRtcAec_SetConfigCore`, the delay logging. -/
def setConfigCore (core : DelayMetrics) (delayLogging : Bool) : DelayMetrics :=
  let delayLoggingEnabled := delayLogging || core.delayAgnosticEnabled
  { core with
    delayLoggingEnabled
    delayHistogram :=
      if delayLoggingEnabled then List.replicate historySizeBlocks 0
      else core.delayHistogram }

/-- `WebRtcAec_enable_delay_agnostic` -/
def enableDelayAgnostic (core : DelayMetrics) (enable : Bool) : DelayMetrics :=
  { core with delayAgnosticEnabled := enable }

/-- `WebRtcAec_enable_extended_filter` -/
def enableExtendedFilter (core : DelayMetrics) (enable : Bool) : DelayMetrics :=
  { core with
    numPartitions :=
      (if enable then kExtendedNumPartitions else kNormalNumPartitions).toNat }

/-- `WebRtc_SoftResetDelayEstimator`, the lookahead: from 0 to the size of the
history. -/
def shiftLookahead (core : DelayMetrics) (delayShift : Int) : DelayMetrics :=
  { core with
    lookahead :=
      min ((core.lookahead : Int) - delayShift).toNat historySizeBlocks }

end DelayMetrics

/-- What happens to the delay metrics: a block with its estimate, or a call. -/
inductive DelayCall where
  | processBlock (delayEstimate : Int)
  | getDelayMetricsCore
  | setConfigCore (delayLogging : Bool)
  | enableDelayAgnostic (enable : Bool)
  | enableExtendedFilter (enable : Bool)
  | shiftLookahead (delayShift : Int)
  | initAec (sampFreq : Int)
  deriving Repr, DecidableEq

namespace DelayMetrics

/-- The state after a call; no estimate lies beyond the history. -/
def perform (core : DelayMetrics) : DelayCall → Option DelayMetrics
  | .processBlock delayEstimate =>
      if delayEstimate < historySizeBlocks then
        some (core.logDelay delayEstimate)
      else none
  | .getDelayMetricsCore => some core.getDelayMetricsCore.1
  | .setConfigCore delayLogging => some (core.setConfigCore delayLogging)
  | .enableDelayAgnostic enable => some (core.enableDelayAgnostic enable)
  | .enableExtendedFilter enable => some (core.enableExtendedFilter enable)
  | .shiftLookahead delayShift => some (core.shiftLookahead delayShift)
  | .initAec sampFreq => some (core.initAec sampFreq)

/-! ## The values behind the metrics -/

/-- A call updates the metrics. -/
def Updates (core : DelayMetrics) : DelayCall → Prop
  | .processBlock delayEstimate =>
      core.delayLoggingEnabled = true ∧
        (core.countDelay delayEstimate).Aggregated
  | .getDelayMetricsCore =>
      core.delayLoggingEnabled = true ∧ core.delayMetricsDelivered = false
  | _ => False

instance (core : DelayMetrics) (call : DelayCall) :
    Decidable (core.Updates call) := by
  cases call <;> unfold Updates <;> infer_instance

/-- The state in which an update takes place. -/
def updated (core : DelayMetrics) : DelayCall → DelayMetrics
  | .processBlock delayEstimate => core.countDelay delayEstimate
  | _ => core

/-- The values that have been recorded when an update takes place. -/
def recorded
    (core : DelayMetrics)
    (values : List Nat) : DelayCall → List Nat
  | .processBlock delayEstimate =>
      if core.delayLoggingEnabled ∧ 0 ≤ delayEstimate then
        values ++ [delayEstimate.toNat]
      else values
  | _ => values

/-- The values that are left for the next update. -/
def recordedSince
    (core : DelayMetrics)
    (values : List Nat)
    (call : DelayCall) : List Nat :=
  if core.Updates call then []
  else
    match call with
    | .initAec _ => []
    | _ => core.recorded values call

/-- The calls, with the values recorded since the last update beside the state. -/
def performRecorded
    (state : DelayMetrics × List Nat)
    (call : DelayCall) : Option (DelayMetrics × List Nat) :=
  (state.1.perform call).map fun next =>
    (next, state.1.recordedSince state.2 call)

/-- What an update must make of the values: their median, the mean distance to it,
rounded, and the number of values out of bounds. -/
structure MetricsOf (core : DelayMetrics) (values : List Nat) : Prop where
  none :
    values = [] →
      core.updateDelayMetrics.delayMedian = -1 ∧
        core.updateDelayMetrics.delayStd = -1 ∧
          core.updateDelayMetrics.fractionPoorDelays = ⟨-1, 1⟩
  some :
    values ≠ [] →
      ∃ median,
        IsMedian values median ∧
          core.updateDelayMetrics.delayMedian =
              ((median : Int) - core.lookahead) * core.msPerBlock ∧
            core.updateDelayMetrics.delayStd =
                ((values.map (distance median)).sum +
                    (values.length : Int) / 2) / values.length *
                  core.msPerBlock ∧
              core.updateDelayMetrics.fractionPoorDelays =
                ⟨values.countP fun value =>
                    !(decide (core.lookahead ≤ value) &&
                      decide (value < core.lookahead + core.numPartitions)),
                  values.length⟩

/-- No product of the deviation overflows. -/
def ProductsFit (median : Nat) : Nat → List Int → Prop
  | _, [] => True
  | bin, count :: rest =>
      distance median bin * count < 2 ^ 31 ∧
        ProductsFit median (bin + 1) rest

instance decidableProductsFit (median : Nat) :
    ∀ (bin : Nat) (counts : List Int), Decidable (ProductsFit median bin counts)
  | _, [] => inferInstanceAs (Decidable True)
  | bin, _ :: rest =>
      have := decidableProductsFit median (bin + 1) rest
      inferInstanceAs (Decidable (_ ∧ _))

/-- The histogram is the one of the recorded values, and their number is right. -/
structure Counted (state : DelayMetrics × List Nat) : Prop where
  histogram_eq :
    state.1.delayHistogram = histogram historySizeBlocks state.2
  number : state.1.numDelayValues = state.2.length
  below : ∀ value ∈ state.2, value < historySizeBlocks

namespace Counted

variable {core : DelayMetrics}
variable {values : List Nat}

/-- No value has been recorded. -/
theorem empty
    (histogram_eq : core.delayHistogram = List.replicate historySizeBlocks 0)
    (number : core.numDelayValues = 0) :
    Counted (core, []) :=
  ⟨histogram_eq.trans (Histogram.histogram_nil _).symm, number,
    fun _ member => nomatch member⟩

/-- The number of values is the sum of the histogram. -/
theorem sum_eq
    (held : Counted (core, values)) :
    core.numDelayValues = core.delayHistogram.sum := by
  have all :
      (values.countP fun value => decide (value < historySizeBlocks)) =
        values.length := by
    rw [List.countP_eq_length]
    intro value member
    exact decide_eq_true (held.below value member)
  have number : core.numDelayValues = values.length := held.number
  have shape : core.delayHistogram = histogram historySizeBlocks values :=
    held.histogram_eq
  rw [number, shape, Histogram.sum_histogram, all]

/-- There are no values where none are counted. -/
theorem values_eq_nil
    (noValues : core.numDelayValues = 0)
    (held : Counted (core, values)) :
    values = [] := by
  have number : core.numDelayValues = values.length := held.number
  exact List.eq_nil_of_length_eq_zero (by omega)

/-- An estimate is recorded. -/
theorem countDelay
    {delayEstimate : Int}
    (inHistory : delayEstimate < historySizeBlocks)
    (held : Counted (core, values)) :
    Counted
      (core.countDelay delayEstimate,
        if 0 ≤ delayEstimate then values ++ [delayEstimate.toNat]
        else values) := by
  obtain ⟨shape, number, below⟩ := held
  unfold DelayMetrics.countDelay
  split
  next nonneg =>
      refine ⟨?_, ?_, ?_⟩
      · dsimp only at shape ⊢
        rw [shape, Histogram.modify_histogram]
      · dsimp only at number ⊢
        rw [number, List.length_append]
        rfl
      · intro value member
        rcases List.mem_append.mp member with earlier | last
        · exact below value earlier
        · obtain rfl := List.mem_singleton.mp last
          omega
  next =>
      exact ⟨shape, number, below⟩

/-- An update starts anew. -/
theorem updateDelayMetrics
    (held : Counted (core, values)) :
    Counted (core.updateDelayMetrics, []) := by
  unfold DelayMetrics.updateDelayMetrics
  split
  next noValues =>
      obtain rfl := held.values_eq_nil noValues
      exact ⟨held.histogram_eq, held.number, held.below⟩
  next =>
      exact .empty rfl rfl

end Counted

/-! ## What an update computes -/

/-- A product of the deviation loses by overflow, or it is exact. -/
theorem int32_le
    {product : Int}
    (nonneg : 0 ≤ product) :
    int32 product ≤ product ∧ (int32 product = product ↔ product < 2 ^ 31) := by
  unfold int32
  rw [Int.bmod_def]
  omega

/-- The sum of the products is exact if and only if no product overflows. -/
theorem l1Norm_eq_iff
    (median bin : Nat)
    {counts : List Int}
    (nonneg : ∀ count ∈ counts, 0 ≤ count) :
    l1Norm median bin counts ≤ weighted (distance median) bin counts ∧
      (l1Norm median bin counts = weighted (distance median) bin counts ↔
        ProductsFit median bin counts) := by
  induction counts generalizing bin with
  | nil =>
      exact ⟨Int.le_refl _, iff_of_true rfl trivial⟩
  | cons count rest inductionHypothesis =>
      rw [List.forall_mem_cons] at nonneg
      have product : 0 ≤ distance median bin * count :=
        Int.mul_nonneg (Int.natCast_nonneg _) nonneg.1
      obtain ⟨here, exactHere⟩ := int32_le product
      obtain ⟨later, exactLater⟩ :=
        inductionHypothesis (bin + 1) nonneg.2
      rw [l1Norm, weighted, ProductsFit, ← exactHere, ← exactLater]
      omega

theorem histogram_nonneg
    (bins : Nat)
    (values : List Nat) :
    ∀ count ∈ histogram bins values, 0 ≤ count := by
  intro count member
  obtain ⟨bin, -, rfl⟩ := List.mem_map.mp member
  exact Int.natCast_nonneg _

namespace Counted

variable {core : DelayMetrics}
variable {values : List Nat}

/-- The median of the histogram is the one of the values. -/
theorem isMedian
    (nonempty : values ≠ [])
    (held : Counted (core, values)) :
    IsMedian values core.median := by
  obtain ⟨shape, number, below⟩ := held
  dsimp only at shape number
  obtain ⟨median, found, isMedian⟩ :=
    Histogram.reaches_histogram below nonempty
  unfold DelayMetrics.median
  rw [shape, number, Int.shiftRight_eq_div_pow,
    show ((2 ^ 1 : Nat) : Int) = 2 from rfl, found]
  exact isMedian

/-- The deviation is exact if and only if no product overflows. -/
theorem l1Norm_eq_iff
    (held : Counted (core, values)) :
    l1Norm core.median 0 core.delayHistogram =
        (values.map (distance core.median)).sum ↔
      ProductsFit core.median 0 core.delayHistogram := by
  have shape : core.delayHistogram = histogram historySizeBlocks values :=
    held.histogram_eq
  have summed :=
    Histogram.weighted_histogram (distance core.median) held.below
  rw [shape, ← summed]
  exact (DelayMetrics.l1Norm_eq_iff core.median 0
    (histogram_nonneg _ _)).2

/-- The values out of bounds are those that are not in the window of the filter. -/
theorem numDelaysOutOfBounds_eq
    (held : Counted (core, values)) :
    core.numDelaysOutOfBounds =
      values.countP fun value =>
        !(decide (core.lookahead ≤ value) &&
          decide (value < core.lookahead + core.numPartitions)) := by
  obtain ⟨shape, number, below⟩ := held
  dsimp only at shape number below
  have window :=
    Histogram.sum_drop_take core.lookahead core.numPartitions below
  have parts :=
    values.length_eq_countP_add_countP fun value =>
      decide (core.lookahead ≤ value) &&
        decide (value < core.lookahead + core.numPartitions)
  unfold DelayMetrics.numDelaysOutOfBounds
  rw [shape, number, window, parts]
  simp only [Bool.not_eq_true, Bool.decide_eq_false]
  omega

/-- The distances to the median add up to no more than the history for each value. -/
theorem sum_distance_le
    {median : Nat}
    (inHistory : median < historySizeBlocks)
    (below : ∀ value ∈ values, value < historySizeBlocks) :
    0 ≤ (values.map (distance median)).sum ∧
      (values.map (distance median)).sum ≤ 125 * values.length := by
  induction values with
  | nil =>
      exact ⟨Int.le_refl 0, Int.le_refl 0⟩
  | cons value rest inductionHypothesis =>
      rw [List.forall_mem_cons] at below
      obtain ⟨nonneg, atMost⟩ := inductionHypothesis below.2
      rw [List.map_cons, List.sum_cons, List.length_cons]
      have here : 0 ≤ distance median value ∧ distance median value ≤ 125 := by
        have isBelow : value < 125 := below.1
        have isInHistory : median < 125 := inHistory
        unfold distance
        omega
      omega

/-- The median is one of the delays of the history. -/
theorem median_lt
    (nonempty : values ≠ [])
    (held : Counted (core, values)) :
    core.median < historySizeBlocks := by
  have isMedian := held.isMedian nonempty
  have positive := List.length_pos_of_ne_nil nonempty
  by_contra beyond
  have all :
      (values.countP fun value => decide (value < core.median)) =
        values.length := by
    rw [List.countP_eq_length]
    intro value member
    have isBelow := held.below value member
    exact decide_eq_true (by omega)
  have atMost := isMedian.below
  omega

/-- An update computes the metrics of the recorded values. -/
theorem metricsOf
    (exactSum :
      l1Norm core.median 0 core.delayHistogram =
        (values.map (distance core.median)).sum)
    (held : Counted (core, values)) :
    MetricsOf core values := by
  constructor
  · rintro rfl
    have number : core.numDelayValues = 0 := held.number
    unfold DelayMetrics.updateDelayMetrics
    rw [if_pos number]
    exact ⟨rfl, rfl, rfl⟩
  · intro nonempty
    refine ⟨core.median, held.isMedian nonempty, ?_⟩
    have positive := List.length_pos_of_ne_nil nonempty
    have number : core.numDelayValues = values.length := held.number
    have some : ¬core.numDelayValues = 0 := by omega
    unfold DelayMetrics.updateDelayMetrics
    rw [if_neg some]
    dsimp only
    rw [exactSum, held.numDelaysOutOfBounds_eq, number]
    refine ⟨rfl, ?_, rfl⟩
    have below : ∀ value ∈ values, value < historySizeBlocks := held.below
    obtain ⟨nonneg, atMost⟩ :=
      sum_distance_le (held.median_lt nonempty) below
    generalize (values.map (distance core.median)).sum = total
      at nonneg atMost ⊢
    have half : Int.tdiv (values.length : Int) 2 = (values.length : Int) / 2 :=
      Int.tdiv_eq_ediv_of_nonneg (by omega)
    have mean :
        Int.tdiv (total + (values.length : Int) / 2) values.length =
          (total + (values.length : Int) / 2) / values.length :=
      Int.tdiv_eq_ediv_of_nonneg (by omega)
    have lower :
        0 ≤ (total + (values.length : Int) / 2) / values.length :=
      Int.ediv_nonneg (by omega) (by omega)
    have upper :
        (total + (values.length : Int) / 2) / values.length ≤ 126 :=
      Int.ediv_le_of_le_mul (by omega) (by omega)
    rw [half, mean, int32_of_bounds (by omega) (by omega)]

end Counted

/-! ## Runs -/

/-- The configuration starts the delay logging with no value counted before, and no
product of an update overflows. -/
structure CleanCall
    (state : DelayMetrics × List Nat)
    (call : DelayCall) : Prop where
  restart :
    ∀ delayLogging,
      call = .setConfigCore delayLogging →
      (delayLogging || state.1.delayAgnosticEnabled) = true →
        state.1.numDelayValues = 0
  products :
    state.1.Updates call →
      ProductsFit (state.1.updated call).median 0
        (state.1.updated call).delayHistogram

/-- The number of values is the sum of the histogram after a call, and an update in it
computes the metrics of the values recorded since the last one. -/
structure FaithfulCall
    (state : DelayMetrics × List Nat)
    (call : DelayCall)
    (next : DelayMetrics × List Nat) : Prop where
  number : next.1.numDelayValues = next.1.delayHistogram.sum
  metrics :
    state.1.Updates call →
      MetricsOf (state.1.updated call) (state.1.recorded state.2 call) ∧
        l1Norm (state.1.updated call).median 0
            (state.1.updated call).delayHistogram =
          ((state.1.recorded state.2 call).map
            (distance (state.1.updated call).median)).sum

section

variable {state next : DelayMetrics × List Nat}
variable {call : DelayCall}

/-- The values are counted when an update takes place. -/
theorem Counted.updated
    (held : Counted state)
    (performed : stepOf performRecorded state call next)
    (updates : state.1.Updates call) :
    Counted (state.1.updated call, state.1.recorded state.2 call) := by
  obtain ⟨core, values⟩ := state
  cases call with
  | processBlock delayEstimate =>
      obtain ⟨reached, taken, -⟩ := Option.map_eq_some_iff.mp performed
      have inHistory : delayEstimate < historySizeBlocks := by
        by_contra beyond
        rw [perform, if_neg beyond] at taken
        cases taken
      have counted := held.countDelay inHistory
      have logging : core.delayLoggingEnabled = true := updates.1
      unfold recorded
      dsimp only
      simp only [logging, true_and]
      exact counted
  | getDelayMetricsCore =>
      exact held
  | setConfigCore delayLogging =>
      exact updates.elim
  | enableDelayAgnostic enable =>
      exact updates.elim
  | enableExtendedFilter enable =>
      exact updates.elim
  | shiftLookahead delayShift =>
      exact updates.elim
  | initAec sampFreq =>
      exact updates.elim

/-- A block keeps the values counted. -/
theorem Counted.logDelay
    {core : DelayMetrics}
    {values : List Nat}
    {delayEstimate : Int}
    (inHistory : delayEstimate < historySizeBlocks)
    (held : Counted (core, values)) :
    Counted
      (core.logDelay delayEstimate,
        core.recordedSince values (.processBlock delayEstimate)) := by
  unfold DelayMetrics.logDelay
  by_cases logging : core.delayLoggingEnabled = true
  · have counted := held.countDelay inHistory
    rw [if_pos logging]
    dsimp only
    split
    next aggregated =>
        have updates : core.Updates (.processBlock delayEstimate) :=
          ⟨logging, aggregated⟩
        unfold recordedSince
        rw [if_pos updates]
        exact counted.updateDelayMetrics
    next more =>
        have noUpdate : ¬core.Updates (.processBlock delayEstimate) :=
          fun updates => more updates.2
        unfold recordedSince
        rw [if_neg noUpdate]
        simp only [recorded, logging, true_and]
        exact counted
  · have noUpdate : ¬core.Updates (.processBlock delayEstimate) :=
      fun updates => logging updates.1
    unfold recordedSince
    rw [if_neg logging, if_neg noUpdate]
    simpa [recorded, logging] using held

/-- So does a call that reads the metrics. -/
theorem Counted.getDelayMetricsCore
    {core : DelayMetrics}
    {values : List Nat}
    (held : Counted (core, values)) :
    Counted
      (core.getDelayMetricsCore.1,
        core.recordedSince values .getDelayMetricsCore) := by
  unfold DelayMetrics.getDelayMetricsCore
  split
  next disabled =>
      have noUpdate : ¬core.Updates .getDelayMetricsCore := by
        rintro ⟨logging, -⟩
        rw [disabled] at logging
        cases logging
      unfold recordedSince
      rw [if_neg noUpdate]
      exact held
  next enabled =>
      have logging : core.delayLoggingEnabled = true :=
        Bool.eq_true_of_not_eq_false enabled
      split
      next first =>
          have updates : core.Updates .getDelayMetricsCore :=
            ⟨logging, first⟩
          unfold recordedSince
          rw [if_pos updates]
          obtain ⟨shape, number, below⟩ := held.updateDelayMetrics
          exact ⟨shape, number, below⟩
      next later =>
          have noUpdate : ¬core.Updates .getDelayMetricsCore :=
            fun updates => later updates.2
          unfold recordedSince
          rw [if_neg noUpdate]
          exact held

/-- A clean call keeps the values counted. -/
theorem Counted.performRecorded
    (held : Counted state)
    (clean : CleanCall state call)
    (performed : stepOf performRecorded state call next) :
    Counted next := by
  obtain ⟨core, values⟩ := state
  obtain ⟨reached, taken, rfl⟩ := Option.map_eq_some_iff.mp performed
  cases call with
  | processBlock delayEstimate =>
      rw [perform] at taken
      split at taken
      next inHistory =>
          obtain rfl := Option.some.inj taken
          exact held.logDelay inHistory
      next =>
          cases taken
  | getDelayMetricsCore =>
      obtain rfl := Option.some.inj taken
      exact held.getDelayMetricsCore
  | setConfigCore delayLogging =>
      obtain rfl := Option.some.inj taken
      have restart := clean.restart delayLogging rfl
      show Counted (core.setConfigCore delayLogging, values)
      unfold DelayMetrics.setConfigCore
      cases logging : delayLogging || core.delayAgnosticEnabled with
      | false =>
          obtain ⟨shape, number, below⟩ := held
          exact ⟨shape, number, below⟩
      | true =>
          have noValues := restart logging
          obtain rfl := held.values_eq_nil noValues
          exact .empty rfl noValues
  | enableDelayAgnostic enable =>
      obtain rfl := Option.some.inj taken
      obtain ⟨shape, number, below⟩ := held
      exact ⟨shape, number, below⟩
  | enableExtendedFilter enable =>
      obtain rfl := Option.some.inj taken
      obtain ⟨shape, number, below⟩ := held
      exact ⟨shape, number, below⟩
  | shiftLookahead delayShift =>
      obtain rfl := Option.some.inj taken
      obtain ⟨shape, number, below⟩ := held
      exact ⟨shape, number, below⟩
  | initAec sampFreq =>
      obtain rfl := Option.some.inj taken
      exact .empty rfl rfl

/-- A call is faithful to the values if and only if it is clean. -/
theorem Counted.faithfulCall_iff
    (held : Counted state)
    (performed : stepOf DelayMetrics.performRecorded state call next) :
    FaithfulCall state call next ↔ CleanCall state call := by
  constructor
  · rintro ⟨number, metrics⟩
    constructor
    · rintro delayLogging rfl logging
      obtain ⟨reached, taken, rfl⟩ := Option.map_eq_some_iff.mp performed
      obtain rfl := Option.some.inj taken
      unfold setConfigCore at number
      simp only [logging, if_true] at number
      exact number.trans (by simp)
    · intro updates
      exact (held.updated performed updates).l1Norm_eq_iff.mp
        (metrics updates).2
  · intro clean
    constructor
    · exact (held.performRecorded clean performed).sum_eq
    · intro updates
      have counted := held.updated performed updates
      have exactSum := counted.l1Norm_eq_iff.mpr (clean.products updates)
      exact ⟨counted.metricsOf exactSum, exactSum⟩

end

/--
In every run from an initialisation, the number of delay values is the sum of the
histogram in every state, and every update computes the metrics of the values recorded
since the last one, if and only if no configuration turns the delay logging on while
values are counted, and no product of an update overflows.
-/
theorem faithful_iff_clean
    {memory : DelayMetrics}
    {sampFreq : Int}
    {moves : List (Move (DelayMetrics × List Nat) DelayCall)}
    {final : DelayMetrics × List Nat}
    (path :
      Path (stepOf performRecorded) (memory.initAec sampFreq, []) moves
        final) :
    (∀ move ∈ moves, FaithfulCall move.source move.label move.target) ↔
      ∀ move ∈ moves, CleanCall move.source move.label :=
  Path.forall_move_iff_forall_guard Counted FaithfulCall CleanCall
    (fun held performed => held.faithfulCall_iff performed)
    (fun held clean performed => held.performRecorded clean performed)
    (Counted.empty rfl rfl)
    path

/-- A new core at 16 kHz. -/
def newCore : DelayMetrics :=
  (create false).initAec 16000

theorem faithful_firstDelay :
    FaithfulCall (newCore, []) (.setConfigCore true)
        (newCore.setConfigCore true, []) ∧
      FaithfulCall (newCore.setConfigCore true, []) (.processBlock 3)
        ((newCore.setConfigCore true).logDelay 3, [3]) :=
  have path :
      Path (stepOf performRecorded) (newCore, [])
        [⟨(newCore, []), .setConfigCore true,
            (newCore.setConfigCore true, [])⟩,
          ⟨(newCore.setConfigCore true, []), .processBlock 3,
            ((newCore.setConfigCore true).logDelay 3, [3])⟩]
        ((newCore.setConfigCore true).logDelay 3, [3]) :=
    .cons _ (by decide +kernel) (.single (by decide +kernel))
  have faithful :=
    (faithful_iff_clean path).mpr
      (by
        intro move member
        rcases List.mem_cons.mp member with rfl | last
        · exact ⟨fun _ _ _ => rfl, fun updates => updates.elim⟩
        · obtain rfl := List.mem_singleton.mp last
          refine ⟨fun _ same => (nomatch same), fun updates => ?_⟩
          exact absurd updates.2 (by decide +kernel))
  ⟨faithful _ (.head _), faithful _ (.tail _ (.head _))⟩

/--
The delay logging is turned on again after one delay has been counted: the histogram is
cleared, the number of values is not.
-/
theorem not_faithful_turnedOnAgain :
    ¬ ∀ (memory : DelayMetrics) (sampFreq : Int)
        (moves : List (Move (DelayMetrics × List Nat) DelayCall))
        (final : DelayMetrics × List Nat),
        Path (stepOf performRecorded) (memory.initAec sampFreq, []) moves
          final →
        ∀ move ∈ moves, FaithfulCall move.source move.label move.target := by
  intro claimed
  have ran :
      [DelayCall.setConfigCore true, .processBlock 3,
          .setConfigCore true].foldlM performRecorded (newCore, []) =
        some
          (((newCore.setConfigCore true).logDelay 3).setConfigCore true,
            [3]) := by
    decide +kernel
  obtain ⟨moves, path, -⟩ := Path.exists_of_foldlM ran
  let summed (state : DelayMetrics × List Nat) : Prop :=
    state.1.numDelayValues = state.1.delayHistogram.sum
  have start : summed (newCore, []) := by decide +kernel
  have number :=
    path.holds_final start fun move member =>
      (claimed _ 16000 moves _ path move member).number
  revert number
  decide +kernel

end DelayMetrics

end ApmSdk.Echo
