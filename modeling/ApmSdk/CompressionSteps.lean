import ApmSdk.BinaryRounding

namespace ApmSdk.AgcManager

/-!
# The compression gain and its accumulator

`UpdateCompressor` adds a step of 0.05 to a `float` until it has come to the next integer.
No such sum is exact.  Still the gain behaves as if twentieths were counted: in the range
of gains that are asked for, the sums never drift by more than one unit in the last place
however often they turn back, so that none of the integers is missed.
-/

open BinaryRounding

/-- A result of type `float`. -/
def single (value : ℚ) : ℚ :=
  roundTo 24 value

/-- A result of type `double`. -/
def double (value : ℚ) : ℚ :=
  roundTo 53 value

/-- `kCompressionGainStep` -/
def kCompressionGainStep : ℚ :=
  single (5 / 100)

/-- The compression that is set, and the one that is on its way to the target. -/
structure Compressor where
  compression : ℤ
  compressionAccumulator : ℚ
  deriving DecidableEq

namespace Compressor

/-- Adapt the compression gain slowly towards the target. -/
def adaptedAccumulator
    (compressor : Compressor)
    (targetCompression : ℤ) : ℚ :=
  if compressor.compression < targetCompression then
    single (compressor.compressionAccumulator + kCompressionGainStep)
  else
    single (compressor.compressionAccumulator - kCompressionGainStep)

/-- The nearest integer within half a stepsize, or else the gain that is set. -/
def newCompression
    (compressor : Compressor)
    (accumulator : ℚ) : ℤ :=
  let nearestNeighbor := ⌊double (accumulator + 1 / 2)⌋
  if |single (accumulator - single nearestNeighbor)| <
      single (kCompressionGainStep / 2) then
    nearestNeighbor
  else
    compressor.compression

/-- `UpdateCompressor`, up to the call that sets the new gain. -/
def updateCompressor
    (compressor : Compressor)
    (targetCompression : ℤ) : Compressor :=
  if compressor.compression = targetCompression then
    compressor
  else
    let accumulator := compressor.adaptedAccumulator targetCompression
    let newCompression := compressor.newCompression accumulator
    if newCompression = compressor.compression then
      { compressor with compressionAccumulator := accumulator }
    else
      ⟨newCompression, single newCompression⟩

end Compressor

/-! ## Counting twentieths -/

/-- A compression and the twentieths to add to it. -/
structure Twentieths where
  compression : ℤ
  twentieths : ℤ
  deriving DecidableEq

/-- One twentieth towards the target. -/
def Twentieths.update
    (count : Twentieths)
    (targetCompression : ℤ) : Twentieths :=
  if count.compression = targetCompression then
    count
  else if count.compression < targetCompression then
    if count.twentieths = 19 then
      ⟨count.compression + 1, 0⟩
    else
      { count with twentieths := count.twentieths + 1 }
  else
    if count.twentieths = -19 then
      ⟨count.compression - 1, 0⟩
    else
      { count with twentieths := count.twentieths - 1 }

/-! ## The accumulator in units -/

/-- The scale of the units, which half a step is a multiple of. -/
abbrev unitScale : ℕ :=
  29

/-- The step in units. -/
def stepUnits : ℤ :=
  26843546

/-- The units of one. -/
def oneUnits : ℤ :=
  536870912

/-- One update for an accumulator in units, up or down. -/
def turn
    (compression units : ℤ)
    (up : Bool) : ℤ × ℤ :=
  let accumulator :=
    roundBits 24 (if up then units + stepUnits else units - stepUnits)
  let nearestNeighbor := roundBits 53 (accumulator + 268435456) / oneUnits
  let distance :=
    roundBits 24 (accumulator - roundBits 24 (nearestNeighbor * oneUnits))
  if |distance| < 13421773 ∧ nearestNeighbor ≠ compression then
    (nearestNeighbor, roundBits 24 (nearestNeighbor * oneUnits))
  else
    (compression, accumulator)

/-- What a step up from a compression comes to. -/
def upUnits (compression : ℤ) : ℤ :=
  roundBits 24 (compression * oneUnits + stepUnits) - compression * oneUnits

/-- What a step down from a compression comes to. -/
def downUnits (compression : ℤ) : ℤ :=
  compression * oneUnits - roundBits 24 (compression * oneUnits - stepUnits)

/-- Where the accumulator can be when the steps up and down are even.  Below sixteen the
last place is worth less than above, and one is lost when the sum comes back. -/
def restUnits (compression : ℤ) : List ℤ :=
  if compression = 16 then
    [16 * oneUnits, 16 * oneUnits - 512]
  else
    [compression * oneUnits]

/-- Where the accumulator can be some twentieths away from a compression. -/
def positions (count : Twentieths) : List ℤ :=
  if 0 < count.twentieths then
    [count.compression * oneUnits + count.twentieths * upUnits count.compression]
  else
    (restUnits count.compression).map fun units =>
      units + count.twentieths * downUnits count.compression

/-- One update up to a compression below eighteen, and one down to one above two, goes
where the twentieths go. -/
def Followed (count : Twentieths) : Prop :=
  ∀ units ∈ positions count,
    (count.compression < 18 →
      let next := turn count.compression units true
      next.1 = (count.update 18).compression ∧ next.2 ∈ positions (count.update 18)) ∧
    (2 < count.compression →
      let next := turn count.compression units false
      next.1 = (count.update 2).compression ∧ next.2 ∈ positions (count.update 2))

instance (count : Twentieths) : Decidable (Followed count) :=
  inferInstanceAs (Decidable (∀ units ∈ positions count, (_ → _ ∧ _) ∧ (_ → _ ∧ _)))

theorem followed_table :
    ∀ gain ∈ List.range 17, ∀ offset ∈ List.range 39,
      Followed ⟨(gain : ℤ) + 2, (offset : ℤ) - 19⟩ := by
  decide +kernel

/-! ## From units to floats -/

theorem scaled_add (scale : ℕ) (first second : ℤ) :
    scaled scale first + scaled scale second = scaled scale (first + second) := by
  unfold scaled
  rw [Int.cast_add, add_div]

theorem scaled_sub (scale : ℕ) (first second : ℤ) :
    scaled scale first - scaled scale second = scaled scale (first - second) := by
  unfold scaled
  rw [Int.cast_sub, sub_div]

theorem abs_scaled (scale : ℕ) (units : ℤ) :
    |scaled scale units| = scaled scale |units| := by
  unfold scaled
  rw [abs_div, abs_of_pos (by positivity : (0 : ℚ) < 2 ^ scale), Int.cast_abs]

theorem scaled_lt_scaled {scale : ℕ} {first second : ℤ} :
    scaled scale first < scaled scale second ↔ first < second := by
  unfold scaled
  rw [div_lt_div_iff_of_pos_right (by positivity), Int.cast_lt]

theorem floor_scaled (scale : ℕ) (units : ℤ) :
    ⌊scaled scale units⌋ = units / 2 ^ scale := by
  have quotient := Rat.floor_intCast_div_natCast units (2 ^ scale)
  push_cast at quotient
  exact quotient

theorem intCast_eq_scaled (value : ℤ) :
    (value : ℚ) = scaled unitScale (value * oneUnits) := by
  unfold scaled oneUnits
  push_cast
  ring

/-- The `float` that is nearest to 0.05. -/
theorem kCompressionGainStep_eq : kCompressionGainStep = scaled unitScale stepUnits := by
  have magnitude : Int.log 2 |(5 / 100 : ℚ)| = -5 := by
    apply log_eq <;> norm_num
  have lastPlace : unitInLastPlace 24 (5 / 100) = 1 / 2 ^ 28 := by
    unfold unitInLastPlace
    rw [magnitude]
    norm_num
  have below : ⌊(5 / 100 / (1 / 2 ^ 28) : ℚ)⌋ = 13421772 := by
    norm_num
  have nearest : roundHalfEven (5 / 100 / (1 / 2 ^ 28)) = 13421773 := by
    unfold roundHalfEven
    rw [below]
    norm_num
  unfold kCompressionGainStep single roundTo
  rw [lastPlace, nearest]
  unfold scaled stepUnits
  norm_num

theorem halfStep_eq :
    single (kCompressionGainStep / 2) = scaled unitScale 13421773 := by
  have half : kCompressionGainStep / 2 = scaled unitScale 13421773 := by
    rw [kCompressionGainStep_eq]
    unfold scaled stepUnits
    norm_num
  rw [half, single, roundTo_scaled]
  exact congrArg (scaled unitScale) (by decide)

namespace Compressor

variable {compression units targetCompression : ℤ}

theorem adaptedAccumulator_scaled :
    adaptedAccumulator ⟨compression, scaled unitScale units⟩ targetCompression =
      scaled unitScale
        (roundBits 24
          (if compression < targetCompression then units + stepUnits
          else units - stepUnits)) := by
  unfold adaptedAccumulator single
  rw [kCompressionGainStep_eq, scaled_add, scaled_sub, roundTo_scaled, roundTo_scaled]
  split <;> rfl

theorem newCompression_scaled (accumulator : ℤ) (before : ℚ) :
    newCompression ⟨compression, before⟩ (scaled unitScale accumulator) =
      if |roundBits 24
            (accumulator -
              roundBits 24
                (roundBits 53 (accumulator + 268435456) / oneUnits * oneUnits))| <
          13421773 then
        roundBits 53 (accumulator + 268435456) / oneUnits
      else
        compression := by
  have half : (1 / 2 : ℚ) = scaled unitScale 268435456 := by
    unfold scaled
    norm_num
  have nearest :
      ⌊double (scaled unitScale accumulator + 1 / 2)⌋ =
        roundBits 53 (accumulator + 268435456) / oneUnits := by
    rw [half, scaled_add, double, roundTo_scaled, floor_scaled]
    rfl
  unfold newCompression
  dsimp only
  rw [nearest, halfStep_eq, single, single, intCast_eq_scaled, roundTo_scaled,
    scaled_sub, roundTo_scaled, abs_scaled]
  simp only [scaled_lt_scaled]

/-- An update of an accumulator in units. -/
theorem updateCompressor_scaled
    (apart : compression ≠ targetCompression) :
    updateCompressor ⟨compression, scaled unitScale units⟩ targetCompression =
      let next := turn compression units (decide (compression < targetCompression))
      ⟨next.1, scaled unitScale next.2⟩ := by
  unfold updateCompressor turn
  rw [if_neg apart, adaptedAccumulator_scaled]
  simp only [decide_eq_true_eq]
  generalize roundBits 24
    (if compression < targetCompression then units + stepUnits
    else units - stepUnits) = accumulator
  rw [newCompression_scaled]
  generalize roundBits 53 (accumulator + 268435456) / oneUnits = nearestNeighbor
  by_cases near :
      |roundBits 24 (accumulator - roundBits 24 (nearestNeighbor * oneUnits))| < 13421773
  · by_cases same : nearestNeighbor = compression
    · simp [same]
    · simp only [near, same, if_true, if_false, ne_eq, not_false_eq_true, and_self]
      rw [single, intCast_eq_scaled, roundTo_scaled]
  · simp only [near, false_and, if_false, if_true]

end Compressor

/-! ## The refinement -/

/-- The gains that are asked for, and fewer twentieths than a whole. -/
structure Twentieths.InRange (count : Twentieths) : Prop where
  gain : 2 ≤ count.compression ∧ count.compression ≤ 18
  offset : -19 ≤ count.twentieths ∧ count.twentieths ≤ 19

/-- The gain that is set is the count's, and the accumulator is where the count has it. -/
def Represents
    (compressor : Compressor)
    (count : Twentieths) : Prop :=
  compressor.compression = count.compression ∧
    ∃ units ∈ positions count,
      compressor.compressionAccumulator = scaled unitScale units

variable {compressor : Compressor}
variable {count : Twentieths}
variable {targetCompression : ℤ}

theorem Twentieths.InRange.followed
    (inRange : count.InRange) :
    Followed count := by
  obtain ⟨⟨gainLower, gainUpper⟩, ⟨offsetLower, offsetUpper⟩⟩ := inRange
  have entry :=
    followed_table (count.compression - 2).toNat
      (List.mem_range.mpr (by omega)) (count.twentieths + 19).toNat
      (List.mem_range.mpr (by omega))
  rw [Int.toNat_of_nonneg (by omega), Int.toNat_of_nonneg (by omega),
    sub_add_cancel, add_sub_cancel_right] at entry
  exact entry

/-- The way to a target is the way to any other target on that side. -/
theorem Twentieths.update_of_lt
    {other : ℤ}
    (below : count.compression < targetCompression)
    (otherBelow : count.compression < other) :
    count.update targetCompression = count.update other := by
  unfold update
  rw [if_neg below.ne, if_pos below, if_neg otherBelow.ne, if_pos otherBelow]

theorem Twentieths.update_of_gt
    {other : ℤ}
    (above : targetCompression < count.compression)
    (otherAbove : other < count.compression) :
    count.update targetCompression = count.update other := by
  unfold update
  rw [if_neg above.ne', if_neg above.le.not_gt, if_neg otherAbove.ne',
    if_neg otherAbove.le.not_gt]

theorem Twentieths.InRange.update
    (inRange : count.InRange)
    (target : 2 ≤ targetCompression ∧ targetCompression ≤ 18) :
    (count.update targetCompression).InRange := by
  obtain ⟨⟨gainLower, gainUpper⟩, ⟨offsetLower, offsetUpper⟩⟩ := inRange
  unfold Twentieths.update
  split
  · exact ⟨⟨gainLower, gainUpper⟩, ⟨offsetLower, offsetUpper⟩⟩
  · split <;> split <;> constructor <;> dsimp only <;> omega

/-- An update keeps the accumulator where the count has it. -/
theorem Represents.updateCompressor
    (inRange : count.InRange)
    (target : 2 ≤ targetCompression ∧ targetCompression ≤ 18)
    (represents : Represents compressor count) :
    Represents (compressor.updateCompressor targetCompression)
      (count.update targetCompression) := by
  obtain ⟨gain, units, member, accumulator⟩ := represents
  obtain ⟨compression, compressionAccumulator⟩ := compressor
  obtain rfl : compression = count.compression := gain
  obtain rfl : compressionAccumulator = scaled unitScale units := accumulator
  obtain ⟨up, down⟩ := inRange.followed units member
  rcases lt_trichotomy count.compression targetCompression with below | same | above
  · obtain ⟨nextGain, nextMember⟩ := up (by omega)
    rw [Compressor.updateCompressor_scaled below.ne, decide_eq_true below,
      Twentieths.update_of_lt below (show count.compression < 18 by omega)]
    exact ⟨nextGain, _, nextMember, rfl⟩
  · unfold Compressor.updateCompressor Twentieths.update
    rw [if_pos same, if_pos same]
    exact ⟨rfl, units, member, rfl⟩
  · obtain ⟨nextGain, nextMember⟩ := down (by omega)
    rw [Compressor.updateCompressor_scaled above.ne', decide_eq_false above.le.not_gt,
      Twentieths.update_of_gt above (show 2 < count.compression by omega)]
    exact ⟨nextGain, _, nextMember, rfl⟩

/-- A compressor that has just been given a gain. -/
theorem represents_start
    (compression : ℤ) :
    Represents ⟨compression, compression⟩ ⟨compression, 0⟩ := by
  refine ⟨rfl, compression * oneUnits, ?_, intCast_eq_scaled compression⟩
  unfold positions restUnits
  rw [if_neg (lt_irrefl 0)]
  split
  next sixteen =>
      obtain rfl : compression = 16 := sixteen
      simp
  next other =>
      simp

/--
However the targets between 2 and 18 change, the gain is the one that counting twentieths
of a decibel gives.
-/
theorem updateCompressor_counts_twentieths
    {compression : ℤ}
    (start : 2 ≤ compression ∧ compression ≤ 18)
    (targets : List ℤ)
    (inRange : ∀ target ∈ targets, 2 ≤ target ∧ target ≤ 18) :
    (targets.foldl Compressor.updateCompressor
        ⟨compression, compression⟩).compression =
      (targets.foldl Twentieths.update ⟨compression, 0⟩).compression := by
  have represents : ∀ (compressor : Compressor) (count : Twentieths),
      count.InRange → Represents compressor count →
        Represents (targets.foldl Compressor.updateCompressor compressor)
          (targets.foldl Twentieths.update count) := by
    induction targets with
    | nil =>
        exact fun _ _ _ represents => represents
    | cons target rest inductionHypothesis =>
        rw [List.forall_mem_cons] at inRange
        intro compressor count countInRange represents
        exact inductionHypothesis inRange.2 _ _
          (countInRange.update inRange.1)
          (represents.updateCompressor countInRange inRange.1)
  exact
    (represents _ _ ⟨start, by norm_num⟩ (represents_start compression)).1

/-- The targets 7 to 8 and back again before the gain has come to 8. -/
theorem updateCompressor_counts_twentieths_seven :
    (([8, 8, 6, 8, 7] : List ℤ).foldl Compressor.updateCompressor ⟨7, (7 : ℤ)⟩).compression =
      (([8, 8, 6, 8, 7] : List ℤ).foldl Twentieths.update ⟨7, 0⟩).compression :=
  updateCompressor_counts_twentieths (by norm_num) [8, 8, 6, 8, 7] (by decide)

end ApmSdk.AgcManager
