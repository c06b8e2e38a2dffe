import ApmSdk.FarEnergyLevels
import ApmSdk.FeatureExtraction
import ApmSdk.NearFilter
import ApmSdk.NoiseUpdate

namespace ApmSdk.Nsx

/-!
# The quantile estimate of the noise

`NoiseEstimationC` follows a quantile of the log magnitude of every bin with three
estimates that start at different times.  The largest log quantile of an estimate decides
the domain in which the noise is given to the rest of the suppressor.
-/

/-- `WebRtcNsx_kLogTable` -/
def kLogTable : List Int :=
  [0, 177, 355, 532, 710, 887, 1065, 1242, 1420]

/-- `WebRtcNsx_kCounterDiv` -/
def kCounterDiv : List Int :=
  [32767, 16384, 10923, 8192, 6554, 5461, 4681, 4096, 3641, 3277, 2979, 2731, 2521,
    2341, 2185, 2048, 1928, 1820, 1725, 1638, 1560, 1489, 1425, 1365, 1311, 1260,
    1214, 1170, 1130, 1092, 1057, 1024, 993, 964, 936, 910, 886, 862, 840, 819, 799,
    780, 762, 745, 728, 712, 697, 683, 669, 655, 643, 630, 618, 607, 596, 585, 575,
    565, 555, 546, 537, 529, 520, 512, 504, 496, 489, 482, 475, 468, 462, 455, 449,
    443, 437, 431, 426, 420, 415, 410, 405, 400, 395, 390, 386, 381, 377, 372, 368,
    364, 360, 356, 352, 349, 345, 341, 338, 334, 331, 328, 324, 321, 318, 315, 312,
    309, 306, 303, 301, 298, 295, 293, 290, 287, 285, 282, 280, 278, 275, 273, 271,
    269, 266, 264, 262, 260, 258, 256, 254, 252, 250, 248, 246, 245, 243, 241, 239,
    237, 236, 234, 232, 231, 229, 228, 226, 224, 223, 221, 220, 218, 217, 216, 214,
    213, 211, 210, 209, 207, 206, 205, 204, 202, 201, 200, 199, 197, 196, 195, 194,
    193, 192, 191, 189, 188, 187, 186, 185, 184, 183, 182, 181, 180, 179, 178, 177,
    176, 175, 174, 173, 172, 172, 171, 170, 169, 168, 167, 166, 165, 165, 164, 163]

/-- `WebRtcNsx_kLogTableFrac` -/
def kLogTableFrac : List Int :=
  [0, 1, 3, 4, 6, 7, 9, 10, 11, 13, 14, 16, 17, 18, 20, 21, 22, 24, 25, 26, 28, 29,
    30, 32, 33, 34, 36, 37, 38, 40, 41, 42, 44, 45, 46, 47, 49, 50, 51, 52, 54, 55,
    56, 57, 59, 60, 61, 62, 63, 65, 66, 67, 68, 69, 71, 72, 73, 74, 75, 77, 78, 79,
    80, 81, 82, 84, 85, 86, 87, 88, 89, 90, 92, 93, 94, 95, 96, 97, 98, 99, 100,
    102, 103, 104, 105, 106, 107, 108, 109, 110, 111, 112, 113, 114, 116, 117, 118,
    119, 120, 121, 122, 123, 124, 125, 126, 127, 128, 129, 130, 131, 132, 133, 134,
    135, 136, 137, 138, 139, 140, 141, 142, 143, 144, 145, 146, 147, 148, 149, 150,
    151, 152, 153, 154, 155, 155, 156, 157, 158, 159, 160, 161, 162, 163, 164, 165,
    166, 167, 168, 169, 169, 170, 171, 172, 173, 174, 175, 176, 177, 178, 178, 179,
    180, 181, 182, 183, 184, 185, 185, 186, 187, 188, 189, 190, 191, 192, 192, 193,
    194, 195, 196, 197, 198, 198, 199, 200, 201, 202, 203, 203, 204, 205, 206, 207,
    208, 208, 209, 210, 211, 212, 212, 213, 214, 215, 216, 216, 217, 218, 219, 220,
    220, 221, 222, 223, 224, 224, 225, 226, 227, 228, 228, 229, 230, 231, 231, 232,
    233, 234, 234, 235, 236, 237, 238, 238, 239, 240, 241, 241, 242, 243, 244, 244,
    245, 246, 247, 247, 248, 249, 249, 250, 251, 252, 252, 253, 254, 255, 255]

/-- `FACTOR_Q16` -/
abbrev factorQ16 : Int := 2621440

/-- `FACTOR_Q7` -/
abbrev factorQ7 : Int := 5120

/-- `FACTOR_Q7_STARTUP` -/
abbrev factorQ7Startup : Int := 1024

/-- `WIDTH_Q8` -/
abbrev widthQ8 : Int := 3

/-- `kExp2Const` -/
abbrev kExp2Const : Int := 11819

/-- `width_factor` -/
abbrev widthFactor : Int := 21845

/-- `log2_const` -/
abbrev log2Const : Int := 22713

/-- `magnLen` -/
def Band.magnLen : Band → Nat
  | .narrow => 65
  | .wide => 129

/-- The log of a magnitude in Q8, to the base 2. -/
def log2Q8 (magn : UInt16) : Int :=
  if magn.toNat ≠ 0 then
    let zeros := Agc.normU32 magn.toNat
    let frac :=
      int16 ((uint32 (magn.toNat * 2 ^ zeros) % 2 ^ 31) >>> (23 : Nat))
    int16 ((31 - zeros) * 2 ^ 8 + kLogTableFrac.getD frac.toNat 0)
  else 0

/-- `logval` -/
def logval (band : Band) (normData : Nat) : Int :=
  if band.stages < normData then -kLogTable.getD (normData - band.stages) 0
  else kLogTable.getD (band.stages - normData) 0

/-- `lmagn`, the natural log of a magnitude. -/
def lmagn (band : Band) (normData : Nat) (magn : UInt16) : Int :=
  if magn.toNat ≠ 0 then
    int16
      (int16 ((log2Q8 magn * log2Const) >>> (15 : Nat)) +
        logval band normData)
  else logval band normData

/-- The quantile and the density of a frequency bin. -/
structure QuantileBin where
  logQuantile : Int
  density : Int
deriving Repr, DecidableEq

namespace QuantileBin

/-- `delta` -/
def delta (bin : QuantileBin) (blockIndex : Int) : Int :=
  if 512 < bin.density then
    int16 (factorQ16 >>> (14 - Aecm.normW16 bin.density))
  else if blockIndex < endStartupLong then factorQ7Startup
  else factorQ7

/-- The update of the log quantile. -/
def moveQuantile
    (bin : QuantileBin)
    (blockIndex lmagn logval countDiv : Int) : Int :=
  let tmp16 := int16 ((bin.delta blockIndex * countDiv) >>> (14 : Nat))
  if bin.logQuantile < lmagn then
    int16 (bin.logQuantile + Int.tdiv (int16 (tmp16 + 2)) 4)
  else
    let tmp16no2 := int16 (Int.tdiv (Int.tdiv (int16 (tmp16 + 1)) 2 * 3) 2)
    let logQuantile := int16 (bin.logQuantile - tmp16no2)
    if logQuantile < logval then logval else logQuantile

/-- A turn of the loop over the bins. -/
def update
    (bin : QuantileBin)
    (blockIndex lmagn logval countDiv countProd : Int) : QuantileBin :=
  let logQuantile := bin.moveQuantile blockIndex lmagn logval countDiv
  { logQuantile
    density :=
      if |lmagn - logQuantile| < widthQ8 then
        int16
          (int16 ((bin.density * countProd + 2 ^ 14) >>> (15 : Nat)) +
            int16 ((widthFactor * countDiv + 2 ^ 14) >>> (15 : Nat)))
      else bin.density }

end QuantileBin

/-- One of the `SIMULT` estimates. -/
structure QuantileEstimate where
  bins : List QuantileBin
  counter : Int
deriving Repr, DecidableEq

namespace QuantileEstimate

/-- The bins of an estimate are updated. -/
def update
    (estimate : QuantileEstimate)
    (band : Band)
    (normData : Nat)
    (blockIndex : Int)
    (magn : List UInt16) : QuantileEstimate :=
  let countDiv := kCounterDiv.getD estimate.counter.toNat 0
  let countProd := int16 (estimate.counter * countDiv)
  { estimate with
    bins :=
      estimate.bins.zipWith
        (fun bin magn =>
          bin.update blockIndex (lmagn band normData magn)
            (logval band normData) countDiv countProd)
        magn }

/-- The domain that `UpdateNoiseEstimate` takes for an estimate. -/
def qNoise (estimate : QuantileEstimate) : Int :=
  let tmp16 :=
    (estimate.bins.map (·.logQuantile)).foldl max (-32768)
  14 - (kExp2Const * tmp16 + 2 ^ 20) >>> (21 : Nat)

/-- The counter after a frame. -/
def count (estimate : QuantileEstimate) : QuantileEstimate :=
  { estimate with
    counter :=
      (if endStartupLong ≤ estimate.counter then 0 else estimate.counter) + 1 }

end QuantileEstimate

/-- What a `NoiseSuppressionFixedC` keeps of the quantiles. -/
structure QuantileNoise where
  estimates : List QuantileEstimate
  qNoise : Int
deriving Repr, DecidableEq

namespace QuantileNoise

/-- The quantiles after `WebRtcNsx_InitCore`. -/
def initCore (band : Band) : QuantileNoise where
  estimates :=
    [66, 133, 200].map fun counter =>
      ⟨List.replicate band.magnLen ⟨2048, 153⟩, counter⟩
  qNoise := 0

/-- `NoiseEstimationC` -/
def noiseEstimation
    (inst : QuantileNoise)
    (band : Band)
    (normData : Nat)
    (blockIndex : Int)
    (magn : List UInt16) : QuantileNoise :=
  let updated := inst.estimates.map (·.update band normData blockIndex magn)
  -- during the start-up the last estimate is taken, later each that comes to an end
  { estimates := updated.map (·.count)
    qNoise :=
      updated.foldl
        (fun qNoise estimate =>
          if blockIndex < endStartupLong ∨
              endStartupLong ≤ estimate.counter then
            estimate.qNoise
          else qNoise)
        inst.qNoise }

end QuantileNoise

/-! ## The tables -/

/-- A lookup has what every entry and the default have. -/
theorem getD_of_forall
    {holds : Int → Prop}
    {table : List Int}
    {default : Int}
    (entries : ∀ entry ∈ table, holds entry)
    (otherwise : holds default)
    (index : Nat) :
    holds (table.getD index default) := by
  rw [List.getD_eq_getElem?_getD]
  cases found : table[index]? with
  | none =>
      exact otherwise
  | some entry =>
      exact entries entry (List.mem_of_getElem? found)

theorem kLogTableFrac_bounds (index : Nat) :
    0 ≤ kLogTableFrac.getD index 0 ∧ kLogTableFrac.getD index 0 ≤ 255 :=
  @getD_of_forall (fun entry => 0 ≤ entry ∧ entry ≤ 255) _ _
    (by decide +kernel) (by decide) index

/-- A counter divides by two at least. -/
theorem kCounterDiv_bounds
    {counter : Int}
    (positive : 1 ≤ counter) :
    0 ≤ kCounterDiv.getD counter.toNat 0 ∧
      kCounterDiv.getD counter.toNat 0 ≤ 16384 := by
  have positive : 1 ≤ counter.toNat := by
    omega
  obtain ⟨index, isSucc⟩ := Nat.exists_eq_add_of_le' positive
  have tail :
      kCounterDiv.getD (index + 1) 0 = kCounterDiv.tail.getD index 0 :=
    rfl
  rw [isSucc, tail]
  exact
    @getD_of_forall (fun entry => 0 ≤ entry ∧ entry ≤ 16384) _ _
      (by decide +kernel) (by decide) index

/-- The norm of a word that has 16 bits. -/
theorem normU32_halfWord
    {word : Int}
    (positive : 0 < word)
    (below : word < 2 ^ 16) :
    16 ≤ Agc.normU32 word ∧ Agc.normU32 word ≤ 31 := by
  unfold Agc.normU32
  rw [if_neg positive.ne']
  refine ⟨?_, leadingZeros_le ..⟩
  have atLeast :=
    (leadingZeros_normalises (show 16 ≤ 32 by decide) (by decide) positive
      (by omega)).1
  by_contra fewer
  have power : (2 : Int) ^ leadingZeros 32 word ≤ 2 ^ 15 :=
    pow_le_pow_right₀ (by decide) (by omega)
  have product :
      word * 2 ^ leadingZeros 32 word ≤ (2 ^ 16 - 1) * 2 ^ 15 :=
    mul_le_mul (by omega) power (by positivity) (by decide)
  omega

/-- The log of a magnitude has twelve bits. -/
theorem log2Q8_bounds (magn : UInt16) :
    0 ≤ log2Q8 magn ∧ log2Q8 magn ≤ 4095 := by
  unfold log2Q8
  split
  next present =>
      have below := magn.toNat_lt
      have zeros := normU32_halfWord (show (0 : Int) < magn.toNat by omega)
        (show (magn.toNat : Int) < 2 ^ 16 by exact_mod_cast below)
      have frac :=
        Aecm.extractFractionPart_bounds magn.toNat (Agc.normU32 magn.toNat)
      have entry :=
        kLogTableFrac_bounds
          (Aecm.extractFractionPart magn.toNat
            (Agc.normU32 magn.toNat)).toNat
      have value :
          int16
              ((31 - (Agc.normU32 magn.toNat : Int)) * 2 ^ 8 +
                kLogTableFrac.getD
                  (Aecm.extractFractionPart magn.toNat
                    (Agc.normU32 magn.toNat)).toNat 0) =
            (31 - (Agc.normU32 magn.toNat : Int)) * 2 ^ 8 +
              kLogTableFrac.getD
                (Aecm.extractFractionPart magn.toNat
                  (Agc.normU32 magn.toNat)).toNat 0 :=
        int16_of_bounds (by omega) (by omega)
      have bounded :
          0 ≤ (31 - (Agc.normU32 magn.toNat : Int)) * 2 ^ 8 +
              kLogTableFrac.getD
                (Aecm.extractFractionPart magn.toNat
                  (Agc.normU32 magn.toNat)).toNat 0 ∧
            (31 - (Agc.normU32 magn.toNat : Int)) * 2 ^ 8 +
              kLogTableFrac.getD
                (Aecm.extractFractionPart magn.toNat
                  (Agc.normU32 magn.toNat)).toNat 0 ≤ 4095 := by
        omega
      rw [← value] at bounded
      exact bounded
  next =>
      decide

theorem logval_bounds
    (band : Band)
    {normData : Nat}
    (small : normData ≤ 14) :
    -1242 ≤ logval band normData ∧ logval band normData ≤ 1420 := by
  cases band <;> interval_cases normData <;> decide

/-- The natural log of a magnitude, in the domain of its frame. -/
theorem lmagn_bounds
    (band : Band)
    {normData : Nat}
    (small : normData ≤ 14)
    (magn : UInt16) :
    -1242 ≤ lmagn band normData magn ∧ lmagn band normData magn ≤ 4258 := by
  obtain ⟨lower, upper⟩ := logval_bounds band small
  obtain ⟨logLower, logUpper⟩ := log2Q8_bounds magn
  unfold lmagn
  split
  next =>
      rw [Int.shiftRight_eq_div_pow, Nat.cast_pow, Nat.cast_ofNat]
      have natural :
          int16 (log2Q8 magn * log2Const / 2 ^ 15) =
            log2Q8 magn * 22713 / 2 ^ 15 :=
        int16_of_bounds (by dsimp only [log2Const]; omega)
          (by dsimp only [log2Const]; omega)
      rw [natural, int16_of_bounds (by omega) (by omega)]
      omega
  next =>
      exact ⟨lower, by omega⟩

/-! ## One bin -/

namespace QuantileBin

variable {bin : QuantileBin}

/-- The quantile in the range of the logs and one step above it, and the density in its
type. -/
structure InRange (bin : QuantileBin) : Prop where
  logQuantile : -1242 ≤ bin.logQuantile ∧ bin.logQuantile ≤ 5538
  density : bin.density < 2 ^ 15

/-- The step size. -/
theorem InRange.delta
    (inRange : bin.InRange)
    (blockIndex : Int) :
    0 ≤ bin.delta blockIndex ∧ bin.delta blockIndex ≤ 5120 := by
  unfold QuantileBin.delta
  split
  next dense =>
      have fits :=
        (Aecm.normW16_normalises (show 0 < bin.density by omega)
          inRange.density).2
      have few : Aecm.normW16 bin.density ≤ 5 := by
        by_contra more
        have power : (2 : Int) ^ 6 ≤ 2 ^ Aecm.normW16 bin.density :=
          pow_le_pow_right₀ (by decide) (by omega)
        have product :
            512 * 2 ^ 6 ≤ bin.density * 2 ^ Aecm.normW16 bin.density :=
          mul_le_mul dense.le power (by decide) (by omega)
        omega
      generalize Aecm.normW16 bin.density = factor at few
      interval_cases factor <;> decide
  next =>
      split <;> decide

/-- A log in the range keeps the quantile there. -/
theorem InRange.moveQuantile
    (inRange : bin.InRange)
    {blockIndex lmagn logval countDiv : Int}
    (lmagnRange : lmagn ≤ 4258)
    (logvalRange : -1242 ≤ logval ∧ logval ≤ 1420)
    (countDivRange : 0 ≤ countDiv ∧ countDiv ≤ 16384) :
    -1242 ≤ bin.moveQuantile blockIndex lmagn logval countDiv ∧
      bin.moveQuantile blockIndex lmagn logval countDiv ≤ 5538 := by
  obtain ⟨lower, upper⟩ := inRange.logQuantile
  obtain ⟨deltaLower, deltaUpper⟩ := inRange.delta blockIndex
  have nonneg : 0 ≤ bin.delta blockIndex * countDiv :=
    mul_nonneg deltaLower countDivRange.1
  have below : bin.delta blockIndex * countDiv ≤ 5120 * 16384 :=
    mul_le_mul deltaUpper countDivRange.2 countDivRange.1 (by decide)
  unfold QuantileBin.moveQuantile
  rw [Int.shiftRight_eq_div_pow, Nat.cast_pow, Nat.cast_ofNat]
  generalize bin.delta blockIndex * countDiv = product at nonneg below
  have step : int16 (product / 2 ^ 14) = product / 2 ^ 14 :=
    int16_of_bounds (by omega) (by omega)
  dsimp only
  rw [step]
  have stepRange : 0 ≤ product / 2 ^ 14 ∧ product / 2 ^ 14 ≤ 5120 := by
    omega
  generalize product / 2 ^ 14 = tmp16 at stepRange
  split
  next below =>
      have up : int16 (tmp16 + 2) = tmp16 + 2 :=
        int16_of_bounds (by omega) (by omega)
      rw [up, Int.tdiv_eq_ediv_of_nonneg (by omega),
        int16_of_bounds (by omega) (by omega)]
      omega
  next above =>
      have down : int16 (tmp16 + 1) = tmp16 + 1 :=
        int16_of_bounds (by omega) (by omega)
      have half : Int.tdiv (tmp16 + 1) 2 = (tmp16 + 1) / 2 :=
        Int.tdiv_eq_ediv_of_nonneg (by omega)
      have share :
          int16 ((tmp16 + 1) / 2 * 3 / 2) = (tmp16 + 1) / 2 * 3 / 2 :=
        int16_of_bounds (by omega) (by omega)
      rw [down, half, Int.tdiv_eq_ediv_of_nonneg (by omega), share,
        int16_of_bounds (by omega) (by omega)]
      split <;> omega

/-- A bin stays in range. -/
theorem InRange.update
    (inRange : bin.InRange)
    {blockIndex lmagn logval countDiv countProd : Int}
    (lmagnRange : lmagn ≤ 4258)
    (logvalRange : -1242 ≤ logval ∧ logval ≤ 1420)
    (countDivRange : 0 ≤ countDiv ∧ countDiv ≤ 16384) :
    (bin.update blockIndex lmagn logval countDiv countProd).InRange where
  logQuantile :=
    inRange.moveQuantile lmagnRange logvalRange countDivRange
  density := by
    unfold QuantileBin.update
    dsimp only
    split
    next =>
        exact (int16_bounds _).2
    next =>
        exact inRange.density

end QuantileBin

/-! ## The estimates -/

theorem mem_zipWith
    {First Second Result : Type}
    {combine : First → Second → Result}
    {firsts : List First}
    {seconds : List Second}
    {result : Result}
    (member : result ∈ firsts.zipWith combine seconds) :
    ∃ first ∈ firsts, ∃ second, result = combine first second := by
  rw [← List.map_uncurry_zip_eq_zipWith] at member
  obtain ⟨pair, inZip, rfl⟩ := List.mem_map.mp member
  exact ⟨pair.1, (List.of_mem_zip inZip).1, pair.2, rfl⟩

namespace QuantileEstimate

variable {estimate : QuantileEstimate}

/-- An estimate of a band, while its counter runs. -/
structure InRange (band : Band) (estimate : QuantileEstimate) : Prop where
  counter : 1 ≤ estimate.counter
  size : estimate.bins.length = band.magnLen
  bins : ∀ bin ∈ estimate.bins, bin.InRange

variable {band : Band} {normData : Nat} {blockIndex : Int}
variable {magn : List UInt16}

theorem InRange.update
    (inRange : estimate.InRange band)
    (small : normData ≤ 14)
    (size : magn.length = band.magnLen) :
    (estimate.update band normData blockIndex magn).InRange band where
  counter := inRange.counter
  size := by
    unfold QuantileEstimate.update
    rw [List.length_zipWith, inRange.size, size, min_self]
  bins := by
    intro updated member
    obtain ⟨bin, inBins, current, rfl⟩ := mem_zipWith member
    exact
      (inRange.bins bin inBins).update (lmagn_bounds band small current).2
        (logval_bounds band small) (kCounterDiv_bounds inRange.counter)

theorem InRange.count (inRange : estimate.InRange band) :
    estimate.count.InRange band where
  counter := by
    have := inRange.counter
    unfold QuantileEstimate.count
    dsimp only
    split <;> omega
  size := inRange.size
  bins := inRange.bins

/-- The domain of an estimate. -/
theorem InRange.qNoise (inRange : estimate.InRange band) :
    -17 ≤ estimate.qNoise ∧ estimate.qNoise ≤ 21 := by
  have size : (estimate.bins.map (·.logQuantile)).length = band.magnLen := by
    rw [List.length_map, inRange.size]
  have quantiles :
      ∀ quantile ∈ estimate.bins.map (·.logQuantile),
        -1242 ≤ quantile ∧ quantile ≤ 5538 := by
    intro quantile member
    obtain ⟨bin, inBins, rfl⟩ := List.mem_map.mp member
    exact (inRange.bins bin inBins).logQuantile
  unfold QuantileEstimate.qNoise
  generalize estimate.bins.map (·.logQuantile) = logQuantiles at size quantiles
  cases logQuantiles with
  | nil =>
      cases band <;> contradiction
  | cons first rest =>
      have bounds := quantiles first List.mem_cons_self
      have atLeast : first ≤ (first :: rest).foldl max (-32768) :=
        le_foldl_max (.inr List.mem_cons_self)
      have largest := foldl_max_mem (-32768) (first :: rest)
      dsimp only [kExp2Const]
      rw [Int.shiftRight_eq_div_pow, Nat.cast_pow, Nat.cast_ofNat]
      obtain isStart | member := largest
      · omega
      · have range := quantiles _ member
        omega

end QuantileEstimate

namespace QuantileNoise

variable {inst : QuantileNoise} {band : Band}

/-- The estimates of a band, and a domain of one of them or the initial one. -/
structure InRange (band : Band) (inst : QuantileNoise) : Prop where
  estimates : ∀ estimate ∈ inst.estimates, estimate.InRange band
  qNoise : -17 ≤ inst.qNoise ∧ inst.qNoise ≤ 21

theorem InRange.initCore (band : Band) :
    (QuantileNoise.initCore band).InRange band where
  estimates := by
    intro estimate member
    obtain ⟨counter, inCounters, rfl⟩ := List.mem_map.mp member
    refine ⟨?_, List.length_replicate, ?_⟩
    · have positive : ∀ counter ∈ [66, 133, 200], (1 : Int) ≤ counter := by
        decide
      exact positive counter inCounters
    · intro bin inBins
      rw [List.eq_of_mem_replicate inBins]
      exact ⟨by decide, by decide⟩
  qNoise := by
    have start : (QuantileNoise.initCore band).qNoise = 0 := rfl
    rw [start]
    decide

/-- A scan over the estimates leaves the domain of one of them or the one it starts
with. -/
theorem foldl_qNoise_of_forall
    {holds : Int → Prop}
    {estimates : List QuantileEstimate}
    (entries : ∀ estimate ∈ estimates, holds estimate.qNoise)
    (taken : QuantileEstimate → Prop)
    [DecidablePred taken]
    {qNoise : Int}
    (start : holds qNoise) :
    holds
      (estimates.foldl
        (fun qNoise estimate =>
          if taken estimate then estimate.qNoise else qNoise)
        qNoise) := by
  induction estimates generalizing qNoise with
  | nil =>
      exact start
  | cons estimate rest inductionHypothesis =>
      refine
        inductionHypothesis
          (fun other inRest => entries other (List.mem_cons_of_mem _ inRest))
          ?_
      dsimp only
      split
      next =>
          exact entries estimate List.mem_cons_self
      next =>
          exact start

/-- A frame keeps the domain of the noise in range. -/
theorem InRange.noiseEstimation
    (inRange : inst.InRange band)
    {normData : Nat}
    (small : normData ≤ 14)
    {magn : List UInt16}
    (size : magn.length = band.magnLen)
    (blockIndex : Int) :
    (inst.noiseEstimation band normData blockIndex magn).InRange band := by
  have updated :
      ∀ estimate ∈
        inst.estimates.map (·.update band normData blockIndex magn),
        estimate.InRange band := by
    intro updated member
    obtain ⟨estimate, inEstimates, rfl⟩ := List.mem_map.mp member
    exact (inRange.estimates estimate inEstimates).update small size
  constructor
  · intro counted member
    obtain ⟨estimate, inUpdated, rfl⟩ := List.mem_map.mp member
    exact (updated estimate inUpdated).count
  · exact
      @foldl_qNoise_of_forall (fun qNoise => -17 ≤ qNoise ∧ qNoise ≤ 21) _
        (fun estimate inUpdated => (updated estimate inUpdated).qNoise)
        (fun estimate =>
          blockIndex < endStartupLong ∨ endStartupLong ≤ estimate.counter)
        _ _ inRange.qNoise

end QuantileNoise

end ApmSdk.Nsx
