import ApmSdk.AnalogAgc
import ApmSdk.CheckedComputation

namespace ApmSdk.Agc

/-!
# The compressor gain table

`WebRtcAgc_CalculateGainTable` evaluates the characteristic of a compressor with a soft
knee, and of a limiter above it, at 32 levels that are 6 dB apart.  The entries are in
Q16; entry `i` is the gain for levels with `i` leading zeros.
-/

/-- `kGenFuncTable`: log2(1 + e^x) in Q8. -/
def genFuncTable : List Int :=
  [256, 485, 786, 1126, 1484, 1849, 2217, 2586, 2955, 3324, 3693, 4063, 4432, 4801,
    5171, 5540, 5909, 6279, 6648, 7017, 7387, 7756, 8125, 8495, 8864, 9233, 9603,
    9972, 10341, 10711, 11080, 11449, 11819, 12188, 12557, 12927, 13296, 13665,
    14035, 14404, 14773, 15143, 15512, 15881, 16251, 16620, 16989, 17359, 17728,
    18097, 18466, 18836, 19205, 19574, 19944, 20313, 20682, 21052, 21421, 21790,
    22160, 22529, 22898, 23268, 23637, 24006, 24376, 24745, 25114, 25484, 25853,
    26222, 26592, 26961, 27330, 27700, 28069, 28438, 28808, 29177, 29546, 29916,
    30285, 30654, 31024, 31393, 31762, 32132, 32501, 32870, 33240, 33609, 33978,
    34348, 34717, 35086, 35456, 35825, 36194, 36564, 36933, 37302, 37672, 38041,
    38410, 38780, 39149, 39518, 39888, 40257, 40626, 40996, 41365, 41734, 42104,
    42473, 42842, 43212, 43581, 43950, 44320, 44689, 45058, 45428, 45797, 46166,
    46536, 46905]

/-- `kLog10`: log2(10) in Q14. -/
abbrev log10 : Int := 54426

/-- `kLog10_2`: 10 log10(2) in Q14. -/
abbrev log10Two : Int := 49321

/-- `kLogE_1`: log2(e) in Q14. -/
abbrev logE : Int := 23637

/-- `kCompRatio` -/
abbrev compRatio : Int := 3

/-- `constLinApprox`, in Q14. -/
abbrev linApprox : Int := 22817

/-- `WEBRTC_SPL_SHIFT_W32` -/
def shiftW32 (x : Int) (c : Int) : Int :=
  if 0 ≤ c then int32 (x * 2 ^ c.toNat) else x >>> (-c).toNat

/-- `WebRtcSpl_NormU32` -/
def normU32 (a : Int) : Nat :=
  if a = 0 then 0 else leadingZeros 32 a

/-- What the loop of `WebRtcAgc_CalculateGainTable` reads. -/
structure TableParameters where
  maxGain : Int
  diffGain : Int
  limiterEnable : Int
  limiterIdx : Int
  limiterLvl : Int
  constMaxGain : Int
  deriving Repr, DecidableEq

/-- The parameters of the loop; `none` for a gain that is refused. -/
def tableParameters
    (digCompGaindB targetLevelDbfs limiterEnable analogTarget : Int) :
    Option TableParameters :=
  let tmp32no1 := (digCompGaindB - analogTarget) * (compRatio - 1)
  let tmp16no1 :=
    int16 (int16 (analogTarget - targetLevelDbfs) +
      divW32W16ResW16 (tmp32no1 + compRatio >>> (1 : Nat)) compRatio)
  let maxGain := int16 (max tmp16no1 (analogTarget - targetLevelDbfs))
  let diffGain :=
    divW32W16ResW16
      (digCompGaindB * (compRatio - 1) + compRatio >>> (1 : Nat)) compRatio
  if diffGain < 0 ∨ 128 ≤ diffGain then none
  else
    some
      { maxGain
        diffGain
        limiterEnable
        limiterIdx :=
          int16 (2 +
            divW32W16ResW16 (analogTarget * 2 ^ 13) (Int.tdiv log10Two 2))
        limiterLvl := targetLevelDbfs
        constMaxGain := genFuncTable.getD diffGain.toNat 0 }

/-- `inLevel`: how far the gain difference is above the input level of an entry, in
Q14. -/
def TableParameters.inLevel (parameters : TableParameters) (i : Int) : Int :=
  parameters.diffGain * 2 ^ 14 -
    divW32W16 (int16 ((compRatio - 1) * (i - 1)) * log10Two + 1) compRatio

/-- The generator function at a level in Q14, interpolated, in Q22; `none` where the
source reads past its table. -/
def genFunc (absInLevel : Int) : Option Int :=
  let intPart := (absInLevel >>> (14 : Nat)).toNat
  let fracPart := absInLevel % 2 ^ 14
  genFuncTable[intPart]?.bind fun low =>
    genFuncTable[intPart + 1]?.map fun high =>
      uint32 (uint16 (high - low) * fracPart + low * 2 ^ 14)

/-- `logApprox` for a negative level: log2(1 + e^-x) = log2(1 + e^x) - x log2(e). -/
def logNegative (absInLevel generated : Int) : Int :=
  let zeros := normU32 absInLevel
  -- the level in Q22, or both sides in the Q-domain that keeps it in 32 bits
  let (tmpU32no2, tmpU32no1, zerosScale) :=
    if zeros < 15 then
      let scaled := uint32 (absInLevel >>> (15 - zeros) * logE)
      if zeros < 9 then
        (scaled, generated >>> (9 - zeros), 9 - zeros)
      else (scaled >>> (zeros - 9), generated, 0)
    else (uint32 (absInLevel * logE) >>> (6 : Nat), generated, 0)
  if tmpU32no2 < tmpU32no1 then
    (tmpU32no1 - tmpU32no2) >>> (8 - zerosScale)
  else 0

/-- `logApprox`, in Q14. -/
def logApprox (inLevel generated : Int) : Int :=
  if inLevel < 0 then logNegative (-inLevel) generated
  else generated >>> (8 : Nat)

/-- `y32`: the gain of the compressor, log10 in Q14. -/
def TableParameters.compressed
    (parameters : TableParameters)
    (logApprox : Int) : Int :=
  let den := 20 * parameters.constMaxGain
  let numFIX :=
    int32 (int32 (parameters.maxGain * parameters.constMaxGain * 2 ^ 6) -
      int32 (logApprox * parameters.diffGain))
  let zeros :=
    if den >>> (8 : Nat) < numFIX then normW32 numFIX else normW32 den + 8
  let numFIX := int32 (numFIX * 2 ^ zeros)
  let scaledDen := shiftW32 den (zeros - 8)
  let half := Int.tdiv scaledDen 2
  Int.tdiv (int32 (if numFIX < 0 then numFIX - half else numFIX + half)) scaledDen

/-- `y32` with the limiter, for the entries above its level. -/
def TableParameters.limited
    (parameters : TableParameters)
    (i y32 : Int) : Int :=
  if parameters.limiterEnable ≠ 0 ∧ i < parameters.limiterIdx then
    divW32W16 (int16 (i - 1) * log10Two - parameters.limiterLvl * 2 ^ 14 + 10) 20
  else y32

/-- The exponent of the entry to the base of two, in Q14 for a gain in Q16. -/
def binaryExponent (y32 : Int) : Int :=
  let tmp32 :=
    if 39000 < y32 then
      int32 (int32 (y32 >>> (1 : Nat) * log10) + 4096) >>> (13 : Nat)
    else int32 (int32 (y32 * log10) + 8192) >>> (14 : Nat)
  tmp32 + 16 * 2 ^ 14

/-- A power of two, with the fraction approximated in two pieces. -/
def power (tmp32 : Int) : Int :=
  if 0 < tmp32 then
    let intPart := uint16 (int16 (tmp32 >>> (14 : Nat)))
    let fracPart : Int := tmp32 % 2 ^ 14
    let fracPart : Int :=
      if fracPart >>> (13 : Nat) ≠ 0 then
        uint16 (2 ^ 14 -
          ((2 ^ 14 - fracPart) * (2 * 2 ^ 14 - linApprox)) >>> (13 : Nat))
      else uint16 ((fracPart * (linApprox - 2 ^ 14)) >>> (13 : Nat))
    int32 (int32 (2 ^ intPart.toNat) + shiftW32 fracPart (intPart - 14))
  else 0

/-- `gainTable[i]` -/
def TableParameters.entry
    (parameters : TableParameters)
    (i : Nat) : Option Int :=
  let inLevel := parameters.inLevel i
  (genFunc inLevel.natAbs).map fun generated =>
    power
      (binaryExponent
        (parameters.limited i
          (parameters.compressed (logApprox inLevel generated))))

/-- `WebRtcAgc_CalculateGainTable`; `none` for a gain that is refused, and for one that
makes it read past its generator table. -/
def calculateGainTable
    (digCompGaindB targetLevelDbfs limiterEnable analogTarget : Int) :
    Option (List Int) :=
  (tableParameters digCompGaindB targetLevelDbfs limiterEnable analogTarget).bind
    fun parameters => (List.range 32).mapM parameters.entry

/-- The table of a configuration, as `WebRtcAgc_set_config` has it calculated in a
mode. -/
def gainTableOf
    (agcMode : Int)
    (agcConfig : AgcConfig) : Option (List Int) :=
  let stt := { LegacyAgc.blank with agcMode }.storeConfig agcConfig
  calculateGainTable stt.compressionGaindB stt.targetLevelDbfs stt.limiterEnable
    stt.analogTarget

/-- A table is calculated for no gain that `WebRtcAgc_set_config` refuses. -/
theorem calculateGainTable_refused
    {digCompGaindB : Int}
    (refused : LegacyAgc.calculateGainTable digCompGaindB = -1)
    (targetLevelDbfs limiterEnable analogTarget : Int) :
    calculateGainTable digCompGaindB targetLevelDbfs limiterEnable
        analogTarget =
      none := by
  have outside :
      divW32W16ResW16 (digCompGaindB * 2 + 1) 3 < 0 ∨
        128 ≤ divW32W16ResW16 (digCompGaindB * 2 + 1) 3 := by
    unfold LegacyAgc.calculateGainTable at refused
    by_contra accepted
    dsimp only at refused
    rw [if_neg accepted] at refused
    contradiction
  unfold calculateGainTable tableParameters
  exact congrArg (Option.bind · _) (if_pos outside)

/-- A table that is calculated has 32 entries. -/
theorem length_gainTable
    {digCompGaindB targetLevelDbfs limiterEnable analogTarget : Int}
    {table : List Int}
    (calculated :
      calculateGainTable digCompGaindB targetLevelDbfs limiterEnable
          analogTarget =
        some table) :
    table.length = 32 := by
  obtain ⟨parameters, -, entries⟩ := Option.bind_eq_some_iff.mp calculated
  rw [length_of_mapM entries, List.length_range]

/-- The default configuration in the adaptive analog mode. -/
example :
    gainTableOf modeAdaptiveAnalog defaultConfig =
      some
        [32814, 45708, 65620, 91416, 121744, 129136, 130572, 130764, 130784,
          130796, 130796, 130784, 130796, 130796, 130784, 130796, 130796,
          130784, 130796, 130796, 130784, 130796, 130796, 130784, 130796,
          130796, 130784, 130796, 130796, 130796, 130796, 130796] := by
  decide +kernel

end ApmSdk.Agc
