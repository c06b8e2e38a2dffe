import ApmSdk.ComfortNoise
import ApmSdk.GainTable
import ApmSdk.LabelledPath
import ApmSdk.Normalisation
import ApmSdk.SquareRoot

namespace ApmSdk.Aecm

/-!
# The far end levels and the step size

`WebRtcAecm_CalcEnergies` follows the least and the greatest log energy of the far end with
asymmetric filters, and a level for voice activity that lags behind; the step size of the
channel estimation is where the current energy lies between the two.
-/

/-- `FAR_ENERGY_MIN` -/
abbrev farEnergyMinLevel : Int := 1025

/-- `FAR_ENERGY_DIFF` -/
abbrev farEnergyDiff : Int := 929

/-- `FAR_ENERGY_VAD_REGION` -/
abbrev farEnergyVadRegion : Int := 230

/-- `MU_MIN` -/
abbrev muMin : Int := 10

/-- `MU_MAX` -/
abbrev muMax : Int := 1

/-- `MU_DIFF` -/
abbrev muDiff : Int := 9

/-- `CONV_LEN` -/
abbrev convLen : Int := 512

/-- A delayed far spectrum and its domain, which is a norm of 16 bits. -/
structure FarSpectrum where
  magnitudes : List UInt16
  farQ : Nat
  size : magnitudes.length = partLen1
  inDomain : farQ ≤ 15

/-- What an `AecmCore` keeps of the energy of the far end. -/
structure FarLevels where
  startupState : Int
  totCount : Int
  farLogEnergy : Int
  farEnergyMin : Int
  farEnergyMax : Int
  farEnergyMaxMin : Int
  farEnergyVAD : Int
  farEnergyMSE : Int
  currentVADValue : Int
  vadUpdateCount : Int
deriving Repr, DecidableEq

/-- `WebRtcAecm_AsymFilt` -/
def asymFilt
    (filtOld inVal : Int)
    (stepSizePos stepSizeNeg : Nat) : Int :=
  if filtOld = 32767 ∨ filtOld = -32768 then inVal
  else if inVal < filtOld then
    int16 (filtOld - (filtOld - inVal) >>> stepSizeNeg)
  else int16 (filtOld + (inVal - filtOld) >>> stepSizePos)

/-- `ExtractFractionPart` -/
def extractFractionPart (a : Int) (zeros : Nat) : Int :=
  int16 ((uint32 (a * 2 ^ zeros) % 2 ^ 31) >>> (23 : Nat))

/-- `LogOfEnergyInQ8` -/
def logOfEnergyInQ8 (energy : Int) (qDomain : Nat) : Int :=
  let kLogLowValue := 7 * 2 ^ 7
  if 0 < energy then
    let zeros := Agc.normU32 energy
    let frac := extractFractionPart energy zeros
    int16 (kLogLowValue + ((31 - zeros) * 2 ^ 8 + frac - qDomain * 2 ^ 8))
  else kLogLowValue

/-- `tmpFar` of `WebRtcAecm_CalcLinearEnergies` -/
def FarSpectrum.farEnergy (spectrum : FarSpectrum) : Int :=
  uint32 ((spectrum.magnitudes.map fun magnitude => (magnitude.toNat : Int)).sum)

namespace FarLevels

/-- The start-up state at the start of a block. -/
def updateStartup (aecm : FarLevels) : FarLevels :=
  if aecm.startupState < 2 then
    { aecm with
      startupState :=
        (if convLen ≤ aecm.totCount then 1 else 0) +
          (if 2 * convLen ≤ aecm.totCount then 1 else 0) }
  else aecm

/-- The filters of the least and the greatest energy. -/
def updateExtremes (aecm : FarLevels) : FarLevels :=
  let startup := aecm.startupState = 0
  let farEnergyMin :=
    asymFilt aecm.farEnergyMin aecm.farLogEnergy
      (if startup then 8 else 11) (if startup then 2 else 3)
  let farEnergyMax :=
    asymFilt aecm.farEnergyMax aecm.farLogEnergy
      (if startup then 2 else 4) 11
  { aecm with
    farEnergyMin
    farEnergyMax
    farEnergyMaxMin := int16 (farEnergyMax - farEnergyMin) }

/-- The size of the region for voice activity. -/
def vadRegion (farEnergyMin : Int) : Int :=
  let tmp16 := int16 (2560 - farEnergyMin)
  let tmp16 :=
    if 0 < tmp16 then int16 ((tmp16 * farEnergyVadRegion) >>> (9 : Nat)) else 0
  int16 (tmp16 + farEnergyVadRegion)

/-- The levels for voice activity and for the channel errors. -/
def updateVadLevel (aecm : FarLevels) : FarLevels :=
  let tmp16 := vadRegion aecm.farEnergyMin
  let aecm :=
    if aecm.startupState = 0 ∨ 1024 < aecm.vadUpdateCount then
      { aecm with farEnergyVAD := int16 (aecm.farEnergyMin + tmp16) }
    else if aecm.farLogEnergy < aecm.farEnergyVAD then
      { aecm with
        farEnergyVAD :=
          int16
            (aecm.farEnergyVAD +
              (aecm.farLogEnergy + tmp16 - aecm.farEnergyVAD) >>> (6 : Nat))
        vadUpdateCount := 0 }
    else { aecm with vadUpdateCount := int16 (aecm.vadUpdateCount + 1) }
  { aecm with farEnergyMSE := int16 (aecm.farEnergyVAD + 2 ^ 8) }

/-- The voice activity of the far end. -/
def updateVad (aecm : FarLevels) : FarLevels :=
  if aecm.farEnergyVAD < aecm.farLogEnergy then
    if aecm.startupState = 0 ∨ farEnergyDiff < aecm.farEnergyMaxMin then
      { aecm with currentVADValue := 1 }
    else aecm
  else { aecm with currentVADValue := 0 }

/-- `WebRtcAecm_CalcEnergies`, as far as the far end is concerned. -/
def calcEnergies (aecm : FarLevels) (spectrum : FarSpectrum) : FarLevels :=
  let aecm :=
    { aecm with
      farLogEnergy := logOfEnergyInQ8 spectrum.farEnergy spectrum.farQ }
  let aecm :=
    if farEnergyMinLevel < aecm.farLogEnergy then
      aecm.updateExtremes.updateVadLevel
    else aecm
  aecm.updateVad

/-- The division of `WebRtcAecm_CalcStepSize` is reached. -/
def Divides (aecm : FarLevels) : Prop :=
  aecm.currentVADValue ≠ 0 ∧ 0 < aecm.startupState ∧
    aecm.farEnergyMin < aecm.farEnergyMax

/-- `WebRtcAecm_CalcStepSize` -/
def calcStepSize (aecm : FarLevels) : Int :=
  if aecm.currentVADValue = 0 then 0
  else if 0 < aecm.startupState then
    let mu :=
      if aecm.farEnergyMax ≤ aecm.farEnergyMin then muMin
      else
        let tmp16 := int16 (aecm.farLogEnergy - aecm.farEnergyMin)
        let tmp32 := divW32W16 (tmp16 * muDiff) aecm.farEnergyMaxMin
        int16 (muMin - 1 - int16 tmp32)
    if mu < muMax then muMax else mu
  else muMax

/-- The levels after `WebRtcAecm_InitCore`. -/
def initCore : FarLevels where
  startupState := 0
  totCount := 0
  farLogEnergy := 0
  farEnergyMin := 32767
  farEnergyMax := -32768
  farEnergyMaxMin := 0
  farEnergyVAD := farEnergyMinLevel
  farEnergyMSE := 0
  currentVADValue := 0
  vadUpdateCount := 0

end FarLevels

/-! ## Runs -/

/-- What `WebRtcAecm_ProcessBlock` does with the levels. -/
inductive LevelCall where
  | updateStartup
  | calcEnergies (spectrum : FarSpectrum)
  | calcStepSize
  | count

/-- The levels, and whether the far end has updated them. -/
structure RecordedLevels where
  aecm : FarLevels
  updated : Bool
deriving Repr, DecidableEq

namespace RecordedLevels

/-- The levels after `WebRtcAecm_InitCore`. -/
def initCore : RecordedLevels where
  aecm := .initCore
  updated := false

/-- The energies of a block. -/
def calcEnergies
    (recorded : RecordedLevels)
    (spectrum : FarSpectrum) : RecordedLevels :=
  let aecm := recorded.aecm.calcEnergies spectrum
  ⟨aecm, recorded.updated || decide (farEnergyMinLevel < aecm.farLogEnergy)⟩

/-- A call on the levels. -/
def perform
    (recorded : RecordedLevels) : LevelCall → Option RecordedLevels
  | .updateStartup =>
      some { recorded with aecm := recorded.aecm.updateStartup }
  | .calcEnergies spectrum => some (recorded.calcEnergies spectrum)
  | .calcStepSize => some recorded
  | .count =>
      some
        { recorded with
          aecm :=
            { recorded.aecm with
              totCount := uint32 (recorded.aecm.totCount + 1) } }

/-- A value is between two others. -/
def Between (first second value : Int) : Prop :=
  first ≤ value ∧ value ≤ second ∨ second ≤ value ∧ value ≤ first

/-- What the energies of a block must keep: the levels are in order, and each of them is
between its old value and the energy, or the same. -/
structure EnergiesKept (before after : RecordedLevels) : Prop where
  ordered :
    after.updated = true →
      after.aecm.farEnergyMin ≤ after.aecm.farEnergyMax
  least :
    before.updated = true →
      Between before.aecm.farEnergyMin after.aecm.farLogEnergy
        after.aecm.farEnergyMin
  greatest :
    before.updated = true →
      Between before.aecm.farEnergyMax after.aecm.farLogEnergy
        after.aecm.farEnergyMax

/-- What a call must do. -/
def CallKept (recorded : RecordedLevels) : LevelCall → Prop
  | .calcEnergies spectrum =>
      EnergiesKept recorded (recorded.calcEnergies spectrum)
  | .calcStepSize =>
      (recorded.aecm.Divides → recorded.aecm.farEnergyMaxMin ≠ 0) ∧
        (recorded.aecm.calcStepSize = 0 ∨
          muMax ≤ recorded.aecm.calcStepSize ∧
            recorded.aecm.calcStepSize ≤ muMin)
  | .updateStartup | .count => True

/-- Where the step size is calculated, the energy is not far below the least one. -/
def EnergyNotFarBelow (recorded : RecordedLevels) : LevelCall → Prop
  | .calcStepSize =>
      recorded.aecm.Divides →
        muDiff * (recorded.aecm.farEnergyMin - recorded.aecm.farLogEnergy) <
          2 * recorded.aecm.farEnergyMaxMin
  | .calcEnergies _ | .updateStartup | .count => True

end RecordedLevels

/-! ## The log of an energy -/

/-- The fraction has eight bits. -/
theorem extractFractionPart_bounds (a : Int) (zeros : Nat) :
    0 ≤ extractFractionPart a zeros ∧ extractFractionPart a zeros ≤ 255 := by
  unfold extractFractionPart
  rw [Int.shiftRight_eq_div_pow,
    int16_of_bounds (by omega) (by omega)]
  omega

/-- In every domain of a far spectrum the log of an energy is less than 9088. -/
theorem logOfEnergyInQ8_bounds
    (energy : Int)
    {qDomain : Nat}
    (inDomain : qDomain ≤ 15) :
    -2944 ≤ logOfEnergyInQ8 energy qDomain ∧
      logOfEnergyInQ8 energy qDomain ≤ 9087 := by
  unfold logOfEnergyInQ8
  dsimp only
  split
  next =>
      have zeros := normU32_le energy
      have frac := extractFractionPart_bounds energy (Agc.normU32 energy)
      rw [int16_of_bounds (by omega) (by omega)]
      omega
  next =>
      omega

/-! ## One update of the levels -/

/-- Away from the sentinels the filter does not leave 16 bits. -/
theorem asymFilt_of_bounds
    {filtOld inVal : Int}
    {stepSizePos stepSizeNeg : Nat}
    (old : 1025 < filtOld ∧ filtOld ≤ 9087)
    (input : 1025 < inVal ∧ inVal ≤ 9087) :
    asymFilt filtOld inVal stepSizePos stepSizeNeg =
      if inVal < filtOld then filtOld - (filtOld - inVal) >>> stepSizeNeg
      else filtOld + (inVal - filtOld) >>> stepSizePos := by
  unfold asymFilt
  rw [if_neg (by omega)]
  split
  next below =>
      have part :=
        shiftRight_bounds (show 0 ≤ filtOld - inVal by omega) stepSizeNeg
      exact int16_of_bounds (by omega) (by omega)
  next above =>
      have part :=
        shiftRight_bounds (show 0 ≤ inVal - filtOld by omega) stepSizePos
      exact int16_of_bounds (by omega) (by omega)

/-- The filter moves by a part of the difference. -/
theorem asymFilt_eq
    {filtOld inVal : Int}
    {stepSizePos stepSizeNeg : Nat}
    (old : 1025 < filtOld ∧ filtOld ≤ 9087)
    (input : 1025 < inVal ∧ inVal ≤ 9087) :
    asymFilt filtOld inVal stepSizePos stepSizeNeg =
      if inVal < filtOld then
        filtOld - (filtOld - inVal) / 2 ^ stepSizeNeg
      else filtOld + (inVal - filtOld) / 2 ^ stepSizePos := by
  rw [asymFilt_of_bounds old input]
  simp only [Int.shiftRight_eq_div_pow, Nat.cast_pow, Nat.cast_ofNat]

/-- The filter moves towards the energy. -/
theorem asymFilt_between
    {filtOld inVal : Int}
    {stepSizePos stepSizeNeg : Nat}
    (old : 1025 < filtOld ∧ filtOld ≤ 9087)
    (input : 1025 < inVal ∧ inVal ≤ 9087) :
    RecordedLevels.Between filtOld inVal
      (asymFilt filtOld inVal stepSizePos stepSizeNeg) := by
  rw [asymFilt_of_bounds old input]
  unfold RecordedLevels.Between
  split
  next below =>
      have part :=
        shiftRight_bounds (show 0 ≤ filtOld - inVal by omega) stepSizeNeg
      omega
  next above =>
      have part :=
        shiftRight_bounds (show 0 ≤ inVal - filtOld by omega) stepSizePos
      omega

/-- Starting from the sentinels the filter takes the energy. -/
theorem asymFilt_sentinel
    {filtOld inVal : Int}
    {stepSizePos stepSizeNeg : Nat}
    (sentinel : filtOld = 32767 ∨ filtOld = -32768) :
    asymFilt filtOld inVal stepSizePos stepSizeNeg = inVal :=
  if_pos sentinel

namespace FarLevels

variable {aecm : FarLevels}

/-- The levels before the first update. -/
def Unset (aecm : FarLevels) : Prop :=
  aecm.farEnergyMin = 32767 ∧ aecm.farEnergyMax = -32768 ∧
    aecm.farEnergyMaxMin = 0

/-- The levels after it. -/
structure Ordered (aecm : FarLevels) : Prop where
  above : 1025 < aecm.farEnergyMin
  ordered : aecm.farEnergyMin ≤ aecm.farEnergyMax
  below : aecm.farEnergyMax ≤ 9087
  difference :
    aecm.farEnergyMaxMin = aecm.farEnergyMax - aecm.farEnergyMin

/-- The energy is near to the least level, or the levels are far apart, as the filters of
the levels move by parts of their distance to the energy. -/
def Spread (aecm : FarLevels) : Prop :=
  aecm.farLogEnergy - aecm.farEnergyMin ≤ 3600 ∧
      aecm.farEnergyMin - aecm.farLogEnergy ≤ 3600 ∨
    220 ≤ aecm.farEnergyMaxMin

/-- The first update sets both levels to the energy. -/
theorem Unset.updateExtremes
    (unset : aecm.Unset)
    (energy : 1025 < aecm.farLogEnergy ∧ aecm.farLogEnergy ≤ 9087) :
    aecm.updateExtremes.Ordered ∧ aecm.updateExtremes.Spread := by
  obtain ⟨least, greatest, -⟩ := unset
  have minimum :
      aecm.updateExtremes.farEnergyMin = aecm.farLogEnergy :=
    asymFilt_sentinel (.inl least)
  have maximum :
      aecm.updateExtremes.farEnergyMax = aecm.farLogEnergy :=
    asymFilt_sentinel (.inr greatest)
  have difference :
      aecm.updateExtremes.farEnergyMaxMin =
        int16 (aecm.updateExtremes.farEnergyMax -
          aecm.updateExtremes.farEnergyMin) :=
    rfl
  have same :
      aecm.updateExtremes.farLogEnergy = aecm.farLogEnergy :=
    rfl
  rw [int16_of_bounds (by omega) (by omega)] at difference
  exact
    ⟨⟨by omega, by omega, by omega, difference⟩, .inl (by omega)⟩

/-- A later update keeps the levels in order, and each between its old value and the
energy. -/
theorem Ordered.updateExtremes
    (ordered : aecm.Ordered)
    (energy : 1025 < aecm.farLogEnergy ∧ aecm.farLogEnergy ≤ 9087) :
    aecm.updateExtremes.Ordered ∧ aecm.updateExtremes.Spread ∧
      RecordedLevels.Between aecm.farEnergyMin aecm.farLogEnergy
        aecm.updateExtremes.farEnergyMin ∧
      RecordedLevels.Between aecm.farEnergyMax aecm.farLogEnergy
        aecm.updateExtremes.farEnergyMax := by
  obtain ⟨above, inOrder, below, -⟩ := ordered
  have minimum :
      aecm.updateExtremes.farEnergyMin = asymFilt _ _ _ _ :=
    rfl
  have maximum :
      aecm.updateExtremes.farEnergyMax = asymFilt _ _ _ _ :=
    rfl
  have difference :
      aecm.updateExtremes.farEnergyMaxMin =
        int16 (aecm.updateExtremes.farEnergyMax -
          aecm.updateExtremes.farEnergyMin) :=
    rfl
  have same :
      aecm.updateExtremes.farLogEnergy = aecm.farLogEnergy :=
    rfl
  rw [asymFilt_eq (by omega) energy] at minimum maximum
  unfold Spread RecordedLevels.Between
  rw [same]
  have moved :
      (1025 < aecm.updateExtremes.farEnergyMin ∧
          aecm.updateExtremes.farEnergyMin ≤
            aecm.updateExtremes.farEnergyMax ∧
          aecm.updateExtremes.farEnergyMax ≤ 9087) ∧
        (aecm.farLogEnergy - aecm.updateExtremes.farEnergyMin ≤ 3600 ∧
            aecm.updateExtremes.farEnergyMin - aecm.farLogEnergy ≤ 3600 ∨
          220 ≤
            aecm.updateExtremes.farEnergyMax -
              aecm.updateExtremes.farEnergyMin) := by
    by_cases startup : aecm.startupState = 0
    · simp only [startup, if_true] at minimum maximum
      split at minimum <;> split at maximum <;> omega
    · simp only [startup, if_false] at minimum maximum
      split at minimum <;> split at maximum <;> omega
  obtain ⟨⟨least, inOrder, greatest⟩, spread⟩ := moved
  rw [int16_of_bounds (by omega) (by omega)] at difference
  refine ⟨⟨least, inOrder, greatest, difference⟩, by omega, ?_, ?_⟩
  · rw [minimum, ← asymFilt_eq (by omega) energy]
    exact asymFilt_between (by omega) energy
  · rw [maximum, ← asymFilt_eq (by omega) energy]
    exact asymFilt_between (by omega) energy

/-- The region for voice activity has between 230 and 919 steps. -/
theorem vadRegion_bounds
    {farEnergyMin : Int}
    (above : 1025 < farEnergyMin)
    (below : farEnergyMin ≤ 9087) :
    230 ≤ vadRegion farEnergyMin ∧ vadRegion farEnergyMin ≤ 919 := by
  have headroom : int16 (2560 - farEnergyMin) = 2560 - farEnergyMin :=
    int16_of_bounds (by omega) (by omega)
  unfold vadRegion
  simp only [headroom, farEnergyVadRegion, Int.shiftRight_eq_div_pow]
  split
  next =>
      have part :
          int16 ((2560 - farEnergyMin) * 230 / (2 ^ 9 : Nat)) =
            (2560 - farEnergyMin) * 230 / (2 ^ 9 : Nat) :=
        int16_of_bounds (by omega) (by omega)
      rw [part, int16_of_bounds (by omega) (by omega)]
      omega
  next =>
      rw [int16_of_bounds (by omega) (by omega)]
      omega

/-- The level for voice activity stays above the least energy that updates it. -/
theorem updateVadLevel_bounds
    (ordered : aecm.Ordered)
    (energy : 1025 < aecm.farLogEnergy ∧ aecm.farLogEnergy ≤ 9087)
    (level : 1025 ≤ aecm.farEnergyVAD ∧ aecm.farEnergyVAD ≤ 10006) :
    1025 ≤ aecm.updateVadLevel.farEnergyVAD ∧
      aecm.updateVadLevel.farEnergyVAD ≤ 10006 := by
  obtain ⟨above, inOrder, below, -⟩ := ordered
  have region := vadRegion_bounds above (by omega)
  simp only [updateVadLevel]
  split
  next =>
      rw [int16_of_bounds (by omega) (by omega)]
      dsimp only
      omega
  next =>
    split
    next =>
        simp only [Int.shiftRight_eq_div_pow]
        rw [int16_of_bounds (by omega) (by omega)]
        omega
    next =>
        exact level

/-- The level for voice activity changes alone, with its count and what depends on it. -/
theorem updateVadLevel_eq (aecm : FarLevels) :
    ∃ farEnergyVAD farEnergyMSE vadUpdateCount,
      aecm.updateVadLevel =
        { aecm with farEnergyVAD, farEnergyMSE, vadUpdateCount } := by
  unfold updateVadLevel
  dsimp only
  split_ifs
  · exact ⟨_, _, _, rfl⟩
  · exact ⟨_, _, _, rfl⟩
  · exact ⟨_, _, _, rfl⟩

/-- Voice activity changes alone, and is set only above its level or kept there. -/
theorem updateVad_eq (aecm : FarLevels) :
    ∃ currentVADValue,
      aecm.updateVad = { aecm with currentVADValue } ∧
        (currentVADValue ≠ 0 → aecm.farEnergyVAD < aecm.farLogEnergy) := by
  unfold updateVad
  split_ifs with above
  · exact ⟨_, rfl, fun _ => above⟩
  · exact ⟨_, rfl, fun _ => above⟩
  · exact ⟨_, rfl, fun active => absurd rfl active⟩

end FarLevels

namespace RecordedLevels

variable {recorded : RecordedLevels}

/-- What holds between the calls. -/
structure Sound (recorded : RecordedLevels) : Prop where
  energy :
    -2944 ≤ recorded.aecm.farLogEnergy ∧ recorded.aecm.farLogEnergy ≤ 9087
  unset : recorded.updated = false → recorded.aecm.Unset
  ordered : recorded.updated = true → recorded.aecm.Ordered
  spread :
    1025 < recorded.aecm.farLogEnergy →
      recorded.updated = true ∧ recorded.aecm.Spread
  vadLevel :
    1025 ≤ recorded.aecm.farEnergyVAD ∧
      recorded.aecm.farEnergyVAD ≤ 10006
  active :
    recorded.aecm.currentVADValue ≠ 0 →
      1025 < recorded.aecm.farLogEnergy

/-- The energies of a block above the least energy. -/
theorem Sound.calcEnergies_of_lt
    (sound : recorded.Sound)
    (spectrum : FarSpectrum)
    (above :
      1025 < logOfEnergyInQ8 spectrum.farEnergy spectrum.farQ) :
    (recorded.calcEnergies spectrum).Sound ∧
      EnergiesKept recorded (recorded.calcEnergies spectrum) := by
  have bounds :=
    logOfEnergyInQ8_bounds spectrum.farEnergy spectrum.inDomain
  let heard : FarLevels :=
    { recorded.aecm with
      farLogEnergy := logOfEnergyInQ8 spectrum.farEnergy spectrum.farQ }
  have moved :
      heard.updateExtremes.Ordered ∧ heard.updateExtremes.Spread ∧
        (recorded.updated = true →
          Between recorded.aecm.farEnergyMin heard.farLogEnergy
              heard.updateExtremes.farEnergyMin ∧
            Between recorded.aecm.farEnergyMax heard.farLogEnergy
              heard.updateExtremes.farEnergyMax) := by
    cases updated : recorded.updated with
    | false =>
        have unset : heard.Unset := sound.unset updated
        obtain ⟨ordered, spread⟩ :=
          unset.updateExtremes ⟨above, bounds.2⟩
        exact ⟨ordered, spread, fun never => by cases never⟩
    | true =>
        have before := sound.ordered updated
        have ordered : heard.Ordered :=
          ⟨before.above, before.ordered, before.below, before.difference⟩
        obtain ⟨after, spread, least, greatest⟩ :=
          ordered.updateExtremes ⟨above, bounds.2⟩
        exact ⟨after, spread, fun _ => ⟨least, greatest⟩⟩
  obtain ⟨ordered, spread, between⟩ := moved
  have vadLevel :=
    FarLevels.updateVadLevel_bounds ordered ⟨above, bounds.2⟩
      sound.vadLevel
  obtain ⟨farEnergyVAD, farEnergyMSE, vadUpdateCount, levelled⟩ :=
    heard.updateExtremes.updateVadLevel_eq
  obtain ⟨currentVADValue, activated, active⟩ :=
    heard.updateExtremes.updateVadLevel.updateVad_eq
  have calculated :
      recorded.aecm.calcEnergies spectrum =
        heard.updateExtremes.updateVadLevel.updateVad := by
    simp only [FarLevels.calcEnergies, if_pos above]
    rfl
  rw [levelled] at active activated vadLevel
  rw [levelled, activated] at calculated
  have after :
      recorded.calcEnergies spectrum =
        ⟨recorded.aecm.calcEnergies spectrum, true⟩ := by
    rw [calcEnergies, calculated]
    simp [heard, FarLevels.updateExtremes, above]
  rw [after, calculated]
  constructor
  · exact
      { energy := bounds
        unset := fun never => by cases never
        ordered := fun _ =>
          ⟨ordered.above, ordered.ordered, ordered.below,
            ordered.difference⟩
        spread := fun _ => ⟨rfl, spread⟩
        vadLevel := vadLevel
        active := fun _ => above }
  · exact
      { ordered := fun _ => ordered.ordered
        least := fun updated => (between updated).1
        greatest := fun updated => (between updated).2 }

/-- A level that does not move. -/
theorem Between.first (first second : Int) :
    Between first second first := by
  unfold Between
  omega

/-- The energies of a block that is too quiet to change the levels. -/
theorem Sound.calcEnergies_of_le
    (sound : recorded.Sound)
    (spectrum : FarSpectrum)
    (quiet :
      logOfEnergyInQ8 spectrum.farEnergy spectrum.farQ ≤ 1025) :
    (recorded.calcEnergies spectrum).Sound ∧
      EnergiesKept recorded (recorded.calcEnergies spectrum) := by
  have bounds :=
    logOfEnergyInQ8_bounds spectrum.farEnergy spectrum.inDomain
  let heard : FarLevels :=
    { recorded.aecm with
      farLogEnergy := logOfEnergyInQ8 spectrum.farEnergy spectrum.farQ }
  have calculated :
      recorded.aecm.calcEnergies spectrum = heard.updateVad := by
    simp only [FarLevels.calcEnergies, if_neg (not_lt.mpr quiet)]
    rfl
  obtain ⟨currentVADValue, activated, active⟩ := heard.updateVad_eq
  rw [activated] at calculated
  have after :
      recorded.calcEnergies spectrum =
        ⟨recorded.aecm.calcEnergies spectrum, recorded.updated⟩ := by
    rw [calcEnergies, calculated]
    simp [heard, quiet]
  have level := sound.vadLevel
  rw [after, calculated]
  constructor
  · exact
      { energy := bounds
        unset := sound.unset
        ordered := fun updated =>
          have before := sound.ordered updated
          ⟨before.above, before.ordered, before.below, before.difference⟩
        spread := fun above => absurd above (not_lt.mpr quiet)
        vadLevel := level
        active := fun isActive =>
          lt_of_le_of_lt level.1 (active isActive) }
  · exact
      { ordered := fun updated => (sound.ordered updated).ordered
        least := fun _ => Between.first _ _
        greatest := fun _ => Between.first _ _ }

/-! ## The step size -/

/-- The step size of a division is inside its range just when the energy is less than two
ninths of the difference of the levels below the least one. -/
theorem Sound.divided_iff
    (sound : recorded.Sound)
    (divides : recorded.aecm.Divides) :
    (recorded.aecm.farEnergyMaxMin ≠ 0 ∧
        (recorded.aecm.calcStepSize = 0 ∨
          muMax ≤ recorded.aecm.calcStepSize ∧
            recorded.aecm.calcStepSize ≤ muMin)) ↔
      muDiff *
          (recorded.aecm.farEnergyMin - recorded.aecm.farLogEnergy) <
        2 * recorded.aecm.farEnergyMaxMin := by
  obtain ⟨active, running, apart⟩ := divides
  have heard := sound.active active
  obtain ⟨updated, spread⟩ := sound.spread heard
  obtain ⟨above, -, below, difference⟩ := sound.ordered updated
  have loudest := sound.energy.2
  have positive : 0 < recorded.aecm.farEnergyMaxMin := by
    omega
  unfold FarLevels.Spread at spread
  have headroom :
      int16 (recorded.aecm.farLogEnergy - recorded.aecm.farEnergyMin) =
        recorded.aecm.farLogEnergy - recorded.aecm.farEnergyMin :=
    int16_of_bounds (by omega) (by omega)
  -- a large distance comes with a large difference, so that the quotient fits 16 bits
  have upper :
      Int.tdiv
          ((recorded.aecm.farLogEnergy - recorded.aecm.farEnergyMin) * 9)
          recorded.aecm.farEnergyMaxMin <
        32500 :=
    (tdiv_lt_iff positive (by decide)).mpr (by omega)
  have lower :
      -32500 <
        Int.tdiv
          ((recorded.aecm.farLogEnergy - recorded.aecm.farEnergyMin) * 9)
          recorded.aecm.farEnergyMaxMin :=
    (neg_lt_tdiv_iff positive (by decide)).mpr (by omega)
  have exactly :=
    @neg_lt_tdiv_iff
      ((recorded.aecm.farLogEnergy - recorded.aecm.farEnergyMin) * 9) _ 2
      positive (by decide)
  unfold FarLevels.calcStepSize
  simp only [if_neg active, if_pos running, if_neg (not_le.mpr apart),
    headroom, divW32W16, muDiff, muMin, muMax, ne_eq, positive.ne',
    not_false_eq_true, if_true, true_and]
  have quotient :
      int16
          (Int.tdiv
            ((recorded.aecm.farLogEnergy - recorded.aecm.farEnergyMin) * 9)
            recorded.aecm.farEnergyMaxMin) =
        Int.tdiv
          ((recorded.aecm.farLogEnergy - recorded.aecm.farEnergyMin) * 9)
          recorded.aecm.farEnergyMaxMin :=
    int16_of_bounds (by omega) (by omega)
  rw [quotient, int16_of_bounds (by omega) (by omega)]
  split <;> omega

/-- A call does what it must just when the step size is not calculated far below the least
energy. -/
theorem Sound.kept_iff
    (sound : recorded.Sound)
    (call : LevelCall) :
    CallKept recorded call ↔ EnergyNotFarBelow recorded call := by
  cases call with
  | updateStartup =>
      exact Iff.rfl
  | count =>
      exact Iff.rfl
  | calcEnergies spectrum =>
      refine iff_of_true ?_ trivial
      rcases lt_or_ge 1025
        (logOfEnergyInQ8 spectrum.farEnergy spectrum.farQ) with above | quiet
      · exact (sound.calcEnergies_of_lt spectrum above).2
      · exact (sound.calcEnergies_of_le spectrum quiet).2
  | calcStepSize =>
      unfold CallKept EnergyNotFarBelow
      by_cases divides : recorded.aecm.Divides
      · rw [imp_iff_right divides, imp_iff_right divides]
        exact sound.divided_iff divides
      · refine
          iff_of_true ⟨fun divided => absurd divided divides, ?_⟩
            fun divided => absurd divided divides
        unfold FarLevels.Divides at divides
        unfold FarLevels.calcStepSize
        split_ifs <;> simp_all

/-- The start-up state and the count of the blocks do not matter to the invariant. -/
theorem Sound.counted
    (sound : recorded.Sound)
    (startupState totCount : Int) :
    Sound
      { recorded with
        aecm := { recorded.aecm with startupState, totCount } } where
  energy := sound.energy
  unset := sound.unset
  ordered updated :=
    have before := sound.ordered updated
    ⟨before.above, before.ordered, before.below, before.difference⟩
  spread := sound.spread
  vadLevel := sound.vadLevel
  active := sound.active

/-- The calls keep the invariant. -/
theorem Sound.perform
    {target : RecordedLevels}
    {call : LevelCall}
    (sound : recorded.Sound)
    (performed : recorded.perform call = some target) :
    target.Sound := by
  cases call with
  | calcStepSize =>
      cases performed
      exact sound
  | count =>
      cases performed
      exact sound.counted recorded.aecm.startupState _
  | updateStartup =>
      cases performed
      unfold FarLevels.updateStartup
      split
      next =>
          exact sound.counted _ recorded.aecm.totCount
      next =>
          exact sound
  | calcEnergies spectrum =>
      cases performed
      rcases lt_or_ge 1025
        (logOfEnergyInQ8 spectrum.farEnergy spectrum.farQ) with above | quiet
      · exact (sound.calcEnergies_of_lt spectrum above).1
      · exact (sound.calcEnergies_of_le spectrum quiet).1

/-- The invariant holds after the initialization. -/
theorem Sound.initCore : initCore.Sound where
  energy := by decide
  unset := fun _ => ⟨rfl, rfl, rfl⟩
  ordered := fun never => by cases never
  spread := fun never => absurd never (by decide)
  vadLevel := by decide
  active := fun never => absurd rfl never

/--
In every run from the initialization the levels keep what they must and every step size is
in its range, just when no step size is calculated with the energy two ninths of the
difference of the levels or more below the least one.
-/
theorem run_kept_iff (calls : List LevelCall) :
    AlongRun perform CallKept initCore calls ↔
      AlongRun perform EnergyNotFarBelow initCore calls :=
  AlongRun.iff_of_invariant Sound
    (fun sound performed => sound.perform performed)
    (fun {_ call} sound => sound.kept_iff call)
    Sound.initCore calls

/-! ## A level for voice activity that lags behind -/

/-- A flat spectrum. -/
def flat
    (magnitude : UInt16)
    (farQ : Nat)
    (inDomain : farQ ≤ 15) : FarSpectrum :=
  ⟨List.replicate partLen1 magnitude, farQ, List.length_replicate,
    inDomain⟩

/-- The calls of a block. -/
def block (spectrum : FarSpectrum) : List LevelCall :=
  [.updateStartup, .calcEnergies spectrum, .calcStepSize, .count]

/-- A block of silence. -/
abbrev silent : FarSpectrum :=
  flat 0 0 (by decide)

/-- The levels during silence after the initialization. -/
def silence (blocks : Nat) : RecordedLevels where
  aecm :=
    { FarLevels.initCore with
      totCount := blocks
      farLogEnergy := 896 }
  updated := false

/-- A silent block during the start-up is only counted. -/
theorem foldlM_block_silent
    {blocks : Nat}
    (early : blocks < 512) :
    (block silent).foldlM perform (silence blocks) =
      some (silence (blocks + 1)) := by
  have energy : logOfEnergyInQ8 silent.farEnergy silent.farQ = 896 := by
    decide +kernel
  have started : (silence blocks).aecm.updateStartup = (silence blocks).aecm := by
    have first : ¬ (512 : Int) ≤ blocks := by
      omega
    have second : ¬ 2 * (512 : Int) ≤ blocks := by
      omega
    simp [silence, FarLevels.updateStartup, FarLevels.initCore, first, second]
  have heard : (silence blocks).calcEnergies silent = silence blocks := by
    simp [calcEnergies, FarLevels.calcEnergies, energy, silence,
      FarLevels.updateVad, FarLevels.initCore, farEnergyMinLevel]
  have counted : uint32 ((blocks : Int) + 1) = ((blocks + 1 : Nat) : Int) := by
    unfold uint32
    omega
  simp only [block, List.foldlM_cons, List.foldlM_nil, perform, started, heard,
    Option.bind_eq_bind, Option.bind_some]
  simp [silence, counted]

/-- Silent blocks after the first one. -/
theorem foldlM_silent
    {more : Nat}
    (early : more < 512) :
    ((List.replicate more silent).flatMap block).foldlM perform (silence 1) =
      some (silence (more + 1)) := by
  induction more with
  | zero =>
      rfl
  | succ more inductionHypothesis =>
      rw [List.replicate_succ', List.flatMap_append, List.foldlM_append,
        inductionHypothesis (by omega), List.flatMap_singleton]
      exact foldlM_block_silent (by omega)

/-- A start-up in silence. -/
def silentBlocks : List LevelCall :=
  block silent ++ (List.replicate 511 silent).flatMap block

/-- The start-up in silence leaves the levels unset. -/
theorem foldlM_silentBlocks :
    silentBlocks.foldlM perform initCore = some (silence 512) := by
  have first : (block silent).foldlM perform initCore = some (silence 1) := by
    decide +kernel
  unfold silentBlocks
  rw [List.foldlM_append, first, Option.bind_eq_bind, Option.bind_some,
    foldlM_silent (show 511 < 512 by decide)]

/-- A loud block and quieter ones up to a step size. -/
def quieterBlocks : List LevelCall :=
  (flat 1000 0 (by decide) ::
        List.replicate 4 (flat 1280 8 (by decide))).flatMap block ++
    [.updateStartup, .calcEnergies (flat 1280 8 (by decide))]

/--
In the fifth quieter block the least energy is still at 4027, with the greatest one at
4987, while the energy of 3013 is above the level for voice activity of the
initialization: the step size is 18.
-/
theorem not_run_kept_quieter :
    ¬ ∀ calls, AlongRun perform CallKept initCore calls := by
  intro claimed
  have quieter :
      quieterBlocks.foldlM perform (silence 512) =
        some
          ⟨{ startupState := 1
             totCount := 517
             farLogEnergy := 3013
             farEnergyMin := 4027
             farEnergyMax := 4987
             farEnergyMaxMin := 960
             farEnergyVAD := 1025
             farEnergyMSE := 1281
             currentVADValue := 1
             vadUpdateCount := 6 }, true⟩ := by
    decide +kernel
  have reached :
      (silentBlocks ++ quieterBlocks).foldlM perform initCore =
        quieterBlocks.foldlM perform (silence 512) := by
    rw [List.foldlM_append, foldlM_silentBlocks, Option.bind_eq_bind,
      Option.bind_some]
  have last :=
    (claimed (silentBlocks ++ quieterBlocks ++ [.calcStepSize])).last
      (reached.trans quieter)
  exact absurd last.2 (by decide +kernel)

end RecordedLevels

end ApmSdk.Aecm
