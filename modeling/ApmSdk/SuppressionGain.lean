import ApmSdk.AecMobile
import ApmSdk.LinearEnergies

namespace ApmSdk.Aecm

/-!
# The suppression gain of the mobile echo canceller

`WebRtcAecm_CalcSuppressionGain` follows a target that falls from one level to another as
the log energies of the near end and of the estimated echo move apart.
`WebRtcAecm_set_config` scales the levels with the echo mode.
-/

/-- `SUPGAIN_DEFAULT` -/
abbrev supGainDefault : Int := 256

/-- `SUPGAIN_ERROR_PARAM_A` -/
abbrev supGainErrorParamA : Int := 3072

/-- `SUPGAIN_ERROR_PARAM_B` -/
abbrev supGainErrorParamB : Int := 1536

/-- `SUPGAIN_ERROR_PARAM_D` -/
abbrev supGainErrorParamD : Int := supGainDefault

/-- `SUPGAIN_EPC_DT` -/
abbrev supGainEpcDt : Int := 200

/-- `ENERGY_DEV_TOL` -/
abbrev energyDevTol : Int := 400

/-- `ENERGY_DEV_OFFSET` -/
abbrev energyDevOffset : Int := 0

/--
An entry of `nearLogEnergy` or `echoStoredLogEnergy`: zero from `WebRtcAecm_InitCore`, or
the log of an energy in the domain of a spectrum and, for the echo, of the channel.
-/
structure LogEnergy where
  level : Int
  calculated :
    level = 0 ∨
      ∃ (energy : UInt32) (qDomain : Nat),
        qDomain ≤ resolutionChannel16 + 15 ∧
          level = logOfEnergyInQ8 energy.toNat qDomain

/-- What an `AecmCore` keeps for the suppression gain. -/
structure SuppressionCore where
  cngMode : Int
  supGain : Int
  supGainOld : Int
  supGainErrParamA : Int
  supGainErrParamD : Int
  supGainErrParamDiffAB : Int
  supGainErrParamDiffBD : Int
deriving Repr, DecidableEq

/-- An `AecMobile` with what its core keeps for the suppression gain. -/
structure SuppressionInstance where
  initFlag : Int
  echoMode : Int
  aecmCore : SuppressionCore
deriving Repr, DecidableEq

namespace SuppressionCore

/-- The default gain and its levels, scaled as an echo mode asks. -/
def setScaled
    (aecm : SuppressionCore)
    (scaled : Int → Int) : SuppressionCore :=
  { aecm with
    supGain := scaled supGainDefault
    supGainOld := scaled supGainDefault
    supGainErrParamA := scaled supGainErrorParamA
    supGainErrParamD := scaled supGainErrorParamD
    supGainErrParamDiffAB := scaled supGainErrorParamA - scaled supGainErrorParamB
    supGainErrParamDiffBD := scaled supGainErrorParamB - scaled supGainErrorParamD }

/-- The branches of `WebRtcAecm_set_config`. -/
def setEchoMode
    (aecm : SuppressionCore)
    (echoMode : Int) : SuppressionCore :=
  if echoMode = 0 then aecm.setScaled fun level => level >>> (3 : Nat)
  else if echoMode = 1 then aecm.setScaled fun level => level >>> (2 : Nat)
  else if echoMode = 2 then aecm.setScaled fun level => level >>> (1 : Nat)
  else if echoMode = 3 then aecm.setScaled fun level => level
  else if echoMode = 4 then aecm.setScaled fun level => level <<< (1 : Nat)
  else aecm

/-- The gain that `WebRtcAecm_CalcSuppressionGain` moves to. -/
def targetGain
    (aecm : SuppressionCore)
    (currentVADValue : Int)
    (nearLogEnergy echoStoredLogEnergy : LogEnergy) : Int :=
  if currentVADValue = 0 then 0
  else
    let tmp16no1 :=
      int16 (nearLogEnergy.level - echoStoredLogEnergy.level - energyDevOffset)
    let dE := int16 (if 0 ≤ tmp16no1 then tmp16no1 else -tmp16no1)
    if dE < energyDevTol then
      if dE < supGainEpcDt then
        let tmp32no1 :=
          int32 (int32 (aecm.supGainErrParamDiffAB * dE) + supGainEpcDt >>> (1 : Nat))
        let tmp16no1 := int16 (divW32W16 tmp32no1 supGainEpcDt)
        int16 (aecm.supGainErrParamA - tmp16no1)
      else
        let tmp32no1 :=
          int32 (int32 (aecm.supGainErrParamDiffBD * (energyDevTol - dE)) +
            (energyDevTol - supGainEpcDt) >>> (1 : Nat))
        let tmp16no1 := int16 (divW32W16 tmp32no1 (energyDevTol - supGainEpcDt))
        int16 (aecm.supGainErrParamD + tmp16no1)
    else aecm.supGainErrParamD

/-- `WebRtcAecm_CalcSuppressionGain` -/
def calcSuppressionGain
    (aecm : SuppressionCore)
    (currentVADValue : Int)
    (nearLogEnergy echoStoredLogEnergy : LogEnergy) : SuppressionCore × Int :=
  let supGain := aecm.targetGain currentVADValue nearLogEnergy echoStoredLogEnergy
  let tmp16no1 := if aecm.supGainOld < supGain then supGain else aecm.supGainOld
  -- Both branches of the source move the gain in the same way.
  let moved :=
    int16 (aecm.supGain + int16 ((tmp16no1 - aecm.supGain) >>> (4 : Nat)))
  ({ aecm with supGain := moved, supGainOld := supGain }, moved)

/-- The part of `WebRtcAecm_InitCore`. -/
def initCore (aecm : SuppressionCore) : SuppressionCore :=
  { aecm with
    supGain := supGainDefault
    supGainOld := supGainDefault
    supGainErrParamA := supGainErrorParamA
    supGainErrParamD := supGainErrorParamD
    supGainErrParamDiffAB := supGainErrorParamA - supGainErrorParamB
    supGainErrParamDiffBD := supGainErrorParamB - supGainErrorParamD }

end SuppressionCore

namespace SuppressionInstance

/-- `WebRtcAecm_set_config` -/
def setConfig
    (aecm : SuppressionInstance)
    (cngMode echoMode : Int) : SuppressionInstance × Int :=
  if aecm.initFlag ≠ initCheck then (aecm, uninitializedError)
  else if cngMode ≠ 0 ∧ cngMode ≠ 1 then (aecm, badParameterError)
  else
    let aecm := { aecm with aecmCore := { aecm.aecmCore with cngMode } }
    if echoMode < 0 ∨ 4 < echoMode then (aecm, badParameterError)
    else ({ aecm with echoMode, aecmCore := aecm.aecmCore.setEchoMode echoMode }, 0)

/-- The part of `WebRtcAecm_Init` at a sampling frequency that it accepts. -/
def init (memory : SuppressionInstance) : SuppressionInstance :=
  let aecm :=
    { memory with initFlag := initCheck, aecmCore := memory.aecmCore.initCore }
  (aecm.setConfig 1 3).1

end SuppressionInstance

/-- A call that reads or writes the suppression gain. -/
inductive GainCall where
  | calcSuppressionGain
      (currentVADValue : Int)
      (nearLogEnergy echoStoredLogEnergy : LogEnergy)
  | setConfig (cngMode echoMode : Int)

namespace SuppressionInstance

/-- The instance after a call. -/
def step
    (aecm : SuppressionInstance) : GainCall → SuppressionInstance
  | .calcSuppressionGain currentVADValue nearLogEnergy echoStoredLogEnergy =>
      { aecm with
        aecmCore :=
          (aecm.aecmCore.calcSuppressionGain currentVADValue nearLogEnergy
            echoStoredLogEnergy).1 }
  | .setConfig cngMode echoMode => (aecm.setConfig cngMode echoMode).1

/-- The instance after calls in turn. -/
def run
    (aecm : SuppressionInstance)
    (calls : List GainCall) : SuppressionInstance :=
  calls.foldl step aecm

end SuppressionInstance

namespace SuppressionCore

/-- The levels are those that `WebRtcAecm_set_config` gives an echo mode. -/
structure InMode
    (aecm : SuppressionCore)
    (echoMode : Int) : Prop where
  range : 0 ≤ echoMode ∧ echoMode ≤ 4
  paramA :
    aecm.supGainErrParamA = (aecm.setEchoMode echoMode).supGainErrParamA
  paramD :
    aecm.supGainErrParamD = (aecm.setEchoMode echoMode).supGainErrParamD
  paramDiffAB :
    aecm.supGainErrParamDiffAB =
      (aecm.setEchoMode echoMode).supGainErrParamDiffAB
  paramDiffBD :
    aecm.supGainErrParamDiffBD =
      (aecm.setEchoMode echoMode).supGainErrParamDiffBD

/-- Log energies that are further apart never give a greater target. -/
def TargetNonincreasing (aecm : SuppressionCore) : Prop :=
  ∀ currentVADValue near echo nearApart echoApart,
    |near.level - echo.level| ≤ |nearApart.level - echoApart.level| →
      aecm.targetGain currentVADValue nearApart echoApart ≤
        aecm.targetGain currentVADValue near echo

/-- The levels fall from the first through a middle one to the last. -/
structure Graded (aecm : SuppressionCore) : Prop where
  last : 0 ≤ aecm.supGainErrParamD
  lower : 0 ≤ aecm.supGainErrParamDiffBD
  upper : 0 ≤ aecm.supGainErrParamDiffAB
  total :
    aecm.supGainErrParamA =
      aecm.supGainErrParamD + aecm.supGainErrParamDiffBD +
        aecm.supGainErrParamDiffAB
  small : aecm.supGainErrParamA ≤ 6144

/-- What the calls keep: graded levels, and both gains between zero and the first one. -/
structure Sound (aecm : SuppressionCore) : Prop where
  graded : aecm.Graded
  supGain : 0 ≤ aecm.supGain ∧ aecm.supGain ≤ aecm.supGainErrParamA
  supGainOld : 0 ≤ aecm.supGainOld ∧ aecm.supGainOld ≤ aecm.supGainErrParamA

end SuppressionCore

/-! ## Rounded parts of a difference -/

/-- The part of a difference at one of two hundred places, rounded. -/
def roundedPart (difference place : Int) : Int :=
  (difference * place + 100) / 200

/-- A rounded part is between nothing and the whole. -/
theorem roundedPart_bounds
    {difference place : Int}
    (nonneg : 0 ≤ difference)
    (start : 0 ≤ place)
    (finish : place ≤ 200) :
    0 ≤ roundedPart difference place ∧
      roundedPart difference place ≤ difference := by
  have least : 0 ≤ difference * place := mul_nonneg nonneg start
  have greatest : difference * place ≤ difference * 200 :=
    mul_le_mul_of_nonneg_left finish nonneg
  unfold roundedPart
  omega

/-- A rounded part grows with the place. -/
theorem roundedPart_mono
    {difference earlier later : Int}
    (nonneg : 0 ≤ difference)
    (ordered : earlier ≤ later) :
    roundedPart difference earlier ≤ roundedPart difference later := by
  have grown : difference * earlier ≤ difference * later :=
    mul_le_mul_of_nonneg_left ordered nonneg
  unfold roundedPart
  omega

/-- The division of the source, for parts of the size of a level. -/
theorem divided_eq
    {difference place : Int}
    (size : 0 ≤ difference ∧ difference ≤ 6144)
    (start : 0 ≤ place)
    (finish : place ≤ 200) :
    int16 (divW32W16 (int32 (int32 (difference * place) + 100)) 200) =
      roundedPart difference place := by
  have least : 0 ≤ difference * place := mul_nonneg size.1 start
  have greatest : difference * place ≤ difference * 200 :=
    mul_le_mul_of_nonneg_left finish size.1
  have part := roundedPart_bounds size.1 start finish
  unfold roundedPart divW32W16 at *
  rw [if_pos (by decide), @int32_of_bounds (difference * place) (by omega) (by omega),
    int32_of_bounds (by omega) (by omega),
    Int.tdiv_eq_ediv_of_nonneg (by omega),
    int16_of_bounds (by omega) (by omega)]

/-! ## The log energies -/

/-- A log energy is small. -/
theorem LogEnergy.bounds (energy : LogEnergy) :
    -6016 ≤ energy.level ∧ energy.level ≤ 9087 := by
  obtain ⟨level, initial | ⟨word, qDomain, inDomain, rfl⟩⟩ := energy
  · dsimp only
    omega
  · have fits : (word.toNat : Int) < 2 ^ 32 := by
      exact_mod_cast word.toNat_lt
    by_cases positive : 0 < (word.toNat : Int)
    · have frac :=
        extractFractionPart_bounds word.toNat (Agc.normU32 word.toNat)
      have few := (exponent_bounds positive fits).1
      have log :=
        logOfEnergyInQ8_eq positive fits
          (show qDomain ≤ 27 from inDomain)
      simp only [resolutionChannel16] at inDomain
      dsimp only
      omega
    · have log : logOfEnergyInQ8 (word.toNat : Int) qDomain = 896 :=
        if_neg positive
      dsimp only
      omega

/-- How far two log energies are apart is calculated without loss. -/
theorem deviation_eq (near echo : LogEnergy) :
    int16
        (if 0 ≤ int16 (near.level - echo.level - energyDevOffset) then
          int16 (near.level - echo.level - energyDevOffset)
        else -int16 (near.level - echo.level - energyDevOffset)) =
      |near.level - echo.level| := by
  have nearBounds := near.bounds
  have echoBounds := echo.bounds
  rw [show near.level - echo.level - energyDevOffset =
      near.level - echo.level from Int.sub_zero _,
    @int16_of_bounds (near.level - echo.level) (by omega) (by omega)]
  split
  next nonneg =>
      rw [abs_of_nonneg nonneg, int16_of_bounds (by omega) (by omega)]
  next negative =>
      rw [abs_of_neg (by omega), int16_of_bounds (by omega) (by omega)]

namespace SuppressionCore

/-! ## The target -/

/-- The target at a deviation of the log energies. -/
def gainAt (aecm : SuppressionCore) (deviation : Int) : Int :=
  if deviation < 200 then
    aecm.supGainErrParamA - roundedPart aecm.supGainErrParamDiffAB deviation
  else if deviation < 400 then
    aecm.supGainErrParamD +
      roundedPart aecm.supGainErrParamDiffBD (400 - deviation)
  else aecm.supGainErrParamD

/-- With graded levels the target loses nothing to its narrow words. -/
theorem targetGain_eq
    {aecm : SuppressionCore}
    (graded : aecm.Graded)
    (currentVADValue : Int)
    (near echo : LogEnergy) :
    aecm.targetGain currentVADValue near echo =
      if currentVADValue = 0 then 0
      else aecm.gainAt |near.level - echo.level| := by
  obtain ⟨last, lower, upper, total, small⟩ := graded
  have nonneg : 0 ≤ |near.level - echo.level| := abs_nonneg _
  unfold targetGain gainAt
  dsimp only
  rw [deviation_eq]
  generalize |near.level - echo.level| = deviation at *
  simp only [energyDevTol, supGainEpcDt]
  refine if_congr Iff.rfl rfl ?_
  by_cases close : deviation < 200
  · have part := roundedPart_bounds upper nonneg (by omega)
    rw [if_pos (by omega), if_pos close, if_pos close,
      show (200 : Int) >>> (1 : Nat) = 100 from rfl,
      divided_eq ⟨upper, by omega⟩ nonneg (by omega),
      int16_of_bounds (by omega) (by omega)]
  · by_cases tolerated : deviation < 400
    · have part :=
        roundedPart_bounds lower
          (show 0 ≤ 400 - deviation by omega) (by omega)
      rw [if_pos tolerated, if_neg close, if_neg close, if_pos tolerated,
        show (400 - 200 : Int) >>> (1 : Nat) = 100 from rfl,
        show (400 - 200 : Int) = 200 from rfl,
        divided_eq ⟨lower, by omega⟩ (by omega) (by omega),
        int16_of_bounds (by omega) (by omega)]
    · rw [if_neg tolerated, if_neg close, if_neg tolerated]

/-- The target is between the last and the first level. -/
theorem gainAt_bounds
    {aecm : SuppressionCore}
    (graded : aecm.Graded)
    {deviation : Int}
    (nonneg : 0 ≤ deviation) :
    aecm.supGainErrParamD ≤ aecm.gainAt deviation ∧
      aecm.gainAt deviation ≤ aecm.supGainErrParamA := by
  obtain ⟨last, lower, upper, total, small⟩ := graded
  unfold gainAt
  split
  next close =>
      have part := roundedPart_bounds upper nonneg (by omega)
      omega
  next apart =>
      split
      next tolerated =>
          have part :=
            roundedPart_bounds lower
              (show 0 ≤ 400 - deviation by omega) (by omega)
          omega
      next =>
          omega

/-- The target falls across both ranges and where they meet. -/
theorem gainAt_antitone
    {aecm : SuppressionCore}
    (graded : aecm.Graded)
    {deviation further : Int}
    (nonneg : 0 ≤ deviation)
    (ordered : deviation ≤ further) :
    aecm.gainAt further ≤ aecm.gainAt deviation := by
  obtain ⟨last, lower, upper, total, small⟩ := id graded
  by_cases close : further < 200
  · have parts := roundedPart_mono upper ordered
    unfold gainAt
    rw [if_pos close, if_pos (by omega)]
    omega
  · by_cases tolerated : further < 400
    · have part :=
        roundedPart_bounds lower
          (show 0 ≤ 400 - further by omega) (by omega)
      unfold gainAt
      rw [if_neg close, if_pos tolerated]
      split
      next before =>
          -- The ranges meet at the middle level, which both reach without crossing it.
          have whole := roundedPart_bounds upper nonneg (by omega)
          omega
      next =>
          have parts :=
            roundedPart_mono lower
              (show 400 - further ≤ 400 - deviation by omega)
          rw [if_pos (by omega)]
          omega
    · have atLeast := (gainAt_bounds graded nonneg).1
      unfold gainAt at atLeast ⊢
      rwa [if_neg close, if_neg tolerated]

/-- With graded levels log energies that are further apart lower the target. -/
theorem Graded.targetNonincreasing
    {aecm : SuppressionCore}
    (graded : aecm.Graded) : aecm.TargetNonincreasing := by
  intro currentVADValue near echo nearApart echoApart ordered
  rw [targetGain_eq graded, targetGain_eq graded]
  split
  next =>
      exact le_rfl
  next =>
      exact gainAt_antitone graded (abs_nonneg _) ordered

/-- The target is between zero and the first level. -/
theorem targetGain_bounds
    {aecm : SuppressionCore}
    (graded : aecm.Graded)
    (currentVADValue : Int)
    (near echo : LogEnergy) :
    0 ≤ aecm.targetGain currentVADValue near echo ∧
      aecm.targetGain currentVADValue near echo ≤ aecm.supGainErrParamA := by
  rw [targetGain_eq graded]
  have within :=
    gainAt_bounds graded (abs_nonneg (near.level - echo.level))
  have last := graded.last
  split <;> omega

/-! ## The gain over a run -/

/-- A gain that moves a sixteenth of its way stays between the bounds of both ends. -/
theorem moved_bounds
    {gain aim bound : Int}
    (gainBounds : 0 ≤ gain ∧ gain ≤ bound)
    (aimBounds : 0 ≤ aim ∧ aim ≤ bound)
    (small : bound ≤ 6144) :
    0 ≤ int16 (gain + int16 ((aim - gain) >>> (4 : Nat))) ∧
      int16 (gain + int16 ((aim - gain) >>> (4 : Nat))) ≤ bound := by
  simp only [Int.shiftRight_eq_div_pow, Nat.cast_pow, Nat.cast_ofNat]
  rw [@int16_of_bounds ((aim - gain) / 2 ^ 4) (by omega) (by omega),
    int16_of_bounds (by omega) (by omega)]
  omega

/-- A calculation keeps the gain between the bounds, and the levels as they are. -/
theorem Sound.calcSuppressionGain
    {aecm : SuppressionCore}
    (sound : aecm.Sound)
    (currentVADValue : Int)
    (near echo : LogEnergy) :
    (aecm.calcSuppressionGain currentVADValue near echo).1.Sound := by
  obtain ⟨graded, supGain, supGainOld⟩ := sound
  have target := targetGain_bounds graded currentVADValue near echo
  refine
    ⟨⟨graded.last, graded.lower, graded.upper, graded.total, graded.small⟩,
      moved_bounds supGain ?_ graded.small, target⟩
  split
  next =>
      exact target
  next =>
      exact supGainOld

/-- Every echo mode scales the levels, keeping their order. -/
theorem setEchoMode_scaled
    {echoMode : Int}
    (range : 0 ≤ echoMode ∧ echoMode ≤ 4) :
    ∃ scaled : Int → Int,
      (∀ aecm : SuppressionCore,
        aecm.setEchoMode echoMode = aecm.setScaled scaled) ∧
      0 ≤ scaled supGainErrorParamD ∧
      scaled supGainErrorParamD ≤ scaled supGainErrorParamB ∧
      scaled supGainErrorParamB ≤ scaled supGainErrorParamA ∧
      scaled supGainErrorParamA ≤ 6144 := by
  have modes :
      echoMode = 0 ∨ echoMode = 1 ∨ echoMode = 2 ∨ echoMode = 3 ∨
        echoMode = 4 := by
    omega
  rcases modes with rfl | rfl | rfl | rfl | rfl
  · exact ⟨fun level => level >>> (3 : Nat), fun _ => rfl, by decide⟩
  · exact ⟨fun level => level >>> (2 : Nat), fun _ => rfl, by decide⟩
  · exact ⟨fun level => level >>> (1 : Nat), fun _ => rfl, by decide⟩
  · exact ⟨fun level => level, fun _ => rfl, by decide⟩
  · exact ⟨fun level => level <<< (1 : Nat), fun _ => rfl, by decide⟩

/-- The levels of a mode are graded, and the default gain is among them. -/
theorem setEchoMode_sound
    (aecm : SuppressionCore)
    {echoMode : Int}
    (range : 0 ≤ echoMode ∧ echoMode ≤ 4) :
    (aecm.setEchoMode echoMode).Sound := by
  obtain ⟨scaled, same, last, lower, upper, small⟩ :=
    setEchoMode_scaled range
  have default : scaled supGainDefault = scaled supGainErrorParamD := rfl
  rw [same]
  refine ⟨⟨last, ?_, ?_, ?_, small⟩, ⟨last, ?_⟩, ⟨last, ?_⟩⟩ <;>
    simp only [setScaled] <;>
    omega

/-- The levels of a mode are its own. -/
theorem setEchoMode_inMode
    (aecm : SuppressionCore)
    {echoMode : Int}
    (range : 0 ≤ echoMode ∧ echoMode ≤ 4) :
    (aecm.setEchoMode echoMode).InMode echoMode := by
  obtain ⟨scaled, same, -⟩ := setEchoMode_scaled range
  refine ⟨range, ?_, ?_, ?_, ?_⟩ <;>
    simp only [same, setScaled]

/-- The mode of a core depends on its levels alone. -/
theorem InMode.congr
    {aecm other : SuppressionCore}
    {echoMode : Int}
    (inMode : aecm.InMode echoMode)
    (paramA : other.supGainErrParamA = aecm.supGainErrParamA)
    (paramD : other.supGainErrParamD = aecm.supGainErrParamD)
    (paramDiffAB :
      other.supGainErrParamDiffAB = aecm.supGainErrParamDiffAB)
    (paramDiffBD :
      other.supGainErrParamDiffBD = aecm.supGainErrParamDiffBD) :
    other.InMode echoMode := by
  obtain ⟨range, modeA, modeD, modeDiffAB, modeDiffBD⟩ := inMode
  obtain ⟨scaled, same, -⟩ := setEchoMode_scaled range
  simp only [same, setScaled] at modeA modeD modeDiffAB modeDiffBD
  refine ⟨range, ?_, ?_, ?_, ?_⟩ <;>
    simp only [same, setScaled]
  · exact paramA.trans modeA
  · exact paramD.trans modeD
  · exact paramDiffAB.trans modeDiffAB
  · exact paramDiffBD.trans modeDiffBD

end SuppressionCore

namespace SuppressionInstance

/-- The gain is sound, and its levels are those of the mode in force. -/
structure Sound (aecm : SuppressionInstance) : Prop where
  gain : aecm.aecmCore.Sound
  inMode : aecm.aecmCore.InMode aecm.echoMode

/-- A configuration that is accepted makes any instance sound. -/
theorem setConfig_accepted
    {aecm : SuppressionInstance}
    {cngMode echoMode : Int}
    (flagged : aecm.initFlag = initCheck)
    (noise : cngMode = 0 ∨ cngMode = 1)
    (range : 0 ≤ echoMode ∧ echoMode ≤ 4) :
    (aecm.setConfig cngMode echoMode).1.Sound := by
  unfold setConfig
  dsimp only
  rw [if_neg (not_not_intro flagged), if_neg (by omega), if_neg (by omega)]
  exact
    ⟨SuppressionCore.setEchoMode_sound _ range,
      SuppressionCore.setEchoMode_inMode _ range⟩

/-- A configuration keeps the instance sound, whether it is accepted or not. -/
theorem Sound.setConfig
    {aecm : SuppressionInstance}
    (sound : aecm.Sound)
    (cngMode echoMode : Int) :
    (aecm.setConfig cngMode echoMode).1.Sound := by
  by_cases accepted :
      aecm.initFlag = initCheck ∧ (cngMode = 0 ∨ cngMode = 1) ∧
        0 ≤ echoMode ∧ echoMode ≤ 4
  · exact setConfig_accepted accepted.1 accepted.2.1 accepted.2.2
  · unfold SuppressionInstance.setConfig
    dsimp only
    split
    next =>
        exact sound
    next flagged =>
        split
        next =>
            exact sound
        next =>
            rw [if_pos (by omega)]
            -- The noise mode is stored before the echo mode is refused.
            obtain ⟨⟨graded, supGain, supGainOld⟩, inMode⟩ := sound
            obtain ⟨last, lower, upper, total, small⟩ := graded
            exact
              ⟨⟨⟨last, lower, upper, total, small⟩, supGain, supGainOld⟩,
                inMode.congr rfl rfl rfl rfl⟩

/-- Every call keeps the instance sound. -/
theorem Sound.step
    {aecm : SuppressionInstance}
    (sound : aecm.Sound)
    (call : GainCall) : (aecm.step call).Sound := by
  cases call with
  | calcSuppressionGain currentVADValue near echo =>
      exact
        ⟨sound.gain.calcSuppressionGain currentVADValue near echo,
          sound.inMode.congr rfl rfl rfl rfl⟩
  | setConfig cngMode echoMode =>
      exact sound.setConfig cngMode echoMode

/-- A run keeps the instance sound. -/
theorem Sound.run
    {aecm : SuppressionInstance}
    (sound : aecm.Sound)
    (calls : List GainCall) : (aecm.run calls).Sound := by
  induction calls generalizing aecm with
  | nil =>
      exact sound
  | cons call rest inductionHypothesis =>
      exact inductionHypothesis (sound.step call)

/-- Initialisation leaves a sound instance in whatever memory it finds. -/
theorem init_sound (memory : SuppressionInstance) : (init memory).Sound :=
  setConfig_accepted rfl (.inr rfl) (by decide)

/--
After every run of calculations and configurations the gain is between zero and the first
level of the mode in force, and the target falls as the log energies move apart.
-/
theorem supGain_within_mode
    (memory : SuppressionInstance)
    (calls : List GainCall) :
    let aecm := (init memory).run calls
    aecm.aecmCore.InMode aecm.echoMode ∧
      0 ≤ aecm.aecmCore.supGain ∧
      aecm.aecmCore.supGain ≤ aecm.aecmCore.supGainErrParamA ∧
      aecm.aecmCore.TargetNonincreasing := by
  have sound := (init_sound memory).run calls
  exact
    ⟨sound.inMode, sound.gain.supGain.1, sound.gain.supGain.2,
      sound.gain.graded.targetNonincreasing⟩

end SuppressionInstance

end ApmSdk.Aecm
