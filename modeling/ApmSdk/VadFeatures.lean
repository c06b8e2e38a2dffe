import ApmSdk.VadFilterRuns
import ApmSdk.VadGaussians

namespace ApmSdk.Vad

/-!
# The range of the features

`LogOfEnergy` adds an offset to the log of the energy of a band.  The energy of the samples of
a band is scaled by no more bits than the number of the samples has, so no feature of a frame
of at most 240 samples is above 2053.
-/

/-- The square of the largest magnitude has at most 30 bits. -/
theorem excessBits_le
    {samples : List Int}
    {most : Nat}
    (isBand : IsBand most samples) :
    SignalEnergy.excessBits samples ≤ most.size - 1 := by
  have peak := SignalEnergy.peak_lt isBand.samples16
  have square : SignalEnergy.peak samples ^ 2 < 2 ^ 30 := by
    have power : SignalEnergy.peak samples ^ 2 ≤ (2 ^ 15 - 1) ^ 2 :=
      Nat.pow_le_pow_left (by omega) 2
    omega
  have squareSize : (SignalEnergy.peak samples ^ 2).size ≤ 30 := Nat.size_le.mpr square
  have lengthSize : samples.length.size ≤ most.size := Nat.size_le_size isBand.length
  unfold SignalEnergy.excessBits
  omega

/-- A feature of a normalised energy, which had these bits in excess of 14. -/
theorem feature_bounds
    {offset totRshifts most : Int}
    (offsetRange : 0 ≤ offset ∧ offset ≤ 368)
    (shiftRange : -14 ≤ totRshifts ∧ totRshifts ≤ 17 + most)
    (few : most ≤ 5)
    (normed : Int) :
    let log2Energy := int16 (kLogEnergyIntPart + (normed % 2 ^ 14) >>> (4 : Nat))
    let logEnergy :=
      int16 ((kLogConst * log2Energy) >>> (19 : Nat) +
        (totRshifts * kLogConst) >>> (9 : Nat))
    let logEnergy := if logEnergy < 0 then 0 else logEnergy
    offset ≤ int16 (logEnergy + offset) ∧
      int16 (logEnergy + offset) ≤ offset + 722 + ((17 + most) * 24660) / 2 ^ 9 := by
  simp only [Int.shiftRight_eq_div_pow, Nat.cast_pow, Nat.cast_ofNat, kLogConst,
    kLogEnergyIntPart]
  rw [@int16_of_bounds (14336 + normed % 2 ^ 14 / 2 ^ 4) (by omega) (by omega)]
  generalize isLog2 : 14336 + normed % 2 ^ 14 / 2 ^ 4 = log2Energy
  have fraction : 24660 * log2Energy / 2 ^ 19 ≤ 722 := by
    omega
  have exponent : totRshifts * 24660 / 2 ^ 9 ≤ (17 + most) * 24660 / 2 ^ 9 :=
    Int.ediv_le_ediv (by decide) (by omega)
  rw [@int16_of_bounds (24660 * log2Energy / 2 ^ 19 + totRshifts * 24660 / 2 ^ 9) (by omega)
    (by omega)]
  split
  next =>
      rw [int16_of_bounds (by omega) (by omega)]
      omega
  next =>
      rw [int16_of_bounds (by omega) (by omega)]
      omega

/-- A feature is at least its offset, and not far above it. -/
theorem logOfEnergy_bounds
    {dataIn : List Int}
    {most : Nat}
    {offset : Int}
    (isBand : IsBand most dataIn)
    (few : most ≤ 60)
    (offsetRange : 0 ≤ offset ∧ offset ≤ 368)
    (totalEnergy : Int) :
    offset ≤ (logOfEnergy dataIn offset totalEnergy).1 ∧
      (logOfEnergy dataIn offset totalEnergy).1 ≤
        offset + 722 + ((17 + ((most.size - 1 : Nat) : Int)) * 24660) / 2 ^ 9 := by
  have length := isBand.length
  have scaling : (SignalEnergy.energy dataIn).2 ≤ most.size - 1 := by
    have excess := excessBits_le isBand
    rwa [← SignalEnergy.getScalingSquare_eq isBand.samples16 (by omega)] at excess
  have sizes : most.size - 1 ≤ 5 := by
    have size : most.size ≤ (60 : Nat).size := Nat.size_le_size few
    have bits : (60 : Nat).size = 6 := by decide +kernel
    omega
  unfold logOfEnergy
  dsimp only
  split
  next =>
      exact ⟨le_rfl, by omega⟩
  next =>
      have norm := normU32_le (uint32 (SignalEnergy.energy dataIn).1)
      exact feature_bounds offsetRange (by omega) (by omega) _

/-- A feature is in range where its offset leaves room for the scale of its band. -/
theorem isFeature_logOfEnergy
    {dataIn : List Int}
    {most : Nat}
    {offset : Int}
    (isBand : IsBand most dataIn)
    (few : most ≤ 60)
    (offsetRange : 176 ≤ offset ∧ offset ≤ 368)
    (room :
      offset + 722 + ((17 + ((most.size - 1 : Nat) : Int)) * 24660) / 2 ^ 9 ≤ 2053)
    (totalEnergy : Int) :
    IsFeature (logOfEnergy dataIn offset totalEnergy).1 := by
  obtain ⟨least, greatest⟩ :=
    logOfEnergy_bounds isBand few ⟨by omega, offsetRange.2⟩ totalEnergy
  exact ⟨offsetRange.1.trans least, greatest.trans room⟩

/-- The features of a frame of at most 240 samples are in the range that the models expect. -/
theorem isFeature_features
    {bands : FrameBands}
    (ofLength : bands.OfLength 240) :
    ∀ feature ∈ bands.features.1, IsFeature feature := by
  have fourth : 240 / 4 ≤ 60 ∧ (240 / 4 : Nat).size = 6 := by decide +kernel
  have eighth : 240 / 8 ≤ 60 ∧ (240 / 8 : Nat).size = 5 := by decide +kernel
  have sixteenth : 240 / 16 ≤ 60 ∧ (240 / 16 : Nat).size = 4 := by decide +kernel
  intro feature member
  simp only [FrameBands.features, List.mem_cons, List.not_mem_nil, or_false] at member
  rcases member with rfl | rfl | rfl | rfl | rfl | rfl
  · exact
      isFeature_logOfEnergy ofLength.aboveHp sixteenth.1 (by decide)
        (by rw [sixteenth.2]; decide) _
  · exact
      isFeature_logOfEnergy ofLength.high4 sixteenth.1 (by decide)
        (by rw [sixteenth.2]; decide) _
  · exact
      isFeature_logOfEnergy ofLength.high3 eighth.1 (by decide) (by rw [eighth.2]; decide) _
  · exact
      isFeature_logOfEnergy ofLength.high2 fourth.1 (by decide) (by rw [fourth.2]; decide) _
  · exact
      isFeature_logOfEnergy ofLength.low1 fourth.1 (by decide) (by rw [fourth.2]; decide) _
  · exact
      isFeature_logOfEnergy ofLength.high1 fourth.1 (by decide) (by rw [fourth.2]; decide) _

/-- Fewer samples make bands that are no longer. -/
theorem FrameBands.OfLength.mono
    {bands : FrameBands}
    {length most : Nat}
    (ofLength : bands.OfLength length)
    (notAbove : length ≤ most) :
    bands.OfLength most := by
  have longer :
      ∀ {samples : List Int} (parts : Nat),
        IsBand (length / parts) samples → IsBand (most / parts) samples :=
    fun parts isBand =>
      ⟨isBand.length.trans (Nat.div_le_div_right notAbove), isBand.samples16⟩
  exact
    ⟨longer 4 ofLength.high1, longer 4 ofLength.low1, longer 4 ofLength.high2,
      longer 8 ofLength.high3, longer 16 ofLength.high4, longer 16 ofLength.aboveHp⟩

/-- Every frame of at most 240 samples has features in range, whatever the filters keep. -/
theorem calculateFeatures_isFeature
    {inst next : FilterbankInst}
    {dataIn features : List Int}
    {totalPower : Int}
    (isShort : dataIn.length ≤ 240)
    (calculated : calculateFeatures inst dataIn = some (features, totalPower, next)) :
    ∀ feature ∈ features, IsFeature feature := by
  obtain ⟨bands, ran, ofLength⟩ := filterFrame_wrapping inst dataIn
  have isFeatures : bands.features.1 = features := by
    rw [calculateFeatures, ran] at calculated
    exact congrArg Prod.fst (Option.some.inj calculated)
  rw [← isFeatures]
  exact isFeature_features (ofLength.mono isShort)

end ApmSdk.Vad
