import ApmSdk.FarEnergyLevels
import ApmSdk.Normalisation

namespace ApmSdk.Aecm

/-!
# The energies of the echo estimates

`CalcLinearEnergiesC` sums the far spectrum, and the echoes that the adapted and the stored
channel make of it, in words of 32 bits.  The logs of the sums are compared by everything
that follows, so they should grow with the spectrum.
-/

/-- `RESOLUTION_CHANNEL16` -/
abbrev resolutionChannel16 : Nat := 12

/-- A bin of both channels, neither of which is negative. -/
structure ChannelTap where
  channelStored : Int
  channelAdapt16 : Int
  stored : 0 ≤ channelStored ∧ channelStored < 2 ^ 15
  adapt : 0 ≤ channelAdapt16 ∧ channelAdapt16 < 2 ^ 15

/-- Both channels. -/
structure EchoChannels where
  taps : List ChannelTap
  size : taps.length = partLen1

/-- What `CalcLinearEnergiesC` calculates. -/
structure LinearEnergies where
  echoEst : List Int
  farEnergy : Int
  echoEnergyAdapt : Int
  echoEnergyStored : Int
  deriving Repr, DecidableEq

namespace LinearEnergies

/-- One bin of the loop. -/
def addBin
    (energies : LinearEnergies)
    (bin : ChannelTap × UInt16) : LinearEnergies :=
  let echoEst := int32 (bin.1.channelStored * bin.2.toNat)
  { echoEst := energies.echoEst ++ [echoEst]
    farEnergy := uint32 (energies.farEnergy + bin.2.toNat)
    echoEnergyAdapt :=
      uint32
        (energies.echoEnergyAdapt +
          uint32 (int32 (bin.1.channelAdapt16 * bin.2.toNat)))
    echoEnergyStored := uint32 (energies.echoEnergyStored + uint32 echoEst) }

/-- The energies before the loop. -/
def zero : LinearEnergies :=
  ⟨[], 0, 0, 0⟩

end LinearEnergies

/-- The bins of a far spectrum and the channels. -/
def FarSpectrum.bins
    (far : FarSpectrum)
    (channels : EchoChannels) : List (ChannelTap × UInt16) :=
  channels.taps.zip far.magnitudes

/-- `CalcLinearEnergiesC` -/
def calcLinearEnergies
    (channels : EchoChannels)
    (far : FarSpectrum) : LinearEnergies :=
  (far.bins channels).foldl LinearEnergies.addBin .zero

/-- The logs of `WebRtcAecm_CalcEnergies`. -/
structure EnergyLogs where
  farLogEnergy : Int
  echoAdaptLogEnergy : Int
  echoStoredLogEnergy : Int
  deriving Repr, DecidableEq

/-- The logs of the three energies, each in its domain. -/
def energyLogs (channels : EchoChannels) (far : FarSpectrum) : EnergyLogs :=
  let energies := calcLinearEnergies channels far
  { farLogEnergy := logOfEnergyInQ8 energies.farEnergy far.farQ
    echoAdaptLogEnergy :=
      logOfEnergyInQ8 energies.echoEnergyAdapt
        (resolutionChannel16 + far.farQ)
    echoStoredLogEnergy :=
      logOfEnergyInQ8 energies.echoEnergyStored
        (resolutionChannel16 + far.farQ) }

/-! ## Exact sums -/

/-- The exact sum of weighted magnitudes. -/
def weightedSum
    (weight : ChannelTap → Int)
    (bins : List (ChannelTap × UInt16)) : Int :=
  (bins.map fun bin => weight bin.1 * bin.2.toNat).sum

/-- The exact energy of the far end. -/
def exactFar (far : FarSpectrum) : Int :=
  (far.magnitudes.map fun magnitude => (magnitude.toNat : Int)).sum

/-- The exact energy of the echo through the adapted channel. -/
def exactAdapt (channels : EchoChannels) (far : FarSpectrum) : Int :=
  weightedSum ChannelTap.channelAdapt16 (far.bins channels)

/-- The exact energy of the echo through the stored channel. -/
def exactStored (channels : EchoChannels) (far : FarSpectrum) : Int :=
  weightedSum ChannelTap.channelStored (far.bins channels)

/-- The energies are the exact sums. -/
structure EnergiesExact (channels : EchoChannels) (far : FarSpectrum) : Prop where
  farEnergy : (calcLinearEnergies channels far).farEnergy = exactFar far
  echoEnergyAdapt :
    (calcLinearEnergies channels far).echoEnergyAdapt =
      exactAdapt channels far
  echoEnergyStored :
    (calcLinearEnergies channels far).echoEnergyStored =
      exactStored channels far

/-- A spectrum that is nowhere above another one in the same domain. -/
structure FarSpectrum.Below (quieter louder : FarSpectrum) : Prop where
  magnitudes : List.Forall₂ (· ≤ ·) quieter.magnitudes louder.magnitudes
  sameDomain : quieter.farQ = louder.farQ

/-- The energies of two spectra are exact, and no log of the quieter one is larger. -/
structure EnergiesMonotone
    (channels : EchoChannels)
    (quieter louder : FarSpectrum) : Prop where
  quieterExact : EnergiesExact channels quieter
  louderExact : EnergiesExact channels louder
  farLogEnergy :
    (energyLogs channels quieter).farLogEnergy ≤
      (energyLogs channels louder).farLogEnergy
  echoAdaptLogEnergy :
    (energyLogs channels quieter).echoAdaptLogEnergy ≤
      (energyLogs channels louder).echoAdaptLogEnergy
  echoStoredLogEnergy :
    (energyLogs channels quieter).echoStoredLogEnergy ≤
      (energyLogs channels louder).echoStoredLogEnergy

/-- An energy that was zero stays zero or reaches one: the log of zero is that of one,
and between them are smaller logs. -/
def ReachesOne (qDomain : Nat) (quieter louder : Int) : Prop :=
  quieter = 0 → louder = 0 ∨ 2 ^ qDomain ≤ louder

/-- The echoes fit a word, and no energy stands between zero and one where that of the
quieter spectrum is zero. -/
structure EnergiesFit
    (channels : EchoChannels)
    (quieter louder : FarSpectrum) : Prop where
  adapt : exactAdapt channels louder < 2 ^ 32
  stored : exactStored channels louder < 2 ^ 32
  farReaches : ReachesOne louder.farQ (exactFar quieter) (exactFar louder)
  adaptReaches :
    ReachesOne (resolutionChannel16 + louder.farQ)
      (exactAdapt channels quieter) (exactAdapt channels louder)
  storedReaches :
    ReachesOne (resolutionChannel16 + louder.farQ)
      (exactStored channels quieter) (exactStored channels louder)

/-! ## The log of an energy -/

/-- The exponent of a word of 32 bits. -/
theorem exponent_bounds
    {energy : Int}
    (positive : 0 < energy)
    (fits : energy < 2 ^ 32) :
    Agc.normU32 energy ≤ 31 ∧
      2 ^ (31 - Agc.normU32 energy) ≤ energy ∧
        energy < 2 ^ (32 - Agc.normU32 energy) := by
  have zeros : Agc.normU32 energy = leadingZeros 32 energy :=
    if_neg positive.ne'
  obtain ⟨least, below⟩ :=
    leadingZeros_normalises (by decide) (by decide) positive fits
  have few : leadingZeros 32 energy ≤ 31 := leadingZeros_le 32 energy
  rw [zeros]
  generalize leadingZeros 32 energy = count at *
  have power : (0 : Int) < 2 ^ count := by positivity
  refine ⟨few, ?_, ?_⟩
  · apply le_of_mul_le_mul_right _ power
    rwa [← pow_add, Nat.sub_add_cancel few]
  · apply lt_of_mul_lt_mul_right _ power.le
    rwa [← pow_add, Nat.sub_add_cancel (by omega)]

/-- The log of a positive energy, in a domain of at most 27 bits. -/
theorem logOfEnergyInQ8_eq
    {energy : Int}
    {qDomain : Nat}
    (positive : 0 < energy)
    (fits : energy < 2 ^ 32)
    (inDomain : qDomain ≤ 27) :
    logOfEnergyInQ8 energy qDomain =
      896 + ((31 - (Agc.normU32 energy : Int)) * 2 ^ 8 +
        extractFractionPart energy (Agc.normU32 energy) - qDomain * 2 ^ 8) := by
  have frac := extractFractionPart_bounds energy (Agc.normU32 energy)
  have few := (exponent_bounds positive fits).1
  unfold logOfEnergyInQ8
  dsimp only
  rw [if_pos positive, int16_of_bounds (by omega) (by omega)]
  norm_num

/-- The fraction of a normalised energy. -/
theorem extractFractionPart_eq
    {energy : Int}
    (positive : 0 < energy)
    (fits : energy < 2 ^ 32) :
    extractFractionPart energy (Agc.normU32 energy) =
      (energy * 2 ^ Agc.normU32 energy - 2 ^ 31) / 2 ^ 23 := by
  obtain ⟨few, least, -⟩ := exponent_bounds positive fits
  have below := normU32_fits ⟨positive.le, fits⟩
  have atLeast : 2 ^ 31 ≤ energy * 2 ^ Agc.normU32 energy := by
    calc
      (2 : Int) ^ 31 =
          2 ^ (31 - Agc.normU32 energy) * 2 ^ Agc.normU32 energy := by
        rw [← pow_add, Nat.sub_add_cancel few]
      _ ≤ energy * 2 ^ Agc.normU32 energy :=
        mul_le_mul_of_nonneg_right least (by positivity)
  unfold extractFractionPart
  generalize energy * 2 ^ Agc.normU32 energy = normed at *
  have word : uint32 normed = normed := Int.emod_eq_of_lt (by omega) below
  have low : normed % 2 ^ 31 = normed - 2 ^ 31 := by
    omega
  rw [word, low, Int.shiftRight_eq_div_pow,
    int16_of_bounds (by omega) (by omega)]
  rfl

/-- The log of positive energies grows with them. -/
theorem logOfEnergyInQ8_mono
    {smaller larger : Int}
    {qDomain : Nat}
    (positive : 0 < smaller)
    (ordered : smaller ≤ larger)
    (fits : larger < 2 ^ 32)
    (inDomain : qDomain ≤ 27) :
    logOfEnergyInQ8 smaller qDomain ≤ logOfEnergyInQ8 larger qDomain := by
  have largerPositive := Int.lt_of_lt_of_le positive ordered
  have smallerFits := Int.lt_of_le_of_lt ordered fits
  rw [logOfEnergyInQ8_eq positive smallerFits inDomain,
    logOfEnergyInQ8_eq largerPositive fits inDomain]
  have fraction :=
    extractFractionPart_bounds smaller (Agc.normU32 smaller)
  have largerFraction :=
    extractFractionPart_bounds larger (Agc.normU32 larger)
  obtain ⟨few, least, -⟩ := exponent_bounds positive smallerFits
  obtain ⟨largerFew, -, below⟩ := exponent_bounds largerPositive fits
  have fewer : Agc.normU32 larger ≤ Agc.normU32 smaller := by
    by_contra more
    have power :
        (2 : Int) ^ (32 - Agc.normU32 larger) ≤
          2 ^ (31 - Agc.normU32 smaller) :=
      pow_le_pow_right₀ (by decide) (by omega)
    omega
  rcases fewer.eq_or_lt with same | less
  · have parts :
        extractFractionPart smaller (Agc.normU32 smaller) ≤
          extractFractionPart larger (Agc.normU32 larger) := by
      rw [extractFractionPart_eq positive smallerFits,
        extractFractionPart_eq largerPositive fits, same]
      apply Int.ediv_le_ediv (by decide)
      exact
        Int.sub_le_sub_right
          (mul_le_mul_of_nonneg_right ordered (by positivity)) _
    omega
  · omega

/-- The log of a positive energy is that of zero or more if and only if the energy reaches
one. -/
theorem zero_le_logOfEnergyInQ8_iff
    {energy : Int}
    {qDomain : Nat}
    (positive : 0 < energy)
    (fits : energy < 2 ^ 32)
    (inDomain : qDomain ≤ 27) :
    logOfEnergyInQ8 0 qDomain ≤ logOfEnergyInQ8 energy qDomain ↔
      2 ^ qDomain ≤ energy := by
  have frac := extractFractionPart_bounds energy (Agc.normU32 energy)
  obtain ⟨few, least, below⟩ := exponent_bounds positive fits
  have zero : logOfEnergyInQ8 0 qDomain = 896 := rfl
  rw [zero, logOfEnergyInQ8_eq positive fits inDomain]
  constructor
  · intro larger
    have power : (2 : Int) ^ qDomain ≤ 2 ^ (31 - Agc.normU32 energy) :=
      pow_le_pow_right₀ (by decide) (by omega)
    exact Int.le_trans power least
  · intro reaches
    have exponent : qDomain < 32 - Agc.normU32 energy := by
      by_contra beyond
      have power : (2 : Int) ^ (32 - Agc.normU32 energy) ≤ 2 ^ qDomain :=
        pow_le_pow_right₀ (by decide) (by omega)
      omega
    omega

/-- Logs are in order if and only if the larger energy does not stand between zero and one
where the smaller one is zero. -/
theorem logs_ordered_iff
    {smaller larger : Int}
    {qDomain : Nat}
    (nonneg : 0 ≤ smaller)
    (ordered : smaller ≤ larger)
    (fits : larger < 2 ^ 32)
    (inDomain : qDomain ≤ 27) :
    logOfEnergyInQ8 smaller qDomain ≤ logOfEnergyInQ8 larger qDomain ↔
      ReachesOne qDomain smaller larger := by
  unfold ReachesOne
  rcases nonneg.eq_or_lt with isZero | positive
  · subst isZero
    rcases ordered.eq_or_lt with isZero | positive
    · subst isZero
      simp
    · rw [zero_le_logOfEnergyInQ8_iff positive fits inDomain]
      simp [positive.ne']
  · simp [logOfEnergyInQ8_mono positive ordered fits inDomain, positive.ne']

/-! ## The sums of the loop -/

theorem weightedSum_append
    (weight : ChannelTap → Int)
    (first second : List (ChannelTap × UInt16)) :
    weightedSum weight (first ++ second) =
      weightedSum weight first + weightedSum weight second := by
  unfold weightedSum
  rw [List.map_append, List.sum_append]

/-- A product of a channel and a magnitude has 31 bits. -/
theorem product_bounds
    {weight : Int}
    (range : 0 ≤ weight ∧ weight < 2 ^ 15)
    (magnitude : UInt16) :
    0 ≤ weight * magnitude.toNat ∧ weight * magnitude.toNat < 2 ^ 31 := by
  have below : (magnitude.toNat : Int) < 2 ^ 16 := by
    exact_mod_cast magnitude.toNat_lt
  constructor
  · exact Int.mul_nonneg range.1 (Int.natCast_nonneg _)
  · calc
      weight * magnitude.toNat ≤ 2 ^ 15 * magnitude.toNat :=
        mul_le_mul_of_nonneg_right range.2.le (Int.natCast_nonneg _)
      _ < 2 ^ 15 * 2 ^ 16 := by omega

/-- The conversions of a product do not change it. -/
theorem word_of_product
    {weight : Int}
    (range : 0 ≤ weight ∧ weight < 2 ^ 15)
    (magnitude : UInt16) :
    uint32 (int32 (weight * magnitude.toNat)) = weight * magnitude.toNat := by
  obtain ⟨nonneg, below⟩ := product_bounds range magnitude
  rw [int32_of_bounds (by omega) below]
  exact Int.emod_eq_of_lt nonneg (by omega)

/-- The loop calculates the sums in words of 32 bits. -/
theorem foldl_addBin (bins : List (ChannelTap × UInt16)) :
    (bins.foldl LinearEnergies.addBin .zero).farEnergy =
        uint32 (weightedSum (fun _ => 1) bins) ∧
      (bins.foldl LinearEnergies.addBin .zero).echoEnergyAdapt =
          uint32 (weightedSum ChannelTap.channelAdapt16 bins) ∧
        (bins.foldl LinearEnergies.addBin .zero).echoEnergyStored =
          uint32 (weightedSum ChannelTap.channelStored bins) := by
  induction bins using List.reverseRecOn with
  | nil =>
      exact ⟨rfl, rfl, rfl⟩
  | append_singleton bins bin inductionHypothesis =>
      obtain ⟨far, adapt, stored⟩ := inductionHypothesis
      have last (weight : ChannelTap → Int) :
          weightedSum weight [bin] = weight bin.1 * bin.2.toNat :=
        List.sum_singleton
      simp only [List.foldl_append, List.foldl_cons, List.foldl_nil,
        weightedSum_append, last]
      generalize bins.foldl LinearEnergies.addBin .zero = energies at *
      unfold LinearEnergies.addBin
      dsimp only
      rw [far, adapt, stored, word_of_product bin.1.adapt,
        word_of_product bin.1.stored, one_mul]
      exact
        ⟨Int.emod_add_emod .., Int.emod_add_emod .., Int.emod_add_emod ..⟩

theorem weightedSum_one (channels : EchoChannels) (far : FarSpectrum) :
    weightedSum (fun _ => 1) (far.bins channels) = exactFar far := by
  have magnitudes :
      (far.bins channels).map Prod.snd = far.magnitudes :=
    List.map_snd_zip (by rw [far.size, channels.size])
  unfold weightedSum exactFar
  rw [← magnitudes, List.map_map]
  simp only [one_mul]
  rfl

/-- The far energy is the one that the levels are updated with. -/
theorem calcLinearEnergies_farEnergy
    (channels : EchoChannels)
    (far : FarSpectrum) :
    (calcLinearEnergies channels far).farEnergy = far.farEnergy := by
  obtain ⟨sumFar, -, -⟩ := foldl_addBin (far.bins channels)
  rw [weightedSum_one] at sumFar
  exact sumFar

/-- A larger spectrum has a larger sum, for weights that are not negative. -/
theorem weightedSum_mono
    {weight : ChannelTap → Int}
    (nonneg : ∀ tap, 0 ≤ weight tap)
    {quieter louder : List UInt16}
    (below : List.Forall₂ (· ≤ ·) quieter louder)
    (taps : List ChannelTap) :
    0 ≤ weightedSum weight (taps.zip quieter) ∧
      weightedSum weight (taps.zip quieter) ≤
        weightedSum weight (taps.zip louder) := by
  induction below generalizing taps with
  | nil =>
      rw [List.zip_nil_right]
      exact ⟨Int.le_refl 0, Int.le_refl 0⟩
  | @cons first second quieter louder ordered rest inductionHypothesis =>
      cases taps with
      | nil =>
          exact ⟨Int.le_refl 0, Int.le_refl 0⟩
      | cons tap taps =>
          obtain ⟨restNonneg, restOrdered⟩ := inductionHypothesis taps
          have magnitudes : (first.toNat : Int) ≤ second.toNat := by
            exact_mod_cast UInt16.le_iff_toNat_le.mp ordered
          have product :=
            mul_le_mul_of_nonneg_left magnitudes (nonneg tap)
          have productNonneg :=
            Int.mul_nonneg (nonneg tap) (Int.natCast_nonneg first.toNat)
          unfold weightedSum at restNonneg restOrdered ⊢
          simp only [List.zip_cons_cons, List.map_cons, List.sum_cons]
          omega

/-- The sum of a spectrum fits by far. -/
theorem exactFar_lt (far : FarSpectrum) : exactFar far < 2 ^ 32 := by
  have each :
      ∀ term ∈ far.magnitudes.map (fun magnitude => (magnitude.toNat : Int)),
        term ≤ 65535 := by
    intro term member
    obtain ⟨magnitude, -, rfl⟩ := List.mem_map.mp member
    have below := magnitude.toNat_lt
    omega
  have sum := List.sum_le_card_nsmul _ _ each
  rw [List.length_map, far.size] at sum
  exact Int.lt_of_le_of_lt sum (by decide)

/-- A sum that is not negative is its word if and only if it fits. -/
theorem uint32_eq_iff
    {sum : Int}
    (nonneg : 0 ≤ sum) :
    uint32 sum = sum ↔ sum < 2 ^ 32 := by
  unfold uint32
  omega

/-- The energies of a spectrum are exact if and only if both echoes fit. -/
theorem energiesExact_iff
    (channels : EchoChannels)
    (far : FarSpectrum) :
    EnergiesExact channels far ↔
      exactAdapt channels far < 2 ^ 32 ∧ exactStored channels far < 2 ^ 32 := by
  have same : List.Forall₂ (· ≤ ·) far.magnitudes far.magnitudes :=
    List.forall₂_refl _
  have isFar :=
    (@weightedSum_mono (fun _ => 1) (fun _ => by decide) _ _ same
      channels.taps).1
  have isAdapt :=
    (weightedSum_mono (fun tap => tap.adapt.1) same channels.taps).1
  have isStored :=
    (weightedSum_mono (fun tap => tap.stored.1) same channels.taps).1
  obtain ⟨sumFar, sumAdapt, sumStored⟩ := foldl_addBin (far.bins channels)
  have adapt := uint32_eq_iff isAdapt
  have stored := uint32_eq_iff isStored
  constructor
  · rintro ⟨-, adaptExact, storedExact⟩
    exact
      ⟨adapt.mp (sumAdapt.symm.trans adaptExact),
        stored.mp (sumStored.symm.trans storedExact)⟩
  · rintro ⟨adaptFits, storedFits⟩
    refine
      ⟨?_, sumAdapt.trans (adapt.mpr adaptFits),
        sumStored.trans (stored.mpr storedFits)⟩
    rw [← weightedSum_one channels]
    refine sumFar.trans ((uint32_eq_iff isFar).mpr ?_)
    have fits := exactFar_lt far
    rwa [← weightedSum_one channels] at fits

/-! ## Two spectra -/

/--
For every pair of channels and every two spectra of which one is nowhere above the other, the
energies of both are the exact sums and the logs of the energies are in the same order, if
and only if both echoes of the louder one fit a word and no energy stands between zero and
one where that of the quieter spectrum is zero.
-/
theorem energiesMonotone_iff
    {channels : EchoChannels}
    {quieter louder : FarSpectrum}
    (below : quieter.Below louder) :
    EnergiesMonotone channels quieter louder ↔
      EnergiesFit channels quieter louder := by
  obtain ⟨magnitudes, sameDomain⟩ := below
  have inDomain := louder.inDomain
  obtain ⟨farNonneg, farOrdered⟩ :
      0 ≤ exactFar quieter ∧ exactFar quieter ≤ exactFar louder := by
    rw [← weightedSum_one channels, ← weightedSum_one channels]
    exact weightedSum_mono (fun _ => by decide) magnitudes channels.taps
  obtain ⟨adaptNonneg, adaptOrdered⟩ :
      0 ≤ exactAdapt channels quieter ∧
        exactAdapt channels quieter ≤ exactAdapt channels louder :=
    weightedSum_mono (fun tap => tap.adapt.1) magnitudes channels.taps
  obtain ⟨storedNonneg, storedOrdered⟩ :
      0 ≤ exactStored channels quieter ∧
        exactStored channels quieter ≤ exactStored channels louder :=
    weightedSum_mono (fun tap => tap.stored.1) magnitudes channels.taps
  have farIff :=
    @logs_ordered_iff _ _ louder.farQ farNonneg farOrdered
      (exactFar_lt louder) (by omega)
  have echoDomain : resolutionChannel16 + louder.farQ ≤ 27 := by
    unfold resolutionChannel16
    omega
  have logs
      (far : FarSpectrum)
      (exact : EnergiesExact channels far) :
      energyLogs channels far =
        { farLogEnergy := logOfEnergyInQ8 (exactFar far) far.farQ
          echoAdaptLogEnergy :=
            logOfEnergyInQ8 (exactAdapt channels far)
              (resolutionChannel16 + far.farQ)
          echoStoredLogEnergy :=
            logOfEnergyInQ8 (exactStored channels far)
              (resolutionChannel16 + far.farQ) } := by
    unfold energyLogs
    dsimp only
    rw [exact.farEnergy, exact.echoEnergyAdapt, exact.echoEnergyStored]
  constructor
  · rintro ⟨quieterExact, louderExact, farLog, adaptLog, storedLog⟩
    obtain ⟨adaptFits, storedFits⟩ :=
      (energiesExact_iff channels louder).mp louderExact
    rw [logs quieter quieterExact, logs louder louderExact, sameDomain]
      at farLog adaptLog storedLog
    exact
      { adapt := adaptFits
        stored := storedFits
        farReaches := farIff.mp farLog
        adaptReaches :=
          (logs_ordered_iff adaptNonneg adaptOrdered adaptFits
            echoDomain).mp adaptLog
        storedReaches :=
          (logs_ordered_iff storedNonneg storedOrdered storedFits
            echoDomain).mp storedLog }
  · rintro ⟨adaptFits, storedFits, farReaches, adaptReaches, storedReaches⟩
    have louderExact :=
      (energiesExact_iff channels louder).mpr ⟨adaptFits, storedFits⟩
    have quieterExact :=
      (energiesExact_iff channels quieter).mpr
        ⟨Int.lt_of_le_of_lt adaptOrdered adaptFits,
          Int.lt_of_le_of_lt storedOrdered storedFits⟩
    have quieterLogs := logs quieter quieterExact
    rw [sameDomain] at quieterLogs
    refine ⟨quieterExact, louderExact, ?_, ?_, ?_⟩
    · rw [quieterLogs, logs louder louderExact]
      exact farIff.mpr farReaches
    · rw [quieterLogs, logs louder louderExact]
      exact
        (logs_ordered_iff adaptNonneg adaptOrdered adaptFits echoDomain).mpr
          adaptReaches
    · rw [quieterLogs, logs louder louderExact]
      exact
        (logs_ordered_iff storedNonneg storedOrdered storedFits
          echoDomain).mpr storedReaches

/-! ## The initial channel -/

/-- `kChannelStored8kHz` -/
def kChannelStored8kHz : List Int :=
  [2040, 1815, 1590, 1498, 1405, 1395, 1385, 1418, 1451, 1506, 1562, 1644,
    1726, 1804, 1882, 1918, 1953, 1982, 2010, 2025, 2040, 2034, 2027, 2021,
    2014, 1997, 1980, 1925, 1869, 1800, 1732, 1683, 1635, 1604, 1572, 1545,
    1517, 1481, 1444, 1405, 1367, 1331, 1294, 1270, 1245, 1239, 1233, 1247,
    1260, 1282, 1303, 1338, 1373, 1407, 1441, 1470, 1499, 1524, 1549, 1565,
    1582, 1601, 1621, 1649, 1676]

/-- `WebRtcAecm_InitEchoPathCore` with a channel whose taps are in range. -/
def EchoChannels.initEchoPath
    (echoPath : List Int)
    (size : echoPath.length = partLen1)
    (inRange : ∀ tap ∈ echoPath, 0 ≤ tap ∧ tap < 2 ^ 15) : EchoChannels where
  taps :=
    echoPath.attach.map fun tap =>
      ⟨tap.1, tap.1, inRange tap.1 tap.2, inRange tap.1 tap.2⟩
  size := by
    rw [List.length_map, List.length_attach]
    exact size

/-- The channels of `WebRtcAecm_InitCore` at 8 kHz. -/
def initialChannels : EchoChannels :=
  .initEchoPath kChannelStored8kHz (by decide) (by decide)

/-- A spectrum of one magnitude. -/
def flatSpectrum (magnitude : UInt16) : FarSpectrum where
  magnitudes := List.replicate partLen1 magnitude
  farQ := 0
  size := List.length_replicate
  inDomain := RecordedLevels.silent.inDomain

/-- The initial channel on a quieter and a louder spectrum. -/
theorem energiesMonotone_flat :
    EnergiesMonotone initialChannels (flatSpectrum 1000)
      (flatSpectrum 40000) := by
  have below : (flatSpectrum 1000).Below (flatSpectrum 40000) :=
    ⟨by decide +kernel, rfl⟩
  have fit :
      EnergiesFit initialChannels (flatSpectrum 1000)
        (flatSpectrum 40000) :=
    { adapt := by decide +kernel
      stored := by decide +kernel
      farReaches := fun isZero => absurd isZero (by decide +kernel)
      adaptReaches := fun isZero => absurd isZero (by decide +kernel)
      storedReaches := fun isZero => absurd isZero (by decide +kernel) }
  exact (energiesMonotone_iff below).mpr fit

/-- With the initial channel the echoes of the loudest spectrum do not fit. -/
theorem not_energiesMonotone_loudest :
    ¬ ∀ (channels : EchoChannels) (quieter louder : FarSpectrum),
        quieter.Below louder → EnergiesMonotone channels quieter louder := by
  intro claimed
  have monotone :=
    claimed initialChannels (flatSpectrum 40000) (flatSpectrum 65535)
      ⟨by decide +kernel, rfl⟩
  exact absurd monotone.louderExact.echoEnergyAdapt (by decide +kernel)

end ApmSdk.Aecm
