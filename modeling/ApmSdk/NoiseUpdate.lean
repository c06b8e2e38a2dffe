import ApmSdk.LabelledPath
import ApmSdk.Normalisation
import Mathlib.Order.Interval.Set.UnorderedInterval
import Mathlib.Tactic.IntervalCases

namespace ApmSdk.Nsx

/-!
# The noise update of the fixed-point suppressor

`WebRtcNsx_ProcessCore` moves the noise estimate of every bin towards the magnitude, by a
share that grows with the probability that the frame is not speech.  Estimates are kept in
Q(`prevQNoise` + 11), normalised over the bins after every frame; the magnitude comes in
the domain of the current frame and is shifted to Q(`prevQNoise`) first.
-/

/-- `NOISE_UPDATE_Q8` -/
abbrev noiseUpdateQ8 : Int := 26

/-- `GAMMA_NOISE_TRANS_AND_SPEECH_Q8` -/
abbrev gammaNoiseTransAndSpeechQ8 : Int := 3

/-- `ONE_MINUS_PROB_RANGE_Q8` -/
abbrev oneMinusProbRangeQ8 : Nat := 205

/-- What the update reads of a frequency bin of a frame; the probability is in Q8, and
`WebRtcNsx_SpeechNoiseProb` divides by no less than its numerator. -/
structure CurrentBin where
  magnU16 : UInt16
  nonSpeechProb : Nat
  atMostOne : nonSpeechProb ≤ 2 ^ 8

/-- The spectrum of a frame and its domain. -/
structure NoiseFrame where
  qMagn : Int
  bins : List CurrentBin

/-- `gammaNoise` as a bin leaves it to the next one. -/
def CurrentBin.gammaNoise (bin : CurrentBin) : Int :=
  if bin.nonSpeechProb < oneMinusProbRangeQ8 then gammaNoiseTransAndSpeechQ8
  else noiseUpdateQ8

/-- A turn of the loop over the bins. -/
structure BinUpdate where
  prevNoise : Int
  bin : CurrentBin
  prevGammaNoise : Int

/-- The turns of the loop, with `gammaNoise` handed from one to the next. -/
def binUpdates : Int → List Int → List CurrentBin → List BinUpdate
  | gammaNoise, prevNoise :: noises, bin :: bins =>
      ⟨prevNoise, bin, gammaNoise⟩ ::
        binUpdates bin.gammaNoise noises bins
  | _, [], _ | _, _, [] => []

/-- `tmpU32no2`, the weighted product. -/
def weighted (product gammaNoise : Int) : Int :=
  if 0x7c000000 &&& product.toNat ≠ 0 then
    uint32 ((product >>> (5 : Nat)) * gammaNoise)
  else uint32 (product * gammaNoise) >>> (5 : Nat)

namespace BinUpdate

variable (update : BinUpdate) (postShifts : Int)

/-- `prevNoiseU16` -/
def prevNoiseU16 : Int :=
  uint16 (update.prevNoise >>> (11 : Nat))

/-- `tmpU32no2`, the magnitude in the domain of the previous noise. -/
def magn : Int :=
  if postShifts < 0 then
    (update.bin.magnU16.toNat : Int) >>> (-postShifts).toNat
  else uint32 (update.bin.magnU16.toNat * 2 ^ postShifts.toNat)

/-- `sign` -/
def sign : Int :=
  if update.magn postShifts < update.prevNoiseU16 then -1 else 1

/-- `tmpU32no1` -/
def distance : Int :=
  update.sign postShifts * (update.magn postShifts - update.prevNoiseU16)

/-- The bin is moved at all. -/
def Moves : Prop :=
  update.distance postShifts ≠ 0 ∧ update.bin.nonSpeechProb ≠ 0

instance : Decidable (update.Moves postShifts) :=
  inferInstanceAs (Decidable (_ ∧ _))

/-- `tmpU32no3` -/
def product : Int :=
  if update.Moves postShifts then
    uint32 (update.distance postShifts * update.bin.nonSpeechProb)
  else 0

/-- The previous estimate, moved with a time constant. -/
def moved (gammaNoise : Int) : Int :=
  uint32
    (update.prevNoise +
      update.sign postShifts * weighted (update.product postShifts) gammaNoise)

/-- `noiseUpdateU32` -/
def noiseUpdate : Int :=
  let noiseUpdate :=
    if update.Moves postShifts then
      update.moved postShifts update.prevGammaNoise
    else update.prevNoise
  if update.prevGammaNoise ≠ update.bin.gammaNoise then
    let tmpU32no1 := update.moved postShifts update.bin.gammaNoise
    if tmpU32no1 < noiseUpdate then tmpU32no1 else noiseUpdate
  else noiseUpdate

end BinUpdate

/-- What `NoiseSuppressionFixedC` keeps of the noise. -/
structure NoiseEstimate where
  prevNoise : List Int
  prevQNoise : Int
deriving Repr, DecidableEq

namespace NoiseEstimate

/-- The estimate after `WebRtcNsx_InitCore`. -/
def initCore (magnLen : Nat) : NoiseEstimate where
  prevNoise := List.replicate magnLen 0
  prevQNoise := 0

/-- The turns of the loop for a frame. -/
def updates (inst : NoiseEstimate) (frame : NoiseFrame) : List BinUpdate :=
  binUpdates noiseUpdateQ8 inst.prevNoise frame.bins

/-- `postShifts` -/
def postShifts (inst : NoiseEstimate) (frame : NoiseFrame) : Int :=
  inst.prevQNoise - frame.qMagn

/-- `noiseU32` after the loop. -/
def noise (inst : NoiseEstimate) (frame : NoiseFrame) : List Int :=
  (inst.updates frame).map (·.noiseUpdate (inst.postShifts frame))

/-- The noise of a frame, saved for the next one. -/
def save (inst : NoiseEstimate) (noise : List Int) : NoiseEstimate :=
  let norm32 := Agc.normU32 (noise.foldl max 0)
  { prevNoise :=
      noise.map fun noise =>
        if 5 < norm32 then uint32 (noise * 2 ^ (norm32 - 5))
        else noise >>> (5 - norm32)
    prevQNoise := int16 (inst.prevQNoise + norm32 - 5) }

/-- A frame that is not all zero. -/
def processCore
    (inst : NoiseEstimate)
    (frame : NoiseFrame) : Option NoiseEstimate :=
  some (inst.save (inst.noise frame))

end NoiseEstimate

/-! ## What the update must do -/

/-- The weighting wraps neither of its products. -/
def WeightFits (product gammaNoise : Int) : Prop :=
  if 0x7c000000 &&& product.toNat ≠ 0 then
    (product >>> (5 : Nat)) * gammaNoise < 2 ^ 32
  else product * gammaNoise < 2 ^ 32

namespace BinUpdate

variable (update : BinUpdate) (postShifts : Int)

/-- The magnitude in the domain of the previous noise, however large. -/
def commonMagn : Int :=
  if postShifts < 0 then
    (update.bin.magnU16.toNat : Int) >>> (-postShifts).toNat
  else update.bin.magnU16.toNat * 2 ^ postShifts.toNat

/-- A move with a time constant wraps nothing. -/
structure MoveFits (gammaNoise : Int) : Prop where
  weight : WeightFits (update.product postShifts) gammaNoise
  nonneg :
    0 ≤ update.prevNoise +
      update.sign postShifts * weighted (update.product postShifts) gammaNoise
  below :
    update.prevNoise +
        update.sign postShifts *
          weighted (update.product postShifts) gammaNoise < 2 ^ 32

/-- What the update of a bin must do. -/
structure Kept : Prop where
  magn :
    0 ≤ postShifts →
      (update.bin.magnU16.toNat : Int) * 2 ^ postShifts.toNat < 2 ^ 32
  product :
    update.Moves postShifts →
      update.distance postShifts * update.bin.nonSpeechProb < 2 ^ 32
  first :
    update.Moves postShifts →
      update.MoveFits postShifts update.prevGammaNoise
  second :
    update.prevGammaNoise ≠ update.bin.gammaNoise →
      update.MoveFits postShifts update.bin.gammaNoise
  between :
    update.noiseUpdate postShifts >>> (11 : Nat) ∈
      Set.uIcc (update.prevNoise >>> (11 : Nat))
        (update.commonMagn postShifts)

/-- The distance to the magnitude, times the probability. -/
def excess : Int :=
  |update.commonMagn postShifts - update.prevNoise >>> (11 : Nat)| *
    update.bin.nonSpeechProb

/-- The magnitude fits 32 bits in the domain of the previous noise, and so does the
product, which is not where the mask misses its only bit. -/
def InRange : Prop :=
  (0 ≤ postShifts →
      (update.bin.magnU16.toNat : Int) * 2 ^ postShifts.toNat < 2 ^ 32) ∧
    (update.excess postShifts < 2 ^ 31 ∨
      2 ^ 31 + 2 ^ 26 ≤ update.excess postShifts ∧
        update.excess postShifts < 2 ^ 32)

end BinUpdate

namespace NoiseEstimate

/-- What the noise update of a frame must do. -/
def FrameKept (inst : NoiseEstimate) (frame : NoiseFrame) : Prop :=
  ∀ update ∈ inst.updates frame, update.Kept (inst.postShifts frame)

/-- Every bin of a frame is in range. -/
def FrameInRange (inst : NoiseEstimate) (frame : NoiseFrame) : Prop :=
  ∀ update ∈ inst.updates frame, update.InRange (inst.postShifts frame)

end NoiseEstimate

/-! ## One bin -/

/-- The mask tests the bits from 26 to 30. -/
theorem mask_ne_zero_iff (word : Nat) :
    0x7c000000 &&& word ≠ 0 ↔ 2 ^ 26 ≤ word % 2 ^ 31 := by
  have mask : (0x7c000000 : Nat) = (2 ^ 5 - 1) <<< 26 := rfl
  have masked : 0x7c000000 &&& word = (word >>> 26 % 2 ^ 5) <<< 26 := by
    rw [← Nat.and_two_pow_sub_one_eq_mod, mask]
    apply Nat.eq_of_testBit_eq
    intro bit
    rw [Nat.testBit_and, Nat.testBit_shiftLeft, Nat.testBit_shiftLeft,
      Nat.testBit_and, Nat.testBit_shiftRight]
    by_cases high : 26 ≤ bit
    · simp [high, Bool.and_comm]
    · simp [high]
  rw [masked, Nat.shiftLeft_eq, Nat.shiftRight_eq_div_pow]
  omega

/-- A time constant of the code. -/
def IsGamma (gammaNoise : Int) : Prop :=
  gammaNoise = noiseUpdateQ8 ∨ gammaNoise = gammaNoiseTransAndSpeechQ8

theorem CurrentBin.isGamma (bin : CurrentBin) : IsGamma bin.gammaNoise := by
  unfold CurrentBin.gammaNoise
  split
  next =>
      exact .inr rfl
  next =>
      exact .inl rfl

/-- The weighting wraps where the mask misses the only bit of the product. -/
theorem weightFits_iff
    {product gammaNoise : Int}
    (range : 0 ≤ product ∧ product < 2 ^ 32)
    (isGamma : IsGamma gammaNoise) :
    WeightFits product gammaNoise ↔
      product < 2 ^ 31 ∨ 2 ^ 31 + 2 ^ 26 ≤ product := by
  obtain ⟨word, rfl⟩ := Int.eq_ofNat_of_zero_le range.1
  unfold WeightFits
  rw [Int.toNat_natCast, Int.shiftRight_eq_div_pow]
  rcases isGamma with rfl | rfl
  all_goals
    simp only [mask_ne_zero_iff, noiseUpdateQ8, gammaNoiseTransAndSpeechQ8]
    split
    next masked =>
        omega
    next unmasked =>
        omega

/-- A weighting that does not wrap takes a share of the product. -/
theorem weighted_bounds
    {product gammaNoise : Int}
    (range : 0 ≤ product ∧ product < 2 ^ 32)
    (isGamma : IsGamma gammaNoise)
    (fits : WeightFits product gammaNoise) :
    0 ≤ weighted product gammaNoise ∧
      32 * weighted product gammaNoise ≤ 26 * product := by
  unfold WeightFits at fits
  unfold weighted uint32
  rcases isGamma with rfl | rfl
  all_goals
    simp only [Int.shiftRight_eq_div_pow, Nat.cast_pow, Nat.cast_ofNat,
      noiseUpdateQ8, gammaNoiseTransAndSpeechQ8] at fits ⊢
    split
    next masked =>
        rw [if_pos masked] at fits
        rw [Int.emod_eq_of_lt (by omega) fits]
        omega
    next unmasked =>
        rw [if_neg unmasked] at fits
        rw [Int.emod_eq_of_lt (by omega) fits]
        omega

namespace BinUpdate

variable {update : BinUpdate} {postShifts : Int}

/-- A normalised estimate, and a time constant of the code. -/
structure Normalised (update : BinUpdate) : Prop where
  prevNoise : 0 ≤ update.prevNoise ∧ update.prevNoise < 2 ^ 27
  isGamma : IsGamma update.prevGammaNoise

/-- A normalised estimate has 16 bits in the domain of the comparison. -/
theorem Normalised.prevNoiseU16_eq (normalised : update.Normalised) :
    update.prevNoiseU16 = update.prevNoise >>> (11 : Nat) := by
  obtain ⟨lower, upper⟩ := normalised.prevNoise
  unfold prevNoiseU16
  rw [Int.shiftRight_eq_div_pow]
  exact uint16_of_bounds (by omega) (by omega)

theorem commonMagn_nonneg
    (update : BinUpdate)
    (postShifts : Int) :
    0 ≤ update.commonMagn postShifts := by
  unfold commonMagn
  split
  next =>
      exact (shiftRight_bounds (Int.natCast_nonneg _) _).1
  next =>
      positivity

/-- A magnitude that fits is not changed by the shift. -/
theorem magn_eq
    (fits :
      0 ≤ postShifts →
        (update.bin.magnU16.toNat : Int) * 2 ^ postShifts.toNat < 2 ^ 32) :
    update.magn postShifts = update.commonMagn postShifts := by
  unfold magn commonMagn
  split
  next =>
      rfl
  next upward =>
      exact Int.emod_eq_of_lt (by positivity) (fits (not_lt.mp upward))

/-- The distance of a magnitude that fits. -/
theorem Normalised.distance_eq
    (normalised : update.Normalised)
    (fits :
      0 ≤ postShifts →
        (update.bin.magnU16.toNat : Int) * 2 ^ postShifts.toNat < 2 ^ 32) :
    update.distance postShifts =
      |update.commonMagn postShifts - update.prevNoise >>> (11 : Nat)| := by
  unfold distance sign
  rw [magn_eq fits, normalised.prevNoiseU16_eq]
  split
  next below =>
      rw [abs_of_neg (by omega)]
      omega
  next above =>
      rw [abs_of_nonneg (by omega)]
      omega

theorem excess_nonneg
    (update : BinUpdate)
    (postShifts : Int) :
    0 ≤ update.excess postShifts :=
  mul_nonneg (abs_nonneg _) (Int.natCast_nonneg _)

/-- A bin that is not moved has no excess. -/
theorem Normalised.excess_of_rest
    (normalised : update.Normalised)
    (fits :
      0 ≤ postShifts →
        (update.bin.magnU16.toNat : Int) * 2 ^ postShifts.toNat < 2 ^ 32)
    (rests : ¬update.Moves postShifts) :
    update.excess postShifts = 0 := by
  unfold Moves at rests
  unfold excess
  rw [← normalised.distance_eq fits]
  rcases Decidable.not_and_iff_or_not.mp rests with same | never
  · rw [not_not.mp same, zero_mul]
  · rw [not_not.mp never, Nat.cast_zero, mul_zero]

/-- The product of a magnitude that fits is the excess, where that has 32 bits. -/
theorem Normalised.product_eq
    (normalised : update.Normalised)
    (fits :
      0 ≤ postShifts →
        (update.bin.magnU16.toNat : Int) * 2 ^ postShifts.toNat < 2 ^ 32)
    (below : update.excess postShifts < 2 ^ 32) :
    update.product postShifts = update.excess postShifts := by
  have distance := normalised.distance_eq fits
  have nonneg := excess_nonneg update postShifts
  unfold product
  split
  next moves =>
      rw [distance]
      exact Int.emod_eq_of_lt nonneg below
  next rests =>
      exact (normalised.excess_of_rest fits rests).symm

/-- A bin in range moves by less than its distance to the magnitude. -/
theorem Normalised.moved_eq
    (normalised : update.Normalised)
    (inRange : update.InRange postShifts)
    {gammaNoise : Int}
    (isGamma : IsGamma gammaNoise) :
    update.MoveFits postShifts gammaNoise ∧
      update.moved postShifts gammaNoise >>> (11 : Nat) ∈
        Set.uIcc (update.prevNoise >>> (11 : Nat))
          (update.commonMagn postShifts) := by
  obtain ⟨fits, excess⟩ := inRange
  have nonneg := excess_nonneg update postShifts
  have product := normalised.product_eq fits (by omega)
  have weight :
      WeightFits (update.product postShifts) gammaNoise :=
    (weightFits_iff (by omega) isGamma).mpr (by omega)
  have share := weighted_bounds (by omega) isGamma weight
  have probability := update.bin.atMostOne
  have atMost :
      update.excess postShifts ≤
        |update.commonMagn postShifts - update.prevNoise >>> (11 : Nat)| *
          2 ^ 8 :=
    mul_le_mul_of_nonneg_left (by exact_mod_cast probability) (abs_nonneg _)
  have magn := commonMagn_nonneg update postShifts
  obtain ⟨lower, upper⟩ := normalised.prevNoise
  rw [← product] at atMost nonneg excess
  have kept :
      let tmpU32no2 := weighted (update.product postShifts) gammaNoise
      0 ≤ update.prevNoise + update.sign postShifts * tmpU32no2 ∧
        update.prevNoise + update.sign postShifts * tmpU32no2 < 2 ^ 32 ∧
          (update.prevNoise + update.sign postShifts * tmpU32no2) / 2 ^ 11 ∈
            Set.uIcc (update.prevNoise / 2 ^ 11)
              (update.commonMagn postShifts) := by
    dsimp only
    unfold sign
    rw [magn_eq fits, normalised.prevNoiseU16_eq, Set.mem_uIcc]
    simp only [Int.shiftRight_eq_div_pow, Nat.cast_pow, Nat.cast_ofNat]
      at atMost ⊢
    split
    next below =>
        rw [abs_of_neg (by omega)] at atMost
        omega
    next above =>
        rw [abs_of_nonneg (by omega)] at atMost
        omega
  refine ⟨⟨weight, kept.1, kept.2.1⟩, ?_⟩
  unfold moved uint32
  rw [Int.emod_eq_of_lt kept.1 kept.2.1, Int.shiftRight_eq_div_pow,
    Int.shiftRight_eq_div_pow]
  exact kept.2.2

/-- A bin is updated as it must be where it is in range, and nowhere else. -/
theorem Normalised.kept_iff (normalised : update.Normalised) :
    update.Kept postShifts ↔ update.InRange postShifts := by
  constructor
  · intro kept
    refine ⟨kept.magn, ?_⟩
    by_cases moves : update.Moves postShifts
    · have below := kept.product moves
      rw [normalised.distance_eq kept.magn] at below
      have product := normalised.product_eq kept.magn below
      have nonneg :=
        excess_nonneg update postShifts
      have weight := (kept.first moves).weight
      rw [product, weightFits_iff ⟨nonneg, below⟩ normalised.isGamma]
        at weight
      exact weight.imp_right fun large => ⟨large, below⟩
    · rw [normalised.excess_of_rest kept.magn moves]
      exact .inl (by decide)
  · intro inRange
    obtain ⟨fits, excess⟩ := inRange
    have first := normalised.moved_eq ⟨fits, excess⟩ normalised.isGamma
    have second := normalised.moved_eq ⟨fits, excess⟩ update.bin.isGamma
    refine ⟨fits, ?_, fun _ => first.1, fun _ => second.1, ?_⟩
    · intro moves
      rw [normalised.distance_eq fits]
      change update.excess postShifts < 2 ^ 32
      omega
    · have start := Set.left_mem_uIcc
        (a := update.prevNoise >>> (11 : Nat))
        (b := update.commonMagn postShifts)
      unfold noiseUpdate
      dsimp only
      split_ifs
      · exact second.2
      · exact first.2
      · exact second.2
      · exact start
      · exact first.2
      · exact start

end BinUpdate

/-! ## Runs -/

/-- A turn of the loop takes an estimate of the list and a time constant of the code. -/
theorem mem_binUpdates
    {gammaNoise : Int}
    {noises : List Int}
    {bins : List CurrentBin}
    (isGamma : IsGamma gammaNoise)
    {update : BinUpdate}
    (member : update ∈ binUpdates gammaNoise noises bins) :
    update.prevNoise ∈ noises ∧ IsGamma update.prevGammaNoise := by
  induction noises generalizing gammaNoise bins with
  | nil =>
      simp [binUpdates] at member
  | cons prevNoise rest inductionHypothesis =>
      cases bins with
      | nil =>
          simp [binUpdates] at member
      | cons bin bins =>
          rw [binUpdates, List.mem_cons] at member
          rcases member with isHead | later
          · rw [isHead]
            exact ⟨List.mem_cons_self .., isGamma⟩
          · obtain ⟨inRest, restGamma⟩ :=
              inductionHypothesis bin.isGamma later
            exact ⟨List.mem_cons_of_mem _ inRest, restGamma⟩

/-- The maximum of a list is its start or one of its members. -/
theorem foldl_max_mem (start : Int) (values : List Int) :
    values.foldl max start = start ∨ values.foldl max start ∈ values := by
  induction values generalizing start with
  | nil =>
      exact .inl rfl
  | cons value rest inductionHypothesis =>
      rw [List.foldl_cons]
      rcases inductionHypothesis (max start value) with isMax | inRest
      · rw [isMax, List.mem_cons]
        rcases max_choice start value with isStart | isValue
        · exact .inl isStart
        · exact .inr (.inl isValue)
      · exact .inr (List.mem_cons_of_mem _ inRest)

/-- No member of a list is above its maximum. -/
theorem le_foldl_max
    {start bound : Int}
    {values : List Int}
    (below : bound ≤ start ∨ bound ∈ values) :
    bound ≤ values.foldl max start := by
  induction values generalizing start with
  | nil =>
      simpa using below
  | cons value rest inductionHypothesis =>
      rw [List.foldl_cons]
      refine inductionHypothesis ?_
      rcases below with atStart | member
      · exact .inl (le_max_of_le_left atStart)
      · rcases List.mem_cons.mp member with rfl | inRest
        · exact .inl (le_max_right ..)
        · exact .inr inRest

namespace NoiseEstimate

variable {inst next : NoiseEstimate} {frame : NoiseFrame}

/-- Every estimate has 27 bits. -/
def Normalised (inst : NoiseEstimate) : Prop :=
  ∀ noise ∈ inst.prevNoise, 0 ≤ noise ∧ noise < 2 ^ 27

theorem Normalised.initCore (magnLen : Nat) :
    (initCore magnLen).Normalised := by
  intro noise member
  rw [List.eq_of_mem_replicate member]
  decide

/-- The turns of a frame start from normalised estimates. -/
theorem Normalised.updates
    (normalised : inst.Normalised)
    {update : BinUpdate}
    (member : update ∈ inst.updates frame) :
    update.Normalised := by
  obtain ⟨inNoise, isGamma⟩ := mem_binUpdates (.inl rfl) member
  exact ⟨normalised _ inNoise, isGamma⟩

/-- The noise after the loop has 32 bits. -/
theorem Normalised.noise
    (normalised : inst.Normalised)
    {noise : Int}
    (member : noise ∈ inst.noise frame) :
    0 ≤ noise ∧ noise < 2 ^ 32 := by
  obtain ⟨update, inUpdates, rfl⟩ := List.mem_map.mp member
  have previous := (normalised.updates inUpdates).prevNoise
  unfold BinUpdate.noiseUpdate BinUpdate.moved uint32
  dsimp only
  split_ifs <;> omega

/-- Saving normalises the estimates. -/
theorem normalised_save
    {noise : List Int}
    (range : ∀ value ∈ noise, 0 ≤ value ∧ value < 2 ^ 32) :
    (inst.save noise).Normalised := by
  intro saved member
  obtain ⟨value, inNoise, rfl⟩ := List.mem_map.mp member
  have maxRange :
      0 ≤ noise.foldl max 0 ∧ noise.foldl max 0 < 2 ^ 32 := by
    rcases foldl_max_mem 0 noise with isZero | inList
    · rw [isZero]
      decide
    · exact range _ inList
  have fits := normU32_fits maxRange
  have atMost : value ≤ noise.foldl max 0 := le_foldl_max (.inr inNoise)
  have nonneg := (range value inNoise).1
  generalize Agc.normU32 (noise.foldl max 0) = norm32 at fits ⊢
  split
  next upward =>
      obtain ⟨shift, rfl⟩ := Nat.exists_eq_add_of_le' upward.le
      have below : value * 2 ^ shift * 2 ^ 5 < 2 ^ 32 := by
        rw [mul_assoc, ← pow_add]
        exact
          lt_of_le_of_lt
            (mul_le_mul_of_nonneg_right atMost (by positivity)) fits
      have positive : 0 ≤ value * 2 ^ shift := by
        positivity
      rw [Nat.add_sub_cancel]
      unfold uint32
      rw [Int.emod_eq_of_lt positive (by omega)]
      omega
  next downward =>
      rw [Int.shiftRight_eq_div_pow]
      have small : norm32 ≤ 5 := by
        omega
      interval_cases norm32 <;> omega

/-- A frame leaves normalised estimates. -/
theorem Normalised.processCore
    (normalised : inst.Normalised)
    (taken : inst.processCore frame = some next) :
    next.Normalised := by
  obtain rfl := Option.some.inj taken
  exact normalised_save fun _ member => normalised.noise member

/-- In every run the noise update keeps each estimate between the one before and the
magnitude, and wraps nothing, exactly if every bin of every frame is in range. -/
theorem noiseUpdate_kept_iff
    (magnLen : Nat)
    (frames : List NoiseFrame) :
    AlongRun processCore FrameKept (initCore magnLen) frames ↔
      AlongRun processCore FrameInRange (initCore magnLen) frames :=
  AlongRun.iff_of_invariant Normalised
    (fun normalised taken => normalised.processCore taken)
    (fun normalised =>
      forall₂_congr fun _ member =>
        (normalised.updates member).kept_iff)
    (.initCore magnLen) frames

/-- A frame from magnitudes and probabilities. -/
def frameOf (qMagn : Int) (bins : List (UInt16 × Fin 257)) : NoiseFrame where
  qMagn
  bins := bins.map fun bin =>
    ⟨bin.1, bin.2, Nat.le_of_lt_succ bin.2.isLt⟩

/-- The spectrum of a first block of 80 zeros at 8000 Hz but for a 4 at index 10. -/
def quietImpulse : NoiseFrame :=
  frameOf 5
    [
      (128, 239), (127, 239), (128, 239), (127, 239), (128, 239), (127, 239),
      (128, 239), (128, 239), (127, 239), (127, 239), (127, 239), (128, 239),
      (127, 239), (127, 239), (127, 239), (128, 239), (128, 239), (128, 239),
      (127, 239), (127, 239), (128, 239), (127, 239), (128, 239), (127, 239),
      (128, 239), (127, 239), (128, 239), (127, 239), (128, 239), (127, 239),
      (127, 239), (128, 239), (128, 239), (128, 239), (127, 239), (127, 239),
      (127, 239), (128, 239), (127, 239), (127, 239), (127, 239), (128, 239),
      (128, 239), (127, 239), (128, 239), (127, 239), (128, 239), (127, 239),
      (128, 239), (127, 239), (128, 239), (127, 239), (127, 239), (128, 239),
      (127, 239), (128, 239), (127, 239), (128, 239), (127, 239), (128, 239),
      (127, 239), (127, 239), (128, 239), (127, 239), (128, 239)]

/-- The spectrum of a second block of 80 zeros but for a 32767 at index 10. -/
def loudImpulse : NoiseFrame :=
  frameOf (-7)
    [
      (256, 186), (255, 191), (255, 187), (255, 191), (256, 186), (256, 191),
      (255, 187), (256, 186), (255, 191), (255, 191), (255, 191), (256, 186),
      (255, 191), (256, 191), (255, 191), (256, 186), (256, 186), (255, 187),
      (255, 191), (256, 191), (256, 186), (256, 191), (255, 187), (255, 191),
      (255, 187), (255, 191), (255, 187), (256, 191), (256, 186), (256, 191),
      (255, 191), (255, 187), (256, 186), (256, 186), (255, 191), (256, 191),
      (255, 191), (256, 186), (255, 191), (255, 191), (255, 191), (256, 186),
      (255, 187), (256, 191), (256, 186), (255, 191), (255, 187), (255, 191),
      (256, 186), (256, 191), (255, 187), (255, 191), (255, 191), (256, 186),
      (255, 191), (256, 186), (255, 191), (256, 186), (255, 191), (256, 186),
      (255, 191), (255, 191), (255, 187), (256, 191), (256, 186)]

/-- In the domain of the noise of a quiet block, which has 17 bits after the point, the
magnitudes of a loud one leave 32 bits. -/
theorem not_noiseUpdate_kept_loud :
    ¬AlongRun processCore FrameKept (initCore 65)
      [quietImpulse, loudImpulse] := by
  intro along
  have last := along.2 _ rfl
  exact
    absurd (fun update member => (last.1 update member).magn)
      (by decide +kernel)

end NoiseEstimate

end ApmSdk.Nsx
