import ApmSdk.ComfortNoise
import ApmSdk.LabelledPath
import ApmSdk.SquareRoot

namespace ApmSdk.Aecm

/-!
# The filtered near end

`nearFilt` is smoothed in the domain of the current block.  The old value is moved there
from that of the block before; where it lacks the headroom, both meet in a domain with
fewer bits, and the result is moved up and saturated.
-/

/-- `WebRtcSpl_NormW16` -/
def normW16 (a : Int) : Nat :=
  if a = 0 then 0
  else
    let a := if a < 0 then -a - 1 else a
    [8, 4, 2, 1].foldl
      (fun zeros shift =>
        if a * 2 ^ zeros < 2 ^ (15 - shift) then zeros + shift else zeros)
      0

/-- A magnitude spectrum and its domain, which is a norm of 16 bits. -/
structure NearSpectrum where
  magnitudes : List UInt16
  qDomain : Nat
  size : magnitudes.length = partLen1
  inDomain : qDomain ≤ 15

/-- The near end of a block: noisy, and clean if the caller gives it. -/
structure NearBlock where
  noisy : NearSpectrum
  clean : Option NearSpectrum

/-- `ptrDfaClean` -/
def NearBlock.dfaClean (block : NearBlock) : NearSpectrum :=
  block.clean.getD block.noisy

/-- What an `AecmCore` keeps of the near end. -/
structure NearFilter where
  dfaCleanQDomain : Int
  dfaCleanQDomainOld : Int
  dfaNoisyQDomain : Int
  dfaNoisyQDomainOld : Int
  nearFilt : List Int
deriving Repr, DecidableEq

/-- `tmp16no1`, `tmp16no2` and `qDomainDiff`: the old value and the magnitude in the domain
they meet in, and the new domain from there. -/
def meet
    (dfaCleanQDomainDiff nearFilt : Int)
    (dfa : UInt16) : Int × Int × Int :=
  let zeros16 := normW16 nearFilt
  if zeros16 < dfaCleanQDomainDiff ∧ nearFilt ≠ 0 then
    let qDomainDiff := zeros16 - dfaCleanQDomainDiff
    (int16 (nearFilt * 2 ^ zeros16),
      int16 ((dfa.toNat : Int) >>> (-qDomainDiff).toNat), qDomainDiff)
  else
    (if dfaCleanQDomainDiff < 0 then
        nearFilt >>> (-dfaCleanQDomainDiff).toNat
      else int16 (nearFilt * 2 ^ dfaCleanQDomainDiff.toNat),
      int16 dfa.toNat, 0)

/-- The update of a bin of `nearFilt`. -/
def smoothNear
    (dfaCleanQDomainDiff nearFilt : Int)
    (dfa : UInt16) : Int :=
  let (tmp16no1, tmp16no2, qDomainDiff) :=
    meet dfaCleanQDomainDiff nearFilt dfa
  let tmp32no1 := tmp16no2 - tmp16no1
  let tmp16no2 := int16 (int16 (tmp32no1 >>> (4 : Nat)) + tmp16no1)
  let zeros16 := normW16 tmp16no2
  -- the guard is a bitwise `&` of the value with a truth value, which is its lowest bit
  if tmp16no2 % 2 ≠ 0 ∧ zeros16 < -qDomainDiff then 32767
  else if qDomainDiff < 0 then
    int16 (tmp16no2 * 2 ^ (-qDomainDiff).toNat)
  else tmp16no2 >>> qDomainDiff.toNat

namespace NearFilter

/-- The domains of a block. -/
def updateDomains (aecm : NearFilter) (block : NearBlock) : NearFilter :=
  let aecm :=
    { aecm with
      dfaNoisyQDomainOld := aecm.dfaNoisyQDomain
      dfaNoisyQDomain := block.noisy.qDomain }
  match block.clean with
  | none =>
      { aecm with
        dfaCleanQDomainOld := aecm.dfaNoisyQDomainOld
        dfaCleanQDomain := aecm.dfaNoisyQDomain }
  | some clean =>
      { aecm with
        dfaCleanQDomainOld := aecm.dfaCleanQDomain
        dfaCleanQDomain := clean.qDomain }

/-- The near end of `WebRtcAecm_ProcessBlock`: the domains, and `nearFilt`. -/
def processBlock (aecm : NearFilter) (block : NearBlock) : NearFilter :=
  let aecm := aecm.updateDomains block
  { aecm with
    nearFilt :=
      (aecm.nearFilt.zip block.dfaClean.magnitudes).map
        fun (nearFilt, dfa) =>
          smoothNear (aecm.dfaCleanQDomain - aecm.dfaCleanQDomainOld)
            nearFilt dfa }

/-- The near end after `WebRtcAecm_InitCore`. -/
def initCore : NearFilter where
  dfaCleanQDomain := 0
  dfaCleanQDomainOld := 0
  dfaNoisyQDomain := 0
  dfaNoisyQDomainOld := 0
  nearFilt := List.replicate partLen1 0

/-- A block always returns. -/
def perform (aecm : NearFilter) (block : NearBlock) : Option NearFilter :=
  some (aecm.processBlock block)

end NearFilter

/-! ## The exact value -/

/-- An old value in the new domain. -/
def rescaled (qDiff nearFilt : Int) : Int :=
  if qDiff < 0 then nearFilt / 2 ^ (-qDiff).toNat
  else nearFilt * 2 ^ qDiff.toNat

/-- The smoothed value in the new domain, at any size. -/
def smoothed (qDiff nearFilt : Int) (dfa : UInt16) : Int :=
  rescaled qDiff nearFilt + (dfa.toNat - rescaled qDiff nearFilt) / 16

/-- The bits that an old value lacks in the new domain. -/
def lostBits (qDiff nearFilt : Int) : Nat :=
  if nearFilt = 0 then 0 else (qDiff - normW16 nearFilt).toNat

/-- The smoothed value, truncated to the bits there are, and saturated. -/
def smoothedSaturated (qDiff nearFilt : Int) (dfa : UInt16) : Int :=
  min 32767
    (smoothed qDiff nearFilt dfa / 2 ^ lostBits qDiff nearFilt *
      2 ^ lostBits qDiff nearFilt)

namespace NearFilter

/-- What a block must do: every bin is smoothed from the domain it is in, saturated, and
not negative. -/
def BlockSmooths (aecm : NearFilter) (block : NearBlock) : Prop :=
  (aecm.processBlock block).nearFilt =
      (aecm.nearFilt.zip block.dfaClean.magnitudes).map
        (fun (nearFilt, dfa) =>
          smoothedSaturated (block.dfaClean.qDomain - aecm.dfaCleanQDomain)
            nearFilt dfa) ∧
    ∀ value ∈ (aecm.processBlock block).nearFilt, 0 ≤ value

/-- A magnitude fits 16 bits with a sign where it is not shifted, and a smoothed value that
saturates is odd where it has been shifted. -/
def BinFits (qDiff nearFilt : Int) (dfa : UInt16) : Prop :=
  if lostBits qDiff nearFilt = 0 then dfa.toNat < 32768
  else
    32768 ≤ smoothed qDiff nearFilt dfa →
      smoothed qDiff nearFilt dfa / 2 ^ lostBits qDiff nearFilt % 2 = 1

instance (qDiff nearFilt : Int) (dfa : UInt16) :
    Decidable (BinFits qDiff nearFilt dfa) :=
  inferInstanceAs
    (Decidable
      (if lostBits qDiff nearFilt = 0 then dfa.toNat < 32768
      else
        32768 ≤ smoothed qDiff nearFilt dfa →
          smoothed qDiff nearFilt dfa / 2 ^ lostBits qDiff nearFilt % 2 = 1))

/-- Without a clean near end, the block before must have had the same domain for both;
and every bin must fit. -/
def BlockFits (aecm : NearFilter) (block : NearBlock) : Prop :=
  (block.clean = none → aecm.dfaNoisyQDomain = aecm.dfaCleanQDomain) ∧
    ∀ bin ∈ aecm.nearFilt.zip block.dfaClean.magnitudes,
      BinFits (block.dfaClean.qDomain - aecm.dfaCleanQDomain) bin.1 bin.2

end NearFilter

/-! ## The norm of 16 bits -/

/-- The normalised value has 15 bits. -/
theorem normW16_normalises
    {value : Int}
    (positive : 0 < value)
    (below : value < 2 ^ 15) :
    2 ^ 14 ≤ value * 2 ^ normW16 value ∧
      value * 2 ^ normW16 value < 2 ^ 15 := by
  have start : (2 : Int) ^ (15 - 2 * 8) ≤ value * 2 ^ 0 := by
    rw [pow_zero, mul_one]
    exact positive
  have startBelow : value * 2 ^ 0 < (2 : Int) ^ 15 := by
    rw [pow_zero, mul_one]
    exact below
  obtain ⟨least8, below8⟩ :=
    leadingZeros_step 8 start (by decide) startBelow
  obtain ⟨least4, below4⟩ :=
    leadingZeros_step 4 least8 (by decide) below8
  obtain ⟨least2, below2⟩ :=
    leadingZeros_step 2 least4 (by decide) below4
  have normalised := leadingZeros_step 1 least2 (by decide) below2
  unfold normW16
  rw [if_neg positive.ne', if_neg (not_lt.mpr positive.le)]
  exact normalised

/-- A left shift keeps 15 bits just when the norm allows it. -/
theorem shift_fits_iff
    {value : Int}
    (positive : 0 < value)
    (below : value < 2 ^ 15)
    (shift : Nat) :
    value * 2 ^ shift < 2 ^ 15 ↔ shift ≤ normW16 value := by
  obtain ⟨least, fits⟩ := normW16_normalises positive below
  constructor
  · intro shifted
    by_contra above
    have larger : value * 2 ^ (normW16 value + 1) ≤ value * 2 ^ shift :=
      mul_le_mul_of_nonneg_left
        (pow_le_pow_right₀ (by decide) (by omega)) positive.le
    rw [pow_succ, ← mul_assoc] at larger
    omega
  · intro within
    calc
      value * 2 ^ shift
        ≤ value * 2 ^ normW16 value :=
          mul_le_mul_of_nonneg_left
            (pow_le_pow_right₀ (by decide) within) positive.le
      _ < 2 ^ 15 := fits

/-! ## One bin -/

/-- A value between an old value and a new one. -/
theorem sixteenth_bounds
    {old new bound : Int}
    (oldRange : 0 ≤ old ∧ old < bound)
    (newRange : 0 ≤ new ∧ new < bound) :
    0 ≤ old + (new - old) / 16 ∧ old + (new - old) / 16 < bound := by
  omega

/-- The arithmetic of the update where nothing leaves 16 bits. -/
theorem int16_sixteenth
    {old new : Int}
    (oldRange : 0 ≤ old ∧ old < 2 ^ 15)
    (newRange : -(2 ^ 15) ≤ new ∧ new < 2 ^ 15) :
    int16 (int16 ((new - old) >>> (4 : Nat)) + old) =
      old + (new - old) / 16 := by
  have part :
      int16 ((new - old) / (2 ^ 4 : Nat)) = (new - old) / (2 ^ 4 : Nat) :=
    int16_of_bounds (by omega) (by omega)
  rw [Int.shiftRight_eq_div_pow, part, int16_of_bounds (by omega) (by omega)]
  omega

/-- Truncating the smoothed value is smoothing truncated values. -/
theorem smoothed_ediv (old new : Int) (shift : Nat) :
    (old * 2 ^ shift + (new - old * 2 ^ shift) / 16) / 2 ^ shift =
      old + (new / 2 ^ shift - old) / 16 := by
  have positive : (0 : Int) < 2 ^ shift := Int.pow_pos (by decide)
  have whole :
      old * 2 ^ shift + (new - old * 2 ^ shift) / 16 =
        (new + 15 * (old * 2 ^ shift)) / 16 := by
    omega
  have parts :
      old + (new / 2 ^ shift - old) / 16 =
        (new / 2 ^ shift + 15 * old) / 16 := by
    omega
  rw [whole, parts, Int.ediv_ediv_of_nonneg (by decide), mul_comm 16,
    ← Int.ediv_ediv_of_nonneg positive.le, ← mul_assoc,
    Int.add_mul_ediv_right _ _ positive.ne']

/-- What a shift with a guard on the lowest bit makes of a value. -/
theorem guarded_shift_iff
    {value : Int}
    (range : 0 ≤ value ∧ value < 2 ^ 15)
    (shift : Nat) :
    (if value % 2 ≠ 0 ∧ normW16 value < shift then 32767
        else int16 (value * 2 ^ shift)) =
        min 32767 (value * 2 ^ shift) ↔
      (32768 ≤ value * 2 ^ shift → value % 2 = 1) := by
  rcases range.1.eq_or_lt with isZero | positive
  · simp [← isZero, int16]
  · have fits := shift_fits_iff positive range.2 shift
    rcases Int.lt_or_le (value * 2 ^ shift) 32768 with small | large
    · have within : shift ≤ normW16 value := fits.mp small
      have nonneg : 0 ≤ value * 2 ^ shift := by
        positivity
      rw [if_neg (by omega), int16_of_bounds (by omega) (by omega),
        min_eq_right (by omega)]
      exact iff_of_true rfl fun never => absurd never (not_le.mpr small)
    · have beyond : normW16 value < shift := by
        by_contra within
        exact absurd (fits.mpr (not_lt.mp within)) (not_lt.mpr large)
      rw [min_eq_left (by omega)]
      by_cases odd : value % 2 = 1
      · rw [if_pos ⟨by omega, beyond⟩]
        exact iff_of_true rfl fun _ => odd
      · rw [if_neg fun saturates => odd (by omega)]
        refine iff_of_false ?_ fun always => odd (always large)
        -- an even value stays even, whatever wraps
        have even : value * 2 ^ shift = 2 * (value / 2 * 2 ^ shift) := by
          rw [← mul_assoc, Int.mul_ediv_cancel' (by omega)]
        rw [even, int16, Int.bmod_def]
        omega

/-- Where the old value lacks bits, the update is a shift with a guard on the lowest bit. -/
theorem smoothNear_of_lost
    {nearFilt : Int}
    (positive : 0 < nearFilt)
    (below : nearFilt < 2 ^ 15)
    (dfa : UInt16)
    {lost : Nat}
    (isLost : 0 < lost) :
    smoothNear (normW16 nearFilt + lost) nearFilt dfa =
      (let value :=
        smoothed (normW16 nearFilt + lost) nearFilt dfa / 2 ^ lost
      if value % 2 ≠ 0 ∧ normW16 value < lost then 32767
      else int16 (value * 2 ^ lost)) ∧
    0 ≤ smoothed (normW16 nearFilt + lost) nearFilt dfa / 2 ^ lost ∧
    smoothed (normW16 nearFilt + lost) nearFilt dfa / 2 ^ lost < 2 ^ 15 := by
  obtain ⟨least, fits⟩ := normW16_normalises positive below
  have magnitude : dfa.toNat < 2 ^ 16 := dfa.toNat_lt
  have two : (2 : Int) ^ 1 ≤ 2 ^ lost :=
    pow_le_pow_right₀ (by decide) isLost
  have shifted :
      (0 : Int) ≤ dfa.toNat / 2 ^ lost ∧
        (dfa.toNat : Int) / 2 ^ lost < 2 ^ 15 := by
    constructor
    · positivity
    · exact Int.ediv_lt_of_lt_mul (by omega) (by omega)
  have exact :
      smoothed (normW16 nearFilt + lost) nearFilt dfa / 2 ^ lost =
        nearFilt * 2 ^ normW16 nearFilt +
          (dfa.toNat / 2 ^ lost - nearFilt * 2 ^ normW16 nearFilt) / 16 := by
    unfold smoothed rescaled
    rw [if_neg (by omega), ← smoothed_ediv, mul_assoc, ← pow_add]
    rfl
  have nonneg : 0 ≤ nearFilt * 2 ^ normW16 nearFilt :=
    least.trans' (by decide)
  have range := sixteenth_bounds ⟨nonneg, fits⟩ shifted
  rw [exact]
  refine ⟨?_, range⟩
  have direction :
      (normW16 nearFilt : Int) - (normW16 nearFilt + lost) = -lost := by
    omega
  have old :
      int16 (nearFilt * 2 ^ normW16 nearFilt) =
        nearFilt * 2 ^ normW16 nearFilt :=
    int16_of_bounds (by omega) (by omega)
  have new :
      int16 ((dfa.toNat : Int) / 2 ^ lost) = dfa.toNat / 2 ^ lost :=
    int16_of_bounds (by omega) (by omega)
  unfold smoothNear meet
  rw [if_pos ⟨by omega, positive.ne'⟩]
  simp only [direction, neg_neg, Int.toNat_natCast,
    Int.shiftRight_eq_div_pow (dfa.toNat : Int), Nat.cast_pow,
    Nat.cast_ofNat, old, new, if_pos (show -(lost : Int) < 0 by omega),
    Nat.cast_lt]
  rw [int16_sixteenth ⟨nonneg, fits⟩
    ⟨shifted.1.trans' (by decide), shifted.2⟩]

/-- Where it does not, nothing is shifted back. -/
theorem smoothNear_of_headroom
    {qDiff nearFilt : Int}
    (range : 0 ≤ nearFilt ∧ nearFilt < 2 ^ 15)
    (headroom : lostBits qDiff nearFilt = 0)
    (dfa : UInt16) :
    smoothNear qDiff nearFilt dfa =
        rescaled qDiff nearFilt +
          (int16 dfa.toNat - rescaled qDiff nearFilt) / 16 ∧
      0 ≤ rescaled qDiff nearFilt ∧ rescaled qDiff nearFilt < 2 ^ 15 := by
  have fits : 0 ≤ rescaled qDiff nearFilt ∧ rescaled qDiff nearFilt < 2 ^ 15 := by
    unfold rescaled
    split
    next =>
        exact
          ⟨Int.ediv_nonneg range.1 (by positivity),
            lt_of_le_of_lt (Int.ediv_le_self _ range.1) range.2⟩
    next upward =>
        rcases range.1.eq_or_lt with isZero | positive
        · simp [← isZero]
        · refine ⟨by positivity, ?_⟩
          rw [shift_fits_iff positive range.2]
          unfold lostBits at headroom
          rw [if_neg positive.ne'] at headroom
          omega
  refine ⟨?_, fits⟩
  have enough : ¬ ((normW16 nearFilt : Int) < qDiff ∧ nearFilt ≠ 0) := by
    rintro ⟨lacks, nonzero⟩
    unfold lostBits at headroom
    rw [if_neg nonzero] at headroom
    omega
  have old :
      (if qDiff < 0 then nearFilt >>> (-qDiff).toNat
        else int16 (nearFilt * 2 ^ qDiff.toNat)) =
        rescaled qDiff nearFilt := by
    unfold rescaled at fits ⊢
    split
    next =>
        rw [Int.shiftRight_eq_div_pow, Nat.cast_pow, Nat.cast_ofNat]
    next upward =>
        rw [if_neg upward] at fits
        exact int16_of_bounds (by omega) (by omega)
  have new :
      -(2 ^ 15) ≤ int16 dfa.toNat ∧ int16 dfa.toNat < 2 ^ 15 := by
    unfold int16
    rw [Int.bmod_def]
    omega
  unfold smoothNear meet
  rw [if_neg enough]
  simp only [old, neg_zero, lt_irrefl, if_false, Int.toNat_zero,
    Int.shiftRight_zero]
  rw [int16_sixteenth fits new, if_neg (by omega)]

/-- Truncating does not bring a value below 2^15. -/
theorem saturates_iff
    (value : Int)
    {lost : Nat}
    (atMost : lost ≤ 15) :
    32768 ≤ value / 2 ^ lost * 2 ^ lost ↔ 32768 ≤ value := by
  have positive : (0 : Int) < 2 ^ lost := Int.pow_pos (by decide)
  have split : (32768 : Int) = 2 ^ (15 - lost) * 2 ^ lost := by
    rw [← pow_add, Nat.sub_add_cancel atMost]
    rfl
  rw [split, mul_le_mul_iff_left₀ positive, Int.le_ediv_iff_mul_le positive]

/-- A bin is smoothed and saturated just when it fits. -/
theorem smoothNear_eq_iff
    {qDiff nearFilt : Int}
    (range : 0 ≤ nearFilt ∧ nearFilt < 2 ^ 15)
    (domains : qDiff ≤ 15)
    (dfa : UInt16) :
    smoothNear qDiff nearFilt dfa = smoothedSaturated qDiff nearFilt dfa ↔
      NearFilter.BinFits qDiff nearFilt dfa := by
  unfold NearFilter.BinFits smoothedSaturated
  split
  next headroom =>
      obtain ⟨update, old⟩ := smoothNear_of_headroom range headroom dfa
      have magnitude : dfa.toNat < 2 ^ 16 := dfa.toNat_lt
      unfold smoothed
      rw [update, headroom, pow_zero, Int.ediv_one, mul_one]
      by_cases fits : dfa.toNat < 32768
      · rw [int16_of_bounds (by omega) (by omega), min_eq_right (by omega)]
        exact iff_of_true rfl fits
      · -- a greater magnitude is negative after the conversion
        have wrapped : int16 dfa.toNat = dfa.toNat - 65536 := by
          unfold int16
          rw [Int.bmod_def]
          omega
        rw [wrapped]
        refine iff_of_false ?_ fits
        omega
  next lacks =>
      have positive : 0 < nearFilt := by
        refine lt_of_le_of_ne range.1 fun isZero => lacks ?_
        rw [← isZero]
        rfl
      have shifted :
          qDiff = normW16 nearFilt + lostBits qDiff nearFilt := by
        unfold lostBits at lacks ⊢
        rw [if_neg positive.ne'] at lacks ⊢
        omega
      generalize lostBits qDiff nearFilt = lost at shifted lacks ⊢
      subst shifted
      obtain ⟨update, value⟩ :=
        smoothNear_of_lost positive range.2 dfa (Nat.pos_of_ne_zero lacks)
      rw [update, guarded_shift_iff value,
        saturates_iff _ (show lost ≤ 15 by omega)]

namespace NearFilter

variable {aecm : NearFilter}

/-- What holds before every block. -/
structure Sound (aecm : NearFilter) : Prop where
  domain : 0 ≤ aecm.dfaCleanQDomain ∧ aecm.dfaCleanQDomain ≤ 15
  size : aecm.nearFilt.length = partLen1
  range : ∀ value ∈ aecm.nearFilt, 0 ≤ value ∧ value < 2 ^ 15

/-- The domains of a block: the new one is that of its near end, and the old one that of
the block before, where the near end is clean or both had the same. -/
theorem updateDomains_dfaCleanQDomain
    (aecm : NearFilter)
    (block : NearBlock) :
    (aecm.updateDomains block).dfaCleanQDomain = block.dfaClean.qDomain := by
  unfold updateDomains NearBlock.dfaClean
  cases block.clean with
  | none =>
      rfl
  | some clean =>
      rfl

theorem updateDomains_dfaCleanQDomainOld
    {block : NearBlock}
    (sameDomain :
      block.clean = none → aecm.dfaNoisyQDomain = aecm.dfaCleanQDomain) :
    (aecm.updateDomains block).dfaCleanQDomainOld =
      aecm.dfaCleanQDomain := by
  unfold updateDomains
  cases given : block.clean with
  | none =>
      exact sameDomain given
  | some clean =>
      rfl

theorem updateDomains_nearFilt
    (aecm : NearFilter)
    (block : NearBlock) :
    (aecm.updateDomains block).nearFilt = aecm.nearFilt := by
  unfold updateDomains
  cases block.clean with
  | none =>
      rfl
  | some clean =>
      rfl

/-- A smoothed and saturated value has 15 bits. -/
theorem smoothedSaturated_bounds
    {qDiff nearFilt : Int}
    (nonneg : 0 ≤ nearFilt)
    (dfa : UInt16) :
    0 ≤ smoothedSaturated qDiff nearFilt dfa ∧
      smoothedSaturated qDiff nearFilt dfa < 2 ^ 15 := by
  have old : 0 ≤ rescaled qDiff nearFilt := by
    unfold rescaled
    split <;> positivity
  have exact : 0 ≤ smoothed qDiff nearFilt dfa := by
    unfold smoothed
    omega
  have truncated :
      0 ≤
        smoothed qDiff nearFilt dfa / 2 ^ lostBits qDiff nearFilt *
          2 ^ lostBits qDiff nearFilt := by
    positivity
  unfold smoothedSaturated
  omega

/-- A block that fits smooths every bin, and keeps the invariant. -/
theorem Sound.processBlock
    (sound : aecm.Sound)
    {block : NearBlock}
    (fits : aecm.BlockFits block) :
    aecm.BlockSmooths block ∧ (aecm.processBlock block).Sound := by
  obtain ⟨sameDomain, binsFit⟩ := fits
  have domain := block.dfaClean.inDomain
  have lower := sound.domain.1
  have smoothed :
      (aecm.processBlock block).nearFilt =
        (aecm.nearFilt.zip block.dfaClean.magnitudes).map
          (fun (nearFilt, dfa) =>
            smoothedSaturated (block.dfaClean.qDomain - aecm.dfaCleanQDomain)
              nearFilt dfa) := by
    simp only [NearFilter.processBlock, updateDomains_dfaCleanQDomain,
      updateDomains_dfaCleanQDomainOld sameDomain, updateDomains_nearFilt]
    refine List.map_congr_left fun (nearFilt, dfa) member => ?_
    rw [smoothNear_eq_iff (sound.range _ (List.of_mem_zip member).1)
      (by omega)]
    exact binsFit _ member
  have range :
      ∀ value ∈ (aecm.processBlock block).nearFilt,
        0 ≤ value ∧ value < 2 ^ 15 := by
    rw [smoothed, List.forall_mem_map]
    exact fun (nearFilt, dfa) member =>
      smoothedSaturated_bounds
        (sound.range _ (List.of_mem_zip member).1).1 dfa
  refine ⟨⟨smoothed, fun value member => (range value member).1⟩, ?_⟩
  exact
    { domain := by
        rw [NearFilter.processBlock, updateDomains_dfaCleanQDomain]
        omega
      size := by
        rw [smoothed, List.length_map, List.length_zip, sound.size,
          block.dfaClean.size, Nat.min_self]
      range := range }

/-- The invariant holds after the initialization. -/
theorem Sound.initCore : initCore.Sound where
  domain := by decide
  size := List.length_replicate
  range value member := by
    rw [List.eq_of_mem_replicate member]
    decide

/--
In every run whose blocks fit, every block smooths all bins of `nearFilt`, saturated, and
leaves none of them negative.
-/
theorem run_smooths_of_fits
    {blocks : List NearBlock}
    (fits : AlongRun perform BlockFits initCore blocks) :
    AlongRun perform BlockSmooths initCore blocks := by
  refine AlongRun.of_guard Sound ?_ ?_ Sound.initCore fits
  · intro aecm block target sound blockFits performed
    cases performed
    exact (sound.processBlock blockFits).2
  · intro aecm block sound blockFits
    exact (sound.processBlock blockFits).1

/-- A block with a flat spectrum. -/
def flatBlock
    (magnitude : UInt16)
    (qDomain : Nat)
    (inDomain : qDomain ≤ 15) : NearBlock where
  noisy :=
    ⟨List.replicate partLen1 magnitude, qDomain, List.length_replicate,
      inDomain⟩
  clean := none

/-- A louder block in the domain of the initialization, and a quieter one. -/
theorem smooths_quieter :
    AlongRun perform BlockSmooths initCore
      [flatBlock 16000 0 (by decide), flatBlock 12000 2 (by decide)] := by
  refine
    run_smooths_of_fits
      ⟨⟨fun _ => rfl, by decide +kernel⟩, fun louder performed => ?_⟩
  cases performed
  exact ⟨⟨fun _ => rfl, by decide +kernel⟩, fun _ _ => trivial⟩

/-- The domain of the initialization is that of a block. -/
theorem initDomain_le : 0 ≤ 15 :=
  Nat.zero_le 15

/-- Blocks in the domain of the initialization that bring every bin to 19404. -/
def loudBlocks : List NearBlock :=
  List.replicate 40 (flatBlock 21000 0 initDomain_le)

/--
With every bin at 19404, a domain with one more bit has no headroom for the old value.
The smoothed value of a magnitude of 20000 is 37632 there, which is 18816 before the shift:
an even value, so that it is not saturated and becomes negative.
-/
theorem not_run_smooths_even :
    ¬ ∀ blocks, AlongRun perform BlockSmooths initCore blocks := by
  intro claimed
  have reached :
      loudBlocks.foldlM perform initCore =
        some ⟨0, 0, 0, 0, List.replicate partLen1 19404⟩ := by
    decide +kernel
  have last :=
    (claimed (loudBlocks ++ [flatBlock 20000 1 (by decide)])).last reached
  exact absurd last.2 (by decide +kernel)

end NearFilter

end ApmSdk.Aecm
