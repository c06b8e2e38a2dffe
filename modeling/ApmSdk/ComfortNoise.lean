import ApmSdk.CIntegers
import ApmSdk.CheckedComputation
import ApmSdk.Normalisation
import Mathlib.Algebra.Order.Ring.Int
import Mathlib.Tactic.Positivity

namespace ApmSdk.Aecm

/-!
# The noise estimate for comfort noise

`ComfortNoise` tracks a noise level in every frequency bin, in a domain that does not
change while that of the near end does.  The estimate grows by a factor, decays, and is
capped relative to the shift of the block.  Every product, left shift and narrowing
conversion is checked here, so that a call returns just when none of them wraps.
-/

/-- `PART_LEN1` -/
abbrev partLen1 : Nat := 65

/-- `ONE_Q14` -/
abbrev oneQ14 : Int := 2 ^ 14

/-- `kNoiseEstQDomain` -/
abbrev kNoiseEstQDomain : Nat := 15

/-- `kNoiseEstIncCount` -/
abbrev kNoiseEstIncCount : Int := 5

/-- The noise estimate of one bin, with `noiseEstTooLowCtr` and `noiseEstTooHighCtr`. -/
structure NoiseBin where
  noiseEst : Int
  tooLowCtr : Int
  tooHighCtr : Int
deriving Repr, DecidableEq

/-- What the noise tracking of an `AecmCore` keeps. -/
structure NoiseTracking where
  noiseEstCtr : Int
  bins : List NoiseBin
deriving Repr, DecidableEq

/-- What a block gives to `ComfortNoise`: the magnitudes of the near end in their domain,
which leaves a shift of 0 to 15, and the gains of the Wiener filter. -/
structure NoiseBlock where
  dfa : List UInt16
  lambda : List Int
  dfaCleanQDomain : Nat
  magnitudes : dfa.length = partLen1
  gains : lambda.length = partLen1
  inDomain : dfaCleanQDomain ≤ kNoiseEstQDomain
  gainsInRange : ∀ gain ∈ lambda, 0 ≤ gain ∧ gain ≤ oneQ14

namespace NoiseBin

/-- The update of `noiseEst`. -/
def track
    (minTrackShift : Nat)
    (outLShift32 : Int)
    (bin : NoiseBin) : Option NoiseBin :=
  if outLShift32 < bin.noiseEst then
    if bin.noiseEst < 2 ^ minTrackShift then
      -- small values decrease by one every few blocks
      if kNoiseEstIncCount ≤ bin.tooHighCtr + 1 then do
        let noiseEst ← checked int32 (bin.noiseEst - 1)
        return ⟨noiseEst, 0, 0⟩
      else some ⟨bin.noiseEst, 0, bin.tooHighCtr + 1⟩
    else do
      let difference ← checked int32 (bin.noiseEst - outLShift32)
      let noiseEst ←
        checked int32 (bin.noiseEst - difference >>> minTrackShift)
      return ⟨noiseEst, 0, bin.tooHighCtr⟩
  else if 0 < bin.noiseEst >>> (19 : Nat) then do
    let noiseEst ← checked int32 (bin.noiseEst >>> (11 : Nat) * 2049)
    return ⟨noiseEst, bin.tooLowCtr, 0⟩
  else if 0 < bin.noiseEst >>> (11 : Nat) then do
    let product ← checked int32 (bin.noiseEst * 2049)
    return ⟨product >>> (11 : Nat), bin.tooLowCtr, 0⟩
  else if kNoiseEstIncCount ≤ bin.tooLowCtr + 1 then do
    let noiseEst ←
      checked int32 (bin.noiseEst + (bin.noiseEst >>> (9 : Nat) + 1))
    return ⟨noiseEst, 0, 0⟩
  else some ⟨bin.noiseEst, bin.tooLowCtr + 1, 0⟩

/-- The update from a magnitude of the near end. -/
def trackMagnitude
    (minTrackShift shiftFromNearToNoise : Nat)
    (dfa : UInt16)
    (bin : NoiseBin) : Option NoiseBin := do
  let outLShift32 ←
    checked int32 ((dfa.toNat : Int) * 2 ^ shiftFromNearToNoise)
  bin.track minTrackShift outLShift32

/-- The estimate in the domain of the near end, and capped there. -/
def capped
    (shiftFromNearToNoise : Nat)
    (bin : NoiseBin) : Option (NoiseBin × Int) :=
  let tmp32 := bin.noiseEst >>> shiftFromNearToNoise
  if 32767 < tmp32 then do
    let noiseEst ← checked int32 (32767 * 2 ^ shiftFromNearToNoise)
    return ({ bin with noiseEst }, 32767)
  else some (bin, tmp32)

/-- The cap, and `noiseRShift16` after it. -/
def scale
    (shiftFromNearToNoise : Nat)
    (lambda : Int)
    (bin : NoiseBin) : Option (NoiseBin × Int) := do
  let (bin, tmp32) ← bin.capped shiftFromNearToNoise
  let noiseRShift16 ← checked int16 tmp32
  let tmp16 ← checked int16 (oneQ14 - lambda)
  let product ← checked int32 (tmp16 * noiseRShift16)
  let noiseRShift16 ← checked int16 (product >>> (14 : Nat))
  return (bin, noiseRShift16)

end NoiseBin

namespace NoiseTracking

/-- `noiseEstCtr` in this block, and the shift of the tracking. -/
def countBlock (noiseEstCtr : Int) : Option (Int × Nat) :=
  if noiseEstCtr < 100 then do
    let noiseEstCtr ← checked int16 (noiseEstCtr + 1)
    return (noiseEstCtr, 6)
  else some (noiseEstCtr, 9)

/-- The noise tracking of `ComfortNoise`, and `noiseRShift16`, the level of the noise that
is generated. -/
def comfortNoise
    (aecm : NoiseTracking)
    (block : NoiseBlock) : Option (NoiseTracking × List Int) := do
  let shiftFromNearToNoise := kNoiseEstQDomain - block.dfaCleanQDomain
  let (noiseEstCtr, minTrackShift) ← countBlock aecm.noiseEstCtr
  let tracked ←
    (aecm.bins.zip block.dfa).mapM fun (bin, dfa) =>
      bin.trackMagnitude minTrackShift shiftFromNearToNoise dfa
  let scaled ←
    (tracked.zip block.lambda).mapM fun (bin, lambda) =>
      bin.scale shiftFromNearToNoise lambda
  return (⟨noiseEstCtr, scaled.map Prod.fst⟩, scaled.map Prod.snd)

/-- Blocks one after another. -/
def run
    (aecm : NoiseTracking)
    (blocks : List NoiseBlock) : Option NoiseTracking :=
  blocks.foldlM (fun aecm block => (aecm.comfortNoise block).map Prod.fst) aecm

/-- The first levels of `WebRtcAecm_InitCore`, with `tmp32` and `tmp16` after them. -/
def pinkNoise : Nat → List Int × Int × Int
  | 0 => ([], partLen1 * partLen1, partLen1)
  | count + 1 =>
      let (noiseEst, tmp32, tmp16) := pinkNoise count
      (noiseEst ++ [tmp32 * 2 ^ 8], tmp32 - ((tmp16 - 1) * 2 + 1), tmp16 - 1)

/-- The noise fields after `WebRtcAecm_InitCore`. -/
def initCore : NoiseTracking where
  noiseEstCtr := 0
  bins :=
    let (noiseEst, tmp32, _) := pinkNoise (partLen1 / 2 - 1)
    (noiseEst ++
        List.replicate (partLen1 - noiseEst.length) (tmp32 * 2 ^ 8)).map
      (⟨·, 0, 0⟩)

end NoiseTracking

/-! ## What stays in range -/

namespace NoiseBin

/-- What the cap leaves: the estimate is less than 2^30, so that none of the three regimes
takes it out of `int32_t` in the next block. -/
def Capped (bin : NoiseBin) : Prop :=
  0 ≤ bin.noiseEst ∧ bin.noiseEst < 2 ^ 30

/-- A value of the estimate after it has been tracked. -/
def Tracked (bin : NoiseBin) : Prop :=
  0 ≤ bin.noiseEst ∧ bin.noiseEst < 2 ^ 31

instance (bin : NoiseBin) : Decidable bin.Capped :=
  inferInstanceAs (Decidable (_ ∧ _))

variable {bin : NoiseBin}

/-- A capped estimate is tracked without wrapping, in each of its three regimes. -/
theorem Capped.track
    (capped : bin.Capped)
    {outLShift32 : Int}
    (nonneg : 0 ≤ outLShift32)
    (minTrackShift : Nat) :
    Returns (bin.track minTrackShift outLShift32) Tracked := by
  obtain ⟨lower, upper⟩ := capped
  unfold NoiseBin.track Tracked
  simp only [Int.shiftRight_eq_div_pow bin.noiseEst]
  split
  next above =>
    split
    next =>
      split
      next =>
          refine .checked (int32_of_bounds (by omega) (by omega)) ?_
          exact .pure (by dsimp only; omega)
      next =>
          exact .pure (by dsimp only; omega)
    next =>
        -- the difference is positive, and so is what is left of the estimate
        have part :=
          shiftRight_bounds
            (show 0 ≤ bin.noiseEst - outLShift32 by omega) minTrackShift
        refine .checked (int32_of_bounds (by omega) (by omega)) ?_
        refine .checked (int32_of_bounds (by omega) (by omega)) ?_
        exact .pure (by dsimp only; omega)
  next below =>
    split
    next large =>
        refine .checked (int32_of_bounds (by omega) (by omega)) ?_
        exact .pure (by dsimp only; omega)
    next =>
      split
      next =>
          refine .checked (int32_of_bounds (by omega) (by omega)) ?_
          exact .pure (by simp only [Int.shiftRight_eq_div_pow]; omega)
      next =>
        split
        next =>
            refine .checked (int32_of_bounds (by omega) (by omega)) ?_
            exact .pure (by dsimp only; omega)
        next =>
            exact .pure (by dsimp only; omega)

/-- A magnitude reaches at most 65535 shifted by 15. -/
theorem Capped.trackMagnitude
    (capped : bin.Capped)
    (dfa : UInt16)
    (minTrackShift : Nat)
    {shiftFromNearToNoise : Nat}
    (inDomain : shiftFromNearToNoise ≤ 15) :
    Returns (bin.trackMagnitude minTrackShift shiftFromNearToNoise dfa)
      Tracked := by
  have magnitude : dfa.toNat < 2 ^ 16 := dfa.toNat_lt
  have power : 2 ^ shiftFromNearToNoise ≤ 2 ^ 15 :=
    Nat.pow_le_pow_right (by decide) inDomain
  have product :
      dfa.toNat * 2 ^ shiftFromNearToNoise ≤ (2 ^ 16 - 1) * 2 ^ 15 :=
    Nat.mul_le_mul (by omega) power
  have shifted :
      ((dfa.toNat : Int) * 2 ^ shiftFromNearToNoise) =
        (dfa.toNat * 2 ^ shiftFromNearToNoise : Nat) := by
    rw [Nat.cast_mul, Nat.cast_pow, Nat.cast_ofNat]
  unfold NoiseBin.trackMagnitude
  rw [shifted]
  refine .checked (int32_of_bounds (by omega) (by omega)) ?_
  exact capped.track (by omega) minTrackShift

/-- The cap keeps 15 bits of the estimate in the domain of the near end. -/
theorem Tracked.capped
    (tracked : bin.Tracked)
    {shiftFromNearToNoise : Nat}
    (inDomain : shiftFromNearToNoise ≤ 15) :
    Returns (bin.capped shiftFromNearToNoise) fun (next, tmp32) =>
      next.Capped ∧ 0 ≤ tmp32 ∧ tmp32 ≤ 32767 := by
  obtain ⟨lower, upper⟩ := tracked
  have power : (2 : Int) ^ shiftFromNearToNoise ≤ 2 ^ 15 :=
    pow_le_pow_right₀ (by decide) inDomain
  have positive : (0 : Int) < 2 ^ shiftFromNearToNoise := by
    positivity
  unfold NoiseBin.capped Capped
  dsimp only
  split
  next above =>
      refine .checked (int32_of_bounds (by omega) (by omega)) ?_
      exact .pure (by dsimp only; omega)
  next below =>
      have nonneg :=
        (shiftRight_bounds lower shiftFromNearToNoise).1
      refine .pure ⟨⟨lower, ?_⟩, nonneg, by omega⟩
      rw [Int.shiftRight_eq_div_pow, Nat.cast_pow, Nat.cast_ofNat,
        not_lt] at below
      have bound :=
        Int.lt_mul_of_ediv_lt positive (Int.lt_add_one_of_le below)
      calc
        bin.noiseEst < (32767 + 1) * 2 ^ shiftFromNearToNoise := bound
        _ ≤ (32767 + 1) * 2 ^ 15 := by omega
        _ = 2 ^ 30 := by decide

/-- A tracked estimate is capped and scaled without wrapping. -/
theorem Tracked.scale
    (tracked : bin.Tracked)
    {shiftFromNearToNoise : Nat}
    (inDomain : shiftFromNearToNoise ≤ 15)
    {lambda : Int}
    (gain : 0 ≤ lambda ∧ lambda ≤ oneQ14) :
    Returns (bin.scale shiftFromNearToNoise lambda) fun (next, _) =>
      next.Capped := by
  unfold NoiseBin.scale
  refine (tracked.capped inDomain).bind ?_
  rintro ⟨next, tmp32⟩ ⟨capped, nonneg, upper⟩
  have left : 0 ≤ oneQ14 - lambda := Int.sub_nonneg_of_le gain.2
  have atMost : oneQ14 - lambda ≤ 2 ^ 14 := Int.sub_le_self _ gain.1
  have product : (oneQ14 - lambda) * tmp32 ≤ 2 ^ 14 * 32767 :=
    Int.mul_le_mul atMost upper nonneg (by decide)
  have positive : 0 ≤ (oneQ14 - lambda) * tmp32 :=
    Int.mul_nonneg left nonneg
  refine .checked (int16_of_bounds (by omega) (by omega)) ?_
  refine .checked (int16_of_bounds (by omega) (by omega)) ?_
  refine .checked (int32_of_bounds (by omega) (by omega)) ?_
  rw [Int.shiftRight_eq_div_pow]
  refine .checked (int16_of_bounds (by omega) (by omega)) ?_
  exact .pure capped

end NoiseBin

namespace NoiseTracking

/-- What holds before every block. -/
structure Sound (aecm : NoiseTracking) : Prop where
  counter : 0 ≤ aecm.noiseEstCtr ∧ aecm.noiseEstCtr ≤ 100
  size : aecm.bins.length = partLen1
  capped : ∀ bin ∈ aecm.bins, bin.Capped

/-- The counter stops at 100. -/
theorem returns_countBlock
    {noiseEstCtr : Int}
    (counter : 0 ≤ noiseEstCtr ∧ noiseEstCtr ≤ 100) :
    Returns (countBlock noiseEstCtr) fun (next, _) =>
      0 ≤ next ∧ next ≤ 100 := by
  unfold countBlock
  split
  next =>
      refine .checked (int16_of_bounds (by omega) (by omega)) ?_
      exact .pure (by dsimp only; omega)
  next =>
      exact .pure counter

/-- A block runs without wrapping and leaves the estimates capped. -/
theorem Sound.comfortNoise
    {aecm : NoiseTracking}
    (sound : aecm.Sound)
    (block : NoiseBlock) :
    Returns (aecm.comfortNoise block) fun (next, _) => next.Sound := by
  have inDomain : kNoiseEstQDomain - block.dfaCleanQDomain ≤ 15 :=
    Nat.sub_le _ _
  unfold NoiseTracking.comfortNoise
  refine (returns_countBlock sound.counter).bind ?_
  rintro ⟨noiseEstCtr, minTrackShift⟩ counter
  refine
    Returns.bind
      (Returns.mapM fun (bin, dfa) member =>
        (sound.capped bin (List.of_mem_zip member).1).trackMagnitude dfa
          minTrackShift inDomain)
      ?_
  rintro tracked ⟨trackedSize, allTracked⟩
  refine
    Returns.bind
      (Returns.mapM fun (bin, lambda) member =>
        (allTracked bin (List.of_mem_zip member).1).scale inDomain
          (block.gainsInRange lambda (List.of_mem_zip member).2))
      ?_
  rintro scaled ⟨scaledSize, allScaled⟩
  refine .pure ⟨counter, ?_, ?_⟩
  · rw [List.length_zip, sound.size, block.magnitudes] at trackedSize
    rw [List.length_zip, trackedSize, block.gains] at scaledSize
    simpa using scaledSize
  · intro bin member
    obtain ⟨entry, inScaled, rfl⟩ := List.mem_map.mp member
    exact allScaled entry inScaled

/-- The same without the levels that are generated. -/
theorem Sound.performed
    {aecm : NoiseTracking}
    (sound : aecm.Sound)
    (block : NoiseBlock) :
    Returns ((aecm.comfortNoise block).map Prod.fst) Sound := by
  obtain ⟨⟨next, levels⟩, returned, kept⟩ := sound.comfortNoise block
  rw [returned]
  exact .pure kept

/-- The levels of the initialization are capped. -/
theorem Sound.initCore : initCore.Sound where
  counter := by decide
  size := by decide +kernel
  capped := by decide +kernel

/--
In every run from the initialization no product, left shift or narrowing conversion of the
noise tracking wraps, and every estimate stays in [0, 2^31).
-/
theorem returns_run (blocks : List NoiseBlock) :
    Returns (NoiseTracking.initCore.run blocks) fun aecm =>
      aecm.bins.length = partLen1 ∧
        ∀ bin ∈ aecm.bins, 0 ≤ bin.noiseEst ∧ bin.noiseEst < 2 ^ 31 := by
  have runs : Returns (NoiseTracking.initCore.run blocks) Sound :=
    Returns.foldlM Sound Sound.initCore
      fun aecm block _ sound => sound.performed block
  refine runs.imp fun aecm sound => ⟨sound.size, fun bin member => ?_⟩
  obtain ⟨lower, upper⟩ := sound.capped bin member
  exact ⟨lower, by omega⟩

end NoiseTracking

end ApmSdk.Aecm
