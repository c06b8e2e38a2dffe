import ApmSdk.Normalisation
import Mathlib.Data.Nat.Size

namespace ApmSdk.SignalEnergy

/-!
# The energy of a vector

`WebRtcSpl_Energy` adds the squares of samples, each shifted to the right so far that the sum
fits 32 bits.  How far is found from the largest sample and the number of samples.
-/

/-- A test of upper bits, with the mask as a comparison. -/
def sizeTest (n bits shift : Nat) : Nat :=
  if 2 ^ shift ≤ n >>> bits then bits + shift else bits

/-- `WebRtcSpl_GetSizeInBits` -/
def getSizeInBits (n : Nat) : Nat :=
  let bits := [16, 8, 4, 2, 1].foldl (sizeTest n) 0
  if (n >>> bits) % 2 = 1 then bits + 1 else bits

/-- `sabs`: a negative sample changes its sign in 16 bits. -/
def sabs (sample : Int) : Int :=
  if 0 < sample then sample else int16 (-sample)

/-- `smax` behind a sample. -/
def nextLargest (smax sample : Int) : Int :=
  if smax < sabs sample then sabs sample else smax

/-- `smax` behind the loop. -/
def largest (inVector : List Int) : Int :=
  inVector.foldl nextLargest (-1)

/-- `WebRtcSpl_GetScalingSquare` -/
def getScalingSquare (inVector : List Int) (times : Nat) : Nat :=
  let nbits := getSizeInBits (times % 2 ^ 32)
  let smax := largest inVector
  let t := normW32 (smax * smax)
  if smax = 0 then 0
  else if nbits < t then 0
  else nbits - t

/-- A square as it is added. -/
def shiftedSquare (scaling : Nat) (sample : Int) : Int :=
  (sample * sample) >>> scaling

/-- An addition to the sum. -/
def accumulate (scaling : Nat) (en sample : Int) : Int :=
  int32 (en + shiftedSquare scaling sample)

/-- `WebRtcSpl_Energy`: the sum and the scale factor. -/
def energy (vector : List Int) : Int × Nat :=
  let scaling := getScalingSquare vector vector.length
  (vector.foldl (accumulate scaling) 0, scaling)

/-- The exact sum of the squares. -/
def sumOfSquares (vector : List Int) : Int :=
  (vector.map fun sample => sample * sample).sum

/-- No addition overflows, and the sum is the exact one up to what the shifts cut off. -/
structure Approximates (vector : List Int) : Prop where
  additions :
    ∀ added sample later,
      vector = added ++ sample :: later →
      added.foldl (accumulate (energy vector).2) 0 +
          shiftedSquare (energy vector).2 sample < 2 ^ 31
  nonneg : 0 ≤ (energy vector).1
  notAbove : (energy vector).1 * 2 ^ (energy vector).2 ≤ sumOfSquares vector
  notFarBelow :
    sumOfSquares vector - vector.length * 2 ^ (energy vector).2 <
      (energy vector).1 * 2 ^ (energy vector).2

/-- The larger magnitude, unless the sample is the least one of 16 bits. -/
def nextPeak (peak : Nat) (sample : Int) : Nat :=
  if sample = -32768 then peak else max peak sample.natAbs

/-- The largest magnitude of the samples other than the least one of 16 bits. -/
def peak (vector : List Int) : Nat :=
  vector.foldl nextPeak 0

/-- How many bits the product of the square of this magnitude and the length has more than 31. -/
def excessBits (vector : List Int) : Nat :=
  vector.length.size + (peak vector ^ 2).size - 31

/-- The squares of all samples, shifted by these bits, sum up to less than 31 bits. -/
def Fits (vector : List Int) : Prop :=
  (vector.map (shiftedSquare (excessBits vector))).sum < 2 ^ 31

instance (vector : List Int) : Decidable (Fits vector) :=
  inferInstanceAs (Decidable (_ < _))

/-! ## Sizes in bits -/

/-- What the tests of a size in bits keep. -/
structure SizeTest (n bits rest : Nat) : Prop where
  reached : bits = 0 ∨ 2 ^ bits ≤ n
  below : n < 2 ^ (bits + rest)

/-- A test halves the bits that are left. -/
theorem SizeTest.step
    {n bits shift : Nat}
    (test : SizeTest n bits (shift + shift)) :
    SizeTest n (sizeTest n bits shift) shift := by
  have decided : 2 ^ shift ≤ n >>> bits ↔ 2 ^ (bits + shift) ≤ n := by
    rw [Nat.shiftRight_eq_div_pow, Nat.le_div_iff_mul_le (Nat.two_pow_pos bits), ← Nat.pow_add,
      Nat.add_comm]
  have below := test.below
  rw [← Nat.add_assoc] at below
  unfold sizeTest
  split
  next large =>
      exact ⟨.inr (decided.mp large), below⟩
  next small =>
      exact ⟨test.reached, Nat.not_le.mp fun reached => small (decided.mpr reached)⟩

/-- The last test tells whether the last bit is set. -/
theorem SizeTest.last
    {n bits : Nat}
    (test : SizeTest n bits 1) :
    (if (n >>> bits) % 2 = 1 then bits + 1 else bits) = n.size := by
  have below : n.size ≤ bits + 1 := Nat.size_le.mpr test.below
  have small : n >>> bits < 2 := by
    rw [Nat.shiftRight_eq_div_pow, Nat.div_lt_iff_lt_mul (Nat.two_pow_pos bits),
      Nat.mul_comm, ← Nat.pow_succ]
    exact test.below
  have decided : 1 ≤ n >>> bits ↔ 2 ^ bits ≤ n := by
    rw [Nat.shiftRight_eq_div_pow, Nat.le_div_iff_mul_le (Nat.two_pow_pos bits), Nat.one_mul]
  generalize n >>> bits = upper at small decided ⊢
  split
  next set_ =>
      have larger := Nat.lt_size.mpr (decided.mp (by omega))
      omega
  next clear_ =>
      have smaller : n < 2 ^ bits := by
        by_contra reached
        have set_ := decided.mpr (Nat.not_lt.mp reached)
        omega
      have none_ : bits = 0 := test.reached.resolve_right (Nat.not_le.mpr smaller)
      rw [none_] at smaller ⊢
      exact (Nat.le_zero.mp (Nat.size_le.mpr smaller)).symm

/-- The tests find the number of bits of a word. -/
theorem getSizeInBits_eq
    {n : Nat}
    (small : n < 2 ^ 32) :
    getSizeInBits n = n.size := by
  have start : SizeTest n 0 (16 + 16) := ⟨.inl rfl, small⟩
  have by16 : SizeTest n _ (8 + 8) := start.step
  have by8 : SizeTest n _ (4 + 4) := by16.step
  have by4 : SizeTest n _ (2 + 2) := by8.step
  have by2 : SizeTest n _ (1 + 1) := by4.step
  have by1 := by2.step
  rw [getSizeInBits, List.foldl_cons, List.foldl_cons, List.foldl_cons, List.foldl_cons,
    List.foldl_cons, List.foldl_nil]
  exact by1.last

/-- The norm of a positive word counts the bits that it leaves free. -/
theorem normW32_eq
    {a : Nat}
    (positive : 0 < a)
    (small : a < 2 ^ 31) :
    normW32 a + a.size = 31 := by
  have normed : normW32 a = leadingZeros 31 a := by
    unfold normW32
    rw [if_neg (by omega), if_neg (by omega)]
  have zeros := leadingZeros_le 31 a
  obtain ⟨least, below⟩ :=
    leadingZeros_normalises (show 16 ≤ 31 by decide) (by decide)
      (show (0 : Int) < a by omega) (show (a : Int) < 2 ^ 31 by exact_mod_cast small)
  rw [normed]
  generalize leadingZeros 31 (a : Int) = norm at zeros least below ⊢
  have leastNat : 2 ^ 30 ≤ a * 2 ^ norm := by exact_mod_cast least
  have belowNat : a * 2 ^ norm < 2 ^ 31 := by exact_mod_cast below
  have few : norm ≤ 30 := by
    by_contra many
    have power : 2 ^ 31 ≤ 2 ^ norm := Nat.pow_le_pow_right (by decide) (by omega)
    have tooLarge : 1 * 2 ^ 31 ≤ a * 2 ^ norm := Nat.mul_le_mul positive power
    omega
  have notMore : a.size ≤ 31 - norm := by
    rw [Nat.size_le]
    refine Nat.lt_of_mul_lt_mul_right (a := 2 ^ norm) ?_
    rwa [← Nat.pow_add, Nat.sub_add_cancel zeros]
  have notLess : 30 - norm < a.size := by
    rw [Nat.lt_size]
    refine Nat.le_of_mul_le_mul_right ?_ (Nat.two_pow_pos norm)
    rwa [← Nat.pow_add, Nat.sub_add_cancel few]
  omega

/-! ## The scale -/

section Scale

variable {vector : List Int}

/-- The samples are of 16 bits. -/
def Samples16 (vector : List Int) : Prop :=
  ∀ sample ∈ vector, -(2 ^ 15) ≤ sample ∧ sample < 2 ^ 15

/-- The loop finds the largest magnitude, and leaves the start value where there is no sample
other than the least one. -/
theorem foldl_nextLargest
    (samples : Samples16 vector)
    {smax : Int}
    {found : Nat}
    (start : smax = found ∨ smax = -1 ∧ found = 0) :
    let last := vector.foldl nextLargest smax
    let lastFound := vector.foldl nextPeak found
    last = lastFound ∨ last = -1 ∧ lastFound = 0 := by
  induction vector generalizing smax found with
  | nil =>
      exact start
  | cons sample rest inductionHypothesis =>
      obtain ⟨⟨lower, upper⟩, restSamples⟩ := List.forall_mem_cons.mp samples
      refine inductionHypothesis restSamples ?_
      by_cases least : sample = -32768
      · have wrapped : sabs sample = -32768 := by
          rw [least]
          decide
        rw [nextPeak, if_pos least, nextLargest, wrapped, if_neg (by omega)]
        exact start
      · have magnitude : sabs sample = sample.natAbs := by
          unfold sabs
          split
          · omega
          · rw [int16_of_bounds (by omega) (by omega)]
            omega
        rw [nextPeak, if_neg least, nextLargest, magnitude]
        split <;> omega

theorem largest_eq (samples : Samples16 vector) :
    largest vector = peak vector ∨ largest vector = -1 ∧ peak vector = 0 :=
  foldl_nextLargest samples (.inr ⟨rfl, rfl⟩)

/-- What the loop starts with and every sample but the least one is within the peak. -/
theorem foldl_peak_le
    {found bound : Nat}
    (start : found ≤ bound)
    (within : ∀ sample ∈ vector, sample ≠ -32768 → sample.natAbs ≤ bound) :
    vector.foldl nextPeak found ≤ bound := by
  induction vector generalizing found with
  | nil =>
      exact start
  | cons sample rest inductionHypothesis =>
      obtain ⟨head, tail⟩ := List.forall_mem_cons.mp within
      refine inductionHypothesis ?_ tail
      unfold nextPeak
      split
      · exact start
      · exact Nat.max_le.mpr ⟨start, head ‹_›⟩

theorem le_foldl_peak
    (found : Nat) :
    let last := vector.foldl nextPeak found
    found ≤ last ∧ ∀ sample ∈ vector, sample ≠ -32768 → sample.natAbs ≤ last := by
  induction vector generalizing found with
  | nil =>
      exact ⟨Nat.le_refl _, fun _ member => absurd member List.not_mem_nil⟩
  | cons sample rest inductionHypothesis =>
      obtain ⟨start, tail⟩ :=
        inductionHypothesis (nextPeak found sample)
      refine ⟨Nat.le_trans ?_ start, List.forall_mem_cons.mpr ⟨fun other => ?_, tail⟩⟩
      · unfold nextPeak
        split
        · exact Nat.le_refl _
        · exact Nat.le_max_left _ _
      · have within : sample.natAbs ≤ nextPeak found sample := by
          rw [nextPeak, if_neg other]
          exact Nat.le_max_right _ _
        exact Nat.le_trans within start

theorem peak_lt (samples : Samples16 vector) : peak vector < 2 ^ 15 := by
  have atMost : peak vector ≤ 32767 := by
    refine foldl_peak_le (by decide) fun sample member other => ?_
    obtain ⟨lower, upper⟩ := samples sample member
    omega
  omega

/-- The scale is the number of bits that the largest square times the length has in excess. -/
theorem getScalingSquare_eq
    (samples : Samples16 vector)
    (isShort : vector.length < 2 ^ 30) :
    getScalingSquare vector vector.length = excessBits vector := by
  have lengthSize : vector.length.size ≤ 30 := Nat.size_le.mpr isShort
  have bits : getSizeInBits (vector.length % 2 ^ 32) = vector.length.size := by
    rw [Nat.mod_eq_of_lt (by omega), getSizeInBits_eq (by omega)]
  have small := peak_lt samples
  unfold getScalingSquare excessBits
  dsimp only
  rw [bits]
  rcases largest_eq samples with found | ⟨none_, zero⟩
  · rw [found]
    rcases Nat.eq_zero_or_pos (peak vector) with zero | positive
    · rw [zero, Int.natCast_zero, if_pos rfl]
      simp only [Nat.zero_pow (show 0 < 2 by decide), Nat.size_zero]
      omega
    · have square : ((peak vector : Int) * peak vector) = ((peak vector ^ 2 : Nat) : Int) := by
        push_cast
        ring
      have squareSmall : peak vector ^ 2 < 2 ^ 31 := by
        have power : peak vector ^ 2 ≤ (2 ^ 15) ^ 2 := Nat.pow_le_pow_left small.le 2
        omega
      have norm := normW32_eq (Nat.pow_pos (n := 2) positive) squareSmall
      rw [square, if_neg (by omega)]
      split <;> omega
  · rw [none_, zero, if_neg (by decide)]
    have norm : normW32 (-1 * -1) = 30 := by decide
    rw [norm]
    simp only [Nat.zero_pow (show 0 < 2 by decide), Nat.size_zero]
    split <;> omega

end Scale

/-! ## The sum -/

section Sum

variable {vector : List Int}

/-- The sum of the squares as they are added. -/
def sumShifted (scaling : Nat) (vector : List Int) : Int :=
  (vector.map (shiftedSquare scaling)).sum

theorem shiftedSquare_nonneg (scaling : Nat) (sample : Int) :
    0 ≤ shiftedSquare scaling sample :=
  (shiftRight_bounds (mul_self_nonneg sample) scaling).1

theorem sumShifted_nonneg (scaling : Nat) (vector : List Int) :
    0 ≤ sumShifted scaling vector := by
  refine List.sum_nonneg fun square member => ?_
  obtain ⟨sample, -, rfl⟩ := List.mem_map.mp member
  exact shiftedSquare_nonneg scaling sample

theorem sumShifted_append (scaling : Nat) (added later : List Int) :
    sumShifted scaling (added ++ later) =
      sumShifted scaling added + sumShifted scaling later := by
  rw [sumShifted, List.map_append, List.sum_append]
  rfl

/-- A sum that fits is the exact one. -/
theorem foldl_accumulate
    {scaling : Nat}
    (fits : sumShifted scaling vector < 2 ^ 31) :
    vector.foldl (accumulate scaling) 0 = sumShifted scaling vector := by
  induction vector using List.reverseRecOn with
  | nil =>
      rfl
  | append_singleton added sample inductionHypothesis =>
      have nonneg := sumShifted_nonneg scaling added
      have square := shiftedSquare_nonneg scaling sample
      have last : sumShifted scaling [sample] = shiftedSquare scaling sample :=
        List.sum_singleton
      rw [sumShifted_append, last] at fits ⊢
      rw [List.foldl_append, inductionHypothesis (by omega), List.foldl_cons, List.foldl_nil,
        accumulate, int32_of_bounds (by omega) fits]

/-- What the shifts cut off is less than a unit for each sample. -/
theorem sumOfSquares_bounds (scaling : Nat) (vector : List Int) :
    sumShifted scaling vector * 2 ^ scaling ≤ sumOfSquares vector ∧
      sumOfSquares vector + vector.length ≤
        (sumShifted scaling vector + vector.length) * 2 ^ scaling := by
  induction vector with
  | nil =>
      exact ⟨by simp [sumShifted, sumOfSquares], by simp [sumShifted, sumOfSquares]⟩
  | cons sample rest inductionHypothesis =>
      obtain ⟨lower, upper⟩ := inductionHypothesis
      have positive : (0 : Int) < 2 ^ scaling := by positivity
      have quotient :
          shiftedSquare scaling sample = sample * sample / 2 ^ scaling := by
        rw [shiftedSquare, Int.shiftRight_eq_div_pow, Nat.cast_pow, Nat.cast_ofNat]
      have below := Int.ediv_mul_le (sample * sample) positive.ne'
      have above := Int.lt_ediv_add_one_mul_self (sample * sample) positive
      rw [← quotient] at below above
      simp only [sumShifted, sumOfSquares, List.map_cons, List.sum_cons, List.length_cons,
        Nat.cast_succ] at lower upper ⊢
      constructor
      · linarith
      · linarith

/-- Every addition fits if and only if the sum does. -/
theorem additions_fit_iff
    {scaling : Nat} :
    (∀ added sample later,
        vector = added ++ sample :: later →
        added.foldl (accumulate scaling) 0 + shiftedSquare scaling sample < 2 ^ 31) ↔
      sumShifted scaling vector < 2 ^ 31 := by
  constructor
  · intro additions
    induction vector using List.reverseRecOn with
    | nil =>
        exact (by decide : (0 : Int) < 2 ^ 31)
    | append_singleton added sample inductionHypothesis =>
        have before :=
          inductionHypothesis fun front entry later shape =>
            additions front entry (later ++ [sample]) (by rw [shape]; simp)
        have last := additions added sample [] rfl
        rw [foldl_accumulate before] at last
        rw [sumShifted_append]
        have square : sumShifted scaling [sample] = shiftedSquare scaling sample :=
          List.sum_singleton
        rwa [square]
  · rintro fits added sample later rfl
    rw [sumShifted_append] at fits
    have rest : sumShifted scaling (sample :: later) =
        shiftedSquare scaling sample + sumShifted scaling later :=
      List.sum_cons
    have nonneg := sumShifted_nonneg scaling later
    have square := shiftedSquare_nonneg scaling sample
    rw [foldl_accumulate (by omega)]
    omega

/-- A count times a value that is shifted by the bits in excess of 31 has no more than 31. -/
theorem mul_shifted_lt
    {count value : Nat}
    (isShort : count.size ≤ 31) :
    count * (value / 2 ^ (count.size + value.size - 31)) < 2 ^ 31 := by
  have counted := Nat.lt_size_self count
  have sized := Nat.lt_size_self value
  generalize count.size = countBits at isShort counted ⊢
  generalize value.size = valueBits at sized ⊢
  have shifted : value / 2 ^ (countBits + valueBits - 31) < 2 ^ (31 - countBits) := by
    rw [Nat.div_lt_iff_lt_mul (Nat.two_pow_pos _), ← Nat.pow_add]
    exact Nat.lt_of_lt_of_le sized (Nat.pow_le_pow_right (by decide) (by omega))
  calc
    count * (value / 2 ^ (countBits + valueBits - 31)) <
        2 ^ countBits * 2 ^ (31 - countBits) := Nat.mul_lt_mul'' counted shifted
    _ = 2 ^ 31 := by
      rw [← Nat.pow_add, Nat.add_sub_cancel' isShort]

/-- Without the least sample the shifted squares fit. -/
theorem fits_of_ne_least
    (isShort : vector.length < 2 ^ 30)
    (other : ∀ sample ∈ vector, sample ≠ -32768) :
    Fits vector := by
  have lengthSize : vector.length.size ≤ 31 := Nat.size_le.mpr (by omega)
  have each :
      ∀ square ∈ vector.map (shiftedSquare (excessBits vector)),
        square ≤ ((peak vector ^ 2 / 2 ^ excessBits vector : Nat) : Int) := by
    intro square member
    obtain ⟨sample, inVector, rfl⟩ := List.mem_map.mp member
    have within := (le_foldl_peak 0).2 sample inVector (other sample inVector)
    have squares : sample * sample ≤ ((peak vector ^ 2 : Nat) : Int) := by
      rw [← Int.natAbs_mul_self, ← pow_two]
      exact_mod_cast Nat.pow_le_pow_left within 2
    have shifted := @shiftRight_mono _ _ squares (excessBits vector)
    rw [Int.shiftRight_eq_div_pow ((peak vector ^ 2 : Nat) : Int), ← Nat.cast_two,
      ← Nat.cast_pow, ← Int.natCast_ediv] at shifted
    exact shifted
  have sum := List.sum_le_card_nsmul _ _ each
  rw [List.length_map, nsmul_eq_mul] at sum
  have product := @mul_shifted_lt vector.length (peak vector ^ 2) lengthSize
  refine lt_of_le_of_lt sum ?_
  exact_mod_cast product

/-- The energy approximates the sum of squares if and only if the squares fit with the scale
of the samples other than the least one, and so it does where there is no such sample. -/
theorem approximates_iff
    {vector : List Int}
    (nonempty : vector ≠ [])
    (samples : Samples16 vector)
    (isShort : vector.length < 2 ^ 30) :
    (Approximates vector ↔ Fits vector) ∧
      ((∀ sample ∈ vector, sample ≠ -32768) → Fits vector) := by
  have scale : (energy vector).2 = excessBits vector := getScalingSquare_eq samples isShort
  refine ⟨?_, fits_of_ne_least isShort⟩
  constructor
  · intro approximates
    have additions := approximates.additions
    rw [scale] at additions
    exact additions_fit_iff.mp additions
  · intro fits
    have sum : (energy vector).1 = sumShifted (excessBits vector) vector := by
      rw [energy, getScalingSquare_eq samples isShort]
      exact foldl_accumulate fits
    have isLonger : 0 < vector.length := List.length_pos_iff.mpr nonempty
    obtain ⟨lower, upper⟩ := sumOfSquares_bounds (excessBits vector) vector
    constructor
    · rw [scale]
      exact additions_fit_iff.mpr fits
    · rw [sum]
      exact sumShifted_nonneg _ _
    · rw [sum, scale]
      exact lower
    · rw [sum, scale]
      have longer : (0 : Int) < vector.length := by exact_mod_cast isLonger
      linarith

/-- Three samples. -/
theorem approximates_iff_three :
    (Approximates [100, -32768, 32767] ↔ Fits [100, -32768, 32767]) ∧
      ((∀ sample ∈ [100, -32768, 32767], sample ≠ -32768) → Fits [100, -32768, 32767]) :=
  approximates_iff (List.cons_ne_nil _ _) (by unfold Samples16; decide) (by decide)

/-- The squares of two least samples add up to `2 ^ 31`. -/
theorem not_approximates_least :
    ¬ Approximates [-32768, -32768] ∧ energy [-32768, -32768] = (-2 ^ 31, 0) := by
  refine ⟨fun approximates => ?_, by decide⟩
  have nonneg := approximates.nonneg
  revert nonneg
  decide

end Sum

end ApmSdk.SignalEnergy
