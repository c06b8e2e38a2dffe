import ApmSdk.ComplexFftScaling
import ApmSdk.TwiddleAccuracy

namespace ApmSdk.ComplexFft

/-!
# The accuracy of the forward transform

In every stage a result loses less than a unit to rounding, and as much again to the table
and the values of its size.  The errors of the parts are halved with the parts, so that the
transform is within two units of the true one for each stage.
-/

open BitReversal ButterflyNetwork Complex

/-- A value of a buffer as a complex number. -/
noncomputable def Complex16.toComplex (value : Complex16) : ℂ :=
  gaussian (value.re, value.im)

/-- The root of unity of a stage. -/
noncomputable def stageRoot (width : Nat) : ℂ :=
  exp (-(Real.pi / 2 ^ width : ℝ) * I)

theorem stageRoot_halfTurn (width : Nat) : stageRoot width ^ 2 ^ width = -1 := by
  have turn : ((2 ^ width : Nat) : ℂ) * (-(Real.pi / 2 ^ width : ℝ) * I) = -(Real.pi * I) := by
    have positive : (2 : ℂ) ^ width ≠ 0 := pow_ne_zero _ two_ne_zero
    push_cast
    field_simp
  rw [stageRoot, ← exp_nat_mul, turn, exp_neg, exp_pi_mul_I, inv_neg_one]

theorem stageRoot_square (width : Nat) : stageRoot (width + 1) ^ 2 = stageRoot width := by
  rw [stageRoot, stageRoot, ← exp_nat_mul]
  congr 1
  have positive : (2 : ℂ) ^ width ≠ 0 := pow_ne_zero _ two_ne_zero
  push_cast
  rw [pow_succ]
  field_simp

theorem norm_stageRoot_pow (width m : Nat) : ‖stageRoot width ^ m‖ = 1 := by
  rw [norm_pow, stageRoot, ← ofReal_neg, norm_exp_ofReal_mul_I, one_pow]

/-- A stage turns by powers of the rotation of the table, the other way. -/
theorem stageRoot_pow
    {width : Nat}
    (m : Nat)
    (within : width < 10) :
    stageRoot width ^ m = (starRingEnd ℂ) (rotation ^ (m * 2 ^ (9 - width))) := by
  rw [map_pow, rotation, ← exp_conj, stageRoot, ← exp_nat_mul, ← exp_nat_mul]
  congr 1
  have powers : (2 : ℂ) ^ width * 2 ^ (9 - width) = 512 := by
    rw [← pow_add, Nat.add_sub_cancel' (Nat.le_of_lt_succ within)]
    norm_num
  have positive : (2 : ℂ) ^ width ≠ 0 := pow_ne_zero _ two_ne_zero
  rw [map_mul, conj_ofReal, conj_I]
  push_cast
  field_simp
  linear_combination (m : ℂ) * powers

theorem twiddles_square_le :
    ∀ twiddle ∈ twiddles, twiddle.1 * twiddle.1 + twiddle.2 * twiddle.2 ≤ 32768 * 32768 := by
  decide +kernel

section Stages

variable {m width : Nat}

/-- What a stage takes from the table turns without making longer. -/
theorem norm_twiddle_le
    (inside : m < 2 ^ width)
    (within : width < 10) :
    ‖gaussian (sine (m * 2 ^ (9 - width) + 256), -sine (m * 2 ^ (9 - width)))‖ ≤ 32768 := by
  have place := sinePlace_lt within inside
  have square :=
    twiddles_square_le _
      (List.mem_of_getElem? (twiddles_getElem? (place.trans (by norm_num))))
  refine le_of_sq_le_sq ?_ (by norm_num)
  rw [Complex.sq_norm, normSq_apply]
  unfold gaussian
  push_cast
  rw [neg_mul_neg]
  have real := (Int.cast_le (R := ℝ)).mpr square
  push_cast at real
  linarith

/-- What a stage takes from the table is close to the root of unity it stands for. -/
theorem twiddle_close
    (inside : m < 2 ^ width)
    (within : width < 10) :
    ‖gaussian (sine (m * 2 ^ (9 - width) + 256), -sine (m * 2 ^ (9 - width))) -
        32768 * stageRoot width ^ m‖ ≤ 2.3 := by
  have close := sine_close (sinePlace_lt within inside)
  rw [← norm_conj, map_sub, map_mul, map_ofNat] at close
  rw [stageRoot_pow m within]
  convert close using 3
  simp [gaussian, Complex.ext_iff]

/-- A rounded sum, in the unit of the products of the table. -/
theorem scaledSum_close
    {mode : Int}
    (high : mode ≠ 0)
    (shift : Nat)
    (q32 : Int)
    {t32 product : Int}
    (turned : |2 * t32 - product| ≤ 1) :
    |2 ^ (15 + shift) * scaledSum mode shift (round2For shift) q32 t32 -
        (2 ^ 15 * q32 + product)| ≤ 2 ^ (14 + shift) + 1 := by
  unfold scaledSum round2For cfftsft
  rw [if_neg high, Int.shiftRight_eq_div_pow, Nat.add_comm shift 14]
  have division :=
    Int.mul_ediv_add_emod (q32 * 2 ^ 14 + t32 + 8192 * 2 ^ shift) (2 ^ (14 + shift))
  have positive : (0 : Int) < 2 ^ (14 + shift) := by positivity
  have lower := Int.emod_nonneg (q32 * 2 ^ 14 + t32 + 8192 * 2 ^ shift) positive.ne'
  have upper := Int.emod_lt_of_pos (q32 * 2 ^ 14 + t32 + 8192 * 2 ^ shift) positive
  have grain : (2 : Int) ^ (14 + shift) = 2 * (8192 * 2 ^ shift) := by
    rw [pow_add]
    ring
  have double : (2 : Int) ^ (15 + shift) = 2 * 2 ^ (14 + shift) := by
    rw [← pow_succ']
    congr 1
    omega
  rw [Nat.cast_pow, Nat.cast_ofNat, double, mul_assoc]
  generalize
    2 ^ (14 + shift) * ((q32 * 2 ^ 14 + t32 + 8192 * 2 ^ shift) / 2 ^ (14 + shift)) =
      multiple at *
  rw [abs_le] at turned ⊢
  omega

/-- A result of a butterfly, in the unit of the products of the table. -/
theorem exactButterfly_close
    {mode : Int}
    (high : mode ≠ 0)
    (wr wi : Int)
    (shift : Nat)
    (first second : Complex16) :
    ‖2 ^ (15 + shift) *
            (exactButterfly mode shift (round2For shift) wr wi first second).1.toComplex -
          (2 ^ 15 * first.toComplex + gaussian (wr, wi) * second.toComplex)‖ ≤
        3 / 2 * (2 ^ (14 + shift) + 1) ∧
      ‖2 ^ (15 + shift) *
            (exactButterfly mode shift (round2For shift) wr wi first second).2.toComplex -
          (2 ^ 15 * first.toComplex - gaussian (wr, wi) * second.toComplex)‖ ≤
        3 / 2 * (2 ^ (14 + shift) + 1) := by
  have unit : (2 ^ (15 + shift) : ℂ) = ((2 ^ (15 + shift) : ℝ) : ℂ) := by push_cast; rfl
  have unit' : (2 ^ 15 : ℂ) = ((2 ^ 15 : ℝ) : ℂ) := by norm_num
  have halves :
      ∀ product : Int,
        |2 * ((product + cfftrnd) >>> (15 - cfftsft : Nat)) - product| ≤ 1 ∧
          |2 * -((product + cfftrnd) >>> (15 - cfftsft : Nat)) - -product| ≤ 1 := by
    intro product
    unfold cfftrnd cfftsft
    rw [Int.shiftRight_eq_div_pow, abs_le, abs_le]
    norm_num
    omega
  have re := halves (wr * second.re - wi * second.im)
  have im := halves (wr * second.im + wi * second.re)
  unfold exactButterfly turned
  rw [if_neg high]
  constructor
  · apply norm_le_of_parts
    · have close := scaledSum_close high shift first.re re.1
      rw [unit, unit', sub_re, add_re, re_ofReal_mul, re_ofReal_mul, mul_re]
      dsimp only [Complex16.toComplex, gaussian]
      exact_mod_cast close
    · have close := scaledSum_close high shift first.im im.1
      rw [unit, unit', sub_im, add_im, im_ofReal_mul, im_ofReal_mul, mul_im]
      dsimp only [Complex16.toComplex, gaussian]
      exact_mod_cast close
  · apply norm_le_of_parts
    · have close := scaledSum_close high shift first.re re.2
      rw [← sub_eq_add_neg] at close
      rw [unit, unit', sub_re, sub_re, re_ofReal_mul, re_ofReal_mul, mul_re]
      dsimp only [Complex16.toComplex, gaussian]
      exact_mod_cast close
    · have close := scaledSum_close high shift first.im im.2
      rw [← sub_eq_add_neg] at close
      rw [unit, unit', sub_im, sub_im, im_ofReal_mul, im_ofReal_mul, mul_im]
      dsimp only [Complex16.toComplex, gaussian]
      exact_mod_cast close

/-- A rounded half of a sum stays close to the half of the true one. -/
theorem half_close
    {out first second z z' w root : ℂ}
    {limit error : ℝ}
    (rounded : ‖65536 * out - (32768 * first + w * second)‖ ≤ 98307 / 2)
    (short : ‖w‖ ≤ 32768)
    (unit : ‖root‖ = 1)
    (table : ‖w - 32768 * root‖ ≤ 2.3)
    (firstSmall : ‖first‖ ≤ limit)
    (secondSmall : ‖second‖ ≤ limit)
    (inside : limit ≤ 32767)
    (firstClose : ‖first - z‖ ≤ error)
    (secondClose : ‖second - z'‖ ≤ error) :
    ‖out‖ ≤ limit + 1 ∧ ‖out - 1 / 2 * (z + root * z')‖ ≤ error + 2 := by
  have nonneg : 0 ≤ limit := (norm_nonneg first).trans firstSmall
  have scale : ∀ number : ℂ, ‖32768 * number‖ = 32768 * ‖number‖ := fun number => by
    rw [norm_mul]
    norm_num
  have double : ∀ number : ℂ, ‖65536 * number‖ = 65536 * ‖number‖ := fun number => by
    rw [norm_mul]
    norm_num
  constructor
  · have total : 65536 * ‖out‖ ≤ 98307 / 2 + (32768 * limit + 32768 * limit) := by
      calc
        65536 * ‖out‖ =
            ‖(65536 * out - (32768 * first + w * second)) + (32768 * first + w * second)‖ := by
          rw [sub_add_cancel, double]
        _ ≤ ‖65536 * out - (32768 * first + w * second)‖ + ‖32768 * first + w * second‖ :=
          norm_add_le _ _
        _ ≤ 98307 / 2 + (‖32768 * first‖ + ‖w * second‖) :=
          add_le_add rounded (norm_add_le _ _)
        _ ≤ _ := by
          rw [scale, norm_mul]
          gcongr
    linarith
  · have split :
        65536 * (out - 1 / 2 * (z + root * z')) =
          (65536 * out - (32768 * first + w * second)) + 32768 * (first - z) +
            ((w - 32768 * root) * second + 32768 * (root * (second - z'))) := by
      ring
    have total :
        65536 * ‖out - 1 / 2 * (z + root * z')‖ ≤
          98307 / 2 + 32768 * error + (2.3 * limit + 32768 * error) := by
      calc
        65536 * ‖out - 1 / 2 * (z + root * z')‖ = ‖65536 * (out - 1 / 2 * (z + root * z'))‖ :=
          (double _).symm
        _ ≤ ‖65536 * out - (32768 * first + w * second)‖ + ‖32768 * (first - z)‖ +
              (‖(w - 32768 * root) * second‖ + ‖32768 * (root * (second - z'))‖) := by
          rw [split]
          exact norm_add₃_le.trans (add_le_add_right (norm_add_le _ _) _)
        _ ≤ _ := by
          rw [scale, scale, norm_mul, norm_mul, unit, one_mul]
          gcongr
    linarith

theorem Complex16.fits_of_norm_le
    {value : Complex16}
    (short : ‖value.toComplex‖ ≤ 32767) :
    value.Fits := by
  have re : |(value.re : ℝ)| ≤ 32767 := (abs_re_le_norm value.toComplex).trans short
  have im : |(value.im : ℝ)| ≤ 32767 := (abs_im_le_norm value.toComplex).trans short
  have reWhole : |value.re| ≤ 32767 := by exact_mod_cast re
  have imWhole : |value.im| ≤ 32767 := by exact_mod_cast im
  rw [abs_le] at reWhole imWhole
  exact ⟨int16_of_bounds (by omega) (by omega), int16_of_bounds (by omega) (by omega)⟩

/-- A value after some stages is close to the true one and leaves room for the other stages. -/
def Close (limit : ℝ) (stage : Nat) (value : Complex16) (exact : ℂ) : Prop :=
  ‖value.toComplex‖ ≤ limit + stage ∧ ‖value.toComplex - exact‖ ≤ 2 * stage

/-- The butterflies of the forward transform keep values close to those of the true one. -/
theorem forward_close
    {limit : ℝ}
    {first second : Complex16}
    {z z' : ℂ}
    (within : width < 10)
    (room : limit + (width + 1 : Nat) ≤ 32767)
    (inside : m < 2 ^ width)
    (firstClose : Close limit width first z)
    (secondClose : Close limit width second z') :
    Close limit (width + 1) (forward 1 width m first second).1
        (fourierButterfly (fun _ => 1 / 2) stageRoot width m z z').1 ∧
      Close limit (width + 1) (forward 1 width m first second).2
        (fourierButterfly (fun _ => 1 / 2) stageRoot width m z z').2 := by
  obtain ⟨firstSmall, firstNear⟩ := firstClose
  obtain ⟨secondSmall, secondNear⟩ := secondClose
  have exact :=
    exactButterfly_close one_ne_zero (sine (m * 2 ^ (9 - width) + 256))
      (-sine (m * 2 ^ (9 - width))) 1 first second
  obtain ⟨sum, difference⟩ := exact
  have table := twiddle_close inside within
  have short := norm_twiddle_le inside within
  have unit := norm_stageRoot_pow width m
  unfold forward
  rw [show cfftrnd2 = round2For 1 from rfl]
  unfold fourierButterfly
  dsimp only
  generalize gaussian (sine (m * 2 ^ (9 - width) + 256), -sine (m * 2 ^ (9 - width))) = w at *
  push_cast at room
  have below : limit + (width : ℝ) ≤ 32767 := by linarith
  have joined :
      ∀ {out : Complex16} {part part' : ℂ},
        ‖65536 * out.toComplex - (32768 * first.toComplex + w * part)‖ ≤ 98307 / 2 →
          ‖part‖ ≤ limit + width → ‖part - part'‖ ≤ 2 * width →
            out.Fits ∧
              Close limit (width + 1) out (1 / 2 * (z + stageRoot width ^ m * part')) := by
    intro out part part' rounded small near
    obtain ⟨stillSmall, stillNear⟩ :=
      half_close rounded short unit table firstSmall small below firstNear near
    refine ⟨Complex16.fits_of_norm_le (by linarith), ?_, ?_⟩
    · push_cast
      linarith
    · push_cast
      linarith
  norm_num at sum difference
  obtain ⟨sumFits, sumClose⟩ := joined sum secondSmall secondNear
  have opposite : ‖-second.toComplex - -z'‖ ≤ 2 * width := by
    rwa [neg_sub_neg, norm_sub_rev]
  rw [sub_eq_add_neg (32768 * first.toComplex), ← mul_neg] at difference
  obtain ⟨differenceFits, differenceClose⟩ :=
    joined difference (by rwa [norm_neg]) opposite
  rw [mul_neg, ← sub_eq_add_neg] at differenceClose
  rw [butterfly_eq_of_fits sumFits differenceFits]
  exact ⟨sumClose, differenceClose⟩

end Stages

/-- The root of the last stage turns by the angles of the transform. -/
theorem stageRoot_pow_double (stages place index : Nat) :
    stageRoot stages ^ (2 * place * index) =
      exp (-(2 * Real.pi * I * place * index / 2 ^ stages)) := by
  rw [stageRoot, ← exp_nat_mul]
  congr 1
  push_cast
  ring

/-- The discrete Fourier transform of a signal, divided by its length. -/
noncomputable def meanTransform (stages : Nat) (samples : Nat → ℂ) (i : Nat) : ℂ :=
  1 / 2 ^ stages *
    ∑ j ∈ Finset.range (2 ^ stages), samples j * exp (-(2 * Real.pi * I * j * i / 2 ^ stages))

theorem meanTransform_congr
    {stages : Nat}
    {samples others : Nat → ℂ}
    (same : ∀ j < 2 ^ stages, samples j = others j)
    (i : Nat) :
    meanTransform stages samples i = meanTransform stages others i := by
  unfold meanTransform
  rw [Finset.sum_congr rfl fun j member => by rw [same j (Finset.mem_range.mp member)]]

/-- Samples that are close have transforms that are. -/
theorem meanTransform_close
    {stages : Nat}
    {samples others : Nat → ℂ}
    {error : ℝ}
    (close : ∀ j < 2 ^ stages, ‖samples j - others j‖ ≤ error)
    (i : Nat) :
    ‖meanTransform stages samples i - meanTransform stages others i‖ ≤ error := by
  have positive : (0 : ℝ) < 2 ^ stages := by positivity
  have length : ‖(1 / 2 ^ stages : ℂ)‖ = 1 / 2 ^ stages := by simp
  unfold meanTransform
  rw [← mul_sub, ← Finset.sum_sub_distrib, norm_mul, length, one_div,
    inv_mul_le_iff₀ positive]
  calc
    _ ≤ ∑ j ∈ Finset.range (2 ^ stages), error := by
      refine norm_sum_le_of_le _ fun j member => ?_
      rw [← sub_mul, norm_mul, ← stageRoot_pow_double, norm_stageRoot_pow, mul_one]
      exact close j (Finset.mem_range.mp member)
    _ = 2 ^ stages * error := by
      rw [Finset.sum_const, Finset.card_range, nsmul_eq_mul]
      push_cast
      rfl

/-- The first and the middle bin of a real signal are real. -/
theorem im_meanTransform_of_real
    {i : Nat}
    (stages : Nat)
    (signal : Nat → ℝ)
    (edge : i = 0 ∨ 2 * i = 2 ^ stages) :
    (meanTransform stages (fun j => (signal j : ℂ)) i).im = 0 := by
  have sign : ∀ j, ∃ real : ℝ, stageRoot stages ^ (2 * j * i) = real := by
    intro j
    rcases edge with rfl | half
    · exact ⟨1, by simp⟩
    · refine ⟨(-1) ^ j, ?_⟩
      rw [show 2 * j * i = 2 ^ stages * j by rw [← half]; ring, pow_mul, stageRoot_halfTurn]
      push_cast
      rfl
  have scale : (1 / 2 ^ stages : ℂ) = ((1 / 2 ^ stages : ℝ) : ℂ) := by push_cast; rfl
  unfold meanTransform
  rw [scale, im_ofReal_mul, im_sum, Finset.sum_eq_zero, mul_zero]
  intro j _
  obtain ⟨real, isReal⟩ := sign j
  rw [← stageRoot_pow_double, isReal, ← ofReal_mul, ofReal_im]

/-- On values that leave room for the rounding the complex transform is accurate. -/
theorem complexFFT_close
    {stages i : Nat}
    (samples : Nat → Complex16)
    (most : stages ≤ 10)
    (room : ∀ i < 2 ^ stages, ‖(samples i).toComplex‖ ≤ 32767 - stages)
    (below : i < 2 ^ stages) :
    Close (32767 - stages) stages
      ((complexFFT (complexBitReverse samples stages) stages 1).1 i)
      (meanTransform stages (fun j => (samples j).toComplex) i) := by
  have related :
      Close (32767 - stages) stages (radix2 (forward 1) stages samples i)
        (radix2 (fourierButterfly (fun _ => 1 / 2) stageRoot) stages
          (fun i => (samples i).toComplex) i) :=
    radix2_related
      (fun {stage} {index} {first} {second} {z} {z'} within inside firstClose secondClose =>
        forward_close (by omega)
          (by
            have last : ((stage + 1 : Nat) : ℝ) ≤ stages := by exact_mod_cast within
            linarith)
          inside firstClose secondClose)
      (fun index small => ⟨by simpa using room index small, by simp⟩)
      below
  rw [complexFFT_radix2 samples 1 most below]
  rw [radix2_fourier _ stageRoot_halfTurn stageRoot_square _ below] at related
  simp only [stageRoot_pow_double, Finset.prod_const, Finset.card_range] at related
  rw [one_div_pow] at related
  exact related

/-- A bin of the transform of a real signal. -/
theorem realForwardFFT_bin_close
    {order i : Nat}
    {realDataIn : Nat → Int}
    (most : order ≤ 10)
    (room : ∀ j < 2 ^ order, |realDataIn j| ≤ 32767 - order)
    (below : i < 2 ^ order) :
    Close (32767 - order) order ((realForwardFFT order realDataIn).1 i)
      (meanTransform order (fun j => (realDataIn j : ℂ)) i) := by
  have asComplex :
      ∀ j < 2 ^ order, (withZeros (2 ^ order) realDataIn j).toComplex = (realDataIn j : ℂ) := by
    intro j below
    rw [withZeros, if_pos below]
    simp [Complex16.toComplex, gaussian, Complex.ext_iff]
  have roomReal : ∀ j < 2 ^ order, ‖(realDataIn j : ℂ)‖ ≤ 32767 - order := by
    intro j below
    have bound : ((|realDataIn j| : Int) : ℝ) ≤ ((32767 - order : Int) : ℝ) :=
      Int.cast_le.mpr (room j below)
    rwa [Int.cast_abs, Int.cast_sub, Int.cast_natCast, Int.cast_ofNat, ← norm_intCast] at bound
  have close :=
    complexFFT_close (withZeros (2 ^ order) realDataIn) most
      (fun j small => (congrArg norm (asComplex j small)).trans_le (roomReal j small))
      below
  rw [meanTransform_congr asComplex] at close
  exact close

/--
The fixed-point transform of a real signal is the discrete Fourier transform, divided by its
length, to within two units for each stage.
-/
theorem realForwardFFT_close
    {order : Nat}
    {realDataIn : Nat → Int}
    (most : order ≤ 10)
    (room : ∀ j < 2 ^ order, |realDataIn j| ≤ 32767 - order) :
    (realForwardFFT order realDataIn).2 = 0 ∧
      ∀ i < 2 ^ order,
        ((realForwardFFT order realDataIn).1 i).Fits ∧
          ‖((realForwardFFT order realDataIn).1 i).toComplex -
              meanTransform order (fun j => (realDataIn j : ℂ)) i‖ ≤
            2 * order := by
  have inTable : ¬1024 < 2 ^ order :=
    not_lt.mpr (Nat.pow_le_pow_right Nat.two_pos most)
  refine ⟨by rw [realForwardFFT, complexFFT, if_neg inTable], fun i below => ?_⟩
  obtain ⟨small, near⟩ := realForwardFFT_bin_close most room below
  exact ⟨Complex16.fits_of_norm_le (by linarith), near⟩

/-- A square wave near full scale. -/
def squareWave (j : Nat) : Int :=
  if j % 64 < 32 then 32760 else -32760

theorem squareWave_room (j : Nat) : |squareWave j| ≤ 32767 - (7 : Nat) := by
  unfold squareWave
  split <;> decide

/-- In the size of the mobile echo control. -/
theorem realForwardFFT_close_squareWave :
    (realForwardFFT 7 squareWave).2 = 0 ∧
      ∀ i < 2 ^ 7,
        ((realForwardFFT 7 squareWave).1 i).Fits ∧
          ‖((realForwardFFT 7 squareWave).1 i).toComplex -
              meanTransform 7 (fun j => (squareWave j : ℂ)) i‖ ≤
            2 * (7 : Nat) :=
  realForwardFFT_close (by decide) fun j _ => squareWave_room j

end ApmSdk.ComplexFft
