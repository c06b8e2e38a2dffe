import ApmSdk.ComplexFft
import Mathlib.Analysis.Complex.Trigonometric
import Mathlib.Analysis.Real.Pi.Bounds
import Mathlib.Analysis.SpecialFunctions.Trigonometric.Basic

namespace ApmSdk.ComplexFft

/-!
# The table of sines

The entries are compared with the powers of the rotation by a 1024th of a turn.  These are
followed in integers of forty bits, each one from the one before; what is lost on the way is
far less than a unit of the table.
-/

open Complex

/-- A pair of integers as a complex number. -/
noncomputable def gaussian (pair : Int × Int) : ℂ :=
  ⟨pair.1, pair.2⟩

theorem norm_le_of_parts
    {z : ℂ}
    {bound : ℝ}
    (re : |z.re| ≤ bound)
    (im : |z.im| ≤ bound) :
    ‖z‖ ≤ 3 / 2 * bound := by
  have nonneg : 0 ≤ bound := (abs_nonneg _).trans re
  refine le_of_sq_le_sq ?_ (by positivity)
  rw [Complex.sq_norm, normSq_apply]
  have reSquare := sq_le_sq' (abs_le.mp re).1 (abs_le.mp re).2
  have imSquare := sq_le_sq' (abs_le.mp im).1 (abs_le.mp im).2
  nlinarith [sq_nonneg bound]

/-! ## The powers of the rotation -/

/-- A unit of the integers that follow the rotation. -/
def grain : Int :=
  2 ^ 40

/-- The cosine and the sine of a 1024th of a turn. -/
def smallTurn : Int × Int :=
  (1099490929780, 6746476518)

/-- A pair that is turned by a 1024th, to the nearest integers. -/
def rotated (pair : Int × Int) : Int × Int :=
  ((pair.1 * smallTurn.1 - pair.2 * smallTurn.2 + 2 ^ 39) / grain,
    (pair.1 * smallTurn.2 + pair.2 * smallTurn.1 + 2 ^ 39) / grain)

/-- The rotation by a 1024th of a turn. -/
noncomputable def rotation : ℂ :=
  exp ((Real.pi / 512 : ℝ) * I)

theorem norm_rotation_pow (j : Nat) : ‖rotation ^ j‖ = 1 := by
  rw [norm_pow, rotation, norm_exp_ofReal_mul_I, one_pow]

theorem smallTurn_close : ‖2 ^ 40 * rotation - gaussian smallTurn‖ ≤ 225 := by
  have piLower := Real.pi_gt_d20
  have piUpper := Real.pi_lt_d20
  have small : |Real.pi / 512| ≤ 1 := by
    rw [abs_of_pos (by positivity)]
    linarith
  have cosine := abs_le.mp (Real.cos_bound small)
  have sine := abs_le.mp (Real.sin_bound small)
  rw [abs_of_pos (by positivity)] at cosine sine
  have lower : (0.00613592315154256 : ℝ) ≤ Real.pi / 512 := by linarith
  have upper : Real.pi / 512 ≤ (0.00613592315154257 : ℝ) := by linarith
  have square := pow_le_pow_left₀ (by norm_num) lower 2
  have square' := pow_le_pow_left₀ (by positivity) upper 2
  have cube := pow_le_pow_left₀ (by norm_num) lower 3
  have cube' := pow_le_pow_left₀ (by positivity) upper 3
  have fourth := pow_le_pow_left₀ (by positivity) upper 4
  have fifth := pow_le_pow_left₀ (by positivity) upper 5
  generalize isAngle : Real.pi / 512 = angle at *
  obtain ⟨cosineLower, cosineUpper⟩ := cosine
  obtain ⟨sineLower, sineUpper⟩ := sine
  have unit : (2 ^ 40 : ℂ) = ((2 ^ 40 : ℝ) : ℂ) := by norm_num
  have re : |(2 ^ 40 * rotation - gaussian smallTurn).re| ≤ 150 := by
    rw [rotation, isAngle, unit, sub_re, re_ofReal_mul, exp_ofReal_mul_I_re, abs_le]
    norm_num [gaussian, smallTurn]
    constructor <;> linarith
  have im : |(2 ^ 40 * rotation - gaussian smallTurn).im| ≤ 150 := by
    rw [rotation, isAngle, unit, sub_im, im_ofReal_mul, exp_ofReal_mul_I_im, abs_le]
    norm_num [gaussian, smallTurn]
    constructor <;> linarith
  exact (norm_le_of_parts re im).trans (by norm_num)

/-- A turned pair is a product that is rounded to integers. -/
theorem rotated_close (pair : Int × Int) :
    ‖gaussian pair * gaussian smallTurn - 2 ^ 40 * gaussian (rotated pair)‖ ≤ 3 / 2 * 2 ^ 39 := by
  have unit : (2 ^ 40 : ℂ) = ((2 ^ 40 : ℝ) : ℂ) := by norm_num
  -- the remainder of a division is less than the grain
  have rounded :
      ∀ value : Int,
        |(value : ℝ) - 2 ^ 40 * (((value + 2 ^ 39) / grain : Int) : ℝ)| ≤ 2 ^ 39 := by
    intro value
    have division := Int.mul_ediv_add_emod (value + 2 ^ 39) grain
    have lower := Int.emod_nonneg (value + 2 ^ 39) (b := grain) (by decide)
    have upper := Int.emod_lt_of_pos (value + 2 ^ 39) (b := grain) (by decide)
    have exact : |value - 2 ^ 40 * ((value + 2 ^ 39) / grain)| ≤ 2 ^ 39 := by
      unfold grain at *
      rw [abs_le]
      omega
    exact_mod_cast exact
  apply norm_le_of_parts
  · rw [unit, sub_re, mul_re, re_ofReal_mul]
    have close := rounded (pair.1 * smallTurn.1 - pair.2 * smallTurn.2)
    push_cast at close
    exact close
  · rw [unit, sub_im, mul_im, im_ofReal_mul]
    have close := rounded (pair.1 * smallTurn.2 + pair.2 * smallTurn.1)
    push_cast at close
    exact close

/-- The pairs stay with the powers of the rotation. -/
theorem rotated_iterate_close
    {j : Nat}
    (few : j ≤ 1000) :
    ‖2 ^ 40 * rotation ^ j - gaussian (rotated^[j] (grain, 0))‖ ≤ 451 * j := by
  induction j with
  | zero => norm_num [gaussian, grain, Complex.ext_iff]
  | succ j inductionHypothesis =>
      have close := inductionHypothesis (by omega)
      rw [Function.iterate_succ_apply']
      generalize rotated^[j] (grain, 0) = pair at close ⊢
      have length := norm_rotation_pow j
      have unitLength : ‖rotation‖ = 1 := by simpa using norm_rotation_pow 1
      have grainNorm : ‖(2 ^ 40 : ℂ)‖ = 2 ^ 40 := by norm_num
      have rounding := rotated_close pair
      have start := smallTurn_close
      have count : (j : ℝ) ≤ 1000 := by exact_mod_cast (by omega : j ≤ 1000)
      have size : ‖gaussian pair‖ ≤ 2 ^ 41 := by
        calc
          ‖gaussian pair‖ =
              ‖2 ^ 40 * rotation ^ j - (2 ^ 40 * rotation ^ j - gaussian pair)‖ := by
            rw [sub_sub_cancel]
          _ ≤ ‖2 ^ 40 * rotation ^ j‖ + ‖2 ^ 40 * rotation ^ j - gaussian pair‖ :=
            norm_sub_le _ _
          _ ≤ 2 ^ 41 := by
            rw [norm_mul, length, grainNorm]
            linarith
      have split :
          2 ^ 40 * (2 ^ 40 * rotation ^ (j + 1) - gaussian (rotated pair)) =
            2 ^ 40 * ((2 ^ 40 * rotation ^ j - gaussian pair) * rotation) +
              gaussian pair * (2 ^ 40 * rotation - gaussian smallTurn) +
                (gaussian pair * gaussian smallTurn - 2 ^ 40 * gaussian (rotated pair)) := by
        ring
      have total :
          2 ^ 40 * ‖2 ^ 40 * rotation ^ (j + 1) - gaussian (rotated pair)‖ ≤
            2 ^ 40 * (451 * j) + 2 ^ 41 * 225 + 3 / 2 * 2 ^ 39 := by
        calc
          2 ^ 40 * ‖2 ^ 40 * rotation ^ (j + 1) - gaussian (rotated pair)‖ =
              ‖2 ^ 40 * (2 ^ 40 * rotation ^ (j + 1) - gaussian (rotated pair))‖ := by
            rw [norm_mul, grainNorm]
          _ ≤ ‖2 ^ 40 * ((2 ^ 40 * rotation ^ j - gaussian pair) * rotation)‖ +
                ‖gaussian pair * (2 ^ 40 * rotation - gaussian smallTurn)‖ +
              ‖gaussian pair * gaussian smallTurn - 2 ^ 40 * gaussian (rotated pair)‖ := by
            rw [split]
            exact norm_add₃_le
          _ ≤ _ := by
            rw [norm_mul, norm_mul, norm_mul (gaussian pair), unitLength, mul_one, grainNorm]
            gcongr
      refine le_of_mul_le_mul_left (total.trans ?_) (by norm_num : (0 : ℝ) < 2 ^ 40)
      push_cast
      linarith

/-! ## The entries -/

/-- An entry and its pair differ by no more than 2.28 units. -/
def near (entry pair : Int × Int) : Bool :=
  625 *
      ((entry.1 * grain - 32768 * pair.1) ^ 2 + (entry.2 * grain - 32768 * pair.2) ^ 2) ≤
    (57 * grain) ^ 2

/-- The entries are compared with the pairs that follow a first one. -/
def allNear : Int × Int → List (Int × Int) → Bool
  | _, [] => true
  | pair, entry :: entries => near entry pair && allNear (rotated pair) entries

theorem allNear_getElem?
    {entries : List (Int × Int)}
    {pair entry : Int × Int}
    {j : Nat}
    (all : allNear pair entries = true)
    (here : entries[j]? = some entry) :
    near entry (rotated^[j] pair) = true := by
  induction entries generalizing pair j with
  | nil => cases here
  | cons first entries inductionHypothesis =>
      rw [allNear, Bool.and_eq_true] at all
      cases j with
      | zero =>
          obtain rfl := Option.some.inj here
          exact all.1
      | succ j =>
          rw [List.getElem?_cons_succ] at here
          have later := inductionHypothesis all.2 here
          exact later

theorem allNear_twiddles : allNear (grain, 0) (twiddles.take 512) = true := by
  decide +kernel

/-- No entry is further than 2.3 units from the rotation that it stands for. -/
theorem sine_close
    {j : Nat}
    (below : j < 512) :
    ‖gaussian (sine (j + 256), sine j) - 32768 * rotation ^ j‖ ≤ 2.3 := by
  have here : (twiddles.take 512)[j]? = some (sine (j + 256), sine j) := by
    rw [List.getElem?_take_of_lt below, twiddles_getElem? (by omega)]
  have isNear := allNear_getElem? allNear_twiddles here
  have following := rotated_iterate_close (j := j) (by omega)
  generalize rotated^[j] (grain, 0) = pair at isNear following
  generalize (sine (j + 256), sine j) = entry at isNear ⊢
  have grainNorm : ‖(2 ^ 40 : ℂ)‖ = 2 ^ 40 := by norm_num
  have count : (j : ℝ) ≤ 512 := by exact_mod_cast below.le
  have entryClose : ‖2 ^ 40 * gaussian entry - 32768 * gaussian pair‖ ≤ 2.28 * 2 ^ 40 := by
    refine le_of_sq_le_sq ?_ (by positivity)
    have whole :
        625 *
            ((entry.1 * 2 ^ 40 - 32768 * pair.1 : ℝ) ^ 2 +
              (entry.2 * 2 ^ 40 - 32768 * pair.2 : ℝ) ^ 2) ≤
          (57 * 2 ^ 40) ^ 2 := by
      exact_mod_cast of_decide_eq_true isNear
    have unit : (2 ^ 40 : ℂ) = ((2 ^ 40 : ℝ) : ℂ) := by norm_num
    have full : (32768 : ℂ) = ((32768 : ℝ) : ℂ) := by norm_num
    rw [Complex.sq_norm, normSq_apply, unit, full, sub_re, sub_im, re_ofReal_mul, re_ofReal_mul,
      im_ofReal_mul, im_ofReal_mul]
    unfold gaussian
    dsimp only
    linarith
  have split :
      2 ^ 40 * (gaussian entry - 32768 * rotation ^ j) =
        (2 ^ 40 * gaussian entry - 32768 * gaussian pair) -
          32768 * (2 ^ 40 * rotation ^ j - gaussian pair) := by
    ring
  have total :
      2 ^ 40 * ‖gaussian entry - 32768 * rotation ^ j‖ ≤
        2.28 * 2 ^ 40 + 32768 * (451 * j) := by
    calc
      2 ^ 40 * ‖gaussian entry - 32768 * rotation ^ j‖ =
          ‖2 ^ 40 * (gaussian entry - 32768 * rotation ^ j)‖ := by
        rw [norm_mul, grainNorm]
      _ ≤ ‖2 ^ 40 * gaussian entry - 32768 * gaussian pair‖ +
            ‖32768 * (2 ^ 40 * rotation ^ j - gaussian pair)‖ := by
        rw [split]
        exact norm_sub_le _ _
      _ ≤ _ := by
        rw [norm_mul (32768 : ℂ), show ‖(32768 : ℂ)‖ = 32768 by norm_num]
        gcongr
  linarith

end ApmSdk.ComplexFft
