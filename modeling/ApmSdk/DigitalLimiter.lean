import ApmSdk.DigitalAgc
import Mathlib.Tactic.IntervalCases

namespace ApmSdk.Agc

/-!
# The limiter of the digital gain control

The limiter lowers the gain of a millisecond until the envelope times the squared gain is
below a bound.  Every reduction makes the gain smaller in magnitude, so that where the
first test is exact all later ones are, and the loop ends.
-/

/-- `(gain >> zeros) + 1` -/
def scaledGain (zeros : Nat) (gain : Int) : Int :=
  gain >>> zeros + 1

/-- `(env >> 12) + 1` -/
def scaledEnv (env : Int) : Int :=
  env >>> (12 : Nat) + 1

/-- The loudness over exact integers. -/
def exactLoudness (env : Int) (zeros : Nat) (gain : Int) : Int :=
  scaledEnv env * (scaledGain zeros gain * scaledGain zeros gain) / 2 ^ 13

/-- An envelope of samples of 16 bits. -/
def IsEnvelope (env : Int) : Prop :=
  0 ≤ env ∧ env ≤ 2 ^ 30

/-- No product and no sum of `AGC_MUL32` overflows. -/
def Mul32Exact (a b : Int) : Prop :=
  Fits32 ((b >>> (13 : Nat)) * a) ∧
    Fits32 ((b % 2 ^ 13) * a) ∧
      Fits32 ((b >>> (13 : Nat)) * a + ((b % 2 ^ 13) * a) >>> (13 : Nat))

/-- The gains at which the loop of the limiter is tested, from the first. -/
inductive Tested (env : Int) (zeros : Nat) : Int → Int → Prop where
  | first (gain : Int) : Tested env zeros gain gain
  | reduced
      {gain later : Int}
      (louder : overloadBound zeros < loudness env zeros gain)
      (rest : Tested env zeros (reducedGain gain) later) :
      Tested env zeros gain later

/-- What the limiter must do for a millisecond: the loop ends, no product in it
overflows, and the gain it ends with keeps the exact bound. -/
structure LimiterExact (env gain : Int) : Prop where
  ends : ∃ last, limitedGain env gain = some last
  products :
    ∀ tested, Tested env (limitZeros gain) gain tested →
      Fits32
          (scaledGain (limitZeros gain) tested *
            scaledGain (limitZeros gain) tested) ∧
        Mul32Exact (scaledEnv env)
          (scaledGain (limitZeros gain) tested *
            scaledGain (limitZeros gain) tested)
  bounded :
    ∀ last, limitedGain env gain = some last →
      exactLoudness env (limitZeros gain) last ≤
        overloadBound (limitZeros gain)

/-- A gain and an envelope whose loudness has 32 bits. -/
structure Loud32 (env : Int) (zeros : Nat) (gain : Int) : Prop where
  square : |scaledGain zeros gain| ≤ 46340
  product :
    scaledEnv env * (scaledGain zeros gain * scaledGain zeros gain) < 2 ^ 44

/-! ## The loudness -/

theorem scaledEnv_bounds
    {env : Int}
    (isEnvelope : IsEnvelope env) :
    1 ≤ scaledEnv env ∧ scaledEnv env ≤ 2 ^ 18 + 1 := by
  obtain ⟨lower, upper⟩ := isEnvelope
  unfold scaledEnv
  rw [Int.shiftRight_eq_div_pow]
  omega

/-- The two halves of `AGC_MUL32` add up to the product. -/
theorem mul32_halves (a b : Int) :
    (b >>> (13 : Nat)) * a + ((b % 2 ^ 13) * a) >>> (13 : Nat) =
      a * b / 2 ^ 13 := by
  have whole :
      a * b = 2 ^ 13 * ((b / 2 ^ 13) * a) + (b % 2 ^ 13) * a := by
    have parts := Int.emod_add_mul_ediv b (2 ^ 13)
    calc
      a * b = a * (b % 2 ^ 13 + 2 ^ 13 * (b / 2 ^ 13)) := by rw [parts]
      _ = 2 ^ 13 * ((b / 2 ^ 13) * a) + (b % 2 ^ 13) * a := by ring
  rw [whole]
  simp only [Int.shiftRight_eq_div_pow]
  generalize (b % 2 ^ 13) * a = low
  push_cast
  generalize (b / 2 ^ 13) * a = high
  omega

/-- `AGC_MUL32` is exact where the product has 44 bits. -/
theorem mul32Exact_iff
    {a b : Int}
    (positive : 1 ≤ a)
    (upper : a ≤ 2 ^ 18 + 1)
    (nonneg : 0 ≤ b) :
    Mul32Exact a b ↔ a * b < 2 ^ 44 := by
  have product : 0 ≤ a * b := Int.mul_nonneg (by omega) nonneg
  have low : 0 ≤ (b % 2 ^ 13) * a ∧ (b % 2 ^ 13) * a < 2 ^ 31 := by
    have remainder : 0 ≤ b % 2 ^ 13 ∧ b % 2 ^ 13 ≤ 2 ^ 13 - 1 := by omega
    constructor
    · exact Int.mul_nonneg remainder.1 (by omega)
    · calc
        (b % 2 ^ 13) * a
          ≤ (2 ^ 13 - 1) * (2 ^ 18 + 1) :=
            mul_le_mul remainder.2 upper (by omega) (by decide)
        _ < 2 ^ 31 := by decide
  have high : 0 ≤ (b >>> (13 : Nat)) * a := by
    rw [Int.shiftRight_eq_div_pow]
    exact Int.mul_nonneg (by omega) (by omega)
  have halves := mul32_halves a b
  unfold Mul32Exact Fits32
  generalize (b >>> (13 : Nat)) * a = highProduct at *
  generalize (b % 2 ^ 13) * a = lowProduct at *
  generalize a * b = whole at *
  rw [Int.shiftRight_eq_div_pow lowProduct] at halves ⊢
  omega

/-- A loudness of 32 bits is computed exactly. -/
theorem Loud32.loudness_eq
    {env gain : Int}
    {zeros : Nat}
    (loud : Loud32 env zeros gain)
    (isEnvelope : IsEnvelope env) :
    loudness env zeros gain = exactLoudness env zeros gain := by
  obtain ⟨positive, upper⟩ := scaledEnv_bounds isEnvelope
  have square := (square_fits_iff _).mpr loud.square
  obtain ⟨high, low, sum⟩ :=
    (mul32Exact_iff positive upper (mul_self_nonneg _)).mpr loud.product
  have narrow : int32 (gain >>> zeros + 1) = scaledGain zeros gain := by
    have bounds := abs_le.mp loud.square
    unfold scaledGain at bounds ⊢
    exact int32_of_bounds (by omega) (by omega)
  unfold loudness agcMul32
  dsimp only
  rw [narrow, square.int32_eq]
  change
    int32
        (int32
            ((scaledGain zeros gain * scaledGain zeros gain) >>>
                (13 : Nat) * scaledEnv env) +
          int32
              ((scaledGain zeros gain * scaledGain zeros gain) % 2 ^ 13 *
                scaledEnv env) >>> (13 : Nat)) =
      _
  rw [high.int32_eq, low.int32_eq, sum.int32_eq]
  exact mul32_halves _ _

/-! ## Reductions -/

theorem tdiv_neg_eq
    {num : Int}
    (negative : num ≤ 0)
    (den : Int) :
    Int.tdiv num den = -(-num / den) := by
  rw [← Int.tdiv_eq_ediv_of_nonneg (show 0 ≤ -num by omega), Int.neg_tdiv,
    Int.neg_neg]

/-- A gain that is not negative is reduced to a smaller one. -/
theorem reducedGain_nonneg
    {gain : Int}
    (nonneg : 0 ≤ gain)
    (fits : Fits32 gain) :
    0 ≤ reducedGain gain ∧ reducedGain gain ≤ gain ∧
      (gain ≠ 0 → reducedGain gain < gain) := by
  have upper := fits.2
  unfold reducedGain
  split
  · rw [Int.tdiv_eq_ediv_of_nonneg nonneg,
      int32_of_bounds (by omega) (by omega)]
    omega
  · rw [int32_of_bounds (by omega) (by omega),
      Int.tdiv_eq_ediv_of_nonneg (by omega)]
    omega

/-- A negative gain is reduced to one of smaller magnitude, which is negative unless the
product by 253 overflows. -/
theorem reducedGain_negative
    {gain : Int}
    (negative : gain < 0)
    (fits : Fits32 gain) :
    gain < reducedGain gain ∧ reducedGain gain < -gain ∧
      (reducedGain gain ≤ 0 ∨
        gain < -8488077 ∧ reducedGain gain ≤ 2 ^ 23) := by
  have lower := fits.1
  unfold reducedGain
  rw [if_neg (by omega)]
  by_cases small : -8488077 ≤ gain
  · rw [int32_of_bounds (by omega) (by omega), tdiv_neg_eq (by omega)]
    omega
  · have wrapped : Fits32 (int32 (gain * 253)) :=
      ⟨Int.le_bmod (by decide), Int.bmod_lt (by decide)⟩
    obtain ⟨wrappedLower, wrappedUpper⟩ := wrapped
    generalize int32 (gain * 253) = product at *
    rcases Int.le_total 0 product with up | down
    · rw [Int.tdiv_eq_ediv_of_nonneg up]
      omega
    · rw [tdiv_neg_eq down]
      omega

/-- A reduced gain is scaled to no larger a number. -/
theorem scaledGain_reducedGain
    {zeros : Nat}
    {gain : Int}
    (fits : Fits32 gain)
    (negative : gain < 0 → zeros = 10) :
    |scaledGain zeros (reducedGain gain)| ≤ max |scaledGain zeros gain| 1 := by
  unfold scaledGain
  rcases Int.lt_or_le gain 0 with below | nonneg
  · obtain rfl := negative below
    obtain ⟨larger, smaller, sign⟩ := reducedGain_negative below fits
    generalize reducedGain gain = reduced at *
    simp only [Int.shiftRight_eq_div_pow]
    have old : |gain / (2 ^ 10 : Nat) + 1| = -(gain / (2 ^ 10 : Nat) + 1) :=
      abs_of_nonpos (by omega)
    rw [old, abs_le]
    omega
  · obtain ⟨reducedNonneg, smaller, -⟩ := reducedGain_nonneg nonneg fits
    have shifted : reducedGain gain >>> zeros ≤ gain >>> zeros := by
      simp only [Int.shiftRight_eq_div_pow]
      exact Int.ediv_le_ediv (by positivity) smaller
    have positive : 0 ≤ reducedGain gain >>> zeros := by
      rw [Int.shiftRight_eq_div_pow]
      exact Int.ediv_nonneg reducedNonneg (by positivity)
    rw [abs_of_nonneg (by omega), abs_of_nonneg (by omega)]
    omega

/-! ## The loop -/

/-- The loop at a gain whose loudness has 32 bits, with a bound that zero keeps. -/
structure Limiting (env : Int) (zeros : Nat) (gain : Int) : Prop where
  fits : Fits32 gain
  loud : Loud32 env zeros gain
  negative : gain < 0 → zeros = 10
  silent : exactLoudness env zeros 0 ≤ overloadBound zeros

/-- A reduction keeps the loudness within 32 bits. -/
theorem Limiting.reduced
    {env gain : Int}
    {zeros : Nat}
    (limiting : Limiting env zeros gain)
    (isEnvelope : IsEnvelope env) :
    Limiting env zeros (reducedGain gain) := by
  obtain ⟨positive, upper⟩ := scaledEnv_bounds isEnvelope
  have smaller := scaledGain_reducedGain limiting.fits limiting.negative
  have square := limiting.loud.square
  have product := limiting.loud.product
  have fits : Fits32 (reducedGain gain) := by
    have old := limiting.fits
    rcases Int.lt_or_le gain 0 with below | nonneg
    · have magnitude := reducedGain_negative below old
      exact ⟨by have := old.1; omega, by have := old.1; omega⟩
    · have magnitude := reducedGain_nonneg nonneg old
      exact ⟨by omega, by have := old.2; omega⟩
  refine ⟨fits, ⟨?_, ?_⟩, ?_, limiting.silent⟩
  · omega
  · rw [← abs_mul_abs_self (scaledGain zeros gain)] at product
    rw [← abs_mul_abs_self]
    generalize |scaledGain zeros gain| = old at *
    have nonneg : 0 ≤ |scaledGain zeros (reducedGain gain)| := abs_nonneg _
    generalize |scaledGain zeros (reducedGain gain)| = new at *
    rcases Int.le_total old 1 with one | more
    · have atMostOne : new * new ≤ 1 * 1 :=
        mul_le_mul (by omega) (by omega) nonneg (by decide)
      calc
        scaledEnv env * (new * new)
          ≤ scaledEnv env * (1 * 1) :=
            Int.mul_le_mul_of_nonneg_left atMostOne (by omega)
        _ < 2 ^ 44 := by omega
    · have atMostOld : new * new ≤ old * old :=
        mul_le_mul (by omega) (by omega) nonneg (by omega)
      exact
        Int.lt_of_le_of_lt
          (Int.mul_le_mul_of_nonneg_left atMostOld (by omega)) product
  · intro below
    rcases Int.lt_or_le gain 0 with oldBelow | nonneg
    · exact limiting.negative oldBelow
    · have sign := (reducedGain_nonneg nonneg limiting.fits).1
      omega

/-- The gain whose test fails is not zero, and its reduction is smaller. -/
theorem Limiting.natAbs_reducedGain_lt
    {env gain : Int}
    {zeros : Nat}
    (limiting : Limiting env zeros gain)
    (isEnvelope : IsEnvelope env)
    (louder : overloadBound zeros < loudness env zeros gain) :
    (reducedGain gain).natAbs < gain.natAbs := by
  have nonzero : gain ≠ 0 := by
    rintro rfl
    rw [limiting.loud.loudness_eq isEnvelope] at louder
    exact absurd louder (Int.not_lt.mpr limiting.silent)
  rcases Int.lt_or_le gain 0 with below | nonneg
  · have magnitude := reducedGain_negative below limiting.fits
    omega
  · have magnitude := reducedGain_nonneg nonneg limiting.fits
    omega

/-- The loop ends, with a gain that keeps the bound. -/
theorem Limiting.ends
    {env gain : Int}
    {zeros fuel : Nat}
    (limiting : Limiting env zeros gain)
    (isEnvelope : IsEnvelope env)
    (enough : gain.natAbs < fuel) :
    ∃ last,
      limitLoop env zeros fuel gain = some last ∧
        exactLoudness env zeros last ≤ overloadBound zeros := by
  induction fuel generalizing gain with
  | zero =>
      omega
  | succ fuel inductionHypothesis =>
      unfold limitLoop
      by_cases louder : overloadBound zeros < loudness env zeros gain
      · rw [if_pos louder]
        have smaller := limiting.natAbs_reducedGain_lt isEnvelope louder
        exact
          inductionHypothesis (limiting.reduced isEnvelope) (by omega)
      · rw [if_neg louder]
        refine ⟨gain, rfl, ?_⟩
        rw [← limiting.loud.loudness_eq isEnvelope]
        exact Int.not_lt.mp louder

/-- Every gain that is tested has a loudness of 32 bits. -/
theorem Limiting.tested
    {env gain later : Int}
    {zeros : Nat}
    (limiting : Limiting env zeros gain)
    (isEnvelope : IsEnvelope env)
    (tested : Tested env zeros gain later) :
    Limiting env zeros later := by
  induction tested with
  | first gain =>
      exact limiting
  | reduced louder rest inductionHypothesis =>
      exact inductionHypothesis (limiting.reduced isEnvelope)

/-! ## The shift -/

/-- The shift is at least ten, and sixteen for gains of 31 bits alone. -/
theorem limitZeros_bounds
    {gain : Int}
    (fits : Fits32 gain) :
    10 ≤ limitZeros gain ∧ limitZeros gain ≤ 16 ∧
      (gain < 0 → limitZeros gain = 10) ∧
        (limitZeros gain = 16 → 2 ^ 30 ≤ gain) := by
  unfold limitZeros
  split
  next large =>
      have normed : normW32 gain = leadingZeros 31 gain := by
        unfold normW32
        rw [if_neg (by omega), if_neg (by omega)]
      obtain ⟨least, below⟩ :=
        leadingZeros_normalises (by decide) (by decide)
          (show 0 < gain by omega) (show gain < 2 ^ 31 from fits.2)
      rw [normed]
      have few : leadingZeros 31 gain ≤ 5 := by
        by_contra many
        have power : (2 : Int) ^ 6 ≤ 2 ^ leadingZeros 31 gain :=
          pow_le_pow_right₀ (by decide) (by omega)
        have tooLarge :
            47453132 * 2 ^ 6 ≤ gain * 2 ^ leadingZeros 31 gain :=
          mul_le_mul large.le power (by decide) (by omega)
        omega
      refine ⟨by omega, by omega, by omega, ?_⟩
      intro none
      have noZeros : leadingZeros 31 gain = 0 := by omega
      rw [noZeros] at least
      omega
  next =>
      exact
        ⟨by decide, by decide, fun _ => rfl,
          fun isLargest => absurd isLargest (by decide)⟩

theorem overloadBound_bounds
    {zeros : Nat}
    (lower : 10 ≤ zeros)
    (upper : zeros ≤ 16) :
    31 ≤ overloadBound zeros ∧ (zeros ≠ 16 → 127 ≤ overloadBound zeros) := by
  interval_cases zeros <;> decide

/-- A gain and an envelope whose loudness has 32 bits start the loop. -/
theorem Loud32.limiting
    {env gain : Int}
    (loud : Loud32 env (limitZeros gain) gain)
    (isEnvelope : IsEnvelope env)
    (fits : Fits32 gain) :
    Limiting env (limitZeros gain) gain := by
  obtain ⟨lower, upper, negative, largest⟩ := limitZeros_bounds fits
  obtain ⟨bound, largeBound⟩ := overloadBound_bounds lower upper
  obtain ⟨positive, envUpper⟩ := scaledEnv_bounds isEnvelope
  refine ⟨fits, loud, negative, ?_⟩
  have silent :
      exactLoudness env (limitZeros gain) 0 = scaledEnv env / 2 ^ 13 := by
    unfold exactLoudness scaledGain
    rw [Int.zero_shiftRight]
    norm_num
  rw [silent]
  by_cases isLargest : limitZeros gain = 16
  · -- a gain of 31 bits leaves less than 16 bits for the envelope
    have large := largest isLargest
    have scaled : 2 ^ 14 ≤ scaledGain (limitZeros gain) gain := by
      rw [isLargest]
      unfold scaledGain
      rw [Int.shiftRight_eq_div_pow]
      omega
    have square :
        2 ^ 14 * 2 ^ 14 ≤
          scaledGain (limitZeros gain) gain *
            scaledGain (limitZeros gain) gain :=
      mul_le_mul scaled scaled (by decide) (by omega)
    have whole :
        scaledEnv env * (2 ^ 14 * 2 ^ 14) ≤
          scaledEnv env *
            (scaledGain (limitZeros gain) gain *
              scaledGain (limitZeros gain) gain) :=
      Int.mul_le_mul_of_nonneg_left square (by omega)
    have product := loud.product
    omega
  · have bound := largeBound isLargest
    omega

/-- The limiter is exact where the loudness it starts with has 32 bits. -/
theorem limiterExact_iff
    {env gain : Int}
    (isEnvelope : IsEnvelope env)
    (fits : Fits32 gain) :
    LimiterExact env gain ↔ Loud32 env (limitZeros gain) gain := by
  obtain ⟨positive, upper⟩ := scaledEnv_bounds isEnvelope
  constructor
  · intro exact
    obtain ⟨square, product⟩ := exact.products gain (.first gain)
    exact
      ⟨(square_fits_iff _).mp square,
        (mul32Exact_iff positive upper (mul_self_nonneg _)).mp product⟩
  · intro loud
    have limiting := loud.limiting isEnvelope fits
    obtain ⟨last, ended, bounded⟩ :=
      limiting.ends isEnvelope (Nat.lt_succ_self gain.natAbs)
    refine ⟨⟨last, ended⟩, ?_, ?_⟩
    · intro later tested
      have laterLoud := (limiting.tested isEnvelope tested).loud
      exact
        ⟨(square_fits_iff _).mpr laterLoud.square,
          (mul32Exact_iff positive upper (mul_self_nonneg _)).mpr
            laterLoud.product⟩
    · intro other isLast
      obtain rfl := Option.some.inj (ended.symm.trans isLast)
      exact bounded

/-! ## Frames and runs -/

/-- The gains before the limiter are words of 32 bits. -/
theorem DigitalAgc.fits_unlimitedGains
    {stt : DigitalAgc}
    {low : LowBand}
    {gain : Int}
    (member : gain ∈ stt.unlimitedGains low) :
    Fits32 gain := by
  obtain ⟨level, -, rfl⟩ := List.mem_map.mp member
  unfold gatedGain
  split
  · exact int32_bounds _
  · exact int32_bounds _

/-- The envelope of samples of 16 bits. -/
theorem isEnvelope_envelope
    {low : LowBand}
    {env : Int}
    (sampled : ∀ sample ∈ low.samples, Fits16 sample)
    (member : env ∈ DigitalAgc.envelope low) :
    IsEnvelope env := by
  have largest
      (samples : List Int)
      (start : Int)
      (isEnvelope : IsEnvelope start)
      (fits : ∀ sample ∈ samples, Fits16 sample) :
      IsEnvelope
        (samples.foldl
          (fun maxNrg sample => max maxNrg (sample * sample)) start) := by
    induction samples generalizing start with
    | nil =>
        exact isEnvelope
    | cons sample rest inductionHypothesis =>
        rw [List.forall_mem_cons] at fits
        have square : sample * sample ≤ 2 ^ 30 := by
          obtain ⟨lower, upper⟩ := fits.1
          nlinarith
        obtain ⟨nonneg, atMost⟩ := isEnvelope
        exact
          inductionHypothesis _
            ⟨le_max_of_le_left nonneg, max_le atMost square⟩ fits.2
  obtain ⟨k, -, rfl⟩ := List.mem_map.mp member
  apply largest _ 0 ⟨by decide, by decide⟩
  intro sample inPart
  exact sampled sample (List.mem_of_mem_drop (List.mem_of_mem_take inPart))

theorem DigitalFrame.low_sampled (frame : DigitalFrame) :
    ∀ sample ∈ frame.low.samples, Fits16 sample := by
  obtain ⟨band, rest, isBands⟩ := List.exists_cons_of_ne_nil frame.nonempty
  have isLow : frame.low.samples = band := by
    unfold DigitalFrame.low
    rw [isBands]
    rfl
  rw [isLow]
  exact frame.sampled band (by rw [isBands]; exact .head _)

namespace DigitalAgc

/-- The envelope and the gain of each millisecond, as the limiter finds them. -/
def limiterInputs (stt : DigitalAgc) (low : LowBand) : List (Int × Int) :=
  (envelope low).zip (stt.unlimitedGains low)

/-- What the limiter must do in a call. -/
def LimitsExactly (stt : DigitalAgc) : DigitalCall → Prop
  | .process frame =>
      ∀ input ∈ stt.limiterInputs frame.low, LimiterExact input.1 input.2
  | _ => True

/-- Every millisecond of a call has a loudness of 32 bits before the limiter. -/
def Loudness32 (stt : DigitalAgc) : DigitalCall → Prop
  | .process frame =>
      ∀ input ∈ stt.limiterInputs frame.low,
        Loud32 input.1 (limitZeros input.2) input.2
  | _ => True

theorem limitsExactly_iff
    (stt : DigitalAgc)
    (call : DigitalCall) :
    stt.LimitsExactly call ↔ stt.Loudness32 call := by
  cases call with
  | process frame =>
      refine forall_congr' fun input => imp_congr_right fun member => ?_
      have envMember := (List.of_mem_zip member).1
      have gainMember := (List.of_mem_zip member).2
      exact
        limiterExact_iff
          (isEnvelope_envelope frame.low_sampled envMember)
          (fits_unlimitedGains gainMember)
  | init agcMode =>
      exact Iff.rfl
  | setConfig agcConfig =>
      exact Iff.rfl
  | addFarend frame =>
      exact Iff.rfl

/-- A call whose limiter is exact returns. -/
theorem LimitsExactly.returns
    {stt : DigitalAgc}
    {frame : DigitalFrame}
    (exact : stt.LimitsExactly (.process frame)) :
    (stt.perform (.process frame)).isSome := by
  have ended
      (inputs : List (Int × Int))
      (exact : ∀ input ∈ inputs, LimiterExact input.1 input.2) :
      ∃ limited,
        inputs.mapM (fun input => limitedGain input.1 input.2) =
          some limited := by
    induction inputs with
    | nil =>
        exact ⟨[], rfl⟩
    | cons input rest inductionHypothesis =>
        rw [List.forall_mem_cons] at exact
        obtain ⟨last, isLast⟩ := exact.1.ends
        obtain ⟨limited, isLimited⟩ := inductionHypothesis exact.2
        refine ⟨last :: limited, ?_⟩
        rw [List.mapM_cons, isLimited, isLast]
        rfl
  obtain ⟨limited, isLimited⟩ := ended _ exact
  have isGains : stt.limitedGains frame.low = some limited := isLimited
  unfold perform processDigital
  dsimp only
  rw [frame.rate]
  dsimp only
  unfold DigitalFrame.low at isGains
  rw [isGains]
  rfl

/--
In every run of calls the limiter ends, without an overflow and with gains that keep the
exact bound, if and only if each call finds gains whose loudness has 32 bits.
-/
theorem run_limitsExactly_iff
    (stt : DigitalAgc)
    (calls : List DigitalCall) :
    AlongRun perform LimitsExactly stt calls ↔
      AlongRun perform Loudness32 stt calls :=
  AlongRun.iff_of_invariant (fun _ => True) (fun _ _ => trivial)
    (fun _ => limitsExactly_iff _ _) trivial calls

end DigitalAgc

/-- A frame of one band and one value at 8 kHz. -/
def constantBand (sample : Int) (fits : Fits16 sample) : DigitalFrame where
  bands := [List.replicate 80 sample]
  fs := 8000
  lowlevelSignal := 0
  perMs := 8
  rate := rfl
  nonempty := List.cons_ne_nil _ _
  size := by
    intro band member
    obtain rfl := List.mem_singleton.mp member
    exact List.length_replicate
  sampled := by
    intro band member value inBand
    obtain rfl := List.mem_singleton.mp member
    obtain rfl := List.eq_of_mem_replicate inBand
    exact fits

/--
In the fixed digital mode with a compression gain of 130 dB, a first frame at full scale
gets a gain of 142 whose loudness has 33 bits: the product is negative, and the limiter
leaves the gain as it is.
-/
theorem DigitalAgc.not_run_limitsExactly_fullScale :
    ¬ ∀ (agcMode : Int) (gainTable : List Int) (calls : List DigitalCall),
        gainTableOf agcMode defaultConfig = some gainTable →
          AlongRun perform LimitsExactly (started agcMode gainTable)
            calls := by
  intro claimed
  have default :
      gainTableOf modeFixedDigital defaultConfig =
        some ((gainTableOf modeFixedDigital defaultConfig).getD []) := by
    decide +kernel
  have configured :
      (started modeFixedDigital
          ((gainTableOf modeFixedDigital defaultConfig).getD [])).perform
          (.setConfig ⟨0, 130, 0⟩) =
        some
          (started modeFixedDigital
            ((gainTableOf modeFixedDigital ⟨0, 130, 0⟩).getD [])) := by
    decide +kernel
  have along :=
    claimed _ _
      [.setConfig ⟨0, 130, 0⟩,
        .process (constantBand (-32768) (by decide))]
      default
  have exact := (along.2 _ configured).1
  have found :
      (2 ^ 30, 9324544) ∈
        (started modeFixedDigital
          ((gainTableOf modeFixedDigital ⟨0, 130, 0⟩).getD [])).limiterInputs
          (constantBand (-32768) (by decide)).low := by
    decide +kernel
  have loud :=
    (limiterExact_iff ⟨by decide, by decide⟩ ⟨by decide, by decide⟩).mp
      (exact _ found)
  exact absurd loud.product (by decide +kernel)

end ApmSdk.Agc
