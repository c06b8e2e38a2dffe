import ApmSdk.CIntegers
import ApmSdk.Transducer

namespace ApmSdk.Resample48khz

/-!
# Resampling from 48 to 8 kHz

A block of 10 ms passes a decimator, a low-pass filter, an interpolator with three samples in
and two out, and a second decimator.  The decimators and the low-pass filter add branches of
three all-pass sections each.
-/

/-- The coefficients of a branch, in Q14. -/
structure Coefficients where
  first : Int
  second : Int
  third : Int

/-- `kResampleAllpass[0]` -/
def upperAllpass : Coefficients :=
  ⟨821, 6110, 12382⟩

/-- `kResampleAllpass[1]` -/
def lowerAllpass : Coefficients :=
  ⟨3050, 9368, 15063⟩

/-- The four words of a filter state that belong to one branch. -/
structure Branch where
  state0 : Int
  state1 : Int
  state2 : Int
  state3 : Int
deriving Repr, DecidableEq

/-- The words after `memset`. -/
def Branch.zero : Branch :=
  ⟨0, 0, 0, 0⟩

/-- Scale down and round. -/
def scaleAndRound (diff : Int) : Int :=
  int32 (diff + 2 ^ 13) >>> (14 : Nat)

/-- Scale down and truncate. -/
def scaleAndTruncate (diff : Int) : Int :=
  let diff := diff >>> (14 : Nat)
  if diff < 0 then diff + 1 else diff

/-- A branch after a sample. -/
def Branch.next
    (coefficients : Coefficients)
    (state : Branch)
    (sample : Int) : Branch :=
  let diff := scaleAndRound (int32 (sample - state.state1))
  let tmp1 := int32 (state.state0 + diff * coefficients.first)
  let diff := scaleAndTruncate (int32 (tmp1 - state.state2))
  let tmp0 := int32 (state.state1 + diff * coefficients.second)
  let diff := scaleAndTruncate (int32 (tmp0 - state.state3))
  { state0 := sample
    state1 := tmp1
    state2 := tmp0
    state3 := int32 (state.state2 + diff * coefficients.third) }

/-- One loop over the samples of a branch; each output is half of its last word. -/
def allpass (coefficients : Coefficients) : Transducer Branch Int Int where
  output state sample := (state.next coefficients sample).state3 >>> (1 : Nat)
  next := Branch.next coefficients

/-- The samples at even places; a last one without a second is not read. -/
def evens : List Int → List Int
  | first :: _ :: rest => first :: evens rest
  | [_] => []
  | [] => []

/-- The samples at odd places. -/
def odds : List Int → List Int
  | _ :: second :: rest => second :: odds rest
  | [_] => []
  | [] => []

/-- Samples for even and for odd places in turn. -/
def interleave (even odd : List Int) : List Int :=
  (List.zipWith (fun first second => [first, second]) even odd).flatten

/-- The eight words of a decimator. -/
structure Decimator where
  lower : Branch
  upper : Branch
deriving Repr, DecidableEq

/-- Both branches of a decimator, and its words behind them. -/
def Decimator.branches
    (state : Decimator)
    (samples : List Int) : List (Int × Int) × Decimator :=
  ((((allpass lowerAllpass).outputs state.lower (evens samples)).zip
      ((allpass upperAllpass).outputs state.upper (odds samples))),
    { lower := (allpass lowerAllpass).final state.lower (evens samples)
      upper := (allpass upperAllpass).final state.upper (odds samples) })

/-- `WebRtcSpl_DownBy2ShortToInt` -/
def downBy2ShortToInt
    (samples : List Int)
    (state : Decimator) : List Int × Decimator :=
  let shifted := samples.map fun sample => sample * 2 ^ 15 + 2 ^ 14
  let (outputs, next) := state.branches shifted
  (outputs.map fun output => int32 (output.1 + output.2), next)

/-- `WebRtcSpl_DownBy2IntToShort` -/
def downBy2IntToShort
    (samples : List Int)
    (state : Decimator) : List Int × Decimator :=
  let (outputs, next) := state.branches samples
  (outputs.map fun output =>
      satW32ToW16 (int32 (output.1 + output.2) >>> (15 : Nat)),
    next)

/-- The sixteen words of the low-pass filter. -/
structure Lowpass where
  evenLower : Branch
  evenUpper : Branch
  oddLower : Branch
  oddUpper : Branch
deriving Repr, DecidableEq

/-- The average of two branches, scaled down. -/
def average (lower upper : Int) : Int :=
  int32 (lower + upper) >>> (15 : Nat)

/-- `WebRtcSpl_LPBy2IntToInt` -/
def lpBy2IntToInt
    (samples : List Int)
    (state : Lowpass) : List Int × Lowpass :=
  let even := evens samples
  let odd := odds samples
  -- `state[12]` holds the last odd sample of the block before
  let delayed := (state.oddUpper.state0 :: odd).take odd.length
  let evenOut :=
    List.zipWith average
      ((allpass lowerAllpass).outputs state.evenLower delayed)
      ((allpass upperAllpass).outputs state.evenUpper even)
  let oddOut :=
    List.zipWith average
      ((allpass lowerAllpass).outputs state.oddLower even)
      ((allpass upperAllpass).outputs state.oddUpper odd)
  (interleave evenOut oddOut,
    { evenLower := (allpass lowerAllpass).final state.evenLower delayed
      evenUpper := (allpass upperAllpass).final state.evenUpper even
      oddLower := (allpass lowerAllpass).final state.oddLower even
      oddUpper := (allpass upperAllpass).final state.oddUpper odd })

/-- `kCoefficients48To32[0]` -/
def firstCoefficients48To32 : List Int :=
  [778, -2050, 1087, 23285, 12903, -3783, 441, 222]

/-- `kCoefficients48To32[1]` -/
def secondCoefficients48To32 : List Int :=
  [222, 441, -3783, 12903, 23285, 1087, -2050, 778]

/-- One sample of the interpolator. -/
def interpolate (coefficients samples : List Int) : Int :=
  (coefficients.zip samples).foldl
    (fun tmp term => int32 (tmp + term.1 * term.2))
    (2 ^ 14)

/-- `WebRtcSpl_Resample48khzTo32khz` for some blocks of three samples. -/
def resample48khzTo32khz (samples : List Int) : Nat → List Int
  | 0 => []
  | blocks + 1 =>
      interpolate firstCoefficients48To32 samples ::
        interpolate secondCoefficients48To32 (samples.drop 1) ::
        resample48khzTo32khz (samples.drop 3) blocks

/-- `WebRtcSpl_State48khzTo8khz` -/
structure State48khzTo8khz where
  S_48_24 : Decimator
  S_24_24 : Lowpass
  S_24_16 : List Int
  S_16_8 : Decimator
deriving Repr, DecidableEq

/-- `WebRtcSpl_ResetResample48khzTo8khz` -/
def resetResample48khzTo8khz : State48khzTo8khz where
  S_48_24 := ⟨.zero, .zero⟩
  S_24_24 := ⟨.zero, .zero, .zero, .zero⟩
  S_24_16 := List.replicate 8 0
  S_16_8 := ⟨.zero, .zero⟩

/-- `WebRtcSpl_Resample48khzTo8khz` -/
def resample48khzTo8khz
    (samples : List Int)
    (state : State48khzTo8khz) : List Int × State48khzTo8khz :=
  let (samples24, next_48_24) := downBy2ShortToInt samples state.S_48_24
  let (lowpassed, next_24_24) := lpBy2IntToInt samples24 state.S_24_24
  let tmpmem := state.S_24_16 ++ lowpassed
  let (out, next_16_8) :=
    downBy2IntToShort (resample48khzTo32khz tmpmem 80) state.S_16_8
  (out,
    { S_48_24 := next_48_24
      S_24_24 := next_24_24
      S_24_16 := (tmpmem.drop 240).take 8
      S_16_8 := next_16_8 })

/-! ## How many samples each pass gives -/

@[simp] theorem length_evens (samples : List Int) :
    (evens samples).length = samples.length / 2 := by
  induction samples using evens.induct with
  | case1 first second rest inductionHypothesis =>
      simp only [evens, List.length_cons, inductionHypothesis]
      omega
  | case2 sample =>
      simp [evens]
  | case3 =>
      rfl

@[simp] theorem length_odds (samples : List Int) :
    (odds samples).length = samples.length / 2 := by
  induction samples using odds.induct with
  | case1 first second rest inductionHypothesis =>
      simp only [odds, List.length_cons, inductionHypothesis]
      omega
  | case2 sample =>
      simp [odds]
  | case3 =>
      rfl

theorem mem_of_mem_evens
    {samples : List Int}
    {sample : Int}
    (member : sample ∈ evens samples) :
    sample ∈ samples := by
  induction samples using evens.induct with
  | case1 first second rest inductionHypothesis =>
      rcases List.mem_cons.mp member with rfl | later
      · exact List.mem_cons_self
      · exact List.mem_cons_of_mem _ (List.mem_cons_of_mem _ (inductionHypothesis later))
  | case2 sample =>
      contradiction
  | case3 =>
      contradiction

theorem mem_of_mem_odds
    {samples : List Int}
    {sample : Int}
    (member : sample ∈ odds samples) :
    sample ∈ samples := by
  induction samples using odds.induct with
  | case1 first second rest inductionHypothesis =>
      rcases List.mem_cons.mp member with rfl | later
      · exact List.mem_cons_of_mem _ List.mem_cons_self
      · exact List.mem_cons_of_mem _ (List.mem_cons_of_mem _ (inductionHypothesis later))
  | case2 sample =>
      contradiction
  | case3 =>
      contradiction

@[simp] theorem length_interleave (even odd : List Int) :
    (interleave even odd).length = 2 * min even.length odd.length := by
  induction even generalizing odd with
  | nil =>
      simp [interleave]
  | cons first even inductionHypothesis =>
      cases odd with
      | nil =>
          simp [interleave]
      | cons second odd =>
          have rest := inductionHypothesis odd
          simp only [interleave] at rest
          simp only [interleave, List.zipWith_cons_cons, List.flatten_cons,
            List.length_append, List.length_cons, List.length_nil, rest]
          omega

@[simp] theorem length_branches (state : Decimator) (samples : List Int) :
    (state.branches samples).1.length = samples.length / 2 := by
  simp only [Decimator.branches, List.length_zip, Transducer.length_outputs,
    length_evens, length_odds]
  omega

@[simp] theorem length_downBy2ShortToInt
    (samples : List Int)
    (state : Decimator) :
    (downBy2ShortToInt samples state).1.length = samples.length / 2 := by
  simp [downBy2ShortToInt]

@[simp] theorem length_downBy2IntToShort
    (samples : List Int)
    (state : Decimator) :
    (downBy2IntToShort samples state).1.length = samples.length / 2 := by
  simp [downBy2IntToShort]

@[simp] theorem length_resample48khzTo32khz
    (samples : List Int)
    (blocks : Nat) :
    (resample48khzTo32khz samples blocks).length = 2 * blocks := by
  induction blocks generalizing samples with
  | zero =>
      rfl
  | succ blocks inductionHypothesis =>
      simp only [resample48khzTo32khz, List.length_cons, inductionHypothesis]
      omega

/-- A call gives 80 samples. -/
@[simp] theorem length_resample48khzTo8khz
    (samples : List Int)
    (state : State48khzTo8khz) :
    (resample48khzTo8khz samples state).1.length = 80 := by
  simp [resample48khzTo8khz]

end ApmSdk.Resample48khz
