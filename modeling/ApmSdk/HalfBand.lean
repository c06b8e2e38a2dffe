import ApmSdk.CIntegers

namespace ApmSdk.HalfBand

/-!
# Resampling by two

A stream passes two branches of three all-pass sections each, with samples in Q10.  The
upsampler puts out both branches for each sample, the downsampler their mean for each two.
-/

/-- The words of `filtState` that belong to one branch. -/
structure Branch where
  state0 : Int
  state1 : Int
  state2 : Int
  state3 : Int
deriving Repr, DecidableEq

/-- `filtState` -/
structure FilterState where
  lower : Branch
  upper : Branch
deriving Repr, DecidableEq

/-- The words after `memset`. -/
def FilterState.zero : FilterState :=
  ⟨⟨0, 0, 0, 0⟩, ⟨0, 0, 0, 0⟩⟩

/-- The coefficients of a branch, in Q16. -/
structure Coefficients where
  first : Int
  second : Int
  third : Int

/-- `kResampleAllpass1` -/
def kResampleAllpass1 : Coefficients :=
  ⟨3284, 24441, 49528⟩

/-- `kResampleAllpass2` -/
def kResampleAllpass2 : Coefficients :=
  ⟨12199, 37471, 60255⟩

/-- `MUL_ACCUM_1` and `MUL_ACCUM_2` -/
def mulAccum (coefficient diff state : Int) : Int :=
  int32
    (state + (diff >>> (16 : Nat)) * coefficient +
      (diff % 2 ^ 16 * coefficient) >>> (16 : Nat))

/-- A branch after a sample in Q10; its last word is what it puts out. -/
def Branch.next
    (coefficients : Coefficients)
    (state : Branch)
    (in32 : Int) : Branch :=
  let diff := int32 (in32 - state.state1)
  let tmp1 := mulAccum coefficients.first diff state.state0
  let diff := int32 (tmp1 - state.state2)
  let tmp2 := mulAccum coefficients.second diff state.state1
  let diff := int32 (tmp2 - state.state3)
  { state0 := in32
    state1 := tmp1
    state2 := tmp2
    state3 := mulAccum coefficients.third diff state.state2 }

/-- `WebRtcSpl_UpsampleBy2`: the samples put out and `filtState` behind them. -/
def upsampleBy2 : FilterState → List Int → List Int × FilterState
  | state, [] => ([], state)
  | state, sample :: rest =>
      let in32 := sample * 2 ^ 10
      let lower := state.lower.next kResampleAllpass1 in32
      let upper := state.upper.next kResampleAllpass2 in32
      let (out, last) := upsampleBy2 ⟨lower, upper⟩ rest
      (satW32ToW16 (int32 (lower.state3 + 512) >>> (10 : Nat)) ::
        satW32ToW16 (int32 (upper.state3 + 512) >>> (10 : Nat)) :: out,
        last)

/-- `WebRtcSpl_DownsampleBy2`: a last sample without a second one is not read. -/
def downsampleBy2 : FilterState → List Int → List Int × FilterState
  | state, first :: second :: rest =>
      let lower := state.lower.next kResampleAllpass2 (first * 2 ^ 10)
      let upper := state.upper.next kResampleAllpass1 (second * 2 ^ 10)
      let out32 :=
        int32 (lower.state3 + upper.state3 + 1024) >>> (11 : Nat)
      let (out, last) := downsampleBy2 ⟨lower, upper⟩ rest
      (satW32ToW16 out32 :: out, last)
  | state, _ => ([], state)

/-- The upsampler puts out two samples for each. -/
@[simp] theorem length_upsampleBy2
    (state : FilterState)
    (samples : List Int) :
    (upsampleBy2 state samples).1.length = 2 * samples.length := by
  induction samples generalizing state with
  | nil =>
      rfl
  | cons sample rest inductionHypothesis =>
      unfold upsampleBy2
      simp only [List.length_cons, inductionHypothesis]
      omega

/-- The downsampler puts out one sample for each two. -/
@[simp] theorem length_downsampleBy2
    (state : FilterState)
    (samples : List Int) :
    (downsampleBy2 state samples).1.length = samples.length / 2 := by
  induction state, samples using downsampleBy2.induct with
  | case1 state first second rest lower upper out last isLast
      inductionHypothesis =>
      unfold downsampleBy2
      dsimp only
      rw [List.length_cons, inductionHypothesis]
      simp only [List.length_cons]
      omega
  | case2 samples state short =>
      cases samples with
      | nil =>
          rfl
      | cons first rest =>
          cases rest with
          | nil =>
              simp [downsampleBy2]
          | cons second rest =>
              exact absurd rfl (short first second rest)

end ApmSdk.HalfBand
