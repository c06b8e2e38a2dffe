import ApmSdk.AnalogMeasures
import Mathlib.Algebra.Order.BigOperators.Group.List
import Mathlib.Algebra.Order.Ring.Int

namespace ApmSdk.Agc

/-!
# The sum of the envelope peaks over a run

`envSum` is an `int16_t` that ten peaks of up to 1024 are added to in every frame.  It
is left at less than 24751, so that a frame can take it past 32767, and then a
saturated frame is not seen.
-/

/-- Ten squares of samples. -/
def SquaredSamples (env : List Int) : Prop :=
  env.length = 10 ∧
    ∀ energy ∈ env,
      ∃ sample : Int,
        -(2 ^ 15) ≤ sample ∧ sample < 2 ^ 15 ∧ energy = sample * sample

/-- What the envelopes above the threshold add to the sum. -/
def peaks (env : List Int) : List Int :=
  ((env.take 10).map fun (energy : Int) => energy >>> (20 : Nat)).filter
    fun shifted => 875 < shifted

/-- The sum of the previous remainder and the peaks, without a bound on its size. -/
def exactSum (envSum : Int) (env : List Int) : Int :=
  envSum + (peaks env).sum

/-- A call of `WebRtcAgc_SaturationCtrl` is as over exact integers: every sum in it,
the remainder and the flag. -/
structure SaturationExact (stt : LegacyAgc) (env : List Int) : Prop where
  sums :
    ∀ count,
      accumulate stt.envSum (env.take count) =
          exactSum stt.envSum (env.take count) ∧
        0 ≤ accumulate stt.envSum (env.take count)
  remainder : 0 ≤ (stt.saturationCtrl env).1.envSum
  flagged :
    (stt.saturationCtrl env).2 = true ↔ 25000 < exactSum stt.envSum env

/-! ## One call -/

/-- A square of a sample, shifted. -/
theorem shifted_of_square
    {sample : Int}
    (lower : -(2 ^ 15) ≤ sample)
    (upper : sample < 2 ^ 15) :
    0 ≤ (sample * sample) >>> (20 : Nat) ∧
      (sample * sample) >>> (20 : Nat) ≤ 1024 := by
  have small : sample.natAbs ≤ 2 ^ 15 := by
    omega
  have square : sample.natAbs * sample.natAbs ≤ 2 ^ 15 * 2 ^ 15 :=
    Nat.mul_le_mul small small
  rw [Int.shiftRight_eq_div_pow, ← Int.natAbs_mul_self]
  omega

/-- Envelopes whose shifted values fit in eleven bits. -/
def Shifted (env : List Int) : Prop :=
  ∀ energy ∈ env,
    0 ≤ energy >>> (20 : Nat) ∧ energy >>> (20 : Nat) ≤ 1024

theorem SquaredSamples.shifted
    {env : List Int}
    (squared : SquaredSamples env) :
    Shifted env := by
  intro energy member
  obtain ⟨sample, lower, upper, rfl⟩ := squared.2 energy member
  exact shifted_of_square lower upper

/-- One turn of the loop. -/
def addPeak (envSum energy : Int) : Int :=
  let tmpW16 := int16 (energy >>> (20 : Nat))
  if 875 < tmpW16 then int16 (envSum + tmpW16) else envSum

theorem accumulate_eq (envSum : Int) (env : List Int) :
    accumulate envSum env = (env.take 10).foldl addPeak envSum :=
  rfl

theorem exactSum_cons
    (envSum energy : Int)
    (rest : List Int)
    (few : rest.length < 10) :
    exactSum envSum (energy :: rest) =
      exactSum
        (if 875 < energy >>> (20 : Nat) then
          envSum + energy >>> (20 : Nat)
        else envSum) rest := by
  unfold exactSum peaks
  rw [List.take_of_length_le (by rw [List.length_cons]; omega),
    List.take_of_length_le (by omega), List.map_cons, List.filter_cons]
  split
  next above =>
      rw [if_pos (of_decide_eq_true above), List.sum_cons]
      omega
  next below =>
      rw [if_neg fun above => below (decide_eq_true above)]

/-- Peaks only add to the sum. -/
theorem le_exactSum (envSum : Int) (env : List Int) :
    envSum ≤ exactSum envSum env := by
  have nonneg : 0 ≤ (peaks env).sum := by
    apply List.sum_nonneg
    intro peak member
    have above := of_decide_eq_true (List.mem_filter.mp member).2
    omega
  unfold exactSum
  omega

/-- The first envelopes add at most what all of them do. -/
theorem exactSum_take_le (envSum : Int) (env : List Int) (count : Nat) :
    exactSum envSum (env.take count) ≤ exactSum envSum env := by
  have sublist : List.Sublist (peaks (env.take count)) (peaks env) := by
    apply List.Sublist.filter
    apply List.Sublist.map
    rw [List.take_take, Nat.min_comm, ← List.take_take]
    exact List.take_sublist ..
  have sums : (peaks (env.take count)).sum ≤ (peaks env).sum := by
    apply sublist.sum_le_sum
    intro peak member
    have above := of_decide_eq_true (List.mem_filter.mp member).2
    omega
  unfold exactSum
  omega

/-- Nothing wraps as long as the exact sum fits. -/
theorem accumulate_of_fits
    {envSum : Int}
    {env : List Int}
    (few : env.length ≤ 10)
    (shifted : Shifted env)
    (nonneg : 0 ≤ envSum)
    (fits : exactSum envSum env ≤ 32767) :
    accumulate envSum env = exactSum envSum env := by
  rw [accumulate_eq, List.take_of_length_le few]
  induction env generalizing envSum with
  | nil =>
      simp [exactSum, peaks]
  | cons energy rest inductionHypothesis =>
      obtain ⟨first, later⟩ := List.forall_mem_cons.mp shifted
      have fewer : rest.length < 10 := few
      rw [exactSum_cons _ _ _ fewer] at fits ⊢
      have bound := Int.le_trans (le_exactSum _ rest) fits
      have added :
          addPeak envSum energy =
            if 875 < energy >>> (20 : Nat) then
              envSum + energy >>> (20 : Nat)
            else envSum := by
        unfold addPeak
        dsimp only
        rw [int16_of_bounds (by omega) (by omega)]
        split
        next above =>
            rw [if_pos above] at bound
            rw [int16_of_bounds (by omega) (by omega)]
        next =>
            rfl
      rw [List.foldl_cons, added]
      apply inductionHypothesis (by omega) later _ fits
      split <;> omega

/-- The accumulated sum is an `int16_t`. -/
theorem accumulate_bounds
    {envSum : Int}
    (env : List Int)
    (lower : -(2 ^ 15) ≤ envSum)
    (upper : envSum < 2 ^ 15) :
    -(2 ^ 15) ≤ accumulate envSum env ∧ accumulate envSum env < 2 ^ 15 := by
  rw [accumulate_eq]
  induction env.take 10 generalizing envSum with
  | nil =>
      exact ⟨lower, upper⟩
  | cons energy rest inductionHypothesis =>
      have added :
          -(2 ^ 15) ≤ addPeak envSum energy ∧
            addPeak envSum energy < 2 ^ 15 := by
        unfold addPeak
        dsimp only
        split
        · exact ⟨Int.le_bmod (by decide), Int.bmod_lt (by decide)⟩
        · exact ⟨lower, upper⟩
      rw [List.foldl_cons]
      exact inductionHypothesis added.1 added.2

/-- What is left of a sum is below the threshold, and not negative if the sum is
not. -/
theorem decayed_bounds
    {envSum : Int}
    (env : List Int)
    (lower : -(2 ^ 15) ≤ envSum)
    (upper : envSum < 2 ^ 15) :
    -(2 ^ 15) ≤ decayed envSum env ∧
      decayed envSum env < 24751 ∧
        (0 ≤ accumulate envSum env → 0 ≤ decayed envSum env) := by
  obtain ⟨atLeast, atMost⟩ := accumulate_bounds env lower upper
  unfold decayed
  dsimp only
  generalize accumulate envSum env = sum at atLeast atMost ⊢
  rw [Int.shiftRight_eq_div_pow]
  split
  · rw [int16_of_bounds (by omega) (by omega)]
    omega
  · rw [int16_of_bounds (by omega) (by omega)]
    omega

/-- The sum of an exact call fits in 16 bits. -/
theorem SaturationExact.fits
    {stt : LegacyAgc}
    {env : List Int}
    (exact : SaturationExact stt env)
    (squared : SquaredSamples env)
    (lower : -(2 ^ 15) ≤ stt.envSum)
    (below : stt.envSum < 24751) :
    exactSum stt.envSum env ≤ 32767 := by
  obtain ⟨same, -⟩ := exact.sums 10
  obtain ⟨-, bound⟩ :=
    accumulate_bounds (env.take 10) lower (by omega)
  rw [same, List.take_of_length_le (Nat.le_of_eq squared.1)] at bound
  omega

/-- A call whose sum fits is exact. -/
theorem saturationExact_of_fits
    {stt : LegacyAgc}
    {env : List Int}
    (squared : SquaredSamples env)
    (nonneg : 0 ≤ stt.envSum)
    (below : stt.envSum < 24751)
    (fits : exactSum stt.envSum env ≤ 32767) :
    SaturationExact stt env := by
  have few : env.length ≤ 10 := Nat.le_of_eq squared.1
  have sums
      (count : Nat) :
      accumulate stt.envSum (env.take count) =
        exactSum stt.envSum (env.take count) := by
    apply accumulate_of_fits _ _ nonneg
    · exact Int.le_trans (exactSum_take_le ..) fits
    · exact Nat.le_trans (List.length_take_le' ..) few
    · intro energy member
      exact squared.shifted energy (List.mem_of_mem_take member)
  have whole := sums 10
  rw [List.take_of_length_le few] at whole
  have grown := le_exactSum stt.envSum env
  constructor
  case sums =>
      intro count
      refine ⟨sums count, ?_⟩
      rw [sums count]
      exact Int.le_trans nonneg (le_exactSum ..)
  case remainder =>
      rw [LegacyAgc.saturationCtrl_eq]
      exact
        (decayed_bounds env (by omega) (by omega)).2.2 (by
          rw [whole]
          omega)
  case flagged =>
      rw [LegacyAgc.saturationCtrl_eq, whole, decide_eq_true_iff]

/-! ## Runs -/

/-- Samples of 16 bits. -/
def Samples16 (samples : List Int) : Prop :=
  ∀ sample ∈ samples, -(2 ^ 15) ≤ sample ∧ sample < 2 ^ 15

/-- A move of a run: a call on the instance, or one of `WebRtcAgc_SaturationCtrl`
itself. -/
inductive SaturationMove where
  | call (call : Call)
  | saturationCtrl (env : List Int)
  deriving Repr, DecidableEq

/-- The samples of a microphone frame have 16 bits, and the envelopes are ten squares
of such samples. -/
def SaturationMove.Sampled : SaturationMove → Prop
  | .call (.addMic inMic _) => ∀ band ∈ inMic, Samples16 band
  | .call _ => True
  | .saturationCtrl env => SquaredSamples env

/-- The state after a move. -/
def LegacyAgc.saturationStep
    (stt : LegacyAgc) : SaturationMove → Option LegacyAgc
  | .call call => stt.perform call
  | .saturationCtrl env => some (stt.saturationCtrl env).1

/-- The envelopes that `WebRtcAgc_SaturationCtrl` is called with in a move, if it is
called. -/
def LegacyAgc.saturationInput
    (stt : LegacyAgc) : SaturationMove → Option (List Int)
  | .call (.process samples inMicLevel _) =>
      if stt.AdaptsLevel samples inMicLevel then some stt.env.1 else none
  | .call _ => none
  | .saturationCtrl env => some env

theorem LegacyAgc.saturationInput_process
    (stt : LegacyAgc)
    (samples : Nat)
    (inMicLevel echo : Int) :
    stt.saturationInput (.call (.process samples inMicLevel echo)) =
      if stt.AdaptsLevel samples inMicLevel then some stt.env.1 else none :=
  rfl

/-- What the remainder and the envelopes are in every reachable state. -/
structure PeakRange (stt : LegacyAgc) : Prop where
  lower : -(2 ^ 15) ≤ stt.envSum
  below : stt.envSum < 24751
  first : SquaredSamples stt.env.1
  second : SquaredSamples stt.env.2

/-- The largest energy of some samples is zero or the square of one of them. -/
theorem foldl_max_square
    {samples : List Int}
    {start : Int}
    (sampled : Samples16 samples)
    (isSquare :
      ∃ sample : Int,
        -(2 ^ 15) ≤ sample ∧ sample < 2 ^ 15 ∧ start = sample * sample) :
    ∃ sample : Int,
      -(2 ^ 15) ≤ sample ∧
        sample < 2 ^ 15 ∧
          samples.foldl (fun maxNrg sample => max maxNrg (sample * sample))
              start =
            sample * sample := by
  induction samples generalizing start with
  | nil =>
      exact isSquare
  | cons sample rest inductionHypothesis =>
      obtain ⟨first, later⟩ := List.forall_mem_cons.mp sampled
      rw [List.foldl_cons]
      apply inductionHypothesis later
      rcases Int.le_total start (sample * sample) with below | above
      · rw [Int.max_eq_right below]
        exact ⟨sample, first.1, first.2, rfl⟩
      · rw [Int.max_eq_left above]
        exact isSquare

/-- The envelope of a frame is ten squares of samples. -/
theorem squaredSamples_envelope
    {input : List Int}
    (sampled : Samples16 input)
    (samplesPerSubframe : Nat) :
    SquaredSamples (LegacyAgc.envelope input samplesPerSubframe) := by
  refine ⟨by simp [LegacyAgc.envelope], ?_⟩
  intro energy member
  obtain ⟨index, -, rfl⟩ := List.mem_map.mp member
  apply foldl_max_square
  · intro sample inFrame
    exact
      sampled sample (List.mem_of_mem_drop (List.mem_of_mem_take inFrame))
  · exact ⟨0, by decide, by decide, rfl⟩

/-- Amplified samples are saturated. -/
theorem samples16_digitalGain
    {stt next : LegacyAgc}
    {inMic amplified : List (List Int)}
    (sampled : ∀ band ∈ inMic, Samples16 band)
    (gained : stt.digitalGain inMic = some (next, amplified)) :
    ∀ band ∈ amplified, Samples16 band := by
  unfold LegacyAgc.digitalGain at gained
  split at gained
  · obtain ⟨target, -, later⟩ := Option.bind_eq_some_iff.mp gained
    obtain ⟨gain, -, same⟩ := Option.map_eq_some_iff.mp later
    obtain ⟨rfl, rfl⟩ := Prod.mk.inj same
    intro band member
    obtain ⟨before, -, rfl⟩ := List.mem_map.mp member
    intro sample inBand
    obtain ⟨original, -, rfl⟩ := List.mem_map.mp inBand
    unfold satW32ToW16
    split
    · decide
    · split
      · decide
      · omega
  · obtain ⟨rfl, rfl⟩ := Prod.mk.inj (Option.some.inj gained)
    exact sampled

/-- A microphone frame replaces one of the envelopes. -/
theorem PeakRange.addMic
    {stt next : LegacyAgc}
    {inMic : List (List Int)}
    {samples : Nat}
    (held : PeakRange stt)
    (sampled : ∀ band ∈ inMic, Samples16 band)
    (performed : stt.perform (.addMic inMic samples) = some next) :
    PeakRange next ∧ next.envSum = stt.envSum := by
  obtain ⟨⟨reached, bands, code⟩, added, rfl⟩ :=
    Option.map_eq_some_iff.mp performed
  unfold LegacyAgc.addMic at added
  split at added
  · cases added
    exact ⟨held, rfl⟩
  · obtain ⟨⟨gained, amplified⟩, isGained, same⟩ :=
      Option.map_eq_some_iff.mp added
    obtain ⟨rfl, -⟩ := Prod.mk.inj same
    have amplifiedSampled := samples16_digitalGain sampled isGained
    have measures := LegacyAgc.measures_digitalGain isGained
    have sameSum : gained.envSum = stt.envSum :=
      congrArg Measures.envSum measures
    have sameEnv : gained.env = stt.env :=
      congrArg Measures.env measures
    have lowSampled : Samples16 (amplified.headD []) := by
      cases amplified with
      | nil =>
          intro sample member
          cases member
      | cons band rest =>
          exact amplifiedSampled band (List.mem_cons_self ..)
    have envelope :=
      squaredSamples_envelope lowSampled
        (if gained.fs = 8000 then 8 else 16)
    unfold LegacyAgc.measure
    dsimp only
    split
    · exact
        ⟨⟨sameSum ▸ held.lower, sameSum ▸ held.below,
          sameEnv ▸ held.first, envelope⟩, sameSum⟩
    · exact
        ⟨⟨sameSum ▸ held.lower, sameSum ▸ held.below, envelope,
          sameEnv ▸ held.second⟩, sameSum⟩

/-- The queue keeps the envelopes or moves the second ones to the front. -/
theorem env_updateQueue (stt : LegacyAgc) :
    stt.updateQueue.env = stt.env ∨
      stt.updateQueue.env = (stt.env.2, stt.env.2) := by
  unfold LegacyAgc.updateQueue
  dsimp only
  split
  · split <;> exact Or.inr rfl
  · split <;> exact Or.inl rfl

theorem env_process
    (stt : LegacyAgc)
    (samples : Nat)
    (inMicLevel echo : Int) :
    (stt.process samples inMicLevel echo).1.env = stt.env ∨
      (stt.process samples inMicLevel echo).1.env =
        (stt.env.2, stt.env.2) := by
  have analog :
      (stt.processAnalog inMicLevel stt.vadMic.logRatio echo).1.env =
        stt.env := by
    have measured :=
      stt.measures_processAnalog inMicLevel stt.vadMic.logRatio echo
    split at measured
    · exact congrArg Measures.env measured
    · exact congrArg Measures.env measured
  unfold LegacyAgc.process
  split
  · exact Or.inl rfl
  · split
    · exact Or.inl rfl
    · split
      · dsimp only
        split
        · exact Or.inl analog
        · have queued :=
            env_updateQueue
              (stt.processAnalog inMicLevel stt.vadMic.logRatio echo).1
          rw [analog] at queued
          exact queued
      · exact env_updateQueue stt

/-- A call moves the sum on by the envelopes of the saturation control. -/
theorem LegacyAgc.saturationStep_envSum
    {stt next : LegacyAgc}
    {move : SaturationMove}
    (range : PeakRange stt)
    (sampled : move.Sampled)
    (taken : stt.saturationStep move = some next) :
    PeakRange next ∧
      next.envSum =
        match stt.saturationInput move with
        | some env => decayed stt.envSum env
        | none => stt.envSum := by
  have lower := range.lower
  have below := range.below
  cases move with
  | saturationCtrl env =>
      obtain rfl := Option.some.inj taken
      obtain ⟨atLeast, atMost, -⟩ :=
        decayed_bounds env lower (by omega)
      rw [saturationCtrl_eq]
      exact ⟨⟨atLeast, atMost, range.first, range.second⟩, rfl⟩
  | call call =>
      cases call with
      | addMic inMic samples =>
          exact range.addMic sampled taken
      | setConfig agcConfig =>
          obtain rfl := Option.some.inj taken
          have measures := stt.measures_setConfig agcConfig
          have sameSum : (stt.setConfig agcConfig).1.envSum = stt.envSum :=
            congrArg Measures.envSum measures
          have sameEnv : (stt.setConfig agcConfig).1.env = stt.env :=
            congrArg Measures.env measures
          exact
            ⟨⟨sameSum ▸ lower, sameSum ▸ below, sameEnv ▸ range.first,
              sameEnv ▸ range.second⟩, sameSum⟩
      | process samples inMicLevel echo =>
          obtain rfl := Option.some.inj taken
          have nextSum := (stt.measures_process samples inMicLevel echo).1
          change
            (stt.process samples inMicLevel echo).1.envSum = _ at nextSum
          have envelopes :
              SquaredSamples
                  (stt.process samples inMicLevel echo).1.env.1 ∧
                SquaredSamples
                  (stt.process samples inMicLevel echo).1.env.2 := by
            rcases env_process stt samples inMicLevel echo with same | moved
            · rw [same]
              exact ⟨range.first, range.second⟩
            · rw [moved]
              exact ⟨range.second, range.second⟩
          rw [saturationInput_process]
          by_cases adapts : stt.AdaptsLevel samples inMicLevel
          · obtain ⟨atLeast, atMost, -⟩ :=
              decayed_bounds stt.env.1 lower
                (by omega)
            rw [if_pos adapts] at nextSum ⊢
            exact
              ⟨⟨nextSum ▸ atLeast, nextSum ▸ atMost, envelopes.1,
                envelopes.2⟩, nextSum⟩
          · rw [if_neg adapts] at nextSum ⊢
            exact
              ⟨⟨nextSum ▸ lower, nextSum ▸ below, envelopes.1,
                envelopes.2⟩, nextSum⟩

/-- The envelopes of every call are ten squares. -/
theorem PeakRange.squared
    {stt : LegacyAgc}
    {move : SaturationMove}
    {env : List Int}
    (range : PeakRange stt)
    (sampled : move.Sampled)
    (isInput : stt.saturationInput move = some env) :
    SquaredSamples env := by
  cases move with
  | saturationCtrl own =>
      obtain rfl := Option.some.inj isInput
      exact sampled
  | call call =>
      cases call with
      | addMic inMic samples =>
          cases isInput
      | setConfig agcConfig =>
          cases isInput
      | process samples inMicLevel echo =>
          rw [LegacyAgc.saturationInput_process] at isInput
          split at isInput
          · obtain rfl := Option.some.inj isInput
            exact range.first
          · cases isInput

/-- A move whose sum fits leaves no negative remainder. -/
theorem PeakRange.nonneg
    {stt next : LegacyAgc}
    {move : SaturationMove}
    (range : PeakRange stt)
    (nonneg : 0 ≤ stt.envSum)
    (sampled : move.Sampled)
    (fits :
      ∀ env,
        stt.saturationInput move = some env →
          exactSum stt.envSum env ≤ 32767)
    (taken : stt.saturationStep move = some next) :
    PeakRange next ∧ 0 ≤ next.envSum := by
  obtain ⟨nextRange, nextSum⟩ :=
    LegacyAgc.saturationStep_envSum range sampled taken
  refine ⟨nextRange, ?_⟩
  rw [nextSum]
  cases isInput : stt.saturationInput move with
  | none =>
      exact nonneg
  | some env =>
      have exact :=
        saturationExact_of_fits (range.squared sampled isInput) nonneg
          range.below (fits env isInput)
      have remainder := exact.remainder
      rw [LegacyAgc.saturationCtrl_eq] at remainder
      exact remainder

/-- A new instance has no peaks. -/
theorem peakRange_init
    {memory stt : LegacyAgc}
    {minLevel maxLevel agcMode fs : Int}
    (initialised : memory.init minLevel maxLevel agcMode fs = (stt, 0)) :
    PeakRange stt ∧ stt.envSum = 0 := by
  have measures := LegacyAgc.measures_init initialised
  have noPeaks : stt.envSum = 0 := congrArg Measures.envSum measures
  have silent :
      stt.env = (List.replicate 10 0, List.replicate 10 0) :=
    congrArg Measures.env measures
  have zeros : SquaredSamples (List.replicate 10 0) := by
    refine ⟨List.length_replicate, ?_⟩
    intro energy member
    obtain rfl := List.eq_of_mem_replicate member
    exact ⟨0, by decide, by decide, rfl⟩
  refine ⟨⟨?_, ?_, ?_, ?_⟩, noPeaks⟩
  · rw [noPeaks]
    decide
  · rw [noPeaks]
    decide
  · rw [silent]
    exact zeros
  · rw [silent]
    exact zeros

/--
In every run of calls on an initialised instance and of `WebRtcAgc_SaturationCtrl`
itself, each of its calls computes the sum, the remainder and the flag as over exact
integers, if and only if in each of them the exact sum is at most 32767.
-/
theorem saturationExact_iff_sums_fit
    {memory stt final : LegacyAgc}
    {minLevel maxLevel agcMode fs : Int}
    {moves : List (Move LegacyAgc SaturationMove)}
    (initialised : memory.init minLevel maxLevel agcMode fs = (stt, 0))
    (path : Path (stepOf LegacyAgc.saturationStep) stt moves final)
    (sampled : ∀ move ∈ moves, move.label.Sampled) :
    (∀ move ∈ moves,
        ∀ env,
          move.source.saturationInput move.label = some env →
            SaturationExact move.source env) ↔
      ∀ move ∈ moves,
        ∀ env,
          move.source.saturationInput move.label = some env →
            exactSum move.source.envSum env ≤ 32767 := by
  obtain ⟨start, noPeaks⟩ := peakRange_init initialised
  constructor
  · intro exact move member env isInput
    have range :=
      ((path.invariant_of_guard PeakRange (fun _ move => move.Sampled)
        (fun range isSampled taken =>
          (LegacyAgc.saturationStep_envSum range isSampled taken).1)
        start sampled).1 move member).1
    exact
      (exact move member env isInput).fits
        (range.squared (sampled move member) isInput) range.lower
        range.below
  · intro fits move member env isInput
    obtain ⟨⟨range, nonneg⟩, -⟩ :=
      (path.invariant_of_guard
        (fun stt => PeakRange stt ∧ 0 ≤ stt.envSum)
        (fun stt move =>
          move.Sampled ∧
            ∀ env,
              stt.saturationInput move = some env →
                exactSum stt.envSum env ≤ 32767)
        (fun held guard taken => held.1.nonneg held.2 guard.1 guard.2 taken)
        ⟨start, Int.le_of_eq noPeaks.symm⟩
        (fun move member => ⟨sampled move member, fits move member⟩)).1
        move member
    exact
      saturationExact_of_fits
        (range.squared (sampled move member) isInput) nonneg range.below
        (fits move member env isInput)

/-- The envelopes of a frame with this many of its subframes at the largest energy. -/
def loudEnvelope (count : Nat) : List Int :=
  List.replicate count (2 ^ 30) ++ List.replicate (10 - count) 0

theorem squaredSamples_loudEnvelope
    {count : Nat}
    (few : count ≤ 10) :
    SquaredSamples (loudEnvelope count) := by
  refine ⟨by simp [loudEnvelope]; omega, ?_⟩
  intro energy member
  rcases List.mem_append.mp member with loud | silent
  · obtain rfl := List.eq_of_mem_replicate loud
    exact ⟨-(2 ^ 15), by decide, by decide, by decide⟩
  · obtain rfl := List.eq_of_mem_replicate silent
    exact ⟨0, by decide, by decide, rfl⟩

theorem saturationExact_firstLoud :
    SaturationExact (LegacyAgc.blank.init 0 255 modeAdaptiveAnalog 8000).1
      (loudEnvelope 10) :=
  (saturationExact_iff_sums_fit
    (show LegacyAgc.blank.init 0 255 modeAdaptiveAnalog 8000 =
      ((LegacyAgc.blank.init 0 255 modeAdaptiveAnalog 8000).1, 0) by
      decide +kernel)
    (.single
      (show stepOf LegacyAgc.saturationStep _
          (.saturationCtrl (loudEnvelope 10)) _ from
        rfl))
    (by
      simp only [List.forall_mem_singleton]
      exact squaredSamples_loudEnvelope (by decide))).mpr
    (by
      simp only [List.forall_mem_singleton]
      intro env isInput
      obtain rfl := Option.some.inj isInput
      decide +kernel)
    _ (List.mem_singleton_self _) _ rfl

/--
Two frames at the largest energy, one with four such subframes and then a frame of ten:
the sum of 24026 and 10240 wraps to a negative one, and the frame is not flagged.
-/
theorem not_saturationExact_fourthLoud :
    ¬ ∀ (memory stt final : LegacyAgc)
        (moves : List (Move LegacyAgc SaturationMove)),
        memory.init 0 255 modeAdaptiveAnalog 8000 = (stt, 0) →
        Path (stepOf LegacyAgc.saturationStep) stt moves final →
        (∀ move ∈ moves, move.label.Sampled) →
        ∀ move ∈ moves,
          ∀ env,
            move.source.saturationInput move.label = some env →
              SaturationExact move.source env := by
  intro claimed
  have reached :
      ([10, 10, 4].map fun count =>
          SaturationMove.saturationCtrl (loudEnvelope count)).foldlM
        LegacyAgc.saturationStep
        (LegacyAgc.blank.init 0 255 modeAdaptiveAnalog 8000).1
          |>.any (fun stt => stt.envSum = 24026) := by
    decide +kernel
  obtain ⟨third, run, remainder⟩ := (Option.any_eq_true _ _).mp reached
  have envSum : third.envSum = 24026 := of_decide_eq_true remainder
  obtain ⟨moves, path, labels⟩ := Path.exists_of_foldlM run
  have sampled :
      ∀ move ∈ moves, move.label.Sampled := by
    intro move member
    have inLabels := List.mem_map_of_mem (f := Move.label) member
    rw [labels] at inLabels
    obtain ⟨count, among, isLabel⟩ := List.mem_map.mp inLabels
    rw [← isLabel]
    have few : ∀ count ∈ [10, 10, 4], count ≤ 10 := by decide
    exact squaredSamples_loudEnvelope (few count among)
  have exact : SaturationExact third (loudEnvelope 10) :=
    claimed _ _ _ _
      (show LegacyAgc.blank.init 0 255 modeAdaptiveAnalog 8000 =
        ((LegacyAgc.blank.init 0 255 modeAdaptiveAnalog 8000).1, 0) by
        decide +kernel)
      (path.append
        (.single
          (show stepOf LegacyAgc.saturationStep third
              (.saturationCtrl (loudEnvelope 10)) _ from
            rfl)))
      (by
        rw [List.forall_mem_append, List.forall_mem_singleton]
        exact ⟨sampled, squaredSamples_loudEnvelope (by decide)⟩)
      _ (List.mem_append_right _ (List.mem_singleton_self _)) _ rfl
  have flagged := exact.flagged
  rw [LegacyAgc.saturationCtrl_eq, envSum, decide_eq_true_iff] at flagged
  have notFlagged : ¬25000 < accumulate 24026 (loudEnvelope 10) := by
    decide +kernel
  have saturated : 25000 < exactSum 24026 (loudEnvelope 10) := by
    decide +kernel
  exact notFlagged (flagged.mpr saturated)

end ApmSdk.Agc
