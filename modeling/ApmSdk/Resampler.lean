import ApmSdk.HalfBand
import Mathlib.Data.Int.GCD
import Mathlib.Tactic.Common

namespace ApmSdk

/-!
# The resampler

A `Resampler` works in one of a fixed set of ratios, for each of which it holds up to three
filters.  For two channels it hands each to a resampler of one channel.  `Reset` reduces the
frequencies it is given and takes the mode of their ratio, if there is one.
-/

/-- `ResamplerMode` -/
inductive ResamplerMode where
  | mode1To1
  | mode1To2
  | mode1To3
  | mode1To4
  | mode1To6
  | mode1To12
  | mode2To3
  | mode2To11
  | mode4To11
  | mode8To11
  | mode11To16
  | mode11To32
  | mode2To1
  | mode3To1
  | mode4To1
  | mode6To1
  | mode12To1
  | mode3To2
  | mode11To2
  | mode11To4
  | mode11To8
deriving Repr, DecidableEq

namespace Resampler

/-- The filters that work on blocks of a fixed length. -/
inductive Converter where
  | from16khzTo48khz
  | from8khzTo22khz
  | from16khzTo22khz
  | from22khzTo16khz
  | from48khzTo16khz
  | from22khzTo8khz
deriving Repr, DecidableEq

namespace Converter

/-- How many samples a block has. -/
def inLength : Converter → Nat
  | from16khzTo48khz => 160
  | from8khzTo22khz => 80
  | from16khzTo22khz => 160
  | from22khzTo16khz => 220
  | from48khzTo16khz => 480
  | from22khzTo8khz => 220

/-- How many samples are put out for a block. -/
def outLength : Converter → Nat
  | from16khzTo48khz => 480
  | from8khzTo22khz => 220
  | from16khzTo22khz => 220
  | from22khzTo16khz => 160
  | from48khzTo16khz => 160
  | from22khzTo8khz => 80

/-- How many words the state has. -/
def words : Converter → Nat
  | from16khzTo48khz => 24
  | from8khzTo22khz => 24
  | from16khzTo22khz => 16
  | from22khzTo16khz => 24
  | from48khzTo16khz => 32
  | from22khzTo8khz => 32

end Converter

/-- What a pointer to a filter's state leads to. -/
inductive FilterMemory where
  | by2 (filtState : HalfBand.FilterState)
  | converter (which : Converter) (words : List Int)
deriving Repr, DecidableEq

/-- The converter that a memory is for, if it is for one. -/
def FilterMemory.kind : FilterMemory → Option Converter
  | by2 _ => none
  | converter which _ => some which

/-- A filter: its memory, and how many samples it has been fed since it was made. -/
structure Filter where
  memory : FilterMemory
  fed : Nat
deriving Repr, DecidableEq

/-- `malloc` and `memset` of a filter by two. -/
def by2Filter : Filter :=
  ⟨.by2 .zero, 0⟩

/-- `malloc` of a converter's state and its `WebRtcSpl_ResetResample` function. -/
def converterFilter (which : Converter) : Filter :=
  ⟨.converter which (List.replicate which.words 0), 0⟩

/-- `state1_`, `state2_` and `state3_` -/
structure States where
  state1 : Option Filter
  state2 : Option Filter
  state3 : Option Filter
deriving Repr, DecidableEq

/-- All states after `free`. -/
def States.freed : States :=
  ⟨none, none, none⟩

/-- What the states are for. -/
def States.kinds (states : States) : List (Option (Option Converter)) :=
  [states.state1, states.state2, states.state3].map
    (Option.map fun filter => filter.memory.kind)

end Resampler

namespace ResamplerMode

open Resampler

/-- How many samples are taken in, and how many are put out for them. -/
def ratio : ResamplerMode → Nat × Nat
  | mode1To1 => (1, 1)
  | mode1To2 => (1, 2)
  | mode1To3 => (1, 3)
  | mode1To4 => (1, 4)
  | mode1To6 => (1, 6)
  | mode1To12 => (1, 12)
  | mode2To3 => (2, 3)
  | mode2To11 => (2, 11)
  | mode4To11 => (4, 11)
  | mode8To11 => (8, 11)
  | mode11To16 => (11, 16)
  | mode11To32 => (11, 32)
  | mode2To1 => (2, 1)
  | mode3To1 => (3, 1)
  | mode4To1 => (4, 1)
  | mode6To1 => (6, 1)
  | mode12To1 => (12, 1)
  | mode3To2 => (3, 2)
  | mode11To2 => (11, 2)
  | mode11To4 => (11, 4)
  | mode11To8 => (11, 8)

/-- The states that `Reset` creates for a mode. -/
def states : ResamplerMode → States
  | mode1To1 => ⟨none, none, none⟩
  | mode1To2 => ⟨by2Filter, none, none⟩
  | mode1To3 => ⟨converterFilter .from16khzTo48khz, none, none⟩
  | mode1To4 => ⟨by2Filter, by2Filter, none⟩
  | mode1To6 => ⟨by2Filter, converterFilter .from16khzTo48khz, none⟩
  | mode1To12 =>
      ⟨by2Filter, by2Filter, converterFilter .from16khzTo48khz⟩
  | mode2To3 => ⟨converterFilter .from16khzTo48khz, by2Filter, none⟩
  | mode2To11 => ⟨by2Filter, converterFilter .from8khzTo22khz, none⟩
  | mode4To11 => ⟨converterFilter .from8khzTo22khz, none, none⟩
  | mode8To11 => ⟨converterFilter .from16khzTo22khz, none, none⟩
  | mode11To16 => ⟨by2Filter, converterFilter .from22khzTo16khz, none⟩
  | mode11To32 =>
      ⟨by2Filter, converterFilter .from22khzTo16khz, by2Filter⟩
  | mode2To1 => ⟨by2Filter, none, none⟩
  | mode3To1 => ⟨converterFilter .from48khzTo16khz, none, none⟩
  | mode4To1 => ⟨by2Filter, by2Filter, none⟩
  | mode6To1 => ⟨converterFilter .from48khzTo16khz, by2Filter, none⟩
  | mode12To1 =>
      ⟨converterFilter .from48khzTo16khz, by2Filter, by2Filter⟩
  | mode3To2 => ⟨by2Filter, converterFilter .from48khzTo16khz, none⟩
  | mode11To2 => ⟨converterFilter .from22khzTo8khz, by2Filter, none⟩
  | mode11To4 => ⟨converterFilter .from22khzTo8khz, none, none⟩
  | mode11To8 => ⟨converterFilter .from22khzTo16khz, none, none⟩

/-- The switch of `Reset` for a reduced input frequency of one. -/
def selectFrom1 (outFreq : Int) : Option ResamplerMode :=
  if outFreq = 2 then some mode1To2
  else if outFreq = 3 then some mode1To3
  else if outFreq = 4 then some mode1To4
  else if outFreq = 6 then some mode1To6
  else if outFreq = 12 then some mode1To12
  else none

/-- The switch of `Reset` for a reduced output frequency of one. -/
def selectTo1 (inFreq : Int) : Option ResamplerMode :=
  if inFreq = 2 then some mode2To1
  else if inFreq = 3 then some mode3To1
  else if inFreq = 4 then some mode4To1
  else if inFreq = 6 then some mode6To1
  else if inFreq = 12 then some mode12To1
  else none

/-- The branches of `Reset` for the other ratios. -/
def selectBetween (inFreq outFreq : Int) : Option ResamplerMode :=
  if inFreq = 2 ∧ outFreq = 3 then some mode2To3
  else if inFreq = 2 ∧ outFreq = 11 then some mode2To11
  else if inFreq = 4 ∧ outFreq = 11 then some mode4To11
  else if inFreq = 8 ∧ outFreq = 11 then some mode8To11
  else if inFreq = 3 ∧ outFreq = 2 then some mode3To2
  else if inFreq = 11 ∧ outFreq = 2 then some mode11To2
  else if inFreq = 11 ∧ outFreq = 4 then some mode11To4
  else if inFreq = 11 ∧ outFreq = 16 then some mode11To16
  else if inFreq = 11 ∧ outFreq = 32 then some mode11To32
  else if inFreq = 11 ∧ outFreq = 8 then some mode11To8
  else none

/-- The mode of two reduced frequencies, if there is one. -/
def select (inFreq outFreq : Int) : Option ResamplerMode :=
  if inFreq = outFreq then some mode1To1
  else if inFreq = 1 then selectFrom1 outFreq
  else if outFreq = 1 then selectTo1 inFreq
  else selectBetween inFreq outFreq

theorem ratio_of_selectFrom1
    {outFreq : Int}
    {mode : ResamplerMode}
    (selected : selectFrom1 outFreq = some mode) :
    mode.ratio.1 = 1 ∧ outFreq = mode.ratio.2 := by
  unfold selectFrom1 at selected
  split_ifs at selected with isOut isOut isOut isOut isOut
  all_goals
    obtain rfl := Option.some.inj selected
    exact ⟨rfl, isOut⟩

theorem ratio_of_selectTo1
    {inFreq : Int}
    {mode : ResamplerMode}
    (selected : selectTo1 inFreq = some mode) :
    inFreq = mode.ratio.1 ∧ mode.ratio.2 = 1 := by
  unfold selectTo1 at selected
  split_ifs at selected with isIn isIn isIn isIn isIn
  all_goals
    obtain rfl := Option.some.inj selected
    exact ⟨isIn, rfl⟩

theorem ratio_of_selectBetween
    {inFreq outFreq : Int}
    {mode : ResamplerMode}
    (selected : selectBetween inFreq outFreq = some mode) :
    inFreq = mode.ratio.1 ∧ outFreq = mode.ratio.2 := by
  unfold selectBetween at selected
  split_ifs at selected with
    are are are are are are are are are are
  all_goals
    obtain rfl := Option.some.inj selected
    exact are

/-- A mode is selected by its ratio, but for one that any two equal frequencies select. -/
theorem eq_of_select
    {inFreq outFreq : Int}
    {mode : ResamplerMode}
    (selected : select inFreq outFreq = some mode) :
    inFreq = outFreq ∧ mode = mode1To1 ∨
      inFreq = mode.ratio.1 ∧ outFreq = mode.ratio.2 := by
  unfold select at selected
  split_ifs at selected with same isIn isOut
  · exact .inl ⟨same, (Option.some.inj selected).symm⟩
  · obtain ⟨first, second⟩ := ratio_of_selectFrom1 selected
    exact .inr ⟨by rw [isIn, first]; rfl, second⟩
  · obtain ⟨first, second⟩ := ratio_of_selectTo1 selected
    exact .inr ⟨first, by rw [isOut, second]; rfl⟩
  · exact .inr (ratio_of_selectBetween selected)

/-- Every mode is selected by its ratio. -/
theorem select_ratio (mode : ResamplerMode) :
    select mode.ratio.1 mode.ratio.2 = some mode := by
  cases mode <;> rfl

end ResamplerMode

namespace Resampler

/-! ## Reset -/

/-- Euclid's algorithm, with a bound for its number of turns. -/
def euclid : Nat → Int → Int → Int
  | 0, _, b => b
  | turns + 1, a, b =>
      let c := a.tmod b
      if c = 0 then b else euclid turns b c

/-- A resampler without its slaves. -/
structure Channel where
  states : States
  myInFrequencyKhz : Int
  myOutFrequencyKhz : Int
  myMode : ResamplerMode
  numChannels : Nat
deriving Repr, DecidableEq

/-- `Resampler::Resampler` -/
def Channel.initial : Channel where
  states := .freed
  myInFrequencyKhz := 0
  myOutFrequencyKhz := 0
  myMode := .mode1To1
  numChannels := 0

/-- The frequencies divided by what Euclid's algorithm gives for them. -/
def reduced (inFreq outFreq : Int) : Int × Int :=
  let b := euclid outFreq.natAbs inFreq outFreq
  (inFreq.tdiv b, outFreq.tdiv b)

/-- The mode for two frequencies, if their ratio is supported. -/
def modeOf (inFreq outFreq : Int) : Option ResamplerMode :=
  let (inFreq, outFreq) := reduced inFreq outFreq
  ResamplerMode.select inFreq outFreq

/-- `Reset` but for the slaves, with channels that have passed its check. -/
def Channel.reset
    (channel : Channel)
    (inFreq outFreq : Int)
    (numChannels : Nat) : Int × Channel :=
  let freed : Channel :=
    { channel with
      numChannels
      states := .freed
      myInFrequencyKhz := inFreq.tdiv 1000
      myOutFrequencyKhz := outFreq.tdiv 1000 }
  match modeOf inFreq outFreq with
  | some mode => (0, { freed with myMode := mode, states := mode.states })
  | none => (-1, freed)

end Resampler

/-- `Resampler` -/
structure Resampler extends Resampler.Channel where
  slaveLeft : Option Resampler.Channel
  slaveRight : Option Resampler.Channel
deriving Repr, DecidableEq

namespace Resampler

/-- `Resampler::Resampler` -/
def initial : Resampler where
  toChannel := .initial
  slaveLeft := none
  slaveRight := none

/-- `Resampler::Reset`: what it returns and the resampler behind it.  Nothing is returned
where it divides by zero. -/
def reset
    (resampler : Resampler)
    (inFreq outFreq : Int)
    (numChannels : Nat) : Option (Int × Resampler) :=
  if numChannels ≠ 1 ∧ numChannels ≠ 2 then some (-1, resampler)
  else if outFreq = 0 then none
  else
    let (result, channel) :=
      resampler.toChannel.reset inFreq outFreq numChannels
    let (scaledIn, scaledOut) := reduced inFreq outFreq
    let slave :=
      if numChannels = 2 then
        some (Channel.initial.reset scaledIn scaledOut 1).2
      else none
    some (result,
      { toChannel := channel
        slaveLeft := slave
        slaveRight := slave })

/-- `Resampler::ResetIfNeeded` -/
def resetIfNeeded
    (resampler : Resampler)
    (inFreq outFreq : Int)
    (numChannels : Nat) : Option (Int × Resampler) :=
  if inFreq.tdiv 1000 ≠ resampler.myInFrequencyKhz ∨
      outFreq.tdiv 1000 ≠ resampler.myOutFrequencyKhz ∨
      numChannels ≠ resampler.numChannels then
    resampler.reset inFreq outFreq numChannels
  else some (0, resampler)

/-! ## Frequencies -/

/-- Euclid's algorithm gives a greatest common divisor, if it may take as many turns as its
second argument is large. -/
theorem natAbs_euclid
    {turns : Nat}
    {a b : Int}
    (enough : b.natAbs ≤ turns)
    (nonzero : b ≠ 0) :
    (euclid turns a b).natAbs = a.gcd b := by
  induction turns generalizing a b with
  | zero =>
      omega
  | succ turns inductionHypothesis =>
      have step : a.gcd b = b.gcd (a.tmod b) := by
        rw [Int.gcd_def, Int.gcd_def, Int.natAbs_tmod, Nat.gcd_comm,
          Nat.gcd_rec, Nat.gcd_comm]
      unfold euclid
      dsimp only
      split
      next isZero =>
          rw [step, isZero, Int.gcd_zero_right]
      next isNonzero =>
          have smaller : (a.tmod b).natAbs < b.natAbs := by
            rw [Int.natAbs_tmod]
            exact Nat.mod_lt _ (by omega)
          rw [step]
          exact inductionHypothesis (by omega) isNonzero

/-- The reduced frequencies are the frequencies but for a common factor. -/
theorem exists_factor
    {inFreq outFreq : Int}
    (nonzero : outFreq ≠ 0) :
    ∃ factor,
      factor ≠ 0 ∧ factor.natAbs = inFreq.gcd outFreq ∧
        inFreq = (reduced inFreq outFreq).1 * factor ∧
          outFreq = (reduced inFreq outFreq).2 * factor := by
  have isGcd :
      (euclid outFreq.natAbs inFreq outFreq).natAbs = inFreq.gcd outFreq :=
    natAbs_euclid le_rfl nonzero
  have positive : 0 < inFreq.gcd outFreq :=
    Int.gcd_pos_of_ne_zero_right _ nonzero
  refine ⟨_, by omega, isGcd, ?_, ?_⟩
  · refine (Int.tdiv_mul_cancel ?_).symm
    rw [← Int.natAbs_dvd, isGcd]
    exact Int.gcd_dvd_left ..
  · refine (Int.tdiv_mul_cancel ?_).symm
    rw [← Int.natAbs_dvd, isGcd]
    exact Int.gcd_dvd_right ..

end Resampler

end ApmSdk
