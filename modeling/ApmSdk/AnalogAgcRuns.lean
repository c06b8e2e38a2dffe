import ApmSdk.AnalogAgcInvariant
import ApmSdk.LabelledPath

namespace ApmSdk.Agc

/-!
# Levels over a run of the analog gain control
-/

/-- The calls on an initialised instance that the analog part depends on. -/
inductive Call where
  | addMic (inMic : List (List Int)) (samples : Nat)
  | process (samples : Nat) (inMicLevel echo : Int)
  | setConfig (agcConfig : AgcConfig)
  deriving Repr, DecidableEq

/-- The level that a call passes in lies between `minLevel` and `maxAnalog`. -/
def Call.LevelInRange (stt : LegacyAgc) : Call → Prop
  | .process _ inMicLevel _ =>
      stt.minLevel ≤ inMicLevel ∧ inMicLevel ≤ stt.maxAnalog
  | _ => True

instance (stt : LegacyAgc) (call : Call) : Decidable (call.LevelInRange stt) := by
  cases call <;> unfold Call.LevelInRange <;> infer_instance

/-- The state after a call; `none` where the call is undefined. -/
def LegacyAgc.perform (stt : LegacyAgc) : Call → Option LegacyAgc
  | .addMic inMic samples => (stt.addMic inMic samples).map Prod.fst
  | .process samples inMicLevel echo =>
      some (stt.process samples inMicLevel echo).1
  | .setConfig agcConfig => some (stt.setConfig agcConfig).1

/-- The calls of a run: they pass in levels of the range. -/
def LegacyAgc.performInRange
    (stt : LegacyAgc)
    (call : Call) : Option LegacyAgc :=
  if call.LevelInRange stt then stt.perform call else none

namespace LevelInvariant

variable {range : LevelRange}
variable {stt : LegacyAgc}

/-- Every call of a run keeps the invariant. -/
theorem performInRange
    {call : Call}
    {next : LegacyAgc}
    (held : LevelInvariant range stt)
    (performed : stepOf LegacyAgc.performInRange stt call next) :
    LevelInvariant range next := by
  unfold stepOf LegacyAgc.performInRange at performed
  split at performed
  next inRange =>
    cases call with
    | addMic inMic samples =>
        obtain ⟨reached, amplified, code, added, reachedHeld⟩ :=
          held.addMic inMic samples
        rw [LegacyAgc.perform, added, Option.map_some] at performed
        cases performed
        exact reachedHeld
    | process samples inMicLevel echo =>
        cases performed
        obtain ⟨atLeast, atMost⟩ := inRange
        have range_eq := held.range_eq
        subst range_eq
        exact held.process samples echo atLeast atMost
    | setConfig agcConfig =>
        cases performed
        exact held.setConfig agcConfig
  next => cases performed

end LevelInvariant

/-! ## The levels in every reachable state -/

/-- What the gain control promises about its levels in one state. -/
structure LevelsSafe (stt : LegacyAgc) : Prop where
  minOutput_le : stt.minOutput ≤ stt.micVol
  micVol_le : stt.micVol ≤ stt.maxLevel
  maxAnalog_le : stt.maxAnalog ≤ stt.maxLevel
  gainTableIdx_lt : stt.gainTableIdx < gainTblLen
  /-- `WebRtcAgc_AddMic` divides by a number that is not zero. -/
  divisor :
    stt.maxAnalog < stt.micVol →
      int16 (stt.maxLevel - stt.maxAnalog) ≠ 0
  /-- It is defined for every frame. -/
  addMic : ∀ inMic samples, (stt.addMic inMic samples).isSome
  /-- `WebRtcAgc_ProcessAnalog` returns 0 and a level of the range. -/
  processAnalog :
    ∀ inMicLevel vadLogRatio echo,
      stt.minLevel ≤ inMicLevel →
      inMicLevel ≤ stt.maxAnalog →
        ∃ outMicLevel saturationWarning,
          (stt.processAnalog inMicLevel vadLogRatio echo).2 =
              ⟨0, some outMicLevel, saturationWarning⟩ ∧
            stt.minOutput ≤ outMicLevel ∧ outMicLevel ≤ stt.maxAnalog

theorem LevelInvariant.levelsSafe
    {range : LevelRange}
    {stt : LegacyAgc}
    (held : LevelInvariant range stt) :
    LevelsSafe stt := by
  obtain ⟨sound, rfl, minOutput, volume⟩ := id held
  refine ⟨minOutput, volume, sound.maxAnalog_le, sound.gainTableIdx_lt,
    ?_, ?_, ?_⟩
  · intro above
    exact Int.ne_of_gt (held.targetGainIdx above).1
  · intro inMic samples
    obtain ⟨next, amplified, code, added, -⟩ := held.addMic inMic samples
    rw [added]
    rfl
  · intro inMicLevel vadLogRatio echo atLeast atMost
    exact (held.processAnalog vadLogRatio echo atLeast atMost).2

/--
From a successful initialisation with a range of at most 131071 steps, every run of
calls that pass in levels of the range keeps the levels in order, divides by no zero
and stays inside the gain table.
-/
theorem levelsSafe_of_narrowRange
    {memory stt final : LegacyAgc}
    {minLevel maxLevel fs : Int}
    {moves : List (Move LegacyAgc Call)}
    (initialised :
      memory.init minLevel maxLevel modeAdaptiveAnalog fs = (stt, 0))
    (narrow : maxLevel - minLevel ≤ 131071)
    (path : Path (stepOf LegacyAgc.performInRange) stt moves final) :
    LevelsSafe final := by
  obtain ⟨-, -, -, -, -, -, code⟩ :=
    init_adaptiveAnalog memory minLevel maxLevel fs
  have legal : LegacyAgc.LegalRange minLevel maxLevel := by
    rw [initialised] at code
    by_contra illegal
    rw [if_neg illegal] at code
    cases code
  obtain ⟨range, -, -, -, -, start⟩ :=
    levelInvariant_init memory fs legal narrow
  rw [initialised] at start
  exact
    (path.invariant (LevelInvariant range)
      (fun held performed => held.performInRange performed)
      start).2.levelsSafe

/-- 10 ms at 8 kHz of a square wave of 1 kHz. -/
def squareWave (amplitude : Int) : List Int :=
  (List.range 80).map fun i =>
    if i / 4 % 2 = 0 then amplitude else -amplitude

/-- One frame of the square wave, with a level from the device. -/
def squareWaveFrame (amplitude inMicLevel : Int) : List Call :=
  [.addMic [squareWave amplitude] 80, .process 80 inMicLevel 0]

theorem levelsSafe_byteRange :
    LevelsSafe
      (((LegacyAgc.blank.init 0 255 modeAdaptiveAnalog 8000).1.process
        80 200 0).1) :=
  levelsSafe_of_narrowRange
    (show LegacyAgc.blank.init 0 255 modeAdaptiveAnalog 8000 =
      ((LegacyAgc.blank.init 0 255 modeAdaptiveAnalog 8000).1, 0) by
      decide +kernel)
    (by decide)
    (.single
      (show stepOf LegacyAgc.performInRange _ (.process 80 200 0) _ by
        decide +kernel))

/--
Speech too low for the range from 0 to 262144: 130 ms of silence, then 640 ms of a
square wave, all at the largest level.  The volume passes `maxAnalog`, where the
difference of `maxLevel` and `maxAnalog` is zero as an `int16_t`.
-/
theorem not_levelsSafe_wideRange :
    ¬ ∀ (memory stt final : LegacyAgc) (moves : List (Move LegacyAgc Call)),
        memory.init 0 262144 modeAdaptiveAnalog 8000 = (stt, 0) →
        Path (stepOf LegacyAgc.performInRange) stt moves final →
        LevelsSafe final := by
  intro claimed
  have reached :
      (((List.replicate 13 (squareWaveFrame 0 262144)).flatten ++
          (List.replicate 64 (squareWaveFrame 1000 262144)).flatten).foldlM
        LegacyAgc.performInRange
        (LegacyAgc.blank.init 0 262144 modeAdaptiveAnalog 8000).1).any
          (fun stt =>
            stt.maxAnalog < stt.micVol ∧
              int16 (stt.maxLevel - stt.maxAnalog) = 0) = true := by
    decide +kernel
  obtain ⟨final, run, exceeds⟩ := (Option.any_eq_true _ _).mp reached
  obtain ⟨moves, path, -⟩ := Path.exists_of_foldlM run
  have safe :=
    claimed _ _ final moves
      (show LegacyAgc.blank.init 0 262144 modeAdaptiveAnalog 8000 =
        ((LegacyAgc.blank.init 0 262144 modeAdaptiveAnalog 8000).1, 0) by
        decide +kernel)
      path
  obtain ⟨above, zero⟩ := of_decide_eq_true exceeds
  exact safe.divisor above zero

end ApmSdk.Agc
