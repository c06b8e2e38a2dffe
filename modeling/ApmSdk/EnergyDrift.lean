import ApmSdk.AnalogMeasures
import Mathlib.Algebra.BigOperators.Group.List.Basic
import Mathlib.Algebra.Order.BigOperators.Group.List

namespace ApmSdk.Agc

/-!
# The sliding energy and the window it is taken over

Every block adds an eighth of what the window gains to the sliding energy, rounded
down.  What is lost by rounding is never made up for, so that the sliding energy falls
behind the window by the sum of all remainders.
-/

namespace EnergyWindow

/-- A window of ten energies, with the position in it. -/
def Placed (window : EnergyWindow) : Prop :=
  window.rxx16Vector.length = rxxBufferLen ∧ window.rxx16pos < rxxBufferLen

/-- By how many eighths the sliding energy differs from the window. -/
def drift (window : EnergyWindow) : Int :=
  8 * window.rxx160 - window.rxx16Vector.sum

/-- The eighths that are lost when an energy enters the window. -/
def loss (window : EnergyWindow) (rxx16 : Int) : Int :=
  (rxx16 - window.oldest) % 8

/-- The eighths that are lost over some blocks. -/
def losses (window : EnergyWindow) : List Int → Int
  | [] => 0
  | rxx16 :: rest => window.loss rxx16 + (window.update rxx16).losses rest

variable {window : EnergyWindow}

theorem Placed.update
    (placed : window.Placed)
    (rxx16 : Int) :
    (window.update rxx16).Placed := by
  obtain ⟨length, position⟩ := placed
  refine ⟨by rw [EnergyWindow.update, List.length_set, length], ?_⟩
  unfold EnergyWindow.update
  dsimp only
  split
  · decide
  · omega

/-- An entry that is replaced leaves the sum. -/
theorem sum_set
    (values : List Int)
    (position : Nat)
    (value : Int)
    (inside : position < values.length) :
    (values.set position value).sum =
      values.sum - values.getD position 0 + value := by
  induction values generalizing position with
  | nil =>
      cases inside
  | cons first rest inductionHypothesis =>
      cases position with
      | zero =>
          rw [List.set_cons_zero, List.sum_cons, List.sum_cons,
            List.getD_cons_zero]
          omega
      | succ position =>
          rw [List.set_cons_succ, List.sum_cons, List.sum_cons,
            List.getD_cons_succ,
            inductionHypothesis position (Nat.lt_of_succ_lt_succ inside)]
          omega

/-- A block moves the sliding energy away by what is lost. -/
theorem Placed.drift_update
    (placed : window.Placed)
    (rxx16 : Int) :
    (window.update rxx16).drift = window.drift - window.loss rxx16 := by
  have inside : window.rxx16pos < window.rxx16Vector.length := by
    rw [placed.1]
    exact placed.2
  have sum := sum_set window.rxx16Vector window.rxx16pos rxx16 inside
  unfold drift loss EnergyWindow.update
  dsimp only
  rw [sum, Int.shiftRight_eq_div_pow]
  unfold oldest
  omega

/-- So do the blocks of a frame. -/
theorem Placed.foldl_update
    (placed : window.Placed)
    (energies : List Int) :
    (energies.foldl EnergyWindow.update window).Placed ∧
      (energies.foldl EnergyWindow.update window).drift =
        window.drift - window.losses energies := by
  induction energies generalizing window with
  | nil =>
      exact ⟨placed, (Int.sub_zero _).symm⟩
  | cons rxx16 rest inductionHypothesis =>
      obtain ⟨later, laterDrift⟩ :=
        inductionHypothesis (placed.update rxx16)
      refine ⟨later, ?_⟩
      rw [List.foldl_cons, laterDrift, placed.drift_update rxx16, losses]
      omega

theorem losses_nonneg (window : EnergyWindow) (energies : List Int) :
    0 ≤ window.losses energies := by
  induction energies generalizing window with
  | nil =>
      exact Int.le_refl 0
  | cons rxx16 rest inductionHypothesis =>
      have first : 0 ≤ window.loss rxx16 :=
        Int.emod_nonneg _ (by decide)
      have later := inductionHypothesis (window.update rxx16)
      rw [losses]
      omega

end EnergyWindow

/-! ## Runs -/

namespace LegacyAgc

variable {stt next : LegacyAgc}

/-- The energies that enter the window in a call. -/
def entering (stt : LegacyAgc) : Call → List Int
  | .process samples inMicLevel _ =>
      if stt.AdaptsLevel samples inMicLevel then
        stt.rxx16Array.1.take 5
      else []
  | _ => []

/-- The eighths that are lost in a call. -/
def callLosses (stt : LegacyAgc) (call : Call) : Int :=
  stt.measures.window.losses (stt.entering call)

/-- The window after a call. -/
theorem window_perform
    {call : Call}
    (performed : stt.perform call = some next) :
    next.measures.window =
      (stt.entering call).foldl EnergyWindow.update
        stt.measures.window := by
  cases call with
  | addMic inMic samples =>
      obtain ⟨⟨reached, bands, code⟩, added, rfl⟩ :=
        Option.map_eq_some_iff.mp performed
      unfold addMic at added
      split at added
      · cases added
        rfl
      · obtain ⟨⟨gained, amplified⟩, isGained, same⟩ :=
          Option.map_eq_some_iff.mp added
        obtain ⟨rfl, -⟩ := Prod.mk.inj same
        have sameWindow :
            gained.measures.window = stt.measures.window :=
          congrArg Measures.window (measures_digitalGain isGained)
        unfold measure
        dsimp only
        split
        · exact sameWindow
        · exact sameWindow
  | process samples inMicLevel echo =>
      obtain rfl := Option.some.inj performed
      rw [(stt.measures_process samples inMicLevel echo).2, entering]
      split <;> rfl
  | setConfig agcConfig =>
      obtain rfl := Option.some.inj performed
      exact congrArg Measures.window (stt.measures_setConfig agcConfig)

end LegacyAgc

/-- The eighths that are lost over the calls of a run. -/
def runLosses (moves : List (Move LegacyAgc Call)) : Int :=
  (moves.map fun move => move.source.callLosses move.label).sum

/-- The sliding energy has fallen behind by everything that was lost. -/
theorem drift_of_path
    {stt final : LegacyAgc}
    {moves : List (Move LegacyAgc Call)}
    (placed : stt.measures.window.Placed)
    (path : Path (stepOf LegacyAgc.perform) stt moves final) :
    final.measures.window.Placed ∧
      final.measures.window.drift =
        stt.measures.window.drift - runLosses moves := by
  induction path with
  | nil stt =>
      exact ⟨placed, (Int.sub_zero _).symm⟩
  | @cons first next last call rest head tail inductionHypothesis =>
      have entered := LegacyAgc.window_perform head
      obtain ⟨nextPlaced, nextDrift⟩ :=
        placed.foldl_update (first.entering call)
      rw [← entered] at nextPlaced nextDrift
      obtain ⟨lastPlaced, lastDrift⟩ := inductionHypothesis nextPlaced
      refine ⟨lastPlaced, ?_⟩
      rw [lastDrift, nextDrift, runLosses, runLosses, List.map_cons,
        List.sum_cons]
      unfold LegacyAgc.callLosses
      dsimp only
      omega

theorem runLosses_nonneg (moves : List (Move LegacyAgc Call)) :
    0 ≤ runLosses moves := by
  apply List.sum_nonneg
  intro lost member
  obtain ⟨move, -, rfl⟩ := List.mem_map.mp member
  exact EnergyWindow.losses_nonneg ..

/-- The sliding energy is within a number of eighths of the window. -/
def LegacyAgc.TracksWindow (eighths : Nat) (stt : LegacyAgc) : Prop :=
  (8 * stt.rxx160 - stt.rxx16Vector.sum).natAbs ≤ eighths

/-- A new instance has a window that its sliding energy agrees with. -/
theorem window_init
    {memory stt : LegacyAgc}
    {minLevel maxLevel agcMode fs : Int}
    (initialised : memory.init minLevel maxLevel agcMode fs = (stt, 0)) :
    stt.measures.window.Placed ∧ stt.measures.window.drift = 0 := by
  have start :
      stt.measures.window =
        { rxx160 := 125 * rxxBufferLen
          rxx16Vector := List.replicate rxxBufferLen 1000
          rxx16pos := 0 } :=
    congrArg Measures.window (LegacyAgc.measures_init initialised)
  rw [start]
  exact ⟨⟨rfl, by decide⟩, by decide⟩

namespace EnergyWindow

/-- The same window with a sliding energy that differs by a constant. -/
def shift (window : EnergyWindow) (offset : Int) : EnergyWindow :=
  { window with rxx160 := window.rxx160 + offset }

/-- The update does not look at the sliding energy. -/
theorem foldl_update_shift
    (window : EnergyWindow)
    (offset : Int)
    (energies : List Int) :
    energies.foldl EnergyWindow.update (window.shift offset) =
      (energies.foldl EnergyWindow.update window).shift offset := by
  induction energies generalizing window with
  | nil =>
      rfl
  | cons rxx16 rest inductionHypothesis =>
      have first :
          (window.shift offset).update rxx16 =
            (window.update rxx16).shift offset := by
        unfold EnergyWindow.update shift oldest
        dsimp only
        rw [Int.add_right_comm]
      rw [List.foldl_cons, List.foldl_cons, first, inductionHypothesis]

end EnergyWindow

/-- An instance at 8 kHz over the levels from 0 to 3, between two frames. -/
structure BetweenFrames
    (window : EnergyWindow)
    (stt : LegacyAgc) : Prop where
  levels :
    ∃ range : LevelRange,
      range.agcMode = modeAdaptiveAnalog ∧
        range.fs = 8000 ∧
          range.minLevel = 0 ∧
            range.maxAnalog = 3 ∧
              range.maxInit = 3 ∧ LevelInvariant range stt
  noQueue : stt.inQueue = 0
  window_eq : stt.measures.window = window

/-- A frame in which one sample of every block has an amplitude. -/
def tick (amplitude : Int) : List Int :=
  (List.range 80).map fun i => if i % 16 = 0 then amplitude else 0

/-- The calls of a frame. -/
def tickFrame (amplitude : Int) : List Call :=
  [.addMic [tick amplitude] 80, .process 80 0 0]

/-- At 8 kHz the filter of the energies has no part in them. -/
theorem blockEnergies_narrowband
    (stt : LegacyAgc)
    (input : List Int)
    (narrowband : stt.fs = 8000) :
    (stt.blockEnergies input).1 =
      (List.range 5).map fun i =>
        energyWithScale ((input.drop (i * 16)).take 16) 4 := by
  have rate : ¬stt.fs = 16000 := by
    rw [narrowband]
    decide
  simp [LegacyAgc.blockEnergies, rate, List.range, List.range.loop]

/-- What a frame from the microphone measures where no other one waits. -/
theorem measure_first
    (stt : LegacyAgc)
    (input : List Int)
    (samples : Nat)
    (noQueue : stt.inQueue = 0) :
    (stt.measure input samples).rxx16Array.1 =
        (stt.blockEnergies input).1 ∧
      (stt.measure input samples).inQueue = 1 ∧
        (stt.measure input samples).measures.window =
          stt.measures.window := by
  unfold LegacyAgc.measure
  rw [noQueue]
  exact ⟨rfl, rfl, rfl⟩

/-- The window after two frames of ticks. -/
def roundWindow : EnergyWindow where
  rxx160 := 0
  rxx16Vector := List.replicate rxxBufferLen 1
  rxx16pos := 0

example :
    ([0, 0, 0, 0, 0, 0, 0, 0, 0, 0, 1, 1, 1, 1, 1, 1, 1, 1, 1, 1].foldl
      EnergyWindow.update roundWindow).rxx160 = -10 := by
  decide

namespace BetweenFrames

variable {window : EnergyWindow}
variable {stt : LegacyAgc}

/-- The window after a frame with one energy in all of its blocks. -/
theorem tickFrame
    (amplitude : Int)
    (held : BetweenFrames window stt) :
    ∃ moves next,
      Path (stepOf LegacyAgc.perform) stt moves next ∧
        BetweenFrames
          (((List.range 5).map fun i =>
            energyWithScale (((tick amplitude).drop (i * 16)).take 16) 4).foldl
              EnergyWindow.update window)
          next := by
  obtain ⟨⟨range, analog, rate, lowest, highest, largest, levels⟩,
    noQueue, rfl⟩ := held
  have fs : stt.fs = 8000 :=
    (congrArg LevelRange.fs levels.range_eq).trans rate
  have volume : ¬stt.maxAnalog < stt.micVol := by
    have atMost : stt.micVol ≤ stt.maxLevel := levels.volume
    have maxLevel : stt.maxLevel ≤ stt.maxInit := levels.sound.maxLevel_le
    have maxInit : stt.maxInit = 3 :=
      (congrArg LevelRange.maxInit levels.range_eq).trans largest
    have maxAnalog : stt.maxAnalog = 3 :=
      (congrArg LevelRange.maxAnalog levels.range_eq).trans highest
    omega
  obtain ⟨added, bands, code, adding, addedLevels⟩ :=
    levels.addMic [tick amplitude] 80
  have samples : ¬(80 : Nat) ≠ stt.micSamples := by
    unfold LegacyAgc.micSamples
    rw [if_pos fs]
    decide
  have measured := adding
  unfold LegacyAgc.addMic LegacyAgc.digitalGain at measured
  rw [if_neg samples, if_neg volume, Option.map_some] at measured
  obtain ⟨energies, queued, sameWindow⟩ :=
    measure_first { stt with gainTableIdx := 0 } (tick amplitude) 80 noQueue
  have isAdded :
      ({ stt with gainTableIdx := 0 } : LegacyAgc).measure
        (tick amplitude) 80 = added :=
    congrArg Prod.fst (Option.some.inj measured)
  rw [isAdded] at energies queued sameWindow
  rw [blockEnergies_narrowband { stt with gainTableIdx := 0 } _ fs]
    at energies
  have addedFs : added.fs = 8000 :=
    (congrArg LevelRange.fs addedLevels.range_eq).trans rate
  have addedMode : added.agcMode = modeAdaptiveAnalog :=
    (congrArg LevelRange.agcMode addedLevels.range_eq).trans analog
  have addedLowest : added.minLevel = 0 :=
    (congrArg LevelRange.minLevel addedLevels.range_eq).trans lowest
  have addedHighest : added.maxAnalog = 3 :=
    (congrArg LevelRange.maxAnalog addedLevels.range_eq).trans highest
  have adapts : added.AdaptsLevel 80 0 := by
    refine ⟨by rw [LegacyAgc.frameSamples, if_pos addedFs], ?_, Or.inr ?_, ?_⟩
    · rw [addedMode]
      decide
    · rw [addedMode]
      decide
    · unfold LegacyAgc.Accepts
      rw [Int.zero_mul, addedLowest, addedHighest]
      decide
  have processedLevels :=
    addedLevels.process 80 0 (Int.le_of_eq lowest)
      (highest.symm ▸ (by decide : (0 : Int) ≤ 3))
  have processedWindow := (added.measures_process 80 0 0).2
  rw [if_pos adapts, energies, sameWindow] at processedWindow
  have dequeued : (added.process 80 0 0).1.inQueue = 0 := by
    have analogMeasures :=
      added.measures_processAnalog 0 added.vadMic.logRatio 0
    rw [if_pos adapts.2.2.2] at analogMeasures
    rw [LegacyAgc.process_of_adaptsLevel 0 adapts]
    exact (LegacyAgc.updateQueue_measures _).2.2
      ((congrArg Measures.inQueue analogMeasures).trans queued)
  have head :
      stepOf LegacyAgc.perform stt (.addMic [tick amplitude] 80) added := by
    show (stt.addMic [tick amplitude] 80).map Prod.fst = some added
    rw [adding, Option.map_some]
  have last :
      stepOf LegacyAgc.perform added (.process 80 0 0)
        (added.process 80 0 0).1 :=
    rfl
  exact ⟨_, _, (Path.single head).append (Path.single last),
    ⟨range, analog, rate, lowest, highest, largest, processedLevels⟩,
    dequeued, processedWindow⟩

/-- After four frames the window is the same, and the sliding energy 10 less. -/
theorem fourFrames
    {offset : Int}
    (held : BetweenFrames (roundWindow.shift offset) stt) :
    ∃ moves next,
      Path (stepOf LegacyAgc.perform) stt moves next ∧
        BetweenFrames (roundWindow.shift (offset - 10)) next := by
  obtain ⟨moves1, stt1, path1, held1⟩ := held.tickFrame 0
  obtain ⟨moves2, stt2, path2, held2⟩ := held1.tickFrame 0
  obtain ⟨moves3, stt3, path3, held3⟩ := held2.tickFrame 4
  obtain ⟨moves4, stt4, path4, held4⟩ := held3.tickFrame 4
  refine ⟨_, stt4, ((path1.append path2).append path3).append path4, ?_⟩
  simp only [EnergyWindow.foldl_update_shift] at held4
  have moved :
      (roundWindow.shift (-10)).shift offset =
        roundWindow.shift (offset - 10) := by
    unfold EnergyWindow.shift
    dsimp only
    congr 1
    omega
  rw [← moved]
  exact held4

/-- The rounds of a run. -/
theorem rounds
    (count : Nat)
    (held : BetweenFrames roundWindow stt) :
    ∃ moves next,
      Path (stepOf LegacyAgc.perform) stt moves next ∧
        BetweenFrames (roundWindow.shift (-10 * count)) next := by
  induction count with
  | zero =>
      exact ⟨[], stt, .nil stt, held⟩
  | succ count inductionHypothesis =>
      obtain ⟨moves, reached, path, reachedHeld⟩ := inductionHypothesis
      obtain ⟨later, next, laterPath, nextHeld⟩ := reachedHeld.fourFrames
      refine ⟨_, next, path.append laterPath, ?_⟩
      rw [show -10 * ((count + 1 : Nat) : Int) = -10 * count - 10 from by omega]
      exact nextHeld

end BetweenFrames

end ApmSdk.Agc
