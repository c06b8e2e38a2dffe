import ApmSdk.ApiCalls
import ApmSdk.Readiness

namespace ApmSdk.AudioProcessing

/-!
# The analog level limits of the application

`Apm.agcSetAnalogLevelLimits` of `apmProcessJNI.cpp` brings its two arguments into
the range of `set_analog_level_limits` and into order.  Nothing keeps them apart,
and `WebRtcAgc_Init` refuses an empty range where it uses the range at all.
-/

/-- The clamp of one argument. -/
def clampLevel (level : Int32) : Int32 :=
  if level < 0 then
    0
  else if 65535 < level then
    65535
  else
    level

/-- The arguments of `set_analog_level_limits`. -/
def orderedLevels (minimum maximum : Int32) : Int × Int :=
  let minimum := clampLevel minimum
  let maximum := clampLevel maximum
  if maximum < minimum then
    (maximum.toInt, minimum.toInt)
  else
    (minimum.toInt, maximum.toInt)

/-- A clamped argument is a level. -/
theorem clampLevel_bounds
    (level : Int32) :
    0 ≤ (clampLevel level).toInt ∧ (clampLevel level).toInt ≤ 65535 := by
  unfold clampLevel
  split
  · decide
  · next notNegative =>
      split
      · decide
      · next notAbove =>
          rw [Int32.not_lt, Int32.le_iff_toInt_le] at notNegative notAbove
          exact ⟨notNegative, notAbove⟩

/-- The arguments that are passed on are accepted. -/
theorem orderedLevels_legal
    (minimum maximum : Int32) :
    0 ≤ (orderedLevels minimum maximum).1 ∧
      (orderedLevels minimum maximum).1 ≤
        (orderedLevels minimum maximum).2 ∧
      (orderedLevels minimum maximum).2 ≤ 65535 := by
  have minimumBounds := clampLevel_bounds minimum
  have maximumBounds := clampLevel_bounds maximum
  unfold orderedLevels
  dsimp only
  split
  · next crossed =>
      rw [Int32.lt_iff_toInt_lt] at crossed
      exact ⟨maximumBounds.1, Int.le_of_lt crossed, minimumBounds.2⟩
  · next ordered =>
      rw [Int32.not_lt, Int32.le_iff_toInt_le] at ordered
      exact ⟨minimumBounds.1, ordered, maximumBounds.2⟩

/-- The range passed on is empty exactly if the arguments clamp to one level. -/
theorem orderedLevels_apart_iff
    (minimum maximum : Int32) :
    (orderedLevels minimum maximum).1 < (orderedLevels minimum maximum).2 ↔
      clampLevel minimum ≠ clampLevel maximum := by
  unfold orderedLevels
  dsimp only
  split
  · next crossed =>
      refine iff_of_true (Int32.lt_iff_toInt_lt.mp crossed) fun same => ?_
      rw [same] at crossed
      exact absurd crossed Int32.lt_irrefl
  · next ordered =>
      rw [← Int32.lt_iff_toInt_lt]
      constructor
      · intro below same
        rw [same] at below
        exact absurd below Int32.lt_irrefl
      · intro apart
        exact Int32.lt_of_le_of_ne (Int32.not_lt.mp ordered) apart

namespace GainControl

variable {cores : Cores}

/-- `Java_com_huawu_fivesmart_audio_apm_Apm_agcSetAnalogLevelLimits` -/
def agcSetAnalogLevelLimits
    (formats : StreamFormats)
    (minimum maximum : Int32) : Stage (GainControl cores) Exit :=
  setAnalogLevelLimits formats
    (orderedLevels minimum maximum).1 (orderedLevels minimum maximum).2

/-- The limits in force, which the library takes in the mode in force. -/
structure InForce
    (formats : StreamFormats)
    (agc : GainControl cores)
    (levels : Int × Int) : Prop where
  minimum : agc.settings.minimumCaptureLevel = levels.1
  maximum : agc.settings.maximumCaptureLevel = levels.2
  initialises :
    ∀ handle : AgcHandle cores,
      ((agc.methods formats).initializeHandle handle).2 = false

/-- The library takes an ordered range everywhere, and an empty one where it has its own. -/
theorem takenByInit_iff
    (settings : GainSettings) :
    settings.takenByInit = true ↔
      settings.mode = .kAdaptiveDigital ∨
        settings.minimumCaptureLevel < settings.maximumCaptureLevel := by
  unfold GainSettings.takenByInit AgcHandle.levelRange
  by_cases digital : settings.mode = .kAdaptiveDigital <;>
    simp [digital]

/-- Each handle is initialised without an error exactly if the library takes the limits. -/
theorem initializeHandle_passes_iff
    (formats : StreamFormats)
    (agc : GainControl cores)
    (handle : AgcHandle cores) :
    ((agc.methods formats).initializeHandle handle).2 = false ↔
      agc.settings.takenByInit = true := by
  simp [methods, AgcHandle.init, GainSettings.takenByInit]

/--
Setting the limits succeeds with the clamped ordered pair in force, and a gain
control that can be initialised with it, exactly in the adaptive digital mode or
for arguments that clamp to different levels.
-/
theorem agcSetAnalogLevelLimits_inForce_iff
    (formats : StreamFormats)
    (agc : GainControl cores)
    (minimum maximum : Int32) :
    ((agcSetAnalogLevelLimits formats minimum maximum agc).2 = none ∧
      InForce formats (agcSetAnalogLevelLimits formats minimum maximum agc).1
        (orderedLevels minimum maximum)) ↔
      agc.settings.mode = .kAdaptiveDigital ∨
        clampLevel minimum ≠ clampLevel maximum := by
  have legal := orderedLevels_legal minimum maximum
  let told : GainControl cores :=
    { agc with
      settings :=
        { agc.settings with
          minimumCaptureLevel := (orderedLevels minimum maximum).1
          maximumCaptureLevel := (orderedLevels minimum maximum).2
          levelsInRange := legal } }
  have ran :
      agcSetAnalogLevelLimits formats minimum maximum agc =
        initializeComponent formats told :=
    dif_pos legal
  have settings :
      (initializeComponent formats told).1.settings = told.settings :=
    (initializeComponent_base formats told).2.2
  have taken :
      told.settings.takenByInit = true ↔
        agc.settings.mode = .kAdaptiveDigital ∨
          clampLevel minimum ≠ clampLevel maximum := by
    rw [takenByInit_iff, ← orderedLevels_apart_iff]
  rw [ran, ← taken]
  constructor
  · rintro ⟨-, inForce⟩
    have passes :=
      (initializeHandle_passes_iff formats _ .create).mp
        (inForce.initialises .create)
    rw [settings] at passes
    exact passes
  · intro isTaken
    refine ⟨initializeComponent_passes told fun _ => isTaken, ?_⟩
    constructor
    · rw [settings]
    · rw [settings]
    · intro handle
      rw [initializeHandle_passes_iff, settings]
      exact isTaken

/--
An enabled gain control, in its first mode, answers two arguments beyond the range
with an error.  The limits are stored all the same.
-/
theorem agcSetAnalogLevelLimits_refused :
    let records : List (CallRecord .passThrough) :=
      [⟨.enable .gainControl true, .all, none⟩]
    let apm := stateAfter .create records
    let ran :=
      agcSetAnalogLevelLimits apm.formats 70000 80000 apm.gainControl
    Path apiStep .create (movesOf .create records) apm ∧
      ran.2 = some (.error .kUnspecifiedError) ∧
        ran.1.settings.minimumCaptureLevel = 65535 ∧
          ran.1.settings.maximumCaptureLevel = 65535 ∧
            ¬ (ran.2 = none ∧
              InForce apm.formats ran.1 (orderedLevels 70000 80000)) := by
  intro records apm ran
  have refused : ran.2 = some (.error .kUnspecifiedError) := by
    decide +kernel
  refine ⟨path_movesOf (by decide +kernel), refused,
    by decide +kernel, by decide +kernel, ?_⟩
  rintro ⟨succeeded, -⟩
  rw [refused] at succeeded
  cases succeeded

end GainControl

end ApmSdk.AudioProcessing
