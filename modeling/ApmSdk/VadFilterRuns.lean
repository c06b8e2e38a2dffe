import ApmSdk.LabelledPath
import ApmSdk.VadFilterBounds

namespace ApmSdk.Vad

open Resample48khz (evens odds length_evens length_odds mem_of_mem_evens mem_of_mem_odds)

/-!
# Runs of frames through the filter bank

As long as the samples that a filter is handed are within its limit nothing that it stores
wraps, whatever becomes of the samples of the other filters.  The samples of a quiet stream
are within the limits of all of them.
-/

/-- `frequency_band`: a split. -/
inductive FrequencyBand where
  | band0
  | band1
  | band2
  | band3
  | band4
deriving Repr, DecidableEq

/-- The states of a split. -/
def FilterbankInst.split (inst : FilterbankInst) : FrequencyBand → SplitState
  | .band0 => inst.split0
  | .band1 => inst.split1
  | .band2 => inst.split2
  | .band3 => inst.split3
  | .band4 => inst.split4

/-- The samples that a split is handed in a frame. -/
def FrameBands.splitInput (bands : FrameBands) (dataIn : List Int) : FrequencyBand → List Int
  | .band0 => dataIn
  | .band1 => bands.from0.hpData
  | .band2 => bands.from0.lpData
  | .band3 => bands.from2.lpData
  | .band4 => bands.from3.lpData

/-- What a split gives in a frame. -/
def FrameBands.splitOutput (bands : FrameBands) : FrequencyBand → SplitOutput
  | .band0 => bands.from0
  | .band1 => bands.from1
  | .band2 => bands.from2
  | .band3 => bands.from3
  | .band4 => bands.from4

/-- A filter of the bank: a branch of a split, a whole split, or the high-pass filter. -/
inductive Stage where
  | upperBranch (band : FrequencyBand)
  | lowerBranch (band : FrequencyBand)
  | split (band : FrequencyBand)
  | highPass
deriving Repr, DecidableEq

/-- The samples that a filter is handed in a frame. -/
def FrameBands.inputOf (bands : FrameBands) (dataIn : List Int) : Stage → List Int
  | .upperBranch band => evens (bands.splitInput dataIn band)
  | .lowerBranch band => odds (bands.splitInput dataIn band)
  | .split band => bands.splitInput dataIn band
  | .highPass => bands.from4.lpData

/-- The largest samples for which a filter stores the exact values. -/
def Stage.limit : Stage → Int
  | .upperBranch _ => upperLimit
  | .lowerBranch _ => lowerLimit
  | .split _ => splitLimit
  | .highPass => highPassLimit

/-- A frame consists of what the splits and the high-pass filter give. -/
structure Consists
    (arithmetic : Arithmetic)
    (inst : FilterbankInst)
    (dataIn : List Int)
    (bands : FrameBands) : Prop where
  splits :
    ∀ band,
      splitFilter arithmetic (bands.splitInput dataIn band) (inst.split band) =
        some (bands.splitOutput band)
  aboveHp :
    highPassFilter arithmetic bands.from4.lpData inst.hpFilterState = some bands.aboveHp

/-- Every value that a filter stores in a frame is the exact one: exact arithmetic gives what the
code gives. -/
def StoresExact
    (inst : FilterbankInst)
    (dataIn : List Int)
    (bands : FrameBands) (stage : Stage) : Prop :=
  match stage with
  | .upperBranch band =>
      Returns
        (allPassFilter exact upperCoefficient (inst.split band).upper
          (bands.inputOf dataIn stage))
        fun result =>
          allPassFilter wrapping upperCoefficient (inst.split band).upper
            (bands.inputOf dataIn stage) = some result
  | .lowerBranch band =>
      Returns
        (allPassFilter exact lowerCoefficient (inst.split band).lower
          (bands.inputOf dataIn stage))
        fun result =>
          allPassFilter wrapping lowerCoefficient (inst.split band).lower
            (bands.inputOf dataIn stage) = some result
  | .split band =>
      splitFilter exact (bands.inputOf dataIn stage) (inst.split band) =
        some (bands.splitOutput band)
  | .highPass =>
      highPassFilter exact (bands.inputOf dataIn stage) inst.hpFilterState =
        some bands.aboveHp

namespace FilterbankInst

/-- The states behind a frame. -/
def next (inst : FilterbankInst) (dataIn : List Int) : Option FilterbankInst :=
  (filterFrame wrapping inst dataIn).map FrameBands.inst

/-- The samples that a filter is handed in a frame are within its limit. -/
def WithinLimit (stage : Stage) (inst : FilterbankInst) (dataIn : List Int) : Prop :=
  ∀ bands, filterFrame wrapping inst dataIn = some bands →
    ∀ sample ∈ bands.inputOf dataIn stage, Within stage.limit sample

/-- No value that a filter stores in a frame wraps. -/
def NothingWraps (stage : Stage) (inst : FilterbankInst) (dataIn : List Int) : Prop :=
  ∃ bands,
    filterFrame wrapping inst dataIn = some bands ∧ StoresExact inst dataIn bands stage

end FilterbankInst

/-! ## A frame -/

section Frame

variable {arithmetic : Arithmetic}
variable {inst : FilterbankInst}
variable {dataIn : List Int}
variable {bands : FrameBands}

theorem filterFrame_eq_some_iff :
    filterFrame arithmetic inst dataIn = some bands ↔
      Consists arithmetic inst dataIn bands := by
  constructor
  · intro ran
    simp only [filterFrame, Option.bind_eq_bind, Option.bind_eq_some_iff] at ran
    obtain ⟨from0, given0, from1, given1, from2, given2, from3, given3, from4, given4,
      aboveHp, given5, isBands⟩ := ran
    rw [← Option.some.inj isBands]
    refine ⟨fun band => ?_, given5⟩
    cases band with
    | band0 => exact given0
    | band1 => exact given1
    | band2 => exact given2
    | band3 => exact given3
    | band4 => exact given4
  · intro consists
    have given0 := consists.splits .band0
    have given1 := consists.splits .band1
    have given2 := consists.splits .band2
    have given3 := consists.splits .band3
    have given4 := consists.splits .band4
    dsimp only [FrameBands.splitInput, FrameBands.splitOutput, FilterbankInst.split]
      at given0 given1 given2 given3 given4
    simp only [filterFrame, given0, given1, given2, given3, given4, consists.aboveHp,
      Option.bind_eq_bind, Option.bind_some]
    rfl

/-- The states of a split come from its branches. -/
theorem branches_of_splitFilter
    {state : SplitState}
    {output : SplitOutput}
    (ran : splitFilter arithmetic dataIn state = some output) :
    (∃ upper,
      allPassFilter arithmetic upperCoefficient state.upper (evens dataIn) =
        some (upper, output.state.upper)) ∧
      ∃ lower,
        allPassFilter arithmetic lowerCoefficient state.lower (odds dataIn) =
          some (lower, output.state.lower) := by
  simp only [splitFilter, Option.bind_eq_bind, Option.bind_eq_some_iff] at ran
  obtain ⟨upper, upperRan, lower, lowerRan, hpData, -, lpData, -, isOutput⟩ := ran
  rw [← Option.some.inj isOutput]
  exact ⟨⟨upper.1, upperRan⟩, lower.1, lowerRan⟩

/-- Behind a frame a split has the states that it gives. -/
theorem FrameBands.split_inst (bands : FrameBands) (band : FrequencyBand) :
    bands.inst.split band = (bands.splitOutput band).state := by
  cases band <;> rfl

end Frame

/-! ## The code gives a value for every frame -/

theorem word32_wrapping (value : Int) : Returns (wrapping.word32 value) fun _ => True :=
  .pure trivial

theorem word16_wrapping (value : Int) :
    Returns (wrapping.word16 value) fun stored => -(2 ^ 15) ≤ stored ∧ stored < 2 ^ 15 :=
  .pure (int16_bounds value)

/-- Samples of 16 bits, and not more of them than this. -/
structure IsBand (most : Nat) (samples : List Int) : Prop where
  length : samples.length ≤ most
  samples16 : SignalEnergy.Samples16 samples

theorem allPassLoop_wrapping
    (filterCoefficient state32 : Int)
    (samples : List Int) :
    Returns (allPassLoop wrapping filterCoefficient state32 samples)
      fun result => result.1.length = samples.length := by
  induction samples generalizing state32 with
  | nil =>
      exact .pure rfl
  | cons sample rest inductionHypothesis =>
      refine .bind (word32_wrapping _) fun tmp32 _ => ?_
      refine .bind (word16_wrapping _) fun tmp16 _ => ?_
      refine .bind (word32_wrapping _) fun difference _ => ?_
      refine .bind (word32_wrapping _) fun next _ => ?_
      refine .bind (inductionHypothesis next) fun result isLength => ?_
      exact .pure (congrArg (· + 1) isLength)

theorem allPassFilter_wrapping
    (filterCoefficient filterState : Int)
    (samples : List Int) :
    Returns (allPassFilter wrapping filterCoefficient filterState samples)
      fun result => result.1.length = samples.length :=
  .bind (allPassLoop_wrapping _ _ _) fun _ isLength => .pure isLength

/-- A split gives two bands of half as many samples. -/
theorem splitFilter_wrapping
    (dataIn : List Int)
    (state : SplitState) :
    Returns (splitFilter wrapping dataIn state) fun output =>
      IsBand (dataIn.length / 2) output.hpData ∧
        IsBand (dataIn.length / 2) output.lpData := by
  have stored :
      ∀ (pairs : List (Int × Int)) (value : Int × Int → Int),
        Returns (pairs.mapM fun pair => wrapping.word16 (value pair)) (IsBand pairs.length) :=
    fun pairs value =>
      (Returns.mapM fun _ _ => word16_wrapping _).imp fun _ ⟨isLength, samples16⟩ =>
        ⟨isLength.le, samples16⟩
  refine .bind (allPassFilter_wrapping _ _ _) fun upper isUpper => ?_
  refine .bind (allPassFilter_wrapping _ _ _) fun lower isLower => ?_
  rw [length_evens] at isUpper
  rw [length_odds] at isLower
  have isLength : (upper.1.zip lower.1).length = dataIn.length / 2 := by
    rw [List.length_zip, isUpper, isLower, Nat.min_self]
  rw [← isLength]
  refine .bind (stored _ fun pair => pair.1 - pair.2) fun hpData isHigh => ?_
  refine .bind (stored _ fun pair => pair.2 + pair.1) fun lpData isLow => ?_
  exact .pure ⟨isHigh, isLow⟩

theorem highPassFilter_wrapping
    (dataIn : List Int)
    (state : HpState) :
    Returns (highPassFilter wrapping dataIn state) fun result =>
      IsBand dataIn.length result.1 := by
  induction dataIn generalizing state with
  | nil =>
      exact .pure ⟨Nat.le_refl _, fun _ member => absurd member List.not_mem_nil⟩
  | cons sample rest inductionHypothesis =>
      refine .bind (word32_wrapping _) fun _ _ => ?_
      refine .bind (word32_wrapping _) fun _ _ => ?_
      refine .bind (word32_wrapping _) fun _ _ => ?_
      refine .bind (word32_wrapping _) fun _ _ => ?_
      refine .bind (word32_wrapping _) fun _ _ => ?_
      refine .bind (word16_wrapping _) fun out fits => ?_
      refine .bind (inductionHypothesis _) fun result isBand => ?_
      exact
        .pure
          ⟨Nat.succ_le_succ isBand.length, List.forall_mem_cons.mpr ⟨fits, isBand.samples16⟩⟩

/-- The bands of a frame halve its samples with each split. -/
structure FrameBands.OfLength (length : Nat) (bands : FrameBands) : Prop where
  high1 : IsBand (length / 4) bands.from1.hpData
  low1 : IsBand (length / 4) bands.from1.lpData
  high2 : IsBand (length / 4) bands.from2.hpData
  high3 : IsBand (length / 8) bands.from3.hpData
  high4 : IsBand (length / 16) bands.from4.hpData
  aboveHp : IsBand (length / 16) bands.aboveHp.1

theorem filterFrame_wrapping
    (inst : FilterbankInst)
    (dataIn : List Int) :
    Returns (filterFrame wrapping inst dataIn) (FrameBands.OfLength dataIn.length) := by
  have fewer :
      ∀ {most fewer : Nat} {samples : List Int},
        IsBand fewer samples → fewer ≤ most → IsBand most samples :=
    fun isBand few => ⟨Nat.le_trans isBand.length few, isBand.samples16⟩
  refine .bind (splitFilter_wrapping _ _) fun from0 ⟨high0, low0⟩ => ?_
  refine .bind (splitFilter_wrapping _ _) fun from1 ⟨high1, low1⟩ => ?_
  refine .bind (splitFilter_wrapping _ _) fun from2 ⟨high2, low2⟩ => ?_
  refine .bind (splitFilter_wrapping _ _) fun from3 ⟨high3, low3⟩ => ?_
  refine .bind (splitFilter_wrapping _ _) fun from4 ⟨high4, low4⟩ => ?_
  refine .bind (highPassFilter_wrapping _ _) fun aboveHp isAbove => ?_
  have length0 := high0.length
  have otherLength0 := low0.length
  have length2 := low2.length
  have length3 := low3.length
  have length4 := low4.length
  exact
    .pure
      ⟨fewer high1 (by omega), fewer low1 (by omega), fewer high2 (by omega),
        fewer high3 (by omega), fewer high4 (by omega), fewer isAbove (by omega)⟩

/-! ## A filter within its limit -/

/-- The states of a filter are within what its limit allows. -/
def Stage.Sound (inst : FilterbankInst) : Stage → Prop
  | .upperBranch band => Stored upperCoefficient upperLimit (inst.split band).upper
  | .lowerBranch band => Stored lowerCoefficient lowerLimit (inst.split band).lower
  | .split band => (inst.split band).Sound splitLimit
  | .highPass => inst.hpFilterState.Sound highPassLimit (2 ^ 15 - 1)

theorem sound_initFilterbank (stage : Stage) : stage.Sound initFilterbank := by
  cases stage with
  | upperBranch band => cases band <;> exact stored_zero (by decide) (by decide)
  | lowerBranch band => cases band <;> exact stored_zero (by decide) (by decide)
  | split band => cases band <;> exact SplitState.sound_zero (by decide)
  | highPass => exact HpState.sound_zero (by decide) (by decide)

/-- A branch within its limit stores the exact values. -/
theorem allPassFilter_exact
    {coefficient inBound filterState next : Int}
    {samples dataOut : List Int}
    (range : 0 ≤ coefficient ∧ coefficient ≤ upperCoefficient)
    (fits : BranchFits coefficient inBound)
    (stored : Stored coefficient inBound filterState)
    (bounded : ∀ sample ∈ samples, Within inBound sample)
    (ran : allPassFilter wrapping coefficient filterState samples = some (dataOut, next)) :
    (Returns (allPassFilter exact coefficient filterState samples) fun result =>
        allPassFilter wrapping coefficient filterState samples = some result) ∧
      Stored coefficient inBound next := by
  obtain ⟨otherOut, otherNext, runs, -, -, storedNext⟩ :=
    allPassFilter_eq range fits stored bounded
  obtain ⟨-, rfl⟩ := Prod.mk.inj (Option.some.inj ((runs wrapping).symm.trans ran))
  exact ⟨⟨_, runs exact, runs wrapping⟩, storedNext⟩

/-- A split within its limit stores the exact values. -/
theorem splitFilter_exact
    {state : SplitState}
    {dataIn : List Int}
    {output : SplitOutput}
    (sound : state.Sound splitLimit)
    (bounded : ∀ sample ∈ dataIn, Within splitLimit sample)
    (ran : splitFilter wrapping dataIn state = some output) :
    splitFilter exact dataIn state = some output ∧ output.state.Sound splitLimit := by
  obtain ⟨other, runs, -, -, next⟩ :=
    @splitFilter_eq splitLimit (2 ^ 15 - 1) (by decide) (by decide) (by decide) state sound
      dataIn bounded
  obtain rfl : other = output := Option.some.inj ((runs wrapping).symm.trans ran)
  exact ⟨runs exact, next⟩

theorem highPassFilter_exact
    {state : HpState}
    {dataIn : List Int}
    {result : List Int × HpState}
    (sound : state.Sound highPassLimit (2 ^ 15 - 1))
    (bounded : ∀ sample ∈ dataIn, Within highPassLimit sample)
    (ran : highPassFilter wrapping dataIn state = some result) :
    highPassFilter exact dataIn state = some result ∧
      result.2.Sound highPassLimit (2 ^ 15 - 1) := by
  obtain ⟨other, runs, next⟩ :=
    highPassFilter_eq ⟨by decide, by decide, by decide⟩ sound bounded
  obtain rfl : other = result := Option.some.inj ((runs wrapping).symm.trans ran)
  exact ⟨runs exact, next⟩

/-- A filter within its limit stores the exact values in a frame. -/
theorem storesExact_of_within
    {inst : FilterbankInst}
    {dataIn : List Int}
    {bands : FrameBands}
    {stage : Stage}
    (sound : stage.Sound inst)
    (bounded : ∀ sample ∈ bands.inputOf dataIn stage, Within stage.limit sample)
    (consists : Consists wrapping inst dataIn bands) :
    StoresExact inst dataIn bands stage ∧ stage.Sound bands.inst := by
  cases stage with
  | upperBranch band =>
      obtain ⟨⟨upper, ran⟩, -⟩ := branches_of_splitFilter (consists.splits band)
      rw [Stage.Sound, bands.split_inst]
      exact
        allPassFilter_exact (by decide) ⟨by decide, by decide⟩ sound bounded ran
  | lowerBranch band =>
      obtain ⟨-, lower, ran⟩ := branches_of_splitFilter (consists.splits band)
      rw [Stage.Sound, bands.split_inst]
      exact
        allPassFilter_exact (by decide) ⟨by decide, by decide⟩ sound bounded ran
  | split band =>
      rw [Stage.Sound, bands.split_inst]
      exact splitFilter_exact sound bounded (consists.splits band)
  | highPass =>
      exact highPassFilter_exact sound bounded consists.aboveHp

/-! ## A quiet frame -/

/-- The largest samples of a quiet stream, and what they become behind each split. -/
def quiet : Int :=
  1760

/-- The states that quiet frames leave. -/
structure FilterbankInst.Quiet (inst : FilterbankInst) : Prop where
  split0 : inst.split0.Sound quiet
  split1 : inst.split1.Sound 3198
  split2 : inst.split2.Sound 3198
  split3 : inst.split3.Sound 5801
  split4 : inst.split4.Sound 10513
  highPass : inst.hpFilterState.Sound 19041 (2 ^ 15 - 1)

theorem quiet_initFilterbank : initFilterbank.Quiet where
  split0 := SplitState.sound_zero (by decide)
  split1 := SplitState.sound_zero (by decide)
  split2 := SplitState.sound_zero (by decide)
  split3 := SplitState.sound_zero (by decide)
  split4 := SplitState.sound_zero (by decide)
  highPass := HpState.sound_zero (by decide) (by decide)

theorem Within.mono
    {value smaller larger : Int}
    (within : Within smaller value)
    (notAbove : smaller ≤ larger) :
    Within larger value := by
  obtain ⟨low, high⟩ := within
  constructor <;> omega

/-- A quiet frame leaves quiet states, and hands each filter samples within its limit. -/
theorem quiet_of_filterFrame
    {inst : FilterbankInst}
    {dataIn : List Int}
    {bands : FrameBands}
    (sound : inst.Quiet)
    (bounded : ∀ sample ∈ dataIn, Within quiet sample)
    (ran : filterFrame wrapping inst dataIn = some bands) :
    bands.inst.Quiet ∧
      ∀ stage, ∀ sample ∈ bands.inputOf dataIn stage, Within stage.limit sample := by
  obtain ⟨from0, runs0, hp0, lp0, next0⟩ :=
    @splitFilter_eq quiet 3198 (by decide) (by decide) (by decide) _ sound.split0 _ bounded
  obtain ⟨from1, runs1, -, -, next1⟩ :=
    @splitFilter_eq 3198 5801 (by decide) (by decide) (by decide) _ sound.split1 _ hp0
  obtain ⟨from2, runs2, -, lp2, next2⟩ :=
    @splitFilter_eq 3198 5801 (by decide) (by decide) (by decide) _ sound.split2 _ lp0
  obtain ⟨from3, runs3, -, lp3, next3⟩ :=
    @splitFilter_eq 5801 10513 (by decide) (by decide) (by decide) _ sound.split3 _ lp2
  obtain ⟨from4, runs4, -, lp4, next4⟩ :=
    @splitFilter_eq 10513 19041 (by decide) (by decide) (by decide) _ sound.split4 _ lp3
  obtain ⟨aboveHp, runs5, next5⟩ :=
    highPassFilter_eq ⟨by decide, by decide, by decide⟩ sound.highPass lp4
  have isBands : bands = ⟨from0, from1, from2, from3, from4, aboveHp⟩ := by
    simp only [filterFrame, runs0, runs1, runs2, runs3, runs4, runs5, Option.bind_eq_bind,
      Option.bind_some] at ran
    exact (Option.some.inj ran).symm
  subst isBands
  refine ⟨⟨next0, next1, next2, next3, next4, next5⟩, ?_⟩
  have splits :
      ∀ band,
        ∀ sample ∈ FrameBands.splitInput ⟨from0, from1, from2, from3, from4, aboveHp⟩ dataIn band,
          Within 10513 sample := by
    intro band sample member
    cases band with
    | band0 => exact (bounded sample member).mono (by decide)
    | band1 => exact (hp0 sample member).mono (by decide)
    | band2 => exact (lp0 sample member).mono (by decide)
    | band3 => exact (lp2 sample member).mono (by decide)
    | band4 => exact lp3 sample member
  intro stage sample member
  cases stage with
  | upperBranch band =>
      exact
        (splits band sample (mem_of_mem_evens member)).mono
          (show 10513 ≤ upperLimit by decide)
  | lowerBranch band =>
      exact
        (splits band sample (mem_of_mem_odds member)).mono
          (show 10513 ≤ lowerLimit by decide)
  | split band =>
      exact (splits band sample member).mono (show 10513 ≤ splitLimit by decide)
  | highPass => exact (lp4 sample member).mono (by decide)

/-! ## Runs -/

namespace FilterbankInst

variable {inst target : FilterbankInst} {dataIn : List Int} {stage : Stage}

theorem nothingWraps_of_withinLimit
    (sound : stage.Sound inst)
    (within : WithinLimit stage inst dataIn) :
    NothingWraps stage inst dataIn := by
  obtain ⟨bands, ran, -⟩ := filterFrame_wrapping inst dataIn
  have consists := filterFrame_eq_some_iff.mp ran
  exact ⟨bands, ran, (storesExact_of_within sound (within bands ran) consists).1⟩

theorem sound_of_next
    (sound : stage.Sound inst)
    (within : WithinLimit stage inst dataIn)
    (isNext : inst.next dataIn = some target) :
    stage.Sound target := by
  obtain ⟨bands, ran, rfl⟩ := Option.map_eq_some_iff.mp isNext
  have consists := filterFrame_eq_some_iff.mp ran
  exact (storesExact_of_within sound (within bands ran) consists).2

/-- The samples of a frame are quiet. -/
def IsQuiet (dataIn : List Int) : Prop :=
  ∀ sample ∈ dataIn, Within quiet sample

theorem withinLimit_of_quiet
    (sound : inst.Quiet)
    (isQuiet : IsQuiet dataIn) :
    WithinLimit stage inst dataIn :=
  fun _ ran => (quiet_of_filterFrame sound isQuiet ran).2 stage

theorem quiet_of_next
    (sound : inst.Quiet)
    (isQuiet : IsQuiet dataIn)
    (isNext : inst.next dataIn = some target) :
    target.Quiet := by
  obtain ⟨bands, ran, rfl⟩ := Option.map_eq_some_iff.mp isNext
  exact (quiet_of_filterFrame sound isQuiet ran).1

/-- Along a run in which the samples that a filter is handed are within its limit nothing that
it stores wraps. -/
theorem nothingWraps_of_along
    {frames : List (List Int)}
    (within : AlongRun next (WithinLimit stage) initFilterbank frames) :
    AlongRun next (NothingWraps stage) initFilterbank frames :=
  AlongRun.of_guard (stage.Sound ·)
    (fun sound within isNext => sound_of_next sound within isNext)
    (fun sound within => nothingWraps_of_withinLimit sound within)
    (sound_initFilterbank stage) within

/-- The samples of quiet frames stay within the limits. -/
theorem withinLimit_along
    {frames : List (List Int)}
    (allQuiet : ∀ frame ∈ frames, IsQuiet frame) :
    AlongRun next (WithinLimit stage) initFilterbank frames :=
  AlongRun.of_guard Quiet
    (fun sound isQuiet isNext => quiet_of_next sound isQuiet isNext)
    (fun sound isQuiet => withinLimit_of_quiet sound isQuiet)
    quiet_initFilterbank (AlongRun.of_forall allQuiet initFilterbank)

/-- Samples of one magnitude with the signs of both impulse responses. -/
def worstSigns (magnitude : Int) : List Int :=
  (List.replicate 19 [magnitude, -magnitude, -magnitude, magnitude]).flatten ++
    [magnitude, -magnitude, magnitude, -magnitude]

end FilterbankInst

end ApmSdk.Vad
