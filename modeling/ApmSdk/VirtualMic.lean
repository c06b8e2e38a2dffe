import ApmSdk.AnalogMeasures

namespace ApmSdk.Agc

/-!
# The virtual microphone of the legacy gain control

`WebRtcAgc_VirtualMic` applies the gain that belongs to an index, and takes one step
down for every sample that clips.  The gain table starts at index 128 before the loop
over the samples and at index 127 inside it, so that the first step down keeps the
gain.
-/

/-- `kGainTableVirtualMic`, in Q10 -/
def gainTableVirtualMic : List Int :=
  [1052, 1081, 1110, 1141, 1172, 1204, 1237, 1271, 1305, 1341, 1378, 1416, 1454,
    1494, 1535, 1577, 1620, 1664, 1710, 1757, 1805, 1854, 1905, 1957, 2010, 2065,
    2122, 2180, 2239, 2301, 2364, 2428, 2495, 2563, 2633, 2705, 2779, 2855, 2933,
    3013, 3096, 3180, 3267, 3357, 3449, 3543, 3640, 3739, 3842, 3947, 4055, 4166,
    4280, 4397, 4517, 4640, 4767, 4898, 5032, 5169, 5311, 5456, 5605, 5758, 5916,
    6078, 6244, 6415, 6590, 6770, 6956, 7146, 7341, 7542, 7748, 7960, 8178, 8402,
    8631, 8867, 9110, 9359, 9615, 9878, 10148, 10426, 10711, 11004, 11305, 11614,
    11932, 12258, 12593, 12938, 13292, 13655, 14029, 14412, 14807, 15212, 15628,
    16055, 16494, 16945, 17409, 17885, 18374, 18877, 19393, 19923, 20468, 21028,
    21603, 22194, 22801, 23425, 24065, 24724, 25400, 26095, 26808, 27541, 28295,
    29069, 29864, 30681, 31520, 32382]

/-- `kSuppressionTableVirtualMic`, in Q10 -/
def suppressionTableVirtualMic : List Int :=
  [1024, 1006, 988, 970, 952, 935, 918, 902, 886, 870, 854, 839, 824, 809, 794, 780,
    766, 752, 739, 726, 713, 700, 687, 675, 663, 651, 639, 628, 616, 605, 594, 584,
    573, 563, 553, 543, 533, 524, 514, 505, 496, 487, 478, 470, 461, 453, 445, 437,
    429, 421, 414, 406, 399, 392, 385, 378, 371, 364, 358, 351, 345, 339, 333, 327,
    321, 315, 309, 304, 298, 293, 288, 283, 278, 273, 268, 263, 258, 254, 249, 244,
    240, 236, 232, 227, 223, 219, 215, 211, 208, 204, 200, 197, 193, 190, 186, 183,
    180, 176, 173, 170, 167, 164, 161, 158, 155, 153, 150, 147, 145, 142, 139, 137,
    134, 132, 130, 127, 125, 123, 121, 118, 116, 114, 112, 110, 108, 106, 104, 102]

/-- The gain of an index before the loop; `none` outside of the tables. -/
def startGain (gainIdx : Int) : Option Int :=
  if 127 < gainIdx then gainTableVirtualMic[(gainIdx - 128).toNat]?
  else suppressionTableVirtualMic[(127 - gainIdx).toNat]?

/-- The gain of an index inside the loop. -/
def loopGain (gainIdx : Int) : Option Int :=
  if 127 ≤ gainIdx then gainTableVirtualMic[(gainIdx - 127).toNat]?
  else suppressionTableVirtualMic[(127 - gainIdx).toNat]?

/-- A sample exceeds 16 bits at a gain. -/
def Clips (gain sample : Int) : Prop :=
  32767 < (sample * gain) >>> (10 : Nat) ∨
    (sample * gain) >>> (10 : Nat) < -32768

instance (gain sample : Int) : Decidable (Clips gain sample) :=
  inferInstanceAs (Decidable (_ ∨ _))

/-- One pass of the loop: the gain applied to band 0, whether the sample clipped, and
the gain applied to the other bands. -/
structure MicStep where
  gain : Int
  clipped : Bool
  gainAfter : Int
  deriving Repr, DecidableEq

/-- The loop over the samples of band 0, with the index that it ends with. -/
def micLoop : (gainIdx gain : Int) → List Int → Option (List MicStep × Int)
  | gainIdx, _, [] => some ([], gainIdx)
  | gainIdx, gain, sample :: rest =>
      if Clips gain sample then
        (loopGain (gainIdx - 1)).bind fun gainAfter =>
          (micLoop (gainIdx - 1) gainAfter rest).map fun (steps, last) =>
            ({ gain, clipped := true, gainAfter } :: steps, last)
      else
        (micLoop gainIdx gain rest).map fun (steps, last) =>
          ({ gain, clipped := false, gainAfter := gain } :: steps, last)

/-- The passes for a frame that starts from an index. -/
def micPasses
    (gainIdx : Int)
    (low : List Int) : Option (List MicStep × Int) :=
  (startGain gainIdx).bind fun gain => micLoop gainIdx gain low

/-- A sample at a gain in Q10, saturated. -/
def amplified (sample gain : Int) : Int :=
  satW32ToW16 ((sample * gain) >>> (10 : Nat))

/-- The bands at the gains of the steps. -/
def amplifiedBands (steps : List MicStep) : List (List Int) → List (List Int)
  | [] => []
  | low :: upper =>
      List.zipWith (fun sample step => amplified sample step.gain) low steps ::
        upper.map fun band =>
          List.zipWith (fun sample step => amplified sample step.gainAfter)
            band steps

/-- The energy of a frame, counted up to a limit. -/
def limitedEnergy (frameNrgLimit : Int) : List Int → Int
  | [] => 0
  | first :: rest =>
      rest.foldl
        (fun frameNrg sample =>
          if frameNrg < frameNrgLimit then frameNrg + sample * sample
          else frameNrg)
        (first * first)

/-- The changes of sign from one sample to the next. -/
def zeroCrossings (samples : List Int) : Nat :=
  (List.zip samples samples.tail).countP
    fun (first, second) => decide (first < 0) != decide (second < 0)

/-- `lowLevelSignal`: the digital part does not adapt to low-level signals. -/
def lowLevel (fs : Int) (samples : List Int) : Int :=
  let frameNrgLimit := if fs ≠ 8000 then 11000 else 5500
  let frameNrg := limitedEnergy frameNrgLimit samples
  let numZeroCrossing := zeroCrossings samples
  if frameNrg < 500 ∨ numZeroCrossing ≤ 5 then 1
  else if numZeroCrossing ≤ 15 then 0
  else if frameNrg ≤ frameNrgLimit then 1
  else if 20 ≤ numZeroCrossing then 1
  else 0

namespace LegacyAgc

/-- The index that the level asks for; the level starts anew when that of the
microphone has changed. -/
def desiredIdx (stt : LegacyAgc) (micLevelIn : Int) : LegacyAgc × Int :=
  let micLevelTmp := micLevelIn * 2 ^ stt.scale
  if micLevelTmp ≠ stt.micRef then
    ({ stt with micRef := micLevelTmp, micVol := 127, micGainIdx := 127 }, 127)
  else (stt, min stt.micVol stt.maxAnalog)

/-- `WebRtcAgc_VirtualMic`: the state, the bands, `*micLevelOut` and the code; `none`
outside of the tables, or where `WebRtcAgc_AddMic` is undefined. -/
def virtualMic
    (stt : LegacyAgc)
    (inNear : List (List Int))
    (samples : Nat)
    (micLevelIn : Int) : Option (LegacyAgc × List (List Int) × Int × Int) :=
  let low := (inNear.headD []).take samples
  let stt := { stt with lowLevelSignal := lowLevel stt.fs low }
  let (stt, gainIdx) := stt.desiredIdx micLevelIn
  (micPasses gainIdx low).bind fun (steps, last) =>
    let stt := { stt with micGainIdx := last }
    (stt.addMic (amplifiedBands steps inNear) samples).map
      fun (stt, bands, code) =>
        (stt, bands, last >>> stt.scale, if code ≠ 0 then -1 else 0)

end LegacyAgc

/-! ## Gains that follow the index -/

/-- The number of samples that clipped. -/
def clips (steps : List MicStep) : Nat :=
  steps.countP MicStep.clipped

/--
Every gain is the one that the index has before the loop, where a sample that clips
takes the index one step down; and it takes the gain down, too.
-/
def FollowsIndex (gainIdx : Int) (steps : List MicStep) : Prop :=
  ∀ i step,
    steps[i]? = some step →
      startGain (gainIdx - clips (steps.take i)) = some step.gain ∧
        startGain (gainIdx - clips (steps.take (i + 1))) =
            some step.gainAfter ∧
          (step.clipped = true → step.gainAfter < step.gain)

/-- The tables are read at valid indices, and the gains follow the index. -/
def LegacyAgc.GainsFollowIndex
    (stt : LegacyAgc)
    (inNear : List (List Int))
    (samples : Nat)
    (micLevelIn : Int) : Prop :=
  ∃ steps last,
    micPasses (stt.desiredIdx micLevelIn).2
        ((inNear.headD []).take samples) = some (steps, last) ∧
      FollowsIndex (stt.desiredIdx micLevelIn).2 steps

/-- The gain of the first index is in the tables, and no sample of band 0 clips at it. -/
def LegacyAgc.NoSampleClips
    (stt : LegacyAgc)
    (inNear : List (List Int))
    (samples : Nat)
    (micLevelIn : Int) : Prop :=
  ∃ gain,
    startGain (stt.desiredIdx micLevelIn).2 = some gain ∧
      ∀ sample ∈ (inNear.headD []).take samples, ¬Clips gain sample

/-- A suppression is at most 1. -/
theorem startGain_le
    {gainIdx gain : Int}
    (suppressed : gainIdx ≤ 127)
    (found : startGain gainIdx = some gain) :
    0 ≤ gain ∧ gain ≤ 1024 := by
  have all :
      ∀ entry ∈ suppressionTableVirtualMic, 0 ≤ entry ∧ entry ≤ 1024 := by
    decide +kernel
  rw [startGain, if_neg (by omega)] at found
  exact all gain (List.mem_of_getElem? found)

/-- A suppressed sample does not clip. -/
theorem not_clips
    {gain sample : Int}
    (nonneg : 0 ≤ gain)
    (suppressed : gain ≤ 1024)
    (lower : -32768 ≤ sample)
    (upper : sample ≤ 32767) :
    ¬Clips gain sample := by
  have atLeast : -32768 * gain ≤ sample * gain :=
    Int.mul_le_mul_of_nonneg_right lower nonneg
  have atMost : sample * gain ≤ 32767 * gain :=
    Int.mul_le_mul_of_nonneg_right upper nonneg
  unfold Clips
  rw [Int.shiftRight_eq_div_pow]
  omega

/-- The first step down keeps the gain. -/
theorem loopGain_pred
    {gainIdx : Int}
    (amplifies : 127 < gainIdx) :
    loopGain (gainIdx - 1) = startGain gainIdx := by
  rw [loopGain, startGain, if_pos amplifies, if_pos (by omega)]
  congr 2
  omega

/-- Where no sample clips, all passes have the same gain. -/
theorem micLoop_of_not_clips
    {gainIdx gain : Int}
    {samples : List Int}
    (quiet : ∀ sample ∈ samples, ¬Clips gain sample) :
    micLoop gainIdx gain samples =
      some
        (samples.map fun _ => { gain, clipped := false, gainAfter := gain },
          gainIdx) := by
  induction samples with
  | nil =>
      rfl
  | cons sample rest inductionHypothesis =>
      rw [List.forall_mem_cons] at quiet
      rw [micLoop, if_neg quiet.1, inductionHypothesis quiet.2]
      rfl

/-- Passes without a sample that clips follow the index. -/
theorem followsIndex_of_not_clips
    {gainIdx gain : Int}
    (start : startGain gainIdx = some gain)
    (samples : List Int) :
    FollowsIndex gainIdx
      (samples.map fun _ => { gain, clipped := false, gainAfter := gain }) := by
  intro i step found
  rw [List.getElem?_map] at found
  obtain ⟨sample, -, rfl⟩ := Option.map_eq_some_iff.mp found
  have none (count : Nat) :
      clips
        ((samples.map fun _ =>
          ({ gain, clipped := false, gainAfter := gain } : MicStep)).take
            count) = 0 := by
    rw [clips, List.countP_eq_zero, ← List.map_take]
    intro earlier member
    obtain ⟨-, -, rfl⟩ := List.mem_map.mp member
    exact Bool.false_ne_true
  rw [none i, none (i + 1), Int.natCast_zero, Int.sub_zero]
  exact ⟨start, start, fun clipped => absurd clipped Bool.false_ne_true⟩

/-- Gains that follow the index leave no sample that clips. -/
theorem not_clips_of_followsIndex
    {gainIdx gain last : Int}
    {samples : List Int}
    {steps : List MicStep}
    (sampled : ∀ sample ∈ samples, -32768 ≤ sample ∧ sample ≤ 32767)
    (start : startGain gainIdx = some gain)
    (ran : micLoop gainIdx gain samples = some (steps, last))
    (follows : FollowsIndex gainIdx steps) :
    ∀ sample ∈ samples, ¬Clips gain sample := by
  induction samples generalizing steps with
  | nil =>
      intro sample member
      cases member
  | cons sample rest inductionHypothesis =>
      rw [List.forall_mem_cons] at sampled ⊢
      rw [micLoop] at ran
      split at ran
      next clipped =>
          exfalso
          obtain ⟨gainAfter, stepped, later⟩ :=
            Option.bind_eq_some_iff.mp ran
          obtain ⟨⟨laterSteps, laterLast⟩, -, same⟩ :=
            Option.map_eq_some_iff.mp later
          obtain ⟨rfl, -⟩ := Prod.mk.inj same
          have amplifies : 127 < gainIdx := by
            by_contra suppressed
            obtain ⟨nonneg, atMost⟩ :=
              startGain_le (Int.not_lt.mp suppressed) start
            exact not_clips nonneg atMost sampled.1.1 sampled.1.2 clipped
          rw [loopGain_pred amplifies, start] at stepped
          obtain rfl := Option.some.inj stepped
          exact Int.lt_irrefl _ ((follows 0 _ rfl).2.2 rfl)
      next quiet =>
          obtain ⟨⟨laterSteps, laterLast⟩, laterRan, same⟩ :=
            Option.map_eq_some_iff.mp ran
          obtain ⟨rfl, rfl⟩ := Prod.mk.inj same
          refine ⟨quiet, inductionHypothesis sampled.2 laterRan ?_⟩
          intro i step found
          exact follows (i + 1) step found

/--
For every state, frame and level, the virtual microphone reads its tables at valid
indices with gains that follow the index, if and only if the first index is in the
tables and no sample of band 0 clips at its gain.
-/
theorem gainsFollowIndex_iff_noSampleClips
    (stt : LegacyAgc)
    {inNear : List (List Int)}
    (samples : Nat)
    (micLevelIn : Int)
    (sampled :
      ∀ sample ∈ inNear.headD [], -32768 ≤ sample ∧ sample ≤ 32767) :
    stt.GainsFollowIndex inNear samples micLevelIn ↔
      stt.NoSampleClips inNear samples micLevelIn := by
  unfold LegacyAgc.GainsFollowIndex LegacyAgc.NoSampleClips micPasses
  constructor
  · rintro ⟨steps, last, ran, follows⟩
    obtain ⟨gain, start, looped⟩ := Option.bind_eq_some_iff.mp ran
    refine ⟨gain, start, not_clips_of_followsIndex ?_ start looped follows⟩
    intro sample member
    exact sampled sample (List.mem_of_mem_take member)
  · rintro ⟨gain, start, quiet⟩
    rw [start, Option.bind_some, micLoop_of_not_clips quiet]
    exact ⟨_, _, rfl, followsIndex_of_not_clips start _⟩

/-- A new instance in the adaptive digital mode that has processed a level of 200. -/
def level200 : LegacyAgc :=
  ((LegacyAgc.blank.init 0 255 modeAdaptiveDigital 8000).1.process
    80 200 0).1

theorem gainsFollowIndex_squareWave :
    level200.GainsFollowIndex [squareWave 1000] 80 127 :=
  (gainsFollowIndex_iff_noSampleClips level200 80 127
    (by decide +kernel)).mpr
    ⟨_, rfl, by decide +kernel⟩

/-- The first of two loud samples clips, and the second has the same gain. -/
theorem not_gainsFollowIndex_loud :
    ¬ ∀ (memory stt final : LegacyAgc) (minLevel maxLevel fs : Int)
        (moves : List (Move LegacyAgc Call))
        (inNear : List (List Int)) (samples : Nat) (micLevelIn : Int),
        memory.init minLevel maxLevel modeAdaptiveDigital fs = (stt, 0) →
        Path (stepOf LegacyAgc.perform) stt moves final →
        (∀ band ∈ inNear, ∀ sample ∈ band, -32768 ≤ sample ∧ sample ≤ 32767) →
        final.GainsFollowIndex inNear samples micLevelIn := by
  intro claimed
  have follows :=
    claimed LegacyAgc.blank _ level200 0 255 8000 _
      [squareWave 32767] 80 127
      (show LegacyAgc.blank.init 0 255 modeAdaptiveDigital 8000 =
        ((LegacyAgc.blank.init 0 255 modeAdaptiveDigital 8000).1, 0) by
        decide +kernel)
      (.single
        (show stepOf LegacyAgc.perform _ (.process 80 200 0) level200 from
          rfl))
      (by decide +kernel)
  obtain ⟨steps, last, ran, follows⟩ := follows
  have start : startGain (level200.desiredIdx 127).2 = some 7341 := by
    decide +kernel
  rw [micPasses, start, Option.bind_some] at ran
  exact
    not_clips_of_followsIndex (by decide +kernel) start ran follows 32767
      (by decide +kernel) (by decide)

/-! ## Every index is in the tables -/

theorem startGain_isSome
    {gainIdx : Int}
    (nonneg : 0 ≤ gainIdx)
    (atMost : gainIdx ≤ 255) :
    ∃ gain, startGain gainIdx = some gain := by
  unfold startGain
  split
  · exact ⟨_, List.getElem?_eq_getElem (show _ < 128 by omega)⟩
  · exact ⟨_, List.getElem?_eq_getElem (show _ < 128 by omega)⟩

/-- An index that a sample may still clip at, or a gain that no sample clips at. -/
def InTables (gainIdx gain : Int) : Prop :=
  127 ≤ gainIdx ∧ gainIdx ≤ 255 ∨ 0 ≤ gain ∧ gain ≤ 1024

/-- Inside the loop the index stays in the tables. -/
theorem micLoop_isSome
    {gainIdx gain : Int}
    {samples : List Int}
    (sampled : ∀ sample ∈ samples, -32768 ≤ sample ∧ sample ≤ 32767)
    (inTables : InTables gainIdx gain) :
    ∃ steps last, micLoop gainIdx gain samples = some (steps, last) := by
  induction samples generalizing gainIdx gain with
  | nil =>
      exact ⟨_, _, rfl⟩
  | cons sample rest inductionHypothesis =>
      rw [List.forall_mem_cons] at sampled
      rw [micLoop]
      split
      next clipped =>
          rcases inTables with ⟨atLeast, atMost⟩ | ⟨nonneg, suppressed⟩
          · have stepped :
                ∃ gainAfter,
                  loopGain (gainIdx - 1) = some gainAfter ∧
                    InTables (gainIdx - 1) gainAfter := by
              by_cases amplifies : 127 < gainIdx
              · rw [loopGain_pred amplifies]
                obtain ⟨gainAfter, found⟩ :=
                  startGain_isSome (by omega : 0 ≤ gainIdx) atMost
                exact ⟨gainAfter, found, Or.inl ⟨by omega, by omega⟩⟩
              · obtain rfl : gainIdx = 127 := by omega
                exact ⟨1006, rfl, Or.inr ⟨by decide, by decide⟩⟩
            obtain ⟨gainAfter, found, inTables⟩ := stepped
            obtain ⟨steps, last, ran⟩ :=
              inductionHypothesis sampled.2 inTables
            rw [found, Option.bind_some, ran]
            exact ⟨_, _, rfl⟩
          · exact absurd clipped
              (not_clips nonneg suppressed sampled.1.1 sampled.1.2)
      next =>
          obtain ⟨steps, last, ran⟩ := inductionHypothesis sampled.2 inTables
          rw [ran]
          exact ⟨_, _, rfl⟩

/-- The calls on an instance in the adaptive digital mode. -/
inductive VirtualCall where
  | agc (call : Call)
  | virtualMic (inNear : List (List Int)) (samples : Nat) (micLevelIn : Int)
  deriving Repr, DecidableEq

/-- The state after a call; `none` where the call is undefined. -/
def LegacyAgc.performVirtual (stt : LegacyAgc) :
    VirtualCall → Option LegacyAgc
  | .agc call => stt.perform call
  | .virtualMic inNear samples micLevelIn =>
      (stt.virtualMic inNear samples micLevelIn).map Prod.fst

/-- The levels of the adaptive digital mode, which `WebRtcAgc_Init` fixes. -/
def DigitalLevels (stt : LegacyAgc) : Prop :=
  ∃ range : LevelRange,
    range.minLevel = 0 ∧
      range.maxAnalog = 255 ∧
        range.minOutput = 12 ∧ LevelInvariant range stt

namespace DigitalLevels

variable {stt next : LegacyAgc}

/-- A frame with a level out of range is refused without a change. -/
theorem process
    (samples : Nat)
    (inMicLevel echo : Int)
    (held : DigitalLevels stt) :
    DigitalLevels (stt.process samples inMicLevel echo).1 := by
  obtain ⟨range, lowest, highest, floor, levels⟩ := held
  refine ⟨range, lowest, highest, floor, ?_⟩
  by_cases accepted : stt.Accepts inMicLevel
  · have unscaled : stt.scale = 0 := levels.sound.range.unscaled
    unfold LegacyAgc.Accepts at accepted
    rw [unscaled, Int.pow_zero, Int.mul_one] at accepted
    have atLeast : stt.minLevel ≤ inMicLevel := by omega
    have atMost : inMicLevel ≤ stt.maxAnalog := by omega
    have range_eq := levels.range_eq
    subst range_eq
    exact levels.process samples echo atLeast atMost
  · have refused :
        stt.processAnalog inMicLevel stt.vadMic.logRatio echo =
          (stt, ⟨-1, none, false⟩) :=
      if_pos (not_not.mp accepted)
    unfold LegacyAgc.process
    split
    · exact levels
    · split
      · exact levels
      · split
        · rw [refused]
          exact levels
        · exact levels.updateQueue

/-- The index that a level asks for is in the tables. -/
theorem desiredIdx
    (micLevelIn : Int)
    (held : DigitalLevels stt) :
    DigitalLevels (stt.desiredIdx micLevelIn).1 ∧
      0 ≤ (stt.desiredIdx micLevelIn).2 ∧
        (stt.desiredIdx micLevelIn).2 ≤ 255 := by
  obtain ⟨range, lowest, highest, floor, sound, rfl, atLeast, atMost⟩ := held
  have maxAnalog : stt.maxAnalog = 255 := highest
  have minOutput : stt.minOutput = 12 := floor
  have largest : stt.maxAnalog ≤ stt.maxLevel := sound.maxAnalog_le
  change stt.minOutput ≤ stt.micVol at atLeast
  unfold LegacyAgc.desiredIdx
  dsimp only
  split
  · refine ⟨⟨_, lowest, highest, floor, sound, rfl, ?_, ?_⟩,
      show (0 : Int) ≤ 127 by decide, show (127 : Int) ≤ 255 by decide⟩
    · show stt.minOutput ≤ 127
      omega
    · show 127 ≤ stt.maxLevel
      omega
  · refine ⟨⟨_, lowest, highest, floor, sound, rfl, atLeast, atMost⟩, ?_, ?_⟩
    · dsimp only
      omega
    · dsimp only
      omega

/-- A frame from the microphone. -/
theorem addMic
    (inMic : List (List Int))
    (samples : Nat)
    (held : DigitalLevels stt) :
    ∃ next bands code,
      stt.addMic inMic samples = some (next, bands, code) ∧
        DigitalLevels next := by
  obtain ⟨range, lowest, highest, floor, levels⟩ := held
  obtain ⟨next, bands, code, added, nextLevels⟩ :=
    levels.addMic inMic samples
  exact ⟨next, bands, code, added, range, lowest, highest, floor, nextLevels⟩

/-- A change that no level depends on. -/
theorem congr
    (held : DigitalLevels stt)
    (bounds : next.bounds = stt.bounds)
    (volume : next.micVol = stt.micVol) :
    DigitalLevels next := by
  obtain ⟨range, lowest, highest, floor, levels⟩ := held
  exact ⟨range, lowest, highest, floor, levels.congr bounds volume⟩

/-- The virtual microphone reads its tables at valid indices for every frame. -/
theorem virtualMic_isSome
    {inNear : List (List Int)}
    (samples : Nat)
    (micLevelIn : Int)
    (sampled :
      ∀ sample ∈ inNear.headD [], -32768 ≤ sample ∧ sample ≤ 32767)
    (held : DigitalLevels stt) :
    (stt.virtualMic inNear samples micLevelIn).isSome := by
  have lowSampled :
      ∀ sample ∈ (inNear.headD []).take samples,
        -32768 ≤ sample ∧ sample ≤ 32767 :=
    fun sample member => sampled sample (List.mem_of_mem_take member)
  unfold LegacyAgc.virtualMic
  dsimp only
  generalize (inNear.headD []).take samples = low at lowSampled ⊢
  generalize lowLevel stt.fs low = lowLevelSignal
  have signalled : DigitalLevels { stt with lowLevelSignal } :=
    held.congr rfl rfl
  obtain ⟨desired, nonneg, atMost⟩ := signalled.desiredIdx micLevelIn
  generalize
    ({ stt with lowLevelSignal } : LegacyAgc).desiredIdx micLevelIn =
      start at desired nonneg atMost ⊢
  obtain ⟨start, gainIdx⟩ := start
  dsimp only at desired nonneg atMost ⊢
  obtain ⟨gain, found⟩ := startGain_isSome nonneg atMost
  have inTables : InTables gainIdx gain := by
    by_cases amplifies : 127 ≤ gainIdx
    · exact Or.inl ⟨amplifies, atMost⟩
    · exact Or.inr (startGain_le (by omega) found)
  obtain ⟨steps, last, ran⟩ :=
    micLoop_isSome lowSampled inTables
  have passed : micPasses gainIdx low = some (steps, last) := by
    rw [micPasses, found, Option.bind_some, ran]
  rw [passed, Option.bind_some]
  have moved : DigitalLevels { start with micGainIdx := last } :=
    desired.congr rfl rfl
  obtain ⟨next, bands, code, added, -⟩ :=
    moved.addMic (amplifiedBands steps inNear) samples
  dsimp only
  rw [added]
  rfl

/-- The virtual microphone keeps the levels. -/
theorem virtualMic
    {inNear bands : List (List Int)}
    {samples : Nat}
    {micLevelIn micLevelOut code : Int}
    (held : DigitalLevels stt)
    (ran :
      stt.virtualMic inNear samples micLevelIn =
        some (next, bands, micLevelOut, code)) :
    DigitalLevels next := by
  unfold LegacyAgc.virtualMic at ran
  dsimp only at ran
  obtain ⟨⟨steps, last⟩, -, later⟩ := Option.bind_eq_some_iff.mp ran
  obtain ⟨⟨reached, outBands, err⟩, added, same⟩ :=
    Option.map_eq_some_iff.mp later
  obtain ⟨rfl, -⟩ := Prod.mk.inj same
  have signalled :
      DigitalLevels
        { stt with
          lowLevelSignal :=
            lowLevel stt.fs ((inNear.headD []).take samples) } :=
    held.congr rfl rfl
  have desired := (signalled.desiredIdx micLevelIn).1
  generalize
    ({ stt with
        lowLevelSignal :=
          lowLevel stt.fs ((inNear.headD []).take samples) } :
      LegacyAgc).desiredIdx micLevelIn = start at desired added
  have moved : DigitalLevels { start.1 with micGainIdx := last } :=
    desired.congr rfl rfl
  obtain ⟨also, alsoBands, alsoCode, alsoAdded, alsoHeld⟩ :=
    moved.addMic (amplifiedBands steps inNear) samples
  rw [added] at alsoAdded
  obtain ⟨rfl, -⟩ := Prod.mk.inj (Option.some.inj alsoAdded)
  exact alsoHeld

/-- So does every call. -/
theorem performVirtual
    {call : VirtualCall}
    (held : DigitalLevels stt)
    (performed : stepOf LegacyAgc.performVirtual stt call next) :
    DigitalLevels next := by
  cases call with
  | agc call =>
      cases call with
      | addMic inMic samples =>
          obtain ⟨⟨reached, bands, code⟩, added, rfl⟩ :=
            Option.map_eq_some_iff.mp performed
          obtain ⟨also, alsoBands, alsoCode, alsoAdded, alsoHeld⟩ :=
            held.addMic inMic samples
          rw [added] at alsoAdded
          obtain ⟨rfl, -⟩ := Prod.mk.inj (Option.some.inj alsoAdded)
          exact alsoHeld
      | process samples inMicLevel echo =>
          obtain rfl := Option.some.inj performed
          exact held.process samples inMicLevel echo
      | setConfig agcConfig =>
          obtain rfl := Option.some.inj performed
          obtain ⟨bounds, volume⟩ := stt.setConfig_levels agcConfig
          exact held.congr bounds volume
  | virtualMic inNear samples micLevelIn =>
      obtain ⟨⟨reached, bands, micLevelOut, code⟩, ran, rfl⟩ :=
        Option.map_eq_some_iff.mp performed
      exact held.virtualMic ran

end DigitalLevels

/-- The levels after an initialisation in the adaptive digital mode. -/
theorem digitalLevels_init
    {memory stt : LegacyAgc}
    {minLevel maxLevel fs : Int}
    (initialised :
      memory.init minLevel maxLevel modeAdaptiveDigital fs = (stt, 0)) :
    DigitalLevels stt := by
  unfold LegacyAgc.init at initialised
  rw [if_neg (by decide), if_pos rfl] at initialised
  dsimp only at initialised
  generalize startShape :
    ({ memory with
        envSum := 0, agcMode := modeAdaptiveDigital, fs, vadMic := .init,
        scale := 0 } : LegacyAgc) = start at initialised
  have unscaled : start.scale = 0 := startShape ▸ rfl
  have digital : start.agcMode = modeAdaptiveDigital := startShape ▸ rfl
  have legal : LegacyAgc.LegalRange 0 255 := by decide
  have sound := sound_initLevels unscaled legal (by decide)
  have shape := bounds_initLevels unscaled legal (by decide)
  have volume : (start.initLevels 0 255).initAnalog.micVol = 127 := by
    show (if start.agcMode = modeAdaptiveDigital then (127 : Int)
      else 255) = 127
    rw [digital]
    rfl
  obtain ⟨sameBounds, sameVolume⟩ :=
    (start.initLevels 0 255).initAnalog.setConfig_levels defaultConfig
  generalize (start.initLevels 0 255).initAnalog = levels
    at initialised sound shape volume sameBounds sameVolume
  generalize levels.setConfig defaultConfig = configured
    at initialised sameBounds sameVolume
  obtain ⟨configured, err⟩ := configured
  dsimp only at initialised sameBounds sameVolume
  split at initialised
  next =>
      have code : (-1 : Int) = 0 := congrArg Prod.snd initialised
      exact absurd code (by decide)
  next =>
      obtain ⟨rfl, -⟩ := Prod.mk.inj initialised
      have held : LevelInvariant levels.bounds.range levels := by
        refine ⟨sound, rfl, ?_, ?_⟩
        · rw [volume, shape]
          exact show (12 : Int) ≤ 127 by decide
        · rw [volume]
          show 127 ≤ levels.bounds.maxLevel
          rw [shape]
          exact show (127 : Int) ≤ 318 by decide
      have settled : DigitalLevels levels :=
        ⟨_, by rw [shape], by rw [shape], by rw [shape]; rfl, held⟩
      exact settled.congr sameBounds sameVolume

/--
In every run in the adaptive digital mode the virtual microphone reads its tables at
valid indices.
-/
theorem virtualMic_isSome_of_path
    {memory stt final : LegacyAgc}
    {minLevel maxLevel fs : Int}
    {moves : List (Move LegacyAgc VirtualCall)}
    {inNear : List (List Int)}
    (samples : Nat)
    (micLevelIn : Int)
    (sampled :
      ∀ sample ∈ inNear.headD [], -32768 ≤ sample ∧ sample ≤ 32767)
    (initialised :
      memory.init minLevel maxLevel modeAdaptiveDigital fs = (stt, 0))
    (path : Path (stepOf LegacyAgc.performVirtual) stt moves final) :
    (final.virtualMic inNear samples micLevelIn).isSome :=
  (path.invariant DigitalLevels
    (fun held performed => held.performVirtual performed)
    (digitalLevels_init initialised)).2.virtualMic_isSome samples micLevelIn
      sampled

end ApmSdk.Agc
