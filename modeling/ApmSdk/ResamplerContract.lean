import ApmSdk.ResamplerStereo

namespace ApmSdk.ResamplerMode

/-- Where two channels are reduced by two or four, the samples of one alone must not leave a
rest that those of both do not. -/
def Halves (mode : ResamplerMode) (lengthIn : Nat) : Prop :=
  (mode = mode2To1 → lengthIn % 4 = 0) ∧
    (mode = mode4To1 → lengthIn % 8 < 4)

/-- What is put out for two halves is what is put out for the whole. -/
theorem outLength_halves_iff
    {mode : ResamplerMode}
    {lengthIn : Nat}
    (even : lengthIn % 2 = 0)
    (whole : lengthIn / 2 % mode.blockLength = 0) :
    mode.outLength lengthIn = 2 * mode.outLength (lengthIn / 2) ↔
      mode.Halves lengthIn := by
  unfold Halves outLength
  cases mode
  all_goals
    dsimp only [ratio, blockLength] at *
    simp only [reduceCtorEq, false_implies, true_implies, and_self,
      true_and, and_true, iff_true]
    omega

end ApmSdk.ResamplerMode

namespace ApmSdk.Resampler

/-!
# What a push promises

A push of a resampler that has been reset with success returns -1 and leaves everything as it
was, or returns 0 and has written what the ratio says.  The condition under which it does is
about the mode, the number of channels, the length and the capacity alone.
-/

variable {converters : Converters}

/-- A push returns -1, with all filters and the output untouched, or 0, with as many samples
written as the frequencies say and as fit. -/
def PushKept
    (converters : Converters)
    (resampler : Resampler)
    (inFreq outFreq : Int)
    (samplesIn : List Int)
    (maxLen : Nat) : Prop :=
  Rejects (resampler.push converters samplesIn) resampler maxLen ∨
    ∃ count : Nat,
      (count : Int) = (samplesIn.length * outFreq).tdiv inFreq ∧
        Delivers (resampler.push converters samplesIn) maxLen count
          fun _ => True

/-- One channel fits its mode; of two, each half does, and the halves are converted without a
rest. -/
def PushClean
    (mode : ResamplerMode)
    (numChannels lengthIn maxLen : Nat) : Prop :=
  if numChannels = 2 then
    lengthIn % 2 = 0 ∧
      mode.Fits (lengthIn / 2) (maxLen / 2) ∧
        (mode.Accepts (lengthIn / 2) (maxLen / 2) → mode.Halves lengthIn)
  else mode.Fits lengthIn maxLen

/-- A resampler that has been reset with success, and pushed through any number of times. -/
inductive Reached
    (converters : Converters)
    (inFreq outFreq : Int)
    (numChannels : Nat) : Resampler → Prop where
  | reset
      {earlier resampler : Resampler}
      (succeeded :
        earlier.reset inFreq outFreq numChannels = some (0, resampler)) :
      Reached converters inFreq outFreq numChannels resampler
  | push
      {resampler : Resampler}
      {samplesIn samplesOut : List Int}
      {outLen : Nat}
      {pushed : Pushed Resampler}
      (reached : Reached converters inFreq outFreq numChannels resampler)
      (returned :
        resampler.push converters samplesIn samplesOut outLen =
          some pushed) :
      Reached converters inFreq outFreq numChannels pushed.state

variable {resampler : Resampler}
variable {mode : ResamplerMode}
variable {inFreq outFreq : Int}
variable {numChannels : Nat}
variable {samplesIn samplesOut : List Int}
variable {maxLen outLen : Nat}

/-- A common factor does not change a quotient. -/
theorem mul_tdiv_mul
    {factor : Int}
    (nonzero : factor ≠ 0)
    (whole part : Int) :
    (whole * factor).tdiv (part * factor) = whole.tdiv part := by
  obtain negative | positive := lt_or_gt_of_ne nonzero
  · calc
      (whole * factor).tdiv (part * factor) =
          (-(whole * factor)).tdiv (-(part * factor)) :=
        (Int.neg_tdiv_neg ..).symm
      _ = (whole * -factor).tdiv (part * -factor) := by
        rw [Int.mul_neg, Int.mul_neg]
      _ = whole.tdiv part :=
        Int.mul_tdiv_mul_of_pos_left _ _ (by omega)
  · exact Int.mul_tdiv_mul_of_pos_left _ _ positive

/-- The frequencies say as many samples as the mode puts out. -/
theorem outLength_eq_tdiv
    (nonzero : outFreq ≠ 0)
    (hasRatio : HasRatio inFreq outFreq mode)
    (lengthIn : Nat) :
    (mode.outLength lengthIn : Int) = (lengthIn * outFreq).tdiv inFreq := by
  obtain ⟨factor, rfl, rfl⟩ := exists_scale hasRatio
  rw [← Int.mul_assoc, mul_tdiv_mul (right_ne_zero_of_mul nonzero),
    ResamplerMode.outLength, Int.ofNat_tdiv, Nat.cast_mul]

/-! ## Pushes that do not fit -/

theorem not_fits_cases
    {lengthIn : Nat}
    (spoils : ¬ mode.Fits lengthIn maxLen) :
    mode = .mode1To1 ∧ maxLen < lengthIn ∨
      mode = .mode3To2 ∧ lengthIn % 240 ≠ 0 ∧
        lengthIn * 2 / 3 ≤ maxLen := by
  unfold ResamplerMode.Fits at spoils
  by_contra neither
  apply spoils
  constructor
  · intro isMode
    by_contra tooMany
    exact neither (.inl ⟨isMode, not_le.mp tooMany⟩)
  · intro isMode
    by_contra late
    rw [not_or] at late
    exact neither (.inr ⟨isMode, late.1, not_lt.mp late.2⟩)

/-- A push that does not fit overruns the output, or returns -1 behind a filter that has been
fed. -/
theorem Channel.IsSet.spoils
    {channel : Channel}
    (isSet : channel.IsSet mode numChannels)
    (spoils : ¬ mode.Fits samplesIn.length samplesOut.length)
    (outLen : Nat) :
    channel.push converters samplesIn samplesOut outLen = none ∨
      ∃ next,
        channel.push converters samplesIn samplesOut outLen =
            some ⟨-1, samplesOut, outLen, next⟩ ∧
          next.IsSet mode numChannels ∧ next ≠ channel := by
  obtain ⟨rfl, tooMany⟩ | ⟨rfl, broken, enough⟩ := not_fits_cases spoils
  · exact .inl (isSet.overruns tooMany outLen)
  · exact .inr (isSet.advances broken enough outLen)

/-- A channel stays set, whatever its push returns. -/
theorem Channel.IsSet.push
    {channel : Channel}
    {pushed : Pushed Channel}
    (isSet : channel.IsSet mode numChannels)
    (returned :
      channel.push converters samplesIn samplesOut outLen = some pushed) :
    pushed.state.IsSet mode numChannels := by
  by_cases fits : mode.Fits samplesIn.length samplesOut.length
  · by_cases accepts : mode.Accepts samplesIn.length samplesOut.length
    · obtain ⟨-, produced, next, -, kept, isPush⟩ :=
        @Channel.IsSet.delivers_push converters _ _ _ _ _ isSet accepts
      rw [isPush samplesOut outLen rfl] at returned
      obtain rfl := Option.some.inj returned
      exact kept
    · rw [isSet.rejects fits accepts samplesOut outLen rfl] at returned
      obtain rfl := Option.some.inj returned
      exact isSet
  · obtain isNone | ⟨next, isPush, kept, -⟩ :=
      isSet.spoils fits outLen
    · rw [isNone] at returned
      contradiction
    · rw [isPush] at returned
      obtain rfl := Option.some.inj returned
      exact kept

/-! ## Reached resamplers -/

/-- A resampler stays set, whatever its push returns. -/
theorem IsSet.push
    {pushed : Pushed Resampler}
    (isSet : resampler.IsSet mode numChannels)
    (returned :
      resampler.push converters samplesIn samplesOut outLen =
        some pushed) :
    pushed.state.IsSet mode numChannels := by
  unfold Resampler.push at returned
  split at returned
  next two =>
      obtain rfl : numChannels = 2 := isSet.whole.numChannels.symm.trans two
      obtain ⟨slaveLeft, hasLeft, setLeft⟩ := isSet.left rfl
      obtain ⟨slaveRight, hasRight, setRight⟩ := isSet.right rfl
      obtain ⟨⟨left, right⟩, -, returned⟩ :=
        Option.bind_eq_some_iff.mp returned
      dsimp only at returned
      rw [hasLeft, hasRight] at returned
      dsimp only [Option.bind_eq_bind, Option.bind_some] at returned
      obtain ⟨pushedLeft, isLeft, returned⟩ :=
        Option.bind_eq_some_iff.mp returned
      obtain ⟨pushedRight, isRight, returned⟩ :=
        Option.bind_eq_some_iff.mp returned
      have kept :
          IsSet
            { resampler with
              slaveLeft := some pushedLeft.state
              slaveRight := some pushedRight.state }
            mode 2 :=
        { whole := isSet.whole
          number := isSet.number
          left := fun _ => ⟨_, rfl, setLeft.push isLeft⟩
          right := fun _ => ⟨_, rfl, setRight.push isRight⟩ }
      split at returned
      next =>
          obtain rfl := Option.some.inj returned
          exact kept
      next =>
          obtain ⟨joined, -, returned⟩ :=
            Option.bind_eq_some_iff.mp returned
          obtain rfl := Option.some.inj returned
          exact kept
  next notTwo =>
      obtain ⟨pushed, isPush, returned⟩ :=
        Option.bind_eq_some_iff.mp returned
      obtain rfl := Option.some.inj returned
      exact
        { isSet with whole := isSet.whole.push isPush }

/-- A reached resampler is set to the mode of the frequencies. -/
theorem Reached.isSet
    (reached : Reached converters inFreq outFreq numChannels resampler) :
    ∃ mode,
      outFreq ≠ 0 ∧ HasRatio inFreq outFreq mode ∧
        resampler.IsSet mode numChannels := by
  induction reached with
  | reset succeeded =>
      obtain ⟨nonzero, mode, isMode, isSet⟩ := modeOf_of_reset succeeded
      exact ⟨mode, nonzero, hasRatio_of_modeOf nonzero isMode, isSet⟩
  | push reached returned inductionHypothesis =>
      obtain ⟨mode, nonzero, hasRatio, isSet⟩ := inductionHypothesis
      exact ⟨mode, nonzero, hasRatio, isSet.push returned⟩

/-! ## One channel -/

/-- The push of a resampler of one channel is that of the channel. -/
theorem IsSet.push_mono
    (isSet : resampler.IsSet mode 1)
    (samplesIn samplesOut : List Int)
    (outLen : Nat) :
    resampler.push converters samplesIn samplesOut outLen =
      (resampler.toChannel.push converters samplesIn samplesOut outLen).map
        fun pushed =>
          ⟨pushed.result, pushed.samplesOut, pushed.outLen,
            { resampler with toChannel := pushed.state }⟩ := by
  unfold Resampler.push
  rw [if_neg (by rw [isSet.whole.numChannels]; decide)]
  cases resampler.toChannel.push converters samplesIn samplesOut outLen <;>
    rfl

/-- A push returns as it should only with the result and the number of samples it has. -/
theorem PushKept.spoiled
    (kept : PushKept converters resampler inFreq outFreq samplesIn maxLen)
    (isMax : samplesOut.length = maxLen)
    (spoiled :
      resampler.push converters samplesIn samplesOut outLen = none ∨
        ∃ next,
          resampler.push converters samplesIn samplesOut outLen =
              some ⟨-1, samplesOut, outLen, next⟩ ∧
            next ≠ resampler) :
    False := by
  obtain rejects | ⟨count, -, -, produced, last, -, -, delivers⟩ := kept
  · have isPush := rejects samplesOut outLen isMax
    obtain isNone | ⟨next, isSome, differs⟩ := spoiled
    · rw [isNone] at isPush
      contradiction
    · rw [isSome] at isPush
      exact differs (congrArg Pushed.state (Option.some.inj isPush))
  · have isPush := delivers samplesOut outLen isMax
    obtain isNone | ⟨next, isSome, differs⟩ := spoiled
    · rw [isNone] at isPush
      contradiction
    · rw [isSome] at isPush
      have isResult := congrArg Pushed.result (Option.some.inj isPush)
      contradiction

/-- Enough room for any number of samples. -/
theorem exists_samplesOut (maxLen : Nat) :
    ∃ samplesOut : List Int, samplesOut.length = maxLen :=
  ⟨List.replicate maxLen 0, List.length_replicate⟩

/-- With one channel, a push is as it should be where it fits its mode. -/
theorem IsSet.pushKept_mono_iff
    (isSet : resampler.IsSet mode 1)
    (nonzero : outFreq ≠ 0)
    (hasRatio : HasRatio inFreq outFreq mode) :
    PushKept converters resampler inFreq outFreq samplesIn maxLen ↔
      mode.Fits samplesIn.length maxLen := by
  constructor
  · intro kept
    by_contra spoils
    obtain ⟨samplesOut, rfl⟩ := exists_samplesOut maxLen
    have goesWrong := @PushKept.spoiled converters _ _ _ _ samplesOut _ 0 kept rfl
    rw [isSet.push_mono] at goesWrong
    apply goesWrong
    obtain isNone | ⟨next, isPush, -, differs⟩ :=
      isSet.whole.spoils spoils 0
    · exact .inl (by rw [isNone]; rfl)
    · refine .inr ⟨{ resampler with toChannel := next }, ?_, ?_⟩
      · rw [isPush]
        rfl
      · intro same
        exact differs (congrArg Resampler.toChannel same)
  · intro fits
    by_cases accepts : mode.Accepts samplesIn.length maxLen
    · obtain ⟨room, produced, next, isLength, -, isPush⟩ :=
        @Channel.IsSet.delivers_push converters _ _ _ _ _ isSet.whole
          accepts
      refine .inr
        ⟨_, outLength_eq_tdiv nonzero hasRatio _, room, produced,
          { resampler with toChannel := next }, isLength, trivial, ?_⟩
      intro samplesOut outLen isMax
      rw [isSet.push_mono, isPush samplesOut outLen isMax]
      rfl
    · refine .inl fun samplesOut outLen isMax => ?_
      rw [isSet.push_mono,
        isSet.whole.rejects fits accepts samplesOut outLen isMax]
      rfl

/-! ## Two channels -/

/-- With two channels, a push of a broken frame or of halves that do not fit goes wrong. -/
theorem IsSet.spoils_stereo
    (isSet : resampler.IsSet mode 2)
    (spoils :
      ¬ (samplesIn.length % 2 = 0 ∧
        mode.Fits (samplesIn.length / 2) (samplesOut.length / 2)))
    (outLen : Nat) :
    resampler.push converters samplesIn samplesOut outLen = none ∨
      ∃ next,
        resampler.push converters samplesIn samplesOut outLen =
            some ⟨-1, samplesOut, outLen, next⟩ ∧
          next ≠ resampler := by
  obtain ⟨slaveLeft, hasLeft, setLeft⟩ := isSet.left rfl
  obtain ⟨slaveRight, hasRight, setRight⟩ := isSet.right rfl
  unfold Resampler.push
  rw [if_pos isSet.whole.numChannels]
  by_cases even : samplesIn.length % 2 = 0
  · obtain ⟨⟨left, right⟩, isSplit, isLeft, isRight⟩ :=
      splitChannels_returns even
    have spoilsLeft :
        ¬ mode.Fits left.length (malloc (samplesOut.length / 2 * 2)).length := by
      rw [isLeft, length_malloc_half]
      exact fun fits => spoils ⟨even, fits⟩
    have spoilsRight :
        ¬ mode.Fits right.length
            (malloc (samplesOut.length / 2 * 2)).length := by
      rw [isRight, ← isLeft]
      exact spoilsLeft
    rw [isSplit]
    dsimp only [Option.bind_eq_bind, Option.bind_some]
    rw [hasLeft, hasRight]
    dsimp only [Option.bind_some]
    obtain isNone | ⟨nextLeft, isPush, -, differs⟩ :=
      setLeft.spoils spoilsLeft 0
    · exact .inl (by rw [isNone]; rfl)
    · rw [isPush]
      dsimp only [Option.bind_some]
      obtain isNone | ⟨nextRight, isPush, -, -⟩ :=
        setRight.spoils spoilsRight 0
      · exact .inl (by rw [isNone]; rfl)
      · rw [isPush]
        dsimp only [Option.bind_some]
        rw [if_pos (by simp)]
        refine .inr ⟨_, rfl, ?_⟩
        intro same
        have sameLeft := congrArg Resampler.slaveLeft same
        rw [hasLeft] at sameLeft
        exact differs (Option.some.inj sameLeft)
  · rw [splitChannels_of_odd (by omega)]
    exact .inl rfl

/-- With two channels, a push is as it should be where the halves fit their mode and are
converted without a rest. -/
theorem IsSet.pushKept_stereo_iff
    (isSet : resampler.IsSet mode 2)
    (nonzero : outFreq ≠ 0)
    (hasRatio : HasRatio inFreq outFreq mode) :
    PushKept converters resampler inFreq outFreq samplesIn maxLen ↔
      samplesIn.length % 2 = 0 ∧
        mode.Fits (samplesIn.length / 2) (maxLen / 2) ∧
          (mode.Accepts (samplesIn.length / 2) (maxLen / 2) →
            mode.Halves samplesIn.length) := by
  obtain ⟨samplesOut, isMax⟩ := exists_samplesOut maxLen
  by_cases clean :
      samplesIn.length % 2 = 0 ∧
        mode.Fits (samplesIn.length / 2) (maxLen / 2)
  · obtain ⟨even, fits⟩ := clean
    by_cases accepts :
        mode.Accepts (samplesIn.length / 2) (maxLen / 2)
    · obtain ⟨room, produced, next, isLength, -, isPush⟩ :=
        @IsSet.delivers_stereo converters _ _ _ _ isSet even accepts
      have halves := ResamplerMode.outLength_halves_iff even accepts.1
      have isTdiv := outLength_eq_tdiv nonzero hasRatio samplesIn.length
      constructor
      · intro kept
        refine ⟨even, fits, fun _ => halves.mp ?_⟩
        obtain rejects | ⟨count, isCount, -, other, last, -, -, delivers⟩ :=
          kept
        · have both :=
            (rejects samplesOut 0 isMax).symm.trans
              (isPush samplesOut 0 isMax)
          have isResult := congrArg Pushed.result (Option.some.inj both)
          contradiction
        · have both :=
            (delivers samplesOut 0 isMax).symm.trans
              (isPush samplesOut 0 isMax)
          have isOutLen :
              count = 2 * mode.outLength (samplesIn.length / 2) :=
            congrArg Pushed.outLen (Option.some.inj both)
          omega
      · rintro ⟨-, -, whole⟩
        have isWhole := halves.mpr (whole accepts)
        refine .inr
          ⟨_, ?_, room, produced, next, isLength, trivial, isPush⟩
        omega
    · exact
        iff_of_true (.inl (isSet.rejects_stereo even fits accepts))
          ⟨even, fits, fun accepted => absurd accepted accepts⟩
  · refine iff_of_false ?_ fun both => clean ⟨both.1, both.2.1⟩
    intro kept
    subst isMax
    exact kept.spoiled rfl (isSet.spoils_stereo clean 0)

/-- A push of a resampler that has been reset with success returns -1 and leaves all as it was,
or returns 0 and has written what the ratio says, exactly where it fits. -/
theorem push_kept_iff
    (reached : Reached converters inFreq outFreq numChannels resampler)
    (samplesIn : List Int)
    (maxLen : Nat) :
    PushKept converters resampler inFreq outFreq samplesIn maxLen ↔
      PushClean resampler.myMode resampler.numChannels samplesIn.length
        maxLen := by
  obtain ⟨mode, nonzero, hasRatio, isSet⟩ := reached.isSet
  rw [isSet.whole.isMode, isSet.whole.numChannels, PushClean]
  obtain rfl | rfl := isSet.number
  · rw [if_neg (by decide)]
    exact isSet.pushKept_mono_iff nonzero hasRatio
  · rw [if_pos rfl]
    exact isSet.pushKept_stereo_iff nonzero hasRatio

/-- Converters of silence. -/
def silence : Converters where
  run := fun which words _ => (List.replicate which.outLength 0, words)
  length_run := fun _ _ _ _ => List.length_replicate

/-- Two samples fit from 8 kHz to 16 kHz. -/
theorem push_kept_iff_doubled :
    ∃ resampler,
      initial.reset 8000 16000 1 = some (0, resampler) ∧
        PushKept silence resampler 8000 16000 [1, 2] 4 :=
  ⟨_, rfl,
    (push_kept_iff (.reset (rfl : initial.reset 8000 16000 1 = _))
      [1, 2] 4).mpr ⟨fun isMode => by contradiction,
        fun isMode => by contradiction⟩⟩

/-- Without a change of the frequency, a sample is copied to an output of no samples. -/
theorem not_push_kept_overrun :
    ¬ ∀ (converters : Converters) (resampler : Resampler)
        (inFreq outFreq : Int) (numChannels : Nat),
      Reached converters inFreq outFreq numChannels resampler →
        ∀ samplesIn maxLen,
          PushKept converters resampler inFreq outFreq samplesIn
            maxLen := by
  intro all
  have kept :=
    all silence _ 8000 8000 1
      (.reset (rfl : initial.reset 8000 8000 1 = some (0, _))) [1] 0
  exact
    @PushKept.spoiled silence _ 8000 8000 [1] [] 0 0 kept rfl (.inl rfl)

end ApmSdk.Resampler
