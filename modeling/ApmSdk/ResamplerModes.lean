import ApmSdk.ResamplerPasses

namespace ApmSdk.Resampler

/-!
# The modes of a resampler

A push is rejected, with nothing changed, or delivers as many samples as the ratio of its mode
says and leaves the rest of the output.  Two modes can do neither: one never looks at how much
fits into the output, and one looks at its length when a filter has already run.
-/

open ArrayCopies

variable {converters : Converters}

/-- A push returns -1, with the output and the resampler as they were. -/
def Rejects
    {State : Type}
    (run : List Int → Nat → Option (Pushed State))
    (state : State)
    (maxLen : Nat) : Prop :=
  ∀ samplesOut outLen,
    samplesOut.length = maxLen →
      run samplesOut outLen = some ⟨-1, samplesOut, outLen, state⟩

/-- A push returns 0 and has written a number of samples, which fit; what was in the output
before neither decides them nor is changed behind them. -/
def Delivers
    {State : Type}
    (run : List Int → Nat → Option (Pushed State))
    (maxLen count : Nat)
    (kept : State → Prop) : Prop :=
  count ≤ maxLen ∧
    ∃ produced next,
      produced.length = count ∧
        kept next ∧
          ∀ samplesOut outLen,
            samplesOut.length = maxLen →
              run samplesOut outLen =
                some ⟨0, produced ++ samplesOut.drop count, count, next⟩

section Contract

variable {State : Type}
variable {run other : List Int → Nat → Option (Pushed State)}
variable {state : State}
variable {maxLen count : Nat}
variable {kept : State → Prop}

theorem Delivers.congr
    (delivers : Delivers other maxLen count kept)
    (same :
      ∀ samplesOut outLen,
        samplesOut.length = maxLen →
          run samplesOut outLen = other samplesOut outLen) :
    Delivers run maxLen count kept := by
  obtain ⟨fits, produced, next, isLength, isKept, isOther⟩ := delivers
  refine ⟨fits, produced, next, isLength, isKept, ?_⟩
  intro samplesOut outLen isMax
  rw [same samplesOut outLen isMax]
  exact isOther samplesOut outLen isMax

end Contract

end ApmSdk.Resampler

namespace ApmSdk.ResamplerMode

/-- How long the blocks are that a mode can handle. -/
def blockLength : ResamplerMode → Nat
  | mode1To1 => 1
  | mode1To2 => 1
  | mode1To3 => 160
  | mode1To4 => 1
  | mode1To6 => 80
  | mode1To12 => 40
  | mode2To3 => 160
  | mode2To11 => 80
  | mode4To11 => 80
  | mode8To11 => 160
  | mode11To16 => 110
  | mode11To32 => 110
  | mode2To1 => 1
  | mode3To1 => 480
  | mode4To1 => 1
  | mode6To1 => 480
  | mode12To1 => 480
  | mode3To2 => 240
  | mode11To2 => 220
  | mode11To4 => 220
  | mode11To8 => 220

/-- How many samples are put out for a number of them. -/
def outLength (mode : ResamplerMode) (lengthIn : Nat) : Nat :=
  lengthIn * mode.ratio.2 / mode.ratio.1

/-- The input is whole blocks, and what is put out for it fits. -/
def Accepts (mode : ResamplerMode) (lengthIn maxLen : Nat) : Prop :=
  lengthIn % mode.blockLength = 0 ∧ mode.outLength lengthIn ≤ maxLen

/-- A push in one of the two modes that check too little or too late meets none of what they
do not check first. -/
def Fits (mode : ResamplerMode) (lengthIn maxLen : Nat) : Prop :=
  (mode = mode1To1 → lengthIn ≤ maxLen) ∧
    (mode = mode3To2 →
      lengthIn % 240 = 0 ∨ maxLen < lengthIn * 2 / 3)

end ApmSdk.ResamplerMode

namespace ApmSdk.Resampler

open ArrayCopies

variable {converters : Converters}
variable {channel : Channel}
variable {mode : ResamplerMode}
variable {numChannels : Nat}
variable {samplesIn : List Int}
variable {maxLen : Nat}

namespace Channel.IsSet

variable (isSet : channel.IsSet mode numChannels)

include isSet

theorem kind1 : kindOf channel.states.state1 = kindOf mode.states.state1 := by
  have kinds := isSet.kinds
  unfold States.kinds at kinds
  simp only [List.map_cons, List.cons.injEq] at kinds
  exact kinds.1

theorem kind2 : kindOf channel.states.state2 = kindOf mode.states.state2 := by
  have kinds := isSet.kinds
  unfold States.kinds at kinds
  simp only [List.map_cons, List.cons.injEq] at kinds
  exact kinds.2.1

theorem kind3 : kindOf channel.states.state3 = kindOf mode.states.state3 := by
  have kinds := isSet.kinds
  unfold States.kinds at kinds
  simp only [List.map_cons, List.cons.injEq] at kinds
  exact kinds.2.2.1

/-- A channel stays set when its filters are replaced by ones of the same kinds. -/
theorem with_states
    {states : States}
    (kind1 : kindOf states.state1 = kindOf channel.states.state1)
    (kind2 : kindOf states.state2 = kindOf channel.states.state2)
    (kind3 : kindOf states.state3 = kindOf channel.states.state3) :
    Channel.IsSet { channel with states } mode numChannels where
  isMode := isSet.isMode
  numChannels := isSet.numChannels
  kinds := by
    rw [← isSet.kinds]
    unfold States.kinds kindOf at *
    simp only [List.map_cons, kind1, kind2, kind3]

/-! ## Chains of passes -/

/-- A mode with one filter delivers what the filter puts out. -/
theorem delivers_through
    {pass : Pass}
    {count outLen : Nat}
    (puts : Puts pass samplesIn channel.states.state1 count)
    (fits : count ≤ maxLen)
    (isOutLen : outLen = count) :
    Delivers
      (fun samplesOut _ =>
        pushThrough channel samplesIn samplesOut pass outLen)
      maxLen count (Channel.IsSet · mode numChannels) := by
  obtain ⟨produced, next, isLength, sameKind, passed⟩ := puts
  refine
    ⟨fits, produced,
      { channel with states := { channel.states with state1 := next } },
      isLength, isSet.with_states sameKind rfl rfl, ?_⟩
  intro samplesOut _ isMax
  dsimp only [pushThrough, Option.bind_eq_bind]
  rw [passed samplesIn samplesOut (List.prefix_refl _) (by omega), isOutLen]
  rfl

/-- A mode with two filters delivers what the second one puts out for what the first one
does, if that fits into the buffer between them. -/
theorem delivers_via
    {first second : Pass}
    {between tmpBytes count outLen : Nat}
    (putsFirst : Puts first samplesIn channel.states.state1 between)
    (enough : between ≤ tmpBytes / 2)
    (putsSecond :
      ∀ tmp : List Int, tmp.length = between →
        Puts second tmp channel.states.state2 count)
    (fits : count ≤ maxLen)
    (isOutLen : outLen = count) :
    Delivers
      (fun samplesOut _ =>
        pushVia channel samplesIn samplesOut first tmpBytes second outLen)
      maxLen count (Channel.IsSet · mode numChannels) := by
  obtain ⟨tmp, next1, isBetween, sameKind1, passed1⟩ := putsFirst
  obtain ⟨produced, next2, isLength, sameKind2, passed2⟩ :=
    putsSecond tmp isBetween
  refine
    ⟨fits, produced,
      { channel with
        states := { channel.states with state1 := next1, state2 := next2 } },
      isLength, isSet.with_states sameKind1 sameKind2 rfl, ?_⟩
  intro samplesOut _ isMax
  dsimp only [pushVia, Option.bind_eq_bind]
  rw [passed1 samplesIn _ (List.prefix_refl _)
    (by rw [malloc, List.length_replicate]; exact enough)]
  dsimp only [Option.bind_some]
  rw [passed2 _ samplesOut (List.prefix_append ..) (by omega), isOutLen]
  rfl

/-- A mode with three filters, the first of which puts out into the output of the third,
delivers what the third puts out. -/
theorem delivers_by_output
    {run : List Int → Nat → Option (Pushed Channel)}
    {first second third : Pass}
    {between1 between2 tmpLength count outLen : Nat}
    (isRun :
      ∀ samplesOut outLen',
        run samplesOut outLen' = (do
          let (samplesOut, state1) ←
            first samplesIn samplesOut channel.states.state1
          let (tmp, state2) ←
            second samplesOut (List.replicate tmpLength 0)
              channel.states.state2
          let (samplesOut, state3) ←
            third tmp samplesOut channel.states.state3
          return ⟨0, samplesOut, outLen,
            { channel with states := { state1, state2, state3 } }⟩))
    (putsFirst : Puts first samplesIn channel.states.state1 between1)
    (enough1 : between1 ≤ count)
    (putsSecond :
      ∀ tmp : List Int, tmp.length = between1 →
        Puts second tmp channel.states.state2 between2)
    (enough2 : between2 ≤ tmpLength)
    (putsThird :
      ∀ tmp : List Int, tmp.length = between2 →
        Puts third tmp channel.states.state3 count)
    (fits : count ≤ maxLen)
    (isOutLen : outLen = count) :
    Delivers run maxLen count (Channel.IsSet · mode numChannels) := by
  obtain ⟨scratch, next1, isBetween1, sameKind1, passed1⟩ := putsFirst
  obtain ⟨tmp, next2, isBetween2, sameKind2, passed2⟩ :=
    putsSecond scratch isBetween1
  obtain ⟨produced, next3, isLength, sameKind3, passed3⟩ :=
    putsThird tmp isBetween2
  refine
    ⟨fits, produced,
      { channel with states := ⟨next1, next2, next3⟩ }, isLength,
      isSet.with_states sameKind1 sameKind2 sameKind3, ?_⟩
  intro samplesOut _ isMax
  -- What the first filter has put out is all overwritten by the third.
  have overwritten :
      (scratch ++ samplesOut.drop between1).drop count =
        samplesOut.drop count := by
    rw [List.drop_append, List.drop_eq_nil_of_le (by omega),
      List.nil_append, List.drop_drop, isBetween1,
      Nat.add_sub_cancel' enough1]
  rw [isRun, passed1 samplesIn _ (List.prefix_refl _) (by omega)]
  dsimp only [Option.bind_eq_bind, Option.bind_some]
  rw [passed2 _ _ (List.prefix_append ..)
    (by rw [List.length_replicate]; exact enough2)]
  dsimp only [Option.bind_some]
  rw [passed3 _ _ (List.prefix_append ..)
      (by
        rw [List.length_append, List.length_drop]
        omega),
    overwritten, isOutLen]
  rfl

/-- The mode from 12 to 1 delivers what its third filter puts out. -/
theorem delivers12To1
    {blocks count : Nat}
    (isMode : mode = .mode12To1)
    (isBlocks : samplesIn.length = 480 * blocks)
    (isCount : count = 40 * blocks)
    (fits : count ≤ maxLen) :
    Delivers
      (fun samplesOut _ =>
        push12To1 converters channel samplesIn samplesOut)
      maxLen count (Channel.IsSet · mode numChannels) := by
  subst isMode
  obtain ⟨tmp, next1, isBetween1, sameKind1, passed1⟩ :
      Puts
        (convertBlocks converters .from48khzTo16khz (fun i => i / 3)
          samplesIn.length)
        samplesIn channel.states.state1 (160 * blocks) := by
    refine puts_convertBlocks isSet.kind1 rfl blocks ?_ ?_ ?_
    all_goals dsimp only [Converter.inLength, Converter.outLength]
    all_goals omega
  obtain ⟨tmp2, next2, isBetween2, sameKind2, passed2⟩ :
      Puts (downsampleBy2 converters (samplesIn.length / 3)) tmp
        channel.states.state2 (80 * blocks) :=
    puts_downsampleBy2 isSet.kind2 (by omega) (by omega)
  obtain ⟨produced, next3, isLength, sameKind3, passed3⟩ :
      Puts (downsampleBy2 converters (samplesIn.length / 3 / 2)) tmp2
        channel.states.state3 count :=
    puts_downsampleBy2 isSet.kind3 (by omega) (by omega)
  refine
    ⟨fits, produced,
      { channel with states := ⟨next1, next2, next3⟩ }, isLength,
      isSet.with_states sameKind1 sameKind2 sameKind3, ?_⟩
  intro samplesOut _ isMax
  dsimp only [push12To1, Option.bind_eq_bind]
  rw [passed1 samplesIn _ (List.prefix_refl _)
    (by rw [malloc, List.length_replicate]; omega)]
  dsimp only [Option.bind_some]
  rw [passed2 _ _ (List.prefix_append ..)
    (by rw [malloc, List.length_replicate]; omega)]
  dsimp only [Option.bind_some]
  rw [passed3 _ _ (List.prefix_append ..) (by omega)]
  have isOutLen : samplesIn.length / 3 / 2 / 2 = count := by
    omega
  rw [isOutLen]
  rfl

/-- The mode from 3 to 2 delivers what its second filter puts out. -/
theorem delivers3To2
    {blocks count : Nat}
    (isMode : mode = .mode3To2)
    (isBlocks : samplesIn.length = 240 * blocks)
    (isCount : count = 160 * blocks)
    (fits : count ≤ maxLen) :
    Delivers
      (fun samplesOut outLen =>
        push3To2 converters channel samplesIn samplesOut outLen)
      maxLen count (Channel.IsSet · mode numChannels) := by
  subst isMode
  obtain ⟨tmp, next1, isBetween, sameKind1, passed1⟩ :
      Puts (upsampleBy2 converters samplesIn.length) samplesIn
        channel.states.state1 (480 * blocks) :=
    puts_upsampleBy2 isSet.kind1 rfl (by omega)
  obtain ⟨produced, next2, isLength, sameKind2, passed2⟩ :
      Puts
        (convertBlocks converters .from48khzTo16khz (fun i => i / 3)
          (samplesIn.length * 2))
        tmp channel.states.state2 count := by
    refine puts_convertBlocks isSet.kind2 (by omega) blocks ?_ ?_ ?_
    all_goals dsimp only [Converter.inLength, Converter.outLength]
    all_goals omega
  refine
    ⟨fits, produced,
      { channel with
        states := { channel.states with state1 := next1, state2 := next2 } },
      isLength, isSet.with_states sameKind1 sameKind2 rfl, ?_⟩
  intro samplesOut outLen isMax
  dsimp only [push3To2, Option.bind_eq_bind]
  rw [if_neg (by omega), passed1 samplesIn _ (List.prefix_refl _)
    (by rw [malloc, List.length_replicate]; omega)]
  dsimp only [Option.bind_some]
  have isOutLen : samplesIn.length * 2 / 3 = count := by
    omega
  rw [if_neg (by omega), passed2 _ _ (List.prefix_append ..) (by omega),
    isOutLen]
  rfl

/-- A push that is accepted delivers. -/
theorem delivers
    (accepts : mode.Accepts samplesIn.length maxLen) :
    Delivers
      (fun samplesOut outLen =>
        channel.pushMode converters samplesIn samplesOut outLen mode)
      maxLen (mode.outLength samplesIn.length)
      (Channel.IsSet · mode numChannels) := by
  obtain ⟨whole, fits⟩ := accepts
  obtain ⟨blocks, isBlocks⟩ := Nat.dvd_of_mod_eq_zero whole
  cases mode with
  | mode1To1 =>
      dsimp only [ResamplerMode.outLength, ResamplerMode.ratio] at fits ⊢
      rw [Nat.mul_one, Nat.div_one] at fits ⊢
      refine ⟨fits, samplesIn, channel, rfl, isSet, ?_⟩
      intro samplesOut outLen isMax
      dsimp only [pushMode]
      rw [overwrite_start (by omega)]
      rfl
  | mode1To2 =>
      dsimp only [ResamplerMode.outLength, ResamplerMode.ratio,
        ResamplerMode.blockLength] at fits isBlocks ⊢
      refine Delivers.congr ?_ fun samplesOut outLen isMax =>
        if_neg (by omega)
      refine isSet.delivers_through ?_ fits (by omega)
      exact puts_upsampleBy2 isSet.kind1 rfl (by omega)
  | mode1To3 | mode4To11 | mode8To11 | mode3To1 | mode11To4 | mode11To8 =>
      -- One converter.
      dsimp only [ResamplerMode.outLength, ResamplerMode.ratio,
        ResamplerMode.blockLength] at fits isBlocks ⊢
      refine Delivers.congr ?_ fun samplesOut outLen isMax =>
        (if_neg (by omega)).trans (if_neg (by omega))
      refine isSet.delivers_through ?_ fits (by omega)
      refine puts_convertBlocks isSet.kind1 rfl blocks ?_ ?_ ?_
      all_goals
        dsimp only [Converter.inLength, Converter.outLength]
        omega
  | mode1To4 =>
      dsimp only [ResamplerMode.outLength, ResamplerMode.ratio,
        ResamplerMode.blockLength] at fits isBlocks ⊢
      refine Delivers.congr ?_ fun samplesOut outLen isMax =>
        if_neg (by omega)
      refine
        isSet.delivers_via (puts_upsampleBy2 isSet.kind1 rfl rfl) (by omega)
          (fun tmp isLength =>
            puts_upsampleBy2 isSet.kind2 (by omega) (by omega))
          fits (by omega)
  | mode1To6 | mode11To16 =>
      -- A doubled rate and a converter.
      dsimp only [ResamplerMode.outLength, ResamplerMode.ratio,
        ResamplerMode.blockLength] at fits isBlocks ⊢
      refine Delivers.congr ?_ fun samplesOut outLen isMax =>
        (if_neg (by omega)).trans (if_neg (by omega))
      refine
        isSet.delivers_via (puts_upsampleBy2 isSet.kind1 rfl rfl) (by omega)
          (fun tmp isLength =>
            puts_convertBlocks isSet.kind2 (by omega) blocks ?_ ?_ ?_)
          fits (by omega)
      all_goals
        dsimp only [Converter.inLength, Converter.outLength]
        omega
  | mode1To12 =>
      dsimp only [ResamplerMode.outLength, ResamplerMode.ratio,
        ResamplerMode.blockLength] at fits isBlocks ⊢
      refine Delivers.congr ?_ fun samplesOut outLen isMax =>
        (if_neg (by omega)).trans (if_neg (by omega))
      refine
        isSet.delivers_by_output (fun _ _ => rfl)
          (puts_upsampleBy2 isSet.kind1 rfl rfl) (by omega)
          (fun tmp isLength =>
            puts_upsampleBy2 isSet.kind2 (by omega) rfl)
          (by omega)
          (fun tmp isLength =>
            puts_convertBlocks isSet.kind3 (by omega) blocks ?_ ?_ ?_)
          fits (by omega)
      all_goals
        dsimp only [Converter.inLength, Converter.outLength]
        omega
  | mode2To3 | mode6To1 | mode11To2 =>
      -- A converter and a halved rate.
      dsimp only [ResamplerMode.outLength, ResamplerMode.ratio,
        ResamplerMode.blockLength] at fits isBlocks ⊢
      refine Delivers.congr ?_ fun samplesOut outLen isMax =>
        (if_neg (by omega)).trans (if_neg (by omega))
      refine
        isSet.delivers_via
          (puts_convertBlocks isSet.kind1 rfl blocks ?_ rfl ?_) ?_
          (fun tmp isLength =>
            puts_downsampleBy2 isSet.kind2 ?_ ?_)
          fits (by omega)
      all_goals dsimp only [Converter.inLength, Converter.outLength] at *
      all_goals omega
  | mode2To11 =>
      dsimp only [ResamplerMode.outLength, ResamplerMode.ratio,
        ResamplerMode.blockLength] at fits isBlocks ⊢
      refine Delivers.congr ?_ fun samplesOut outLen isMax =>
        (if_neg (by omega)).trans (if_neg (by omega))
      refine
        isSet.delivers_via (puts_upsampleBy2 isSet.kind1 rfl rfl) (by omega)
          (fun tmp isLength =>
            puts_convertBlocks isSet.kind2 (by omega) (2 * blocks) ?_ ?_ ?_)
          fits (by omega)
      all_goals
        dsimp only [Converter.inLength, Converter.outLength]
        omega
  | mode11To32 =>
      dsimp only [ResamplerMode.outLength, ResamplerMode.ratio,
        ResamplerMode.blockLength] at fits isBlocks ⊢
      refine Delivers.congr ?_ fun samplesOut outLen isMax =>
        (if_neg (by omega)).trans (if_neg (by omega))
      refine
        isSet.delivers_by_output (fun _ _ => rfl)
          (puts_upsampleBy2 isSet.kind1 rfl rfl) (by omega)
          (fun tmp isLength =>
            puts_convertBlocks isSet.kind2 (by omega) blocks ?_ rfl ?_)
          ?_
          (fun tmp isLength => puts_upsampleBy2 isSet.kind3 ?_ ?_)
          fits (by omega)
      all_goals dsimp only [Converter.inLength, Converter.outLength] at *
      all_goals omega
  | mode2To1 =>
      dsimp only [ResamplerMode.outLength, ResamplerMode.ratio,
        ResamplerMode.blockLength] at fits isBlocks ⊢
      refine Delivers.congr ?_ fun samplesOut outLen isMax =>
        if_neg (by omega)
      refine isSet.delivers_through ?_ fits (by omega)
      exact puts_downsampleBy2 isSet.kind1 rfl (by omega)
  | mode4To1 =>
      dsimp only [ResamplerMode.outLength, ResamplerMode.ratio,
        ResamplerMode.blockLength] at fits isBlocks ⊢
      refine Delivers.congr ?_ fun samplesOut outLen isMax =>
        if_neg (by omega)
      refine
        isSet.delivers_via (puts_downsampleBy2 isSet.kind1 rfl rfl) (by omega)
          (fun tmp isLength =>
            puts_downsampleBy2 isSet.kind2 (by omega) (by omega))
          fits (by omega)
  | mode12To1 =>
      dsimp only [ResamplerMode.outLength, ResamplerMode.ratio,
        ResamplerMode.blockLength] at fits isBlocks ⊢
      refine Delivers.congr ?_ fun samplesOut outLen isMax =>
        (if_neg (by omega)).trans (if_neg (by omega))
      exact isSet.delivers12To1 rfl isBlocks (by omega) fits
  | mode3To2 =>
      dsimp only [ResamplerMode.outLength, ResamplerMode.ratio,
        ResamplerMode.blockLength] at fits isBlocks ⊢
      exact isSet.delivers3To2 rfl isBlocks (by omega) fits

/-- The push of a channel is that of its mode. -/
theorem push_eq (samplesOut : List Int) (outLen : Nat) :
    channel.push converters samplesIn samplesOut outLen =
      channel.pushMode converters samplesIn samplesOut outLen mode := by
  rw [Channel.push, isSet.isMode]

theorem delivers_push
    (accepts : mode.Accepts samplesIn.length maxLen) :
    Delivers (channel.push converters samplesIn) maxLen
      (mode.outLength samplesIn.length)
      (Channel.IsSet · mode numChannels) :=
  (isSet.delivers accepts).congr fun samplesOut outLen _ =>
    isSet.push_eq samplesOut outLen

end Channel.IsSet

/-! ## Rejections -/

/-- A push that is not accepted is rejected, but in the two modes. -/
theorem Channel.IsSet.rejects
    (isSet : channel.IsSet mode numChannels)
    (fits : mode.Fits samplesIn.length maxLen)
    (refuses : ¬ mode.Accepts samplesIn.length maxLen) :
    Rejects (channel.push converters samplesIn) channel maxLen := by
  intro samplesOut outLen isMax
  rw [isSet.push_eq]
  unfold ResamplerMode.Fits at fits
  unfold ResamplerMode.Accepts at refuses
  cases mode with
  | mode1To1 =>
      have fitsIn := fits.1 rfl
      dsimp only [ResamplerMode.outLength, ResamplerMode.ratio,
        ResamplerMode.blockLength] at refuses
      omega
  | mode3To2 =>
      have inTime := fits.2 rfl
      dsimp only [ResamplerMode.outLength, ResamplerMode.ratio,
        ResamplerMode.blockLength] at refuses
      exact if_pos (by omega)
  | mode1To2 | mode1To4 | mode2To1 | mode4To1 =>
      dsimp only [ResamplerMode.outLength, ResamplerMode.ratio,
        ResamplerMode.blockLength] at refuses
      exact if_pos (by omega)
  | _ =>
      dsimp only [ResamplerMode.outLength, ResamplerMode.ratio,
        ResamplerMode.blockLength] at refuses
      dsimp only [pushMode]
      split
      · rfl
      · exact if_pos (by omega)

/-! ## The two modes -/

/-- Nothing is returned where more samples are copied than the output holds. -/
theorem Channel.IsSet.overruns
    (isSet : channel.IsSet .mode1To1 numChannels)
    {samplesOut : List Int}
    (tooMany : samplesOut.length < samplesIn.length)
    (outLen : Nat) :
    channel.push converters samplesIn samplesOut outLen = none := by
  rw [isSet.push_eq]
  dsimp only [pushMode]
  rw [overwrite, if_neg (by omega)]
  rfl

/-- Where the length is looked at too late, -1 is returned behind a filter that has been fed
all samples. -/
theorem Channel.IsSet.advances
    (isSet : channel.IsSet .mode3To2 numChannels)
    {samplesOut : List Int}
    (broken : samplesIn.length % 240 ≠ 0)
    (enough : samplesIn.length * 2 / 3 ≤ samplesOut.length)
    (outLen : Nat) :
    ∃ next,
      channel.push converters samplesIn samplesOut outLen =
          some ⟨-1, samplesOut, outLen, next⟩ ∧
        next.IsSet .mode3To2 numChannels ∧ next ≠ channel := by
  obtain ⟨filtState, fed, isFilter⟩ := exists_by2 isSet.kind1
  have room :
      (HalfBand.upsampleBy2 filtState samplesIn).1.length ≤
        (malloc (2 * samplesIn.length * 2)).length := by
    rw [HalfBand.length_upsampleBy2, malloc, List.length_replicate]
    omega
  have passed :=
    @call_eq converters .upsampleBy2 ⟨.by2 filtState, fed⟩ samplesIn
      (malloc (2 * samplesIn.length * 2)) samplesIn _ _ _ 0 _ 0
      (slice_of_leading (List.prefix_refl _)) rfl (overwrite_start room)
  rw [isSet.push_eq]
  dsimp only [pushMode, push3To2, upsampleBy2, Option.bind_eq_bind]
  rw [if_neg (by omega), isFilter, passed]
  dsimp only [Option.bind_some]
  rw [if_pos (by omega)]
  refine ⟨_, rfl,
    isSet.with_states (by rw [isFilter]; rfl) rfl rfl, ?_⟩
  intro same
  have sameFed :=
    congrArg (fun channel => channel.states.state1.map Filter.fed) same
  rw [isFilter] at sameFed
  have := Option.some.inj sameFed
  dsimp only at this
  omega

end ApmSdk.Resampler
