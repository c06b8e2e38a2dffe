import ApmSdk.CheckedComputation
import ApmSdk.ResamplerModes

namespace ApmSdk.Resampler

/-!
# Two channels of a resampler

The samples of two channels are split, pushed through a slave each and put together again.
Both slaves are in the mode of the resampler, so that they reject or deliver together.
-/

open ArrayCopies

variable {converters : Converters}

/-! ## Splitting and joining -/

/-- Each turn of the loop that splits the samples has its reads and writes inside. -/
theorem splitTurn_returns
    {samplesIn left right : List Int}
    {half turn : Nat}
    (isHalf : half = samplesIn.length / 2)
    (inside : turn < half)
    (isLeft : left.length = half)
    (isRight : right.length = half) :
    Returns (splitTurn samplesIn (left, right) turn) fun (left, right) =>
      left.length = half ∧ right.length = half := by
  unfold splitTurn
  dsimp only
  have isFirst :=
    List.getElem?_eq_getElem (by omega : turn * 2 < samplesIn.length)
  have isSecond :=
    List.getElem?_eq_getElem (by omega : turn * 2 + 1 < samplesIn.length)
  have write :
      ∀ channel : List Int, ∀ sample, channel.length = half →
        Returns (overwrite channel (turn * 2 / 2) [sample]) fun next =>
          next.length = half := by
    intro channel sample isLength
    have fits : turn * 2 / 2 + [sample].length ≤ channel.length := by
      rw [List.length_singleton]
      omega
    exact
      ⟨_, if_pos fits,
        (length_of_overwrite (if_pos fits)).trans isLength⟩
  rw [isFirst, isSecond]
  dsimp only [Option.bind_eq_bind, Option.bind_some]
  refine Returns.bind (write _ _ isLeft) fun left isLeft => ?_
  refine Returns.bind (write _ _ isRight) fun right isRight => ?_
  exact Returns.pure ⟨isLeft, isRight⟩

/-- As many turns as each half has samples fill the halves. -/
theorem splitTurns_return (samplesIn : List Int) :
    Returns
      ((List.range (samplesIn.length / 2)).foldlM (splitTurn samplesIn)
        (malloc (samplesIn.length * 2 / 2),
          malloc (samplesIn.length * 2 / 2)))
      fun (left, right) =>
        left.length = samplesIn.length / 2 ∧
          right.length = samplesIn.length / 2 := by
  have isRoom :
      (malloc (samplesIn.length * 2 / 2)).length =
        samplesIn.length / 2 := by
    rw [malloc, List.length_replicate]
    omega
  refine Returns.foldlM _ ⟨isRoom, isRoom⟩ ?_
  rintro ⟨left, right⟩ turn member lengths
  exact
    splitTurn_returns rfl (List.mem_range.mp member) lengths.1 lengths.2

/-- An even number of samples is split into halves. -/
theorem splitChannels_returns
    {samplesIn : List Int}
    (even : samplesIn.length % 2 = 0) :
    Returns (splitChannels samplesIn) fun (left, right) =>
      left.length = samplesIn.length / 2 ∧
        right.length = samplesIn.length / 2 := by
  have isTurns : (samplesIn.length + 1) / 2 = samplesIn.length / 2 := by
    omega
  unfold splitChannels
  rw [isTurns]
  exact splitTurns_return samplesIn

/-- Of an odd number of samples, the last does not fit into a half. -/
theorem splitChannels_of_odd
    {samplesIn : List Int}
    (odd : samplesIn.length % 2 = 1) :
    splitChannels samplesIn = none := by
  have isTurns :
      (samplesIn.length + 1) / 2 = samplesIn.length / 2 + 1 := by
    omega
  obtain ⟨⟨left, right⟩, earlier, isLeft, isRight⟩ :=
    splitTurns_return samplesIn
  unfold splitChannels
  rw [isTurns, List.range_succ, List.foldlM_append]
  have isLast :=
    List.getElem?_eq_getElem
      (by omega : samplesIn.length / 2 * 2 < samplesIn.length)
  rw [earlier]
  dsimp only [Option.bind_eq_bind, Option.bind_some]
  rw [List.foldlM_cons, splitTurn]
  dsimp only [Option.bind_eq_bind]
  rw [isLast, Option.bind_some, overwrite,
    if_neg (by rw [List.length_singleton]; omega)]
  rfl

/-- Joined samples fill the beginning of the output. -/
theorem joinChannels_eq
    {outLeft outRight : List Int}
    {length : Nat}
    (enoughLeft : length ≤ outLeft.length)
    (enoughRight : length ≤ outRight.length) :
    ∃ produced : List Int,
      produced.length = 2 * length ∧
        ∀ samplesOut,
          2 * length ≤ samplesOut.length →
            joinChannels outLeft outRight samplesOut length =
              some (produced ++ samplesOut.drop (2 * length)) := by
  induction length with
  | zero =>
      exact ⟨[], rfl, fun samplesOut _ => rfl⟩
  | succ length inductionHypothesis =>
      obtain ⟨produced, isLength, earlier⟩ :=
        inductionHypothesis (by omega) (by omega)
      have isLeft :=
        List.getElem?_eq_getElem (by omega : length < outLeft.length)
      have isRight :=
        List.getElem?_eq_getElem (by omega : length < outRight.length)
      refine
        ⟨produced ++ [outLeft[length]] ++ [outRight[length]], ?_, ?_⟩
      · simp only [List.length_append, List.length_singleton]
        omega
      · intro samplesOut fits
        have before := earlier samplesOut (by omega)
        unfold joinChannels at before ⊢
        rw [List.range_succ, List.foldlM_append, before]
        dsimp only [Option.bind_eq_bind, Option.bind_some]
        rw [List.foldlM_cons, joinTurn]
        dsimp only [Option.bind_eq_bind]
        rw [isLeft, Option.bind_some,
          overwrite_next (by omega)
            (by rw [List.length_drop, List.length_singleton]; omega),
          Option.bind_some, isRight, Option.bind_some,
          overwrite_next
            (by rw [List.length_append, List.length_singleton]; omega)
            (by
              simp only [List.length_drop, List.length_singleton]
              omega),
          List.drop_drop, List.drop_drop]
        rfl

/-! ## Two slaves -/

variable {resampler : Resampler}
variable {mode : ResamplerMode}
variable {samplesIn : List Int}
variable {maxLen : Nat}

theorem length_malloc_half (maxLen : Nat) :
    (malloc (maxLen / 2 * 2)).length = maxLen / 2 := by
  rw [malloc, List.length_replicate, Nat.mul_div_cancel _ Nat.two_pos]

/-- Two channels deliver where both slaves accept their halves. -/
theorem IsSet.delivers_stereo
    (isSet : resampler.IsSet mode 2)
    (even : samplesIn.length % 2 = 0)
    (accepts : mode.Accepts (samplesIn.length / 2) (maxLen / 2)) :
    Delivers (resampler.push converters samplesIn) maxLen
      (2 * mode.outLength (samplesIn.length / 2))
      (IsSet · mode 2) := by
  obtain ⟨⟨left, right⟩, isSplit, isLeft, isRight⟩ :=
    splitChannels_returns even
  obtain ⟨slaveLeft, hasLeft, setLeft⟩ := isSet.left rfl
  obtain ⟨slaveRight, hasRight, setRight⟩ := isSet.right rfl
  obtain ⟨fits, outLeft, nextLeft, leftLength, keptLeft, pushLeft⟩ :=
    @Channel.IsSet.delivers_push converters _ _ _ left _ setLeft
      (isLeft ▸ accepts)
  obtain ⟨-, outRight, nextRight, rightLength, keptRight, pushRight⟩ :=
    @Channel.IsSet.delivers_push converters _ _ _ right _ setRight
      (isRight ▸ accepts)
  rw [isLeft] at fits leftLength pushLeft
  rw [isRight] at rightLength pushRight
  generalize mode.outLength (samplesIn.length / 2) = count at *
  have filled :
      ∀ out : List Int, out.length = count →
        count ≤ (out ++ (malloc (maxLen / 2 * 2)).drop count).length := by
    intro out isLength
    rw [List.length_append]
    omega
  obtain ⟨produced, isLength, joined⟩ :=
    joinChannels_eq (filled outLeft leftLength)
      (filled outRight rightLength)
  refine
    ⟨by omega, produced,
      { resampler with
        slaveLeft := some nextLeft
        slaveRight := some nextRight },
      isLength,
      { whole := isSet.whole
        number := isSet.number
        left := fun _ => ⟨nextLeft, rfl, keptLeft⟩
        right := fun _ => ⟨nextRight, rfl, keptRight⟩ },
      ?_⟩
  intro samplesOut outLen isMax
  unfold push
  rw [if_pos isSet.whole.numChannels, isSplit]
  dsimp only [Option.bind_eq_bind, Option.bind_some]
  rw [hasLeft, hasRight]
  dsimp only [Option.bind_some]
  rw [isMax, pushLeft _ _ (length_malloc_half maxLen)]
  dsimp only [Option.bind_some]
  rw [pushRight _ _ (length_malloc_half maxLen)]
  dsimp only [Option.bind_some]
  rw [if_neg (by simp), joined samplesOut (by omega)]
  rfl

/-- Two channels reject where both slaves reject their halves. -/
theorem IsSet.rejects_stereo
    (isSet : resampler.IsSet mode 2)
    (even : samplesIn.length % 2 = 0)
    (fits : mode.Fits (samplesIn.length / 2) (maxLen / 2))
    (refuses : ¬ mode.Accepts (samplesIn.length / 2) (maxLen / 2)) :
    Rejects (resampler.push converters samplesIn) resampler maxLen := by
  obtain ⟨⟨left, right⟩, isSplit, isLeft, isRight⟩ :=
    splitChannels_returns even
  obtain ⟨slaveLeft, hasLeft, setLeft⟩ := isSet.left rfl
  obtain ⟨slaveRight, hasRight, setRight⟩ := isSet.right rfl
  have rejectsLeft :=
    @Channel.IsSet.rejects converters _ _ _ left _ setLeft
      (isLeft ▸ fits) (isLeft ▸ refuses)
  have rejectsRight :=
    @Channel.IsSet.rejects converters _ _ _ right _ setRight
      (isRight ▸ fits) (isRight ▸ refuses)
  intro samplesOut outLen isMax
  unfold push
  rw [if_pos isSet.whole.numChannels, isSplit]
  dsimp only [Option.bind_eq_bind, Option.bind_some]
  rw [hasLeft, hasRight]
  dsimp only [Option.bind_some]
  rw [isMax, rejectsLeft _ _ (length_malloc_half maxLen)]
  dsimp only [Option.bind_some]
  rw [rejectsRight _ _ (length_malloc_half maxLen)]
  dsimp only [Option.bind_some]
  rw [if_pos (by simp), ← hasLeft, ← hasRight]
  rfl

end ApmSdk.Resampler
