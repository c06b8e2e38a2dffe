import ApmSdk.RingStream

namespace ApmSdk.OutputFrames

/-!
# Frames of 80 samples out of blocks of 64

Both echo cancellers cut frames of 80 samples into blocks of 64, write the blocks that
come out to a ring of 144 samples, and read frames from it again.  Where less than a
frame is left in the ring, its read position is moved back.  Which samples the frames
hold then depends on nothing but their number.
-/

variable {α : Type}

/-- The blocks that are whole after so many frames. -/
def blocksAfter (frames : Nat) : Nat :=
  80 * frames / 64

/-- How far the output ring has been read after so many frames: each of the first
three has moved the position back by 16 samples. -/
def outPosition (frames : Nat) : Nat :=
  144 + 80 * frames - 16 * min frames 3

/-- The stream of a ring that was filled with zeros when it was created. -/
def inRing (zero : α) (stream : List α) : List α :=
  List.replicate 144 zero ++ stream

theorem length_inRing (zero : α) (stream : List α) :
    (inRing zero stream).length = 144 + stream.length := by
  rw [inRing, List.length_append, List.length_replicate]

theorem inRing_append (zero : α) (stream more : List α) :
    inRing zero (stream ++ more) = inRing zero stream ++ more :=
  (List.append_assoc ..).symm

/-- Behind the zeros the ring holds the stream. -/
theorem window_inRing
    (zero : α)
    (stream : List α)
    (position count : Nat) :
    window (inRing zero stream) (144 + position) count =
      window stream position count := by
  unfold inRing
  rw [window_leading _ (by
      rw [List.length_replicate]
      exact Nat.le_add_right _ _),
    List.length_replicate, Nat.add_sub_cancel_left]

theorem blocksAfter_zero : blocksAfter 0 = 0 :=
  rfl

theorem mul_blocksAfter_le (frames : Nat) :
    64 * blocksAfter frames ≤ 80 * frames :=
  Nat.mul_div_le ..

theorem lt_mul_blocksAfter (frames : Nat) :
    80 * frames < 64 * (blocksAfter frames + 1) :=
  Nat.lt_mul_div_succ _ (by decide)

/-- Every frame makes a block whole. -/
theorem blocksAfter_lt_succ (frames : Nat) :
    blocksAfter frames < blocksAfter (frames + 1) := by
  simp only [blocksAfter]
  omega

/-- The blocks that a frame makes whole. -/
theorem blocksAfter_succ (frames : Nat) :
    blocksAfter frames +
        (80 * (frames + 1) - 64 * blocksAfter frames) / 64 =
      blocksAfter (frames + 1) := by
  simp only [blocksAfter]
  omega

/-- Where the next output frame is read from. -/
theorem outPosition_succ (frames : Nat) :
    min (outPosition frames)
          (144 + 64 * blocksAfter (frames + 1) - 80) + 80 =
      outPosition (frames + 1) := by
  simp only [outPosition, blocksAfter]
  omega

/-- There is room in the output ring for the blocks of the next frame. -/
theorem mul_le_outPosition (frames : Nat) :
    64 * blocksAfter (frames + 1) ≤ outPosition frames := by
  have whole := mul_blocksAfter_le (frames + 1)
  simp only [outPosition]
  omega

/-- The position in the output ring only moves on from frame to frame. -/
theorem outPosition_mono
    {earlier later : Nat}
    (ordered : earlier ≤ later) :
    outPosition earlier ≤ outPosition later := by
  simp only [outPosition]
  omega

/-- It stays among what has been written. -/
theorem outPosition_le (frames : Nat) :
    outPosition frames ≤ 144 + 64 * blocksAfter frames := by
  simp only [outPosition, blocksAfter]
  omega

/-- By how much the output ring is stuffed. -/
theorem missing_eq (frames : Nat) :
    80 - (144 + 64 * blocksAfter (frames + 1) - outPosition frames) =
      if frames < 3 then 16 else 0 := by
  simp only [outPosition, blocksAfter]
  split <;> omega

/-- One more element of a list that is described by position. -/
theorem forall_getElem?_concat
    {β : Type}
    {items : List β}
    {item : β}
    {holds : Nat → β → Prop}
    (before :
      ∀ index taken, items[index]? = some taken → holds index taken)
    (last : holds items.length item)
    (index : Nat)
    (taken : β)
    (isTaken : (items ++ [item])[index]? = some taken) :
    holds index taken := by
  by_cases earlier : index < items.length
  · rw [List.getElem?_append_left earlier] at isTaken
    exact before index taken isTaken
  · have bound := (List.getElem?_eq_some_iff.mp isTaken).1
    rw [List.length_append, List.length_singleton] at bound
    obtain rfl : index = items.length := by
      omega
    rw [List.getElem?_concat_length] at isTaken
    obtain rfl := Option.some.inj isTaken
    exact last

/-- Blocks of 64 samples together. -/
theorem length_flatten_blocks
    {blocks : List (List α)}
    (sizes : ∀ block ∈ blocks, block.length = 64) :
    blocks.flatten.length = 64 * blocks.length := by
  induction blocks with
  | nil =>
      rfl
  | cons block rest inductionHypothesis =>
      rw [List.forall_mem_cons] at sizes
      rw [List.flatten_cons, List.length_append, sizes.1,
        inductionHypothesis sizes.2, List.length_cons, Nat.mul_succ,
        Nat.add_comm]

/-- The output frames together are a fixed run of zeros and the blocks, each once and
in order, as far as they go; the ring is stuffed for no frame but the first. -/
def Seamless
    (zero : α)
    (blocks outputs : List (List α))
    (stuffed : List Nat) : Prop :=
  (∃ leading,
      outputs.flatten =
        (List.replicate leading zero ++ blocks.flatten).take
          outputs.flatten.length) ∧
    ∀ missing ∈ stuffed.tail, missing = 0

/-- What the frames of a run are read from, and by how much the ring was stuffed for
each of them. -/
structure Played
    (zero : α)
    (blocks outputs : List (List α))
    (stuffed : List Nat) : Prop where
  sizes : ∀ block ∈ blocks, block.length = 64
  blockCount : blocks.length = blocksAfter outputs.length
  frames :
    ∀ index out,
      outputs[index]? = some out →
        out =
          window (inRing zero blocks.flatten)
            (outPosition (index + 1) - 80) 80
  stuffedCount : stuffed.length = outputs.length
  amounts :
    ∀ index missing,
      stuffed[index]? = some missing →
        missing = if index < 3 then 16 else 0

namespace Played

variable {zero : α}
variable {blocks outputs : List (List α)}
variable {stuffed : List Nat}

/-- Nothing has been played. -/
theorem nil : Played zero ([] : List (List α)) [] [] where
  sizes := by simp
  blockCount := blocksAfter_zero.symm
  frames := by simp
  stuffedCount := rfl
  amounts := by simp

/-- The stream of the blocks is as long as they are. -/
theorem length_flatten (played : Played zero blocks outputs stuffed) :
    blocks.flatten.length = 64 * blocksAfter outputs.length := by
  rw [length_flatten_blocks played.sizes, played.blockCount]

/-- One more frame, read where the next samples are or where the last 80 begin. -/
theorem append
    {more : List (List α)}
    {out : List α}
    {missing : Nat}
    (played : Played zero blocks outputs stuffed)
    (moreSizes : ∀ block ∈ more, block.length = 64)
    (count :
      (blocks ++ more).length = blocksAfter (outputs.length + 1))
    (isOut :
      out =
        window (inRing zero (blocks ++ more).flatten)
          (min (outPosition outputs.length)
            (144 + 64 * blocksAfter (outputs.length + 1) - 80))
          80)
    (isMissing :
      missing =
        80 -
          (144 + 64 * blocksAfter (outputs.length + 1) -
            outPosition outputs.length)) :
    Played zero (blocks ++ more) (outputs ++ [out])
      (stuffed ++ [missing]) := by
  constructor
  case sizes =>
      exact List.forall_mem_append.mpr ⟨played.sizes, moreSizes⟩
  case blockCount =>
      rw [count, List.length_append]
      rfl
  case frames =>
      apply forall_getElem?_concat
      · intro index taken isTaken
        have earlier : index + 1 ≤ outputs.length :=
          (List.getElem?_eq_some_iff.mp isTaken).1
        have ordered := outPosition_mono earlier
        have inStream := outPosition_le outputs.length
        have behind : 80 ≤ outPosition (index + 1) := by
          simp only [outPosition]
          omega
        rw [List.flatten_append, inRing_append, window_append]
        · exact played.frames index taken isTaken
        · rw [length_inRing, played.length_flatten]
          omega
      · rw [← outPosition_succ, Nat.add_sub_cancel]
        exact isOut
  case stuffedCount =>
      simp only [List.length_append, played.stuffedCount,
        List.length_singleton]
  case amounts =>
      apply forall_getElem?_concat played.amounts
      rw [isMissing, played.stuffedCount]
      exact missing_eq _

/-- The output is seamless in a run of at most one frame, and in no longer one: the
ring is stuffed for the second frame as for the first, and then what is read again is
not zeros but the end of the first block. -/
theorem seamless_iff (played : Played zero blocks outputs stuffed) :
    Seamless zero blocks outputs stuffed ↔ outputs.length ≤ 1 := by
  constructor
  · rintro ⟨-, once⟩
    by_contra more
    have second : 1 < stuffed.length := by
      rw [played.stuffedCount]
      omega
    have isSecond := List.getElem?_eq_getElem second
    have sixteen := played.amounts 1 _ isSecond
    have inTail : stuffed[1] ∈ stuffed.tail := by
      rw [← List.drop_one]
      exact List.mem_drop_iff_getElem.mpr ⟨0, by omega, rfl⟩
    have none := once _ inTail
    rw [none] at sixteen
    cases sixteen
  · intro few
    have noMore : stuffed.tail = [] := by
      apply List.eq_nil_of_length_eq_zero
      rw [List.length_tail, played.stuffedCount]
      omega
    refine ⟨?_, by rw [noMore]; simp⟩
    rcases Nat.eq_zero_or_pos outputs.length with zeroFrames | oneFrame
    · rw [List.eq_nil_of_length_eq_zero zeroFrames]
      exact ⟨0, by simp⟩
    · obtain ⟨out, rfl⟩ : ∃ out, outputs = [out] :=
        List.length_eq_one_iff.mp (by omega)
      have isOut := played.frames 0 out rfl
      have leading :
          inRing zero blocks.flatten =
            List.replicate 128 zero ++
              (List.replicate 16 zero ++ blocks.flatten) := by
        rw [← List.append_assoc, List.replicate_append_replicate]
        rfl
      have start : outPosition (0 + 1) - 80 = 128 := by
        decide
      have length := played.length_flatten
      have blocksOne : blocksAfter 1 = 1 := by
        decide
      rw [start, leading,
        window_leading _ (Nat.le_of_eq List.length_replicate),
        List.length_replicate, Nat.sub_self] at isOut
      refine ⟨16, ?_⟩
      have full : out.length = 80 := by
        rw [isOut]
        apply length_window
        rw [List.length_append, List.length_replicate, length]
        simp only [List.length_singleton, blocksOne]
        omega
      rw [List.flatten_singleton, full, isOut]
      rfl

end Played

end ApmSdk.OutputFrames
