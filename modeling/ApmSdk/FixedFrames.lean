import Mathlib.Data.List.Basic
import Mathlib.Tactic.Common

namespace ApmSdk

/-!
# Cutting a sequence into frames of one size

Audio code copies frames out of a longer buffer by multiplying an index with
the frame size.  The lemmas below say when that loses nothing, for elements of
any type.
-/

variable {α : Type*}

/-- The `remaining` frames of a list from frame number `index` on. -/
def frames
    (size : Nat)
    (values : List α) :
    (remaining index : Nat) → List (List α)
  | 0, _ => []
  | remaining + 1, index =>
      (values.drop (index * size)).take size ::
        frames size values remaining (index + 1)

/-- Consecutive frames concatenate to the range of elements they cover. -/
theorem frames_flatten
    (size : Nat)
    (values : List α)
    (remaining index : Nat) :
    (frames size values remaining index).flatten =
      (values.drop (index * size)).take (remaining * size) := by
  induction remaining generalizing index with
  | zero =>
      simp [frames]
  | succ remaining inductionHypothesis =>
      have whole :
          (remaining + 1) * size = size + remaining * size := by
        rw [Nat.succ_mul, Nat.add_comm]
      simp only [frames, List.flatten_cons, inductionHypothesis]
      rw [whole, List.take_add, List.drop_drop, Nat.succ_mul]

/-- Frames that lie inside the list all have the frame size. -/
theorem length_of_mem_frames
    {size : Nat}
    {values : List α}
    {remaining index : Nat}
    (inBounds : (index + remaining) * size ≤ values.length)
    {frame : List α}
    (member : frame ∈ frames size values remaining index) :
    frame.length = size := by
  induction remaining generalizing index with
  | zero =>
      simp [frames] at member
  | succ remaining inductionHypothesis =>
      have shifted :
          (index + 1 + remaining) * size ≤ values.length := by
        rwa [Nat.add_right_comm, Nat.add_assoc]
      rcases List.mem_cons.mp member with isHead | inTail
      · have firstInBounds :
            index * size + size ≤ values.length := by
          rw [← Nat.succ_mul]
          exact Nat.le_trans (Nat.mul_le_mul_right _ (by omega))
            shifted
        simp only [isHead, List.length_take, List.length_drop]
        omega
      · exact inductionHypothesis shifted inTail

/-- Equally long lists concatenate to a multiple of their length. -/
theorem length_flatten_of_forall
    {size : Nat}
    {parts : List (List α)}
    (partsSize : ∀ part ∈ parts, part.length = size) :
    parts.flatten.length = parts.length * size := by
  induction parts with
  | nil =>
      simp
  | cons part rest inductionHypothesis =>
      rw [List.forall_mem_cons] at partsSize
      rw [List.flatten_cons, List.length_append, partsSize.1,
        inductionHypothesis partsSize.2, List.length_cons,
        Nat.succ_mul, Nat.add_comm]

/-- Cutting behind equally long lists gives the lists that follow back. -/
theorem frames_append_flatten
    {size : Nat}
    (leading : List (List α))
    {parts : List (List α)}
    (leadingSize : ∀ part ∈ leading, part.length = size)
    (partsSize : ∀ part ∈ parts, part.length = size) :
    frames size (leading ++ parts).flatten parts.length
        leading.length =
      parts := by
  induction parts generalizing leading with
  | nil =>
      rfl
  | cons part rest inductionHypothesis =>
      rw [List.forall_mem_cons] at partsSize
      have skipped :=
        length_flatten_of_forall leadingSize
      have longerSize :
          ∀ other ∈ leading ++ [part], other.length = size := by
        rw [List.forall_mem_append, List.forall_mem_singleton]
        exact ⟨leadingSize, partsSize.1⟩
      have later :=
        inductionHypothesis (leading ++ [part]) longerSize partsSize.2
      rw [List.append_assoc, List.singleton_append,
        List.length_append, List.length_singleton] at later
      rw [List.length_cons, frames, later, ← skipped,
        List.flatten_append, List.drop_left, List.flatten_cons,
        ← partsSize.1, List.take_left]

/-- Cutting a concatenation of equally long lists gives those lists back. -/
theorem frames_of_flatten
    {size : Nat}
    {parts : List (List α)}
    (partsSize : ∀ part ∈ parts, part.length = size) :
    frames size parts.flatten parts.length 0 = parts :=
  frames_append_flatten [] (by simp) partsSize

/-- Each of equally long lists is a frame of their concatenation. -/
theorem frame_of_flatten
    {size index : Nat}
    {parts : List (List α)}
    {part : List α}
    (partsSize : ∀ other ∈ parts, other.length = size)
    (isPart : parts[index]? = some part) :
    (parts.flatten.drop (index * size)).take size = part := by
  induction parts generalizing index with
  | nil =>
      contradiction
  | cons first rest inductionHypothesis =>
      rw [List.forall_mem_cons] at partsSize
      cases index with
      | zero =>
          obtain rfl : first = part := by
            simpa using isPart
          rw [Nat.zero_mul, List.drop_zero, List.flatten_cons,
            List.take_left' partsSize.1]
      | succ index =>
          rw [List.getElem?_cons_succ] at isPart
          have behind : (index + 1) * size = first.length + index * size := by
            rw [partsSize.1, Nat.succ_mul, Nat.add_comm]
          rw [List.flatten_cons, behind, ← List.drop_drop, List.drop_left]
          exact inductionHypothesis partsSize.2 isPart

/-- Lists that are put together from equally long parts agree part for part. -/
theorem flatMap_eq_iff
    {Item Entry : Type*}
    {first second : Item → List Entry}
    (lengths : ∀ item, (first item).length = (second item).length)
    (items : List Item) :
    items.flatMap first = items.flatMap second ↔
      ∀ item ∈ items, first item = second item := by
  induction items with
  | nil =>
      simp
  | cons item rest inductionHypothesis =>
      rw [List.flatMap_cons, List.flatMap_cons, List.forall_mem_cons,
        ← inductionHypothesis]
      constructor
      · exact fun same => List.append_inj same (lengths item)
      · rintro ⟨here, later⟩
        rw [here, later]

end ApmSdk
