import Mathlib.Data.List.Basic
import Mathlib.Tactic.Common

namespace ApmSdk

/-!
# Streams of self-delimiting frames

A frame reader takes one frame off the front of its input and hands back the
rest.  Reading a whole stream repeats it until nothing is left.  Where the
reader undoes the writer on one frame, whatever follows that frame, reading a
concatenation undoes writing every frame.
-/

namespace FramedStream

variable {α β : Type}

/-- Read at most `fuel` frames and fail on input left over. -/
def readFrames
    (readFrame : List α → Option (β × List α)) :
    Nat → List α → Option (List β)
  | _, [] => some []
  | 0, _ :: _ => none
  | fuel + 1, input@(_ :: _) =>
      match readFrame input with
      | none => none
      | some (frame, rest) =>
          (readFrames readFrame fuel rest).map (frame :: ·)

/-- Read a whole stream: a frame takes at least one element. -/
def readAll
    (readFrame : List α → Option (β × List α))
    (input : List α) : Option (List β) :=
  readFrames readFrame input.length input

/-- The empty stream holds no frames. -/
@[simp]
theorem readAll_nil
    (readFrame : List α → Option (β × List α)) :
    readAll readFrame [] = some [] :=
  rfl

/-- The first frame of a stream that was read is the first one read off it. -/
theorem readFrame_of_readAll_cons
    {readFrame : List α → Option (β × List α)}
    {input : List α}
    {frame : β}
    {frames : List β}
    (read : readAll readFrame input = some (frame :: frames)) :
    ∃ rest, readFrame input = some (frame, rest) := by
  cases input with
  | nil =>
      simp at read
  | cons head tail =>
      cases firstRead : readFrame (head :: tail) with
      | none =>
          simp [readAll, readFrames, firstRead] at read
      | some result =>
          obtain ⟨first, rest⟩ := result
          simp only [readAll, List.length_cons, readFrames, firstRead,
            Option.map_eq_some_iff, List.cons.injEq] at read
          obtain ⟨_, _, same, _⟩ := read
          exact ⟨rest, by rw [same]⟩

section RoundTrip

variable
    {γ : Type}
    {readFrame : List α → Option (β × List α)}
    {write : γ → List α}
    {frameOf : γ → β}
    {Writable : γ → Prop}
    (roundTrip : ∀ item rest, Writable item →
      readFrame (write item ++ rest) = some (frameOf item, rest))
    (occupies : ∀ item, write item ≠ [])

include roundTrip occupies

/-- Enough fuel reads every written item back. -/
theorem readFrames_flatMap
    (items : List γ)
    (writable : ∀ item ∈ items, Writable item)
    (fuel : Nat)
    (enough : (items.flatMap write).length ≤ fuel) :
    readFrames readFrame fuel (items.flatMap write) =
      some (items.map frameOf) := by
  induction items generalizing fuel with
  | nil =>
      cases fuel <;> rfl
  | cons item items inductionHypothesis =>
      have firstRead :=
        roundTrip item (items.flatMap write) (writable item (by simp))
      obtain ⟨head, tail, shape⟩ :=
        List.exists_cons_of_ne_nil (occupies item)
      simp only [List.flatMap_cons, shape, List.cons_append,
        List.length_cons, List.length_append] at enough firstRead ⊢
      obtain ⟨fuel, rfl⟩ : ∃ less, fuel = less + 1 :=
        ⟨fuel - 1, by omega⟩
      have restRead :=
        inductionHypothesis
          (fun later member => writable later (by simp [member]))
          fuel (by omega)
      simp only [readFrames, firstRead, restRead, Option.map_some,
        List.map_cons]

/-- Reading a stream of written items gives exactly their frames, in order. -/
theorem readAll_flatMap
    (items : List γ)
    (writable : ∀ item ∈ items, Writable item) :
    readAll readFrame (items.flatMap write) =
      some (items.map frameOf) :=
  readFrames_flatMap roundTrip occupies items writable _ (Nat.le_refl _)

end RoundTrip

end FramedStream

end ApmSdk
