import ApmSdk.ArrayCopies
import Mathlib.Data.Nat.ModEq

namespace ApmSdk.StreamWindow

/-!
# An array that holds the end of a stream

A stream is written round and round into an array, and read from it at any place that has
not been overwritten.  Copies are described by what they leave at every place, counted
round the array, so that a copy in two parts across the end is one copy.  Nothing here
depends on what the stream carries.
-/

open ArrayCopies

variable {Sample : Type*}

/-- Two places within one lap are not the same. -/
theorem place_ne
    {size first second : Nat}
    (before : first < second)
    (oneLap : second < first + size) :
    first % size ≠ second % size := by
  intro same
  have divides : size ∣ second - first :=
    (Nat.modEq_iff_dvd' before.le).mp same
  have atMost : size ≤ second - first :=
    Nat.le_of_dvd (by omega) divides
  omega

/-- `next` is the array with a block copied to it from a position on, counted round. -/
structure WrittenAt
    (array : List Sample)
    (position : Nat)
    (block next : List Sample) : Prop where
  length : next.length = array.length
  inside :
    ∀ i < block.length, next[(position + i) % array.length]? = block[i]?
  outside :
    ∀ index < array.length,
      (∀ i < block.length, index ≠ (position + i) % array.length) →
        next[index]? = array[index]?

/-- `block` is what stands in an array from a position on, counted round. -/
def ReadAt
    (array : List Sample)
    (position : Nat)
    (block : List Sample) : Prop :=
  ∀ i < block.length, block[i]? = array[(position + i) % array.length]?

variable {array middle next block first second stream : List Sample}
variable {position other : Nat}

/-! ## Copies that do not go round -/

/-- A copy inside of the array. -/
theorem WrittenAt.of_overwrite
    (written : overwrite array position block = some next) :
    WrittenAt array position block next := by
  have length := length_of_overwrite written
  unfold overwrite at written
  split at written
  next fits =>
      obtain rfl := Option.some.inj written
      have leading : (array.take position).length = position :=
        List.length_take_of_le (by omega)
      have upTo :
          (array.take position ++ block).length =
            position + block.length := by
        rw [List.length_append, leading]
      refine ⟨length, ?_, ?_⟩
      · intro i inBlock
        rw [Nat.mod_eq_of_lt (by omega),
          List.getElem?_append_left (by omega),
          List.getElem?_append_right (by omega), leading,
          Nat.add_sub_cancel_left]
      · intro index inArray elsewhere
        rcases Nat.lt_or_ge index position with before | after
        · rw [List.getElem?_append_left (by omega),
            List.getElem?_append_left (by omega),
            List.getElem?_take_of_lt before]
        · have behind : position + block.length ≤ index := by
            by_contra inside
            apply elsewhere (index - position) (by omega)
            rw [Nat.mod_eq_of_lt (by omega)]
            omega
          rw [List.getElem?_append_right (by omega), upTo,
            List.getElem?_drop]
          congr 1
          omega
  next =>
      contradiction

/-- A part of the array. -/
theorem ReadAt.of_slice
    {count : Nat}
    (read : slice array position count = some block) :
    ReadAt array position block ∧ block.length = count := by
  unfold slice at read
  split at read
  next fits =>
      obtain rfl := Option.some.inj read
      have length : ((array.drop position).take count).length = count := by
        rw [List.length_take, List.length_drop]
        omega
      refine ⟨fun i inBlock => ?_, length⟩
      rw [List.getElem?_take_of_lt (by omega), List.getElem?_drop,
        Nat.mod_eq_of_lt (by omega)]
  next =>
      contradiction

/-! ## Copies in two parts -/

/-- Only the place of a position round the array matters. -/
theorem WrittenAt.congr
    (written : WrittenAt array position block next)
    (same : position % array.length = other % array.length) :
    WrittenAt array other block next := by
  have places (i : Nat) :
      (other + i) % array.length = (position + i) % array.length := by
    rw [Nat.add_mod, ← same, ← Nat.add_mod]
  refine ⟨written.length, ?_, ?_⟩
  · intro i inBlock
    rw [places]
    exact written.inside i inBlock
  · intro index inArray elsewhere
    apply written.outside index inArray
    intro i inBlock
    rw [← places]
    exact elsewhere i inBlock

theorem ReadAt.congr
    (read : ReadAt array position block)
    (same : position % array.length = other % array.length) :
    ReadAt array other block := by
  intro i inBlock
  rw [read i inBlock, Nat.add_mod, same, ← Nat.add_mod]

/-- A block copied behind another one is as if both had been copied at once, if they are
not longer than the array. -/
theorem WrittenAt.append
    (written : WrittenAt array position first middle)
    (later : WrittenAt middle (position + first.length) second next)
    (fits : first.length + second.length ≤ array.length) :
    WrittenAt array position (first ++ second) next := by
  obtain ⟨length, inside, outside⟩ := written
  obtain ⟨laterLength, laterInside, laterOutside⟩ := later
  rw [length] at laterLength laterInside laterOutside
  refine ⟨laterLength, ?_, ?_⟩
  · intro i inBoth
    rw [List.length_append] at inBoth
    rcases Nat.lt_or_ge i first.length with inFirst | behind
    · rw [List.getElem?_append_left inFirst, ← inside i inFirst]
      apply laterOutside _ (Nat.mod_lt _ (by omega))
      intro k inSecond
      exact place_ne (by omega) (by omega)
    · have inSecond := laterInside (i - first.length) (by omega)
      rw [List.getElem?_append_right behind, ← inSecond]
      congr 2
      omega
  · intro index inArray elsewhere
    rw [List.length_append] at elsewhere
    rw [laterOutside index inArray, outside index inArray]
    · intro i inFirst
      exact elsewhere i (by omega)
    · intro i inSecond
      rw [Nat.add_assoc]
      exact elsewhere (first.length + i) (by omega)

/-- A block read behind another one continues it. -/
theorem ReadAt.append
    (read : ReadAt array position first)
    (later : ReadAt array (position + first.length) second) :
    ReadAt array position (first ++ second) := by
  intro i inBoth
  rw [List.length_append] at inBoth
  rcases Nat.lt_or_ge i first.length with inFirst | behind
  · rw [List.getElem?_append_left inFirst, read i inFirst]
  · rw [List.getElem?_append_right behind,
      later (i - first.length) (by omega)]
    congr 2
    omega

/-- A block copied in two parts, to the end of the array and to its start. -/
theorem WrittenAt.of_wrapped
    {count : Nat}
    (written : overwrite array position (block.take count) = some middle)
    (later : overwrite middle 0 (block.drop count) = some next)
    (isEnd : position + count = array.length)
    (inBlock : count ≤ block.length)
    (fits : block.length ≤ array.length) :
    WrittenAt array position block next := by
  have leading := WrittenAt.of_overwrite written
  have trailing := WrittenAt.of_overwrite later
  have leadingLength : (block.take count).length = count :=
    List.length_take_of_le inBlock
  have round :
      0 % middle.length =
        (position + (block.take count).length) % middle.length := by
    rw [leadingLength, isEnd, leading.length, Nat.mod_self, Nat.zero_mod]
  have both :=
    leading.append (trailing.congr round)
      (by rw [← List.length_append, List.take_append_drop]; exact fits)
  rwa [List.take_append_drop] at both

/-- A block read in two parts, from the end of the array and from its start. -/
theorem ReadAt.of_wrapped
    {count rest : Nat}
    (read : slice array position count = some first)
    (later : slice array 0 rest = some second)
    (isEnd : position + count = array.length) :
    ReadAt array position (first ++ second) := by
  obtain ⟨leading, leadingLength⟩ := ReadAt.of_slice read
  obtain ⟨trailing, -⟩ := ReadAt.of_slice later
  refine leading.append (trailing.congr ?_)
  rw [leadingLength, isEnd, Nat.mod_self, Nat.zero_mod]

/-! ## The stream -/

/-- The array holds as much of the end of the stream as fits into it. -/
def Holds (array stream : List Sample) : Prop :=
  ∀ k < stream.length,
    stream.length ≤ k + array.length →
      array[k % array.length]? = stream[k]?

theorem holds_nil (array : List Sample) : Holds array [] :=
  fun _ inStream => absurd inStream (Nat.not_lt_zero _)

/-- An array holds what it is made of. -/
theorem holds_self (array : List Sample) : Holds array array := by
  intro k inArray _
  rw [Nat.mod_eq_of_lt inArray]

/-- It does so after another block, written where the stream ends. -/
theorem Holds.append
    (holds : Holds array stream)
    (written : WrittenAt array stream.length block next) :
    Holds next (stream ++ block) := by
  intro k inBoth young
  rw [List.length_append] at inBoth young
  rw [written.length] at young ⊢
  rcases Nat.lt_or_ge k stream.length with inStream | behind
  · rw [List.getElem?_append_left inStream,
      ← holds k inStream (by omega)]
    apply written.outside _ (Nat.mod_lt _ (by omega))
    intro i inBlock
    exact place_ne (by omega) (by omega)
  · have inBlock := written.inside (k - stream.length) (by omega)
    rw [List.getElem?_append_right behind, ← inBlock]
    congr 2
    omega

/-- What is read from the place of an element that is still held is the stream from that
element on. -/
theorem Holds.read
    {start : Nat}
    (holds : Holds array stream)
    (read : ReadAt array position block)
    (place : position % array.length = start % array.length)
    (inStream : start + block.length ≤ stream.length)
    (young : stream.length ≤ start + array.length) :
    block = (stream.drop start).take block.length := by
  apply List.ext_getElem?
  intro i
  rcases Nat.lt_or_ge i block.length with inBlock | behind
  · rw [List.getElem?_take_of_lt inBlock, List.getElem?_drop,
      read.congr place i inBlock]
    exact holds (start + i) (by omega) (by omega)
  · rw [List.getElem?_eq_none behind, List.getElem?_eq_none]
    rw [List.length_take]
    omega

end ApmSdk.StreamWindow
