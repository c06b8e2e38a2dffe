import Mathlib.Data.List.Rotate
import Mathlib.Data.Nat.ModEq
import Mathlib.Tactic.Common

namespace ApmSdk

/-!
# The swap queue

`SwapQueue` is a ring over a vector of constant size.  `Insert` and `Remove`
swap an element with a slot, so each also gives back what the slot held.  Read
as a list, the queue is a bounded FIFO.
-/

/-- The members of `SwapQueue`, with the relation its comment states. -/
structure SwapQueue (α : Type*) where
  queue : List α
  nextWriteIndex : Nat
  nextReadIndex : Nat
  numElements : Nat
  readInRange : 0 < queue.length → nextReadIndex < queue.length
  elementsFit : numElements ≤ queue.length
  writeFollowsRead :
    nextWriteIndex = (nextReadIndex + numElements) % queue.length

namespace SwapQueue

variable {α : Type*}

/-- Advance an index and wrap it at the size of the vector. -/
def advance (index size : Nat) : Nat :=
  if index + 1 = size then 0 else index + 1

/-- Wrapping by comparison is reduction modulo the size. -/
theorem advance_eq_mod
    {index size : Nat}
    (inRange : index < size) :
    advance index size = (index + 1) % size := by
  unfold advance
  split
  · rename_i atEnd
    rw [atEnd, Nat.mod_self]
  · rw [Nat.mod_eq_of_lt (by omega)]

/-- The slot to be written lies in the vector, unless that is empty. -/
theorem writeInRange
    (swapQueue : SwapQueue α)
    (positive : 0 < swapQueue.queue.length) :
    swapQueue.nextWriteIndex < swapQueue.queue.length := by
  rw [swapQueue.writeFollowsRead]
  exact Nat.mod_lt _ positive

/-- A queue that is not full has slots. -/
theorem positive_of_notFull
    (swapQueue : SwapQueue α)
    (notFull : swapQueue.numElements ≠ swapQueue.queue.length) :
    0 < swapQueue.queue.length :=
  Nat.zero_lt_of_lt
    (Nat.lt_of_le_of_ne swapQueue.elementsFit notFull)

/-- So has one that is not empty. -/
theorem positive_of_notEmpty
    (swapQueue : SwapQueue α)
    (notEmpty : swapQueue.numElements ≠ 0) :
    0 < swapQueue.queue.length :=
  Nat.lt_of_lt_of_le (Nat.pos_of_ne_zero notEmpty)
    swapQueue.elementsFit

/-- A queue of the given size filled with copies of a prototype. -/
def create
    (size : Nat)
    (prototype : α) : SwapQueue α where
  queue := List.replicate size prototype
  nextWriteIndex := 0
  nextReadIndex := 0
  numElements := 0
  readInRange := id
  elementsFit := by simp
  writeFollowsRead := by simp

/-- `Clear` -/
def clear (swapQueue : SwapQueue α) : SwapQueue α where
  queue := swapQueue.queue
  nextWriteIndex := 0
  nextReadIndex := 0
  numElements := 0
  readInRange := id
  elementsFit := Nat.zero_le _
  writeFollowsRead := by simp

/-- `Insert`: the queue and what `*input` holds then, or nothing if it is full. -/
def insert
    (swapQueue : SwapQueue α)
    (input : α) : Option (SwapQueue α × α) :=
  if full : swapQueue.numElements = swapQueue.queue.length then
    none
  else
    some
      ({ queue :=
          swapQueue.queue.set swapQueue.nextWriteIndex input
         nextWriteIndex :=
          advance swapQueue.nextWriteIndex swapQueue.queue.length
         nextReadIndex := swapQueue.nextReadIndex
         numElements := swapQueue.numElements + 1
         readInRange := by
          simpa using swapQueue.readInRange
         elementsFit := by
          have fit := swapQueue.elementsFit
          simp only [List.length_set]
          omega
         writeFollowsRead := by
          rw [advance_eq_mod
              (swapQueue.writeInRange (swapQueue.positive_of_notFull full)),
            swapQueue.writeFollowsRead, List.length_set,
            Nat.mod_add_mod, Nat.add_assoc] },
        swapQueue.queue.get
          ⟨swapQueue.nextWriteIndex,
            swapQueue.writeInRange (swapQueue.positive_of_notFull full)⟩)

/-- `Remove`: the queue and what `*output` holds then, or nothing if it is empty. -/
def remove
    (swapQueue : SwapQueue α)
    (output : α) : Option (SwapQueue α × α) :=
  if empty : swapQueue.numElements = 0 then
    none
  else
    some
      ({ queue :=
          swapQueue.queue.set swapQueue.nextReadIndex output
         nextWriteIndex := swapQueue.nextWriteIndex
         nextReadIndex :=
          advance swapQueue.nextReadIndex swapQueue.queue.length
         numElements := swapQueue.numElements - 1
         readInRange := by
          rw [List.length_set]
          intro positive
          rw [advance_eq_mod (swapQueue.readInRange positive)]
          exact Nat.mod_lt _ positive
         elementsFit := by
          have fit := swapQueue.elementsFit
          simp only [List.length_set]
          omega
         writeFollowsRead := by
          have shift :
              swapQueue.nextReadIndex + 1 +
                  (swapQueue.numElements - 1) =
                swapQueue.nextReadIndex + swapQueue.numElements := by
            omega
          rw [advance_eq_mod
              (swapQueue.readInRange (swapQueue.positive_of_notEmpty empty)),
            List.length_set, Nat.mod_add_mod, shift,
            swapQueue.writeFollowsRead] },
        swapQueue.queue.get
          ⟨swapQueue.nextReadIndex,
            swapQueue.readInRange (swapQueue.positive_of_notEmpty empty)⟩)

/-- The size of the vector is constant. -/
theorem length_insert
    {before after : SwapQueue α}
    {input returned : α}
    (inserted : before.insert input = some (after, returned)) :
    after.queue.length = before.queue.length := by
  unfold insert at inserted
  split at inserted
  · simp at inserted
  · obtain ⟨rfl, -⟩ := Prod.mk.inj (Option.some.inj inserted)
    exact List.length_set

/-- A remove does not change it either. -/
theorem length_remove
    {before after : SwapQueue α}
    {output removed : α}
    (taken : before.remove output = some (after, removed)) :
    after.queue.length = before.queue.length := by
  unfold remove at taken
  split at taken
  · simp at taken
  · obtain ⟨rfl, -⟩ := Prod.mk.inj (Option.some.inj taken)
    exact List.length_set

/-! ## The queue as a list -/

/-- The queued elements, the next to be removed first. -/
def contents (swapQueue : SwapQueue α) : List α :=
  (swapQueue.queue.rotate swapQueue.nextReadIndex).take
    swapQueue.numElements

/-- The number of queued elements is the queue's own counter. -/
@[simp]
theorem length_contents (swapQueue : SwapQueue α) :
    swapQueue.contents.length = swapQueue.numElements := by
  simpa [contents] using swapQueue.elementsFit

/-- A new queue is empty. -/
@[simp]
theorem contents_create
    {size : Nat}
    {prototype : α} :
    (create size prototype).contents = [] := by
  simp [contents, create]

/-- `Clear` drops everything queued. -/
@[simp]
theorem contents_clear (swapQueue : SwapQueue α) :
    swapQueue.clear.contents = [] := by
  simp [contents, clear]

/-- Two offsets from one index meet the same slot only if they are equal. -/
theorem offset_eq_of_mod_eq
    {first second index size : Nat}
    (firstInRange : first < size)
    (secondInRange : second < size)
    (same : (first + index) % size = (second + index) % size) :
    first = second :=
  Nat.ModEq.eq_of_lt_of_lt
    (Nat.ModEq.add_right_cancel' index same) firstInRange secondInRange

/-- An insert appends, or is refused by a full queue. -/
theorem contents_insert
    {before after : SwapQueue α}
    {input returned : α}
    (inserted : before.insert input = some (after, returned)) :
    after.contents = before.contents ++ [input] := by
  unfold insert at inserted
  split at inserted
  · simp at inserted
  rename_i notFull
  have room : before.numElements < before.queue.length :=
    Nat.lt_of_le_of_ne before.elementsFit notFull
  have position := before.writeFollowsRead
  obtain ⟨rfl, -⟩ := Prod.mk.inj (Option.some.inj inserted)
  apply List.ext_getElem
  · simp [contents]
    omega
  · intro offset inAfter inBefore
    have offsetLe : offset ≤ before.numElements := by
      simp [contents] at inAfter
      omega
    simp only [contents, List.getElem_take, List.getElem_rotate,
      List.length_set, List.getElem_append, List.getElem_set]
    by_cases isLast : offset = before.numElements
    · have isSlot :
          before.nextWriteIndex =
            (offset + before.nextReadIndex) % before.queue.length := by
        rw [position, isLast, Nat.add_comm]
      simp [isSlot, isLast]
    · have otherSlot :
          before.nextWriteIndex ≠
            (offset + before.nextReadIndex) % before.queue.length := by
        rw [position, Nat.add_comm before.nextReadIndex]
        intro same
        exact isLast
          (offset_eq_of_mod_eq room (by omega) same).symm
      have inOld :
          offset < before.numElements ∧
            offset < before.queue.length := by
        omega
      simp [otherSlot, inOld]

/-- A remove takes the first element, or is refused by an empty queue. -/
theorem contents_remove
    {before after : SwapQueue α}
    {output removed : α}
    (taken : before.remove output = some (after, removed)) :
    before.contents = removed :: after.contents := by
  unfold remove at taken
  split at taken
  · simp at taken
  rename_i notEmpty
  have fit := before.elementsFit
  have start := before.readInRange (before.positive_of_notEmpty notEmpty)
  obtain ⟨rfl, rfl⟩ := Prod.mk.inj (Option.some.inj taken)
  apply List.ext_getElem
  · simp [contents]
    omega
  · intro offset inBefore inAfter
    simp only [contents, List.getElem_take, List.getElem_rotate,
      List.getElem_cons, List.length_set, List.getElem_set]
    have offsetLt : offset < before.numElements := by
      simp [contents] at inBefore
      omega
    cases offset with
    | zero =>
        simp [Nat.mod_eq_of_lt start]
    | succ offset =>
        have nextSlot :
            (offset + advance before.nextReadIndex
                before.queue.length) % before.queue.length =
              (offset + 1 + before.nextReadIndex) %
                before.queue.length := by
          rw [advance_eq_mod start, Nat.add_mod_mod]
          congr 1
          omega
        have otherSlot :
            before.nextReadIndex ≠
              (offset + 1 + before.nextReadIndex) %
                before.queue.length := by
          intro same
          have atStart :
              (0 + before.nextReadIndex) % before.queue.length =
                (offset + 1 + before.nextReadIndex) %
                  before.queue.length := by
            rw [Nat.zero_add, Nat.mod_eq_of_lt start]
            exact same
          have isZero :=
            offset_eq_of_mod_eq (by omega) (by omega) atStart
          omega
        simp [nextSlot, otherSlot]

/-- A queue that holds fewer elements than slots accepts an insert. -/
theorem exists_insert
    {swapQueue : SwapQueue α}
    (room : swapQueue.contents.length < swapQueue.queue.length)
    (input : α) :
    ∃ after returned,
      swapQueue.insert input = some (after, returned) := by
  rw [length_contents] at room
  exact ⟨_, _, dif_neg (by omega)⟩

/-- Only an empty queue refuses a remove. -/
theorem contents_of_remove_none
    {swapQueue : SwapQueue α}
    {output : α}
    (refused : swapQueue.remove output = none) :
    swapQueue.contents = [] := by
  unfold remove at refused
  split at refused
  · rename_i empty
    simp [contents, empty]
  · simp at refused

end SwapQueue

end ApmSdk
