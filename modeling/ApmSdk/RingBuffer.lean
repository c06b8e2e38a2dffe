import Mathlib.Algebra.Order.Ring.Int
import Mathlib.Data.List.Basic
import Mathlib.Tactic.Common

namespace ApmSdk

/-!
# The ring buffer

`ring_buffer.c` keeps a read and a write position and a flag that tells whether the
two are on the same lap.  Counts and positions are `size_t`, but `MoveReadPtr`
converts them to `int` and adds there.
-/

/-- `(int)` of a `size_t`. -/
def asInt (size : Nat) : Int :=
  Int.bmod size (2 ^ 32)

/-- `(size_t)` of an `int`. -/
def asSize (value : Int) : Nat :=
  (value % 2 ^ 64).toNat

/-- The value of an `int` expression; `none` where the addition overflows. -/
def checkedInt (value : Int) : Option Int :=
  if -(2 ^ 31) ≤ value ∧ value < 2 ^ 31 then some value else none

theorem asInt_of_lt
    {size : Nat}
    (small : size < 2 ^ 31) :
    asInt size = size := by
  unfold asInt
  rw [Int.bmod_def]
  omega

theorem asSize_of_nonneg
    {value : Int}
    (nonneg : 0 ≤ value)
    (small : value < 2 ^ 31) :
    asSize value = value.toNat := by
  unfold asSize
  rw [Int.emod_eq_of_lt nonneg (by omega)]

theorem checkedInt_of_bounds
    {value : Int}
    (lower : -(2 ^ 31) ≤ value)
    (upper : value < 2 ^ 31) :
    checkedInt value = some value :=
  if_pos ⟨lower, upper⟩

theorem checkedInt_of_overflow
    {value : Int}
    (overflow : ¬ value < 2 ^ 31) :
    checkedInt value = none :=
  if_neg fun bounds => overflow bounds.2

theorem value_of_checkedInt
    {value result : Int}
    (checked : checkedInt value = some result) :
    result = value := by
  unfold checkedInt at checked
  split at checked
  · exact (Option.some.inj checked).symm
  · cases checked

theorem asInt_bounds (size : Nat) :
    -(2 ^ 31) ≤ asInt size ∧ asInt size < 2 ^ 31 := by
  unfold asInt
  rw [Int.bmod_def]
  omega

attribute [irreducible] asInt asSize checkedInt

/-- `memcpy` to a position of an array. -/
def memcpy
    {α : Type}
    (destination : List α)
    (position : Nat)
    (source : List α) : List α :=
  destination.take position ++ source ++
    destination.drop (position + source.length)

@[simp]
theorem length_memcpy
    {α : Type}
    {destination source : List α}
    {position : Nat}
    (fits : position + source.length ≤ destination.length) :
    (memcpy destination position source).length = destination.length := by
  simp only [memcpy, List.length_append, List.length_take, List.length_drop]
  omega

/-- What `memcpy` has written is there, and the rest is as it was. -/
theorem getElem?_memcpy
    {α : Type}
    {destination source : List α}
    {position : Nat}
    (fits : position + source.length ≤ destination.length)
    (index : Nat) :
    (memcpy destination position source)[index]? =
      if position ≤ index ∧ index < position + source.length then
        source[index - position]?
      else
        destination[index]? := by
  have head : (destination.take position).length = position :=
    List.length_take_of_le (by omega)
  unfold memcpy
  rw [List.append_assoc]
  by_cases before : index < position
  · rw [List.getElem?_append_left (by omega), if_neg (by omega),
      List.getElem?_take_of_lt before]
  · rw [List.getElem?_append_right (by omega), head]
    by_cases inside : index < position + source.length
    · rw [List.getElem?_append_left (by omega), if_pos (by omega)]
    · rw [List.getElem?_append_right (by omega), if_neg (by omega),
        List.getElem?_drop]
      congr 1
      omega

/-- `enum Wrap` -/
inductive Wrap where
  | sameWrap
  | diffWrap
  deriving Repr, DecidableEq

/-- `RingBuffer`; an element of `data` stands for `element_size` bytes. -/
structure RingBuffer (α : Type) where
  readPos : Nat
  writePos : Nat
  elementCount : Nat
  rwWrap : Wrap
  data : List α
  deriving Repr, DecidableEq

/-- Where `ReadBuffer` leaves the pointer it returns. -/
inductive ReadPointer where
  | view (position : Nat)
  | callerData
  deriving Repr, DecidableEq

/-- What `ReadBuffer` returns, and what it has copied to the caller's array. -/
structure ReadResult (α : Type) where
  pointer : ReadPointer
  copied : List α
  readCount : Nat
  deriving Repr, DecidableEq

namespace RingBuffer

variable {α : Type}

/-- `WebRtc_InitBuffer` -/
def initBuffer (buffer : RingBuffer α) (zero : α) : RingBuffer α where
  readPos := 0
  writePos := 0
  elementCount := buffer.elementCount
  rwWrap := .sameWrap
  data := List.replicate buffer.elementCount zero

/-- `WebRtc_CreateBuffer`, with memory enough; it has no buffer without elements. -/
def createBuffer (elementCount : Nat) (zero : α) : Option (RingBuffer α) :=
  if elementCount = 0 then
    none
  else
    some
      (initBuffer
        { readPos := 0
          writePos := 0
          elementCount := elementCount
          rwWrap := .sameWrap
          data := [] }
        zero)

/-- `WebRtc_available_read` -/
def availableRead (buffer : RingBuffer α) : Nat :=
  match buffer.rwWrap with
  | .sameWrap => buffer.writePos - buffer.readPos
  | .diffWrap => buffer.elementCount - buffer.readPos + buffer.writePos

/-- `WebRtc_available_write` -/
def availableWrite (buffer : RingBuffer α) : Nat :=
  buffer.elementCount - buffer.availableRead

/--
`GetBufferReadRegions`: the number of elements, and those of the first and of the
second region.
-/
def getBufferReadRegions
    (buffer : RingBuffer α)
    (elementCount : Nat) : Nat × List α × List α :=
  let readElements :=
    if buffer.availableRead < elementCount then
      buffer.availableRead
    else
      elementCount
  let margin := buffer.elementCount - buffer.readPos
  if readElements > margin then
    (readElements, (buffer.data.drop buffer.readPos).take margin,
      buffer.data.take (readElements - margin))
  else
    (readElements, (buffer.data.drop buffer.readPos).take readElements, [])

/--
`WebRtc_MoveReadPtr`: the buffer and how far the position has moved; `none` where
an `int` overflows.
-/
def moveReadPtr
    (buffer : RingBuffer α)
    (elementCount : Int) : Option (RingBuffer α × Int) := do
  let freeElements := asInt buffer.availableWrite
  let readableElements := asInt buffer.availableRead
  let size := asInt buffer.elementCount
  let least ← checkedInt (-freeElements)
  let forward :=
    if elementCount > readableElements then readableElements else elementCount
  let moved := if forward < least then least else forward
  let readPos ← checkedInt (asInt buffer.readPos + moved)
  let (readPos, rwWrap) ←
    if readPos > size then
      (checkedInt (readPos - size)).map (·, Wrap.sameWrap)
    else
      some (readPos, buffer.rwWrap)
  let (readPos, rwWrap) ←
    if readPos < 0 then
      (checkedInt (readPos + size)).map (·, Wrap.diffWrap)
    else
      some (readPos, rwWrap)
  return ({ buffer with readPos := asSize readPos, rwWrap := rwWrap }, moved)

/-- `WebRtc_ReadBuffer`; the flag tells whether the caller passes a `data_ptr`. -/
def readBuffer
    (buffer : RingBuffer α)
    (wantsPointer : Bool)
    (elementCount : Nat) : Option (RingBuffer α × ReadResult α) :=
  let (readCount, first, second) := buffer.getBufferReadRegions elementCount
  let result : ReadResult α :=
    if second.length > 0 then
      -- The data wraps around: copied, and the pointer is to the copy.
      { pointer := .callerData, copied := first ++ second, readCount := readCount }
    else if !wantsPointer then
      { pointer := .callerData, copied := first, readCount := readCount }
    else
      { pointer := .view buffer.readPos, copied := [], readCount := readCount }
  (buffer.moveReadPtr (asInt readCount)).map fun moved => (moved.1, result)

/-- `WebRtc_WriteBuffer` of an array: the buffer and the number of elements written. -/
def writeBuffer
    (buffer : RingBuffer α)
    (data : List α) : RingBuffer α × Nat :=
  let writeElements :=
    if buffer.availableWrite < data.length then
      buffer.availableWrite
    else
      data.length
  let margin := buffer.elementCount - buffer.writePos
  if writeElements > margin then
    ({ buffer with
        writePos := writeElements - margin
        rwWrap := .diffWrap
        data :=
          memcpy (memcpy buffer.data buffer.writePos (data.take margin)) 0
            ((data.drop margin).take (writeElements - margin)) },
      writeElements)
  else
    ({ buffer with
        writePos := buffer.writePos + writeElements
        data :=
          memcpy buffer.data buffer.writePos (data.take writeElements) },
      writeElements)

/-- Initialising a buffer forgets all but its size. -/
theorem initBuffer_congr
    {first second : RingBuffer α}
    (sameSize : first.elementCount = second.elementCount)
    (zero : α) :
    first.initBuffer zero = second.initBuffer zero := by
  simp only [initBuffer, sameSize]

/-- Moving the read position keeps the size. -/
theorem elementCount_of_moveReadPtr
    {buffer target : RingBuffer α}
    {elementCount moved : Int}
    (isMoved : buffer.moveReadPtr elementCount = some (target, moved)) :
    target.elementCount = buffer.elementCount := by
  simp only [moveReadPtr, Option.bind_eq_bind, Option.pure_def] at isMoved
  obtain ⟨least, _, isMoved⟩ := Option.bind_eq_some_iff.mp isMoved
  obtain ⟨readPos, _, isMoved⟩ := Option.bind_eq_some_iff.mp isMoved
  split at isMoved <;>
    obtain ⟨wrapped, _, isMoved⟩ := Option.bind_eq_some_iff.mp isMoved <;>
    split at isMoved <;>
    obtain ⟨last, _, isMoved⟩ := Option.bind_eq_some_iff.mp isMoved <;>
    obtain ⟨rfl, _⟩ := Prod.mk.inj (Option.some.inj isMoved) <;>
    rfl

/-- Reading keeps the size. -/
theorem elementCount_of_readBuffer
    {buffer target : RingBuffer α}
    {wantsPointer : Bool}
    {elementCount : Nat}
    {result : ReadResult α}
    (read :
      buffer.readBuffer wantsPointer elementCount =
        some (target, result)) :
    target.elementCount = buffer.elementCount := by
  simp only [readBuffer, Option.map_eq_some_iff, Prod.mk.injEq] at read
  obtain ⟨⟨moved, _⟩, isMoved, rfl, _⟩ := read
  exact elementCount_of_moveReadPtr isMoved

/-- Writing keeps the size. -/
@[simp]
theorem elementCount_writeBuffer
    (buffer : RingBuffer α)
    (data : List α) :
    (buffer.writeBuffer data).1.elementCount = buffer.elementCount := by
  simp only [writeBuffer]
  split <;> split <;> rfl

/-- Writing keeps the read position. -/
@[simp]
theorem readPos_writeBuffer
    (buffer : RingBuffer α)
    (data : List α) :
    (buffer.writeBuffer data).1.readPos = buffer.readPos := by
  simp only [writeBuffer]
  split <;> split <;> rfl

/-- A created buffer has the size it was asked for. -/
theorem elementCount_of_createBuffer
    {elementCount : Nat}
    {zero : α}
    {buffer : RingBuffer α}
    (created : createBuffer elementCount zero = some buffer) :
    buffer.elementCount = elementCount := by
  simp only [createBuffer] at created
  split at created
  · cases created
  · obtain rfl := Option.some.inj created
    rfl

end RingBuffer

namespace ReadResult

variable {α : Type}

/-- The elements the caller finds where the pointer leads. -/
def elements
    (result : ReadResult α)
    (buffer : RingBuffer α) : List α :=
  match result.pointer with
  | .view position => (buffer.data.drop position).take result.readCount
  | .callerData => result.copied

end ReadResult

end ApmSdk
