import ApmSdk.RingBufferFifo

namespace ApmSdk.RingBuffer

/-!
# How many elements a ring buffer holds

Where only the number of readable elements matters, the operations on a ring are
additions and subtractions that are limited by its size.
-/

variable {α : Type}
variable {capacity : Nat}
variable {buffer : RingBuffer α}

/-- A ring of this size that stands for some queue. -/
def Sized (capacity : Nat) (buffer : RingBuffer α) : Prop :=
  ∃ fifo : RewindableFifo α capacity, Represents buffer fifo

/-- How far the read position moves over `readable` elements when it is asked to. -/
def clipMove (capacity readable : Nat) (elements : Int) : Int :=
  max (min elements readable) (-((capacity - readable : Nat) : Int))

theorem clipMove_eq_reach
    (fifo : RewindableFifo α capacity)
    (elements : Int) :
    clipMove capacity fifo.readable elements = fifo.reach elements :=
  rfl

/-- Moving back over elements for which there is room. -/
theorem clipMove_back
    {readable back : Nat}
    (room : readable + back ≤ capacity) :
    clipMove capacity readable (-back) = -back := by
  unfold clipMove
  omega

/-- A created ring is empty. -/
theorem sized_createBuffer
    {zero : α}
    (created : createBuffer capacity zero = some buffer) :
    Sized capacity buffer ∧ buffer.availableRead = 0 := by
  have represents := represents_createBuffer created
  refine ⟨⟨_, represents⟩, ?_⟩
  rw [represents.available]
  simp [RewindableFifo.readable, RewindableFifo.ofRead, newFifo]

/-- So is a ring that has been initialised again. -/
theorem sized_initBuffer
    (zero : α)
    (positive : 0 < capacity)
    (sized : Sized capacity buffer) :
    Sized capacity (buffer.initBuffer zero) ∧
      (buffer.initBuffer zero).availableRead = 0 := by
  obtain ⟨fifo, represents⟩ := sized
  obtain rfl := represents.count
  apply sized_createBuffer
  unfold createBuffer
  rw [if_neg (by omega)]
  rfl

theorem Sized.availableRead_le
    (sized : Sized capacity buffer) :
    buffer.availableRead ≤ capacity := by
  obtain ⟨fifo, represents⟩ := sized
  rw [represents.available]
  exact fifo.readable_le

theorem Sized.availableWrite_eq
    (sized : Sized capacity buffer) :
    buffer.availableWrite = capacity - buffer.availableRead := by
  obtain ⟨fifo, represents⟩ := sized
  rw [availableWrite, represents.count]

/-- Moving the read position, as far as the ring lets it. -/
theorem Sized.moveReadPtr
    (sized : Sized capacity buffer)
    (small : 2 * capacity < 2 ^ 31)
    (elements : Int) :
    ∃ target,
      buffer.moveReadPtr elements =
          some (target, clipMove capacity buffer.availableRead elements) ∧
        Sized capacity target ∧
        (target.availableRead : Int) =
          buffer.availableRead -
            clipMove capacity buffer.availableRead elements := by
  obtain ⟨fifo, represents⟩ := sized
  obtain ⟨target, moved, -, next⟩ :=
    represents_moveReadPtr small represents elements
  rw [represents.available, clipMove_eq_reach]
  refine ⟨target, moved, ⟨_, next⟩, ?_⟩
  rw [next.available]
  exact fifo.readable_move elements

/-- Writing the elements for which there is room. -/
theorem Sized.writeBuffer
    (sized : Sized capacity buffer)
    (elements : List α) :
    Sized capacity (buffer.writeBuffer elements).1 ∧
      (buffer.writeBuffer elements).1.availableRead =
        buffer.availableRead +
          min (capacity - buffer.availableRead) elements.length := by
  obtain ⟨fifo, represents⟩ := sized
  have next := (represents_writeBuffer represents elements).2
  refine ⟨⟨_, next⟩, ?_⟩
  rw [next.available, represents.available]
  exact fifo.readable_write elements

/-- Writing elements that all fit. -/
theorem Sized.writeBuffer_of_fits
    {elements : List α}
    (sized : Sized capacity buffer)
    (fits : buffer.availableRead + elements.length ≤ capacity) :
    Sized capacity (buffer.writeBuffer elements).1 ∧
      (buffer.writeBuffer elements).1.availableRead =
        buffer.availableRead + elements.length := by
  obtain ⟨next, level⟩ := sized.writeBuffer elements
  refine ⟨next, ?_⟩
  rw [level, Nat.min_eq_right (by omega)]

/-- Reading takes as many elements as there are. -/
theorem Sized.readBuffer
    (sized : Sized capacity buffer)
    (small : 2 * capacity < 2 ^ 31)
    (wantsPointer : Bool)
    (elementCount : Nat) :
    ∃ target result,
      buffer.readBuffer wantsPointer elementCount = some (target, result) ∧
        Sized capacity target ∧
        target.availableRead = buffer.availableRead - elementCount ∧
        (result.elements target).length =
          min buffer.availableRead elementCount := by
  obtain ⟨fifo, represents⟩ := sized
  obtain ⟨target, result, read, -, elements, next⟩ :=
    represents_readBuffer small represents wantsPointer elementCount
  have moved := fifo.readable_move elementCount
  refine ⟨target, result, read, ⟨_, next⟩, ?_, ?_⟩
  · rw [next.available, represents.available]
    dsimp only [RewindableFifo.read]
    unfold RewindableFifo.reach at moved
    omega
  · rw [elements, represents.available]
    dsimp only [RewindableFifo.read]
    rw [List.length_take, fifo.length_unread, Nat.min_comm]

end ApmSdk.RingBuffer
