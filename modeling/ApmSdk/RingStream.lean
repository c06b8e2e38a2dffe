import ApmSdk.RingLevels

namespace ApmSdk

/-!
# Streams through ring buffers

Where no write is cut short, a ring buffer stands at a position of the stream of all
that was ever written to it.  The operations append to the stream and move the
position.  The last part is about windows of a stream that grows.
-/

/-- The elements of a stream from a position on. -/
def window
    {α : Type}
    (stream : List α)
    (position count : Nat) : List α :=
  (stream.drop position).take count

section Window

variable {α : Type}
variable {stream : List α}
variable {position count : Nat}

/-- A window in a stream is full. -/
theorem length_window
    (inStream : position + count ≤ stream.length) :
    (window stream position count).length = count := by
  rw [window, List.length_take_of_le]
  rw [List.length_drop]
  omega

/-- A window in a stream stays as it is when the stream grows. -/
theorem window_append
    (inStream : position + count ≤ stream.length)
    (more : List α) :
    window (stream ++ more) position count =
      window stream position count := by
  unfold window
  rw [List.drop_append_of_le_length (by omega),
    List.take_append_of_le_length (by rw [List.length_drop]; omega)]

/-- A window behind a leading part is a window of the rest. -/
theorem window_leading
    (leading : List α)
    (inLeading : leading.length ≤ position) :
    window (leading ++ stream) position count =
      window stream (position - leading.length) count := by
  unfold window
  rw [List.drop_append, List.drop_eq_nil_of_le inLeading,
    List.nil_append]

/-- A window is its first elements and the window behind them. -/
theorem window_split
    (first second : Nat) :
    window stream position (first + second) =
      window stream position first ++
        window stream (position + first) second := by
  unfold window
  rw [List.take_add, List.drop_drop]

/-- An element of a window is the one of the stream behind its position. -/
theorem getElem?_window
    {index : Nat}
    (inWindow : index < count) :
    (window stream position count)[index]? = stream[position + index]? := by
  unfold window
  rw [List.getElem?_take_of_lt inWindow, List.getElem?_drop]

/-- In a stream of parts of one size, a part is the window at its number. -/
theorem window_flatMap
    {β : Type}
    {size : Nat}
    {part : β → List α}
    (sizes : ∀ item, (part item).length = size)
    {items : List β}
    {index : Nat}
    {item : β}
    (isItem : items[index]? = some item) :
    window (items.flatMap part) (size * index) size = part item := by
  induction items generalizing index with
  | nil =>
      cases isItem
  | cons first rest inductionHypothesis =>
      cases index with
      | zero =>
          obtain rfl := Option.some.inj isItem
          unfold window
          rw [List.flatMap_cons, Nat.mul_zero, List.drop_zero,
            ← sizes first, List.take_left]
      | succ index =>
          rw [List.getElem?_cons_succ] at isItem
          rw [List.flatMap_cons,
            window_leading _ (by rw [sizes, Nat.mul_succ]; omega),
            sizes, Nat.mul_succ, Nat.add_sub_cancel]
          exact inductionHypothesis isItem

theorem map_window
    {β : Type}
    (f : α → β) :
    (window stream position count).map f =
      window (stream.map f) position count := by
  unfold window
  rw [List.map_take, List.map_drop]

end Window

namespace RingBuffer

variable {α : Type}

/-- The ring stands at a position of the stream that was written to it. -/
def Carries
    (capacity : Nat)
    (buffer : RingBuffer α)
    (written : List α)
    (position : Nat) : Prop :=
  ∃ fifo : RewindableFifo α capacity,
    Represents buffer fifo ∧
      fifo.written = written ∧ fifo.position = position

variable {capacity position : Nat}
variable {buffer : RingBuffer α}
variable {written : List α}

/-- A created ring stands behind the zeros it is created with. -/
theorem carries_createBuffer
    {zero : α}
    (created : createBuffer capacity zero = some buffer) :
    Carries capacity buffer (List.replicate capacity zero) capacity :=
  ⟨_, represents_createBuffer created, rfl, List.length_replicate⟩

/-- So does a ring that has been initialised again. -/
theorem carries_initBuffer
    (zero : α)
    (positive : 0 < capacity)
    (count : buffer.elementCount = capacity) :
    Carries capacity (buffer.initBuffer zero)
      (List.replicate capacity zero) capacity := by
  subst count
  have created :
      createBuffer buffer.elementCount zero =
        some (buffer.initBuffer zero) := by
    unfold createBuffer
    rw [if_neg (by omega)]
    rfl
  exact carries_createBuffer created

/-- The position is in the stream, and the ring holds what is behind it. -/
theorem Carries.bounds
    (carries : Carries capacity buffer written position) :
    position ≤ written.length ∧
      written.length ≤ position + capacity ∧
        capacity ≤ written.length := by
  obtain ⟨fifo, represents, rfl, rfl⟩ := carries
  exact ⟨fifo.inStream, fifo.kept, fifo.filled⟩

theorem Carries.availableRead_eq
    (carries : Carries capacity buffer written position) :
    buffer.availableRead = written.length - position := by
  obtain ⟨fifo, represents, rfl, rfl⟩ := carries
  rw [represents.available, RewindableFifo.readable]

/-- Writing elements that all fit. -/
theorem Carries.writeBuffer
    {elements : List α}
    (carries : Carries capacity buffer written position)
    (fits : written.length + elements.length ≤ position + capacity) :
    Carries capacity (buffer.writeBuffer elements).1
      (written ++ elements) position := by
  obtain ⟨fifo, represents, rfl, rfl⟩ := carries
  have room := fifo.readable_add_free
  have inStream := fifo.inStream
  simp only [RewindableFifo.readable] at room
  refine ⟨_, (represents_writeBuffer represents elements).2, ?_, rfl⟩
  dsimp only [RewindableFifo.write]
  rw [List.take_of_length_le (by omega)]

/-- Reading elements that are all there, through the pointer. -/
theorem Carries.readBuffer
    {elementCount : Nat}
    (carries : Carries capacity buffer written position)
    (small : 2 * capacity < 2 ^ 31)
    (enough : position + elementCount ≤ written.length) :
    ∃ target result,
      buffer.readBuffer true elementCount = some (target, result) ∧
        result.readCount = elementCount ∧
          result.elements target = window written position elementCount ∧
            Carries capacity target written (position + elementCount) := by
  obtain ⟨fifo, represents, rfl, rfl⟩ := carries
  obtain ⟨target, result, read, count, elements, next⟩ :=
    represents_readBuffer small represents true elementCount
  have inStream := fifo.inStream
  refine ⟨target, result, read, ?_, elements, _, next, rfl, ?_⟩
  · rw [count, RewindableFifo.readable]
    omega
  · simp only [RewindableFifo.read, RewindableFifo.move,
      RewindableFifo.reach, RewindableFifo.readable]
    omega

/-- Where all elements fit, all are written. -/
theorem Carries.written_eq
    {elements : List α}
    (carries : Carries capacity buffer written position)
    (fits : written.length + elements.length ≤ position + capacity) :
    (buffer.writeBuffer elements).2 = elements.length := by
  obtain ⟨fifo, represents, rfl, rfl⟩ := carries
  have room := fifo.readable_add_free
  have inStream := fifo.inStream
  simp only [RewindableFifo.readable] at room
  rw [(represents_writeBuffer represents elements).1]
  omega

theorem Carries.readInRange
    (carries : Carries capacity buffer written position) :
    buffer.readPos ≤ capacity := by
  obtain ⟨fifo, represents, -, -⟩ := carries
  exact represents.readInRange

/-- Reading elements that are all there into the caller's array, to where an `int` can
hold the position. -/
theorem Carries.readBuffer_of_fits
    {elementCount : Nat}
    (carries : Carries capacity buffer written position)
    (isInt : capacity < 2 ^ 31)
    (fits : buffer.readPos + elementCount < 2 ^ 31)
    (enough : position + elementCount ≤ written.length) :
    ∃ target result,
      buffer.readBuffer false elementCount = some (target, result) ∧
        result.readCount = elementCount ∧
          result.copied = window written position elementCount ∧
            target.readPos =
                wrapPos capacity (buffer.readPos + elementCount) ∧
              Carries capacity target written (position + elementCount) := by
  obtain ⟨fifo, represents, rfl, rfl⟩ := carries
  have all : min fifo.readable elementCount = elementCount := by
    rw [RewindableFifo.readable]
    omega
  obtain ⟨target, result, read, count, elements, moved, next⟩ :=
    @represents_readBuffer_of_fits _ _ _ _ isInt represents false
      elementCount (by omega)
  rw [all] at count moved
  have isCopied : result.pointer = .callerData := by
    simp only [RingBuffer.readBuffer, Option.map_eq_some_iff,
      Prod.mk.injEq] at read
    obtain ⟨_, _, -, rfl⟩ := read
    split
    · rfl
    · rfl
  refine ⟨target, result, read, count, ?_, moved, _, next, rfl, ?_⟩
  · rw [ReadResult.elements, isCopied] at elements
    exact elements
  · have reach := (reach_min fifo elementCount).2
    rw [all] at reach
    simp only [RewindableFifo.read, RewindableFifo.move, reach]
    omega

/-- Reading them to where no `int` can hold the position. -/
theorem Carries.readBuffer_of_overflow
    {elementCount : Nat}
    (carries : Carries capacity buffer written position)
    (isInt : capacity < 2 ^ 31)
    (overflow : 2 ^ 31 ≤ buffer.readPos + elementCount)
    (enough : position + elementCount ≤ written.length) :
    buffer.readBuffer false elementCount = none := by
  obtain ⟨fifo, represents, rfl, rfl⟩ := carries
  refine RingBuffer.readBuffer_of_overflow isInt represents false ?_
  rw [RewindableFifo.readable]
  omega

/-- Reading into the caller's array where twice the capacity is an `int`. -/
theorem Carries.readBuffer_copied
    {elementCount : Nat}
    (carries : Carries capacity buffer written position)
    (small : 2 * capacity < 2 ^ 31)
    (enough : position + elementCount ≤ written.length) :
    ∃ target result,
      buffer.readBuffer false elementCount = some (target, result) ∧
        result.copied = window written position elementCount ∧
          Carries capacity target written (position + elementCount) := by
  have readInRange := carries.readInRange
  have bounds := carries.bounds
  obtain ⟨target, result, read, -, copied, -, next⟩ :=
    carries.readBuffer_of_fits (by omega) (by omega) enough
  exact ⟨target, result, read, copied, next⟩

/-- Moving back over elements that the ring still holds. -/
theorem Carries.moveReadPtr_back_of_int
    {steps : Nat}
    (carries : Carries capacity buffer written position)
    (isInt : capacity < 2 ^ 31)
    (kept : written.length + steps ≤ position + capacity) :
    ∃ target,
      buffer.moveReadPtr (-(steps : Int)) =
          some (target, -(steps : Int)) ∧
        target.readPos = wrapPos capacity (buffer.readPos - steps) ∧
          Carries capacity target written (position - steps) := by
  have readInRange := carries.readInRange
  obtain ⟨fifo, represents, rfl, rfl⟩ := carries
  have inStream := fifo.inStream
  have room := fifo.readable_add_free
  simp only [RewindableFifo.readable] at room
  have reach : fifo.reach (-(steps : Int)) = -steps := by
    simp only [RewindableFifo.reach, RewindableFifo.readable]
    omega
  obtain ⟨target, moves, -, moved, next⟩ :=
    @represents_moveReadPtr_of_fits _ _ _ _ isInt represents
      (-(steps : Int)) (by rw [reach]; omega)
  rw [reach] at moves moved
  refine ⟨target, moves, moved, _, next, rfl, ?_⟩
  simp only [RewindableFifo.move, reach]
  omega

/-- The same where twice the capacity is an `int`. -/
theorem Carries.moveReadPtr_back
    {steps : Nat}
    (carries : Carries capacity buffer written position)
    (small : 2 * capacity < 2 ^ 31)
    (kept : written.length + steps ≤ position + capacity) :
    ∃ target,
      buffer.moveReadPtr (-(steps : Int)) =
          some (target, -(steps : Int)) ∧
        Carries capacity target written (position - steps) := by
  obtain ⟨target, moves, -, next⟩ :=
    carries.moveReadPtr_back_of_int (by omega) kept
  exact ⟨target, moves, next⟩

end RingBuffer

end ApmSdk
