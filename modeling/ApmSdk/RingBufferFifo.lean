import ApmSdk.RewindableFifo
import ApmSdk.RingBuffer

namespace ApmSdk.RingBuffer

/-!
# The ring buffer is a bounded queue that can be rewound

As long as twice the capacity is an `int`, every operation does to the ring what it
does to the stream of written elements.  The two positions and the flag stand for the
number of unread elements, and the array for the last elements of the stream.
-/

variable {α : Type}

/--
The slot of an element that was written so many elements after the oldest one kept,
which stands where the next is to be written.
-/
def slot (size writePos age : Nat) : Nat :=
  if writePos + age < size then
    writePos + age
  else
    writePos + age - size

/-- What an array holds after a write that goes round the end, by age. -/
theorem getElem?_wrapped
    {data elements : List α}
    {size writePos count age : Nat}
    (length : data.length = size)
    (wraps : size - writePos < count)
    (inRange : writePos ≤ size)
    (fits : count ≤ size)
    (enough : count ≤ elements.length)
    (young : age < size) :
    (memcpy (memcpy data writePos (elements.take (size - writePos))) 0
        ((elements.drop (size - writePos)).take
          (count - (size - writePos))))[
        slot size (count - (size - writePos)) age]? =
      if count + age < size then
        data[slot size writePos (count + age)]?
      else
        elements[count + age - size]? := by
  have first :
      (elements.take (size - writePos)).length = size - writePos :=
    List.length_take_of_le (by omega)
  have second :
      ((elements.drop (size - writePos)).take
          (count - (size - writePos))).length =
        count - (size - writePos) := by
    rw [List.length_take, List.length_drop]
    omega
  have same :
      (memcpy data writePos (elements.take (size - writePos))).length =
        size := by
    rw [length_memcpy (by omega), length]
  rw [getElem?_memcpy (by omega), getElem?_memcpy (by omega), first, second]
  by_cases old : count + age < size
  · have place :
        slot size (count - (size - writePos)) age =
          slot size writePos (count + age) := by
      unfold slot
      split <;> split <;> omega
    have outside :
        slot size writePos (count + age) < writePos ∧
          count - (size - writePos) ≤ slot size writePos (count + age) := by
      unfold slot
      split <;> omega
    rw [if_pos old, place, if_neg (by omega), if_neg (by omega)]
  · rw [if_neg old]
    by_cases high : writePos + (count + age - size) < size
    · have place :
          slot size (count - (size - writePos)) age =
            writePos + (count + age - size) := by
        unfold slot
        split <;> omega
      rw [place, if_neg (by omega), if_pos (by omega),
        List.getElem?_take_of_lt (by omega)]
      congr 1
      omega
    · have place :
          slot size (count - (size - writePos)) age =
            writePos + (count + age - size) - size := by
        unfold slot
        split <;> omega
      rw [place, if_pos (by omega), List.getElem?_take_of_lt (by omega),
        List.getElem?_drop]
      congr 1
      omega

/-- What it holds after a write that does not. -/
theorem getElem?_straight
    {data elements : List α}
    {size writePos count age : Nat}
    (length : data.length = size)
    (straight : writePos + count ≤ size)
    (enough : count ≤ elements.length)
    (young : age < size) :
    (memcpy data writePos (elements.take count))[
        slot size (writePos + count) age]? =
      if count + age < size then
        data[slot size writePos (count + age)]?
      else
        elements[count + age - size]? := by
  have written : (elements.take count).length = count :=
    List.length_take_of_le enough
  rw [getElem?_memcpy (by omega), written]
  by_cases old : count + age < size
  · have place :
        slot size (writePos + count) age =
          slot size writePos (count + age) := by
      unfold slot
      split <;> split <;> omega
    have outside :
        slot size writePos (count + age) < writePos ∨
          writePos + count ≤ slot size writePos (count + age) := by
      unfold slot
      split <;> omega
    rw [if_pos old, place, if_neg (by omega)]
  · have place :
        slot size (writePos + count) age =
          writePos + (count + age - size) := by
      unfold slot
      split <;> omega
    rw [if_neg old, place, if_pos (by omega),
      List.getElem?_take_of_lt (by omega)]
    congr 1
    omega

/-- The ring holds the last elements of the stream, and the same of them are unread. -/
structure Represents
    {capacity : Nat}
    (buffer : RingBuffer α)
    (fifo : RewindableFifo α capacity) : Prop where
  count : buffer.elementCount = capacity
  size : buffer.data.length = capacity
  writeInRange : buffer.writePos ≤ capacity
  sameLap : buffer.rwWrap = .sameWrap → buffer.readPos ≤ buffer.writePos
  otherLap :
    buffer.rwWrap = .diffWrap →
      buffer.writePos ≤ buffer.readPos ∧ buffer.readPos ≤ capacity
  available : buffer.availableRead = fifo.readable
  stored :
    ∀ age < capacity,
      buffer.data[slot capacity buffer.writePos age]? =
        fifo.written[fifo.written.length - capacity + age]?

namespace Represents

variable {capacity : Nat}
variable {buffer : RingBuffer α} {fifo : RewindableFifo α capacity}

/-- What can be written is what is free. -/
theorem availableWrite_eq (represents : Represents buffer fifo) :
    buffer.availableWrite = fifo.free := by
  rw [availableWrite, RewindableFifo.free, represents.available,
    represents.count]

theorem readInRange (represents : Represents buffer fifo) :
    buffer.readPos ≤ capacity := by
  cases wrap : buffer.rwWrap with
  | sameWrap =>
      exact
        Nat.le_trans (represents.sameLap wrap) represents.writeInRange
  | diffWrap =>
      exact (represents.otherLap wrap).2

end Represents

/-- A new queue has read the zeros of a new buffer. -/
def newFifo (capacity : Nat) (zero : α) : RewindableFifo α capacity :=
  .ofRead (List.replicate capacity zero) List.length_replicate

/-- A buffer that has been created represents a queue of zeros that have been read. -/
theorem represents_createBuffer
    {capacity : Nat}
    {zero : α}
    {buffer : RingBuffer α}
    (created : createBuffer capacity zero = some buffer) :
    Represents buffer (newFifo capacity zero) := by
  unfold createBuffer at created
  split at created
  · cases created
  next positive =>
      obtain rfl := Option.some.inj created
      constructor
      case count => rfl
      case size => exact List.length_replicate
      case writeInRange => exact Nat.zero_le _
      case sameLap => exact fun _ => Nat.le_refl _
      case otherLap => exact fun wrap => by cases wrap
      case available =>
          simp [availableRead, initBuffer, RewindableFifo.readable,
            RewindableFifo.ofRead, newFifo]
      case stored =>
          intro age inRange
          simp [slot, initBuffer, RewindableFifo.ofRead, newFifo, inRange]

/-- The distance that `MoveReadPtr` clips to is the reach of the queue. -/
theorem clip_eq_reach
    {capacity : Nat}
    (fifo : RewindableFifo α capacity)
    (distance : Int) :
    (let forward :=
        if distance > fifo.readable then (fifo.readable : Int) else distance
      if forward < -(fifo.free : Int) then -(fifo.free : Int) else forward) =
      fifo.reach distance := by
  simp only [RewindableFifo.reach]
  split <;> split <;> omega

/-- The number of unread elements after the position has been set. -/
theorem availableRead_of_readPos
    {buffer : RingBuffer α}
    {readPos : Nat}
    {rwWrap : Wrap} :
    ({ buffer with readPos := readPos, rwWrap := rwWrap } :
        RingBuffer α).availableRead =
      match rwWrap with
      | .sameWrap => buffer.writePos - readPos
      | .diffWrap => buffer.elementCount - readPos + buffer.writePos :=
  rfl

/-- A position and flag that fit the moved queue. -/
theorem represents_move
    {capacity : Nat}
    {buffer : RingBuffer α}
    {fifo : RewindableFifo α capacity}
    (represents : Represents buffer fifo)
    (distance : Int)
    {readPos : Nat}
    {rwWrap : Wrap}
    (sameLap : rwWrap = .sameWrap → readPos ≤ buffer.writePos)
    (otherLap :
      rwWrap = .diffWrap → buffer.writePos ≤ readPos ∧ readPos ≤ capacity)
    (available :
      ({ buffer with readPos := readPos, rwWrap := rwWrap } :
          RingBuffer α).availableRead =
        (fifo.move distance).readable) :
    Represents { buffer with readPos := readPos, rwWrap := rwWrap }
      (fifo.move distance) where
  count := represents.count
  size := represents.size
  writeInRange := represents.writeInRange
  sameLap := sameLap
  otherLap := otherLap
  available := available
  stored := represents.stored

/-- Where the read position comes to stand when it leaves the array. -/
def wrapPos (capacity : Nat) (place : Int) : Int :=
  if (capacity : Int) < place then place - capacity
  else if place < 0 then place + capacity
  else place

/-- The end of `MoveReadPtr`: where a moved position comes to stand, and on which lap. -/
def wrapMoved
    (buffer : RingBuffer α)
    (readPos : Int) : Option (Int × Wrap) :=
  (if readPos > buffer.elementCount then
    (checkedInt (readPos - buffer.elementCount)).map (·, Wrap.sameWrap)
  else
    some (readPos, buffer.rwWrap)).bind fun atEnd =>
      if atEnd.1 < 0 then
        (checkedInt (atEnd.1 + buffer.elementCount)).map (·, Wrap.diffWrap)
      else
        some atEnd

/-- `MoveReadPtr` moves the position by the reach of the queue, if an `int` holds it. -/
theorem moveReadPtr_eq_wrapMoved
    {capacity : Nat}
    {buffer : RingBuffer α}
    {fifo : RewindableFifo α capacity}
    (isInt : capacity < 2 ^ 31)
    (represents : Represents buffer fifo)
    (distance : Int) :
    buffer.moveReadPtr distance =
      (checkedInt (buffer.readPos + fifo.reach distance)).bind fun readPos =>
        (buffer.wrapMoved readPos).map fun moved =>
          ({ buffer with readPos := asSize moved.1, rwWrap := moved.2 },
            fifo.reach distance) := by
  obtain rfl := represents.count
  have total := fifo.readable_add_free
  have readInRange := represents.readInRange
  have clip := clip_eq_reach fifo distance
  simp only at clip
  simp only [moveReadPtr, represents.available, represents.availableWrite_eq,
    asInt_of_lt (show fifo.free < 2 ^ 31 by omega),
    asInt_of_lt (show fifo.readable < 2 ^ 31 by omega),
    asInt_of_lt (show buffer.elementCount < 2 ^ 31 by omega),
    asInt_of_lt (show buffer.readPos < 2 ^ 31 by omega),
    checkedInt_of_bounds
      (show -(2 ^ 31) ≤ -(fifo.free : Int) by omega)
      (show -(fifo.free : Int) < 2 ^ 31 by omega),
    clip, Option.bind_eq_bind, Option.bind_some]
  congr 1
  funext readPos
  unfold wrapMoved
  split
  · rw [Option.map_bind]
    congr 1
    funext atEnd
    dsimp only [Function.comp]
    split
    · exact Option.map_eq_bind.symm
    · rfl
  · rw [Option.bind_some]
    dsimp only
    split
    · exact Option.map_eq_bind.symm
    · rfl

/-- A position that is moved as far as the queue reaches wraps once, and the lap tells what is
left to read. -/
theorem wrapMoved_spec
    {capacity : Nat}
    {buffer : RingBuffer α}
    {fifo : RewindableFifo α capacity}
    (isInt : capacity < 2 ^ 31)
    (represents : Represents buffer fifo)
    {reach : Int}
    (back : -(fifo.free : Int) ≤ reach)
    (ahead : reach ≤ fifo.readable)
    (fits : (buffer.readPos : Int) + reach < 2 ^ 31) :
    ∃ (readPos : Nat) (rwWrap : Wrap),
      buffer.wrapMoved (buffer.readPos + reach) =
          some ((readPos : Int), rwWrap) ∧
        readPos = wrapPos capacity (buffer.readPos + reach) ∧
        (rwWrap = .sameWrap → readPos ≤ buffer.writePos) ∧
        (rwWrap = .diffWrap →
          buffer.writePos ≤ readPos ∧ readPos ≤ capacity) ∧
        (({ buffer with readPos := readPos, rwWrap := rwWrap } :
          RingBuffer α).availableRead : Int) = fifo.readable - reach := by
  obtain rfl := represents.count
  have available := represents.available
  have total := fifo.readable_add_free
  have readInRange := represents.readInRange
  have writeInRange := represents.writeInRange
  unfold wrapMoved
  cases wrap : buffer.rwWrap with
  | sameWrap =>
      have sameLap := represents.sameLap wrap
      rw [availableRead, wrap] at available
      simp only at available
      rw [if_neg (by omega), Option.bind_some]
      by_cases behind : (buffer.readPos : Int) + reach < 0
      · rw [if_pos behind, checkedInt_of_bounds (by omega) (by omega),
          Option.map_some, wrapPos, if_neg (by omega), if_pos behind]
        refine
          ⟨(buffer.readPos + reach + buffer.elementCount).toNat, .diffWrap,
            ?_, by omega, ?_, fun _ => by omega, ?_⟩
        · rw [Int.toNat_of_nonneg (by omega)]
        · exact fun same => by cases same
        · rw [availableRead_of_readPos]
          dsimp only
          omega
      · rw [if_neg behind, wrapPos, if_neg (by omega), if_neg behind]
        refine
          ⟨(buffer.readPos + reach).toNat, .sameWrap, ?_, by omega,
            fun _ => by omega, ?_, ?_⟩
        · rw [Int.toNat_of_nonneg (by omega)]
        · exact fun other => by cases other
        · rw [availableRead_of_readPos]
          dsimp only
          omega
  | diffWrap =>
      have otherLap := represents.otherLap wrap
      rw [availableRead, wrap] at available
      simp only at available
      by_cases beyond : (buffer.elementCount : Int) < buffer.readPos + reach
      · rw [if_pos beyond, checkedInt_of_bounds (by omega) (by omega),
          Option.map_some, Option.bind_some, if_neg (by omega), wrapPos,
          if_pos beyond]
        refine
          ⟨(buffer.readPos + reach - buffer.elementCount).toNat, .sameWrap,
            ?_, by omega, fun _ => by omega, ?_, ?_⟩
        · rw [Int.toNat_of_nonneg (by omega)]
        · exact fun other => by cases other
        · rw [availableRead_of_readPos]
          dsimp only
          omega
      · rw [if_neg beyond, Option.bind_some, if_neg (by omega), wrapPos,
          if_neg beyond, if_neg (by omega)]
        refine
          ⟨(buffer.readPos + reach).toNat, .diffWrap, ?_, by omega,
            ?_, fun _ => by omega, ?_⟩
        · rw [Int.toNat_of_nonneg (by omega)]
        · exact fun same => by cases same
        · rw [availableRead_of_readPos]
          dsimp only
          omega

/-- Moving the read position to where an `int` can hold it. -/
theorem represents_moveReadPtr_of_fits
    {capacity : Nat}
    {buffer : RingBuffer α}
    {fifo : RewindableFifo α capacity}
    (isInt : capacity < 2 ^ 31)
    (represents : Represents buffer fifo)
    {distance : Int}
    (fits : (buffer.readPos : Int) + fifo.reach distance < 2 ^ 31) :
    ∃ target,
      buffer.moveReadPtr distance = some (target, fifo.reach distance) ∧
        target.data = buffer.data ∧
        target.readPos =
          wrapPos capacity (buffer.readPos + fifo.reach distance) ∧
        Represents target (fifo.move distance) := by
  have total := fifo.readable_add_free
  have moved := fifo.readable_move distance
  have bounds := (fifo.move distance).readable_le
  obtain ⟨readPos, rwWrap, isWrapped, isPlace, sameLap, otherLap, left⟩ :=
    wrapMoved_spec isInt represents (by omega) (by omega) fits
  have inArray : readPos ≤ capacity := by
    cases rwWrap with
    | sameWrap => exact (sameLap rfl).trans represents.writeInRange
    | diffWrap => exact (otherLap rfl).2
  rw [moveReadPtr_eq_wrapMoved isInt represents,
    checkedInt_of_bounds (by omega) fits, Option.bind_some, isWrapped,
    Option.map_some]
  dsimp only
  rw [asSize_of_nonneg (by omega) (by omega), Int.toNat_natCast]
  refine
    ⟨_, rfl, rfl, isPlace,
      represents_move represents distance sameLap otherLap ?_⟩
  omega

theorem moveReadPtr_of_overflow
    {capacity : Nat}
    {buffer : RingBuffer α}
    {fifo : RewindableFifo α capacity}
    (isInt : capacity < 2 ^ 31)
    (represents : Represents buffer fifo)
    {distance : Int}
    (overflow : 2 ^ 31 ≤ (buffer.readPos : Int) + fifo.reach distance) :
    buffer.moveReadPtr distance = none := by
  rw [moveReadPtr_eq_wrapMoved isInt represents,
    checkedInt_of_overflow (by omega), Option.bind_none]

/-- Moving the read position, where twice the capacity is an `int`. -/
theorem represents_moveReadPtr
    {capacity : Nat}
    {buffer : RingBuffer α}
    {fifo : RewindableFifo α capacity}
    (small : 2 * capacity < 2 ^ 31)
    (represents : Represents buffer fifo)
    (distance : Int) :
    ∃ target,
      buffer.moveReadPtr distance = some (target, fifo.reach distance) ∧
        target.data = buffer.data ∧
        Represents target (fifo.move distance) := by
  have readInRange := represents.readInRange
  have moved := fifo.readable_move distance
  have total := fifo.readable_add_free
  obtain ⟨target, moves, sameData, -, next⟩ :=
    @represents_moveReadPtr_of_fits _ _ _ _ (by omega) represents distance
      (by omega)
  exact ⟨target, moves, sameData, next⟩

/-- Where an unread element stands in the array. -/
theorem getElem?_unread
    {capacity : Nat}
    {buffer : RingBuffer α}
    {fifo : RewindableFifo α capacity}
    (represents : Represents buffer fifo)
    (index : Nat)
    (isUnread : index < fifo.readable) :
    fifo.unread[index]? =
      buffer.data[
        if buffer.readPos + index < capacity then
          buffer.readPos + index
        else
          buffer.readPos + index - capacity]? := by
  obtain rfl := represents.count
  have available := represents.available
  have fits := fifo.readable_le
  have filled := fifo.filled
  have inStream := fifo.inStream
  have writeInRange := represents.writeInRange
  have stored :=
    represents.stored (buffer.elementCount - fifo.readable + index)
      (by omega)
  have place :
      fifo.written.length - buffer.elementCount +
          (buffer.elementCount - fifo.readable + index) =
        fifo.position + index := by
    simp only [RewindableFifo.readable] at isUnread fits ⊢
    omega
  rw [place] at stored
  rw [RewindableFifo.unread, List.getElem?_drop, ← stored]
  congr 1
  cases wrap : buffer.rwWrap with
  | sameWrap =>
      have sameLap := represents.sameLap wrap
      rw [availableRead, wrap] at available
      simp only [slot] at available ⊢
      split <;> split <;> omega
  | diffWrap =>
      have otherLap := represents.otherLap wrap
      rw [availableRead, wrap] at available
      simp only [slot] at available ⊢
      split <;> split <;> omega

/--
The two regions together are the oldest unread elements, and so is the first alone
when the second is empty.
-/
theorem getBufferReadRegions_eq
    {capacity : Nat}
    {buffer : RingBuffer α}
    {fifo : RewindableFifo α capacity}
    (represents : Represents buffer fifo)
    (elementCount : Nat) :
    let regions := buffer.getBufferReadRegions elementCount
    regions.1 = min fifo.readable elementCount ∧
      regions.2.1 ++ regions.2.2 = fifo.unread.take elementCount ∧
      (regions.2.2.length = 0 →
        (buffer.data.drop buffer.readPos).take regions.1 =
          regions.2.1) := by
  have available := represents.available
  have count := represents.count
  have size := represents.size
  have fits := fifo.readable_le
  have readInRange := represents.readInRange
  have length := fifo.length_unread
  have number :
      (if fifo.readable < elementCount then fifo.readable else elementCount) =
        min fifo.readable elementCount := by
    split <;> omega
  have unreadAt := getElem?_unread represents
  simp only [getBufferReadRegions, available, count, number]
  generalize fifo.unread = unread at length unreadAt
  split
  next wraps =>
      dsimp only
      refine ⟨rfl, List.ext_getElem? fun index => ?_, fun empty => ?_⟩
      rotate_left
      · rw [List.length_take] at empty
        omega
      have first :
          ((buffer.data.drop buffer.readPos).take
              (capacity - buffer.readPos)).length =
            capacity - buffer.readPos := by
        rw [List.length_take, List.length_drop]
        omega
      by_cases inside : index < min fifo.readable elementCount
      · rw [List.getElem?_take_of_lt (by omega), unreadAt index (by omega)]
        by_cases before : buffer.readPos + index < capacity
        · rw [List.getElem?_append_left (by omega), if_pos before,
            List.getElem?_take_of_lt (by omega), List.getElem?_drop]
        · rw [List.getElem?_append_right (by omega), if_neg before, first,
            List.getElem?_take_of_lt (by omega)]
          congr 1
          omega
      · rw [List.getElem?_eq_none, List.getElem?_eq_none]
        · rw [List.length_take]
          omega
        · rw [List.length_append, first, List.length_take]
          omega
  next straight =>
      dsimp only
      refine ⟨rfl, List.ext_getElem? fun index => ?_, fun _ => rfl⟩
      rw [List.append_nil]
      by_cases inside : index < min fifo.readable elementCount
      · rw [List.getElem?_take_of_lt inside,
          List.getElem?_take_of_lt (by omega), unreadAt index (by omega),
          if_pos (by omega), List.getElem?_drop]
      · rw [List.getElem?_eq_none, List.getElem?_eq_none]
        · rw [List.length_take]
          omega
        · rw [List.length_take]
          omega

/-- A read moves the position over the elements that are there. -/
theorem reach_min
    {capacity : Nat}
    (fifo : RewindableFifo α capacity)
    (elementCount : Nat) :
    fifo.reach (min fifo.readable elementCount : Nat) =
        (min fifo.readable elementCount : Nat) ∧
      fifo.reach elementCount = (min fifo.readable elementCount : Nat) := by
  simp only [RewindableFifo.reach]
  omega

/-- Reading, with the elements found where the returned pointer leads. -/
theorem represents_readBuffer_of_fits
    {capacity : Nat}
    {buffer : RingBuffer α}
    {fifo : RewindableFifo α capacity}
    (isInt : capacity < 2 ^ 31)
    (represents : Represents buffer fifo)
    (wantsPointer : Bool)
    {elementCount : Nat}
    (fits : buffer.readPos + min fifo.readable elementCount < 2 ^ 31) :
    ∃ target result,
      buffer.readBuffer wantsPointer elementCount = some (target, result) ∧
        result.readCount = min fifo.readable elementCount ∧
        result.elements target = (fifo.read elementCount).2 ∧
        target.readPos =
          wrapPos capacity
            (buffer.readPos + (min fifo.readable elementCount : Nat)) ∧
        Represents target (fifo.read elementCount).1 := by
  obtain ⟨number, joined, alone⟩ :=
    getBufferReadRegions_eq represents elementCount
  have readable := fifo.readable_le
  obtain ⟨reach, sameReach⟩ := reach_min fifo elementCount
  obtain ⟨target, moves, sameData, position, moved⟩ :=
    @represents_moveReadPtr_of_fits _ _ _ _ isInt represents
      (min fifo.readable elementCount : Nat) (by rw [reach]; omega)
  rw [fifo.move_congr (reach.trans sameReach.symm)] at moved
  rw [reach] at position
  unfold readBuffer
  generalize buffer.getBufferReadRegions elementCount = regions
    at number joined alone
  obtain ⟨readCount, first, second⟩ := regions
  obtain rfl : readCount = min fifo.readable elementCount := number
  simp only at joined alone ⊢
  rw [asInt_of_lt (by omega), moves, Option.map_some]
  refine ⟨target, _, rfl, ?_, ?_, position, moved⟩
  · split
    · rfl
    · split <;> rfl
  · rw [RewindableFifo.read, ← joined]
    split
    next wraps => rfl
    next straight =>
        have empty : second = [] :=
          List.length_eq_zero_iff.mp (Nat.le_zero.mp (Nat.not_lt.mp straight))
        rw [empty, List.append_nil]
        split
        next => rfl
        next =>
            simp only [ReadResult.elements, sameData]
            exact alone (List.length_eq_zero_iff.mpr empty)

/-- A read that moves the position to where no `int` can hold it. -/
theorem readBuffer_of_overflow
    {capacity : Nat}
    {buffer : RingBuffer α}
    {fifo : RewindableFifo α capacity}
    (isInt : capacity < 2 ^ 31)
    (represents : Represents buffer fifo)
    (wantsPointer : Bool)
    {elementCount : Nat}
    (overflow : 2 ^ 31 ≤ buffer.readPos + min fifo.readable elementCount) :
    buffer.readBuffer wantsPointer elementCount = none := by
  obtain ⟨number, -, -⟩ := getBufferReadRegions_eq represents elementCount
  have readable := fifo.readable_le
  obtain ⟨reach, -⟩ := reach_min fifo elementCount
  have moves :
      buffer.moveReadPtr (min fifo.readable elementCount : Nat) = none :=
    moveReadPtr_of_overflow isInt represents (by rw [reach]; omega)
  unfold readBuffer
  generalize buffer.getBufferReadRegions elementCount = regions at number
  obtain ⟨readCount, first, second⟩ := regions
  obtain rfl : readCount = min fifo.readable elementCount := number
  simp only
  rw [asInt_of_lt (by omega), moves, Option.map_none]

/-- Reading, where twice the capacity is an `int`. -/
theorem represents_readBuffer
    {capacity : Nat}
    {buffer : RingBuffer α}
    {fifo : RewindableFifo α capacity}
    (small : 2 * capacity < 2 ^ 31)
    (represents : Represents buffer fifo)
    (wantsPointer : Bool)
    (elementCount : Nat) :
    ∃ target result,
      buffer.readBuffer wantsPointer elementCount = some (target, result) ∧
        result.readCount = min fifo.readable elementCount ∧
        result.elements target = (fifo.read elementCount).2 ∧
        Represents target (fifo.read elementCount).1 := by
  have readInRange := represents.readInRange
  have readable := fifo.readable_le
  obtain ⟨target, result, read, count, elements, -, next⟩ :=
    @represents_readBuffer_of_fits _ _ _ _ (by omega) represents wantsPointer
      elementCount (by omega)
  exact ⟨target, result, read, count, elements, next⟩

/-- What the stream of a written queue holds: the old elements, then the new ones. -/
theorem getElem?_write
    {capacity : Nat}
    (fifo : RewindableFifo α capacity)
    (elements : List α)
    (age : Nat)
    (inRange : age < capacity) :
    let count := min fifo.free elements.length
    (fifo.write elements).written[
        (fifo.write elements).written.length - capacity + age]? =
      if count + age < capacity then
        fifo.written[fifo.written.length - capacity + (count + age)]?
      else
        elements[count + age - capacity]? := by
  have filled := fifo.filled
  simp only [RewindableFifo.write, List.length_append, List.length_take]
  split
  next old =>
      rw [List.getElem?_append_left (by omega)]
      congr 1
      omega
  next new =>
      rw [List.getElem?_append_right (by omega),
        List.getElem?_take_of_lt (by omega)]
      congr 1
      omega

/-- Writing. -/
theorem represents_writeBuffer
    {capacity : Nat}
    {buffer : RingBuffer α}
    {fifo : RewindableFifo α capacity}
    (represents : Represents buffer fifo)
    (elements : List α) :
    (buffer.writeBuffer elements).2 = min fifo.free elements.length ∧
      Represents (buffer.writeBuffer elements).1 (fifo.write elements) := by
  obtain rfl := represents.count
  have available := represents.available
  have writable := represents.availableWrite_eq
  have total := fifo.readable_add_free
  have size := represents.size
  have writeInRange := represents.writeInRange
  have more := fifo.readable_write elements
  have stored := represents.stored
  have number :
      (if fifo.free < elements.length then fifo.free else elements.length) =
        min fifo.free elements.length := by
    split <;> omega
  have newStored := getElem?_write fifo elements
  simp only at newStored
  simp only [writeBuffer, writable, number]
  have inRoom : min fifo.free elements.length ≤ fifo.free :=
    Nat.min_le_left ..
  have inSource : min fifo.free elements.length ≤ elements.length :=
    Nat.min_le_right ..
  generalize min fifo.free elements.length = count
    at more newStored number inRoom inSource ⊢
  split
  next wraps =>
      -- Elements go round the end only while both positions are on one lap.
      have wrap : buffer.rwWrap = .sameWrap := by
        cases wrap : buffer.rwWrap with
        | sameWrap => rfl
        | diffWrap =>
            have otherLap := represents.otherLap wrap
            rw [availableRead, wrap] at available
            simp only at available
            omega
      have sameLap := represents.sameLap wrap
      rw [availableRead, wrap] at available
      simp only at available
      refine ⟨rfl, ?_⟩
      constructor
      case count => rfl
      case size =>
          rw [length_memcpy, length_memcpy, size]
          · rw [List.length_take]
            omega
          · rw [length_memcpy, List.length_take, List.length_drop]
            · omega
            · rw [List.length_take]
              omega
      case writeInRange =>
          simp only
          omega
      case sameLap => exact fun same => by cases same
      case otherLap =>
          simp only
          omega
      case available =>
          simp only [availableRead]
          omega
      case stored =>
          intro age young
          rw [newStored age young,
            getElem?_wrapped size wraps writeInRange (by omega) inSource young]
          split
          · exact stored _ ‹_›
          · rfl
  next straight =>
      refine ⟨rfl, ?_⟩
      constructor
      case count => rfl
      case size =>
          rw [length_memcpy, size]
          rw [List.length_take]
          omega
      case writeInRange =>
          simp only
          omega
      case sameLap =>
          intro same
          exact Nat.le_add_right_of_le (represents.sameLap same)
      case otherLap =>
          intro wrap
          have otherLap := represents.otherLap wrap
          rw [availableRead, show buffer.rwWrap = _ from wrap] at available
          simp only at available ⊢
          omega
      case available =>
          cases wrap : buffer.rwWrap with
          | sameWrap =>
              have sameLap := represents.sameLap wrap
              rw [availableRead, wrap] at available
              simp only [availableRead] at available ⊢
              omega
          | diffWrap =>
              rw [availableRead, wrap] at available
              simp only [availableRead] at available ⊢
              omega
      case stored =>
          intro age young
          rw [newStored age young,
            getElem?_straight size (by omega) inSource young]
          split
          · exact stored _ ‹_›
          · rfl

/-! ## Runs -/

/-- The calls; a reader may pass a `data_ptr` or not. -/
inductive Call (α : Type) where
  | write (elements : List α)
  | read (wantsPointer : Bool) (elementCount : Nat)
  | move (elementCount : Int)

/-- What a call asks of the queue. -/
def Call.request : Call α → RewindableFifo.Request α
  | .write elements => .write elements
  | .read _ elementCount => .read elementCount
  | .move elementCount => .move elementCount

/-- One call; `none` where it overflows. -/
def perform
    (buffer : RingBuffer α) :
    Call α → Option (RingBuffer α × RewindableFifo.Answer α)
  | .write elements =>
      some
        ((buffer.writeBuffer elements).1,
          .written (buffer.writeBuffer elements).2)
  | .read wantsPointer elementCount =>
      (buffer.readBuffer wantsPointer elementCount).map fun read =>
        (read.1, .read read.2.readCount (read.2.elements read.1))
  | .move elementCount =>
      (buffer.moveReadPtr elementCount).map fun moved =>
        (moved.1, .moved moved.2)

/-- Calls one after another. -/
def performAll
    (buffer : RingBuffer α) :
    List (Call α) → Option (RingBuffer α × List (RewindableFifo.Answer α))
  | [] => some (buffer, [])
  | call :: rest =>
      (buffer.perform call).bind fun performed =>
        (performed.1.performAll rest).map fun later =>
          (later.1, performed.2 :: later.2)

/-- A call answers what the queue answers. -/
theorem represents_perform
    {capacity : Nat}
    {buffer : RingBuffer α}
    {fifo : RewindableFifo α capacity}
    (small : 2 * capacity < 2 ^ 31)
    (represents : Represents buffer fifo)
    (call : Call α) :
    ∃ target,
      buffer.perform call = some (target, (fifo.serve call.request).2) ∧
        Represents target (fifo.serve call.request).1 := by
  cases call with
  | write elements =>
      obtain ⟨count, written⟩ := represents_writeBuffer represents elements
      refine ⟨_, ?_, written⟩
      rw [perform, count]
      rfl
  | read wantsPointer elementCount =>
      obtain ⟨target, result, reads, count, elements, moved⟩ :=
        represents_readBuffer small represents wantsPointer elementCount
      refine ⟨target, ?_, moved⟩
      rw [perform, reads, Option.map_some, count, elements]
      rfl
  | move elementCount =>
      obtain ⟨target, moves, -, moved⟩ :=
        represents_moveReadPtr small represents elementCount
      refine ⟨target, ?_, moved⟩
      rw [perform, moves]
      rfl

/-- So does every sequence of calls. -/
theorem represents_performAll
    {capacity : Nat}
    {buffer : RingBuffer α}
    {fifo : RewindableFifo α capacity}
    (small : 2 * capacity < 2 ^ 31)
    (represents : Represents buffer fifo)
    (calls : List (Call α)) :
    ∃ final,
      buffer.performAll calls =
          some (final, (fifo.serveAll (calls.map Call.request)).2) ∧
        Represents final (fifo.serveAll (calls.map Call.request)).1 := by
  induction calls generalizing buffer fifo with
  | nil => exact ⟨buffer, rfl, represents⟩
  | cons call rest inductionHypothesis =>
      obtain ⟨target, performed, next⟩ :=
        represents_perform small represents call
      obtain ⟨final, later, last⟩ := inductionHypothesis next
      refine ⟨final, ?_, last⟩
      rw [performAll, performed, Option.bind_some, later]
      rfl

/-- The calls on a buffer do what the same requests do to a queue. -/
def Refines
    {capacity : Nat}
    (buffer : RingBuffer α)
    (fifo : RewindableFifo α capacity)
    (calls : List (Call α)) : Prop :=
  let served := fifo.serveAll (calls.map Call.request)
  ∃ final,
    buffer.performAll calls = some (final, served.2) ∧
      final.availableRead = served.1.readable ∧
      final.availableRead + final.availableWrite = capacity

section Overflow

/-- A full lap behind: the read position is at the end, and so is the written one. -/
def lapped (capacity : Nat) (data : List α) : RingBuffer α where
  readPos := capacity
  writePos := capacity
  elementCount := capacity
  rwWrap := .diffWrap
  data := data

/-- Reading a whole lap then takes the position to twice the capacity. -/
theorem readBuffer_lapped
    {capacity : Nat}
    (isInt : capacity < 2 ^ 31)
    (large : ¬ 2 * capacity < 2 ^ 31)
    (data : List α) :
    (lapped capacity data).readBuffer true capacity = none := by
  have available : (lapped capacity data).availableRead = capacity := by
    simp [availableRead, lapped]
  have moves :
      (lapped capacity data).moveReadPtr (asInt capacity) = none := by
    simp only [moveReadPtr, availableWrite, available, asInt_of_lt isInt]
    simp only [lapped, Nat.sub_self, asInt_of_lt isInt,
      asInt_of_lt (show 0 < 2 ^ 31 by decide)]
    rw [checkedInt_of_bounds (by omega) (by omega)]
    simp only [Option.bind_eq_bind, Option.bind_some]
    rw [if_neg (by omega), if_neg (by omega),
      checkedInt_of_overflow (by omega)]
    rfl
  have count :
      ((lapped capacity data).getBufferReadRegions capacity).1 =
        capacity := by
    simp only [getBufferReadRegions, available]
    split <;> split <;> rfl
  unfold readBuffer
  generalize (lapped capacity data).getBufferReadRegions capacity = regions
    at count
  obtain ⟨readCount, first, second⟩ := regions
  obtain rfl : readCount = capacity := count
  simp only [moves, Option.map_none]

/-- Writing a lap to a new buffer. -/
theorem writeBuffer_new
    {capacity : Nat}
    {zero : α}
    {buffer : RingBuffer α}
    (created : createBuffer capacity zero = some buffer) :
    ∃ data,
      (buffer.writeBuffer (List.replicate capacity zero)).1 =
        { readPos := 0
          writePos := capacity
          elementCount := capacity
          rwWrap := .sameWrap
          data := data } := by
  unfold createBuffer at created
  split at created
  · cases created
  · obtain rfl := Option.some.inj created
    simp [writeBuffer, initBuffer, availableWrite, availableRead]

/-- Reading that lap. -/
theorem readBuffer_lap
    {capacity : Nat}
    (isInt : capacity < 2 ^ 31)
    (data : List α) :
    ∃ result,
      ({ readPos := 0
         writePos := capacity
         elementCount := capacity
         rwWrap := .sameWrap
         data := data } : RingBuffer α).readBuffer true capacity =
        some
          ({ readPos := capacity
             writePos := capacity
             elementCount := capacity
             rwWrap := .sameWrap
             data := data }, result) := by
  have clip :
      (if (if (capacity : Int) > (capacity : Int) then (capacity : Int)
          else capacity) < -((0 : Nat) : Int) then
        -((0 : Nat) : Int)
      else if (capacity : Int) > (capacity : Int) then (capacity : Int)
      else capacity) =
        capacity := by
    rw [if_neg (Int.lt_irrefl _), if_neg (by omega)]
  have noRoom : checkedInt (-((0 : Nat) : Int)) = some 0 :=
    checkedInt_of_bounds (by omega) (by omega)
  have lap :
      checkedInt (((0 : Nat) : Int) + capacity) = some (capacity : Int) := by
    rw [checkedInt_of_bounds (by omega) (by omega)]
    simp
  have neg : -((0 : Nat) : Int) = 0 := rfl
  rw [neg] at clip
  simp only [readBuffer, getBufferReadRegions, availableRead, Nat.sub_zero,
    Nat.lt_irrefl, if_false, moveReadPtr, availableWrite, Nat.sub_self,
    asInt_of_lt isInt, asInt_of_lt (show 0 < 2 ^ 31 by decide), noRoom,
    Option.bind_eq_bind, Option.bind_some, clip, lap]
  rw [if_neg (show ¬ (capacity : Int) > capacity by omega),
    if_neg (show ¬ (capacity : Int) < 0 by omega),
    asSize_of_nonneg (by omega) (by omega)]
  exact ⟨_, rfl⟩

/-- Writing the next lap. -/
theorem writeBuffer_lap
    {capacity : Nat}
    (zero : α)
    (positive : capacity ≠ 0)
    (data : List α) :
    ∃ lap,
      (({ readPos := capacity
          writePos := capacity
          elementCount := capacity
          rwWrap := .sameWrap
          data := data } : RingBuffer α).writeBuffer
            (List.replicate capacity zero)).1 =
        lapped capacity lap := by
  simp [writeBuffer, availableWrite, availableRead, lapped,
    Nat.pos_of_ne_zero positive]

/-- Two writes and a read of the whole capacity lead there. -/
theorem performAll_lapped
    {capacity : Nat}
    {zero : α}
    {buffer : RingBuffer α}
    (isInt : capacity < 2 ^ 31)
    (large : ¬ 2 * capacity < 2 ^ 31)
    (created : createBuffer capacity zero = some buffer) :
    buffer.performAll
        [.write (List.replicate capacity zero), .read true capacity,
          .write (List.replicate capacity zero), .read true capacity] =
      none := by
  have positive : capacity ≠ 0 := by omega
  obtain ⟨first, written⟩ := writeBuffer_new created
  obtain ⟨result, reads⟩ := readBuffer_lap isInt first
  obtain ⟨second, lapped⟩ := writeBuffer_lap zero positive first
  rw [performAll, perform, Option.bind_some, written, performAll, perform,
    reads, Option.map_some, Option.bind_some, performAll, perform,
    Option.bind_some, lapped, performAll, perform,
    readBuffer_lapped isInt large]
  rfl

/--
One step back from the start, where the capacity is not an `int`: it is not made, or
the position wraps to somewhere else than one before the end.
-/
theorem moveReadPtr_of_not_int
    {capacity : Nat}
    {buffer target : RingBuffer α}
    (notInt : ¬ capacity < 2 ^ 31)
    (count : buffer.elementCount = capacity)
    (readPos : buffer.readPos = 0)
    (writePos : buffer.writePos = 0)
    (wrap : buffer.rwWrap = .sameWrap)
    (moves : buffer.moveReadPtr (-1) = some (target, -1)) :
    target.availableRead ≠ 1 := by
  have bounds := asInt_bounds capacity
  have empty : buffer.availableRead = 0 := by
    rw [availableRead, wrap, writePos]
    simp
  have room : buffer.availableWrite = capacity := by
    rw [availableWrite, empty, count, Nat.sub_zero]
  have zero : asInt 0 = 0 := asInt_of_lt (by omega)
  simp only [moveReadPtr, empty, room, zero, count, readPos, wrap, gt_iff_lt,
    show ¬ (0 : Int) < -1 by decide, if_false, Option.bind_eq_bind] at moves
  generalize asInt capacity = size at bounds moves
  obtain ⟨least, leastChecked, moves⟩ := Option.bind_eq_some_iff.mp moves
  have leastValue := value_of_checkedInt leastChecked
  subst leastValue
  obtain ⟨moved, movedChecked, moves⟩ := Option.bind_eq_some_iff.mp moves
  have movedValue := value_of_checkedInt movedChecked
  subst movedValue
  by_cases forward : 0 < size
  · rw [if_neg (show ¬ (-1 : Int) < -size by omega),
      if_neg (show ¬ size < 0 + -1 by omega), Option.bind_some,
      if_pos (show (0 + -1 : Int) < 0 by decide)] at moves
    obtain ⟨⟨wrapped, lap⟩, wraps, moves⟩ :=
      Option.bind_eq_some_iff.mp moves
    obtain ⟨value, checked, same⟩ := Option.map_eq_some_iff.mp wraps
    have wrappedValue := value_of_checkedInt checked
    subst wrappedValue
    obtain ⟨rfl, rfl⟩ := Prod.mk.inj same
    obtain ⟨rfl, -⟩ := Prod.mk.inj (Option.some.inj moves)
    simp only [availableRead, writePos]
    rw [asSize_of_nonneg (by omega) (by omega)]
    omega
  · rw [if_pos (show (-1 : Int) < -size by omega)] at moves
    exfalso
    by_cases beyond : size < 0 + -size
    · rw [if_pos beyond] at moves
      obtain ⟨⟨wrapped, lap⟩, wraps, moves⟩ :=
        Option.bind_eq_some_iff.mp moves
      obtain ⟨value, checked, same⟩ := Option.map_eq_some_iff.mp wraps
      have wrappedValue := value_of_checkedInt checked
      subst wrappedValue
      obtain ⟨rfl, rfl⟩ := Prod.mk.inj same
      rw [if_neg (show ¬ (0 + -size - size : Int) < 0 by omega),
        Option.bind_some] at moves
      obtain ⟨-, distance⟩ := Prod.mk.inj (Option.some.inj moves)
      omega
    · rw [if_neg beyond, Option.bind_some,
        if_neg (show ¬ (0 + -size : Int) < 0 by omega),
        Option.bind_some] at moves
      obtain ⟨-, distance⟩ := Prod.mk.inj (Option.some.inj moves)
      omega

/-- One step back from a new buffer, where the capacity is not an `int`. -/
theorem not_refines_of_not_int
    {capacity : Nat}
    {zero : α}
    {buffer : RingBuffer α}
    (notInt : ¬ capacity < 2 ^ 31)
    (created : createBuffer capacity zero = some buffer) :
    ¬ Refines buffer (newFifo capacity zero) [.move (-1)] := by
  unfold createBuffer at created
  split at created
  · cases created
  next positive =>
      obtain rfl := Option.some.inj created
      rintro ⟨final, performed, available, -⟩
      have reach : (newFifo capacity zero).reach (-1) = -1 := by
        simp [newFifo, RewindableFifo.reach, RewindableFifo.readable,
          RewindableFifo.free, RewindableFifo.ofRead]
        omega
      have unread := (newFifo capacity zero).readable_move (-1)
      have start : (newFifo capacity zero).readable = 0 := by
        simp [newFifo, RewindableFifo.readable, RewindableFifo.ofRead]
      simp only [performAll, perform, List.map_cons, List.map_nil,
        Call.request, RewindableFifo.serveAll, RewindableFifo.serve, reach]
        at performed available
      obtain ⟨⟨target, answer⟩, moves, done⟩ :=
        Option.bind_eq_some_iff.mp performed
      obtain ⟨⟨last, distance⟩, stepped, same⟩ :=
        Option.map_eq_some_iff.mp moves
      obtain ⟨rfl, rfl⟩ := Prod.mk.inj same
      simp only [Option.map_some, Option.some.injEq, Prod.mk.injEq,
        List.cons.injEq, RewindableFifo.Answer.moved.injEq, and_true] at done
      obtain ⟨rfl, rfl⟩ := done
      refine moveReadPtr_of_not_int notInt ?_ ?_ ?_ ?_ stepped ?_
      · rfl
      · rfl
      · rfl
      · rfl
      · omega

end Overflow

/--
On a buffer of any capacity, every sequence of calls does what the same requests do
to a bounded queue with rewind, exactly when twice the capacity is an `int`.  What a
step back exposes again there are the elements that were read last.
-/
theorem run_refines_iff_small
    {capacity : Nat}
    {zero : α}
    {buffer : RingBuffer α}
    (created : createBuffer capacity zero = some buffer) :
    ((∀ calls, Refines buffer (newFifo capacity zero) calls) ↔
        2 * capacity < 2 ^ 31) ∧
      ∀ requests steps,
        let fifo := ((newFifo capacity zero).serveAll requests).1
        steps ≤ fifo.free →
          (fifo.move (-steps)).unread =
            (fifo.written.take fifo.position).drop (fifo.position - steps) ++
              fifo.unread := by
  refine ⟨⟨?large, ?small⟩, ?back⟩
  case large =>
      intro refines
      by_contra large
      by_cases isInt : capacity < 2 ^ 31
      · obtain ⟨final, performed, -⟩ := refines _
        rw [performAll_lapped isInt large created] at performed
        cases performed
      · exact not_refines_of_not_int isInt created (refines _)
  case small =>
      intro small calls
      obtain ⟨final, performed, represents⟩ :=
        represents_performAll small (represents_createBuffer created) calls
      refine ⟨final, performed, represents.available, ?_⟩
      rw [represents.available, represents.availableWrite_eq]
      exact RewindableFifo.readable_add_free _
  case back =>
      intro requests steps fifo kept
      exact fifo.unread_move_back steps kept

/-- A buffer of two elements is a queue whatever is done to it. -/
theorem run_refines_iff_small_two :
    ∃ buffer,
      createBuffer 2 0 = some buffer ∧
        ∀ calls, Refines buffer (newFifo 2 0) calls :=
  ⟨_, rfl, (run_refines_iff_small rfl).1.mpr (by decide)⟩

/-- In a buffer of 2^30 elements, reading the second lap overflows. -/
theorem run_not_refines_large :
    ∃ buffer,
      createBuffer (2 ^ 30) 0 = some buffer ∧
        ¬ ∀ calls, Refines buffer (newFifo (2 ^ 30) 0) calls := by
  obtain ⟨buffer, created⟩ :
      ∃ buffer, createBuffer (2 ^ 30) 0 = some buffer := by
    unfold createBuffer
    exact ⟨_, if_neg (by decide)⟩
  refine ⟨buffer, created, fun refines => ?_⟩
  obtain ⟨final, performed, -⟩ := refines _
  rw [performAll_lapped (by decide) (by decide) created] at performed
  cases performed

end ApmSdk.RingBuffer
