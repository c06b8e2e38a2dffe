import ApmSdk.JavaArrays

namespace ApmSdk

/-!
# Byte buffers

A `ByteBuffer` of `java.nio` holds bytes between a position and a limit.  Shorts
go through a view of the bytes between the two, in the byte order the buffer has
when the view is made; a view has a position of its own.
-/

/-- `java.nio.ByteOrder` -/
inductive ByteOrder where
  | littleEndian
  | bigEndian
  deriving Repr, DecidableEq

namespace ByteOrder

variable (order : ByteOrder)

/-- The two bytes of a short. -/
def shortBytes (value : Short) : List UInt8 :=
  let low := value.toUInt16.toUInt8
  let high := (value.toUInt16 >>> 8).toUInt8
  match order with
  | .littleEndian => [low, high]
  | .bigEndian => [high, low]

/-- The short that two bytes make up. -/
def shortOf (first second : UInt8) : Short :=
  match order with
  | .littleEndian => Int16.ofNat (first.toNat + 256 * second.toNat)
  | .bigEndian => Int16.ofNat (second.toNat + 256 * first.toNat)

/-- Shorts as bytes. -/
def encode (shorts : List Short) : List UInt8 :=
  shorts.flatMap order.shortBytes

/-- Bytes as shorts; an odd last byte makes none. -/
def decode : List UInt8 → List Short
  | first :: second :: rest => order.shortOf first second :: decode rest
  | _ => []

/-- A short takes two bytes. -/
@[simp]
theorem length_encode
    (shorts : List Short) :
    (order.encode shorts).length = 2 * shorts.length := by
  have two : ∀ value, (order.shortBytes value).length = 2 := by
    intro value
    cases order <;>
      rfl
  simp [encode, List.length_flatMap, two, Nat.mul_comm]

/-- Two bytes make a short. -/
@[simp]
theorem length_decode
    (bytes : List UInt8) :
    (order.decode bytes).length = bytes.length / 2 := by
  fun_induction decode order bytes with
  | case1 first second rest inductionHypothesis =>
      simp only [List.length_cons, inductionHypothesis]
      omega
  | case2 bytes short =>
      match bytes, short with
      | [], _ => simp
      | [_], _ => simp
      | first :: second :: rest, short =>
          exact (short first second rest rfl).elim

/-- A short is made of its low and its high byte. -/
theorem ofNat_low_high
    (value : Short) :
    Int16.ofNat
        (value.toUInt16.toUInt8.toNat +
          256 * (value.toUInt16 >>> 8).toUInt8.toNat) =
      value := by
  have small := value.toUInt16.toNat_lt
  have word :
      value.toUInt16.toUInt8.toNat +
          256 * (value.toUInt16 >>> 8).toUInt8.toNat =
        value.toUInt16.toNat := by
    simp only [UInt16.toNat_toUInt8, UInt16.toNat_shiftRight,
      Nat.shiftRight_eq_div_pow]
    have eight : (8 : UInt16).toNat % 16 = 8 := by
      decide
    rw [eight]
    omega
  rw [word]
  apply Int16.toBitVec.inj
  simp [Int16.ofNat]

/-- The bytes of a short make it up again. -/
theorem decode_shortBytes_append
    (value : Short)
    (rest : List UInt8) :
    order.decode (order.shortBytes value ++ rest) =
      value :: order.decode rest := by
  cases order <;>
    exact congrArg (· :: decode _ rest) (ofNat_low_high value)

/-- Shorts read back from their bytes are the same. -/
@[simp]
theorem decode_encode_append
    (shorts : List Short)
    (rest : List UInt8) :
    order.decode (order.encode shorts ++ rest) =
      shorts ++ order.decode rest := by
  induction shorts with
  | nil =>
      rfl
  | cons value shorts inductionHypothesis =>
      have unfolded :
          order.encode (value :: shorts) =
            order.shortBytes value ++ order.encode shorts :=
        List.flatMap_cons
      rw [unfolded, List.append_assoc, decode_shortBytes_append,
        inductionHypothesis, List.cons_append]

end ByteOrder

/-- A `byte[]`: its length is a nonnegative Java `int`. -/
structure JavaBytes where
  values : List UInt8
  lengthFits : values.length < 2 ^ 31
  deriving Repr, DecidableEq

/-- A `ByteBuffer`; its capacity is the number of its bytes. -/
structure ByteBuffer where
  bytes : List UInt8
  position : Nat
  limit : Nat
  order : ByteOrder
  positionFits : position ≤ limit
  limitFits : limit ≤ bytes.length
  capacityFits : bytes.length < 2 ^ 31
  deriving DecidableEq

namespace ByteBuffer

/-- `capacity` -/
@[simp]
def capacity (buffer : ByteBuffer) : Nat :=
  buffer.bytes.length

/-- `remaining` -/
@[simp]
def remaining (buffer : ByteBuffer) : Nat :=
  buffer.limit - buffer.position

/-- `ByteBuffer.wrap` -/
def wrap (array : JavaBytes) : ByteBuffer where
  bytes := array.values
  position := 0
  limit := array.values.length
  order := .bigEndian
  positionFits := Nat.zero_le _
  limitFits := Nat.le_refl _
  capacityFits := array.lengthFits

/-- As many zeros as an `int` says fit into an array. -/
theorem zeros_fit (capacity : Int) :
    (List.replicate (Int32.ofInt capacity).toInt.toNat (0 : UInt8)).length < 2 ^ 31 := by
  have bound := Int32.toInt_lt (Int32.ofInt capacity)
  rw [List.length_replicate]
  omega

/-- `ByteBuffer.allocateDirect`, where `capacity` is the result of `int` arithmetic. -/
def allocateDirect (capacity : Int) : Except JavaThrowable ByteBuffer :=
  let wrapped := (Int32.ofInt capacity).toInt
  if 0 ≤ wrapped then
    .ok (wrap ⟨List.replicate wrapped.toNat 0, zeros_fit capacity⟩)
  else
    .error (.illegalArgument "capacity < 0")

/-- `position(int)` -/
def setPosition
    (buffer : ByteBuffer)
    (newPosition : Nat) : Except JavaThrowable ByteBuffer :=
  if fits : newPosition ≤ buffer.limit then
    .ok { buffer with position := newPosition, positionFits := fits }
  else
    .error (.illegalArgument "newPosition > limit")

/-- `limit(int)`: a position beyond the new limit is moved back to it. -/
def setLimit
    (buffer : ByteBuffer)
    (newLimit : Int) : Except JavaThrowable ByteBuffer :=
  if fits : 0 ≤ newLimit ∧ newLimit ≤ buffer.capacity then
    .ok { buffer with
      position := min buffer.position newLimit.toNat
      limit := newLimit.toNat
      positionFits := Nat.min_le_right _ _
      limitFits := Int.toNat_le.mpr fits.2 }
  else
    .error (.illegalArgument "newLimit > capacity")

/-- `order(ByteOrder)` -/
def setOrder
    (buffer : ByteBuffer)
    (order : ByteOrder) : ByteBuffer :=
  { buffer with order }

/-- `asShortBuffer().put(shorts)` -/
def putShorts
    (buffer : ByteBuffer)
    (shorts : ShortArray) : Except JavaThrowable ByteBuffer :=
  if fits : shorts.length ≤ buffer.remaining / 2 then
    .ok { buffer with
      bytes :=
        buffer.bytes.take buffer.position ++
          (buffer.order.encode shorts.values ++
            buffer.bytes.drop (buffer.position + 2 * shorts.length))
      limitFits := by
        have limitFits := buffer.limitFits
        simp only [ShortArray.length, remaining] at fits
        simp only [List.length_append, List.length_take, List.length_drop,
          ByteOrder.length_encode, ShortArray.length]
        omega
      capacityFits := by
        have limitFits := buffer.limitFits
        have capacityFits := buffer.capacityFits
        simp only [ShortArray.length, remaining] at fits
        simp only [List.length_append, List.length_take, List.length_drop,
          ByteOrder.length_encode, ShortArray.length]
        omega }
  else
    .error .bufferOverflow

/-- `get(dest, 0, length)` into a new array of this length. -/
def getBytes
    (buffer : ByteBuffer)
    (length : Nat) : Except JavaThrowable JavaBytes :=
  if length ≤ buffer.remaining then
    .ok ⟨(buffer.bytes.drop buffer.position).take length, by
      have limitFits := buffer.limitFits
      have capacityFits := buffer.capacityFits
      simp only [List.length_take, List.length_drop]
      omega⟩
  else
    .error .bufferUnderflow

/-- `asShortBuffer().get(dest)`, returning `dest`. -/
def getShorts
    (buffer : ByteBuffer)
    (dest : ShortArray) : Except JavaThrowable ShortArray :=
  if dest.length ≤ buffer.remaining / 2 then
    .ok ⟨(buffer.order.decode
        (buffer.bytes.drop buffer.position)).take dest.length, by
      have destFits := dest.lengthFits
      simp only [List.length_take, ShortArray.length]
      omega⟩
  else
    .error .bufferUnderflow

/-- A capacity in the `int` range is allocated, in zeros. -/
theorem allocateDirect_of_lt
    {size : Nat}
    (fits : size < 2 ^ 31) :
    allocateDirect size =
      .ok (wrap ⟨List.replicate size 0, by simpa using fits⟩) := by
  have wrapped : (Int32.ofInt size).toInt = size := by
    rw [ShortArray.toInt_ofInt_eq]
    exact Int.bmod_eq_of_le (by omega) (by omega)
  simp [allocateDirect, wrapped]

/-- A capacity that leaves the `int` range wraps below zero. -/
theorem allocateDirect_of_overflow
    {size : Nat}
    (above : 2 ^ 31 ≤ size)
    (below : size < 2 ^ 32) :
    allocateDirect size = .error (.illegalArgument "capacity < 0") := by
  have wrapped : ¬ 0 ≤ (Int32.ofInt size).toInt := by
    rw [ShortArray.toInt_ofInt_eq, Int.bmod_def]
    split <;> omega
  simp only [allocateDirect, wrapped, if_false]

/-- Shorts for which there is room replace the bytes from the position on. -/
theorem putShorts_of_le
    {buffer : ByteBuffer}
    {shorts : ShortArray}
    (fits : shorts.length ≤ buffer.remaining / 2) :
    ∃ written,
      buffer.putShorts shorts = .ok written ∧
        written.position = buffer.position ∧
          written.limit = buffer.limit ∧
            written.bytes =
              buffer.bytes.take buffer.position ++
                (buffer.order.encode shorts.values ++
                  buffer.bytes.drop
                    (buffer.position + 2 * shorts.length)) :=
  ⟨_, dif_pos fits, rfl, rfl, rfl⟩

/-- A limit within the capacity is taken over. -/
theorem setLimit_of_le
    {buffer : ByteBuffer}
    {newLimit : Nat}
    (fits : newLimit ≤ buffer.capacity) :
    ∃ limited,
      buffer.setLimit newLimit = .ok limited ∧
        limited.position = min buffer.position newLimit ∧
          limited.limit = newLimit ∧
            limited.bytes = buffer.bytes :=
  ⟨_, dif_pos ⟨by omega, by omega⟩, rfl, rfl, rfl⟩

end ByteBuffer

end ApmSdk
