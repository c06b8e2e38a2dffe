import ApmSdk.ByteBuffers
import Mathlib.Data.List.Induction

namespace ApmSdk.BufferUtils

/-!
# Wrapping shorts in byte buffers

`BufferUtils` moves shorts into and out of byte buffers in the native order.
`tryReUseBuffer` keeps the buffer of an earlier call if its capacity is enough.
The shorts are put under the limit that the buffer has by then; the new limit is
set afterwards.
-/

variable (nativeOrder : ByteOrder)

/-- `BufferUtils.getBuffer`; the buffer keeps the order it is given. -/
def getBuffer
    (buffer : Option ByteBuffer)
    (length : Int) :
    Except JavaThrowable (Option (ShortArray × ByteBuffer)) :=
  match buffer with
  | none => .ok none
  | some buffer => do
      let shorts ← ShortArray.allocate (length.tdiv 2)
      let ordered := buffer.setOrder nativeOrder
      let filled ← ordered.getShorts shorts
      .ok (some (filled, ordered))

/-- `BufferUtils.wrapBuffer` -/
def wrapBuffer
    (shorts : ShortArray) : Except JavaThrowable ByteBuffer := do
  let byteBuffer ← ByteBuffer.allocateDirect (shorts.length * 2)
  let written ← (byteBuffer.setOrder nativeOrder).putShorts shorts
  written.setPosition 0

/-- `BufferUtils.tryReUseBuffer` -/
def tryReUseBuffer
    (buffer : Option ByteBuffer)
    (shorts : ShortArray) : Except JavaThrowable ByteBuffer :=
  let bufferLength := (Int32.ofInt (shorts.length * 2)).toInt
  match buffer with
  | some buffer =>
      if bufferLength ≤ buffer.capacity then do
        let rewound ← buffer.setPosition 0
        let written ← (rewound.setOrder nativeOrder).putShorts shorts
        written.setLimit bufferLength
      else
        wrapBuffer nativeOrder shorts
  | none => wrapBuffer nativeOrder shorts

/-- The buffer holds the shorts and nothing else. -/
structure Holds (buffer : ByteBuffer) (shorts : ShortArray) : Prop where
  position : buffer.position = 0
  limit : buffer.limit = 2 * shorts.length
  read :
    (getBuffer nativeOrder (some buffer) (2 * shorts.length)).map
        (Option.map Prod.fst) =
      .ok (some shorts)

/-- The call returns a buffer that holds the shorts. -/
def Wraps
    (buffer : Option ByteBuffer)
    (shorts : ShortArray) : Prop :=
  ∃ returned,
    tryReUseBuffer nativeOrder buffer shorts = .ok returned ∧
      Holds nativeOrder returned shorts

/--
The shorts fit into an `int` number of bytes, and a buffer whose capacity is
enough for them has a limit that is enough.
-/
def Fits
    (buffer : Option ByteBuffer)
    (shorts : ShortArray) : Prop :=
  shorts.length < 2 ^ 30 ∧
    ∀ old ∈ buffer,
      old.capacity < 2 * shorts.length ∨ 2 * shorts.length ≤ old.limit

/-- A buffer that begins with the shorts, up to its limit, holds them. -/
theorem holds_of_bytes
    {buffer : ByteBuffer}
    {shorts : ShortArray}
    {rest : List UInt8}
    (position : buffer.position = 0)
    (limit : buffer.limit = 2 * shorts.length)
    (bytes : buffer.bytes = nativeOrder.encode shorts.values ++ rest) :
    Holds nativeOrder buffer shorts := by
  refine ⟨position, limit, ?_⟩
  have size : shorts.length < 2 ^ 31 := shorts.lengthFits
  have half : (2 * (shorts.length : Int)).tdiv 2 = shorts.length :=
    Int.mul_tdiv_cancel_left _ (by decide)
  have enough :
      shorts.values.length ≤
        (buffer.setOrder nativeOrder).remaining / 2 := by
    simp only [ByteBuffer.setOrder, ByteBuffer.remaining, position, limit,
      ShortArray.length]
    omega
  simp only [getBuffer, half]
  rw [ShortArray.allocate_of_lt size, Except.ok_bind,
    ByteBuffer.getShorts, if_pos (by simpa using enough)]
  simp [Except.map, ByteBuffer.setOrder, position, bytes]

/-- A new buffer holds shorts that an `int` can count the bytes of. -/
theorem wrapBuffer_of_lt
    {shorts : ShortArray}
    (fits : shorts.length < 2 ^ 30) :
    ∃ returned,
      wrapBuffer nativeOrder shorts = .ok returned ∧
        Holds nativeOrder returned shorts ∧
          returned.bytes = nativeOrder.encode shorts.values := by
  have size : shorts.length * 2 < 2 ^ 31 := by
    omega
  let fresh : ByteBuffer :=
    (ByteBuffer.wrap ⟨List.replicate (shorts.length * 2) 0, by
      simpa using size⟩).setOrder nativeOrder
  have capacity : fresh.limit = shorts.length * 2 :=
    List.length_replicate
  have room : shorts.length ≤ fresh.remaining / 2 := by
    have start : fresh.position = 0 := rfl
    rw [ByteBuffer.remaining, capacity, start]
    omega
  obtain ⟨written, put, position, limit, bytes⟩ :=
    ByteBuffer.putShorts_of_le room
  have start : written.position = 0 := position
  have rewound : written.setPosition 0 = .ok written := by
    rw [ByteBuffer.setPosition, dif_pos (Nat.zero_le _)]
    exact congrArg Except.ok (by cases written; simp_all)
  refine ⟨written, ?_, ?_, ?_⟩
  · have bytesCounted :
        (shorts.length : Int) * 2 = (shorts.length * 2 : Nat) := by
      omega
    rw [wrapBuffer, bytesCounted, ByteBuffer.allocateDirect_of_lt size,
      Except.ok_bind]
    show (fresh.putShorts shorts >>= (·.setPosition 0)) = _
    rw [put, Except.ok_bind, rewound]
  · exact holds_of_bytes nativeOrder start
      (by rw [limit, capacity, Nat.mul_comm]) bytes
  · have whole :
        fresh.bytes.drop (fresh.position + 2 * shorts.length) = [] := by
      apply List.drop_eq_nil_of_le
      simp [fresh, ByteBuffer.setOrder, ByteBuffer.wrap]
      omega
    rw [bytes, whole, List.append_nil]
    exact List.nil_append _

/-- A new buffer cannot be made for more shorts than that. -/
theorem wrapBuffer_of_ge
    {shorts : ShortArray}
    (large : 2 ^ 30 ≤ shorts.length) :
    wrapBuffer nativeOrder shorts =
      .error (.illegalArgument "capacity < 0") := by
  have size := shorts.lengthFits
  have overflow :
      ByteBuffer.allocateDirect ((shorts.length * 2 : Nat) : Int) =
        .error (.illegalArgument "capacity < 0") :=
    ByteBuffer.allocateDirect_of_overflow (by omega)
      (by simp only [ShortArray.length]; omega)
  have bytesCounted :
      (shorts.length : Int) * 2 = (shorts.length * 2 : Nat) := by
    omega
  rw [wrapBuffer, bytesCounted, overflow, Except.error_bind]

/-- The number of bytes is exact below `2 ^ 30` shorts. -/
theorem bufferLength_of_lt
    {shorts : ShortArray}
    (fits : shorts.length < 2 ^ 30) :
    (Int32.ofInt ((shorts.length : Int) * 2)).toInt =
      (2 * shorts.length : Nat) := by
  rw [ShortArray.toInt_ofInt_eq]
  rw [Int.bmod_eq_of_le (by omega) (by omega)]
  omega

/-- From `2 ^ 30` shorts on it is negative. -/
theorem bufferLength_of_ge
    {shorts : ShortArray}
    (large : 2 ^ 30 ≤ shorts.length) :
    (Int32.ofInt ((shorts.length : Int) * 2)).toInt < 0 := by
  have size : shorts.length < 2 ^ 31 := shorts.lengthFits
  rw [ShortArray.toInt_ofInt_eq, Int.bmod_def]
  split <;> omega

/-- A buffer whose limit is enough is kept. -/
theorem tryReUseBuffer_of_le_limit
    {old : ByteBuffer}
    {shorts : ShortArray}
    (fits : shorts.length < 2 ^ 30)
    (room : 2 * shorts.length ≤ old.limit) :
    ∃ returned,
      tryReUseBuffer nativeOrder (some old) shorts = .ok returned ∧
        Holds nativeOrder returned shorts ∧
          returned.capacity = old.capacity := by
  have enough : 2 * shorts.length ≤ old.capacity :=
    Nat.le_trans room old.limitFits
  let rewound : ByteBuffer :=
    { old with position := 0, positionFits := Nat.zero_le _ }
  have view :
      shorts.length ≤ (rewound.setOrder nativeOrder).remaining / 2 := by
    have start : (rewound.setOrder nativeOrder).position = 0 := rfl
    have limit : (rewound.setOrder nativeOrder).limit = old.limit := rfl
    rw [ByteBuffer.remaining, start, limit]
    omega
  obtain ⟨written, put, position, -, bytes⟩ :=
    ByteBuffer.putShorts_of_le view
  have sameCapacity : written.capacity = old.capacity := by
    have start : (rewound.setOrder nativeOrder).position = 0 := rfl
    rw [ByteBuffer.capacity, bytes, start]
    simp only [List.take_zero, List.nil_append, List.length_append,
      ByteOrder.length_encode, List.length_drop]
    have whole :
        (rewound.setOrder nativeOrder).bytes.length = old.capacity := rfl
    rw [whole]
    simp only [ShortArray.length] at enough ⊢
    omega
  have within : 2 * shorts.length ≤ written.capacity := by
    rw [sameCapacity]
    exact enough
  obtain ⟨returned, limited, returnedPosition, limit, sameBytes⟩ :=
    ByteBuffer.setLimit_of_le within
  refine ⟨returned, ?_, ?_, ?_⟩
  · have start : old.setPosition 0 = .ok rewound :=
      dif_pos (Nat.zero_le _)
    simp only [tryReUseBuffer]
    rw [bufferLength_of_lt fits, if_pos (by omega), start, Except.ok_bind,
      put, Except.ok_bind, limited]
  · refine holds_of_bytes nativeOrder ?_ limit (sameBytes.trans bytes)
    rw [returnedPosition, position]
    exact Nat.zero_min _
  · rw [ByteBuffer.capacity, sameBytes]
    exact sameCapacity

/-- Shorts beyond the limit are refused where the capacity admits them. -/
theorem tryReUseBuffer_of_limit_lt
    {old : ByteBuffer}
    {shorts : ShortArray}
    (reused :
      (Int32.ofInt ((shorts.length : Int) * 2)).toInt ≤ old.capacity)
    (short : old.limit < 2 * shorts.length) :
    tryReUseBuffer nativeOrder (some old) shorts =
      .error .bufferOverflow := by
  let rewound : ByteBuffer :=
    { old with position := 0, positionFits := Nat.zero_le _ }
  have start : old.setPosition 0 = .ok rewound :=
    dif_pos (Nat.zero_le _)
  have refused :
      (rewound.setOrder nativeOrder).putShorts shorts =
        .error .bufferOverflow := by
    refine dif_neg ?_
    have zero : (rewound.setOrder nativeOrder).position = 0 := rfl
    have limit : (rewound.setOrder nativeOrder).limit = old.limit := rfl
    rw [ByteBuffer.remaining, zero, limit]
    omega
  simp only [tryReUseBuffer]
  rw [if_pos reused, start, Except.ok_bind, refused, Except.error_bind]

/-- A buffer whose capacity is not enough is given up. -/
theorem tryReUseBuffer_of_capacity_lt
    {old : ByteBuffer}
    {shorts : ShortArray}
    (fits : shorts.length < 2 ^ 30)
    (small : old.capacity < 2 * shorts.length) :
    tryReUseBuffer nativeOrder (some old) shorts =
      wrapBuffer nativeOrder shorts := by
  simp only [tryReUseBuffer]
  rw [bufferLength_of_lt fits, if_neg (by omega)]

/-- Every call wraps its shorts exactly if they fit. -/
theorem wraps_iff_fits
    (buffer : Option ByteBuffer)
    (shorts : ShortArray) :
    Wraps nativeOrder buffer shorts ↔ Fits buffer shorts := by
  by_cases fits : shorts.length < 2 ^ 30
  · obtain ⟨fresh, wrapped, freshHolds, -⟩ :=
      wrapBuffer_of_lt nativeOrder fits
    cases buffer with
    | none =>
        exact iff_of_true ⟨fresh, wrapped, freshHolds⟩ ⟨fits, by simp⟩
    | some old =>
        by_cases small : old.capacity < 2 * shorts.length
        · rw [Wraps, tryReUseBuffer_of_capacity_lt nativeOrder fits small]
          exact iff_of_true ⟨fresh, wrapped, freshHolds⟩
            ⟨fits, by simpa using Or.inl small⟩
        · by_cases room : 2 * shorts.length ≤ old.limit
          · obtain ⟨returned, reused, holds, -⟩ :=
              tryReUseBuffer_of_le_limit nativeOrder fits room
            exact iff_of_true ⟨returned, reused, holds⟩
              ⟨fits, by simpa using Or.inr room⟩
          · rw [Wraps,
              tryReUseBuffer_of_limit_lt nativeOrder
                (by rw [bufferLength_of_lt fits]; omega) (by omega)]
            refine iff_of_false (by simp) ?_
            rintro ⟨-, enough⟩
            rcases enough old rfl with isSmall | isRoom
            · exact small isSmall
            · exact room isRoom
  · refine iff_of_false ?_ fun admitted => fits admitted.1
    have large : 2 ^ 30 ≤ shorts.length := Nat.le_of_not_lt fits
    rintro ⟨returned, wrapped, -⟩
    cases buffer with
    | none =>
        rw [tryReUseBuffer, wrapBuffer_of_ge nativeOrder large] at wrapped
        cases wrapped
    | some old =>
        have negative := bufferLength_of_ge large
        have limitFits := old.limitFits
        have capacityFits := old.capacityFits
        rw [tryReUseBuffer_of_limit_lt nativeOrder (by omega)
          (by omega)] at wrapped
        cases wrapped

/-- The capacity a call leaves, with that of no buffer being zero. -/
theorem capacity_of_wraps
    {buffer : Option ByteBuffer}
    {shorts : ShortArray}
    {returned : ByteBuffer}
    (fits : Fits buffer shorts)
    (wrapped : tryReUseBuffer nativeOrder buffer shorts = .ok returned) :
    returned.capacity =
      max (2 * shorts.length) (buffer.elim 0 ByteBuffer.capacity) := by
  obtain ⟨few, room⟩ := fits
  obtain ⟨fresh, allocated, -, bytes⟩ :=
    wrapBuffer_of_lt nativeOrder few
  have capacity : fresh.capacity = 2 * shorts.length := by
    rw [ByteBuffer.capacity, bytes]
    exact nativeOrder.length_encode _
  cases buffer with
  | none =>
      rw [tryReUseBuffer, allocated] at wrapped
      cases wrapped
      exact capacity.trans (Nat.max_zero _).symm
  | some old =>
      simp only [Option.elim_some]
      rcases room old rfl with small | enough
      · rw [tryReUseBuffer_of_capacity_lt nativeOrder few small,
          allocated] at wrapped
        cases wrapped
        exact capacity.trans (Nat.max_eq_left (Nat.le_of_lt small)).symm
      · obtain ⟨kept, reused, -, sameCapacity⟩ :=
          tryReUseBuffer_of_le_limit nativeOrder few enough
        rw [reused] at wrapped
        cases wrapped
        have limitFits : old.limit ≤ old.capacity := old.limitFits
        rw [sameCapacity]
        omega

/-- Wrap arrays one after another into the buffer of the call before. -/
def wrapAll
    (arrays : List ShortArray) :
    Except JavaThrowable (Option ByteBuffer) :=
  arrays.foldlM
    (fun buffer shorts =>
      (tryReUseBuffer nativeOrder buffer shorts).map some)
    none

/--
Each array has fewer than `2 ^ 30` shorts, and is longer than every earlier one
or no longer than the one before it.
-/
def Steady (arrays : List ShortArray) : Prop :=
  ∀ earlier shorts later,
    arrays = earlier ++ shorts :: later →
      shorts.length < 2 ^ 30 ∧
        ((∀ old ∈ earlier, old.length < shorts.length) ∨
          ∃ last ∈ earlier.getLast?, shorts.length ≤ last.length)

/-- What the arrays wrapped so far say about the buffer they left. -/
structure LeftBy
    (arrays : List ShortArray)
    (buffer : Option ByteBuffer) : Prop where
  limit :
    ∀ last ∈ arrays.getLast?,
      ∃ old ∈ buffer, old.limit = 2 * last.length
  present : ∀ old ∈ buffer, ∃ last, arrays.getLast? = some last
  capacity :
    ∀ old ∈ buffer, ∀ count,
      old.capacity < 2 * count ↔
        ∀ shorts ∈ arrays, shorts.length < count

/-- Before the first array there is no buffer, and only then. -/
theorem LeftBy.eq_nil
    {arrays : List ShortArray}
    (left : LeftBy arrays none) :
    arrays = [] := by
  cases shape : arrays.getLast? with
  | none =>
      exact List.getLast?_eq_none_iff.mp shape
  | some last =>
      obtain ⟨old, absent, -⟩ := left.limit last shape
      cases absent

/-- Each call leaves its own limit, and the largest capacity so far. -/
theorem leftBy_of_wraps
    {arrays : List ShortArray}
    {buffer : Option ByteBuffer}
    {shorts : ShortArray}
    {returned : ByteBuffer}
    (left : LeftBy arrays buffer)
    (wraps : Wraps nativeOrder buffer shorts)
    (wrapped : tryReUseBuffer nativeOrder buffer shorts = .ok returned) :
    LeftBy (arrays ++ [shorts]) (some returned) := by
  have capacity :=
    capacity_of_wraps nativeOrder
      ((wraps_iff_fits nativeOrder buffer shorts).mp wraps) wrapped
  obtain ⟨holder, same, holds⟩ := wraps
  rw [wrapped] at same
  cases same
  constructor
  · intro last isLast
    rw [List.getLast?_concat] at isLast
    cases isLast
    exact ⟨returned, rfl, holds.limit⟩
  · exact fun old _ => ⟨shorts, List.getLast?_concat⟩
  · intro old isReturned count
    cases isReturned
    simp only [List.mem_append, List.mem_singleton]
    rw [capacity]
    cases buffer with
    | none =>
        simp [left.eq_nil]
    | some old =>
        have before := left.capacity old rfl count
        simp only [Option.elim_some, Nat.max_lt, before]
        constructor
        · rintro ⟨lower, others⟩ array (inOthers | rfl)
          · exact others array inOthers
          · omega
        · intro all
          have own := all shorts (Or.inr rfl)
          exact ⟨by omega, fun array inOthers =>
            all array (Or.inl inOthers)⟩

/-- Whether the next array fits is decided by the arrays wrapped so far. -/
theorem fits_iff_of_leftBy
    {arrays : List ShortArray}
    {buffer : Option ByteBuffer}
    {shorts : ShortArray}
    (left : LeftBy arrays buffer) :
    Fits buffer shorts ↔
      shorts.length < 2 ^ 30 ∧
        ((∀ old ∈ arrays, old.length < shorts.length) ∨
          ∃ last ∈ arrays.getLast?, shorts.length ≤ last.length) := by
  refine and_congr_right fun _ => ?_
  cases buffer with
  | none =>
      simp [left.eq_nil]
  | some old =>
      obtain ⟨last, isLast⟩ := left.present old rfl
      obtain ⟨limited, isOld, limit⟩ := left.limit last isLast
      cases isOld
      simp only [Option.mem_some_iff, forall_eq', isLast,
        left.capacity old rfl shorts.length, limit]
      constructor
      · rintro (above | within)
        · exact Or.inl above
        · exact Or.inr ⟨last, rfl, by omega⟩
      · rintro (above | ⟨_, rfl, within⟩)
        · exact Or.inl above
        · exact Or.inr (by omega)

/-- Every call of the sequence returns a buffer that holds its array. -/
def AllWrap (arrays : List ShortArray) : Prop :=
  ∀ earlier shorts later,
    arrays = earlier ++ shorts :: later →
      ∃ buffer,
        wrapAll nativeOrder earlier = .ok buffer ∧
          Wraps nativeOrder buffer shorts

/-- The last call goes on from the buffer of the others. -/
theorem wrapAll_concat
    (arrays : List ShortArray)
    (shorts : ShortArray) :
    wrapAll nativeOrder (arrays ++ [shorts]) =
      (do
        let buffer ← wrapAll nativeOrder arrays
        (tryReUseBuffer nativeOrder buffer shorts).map some) := by
  rw [wrapAll, List.foldlM_append]
  refine congrArg (wrapAll nativeOrder arrays >>= ·) (funext fun buffer => ?_)
  rw [List.foldlM_cons]
  cases (tryReUseBuffer nativeOrder buffer shorts).map some <;>
    rfl

/-- A sequence ends at its last array, or the last array is beyond the cut. -/
theorem cut_concat
    {arrays earlier later : List ShortArray}
    {last shorts : ShortArray}
    (shape : arrays ++ [last] = earlier ++ shorts :: later) :
    (arrays = earlier ∧ last = shorts) ∨
      ∃ rest, arrays = earlier ++ shorts :: rest := by
  rcases List.eq_nil_or_concat later with rfl | ⟨rest, final, rfl⟩
  · obtain ⟨sameArrays, sameLast⟩ := List.append_inj' shape rfl
    exact Or.inl ⟨sameArrays, by simpa using sameLast⟩
  · refine Or.inr ⟨rest, ?_⟩
    have regrouped :
        arrays ++ [last] = (earlier ++ shorts :: rest) ++ [final] := by
      rw [shape, List.concat_eq_append, List.append_assoc,
        List.cons_append]
    exact (List.append_inj' regrouped rfl).1

/-- A sequence that wraps all its arrays leaves the buffer they determine. -/
theorem leftBy_of_allWrap
    {arrays : List ShortArray}
    (all : AllWrap nativeOrder arrays) :
    ∃ buffer,
      wrapAll nativeOrder arrays = .ok buffer ∧
        LeftBy arrays buffer := by
  induction arrays using List.reverseRecOn with
  | nil =>
      exact ⟨none, rfl, by simp, by simp, by simp⟩
  | append_singleton arrays shorts inductionHypothesis =>
      obtain ⟨buffer, wrapped, left⟩ :=
        inductionHypothesis fun earlier array later shape =>
          all earlier array (later ++ [shorts]) (by simp [shape])
      obtain ⟨same, wrappedSame, wraps⟩ := all arrays shorts [] rfl
      rw [wrapped] at wrappedSame
      cases wrappedSame
      obtain ⟨returned, taken, -⟩ := id wraps
      refine ⟨some returned, ?_, leftBy_of_wraps nativeOrder left wraps taken⟩
      rw [wrapAll_concat, wrapped, Except.ok_bind, taken]
      rfl

/-- Steady sequences wrap all their arrays. -/
theorem allWrap_of_steady
    {arrays : List ShortArray}
    (steady : Steady arrays) :
    AllWrap nativeOrder arrays := by
  induction arrays using List.reverseRecOn with
  | nil =>
      intro earlier shorts later shape
      simp at shape
  | append_singleton arrays last inductionHypothesis =>
      have before : AllWrap nativeOrder arrays :=
        inductionHypothesis fun earlier array later shape =>
          steady earlier array (later ++ [last]) (by simp [shape])
      intro earlier shorts later shape
      rcases cut_concat shape with ⟨rfl, rfl⟩ | ⟨rest, inArrays⟩
      · obtain ⟨buffer, wrapped, left⟩ := leftBy_of_allWrap nativeOrder before
        exact ⟨buffer, wrapped,
          (wraps_iff_fits nativeOrder buffer last).mpr
            ((fits_iff_of_leftBy left).mpr (steady arrays last [] rfl))⟩
      · exact before earlier shorts rest inArrays

/--
A call wraps its array exactly if the array fits into the buffer it is given,
with whatever limit that has; and a sequence of calls that pass the buffer on
wraps all its arrays exactly if it is steady.
-/
theorem tryReUseBuffer_wraps_iff
    (buffer : Option ByteBuffer)
    (shorts : ShortArray)
    (arrays : List ShortArray) :
    (Wraps nativeOrder buffer shorts ↔ Fits buffer shorts) ∧
      (AllWrap nativeOrder arrays ↔ Steady arrays) := by
  refine ⟨wraps_iff_fits nativeOrder buffer shorts, ?_,
    allWrap_of_steady nativeOrder⟩
  intro all earlier array later shape
  obtain ⟨before, wrapped, wraps⟩ := all earlier array later shape
  have allEarlier : AllWrap nativeOrder earlier :=
    fun first second third inEarlier =>
      all first second (third ++ array :: later)
        (by rw [shape, inEarlier]; simp)
  obtain ⟨left, wrappedLeft, leftBy⟩ :=
    leftBy_of_allWrap nativeOrder allEarlier
  rw [wrapped] at wrappedLeft
  cases wrappedLeft
  exact (fits_iff_of_leftBy leftBy).mp
    ((wraps_iff_fits nativeOrder before array).mp wraps)

/-- Arrays of one short, of none and of one short again. -/
def oneNoneOne : List ShortArray :=
  [⟨[7], by decide⟩, ⟨[], by decide⟩, ⟨[9], by decide⟩]

/-- The third of these arrays is refused by the limit that the second has left. -/
theorem oneNoneOne_refused :
    wrapAll .littleEndian oneNoneOne = .error .bufferOverflow ∧
      ¬ AllWrap .littleEndian oneNoneOne := by
  have refused :
      wrapAll .littleEndian oneNoneOne = .error .bufferOverflow := by
    rfl
  refine ⟨refused, fun all => ?_⟩
  obtain ⟨buffer, wrapped, -⟩ := leftBy_of_allWrap .littleEndian all
  rw [refused] at wrapped
  cases wrapped

end ApmSdk.BufferUtils
