import Mathlib.Algebra.Order.Ring.Int
import Mathlib.Data.Int.Init
import Mathlib.Data.List.Basic
import Mathlib.Tactic.Common

namespace ApmSdk

/-!
# Java arrays of samples

The Android layer moves PCM through `short[]` objects.  A length is a
nonnegative Java `int`, an allocation takes an `int` that may have wrapped, and
`System.arraycopy` checks both ranges before it moves anything.  Encoded data
is `byte[]`.
-/

/-- One 16-bit PCM sample. -/
abbrev Short := Int16

/-- The cast of an `int` to `byte`. -/
def byteOf (value : Int) : UInt8 :=
  UInt8.ofInt value

/-- The cast keeps the low eight bits. -/
@[simp]
theorem toNat_byteOf
    (value : Int) :
    (byteOf value).toNat = (value % 256).toNat := by
  have nonnegative := Int.emod_nonneg value (by decide : (256 : Int) ≠ 0)
  have small := Int.emod_lt_of_pos value (by decide : (0 : Int) < 256)
  simp only [byteOf, UInt8.ofInt, UInt8.toNat_ofNat']
  omega

/-- The unchecked exceptions that the modelled Java code can raise. -/
inductive JavaThrowable where
  | arithmetic
  | arrayIndexOutOfBounds
  | negativeArraySize
  | bufferUnderflow
  | bufferOverflow
  | nullPointer
  | illegalArgument (message : String)
  deriving Repr, DecidableEq

namespace Except

variable {ε α β : Type}

/-- A call after one that returned normally sees its result. -/
@[simp]
theorem ok_bind
    (value : α)
    (next : α → Except ε β) :
    (Except.ok value >>= next) = next value :=
  rfl

/-- A call after one that threw is not made. -/
@[simp]
theorem error_bind
    (thrown : ε)
    (next : α → Except ε β) :
    (Except.error thrown >>= next) = .error thrown :=
  rfl

/-- A sequence of two calls returns normally only if both do. -/
theorem bind_eq_ok
    {first : Except ε α}
    {next : α → Except ε β}
    {result : β} :
    (first >>= next) = .ok result ↔
      ∃ value, first = .ok value ∧ next value = .ok result := by
  cases first <;> simp

end Except

/-- A `short[]`: its length is a nonnegative Java `int`. -/
structure ShortArray where
  values : List Short
  lengthFits : values.length < 2 ^ 31
  deriving Repr, DecidableEq

namespace ShortArray

/-- The `length` field of the array. -/
@[simp]
def length (array : ShortArray) : Nat :=
  array.values.length

/-- `new short[size]`, where `size` is the result of `int` arithmetic. -/
def allocate (size : Int) : Except JavaThrowable ShortArray :=
  let wrapped := (Int32.ofInt size).toInt
  if 0 ≤ wrapped then
    .ok ⟨List.replicate wrapped.toNat 0, by
      have bound : wrapped < 2 ^ 31 :=
        Int32.toInt_lt (Int32.ofInt size)
      simp only [List.length_replicate]
      omega⟩
  else
    .error .negativeArraySize

/-- `System.arraycopy(src, srcPos, dest, destPos, length)`, returning `dest`. -/
def arraycopy
    (src : ShortArray)
    (srcPos : Nat)
    (dest : ShortArray)
    (destPos length : Nat) : Except JavaThrowable ShortArray :=
  if inBounds :
      srcPos + length ≤ src.length ∧
        destPos + length ≤ dest.length then
    .ok ⟨dest.values.take destPos ++
        ((src.values.drop srcPos).take length ++
          dest.values.drop (destPos + length)), by
      have destFits := dest.lengthFits
      simp only [ShortArray.length] at inBounds
      simp only [List.length_append, List.length_take,
        List.length_drop]
      omega⟩
  else
    .error .arrayIndexOutOfBounds

/-- Java `int` arithmetic wraps modulo `2 ^ 32`. -/
theorem toInt_ofInt_eq
    (size : Int) :
    (Int32.ofInt size).toInt = size.bmod (2 ^ 32) :=
  Int32.toInt_ofInt

/-- Allocating a size below the `int` limit yields that many zeros. -/
theorem allocate_of_lt
    {size : Nat}
    (fits : size < 2 ^ 31) :
    allocate size = .ok ⟨List.replicate size 0, by simpa using fits⟩ := by
  have wrapped : (Int32.ofInt size).toInt = size := by
    rw [toInt_ofInt_eq]
    exact Int.bmod_eq_of_le (by omega) (by omega)
  simp [allocate, wrapped]

/-- An allocation whose size wraps below zero throws. -/
theorem allocate_of_wrapped
    {size : Int}
    (wrapped : (Int32.ofInt size).toInt < 0) :
    allocate size = .error .negativeArraySize := by
  simp only [allocate, Int.not_le.mpr wrapped, if_false]

/-- A length sum that leaves the `int` range makes the allocation throw. -/
theorem allocate_of_overflow
    {size : Nat}
    (above : 2 ^ 31 ≤ size)
    (below : size < 2 ^ 32) :
    allocate size = .error .negativeArraySize := by
  apply allocate_of_wrapped
  rw [toInt_ofInt_eq, Int.bmod_def]
  split <;> omega

/-- A copy between ranges inside both arrays replaces exactly that range. -/
theorem arraycopy_of_le
    (src : ShortArray)
    (srcPos : Nat)
    (dest : ShortArray)
    (destPos length : Nat)
    (srcBound : srcPos + length ≤ src.values.length)
    (destBound : destPos + length ≤ dest.values.length) :
    ∃ copy,
      arraycopy src srcPos dest destPos length = .ok copy ∧
        copy.values =
          dest.values.take destPos ++
            ((src.values.drop srcPos).take length ++
              dest.values.drop (destPos + length)) :=
  ⟨_, dif_pos ⟨srcBound, destBound⟩, rfl⟩

/-- A copy that reaches past the end of its source throws. -/
theorem arraycopy_of_lt
    {src dest : ShortArray}
    {srcPos destPos length : Nat}
    (outside : src.values.length < srcPos + length) :
    arraycopy src srcPos dest destPos length =
      .error .arrayIndexOutOfBounds :=
  dif_neg fun inBounds => absurd inBounds.1 (Nat.not_le.mpr outside)

/-- Copying a range into a fresh array keeps exactly that range. -/
theorem allocate_arraycopy
    (src : ShortArray)
    {srcPos size : Nat}
    (inBounds : srcPos + size ≤ src.values.length) :
    ∃ copy,
      (do
        let fresh ← allocate (size : Int)
        arraycopy src srcPos fresh 0 size) = .ok copy ∧
      copy.values = (src.values.drop srcPos).take size := by
  have srcFits := src.lengthFits
  rw [allocate_of_lt (by omega : size < 2 ^ 31)]
  obtain ⟨copy, copied, values⟩ :=
    arraycopy_of_le src srcPos
      ⟨List.replicate size 0, by simp; omega⟩ 0 size
      inBounds (by simp)
  exact ⟨copy, copied, by simpa using values⟩

end ShortArray

end ApmSdk
