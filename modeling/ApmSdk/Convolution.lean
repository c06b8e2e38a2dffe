import ApmSdk.DelayLine
import Mathlib.Algebra.BigOperators.Ring.Finset
import Mathlib.Algebra.BigOperators.Group.Finset.Sigma
import Mathlib.Data.List.GetD
import Mathlib.Tactic.Common

namespace ApmSdk.Convolution

/-!
# Convolutions of streams

A stream starts at index zero, with zeros before.  A kernel that is made of a few impulses
needs a sum over these impulses alone.  A filter that is handed the stream in blocks finds
what it needs of the earlier ones in a delay line.
-/

variable {Sample : Type*} [Semiring Sample]

/-- What a stream has had at an index, some samples before. -/
def delayed (stream : List Sample) (index lag : Nat) : Sample :=
  if lag ≤ index then stream.getD (index - lag) 0 else 0

/-- The convolution of a stream with a kernel. -/
def convolution
    (stream : List Sample)
    (kernel : Nat → Sample)
    (index : Nat) : Sample :=
  ∑ lag ∈ Finset.range (index + 1), stream.getD (index - lag) 0 * kernel lag

/-- A kernel with a coefficient at each of some lags. -/
def impulses
    (coefficients : List Sample)
    (lagOf : Nat → Nat)
    (lag : Nat) : Sample :=
  ∑ j ∈ Finset.range coefficients.length,
    if lag = lagOf j then coefficients.getD j 0 else 0

variable {coefficients stream : List Sample} {lagOf : Nat → Nat}

/-- A convolution with impulses is a sum over these. -/
theorem convolution_impulses (index : Nat) :
    convolution stream (impulses coefficients lagOf) index =
      ∑ j ∈ Finset.range coefficients.length,
        delayed stream index (lagOf j) * coefficients.getD j 0 := by
  unfold convolution impulses
  simp only [Finset.mul_sum]
  rw [Finset.sum_comm]
  refine Finset.sum_congr rfl fun j _ => ?_
  simp only [mul_ite, mul_zero, Finset.sum_ite_eq', Finset.mem_range,
    Nat.lt_succ_iff, delayed, ite_mul, zero_mul]

/-! ## Blocks -/

variable {block : List Sample}

/-- A lag that reaches no further back than the block is read in it. -/
theorem delayed_in_block
    {offset lag : Nat}
    (inBlock : offset < block.length)
    (recent : lag ≤ offset) :
    block[offset - lag]? =
      some (delayed (stream ++ block) (stream.length + offset) lag) := by
  have inRange : offset - lag < block.length := by
    omega
  have position :
      stream.length + offset - lag = stream.length + (offset - lag) := by
    omega
  rw [delayed, if_pos (by omega), position,
    List.getD_append_right _ _ _ _ (Nat.le_add_right ..),
    Nat.add_sub_cancel_left, List.getD_eq_getElem _ _ inRange]
  exact List.getElem?_eq_getElem inRange

/-- A lag that reaches behind the block is read in a delay line, if that is as long. -/
theorem delayed_in_line
    {memory offset lag : Nat}
    (earlier : offset < lag)
    (held : lag ≤ memory) :
    (DelayLine.push (List.replicate memory 0) stream)[
        memory + offset - lag]? =
      some (delayed (stream ++ block) (stream.length + offset) lag) := by
  rw [DelayLine.getElem?_push]
  by_cases before : stream.length + offset < lag
  · rw [delayed, if_neg (by omega),
      List.getElem?_append_left (by rw [List.length_replicate]; omega),
      List.getElem?_replicate, if_pos (by omega)]
  · have inRange : stream.length + offset - lag < stream.length := by
      omega
    have position :
        stream.length + (memory + offset - lag) -
            (List.replicate memory (0 : Sample)).length =
          stream.length + offset - lag := by
      rw [List.length_replicate]
      omega
    rw [delayed, if_pos (by omega),
      List.getElem?_append_right (by rw [List.length_replicate]; omega),
      position, List.getD_append _ _ _ _ inRange,
      List.getD_eq_getElem _ _ inRange]
    exact List.getElem?_eq_getElem inRange

/-- What comes later does not change a convolution. -/
theorem convolution_append
    {index : Nat}
    (inStream : index < stream.length)
    (kernel : Nat → Sample) :
    convolution (stream ++ block) kernel index =
      convolution stream kernel index := by
  refine Finset.sum_congr rfl fun lag _ => ?_
  rw [List.getD_append _ _ _ _ (by omega)]

end ApmSdk.Convolution
