import Mathlib.Data.List.Basic
import Mathlib.Tactic.Common

namespace ApmSdk.DelayLine

/-!
# Delay lines

A delay line holds the last samples of a stream.  What is pushed into it in blocks of any
sizes leaves the same in it as what is pushed at once.  Nothing here depends on what the
samples are.
-/

variable {Sample : Type*}

/-- A block is pushed into a line, which keeps its length. -/
def push (line block : List Sample) : List Sample :=
  (line ++ block).drop block.length

variable {line stream block : List Sample}

@[simp] theorem push_nil : push line [] = line := by
  simp [push]

@[simp] theorem length_push : (push line block).length = line.length := by
  rw [push, List.length_drop, List.length_append, Nat.add_sub_cancel]

/-- A block that is not longer than the line moves the rest of it. -/
theorem push_of_le
    (short : block.length ≤ line.length) :
    push line block = line.drop block.length ++ block :=
  List.drop_append_of_le_length short

/-- Of a block that is not shorter than the line, its end is kept. -/
theorem push_of_ge
    (long : line.length ≤ block.length) :
    push line block = block.drop (block.length - line.length) := by
  rw [push, List.drop_append, List.drop_eq_nil_of_le long, List.nil_append]

/-- Two blocks one after another are one block. -/
theorem push_push :
    push (push line stream) block = push line (stream ++ block) := by
  have kept :
      (line ++ stream ++ block).drop stream.length =
        (line ++ stream).drop stream.length ++ block := by
    apply List.drop_append_of_le_length
    rw [List.length_append]
    exact Nat.le_add_left _ _
  unfold push
  rw [List.length_append, ← List.append_assoc, ← List.drop_drop, kept]

/-- What a line holds is the end of the stream behind what it held at the start. -/
theorem getElem?_push (index : Nat) :
    (push line block)[index]? = (line ++ block)[block.length + index]? := by
  rw [push, List.getElem?_drop]

/-- The oldest samples of a line are those of the stream, as late as the rest of the line is
long. -/
theorem take_push
    {zero : Sample}
    {delay : Nat} :
    (push (List.replicate (delay + block.length) zero)
          (stream ++ block)).take block.length =
      ((List.replicate delay zero ++ (stream ++ block)).drop
          stream.length).take block.length := by
  have isLine :
      List.replicate (delay + block.length) zero =
        List.replicate block.length zero ++ List.replicate delay zero := by
    rw [List.replicate_append_replicate, Nat.add_comm]
  have isLength :
      (stream ++ block).length =
        (List.replicate block.length zero).length + stream.length := by
    rw [List.length_append, List.length_replicate, Nat.add_comm]
  rw [push, isLine, isLength, List.append_assoc, ← List.drop_drop,
    List.drop_left]

/-! ## One value for each block -/

section ZipWith

variable {Gain Output : Type*} {apply : Gain → Sample → Output}

theorem zipWith_replicate_left (count : Nat) (gain : Gain) :
    List.zipWith apply (List.replicate count gain) stream =
      (stream.take count).map (apply gain) := by
  induction count generalizing stream with
  | zero =>
      rfl
  | succ count inductionHypothesis =>
      cases stream with
      | nil =>
          rfl
      | cons sample stream =>
          rw [List.replicate_succ, List.zipWith_cons_cons,
            List.take_succ_cons, List.map_cons, inductionHypothesis]

/-- Where one more value is applied to a stream that has grown, what came before is as it
was. -/
theorem zipWith_append_replicate
    {gains : List Gain}
    (ahead : gains.length ≤ stream.length)
    (count : Nat)
    (gain : Gain) :
    List.zipWith apply (gains ++ List.replicate count gain)
        (stream ++ block) =
      List.zipWith apply gains stream ++
        (((stream ++ block).drop gains.length).take count).map
          (apply gain) := by
  induction gains generalizing stream with
  | nil =>
      rw [List.nil_append, List.zipWith_nil_left, List.nil_append,
        List.length_nil, List.drop_zero, zipWith_replicate_left]
  | cons first gains inductionHypothesis =>
      cases stream with
      | nil =>
          contradiction
      | cons sample stream =>
          rw [List.cons_append, List.cons_append, List.zipWith_cons_cons,
            inductionHypothesis (Nat.le_of_succ_le_succ ahead)]
          rfl

end ZipWith

end ApmSdk.DelayLine
