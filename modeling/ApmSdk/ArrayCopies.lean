import Mathlib.Data.List.Basic
import Mathlib.Tactic.Common

namespace ApmSdk.ArrayCopies

/-!
# Copies between arrays

A part of an array can be read and be written.  What would be outside has no value.  Nothing
here depends on what the arrays hold.
-/

variable {Sample : Type*}

/-- What `memcpy` or `memmove` reads of an array, if that is inside. -/
def slice (array : List Sample) (start count : Nat) : Option (List Sample) :=
  if start + count ≤ array.length then
    some ((array.drop start).take count)
  else none

/-- An array after `memcpy` or `memmove` to a part of it, if that is inside. -/
def overwrite (array : List Sample) (start : Nat) (block : List Sample) :
    Option (List Sample) :=
  if start + block.length ≤ array.length then
    some (array.take start ++ block ++ array.drop (start + block.length))
  else none

variable {array rest block : List Sample}

/-- What is inside can be read. -/
theorem slice_of_le
    {start count : Nat}
    (inside : start + count ≤ array.length) :
    slice array start count = some ((array.drop start).take count) :=
  if_pos inside

/-- A part that is inside can be written. -/
theorem exists_overwrite
    {start : Nat}
    (inside : start + block.length ≤ array.length) :
    ∃ next, overwrite array start block = some next :=
  ⟨_, if_pos inside⟩

/-- A block can replace what is behind a list. -/
theorem overwrite_next
    {written : List Sample}
    {start : Nat}
    (isStart : start = written.length)
    (inside : block.length ≤ rest.length) :
    overwrite (written ++ rest) start block =
      some (written ++ block ++ rest.drop block.length) := by
  have fits :
      written.length + block.length ≤ (written ++ rest).length := by
    rw [List.length_append]
    exact Nat.add_le_add_left inside _
  rw [isStart, overwrite, if_pos fits, List.take_left, List.drop_append,
    List.drop_eq_nil_of_le (Nat.le_add_right ..), List.nil_append,
    Nat.add_sub_cancel_left]

theorem overwrite_start
    (inside : block.length ≤ array.length) :
    overwrite array 0 block = some (block ++ array.drop block.length) :=
  overwrite_next List.length_nil.symm inside

/-- A block that is as long replaces the array. -/
theorem overwrite_all
    (isLength : block.length = array.length) :
    overwrite array 0 block = some block := by
  rw [overwrite_start (Nat.le_of_eq isLength), isLength, List.drop_length,
    List.append_nil]

/-- A block can replace the end. -/
theorem overwrite_end
    {start : Nat}
    (isStart : start = array.length)
    (isLength : block.length = rest.length) :
    overwrite (array ++ rest) start block = some (array ++ block) := by
  rw [overwrite_next isStart (Nat.le_of_eq isLength), isLength,
    List.drop_length, List.append_nil]

/-- An array stays as long as it is. -/
theorem length_of_overwrite
    {start : Nat}
    {next : List Sample}
    (isNext : overwrite array start block = some next) :
    next.length = array.length := by
  unfold overwrite at isNext
  split at isNext
  next inside =>
      rw [← Option.some.inj isNext]
      simp only [List.length_append, List.length_take, List.length_drop]
      omega
  next =>
      contradiction

/-- Of an array that begins with a list, parts of the list can be read. -/
theorem slice_within_leading
    {start count : Nat}
    (isPrefix : block <+: array)
    (inside : start + count ≤ block.length) :
    slice array start count = some ((block.drop start).take count) := by
  obtain ⟨rest, rfl⟩ := isPrefix
  rw [slice, if_pos (by rw [List.length_append]; omega),
    List.drop_append_of_le_length (by omega),
    List.take_append_of_le_length (by rw [List.length_drop]; omega)]

theorem slice_of_leading
    (isPrefix : block <+: array) :
    slice array 0 block.length = some block := by
  rw [slice_within_leading isPrefix (Nat.le_of_eq (Nat.zero_add _)), List.drop_zero,
    List.take_length]

end ApmSdk.ArrayCopies
