import Mathlib.Algebra.BigOperators.Group.Finset.Basic
import Mathlib.Data.List.GetD
import Mathlib.Tactic.Common

namespace ApmSdk.OverlapAdd

/-!
# Overlap-add

Blocks that start every `shift` samples are added up where they overlap.  A sum over the
first blocks is the whole sum as far as the next block does not start yet, and nothing
where all of them have ended.
-/

variable {Sample : Type*} [AddCommMonoid Sample]

/-- What a block adds at an index of the stream. -/
def contribution
    (shift : Nat)
    (blocks : Nat → List Sample)
    (index number : Nat) : Sample :=
  if shift * number ≤ index then
    (blocks number).getD (index - shift * number) 0
  else 0

/-- The sum of the first blocks at an index. -/
def partialSum
    (shift : Nat)
    (blocks : Nat → List Sample)
    (count index : Nat) : Sample :=
  ∑ number ∈ Finset.range count, contribution shift blocks index number

/-- The sum of all the blocks that have started at an index. -/
def overlapAdd
    (shift : Nat)
    (blocks : Nat → List Sample)
    (index : Nat) : Sample :=
  partialSum shift blocks (index / shift + 1) index

variable {shift count index number : Nat}
variable {blocks : Nat → List Sample}

/-- A block adds nothing behind its end. -/
theorem contribution_of_ended
    (ended : shift * number + (blocks number).length ≤ index) :
    contribution shift blocks index number = 0 := by
  unfold contribution
  split
  next =>
      exact List.getD_eq_default _ _ (by omega)
  next =>
      rfl

/-- A block adds its samples from its start on. -/
theorem contribution_of_started
    {offset : Nat}
    (isIndex : index = shift * number + offset) :
    contribution shift blocks index number = (blocks number).getD offset 0 := by
  unfold contribution
  rw [if_pos (by omega), isIndex, Nat.add_sub_cancel_left]

/-- A block adds nothing before its start. -/
theorem contribution_of_ahead
    (ahead : index < shift * number) :
    contribution shift blocks index number = 0 :=
  if_neg (not_le.mpr ahead)

theorem partialSum_succ :
    partialSum shift blocks (count + 1) index =
      partialSum shift blocks count index +
        contribution shift blocks index count :=
  Finset.sum_range_succ _ _

/-- Nothing is left where all blocks have ended. -/
theorem partialSum_of_ended
    (ended :
      ∀ number < count,
        shift * number + (blocks number).length ≤ index) :
    partialSum shift blocks count index = 0 :=
  Finset.sum_eq_zero fun number inRange =>
    contribution_of_ended (ended number (Finset.mem_range.mp inRange))

/-- Blocks that start later add nothing. -/
theorem partialSum_eq_overlapAdd
    (positive : 0 < shift)
    (started : index < shift * count) :
    partialSum shift blocks count index = overlapAdd shift blocks index := by
  have enough : index / shift + 1 ≤ count :=
    Nat.succ_le_of_lt (Nat.div_lt_of_lt_mul started)
  refine (Finset.sum_subset (Finset.range_subset_range.mpr enough) ?_).symm
  intro number _ later
  have ahead : index < shift * number := by
    rw [Finset.mem_range, not_lt] at later
    exact
      (Nat.lt_mul_div_succ index positive).trans_le
        (Nat.mul_le_mul_left shift later)
  exact contribution_of_ahead ahead

end ApmSdk.OverlapAdd
