import Mathlib.Data.List.Basic
import Mathlib.Tactic.Common

namespace ApmSdk.CircularCells

/-!
# Circular stores of the last items of a history

A store of a fixed number of cells is written round and round.  The history lists the
items newest first, so that the item of some age is found that many cells before the one
that was written last.
-/

variable {Item : Type*}

/-- The cell with the item of an age, when the next item goes to `next`. -/
def place (size next age : Nat) : Nat :=
  (next + (size - 1 - age)) % size

/-- The next place to write to after a place. -/
def following (size next : Nat) : Nat :=
  if size ≤ next + 1 then 0 else next + 1

/-- The place before a place. -/
def preceding (size next : Nat) : Nat :=
  if 0 < next then next - 1 else size - 1

section Places

variable {size next age other : Nat}

theorem place_lt (inside : age < size) : place size next age < size :=
  Nat.mod_lt _ (by omega)

theorem following_lt (inside : next < size) : following size next < size := by
  unfold following
  split <;> omega

/-- A sum of two places, brought back into the store. -/
private theorem mod_of_lt_two
    {sum : Nat}
    (below : sum < 2 * size) :
    sum % size = if sum < size then sum else sum - size := by
  split
  next within =>
      exact Nat.mod_eq_of_lt within
  next beyond =>
      rw [Nat.mod_eq_sub_mod (by omega), Nat.mod_eq_of_lt (by omega)]

theorem place_eq
    (nextInside : next < size)
    (ageInside : age < size) :
    place size next age =
      if next ≤ age then next + (size - 1 - age) else next - 1 - age := by
  unfold place
  rw [mod_of_lt_two (by omega)]
  split <;> split <;> omega

/-- The newest item is in the place before the next one. -/
theorem place_zero (inside : next < size) :
    place size next 0 = preceding size next := by
  rw [place_eq inside (by omega)]
  unfold preceding
  split <;> split <;> omega

/-- An item that is one older is in the place before. -/
theorem place_succ
    (nextInside : next < size)
    (ageInside : age + 1 < size) :
    place size next (age + 1) = preceding size (place size next age) := by
  rw [place_eq nextInside ageInside, place_eq nextInside (by omega)]
  unfold preceding
  split <;> split <;> split <;> omega

/-- The oldest item is in the place that is written next. -/
theorem place_oldest (inside : next < size) :
    place size next (size - 1) = next := by
  rw [place_eq inside (by omega)]
  split <;> omega

/-- After a write the newest item is where it was written. -/
theorem place_following_zero (inside : next < size) :
    place size (following size next) 0 = next := by
  rw [place_eq (following_lt inside) (by omega)]
  unfold following
  split <;> split <;> omega

/-- After a write each item has moved on by one. -/
theorem place_following_succ
    (nextInside : next < size)
    (ageInside : age + 1 < size) :
    place size (following size next) (age + 1) = place size next age := by
  rw [place_eq (following_lt nextInside) ageInside,
    place_eq nextInside (by omega)]
  unfold following
  split <;> split <;> split <;> omega

/-- Items of different ages are in different cells. -/
theorem place_injective
    (nextInside : next < size)
    (ageInside : age < size)
    (otherInside : other < size)
    (same : place size next age = place size next other) :
    age = other := by
  rw [place_eq nextInside ageInside, place_eq nextInside otherInside] at same
  split at same <;> split at same <;> omega

/-- Only the oldest item is in the cell that is written next. -/
theorem place_ne_next
    (nextInside : next < size)
    (ageInside : age + 1 < size) :
    place size next age ≠ next := by
  rw [place_eq nextInside (by omega)]
  split <;> omega

end Places

/-- The cells hold the newest items of a history, as many as there are cells. -/
structure Holds
    (cells : List Item)
    (next : Nat)
    (history : List Item) : Prop where
  nextInside : next < cells.length
  item :
    ∀ {age}, age < cells.length → age < history.length →
      cells[place cells.length next age]? = history[age]?

variable {cells history : List Item}
variable {next age : Nat}

/-- An empty history asks nothing of the cells. -/
theorem holds_nil (nonempty : 0 < cells.length) : Holds cells 0 [] where
  nextInside := nonempty
  item := fun _ inside => absurd inside (Nat.not_lt_zero _)

/-- The cell that is written next holds the oldest item of a full store. -/
theorem Holds.oldest
    (held : Holds cells next history)
    (full : cells.length ≤ history.length) :
    cells[next]? = history[cells.length - 1]? := by
  have inside := held.nextInside
  have read := @Holds.item _ _ _ _ held (cells.length - 1) (by omega) (by omega)
  rwa [place_oldest inside] at read

/-- Writing the next cell adds an item to the history. -/
theorem Holds.write
    (held : Holds cells next history)
    (item : Item) :
    Holds (cells.set next item) (following cells.length next)
      (item :: history) where
  nextInside := by
    rw [List.length_set]
    exact following_lt held.nextInside
  item := by
    intro age inside withinHistory
    rw [List.length_set] at inside ⊢
    cases age with
    | zero =>
        rw [place_following_zero held.nextInside,
          List.getElem?_set_self held.nextInside]
        rfl
    | succ age =>
        rw [place_following_succ held.nextInside inside,
          List.getElem?_set_ne (place_ne_next held.nextInside inside).symm,
          List.getElem?_cons_succ]
        exact held.item (by omega) (Nat.lt_of_succ_lt_succ withinHistory)

/-- Writing over the cell of an age replaces the item of that age. -/
theorem Holds.rewrite
    (held : Holds cells next history)
    (inside : age < cells.length)
    (item : Item) :
    Holds (cells.set (place cells.length next age) item) next
      (history.set age item) where
  nextInside := by
    rw [List.length_set]
    exact held.nextInside
  item := by
    intro other otherInside withinHistory
    rw [List.length_set] at otherInside withinHistory ⊢
    by_cases same : age = other
    · subst same
      rw [List.getElem?_set_self (place_lt inside),
        List.getElem?_set_self withinHistory]
    · rw [List.getElem?_set_ne fun placesAgree =>
          same (place_injective held.nextInside inside otherInside placesAgree),
        List.getElem?_set_ne same]
      exact held.item otherInside withinHistory

end ApmSdk.CircularCells
