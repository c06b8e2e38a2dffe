import Mathlib.Algebra.Order.Ring.Int
import Mathlib.Data.List.Basic
import Mathlib.Logic.Function.Basic
import Mathlib.Tactic.Common
import Mathlib.Tactic.Ring

namespace ApmSdk.BitReversal

/-!
# Reordering by reversed indexes

The cells of a store are numbered with so many bits.  Swapping each cell with the one of
the reversed number, once for a pair, puts every cell in its place.
-/

variable {Cell : Type*}

/-- A number whose bits are those of another one the other way round. -/
def reversed : Nat → Nat → Nat
  | 0, _ => 0
  | width + 1, index => reversed width (index / 2) + index % 2 * 2 ^ width

theorem reversed_lt (width index : Nat) : reversed width index < 2 ^ width := by
  induction width generalizing index with
  | zero => exact Nat.one_pos
  | succ width inductionHypothesis =>
      have bound := inductionHypothesis (index / 2)
      unfold reversed
      rw [Nat.pow_succ]
      rcases Nat.mod_two_eq_zero_or_one index with even | odd
      · rw [even]
        omega
      · rw [odd]
        omega

theorem reversed_zero (width : Nat) : reversed width 0 = 0 := by
  induction width with
  | zero => rfl
  | succ width inductionHypothesis => simpa [reversed] using inductionHypothesis

/-- The highest bit becomes the lowest one. -/
theorem reversed_add_top
    {width index top : Nat}
    (below : index < 2 ^ width) :
    reversed (width + 1) (index + top % 2 * 2 ^ width) =
      2 * reversed width index + top % 2 := by
  induction width generalizing index with
  | zero =>
      obtain rfl : index = 0 := by omega
      simp [reversed]
  | succ width inductionHypothesis =>
      rw [Nat.pow_succ] at below
      have half :
          (index + top % 2 * 2 ^ (width + 1)) / 2 = index / 2 + top % 2 * 2 ^ width := by
        rw [Nat.pow_succ, ← Nat.mul_assoc]
        omega
      have parity : (index + top % 2 * 2 ^ (width + 1)) % 2 = index % 2 := by
        rw [Nat.pow_succ, ← Nat.mul_assoc]
        omega
      rw [reversed, half, parity, inductionHypothesis (by omega), reversed, Nat.pow_succ]
      ring

/-- A number reversed twice is the number again. -/
theorem reversed_reversed
    {width index : Nat}
    (below : index < 2 ^ width) :
    reversed width (reversed width index) = index := by
  induction width generalizing index with
  | zero =>
      obtain rfl : index = 0 := by omega
      rfl
  | succ width inductionHypothesis =>
      rw [Nat.pow_succ] at below
      rw [show reversed (width + 1) index =
          reversed width (index / 2) + index % 2 * 2 ^ width from rfl,
        reversed_add_top (reversed_lt width _), inductionHypothesis (by omega)]
      omega

/-- Two of a pair: each is the reversed number of the other. -/
theorem reversed_eq_iff
    {width index other : Nat}
    (below : index < 2 ^ width)
    (otherBelow : other < 2 ^ width) :
    reversed width index = other ↔ index = reversed width other := by
  constructor
  · rintro rfl
    exact (reversed_reversed below).symm
  · rintro rfl
    exact reversed_reversed otherBelow

/-- The cells in the order of the reversed numbers. -/
def mirrored (width : Nat) (cells : Nat → Cell) : Nat → Cell :=
  fun index => if index < 2 ^ width then cells (reversed width index) else cells index

theorem mirrored_mirrored (width : Nat) (cells : Nat → Cell) :
    mirrored width (mirrored width cells) = cells := by
  funext index
  unfold mirrored
  split
  next below =>
      rw [if_pos (reversed_lt width index), reversed_reversed below]
  next beyond =>
      rfl

/-- Two cells with their items exchanged. -/
def swap (left right : Nat) (cells : Nat → Cell) : Nat → Cell :=
  Function.update (Function.update cells left (cells right)) right (cells left)

theorem swap_apply (left right : Nat) (cells : Nat → Cell) (index : Nat) :
    swap left right cells index =
      if index = right then cells left
      else if index = left then cells right
      else cells index := by
  simp only [swap, Function.update_apply]

/-- A cell is exchanged with a later one that has its number reversed. -/
def mirrorStep (width : Nat) (cells : Nat → Cell) (index : Nat) : Nat → Cell :=
  if index < reversed width index then swap index (reversed width index) cells else cells

/-- After the exchanges of the first cells the pairs with one of these are in place. -/
theorem foldl_mirrorStep_apply
    {width count : Nat}
    (cells : Nat → Cell)
    (within : count ≤ 2 ^ width)
    (index : Nat) :
    (List.range count).foldl (mirrorStep width) cells index =
      if index < 2 ^ width ∧ (index < count ∨ reversed width index < count) then
        cells (reversed width index)
      else
        cells index := by
  induction count generalizing index with
  | zero => simp
  | succ count inductionHypothesis =>
      have before := inductionHypothesis (Nat.le_of_succ_le within)
      have pair := reversed_reversed within
      have mirrorBelow := reversed_lt width count
      rw [List.range_succ, List.foldl_append, List.foldl_cons, List.foldl_nil]
      rcases lt_or_ge count (reversed width count) with later | notLater
      · rw [mirrorStep, if_pos later, swap_apply, before, before, before]
        split
        next isMirror =>
            subst isMirror
            rw [pair, if_neg (by omega), if_pos (by omega)]
        next notMirror =>
            split
            next isCount =>
                subst isCount
                rw [pair, if_neg (by omega), if_pos (by omega)]
            next notCount =>
                by_cases below : index < 2 ^ width
                · have apart : reversed width index ≠ count := fun same =>
                    notMirror ((reversed_eq_iff below within).mp same)
                  exact if_congr (by omega) rfl rfl
                · rw [if_neg (by omega), if_neg (by omega)]
      · rw [mirrorStep, if_neg (by omega), before]
        by_cases below : index < 2 ^ width
        · by_cases reached : index < count ∨ reversed width index < count
          · rw [if_pos ⟨below, reached⟩, if_pos (by omega)]
          · rw [if_neg (by omega)]
            split
            next now =>
                -- only a cell that is its own mirror is left to the last exchange
                have own : reversed width index = index := by
                  rcases now.2 with first | second
                  · obtain rfl : index = count := by omega
                    omega
                  · have mirrorHere : reversed width index = count := by omega
                    have here := (reversed_eq_iff below within).mp mirrorHere
                    omega
                rw [own]
            next later =>
                rfl
        · rw [if_neg (by omega), if_neg (by omega)]

/-- The exchanges of all cells put the store in the reversed order. -/
theorem foldl_mirrorStep (width : Nat) (cells : Nat → Cell) :
    (List.range (2 ^ width)).foldl (mirrorStep width) cells = mirrored width cells := by
  funext index
  rw [foldl_mirrorStep_apply cells le_rfl]
  unfold mirrored
  split
  next reached =>
      rw [if_pos reached.1]
  next notReached =>
      rw [if_neg (by omega)]

/-- An even number and the next one differ in the highest bit of their mirrors. -/
theorem reversed_succ_of_even
    {width index : Nat}
    (even : index % 2 = 0) :
    reversed (width + 1) (index + 1) = reversed width (index / 2) + 2 ^ width ∧
      reversed (width + 1) index = reversed width (index / 2) := by
  constructor
  · rw [reversed, show (index + 1) / 2 = index / 2 by omega,
      show (index + 1) % 2 = 1 by omega, Nat.one_mul]
  · rw [reversed, even, Nat.zero_mul, Nat.add_zero]

/-- Of an odd number the carry goes on to the halves. -/
theorem reversed_succ_of_odd
    {width index : Nat}
    (odd : index % 2 = 1) :
    reversed (width + 1) (index + 1) = reversed width (index / 2 + 1) ∧
      reversed (width + 1) index = reversed width (index / 2) + 2 ^ width := by
  constructor
  · rw [reversed, show (index + 1) / 2 = index / 2 + 1 by omega,
      show (index + 1) % 2 = 0 by omega, Nat.zero_mul, Nat.add_zero]
  · rw [reversed, odd, Nat.one_mul]

end ApmSdk.BitReversal
