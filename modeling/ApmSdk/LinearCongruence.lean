import Mathlib.Algebra.BigOperators.Intervals
import Mathlib.Algebra.Order.Ring.Int
import Mathlib.Algebra.Ring.GeomSum
import Mathlib.Data.Finset.Card
import Mathlib.Data.Nat.ModEq
import Mathlib.Data.Nat.Prime.Basic
import Mathlib.Tactic.Linarith
import Mathlib.Tactic.Ring

namespace ApmSdk.LinearCongruence

/-!
# Linear congruences to a power of two

A number is multiplied and increased over and over again, and only its lowest bits are
looked at.  When the factor leaves one on division by four and the increment is odd, these
bits take all their values before the first one comes again.
-/

open Finset

variable {factor increment width count : Nat}

/-- The number after a number. -/
def next (factor increment number : Nat) : Nat :=
  factor * number + increment

/-- What a number grows by in some turns, as a multiple of what it grows by in one. -/
def growth (factor count : Nat) : Nat :=
  ∑ turn ∈ range count, factor ^ turn

theorem growth_succ (factor count : Nat) :
    growth factor (count + 1) = factor * growth factor count + 1 :=
  geom_sum_succ

theorem growth_double (factor count : Nat) :
    growth factor (2 * count) = growth factor count * (factor ^ count + 1) := by
  unfold growth
  rw [Nat.two_mul, sum_range_add]
  simp only [pow_add, ← mul_sum]
  ring

theorem iterate_next
    (lower : 0 < factor)
    (number count : Nat) :
    (next factor increment)^[count] number =
      number + growth factor count * ((factor - 1) * number + increment) := by
  induction count with
  | zero => simp [growth]
  | succ count inductionHypothesis =>
      obtain ⟨less, rfl⟩ : ∃ less, factor = less + 1 := ⟨factor - 1, by omega⟩
      rw [Function.iterate_succ_apply', inductionHypothesis, growth_succ, Nat.add_sub_cancel,
        next]
      ring

section Odd

variable (byFour : factor % 4 = 1)

include byFour

theorem growth_mod_two (count : Nat) : growth factor count % 2 = count % 2 := by
  induction count with
  | zero => simp [growth]
  | succ count inductionHypothesis =>
      rw [growth_succ, Nat.add_mod, Nat.mul_mod, inductionHypothesis,
        show factor % 2 = 1 by omega]
      omega

theorem power_mod_four (count : Nat) : factor ^ count % 4 = 1 := by
  rw [Nat.pow_mod, byFour, one_pow]
  rfl

/-- A growth has as many factors of two as the number of its turns. -/
theorem two_pow_dvd_growth
    (width count : Nat) :
    2 ^ width ∣ growth factor count ↔ 2 ^ width ∣ count := by
  induction width generalizing count with
  | zero => simp
  | succ width inductionHypothesis =>
      rcases Nat.even_or_odd' count with ⟨half, rfl | rfl⟩
      · have four := power_mod_four byFour half
        obtain ⟨rest, isRest, odd⟩ :
            ∃ rest, factor ^ half + 1 = 2 * rest ∧ rest % 2 = 1 :=
          ⟨(factor ^ half + 1) / 2, by omega, by omega⟩
        have coprime : Nat.Coprime (2 ^ width) rest :=
          Nat.Coprime.pow_left _ (Nat.coprime_two_left.mpr (Nat.odd_iff.mpr odd))
        rw [growth_double, isRest, Nat.pow_succ', Nat.mul_left_comm,
          Nat.mul_dvd_mul_iff_left Nat.two_pos, Nat.mul_dvd_mul_iff_left Nat.two_pos,
          coprime.dvd_mul_right, inductionHypothesis]
      · have parity := growth_mod_two byFour (2 * half + 1)
        constructor
        · intro divides
          have two := (Dvd.intro_left (2 ^ width) (Nat.pow_succ ..).symm).trans divides
          omega
        · intro divides
          have two := (Dvd.intro_left (2 ^ width) (Nat.pow_succ ..).symm).trans divides
          omega

variable (odd : increment % 2 = 1)

include odd

/-- The lowest bits come again after so many turns as they have values, and not before. -/
theorem iterate_modEq_iff
    (width number earlier later : Nat) :
    (next factor increment)^[earlier + later] number ≡
        (next factor increment)^[earlier] number [MOD 2 ^ width] ↔
      2 ^ width ∣ later := by
  have lower : 0 < factor := by omega
  rw [Nat.add_comm, Function.iterate_add_apply]
  generalize (next factor increment)^[earlier] number = reached
  have oddStep : ((factor - 1) * reached + increment) % 2 = 1 := by
    have even : (factor - 1) * reached % 2 = 0 := by
      rw [Nat.mul_mod, show (factor - 1) % 2 = 0 by omega, Nat.zero_mul, Nat.zero_mod]
    omega
  have coprime : Nat.Coprime (2 ^ width) ((factor - 1) * reached + increment) :=
    Nat.Coprime.pow_left _ (Nat.coprime_two_left.mpr (Nat.odd_iff.mpr oddStep))
  rw [iterate_next lower]
  constructor
  · intro same
    have divides :=
      (Nat.modEq_iff_dvd' (Nat.le_add_right _ _)).mp same.symm
    rw [Nat.add_sub_cancel_left, coprime.dvd_mul_right] at divides
    exact (two_pow_dvd_growth byFour width later).mp divides
  · intro divides
    have growing := (two_pow_dvd_growth byFour width later).mpr divides
    exact ((Nat.modEq_iff_dvd' (Nat.le_add_right _ _)).mpr
      (by
        rw [Nat.add_sub_cancel_left]
        exact growing.mul_right _)).symm

/-- In so many turns the lowest bits take each of their values once. -/
theorem image_iterate (width number : Nat) :
    Set.InjOn (fun turn => (next factor increment)^[turn] number % 2 ^ width)
        (range (2 ^ width)) ∧
      (range (2 ^ width)).image
          (fun turn => (next factor increment)^[turn] number % 2 ^ width) =
        range (2 ^ width) := by
  have apart :
      ∀ earlier later, earlier ≤ later → later < 2 ^ width →
        (next factor increment)^[earlier] number % 2 ^ width =
          (next factor increment)^[later] number % 2 ^ width →
            earlier = later := by
    intro earlier later ordered inside same
    obtain ⟨turns, rfl⟩ := Nat.exists_eq_add_of_le ordered
    have divides := (iterate_modEq_iff byFour odd width number earlier turns).mp same.symm
    have none := Nat.eq_zero_of_dvd_of_lt divides (by omega)
    omega
  have injective :
      Set.InjOn (fun turn => (next factor increment)^[turn] number % 2 ^ width)
        (range (2 ^ width)) := by
    intro first firstInside second secondInside same
    rw [mem_coe, mem_range] at firstInside secondInside
    rcases Nat.le_total first second with ordered | ordered
    · exact apart first second ordered secondInside same
    · exact (apart second first ordered firstInside same.symm).symm
  refine ⟨injective, eq_of_subset_of_card_le ?_ ?_⟩
  · intro value member
    obtain ⟨turn, -, rfl⟩ := mem_image.mp member
    exact mem_range.mpr (Nat.mod_lt _ (Nat.two_pow_pos width))
  · rw [card_image_of_injOn injective]

end Odd

/-- Turns on the lowest bits alone give the lowest bits of the turns. -/
theorem iterate_succ_mod
    {modulus : Nat}
    {turn : Nat → Nat}
    (isTurn : ∀ number, turn number = next factor increment number % modulus)
    (number count : Nat) :
    turn^[count + 1] number = (next factor increment)^[count + 1] number % modulus := by
  induction count with
  | zero => exact isTurn number
  | succ count inductionHypothesis =>
      rw [Function.iterate_succ_apply', inductionHypothesis, isTurn,
        Function.iterate_succ_apply' _ (count + 1)]
      generalize (next factor increment)^[count + 1] number = reached
      unfold next
      rw [Nat.add_mod, Nat.mul_mod, Nat.mod_mod, ← Nat.mul_mod, ← Nat.add_mod]

/-- The numbers of some bits whose upper part is a value. -/
theorem card_upper
    {low high value : Nat}
    (inside : value < 2 ^ high) :
    ((range (2 ^ (low + high))).filter fun number => number / 2 ^ low = value).card =
      2 ^ low := by
  have block :
      (range (2 ^ (low + high))).filter (fun number => number / 2 ^ low = value) =
        Ico (value * 2 ^ low) ((value + 1) * 2 ^ low) := by
    have most : (value + 1) * 2 ^ low ≤ 2 ^ high * 2 ^ low :=
      Nat.mul_le_mul_right _ inside
    ext number
    rw [mem_filter, mem_range, mem_Ico, Nat.div_eq_iff (Nat.two_pow_pos low), Nat.pow_add,
      Nat.mul_comm (2 ^ low)]
    have positive := Nat.two_pow_pos low
    rw [Nat.add_mul, Nat.one_mul] at most ⊢
    omega
  rw [block, Nat.card_Ico, Nat.add_mul, Nat.one_mul, Nat.add_sub_cancel_left]

theorem countP_range (count : Nat) (holds : Nat → Prop) [DecidablePred holds] :
    (List.range count).countP (fun index => holds index) =
      ((range count).filter holds).card := by
  rw [← Multiset.coe_countP, Multiset.countP_eq_card_filter]
  rfl

/-- Over a period every value of the upper bits is met equally often. -/
theorem count_upper
    (low high : Nat)
    {value period : Nat}
    {turn : Nat → Nat}
    (byFour : factor % 4 = 1)
    (odd : increment % 2 = 1)
    (isTurn : ∀ number, turn number = next factor increment number % 2 ^ (low + high))
    (isPeriod : period = 2 ^ (low + high))
    (inside : value < 2 ^ high)
    (number : Nat) :
    ((List.range period).map fun count => turn^[count + 1] number / 2 ^ low).count value =
        2 ^ low ∧
      turn^[period] number = number % period := by
  obtain ⟨injective, image⟩ :=
    image_iterate byFour odd (low + high) (next factor increment number)
  subst isPeriod
  constructor
  · have steps :
        ∀ count, turn^[count + 1] number =
          (next factor increment)^[count] (next factor increment number) %
            2 ^ (low + high) := by
      intro count
      rw [iterate_succ_mod isTurn, Function.iterate_succ_apply]
    rw [List.count, List.countP_map]
    simp only [Function.comp_def, steps]
    generalize isReached :
      (fun count =>
        (next factor increment)^[count] (next factor increment number) % 2 ^ (low + high)) =
        reached at injective image
    have reachedEq : ∀ count, _ = reached count := congrFun isReached
    simp only [reachedEq]
    calc
      _ = ((range (2 ^ (low + high))).filter fun count => reached count / 2 ^ low = value).card :=
        countP_range _ fun count => reached count / 2 ^ low = value
      _ =
          (((range (2 ^ (low + high))).filter
              fun count => reached count / 2 ^ low = value).image reached).card :=
        (card_image_of_injOn
          (injective.mono (coe_subset.mpr (filter_subset _ _)))).symm
      _ =
          (((range (2 ^ (low + high))).image reached).filter
            fun number => number / 2 ^ low = value).card := by
        rw [filter_image]
      _ = ((range (2 ^ (low + high))).filter fun number => number / 2 ^ low = value).card := by
        rw [image]
      _ = 2 ^ low := card_upper inside
  · have positive := Nat.two_pow_pos (low + high)
    have last := iterate_succ_mod isTurn number (2 ^ (low + high) - 1)
    rw [Nat.sub_add_cancel positive] at last
    have back :=
      (iterate_modEq_iff byFour odd (low + high) number 0 (2 ^ (low + high))).mpr dvd_rfl
    rw [Nat.zero_add] at back
    exact last.trans back

end ApmSdk.LinearCongruence
