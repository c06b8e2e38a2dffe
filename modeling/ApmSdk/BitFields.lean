import Mathlib.Data.Nat.Digits.Lemmas
import Mathlib.Tactic.Common

namespace ApmSdk.BitFields

/-!
# Numbers as fields of bits

A number is written as fields of the same width, the lowest first.  A mask and a shift by less
than a width act on each field alone, so that one operation on the number does the same in all
of its fields.  Nothing here depends on what the fields are for.
-/

open Nat (ofDigits ofDigits_cons)

variable {width : Nat}

/-- A conjunction is taken of the lowest field and of the rest. -/
theorem land_field
    (value mask width : Nat) :
    value &&& mask =
      (value % 2 ^ width &&& mask % 2 ^ width) +
        2 ^ width * (value / 2 ^ width &&& mask / 2 ^ width) := by
  rw [← Nat.and_mod_two_pow, ← Nat.and_div_two_pow, Nat.mod_add_div]

theorem mod_field
    {field : Nat}
    (rest : Nat)
    (isField : field < 2 ^ width) :
    (field + 2 ^ width * rest) % 2 ^ width = field := by
  rw [Nat.add_mul_mod_self_left, Nat.mod_eq_of_lt isField]

theorem div_field
    {field : Nat}
    (rest : Nat)
    (isField : field < 2 ^ width) :
    (field + 2 ^ width * rest) / 2 ^ width = rest := by
  rw [Nat.add_mul_div_left _ _ (Nat.two_pow_pos width),
    Nat.div_eq_of_lt isField, Nat.zero_add]

/-- Some low bits of each field. -/
theorem land_low
    {masks fields : List Nat}
    (fit :
      List.Forall₂ (fun bits field => bits ≤ width ∧ field < 2 ^ width) masks
        fields) :
    ofDigits (2 ^ width) fields &&&
        ofDigits (2 ^ width) (masks.map fun bits => 2 ^ bits - 1) =
      ofDigits (2 ^ width)
        (List.zipWith (fun bits field => field % 2 ^ bits) masks fields) := by
  induction fit with
  | nil =>
      simp [ofDigits]
  | @cons bits field masks fields fits _ inductionHypothesis =>
      have isMask : 2 ^ bits - 1 < 2 ^ width := by
        have := Nat.pow_le_pow_right Nat.two_pos fits.1
        have := Nat.two_pow_pos bits
        omega
      rw [List.map_cons, List.zipWith_cons_cons, ofDigits_cons, ofDigits_cons,
        ofDigits_cons, land_field _ _ width, mod_field _ fits.2,
        mod_field _ isMask, div_field _ fits.2, div_field _ isMask,
        Nat.and_two_pow_sub_one_eq_mod, inductionHypothesis]

/-- Each field shifted to the right within itself: what comes from the next one is masked
away. -/
theorem land_shifted
    {fields : List Nat}
    {shift : Nat}
    (within : shift ≤ width)
    (isField : ∀ field ∈ fields, field < 2 ^ width) :
    (ofDigits (2 ^ width) fields / 2 ^ shift) &&&
        ofDigits (2 ^ width)
          (List.replicate fields.length (2 ^ (width - shift) - 1)) =
      ofDigits (2 ^ width) (fields.map (· / 2 ^ shift)) := by
  induction fields with
  | nil =>
      simp [ofDigits]
  | cons field rest inductionHypothesis =>
      rw [List.forall_mem_cons] at isField
      have isWidth : 2 ^ width = 2 ^ (width - shift) * 2 ^ shift := by
        rw [← Nat.pow_add, Nat.sub_add_cancel within]
      have smaller : 2 ^ (width - shift) ≤ 2 ^ width :=
        Nat.pow_le_pow_right Nat.two_pos (Nat.sub_le ..)
      have isMask : 2 ^ (width - shift) - 1 < 2 ^ width := by
        have := Nat.two_pow_pos (width - shift)
        omega
      have isShifted : field / 2 ^ shift < 2 ^ (width - shift) := by
        rw [Nat.div_lt_iff_lt_mul (Nat.two_pow_pos shift), ← isWidth]
        exact isField.1
      have shifted :
          (field + 2 ^ width * ofDigits (2 ^ width) rest) / 2 ^ shift =
            field / 2 ^ shift +
              2 ^ (width - shift) * ofDigits (2 ^ width) rest := by
        rw [isWidth, Nat.mul_right_comm, Nat.add_mul_div_right _ _
          (Nat.two_pow_pos shift)]
      have low :
          (field + 2 ^ width * ofDigits (2 ^ width) rest) / 2 ^ shift %
              2 ^ width % 2 ^ (width - shift) =
            field / 2 ^ shift := by
        rw [Nat.mod_mod_of_dvd _ (Nat.pow_dvd_pow 2 (Nat.sub_le ..)),
          shifted, mod_field _ isShifted]
      have high :
          (field + 2 ^ width * ofDigits (2 ^ width) rest) / 2 ^ shift /
              2 ^ width =
            ofDigits (2 ^ width) rest / 2 ^ shift := by
        rw [Nat.div_div_eq_div_mul, Nat.mul_comm (2 ^ shift), ← Nat.div_div_eq_div_mul,
          div_field _ isField.1]
      rw [List.length_cons, List.replicate_succ, List.map_cons, ofDigits_cons,
        ofDigits_cons, ofDigits_cons, land_field _ _ width,
        mod_field _ isMask, div_field _ isMask,
        Nat.and_two_pow_sub_one_eq_mod, low, high,
        inductionHypothesis isField.2]

/-- Fields are added one by one. -/
theorem ofDigits_map_add
    (base : Nat)
    (f g : Nat → Nat)
    (fields : List Nat) :
    ofDigits base (fields.map fun field => f field + g field) =
      ofDigits base (fields.map f) + ofDigits base (fields.map g) := by
  rw [Nat.ofDigits_add_ofDigits_eq_ofDigits_zipWith_of_length_eq (by simp),
    List.zipWith_map_left, List.zipWith_map_right, List.zipWith_self]

end ApmSdk.BitFields
