/-
# Counters that take strides

A counter that goes on by a fixed stride, modulo some number, comes back to a value no
sooner than the strides make up that number. If the stride divides the modulus, all its
values are alike modulo the stride.
-/

import Mathlib.Algebra.Order.Group.Nat
import Mathlib.Data.Nat.ModEq

namespace Stride

variable {modulus stride first : Nat}

/-- The value that a counter has after so many strides. -/
def term (modulus stride first index : Nat) : Nat := (first + stride * index) % modulus

/-- One stride more. -/
theorem term_succ (index : Nat) :
    (term modulus stride first index + stride) % modulus =
      term modulus stride first (index + 1) := by
  rw [term, term, Nat.mod_add_mod, Nat.mul_succ, Nat.add_assoc]

/-- A stride that divides the modulus keeps the values alike. -/
theorem term_mod (divides : stride ∣ modulus) (index : Nat) :
    term modulus stride first index % stride = first % stride := by
  rw [term, Nat.mod_mod_of_dvd _ divides, Nat.add_mul_mod_self_left]

/-- Within one turn no value comes back. -/
theorem term_ne (positive : 0 < stride) {index later : Nat} (behind : index < later)
    (near : later < index + modulus / stride) :
    term modulus stride first index ≠ term modulus stride first later := by
  intro hsame
  have hless : stride * index < stride * later := Nat.mul_lt_mul_of_pos_left behind positive
  have hdvd : modulus ∣ stride * later - stride * index := by
    have hmod := (Nat.modEq_iff_dvd' (Nat.add_le_add_left hless.le first)).mp hsame
    rwa [Nat.add_sub_add_left] at hmod
  have hturn : modulus ≤ stride * later - stride * index :=
    Nat.le_of_dvd (Nat.sub_pos_of_lt hless) hdvd
  have hshort : stride * later < stride * index + modulus :=
    calc stride * later
        < stride * (index + modulus / stride) := Nat.mul_lt_mul_of_pos_left near positive
      _ = stride * index + stride * (modulus / stride) := Nat.mul_add _ _ _
      _ ≤ stride * index + modulus := Nat.add_le_add_left (Nat.mul_div_le _ _) _
  omega

end Stride
