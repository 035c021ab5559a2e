/-
# Serial numbers on a 32-bit circle

A counter that is never reset is logically a natural number, but the wire
carries it modulo `2 ^ 32`. Wrapping subtraction recovers the logical distance
between two counters as long as they are less than a full turn apart, and its
upper half tells a later counter from an earlier one as long as they are less
than half a turn apart.
-/

import Mathlib.Algebra.Order.Group.Nat
import Mathlib.Algebra.Ring.Int.Defs

namespace Serial

/-- The number of steps from `earlier` forward to `later` on the circle. -/
def distance (later earlier : UInt32) : Nat := (later - earlier).toNat

/-- The distance between two wire counters, from their logical values. -/
theorem distance_ofNat (later earlier : Nat) :
    distance (UInt32.ofNat later) (UInt32.ofNat earlier) =
      (later + (2 ^ 32 - earlier % 2 ^ 32)) % 2 ^ 32 := by
  simp only [distance, UInt32.toNat_sub, UInt32.toNat_ofNat']
  omega

/-- Forward distances below a full turn are exact. -/
theorem distance_of_le {later earlier : Nat} (ordered : earlier ≤ later)
    (near : later < earlier + 2 ^ 32) :
    distance (UInt32.ofNat later) (UInt32.ofNat earlier) = later - earlier := by
  rw [distance_ofNat]
  omega

/-- Within half a turn, the lower half of the circle means "not behind". -/
theorem distance_lt_half_iff {later earlier : Nat} (forward : later < earlier + 2 ^ 31)
    (backward : earlier < later + 2 ^ 31) :
    distance (UInt32.ofNat later) (UInt32.ofNat earlier) < 2 ^ 31 ↔ earlier ≤ later := by
  rw [distance_ofNat]
  omega

/-- Advancing the wire counter is advancing the logical one. -/
@[simp]
theorem ofNat_succ (counter : Nat) :
    UInt32.ofNat counter + 1 = UInt32.ofNat (counter + 1) := by
  apply UInt32.toNat_inj.mp
  simp

/-- The distance between two wire counters, from their values. -/
theorem distance_toNat (later earlier : UInt32) :
    distance later earlier = (2 ^ 32 - earlier.toNat + later.toNat) % 2 ^ 32 :=
  UInt32.toNat_sub later earlier

/-- A counter is at no distance from itself alone. -/
theorem distance_eq_zero_iff {later earlier : UInt32} :
    distance later earlier = 0 ↔ later = earlier := by
  have hlater := later.toNat_lt
  have hearlier := earlier.toNat_lt
  rw [distance_toNat, ← UInt32.toNat_inj]
  omega

/-- The distance back from one counter tells the counter. -/
theorem eq_of_distance_eq {later first second : UInt32}
    (same : distance later first = distance later second) : first = second := by
  have hlater := later.toNat_lt
  have hfirst := first.toNat_lt
  have hsecond := second.toNat_lt
  rw [distance_toNat, distance_toNat] at same
  rw [← UInt32.toNat_inj]
  omega

/-- Going back from a later counter passes the counters between. -/
theorem distance_eq_sub {latest later earlier : UInt32}
    (between : distance latest later ≤ distance latest earlier) :
    distance later earlier = distance latest earlier - distance latest later := by
  have hlatest := latest.toNat_lt
  have hlater := later.toNat_lt
  have hearlier := earlier.toNat_lt
  rw [distance_toNat, distance_toNat] at between ⊢
  rw [distance_toNat]
  omega

/-- One counter is ahead of another, by less than half a turn. -/
def Follows (later earlier : UInt32) : Prop :=
  later ≠ earlier ∧ distance later earlier < 2 ^ 31

instance (later earlier : UInt32) : Decidable (Follows later earlier) :=
  inferInstanceAs (Decidable (_ ∧ _))

/-- The logical value that a wire counter stands for: of all values with that wire
form the one nearest to `base`. -/
def nearest (base : Nat) (wire : UInt32) : Int :=
  let ahead := distance wire (UInt32.ofNat base)
  if ahead < 2 ^ 31 then base + ahead else base + ahead - 2 ^ 32

/-- A counter at less than half a turn below the logical value is not ahead of the
wire form. -/
theorem distance_lt_half_of_nearest {base number : Nat} {wire : UInt32}
    (reached : number ≤ nearest base wire) (near : nearest base wire < number + 2 ^ 31) :
    distance wire (UInt32.ofNat number) < 2 ^ 31 := by
  have hwire := wire.toNat_lt
  rw [nearest, distance_toNat, UInt32.toNat_ofNat'] at reached near
  rw [distance_toNat, UInt32.toNat_ofNat']
  split_ifs at reached near with hahead <;> omega

end Serial
