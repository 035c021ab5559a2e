/-
# The end of a history

A buffer of bounded size that evicts its oldest entry holds the end of all that was
ever added to it. What is put back in front of such a buffer can be seen as long as
there is room for it.
-/

import Mathlib.Data.List.DropRight

namespace Recent

variable {α : Type} {bound : Nat}

/-- Add an entry, and evict the oldest one of a full buffer. -/
def push (bound : Nat) (buffer : List α) (entry : α) : List α :=
  (if bound ≤ buffer.length then buffer.tail else buffer) ++ [entry]

theorem length_rtake (history : List α) :
    (history.rtake bound).length = min bound history.length := by
  rw [List.rtake, List.length_drop]
  omega

theorem rtake_of_length_le {history : List α} (short : history.length ≤ bound) :
    history.rtake bound = history := by
  rw [List.rtake, Nat.sub_eq_zero_of_le short, List.drop_zero]

/-- What comes later pushes out the front, whether or not it was cut before. -/
theorem rtake_append_rtake (first second : List α) :
    (first.rtake bound ++ second).rtake bound = (first ++ second).rtake bound := by
  rw [List.rtake_eq_reverse_take_reverse (first ++ second),
    List.rtake_eq_reverse_take_reverse (first.rtake bound ++ second), List.reverse_append,
    List.reverse_append, List.rtake_eq_reverse_take_reverse first, List.reverse_reverse,
    List.take_append, List.take_append, List.take_take, Nat.min_eq_left (Nat.sub_le _ _)]

/-- A buffer that is no longer than it may be holds the end of what it is given. -/
theorem push_eq_rtake (positive : 0 < bound) {buffer : List α} (short : buffer.length ≤ bound)
    (entry : α) : push bound buffer entry = (buffer ++ [entry]).rtake bound := by
  rw [push]
  split_ifs with hfull
  · have hlast : (buffer ++ [entry]).length - bound = 1 := by
      rw [List.length_append, List.length_singleton]
      omega
    have hsome : buffer ≠ [] := List.ne_nil_of_length_pos (Nat.lt_of_lt_of_le positive hfull)
    rw [List.rtake, hlast, List.drop_one, List.tail_append_of_ne_nil hsome]
  · rw [rtake_of_length_le]
    rw [List.length_append, List.length_singleton]
    omega

/-- A buffer never grows longer than it may be. -/
theorem length_push_le (positive : 0 < bound) {buffer : List α} (short : buffer.length ≤ bound)
    (entry : α) : (push bound buffer entry).length ≤ bound := by
  rw [push_eq_rtake positive short, length_rtake]
  exact Nat.min_le_left _ _

/-- The end of a history, and then of the longer one. -/
theorem push_rtake (positive : 0 < bound) (history : List α) (entry : α) :
    push bound (history.rtake bound) entry = (history ++ [entry]).rtake bound := by
  have hshort : (history.rtake bound).length ≤ bound := by
    rw [length_rtake]
    exact Nat.min_le_left _ _
  rw [push_eq_rtake positive hshort, rtake_append_rtake]

/-- What stands in front cannot be seen exactly when it is nothing, or there is no room. -/
theorem rtake_append_eq_iff (first second : List α) :
    (first ++ second).rtake bound = second.rtake bound ↔ first = [] ∨ bound ≤ second.length := by
  constructor
  · intro hsame
    by_contra hnot
    obtain ⟨hsome, hroom⟩ := not_or.mp hnot
    have hlength := congrArg List.length hsame
    rw [length_rtake, length_rtake, List.length_append] at hlength
    have hpos := List.length_pos_iff.mpr hsome
    omega
  · rintro (rfl | hfull)
    · rfl
    · have hdrop : (first ++ second).length - bound = first.length + (second.length - bound) := by
        rw [List.length_append]
        omega
      rw [List.rtake, hdrop, List.drop_length_add_append, List.rtake]

end Recent
