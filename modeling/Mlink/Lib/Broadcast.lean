/-
# Bounded broadcast

The values that were ever sent over a channel are a log, and a receiver is a place in
it. The channel holds the latest values only: a receiver that has fallen further behind
is moved on, past the values that are no longer held.
-/

import Mathlib.Data.List.Basic

namespace Broadcast

variable {α : Type}

/-- What a receiver has still to read. -/
def unread (log : List α) (place : Nat) : List α := log.drop place

/-- What a call of `recv` comes to: a value, or the values that it moved past. -/
structure Reading (α : Type) where
  value : Option α
  skipped : List α
  place : Nat

/-- The next value, or an error that says how far the receiver was moved on. -/
def recv (capacity : Nat) (log : List α) (place : Nat) : Reading α :=
  if capacity < log.length - place then
    ⟨none, (unread log place).take (log.length - capacity - place), log.length - capacity⟩
  else
    match log[place]? with
    | none => ⟨none, [], place⟩
    | some value => ⟨some value, [], place + 1⟩

variable {capacity place : Nat}

/-- A receiver that is not beyond the end gets what is sent. -/
theorem unread_append {log : List α} (behind : place ≤ log.length) (sent : List α) :
    unread (log ++ sent) place = unread log place ++ sent :=
  List.drop_append_of_le_length behind

/-- A reading takes nothing but what it returns and what it skips. -/
theorem recv_unread (capacity : Nat) (log : List α) (place : Nat) :
    (recv capacity log place).skipped ++ ((recv capacity log place).value.toList ++
      unread log (recv capacity log place).place) = unread log place := by
  rw [recv]
  split_ifs with hlagging
  · show (unread log place).take (log.length - capacity - place) ++
      log.drop (log.length - capacity) = unread log place
    have hplace : log.length - capacity = place + (log.length - capacity - place) := by omega
    rw [hplace, ← List.drop_drop, Nat.add_sub_cancel_left]
    exact List.take_append_drop _ _
  · cases hvalue : log[place]? with
    | none => rfl
    | some value =>
        obtain ⟨hplace, hget⟩ := List.getElem?_eq_some_iff.mp hvalue
        show value :: log.drop (place + 1) = log.drop place
        rw [← hget, List.getElem_cons_drop]

/-- The same, for what has been gone past. -/
theorem recv_take (capacity : Nat) (log : List α) (place : Nat) :
    log.take (recv capacity log place).place = log.take place ++
      ((recv capacity log place).skipped ++ (recv capacity log place).value.toList) := by
  have hwhole : log.take (recv capacity log place).place ++
      unread log (recv capacity log place).place = log.take place ++
        ((recv capacity log place).skipped ++ (recv capacity log place).value.toList) ++
          unread log (recv capacity log place).place := by
    rw [List.append_assoc, List.append_assoc, recv_unread, unread, unread, List.take_append_drop,
      List.take_append_drop]
  exact List.append_cancel_right hwhole

/-- The same, counted, for what a reader makes of the values. -/
theorem count_unread {β : Type} [BEq β] (capacity : Nat) (log : List α) (place : Nat)
    (made : α → Option β) (result : β) :
    ((unread log place).filterMap made).count result =
      ((recv capacity log place).skipped.filterMap made).count result +
        (((recv capacity log place).value.toList.filterMap made).count result +
          ((unread log (recv capacity log place).place).filterMap made).count result) := by
  rw [← List.count_append, ← List.count_append, ← List.filterMap_append, ← List.filterMap_append,
    recv_unread]

/-- No reading goes beyond the end. -/
theorem recv_place_le {log : List α} (behind : place ≤ log.length) :
    (recv capacity log place).place ≤ log.length := by
  rw [recv]
  split_ifs with hlagging
  · exact Nat.sub_le _ _
  · cases hvalue : log[place]? with
    | none => exact behind
    | some value => exact (List.getElem?_eq_some_iff.mp hvalue).choose

end Broadcast
