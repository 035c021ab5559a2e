/-
# The daemon's message queue

One bounded bucket for each room. A push beyond the bound evicts the oldest
entry, and a drain takes the whole bucket.
-/

import Mathlib.Data.List.AList

namespace Mlink.Daemon

def MAX_MESSAGES_PER_ROOM : Nat := 500

/-- A queued message. `number` is its place in the order in which the fan-out
processed the messages; the daemon itself does not number them. -/
structure MessageEntry (Value : Type) where
  room : String
  sender : String
  payload : Value
  ts : UInt64
  number : Nat
  deriving DecidableEq, Repr

variable {Value : Type}

structure MessageQueue (Value : Type) where
  queues : AList fun _ : String => List (MessageEntry Value)

namespace MessageQueue

variable (queue : MessageQueue Value) (room : String)

def new : MessageQueue Value := ⟨∅⟩

/-- What is pending for a room. -/
def bucket : List (MessageEntry Value) := (queue.queues.lookup room).getD []

/-- Push onto the room's bucket, evicting the oldest entry of a full one. -/
def push (entry : MessageEntry Value) : MessageQueue Value :=
  let bucket := queue.bucket entry.room
  let bucket := if MAX_MESSAGES_PER_ROOM ≤ bucket.length then bucket.tail else bucket
  ⟨queue.queues.insert entry.room (bucket ++ [entry])⟩

/-- Take everything that is pending for a room. -/
def drain : List (MessageEntry Value) × MessageQueue Value :=
  match queue.queues.lookup room with
  | some bucket => (bucket, ⟨queue.queues.insert room []⟩)
  | none => ([], queue)

def len : Nat := (queue.bucket room).length

def removeRoom : MessageQueue Value := ⟨queue.queues.erase room⟩

variable {queue room}

variable (queue) in
/-- A push appends, and drops at most the oldest entry. -/
theorem bucket_push_self (entry : MessageEntry Value) :
    ∃ kept, kept <:+ queue.bucket entry.room ∧
      (queue.push entry).bucket entry.room = kept ++ [entry] := by
  have hbucket : (queue.push entry).bucket entry.room =
      (if MAX_MESSAGES_PER_ROOM ≤ (queue.bucket entry.room).length then
        (queue.bucket entry.room).tail else queue.bucket entry.room) ++ [entry] := by
    simp [push, bucket]
  refine ⟨_, ?_, hbucket⟩
  split_ifs
  · exact List.tail_suffix _
  · exact List.suffix_refl _

theorem bucket_push_of_ne {entry : MessageEntry Value} (other : room ≠ entry.room) :
    (queue.push entry).bucket room = queue.bucket room := by
  simp [push, bucket, AList.lookup_insert_ne other]

@[simp]
theorem drain_fst : (queue.drain room).1 = queue.bucket room := by
  cases hlookup : queue.queues.lookup room <;> simp [drain, bucket, hlookup]

theorem bucket_drain_self : (queue.drain room).2.bucket room = [] := by
  cases hlookup : queue.queues.lookup room <;> simp [drain, bucket, hlookup]

theorem bucket_drain_of_ne {other : String} (hother : other ≠ room) :
    (queue.drain room).2.bucket other = queue.bucket other := by
  cases hlookup : queue.queues.lookup room <;>
    simp [drain, bucket, hlookup, AList.lookup_insert_ne hother]

/-- A drained bucket is empty, but still there. -/
theorem isSome_lookup_drain (other : String) :
    ((queue.drain room).2.queues.lookup other).isSome = (queue.queues.lookup other).isSome := by
  cases hlookup : queue.queues.lookup room with
  | none => simp only [drain, hlookup]
  | some bucket =>
      simp only [drain, hlookup]
      by_cases same : other = room
      · rw [same, AList.lookup_insert, hlookup]
        rfl
      · rw [AList.lookup_insert_ne same]

theorem bucket_removeRoom_self : (queue.removeRoom room).bucket room = [] := by
  simp [removeRoom, bucket]

theorem bucket_removeRoom_of_ne {other : String} (hother : other ≠ room) :
    (queue.removeRoom room).bucket other = queue.bucket other := by
  simp [removeRoom, bucket, AList.lookup_erase_ne hother]

/-- Draining or removing a room only shrinks buckets. -/
theorem bucket_drain_suffix (other : String) :
    (queue.drain room).2.bucket other <:+ queue.bucket other := by
  by_cases same : other = room
  · rw [same, bucket_drain_self]
    exact List.nil_suffix
  · simp [bucket_drain_of_ne same]

theorem bucket_removeRoom_suffix (other : String) :
    (queue.removeRoom room).bucket other <:+ queue.bucket other := by
  by_cases same : other = room
  · rw [same, bucket_removeRoom_self]
    exact List.nil_suffix
  · simp [bucket_removeRoom_of_ne same]

end MessageQueue

end Mlink.Daemon
