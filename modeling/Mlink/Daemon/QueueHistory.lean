/-
# What a room's queue holds

A run of the queue pushes messages, drains rooms and removes them. Seen from outside the
queue is a bounded list for each room. What such a list holds depends on the end of the
run alone: on what was pushed to the room since it was last drained or removed, and of
that on the most recent messages.
-/

import Mathlib.Logic.Function.Basic
import Mlink.Daemon.Queue
import Mlink.Lib.Recent

namespace Mlink.Daemon

/-- One call of the queue. -/
inductive QueueOp (Value : Type)
  | push (entry : MessageEntry Value)
  | drain (room : String)
  | removeRoom (room : String)
  deriving DecidableEq, Repr

variable {Value : Type} {room : String}

namespace QueueOp

/-- What a call makes of one list for each room. -/
def act (lists : String → List (MessageEntry Value)) :
    QueueOp Value → String → List (MessageEntry Value)
  | push entry =>
      Function.update lists entry.room
        (Recent.push MAX_MESSAGES_PER_ROOM (lists entry.room) entry)
  | drain room | removeRoom room => Function.update lists room []

/-- The call leaves nothing in the room. -/
def clears (room : String) : QueueOp Value → Bool
  | push _ => false
  | drain other | removeRoom other => other = room

/-- What the call pushes to the room. -/
def pushed (room : String) : QueueOp Value → Option (MessageEntry Value)
  | push entry => if entry.room = room then some entry else none
  | drain _ | removeRoom _ => none

/-- The messages pushed to a room since its last drain or removal, in the order of the
pushes. -/
def pushedSince (ops : List (QueueOp Value)) (room : String) : List (MessageEntry Value) :=
  (ops.rtakeWhile fun op => !op.clears room).filterMap (pushed room)

/-- A call that clears the room starts its history again, any other one extends it. -/
theorem pushedSince_concat (ops : List (QueueOp Value)) (op : QueueOp Value) (room : String) :
    pushedSince (ops ++ [op]) room =
      if op.clears room then [] else pushedSince ops room ++ (op.pushed room).toList := by
  rw [pushedSince, List.rtakeWhile_concat]
  cases hclears : op.clears room with
  | true => simp
  | false =>
      cases hpushed : op.pushed room with
      | none => simp [pushedSince, hpushed]
      | some entry => simp [pushedSince, hpushed]

/-- A list that holds the end of a history does so after every call. -/
theorem act_of_holds {lists : String → List (MessageEntry Value)}
    {history : List (MessageEntry Value)} (op : QueueOp Value)
    (holds : lists room = history.rtake MAX_MESSAGES_PER_ROOM) :
    op.act lists room =
      (if op.clears room then [] else history ++ (op.pushed room).toList).rtake
        MAX_MESSAGES_PER_ROOM := by
  cases op with
  | push entry =>
      by_cases hroom : entry.room = room
      · subst hroom
        rw [act, Function.update_self, holds, Recent.push_rtake (by decide)]
        simp [clears, pushed]
      · rw [act, Function.update_of_ne (Ne.symm hroom), holds]
        simp [clears, pushed, hroom]
  | drain other =>
      by_cases hroom : other = room
      · simp [act, clears, hroom]
      · rw [act, Function.update_of_ne (Ne.symm hroom), holds]
        simp [clears, pushed, hroom]
  | removeRoom other =>
      by_cases hroom : other = room
      · simp [act, clears, hroom]
      · rw [act, Function.update_of_ne (Ne.symm hroom), holds]
        simp [clears, pushed, hroom]

end QueueOp

namespace MessageQueue

variable (queue : MessageQueue Value)

def perform : QueueOp Value → MessageQueue Value
  | .push entry => queue.push entry
  | .drain room => (queue.drain room).2
  | .removeRoom room => queue.removeRoom room

/-- The queue after a run. -/
def after (ops : List (QueueOp Value)) : MessageQueue Value := ops.foldl perform new

/-- A push adds to the end of a bucket, and evicts from its front. -/
theorem bucket_push (entry : MessageEntry Value) :
    (queue.push entry).bucket entry.room =
      Recent.push MAX_MESSAGES_PER_ROOM (queue.bucket entry.room) entry := by
  simp [push, bucket, Recent.push]

/-- The queue does what is done to one list for each room. -/
theorem bucket_perform (op : QueueOp Value) :
    (queue.perform op).bucket = op.act queue.bucket := by
  funext room
  cases op with
  | push entry =>
      by_cases hroom : room = entry.room
      · rw [hroom, perform, bucket_push, QueueOp.act, Function.update_self]
      · rw [perform, bucket_push_of_ne hroom, QueueOp.act, Function.update_of_ne hroom]
  | drain other =>
      by_cases hroom : room = other
      · rw [hroom, perform, bucket_drain_self, QueueOp.act, Function.update_self]
      · rw [perform, bucket_drain_of_ne hroom, QueueOp.act, Function.update_of_ne hroom]
  | removeRoom other =>
      by_cases hroom : room = other
      · rw [hroom, perform, bucket_removeRoom_self, QueueOp.act, Function.update_self]
      · rw [perform, bucket_removeRoom_of_ne hroom, QueueOp.act, Function.update_of_ne hroom]

/-- After any run a bucket holds the most recent of what was pushed since it was last
cleared. -/
theorem bucket_after (ops : List (QueueOp Value)) (room : String) :
    (after ops).bucket room =
      (QueueOp.pushedSince ops room).rtake MAX_MESSAGES_PER_ROOM := by
  induction ops using List.reverseRecOn with
  | nil => simp [after, new, bucket, QueueOp.pushedSince]
  | append_singleton ops op ih =>
      rw [after] at ih
      rw [after, List.foldl_append, List.foldl_cons, List.foldl_nil, bucket_perform,
        QueueOp.act_of_holds op ih, QueueOp.pushedSince_concat]

/-- After any run, a drain returns the most recent messages pushed to the room since its
last drain or removal, in the order of the pushes, at most as many as a room may have; it
leaves the room empty, and every other room as it was. -/
theorem drain_after (ops : List (QueueOp Value)) (room : String) :
    ((after ops).drain room).1 =
        (QueueOp.pushedSince ops room).rtake MAX_MESSAGES_PER_ROOM ∧
      ((after ops).drain room).1.length ≤ MAX_MESSAGES_PER_ROOM ∧
      ((after ops).drain room).2.bucket room = [] ∧
      ∀ other ≠ room, ((after ops).drain room).2.bucket other = (after ops).bucket other := by
  have hdrained : ((after ops).drain room).1 =
      (QueueOp.pushedSince ops room).rtake MAX_MESSAGES_PER_ROOM := by
    rw [drain_fst, bucket_after]
  refine ⟨hdrained, ?_, bucket_drain_self, fun other hother => bucket_drain_of_ne hother⟩
  rw [hdrained, Recent.length_rtake]
  exact Nat.min_le_left _ _

end MessageQueue

end Mlink.Daemon
