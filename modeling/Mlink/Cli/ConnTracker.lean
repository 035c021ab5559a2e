/-
# The connection tracker of the commands

`serve`, `chat` and `join` keep five tables by wire id and by the app uuid behind
it, so that a peer that the scanner finds again is not dialled again. When the
node reports that a peer is gone, its wires are to be free for another dial.
-/

import Mathlib.Data.Finset.Basic
import Mlink.Lib.Lookup

namespace Mlink.Cli

def MAX_RETRIES : UInt8 := 3

/-- Why a wire is not dialled. -/
inductive SkipReason
  | alreadyInbound
  | alreadyEngaged
  | alreadyConnected (appUuid : String)
  | maxRetries (attempts : UInt8)
  deriving DecidableEq, Repr

namespace SkipReason

/-- The wire is taken to be in use. -/
def inUse : SkipReason → Bool
  | alreadyInbound | alreadyEngaged | alreadyConnected _ => true
  | maxRetries _ => false

end SkipReason

structure ConnTracker where
  engaged : Finset String
  inbound : Finset String
  connected : Finset String
  wireToApp : AList fun _ : String => String
  attempts : AList fun _ : String => UInt8

namespace ConnTracker

def new : ConnTracker := ⟨∅, ∅, ∅, ∅, ∅⟩

variable (tracker : ConnTracker) (wireId appUuid : String)

/-! ## The operations -/

/-- The wire leads to a peer that is connected. -/
def alreadyConnected : Option SkipReason :=
  ((tracker.wireToApp.lookup wireId).filter fun app => app ∈ tracker.connected).map
    .alreadyConnected

def retriesExhausted : Option SkipReason :=
  ((tracker.attempts.lookup wireId).filter fun attempts => MAX_RETRIES ≤ attempts).map .maxRetries

/-- The first reason that applies, in the order in which the commands print them. -/
def shouldSkipDial : Option SkipReason :=
  if wireId ∈ tracker.inbound then some .alreadyInbound
  else if wireId ∈ tracker.engaged then some .alreadyEngaged
  else tracker.alreadyConnected wireId <|> tracker.retriesExhausted wireId

/-- Count an attempt and engage the wire, until the attempts are used up. -/
def bumpAttempt : Option UInt8 × ConnTracker :=
  let attempts := (tracker.attempts.lookup wireId).getD 0
  if MAX_RETRIES ≤ attempts then (none, tracker)
  else
    (some (attempts + 1),
      { tracker with
        attempts := tracker.attempts.insert wireId (attempts + 1)
        engaged := insert wireId tracker.engaged })

def onDialOk : ConnTracker :=
  { tracker with
    attempts := tracker.attempts.erase wireId
    wireToApp := tracker.wireToApp.insert wireId appUuid
    connected := insert appUuid tracker.connected }

def onDialErr : ConnTracker := { tracker with engaged := tracker.engaged.erase wireId }

/-- A peer from another room is not dialled again. -/
def markRoomMismatchDial : ConnTracker :=
  { tracker with
    attempts := tracker.attempts.insert wireId MAX_RETRIES
    engaged := tracker.engaged.erase wireId }

def onAcceptBegin : ConnTracker :=
  { tracker with
    engaged := insert wireId tracker.engaged
    inbound := insert wireId tracker.inbound }

/-- The same bookkeeping as for a dial. -/
def onAcceptOk : ConnTracker :=
  { tracker with
    attempts := tracker.attempts.erase wireId
    wireToApp := tracker.wireToApp.insert wireId appUuid
    connected := insert appUuid tracker.connected }

def onAcceptErr : ConnTracker :=
  { tracker with
    engaged := tracker.engaged.erase wireId
    inbound := tracker.inbound.erase wireId }

def onPeerConnected : ConnTracker :=
  { tracker with connected := insert appUuid tracker.connected }

/-- Forget the peer, and that any wire led to it. -/
def onPeerDisconnected : ConnTracker :=
  { tracker with
    connected := tracker.connected.erase appUuid
    wireToApp := Lookup.retain tracker.wireToApp fun app => app ≠ appUuid }

end ConnTracker

/-- The calls that the commands make. -/
inductive TrackerOp
  | bumpAttempt (wireId : String)
  | onDialOk (wireId appUuid : String)
  | onDialErr (wireId : String)
  | markRoomMismatchDial (wireId : String)
  | onAcceptBegin (wireId : String)
  | onAcceptOk (wireId appUuid : String)
  | onAcceptErr (wireId : String)
  | onPeerConnected (appUuid : String)
  | onPeerDisconnected (appUuid : String)
  deriving DecidableEq, Repr

namespace ConnTracker

def apply (tracker : ConnTracker) : TrackerOp → ConnTracker
  | .bumpAttempt wireId => (tracker.bumpAttempt wireId).2
  | .onDialOk wireId appUuid => tracker.onDialOk wireId appUuid
  | .onDialErr wireId => tracker.onDialErr wireId
  | .markRoomMismatchDial wireId => tracker.markRoomMismatchDial wireId
  | .onAcceptBegin wireId => tracker.onAcceptBegin wireId
  | .onAcceptOk wireId appUuid => tracker.onAcceptOk wireId appUuid
  | .onAcceptErr wireId => tracker.onAcceptErr wireId
  | .onPeerConnected appUuid => tracker.onPeerConnected appUuid
  | .onPeerDisconnected appUuid => tracker.onPeerDisconnected appUuid

/-- The tracker after a history of calls. -/
def afterOps (history : List TrackerOp) : ConnTracker := history.foldl apply new

variable (tracker : ConnTracker) (appUuid : String)

/-- A disconnect of the peer now leaves none of its wires in use, and whether any
other wire is dialled is as before. -/
structure Frees : Prop where
  freed : ∀ wireId, tracker.wireToApp.lookup wireId = some appUuid →
    ∀ reason ∈ (tracker.onPeerDisconnected appUuid).shouldSkipDial wireId, reason.inUse = false
  kept : ∀ wireId, tracker.wireToApp.lookup wireId ≠ some appUuid →
    (tracker.onPeerDisconnected appUuid).shouldSkipDial wireId = tracker.shouldSkipDial wireId

/-- No wire of the peer is engaged or held as inbound. -/
def Released : Prop :=
  ∀ wireId, tracker.wireToApp.lookup wireId = some appUuid →
    wireId ∉ tracker.engaged ∧ wireId ∉ tracker.inbound

variable {tracker} {appUuid} {wireId : String}

/-! ## What a disconnect does to a wire -/

/-- A wire of the peer no longer leads anywhere. -/
theorem alreadyConnected_onPeerDisconnected_of_mapped
    (mapped : tracker.wireToApp.lookup wireId = some appUuid) :
    (tracker.onPeerDisconnected appUuid).alreadyConnected wireId = none := by
  rw [alreadyConnected, onPeerDisconnected, Lookup.lookup_retain, mapped]
  simp

/-- A wire of another peer, or of none, leads where it led. -/
theorem alreadyConnected_onPeerDisconnected_of_ne
    (unmapped : tracker.wireToApp.lookup wireId ≠ some appUuid) :
    (tracker.onPeerDisconnected appUuid).alreadyConnected wireId =
      tracker.alreadyConnected wireId := by
  rw [alreadyConnected, alreadyConnected, onPeerDisconnected, Lookup.lookup_retain]
  cases hlookup : tracker.wireToApp.lookup wireId with
  | none => rfl
  | some app =>
      have hother : app ≠ appUuid := by
        intro hsame
        rw [hlookup, hsame] at unmapped
        exact unmapped rfl
      simp [Option.filter, hother]

/-- Neither the engaged wires, the inbound ones nor the attempts change. -/
theorem shouldSkipDial_onPeerDisconnected_of_ne
    (unmapped : tracker.wireToApp.lookup wireId ≠ some appUuid) :
    (tracker.onPeerDisconnected appUuid).shouldSkipDial wireId =
      tracker.shouldSkipDial wireId := by
  rw [shouldSkipDial, shouldSkipDial, alreadyConnected_onPeerDisconnected_of_ne unmapped]
  rfl

theorem inUse_of_retriesExhausted {reason : SkipReason}
    (exhausted : reason ∈ tracker.retriesExhausted wireId) : reason.inUse = false := by
  rw [retriesExhausted, Option.mem_map] at exhausted
  obtain ⟨attempts, _, rfl⟩ := exhausted
  rfl

/-- A wire of the peer is free exactly when it is neither engaged nor inbound. -/
theorem free_iff (mapped : tracker.wireToApp.lookup wireId = some appUuid) :
    (∀ reason ∈ (tracker.onPeerDisconnected appUuid).shouldSkipDial wireId,
        reason.inUse = false) ↔
      wireId ∉ tracker.engaged ∧ wireId ∉ tracker.inbound := by
  have hconnected := alreadyConnected_onPeerDisconnected_of_mapped mapped
  have hinbound : (tracker.onPeerDisconnected appUuid).inbound = tracker.inbound := rfl
  have hengaged : (tracker.onPeerDisconnected appUuid).engaged = tracker.engaged := rfl
  rw [shouldSkipDial, hconnected, hinbound, hengaged]
  by_cases hin : wireId ∈ tracker.inbound
  · simp [hin, SkipReason.inUse]
  · by_cases heng : wireId ∈ tracker.engaged
    · simp [hin, heng, SkipReason.inUse]
    · rw [if_neg hin, if_neg heng]
      apply iff_of_true _ ⟨heng, hin⟩
      intro reason hreason
      exact inUse_of_retriesExhausted hreason

theorem frees_iff_released : tracker.Frees appUuid ↔ tracker.Released appUuid := by
  constructor
  · intro frees wireId mapped
    exact (free_iff mapped).mp (frees.freed wireId mapped)
  · intro released
    exact ⟨fun wireId mapped => (free_iff mapped).mpr (released wireId mapped),
      fun wireId unmapped => shouldSkipDial_onPeerDisconnected_of_ne unmapped⟩

/-! ## Histories -/

/-- In a history every disconnect frees its peer exactly when every disconnect
finds the peer's wires released. -/
theorem frees_throughout_iff (history : List TrackerOp) :
    (∀ earlier appUuid later, history = earlier ++ .onPeerDisconnected appUuid :: later →
        (afterOps earlier).Frees appUuid) ↔
      ∀ earlier appUuid later, history = earlier ++ .onPeerDisconnected appUuid :: later →
        (afterOps earlier).Released appUuid := by
  simp only [frees_iff_released]

/-- A wire that has been dialled stays engaged for as long as the dial is not
reported as failed. -/
def dialOnce : List TrackerOp := [.bumpAttempt "wire-1", .onDialOk "wire-1" "app-uuid-A"]

theorem not_frees_dialOnce : ¬ (afterOps dialOnce).Frees "app-uuid-A" := by
  intro frees
  have hfree := frees.freed "wire-1" (by decide) .alreadyEngaged (by decide)
  cases hfree

end ConnTracker

end Mlink.Cli
