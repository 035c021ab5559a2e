/-
# The session record

A session is what one end knows about its peer: the attached links and which of
them is active, the send counter, the receive window, the ring of entries not
yet acknowledged and the acknowledgement debt. Events are kept in the order in
which they were emitted.
-/

import Mlink.Core.Link
import Mlink.Protocol.Ack

namespace Mlink.Core

open Mlink.Protocol

inductive LinkRole
  | active | standby
  deriving DecidableEq, Repr

inductive SwitchCause
  | activeFailed | betterCandidate | manualUserRequest
  deriving DecidableEq, Repr

inductive SessionEvent
  | linkAdded (peerId linkId : String) (kind : TransportKind)
  | linkRemoved (peerId linkId reason : String)
  | switched (peerId source target : String) (cause : SwitchCause)
  deriving DecidableEq, Repr

/-- What the ring keeps of a frame. -/
structure PendingFrame where
  bytes : Bytes
  msgType : MessageType
  deriving DecidableEq, Repr

/-- Accepted frames not yet acknowledged, and when the first of them arrived. -/
structure AckPending where
  count : UInt32
  firstPendingAt : Option Instant
  deriving DecidableEq, Repr

/-- `AckPending::default`. -/
def AckPending.default : AckPending := ⟨0, none⟩

abbrev SessionId := BitVec 128

def MAX_LINKS_PER_PEER : Nat := 4
def ACK_MAX_DELAY_MS : Nat := 50
def ACK_MAX_PENDING : Nat := 8

structure Session where
  peerId : String
  sessionId : SessionId
  links : List Link
  active : Option String
  sendSeq : SeqGen
  dedup : DedupWindow
  unacked : UnackedRing PendingFrame
  events : List SessionEvent
  ackPending : AckPending
  deriving DecidableEq, Repr

namespace Session

/-- A session with no link yet. -/
def new (peerId : String) (sessionId : SessionId) : Session where
  peerId := peerId
  sessionId := sessionId
  links := []
  active := none
  sendSeq := .new
  dedup := .new
  unacked := .new
  events := []
  ackPending := .default

/-- Append an event to what the session has emitted. -/
def emit (session : Session) (event : SessionEvent) : Session :=
  { session with events := session.events ++ [event] }

def linkById (session : Session) (id : String) : Option Link :=
  session.links.find? fun link => link.id == id

/-- Replace the first link with the given id by what `use` makes of it. -/
def updateLinks (links : List Link) (id : String) (use : Link → Link) : List Link :=
  match links with
  | [] => []
  | link :: rest =>
      if link.id = id then use link :: rest else link :: updateLinks rest id use

def updateLink (session : Session) (id : String) (use : Link → Link) : Session :=
  { session with links := updateLinks session.links id use }

/-- There is room for a link of this kind, and none of the kind is there. -/
def Takes (session : Session) (kind : TransportKind) : Prop :=
  session.links.length < MAX_LINKS_PER_PEER ∧ ∀ other ∈ session.links, other.kind ≠ kind

instance (session : Session) (kind : TransportKind) : Decidable (session.Takes kind) :=
  inferInstanceAs (Decidable (_ ∧ _))

/-- Take the first link with the given id out. -/
def removeLink (session : Session) (id : String) : Session :=
  { session with links := session.links.eraseP fun link => link.id == id }

/-- A link that has gone is active no more. -/
def clearActive (session : Session) (id : String) : Session :=
  { session with active := if session.active = some id then none else session.active }

/-- Using a link does not change which ids are attached. -/
theorem map_id_updateLinks (links : List Link) (id : String) {use : Link → Link}
    (keeps : ∀ link, (use link).id = link.id) :
    (updateLinks links id use).map Link.id = links.map Link.id := by
  induction links with
  | nil => rfl
  | cons link rest ih =>
      rw [updateLinks]
      split_ifs
      · simp [keeps]
      · simp [ih]

end Session

end Mlink.Core
