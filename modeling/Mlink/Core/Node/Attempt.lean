/-
# Attempts at a connection

`connectPeer` and `acceptIncoming` await a lock, the transport or the peer again and
again, and whoever awaits the call may drop it at any of these points. An attempt that
comes to nothing is to leave the node's tables and its stream of events as they were
and the connection closed.

It does not. A dial marks the wire id before it has a connection and never takes the
mark back; a call that is dropped closes nothing, and once its link is attached it
leaves some tables with the peer and others without.
-/

import Mlink.Core.Node.Connect
import Mlink.Core.Session.ManagerInvariant
import Mlink.Lib.Transition

namespace Mlink.Core

open Mlink.Protocol

/-- The call that makes the attempt. -/
inductive AttemptCall
  | connectPeer (wireId name transportId : String) (transportCaps : TransportCapabilities)
  | acceptIncoming (conn : ConnId) (wireId transportId fallbackName : String)

namespace AttemptCall

def wireId : AttemptCall → String
  | connectPeer wireId _ _ _ | acceptIncoming _ wireId _ _ => wireId

def name : AttemptCall → String
  | connectPeer _ name _ _ | acceptIncoming _ _ _ name => name

def transportId : AttemptCall → String
  | connectPeer _ _ transportId _ | acceptIncoming _ _ transportId _ => transportId

def transportCaps : AttemptCall → TransportCapabilities
  | connectPeer _ _ _ transportCaps => transportCaps
  | acceptIncoming _ _ transportId _ => defaultCapsForWire transportId

end AttemptCall

/-- What has become of the connection of an attempt that is over. -/
inductive ConnFate
  /-- There never was one. -/
  | unmade
  /-- `close` has been called on it and has returned. -/
  | closed
  /-- The call let go of it without closing it. -/
  | letGo
  /-- A link of the peer's session has it. -/
  | attached
  deriving DecidableEq, Repr

/-- What an attempt awaits: the lock of a table, the transport, the peer's handshake, or
the end of a close. -/
inductive AttemptStage
  | marking
  | dialling
  | shaking (conn : ConnId)
  | closing (result : Result String)
  | looking (conn : ConnId) (peerHs : Handshake)
  | attaching (conn : ConnId) (peerHs : Handshake) (isFirstLink : Bool)
  | keeping (peerId : String) (link : Link) (isFirstLink : Bool)
  | listing (peer : Peer) (link : Link) (isFirstLink : Bool)
  | recording (peer : Peer) (link : Link) (isFirstLink : Bool)
  | bridging (peerId : String)
  | ended (result : Option (Result String)) (fate : ConnFate)

/-- What becomes of the connection when the call is dropped at this point. -/
def AttemptStage.dropped : AttemptStage → ConnFate
  | marking | dialling => .unmade
  | shaking _ | closing _ | looking _ _ | attaching _ _ _ => .letGo
  | keeping _ _ _ | listing _ _ _ | recording _ _ _ | bridging _ => .attached
  | ended _ fate => fate

/-- What the attempt awaited is there, or the call is dropped. -/
inductive AttemptEvent
  | granted (now : Instant)
  | connected (outcome : Result ConnId)
  | shaken (outcome : Result Handshake)
  | attach (draw : RegistrationDraw) (now : Instant)
  | dropped

/-- An attempt: the node when the call began, and as it is. -/
structure Attempt where
  call : AttemptCall
  before : Node
  node : Node
  stage : AttemptStage

namespace Attempt

/-- A dial has to mark the wire id first; an accepted connection is at hand. -/
def start (call : AttemptCall) (node : Node) : Attempt :=
  { call
    before := node
    node
    stage :=
      match call with
      | .connectPeer .. => .marking
      | .acceptIncoming conn _ _ _ => .shaking conn }

variable (attempt : Attempt)

/-- Attach the link, or close the connection if the session refuses it. -/
def attachLink (conn : ConnId) (peerHs : Handshake) (isFirstLink : Bool)
    (draw : RegistrationDraw) (now : Instant) : Attempt :=
  let peerId := peerHs.appUuid
  let kind := (TransportKind.fromWire attempt.call.transportId).getD .mock
  let link := Link.new (makeLinkId kind peerId draw.linkNonce) conn kind
    attempt.call.transportCaps now
  let attached := attempt.node.sessions.attachLink peerId link peerHs.sessionId draw.sessionId
  if attached.1.isAttached then
    { attempt with
      node := { attempt.node with sessions := attached.2 }
      stage := .keeping peerId link isFirstLink }
  else { attempt with stage := .closing (.ok peerId) }

/-- Record the peer as connected and say so. -/
def record (peer : Peer) (link : Link) (isFirstLink : Bool) (now : Instant) : Node :=
  let node := attempt.node
  let state := (node.peerStates.lookup peer.id).getD .new
  let recorded : Node :=
    { node with
      peerStates := node.peerStates.insert peer.id
        { state with state := .connected, lastHeartbeat := some now }
      state := .connected }
  let added := recorded.emit (.linkAdded peer.id link.id link.kind)
  if isFirstLink then added.emit (.peerConnected peer.id) else added

/-- One step. What an attempt does not await leaves it where it is. -/
def step (attempt : Attempt) (event : AttemptEvent) : Attempt :=
  let node := attempt.node
  match attempt.stage, event with
  | .ended _ _, _ => attempt
  | stage, .dropped => { attempt with stage := .ended none stage.dropped }
  | .marking, .granted _ =>
      { attempt with
        node := node.setPeerState attempt.call.wireId .connecting
        stage := .dialling }
  | .dialling, .connected (.error e) =>
      { attempt with stage := .ended (some (.error e)) .unmade }
  | .dialling, .connected (.ok conn) => { attempt with stage := .shaking conn }
  | .shaking _, .shaken (.error e) => { attempt with stage := .closing (.error e) }
  | .shaking conn, .shaken (.ok peerHs) =>
      match node.checkRoom peerHs attempt.call.wireId with
      | .error e => { attempt with stage := .closing (.error e) }
      | .ok () => { attempt with stage := .looking conn peerHs }
  | .closing result, .granted _ => { attempt with stage := .ended (some result) .closed }
  | .looking conn peerHs, .granted _ =>
      { attempt with
        stage := .attaching conn peerHs (!node.sessions.contains peerHs.appUuid) }
  | .attaching conn peerHs isFirstLink, .attach draw now =>
      attempt.attachLink conn peerHs isFirstLink draw now
  | .keeping peerId link isFirstLink, .granted now =>
      { attempt with
        node := { node with connections := node.connections.insert peerId link.conn }
        stage := .listing ⟨peerId, attempt.call.name, peerId, now, attempt.call.transportId⟩ link
          isFirstLink }
  | .listing peer link isFirstLink, .granted _ =>
      { attempt with
        node := { node with peerManager := node.peerManager.insert peer.id peer }
        stage := .recording peer link isFirstLink }
  | .recording peer link isFirstLink, .granted now =>
      { attempt with
        node := attempt.record peer link isFirstLink now
        stage := .bridging peer.id }
  | .bridging peerId, .granted _ => { attempt with stage := .ended (some (.ok peerId)) .attached }
  | _, _ => attempt

/-! ## An attempt that is not dropped -/

/-- From the peer's handshake on, with every lock granted, an attempt does what
registration does. -/
theorem foldl_step_eq_registration (conn : ConnId) (peerHs : Handshake) (draw : RegistrationDraw)
    (now : Instant) (hstage : attempt.stage = .shaking conn) :
    let registration := attempt.node.registerAfterHandshake peerHs conn attempt.call.name
      attempt.call.transportId attempt.call.transportCaps attempt.call.wireId draw now
    [.shaken (.ok peerHs), .granted now, .attach draw now, .granted now, .granted now,
        .granted now, .granted now].foldl step attempt =
      { attempt with
        node := registration.node
        stage := .ended (some registration.result)
          (if registration.closed then .closed else .attached) } := by
  obtain ⟨call, before, node, stage⟩ := attempt
  obtain rfl : stage = .shaking conn := hstage
  cases hroom : node.checkRoom peerHs call.wireId with
  | error e =>
      simp [step, hroom, Node.registerAfterHandshake_of_mismatch hroom]
  | ok value =>
      cases hattached : (node.sessions.attachLink peerHs.appUuid
          (Link.new (makeLinkId ((TransportKind.fromWire call.transportId).getD .mock)
              peerHs.appUuid draw.linkNonce) conn
            ((TransportKind.fromWire call.transportId).getD .mock) call.transportCaps now)
          peerHs.sessionId draw.sessionId).1.isAttached with
      | false =>
          simp [step, hroom, attachLink, hattached, Node.registerAfterHandshake]
      | true =>
          simp [step, hroom, attachLink, hattached, Node.registerAfterHandshake, record,
            Node.enterPeer]

end Attempt

/-! ## Leaving the node as it was -/

/-- Two nodes have the same sessions, connections, peers and peer states, and have sent
the same events. -/
structure SameTables (before after : Node) : Prop where
  sessions : after.sessions = before.sessions
  connections : after.connections = before.connections
  peerManager : after.peerManager = before.peerManager
  peerStates : ∀ peerId, after.peerStates.lookup peerId = before.peerStates.lookup peerId
  events : after.events = before.events

theorem SameTables.refl (node : Node) : SameTables node node := ⟨rfl, rfl, rfl, fun _ => rfl, rfl⟩

/-- The connection is closed, or there is none. A connection that nobody holds any more
may close by itself, as a socket does. -/
def ConnFate.Released (closesOnDrop : Bool) : ConnFate → Prop
  | unmade | closed => True
  | letGo => closesOnDrop = true
  | attached => False

namespace AttemptCall

/-- The node once the attempt is on its way: a dial has marked the wire id. -/
def marked : AttemptCall → Node → Node
  | connectPeer wireId _ _ _, node => node.setPeerState wireId .connecting
  | acceptIncoming .., node => node

end AttemptCall

namespace Attempt

variable (closesOnDrop : Bool) (attempt : Attempt)

/-- What the node is at each stage up to the attaching of the link. -/
def Tracks : Prop :=
  match attempt.stage with
  | .marking => attempt.node = attempt.before ∧
      attempt.call.marked attempt.before =
        attempt.before.setPeerState attempt.call.wireId .connecting
  | .dialling | .shaking _ | .closing _ | .looking _ _ | .attaching _ _ _ =>
      attempt.node = attempt.call.marked attempt.before
  | .keeping _ _ _ | .listing _ _ _ | .recording _ _ _ | .bridging _ | .ended _ _ => True

variable {closesOnDrop attempt}

/-- A refused link leaves the sessions alone, and a link that is taken is tracked no
further. -/
theorem tracks_attachLink (conn : ConnId) (peerHs : Handshake) (isFirstLink : Bool)
    (draw : RegistrationDraw) (now : Instant)
    (hnode : attempt.node = attempt.call.marked attempt.before) :
    (attempt.attachLink conn peerHs isFirstLink draw now).Tracks := by
  rw [attachLink]
  dsimp only
  split_ifs
  · trivial
  · exact hnode

theorem Tracks.step (tracks : attempt.Tracks) (event : AttemptEvent) :
    (attempt.step event).Tracks := by
  obtain ⟨call, before, node, stage⟩ := attempt
  cases stage with
  | marking =>
      obtain ⟨hnode, hmarked⟩ := tracks
      obtain rfl : node = before := hnode
      cases event with
      | granted now => exact hmarked.symm
      | dropped => trivial
      | connected outcome => exact ⟨rfl, hmarked⟩
      | shaken outcome => exact ⟨rfl, hmarked⟩
      | attach draw now => exact ⟨rfl, hmarked⟩
  | dialling =>
      cases event with
      | connected outcome =>
          cases outcome with
          | error e => trivial
          | ok conn => exact tracks
      | dropped => trivial
      | _ => exact tracks
  | shaking conn =>
      cases event with
      | shaken outcome =>
          cases outcome with
          | error e => exact tracks
          | ok peerHs =>
              simp only [Attempt.step]
              split
              · exact tracks
              · exact tracks
      | dropped => trivial
      | _ => exact tracks
  | closing result =>
      cases event with
      | granted now => trivial
      | dropped => trivial
      | _ => exact tracks
  | looking conn peerHs =>
      cases event with
      | dropped => trivial
      | _ => exact tracks
  | attaching conn peerHs isFirstLink =>
      cases event with
      | attach draw now => exact tracks_attachLink conn peerHs isFirstLink draw now tracks
      | dropped => trivial
      | _ => exact tracks
  | keeping peerId link isFirstLink => cases event <;> trivial
  | listing peer link isFirstLink => cases event <;> trivial
  | recording peer link isFirstLink => cases event <;> trivial
  | bridging peerId => cases event <;> trivial
  | ended result fate => cases event <;> trivial

end Attempt

end Mlink.Core
