/-
# Registering a connection

After the handshake, the dialling and the accepting side do the same: check the
room, attach the connection as a link of the peer's session, and enter the peer
in the node's tables. A connection that is refused is closed, and the tables
stay as they were.
-/

import Mlink.Core.Node.Types

namespace Mlink.Core

open Mlink.Protocol

/-- What registration reads of a peer's handshake. -/
structure Handshake where
  appUuid : String
  roomHash : Option RoomHash
  sessionId : Option SessionId
  deriving DecidableEq, Repr

/-- What a registration returns, the node it leaves, and whether it closed the
connection. -/
structure Registration where
  result : Result String
  node : Node
  closed : Bool

/-- The random values that a registration draws. -/
structure RegistrationDraw where
  linkNonce : UInt32
  sessionId : SessionId
  deriving DecidableEq, Repr

def hexDigits (width value : Nat) : String :=
  let digits := Nat.toDigits 16 value
  String.ofList (List.replicate (width - digits.length) '0' ++ digits)

/-- The kind, the first eight characters of the peer id less trailing dashes,
and a random number. -/
def makeLinkId (kind : TransportKind) (peerId : String) (nonce : UInt32) : String :=
  let short := ((peerId.toList.take 8).reverse.dropWhile (· == '-')).reverse
  kind.asWire ++ ":" ++ String.ofList short ++ ":" ++ hexDigits 8 nonce.toNat

def defaultCapsForKind : TransportKind → TransportCapabilities
  | .ble => ⟨200000⟩
  | .tcp => ⟨10000000⟩
  | .ipc => ⟨100000000⟩
  | .mock => ⟨1000000⟩

def defaultCapsForWire (wire : String) : TransportCapabilities :=
  defaultCapsForKind ((TransportKind.fromWire wire).getD .mock)

namespace Node

variable (node : Node)

/-- The room a node names in its handshake: the first in its set's order. -/
def wireRoomHash : Option RoomHash := node.roomHashes.head?

/-- A node has no session to resume when it shakes hands. -/
def localHandshake : Handshake := ⟨node.appUuid, node.wireRoomHash, none⟩

/-- A node in no room takes every peer, and one in rooms those that name one of
them. -/
def admits (roomHash : Option RoomHash) : Bool :=
  node.roomHashes.isEmpty || roomHash.any fun hash => hash ∈ node.roomHashes

def checkRoom (peerHs : Handshake) (mismatchPeerId : String) : Result Unit :=
  if node.admits peerHs.roomHash then .ok () else .error (.roomMismatch mismatchPeerId)

def setPeerState (peerId : String) (state : NodeState) : Node :=
  { node with
    peerStates := node.peerStates.insert peerId
      { ((node.peerStates.lookup peerId).getD .new) with state } }

/-- The node after it has taken a link into the peer's session. -/
def enterPeer (sessions : SessionManager) (peer : Peer) (link : Link) (isFirstLink : Bool)
    (now : Instant) : Node :=
  let state := (node.peerStates.lookup peer.id).getD .new
  let entered : Node :=
    { node with
      sessions
      connections := node.connections.insert peer.id link.conn
      peerManager := node.peerManager.insert peer.id peer
      peerStates := node.peerStates.insert peer.id
        { state with state := .connected, lastHeartbeat := some now }
      state := .connected }
  let added := entered.emit (.linkAdded peer.id link.id link.kind)
  if isFirstLink then added.emit (.peerConnected peer.id) else added

/-- Check the room, attach the link, enter the peer. -/
def registerAfterHandshake (peerHs : Handshake) (conn : ConnId) (name transportId : String)
    (transportCaps : TransportCapabilities) (mismatchPeerId : String) (draw : RegistrationDraw)
    (now : Instant) : Registration :=
  match node.checkRoom peerHs mismatchPeerId with
  | .error e => ⟨.error e, node, true⟩
  | .ok () =>
      let peerId := peerHs.appUuid
      let kind := (TransportKind.fromWire transportId).getD .mock
      let link := Link.new (makeLinkId kind peerId draw.linkNonce) conn kind transportCaps now
      let attached := node.sessions.attachLink peerId link peerHs.sessionId draw.sessionId
      if attached.1.isAttached then
        let peer : Peer := ⟨peerId, name, peerId, now, transportId⟩
        ⟨.ok peerId, node.enterPeer attached.2 peer link (!node.sessions.contains peerId) now,
          false⟩
      else ⟨.ok peerId, node, true⟩

/-- The peers the node lists as connected. -/
def lists (peerId : String) : Prop := (node.peerManager.lookup peerId).isSome = true

instance (peerId : String) : Decidable (node.lists peerId) :=
  inferInstanceAs (Decidable ((node.peerManager.lookup peerId).isSome = true))

/-- The node's session for a peer holds one link, over the given connection. -/
def Holds (peerId : String) (conn : ConnId) : Prop :=
  ∃ session link, node.sessions.get peerId = some session ∧ session.links = [link] ∧
    link.conn = conn

variable {node} {peerHs : Handshake} {conn : ConnId} {name transportId mismatchPeerId : String}
  {transportCaps : TransportCapabilities} {draw : RegistrationDraw} {now : Instant}

@[simp]
theorem enterPeer_sessions (sessions : SessionManager) (peer : Peer) (link : Link)
    (isFirstLink : Bool) (now : Instant) :
    (node.enterPeer sessions peer link isFirstLink now).sessions = sessions := by
  cases isFirstLink <;> rfl

@[simp]
theorem enterPeer_peerManager (sessions : SessionManager) (peer : Peer) (link : Link)
    (isFirstLink : Bool) (now : Instant) :
    (node.enterPeer sessions peer link isFirstLink now).peerManager =
      node.peerManager.insert peer.id peer := by
  cases isFirstLink <;> rfl

@[simp]
theorem enterPeer_roomHashes (sessions : SessionManager) (peer : Peer) (link : Link)
    (isFirstLink : Bool) (now : Instant) :
    (node.enterPeer sessions peer link isFirstLink now).roomHashes = node.roomHashes := by
  cases isFirstLink <;> rfl

@[simp]
theorem enterPeer_appUuid (sessions : SessionManager) (peer : Peer) (link : Link)
    (isFirstLink : Bool) (now : Instant) :
    (node.enterPeer sessions peer link isFirstLink now).appUuid = node.appUuid := by
  cases isFirstLink <;> rfl

variable (node peerHs conn name transportId mismatchPeerId transportCaps draw now) in
/-- A registration never changes who the node is or which rooms it is in. -/
theorem registerAfterHandshake_identity :
    let registration := node.registerAfterHandshake peerHs conn name transportId transportCaps
      mismatchPeerId draw now
    registration.node.roomHashes = node.roomHashes ∧ registration.node.appUuid = node.appUuid := by
  simp only [registerAfterHandshake]
  cases node.checkRoom peerHs mismatchPeerId with
  | error e => exact ⟨rfl, rfl⟩
  | ok value =>
      split_ifs
      · simp
      · exact ⟨rfl, rfl⟩

/-- A peer from another room is refused, and nothing changes. -/
theorem registerAfterHandshake_of_mismatch {e : MlinkError}
    (mismatch : node.checkRoom peerHs mismatchPeerId = .error e) :
    node.registerAfterHandshake peerHs conn name transportId transportCaps mismatchPeerId draw
      now = ⟨.error e, node, true⟩ := by
  rw [registerAfterHandshake, mismatch]

variable (conn name transportId transportCaps draw now) in
/-- The first connection of a peer is kept: the session has it as its one link,
and the peer is listed. -/
theorem registerAfterHandshake_of_unknown
    (accepted : node.checkRoom peerHs mismatchPeerId = .ok ())
    (unknown : node.sessions.get peerHs.appUuid = none) (fresh : peerHs.sessionId = none) :
    let registration := node.registerAfterHandshake peerHs conn name transportId transportCaps
      mismatchPeerId draw now
    registration.closed = false ∧ registration.node.lists peerHs.appUuid ∧
      ∃ session link, registration.node.sessions.get peerHs.appUuid = some session ∧
        session.links = [link] ∧ link.conn = conn ∧
        link.kind = (TransportKind.fromWire transportId).getD .mock := by
  obtain ⟨hcreated, session, hsession, hlinks⟩ := SessionManager.attachLink_of_unknown
    (Link.new (makeLinkId ((TransportKind.fromWire transportId).getD .mock)
      peerHs.appUuid draw.linkNonce) conn ((TransportKind.fromWire transportId).getD .mock)
      transportCaps now) draw.sessionId unknown
  simp only [registerAfterHandshake, accepted, fresh, hcreated, AttachOutcome.isAttached, if_true]
  refine ⟨trivial, by simp [lists], session, _, ?_, hlinks, rfl, rfl⟩
  simpa using hsession

/-- A further connection over the same kind of transport is closed, and nothing
changes. -/
theorem registerAfterHandshake_of_same_kind {session : Session} {held : Link}
    (accepted : node.checkRoom peerHs mismatchPeerId = .ok ())
    (known : node.sessions.get peerHs.appUuid = some session) (attached : held ∈ session.links)
    (same : held.kind = (TransportKind.fromWire transportId).getD .mock) :
    node.registerAfterHandshake peerHs conn name transportId transportCaps mismatchPeerId draw
      now = ⟨.ok peerHs.appUuid, node, true⟩ := by
  have hrefused := (SessionManager.attachLink_of_same_kind
    (Link.new (makeLinkId ((TransportKind.fromWire transportId).getD .mock)
      peerHs.appUuid draw.linkNonce) conn ((TransportKind.fromWire transportId).getD .mock)
      transportCaps now) peerHs.sessionId draw.sessionId known attached same).1
  simp only [registerAfterHandshake, accepted, hrefused]
  rfl

end Node

end Mlink.Core
