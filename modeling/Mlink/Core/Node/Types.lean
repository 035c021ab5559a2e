/-
# The node record

A node owns its sessions, the connection each peer is written to over the
single-link path, what it knows about each peer, and the events it publishes.
-/

import Mlink.Core.Security
import Mlink.Core.Session.Manager

namespace Mlink.Core

open Mlink.Protocol

inductive NodeState
  | idle | discovering | discovered | connecting | connected | streaming | disconnected
  | reconnecting
  deriving DecidableEq, Repr

/-- What the node remembers of a peer across its connections. -/
structure PeerState where
  state : NodeState
  seq : UInt16
  lastHeartbeat : Option Instant
  aesKey : Option Bytes
  deriving DecidableEq, Repr

namespace PeerState

def new : PeerState := ⟨.connecting, 0, none, none⟩

/-- Hand out the next 16-bit number of the single-link path. -/
def nextSeq (peer : PeerState) : UInt16 × PeerState :=
  (peer.seq, { peer with seq := peer.seq + 1 })

end PeerState

/-- A connected peer as the rest of the program sees it. -/
structure Peer where
  id : String
  name : String
  appUuid : String
  connectedAt : Instant
  transportId : String
  deriving DecidableEq, Repr

inductive NodeEvent
  | peerConnected (peerId : String)
  | peerDisconnected (peerId : String)
  | messageReceived (peerId : String) (payload : Bytes)
  | linkAdded (peerId linkId : String) (transport : TransportKind)
  | linkRemoved (peerId linkId reason : String)
  | linkSwitched (peerId fromLink toLink : String) (cause : SwitchCause)
  deriving DecidableEq, Repr

abbrev RoomHash := BitVec 64

structure Node where
  appUuid : String
  encrypt : Bool
  state : NodeState
  roomHashes : List RoomHash
  sessions : SessionManager
  connections : AList fun _ : String => ConnId
  peerStates : AList fun _ : String => PeerState
  peerManager : AList fun _ : String => Peer
  /-- Links chosen by hand, by kind, and when. -/
  explicitOverride : AList fun _ : String => TransportKind × Instant
  events : List NodeEvent
  sessionEvents : List SessionEvent

namespace Node

/-- A node that has just started, in the given rooms. -/
def new (appUuid : String) (encrypt : Bool) (roomHashes : List RoomHash) : Node where
  appUuid := appUuid
  encrypt := encrypt
  state := .idle
  roomHashes := roomHashes
  sessions := .new
  connections := ∅
  peerStates := ∅
  peerManager := ∅
  explicitOverride := ∅
  events := []
  sessionEvents := []

/-- Publish an event. -/
def emit (node : Node) (event : NodeEvent) : Node :=
  { node with events := node.events ++ [event] }

/-- Publish a session's event on the stream of session events. -/
def emitSession (node : Node) (event : SessionEvent) : Node :=
  { node with sessionEvents := node.sessionEvents ++ [event] }

end Node

/-! ## Two ends -/

/-- The two ends of a pair of nodes. -/
inductive Side
  | left | right
  deriving DecidableEq, Repr

namespace Side

def other : Side → Side
  | left => right
  | right => left

end Side

end Mlink.Core
