/-
# Sending and receiving on a node

`sendRaw` takes the session path when the peer has two links or more and the
single-link path otherwise; the peer's reader makes the same choice by its own
count of links. The two paths frame a message differently.
-/

import Mlink.Core.Node.Types
import Mlink.Core.Session.Reader

namespace Mlink.Core

open Mlink.Protocol

/-- What the world answers to one `sendRaw`: the two attempts of a session send
and the one write of the single-link path. -/
structure NodeIo where
  first : LinkIo
  retry : LinkIo
  conn : Result Unit

/-- What a send returns, the node it leaves, and the frames it wrote. -/
structure NodeSend where
  result : Result Unit
  node : Node
  written : List Bytes

/-- 45 seconds, in milliseconds. -/
def HEARTBEAT_TIMEOUT : Nat := 45 * 1000

namespace Node

variable (primitives : Primitives) (node : Node) (peerId : String)

def sessionIsMultilink : Bool :=
  match node.sessions.get peerId with
  | some session => 2 ≤ session.links.length
  | none => false

/-- The key in force for a peer: none unless the node encrypts. -/
def activeKey (peer : PeerState) : Option Bytes := if node.encrypt then peer.aesKey else none

def sendViaSession (msgType : MessageType) (payload : Bytes) (io : NodeIo) : NodeSend :=
  match node.sessions.get peerId, node.peerStates.lookup peerId with
  | some session, some peer =>
      let outcome := session.send primitives msgType payload (node.activeKey peer) true io.first
        io.retry
      { result := outcome.result.map fun _ => ()
        node := { node with sessions := ⟨node.sessions.peers.insert peerId outcome.session⟩ }
        written := outcome.writes.map LinkWrite.bytes }
  | _, _ => ⟨.error (.peerGone peerId), node, []⟩

def sendLegacy (msgType : MessageType) (payload : Bytes) (io : NodeIo) : NodeSend :=
  match node.peerStates.lookup peerId with
  | none => ⟨.error (.peerGone peerId), node, []⟩
  | some peer =>
      let (seq, spent) := peer.nextSeq
      let node := { node with peerStates := node.peerStates.insert peerId spent }
      match packFrame primitives msgType payload (node.activeKey spent) true seq with
      | .error e => ⟨.error e, node, []⟩
      | .ok bytes =>
          match node.connections.lookup peerId with
          | none => ⟨.error (.peerGone peerId), node, []⟩
          | some _ => ⟨io.conn, node, [bytes]⟩

def sendRaw (msgType : MessageType) (payload : Bytes) (io : NodeIo) : NodeSend :=
  if node.sessionIsMultilink peerId then node.sendViaSession primitives peerId msgType payload io
  else node.sendLegacy primitives peerId msgType payload io

/-- Undo the encryption a frame's flags announce, if this node encrypts and
holds a key for the peer. -/
def openPayload (frame : Frame) (encrypted : Bool) : Result Bytes :=
  if encrypted && node.encrypt then
    match node.peerStates.lookup peerId with
    | none => .error (.peerGone peerId)
    | some peer =>
        match peer.aesKey with
        | some key => decrypt primitives frame.payload key frame.seq
        | none => .ok frame.payload
  else .ok frame.payload

/-- Decode, decrypt and decompress the bytes of one frame. -/
def decodeMessage (bytes : Bytes) : Result (MessageType × Bytes) := do
  let frame ← decodeFrame bytes
  let (compressed, encrypted, msgType) := decodeFlags frame.flags
  let payload ← node.openPayload primitives peerId frame encrypted
  if compressed then
    let payload ← decompress primitives payload
    pure (msgType, payload)
  else
    pure (msgType, payload)

/-- Read one frame from the peer's connection; a heartbeat refreshes the peer's
timestamp. -/
def recvOnce (read : Result Bytes) (now : Instant) : Result (MessageType × Bytes) × Node :=
  match node.connections.lookup peerId with
  | none => (.error (.peerGone peerId), node)
  | some _ =>
      match read.bind (node.decodeMessage primitives peerId) with
      | .error e => (.error e, node)
      | .ok (msgType, payload) =>
          if msgType = .heartbeat then
            match node.peerStates.lookup peerId with
            | some peer =>
                (.ok (msgType, payload),
                  { node with
                    peerStates := node.peerStates.insert peerId
                      { peer with lastHeartbeat := some now } })
            | none => (.ok (msgType, payload), node)
          else (.ok (msgType, payload), node)

/-- One call of the session's `recv`, as the reader makes it. -/
def recvOnceSession (turns : List Session.Turn) :
    Option (Result (MessageType × Bytes)) × Node :=
  match node.sessions.get peerId with
  | none => (some (.error (.peerGone peerId)), node)
  | some session =>
      let (returned, after) := session.recv turns
      (returned.map fun result => result.map fun pair => (.message, pair.2),
        { node with sessions := ⟨node.sessions.peers.insert peerId after⟩ })

/-! ## Reading without the peer's reader -/

/-- Undo the encryption a frame's flags announce with the key held for the peer, if
there is one. -/
def openRaw (frame : Frame) (encrypted : Bool) : Result Bytes :=
  if encrypted then
    match node.peerStates.lookup peerId with
    | none => .error (.peerGone peerId)
    | some peer =>
        match peer.aesKey with
        | some key => decrypt primitives frame.payload key frame.seq
        | none => .ok frame.payload
  else .ok frame.payload

/-- Decode, decrypt and decompress the bytes of one frame, and keep the frame. -/
def decodeRaw (bytes : Bytes) : Result (Frame × Bytes) := do
  let frame ← decodeFrame bytes
  let (compressed, encrypted, _) := decodeFlags frame.flags
  let payload ← node.openRaw primitives peerId frame encrypted
  if compressed then
    let payload ← decompress primitives payload
    pure (frame, payload)
  else
    pure (frame, payload)

/-- Read one frame from the peer's connection on behalf of a caller. -/
def recvRaw (read : Result Bytes) (now : Instant) : Result (Frame × Bytes) × Node :=
  match node.connections.lookup peerId with
  | none => (.error (.peerGone peerId), node)
  | some _ =>
      match read.bind (node.decodeRaw primitives peerId) with
      | .error e => (.error e, node)
      | .ok (frame, payload) =>
          if (decodeFlags frame.flags).2.2 = .heartbeat then
            match node.peerStates.lookup peerId with
            | some peer =>
                (.ok (frame, payload),
                  { node with
                    peerStates := node.peerStates.insert peerId
                      { peer with lastHeartbeat := some now } })
            | none => (.ok (frame, payload), node)
          else (.ok (frame, payload), node)

/-- Whether a known peer was heard from within the timeout; a peer that never sent a
heartbeat counts as alive. -/
def checkHeartbeat (now : Instant) : Result Bool :=
  match node.peerStates.lookup peerId with
  | none => .error (.peerGone peerId)
  | some peer =>
      match peer.lastHeartbeat with
      | some heard => .ok (now - heard < HEARTBEAT_TIMEOUT)
      | none => .ok true

/-! ## What a send does -/

variable {primitives node peerId} {msgType : MessageType} {payload : Bytes} {io : NodeIo}

/-- What the single-link path does once it knows the peer: it packs the payload under the
next number, and writes the frame if the body fits and a connection is there. -/
theorem sendLegacy_of_known {peer : PeerState}
    (hpeer : node.peerStates.lookup peerId = some peer) :
    node.sendLegacy primitives peerId msgType payload io =
      let spent := { node with peerStates := node.peerStates.insert peerId peer.nextSeq.2 }
      match packFrame primitives msgType payload (node.activeKey peer) true peer.seq with
      | .error e => ⟨.error e, spent, []⟩
      | .ok bytes =>
          match node.connections.lookup peerId with
          | none => ⟨.error (.peerGone peerId), spent, []⟩
          | some _ => ⟨io.conn, spent, [bytes]⟩ := by
  simp only [sendLegacy, hpeer]
  rfl

variable (primitives node peerId msgType payload io) in
/-- A send changes nothing of the node but the session that it goes through, or the
counter of the peer that it goes to. -/
theorem node_sendRaw_cases :
    let after := (node.sendRaw primitives peerId msgType payload io).node
    after = node ∨
      (∃ session, after = { node with sessions := ⟨node.sessions.peers.insert peerId session⟩ }) ∨
      ∃ peer, node.peerStates.lookup peerId = some peer ∧
        after = { node with peerStates := node.peerStates.insert peerId peer.nextSeq.2 } := by
  dsimp only
  rw [sendRaw]
  split_ifs
  · rw [sendViaSession]
    split
    · exact .inr (.inl ⟨_, rfl⟩)
    · exact .inl rfl
  · cases hpeer : node.peerStates.lookup peerId with
    | none =>
        left
        rw [sendLegacy, hpeer]
    | some peer =>
        refine .inr (.inr ⟨peer, rfl, ?_⟩)
        rw [sendLegacy_of_known hpeer]
        dsimp only
        split
        · rfl
        · split
          · rfl
          · rfl

end Node

end Mlink.Core
