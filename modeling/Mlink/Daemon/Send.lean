/-
# The `send` request

A client names a room, a payload and perhaps a peer. The handler checks that the
client is subscribed to the room, and then writes the payload to the named peer,
or to every peer that the node knows. The room is not part of what is written.
-/

import Mlink.Core.Node.Io
import Mlink.Daemon.FanOut

namespace Mlink.Core

open Mlink.Protocol

namespace Session

/-- A transmission writes when it finds a link to write over. -/
theorem writes_transmit_eq_nil_iff (session : Session) (seq : UInt32) (bytes : Bytes)
    (msgType : MessageType) (first retry : LinkIo) :
    (session.transmit seq bytes msgType first retry).writes = [] ↔
      (session.currentOrPick first.now).1 = none := by
  rcases hpick : session.currentOrPick first.now with ⟨picked, chosen⟩
  cases picked with
  | none => simp only [transmit, hpick]
  | some primary =>
      cases hwrite : first.write primary.id with
      | ok value => simp [transmit, hpick, writeLink, hwrite]
      | error e => simp [transmit, hpick, writeLink, hwrite]

end Session

namespace Node

/-- The ids of `peers`; each peer is kept under its own id. -/
def peerIds (node : Node) : List String := node.peerManager.keys

/-- There is a connection to the peer, or a session with it. -/
def Connected (node : Node) (peerId : String) : Prop :=
  peerId ∈ node.connections ∨ peerId ∈ node.sessions.peers

section Writes

variable (primitives : Primitives) (node : Node) (peerId : String) (msgType : MessageType)
  (payload : Bytes) (io : NodeIo)

/-- The frame packs under the peer's next number, and there is something to write
it to: a link of a session with two or more, or else a connection. -/
def canWrite : Bool :=
  match node.peerStates.lookup peerId with
  | none => false
  | some peer =>
      if node.sessionIsMultilink peerId then
        (node.sessions.get peerId).any fun session =>
          (packFrame primitives msgType payload (node.activeKey peer) true
              session.sendSeq.nextSeq.toUInt16).isOk &&
            (session.spendSeq.currentOrPick io.first.now).1.isSome
      else
        (packFrame primitives msgType payload (node.activeKey peer) true peer.seq).isOk &&
          (node.connections.lookup peerId).isSome

variable {primitives node peerId msgType payload io}

/-- A session writes when the frame packs and there is a link. -/
theorem written_sendViaSession_eq_nil_iff {session : Session} {peer : PeerState}
    (hsession : node.sessions.get peerId = some session)
    (hpeer : node.peerStates.lookup peerId = some peer) :
    (node.sendViaSession primitives peerId msgType payload io).written = [] ↔
      ((packFrame primitives msgType payload (node.activeKey peer) true
          session.sendSeq.nextSeq.toUInt16).isOk &&
        (session.spendSeq.currentOrPick io.first.now).1.isSome) = false := by
  simp only [sendViaSession, hsession, hpeer, List.map_eq_nil_iff]
  rcases Session.send_spec primitives session msgType payload (node.activeKey peer) true io.first
      io.retry with ⟨e, hpack, houtcome⟩ | ⟨bytes, hpack, houtcome⟩
  · simp [houtcome, hpack, Except.isOk, Except.toBool]
  · rw [houtcome, Session.writes_transmit_eq_nil_iff, hpack]
    simp [Except.isOk, Except.toBool]

/-- The single-link path writes when the frame packs and there is a connection. -/
theorem written_sendLegacy_eq_nil_iff {peer : PeerState}
    (hpeer : node.peerStates.lookup peerId = some peer) :
    (node.sendLegacy primitives peerId msgType payload io).written = [] ↔
      ((packFrame primitives msgType payload (node.activeKey peer) true peer.seq).isOk &&
        (node.connections.lookup peerId).isSome) = false := by
  rw [sendLegacy_of_known hpeer]
  cases packFrame primitives msgType payload (node.activeKey peer) true peer.seq with
  | error e => simp [Except.isOk, Except.toBool]
  | ok bytes =>
      cases node.connections.lookup peerId <;> simp [Except.isOk, Except.toBool]

/-- The node writes to a peer when it can. -/
theorem written_eq_nil_iff :
    (node.sendRaw primitives peerId msgType payload io).written = [] ↔
      node.canWrite primitives peerId msgType payload io = false := by
  rw [sendRaw, canWrite]
  cases hpeer : node.peerStates.lookup peerId with
  | none =>
      split_ifs
      · cases hsession : node.sessions.get peerId <;> simp [sendViaSession, hpeer, hsession]
      · simp [sendLegacy, hpeer]
  | some peer =>
      dsimp only
      split_ifs
      · cases hsession : node.sessions.get peerId with
        | none => simp [sendViaSession, hsession]
        | some session => exact written_sendViaSession_eq_nil_iff hsession hpeer
      · exact written_sendLegacy_eq_nil_iff hpeer

/-- A peer that can be written to is connected. -/
theorem connected_of_canWrite
    (writes : node.canWrite primitives peerId msgType payload io = true) :
    node.Connected peerId := by
  cases hpeer : node.peerStates.lookup peerId with
  | none =>
      rw [canWrite, hpeer] at writes
      cases writes
  | some peer =>
      rw [canWrite, hpeer] at writes
      dsimp only at writes
      split_ifs at writes with hmulti
      · right
        rw [← AList.lookup_isSome]
        cases hsession : node.sessions.peers.lookup peerId with
        | none =>
            rw [SessionManager.get, hsession] at writes
            cases writes
        | some session => rfl
      · left
        rw [← AList.lookup_isSome]
        exact (Bool.and_eq_true _ _ ▸ writes).2

/-- What a node knows of a peer that decides whether it can write to it. -/
structure SameFor (node after : Node) (peerId : String) : Prop where
  encrypt : after.encrypt = node.encrypt
  state : after.peerStates.lookup peerId = node.peerStates.lookup peerId
  session : after.sessions.get peerId = node.sessions.get peerId
  connection : after.connections.lookup peerId = node.connections.lookup peerId

theorem SameFor.canWrite {after : Node} (same : SameFor node after peerId) :
    after.canWrite primitives peerId msgType payload io =
      node.canWrite primitives peerId msgType payload io := by
  have hkey : after.activeKey = node.activeKey := by
    funext peer
    rw [activeKey, activeKey, same.encrypt]
  have hmulti : after.sessionIsMultilink peerId = node.sessionIsMultilink peerId := by
    rw [sessionIsMultilink, sessionIsMultilink, same.session]
  rw [Node.canWrite, Node.canWrite, hkey, hmulti, same.state, same.session, same.connection]

/-- What decides whether a node can write to a peer also decides what a send to that
peer returns and writes. -/
theorem SameFor.sendRaw {after : Node} (same : SameFor node after peerId) (msgType : MessageType)
    (payload : Bytes) (io : NodeIo) :
    (after.sendRaw primitives peerId msgType payload io).result =
        (node.sendRaw primitives peerId msgType payload io).result ∧
      (after.sendRaw primitives peerId msgType payload io).written =
        (node.sendRaw primitives peerId msgType payload io).written := by
  have hkey : ∀ peer, after.activeKey peer = node.activeKey peer := by
    intro peer
    rw [activeKey, activeKey, same.encrypt]
  have hmulti : after.sessionIsMultilink peerId = node.sessionIsMultilink peerId := by
    rw [sessionIsMultilink, sessionIsMultilink, same.session]
  rw [Node.sendRaw, Node.sendRaw, hmulti]
  cases node.sessionIsMultilink peerId with
  | true =>
      rw [if_pos rfl, if_pos rfl, sendViaSession, sendViaSession, same.session, same.state]
      cases node.sessions.get peerId with
      | none => exact ⟨rfl, rfl⟩
      | some session =>
          cases node.peerStates.lookup peerId with
          | none => exact ⟨rfl, rfl⟩
          | some peer =>
              dsimp only
              rw [hkey]
              exact ⟨rfl, rfl⟩
  | false =>
      rw [if_neg Bool.false_ne_true, if_neg Bool.false_ne_true]
      cases hpeer : node.peerStates.lookup peerId with
      | none =>
          have hafter := same.state.trans hpeer
          rw [sendLegacy, sendLegacy, hpeer, hafter]
          exact ⟨rfl, rfl⟩
      | some peer =>
          rw [sendLegacy_of_known hpeer, sendLegacy_of_known (same.state.trans hpeer), hkey,
            same.connection]
          cases packFrame primitives msgType payload (node.activeKey peer) true peer.seq with
          | error e => exact ⟨rfl, rfl⟩
          | ok bytes =>
              cases node.connections.lookup peerId with
              | none => exact ⟨rfl, rfl⟩
              | some _ => exact ⟨rfl, rfl⟩

/-- A send to one peer leaves the others alone. -/
theorem sameFor_sendRaw {other : String} (hne : other ≠ peerId) :
    SameFor node (node.sendRaw primitives peerId msgType payload io).node other := by
  rcases node.node_sendRaw_cases primitives peerId msgType payload io with
    hsame | ⟨_, hsession⟩ | ⟨_, _, hcounter⟩
  · rw [hsame]
    exact ⟨rfl, rfl, rfl, rfl⟩
  · rw [hsession]
    exact ⟨rfl, rfl, AList.lookup_insert_ne hne, rfl⟩
  · rw [hcounter]
    exact ⟨rfl, AList.lookup_insert_ne hne, rfl, rfl⟩

end Writes

end Node

end Mlink.Core

namespace Mlink.Daemon

open Mlink.Core Mlink.Protocol

/-- The request; `toPeer` is its field `to`. -/
structure SendPayload (Value : Type) where
  room : String
  payload : Value
  toPeer : Option String

/-- A frame that answers a request. -/
inductive Reply
  | ack (id ty : String)
  | error (id : Option String) (code message : String)
  deriving DecidableEq, Repr

/-- What became of the writes so far. -/
structure SendTally where
  node : Node
  delivered : Nat
  lastErr : Option String
  /-- The frames written for each recipient. -/
  transmissions : List (String × List Bytes)

/-- What a request leaves: the node, the answer, and what was written to whom. -/
structure SendHandled where
  node : Node
  replies : List Reply
  transmissions : List (String × List Bytes)

section Handler

variable {Value : Type} (primitives : Primitives) (encode : Value → Except String Bytes)

/-- Write to one recipient and keep count. -/
def SendTally.write (bytes : Bytes) (io : String → NodeIo) (tally : SendTally) (peerId : String) :
    SendTally :=
  let sent := tally.node.sendRaw primitives peerId .message bytes (io peerId)
  let transmissions := tally.transmissions ++ [(peerId, sent.written)]
  match sent.result with
  | .ok () => ⟨sent.node, tally.delivered + 1, tally.lastErr, transmissions⟩
  | .error e => ⟨sent.node, tally.delivered, some e.display, transmissions⟩

/-- The peer that the request names, or every peer that the node knows. -/
def recipients (node : Node) (request : SendPayload Value) : List String :=
  match request.toPeer with
  | some peer => [peer]
  | none => node.peerIds

/-- The request is for a room that the client is subscribed to, and its payload
is written as these bytes. -/
def accepts (subs : Finset String) (request : SendPayload Value) (bytes : Bytes) : Prop :=
  validRoomCode request.room = true ∧ request.room ∈ subs ∧ encode request.payload = .ok bytes

/-- Write to every recipient, and answer with an acknowledgement if any write got
through. -/
def sendToAll (node : Node) (id : Option String) (bytes : Bytes) (io : String → NodeIo)
    (peers : List String) : SendHandled :=
  if peers = [] then ⟨node, [.error id "send_failed" "no connected peers"], []⟩
  else
    let tally := peers.foldl (SendTally.write primitives bytes io) ⟨node, 0, none, []⟩
    if tally.delivered = 0 then
      ⟨tally.node, [.error id "send_failed" (tally.lastErr.getD "send failed")],
        tally.transmissions⟩
    else ⟨tally.node, id.toList.map fun id => .ack id "send", tally.transmissions⟩

def handleSend (node : Node) (subs : Finset String) (id : Option String)
    (request : SendPayload Value) (io : String → NodeIo) : SendHandled :=
  let room := request.room
  if !validRoomCode room then
    ⟨node, [.error id "bad_room" s!"invalid room code '{room}': expected 6 digits"], []⟩
  else if room ∉ subs then ⟨node, [.error id "not_joined" s!"not joined to room {room}"], []⟩
  else
    match encode request.payload with
    | .error e => ⟨node, [.error id "bad_payload" e], []⟩
    | .ok bytes => sendToAll primitives node id bytes io (recipients node request)

variable {primitives} {encode} {node : Node} {bytes : Bytes} {io : String → NodeIo}

theorem node_write (tally : SendTally) (peerId : String) :
    (tally.write primitives bytes io peerId).node =
      (tally.node.sendRaw primitives peerId .message bytes (io peerId)).node := by
  rw [SendTally.write]
  split <;> rfl

theorem transmissions_write (tally : SendTally) (peerId : String) :
    (tally.write primitives bytes io peerId).transmissions =
      tally.transmissions ++
        [(peerId, (tally.node.sendRaw primitives peerId .message bytes (io peerId)).written)] := by
  rw [SendTally.write]
  split <;> rfl

/-- What is written to a peer with one more recipient. -/
theorem exists_mem_concat_iff (transmissions : List (String × List Bytes)) (peerId first : String)
    (written : List Bytes) :
    (∃ frames, (peerId, frames) ∈ transmissions ++ [(first, written)] ∧ frames ≠ []) ↔
      (∃ frames, (peerId, frames) ∈ transmissions ∧ frames ≠ []) ∨
        peerId = first ∧ written ≠ [] := by
  constructor
  · rintro ⟨frames, hmem, hsome⟩
    rcases List.mem_append.mp hmem with hold | hnew
    · exact .inl ⟨frames, hold, hsome⟩
    · cases List.mem_singleton.mp hnew
      exact .inr ⟨rfl, hsome⟩
  · rintro (⟨frames, hold, hsome⟩ | ⟨rfl, hsome⟩)
    · exact ⟨frames, List.mem_append_left _ hold, hsome⟩
    · exact ⟨written, List.mem_append_right _ (List.mem_singleton_self _), hsome⟩

variable (primitives bytes io) in
/-- Of several recipients, each one once, those are written to that the node can
write to. -/
theorem exists_transmission_iff {peers : List String} (distinct : peers.Nodup) (tally : SendTally)
    (peerId : String) :
    (∃ frames, (peerId, frames) ∈
        (peers.foldl (SendTally.write primitives bytes io) tally).transmissions ∧ frames ≠ []) ↔
      (∃ frames, (peerId, frames) ∈ tally.transmissions ∧ frames ≠ []) ∨
        peerId ∈ peers ∧
          tally.node.canWrite primitives peerId .message bytes (io peerId) = true := by
  induction peers generalizing tally with
  | nil => simp
  | cons first rest ih =>
      obtain ⟨hfresh, hrest⟩ := List.nodup_cons.mp distinct
      rw [List.foldl_cons, ih hrest, transmissions_write, node_write]
      rw [exists_mem_concat_iff]
      by_cases hhere : peerId = first
      · subst hhere
        simp [hfresh, Node.written_eq_nil_iff]
      · simp [hhere, (Node.sameFor_sendRaw hhere).canWrite]

/-- What is written to each of several recipients, each one once. -/
theorem exists_transmission_sendToAll_iff {peers : List String} (distinct : peers.Nodup)
    (id : Option String) (peerId : String) :
    (∃ frames, (peerId, frames) ∈
        (sendToAll primitives node id bytes io peers).transmissions ∧ frames ≠ []) ↔
      peerId ∈ peers ∧ node.canWrite primitives peerId .message bytes (io peerId) = true := by
  have htally := exists_transmission_iff primitives bytes io distinct ⟨node, 0, none, []⟩ peerId
  rw [sendToAll]
  by_cases hnobody : peers = []
  · rw [if_pos hnobody]
    simp [hnobody]
  · rw [if_neg hnobody]
    dsimp only
    split
    · simpa using htally
    · simpa using htally

theorem nodup_recipients (node : Node) (request : SendPayload Value) :
    (recipients node request).Nodup := by
  rw [recipients]
  split
  · exact List.nodup_singleton _
  · exact AList.keys_nodup _

/-- Once the room is valid and joined, it plays no further part. -/
theorem handleSend_of_joined {subs : Finset String} {id : Option String}
    {request : SendPayload Value} (valid : validRoomCode request.room = true)
    (joined : request.room ∈ subs) :
    handleSend primitives encode node subs id request io =
      match encode request.payload with
      | .error e => ⟨node, [.error id "bad_payload" e], []⟩
      | .ok bytes => sendToAll primitives node id bytes io (recipients node request) := by
  have hvalid : ¬ (!validRoomCode request.room) = true := by simp [valid]
  have hjoined : ¬ request.room ∉ subs := not_not.mpr joined
  rw [handleSend, if_neg hvalid, if_neg hjoined]

/-- An accepted request is written to the recipients that the node can write to,
and no other request is written to anybody. -/
theorem exists_transmission_handleSend_iff (node : Node) (subs : Finset String)
    (id : Option String) (request : SendPayload Value) (io : String → NodeIo) (peerId : String) :
    (∃ frames, (peerId, frames) ∈
        (handleSend primitives encode node subs id request io).transmissions ∧ frames ≠ []) ↔
      ∃ bytes, accepts encode subs request bytes ∧ peerId ∈ recipients node request ∧
        node.canWrite primitives peerId .message bytes (io peerId) = true := by
  have hnothing : ¬ ∃ frames, (peerId, frames) ∈ ([] : List (String × List Bytes)) ∧
      frames ≠ [] := by simp
  rw [handleSend]
  split_ifs with hinvalid hsubscribed
  · apply iff_of_false hnothing
    rintro ⟨bytes, ⟨hvalid, _⟩, _⟩
    rw [hvalid] at hinvalid
    cases hinvalid
  · rw [Bool.not_eq_true, Bool.not_eq_false'] at hinvalid
    cases hencode : encode request.payload with
    | error e =>
        apply iff_of_false hnothing
        rintro ⟨bytes, ⟨_, _, hbytes⟩, _⟩
        rw [hencode] at hbytes
        cases hbytes
    | ok bytes =>
        have haccepts : ∀ other, accepts encode subs request other ↔ other = bytes := by
          intro other
          rw [accepts, hencode, Except.ok.injEq]
          exact ⟨fun h => h.2.2.symm, fun h => ⟨hinvalid, hsubscribed, h.symm⟩⟩
        simp only [haccepts, exists_eq_left]
        exact exists_transmission_sendToAll_iff (nodup_recipients node request) id peerId
  · apply iff_of_false hnothing
    rintro ⟨bytes, ⟨_, hmem, _⟩, _⟩
    exact hsubscribed hmem

end Handler

end Mlink.Daemon
