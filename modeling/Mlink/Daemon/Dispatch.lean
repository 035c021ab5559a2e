/-
# Requests and their answers

A text frame is parsed into an envelope, and its type names the handler. A handler
parses the payload, checks what it asks for, and only then changes anything. Every
request that carries an id is answered once: with an acknowledgement, an error or a
pong. An error means that nothing was changed.

Parsing is a parameter: what serde makes of the text and of each payload.
-/

import Mlink.Core.Node.Lifecycle
import Mlink.Daemon.Send

namespace Mlink.Core

/-- One link as the rest of the program sees it. -/
structure LinkStatus where
  linkId : String
  kind : TransportKind
  role : LinkRole
  health : LinkHealth
  deriving DecidableEq, Repr

/-- `status_of`: the links of a session. -/
def Session.status (session : Session) : List LinkStatus :=
  session.links.map fun link =>
    ⟨link.id, link.kind, if session.active = some link.id then .active else .standby,
      link.health⟩

namespace Node

def peerLinkStatus (node : Node) (peerId : String) : List LinkStatus :=
  ((node.sessions.get peerId).map Session.status).getD []

def peers (node : Node) : List Peer := node.peerManager.entries.map Sigma.snd

def addRoomHash (node : Node) (hash : RoomHash) : Node :=
  { node with roomHashes := node.roomHashes.insert hash }

def removeRoomHash (node : Node) (hash : RoomHash) : Node :=
  { node with roomHashes := node.roomHashes.filter (· ≠ hash) }

/-- A send never changes which rooms the node is in. -/
theorem roomHashes_sendRaw (primitives : Mlink.Core.Primitives) (node : Node) (peerId : String)
    (msgType : Protocol.MessageType) (payload : Protocol.Bytes) (io : NodeIo) :
    (node.sendRaw primitives peerId msgType payload io).node.roomHashes = node.roomHashes := by
  rcases node.node_sendRaw_cases primitives peerId msgType payload io with
    hsame | ⟨_, hsession⟩ | ⟨_, _, hcounter⟩
  · rw [hsame]
  · rw [hsession]
  · rw [hcounter]

end Node

end Mlink.Core

namespace Mlink.Daemon

open Mlink.Core Mlink.Protocol

def WS_PROTOCOL_VERSION : UInt32 := 1

def DAEMON_VERSION : String := "0.1.0"

structure Envelope (Value : Type) where
  v : UInt32
  id : Option String
  ty : String
  payload : Value

structure SwitchPayload where
  peerId : String
  toKind : String

structure DisconnectPayload where
  peerId : String
  linkId : String

/-- What serde makes of a text and of the payloads; an error is its message. -/
structure Parsers (Value : Type) where
  envelope : String → Except String (Envelope Value)
  hello : Value → Except String (Option String)
  room : Value → Except String String
  send : Value → Except String (SendPayload Value)
  transportSwitch : Value → Except String SwitchPayload
  disconnectLink : Value → Except String DisconnectPayload
  toggle : Value → Except String String
  encode : Value → Except String Bytes

/-! ## What is shared between the sessions -/

inductive TransportKindWire
  | tcp | ble
  deriving DecidableEq, Repr

def TransportKindWire.fromWire (name : String) : Option TransportKindWire :=
  match name with
  | "tcp" => some tcp
  | "ble" => some ble
  | _ => none

/-- Which transports have their discovery running. -/
structure TransportControllers where
  tcp : Bool
  ble : Bool
  deriving DecidableEq, Repr

namespace TransportControllers

/-- Turn a transport on, if it is not; the platform may not have it. -/
def enable (transports : TransportControllers) (kind : TransportKindWire) (bleAvailable : Bool) :
    Except String Bool × TransportControllers :=
  match kind with
  | .tcp =>
      if transports.tcp then (.ok false, transports)
      else (.ok true, { transports with tcp := true })
  | .ble =>
      if transports.ble then (.ok false, transports)
      else if bleAvailable then (.ok true, { transports with ble := true })
      else (.error "ble transport unavailable on this platform", transports)

def disable (transports : TransportControllers) (kind : TransportKindWire) :
    Bool × TransportControllers :=
  match kind with
  | .tcp => (transports.tcp, { transports with tcp := false })
  | .ble => (transports.ble, { transports with ble := false })

end TransportControllers

/-- What the sessions of a daemon share, and what each is subscribed to. -/
structure SharedState (Value : Type) where
  node : Node
  sessions : List (Finset String)
  rooms : Finset String
  queue : MessageQueue Value
  transports : TransportControllers

/-- What the world answers while a request is handled. -/
structure HandlerIo where
  now : Instant
  send : String → NodeIo
  /-- The environment's `MLINK_DAEMON_DEV`. -/
  dev : Option String
  bleAvailable : Bool

/-! ## Frames -/

structure PeerInfo where
  appUuid : String
  name : String
  deriving DecidableEq, Repr

structure LinkWire where
  linkId : String
  transportId : String
  role : String
  rttEmaUs : UInt32
  errRateMilli : UInt16
  deriving DecidableEq, Repr

structure PeerLinks where
  peerId : String
  activeLinkId : Option String
  links : List LinkWire
  deriving DecidableEq, Repr

/-- A frame that a handler writes to its socket. -/
inductive WsFrame (Value : Type)
  | ready (id : Option String) (appUuid version : String)
  | reply (reply : Reply)
  | pong (id : Option String)
  | roomState (room : String) (peers : List PeerInfo) (joined : Bool)
  | message (entry : MessageEntry Value)
  | transportState (id : Option String) (peers : List PeerLinks) (tcp ble : Bool)

namespace WsFrame

variable {Value : Type}

/-- The frame ends the wait for an answer. -/
def terminal : WsFrame Value → Bool
  | reply _ | pong _ => true
  | ready _ _ _ | roomState _ _ _ | message _ | transportState _ _ _ _ => false

/-- The id of an answer. -/
def answers : WsFrame Value → Option String
  | reply (.ack id _) => some id
  | reply (.error id _ _) => id
  | pong id => id
  | ready _ _ _ | roomState _ _ _ | message _ | transportState _ _ _ _ => none

def isError : WsFrame Value → Bool
  | reply (.error _ _ _) => true
  | _ => false

def isPong : WsFrame Value → Bool
  | pong _ => true
  | _ => false

end WsFrame

/-- What a handler writes, and what it leaves. -/
structure Handled (Value : Type) where
  frames : List (WsFrame Value)
  state : SharedState Value

section Handlers

variable {Value : Type} (parsers : Parsers Value) (primitives : Primitives)
  (roomHash : String → RoomHash) (state : SharedState Value) (io : HandlerIo)
  (index : Nat) (id : Option String) (payload : Value)

def sendAckIfId (id : Option String) (ty : String) : List (WsFrame Value) :=
  id.toList.map fun id => .reply (.ack id ty)

/-- The answer to a request that is refused. -/
def sendError (code message : String) : Handled Value :=
  ⟨[.reply (.error id code message)], state⟩

def sendRoomState (code : String) (joined : Bool) : WsFrame Value :=
  .roomState code (state.node.peers.map fun peer => ⟨peer.appUuid, peer.name⟩) joined

def handleHello : Handled Value :=
  match parsers.hello payload with
  | .error e => sendError state id "bad_payload" e
  | .ok _ =>
      ⟨.ready id state.node.appUuid DAEMON_VERSION :: sendAckIfId id "hello", state⟩

/-- The session is subscribed, and the backlog is its own. -/
def handleJoin : Handled Value :=
  match parsers.room payload with
  | .error e => sendError state id "bad_payload" e
  | .ok room =>
      if !validRoomCode room then
        sendError state id "bad_room" s!"invalid room code '{room}': expected 6 digits"
      else
        let (drained, queue) := state.queue.drain room
        let state : SharedState Value :=
          { state with
            node := state.node.addRoomHash (roomHash room)
            sessions := state.sessions.modify index (insert room)
            rooms := insert room state.rooms
            queue }
        ⟨sendAckIfId id "join" ++ sendRoomState state room true :: drained.map .message, state⟩

/-- The last session to leave takes the room with it. -/
def handleLeave : Handled Value :=
  match parsers.room payload with
  | .error e => sendError state id "bad_payload" e
  | .ok room =>
      if !validRoomCode room then
        sendError state id "bad_room" s!"invalid room code '{room}': expected 6 digits"
      else
        let removed := room ∈ (state.sessions[index]?).getD ∅
        let state : SharedState Value :=
          { state with sessions := state.sessions.modify index (·.erase room) }
        let state : SharedState Value :=
          if removed ∧ ∀ subs ∈ state.sessions, room ∉ subs then
            { state with
              node := state.node.removeRoomHash (roomHash room)
              rooms := state.rooms.erase room
              queue := state.queue.removeRoom room }
          else state
        ⟨sendAckIfId id "leave" ++ [sendRoomState state room false], state⟩

def handleSendRequest : Handled Value :=
  match parsers.send payload with
  | .error e => sendError state id "bad_payload" e
  | .ok request =>
      let sent := handleSend primitives parsers.encode state.node
        ((state.sessions[index]?).getD ∅) id request io.send
      ⟨sent.replies.map .reply, { state with node := sent.node }⟩

def handlePing : Handled Value := ⟨[.pong id], state⟩

def wireFromLabel (label : String) : String :=
  match label with
  | "ble" => "ble"
  | "tcp" => "tcp"
  | "ipc" => "ipc"
  | _ => "tcp"

/-- One peer's links; a peer without a session has one made up from its transport. -/
def peerLinks (node : Node) (peer : Peer) : PeerLinks :=
  match node.peerLinkStatus peer.appUuid with
  | [] =>
      ⟨peer.appUuid, some peer.id, [⟨peer.id, wireFromLabel peer.transportId, "active", 0, 0⟩]⟩
  | statuses =>
      { peerId := peer.appUuid
        activeLinkId := (statuses.find? fun status => status.role = .active).map LinkStatus.linkId
        links := statuses.map fun status =>
          { linkId := status.linkId
            transportId := status.kind.asWire
            role := match status.role with
              | .active => "active"
              | .standby => "standby"
            rttEmaUs := status.health.rttEmaUs
            errRateMilli := status.health.errRateMilli } }

def handleTransportList : Handled Value :=
  ⟨.transportState id (state.node.peers.map (peerLinks state.node)) state.transports.tcp
      state.transports.ble :: sendAckIfId id "transport_list", state⟩

def handleTransportSwitch : Handled Value :=
  match parsers.transportSwitch payload with
  | .error e => sendError state id "bad_payload" e
  | .ok ⟨peerId, toKind⟩ =>
      match TransportKind.fromWire toKind with
      | none =>
          sendError state id "bad_payload" s!"unknown to_kind '{toKind}': expected ble|tcp|ipc"
      | some kind =>
          match (state.node.peerLinkStatus peerId).find? fun status => status.kind = kind with
          | none => sendError state id "send_failed" s!"peer {peerId} has no {toKind} link"
          | some target =>
              match state.node.switchActiveLink peerId target.linkId io.now with
              | (.error e, _) =>
                  let reason := e.display
                  sendError state id "send_failed" s!"switch failed: {reason}"
              | (.ok (), node) =>
                  ⟨sendAckIfId id "transport_switch", { state with node }⟩

/-- `disconnect_link` of the node never fails. -/
def handleDisconnectLink : Handled Value :=
  if io.dev ≠ some "1" then
    sendError state id "bad_type" "disconnect_link requires MLINK_DAEMON_DEV=1"
  else
    match parsers.disconnectLink payload with
    | .error e => sendError state id "bad_payload" e
    | .ok ⟨peerId, linkId⟩ =>
        ⟨sendAckIfId id "disconnect_link",
          { state with node := state.node.disconnectLink peerId linkId }⟩

def parseKind : Option TransportKindWire :=
  match parsers.toggle payload with
  | .error _ => none
  | .ok kind => TransportKindWire.fromWire kind

def kindErr : String :=
  match parsers.toggle payload with
  | .ok kind => s!"unknown kind '{kind}': expected ble|tcp"
  | .error e => e

def handleEnableTransport : Handled Value :=
  match parseKind parsers payload with
  | none => sendError state id "bad_payload" (kindErr parsers payload)
  | some kind =>
      match state.transports.enable kind io.bleAvailable with
      | (.ok _, transports) => ⟨sendAckIfId id "enable_transport", { state with transports }⟩
      | (.error e, _) => sendError state id "send_failed" e

def handleDisableTransport : Handled Value :=
  match parseKind parsers payload with
  | none => sendError state id "bad_payload" (kindErr parsers payload)
  | some kind =>
      ⟨sendAckIfId id "disable_transport",
        { state with transports := (state.transports.disable kind).2 }⟩

/-- The handler that the type of an envelope names. -/
def dispatch (env : Envelope Value) : Handled Value :=
  match env.ty with
  | "hello" => handleHello parsers state env.id env.payload
  | "join" => handleJoin parsers roomHash state index env.id env.payload
  | "leave" => handleLeave parsers roomHash state index env.id env.payload
  | "send" => handleSendRequest parsers primitives state io index env.id env.payload
  | "ping" => handlePing state env.id
  | "transport_list" => handleTransportList state env.id
  | "transport_switch" => handleTransportSwitch parsers state io env.id env.payload
  | "disconnect_link" => handleDisconnectLink parsers state io env.id env.payload
  | "enable_transport" => handleEnableTransport parsers state io env.id env.payload
  | "disable_transport" => handleDisableTransport parsers state env.id env.payload
  | other => sendError state env.id "bad_type" s!"unknown message type '{other}'"

/-- One text frame from the socket of a session. -/
def handleText (text : String) : Handled Value :=
  match parsers.envelope text with
  | .error e => sendError state none "bad_json" e
  | .ok env =>
      let version := env.v
      if version ≠ WS_PROTOCOL_VERSION then
        sendError state env.id "bad_version" s!"unsupported version {version}"
      else dispatch parsers primitives roomHash state io index env

end Handlers

/-! ## One answer each -/

section Answers

variable {Value : Type} {parsers : Parsers Value} {primitives : Primitives}
  {roomHash : String → RoomHash} {state after : SharedState Value} {io : HandlerIo}
  {index : Nat} {id ty : String} {payload : Value}

/-- The rooms of the daemon and of its node, the subscriptions and the queue are the
same. -/
structure SameStores (before after : SharedState Value) : Prop where
  rooms : after.rooms = before.rooms
  roomHashes : after.node.roomHashes = before.node.roomHashes
  sessions : after.sessions = before.sessions
  queue : after.queue = before.queue

theorem SameStores.refl (state : SharedState Value) : SameStores state state :=
  ⟨rfl, rfl, rfl, rfl⟩

/-- A request is answered once, under its id, and with a pong only if it was a ping; if
the answer is an error, the stores are the same, and so is all else unless the node has
tried to send. -/
structure Answered (before : SharedState Value) (id ty : String) (handled : Handled Value) :
    Prop where
  once : ∃ frame, handled.frames.filter WsFrame.terminal = [frame] ∧ frame.answers = some id ∧
    (frame.isPong = true → ty = "ping")
  unchanged : (∃ frame ∈ handled.frames, frame.isError = true) →
    SameStores before handled.state ∧ (ty ≠ "send" → handled.state = before)

/-- An error is an answer. -/
theorem WsFrame.terminal_of_isError {frame : WsFrame Value} (herror : frame.isError = true) :
    frame.terminal = true := by
  cases frame with
  | reply reply => rfl
  | ready _ _ _ | pong _ | roomState _ _ _ | message _ | transportState _ _ _ _ => cases herror

/-- A request that is refused is answered with an error, and nothing has changed. -/
theorem answered_sendError (state : SharedState Value) (id ty code message : String) :
    Answered state id ty (sendError state (some id) code message) where
  once := ⟨_, rfl, rfl, nofun⟩
  unchanged _ := ⟨.refl state, fun _ => rfl⟩

/-- An acknowledgement among frames that answer nothing is the one answer. -/
theorem answered_ack (front back : List (WsFrame Value)) {ackTy : String}
    (hfront : ∀ frame ∈ front, frame.terminal = false)
    (hback : ∀ frame ∈ back, frame.terminal = false) :
    Answered state id ty ⟨front ++ .reply (.ack id ackTy) :: back, after⟩ where
  once := by
    refine ⟨.reply (.ack id ackTy), ?_, rfl, nofun⟩
    rw [List.filter_append, List.filter_cons_of_pos rfl,
      List.filter_eq_nil_iff.mpr (by simpa using hfront),
      List.filter_eq_nil_iff.mpr (by simpa using hback), List.nil_append]
  unchanged := by
    rintro ⟨frame, hframe, herror⟩
    have hterminal := WsFrame.terminal_of_isError herror
    rcases List.mem_append.mp hframe with hmem | hmem
    · rw [hfront frame hmem] at hterminal
      cases hterminal
    · rcases List.mem_cons.mp hmem with rfl | hrest
      · cases herror
      · rw [hback frame hrest] at hterminal
        cases hterminal

/-- An acknowledgement alone is the one answer. -/
theorem answered_ack_only (ackTy : String) :
    Answered state id ty ⟨sendAckIfId (some id) ackTy, after⟩ :=
  answered_ack [] [] (by simp) (by simp)

theorem answered_handleHello :
    Answered state id ty (handleHello parsers state (some id) payload) := by
  rw [handleHello]
  split
  · exact answered_sendError ..
  · exact answered_ack [_] [] (by simp [WsFrame.terminal]) (by simp)

theorem answered_handleJoin :
    Answered state id ty (handleJoin parsers roomHash state index (some id) payload) := by
  rw [handleJoin]
  split
  · exact answered_sendError ..
  · dsimp only
    split_ifs
    · exact answered_sendError ..
    · exact answered_ack [] _ (by simp) (by simp [WsFrame.terminal, sendRoomState])

theorem answered_handleLeave :
    Answered state id ty (handleLeave parsers roomHash state index (some id) payload) := by
  rw [handleLeave]
  split
  · exact answered_sendError ..
  · split_ifs
    · exact answered_sendError ..
    · exact answered_ack [] _ (by simp) (by simp [WsFrame.terminal, sendRoomState])

/-- The writes of a request leave the node in its rooms. -/
theorem roomHashes_foldl_write {bytes : Bytes} {send : String → NodeIo} (peers : List String)
    (tally : SendTally) :
    (peers.foldl (SendTally.write primitives bytes send) tally).node.roomHashes =
      tally.node.roomHashes := by
  induction peers generalizing tally with
  | nil => rfl
  | cons first rest ih => rw [List.foldl_cons, ih, node_write, Node.roomHashes_sendRaw]

/-- A `send` is answered with one acknowledgement or one error, and leaves the node in its
rooms. -/
theorem replies_handleSend (primitives : Primitives) (encode : Value → Except String Bytes)
    (node : Node) (subs : Finset String) (id : String) (request : SendPayload Value)
    (send : String → NodeIo) :
    let sent := handleSend primitives encode node subs (some id) request send
    sent.node.roomHashes = node.roomHashes ∧
      (sent.replies = [.ack id "send"] ∨
        ∃ code message, sent.replies = [.error (some id) code message]) := by
  simp only [handleSend]
  split_ifs
  · exact ⟨rfl, .inr ⟨_, _, rfl⟩⟩
  · cases encode request.payload with
    | error e => exact ⟨rfl, .inr ⟨_, _, rfl⟩⟩
    | ok bytes =>
        simp only [sendToAll]
        split_ifs
        · exact ⟨rfl, .inr ⟨_, _, rfl⟩⟩
        · exact ⟨roomHashes_foldl_write _ _, .inr ⟨_, _, rfl⟩⟩
        · exact ⟨roomHashes_foldl_write _ _, .inl rfl⟩
  · exact ⟨rfl, .inr ⟨_, _, rfl⟩⟩

theorem answered_handleSendRequest :
    Answered state id "send"
      (handleSendRequest parsers primitives state io index (some id) payload) := by
  rw [handleSendRequest]
  split
  · exact answered_sendError ..
  · rename_i request _
    obtain ⟨hhashes, hreplies⟩ := replies_handleSend primitives parsers.encode state.node
      ((state.sessions[index]?).getD ∅) id request io.send
    dsimp only
    rcases hreplies with hreplies | ⟨code, message, hreplies⟩
    · rw [hreplies]
      exact answered_ack [] [] (by simp) (by simp)
    · rw [hreplies]
      exact ⟨⟨_, rfl, rfl, nofun⟩,
        fun _ => ⟨⟨rfl, hhashes, rfl, rfl⟩, fun hother => absurd rfl hother⟩⟩

theorem answered_handlePing : Answered state id "ping" (handlePing state (some id)) where
  once := ⟨_, rfl, rfl, fun _ => rfl⟩
  unchanged _ := ⟨.refl state, fun _ => rfl⟩

theorem answered_handleTransportList :
    Answered state id ty (handleTransportList state (some id)) :=
  answered_ack [_] [] (by simp [WsFrame.terminal]) (by simp)

theorem answered_handleTransportSwitch :
    Answered state id ty (handleTransportSwitch parsers state io (some id) payload) := by
  rw [handleTransportSwitch]
  split
  · exact answered_sendError ..
  · split
    · exact answered_sendError ..
    · split
      · exact answered_sendError ..
      · split
        · exact answered_sendError ..
        · exact answered_ack_only _

theorem answered_handleDisconnectLink :
    Answered state id ty (handleDisconnectLink parsers state io (some id) payload) := by
  rw [handleDisconnectLink]
  split_ifs
  · exact answered_sendError ..
  · split
    · exact answered_sendError ..
    · exact answered_ack_only _

theorem answered_handleEnableTransport :
    Answered state id ty (handleEnableTransport parsers state io (some id) payload) := by
  rw [handleEnableTransport]
  split
  · exact answered_sendError ..
  · split
    · exact answered_ack_only _
    · exact answered_sendError ..

theorem answered_handleDisableTransport :
    Answered state id ty (handleDisableTransport parsers state (some id) payload) := by
  rw [handleDisableTransport]
  split
  · exact answered_sendError ..
  · exact answered_ack_only _

/-- Whatever the type of the request, its handler answers once. -/
theorem answered_dispatch {env : Envelope Value} (hid : env.id = some id) :
    Answered state id env.ty (dispatch parsers primitives roomHash state io index env) := by
  rw [dispatch, hid]
  split
  · exact answered_handleHello
  · exact answered_handleJoin
  · exact answered_handleLeave
  · rename_i hsend
    rw [hsend]
    exact answered_handleSendRequest
  · rename_i hping
    rw [hping]
    exact answered_handlePing
  · exact answered_handleTransportList
  · exact answered_handleTransportSwitch
  · exact answered_handleDisconnectLink
  · exact answered_handleEnableTransport
  · exact answered_handleDisableTransport
  · exact answered_sendError ..

variable (parsers primitives roomHash state io index) in
/-- Every text that parses as a request with an id is answered once, under that id, and
an error means that nothing was changed. -/
theorem answered_handleText {text : String} {env : Envelope Value}
    (hparsed : parsers.envelope text = .ok env) (hid : env.id = some id) :
    Answered state id env.ty
      (handleText parsers primitives roomHash state io index text) := by
  rw [handleText, hparsed]
  dsimp only
  split_ifs
  · rw [hid]
    exact answered_sendError ..
  · exact answered_dispatch hid

/-- A text without a payload, which serde reads as null. -/
def leaveText : String := "\x7b\"v\":1,\"id\":\"req-7\",\"type\":\"leave\"\x7d"

/-- What serde makes of that text, and of null for each payload. -/
def nullParsers : Parsers Unit where
  envelope text :=
    if text = leaveText then .ok ⟨1, some "req-7", "leave", ()⟩
    else .error "expected value at line 1 column 1"
  hello _ := .error "invalid type: null, expected struct HelloPayload"
  room _ := .error "invalid type: null, expected struct RoomPayload"
  send _ := .error "invalid type: null, expected struct SendPayload"
  transportSwitch _ := .error "invalid type: null, expected struct SwitchPayload"
  disconnectLink _ := .error "invalid type: null, expected struct DisconnectPayload"
  toggle _ := .error "invalid type: null, expected struct TogglePayload"
  encode _ := .ok [110, 117, 108, 108]

/-- A daemon with one subscribed session. -/
def oneSession (roomHash : String → RoomHash) : SharedState Unit where
  node := .new "me" false [roomHash "123456"]
  sessions := [insert "123456" ∅]
  rooms := insert "123456" ∅
  queue := .new
  transports := ⟨true, false⟩

/-- Nothing hinders a write. -/
def openIo : HandlerIo where
  now := 0
  send _ := ⟨⟨0, fun _ => .ok ()⟩, ⟨0, fun _ => .ok ()⟩, .ok ()⟩
  dev := none
  bleAvailable := false

/-- The request is refused, and the session keeps its room. -/
theorem answered_handleText_leave :
    let handled := handleText nullParsers .transparent (fun _ => 0) (oneSession fun _ => 0) openIo 0
      leaveText
    (∃ frame ∈ handled.frames, frame.isError = true) ∧
      Answered (oneSession fun _ => 0) "req-7" "leave" handled := by
  have hparsed : nullParsers.envelope leaveText = .ok ⟨1, some "req-7", "leave", ()⟩ := by
    simp [nullParsers]
  refine ⟨?_, answered_handleText _ _ _ _ _ _ hparsed rfl⟩
  refine ⟨.reply (.error (some "req-7") "bad_payload"
    "invalid type: null, expected struct RoomPayload"), ?_, rfl⟩
  rw [handleText, hparsed]
  exact List.mem_singleton_self _

end Answers

end Mlink.Daemon
