/-
# The loop of a session

A session greets its client and then serves three sources in turn, in whatever order they
are ready: the client's frames, the frames that the rest of the daemon has put on the
session's channel, and the events of the node. A frame of the client is handled to the
end, its answers written one after the other, before the next is taken. The loop ends
when the client goes, or when a write fails; what the session was subscribed to goes with
it, and the rooms of the daemon stay.

The node does as it likes between the steps here, except that it never takes back an
event. A task relays its events to the sessions, each of which reads them at its own pace
and may miss some.
-/

import Mlink.Daemon.Dispatch
import Mlink.Daemon.SwitchNotices

namespace Mlink.Daemon

open Mlink.Core Mlink.Protocol

def MAX_FRAME_BYTES : Nat := 1024 * 1024

/-- What the client's side of the socket brings. -/
inductive ClientMessage
  | text (text : String)
  | binary (length : Nat)
  /-- A ping or a pong of the socket itself. -/
  | control
  | close
  /-- The socket fails, or its stream is over. -/
  | failure
  | endOfStream
  deriving DecidableEq, Repr

/-- A frame that a session writes: one that a handler makes, or a notice of the node's. -/
inductive SessionFrame (Value : Type)
  | ws (frame : WsFrame Value)
  | linkAdded (peerId linkId transportId : String)
  | linkRemoved (peerId linkId reason : String)
  | primaryChanged (notice : PrimaryChanged)

/-- Where the frame comes from: the greeting, or one of the three sources. -/
inductive SessionArm
  | greeting | client | routed | event
  deriving DecidableEq, Repr

/-- What a client learns of a room. -/
structure RoomView where
  room : String
  peers : List PeerInfo
  joined : Bool
  deriving DecidableEq, Repr

variable {Value : Type}

/-- The id that is to be answered: that of a request which is short enough to be read. -/
def ClientMessage.asks (parsers : Parsers Value) : ClientMessage → Option String
  | text content =>
      if MAX_FRAME_BYTES < content.utf8ByteSize then none
      else
        match parsers.envelope content with
        | .ok env => env.id
        | .error _ => none
  | binary _ | control | close | failure | endOfStream => none

namespace SessionFrame

/-- The id under which the frame is an answer. -/
def answers : SessionFrame Value → Option String
  | ws frame => frame.answers
  | linkAdded .. | linkRemoved .. | primaryChanged _ => none

end SessionFrame

def WsFrame.view : WsFrame Value → Option RoomView
  | .roomState room peers joined => some ⟨room, peers, joined⟩
  | .ready .. | .reply _ | .pong _ | .message _ | .transportState .. => none

def SessionFrame.view : SessionFrame Value → Option RoomView
  | ws frame => frame.view
  | linkAdded .. | linkRemoved .. | primaryChanged _ => none

/-- A session. The socket takes `left` more frames, if it fails at all. What the client
has sent and what was put on the channel is recorded beside it. -/
structure WsConn (Value : Type) where
  subs : Finset String
  channel : List (SessionFrame Value)
  /-- How many of the daemon's events it has gone past. -/
  place : Nat
  left : Option Nat
  written : List (SessionArm × SessionFrame Value)
  taken : List ClientMessage
  accepted : List (SessionFrame Value)
  /-- It has gone past a peer event without reading it, and read none since. -/
  missed : Bool

namespace WsConn

def new (place : Nat) (left : Option Nat) : WsConn Value := ⟨∅, [], place, left, [], [], [], false⟩

variable (conn : WsConn Value)

/-- Write a frame, if the socket takes it. -/
def send (arm : SessionArm) (frame : SessionFrame Value) : Bool × WsConn Value :=
  match conn.left with
  | some 0 => (false, conn)
  | some (left + 1) =>
      (true, { conn with left := some left, written := conn.written ++ [(arm, frame)] })
  | none => (true, { conn with written := conn.written ++ [(arm, frame)] })

/-- Write one frame after the other until one fails. -/
def sendAll (arm : SessionArm) : List (SessionFrame Value) → WsConn Value → Bool × WsConn Value
  | [], conn => (true, conn)
  | frame :: rest, conn =>
      match conn.send arm frame with
      | (true, conn) => sendAll arm rest conn
      | (false, conn) => (false, conn)

/-- Put a frame on the channel, unless it is full. -/
def trySend (frame : SessionFrame Value) : WsConn Value :=
  if conn.channel.length < OUTBOUND_CAPACITY then
    { conn with channel := conn.channel ++ [frame], accepted := conn.accepted ++ [frame] }
  else conn

/-- What has been written of the frames from the channel. -/
def routed : List (SessionFrame Value) :=
  conn.written.filterMap fun (arm, frame) => if arm = .routed then some frame else none

/-- The requests that have been answered. -/
def answered : List String := conn.written.filterMap fun (_, frame) => frame.answers

/-- The requests that have been taken and are to be answered. -/
def asked (parsers : Parsers Value) : List String :=
  conn.taken.filterMap (ClientMessage.asks parsers)

end WsConn

/-- The event tells that a peer has come or gone. -/
def isPeerEvent : NodeEvent → Bool
  | .peerConnected _ | .peerDisconnected _ => true
  | .messageReceived .. | .linkAdded .. | .linkRemoved .. | .linkSwitched .. => false

/-- What is made of an event for every session. -/
def linkFrame : NodeEvent → List (SessionFrame Value)
  | .linkAdded peerId linkId transport => [.linkAdded peerId linkId transport.asWire]
  | .linkRemoved peerId linkId reason => [.linkRemoved peerId linkId reason]
  | .linkSwitched peerId fromLink toLink cause =>
      [.primaryChanged ⟨peerId, fromLink, toLink, causeWire cause⟩]
  | .peerConnected _ | .peerDisconnected _ | .messageReceived .. => []

def peerInfos (node : Node) : List PeerInfo := node.peers.map fun peer => ⟨peer.appUuid, peer.name⟩

/-- The sessions of a daemon, those that have ended, and what they share. `since` is every
list of peers that the node has had since it last said that a peer has come or gone. -/
structure WsDaemon (Value : Type) where
  node : Node
  rooms : Finset String
  queue : MessageQueue Value
  transports : TransportControllers
  /-- How many of the node's events the bridge has gone past, and what it has relayed. -/
  bridge : Nat
  events : List NodeEvent
  conns : List (WsConn Value)
  ended : List (WsConn Value)
  since : List (List PeerInfo)

inductive WsOp (Value : Type)
  /-- The node goes on. -/
  | network (node : Node)
  | relay
  | connect (left : Option Nat)
  /-- The fan-out worker stores a message and offers it. -/
  | fan (entry : MessageEntry Value)
  /-- The forwarder of session events has something for everyone. -/
  | push (notice : PrimaryChanged)
  | receive (index : Nat) (message : ClientMessage) (io : HandlerIo)
  | route (index : Nat)
  /-- A session reads an event, and goes through its rooms in some order. -/
  | read (index : Nat) (order : List String)
  /-- The socket will take so many more frames. -/
  | fault (index : Nat) (left : Nat)
  /-- The daemon's stream of events is closed. -/
  | shutdown (index : Nat)

namespace WsDaemon

variable (daemon : WsDaemon Value)

/-- A daemon without sessions. -/
def start (node : Node) (rooms : Finset String) (transports : TransportControllers) :
    WsDaemon Value :=
  ⟨node, rooms, .new, transports, node.events.length, [], [], [], [peerInfos node]⟩

/-- What the handlers see. -/
def shared : SharedState Value :=
  ⟨daemon.node, daemon.conns.map WsConn.subs, daemon.rooms, daemon.queue, daemon.transports⟩

/-- The node goes on to where it has new events, or none. -/
def setNode (node : Node) : WsDaemon Value :=
  { daemon with
    node
    since :=
      if (node.events.drop daemon.node.events.length).any isPeerEvent then [peerInfos node]
      else daemon.since ++ [peerInfos node] }

def setConn (index : Nat) (conn : WsConn Value) : WsDaemon Value :=
  { daemon with conns := daemon.conns.set index conn }

/-- The loop of a session is over. -/
def finish (index : Nat) (conn : WsConn Value) : WsDaemon Value :=
  { daemon with conns := daemon.conns.eraseIdx index, ended := daemon.ended ++ [conn] }

/-- Go on with the session, or end it. -/
def goOn (index : Nat) : Bool × WsConn Value → WsDaemon Value
  | (true, conn) => daemon.setConn index conn
  | (false, conn) => daemon.finish index conn

/-- The bridge reads an event of the node and relays it. -/
def relay : WsDaemon Value :=
  let reading := Broadcast.recv NODE_CHANNEL_CAPACITY daemon.node.events daemon.bridge
  { daemon with
    bridge := reading.place
    events := daemon.events ++ reading.value.toList
    conns :=
      if reading.skipped.any isPeerEvent then
        daemon.conns.map fun conn => { conn with missed := true }
      else daemon.conns }

/-- A client connects, and is greeted before it becomes a session. -/
def connect (left : Option Nat) : WsDaemon Value :=
  let greeted := (WsConn.new daemon.events.length left).send .greeting
    (.ws (.ready none daemon.node.appUuid DAEMON_VERSION))
  if greeted.1 then { daemon with conns := daemon.conns ++ [greeted.2] } else daemon

def fan (entry : MessageEntry Value) : WsDaemon Value :=
  { daemon with
    queue := daemon.queue.push entry
    conns := daemon.conns.map fun conn =>
      if entry.room ∈ conn.subs then conn.trySend (.ws (.message entry)) else conn }

def push (notice : PrimaryChanged) : WsDaemon Value :=
  { daemon with conns := daemon.conns.map fun conn => conn.trySend (.primaryChanged notice) }

/-- Take over what a handler leaves, but for its session. -/
def absorb (state : SharedState Value) : WsDaemon Value :=
  { daemon.setNode state.node with
    rooms := state.rooms
    queue := state.queue
    transports := state.transports }

/-- The answer to a frame that is not looked into. -/
def refusal (code message : String) : SessionFrame Value :=
  .ws (.reply (.error none code message))

section Loop

variable (parsers : Parsers Value) (primitives : Primitives) (roomHash : String → RoomHash)

/-- The client has sent something. -/
def receive (index : Nat) (conn : WsConn Value) (message : ClientMessage) (io : HandlerIo) :
    WsDaemon Value :=
  let conn := { conn with taken := conn.taken ++ [message] }
  match message with
  | .text text =>
      let size := text.utf8ByteSize
      if MAX_FRAME_BYTES < size then
        -- Whether this is written is not looked at.
        daemon.setConn index
          (conn.send .client (refusal "payload_too_large"
            s!"frame {size} bytes exceeds {MAX_FRAME_BYTES}")).2
      else
        let handled := handleText parsers primitives roomHash daemon.shared io index text
        let conn := { conn with subs := (handled.state.sessions[index]?).getD ∅ }
        (daemon.absorb handled.state).goOn index
          (conn.sendAll .client (handled.frames.map .ws))
  | .binary length =>
      daemon.goOn index
        (conn.send .client (refusal "bad_json"
          s!"binary frames are not supported ({length} bytes)"))
  | .control => daemon.setConn index conn
  | .close | .failure | .endOfStream => daemon.finish index conn

/-- The next frame of the channel is written. -/
def route (index : Nat) (conn : WsConn Value) : WsDaemon Value :=
  match conn.channel with
  | [] => daemon
  | frame :: rest => daemon.goOn index ({ conn with channel := rest }.send .routed frame)

/-- The frames for an event: the notice for every session, and after a peer event the
state of each room. -/
def eventFrames (event : NodeEvent) (order : List String) : List (SessionFrame Value) :=
  linkFrame event ++
    if isPeerEvent event then
      order.map fun room => .ws (.roomState room (peerInfos daemon.node) true)
    else []

/-- The session reads an event, or finds that it has fallen behind. -/
def read (index : Nat) (conn : WsConn Value) (order : List String) : WsDaemon Value :=
  let reading := Broadcast.recv EVENT_CHANNEL_CAPACITY daemon.events conn.place
  let conn := { conn with place := reading.place }
  match reading.value with
  | some event =>
      daemon.goOn index
        ({ conn with missed := conn.missed && !isPeerEvent event }.sendAll .event
          (daemon.eventFrames event order))
  | none =>
      daemon.setConn index
        { conn with missed := conn.missed || reading.skipped.any isPeerEvent }

def step (op : WsOp Value) : WsDaemon Value :=
  match op with
  | .network node =>
      if daemon.node.events.isPrefixOf node.events then daemon.setNode node else daemon
  | .relay => daemon.relay
  | .connect left => daemon.connect left
  | .fan entry => daemon.fan entry
  | .push notice => daemon.push notice
  | .receive index message io =>
      match daemon.conns[index]? with
      | some conn => daemon.receive parsers primitives roomHash index conn message io
      | none => daemon
  | .route index =>
      match daemon.conns[index]? with
      | some conn => daemon.route index conn
      | none => daemon
  | .read index order =>
      match daemon.conns[index]? with
      | some conn =>
          if order.toFinset = conn.subs ∧ order.Nodup then daemon.read index conn order
          else daemon
      | none => daemon
  | .fault index left =>
      match daemon.conns[index]? with
      | some conn =>
          if conn.left = none then daemon.setConn index { conn with left := some left }
          else daemon
      | none => daemon
  | .shutdown index =>
      match daemon.conns[index]? with
      | some conn => daemon.finish index conn
      | none => daemon

def system (node : Node) (rooms : Finset String) (transports : TransportControllers) :
    Transition.System (WsDaemon Value) (WsOp Value) where
  init daemon := daemon = start node rooms transports
  step source op target := target = source.step parsers primitives roomHash op

end Loop

end WsDaemon

/-! ## What a handler does to its session -/

/-- A handler leaves the subscriptions, or adds a room or drops one; then it tells the
client of the room. -/
inductive Touches (peers : List PeerInfo) :
    (Finset String → Finset String) → List RoomView → Prop
  | nothing : Touches peers id []
  | join (room : String) : Touches peers (insert room) [⟨room, peers, true⟩]
  | leave (room : String) : Touches peers (·.erase room) [⟨room, peers, false⟩]

/-- What the loop relies on: one answer for each id, no subscriptions but the session's own
touched, and no event taken back. -/
structure Handles (before : SharedState Value) (index : Nat) (id : Option String)
    (handled : Handled Value) : Prop where
  answers : handled.frames.filterMap WsFrame.answers = id.toList
  touches : ∃ change, Touches (peerInfos handled.state.node) change
      (handled.frames.filterMap WsFrame.view) ∧
    handled.state.sessions = before.sessions.modify index change
  events : before.node.events <+: handled.state.node.events

theorem Handles.answers_ws {before : SharedState Value} {index : Nat} {id : Option String}
    {handled : Handled Value} (handles : Handles before index id handled) :
    (handled.frames.map SessionFrame.ws).filterMap SessionFrame.answers = id.toList := by
  rw [List.filterMap_map]
  exact handles.answers

section Handlers

variable {parsers : Parsers Value} {primitives : Primitives} {roomHash : String → RoomHash}
  {state after : SharedState Value} {io : HandlerIo} {index : Nat} {id : Option String}
  {payload : Value}

theorem answers_sendAckIfId (id : Option String) (ty : String) :
    (sendAckIfId id ty : List (WsFrame Value)).filterMap WsFrame.answers = id.toList := by
  cases id <;> rfl

theorem view_sendAckIfId (id : Option String) (ty : String) :
    (sendAckIfId id ty : List (WsFrame Value)).filterMap WsFrame.view = [] := by
  cases id <;> rfl

theorem answers_messages (entries : List (MessageEntry Value)) :
    (entries.map WsFrame.message).filterMap WsFrame.answers = [] := by
  induction entries with
  | nil => rfl
  | cons entry rest ih => exact ih

theorem view_messages (entries : List (MessageEntry Value)) :
    (entries.map WsFrame.message).filterMap WsFrame.view = [] := by
  induction entries with
  | nil => rfl
  | cons entry rest ih => exact ih

/-- A handler that tells of no room and leaves the subscriptions. -/
theorem handles_quiet {handled : Handled Value}
    (answers : handled.frames.filterMap WsFrame.answers = id.toList)
    (view : handled.frames.filterMap WsFrame.view = [])
    (hsessions : handled.state.sessions = state.sessions)
    (events : state.node.events <+: handled.state.node.events) :
    Handles state index id handled where
  answers := answers
  touches := by
    rw [view, hsessions]
    exact ⟨_, .nothing, (List.modify_id index state.sessions).symm⟩
  events := events

theorem handles_sendError (state : SharedState Value) (id : Option String)
    (code message : String) : Handles state index id (sendError state id code message) :=
  handles_quiet (by cases id <;> rfl) rfl rfl List.prefix_rfl

/-- An acknowledgement, if there is an id for it. -/
theorem handles_ack (ty : String) (hsessions : after.sessions = state.sessions)
    (events : state.node.events <+: after.node.events) :
    Handles state index id ⟨sendAckIfId id ty, after⟩ :=
  handles_quiet (answers_sendAckIfId id ty) (view_sendAckIfId id ty) hsessions events

theorem handles_handleHello : Handles state index id (handleHello parsers state id payload) := by
  rw [handleHello]
  split
  · exact handles_sendError ..
  · exact handles_quiet (answers_sendAckIfId id "hello") (view_sendAckIfId id "hello") rfl
      List.prefix_rfl

theorem handles_handleJoin :
    Handles state index id (handleJoin parsers roomHash state index id payload) := by
  rw [handleJoin]
  split
  · exact handles_sendError ..
  · rename_i room _
    dsimp only
    split_ifs
    · exact handles_sendError ..
    · constructor
      · rw [List.filterMap_append, answers_sendAckIfId]
        exact (congrArg (id.toList ++ ·) (answers_messages _)).trans (List.append_nil _)
      · refine ⟨insert room, ?_, rfl⟩
        rw [List.filterMap_append, view_sendAckIfId, List.nil_append]
        show Touches _ _ (⟨room, _, true⟩ :: List.filterMap WsFrame.view (List.map _ _))
        rw [view_messages]
        exact .join room
      · exact List.prefix_rfl

theorem handles_handleLeave :
    Handles state index id (handleLeave parsers roomHash state index id payload) := by
  rw [handleLeave]
  split
  · exact handles_sendError ..
  · rename_i room _
    dsimp only
    split_ifs
    · exact handles_sendError ..
    all_goals
      constructor
      · rw [List.filterMap_append, answers_sendAckIfId]
        exact List.append_nil _
      · refine ⟨(·.erase room), ?_, rfl⟩
        rw [List.filterMap_append, view_sendAckIfId, List.nil_append]
        exact .leave room
      · exact List.prefix_rfl

/-- A send takes back no event. -/
theorem events_foldl_write (primitives : Primitives) (bytes : Bytes) (send : String → NodeIo)
    (peers : List String) (tally : SendTally) :
    tally.node.events <+:
      (peers.foldl (SendTally.write primitives bytes send) tally).node.events := by
  induction peers generalizing tally with
  | nil => exact List.prefix_rfl
  | cons first rest ih =>
      have hfirst : (tally.write primitives bytes send first).node.events = tally.node.events := by
        rw [node_write]
        rcases tally.node.node_sendRaw_cases primitives first .message bytes (send first) with
          hsame | ⟨_, hsession⟩ | ⟨_, _, hcounter⟩
        · rw [hsame]
        · rw [hsession]
        · rw [hcounter]
      rw [List.foldl_cons, ← hfirst]
      exact ih _

theorem handles_handleSendRequest :
    Handles state index id (handleSendRequest parsers primitives state io index id payload) := by
  rw [handleSendRequest]
  split
  · exact handles_sendError ..
  · rename_i request _
    simp only [handleSend]
    split_ifs
    · exact handles_sendError ..
    · cases parsers.encode request.payload with
      | error e => exact handles_sendError ..
      | ok bytes =>
          simp only [sendToAll]
          have hevents := events_foldl_write primitives bytes io.send
            (recipients state.node request) ⟨state.node, 0, none, []⟩
          split_ifs
          · exact handles_sendError ..
          · exact handles_quiet (by cases id <;> rfl) rfl rfl hevents
          · exact handles_quiet (by cases id <;> rfl) (by cases id <;> rfl) rfl
              hevents
    · exact handles_sendError ..

theorem handles_handlePing : Handles state index id (handlePing state id) :=
  handles_quiet (by cases id <;> rfl) rfl rfl List.prefix_rfl

theorem handles_handleTransportList : Handles state index id (handleTransportList state id) :=
  handles_quiet (answers_sendAckIfId id "transport_list") (view_sendAckIfId id "transport_list")
    rfl List.prefix_rfl

theorem handles_handleTransportSwitch :
    Handles state index id (handleTransportSwitch parsers state io id payload) := by
  rw [handleTransportSwitch]
  split
  · exact handles_sendError ..
  · split
    · exact handles_sendError ..
    · split
      · exact handles_sendError ..
      · rename_i peerId _ _ _ _ _ _ target _
        have hevents := switchActiveLink_cases state.node peerId target.linkId io.now
        split
        · exact handles_sendError ..
        · rename_i node hswitched
          rw [hswitched] at hevents
          refine handles_ack _ rfl ?_
          rcases hevents with ⟨_, hsame⟩ | ⟨_, _, _, _, hevents, _⟩
          · obtain rfl : node = state.node := hsame
            exact List.prefix_rfl
          · show state.node.events <+: node.events
            rw [hevents]
            exact List.prefix_append _ _

/-- Detaching a link says so, and says that the peer is gone if it is. -/
theorem events_disconnectLink (node : Node) (peerId linkId : String) :
    node.events <+: (node.disconnectLink peerId linkId).events := by
  simp only [Node.disconnectLink]
  split_ifs
  · rw [Node.events_evict]
    exact (List.prefix_append _ _).trans (List.prefix_append _ _)
  · exact List.prefix_append _ _

theorem handles_handleDisconnectLink :
    Handles state index id (handleDisconnectLink parsers state io id payload) := by
  rw [handleDisconnectLink]
  split_ifs
  · exact handles_sendError ..
  · split
    · exact handles_sendError ..
    · exact handles_ack _ rfl (events_disconnectLink ..)

theorem handles_handleEnableTransport :
    Handles state index id (handleEnableTransport parsers state io id payload) := by
  rw [handleEnableTransport]
  split
  · exact handles_sendError ..
  · split
    · exact handles_ack _ rfl List.prefix_rfl
    · exact handles_sendError ..

theorem handles_handleDisableTransport :
    Handles state index id (handleDisableTransport parsers state id payload) := by
  rw [handleDisableTransport]
  split
  · exact handles_sendError ..
  · exact handles_ack _ rfl List.prefix_rfl

theorem handles_dispatch (env : Envelope Value) :
    Handles state index env.id (dispatch parsers primitives roomHash state io index env) := by
  rw [dispatch]
  split
  · exact handles_handleHello
  · exact handles_handleJoin
  · exact handles_handleLeave
  · exact handles_handleSendRequest
  · exact handles_handlePing
  · exact handles_handleTransportList
  · exact handles_handleTransportSwitch
  · exact handles_handleDisconnectLink
  · exact handles_handleEnableTransport
  · exact handles_handleDisableTransport
  · exact handles_sendError ..

variable (parsers primitives roomHash state io index) in
/-- A text that is short enough is answered under the id that it asks under. -/
theorem handles_handleText {text : String} (hfits : ¬ MAX_FRAME_BYTES < text.utf8ByteSize) :
    Handles state index ((ClientMessage.text text).asks parsers)
      (handleText parsers primitives roomHash state io index text) := by
  rw [handleText, ClientMessage.asks, if_neg hfits]
  cases parsers.envelope text with
  | error e => exact handles_sendError ..
  | ok env =>
      dsimp only
      split_ifs
      · exact handles_sendError ..
      · exact handles_dispatch env

end Handlers

/-! ## What is written -/

namespace WsConn

variable {conn : WsConn Value} {arm : SessionArm}

theorem send_cases (conn : WsConn Value) (arm : SessionArm) (frame : SessionFrame Value) :
    (∃ left, conn.send arm frame =
        (true, { conn with left, written := conn.written ++ [(arm, frame)] })) ∨
      conn.send arm frame = (false, conn) := by
  rw [send]
  split
  · exact .inr rfl
  · exact .inl ⟨_, rfl⟩
  · exact .inl ⟨conn.left, rfl⟩

/-- Some of the frames are written, and all of them if no write failed. -/
theorem sendAll_cases (arm : SessionArm) (frames : List (SessionFrame Value))
    (conn : WsConn Value) :
    ∃ sent left, sent <+: frames ∧
      (conn.sendAll arm frames).2 =
        { conn with left, written := conn.written ++ sent.map (arm, ·) } ∧
      ((conn.sendAll arm frames).1 = true → sent = frames) := by
  induction frames generalizing conn with
  | nil => exact ⟨[], conn.left, List.prefix_rfl, by simp [sendAll], fun _ => rfl⟩
  | cons frame rest ih =>
      rw [sendAll]
      rcases conn.send_cases arm frame with ⟨left, hsent⟩ | hsent
      · rw [hsent]
        obtain ⟨sent, left, hprefix, hafter, hall⟩ :=
          ih { conn with left, written := conn.written ++ [(arm, frame)] }
        refine ⟨frame :: sent, left, (List.prefix_cons_inj frame).mpr hprefix, ?_, ?_⟩
        · dsimp only at hafter ⊢
          rw [hafter, List.map_cons, List.append_assoc, List.singleton_append]
        · exact fun hdone => congrArg (frame :: ·) (hall hdone)
      · rw [hsent]
        exact ⟨[], conn.left, List.nil_prefix, by simp, nofun⟩

/-- A single frame is a short list of frames. -/
theorem send_eq_sendAll (conn : WsConn Value) (arm : SessionArm) (frame : SessionFrame Value) :
    conn.send arm frame = conn.sendAll arm [frame] := by
  rw [sendAll]
  rcases conn.send arm frame with ⟨written, after⟩
  cases written with
  | true => rfl
  | false => rfl

/-- It began with the greeting of the daemon. -/
def Greets (conn : WsConn Value) : Prop :=
  ∃ appUuid rest, conn.written = (.greeting, .ws (.ready none appUuid DAEMON_VERSION)) :: rest

/-- A session between two steps of its loop has answered every request that it has taken,
each once and in order, and has written or still holds every frame put on its channel. -/
structure Serves (parsers : Parsers Value) (conn : WsConn Value) : Prop where
  greets : conn.Greets
  answers : conn.answered = conn.asked parsers
  order : conn.routed ++ conn.channel = conn.accepted
  silent : ∀ frame ∈ conn.channel, frame.answers = none

/-- A session that has ended has answered in the same order, and owes no more than the
answer it was about to write. -/
structure Served (parsers : Parsers Value) (conn : WsConn Value) : Prop where
  greets : conn.Greets
  answers : conn.answered <+: conn.asked parsers
  owes : (conn.asked parsers).length ≤ conn.answered.length + 1
  order : conn.routed <+: conn.accepted

variable {parsers : Parsers Value}

theorem Serves.served (serves : conn.Serves parsers) : conn.Served parsers where
  greets := serves.greets
  answers := serves.answers ▸ List.prefix_rfl
  owes := serves.answers ▸ Nat.le_succ _
  order := serves.order ▸ List.prefix_append _ _

variable {after : WsConn Value} {sent : List (SessionFrame Value)}

/-- More is written. -/
theorem Greets.append (greets : conn.Greets)
    (hwritten : after.written = conn.written ++ sent.map (arm, ·)) : after.Greets := by
  obtain ⟨appUuid, rest, hgreeting⟩ := greets
  exact ⟨appUuid, rest ++ sent.map (arm, ·), by rw [hwritten, hgreeting, List.cons_append]⟩

theorem answered_append (hwritten : after.written = conn.written ++ sent.map (arm, ·)) :
    after.answered = conn.answered ++ sent.filterMap SessionFrame.answers := by
  rw [answered, hwritten, List.filterMap_append, List.filterMap_map]
  rfl

theorem routed_append (hwritten : after.written = conn.written ++ sent.map (arm, ·)) :
    after.routed = conn.routed ++ if arm = .routed then sent else [] := by
  rw [routed, hwritten, List.filterMap_append, List.filterMap_map]
  congr 1
  split_ifs with harm
  · exact (List.filterMap_congr fun frame _ => if_pos harm).trans List.filterMap_some
  · exact List.filterMap_eq_nil_iff.mpr fun frame _ => if_neg harm

theorem asked_append {message : ClientMessage} (htaken : after.taken = conn.taken ++ [message]) :
    after.asked parsers = conn.asked parsers ++ (message.asks parsers).toList := by
  rw [asked, htaken, List.filterMap_append]
  cases hasks : message.asks parsers with
  | none =>
      rw [List.filterMap_cons_none hasks]
      rfl
  | some id =>
      rw [List.filterMap_cons_some hasks]
      rfl

/-- A message of the client is answered under its id, if it has one. -/
theorem Serves.answer (serves : conn.Serves parsers) (subs : Finset String)
    (message : ClientMessage) {frames : List (SessionFrame Value)}
    (answers : frames.filterMap SessionFrame.answers = (message.asks parsers).toList) :
    let result := sendAll .client frames { conn with subs, taken := conn.taken ++ [message] }
    (result.1 = true → result.2.Serves parsers) ∧ result.2.Served parsers := by
  intro result
  obtain ⟨sent, left, hsent, hafter, hall⟩ :=
    sendAll_cases .client frames { conn with subs, taken := conn.taken ++ [message] }
  have hwritten : result.2.written = conn.written ++ sent.map (SessionArm.client, ·) :=
    congrArg written hafter
  have hgreets := serves.greets.append hwritten
  have hanswered := answered_append hwritten
  have hasked : result.2.asked parsers = conn.asked parsers ++ (message.asks parsers).toList :=
    asked_append (congrArg taken hafter)
  have hrouted : result.2.routed ++ result.2.channel = result.2.accepted := by
    rw [routed_append hwritten, if_neg SessionArm.noConfusion, List.append_nil,
      congrArg channel hafter, congrArg accepted hafter]
    exact serves.order
  constructor
  · intro hdone
    refine ⟨hgreets, ?_, hrouted, congrArg channel hafter ▸ serves.silent⟩
    rw [hanswered, hasked, hall hdone, answers, serves.answers]
  · refine ⟨hgreets, ?_, ?_, hrouted ▸ List.prefix_append _ _⟩
    · rw [hanswered, hasked, ← answers, serves.answers]
      exact (List.prefix_append_right_inj _).mpr (hsent.filterMap _)
    · rw [hanswered, hasked, serves.answers, List.length_append, List.length_append]
      have hone : (message.asks parsers).toList.length ≤ 1 := by
        cases message.asks parsers <;> simp
      omega

/-- A frame of the channel is written, or lost with the session. -/
theorem Serves.route (serves : conn.Serves parsers) {frame : SessionFrame Value}
    {rest : List (SessionFrame Value)} (hchannel : conn.channel = frame :: rest) :
    let result := send { conn with channel := rest } .routed frame
    (result.1 = true → result.2.Serves parsers) ∧ result.2.Served parsers := by
  intro result
  have hsilent := serves.silent
  rw [hchannel] at hsilent
  obtain ⟨silent, hrest⟩ := List.forall_mem_cons.mp hsilent
  rcases send_cases { conn with channel := rest } .routed frame with ⟨left, hsent⟩ | hsent
  · have hwritten : result.2.written = conn.written ++ [frame].map (SessionArm.routed, ·) :=
      congrArg (written ∘ Prod.snd) hsent
    have hleft : result.2.channel = rest := congrArg (channel ∘ Prod.snd) hsent
    have haccepted : result.2.accepted = conn.accepted := congrArg (accepted ∘ Prod.snd) hsent
    have htaken : result.2.taken = conn.taken := congrArg (taken ∘ Prod.snd) hsent
    have hserves : result.2.Serves parsers := by
      refine ⟨serves.greets.append hwritten, ?_, ?_, ?_⟩
      · rw [answered_append hwritten, List.filterMap_cons_none silent, asked, htaken]
        exact (List.append_nil _).trans serves.answers
      · rw [routed_append hwritten, if_pos rfl, List.append_assoc, List.singleton_append,
          hleft, haccepted, ← hchannel]
        exact serves.order
      · rw [hleft]
        exact hrest
    exact ⟨fun _ => hserves, hserves.served⟩
  · have hresult : result = (false, { conn with channel := rest }) := hsent
    rw [hresult]
    exact ⟨nofun, serves.greets, serves.served.answers, serves.served.owes,
      serves.served.order⟩

/-- Frames that answer nothing may be written at any time, or in vain. -/
theorem Serves.sendAll (serves : conn.Serves parsers) (harm : arm ≠ .routed)
    {frames : List (SessionFrame Value)} (silent : frames.filterMap SessionFrame.answers = []) :
    (conn.sendAll arm frames).2.Serves parsers := by
  obtain ⟨sent, left, hsent, hafter, _⟩ := sendAll_cases arm frames conn
  have hsilent : sent.filterMap SessionFrame.answers = [] :=
    List.prefix_nil.mp (silent ▸ hsent.filterMap _)
  rw [hafter]
  refine ⟨serves.greets.append (by exact rfl), ?_, ?_, serves.silent⟩
  · rw [answered_append (by exact rfl), hsilent, List.append_nil]
    exact serves.answers
  · rw [routed_append (by exact rfl), if_neg harm, List.append_nil]
    exact serves.order

/-- A message that asks for nothing. -/
theorem Serves.take (serves : conn.Serves parsers) {message : ClientMessage}
    (hasks : message.asks parsers = none) :
    Serves parsers { conn with taken := conn.taken ++ [message] } where
  greets := serves.greets
  answers := by
    rw [asked_append (by exact rfl), hasks]
    exact serves.answers.trans (List.append_nil _).symm
  order := serves.order
  silent := serves.silent

/-- A message that asks for nothing is refused without an id. -/
theorem Serves.refuse (serves : conn.Serves parsers) {message : ClientMessage}
    (hasks : message.asks parsers = none) (code reason : String) :
    (send { conn with taken := conn.taken ++ [message] } .client
      (WsDaemon.refusal code reason)).2.Serves parsers := by
  rw [send_eq_sendAll]
  exact (serves.take hasks).sendAll SessionArm.noConfusion rfl

/-- What the rest of the daemon puts on the channel is no answer. -/
theorem Serves.trySend (serves : conn.Serves parsers) {frame : SessionFrame Value}
    (silent : frame.answers = none) : (conn.trySend frame).Serves parsers := by
  rw [WsConn.trySend]
  split_ifs
  · exact {
      greets := serves.greets
      answers := serves.answers
      order := by
        show conn.routed ++ (conn.channel ++ [frame]) = conn.accepted ++ [frame]
        rw [← List.append_assoc, serves.order]
      silent := fun other hother => (List.mem_append.mp hother).elim (serves.silent other)
        fun hsame => List.mem_singleton.mp hsame ▸ silent }
  · exact serves

/-- A session of a client that is greeted. -/
theorem serves_greeted {place : Nat} {left : Option Nat} {appUuid : String}
    (hgreeted : ((WsConn.new place left : WsConn Value).send .greeting
      (.ws (.ready none appUuid DAEMON_VERSION))).1 = true) :
    ((WsConn.new place left : WsConn Value).send .greeting
      (.ws (.ready none appUuid DAEMON_VERSION))).2.Serves parsers := by
  rcases (WsConn.new place left : WsConn Value).send_cases .greeting
    (.ws (.ready none appUuid DAEMON_VERSION)) with ⟨_, hsent⟩ | hsent
  · rw [hsent]
    exact ⟨⟨appUuid, [], rfl⟩, rfl, rfl, nofun⟩
  · rw [hsent] at hgreeted
    cases hgreeted

end WsConn

/-! ## Over a run -/

namespace WsDaemon

variable {parsers : Parsers Value} {primitives : Primitives} {roomHash : String → RoomHash}
  {daemon : WsDaemon Value} {index : Nat} {conn : WsConn Value}

theorem answers_eventFrames (daemon : WsDaemon Value) (event : NodeEvent) (order : List String) :
    (daemon.eventFrames event order).filterMap SessionFrame.answers = [] := by
  apply List.filterMap_eq_nil_iff.mpr
  intro frame hframe
  rcases List.mem_append.mp hframe with hlink | hrooms
  · cases event <;> simp [linkFrame] at hlink <;> exact hlink ▸ rfl
  · split_ifs at hrooms
    · obtain ⟨room, _, rfl⟩ := List.mem_map.mp hrooms
      rfl
    · cases hrooms

/-- Every session serves its client, and every session that has ended did. -/
structure Serving (parsers : Parsers Value) (daemon : WsDaemon Value) : Prop where
  conns : ∀ conn ∈ daemon.conns, conn.Serves parsers
  ended : ∀ conn ∈ daemon.ended, conn.Served parsers

namespace Serving

variable (serving : daemon.Serving parsers)

include serving

theorem setConn (serves : conn.Serves parsers) : (daemon.setConn index conn).Serving parsers where
  conns := fun other hother => (List.mem_or_eq_of_mem_set hother).elim (serving.conns other)
    fun hsame => hsame ▸ serves
  ended := serving.ended

theorem finish (served : conn.Served parsers) : (daemon.finish index conn).Serving parsers where
  conns := fun other hother => serving.conns other (List.mem_of_mem_eraseIdx hother)
  ended := fun other hother => (List.mem_append.mp hother).elim (serving.ended other)
    fun hsame => List.mem_singleton.mp hsame ▸ served

theorem goOn {result : Bool × WsConn Value} (serves : result.1 = true → result.2.Serves parsers)
    (served : result.2.Served parsers) : (daemon.goOn index result).Serving parsers := by
  obtain ⟨written, after⟩ := result
  cases written with
  | true => exact serving.setConn (serves rfl)
  | false => exact serving.finish served

theorem goOn_of_serves {result : Bool × WsConn Value} (serves : result.2.Serves parsers) :
    (daemon.goOn index result).Serving parsers :=
  serving.goOn (fun _ => serves) serves.served

theorem absorb (state : SharedState Value) : (daemon.absorb state).Serving parsers :=
  ⟨serving.conns, serving.ended⟩

/-- Something is done to every session. -/
theorem map {after : WsDaemon Value} {use : WsConn Value → WsConn Value}
    (hconns : after.conns = daemon.conns.map use) (hended : after.ended = daemon.ended)
    (uses : ∀ conn, conn.Serves parsers → (use conn).Serves parsers) : after.Serving parsers where
  conns := fun other hother => by
    rw [hconns] at hother
    obtain ⟨before, hbefore, rfl⟩ := List.mem_map.mp hother
    exact uses before (serving.conns before hbefore)
  ended := hended ▸ serving.ended

theorem relay : daemon.relay.Serving parsers := by
  by_cases hmissed : (Broadcast.recv NODE_CHANNEL_CAPACITY daemon.node.events
    daemon.bridge).skipped.any isPeerEvent = true
  · have hconns : daemon.relay.conns = daemon.conns.map fun conn => { conn with missed := true } :=
      if_pos hmissed
    exact serving.map hconns rfl fun conn serves => { serves with }
  · have hconns : daemon.relay.conns = daemon.conns.map id :=
      (if_neg hmissed).trans (List.map_id _).symm
    exact serving.map hconns rfl fun _ serves => serves

theorem connect (left : Option Nat) : (daemon.connect left).Serving parsers := by
  simp only [WsDaemon.connect]
  split_ifs with hgreeted
  · exact {
      conns := fun conn hconn => (List.mem_append.mp hconn).elim (serving.conns conn)
        fun hnew => List.mem_singleton.mp hnew ▸ WsConn.serves_greeted hgreeted
      ended := serving.ended }
  · exact serving

theorem fan (entry : MessageEntry Value) : (daemon.fan entry).Serving parsers :=
  serving.map rfl rfl fun conn serves => by
    split_ifs
    · exact serves.trySend rfl
    · exact serves

theorem push (notice : PrimaryChanged) : (daemon.push notice).Serving parsers :=
  serving.map rfl rfl fun _ serves => serves.trySend rfl

/-- What the client sends is answered before the next is taken. -/
theorem receive (hconn : conn ∈ daemon.conns) (message : ClientMessage) (io : HandlerIo) :
    (daemon.receive parsers primitives roomHash index conn message io).Serving parsers := by
  have serves := serving.conns conn hconn
  cases message with
  | text content =>
      rw [WsDaemon.receive]
      dsimp only
      split_ifs with hlong
      · have hasks : (ClientMessage.text content).asks parsers = none := if_pos hlong
        exact serving.setConn (serves.refuse hasks _ _)
      · have handles := handles_handleText parsers primitives roomHash daemon.shared io index hlong
        have hresult := fun subs => serves.answer subs (.text content) handles.answers_ws
        exact (serving.absorb _).goOn (hresult _).1 (hresult _).2
  | binary length =>
      have hasks : (ClientMessage.binary length).asks parsers = none := rfl
      exact serving.goOn_of_serves (serves.refuse hasks _ _)
  | control => exact serving.setConn (serves.take rfl)
  | close | failure | endOfStream => exact serving.finish (serves.take rfl).served

theorem route (hconn : conn ∈ daemon.conns) : (daemon.route index conn).Serving parsers := by
  have serves := serving.conns conn hconn
  rw [WsDaemon.route]
  split
  · exact serving
  · rename_i frame rest hchannel
    have hresult := serves.route hchannel
    exact serving.goOn hresult.1 hresult.2

theorem read (hconn : conn ∈ daemon.conns) (order : List String) :
    (daemon.read index conn order).Serving parsers := by
  have serves := serving.conns conn hconn
  rw [WsDaemon.read]
  dsimp only
  split
  · rename_i event hevent
    apply serving.goOn_of_serves
    refine WsConn.Serves.sendAll ?_ SessionArm.noConfusion (daemon.answers_eventFrames event order)
    exact { serves with }
  · exact serving.setConn { serves with }

theorem step (op : WsOp Value) : (daemon.step parsers primitives roomHash op).Serving parsers := by
  cases op with
  | network node =>
      rw [WsDaemon.step]
      split_ifs
      · exact ⟨serving.conns, serving.ended⟩
      · exact serving
  | relay => exact serving.relay
  | connect left => exact serving.connect left
  | fan entry => exact serving.fan entry
  | push notice => exact serving.push notice
  | receive index message io =>
      rw [WsDaemon.step]
      split
      · exact serving.receive (List.mem_of_getElem? ‹_›) message io
      · exact serving
  | route index =>
      rw [WsDaemon.step]
      split
      · exact serving.route (List.mem_of_getElem? ‹_›)
      · exact serving
  | read index order =>
      rw [WsDaemon.step]
      split
      · split_ifs
        · exact serving.read (List.mem_of_getElem? ‹_›) order
        · exact serving
      · exact serving
  | fault index left =>
      rw [WsDaemon.step]
      split
      · rename_i conn hconn
        have serves := serving.conns conn (List.mem_of_getElem? hconn)
        split_ifs
        · exact serving.setConn { serves with }
        · exact serving
      · exact serving
  | shutdown index =>
      rw [WsDaemon.step]
      split
      · exact serving.finish (serving.conns _ (List.mem_of_getElem? ‹_›)).served
      · exact serving

end Serving

/-- Whatever the clients send, the node does and the sockets suffer, every session answers
the requests that it takes, each once, under its id and in order; one that ends owes no
more than the last answer. -/
theorem serving_of_reachable {node : Node} {rooms : Finset String}
    {transports : TransportControllers}
    (reached : (system parsers primitives roomHash node rooms transports).Reachable daemon) :
    daemon.Serving parsers :=
  reached.invariant (Serving parsers)
    (fun _ hstart => by
      rw [hstart]
      exact ⟨nofun, nofun⟩)
    fun _ op _ _ serving hstep => by
      rw [hstep]
      exact serving.step op

/-- A client that sends a request, then a binary frame, and is gone when its second request
is to be answered. -/
def shortVisit : List (WsOp Unit) :=
  [.connect none, .receive 0 (.text leaveText) openIo, .receive 0 (.binary 3) openIo,
    .fault 0 0, .receive 0 (.text leaveText) openIo]

theorem serving_of_reachable_shortVisit :
    (shortVisit.foldl (fun daemon op => daemon.step nullParsers .transparent (fun _ => 0) op)
      (start (.new "me" false []) ∅ ⟨true, false⟩)).Serving nullParsers :=
  serving_of_reachable ((Transition.System.Reachable.init rfl).run
    (.of_foldl (fun _ _ => rfl) _ shortVisit))

end WsDaemon

end Mlink.Daemon
