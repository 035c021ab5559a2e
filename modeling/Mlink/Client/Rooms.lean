/-
# What a client believes it has joined

A client keeps the set of rooms that it has joined; its session in the daemon keeps
the rooms that it is subscribed to. The session is new with every socket. The client
writes its set when a request of the user is acknowledged and when the daemon announces
the state of a room, and asks for every room again at the first `ready` of a socket.

The two ways of writing do not take effect in the order in which the frames came: an
announcement is written while its frame is handled, and the continuation of an
acknowledged request runs after the frames that are handled in the same turn of the
event loop. So the sets agree as long as no announcement of a room overtakes a
continuation that says otherwise.
-/

import Mlink.Daemon.Dispatch

namespace Mlink.Client

open Mlink.Daemon Mlink.Protocol

/-! ## The two sides -/

/-- A request that is waited for. The ones of the user write the client's set when they
are acknowledged; those that ask for a room again do not. -/
structure PendingRequest where
  id : Nat
  joins : Bool
  room : String
  continues : Bool
  deriving DecidableEq, Repr

/-- A continuation of an acknowledged request, still to run. -/
structure Continuation where
  room : String
  joins : Bool
  deriving DecidableEq, Repr

/-- What a client remembers from one socket to the next. -/
structure ClientRooms where
  joinedRooms : List String
  pending : List PendingRequest
  continuations : List Continuation
  nextId : Nat
  deriving DecidableEq, Repr

/-- The frames that a client sends. -/
inductive ToDaemon
  | hello
  | request (id : Nat) (joins : Bool) (room : String)
  deriving DecidableEq, Repr

/-- The frames that matter to what a client has joined. -/
inductive ToClient
  | ready
  | ack (id : Nat)
  | error (id : Option Nat)
  | roomState (room : String) (joined : Bool)
  deriving DecidableEq, Repr

/-- What a frame announces of a room. -/
def ToClient.stateOf (room : String) : ToClient → Option Bool
  | .roomState other joined => if other = room then some joined else none
  | .ready | .ack _ | .error _ => none

/-- An open socket: the frames on their way, the subscriptions of the session at its end,
and whether the client has seen `ready` on it. -/
structure Channel where
  toDaemon : List ToDaemon
  toClient : List ToClient
  subs : Finset String
  ready : Bool
  deriving DecidableEq

/-- A client with an open socket. -/
structure Connection where
  client : ClientRooms
  channel : Channel
  deriving DecidableEq

/-- A client, and its socket while one is open. -/
structure RoomSync where
  client : ClientRooms
  ws : Option Channel
  deriving DecidableEq

/-- One step of a run. -/
inductive RoomStep
  | request (joins : Bool) (room : String)
  | receive
  | continuation
  | timeout (id : Nat)
  | serve (oversize : Bool)
  | peerEvent (order : List String)
  | drop
  | reopen

/-! ## The client -/

/-- Add a room to the client's set, or delete it. A set keeps the order of insertion. -/
def writeRoom (rooms : List String) (room : String) (joins : Bool) : List String :=
  if joins then if room ∈ rooms then rooms else rooms ++ [room]
  else rooms.filter (· ≠ room)

namespace ClientRooms

variable (client : ClientRooms)

def new : ClientRooms := ⟨[], [], [], 1⟩

/-- The oldest continuation runs. -/
def runContinuation : ClientRooms :=
  match client.continuations with
  | [] => client
  | next :: rest =>
      { client with
        joinedRooms := writeRoom client.joinedRooms next.room next.joins
        continuations := rest }

/-- A request is given up or refused: the caller is told, and no room is written. -/
def forget (id : Nat) : ClientRooms :=
  { client with pending := client.pending.filter fun request => request.id ≠ id }

/-- A request is acknowledged. One that is not waited for any more is none. -/
def acknowledge (id : Nat) : ClientRooms :=
  match client.pending.find? fun request => request.id = id with
  | none => client
  | some request =>
      { client.forget id with
        continuations :=
          if request.continues then client.continuations ++ [⟨request.room, request.joins⟩]
          else client.continuations }

end ClientRooms

namespace Connection

variable (connection : Connection)

/-- `request`: a frame under a fresh id, and the wait for its answer. -/
def request (joins : Bool) (room : String) (continues : Bool) : Connection :=
  let client := connection.client
  { client :=
      { client with
        pending := client.pending ++ [⟨client.nextId, joins, room, continues⟩]
        nextId := client.nextId + 1 }
    channel :=
      { connection.channel with
        toDaemon := connection.channel.toDaemon ++ [.request client.nextId joins room] } }

/-- The first `ready` of a socket: every room is asked for again. -/
def rejoin : Connection :=
  connection.client.joinedRooms.foldl (fun connection room => connection.request true room false)
    { connection with channel := { connection.channel with ready := true } }

/-- `handleFrame`. -/
def handleFrame : ToClient → Connection
  | .ready => if connection.channel.ready then connection else connection.rejoin
  | .ack id => { connection with client := connection.client.acknowledge id }
  | .error id => { connection with client := id.elim connection.client connection.client.forget }
  | .roomState room joined =>
      { connection with
        client :=
          { connection.client with
            joinedRooms := writeRoom connection.client.joinedRooms room joined } }

/-- The oldest frame is handled. -/
def receive : Connection :=
  match connection.channel.toClient with
  | [] => connection
  | frame :: rest =>
      { connection with channel := { connection.channel with toClient := rest } }.handleFrame frame

end Connection

/-! ## The daemon -/

namespace Channel

variable (channel : Channel)

/-- A socket that has just opened: the client says hello, and the session is `ready`. -/
def new : Channel := ⟨[.hello], [.ready], ∅, false⟩

/-- What a session answers, and its subscriptions then. A request that is refused may be
too large to be read, and is then answered without its id. -/
def answer (subs : Finset String) (oversize : Bool) : ToDaemon → List ToClient × Finset String
  | .hello => ([.ready], subs)
  | .request id joins room =>
      if validRoomCode room then
        ([.ack id, .roomState room joins], if joins then insert room subs else subs.erase room)
      else ([.error (if oversize then none else some id)], subs)

/-- The session handles the oldest request. Its answers count as on their way. -/
def serve (oversize : Bool) : Channel :=
  match channel.toDaemon with
  | [] => channel
  | frame :: rest =>
      { channel with
        toDaemon := rest
        toClient := channel.toClient ++ (answer channel.subs oversize frame).1
        subs := (answer channel.subs oversize frame).2 }

/-- A peer comes or goes: the session announces its rooms, in any order. -/
def peerEvent (order : List String) : Channel :=
  if order.Nodup ∧ order.toFinset = channel.subs then
    { channel with toClient := channel.toClient ++ order.map fun room => .roomState room true }
  else channel

end Channel

/-! ## Runs -/

namespace RoomSync

variable (sync : RoomSync)

def start : RoomSync := ⟨.new, none⟩

/-- A step of a client with an open socket; there is none without. -/
def onOpen (step : Connection → Connection) : RoomSync :=
  match sync.ws with
  | none => sync
  | some channel =>
      ⟨(step ⟨sync.client, channel⟩).client, some (step ⟨sync.client, channel⟩).channel⟩

/-- The state after a step. A socket that drops takes the requests that are waited for
with it; another opens in a later turn of the event loop, so after every continuation. -/
def after : RoomStep → RoomSync
  | .request joins room => sync.onOpen fun connection => connection.request joins room true
  | .receive => sync.onOpen Connection.receive
  | .continuation => { sync with client := sync.client.runContinuation }
  | .timeout id => { sync with client := sync.client.forget id }
  | .serve oversize =>
      sync.onOpen fun connection =>
        { connection with channel := connection.channel.serve oversize }
  | .peerEvent order =>
      sync.onOpen fun connection =>
        { connection with channel := connection.channel.peerEvent order }
  | .drop => ⟨{ sync.client with pending := [] }, none⟩
  | .reopen =>
      if sync.ws = none ∧ sync.client.continuations = [] then { sync with ws := some .new }
      else sync

/-- After `ready`, with no frame on its way, the client's rooms are those of its session. -/
def Agrees : Prop :=
  ∀ channel ∈ sync.ws, channel.ready = true → channel.toDaemon = [] → channel.toClient = [] →
    sync.client.joinedRooms.toFinset = channel.subs

instance : Decidable sync.Agrees := inferInstanceAs (Decidable (∀ channel ∈ sync.ws, _))

/-- A frame that announces a room is handled only when no continuation that is still to
run says otherwise of this room. -/
def InOrder : RoomStep → Prop
  | .receive =>
      ∀ channel ∈ sync.ws, ∀ frame ∈ channel.toClient.head?,
        ∀ continuation ∈ sync.client.continuations,
          ∀ joined ∈ frame.stateOf continuation.room, joined = continuation.joins
  | _ => True

instance (step : RoomStep) : Decidable (sync.InOrder step) :=
  match step with
  | .receive => inferInstanceAs (Decidable (∀ channel ∈ sync.ws, _))
  | .request _ _ | .continuation | .timeout _ | .serve _ | .peerEvent _ | .drop | .reopen =>
      inferInstanceAs (Decidable True)

end RoomSync

/-! ## The session at the other end -/

/-- The id of a request on the wire. -/
def requestId (id : Nat) : String := s!"req-{id}"

/-- A frame as a session writes it. -/
def ToClient.Written {Value : Type} : ToClient → WsFrame Value → Prop
  | .ready, .ready _ _ _ => True
  | .ack id, .reply (.ack written _) => written = requestId id
  | .error id, .reply (.error written _ _) => written = id.map requestId
  | .roomState room joined, .roomState other _ written => other = room ∧ written = joined
  | _, _ => False

/-- The backlog of a room says nothing of what is joined. -/
def isBacklog {Value : Type} : WsFrame Value → Bool
  | .message _ => true
  | .ready _ _ _ | .reply _ | .pong _ | .roomState _ _ _ | .transportState _ _ _ _ => false

section Session

variable {Value : Type} {parsers : Parsers Value} {roomHash : String → Mlink.Core.RoomHash}
  {state : SharedState Value} {index : Nat} {subs : Finset String} {payload : Value}
  {room : String}

/-- The daemon's own handler of a join writes these answers, and subscribes to the room. -/
theorem answer_handleJoin (hsubs : state.sessions[index]? = some subs)
    (hroom : parsers.room payload = .ok room) (id : Nat) :
    List.Forall₂ ToClient.Written (Channel.answer subs false (.request id true room)).1
        ((handleJoin parsers roomHash state index (some (requestId id)) payload).frames.filter
          fun frame => !isBacklog frame) ∧
      (handleJoin parsers roomHash state index (some (requestId id))
        payload).state.sessions[index]? =
        some (Channel.answer subs false (.request id true room)).2 := by
  rw [handleJoin, hroom, Channel.answer]
  by_cases hvalid : validRoomCode room = true
  · simp [hvalid, hsubs, sendAckIfId, sendRoomState, isBacklog, ToClient.Written]
  · simp [hvalid, hsubs, sendError, isBacklog, ToClient.Written]

/-- The same of a leave. -/
theorem answer_handleLeave (hsubs : state.sessions[index]? = some subs)
    (hroom : parsers.room payload = .ok room) (id : Nat) :
    List.Forall₂ ToClient.Written (Channel.answer subs false (.request id false room)).1
        ((handleLeave parsers roomHash state index (some (requestId id)) payload).frames.filter
          fun frame => !isBacklog frame) ∧
      (handleLeave parsers roomHash state index (some (requestId id))
        payload).state.sessions[index]? =
        some (Channel.answer subs false (.request id false room)).2 := by
  rw [handleLeave, hroom, Channel.answer]
  by_cases hvalid : validRoomCode room = true
  · by_cases hlast : room ∈ subs ∧
        ∀ others ∈ state.sessions.modify index (·.erase room), room ∉ others
    · simp [hvalid, hsubs, hlast.1, if_pos hlast.2, sendAckIfId, sendRoomState, isBacklog,
        ToClient.Written]
    · simp [hvalid, hsubs, hlast, sendAckIfId, sendRoomState, isBacklog, ToClient.Written]
  · simp [hvalid, hsubs, sendError, isBacklog, ToClient.Written]

end Session

end Mlink.Client
