/-
# The fan-out worker and its sessions

One worker takes each received message, reads the list of rooms and then, under
the locks of the queue and of the session list, pushes one entry for each room
and offers it to every session subscribed to the room. A session handles its
client's requests one at a time; a `join` subscribes and drains the bucket under
the queue's lock and then writes what it drained, before anything that waits in
its channel. `step` is one such critical section or one write.
-/

import Mathlib.Data.Finset.Basic
import Mlink.Daemon.Queue
import Mlink.Lib.Transition

namespace Mlink.Daemon

def OUTBOUND_CAPACITY : Nat := 1024

/-- Six ASCII digits. -/
def validRoomCode (code : String) : Bool :=
  code.utf8ByteSize == 6 && code.toList.all Char.isDigit

/-- A frame in a session's channel: a message, or a notice of another kind. -/
inductive OutFrame (Value : Type)
  | message (entry : MessageEntry Value)
  | notice
  deriving DecidableEq, Repr

namespace OutFrame

variable {Value : Type}

/-- The message in a frame, if it carries one. -/
def message? : OutFrame Value → Option (MessageEntry Value)
  | message entry => some entry
  | notice => none

end OutFrame

/-- Where the handler of a session stands between two critical sections. -/
inductive Task (Value : Type)
  | idle
  /-- The room is stored; the subscription and the drain come next. -/
  | joining (room : String)
  /-- The drained entries still to be written. -/
  | flushing (entries : List (MessageEntry Value))
  /-- The subscription is gone; is the room still used? -/
  | leaving (room : String)
  /-- Nobody uses the room; it goes from the store, and then from the queue. -/
  | retiring (room : String)
  | freeing (room : String)
  deriving DecidableEq, Repr

/-- A `SessionEntry` with its task: the subscriptions, the channel, where the
handler stands, and the messages written to the socket. -/
structure WsSession (Value : Type) where
  subs : Finset String
  channel : List (OutFrame Value)
  task : Task Value
  sent : List (MessageEntry Value)
  deriving DecidableEq

/-- A received message on its way through the worker. -/
structure Incoming (Value : Type) where
  sender : String
  payload : Value
  ts : UInt64
  number : Nat
  deriving DecidableEq, Repr

/-- The worker: waiting, with the rooms it has read, or holding both locks with
the rooms it has still to serve. -/
inductive Worker (Value : Type)
  | idle
  | listed (message : Incoming Value) (rooms : List String)
  | fanning (message : Incoming Value) (rooms : List String)
  deriving DecidableEq, Repr

structure DaemonState (Value : Type) where
  rooms : Finset String
  queue : MessageQueue Value
  sessions : List (WsSession Value)
  worker : Worker Value
  /-- How many messages the worker has taken on. -/
  processed : Nat

variable {Value : Type}

namespace WsSession

def new : WsSession Value := ⟨∅, [], .idle, []⟩

/-- `try_send`: a full channel drops the frame. -/
def trySend (session : WsSession Value) (frame : OutFrame Value) : WsSession Value :=
  if session.channel.length < OUTBOUND_CAPACITY then
    { session with channel := session.channel ++ [frame] }
  else session

/-- Offer an entry to a session, if it is subscribed to the entry's room. -/
def offer (session : WsSession Value) (entry : MessageEntry Value) : WsSession Value :=
  if entry.room ∈ session.subs then session.trySend (.message entry) else session

/-- The messages in the channel, first in first out. -/
def pending (session : WsSession Value) : List (MessageEntry Value) :=
  session.channel.filterMap OutFrame.message?

/-- The drained messages that the handler has still to write. -/
def unflushed (session : WsSession Value) : List (MessageEntry Value) :=
  match session.task with
  | .flushing entries => entries
  | .idle | .joining _ | .leaving _ | .retiring _ | .freeing _ => []

end WsSession

inductive DaemonOp (Value : Type)
  /-- The worker receives a message and reads the rooms, in no certain order. -/
  | receive (sender : String) (payload : Value) (ts : UInt64) (order : List String)
  /-- The worker takes the locks, serves its next room, or releases them. -/
  | fan
  | connect
  | join (session : Nat) (room : String)
  | leave (session : Nat) (room : String)
  /-- The session's handler takes its next step. -/
  | proceed (session : Nat)
  /-- The session takes a frame off its channel and writes it. -/
  | routed (session : Nat)
  /-- A frame that is no message is pushed into the session's channel. -/
  | notify (session : Nat)
  | disconnect (session : Nat)

namespace DaemonState

variable (daemon : DaemonState Value)

def new (rooms : Finset String) : DaemonState Value := ⟨rooms, .new, [], .idle, 0⟩

/-- The worker holds the locks of the queue and of the session list. -/
def locked : Bool :=
  match daemon.worker with
  | .fanning _ _ => true
  | .idle | .listed _ _ => false

def setSession (index : Nat) (session : WsSession Value) : DaemonState Value :=
  { daemon with sessions := daemon.sessions.set index session }

/-- The entry of a message for one room. -/
def entryFor (message : Incoming Value) (room : String) : MessageEntry Value :=
  { room, sender := message.sender, payload := message.payload, ts := message.ts,
    number := message.number }

/-- Push one room's entry and offer it to every session. -/
def fanRoom (message : Incoming Value) (room : String) (rest : List String) :
    DaemonState Value :=
  { daemon with
    queue := daemon.queue.push (entryFor message room)
    sessions := daemon.sessions.map fun session => session.offer (entryFor message room)
    worker := .fanning message rest }

/-- One step of the worker. -/
def fan : Option (DaemonState Value) :=
  match daemon.worker with
  | .idle => none
  | .listed message rooms => some { daemon with worker := .fanning message rooms }
  | .fanning message (room :: rest) => some (daemon.fanRoom message room rest)
  | .fanning _ [] => some { daemon with worker := .idle }

/-- Take on a message. Without rooms it is forgotten. -/
def receive (sender : String) (payload : Value) (ts : UInt64) (order : List String) :
    Option (DaemonState Value) :=
  match daemon.worker with
  | .idle =>
      if order.Nodup ∧ order.toFinset = daemon.rooms then
        if order = [] then some daemon
        else
          some { daemon with
            worker := .listed ⟨sender, payload, ts, daemon.processed⟩ order
            processed := daemon.processed + 1 }
      else none
  | .listed _ _ | .fanning _ _ => none

/-- Take a `join` request: check the code and store the room. -/
def join (index : Nat) (session : WsSession Value) (room : String) : DaemonState Value :=
  if validRoomCode room then
    { daemon.setSession index { session with task := .joining room } with
      rooms := insert room daemon.rooms }
  else daemon

/-- Take a `leave` request: check the code and drop the subscription. -/
def leave (index : Nat) (session : WsSession Value) (room : String) : DaemonState Value :=
  if validRoomCode room ∧ room ∈ session.subs then
    daemon.setSession index
      { session with subs := session.subs.erase room, task := .leaving room }
  else daemon

/-- Subscribe and drain, under the queue's lock. -/
def subscribe (index : Nat) (session : WsSession Value) (room : String) : DaemonState Value :=
  let drained := daemon.queue.drain room
  { daemon.setSession index
      { session with subs := insert room session.subs, task := .flushing drained.1 } with
    queue := drained.2 }

/-- The next step of a session's handler. -/
def proceed (index : Nat) (session : WsSession Value) : Option (DaemonState Value) :=
  match session.task with
  | .idle => none
  | .joining room => if daemon.locked then none else some (daemon.subscribe index session room)
  | .flushing [] => some (daemon.setSession index { session with task := .idle })
  | .flushing (entry :: rest) =>
      some (daemon.setSession index
        { session with task := .flushing rest, sent := session.sent ++ [entry] })
  | .leaving room =>
      if daemon.locked then none
      else if daemon.sessions.any fun other => room ∈ other.subs then
        some (daemon.setSession index { session with task := .idle })
      else some (daemon.setSession index { session with task := .retiring room })
  | .retiring room =>
      some { daemon.setSession index { session with task := .freeing room } with
        rooms := daemon.rooms.erase room }
  | .freeing room =>
      if daemon.locked then none
      else
        some { daemon.setSession index { session with task := .idle } with
          queue := daemon.queue.removeRoom room }

/-- Take the next frame off the channel and write it, between two requests. -/
def routed (index : Nat) (session : WsSession Value) : Option (DaemonState Value) :=
  match session.task, session.channel with
  | .idle, frame :: rest =>
      some (daemon.setSession index
        { session with channel := rest, sent := session.sent ++ frame.message?.toList })
  | _, _ => none

/-- One critical section, or one write. -/
def step (op : DaemonOp Value) : Option (DaemonState Value) :=
  match op with
  | .receive sender payload ts order => daemon.receive sender payload ts order
  | .fan => daemon.fan
  | .connect =>
      if daemon.locked then none
      else some { daemon with sessions := daemon.sessions ++ [.new] }
  | .join index room =>
      match daemon.sessions[index]? with
      | none => none
      | some session =>
          match session.task with
          | .idle => some (daemon.join index session room)
          | _ => none
  | .leave index room =>
      match daemon.sessions[index]? with
      | none => none
      | some session =>
          match session.task with
          | .idle => some (daemon.leave index session room)
          | _ => none
  | .proceed index => daemon.sessions[index]?.bind (daemon.proceed index)
  | .routed index => daemon.sessions[index]?.bind (daemon.routed index)
  | .notify index =>
      if daemon.locked then none
      else
        daemon.sessions[index]?.map fun session =>
          daemon.setSession index (session.trySend .notice)
  | .disconnect index =>
      if daemon.locked then none
      else some { daemon with sessions := daemon.sessions.eraseIdx index }

end DaemonState

/-- The daemon from its start, with the rooms it has restored. -/
def system : Transition.System (DaemonState Value) (DaemonOp Value) where
  init daemon := ∃ rooms, daemon = .new rooms
  step source op target := source.step op = some target

end Mlink.Daemon
