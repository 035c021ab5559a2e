/-
# Rooms and who hears what is said in them

A client sends to a room, and the daemon writes to every peer that it knows,
whatever rooms the peer is in. The room is not part of what is written, so the
daemon of the peer takes the message for one of every room that it is in, and
hands it to all sessions that are subscribed to any of them.
-/

import Mlink.Core.Node.Connect
import Mlink.Daemon.Send

namespace Mlink.Daemon

open Mlink.Core Mlink.Protocol

variable {Value : Type}

/-! ## One message through the fan-out -/

namespace WsSession

/-- What a session gets of a message that is served for these rooms. -/
def served (message : Incoming Value) (rooms : List String) (session : WsSession Value) :
    WsSession Value :=
  rooms.foldl (fun session room => session.offer (DaemonState.entryFor message room)) session

theorem subs_offer (session : WsSession Value) (entry : MessageEntry Value) :
    (session.offer entry).subs = session.subs := by
  rw [offer, trySend]
  split_ifs <;> rfl

theorem subs_served (message : Incoming Value) (rooms : List String)
    (session : WsSession Value) : (session.served message rooms).subs = session.subs := by
  induction rooms generalizing session with
  | nil => rfl
  | cons room rest ih => exact (ih _).trans (session.subs_offer _)

/-- A session is offered one frame for each of the rooms that it is subscribed
to, and takes as many as its channel has space for. -/
theorem channel_served (message : Incoming Value) (rooms : List String)
    (session : WsSession Value) :
    (session.served message rooms).channel = session.channel ++
      ((rooms.filter (· ∈ session.subs)).map fun room =>
        OutFrame.message (DaemonState.entryFor message room)).take
          (OUTBOUND_CAPACITY - session.channel.length) := by
  induction rooms generalizing session with
  | nil => simp [served]
  | cons room rest ih =>
      have hserved : session.served message (room :: rest) =
          (session.offer (DaemonState.entryFor message room)).served message rest := rfl
      have hoffer : session.offer (DaemonState.entryFor message room) =
          if room ∈ session.subs then
            session.trySend (.message (DaemonState.entryFor message room))
          else session := rfl
      rw [hserved, ih, subs_offer, hoffer]
      by_cases hsubscribed : room ∈ session.subs
      · by_cases hspace : session.channel.length < OUTBOUND_CAPACITY
        · obtain ⟨left, hleft⟩ := Nat.exists_eq_add_of_lt hspace
          have hbefore : OUTBOUND_CAPACITY - session.channel.length = left + 1 := by omega
          have hafter : OUTBOUND_CAPACITY - (session.channel.length + 1) = left := by omega
          rw [if_pos hsubscribed, trySend, if_pos hspace]
          simp [hsubscribed, hbefore, hafter]
        · have hfull : OUTBOUND_CAPACITY - session.channel.length = 0 := by omega
          rw [if_pos hsubscribed, trySend, if_neg hspace, hfull]
          simp
      · rw [if_neg hsubscribed]
        simp [hsubscribed]

theorem channel_served_of_unsubscribed {message : Incoming Value} {rooms : List String}
    {session : WsSession Value} (elsewhere : ∀ room ∈ rooms, room ∉ session.subs) :
    (session.served message rooms).channel = session.channel := by
  have hnone : rooms.filter (· ∈ session.subs) = [] := by
    rw [List.filter_eq_nil_iff]
    intro room hroom
    simpa using elsewhere room hroom
  rw [channel_served, hnone, List.map_nil, List.take_nil, List.append_nil]

end WsSession

namespace DaemonState

/-- The worker serves a message for the rooms that it has read. -/
def fanOut (message : Incoming Value) : List String → DaemonState Value → DaemonState Value
  | [], daemon => daemon
  | room :: rest, daemon => fanOut message rest (daemon.fanRoom message room rest)

variable {daemon : DaemonState Value} {message : Incoming Value}

/-- The worker's steps under the two locks, one for each room. -/
theorem foldlM_fan {rooms : List String} (hworker : daemon.worker = .fanning message rooms) :
    (List.replicate rooms.length DaemonOp.fan).foldlM step daemon =
      some (daemon.fanOut message rooms) := by
  induction rooms generalizing daemon with
  | nil => rfl
  | cons room rest ih =>
      have hstep : daemon.step .fan = some (daemon.fanRoom message room rest) := by
        simp only [step, fan, hworker]
      rw [List.length_cons, List.replicate_succ, List.foldlM_cons, hstep]
      exact ih rfl

theorem sessions_fanOut (daemon : DaemonState Value) (message : Incoming Value)
    (rooms : List String) :
    (daemon.fanOut message rooms).sessions =
      daemon.sessions.map (WsSession.served message rooms) := by
  induction rooms generalizing daemon with
  | nil => exact (List.map_id _).symm
  | cons room rest ih =>
      rw [fanOut, ih]
      exact List.map_map

/-- A message stays out of the backlogs of the rooms that it is not served for. -/
theorem bucket_fanOut_of_notMem {rooms : List String} {room : String} (unserved : room ∉ rooms)
    (daemon : DaemonState Value) (message : Incoming Value) :
    (daemon.fanOut message rooms).queue.bucket room = daemon.queue.bucket room := by
  induction rooms generalizing daemon with
  | nil => rfl
  | cons first rest ih =>
      obtain ⟨hne, hrest⟩ := List.ne_and_not_mem_of_not_mem_cons unserved
      rw [fanOut, ih hrest]
      exact MessageQueue.bucket_push_of_ne hne

/-- A message is the last one in the backlog of each room that it is served for. -/
theorem getLast?_bucket_fanOut {rooms : List String} (distinct : rooms.Nodup) {room : String}
    (served : room ∈ rooms) (daemon : DaemonState Value) (message : Incoming Value) :
    ((daemon.fanOut message rooms).queue.bucket room).getLast? =
      some (entryFor message room) := by
  induction rooms generalizing daemon with
  | nil => cases served
  | cons first rest ih =>
      obtain ⟨hfresh, hrest⟩ := List.nodup_cons.mp distinct
      rw [fanOut]
      rcases List.mem_cons.mp served with rfl | hlater
      · obtain ⟨kept, -, hpush⟩ :=
          daemon.queue.bucket_push_self (entryFor message room)
        rw [bucket_fanOut_of_notMem hfresh]
        have hbucket : (daemon.fanRoom message room rest).queue.bucket room =
            kept ++ [entryFor message room] := hpush
        rw [hbucket, List.getLast?_concat]
      · exact ih hrest hlater _

/-- The worker may read the rooms in this order. -/
def Lists (daemon : DaemonState Value) (order : List String) : Prop :=
  order.Nodup ∧ order.toFinset = daemon.rooms

instance (daemon : DaemonState Value) (order : List String) : Decidable (daemon.Lists order) :=
  inferInstanceAs (Decidable (order.Nodup ∧ order.toFinset = daemon.rooms))

theorem lists_toList (daemon : DaemonState Value) : daemon.Lists daemon.rooms.toList :=
  ⟨daemon.rooms.nodup_toList, daemon.rooms.toList_toFinset⟩

/-- Two daemons hold the same for whoever is not in a room: in the channels of
the sessions that are not subscribed to it, and in the backlogs of the other
rooms for those that join later. -/
structure AgreeOutside (room : String) (left right : DaemonState Value) : Prop where
  channels : ∀ (index : Nat) (before after : WsSession Value),
    left.sessions[index]? = some before → right.sessions[index]? = some after →
      room ∉ before.subs → after.channel = before.channel
  backlogs : ∀ other, other ≠ room → right.queue.bucket other = left.queue.bucket other

/-- What another payload changes is for those in the rooms that are served. -/
theorem agreeOutside_fanOut {rooms : List String} {room : String}
    (only : ∀ other ∈ rooms, other = room) (daemon : DaemonState Value)
    (message other : Incoming Value) :
    AgreeOutside room (daemon.fanOut message rooms) (daemon.fanOut other rooms) := by
  constructor
  · intro index before after hbefore hafter houtside
    rw [sessions_fanOut, List.getElem?_map] at hbefore hafter
    obtain ⟨session, hsession, rfl⟩ := Option.map_eq_some_iff.mp hbefore
    rw [hsession] at hafter
    cases hafter
    rw [WsSession.subs_served] at houtside
    have helsewhere : ∀ other ∈ rooms, other ∉ session.subs := by
      intro other hother
      rwa [only other hother]
    rw [WsSession.channel_served_of_unsubscribed helsewhere,
      WsSession.channel_served_of_unsubscribed helsewhere]
  · intro other hother
    have hunserved : other ∉ rooms := fun hmem => hother (only other hmem)
    rw [bucket_fanOut_of_notMem hunserved, bucket_fanOut_of_notMem hunserved]

end DaemonState

/-! ## Isolation -/

section Isolation

variable (primitives : Primitives) (encode : Value → Except String Bytes)
  (daemon : DaemonState Value) (message : Incoming Value) (node : Node)
  (members : String → Finset String) (subs : Finset String) (id : Option String)
  (request : SendPayload Value) (io : String → NodeIo)

/-- The room of the request is isolated: a message that a peer sends to it reaches
only sessions that are subscribed to it, the request is written to members only,
and another payload makes no difference to anybody outside the room. `members`
says which rooms each peer is in. -/
structure Isolates : Prop where
  reaches : ∀ order, daemon.Lists order →
    ∀ (index : Nat) (before after : WsSession Value), daemon.sessions[index]? = some before →
      (daemon.fanOut message order).sessions[index]? = some after →
        after.channel ≠ before.channel → request.room ∈ before.subs
  sends : ∀ peerId frames,
    (peerId, frames) ∈ (handleSend primitives encode node subs id request io).transmissions →
      frames ≠ [] → node.Connected peerId ∧ request.room ∈ members peerId
  unchanged : ∀ order, daemon.Lists order → ∀ payload : Value,
    DaemonState.AgreeOutside request.room (daemon.fanOut message order)
      (daemon.fanOut { message with payload } order)

variable {primitives encode daemon message node members subs id request io}

/-- The room is not part of what is written. -/
theorem handleSend_of_rooms {room : String} (valid : validRoomCode request.room = true)
    (joined : request.room ∈ subs) (valid' : validRoomCode room = true) (joined' : room ∈ subs) :
    handleSend primitives encode node subs id { request with room } io =
      handleSend primitives encode node subs id request io := by
  rw [handleSend_of_joined valid joined]
  exact handleSend_of_joined valid' joined'

/-- The backlog of another stored room shows the payload. -/
theorem rooms_subset_of_unchanged [Nontrivial Value]
    (unchanged : ∀ order, daemon.Lists order → ∀ payload : Value,
      DaemonState.AgreeOutside request.room (daemon.fanOut message order)
        (daemon.fanOut { message with payload } order)) :
    daemon.rooms ⊆ {request.room} := by
  intro room hroom
  rw [Finset.mem_singleton]
  by_contra hother
  obtain ⟨payload, hpayload⟩ := exists_ne message.payload
  have hserved : room ∈ daemon.rooms.toList := Finset.mem_toList.mpr hroom
  have hbacklogs := (unchanged _ daemon.lists_toList payload).backlogs room hother
  have hlast := congrArg List.getLast? hbacklogs
  rw [DaemonState.getLast?_bucket_fanOut daemon.rooms.nodup_toList hserved,
    DaemonState.getLast?_bucket_fanOut daemon.rooms.nodup_toList hserved] at hlast
  exact hpayload (congrArg MessageEntry.payload (Option.some.inj hlast))

/-- A room is isolated exactly when the daemon is in no other, and each peer that
the request would be written to is a member. -/
theorem isolates_iff [Nontrivial Value] :
    Isolates primitives encode daemon message node members subs id request io ↔
      daemon.rooms ⊆ {request.room} ∧
        ∀ bytes, accepts encode subs request bytes → ∀ peerId ∈ recipients node request,
          node.canWrite primitives peerId .message bytes (io peerId) = true →
            request.room ∈ members peerId := by
  constructor
  · intro isolates
    refine ⟨rooms_subset_of_unchanged isolates.unchanged, ?_⟩
    intro bytes haccepts peerId hrecipient writes
    obtain ⟨frames, hmem, hwritten⟩ :=
      (exists_transmission_handleSend_iff node subs id request io peerId).mpr
        ⟨bytes, haccepts, hrecipient, writes⟩
    exact (isolates.sends peerId frames hmem hwritten).2
  · rintro ⟨hrooms, hmembers⟩
    have hserved : ∀ order, daemon.Lists order → ∀ room ∈ order, room = request.room := by
      intro order hlists room hroom
      have hstored : room ∈ daemon.rooms := by
        rw [← hlists.2]
        exact List.mem_toFinset.mpr hroom
      exact Finset.mem_singleton.mp (hrooms hstored)
    constructor
    · intro order hlists index before after hbefore hafter hchanged
      by_contra houtside
      rw [DaemonState.sessions_fanOut, List.getElem?_map, hbefore] at hafter
      cases hafter
      apply hchanged
      apply WsSession.channel_served_of_unsubscribed
      intro room hroom
      rwa [hserved order hlists room hroom]
    · intro peerId frames hmem hwritten
      obtain ⟨bytes, haccepts, hrecipient, writes⟩ :=
        (exists_transmission_handleSend_iff node subs id request io peerId).mp
          ⟨frames, hmem, hwritten⟩
      exact ⟨Node.connected_of_canWrite writes, hmembers bytes haccepts peerId hrecipient writes⟩
    · intro order hlists payload
      exact DaemonState.agreeOutside_fanOut (hserved order hlists) daemon message _

end Isolation

/-! ## A daemon in two rooms -/

/-- The hashes of the rooms 123456 and 567892. -/
def firstHash : RoomHash := 0xd62f2a305fe55d4a

def secondHash : RoomHash := 0xd7c4d2e9441ae1f7

/-- A node in some rooms, and a peer that named a room when it came. -/
def beside (roomHashes : List RoomHash) (named : RoomHash) : Node :=
  ((Node.new "node" false roomHashes).registerAfterHandshake ⟨"peer", some named, none⟩ 0 "phone"
    "tcp" ⟨10000000⟩ "peer" ⟨1, 1⟩ 0).node

/-- A client in one of the daemon's rooms. -/
def withClient (rooms : Finset String) (room : String) : DaemonState Bool :=
  { DaemonState.new rooms with sessions := [⟨{room}, [], .idle, []⟩] }

/-- The client sends `true`. -/
def sayTrue (room : String) : SendPayload Bool := ⟨room, true, none⟩

/-- The bytes of a JSON boolean. -/
def encodeBool : Bool → Except String Bytes
  | true => .ok [116, 114, 117, 101]
  | false => .ok [102, 97, 108, 115, 101]

/-- Every write gets through. -/
def allWrites : String → NodeIo := fun _ => ⟨⟨0, fun _ => .ok ()⟩, ⟨0, fun _ => .ok ()⟩, .ok ()⟩

/-- What a peer says in 123456 comes to a client of 567892 as said there, and what
a client says in 123456 goes to a peer that is only in 567892. -/
theorem not_isolates_two_rooms :
    let daemon := withClient {"123456", "567892"} "567892"
    let node := beside [secondHash, firstHash] secondHash
    let said : MessageEntry Bool := ⟨"567892", "peer", true, 0, 0⟩
    daemon.Lists ["123456", "567892"] ∧
      (daemon.fanOut ⟨"peer", true, 0, 0⟩ ["123456", "567892"]).sessions.map WsSession.channel =
        [[.message said]] ∧
      (∃ frames, ("peer", frames) ∈ (handleSend .transparent encodeBool node {"123456"} (some "1")
        (sayTrue "123456") allWrites).transmissions ∧ frames ≠ []) ∧
      ¬ Isolates .transparent encodeBool daemon ⟨"peer", true, 0, 0⟩ node (fun _ => {"567892"})
        {"123456"} (some "1") (sayTrue "123456") allWrites := by
  intro daemon node said
  have hlists : daemon.Lists ["123456", "567892"] := by decide
  have hchannel : (daemon.fanOut ⟨"peer", true, 0, 0⟩ ["123456", "567892"]).sessions =
      [⟨{"567892"}, [.message said], .idle, []⟩] := by decide
  refine ⟨hlists, by rw [hchannel]; rfl, ?_, ?_⟩
  · apply (exists_transmission_handleSend_iff _ _ _ _ _ _).mpr
    exact ⟨_, ⟨by decide, by decide, rfl⟩, by decide, by decide⟩
  · intro isolates
    have hreached := isolates.reaches _ hlists 0 ⟨{"567892"}, [], .idle, []⟩
      ⟨{"567892"}, [.message said], .idle, []⟩ rfl (by rw [hchannel]; rfl) (by decide)
    exact absurd hreached (by decide)

/-- In one room, with a peer that is in it too. -/
theorem isolates_one_room :
    Isolates .transparent encodeBool (withClient {"123456"} "123456") ⟨"peer", true, 0, 0⟩
      (beside [firstHash] firstHash) (fun _ => {"123456"}) {"123456"} (some "1")
      (sayTrue "123456") allWrites :=
  isolates_iff.mpr ⟨by decide, fun _ _ _ _ _ => by decide⟩

end Mlink.Daemon
