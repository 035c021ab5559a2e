/-
# The journey of a message

From the request `send` of a client of one daemon to the sockets of the clients of another.
The value is written as JSON, the node packs and sends it, the peer's reader publishes it, a
bridge relays it, and the fan-out worker reads it, makes a value of it again and offers it
for each room of its daemon. The bridge and the worker each may fall behind and miss some.

What a client gets in a room from one peer is, in order and each once, among the values that
were sent to the daemon by the peer's clients, as JSON hands them over.
-/

import Mlink.Core.Node.Channel
import Mlink.Daemon.Delivery
import Mlink.Daemon.SwitchNotices

namespace Mlink.Daemon

open Mlink.Core Mlink.Protocol

variable {Value : Type}

/-- How the JSON library writes a value and reads a text, and its value for a string. -/
structure JsonText (Value : Type) where
  toVec : Value → Except String Bytes
  fromStr : String → Except String Value
  string : String → Value

namespace JsonText

variable (json : JsonText Value)

/-- What the worker makes of a payload: its JSON, else its text, else its length. -/
def payloadValue (payload : Bytes) : Value :=
  match String.fromUTF8? ⟨payload.toArray⟩ with
  | some text =>
      match json.fromStr text with
      | .ok value => value
      | .error _ => json.string text
  | none => json.string s!"<{payload.length} bytes binary>"

/-- The value at the other end, where it could be written. -/
def arrives (value : Value) : Option Value :=
  match json.toVec value with
  | .ok bytes => some (json.payloadValue bytes)
  | .error _ => none

end JsonText

/-- The payloads of the messages from a peer among some events. -/
def heardFrom (peerId : String) (events : List NodeEvent) : List Bytes :=
  events.filterMap fun event =>
    match event with
    | .messageReceived sender payload => if sender = peerId then some payload else none
    | _ => none

theorem heardFrom_append (peerId : String) (first second : List NodeEvent) :
    heardFrom peerId (first ++ second) = heardFrom peerId first ++ heardFrom peerId second :=
  List.filterMap_append

/-- A connection between two nodes, the second of them a daemon's, whose bridge and worker
each have a place in the events. `given` are the values that clients of the first have sent
to the second without an error, and `kept` those that the worker has taken on from the first,
each under its number. -/
structure Journey (Value : Type) where
  channel : Channel
  bridge : Nat
  stream : List NodeEvent
  place : Nat
  daemon : DaemonState Value
  given : List Value
  kept : List (Nat × Value)
  missed : Bool

/-- One step: a client's send, the link, the bridge, the worker with the clock and the rooms
it reads, or the daemon's sessions and the rest of the worker's work. -/
inductive JourneyMove (Value : Type)
  | send (value : Value) (first retry : LinkIo)
  | link (event : ChannelEvent)
  | relay
  | take (ts : UInt64) (order : List String)
  | serve (op : DaemonOp Value)

namespace Journey

variable (primitives : Primitives) (senderId receiverId : String) (key : Option Bytes)
  (json : JsonText Value) (journey : Journey Value)

/-- A value that cannot be written is not sent. -/
def send (value : Value) (first retry : LinkIo) : Journey Value :=
  match json.toVec value with
  | .error _ => journey
  | .ok bytes =>
      let channel := journey.channel.send primitives receiverId .message bytes first retry
      { journey with
        channel
        given :=
          if channel.accepted = journey.channel.accepted then journey.given
          else journey.given ++ [value] }

def relay : Journey Value :=
  let reading := Broadcast.recv NODE_CHANNEL_CAPACITY journey.channel.receiver.events
    journey.bridge
  { journey with
    bridge := reading.place
    stream := journey.stream ++ reading.value.toList
    missed := journey.missed || !(heardFrom senderId reading.skipped).isEmpty }

/-- The worker takes on a message; one that finds no rooms is forgotten. -/
def hear (peerId : String) (payload : Bytes) (ts : UInt64) (order : List String) :
    Option (Journey Value) :=
  (journey.daemon.receive peerId (json.payloadValue payload) ts order).map fun daemon =>
    if peerId = senderId then
      if order = [] then { journey with daemon, missed := true }
      else
        { journey with
          daemon
          kept := journey.kept ++ [(journey.daemon.processed, json.payloadValue payload)] }
    else { journey with daemon }

/-- The worker reads the next event. -/
def take (ts : UInt64) (order : List String) : Journey Value :=
  match journey.daemon.worker with
  | .idle =>
      let reading := Broadcast.recv EVENT_CHANNEL_CAPACITY journey.stream journey.place
      let read := { journey with
        place := reading.place
        missed := journey.missed || !(heardFrom senderId reading.skipped).isEmpty }
      match reading.value with
      | some (.messageReceived peerId payload) =>
          (read.hear senderId json peerId payload ts order).getD journey
      | _ => read
  | .listed _ _ | .fanning _ _ => journey

def step : JourneyMove Value → Journey Value
  | .send value first retry => journey.send primitives receiverId json value first retry
  | .link event =>
      { journey with channel := journey.channel.step primitives senderId receiverId event }
  | .relay => journey.relay senderId
  | .take ts order => journey.take senderId json ts order
  | .serve op => { journey with daemon := (journey.daemon.step op).getD journey.daemon }

/-- Application messages come from the clients only, and other tasks take no event back. -/
def Sent (channel : Channel) : ChannelEvent → Prop
  | .send msgType _ _ _ => msgType ≠ .message
  | .receiverElsewhere node => channel.receiver.events <+: node.events
  | .deliver _ | .read _ | .close | .senderElsewhere _ => True

/-- The steps over one link, with joins that only drain what is ahead of their session. -/
def Orderly : JourneyMove Value → Prop
  | .send _ _ _ => journey.channel.sender.sessionIsMultilink receiverId = false
  | .link event =>
      journey.channel.SingleLink senderId receiverId key event ∧ Sent journey.channel event
  | .serve op =>
      (∀ sender payload ts order, op ≠ .receive sender payload ts order) ∧
        journey.daemon.JoinsAhead op
  | .relay | .take _ _ => True

/-- The runs of a journey from its start. -/
def system (start : Journey Value) : Transition.System (Journey Value) (JourneyMove Value) where
  init journey := journey = start
  step source move target :=
    target = source.step primitives senderId receiverId json move

end Journey

/-! ## What the daemon holds -/

namespace DaemonState

/-- Every message in the queue, on its way to a client, or in the worker's hands is known. -/
structure Carries (daemon : DaemonState Value) (known : String → Value → Nat → Prop) : Prop where
  worker :
    match daemon.worker with
    | .idle => True
    | .listed message _ | .fanning message _ =>
        known message.sender message.payload message.number
  bucket : ∀ room, ∀ entry ∈ daemon.queue.bucket room,
    known entry.sender entry.payload entry.number
  session : ∀ session ∈ daemon.sessions, ∀ entry ∈ session.stream,
    known entry.sender entry.payload entry.number

variable {daemon after : DaemonState Value} {known : String → Value → Nat → Prop}

theorem Carries.mono (carries : daemon.Carries known) {more : String → Value → Nat → Prop}
    (hmore : ∀ sender payload number, known sender payload number → more sender payload number) :
    daemon.Carries more where
  worker := by
    have hworker := carries.worker
    cases hstage : daemon.worker with
    | idle => trivial
    | listed message _ | fanning message _ =>
        rw [hstage] at hworker
        exact hmore _ _ _ hworker
  bucket room entry hentry := hmore _ _ _ (carries.bucket room entry hentry)
  session session hsession entry hentry :=
    hmore _ _ _ (carries.session session hsession entry hentry)

/-- A handler's step that drains or removes at most, and leaves its session with messages that
it had or drained. -/
theorem Carries.setSession (carries : daemon.Carries known) {index : Nat}
    {session : WsSession Value} (rooms : Finset String) {queue : MessageQueue Value}
    (buckets : ∀ room, queue.bucket room <:+ daemon.queue.bucket room)
    (held : ∀ entry ∈ session.stream, known entry.sender entry.payload entry.number) :
    { daemon.setSession index session with rooms, queue : DaemonState Value }.Carries known where
  worker := carries.worker
  bucket room entry hentry := carries.bucket room entry ((buckets room).subset hentry)
  session other hother entry hentry := by
    rcases List.mem_or_eq_of_mem_set hother with hold | rfl
    · exact carries.session other hold entry hentry
    · exact held entry hentry

theorem Carries.fan (carries : daemon.Carries known) (taken : daemon.fan = some after) :
    after.Carries known := by
  have hworker := carries.worker
  cases hstage : daemon.worker with
  | idle => simp [DaemonState.fan, hstage] at taken
  | listed message rooms =>
      simp only [DaemonState.fan, hstage, Option.some.injEq] at taken
      subst taken
      rw [hstage] at hworker
      exact ⟨hworker, carries.bucket, carries.session⟩
  | fanning message rooms =>
      rw [hstage] at hworker
      cases rooms with
      | nil =>
          simp only [DaemonState.fan, hstage, Option.some.injEq] at taken
          subst taken
          exact ⟨trivial, carries.bucket, carries.session⟩
      | cons room rest =>
          simp only [DaemonState.fan, hstage, Option.some.injEq] at taken
          subst taken
          refine ⟨hworker, fun other entry hentry => ?_, fun session hsession entry hentry => ?_⟩
          · have hpushed : entry ∈ (daemon.queue.push (entryFor message room)).bucket other :=
              hentry
            by_cases here : other = room
            · subst here
              obtain ⟨kept, hkept, hpush⟩ :=
                MessageQueue.bucket_push_self daemon.queue (entryFor message other)
              rw [show (daemon.queue.push (entryFor message other)).bucket other = kept ++ [_] from
                hpush] at hpushed
              rcases List.mem_append.mp hpushed with hold | hnew
              · exact carries.bucket other entry (hkept.subset hold)
              · rw [List.mem_singleton.mp hnew]
                exact hworker
            · rw [MessageQueue.bucket_push_of_ne (by exact here)] at hpushed
              exact carries.bucket other entry hpushed
          · obtain ⟨before, hbefore, rfl⟩ := List.mem_map.mp hsession
            have hold := carries.session before hbefore
            rw [WsSession.offer] at hentry
            split_ifs at hentry
            · rcases WsSession.stream_trySend before (.message (entryFor message room)) with
                hfull | hqueued
              · exact hold entry (hfull ▸ hentry)
              · rw [hqueued] at hentry
                rcases List.mem_append.mp hentry with hin | hnew
                · exact hold entry hin
                · rw [List.mem_singleton.mp hnew]
                  exact hworker
            · exact hold entry hentry

theorem Carries.proceed {index : Nat} {session : WsSession Value} (carries : daemon.Carries known)
    (hsession : daemon.sessions[index]? = some session)
    (taken : daemon.proceed index session = some after) : after.Carries known := by
  have hheld := carries.session session (List.mem_of_getElem? hsession)
  have kept : ∀ room, daemon.queue.bucket room <:+ daemon.queue.bucket room :=
    fun room => List.suffix_refl _
  cases htask : session.task with
  | idle => simp [DaemonState.proceed, htask] at taken
  | joining room =>
      simp only [DaemonState.proceed, htask] at taken
      split_ifs at taken
      cases taken
      rw [subscribe, MessageQueue.drain_fst]
      refine carries.setSession daemon.rooms MessageQueue.bucket_drain_suffix fun entry hentry => ?_
      have hentry : entry ∈ session.sent ++ daemon.queue.bucket room ++ session.pending := hentry
      simp only [List.mem_append] at hentry
      rcases hentry with (hsent | hdrained) | hpending
      · exact hheld entry (List.mem_append_left _ (List.mem_append_left _ hsent))
      · exact carries.bucket room entry hdrained
      · exact hheld entry (List.mem_append_right _ hpending)
  | flushing entries =>
      cases entries with
      | nil =>
          simp only [DaemonState.proceed, htask, Option.some.injEq] at taken
          subst taken
          refine carries.setSession _ kept fun entry hentry => hheld entry ?_
          simpa [WsSession.stream, WsSession.unflushed, WsSession.pending, htask] using hentry
      | cons first rest =>
          simp only [DaemonState.proceed, htask, Option.some.injEq] at taken
          subst taken
          refine carries.setSession _ kept fun entry hentry => hheld entry ?_
          simpa [WsSession.stream, WsSession.unflushed, WsSession.pending, htask] using hentry
  | leaving room =>
      simp only [DaemonState.proceed, htask] at taken
      split_ifs at taken
      · cases taken
        refine carries.setSession _ kept fun entry hentry => hheld entry ?_
        simpa [WsSession.stream, WsSession.unflushed, WsSession.pending, htask] using hentry
      · cases taken
        refine carries.setSession _ kept fun entry hentry => hheld entry ?_
        simpa [WsSession.stream, WsSession.unflushed, WsSession.pending, htask] using hentry
  | retiring room =>
      simp only [DaemonState.proceed, htask, Option.some.injEq] at taken
      subst taken
      refine carries.setSession _ kept fun entry hentry => hheld entry ?_
      simpa [WsSession.stream, WsSession.unflushed, WsSession.pending, htask] using hentry
  | freeing room =>
      simp only [DaemonState.proceed, htask] at taken
      split_ifs at taken
      cases taken
      refine carries.setSession _ MessageQueue.bucket_removeRoom_suffix
        fun entry hentry => hheld entry ?_
      simpa [WsSession.stream, WsSession.unflushed, WsSession.pending, htask] using hentry

theorem Carries.routed {index : Nat} {session : WsSession Value} (carries : daemon.Carries known)
    (hsession : daemon.sessions[index]? = some session)
    (taken : daemon.routed index session = some after) : after.Carries known := by
  have hheld := carries.session session (List.mem_of_getElem? hsession)
  cases htask : session.task with
  | idle =>
      cases hchannel : session.channel with
      | nil => simp [DaemonState.routed, htask, hchannel] at taken
      | cons frame rest =>
          simp only [DaemonState.routed, htask, hchannel, Option.some.injEq] at taken
          subst taken
          refine carries.setSession _ (fun room => List.suffix_refl _)
            fun entry hentry => hheld entry ?_
          cases frame with
          | message first =>
              simpa [WsSession.stream, WsSession.unflushed, WsSession.pending, htask, hchannel,
                OutFrame.message?, List.filterMap_cons] using hentry
          | notice =>
              simpa [WsSession.stream, WsSession.unflushed, WsSession.pending, htask, hchannel,
                OutFrame.message?, List.filterMap_cons] using hentry
  | joining room => simp [DaemonState.routed, htask] at taken
  | flushing entries => simp [DaemonState.routed, htask] at taken
  | leaving room => simp [DaemonState.routed, htask] at taken
  | retiring room => simp [DaemonState.routed, htask] at taken
  | freeing room => simp [DaemonState.routed, htask] at taken

/-- No step but the worker's reading brings in a message from outside. -/
theorem Carries.step {op : DaemonOp Value} (carries : daemon.Carries known)
    (hserves : ∀ sender payload ts order, op ≠ .receive sender payload ts order)
    (taken : daemon.step op = some after) : after.Carries known := by
  cases op with
  | receive sender payload ts order => exact absurd rfl (hserves sender payload ts order)
  | fan => exact carries.fan taken
  | connect =>
      simp only [DaemonState.step] at taken
      split_ifs at taken
      cases taken
      refine ⟨carries.worker, carries.bucket, fun session hsession entry hentry => ?_⟩
      rcases List.mem_append.mp hsession with hold | hnew
      · exact carries.session session hold entry hentry
      · rw [List.mem_singleton.mp hnew] at hentry
        cases hentry
  | join index room =>
      obtain ⟨session, hsession, htask, rfl⟩ := request_eq_some taken
      rw [join]
      split_ifs
      · refine carries.setSession _ (fun room => List.suffix_refl _) fun entry hentry => ?_
        refine carries.session session (List.mem_of_getElem? hsession) entry ?_
        simpa [WsSession.stream, WsSession.unflushed, WsSession.pending, htask] using hentry
      · exact carries
  | leave index room =>
      obtain ⟨session, hsession, htask, rfl⟩ := request_eq_some taken
      rw [leave]
      split_ifs
      · refine carries.setSession _ (fun room => List.suffix_refl _) fun entry hentry => ?_
        refine carries.session session (List.mem_of_getElem? hsession) entry ?_
        simpa [WsSession.stream, WsSession.unflushed, WsSession.pending, htask] using hentry
      · exact carries
  | proceed index =>
      obtain ⟨session, hsession, hproceed⟩ := Option.bind_eq_some_iff.mp taken
      exact carries.proceed hsession hproceed
  | routed index =>
      obtain ⟨session, hsession, hrouted⟩ := Option.bind_eq_some_iff.mp taken
      exact carries.routed hsession hrouted
  | notify index =>
      simp only [DaemonState.step] at taken
      split_ifs at taken
      obtain ⟨session, hsession, rfl⟩ := Option.map_eq_some_iff.mp taken
      refine carries.setSession daemon.rooms (fun room => List.suffix_refl _) fun entry hentry => ?_
      refine carries.session session (List.mem_of_getElem? hsession) entry ?_
      rcases WsSession.stream_trySend session .notice with hfull | hqueued
      · exact hfull ▸ hentry
      · rw [hqueued] at hentry
        simpa [OutFrame.message?] using hentry
  | disconnect index =>
      simp only [DaemonState.step] at taken
      split_ifs at taken
      cases taken
      refine ⟨carries.worker, carries.bucket, fun session hsession entry hentry => ?_⟩
      exact carries.session session (List.mem_of_mem_eraseIdx hsession) entry hentry

/-- The worker takes on a message that is known, or forgets it. -/
theorem Carries.receive (carries : daemon.Carries known) {sender : String} {payload : Value}
    {ts : UInt64} {order : List String}
    (hknown : order ≠ [] → known sender payload daemon.processed)
    (taken : daemon.receive sender payload ts order = some after) : after.Carries known := by
  rw [DaemonState.receive] at taken
  split at taken
  next hidle =>
    split_ifs at taken with horder hnone
    · cases taken
      exact carries
    · cases taken
      exact ⟨hknown hnone, carries.bucket, carries.session⟩
  next => cases taken
  next => cases taken

theorem processed_receive {sender : String} {payload : Value} {ts : UInt64} {order : List String}
    (taken : daemon.receive sender payload ts order = some after) :
    after.processed = if order = [] then daemon.processed else daemon.processed + 1 := by
  rw [DaemonState.receive] at taken
  split at taken
  next hidle =>
    split_ifs at taken with horder hnone
    · cases taken
      rw [if_pos hnone]
    · cases taken
      rw [if_neg hnone]
  next => cases taken
  next => cases taken

/-- Only what the worker takes on is counted. -/
theorem processed_step {op : DaemonOp Value}
    (hserves : ∀ sender payload ts order, op ≠ .receive sender payload ts order)
    (taken : daemon.step op = some after) : after.processed = daemon.processed := by
  cases op with
  | receive sender payload ts order => exact absurd rfl (hserves sender payload ts order)
  | fan =>
      simp only [DaemonState.step, DaemonState.fan] at taken
      split at taken <;> cases taken <;> rfl
  | connect =>
      simp only [DaemonState.step] at taken
      split_ifs at taken
      cases taken
      rfl
  | join index room =>
      obtain ⟨session, _, _, rfl⟩ := request_eq_some taken
      rw [join]
      split_ifs <;> rfl
  | leave index room =>
      obtain ⟨session, _, _, rfl⟩ := request_eq_some taken
      rw [leave]
      split_ifs <;> rfl
  | proceed index =>
      obtain ⟨session, _, hproceed⟩ := Option.bind_eq_some_iff.mp taken
      rw [DaemonState.proceed] at hproceed
      split at hproceed
      next => cases hproceed
      next => split_ifs at hproceed; cases hproceed; rfl
      next => cases hproceed; rfl
      next => cases hproceed; rfl
      next => split_ifs at hproceed <;> cases hproceed <;> rfl
      next => cases hproceed; rfl
      next => split_ifs at hproceed; cases hproceed; rfl
  | routed index =>
      obtain ⟨session, _, hrouted⟩ := Option.bind_eq_some_iff.mp taken
      rw [DaemonState.routed] at hrouted
      split at hrouted
      next => cases hrouted; rfl
      next => cases hrouted
  | notify index =>
      simp only [DaemonState.step] at taken
      split_ifs at taken
      obtain ⟨session, _, rfl⟩ := Option.map_eq_some_iff.mp taken
      rfl
  | disconnect index =>
      simp only [DaemonState.step] at taken
      split_ifs at taken
      cases taken
      rfl

end DaemonState

/-! ## What the channel hands on -/

namespace Journey

variable {primitives : Primitives} {senderId receiverId : String} {key : Option Bytes}
  {channel : Channel}

variable (primitives receiverId channel) in
/-- A send leaves the receiver alone, and its message is accepted or not. -/
theorem channel_send (msgType : MessageType) (payload : Bytes) (first retry : LinkIo) :
    (channel.send primitives receiverId msgType payload first retry).receiver = channel.receiver ∧
      ((channel.send primitives receiverId msgType payload first retry).accepted =
          channel.accepted ∨
        (channel.send primitives receiverId msgType payload first retry).accepted =
          channel.accepted ++ [(msgType, payload)]) := by
  simp only [Channel.send]
  split
  · refine ⟨rfl, ?_⟩
    dsimp only
    split
    · exact .inr rfl
    · exact .inl rfl
  · exact ⟨rfl, .inl rfl⟩

variable (primitives senderId channel) in
/-- A reader takes no event back. -/
theorem events_advance (io : ReaderIo) :
    (channel.advance primitives senderId io).accepted = channel.accepted ∧
      channel.receiver.events <+: (channel.advance primitives senderId io).receiver.events := by
  rw [Channel.advance]
  cases hadvance : channel.receiver.advance primitives senderId io channel.stage with
  | none => exact ⟨rfl, List.prefix_rfl⟩
  | some moved =>
      refine ⟨rfl, ?_⟩
      rcases moved with ⟨after, next⟩
      show channel.receiver.events <+: after.events
      generalize channel.stage = stage at hadvance
      cases Node.move_of_advance hadvance with
      | reads _ _ only =>
          obtain ⟨received, hevents, _⟩ := only.events
          exact ⟨received, hevents.symm⟩
      | detached _ | dropped | evicted | removed => exact List.prefix_rfl
      | marked => exact (Node.events_markDisconnected senderId) ▸ List.prefix_rfl
      | announced => exact List.prefix_append _ _

/-- Steps of the link send no application message and take no event back. -/
theorem channel_step {event : ChannelEvent} (sent : Sent channel event) :
    payloads (channel.step primitives senderId receiverId event).accepted =
        payloads channel.accepted ∧
      channel.receiver.events <+:
        (channel.step primitives senderId receiverId event).receiver.events := by
  cases event with
  | send msgType payload first retry =>
      obtain ⟨hreceiver, haccepted⟩ :=
        channel_send primitives receiverId channel msgType payload first retry
      refine ⟨?_, ?_⟩
      · rcases haccepted with hsame | hmore
        · exact congrArg payloads hsame
        · refine (congrArg payloads hmore).trans ?_
          have hother : payloads [(msgType, payload)] = [] := by
            simp only [payloads, List.filterMap_cons, List.filterMap_nil]
            rw [if_neg sent]
          rw [payloads_append, hother, List.append_nil]
      · exact (congrArg Node.events hreceiver) ▸ List.prefix_rfl
  | deliver count => exact ⟨rfl, List.prefix_rfl⟩
  | read io =>
      show payloads (channel.read primitives senderId io).accepted = _ ∧
        _ <+: (channel.read primitives senderId io).receiver.events
      rw [Channel.read]
      split
      · split
        · exact ⟨rfl, List.prefix_rfl⟩
        · next result stream _ =>
          obtain ⟨haccepted, hevents⟩ := events_advance primitives senderId
            { channel with stream } { io with read := result }
          exact ⟨congrArg payloads haccepted, hevents⟩
      · obtain ⟨haccepted, hevents⟩ := events_advance primitives senderId channel io
        exact ⟨congrArg payloads haccepted, hevents⟩
  | close => exact ⟨rfl, List.prefix_rfl⟩
  | senderElsewhere node => exact ⟨rfl, List.prefix_rfl⟩
  | receiverElsewhere node => exact ⟨rfl, sent⟩

end Journey

/-! ## The invariant -/

namespace Journey

/-- Which messages of the peer the daemon may hold: those that the worker has taken on. -/
def Keeps (senderId : String) (kept : List (Nat × Value)) (sender : String) (payload : Value)
    (number : Nat) : Prop :=
  sender = senderId → (number, payload) ∈ kept

/-- Along the way from the clients to the worker nothing is added, and unless something was
missed nothing is left out. -/
structure Travels (primitives : Primitives) (senderId receiverId : String) (key : Option Bytes)
    (json : JsonText Value) (skipped : Nat) (journey : Journey Value) : Prop where
  conveys : journey.channel.Conveys primitives senderId receiverId key skipped []
  accepted : (payloads journey.channel.accepted).map json.payloadValue =
    journey.given.filterMap json.arrives
  bridge : journey.bridge ≤ journey.channel.receiver.events.length
  place : journey.place ≤ journey.stream.length
  relayed : (heardFrom senderId journey.stream).Sublist
    (heardFrom senderId (journey.channel.receiver.events.take journey.bridge))
  taken : (journey.kept.map Prod.snd).Sublist
    ((heardFrom senderId (journey.stream.take journey.place)).map json.payloadValue)
  whole : journey.missed = false →
    heardFrom senderId journey.stream =
        heardFrom senderId (journey.channel.receiver.events.take journey.bridge) ∧
      journey.kept.map Prod.snd =
        (heardFrom senderId (journey.stream.take journey.place)).map json.payloadValue
  carries : journey.daemon.Carries (Keeps senderId journey.kept)
  numbered : Climbing.Climbs Prod.fst journey.daemon.processed journey.kept
  ordered : journey.daemon.Ordered

/-- A connection that has just been opened, to a daemon that has heard nothing from the peer. -/
structure Opened (primitives : Primitives) (senderId receiverId : String) (key : Option Bytes)
    (journey : Journey Value) : Prop where
  channel : journey.channel.Opened primitives senderId receiverId key
  fresh : journey.channel.accepted = [] ∧ journey.given = [] ∧ journey.kept = []
  unheard : heardFrom senderId journey.channel.receiver.events = []
  quiet : heardFrom senderId journey.stream = []
  bridge : journey.bridge ≤ journey.channel.receiver.events.length
  place : journey.place ≤ journey.stream.length
  daemon : (DaemonState.Carries journey.daemon fun sender _ _ => sender ≠ senderId) ∧
    ((Mlink.Daemon.system : Transition.System (DaemonState Value) (DaemonOp Value)).restrict
      DaemonState.JoinsAhead).Reachable journey.daemon

variable {primitives : Primitives} {senderId receiverId : String} {key : Option Bytes}
  {json : JsonText Value} {skipped : Nat} {journey : Journey Value}

/-- What the node has published from the peer. -/
theorem received_eq (node : Node) : node.received senderId = heardFrom senderId node.events := rfl

theorem heardFrom_take {events : List NodeEvent} (hnone : heardFrom senderId events = [])
    (count : Nat) : heardFrom senderId (events.take count) = [] := by
  rw [← List.take_append_drop count events, heardFrom_append] at hnone
  exact (List.append_eq_nil_iff.mp hnone).1

theorem Opened.travels (opened : journey.Opened primitives senderId receiverId key) :
    journey.Travels primitives senderId receiverId key json
      journey.channel.stream.returned.length := by
  obtain ⟨haccepted, hgiven, hkept⟩ := opened.fresh
  have hconveys := opened.channel.conveys
  rw [received_eq, opened.unheard] at hconveys
  have hevents := heardFrom_take opened.unheard journey.bridge
  have hstream := heardFrom_take opened.quiet journey.place
  refine ⟨hconveys, ?_, opened.bridge, opened.place, ?_, ?_, fun _ => ?_, ?_, ?_, ?_⟩
  · rw [haccepted, hgiven]
    rfl
  · rw [opened.quiet]
    exact List.nil_sublist _
  · rw [hkept]
    exact List.nil_sublist _
  · rw [opened.quiet, hevents, hkept, hstream]
    exact ⟨rfl, rfl⟩
  · exact opened.daemon.1.mono fun _ _ _ hother hsame => absurd hsame hother
  · rw [hkept]
    exact .nil _
  · apply opened.daemon.2.invariant DaemonState.Ordered
    · rintro _ ⟨rooms, rfl⟩
      exact DaemonState.new_ordered rooms
    · rintro source op target _ ordered ⟨taken, ahead⟩
      exact DaemonState.step_ordered ordered ahead taken

/-- Nothing but the channel is changed, and it has published more or nothing. -/
theorem Travels.onChannel
    (travels : journey.Travels primitives senderId receiverId key json skipped)
    {channel : Channel} {given : List Value}
    (conveys : channel.Conveys primitives senderId receiverId key skipped [])
    (accepted : (payloads channel.accepted).map json.payloadValue = given.filterMap json.arrives)
    (events : journey.channel.receiver.events <+: channel.receiver.events) :
    Travels primitives senderId receiverId key json skipped
      { journey with channel, given } := by
  obtain ⟨later, hlater⟩ := events
  have htake : channel.receiver.events.take journey.bridge =
      journey.channel.receiver.events.take journey.bridge := by
    rw [← hlater, List.take_append_of_le_length travels.bridge]
  refine ⟨conveys, accepted, ?_, travels.place, ?_, travels.taken, ?_, travels.carries,
    travels.numbered, travels.ordered⟩
  · rw [← hlater, List.length_append]
    exact Nat.le_add_right_of_le travels.bridge
  · dsimp only
    rw [htake]
    exact travels.relayed
  · dsimp only
    rw [htake]
    exact travels.whole

theorem Travels.send (travels : journey.Travels primitives senderId receiverId key json skipped)
    (value : Value) (first retry : LinkIo)
    (single : journey.channel.sender.sessionIsMultilink receiverId = false) :
    (journey.send primitives receiverId json value first retry).Travels primitives senderId
      receiverId key json skipped := by
  rw [Journey.send]
  cases hwritten : json.toVec value with
  | error e => exact travels
  | ok bytes =>
      have hconveys := travels.conveys.send .message bytes first retry single
      obtain ⟨hreceiver, haccepted⟩ :=
        channel_send primitives receiverId journey.channel .message bytes first retry
      have hevents := congrArg Node.events hreceiver
      refine travels.onChannel hconveys ?_ (hevents ▸ List.prefix_rfl)
      rcases haccepted with hsame | hmore
      · rw [if_pos hsame, hsame]
        exact travels.accepted
      · have harrives : json.arrives value = some (json.payloadValue bytes) := by
          rw [JsonText.arrives, hwritten]
        rw [if_neg (by rw [hmore]; simp), hmore, payloads_append, List.map_append,
          travels.accepted, List.filterMap_append]
        simp [payloads, harrives]

theorem Travels.relay (travels : journey.Travels primitives senderId receiverId key json skipped) :
    (journey.relay senderId).Travels primitives senderId receiverId key json skipped := by
  have htake := Broadcast.recv_take NODE_CHANNEL_CAPACITY journey.channel.receiver.events
    journey.bridge
  have hplace : (Broadcast.recv NODE_CHANNEL_CAPACITY journey.channel.receiver.events
      journey.bridge).place ≤ _ := Broadcast.recv_place_le travels.bridge
  rw [Journey.relay]
  generalize Broadcast.recv NODE_CHANNEL_CAPACITY journey.channel.receiver.events journey.bridge =
    reading at htake hplace ⊢
  have hstream : (journey.stream ++ reading.value.toList).take journey.place =
      journey.stream.take journey.place := List.take_append_of_le_length travels.place
  refine ⟨travels.conveys, travels.accepted, hplace, ?_, ?_, ?_, ?_, travels.carries,
    travels.numbered, travels.ordered⟩
  · dsimp only
    rw [List.length_append]
    exact Nat.le_add_right_of_le travels.place
  · dsimp only
    rw [htake, heardFrom_append, heardFrom_append, heardFrom_append]
    exact travels.relayed.append (List.sublist_append_right _ _)
  · dsimp only
    rw [hstream]
    exact travels.taken
  · intro hmissed
    simp only [Bool.or_eq_false_iff, Bool.not_eq_false', List.isEmpty_iff] at hmissed
    obtain ⟨hrelayed, hkept⟩ := travels.whole hmissed.1
    dsimp only
    rw [hstream, htake, heardFrom_append, heardFrom_append, heardFrom_append, hmissed.2, hrelayed]
    exact ⟨rfl, hkept⟩

theorem Travels.link (lawful : primitives.Lawful)
    (travels : journey.Travels primitives senderId receiverId key json skipped)
    {event : ChannelEvent} (single : journey.channel.SingleLink senderId receiverId key event)
    (sent : Sent journey.channel event) :
    Travels primitives senderId receiverId key json skipped
      { journey with channel := journey.channel.step primitives senderId receiverId event } := by
  obtain ⟨haccepted, hevents⟩ := channel_step sent
  refine travels.onChannel (travels.conveys.step lawful event single) ?_ hevents
  rw [haccepted]
  exact travels.accepted

/-- The worker goes past some events, of which it hears none from the peer. -/
theorem Travels.goPast (travels : journey.Travels primitives senderId receiverId key json skipped)
    {reading : Broadcast.Reading NodeEvent}
    (htake : journey.stream.take reading.place = journey.stream.take journey.place ++
      (reading.skipped ++ reading.value.toList))
    (hplace : reading.place ≤ journey.stream.length)
    (hother : heardFrom senderId reading.value.toList = []) :
    Travels primitives senderId receiverId key json skipped
      { journey with
        place := reading.place
        missed := journey.missed || !(heardFrom senderId reading.skipped).isEmpty } := by
  refine ⟨travels.conveys, travels.accepted, travels.bridge, hplace, travels.relayed, ?_, ?_,
    travels.carries, travels.numbered, travels.ordered⟩
  · dsimp only
    rw [htake, heardFrom_append, List.map_append]
    exact travels.taken.trans (List.sublist_append_left _ _)
  · intro hmissed
    simp only [Bool.or_eq_false_iff, Bool.not_eq_false', List.isEmpty_iff] at hmissed
    obtain ⟨hrelayed, hkept⟩ := travels.whole hmissed.1
    refine ⟨hrelayed, ?_⟩
    dsimp only
    rw [htake, heardFrom_append, heardFrom_append, hmissed.2, hother, List.append_nil,
      List.append_nil]
    exact hkept

/-- The worker takes on a message. -/
theorem Travels.hear {read after : Journey Value} {peerId : String} {payload : Bytes}
    {ts : UInt64} {order : List String}
    (travels : journey.Travels primitives senderId receiverId key json skipped)
    {reading : Broadcast.Reading NodeEvent}
    (htake : journey.stream.take reading.place = journey.stream.take journey.place ++
      (reading.skipped ++ reading.value.toList))
    (hplace : reading.place ≤ journey.stream.length)
    (hvalue : reading.value = some (.messageReceived peerId payload))
    (hread : read = { journey with
      place := reading.place
      missed := journey.missed || !(heardFrom senderId reading.skipped).isEmpty })
    (hheard : read.hear senderId json peerId payload ts order = some after) :
    after.Travels primitives senderId receiverId key json skipped := by
  subst hread
  obtain ⟨daemon, hreceive, rfl⟩ := Option.map_eq_some_iff.mp hheard
  have hordered := DaemonState.receive_ordered travels.ordered hreceive
  have hprocessed : daemon.processed = if order = [] then journey.daemon.processed
      else journey.daemon.processed + 1 := DaemonState.processed_receive hreceive
  by_cases hpeer : peerId = senderId
  · have hheard : heardFrom senderId reading.value.toList = [payload] := by
      rw [hvalue]
      simp [heardFrom, hpeer]
    rw [if_pos hpeer]
    by_cases hrooms : order = []
    · -- no room: the message is forgotten
      rw [if_pos hrooms]
      rw [if_pos hrooms] at hprocessed
      refine ⟨travels.conveys, travels.accepted, travels.bridge, hplace, travels.relayed, ?_,
        nofun,
        travels.carries.receive (fun hsome => absurd hrooms hsome) hreceive, ?_, hordered⟩
      · dsimp only
        rw [htake, heardFrom_append, List.map_append]
        exact travels.taken.trans (List.sublist_append_left _ _)
      · dsimp only
        rw [hprocessed]
        exact travels.numbered
    · rw [if_neg hrooms]
      rw [if_neg hrooms] at hprocessed
      refine ⟨travels.conveys, travels.accepted, travels.bridge, hplace, travels.relayed, ?_, ?_,
        ?_, ?_, hordered⟩
      · dsimp only
        rw [htake, heardFrom_append, heardFrom_append, hheard, List.map_append, List.map_append,
          List.map_append]
        exact travels.taken.append (List.sublist_append_right _ _)
      · intro hmissed
        simp only [Bool.or_eq_false_iff, Bool.not_eq_false', List.isEmpty_iff] at hmissed
        obtain ⟨hrelayed, hkept⟩ := travels.whole hmissed.1
        refine ⟨hrelayed, ?_⟩
        dsimp only
        rw [htake, heardFrom_append, heardFrom_append, hheard, hmissed.2, List.map_append,
          List.map_append, hkept]
        rfl
      · have hmore : journey.daemon.Carries (Keeps senderId (journey.kept ++
            [(journey.daemon.processed, json.payloadValue payload)])) :=
          travels.carries.mono fun _ _ _ hknown hsame => List.mem_append_left _ (hknown hsame)
        exact hmore.receive (fun _ _ => List.mem_append_right _ List.mem_cons_self) hreceive
      · refine travels.numbered.snoc (Nat.le_refl _) ?_
        dsimp only
        rw [hprocessed]
        exact Nat.lt_succ_self _
  · have hother : heardFrom senderId reading.value.toList = [] := by
      rw [hvalue]
      simp [heardFrom, hpeer]
    rw [if_neg hpeer]
    have hpast := travels.goPast htake hplace hother
    refine ⟨hpast.conveys, hpast.accepted, hpast.bridge, hpast.place, hpast.relayed, hpast.taken,
      hpast.whole, travels.carries.receive (fun _ hsame => absurd hsame hpeer) hreceive, ?_,
      hordered⟩
    apply travels.numbered.mono
    rw [hprocessed]
    split_ifs <;> omega

theorem Travels.take (travels : journey.Travels primitives senderId receiverId key json skipped)
    (ts : UInt64) (order : List String) :
    (journey.take senderId json ts order).Travels primitives senderId receiverId key json
      skipped := by
  rw [Journey.take]
  split
  · have htake := Broadcast.recv_take EVENT_CHANNEL_CAPACITY journey.stream journey.place
    have hplace : (Broadcast.recv EVENT_CHANNEL_CAPACITY journey.stream journey.place).place ≤ _ :=
      Broadcast.recv_place_le travels.place
    dsimp only
    generalize Broadcast.recv EVENT_CHANNEL_CAPACITY journey.stream journey.place = reading
      at htake hplace ⊢
    split
    · next peerId payload hvalue =>
      cases hheard : Journey.hear senderId json { journey with
        place := reading.place
        missed := journey.missed || !(heardFrom senderId reading.skipped).isEmpty }
        peerId payload ts order with
      | none => exact travels
      | some after => exact travels.hear htake hplace hvalue rfl hheard
    · next hother =>
      refine travels.goPast htake hplace ?_
      cases hvalue : reading.value with
      | none => rfl
      | some event =>
          cases event with
          | messageReceived peerId payload => exact absurd hvalue (hother peerId payload)
          | peerConnected _ | peerDisconnected _ | linkAdded _ _ _ | linkRemoved _ _ _
          | linkSwitched _ _ _ _ => rfl
  · exact travels
  · exact travels

theorem Travels.serve (travels : journey.Travels primitives senderId receiverId key json skipped)
    {op : DaemonOp Value}
    (hserves : ∀ sender payload ts order, op ≠ .receive sender payload ts order)
    (ahead : journey.daemon.JoinsAhead op) :
    Travels primitives senderId receiverId key json skipped
      { journey with daemon := (journey.daemon.step op).getD journey.daemon } := by
  cases hstep : journey.daemon.step op with
  | none => exact travels
  | some after =>
      refine ⟨travels.conveys, travels.accepted, travels.bridge, travels.place, travels.relayed,
        travels.taken, travels.whole, travels.carries.step hserves hstep, ?_,
        DaemonState.step_ordered travels.ordered ahead hstep⟩
      show Climbing.Climbs _ after.processed _
      rw [DaemonState.processed_step hserves hstep]
      exact travels.numbered

theorem Travels.step (lawful : primitives.Lawful)
    (travels : journey.Travels primitives senderId receiverId key json skipped)
    {move : JourneyMove Value} (orderly : journey.Orderly senderId receiverId key move) :
    (journey.step primitives senderId receiverId json move).Travels primitives senderId receiverId
      key json skipped := by
  cases move with
  | send value first retry => exact travels.send value first retry orderly
  | link event => exact travels.link lawful orderly.1 orderly.2
  | relay => exact travels.relay
  | take ts order => exact travels.take ts order
  | serve op => exact travels.serve orderly.1 orderly.2

/-! ## What the clients get -/

/-- Nothing from the peer is on its way to the worker any more. -/
def Drained (senderId : String) (journey : Journey Value) : Prop :=
  journey.channel.stream.inflight = [] ∧ journey.channel.stream.read.1 = none ∧
    heardFrom senderId (journey.channel.receiver.events.drop journey.bridge) = [] ∧
    heardFrom senderId (journey.stream.drop journey.place) = []

/-- What the clients of the receiving daemon can rely on. -/
structure Hears (senderId : String) (json : JsonText Value) (journey : Journey Value) :
    Prop where
  /-- What the worker takes on was given by a client at the other end, in that order. -/
  taken : (journey.kept.map Prod.snd).Sublist (journey.given.filterMap json.arrives)
  /-- Unless something was missed, it is the first of it. -/
  first : journey.missed = false →
    journey.kept.map Prod.snd <+: journey.given.filterMap json.arrives
  /-- And all of it, once nothing is on its way. -/
  all : journey.missed = false → journey.Drained senderId →
    journey.kept.map Prod.snd = journey.given.filterMap json.arrives
  /-- What a client gets in a room from the peer is among it, in that order and each once. -/
  client : ∀ session ∈ journey.daemon.sessions, ∀ room,
    (((ofRoom session.sent room).filter (·.sender = senderId)).map MessageEntry.payload).Sublist
      (journey.given.filterMap json.arrives)

/-- What the node has published is the first of what has arrived. -/
theorem Travels.published
    (travels : journey.Travels primitives senderId receiverId key json skipped) :
    (heardFrom senderId journey.channel.receiver.events).map json.payloadValue <+:
      journey.given.filterMap json.arrives := by
  have hpublished := travels.conveys.published
  rw [received_eq, List.nil_append] at hpublished
  rw [hpublished, ← travels.accepted]
  exact ((List.take_prefix _ _).filterMap _).map _

variable (senderId) in
theorem heardFrom_take_prefix (events : List NodeEvent) (count : Nat) :
    heardFrom senderId (events.take count) <+: heardFrom senderId events :=
  (List.take_prefix count events).filterMap _

theorem Travels.first
    (travels : journey.Travels primitives senderId receiverId key json skipped)
    (hmissed : journey.missed = false) :
    journey.kept.map Prod.snd <+: journey.given.filterMap json.arrives := by
  obtain ⟨hrelayed, hkept⟩ := travels.whole hmissed
  have hstream := heardFrom_take_prefix senderId journey.stream journey.place
  have hevents := heardFrom_take_prefix senderId journey.channel.receiver.events journey.bridge
  rw [hrelayed] at hstream
  rw [hkept]
  exact ((hstream.trans hevents).map _).trans travels.published

theorem Travels.all
    (travels : journey.Travels primitives senderId receiverId key json skipped)
    (hmissed : journey.missed = false) (drained : journey.Drained senderId) :
    journey.kept.map Prod.snd = journey.given.filterMap json.arrives := by
  obtain ⟨hidle, hpending, hevents, hstream⟩ := drained
  obtain ⟨hrelayed, hkept⟩ := travels.whole hmissed
  have hdrop := travels.conveys.settled (travels.conveys.unread_of_idle hidle hpending)
  have hpublished := travels.conveys.published
  rw [received_eq, List.nil_append] at hpublished
  have haccepted := List.take_append_drop (journey.channel.taken skipped) journey.channel.accepted
  rw [hdrop, List.append_nil] at haccepted
  rw [haccepted] at hpublished
  have htook : heardFrom senderId (journey.stream.take journey.place) =
      heardFrom senderId journey.stream := by
    conv_rhs => rw [← List.take_append_drop journey.place journey.stream, heardFrom_append,
      hstream, List.append_nil]
  have hwhole : heardFrom senderId (journey.channel.receiver.events.take journey.bridge) =
      heardFrom senderId journey.channel.receiver.events := by
    conv_rhs => rw [← List.take_append_drop journey.bridge journey.channel.receiver.events,
      heardFrom_append, hevents, List.append_nil]
  rw [hkept, htook, hrelayed, hwhole, hpublished, travels.accepted]

/-- The numbers say which of the values taken on a client has got. -/
theorem Travels.client
    (travels : journey.Travels primitives senderId receiverId key json skipped)
    {session : WsSession Value} (hsession : session ∈ journey.daemon.sessions) (room : String) :
    (((ofRoom session.sent room).filter (·.sender = senderId)).map MessageEntry.payload).Sublist
      (journey.kept.map Prod.snd) := by
  have hnumbers := travels.ordered.deliversInOrder session hsession room
  let got := (ofRoom session.sent room).filter (·.sender = senderId)
  have hincreasing : (got.map fun entry => (entry.number, entry.payload)).Pairwise
      fun first second => first.1 < second.1 := by
    rw [List.pairwise_map]
    exact (List.pairwise_map.mp hnumbers).sublist List.filter_sublist
  have hknown : (got.map fun entry => (entry.number, entry.payload)) ⊆ journey.kept := by
    intro pair hpair
    obtain ⟨entry, hentry, rfl⟩ := List.mem_map.mp hpair
    obtain ⟨hroom, hsender⟩ := List.mem_filter.mp hentry
    refine travels.carries.session session hsession entry ?_ (of_decide_eq_true hsender)
    exact List.mem_append_left _ (List.mem_append_left _ (mem_ofRoom.mp hroom).1)
  have hsublist := (travels.numbered.sublist_of_subset hincreasing hknown).map Prod.snd
  rwa [List.map_map] at hsublist

end Journey

end Mlink.Daemon
