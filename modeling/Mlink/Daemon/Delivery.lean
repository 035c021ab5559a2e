/-
# What the sessions get

For each session and room, what was written to the socket, what the handler has
drained and what waits in the channel is the order in which the client gets the
room's messages. It climbs as long as no join drains a bucket that is behind the
session.
-/

import Mlink.Daemon.FanOut
import Mlink.Lib.Climbing

namespace Mlink.Daemon

open Climbing

variable {Value : Type}

/-- The messages of one room. -/
def ofRoom (entries : List (MessageEntry Value)) (room : String) : List (MessageEntry Value) :=
  entries.filter fun entry => entry.room = room

namespace WsSession

/-- Each room's messages reach the client once and in the order of the
fan-out. -/
def InOrder (session : WsSession Value) : Prop :=
  ∀ room, ((ofRoom session.sent room).map MessageEntry.number).Pairwise (· < ·)

/-- What the client has got, and will get from what is on its way, in order. -/
def stream (session : WsSession Value) : List (MessageEntry Value) :=
  session.sent ++ session.unflushed ++ session.pending

/-- Each room's stream climbs below the room's limit. -/
def Climbs (limit : String → Nat) (session : WsSession Value) : Prop :=
  ∀ room, Climbing.Climbs MessageEntry.number (limit room) (ofRoom session.stream room)

end WsSession

namespace DaemonState

/-- The number that the next message pushed for a room will have at least. -/
def limit (daemon : DaemonState Value) (room : String) : Nat :=
  match daemon.worker with
  | .idle => daemon.processed
  | .listed message rooms | .fanning message rooms =>
      if room ∈ rooms then message.number else daemon.processed

/-- Every session gets each room's messages once and in order. -/
def DeliversInOrder (daemon : DaemonState Value) : Prop :=
  ∀ session ∈ daemon.sessions, session.InOrder

/-- A drained bucket is ahead of the session: nothing of the room waits in the
channel behind it, and it is newer than what the session got. -/
def Ahead (session : WsSession Value) (room : String) (bucket : List (MessageEntry Value)) :
    Prop :=
  ∀ fresh ∈ bucket, ofRoom session.pending room = [] ∧
    ∀ entry ∈ ofRoom session.sent room, entry.number < fresh.number

/-- A join only ever drains a bucket that is ahead of its session. -/
def JoinsAhead (daemon : DaemonState Value) : DaemonOp Value → Prop
  | .proceed index => ∀ session room, daemon.sessions[index]? = some session →
      session.task = .joining room → Ahead session room (daemon.queue.bucket room)
  | _ => True

end DaemonState

/-! ## The stream of one session -/

section Stream

variable {limit : String → Nat} {session : WsSession Value} {room : String}

@[simp]
theorem ofRoom_append (first second : List (MessageEntry Value)) :
    ofRoom (first ++ second) room = ofRoom first room ++ ofRoom second room := by
  simp [ofRoom]

@[simp]
theorem mem_ofRoom {entries : List (MessageEntry Value)} {entry : MessageEntry Value} :
    entry ∈ ofRoom entries room ↔ entry ∈ entries ∧ entry.room = room := by
  simp [ofRoom]

/-- A bucket holds the messages of its room only. -/
theorem ofRoom_of_forall {entries : List (MessageEntry Value)}
    (same : ∀ entry ∈ entries, entry.room = room) : ofRoom entries room = entries := by
  rw [ofRoom, List.filter_eq_self]
  intro entry hentry
  simpa using same entry hentry

theorem ofRoom_of_ne {entries : List (MessageEntry Value)} {other : String}
    (same : ∀ entry ∈ entries, entry.room = room) (hother : other ≠ room) :
    ofRoom entries other = [] := by
  rw [ofRoom, List.filter_eq_nil_iff]
  intro entry hentry
  simpa [same entry hentry] using hother.symm

namespace WsSession

/-- What was sent is the beginning of the stream. -/
theorem Climbs.inOrder (climbs : session.Climbs limit) : session.InOrder := by
  intro room
  rw [List.pairwise_map]
  apply List.Pairwise.sublist ?_ (climbs room).increasing
  simp only [stream, ofRoom_append, List.append_assoc]
  exact List.sublist_append_left _ _

theorem new_climbs : (new : WsSession Value).Climbs limit := fun _ => Climbs.nil _

/-- Only the stream matters. -/
theorem Climbs.of_stream_eq {after : WsSession Value} (climbs : session.Climbs limit)
    (same : after.stream = session.stream) : after.Climbs limit := by
  intro room
  rw [same]
  exact climbs room

variable (session) in
/-- A full channel changes nothing, and one with room queues the frame. -/
theorem stream_trySend (frame : OutFrame Value) :
    (session.trySend frame).stream = session.stream ∨
      (session.trySend frame).stream = session.stream ++ frame.message?.toList := by
  by_cases hspace : session.channel.length < OUTBOUND_CAPACITY
  · right
    rw [trySend, if_pos hspace]
    cases frame <;> simp [stream, unflushed, pending, OutFrame.message?]
  · left
    rw [trySend, if_neg hspace]

/-- An entry at the limit of its room may be offered. -/
theorem Climbs.offer {limit' : String → Nat} {entry : MessageEntry Value}
    (climbs : session.Climbs limit) (next : limit entry.room ≤ entry.number)
    (below : entry.number < limit' entry.room) (higher : ∀ room, limit room ≤ limit' room) :
    (session.offer entry).Climbs limit' := by
  have hsame : session.Climbs limit' := fun room => (climbs room).mono (higher room)
  by_cases subscribed : entry.room ∈ session.subs
  · rw [WsSession.offer, if_pos subscribed]
    rcases stream_trySend session (.message entry) with hfull | hqueued
    · exact hsame.of_stream_eq hfull
    · intro room
      rw [hqueued, ofRoom_append]
      by_cases here : entry.room = room
      · subst here
        have hone : ofRoom (OutFrame.message entry).message?.toList entry.room = [entry] := by
          simp [ofRoom, OutFrame.message?]
        rw [hone]
        exact (climbs entry.room).snoc next below
      · have hnone : ofRoom (OutFrame.message entry).message?.toList room = [] := by
          simp [ofRoom, OutFrame.message?, here]
        rw [hnone, List.append_nil]
        exact hsame room
  · rw [WsSession.offer, if_neg subscribed]
    exact hsame

/-- A bucket that is ahead of a session may be flushed to it. -/
theorem Climbs.flushing {bucket : List (MessageEntry Value)} (climbs : session.Climbs limit)
    (nothing : session.unflushed = [])
    (hbucket : Climbing.Climbs MessageEntry.number (limit room) bucket)
    (same : ∀ entry ∈ bucket, entry.room = room)
    (ahead : DaemonState.Ahead session room bucket) (subs : Finset String) :
    { session with subs, task := .flushing bucket : WsSession Value }.Climbs limit := by
  intro other
  have hold := climbs other
  simp only [stream, nothing, List.append_nil, ofRoom_append] at hold
  show Climbing.Climbs _ _ (ofRoom (session.sent ++ bucket ++ session.pending) other)
  rw [ofRoom_append, ofRoom_append]
  by_cases here : other = room
  · subst here
    rw [ofRoom_of_forall same]
    cases bucket with
    | nil =>
        rw [List.append_nil]
        exact hold
    | cons fresh rest =>
        have hpending := (ahead fresh List.mem_cons_self).1
        rw [hpending, List.append_nil] at hold ⊢
        exact hold.append hbucket fun entry hentry later hlater =>
          (ahead later hlater).2 entry hentry
  · rw [ofRoom_of_ne same here, List.append_nil]
    exact hold

end WsSession

end Stream

/-! ## The invariant -/

namespace DaemonState

/-- The rooms still to be served are distinct, and the message at hand is the
last that was numbered. -/
def WorkerOk (daemon : DaemonState Value) : Prop :=
  match daemon.worker with
  | .idle => True
  | .listed message rooms | .fanning message rooms =>
      rooms.Nodup ∧ message.number + 1 = daemon.processed

structure Ordered (daemon : DaemonState Value) : Prop where
  worker : daemon.WorkerOk
  bucket : ∀ room, Climbs MessageEntry.number (daemon.limit room) (daemon.queue.bucket room)
  room : ∀ room, ∀ entry ∈ daemon.queue.bucket room, entry.room = room
  session : ∀ session ∈ daemon.sessions, session.Climbs daemon.limit

theorem Ordered.deliversInOrder {daemon : DaemonState Value} (ordered : daemon.Ordered) :
    daemon.DeliversInOrder :=
  fun session hsession => (ordered.session session hsession).inOrder

theorem new_ordered (rooms : Finset String) : (new rooms : DaemonState Value).Ordered where
  worker := trivial
  bucket room := Climbs.nil _
  room := by
    intro room entry hentry
    cases hentry
  session := by
    intro session hsession
    cases hsession

variable {daemon after : DaemonState Value}

/-- A step that pushes nothing keeps the order if limits do not fall, buckets
only shrink, and every session it changes still climbs. -/
theorem Ordered.update (ordered : daemon.Ordered) (worker : after.WorkerOk)
    (higher : ∀ room, daemon.limit room ≤ after.limit room)
    (buckets : ∀ room, after.queue.bucket room <:+ daemon.queue.bucket room)
    (sessions : ∀ session ∈ after.sessions,
      session ∈ daemon.sessions ∨ session.Climbs daemon.limit) : after.Ordered where
  worker := worker
  bucket room := ((ordered.bucket room).sublist (buckets room).sublist).mono (higher room)
  room room entry hentry := ordered.room room entry ((buckets room).subset hentry)
  session session hsession room := by
    rcases sessions session hsession with hold | hclimbs
    · exact (ordered.session session hold room).mono (higher room)
    · exact (hclimbs room).mono (higher room)

/-- A handler that leaves the worker alone changes its own session only. -/
theorem Ordered.setSession (ordered : daemon.Ordered) {index : Nat} {session : WsSession Value}
    (climbs : session.Climbs daemon.limit) (rooms : Finset String) {queue : MessageQueue Value}
    (buckets : ∀ room, queue.bucket room <:+ daemon.queue.bucket room) :
    { daemon.setSession index session with rooms, queue : DaemonState Value }.Ordered := by
  refine ordered.update ordered.worker (fun room => Nat.le_refl _) buckets ?_
  intro other hother
  rcases List.mem_or_eq_of_mem_set hother with hold | rfl
  · exact .inl hold
  · exact .inr climbs

theorem receive_ordered {sender : String} {payload : Value} {ts : UInt64} {order : List String}
    (ordered : daemon.Ordered)
    (taken : daemon.receive sender payload ts order = some after) : after.Ordered := by
  cases hworker : daemon.worker with
  | idle =>
      simp only [receive, hworker] at taken
      split_ifs at taken with hrooms hnone
      · cases taken
        exact ordered
      · cases taken
        refine ordered.update ⟨hrooms.1, rfl⟩ ?_ (fun room => List.suffix_refl _)
          (fun session hsession => .inl hsession)
        intro room
        simp only [limit, hworker]
        split_ifs <;> omega
  | listed message rooms => simp [receive, hworker] at taken
  | fanning message rooms => simp [receive, hworker] at taken

/-- Serving a room pushes an entry that ranks at the room's limit, and raises
the limit past it. -/
theorem fanRoom_ordered {message : Incoming Value} {room : String} {rest : List String}
    (ordered : daemon.Ordered) (hworker : daemon.worker = .fanning message (room :: rest)) :
    (daemon.fanRoom message room rest).Ordered := by
  obtain ⟨hnodup, hnumber⟩ : (room :: rest).Nodup ∧ message.number + 1 = daemon.processed := by
    have hok := ordered.worker
    simpa only [WorkerOk, hworker] using hok
  have hfresh : room ∉ rest := (List.nodup_cons.mp hnodup).1
  have hbefore : daemon.limit room = message.number := by simp [limit, hworker]
  have hafter : (daemon.fanRoom message room rest).limit room = message.number + 1 := by
    simp [limit, fanRoom, hfresh, hnumber]
  have hsame : ∀ other, other ≠ room →
      (daemon.fanRoom message room rest).limit other = daemon.limit other := by
    intro other hother
    simp [limit, fanRoom, hworker, hother]
  have higher : ∀ other, daemon.limit other ≤ (daemon.fanRoom message room rest).limit other := by
    intro other
    by_cases here : other = room
    · rw [here, hbefore, hafter]
      omega
    · rw [hsame other here]
  refine ⟨⟨(List.nodup_cons.mp hnodup).2, hnumber⟩, ?_, ?_, ?_⟩
  · intro other
    by_cases here : other = room
    · subst here
      obtain ⟨kept, hkept, hpush⟩ := MessageQueue.bucket_push_self daemon.queue
        (entryFor message other)
      show Climbs _ _ ((daemon.queue.push (entryFor message other)).bucket other)
      rw [show (daemon.queue.push (entryFor message other)).bucket other = kept ++ [_] from hpush]
      apply ((ordered.bucket other).sublist hkept.sublist).snoc
      · rw [hbefore]
        exact Nat.le_refl _
      · rw [hafter]
        exact Nat.lt_succ_self _
    · rw [hsame other here]
      show Climbs _ _ ((daemon.queue.push (entryFor message room)).bucket other)
      rw [MessageQueue.bucket_push_of_ne (by exact here)]
      exact ordered.bucket other
  · intro other entry hentry
    have hpushed : entry ∈ (daemon.queue.push (entryFor message room)).bucket other := hentry
    by_cases here : other = room
    · subst here
      obtain ⟨kept, hkept, hpush⟩ := MessageQueue.bucket_push_self daemon.queue
        (entryFor message other)
      rw [show (daemon.queue.push (entryFor message other)).bucket other = kept ++ [_] from hpush]
        at hpushed
      rcases List.mem_append.mp hpushed with hold | hnew
      · exact ordered.room other entry (hkept.subset hold)
      · rw [List.mem_singleton.mp hnew]
        rfl
    · rw [MessageQueue.bucket_push_of_ne (by exact here)] at hpushed
      exact ordered.room other entry hpushed
  · intro session hsession
    obtain ⟨before, hbeforeMem, rfl⟩ := List.mem_map.mp hsession
    apply (ordered.session before hbeforeMem).offer
    · show daemon.limit room ≤ message.number
      rw [hbefore]
    · show message.number < (daemon.fanRoom message room rest).limit room
      rw [hafter]
      exact Nat.lt_succ_self _
    · exact higher

theorem fan_ordered (ordered : daemon.Ordered) (taken : daemon.fan = some after) :
    after.Ordered := by
  cases hworker : daemon.worker with
  | idle => simp [fan, hworker] at taken
  | listed message rooms =>
      simp only [fan, hworker, Option.some.injEq] at taken
      subst taken
      have hok := ordered.worker
      simp only [WorkerOk, hworker] at hok
      refine ordered.update hok ?_ (fun room => List.suffix_refl _)
        (fun session hsession => .inl hsession)
      intro room
      simp [limit, hworker]
  | fanning message rooms =>
      cases rooms with
      | nil =>
          simp only [fan, hworker, Option.some.injEq] at taken
          subst taken
          refine ordered.update trivial ?_ (fun room => List.suffix_refl _)
            (fun session hsession => .inl hsession)
          intro room
          simp [limit, hworker]
      | cons room rest =>
          simp only [fan, hworker, Option.some.injEq] at taken
          subst taken
          exact fanRoom_ordered ordered hworker

/-- Every step of a handler keeps the order, a drain because it is ahead. -/
theorem proceed_ordered {index : Nat} {session : WsSession Value} (ordered : daemon.Ordered)
    (hsession : daemon.sessions[index]? = some session)
    (ahead : ∀ room, session.task = .joining room →
      Ahead session room (daemon.queue.bucket room))
    (taken : daemon.proceed index session = some after) : after.Ordered := by
  have climbs := ordered.session session (List.mem_of_getElem? hsession)
  have kept : ∀ room, daemon.queue.bucket room <:+ daemon.queue.bucket room :=
    fun room => List.suffix_refl _
  cases htask : session.task with
  | idle => simp [proceed, htask] at taken
  | joining room =>
      simp only [proceed, htask] at taken
      split_ifs at taken
      cases taken
      have hflushing := climbs.flushing (by simp [WsSession.unflushed, htask])
        (ordered.bucket room) (ordered.room room) (ahead room htask) (insert room session.subs)
      rw [subscribe, MessageQueue.drain_fst]
      exact ordered.setSession hflushing daemon.rooms MessageQueue.bucket_drain_suffix
  | flushing entries =>
      cases entries with
      | nil =>
          simp only [proceed, htask, Option.some.injEq] at taken
          subst taken
          exact ordered.setSession (climbs.of_stream_eq (by
            simp [WsSession.stream, WsSession.unflushed, WsSession.pending, htask])) _ kept
      | cons entry rest =>
          simp only [proceed, htask, Option.some.injEq] at taken
          subst taken
          exact ordered.setSession (climbs.of_stream_eq (by
            simp [WsSession.stream, WsSession.unflushed, WsSession.pending, htask])) _ kept
  | leaving room =>
      simp only [proceed, htask] at taken
      split_ifs at taken
      · cases taken
        exact ordered.setSession (climbs.of_stream_eq (by
          simp [WsSession.stream, WsSession.unflushed, WsSession.pending, htask])) _ kept
      · cases taken
        exact ordered.setSession (climbs.of_stream_eq (by
          simp [WsSession.stream, WsSession.unflushed, WsSession.pending, htask])) _ kept
  | retiring room =>
      simp only [proceed, htask, Option.some.injEq] at taken
      subst taken
      exact ordered.setSession (climbs.of_stream_eq (by
        simp [WsSession.stream, WsSession.unflushed, WsSession.pending, htask])) _ kept
  | freeing room =>
      simp only [proceed, htask] at taken
      split_ifs at taken
      cases taken
      exact ordered.setSession (climbs.of_stream_eq (by
        simp [WsSession.stream, WsSession.unflushed, WsSession.pending, htask])) _
        MessageQueue.bucket_removeRoom_suffix

/-- Writing what waits in the channel keeps the stream. -/
theorem routed_ordered {index : Nat} {session : WsSession Value} (ordered : daemon.Ordered)
    (hsession : daemon.sessions[index]? = some session)
    (taken : daemon.routed index session = some after) : after.Ordered := by
  have climbs := ordered.session session (List.mem_of_getElem? hsession)
  cases htask : session.task with
  | idle =>
      cases hchannel : session.channel with
      | nil => simp [routed, htask, hchannel] at taken
      | cons frame rest =>
          simp only [routed, htask, hchannel, Option.some.injEq] at taken
          subst taken
          refine ordered.setSession (climbs.of_stream_eq ?_) _ fun room => List.suffix_refl _
          cases frame <;>
            simp [WsSession.stream, WsSession.unflushed, WsSession.pending, htask, hchannel,
              OutFrame.message?, List.filterMap_cons]
  | joining room => simp [routed, htask] at taken
  | flushing entries => simp [routed, htask] at taken
  | leaving room => simp [routed, htask] at taken
  | retiring room => simp [routed, htask] at taken
  | freeing room => simp [routed, htask] at taken

/-- A request is taken by a session that is not busy with another. -/
theorem request_eq_some {index : Nat} {handle : WsSession Value → DaemonState Value}
    (taken : (match daemon.sessions[index]? with
      | none => none
      | some session =>
          match session.task with
          | .idle => some (handle session)
          | _ => none) = some after) :
    ∃ session, daemon.sessions[index]? = some session ∧ session.task = .idle ∧
      after = handle session := by
  cases hsession : daemon.sessions[index]? with
  | none => simp [hsession] at taken
  | some session =>
      cases htask : session.task with
      | idle =>
          simp only [hsession, htask, Option.some.injEq] at taken
          exact ⟨session, rfl, htask, taken.symm⟩
      | _ => simp [hsession, htask] at taken

/-- Every step keeps the order, as long as joins are ahead. -/
theorem step_ordered {op : DaemonOp Value} (ordered : daemon.Ordered)
    (ahead : daemon.JoinsAhead op) (taken : daemon.step op = some after) : after.Ordered := by
  have kept : ∀ room, daemon.queue.bucket room <:+ daemon.queue.bucket room :=
    fun room => List.suffix_refl _
  cases op with
  | receive sender payload ts order => exact receive_ordered ordered taken
  | fan => exact fan_ordered ordered taken
  | connect =>
      simp only [step] at taken
      split_ifs at taken
      cases taken
      refine ordered.update ordered.worker (fun room => Nat.le_refl _) kept ?_
      intro session hsession
      rcases List.mem_append.mp hsession with hold | hnew
      · exact .inl hold
      · rw [List.mem_singleton.mp hnew]
        exact .inr WsSession.new_climbs
  | join index room =>
      obtain ⟨session, hsession, htask, rfl⟩ := request_eq_some taken
      have climbs := ordered.session session (List.mem_of_getElem? hsession)
      by_cases hvalid : validRoomCode room
      · rw [join, if_pos hvalid]
        exact ordered.setSession (climbs.of_stream_eq (by
          simp [WsSession.stream, WsSession.unflushed, WsSession.pending, htask])) _ kept
      · rw [join, if_neg hvalid]
        exact ordered
  | leave index room =>
      obtain ⟨session, hsession, htask, rfl⟩ := request_eq_some taken
      have climbs := ordered.session session (List.mem_of_getElem? hsession)
      by_cases hremoved : validRoomCode room ∧ room ∈ session.subs
      · rw [leave, if_pos hremoved]
        exact ordered.setSession (climbs.of_stream_eq (by
          simp [WsSession.stream, WsSession.unflushed, WsSession.pending, htask])) _ kept
      · rw [leave, if_neg hremoved]
        exact ordered
  | proceed index =>
      obtain ⟨session, hsession, hproceed⟩ := Option.bind_eq_some_iff.mp taken
      exact proceed_ordered ordered hsession (fun room => ahead session room hsession) hproceed
  | routed index =>
      obtain ⟨session, hsession, hrouted⟩ := Option.bind_eq_some_iff.mp taken
      exact routed_ordered ordered hsession hrouted
  | notify index =>
      simp only [step] at taken
      split_ifs at taken
      obtain ⟨session, hsession, rfl⟩ := Option.map_eq_some_iff.mp taken
      have climbs := ordered.session session (List.mem_of_getElem? hsession)
      refine ordered.setSession (climbs.of_stream_eq ?_) daemon.rooms kept
      rcases WsSession.stream_trySend session .notice with hfull | hqueued
      · exact hfull
      · simpa [OutFrame.message?] using hqueued
  | disconnect index =>
      simp only [step] at taken
      split_ifs at taken
      cases taken
      refine ordered.update ordered.worker (fun room => Nat.le_refl _) kept ?_
      intro session hsession
      exact .inl (List.mem_of_mem_eraseIdx hsession)

/-- In every run whose joins only drain buckets that are ahead of their session,
every session gets each room's messages once and in the order of the fan-out. -/
theorem deliversInOrder_of_reachable
    (reached : ((system : Transition.System (DaemonState Value) (DaemonOp Value)).restrict
      JoinsAhead).Reachable daemon) :
    daemon.DeliversInOrder := by
  apply Ordered.deliversInOrder
  refine reached.invariant Ordered ?_ ?_
  · rintro _ ⟨rooms, rfl⟩
    exact new_ordered rooms
  · rintro source op target _ ordered ⟨taken, ahead⟩
    exact step_ordered ordered ahead taken

/-! ## Joining a room again -/

/-- A client joins a room and gets a message live, which stays in the bucket. -/
def joinAndHear : List (DaemonOp String) :=
  [.connect, .join 0 "424242", .proceed 0, .proceed 0, .receive "peer" "hi" 0 ["424242"], .fan,
    .fan, .fan, .routed 0]

/-- The client joins the room again. -/
def joinAgain : List (DaemonOp String) := [.join 0 "424242", .proceed 0, .proceed 0]

/-- The second join writes the message a second time. -/
theorem not_deliversInOrder_rejoin :
    ∃ daemon : DaemonState String, system.Reachable daemon ∧
      (daemon.sessions.map fun session => session.sent.map MessageEntry.number) = [[0, 0]] ∧
      ¬ daemon.DeliversInOrder := by
  have hruns : ∃ daemon, (joinAndHear ++ joinAgain).foldlM step (new ∅) = some daemon := ⟨_, rfl⟩
  obtain ⟨daemon, hsteps⟩ := hruns
  refine ⟨daemon, .run (.init ⟨∅, rfl⟩) (.of_foldlM id hsteps), ?_, ?_⟩
  · cases hsteps
    decide
  · intro inOrder
    cases hsteps
    have hclient := inOrder _ (List.mem_singleton_self _) "424242"
    exact absurd hclient (by decide)

/-- A client that joins once, before the message. -/
theorem deliversInOrder_of_reachable_once :
    ∃ daemon : DaemonState String, joinAndHear.foldlM step (new ∅) = some daemon ∧
      daemon.DeliversInOrder := by
  refine ⟨_, rfl, deliversInOrder_of_reachable ?_⟩
  have hstart : ((system : Transition.System (DaemonState String) (DaemonOp String)).restrict
      JoinsAhead).Reachable (new ∅) := .init ⟨∅, rfl⟩
  apply hstart.run
  show Transition.System.Run _ _ joinAndHear _
  iterate 2 refine .cons ⟨rfl, trivial⟩ ?_
  refine .cons ⟨rfl, ?_⟩ (.cons ⟨rfl, ?_⟩ ?_)
  · intro session room hsession htask fresh hfresh
    cases hsession
    cases htask
    cases hfresh
  · intro session room hsession htask
    cases hsession
    cases htask
  · iterate 5 refine .cons ⟨rfl, trivial⟩ ?_
    exact .nil _

end DaemonState

end Mlink.Daemon
