/-
# How a switch is announced

Each connected WebSocket session is told of a switch twice over: a task of the daemon
forwards the stream of session events to all of them, and each has a receiver of its own
for the node's events. A switch by hand is put on both streams by the call that makes it.
A switch by failure is emitted by the peer's session, and every bridge that is subscribed
there puts it on both. The frames that are due for a session are counted here, and
whatever happens, each of them is still on its way, has been written, or is lost where a
receiver has fallen behind.
-/

import Mlink.Core.Node.Bridges
import Mlink.Daemon.FanOut
import Mlink.Lib.Broadcast
import Mathlib.Data.List.ReduceOption

namespace Mlink.Daemon

open Mlink.Core Broadcast

/-- The payload of a frame `primary_changed`. -/
structure PrimaryChanged where
  peerId : String
  old : String
  new : String
  cause : String
  deriving DecidableEq, Repr

def causeWire : SwitchCause → String
  | .activeFailed => "active_failed"
  | .betterCandidate => "better_candidate"
  | .manualUserRequest => "manual"

/-- What the forwarder of session events makes of one. -/
def forwardedFrame : SessionEvent → Option PrimaryChanged
  | .switched peerId source target cause => some ⟨peerId, source, target, causeWire cause⟩
  | .linkAdded .. | .linkRemoved .. => none

/-- What `forward_peer_event` makes of an event of the node. -/
def peerEventFrame : NodeEvent → Option PrimaryChanged
  | .linkSwitched peerId fromLink toLink cause => some ⟨peerId, fromLink, toLink, causeWire cause⟩
  | .peerConnected _ | .peerDisconnected _ | .messageReceived .. | .linkAdded ..
  | .linkRemoved .. => none

/-- How many events each of the node's two streams holds for a receiver. -/
def NODE_CHANNEL_CAPACITY : Nat := 128

/-- How many the daemon's stream of the node's events holds. -/
def EVENT_CHANNEL_CAPACITY : Nat := 256

/-- What happens to the announcements: switches that are made, the frames that are due
for each session on their account, and the frames that no session will get. -/
structure Change where
  made : List PrimaryChanged
  due : List PrimaryChanged
  lost : List PrimaryChanged

namespace Change

def none : Change := ⟨[], [], []⟩

end Change

/-- A WebSocket session: the frames in its channel (of one that tells no switch only that
it is there), where its receiver of the daemon's events stands once it is subscribed, and
the announcements written to its socket; and, since it is in the daemon's list, the
switches made, the frames due for them, and those lost. -/
structure Listener where
  outbound : List (Option PrimaryChanged)
  place : Option Nat
  written : List PrimaryChanged
  made : List PrimaryChanged
  due : List PrimaryChanged
  lost : List PrimaryChanged
  deriving DecidableEq, Repr

namespace Listener

variable (listener : Listener)

def note (change : Change) : Listener :=
  { listener with
    made := listener.made ++ change.made
    due := listener.due ++ change.due
    lost := listener.lost ++ change.lost }

/-- `try_send`: a channel that is full does not take the frame. -/
def trySend (frame : Option PrimaryChanged) : Listener :=
  if listener.outbound.length < OUTBOUND_CAPACITY then
    { listener with outbound := listener.outbound ++ [frame] }
  else { listener with lost := listener.lost ++ frame.toList }

/-- The daemon relays an event, which a session that is not subscribed never sees. -/
def pass (events : List NodeEvent) : Listener :=
  if listener.place.isNone then
    { listener with lost := listener.lost ++ events.filterMap peerEventFrame }
  else listener

/-- Subscribe to the daemon's events, of which there have been `sent`. -/
def subscribe (sent : Nat) : Listener :=
  if listener.place.isNone then { listener with place := some sent } else listener

/-- The loop of the session takes a frame out of its channel. -/
def writeOutbound : Listener :=
  match listener.place, listener.outbound with
  | some _, frame :: rest =>
      { listener with outbound := rest, written := listener.written ++ frame.toList }
  | _, _ => listener

/-- The loop of the session takes an event. -/
def writeEvent (events : List NodeEvent) : Listener :=
  match listener.place with
  | none => listener
  | some place =>
      let reading := recv EVENT_CHANNEL_CAPACITY events place
      { listener with
        place := some reading.place
        written := listener.written ++ reading.value.toList.filterMap peerEventFrame
        lost := listener.lost ++ reading.skipped.filterMap peerEventFrame }

/-- The announcements that the session has yet to read on the daemon's stream. -/
def unreadEvents (events : List NodeEvent) : List PrimaryChanged :=
  listener.place.elim [] fun place => (unread events place).filterMap peerEventFrame

end Listener

/-- The switch that a promotion makes. -/
def promotion (manager : SessionManager) (peerId failingId : String) (now : Instant) :
    List PrimaryChanged :=
  match manager.get peerId with
  | none => []
  | some session =>
      (session.bestExcluding failingId now).toList.map fun target =>
        ⟨session.peerId, session.active.getD "", target, causeWire .activeFailed⟩

/-- The switch that a call of `switch_active_link` makes. -/
def manualSwitch (manager : SessionManager) (peerId toLink : String) : List PrimaryChanged :=
  match manager.get peerId with
  | none => []
  | some session =>
      (session.linkById toLink).toList.map fun _ =>
        ⟨peerId, session.active.getD "", toLink, causeWire .manualUserRequest⟩

/-- The announcements that the bridges hold. -/
def held (bridged : Bridged) : List PrimaryChanged := bridged.pending.filterMap forwardedFrame

/-- Each bridge that is subscribed puts an announcement on both streams, unless it falls
behind and ends. -/
def bridgeChange (bridged : Bridged) : BridgeOp → Change
  | .promote peerId failingId now =>
      let made := promotion bridged.node.sessions peerId failingId now
      let copies := (List.replicate (bridged.serving peerId) made).flatten
      ⟨made, copies ++ copies, []⟩
  | .forward index =>
      match bridged.bridges[index]? with
      | none => .none
      | some bridge =>
          if SESSION_CHANNEL_CAPACITY < bridge.queue.length then
            let frames := bridge.queue.filterMap forwardedFrame
            ⟨[], [], frames ++ frames⟩
          else .none
  | .attach _ | .disconnectLink _ _ | .loseLink _ _ => .none

/-- The node and its bridges, where the two tasks that read its streams stand, the
daemon's own stream, and the sessions in the daemon's list. -/
structure Notices where
  bridged : Bridged
  forwarder : Nat
  relayer : Nat
  events : List NodeEvent
  sessions : List Listener

inductive NoticeOp
  | bridge (op : BridgeOp)
  | disconnectPeer (peerId : String)
  | switchActiveLink (peerId toLink : String) (now : Instant)
  | publish (event : NodeEvent)
  | forwardSessionEvent
  | relay
  | enter
  | subscribe (index : Nat)
  | push (index : Nat)
  | writeOutbound (index : Nat)
  | writeEvent (index : Nat)
  | close (index : Nat)

namespace Notices

/-- A daemon that has just started. -/
def start (appUuid : String) (encrypt : Bool) (roomHashes : List RoomHash) : Notices :=
  ⟨⟨Node.new appUuid encrypt roomHashes, [], [], []⟩, 0, 0, [], []⟩

variable (state : Notices)

/-- The announcements that have not reached the sessions or the daemon's stream. -/
def underway : List PrimaryChanged :=
  held state.bridged ++ held state.bridged ++
    (unread state.bridged.node.sessionEvents state.forwarder).filterMap forwardedFrame ++
    (unread state.bridged.node.events state.relayer).filterMap peerEventFrame

/-- Something happens to the node or its bridges. -/
def upstream (bridged : Bridged) (change : Change) : Notices :=
  { state with bridged, sessions := state.sessions.map fun listener => listener.note change }

/-- `spawn_session_event_forwarder`: the next session event, to every session. -/
def forwardSessionEvent : Notices :=
  let reading := recv NODE_CHANNEL_CAPACITY state.bridged.node.sessionEvents state.forwarder
  let change : Change := ⟨[], [], reading.skipped.filterMap forwardedFrame⟩
  { state with
    forwarder := reading.place
    sessions := state.sessions.map fun listener =>
      match reading.value.bind forwardedFrame with
      | none => listener.note change
      | some frame => (listener.note change).trySend (some frame) }

/-- The next event of the node, onto the daemon's stream. -/
def relay : Notices :=
  let reading := recv NODE_CHANNEL_CAPACITY state.bridged.node.events state.relayer
  let change : Change := ⟨[], [], reading.skipped.filterMap peerEventFrame⟩
  { state with
    relayer := reading.place
    events := state.events ++ reading.value.toList
    sessions := state.sessions.map fun listener =>
      (listener.note change).pass reading.value.toList }

/-- A session enters the daemon's list. The announcements that are underway will reach
it, whatever they tell. -/
def enter : Notices :=
  { state with sessions := state.sessions ++ [⟨[], none, [], [], state.underway, []⟩] }

def modifySession (index : Nat) (use : Listener → Listener) : Notices :=
  { state with sessions := state.sessions.modify index use }

def perform : NoticeOp → Notices
  | .bridge op =>
      state.upstream ((state.bridged.perform op).getD state.bridged) (bridgeChange state.bridged op)
  | .disconnectPeer peerId =>
      state.upstream
        ({ state.bridged with node := state.bridged.node.disconnectPeer peerId }.closeGone peerId)
        .none
  | .switchActiveLink peerId toLink now =>
      let made := manualSwitch state.bridged.node.sessions peerId toLink
      state.upstream
        { state.bridged with node := (state.bridged.node.switchActiveLink peerId toLink now).2 }
        ⟨made, made ++ made, []⟩
  | .publish event =>
      if (peerEventFrame event).isNone then
        state.upstream { state.bridged with node := state.bridged.node.emit event } .none
      else state
  | .forwardSessionEvent => state.forwardSessionEvent
  | .relay => state.relay
  | .enter => state.enter
  | .subscribe index => state.modifySession index fun listener =>
      listener.subscribe state.events.length
  | .push index => state.modifySession index fun listener => listener.trySend none
  | .writeOutbound index => state.modifySession index Listener.writeOutbound
  | .writeEvent index => state.modifySession index fun listener => listener.writeEvent state.events
  | .close index => { state with sessions := state.sessions.eraseIdx index }

/-- Nothing is on its way to a session. -/
def Settled (listener : Listener) : Prop :=
  listener.place.isSome = true ∧ state.underway = [] ∧ listener.outbound = [] ∧
    listener.unreadEvents state.events = []

/-- Once nothing is on its way, the session at `index` has been told of each switch that
was made since it entered the list once, and of nothing else. -/
def OnceEachAt (index : Nat) : Prop :=
  ∀ listener ∈ state.sessions[index]?, state.Settled listener →
    listener.written.Perm listener.made

/-- The receivers on the way to the session have lost all that was due but one
announcement of each switch. -/
def SurplusLostAt (index : Nat) : Prop :=
  ∀ listener ∈ state.sessions[index]?, state.Settled listener →
    (listener.lost ++ listener.made).Perm listener.due

/-- No receiver on the way to the session has lost an announcement. -/
def LosesNoneAt (index : Nat) : Prop :=
  ∀ listener ∈ state.sessions[index]?, listener.lost = []

/-- No switch was underway when the session entered the list, and none has been made
since. -/
def NoneDueAt (index : Nat) : Prop :=
  ∀ listener ∈ state.sessions[index]?, state.Settled listener → listener.due = []

/-- No bridge has fallen behind when it goes on. -/
def BridgesKeepUp : NoticeOp → Prop
  | .bridge (.forward index) =>
      ∀ bridge ∈ state.bridged.bridges[index]?, bridge.queue.length ≤ SESSION_CHANNEL_CAPACITY
  | _ => True

end Notices

/-! ## What the node says -/

/-- What happens to the node and its bridges keeps the announcements: those that come out
on the streams or are lost have been held or are due. -/
def Flows (before after : Bridged) (change : Change) : Prop :=
  ∃ said told, after.node.sessionEvents = before.node.sessionEvents ++ said ∧
    after.node.events = before.node.events ++ told ∧
    ∀ frame, 2 * (held after).count frame + (said.filterMap forwardedFrame).count frame +
      (told.filterMap peerEventFrame).count frame + change.lost.count frame =
        2 * (held before).count frame + change.due.count frame

variable {before after : Bridged} {peerId linkId : String} {now : Instant}

/-- What tells no switch, and changes nothing that the bridges hold of switches. -/
theorem flows_quiet {told : List NodeEvent}
    (sessionEvents : after.node.sessionEvents = before.node.sessionEvents)
    (events : after.node.events = before.node.events ++ told)
    (quiet : told.filterMap peerEventFrame = [])
    (kept : ∀ frame, (held after).count frame = (held before).count frame) :
    Flows before after .none := by
  refine ⟨[], told, ?_, events, ?_⟩
  · rw [sessionEvents, List.append_nil]
  · intro frame
    rw [quiet, kept frame]
    rfl

/-- Nothing happens. -/
theorem Flows.refl (before : Bridged) : Flows before before .none :=
  flows_quiet rfl (List.append_nil _).symm rfl fun _ => rfl

/-- A broadcast is held once more for each bridge that is subscribed. -/
theorem count_held_broadcast (before : Bridged) (peerId : String) (events : List SessionEvent)
    (frame : PrimaryChanged) :
    (held (before.broadcast peerId events)).count frame = (held before).count frame +
      before.serving peerId * (events.filterMap forwardedFrame).count frame := by
  have hpending := (Bridged.pending_broadcast before peerId events).filterMap forwardedFrame
  rw [held, hpending.count_eq frame, List.filterMap_append, List.count_append,
    List.filterMap_flatten, List.map_replicate, List.count_flatten, List.map_replicate,
    List.sum_replicate_nat]
  rfl

/-- No attach, detach or disconnection tells a switch. -/
theorem quiet_of_change {act : PeerAct} {view viewAfter : PeerView} {said : List NodeEvent}
    (change : PeerChange peerId act view said viewAfter) :
    said.filterMap peerEventFrame = [] := by
  cases change <;> rfl

theorem quiet_of_attach {act : PeerAct} {view viewAfter : PeerView} {said : List NodeEvent}
    (change : PeerChange peerId act view said viewAfter) (attaches : act.attaches = true) :
    (newEvents view.session viewAfter.session).filterMap forwardedFrame = [] := by
  cases change with
  | refused _ attaches _ => rw [Bridged.newEvents_self]; rfl
  | registeredFirst _ unknown link peer freshId => rw [unknown]; rfl
  | registered _ session known link peer => rw [known, Bridged.newEvents_joined]; rfl
  | attached _ attaches _ session known link => rw [known, Bridged.newEvents_joined]; rfl
  | installedFirst _ unknown link freshId => rw [unknown]; rfl
  | announced _ session known refused linkId => rw [Bridged.newEvents_self]; rfl
  | missed _ linkId absent => cases attaches
  | left _ session known linkId attached others => cases attaches
  | leftLast _ session known linkId attached last => cases attaches
  | dropped _ => cases attaches

theorem flows_attach (before : Bridged) {call : NodeCall} (attaches : call.act.attaches = true) :
    Flows before (before.attach call) .none := by
  obtain ⟨told, htold, hchange⟩ := Node.makes_call before.node call
  obtain ⟨hnode, _, _, hpending, _⟩ := Bridged.attach_spec before call
  apply flows_quiet _ _ (quiet_of_change hchange)
  · intro frame
    have hquiet : (newEvents (before.node.sessions.get call.peerId)
        ((before.node.call call).sessions.get call.peerId)).filterMap forwardedFrame = [] :=
      quiet_of_attach hchange attaches
    rw [held, hpending, ← held, count_held_broadcast, hquiet]
    rfl
  · rw [hnode]
    exact Bridged.sessionEvents_call before.node call
  · rw [hnode]
    exact htold

/-- A detach, whatever node it leaves. -/
theorem flows_detach (before : Bridged) (peerId linkId : String) {node : Node}
    {told : List NodeEvent} (sessionEvents : node.sessionEvents = before.node.sessionEvents)
    (events : node.events = before.node.events ++ told)
    (quiet : told.filterMap peerEventFrame = []) :
    Flows before (before.detach peerId linkId node) .none := by
  obtain ⟨hnode, _, _, hpending, _⟩ := Bridged.detach_spec before peerId linkId node
  apply flows_quiet _ _ quiet
  · intro frame
    have hquiet : (before.node.sessions.detachEvents peerId linkId).filterMap forwardedFrame =
        [] := by
      rcases Bridged.detachEvents_cases before.node.sessions peerId linkId with
        hnone | ⟨session, _, _, hevents⟩
      · rw [hnone]
        rfl
      · rw [hevents]
        rfl
    rw [held, hpending, ← held, count_held_broadcast, hquiet]
    rfl
  · rw [hnode]
    exact sessionEvents
  · rw [hnode]
    exact events

theorem flows_disconnectPeer (before : Bridged) (peerId : String) :
    Flows before
      ({ before with node := before.node.disconnectPeer peerId }.closeGone peerId) .none := by
  have hnode : ({ before with node := before.node.disconnectPeer peerId }.closeGone peerId).node =
      before.node.disconnectPeer peerId := by
    rw [Bridged.closeGone]
    split_ifs <;> rfl
  obtain ⟨told, htold, hchange⟩ := Node.makes_call before.node (.disconnectPeer peerId)
  apply flows_quiet _ _ (quiet_of_change hchange)
  · intro frame
    rw [held, Bridged.pending_closeGone]
    rfl
  · rw [hnode]
    exact Bridged.sessionEvents_call before.node (.disconnectPeer peerId)
  · rw [hnode]
    exact htold

theorem count_copies (copies : Nat) (made : List PrimaryChanged) (frame : PrimaryChanged) :
    (List.replicate copies made).flatten.count frame = copies * made.count frame := by
  rw [List.count_flatten, List.map_replicate, List.sum_replicate_nat]

/-- The session of a peer that is promoted emits the switch. -/
theorem filterMap_newEvents_promote (manager : SessionManager) (peerId failingId : String)
    (now : Instant) :
    (newEvents (manager.get peerId) ((manager.promote peerId failingId now).get peerId)).filterMap
      forwardedFrame = promotion manager peerId failingId now := by
  rw [Bridged.newEvents_promote_eq, promotion]
  cases manager.get peerId with
  | none => rfl
  | some session =>
      dsimp only [Option.elim_some]
      cases session.bestExcluding failingId now <;> rfl

theorem flows_promote (before : Bridged) (peerId failingId : String) (now : Instant) :
    Flows before (before.promote peerId failingId now)
      (bridgeChange before (.promote peerId failingId now)) := by
  refine ⟨[], [], (List.append_nil _).symm, (List.append_nil _).symm, ?_⟩
  intro frame
  have hheld : (held (before.promote peerId failingId now)).count frame =
      (held before).count frame + before.serving peerId *
        (promotion before.node.sessions peerId failingId now).count frame := by
    rw [Bridged.promote, count_held_broadcast, filterMap_newEvents_promote]
    rfl
  rw [hheld, bridgeChange, List.count_append, count_copies]
  simp only [List.filterMap_nil, List.count_nil]
  omega

/-- A bridge that has fallen behind ends, and one that has not puts the next event on both
streams. -/
theorem flows_forward (before : Bridged) (index : Nat) :
    Flows before ((before.forward index).getD before) (bridgeChange before (.forward index)) := by
  cases hbridge : before.bridges[index]? with
  | none =>
      simp only [Bridged.forward, bridgeChange, hbridge]
      exact .refl before
  | some bridge =>
      simp only [Bridged.forward, bridgeChange, hbridge]
      split_ifs with hbehind
      · refine ⟨[], [], (List.append_nil _).symm, (List.append_nil _).symm, ?_⟩
        intro frame
        have hset := (Entries.flatMap_set_perm Bridge.queue hbridge
          { bridge with queue := [], live := false }).filterMap forwardedFrame
        have hcount := hset.count_eq frame
        rw [List.filterMap_append, List.filterMap_append, List.count_append,
          List.count_append] at hcount
        simp only [Option.getD_some, held, Bridged.pending, List.filterMap_nil, List.count_nil,
          List.count_append] at hcount ⊢
        omega
      · cases hqueue : bridge.queue with
        | nil => exact .refl before
        | cons event rest =>
            refine ⟨[event], if event.bridged then [.ofSession event] else [], ?_, ?_, ?_⟩
            · dsimp only [Option.getD_some]
              rw [Node.republish]
              split_ifs <;> rfl
            · dsimp only [Option.getD_some]
              rw [Node.republish]
              split_ifs
              · rfl
              · exact (List.append_nil _).symm
            · intro frame
              have hset := (Entries.flatMap_set_perm Bridge.queue hbridge
                { bridge with queue := rest }).filterMap forwardedFrame
              have hcount := hset.count_eq frame
              have htold : (if event.bridged then [NodeEvent.ofSession event] else []).filterMap
                  peerEventFrame = [event].filterMap forwardedFrame := by
                cases event <;> rfl
              have hcons : ([event] ++ rest).filterMap forwardedFrame =
                  [event].filterMap forwardedFrame ++ rest.filterMap forwardedFrame :=
                List.filterMap_append
              rw [List.filterMap_append, List.filterMap_append, hqueue, ← List.singleton_append,
                hcons, List.count_append, List.count_append, List.count_append] at hcount
              rw [htold]
              simp only [Option.getD_some, held, Bridged.pending, Change.none,
                List.count_nil] at hcount ⊢
              omega

theorem flows_perform (before : Bridged) (op : BridgeOp) :
    Flows before ((before.perform op).getD before) (bridgeChange before op) := by
  cases op with
  | attach call =>
      rw [Bridged.perform]
      split_ifs with hattaches
      · exact flows_attach before hattaches
      · exact .refl before
  | disconnectLink peerId linkId =>
      obtain ⟨told, htold, hchange⟩ := Node.makes_call before.node (.disconnectLink peerId linkId)
      exact flows_detach before peerId linkId
        (Bridged.sessionEvents_call before.node (.disconnectLink peerId linkId)) htold
        (quiet_of_change hchange)
  | loseLink peerId linkId =>
      have hsessionEvents : (before.node.loseLink peerId linkId).sessionEvents =
          before.node.sessionEvents := Bridged.sessionEvents_evict _ peerId
      have hevents : (before.node.loseLink peerId linkId).events =
          before.node.events ++ [.peerDisconnected peerId] := Node.events_evict peerId
      exact flows_detach before peerId linkId hsessionEvents hevents rfl
  | promote peerId failingId now => exact flows_promote before peerId failingId now
  | forward index => exact flows_forward before index

/-- A call of `switch_active_link` fails and changes nothing, or switches the session and
says so on both streams. -/
theorem switchActiveLink_cases (node : Node) (peerId toLink : String) (now : Instant) :
    let after := (node.switchActiveLink peerId toLink now).2
    (manualSwitch node.sessions peerId toLink = [] ∧ after = node) ∨
      ∃ session, node.sessions.get peerId = some session ∧
        manualSwitch node.sessions peerId toLink =
          [⟨peerId, session.active.getD "", toLink, causeWire .manualUserRequest⟩] ∧
        after.sessionEvents = node.sessionEvents ++
          [.switched peerId (session.active.getD "") toLink .manualUserRequest] ∧
        after.events = node.events ++
          [.linkSwitched peerId (session.active.getD "") toLink .manualUserRequest] ∧
        ∀ other, other ≠ peerId → after.sessions.get other = node.sessions.get other := by
  intro after
  cases hsession : node.sessions.get peerId with
  | none =>
      left
      simp only [after, manualSwitch, Node.switchActiveLink, SessionManager.switchActiveLink,
        hsession, and_self]
  | some session =>
      cases hlink : session.linkById toLink with
      | none =>
          left
          simp only [after, manualSwitch, Node.switchActiveLink, SessionManager.switchActiveLink,
            hsession, hlink, Option.toList_none, List.map_nil, and_self]
      | some link =>
          right
          refine ⟨session, rfl, ?_⟩
          simp only [after, manualSwitch, Node.switchActiveLink, SessionManager.switchActiveLink,
            hsession, hlink]
          exact ⟨rfl, rfl, rfl, fun other hne => AList.lookup_insert_ne hne⟩

/-- A switch by hand is put on both streams by the call. -/
theorem flows_switch (before : Bridged) (peerId toLink : String) (now : Instant) :
    let made := manualSwitch before.node.sessions peerId toLink
    Flows before { before with node := (before.node.switchActiveLink peerId toLink now).2 }
      ⟨made, made ++ made, []⟩ := by
  intro made
  rcases switchActiveLink_cases before.node peerId toLink now with
    ⟨hmade, hsame⟩ | ⟨session, _, hmade, hsessionEvents, hevents, _⟩
  · have hmade : made = [] := hmade
    rw [hmade, hsame]
    exact .refl before
  · have hmade : made = _ := hmade
    refine ⟨_, _, hsessionEvents, hevents, ?_⟩
    intro frame
    rw [hmade, List.count_append]
    simp only [forwardedFrame, peerEventFrame, List.filterMap_cons, List.filterMap_nil,
      List.count_nil]
    show 2 * (held before).count frame + _ + _ + _ = _
    omega

theorem flows_publish (before : Bridged) {event : NodeEvent}
    (quiet : (peerEventFrame event).isNone = true) :
    Flows before { before with node := before.node.emit event } .none := by
  have hquiet : [event].filterMap peerEventFrame = [] :=
    List.filterMap_cons_none (Option.isNone_iff_eq_none.mp quiet)
  exact flows_quiet rfl rfl hquiet fun frame => rfl

/-! ## What is due for a session -/

namespace Listener

/-- What is due for a session has been written, is lost, or is on its way. -/
structure Balanced (listener : Listener) (underway : List PrimaryChanged)
    (events : List NodeEvent) : Prop where
  behind : ∀ place ∈ listener.place, place ≤ events.length
  counted : ∀ frame, listener.written.count frame + listener.lost.count frame +
    listener.outbound.reduceOption.count frame + (listener.unreadEvents events).count frame +
      underway.count frame = listener.due.count frame

variable {listener : Listener} {underway : List PrimaryChanged} {events : List NodeEvent}

theorem Balanced.note (balanced : listener.Balanced underway events) {change : Change}
    {after : List PrimaryChanged} (flow : ∀ frame, after.count frame + change.lost.count frame =
      underway.count frame + change.due.count frame) :
    (listener.note change).Balanced after events where
  behind := balanced.behind
  counted frame := by
    have hbefore := balanced.counted frame
    have hflow := flow frame
    show listener.written.count frame + (listener.lost ++ change.lost).count frame +
      listener.outbound.reduceOption.count frame + (listener.unreadEvents events).count frame +
        after.count frame = (listener.due ++ change.due).count frame
    rw [List.count_append, List.count_append]
    omega

/-- A frame that was underway is put into the channel, or the channel is full. -/
theorem Balanced.trySend {frame : Option PrimaryChanged}
    (balanced : listener.Balanced (frame.toList ++ underway) events) :
    (listener.trySend frame).Balanced underway events := by
  rw [Listener.trySend]
  split_ifs
  · refine ⟨balanced.behind, ?_⟩
    intro other
    have hbefore := balanced.counted other
    have houtbound : (listener.outbound ++ [frame]).reduceOption =
        listener.outbound.reduceOption ++ frame.toList := by
      cases frame <;> simp [List.reduceOption_append]
    show listener.written.count other + listener.lost.count other +
      (listener.outbound ++ [frame]).reduceOption.count other +
        (listener.unreadEvents events).count other + underway.count other = listener.due.count other
    rw [houtbound, List.count_append]
    rw [List.count_append] at hbefore
    omega
  · refine ⟨balanced.behind, ?_⟩
    intro other
    have hbefore := balanced.counted other
    show listener.written.count other + (listener.lost ++ frame.toList).count other +
      listener.outbound.reduceOption.count other + (listener.unreadEvents events).count other +
        underway.count other = listener.due.count other
    rw [List.count_append] at hbefore ⊢
    omega

/-- What was underway reaches the daemon's stream, where a session that is not subscribed
misses it. -/
theorem Balanced.pass {relayed : List NodeEvent}
    (balanced : listener.Balanced (relayed.filterMap peerEventFrame ++ underway) events) :
    (listener.pass relayed).Balanced underway (events ++ relayed) := by
  rw [Listener.pass]
  split_ifs with hnone
  · have hplace : listener.place = none := Option.isNone_iff_eq_none.mp hnone
    refine ⟨?_, ?_⟩
    · intro place hsome
      have hsome : place ∈ listener.place := hsome
      rw [hplace] at hsome
      cases hsome
    · intro frame
      have hbefore := balanced.counted frame
      have hunread : (listener.unreadEvents events).count frame = 0 := by
        rw [unreadEvents, hplace]
        rfl
      have hafter : (listener.unreadEvents (events ++ relayed)).count frame = 0 := by
        rw [unreadEvents, hplace]
        rfl
      show listener.written.count frame +
        (listener.lost ++ relayed.filterMap peerEventFrame).count frame +
          listener.outbound.reduceOption.count frame +
            (listener.unreadEvents (events ++ relayed)).count frame + underway.count frame =
              listener.due.count frame
      rw [hafter, List.count_append]
      rw [List.count_append, hunread] at hbefore
      omega
  · obtain ⟨place, hplace⟩ := Option.ne_none_iff_exists'.mp
      (hnone ∘ Option.isNone_iff_eq_none.mpr)
    have hbehind := balanced.behind place hplace
    refine ⟨?_, ?_⟩
    · intro other hother
      rw [List.length_append]
      exact Nat.le_add_right_of_le (balanced.behind other hother)
    · intro frame
      have hbefore := balanced.counted frame
      have hunread : listener.unreadEvents (events ++ relayed) =
          listener.unreadEvents events ++ relayed.filterMap peerEventFrame := by
        rw [unreadEvents, unreadEvents, hplace]
        show (unread (events ++ relayed) place).filterMap peerEventFrame = _
        rw [unread_append hbehind, List.filterMap_append]
        rfl
      rw [hunread, List.count_append]
      rw [List.count_append] at hbefore
      omega

theorem Balanced.subscribe (balanced : listener.Balanced underway events) :
    (listener.subscribe events.length).Balanced underway events := by
  rw [Listener.subscribe]
  cases hplace : listener.place with
  | none =>
      rw [if_pos Option.isNone_none]
      refine ⟨?_, ?_⟩
      · rintro _ ⟨⟩
        exact Nat.le_refl _
      · intro frame
        have hbefore := balanced.counted frame
        have hunread : listener.unreadEvents events = [] := by
          rw [unreadEvents, hplace]
          rfl
        have hafter : unread events events.length = [] := List.drop_length
        show listener.written.count frame + listener.lost.count frame +
          listener.outbound.reduceOption.count frame +
            ((unread events events.length).filterMap peerEventFrame).count frame +
              underway.count frame = listener.due.count frame
        rwa [hafter, List.filterMap_nil, ← hunread]
  | some place =>
      rw [if_neg (by simp)]
      exact balanced

theorem Balanced.writeOutbound (balanced : listener.Balanced underway events) :
    listener.writeOutbound.Balanced underway events := by
  rw [Listener.writeOutbound]
  split
  · rename_i place frame rest hplace houtbound
    refine ⟨balanced.behind, ?_⟩
    intro other
    have hbefore := balanced.counted other
    have hsplit : (frame :: rest).reduceOption = frame.toList ++ rest.reduceOption := by
      cases frame <;> rfl
    show (listener.written ++ frame.toList).count other + listener.lost.count other +
      rest.reduceOption.count other + (listener.unreadEvents events).count other +
        underway.count other = listener.due.count other
    rw [houtbound, hsplit, List.count_append] at hbefore
    rw [List.count_append]
    omega
  · exact balanced

theorem Balanced.writeEvent (balanced : listener.Balanced underway events) :
    (listener.writeEvent events).Balanced underway events := by
  rw [Listener.writeEvent]
  cases hplace : listener.place with
  | none => exact balanced
  | some place =>
      dsimp only
      have hbehind := balanced.behind place hplace
      refine ⟨?_, ?_⟩
      · rintro _ ⟨⟩
        exact recv_place_le hbehind
      · intro frame
        have hbefore := balanced.counted frame
        have hread := count_unread EVENT_CHANNEL_CAPACITY events place peerEventFrame frame
        have hunread : listener.unreadEvents events =
            (unread events place).filterMap peerEventFrame := by
          rw [unreadEvents, hplace]
          rfl
        rw [hunread] at hbefore
        generalize recv EVENT_CHANNEL_CAPACITY events place = reading at hread ⊢
        show (listener.written ++ reading.value.toList.filterMap peerEventFrame).count frame +
          (listener.lost ++ reading.skipped.filterMap peerEventFrame).count frame +
            listener.outbound.reduceOption.count frame +
              ((unread events reading.place).filterMap peerEventFrame).count frame +
                underway.count frame = listener.due.count frame
        rw [List.count_append, List.count_append]
        omega

end Listener

namespace Notices

variable {state : Notices}

/-- Every session's account is balanced, and no task has read beyond the end. -/
structure Balanced (state : Notices) : Prop where
  forwarder : state.forwarder ≤ state.bridged.node.sessionEvents.length
  relayer : state.relayer ≤ state.bridged.node.events.length
  sessions : ∀ listener ∈ state.sessions, listener.Balanced state.underway state.events

theorem balanced_start (appUuid : String) (encrypt : Bool) (roomHashes : List RoomHash) :
    (start appUuid encrypt roomHashes).Balanced where
  forwarder := Nat.le_refl _
  relayer := Nat.le_refl _
  sessions _ hlistener := nomatch hlistener

theorem Balanced.upstream (balanced : state.Balanced) {after : Bridged} {change : Change}
    (flows : Flows state.bridged after change) : (state.upstream after change).Balanced := by
  obtain ⟨said, told, hsaid, htold, hcounts⟩ := flows
  have hforwarder := balanced.forwarder
  have hrelayer := balanced.relayer
  refine ⟨?_, ?_, ?_⟩
  · show state.forwarder ≤ after.node.sessionEvents.length
    rw [hsaid, List.length_append]
    exact Nat.le_add_right_of_le hforwarder
  · show state.relayer ≤ after.node.events.length
    rw [htold, List.length_append]
    exact Nat.le_add_right_of_le hrelayer
  · intro listener hlistener
    obtain ⟨before, hbefore, rfl⟩ := List.mem_map.mp hlistener
    apply (balanced.sessions before hbefore).note
    intro frame
    have hcount := hcounts frame
    show (held after ++ held after ++
      (unread after.node.sessionEvents state.forwarder).filterMap forwardedFrame ++
        (unread after.node.events state.relayer).filterMap peerEventFrame).count frame + _ = _
    rw [hsaid, htold, unread_append hforwarder, unread_append hrelayer, underway]
    simp only [List.filterMap_append, List.count_append]
    omega

/-- What the forwarder reads is put into the channels, and what it skips is lost. -/
theorem Balanced.forwardSessionEvent (balanced : state.Balanced) :
    state.forwardSessionEvent.Balanced := by
  have hread := count_unread NODE_CHANNEL_CAPACITY state.bridged.node.sessionEvents
    state.forwarder forwardedFrame
  have hplace : (recv NODE_CHANNEL_CAPACITY state.bridged.node.sessionEvents
      state.forwarder).place ≤ state.bridged.node.sessionEvents.length :=
    recv_place_le balanced.forwarder
  rw [Notices.forwardSessionEvent]
  generalize recv NODE_CHANNEL_CAPACITY state.bridged.node.sessionEvents state.forwarder =
    reading at hread hplace
  refine ⟨hplace, balanced.relayer, ?_⟩
  intro listener hlistener
  obtain ⟨before, hbefore, rfl⟩ := List.mem_map.mp hlistener
  let read : Notices := { state with forwarder := reading.place }
  have hnoted : (before.note ⟨[], [], reading.skipped.filterMap forwardedFrame⟩).Balanced
      ((reading.value.bind forwardedFrame).toList ++ read.underway) state.events := by
    apply (balanced.sessions before hbefore).note
    intro frame
    have hvalue : reading.value.toList.filterMap forwardedFrame =
        (reading.value.bind forwardedFrame).toList := by
      cases reading.value with
      | none => rfl
      | some event => cases event <;> rfl
    have hframe := hread frame
    rw [hvalue] at hframe
    simp only [underway, List.count_append, List.count_nil, read]
    omega
  dsimp only
  cases hframe : reading.value.bind forwardedFrame with
  | none =>
      rw [hframe] at hnoted
      exact hnoted
  | some frame =>
      rw [hframe] at hnoted
      exact hnoted.trySend

/-- What is relayed is put onto the daemon's stream, and what is skipped is lost. -/
theorem Balanced.relay (balanced : state.Balanced) : state.relay.Balanced := by
  have hread := count_unread NODE_CHANNEL_CAPACITY state.bridged.node.events state.relayer
    peerEventFrame
  have hplace : (recv NODE_CHANNEL_CAPACITY state.bridged.node.events state.relayer).place ≤
      state.bridged.node.events.length := recv_place_le balanced.relayer
  rw [Notices.relay]
  generalize recv NODE_CHANNEL_CAPACITY state.bridged.node.events state.relayer =
    reading at hread hplace
  refine ⟨balanced.forwarder, hplace, ?_⟩
  intro listener hlistener
  obtain ⟨before, hbefore, rfl⟩ := List.mem_map.mp hlistener
  let read : Notices := { state with relayer := reading.place }
  have hnoted : (before.note ⟨[], [], reading.skipped.filterMap peerEventFrame⟩).Balanced
      (reading.value.toList.filterMap peerEventFrame ++ read.underway) state.events := by
    apply (balanced.sessions before hbefore).note
    intro frame
    have hframe := hread frame
    simp only [underway, List.count_append, List.count_nil, read]
    omega
  exact hnoted.pass

theorem Balanced.enter (balanced : state.Balanced) : state.enter.Balanced := by
  refine ⟨balanced.forwarder, balanced.relayer, ?_⟩
  intro listener hlistener
  rcases List.mem_append.mp hlistener with hold | hnew
  · exact balanced.sessions listener hold
  · rw [List.mem_singleton.mp hnew]
    refine ⟨?_, ?_⟩
    · rintro _ ⟨⟩
    · intro frame
      show 0 + 0 + 0 + 0 + state.underway.count frame = state.underway.count frame
      omega

/-- What one session does by itself. -/
theorem Balanced.modifySession (balanced : state.Balanced) (index : Nat)
    {use : Listener → Listener} (kept : ∀ listener, listener.Balanced state.underway state.events →
      (use listener).Balanced state.underway state.events) :
    (state.modifySession index use).Balanced :=
  ⟨balanced.forwarder, balanced.relayer, Entries.forall_mem_modify balanced.sessions kept⟩

theorem Balanced.perform (balanced : state.Balanced) (op : NoticeOp) :
    (state.perform op).Balanced := by
  cases op with
  | bridge op => exact balanced.upstream (flows_perform state.bridged op)
  | disconnectPeer peerId => exact balanced.upstream (flows_disconnectPeer state.bridged peerId)
  | switchActiveLink peerId toLink now =>
      exact balanced.upstream (flows_switch state.bridged peerId toLink now)
  | publish event =>
      rw [Notices.perform]
      split_ifs with hquiet
      · exact balanced.upstream (flows_publish state.bridged hquiet)
      · exact balanced
  | forwardSessionEvent => exact balanced.forwardSessionEvent
  | relay => exact balanced.relay
  | enter => exact balanced.enter
  | subscribe index => exact balanced.modifySession index fun _ hlistener => hlistener.subscribe
  | push index =>
      apply balanced.modifySession index
      intro listener hlistener
      exact Listener.Balanced.trySend hlistener
  | writeOutbound index =>
      exact balanced.modifySession index fun _ hlistener => hlistener.writeOutbound
  | writeEvent index => exact balanced.modifySession index fun _ hlistener => hlistener.writeEvent
  | close index =>
      refine ⟨balanced.forwarder, balanced.relayer, ?_⟩
      intro listener hlistener
      exact balanced.sessions listener (List.mem_of_mem_eraseIdx hlistener)

end Notices

/-! ## Every session has a bridge -/

/-- A bridge is subscribed to every peer's session. -/
def Served (bridged : Bridged) : Prop :=
  ∀ peerId, bridged.node.sessions.get peerId ≠ none → 0 < bridged.serving peerId

theorem serving_spawn_self (contains : before.node.sessions.contains peerId = true) :
    0 < (before.spawnSessionBridgeFor peerId).serving peerId := by
  rw [Bridged.spawnSessionBridgeFor, if_pos contains, Bridged.serving, List.countP_append]
  simp [Bridge.serves]

theorem serving_le_spawn (before : Bridged) (peerId other : String) :
    before.serving other ≤ (before.spawnSessionBridgeFor peerId).serving other := by
  rw [Bridged.spawnSessionBridgeFor]
  split_ifs
  · rw [Bridged.serving, Bridged.serving, List.countP_append]
    exact Nat.le_add_right _ _
  · exact Nat.le_refl _

/-- The call that opens a session starts a bridge for it. -/
theorem spawnsBridge_of_opened (node : Node) {call : NodeCall} (attaches : call.act.attaches = true)
    (unknown : node.sessions.get call.peerId = none)
    (opened : (node.call call).sessions.get call.peerId ≠ none) : node.spawnsBridge call = true := by
  cases call with
  | register peerHs conn name transportId transportCaps mismatchPeerId draw now =>
      rw [Node.call, Node.registerAfterHandshake] at opened
      rw [Node.spawnsBridge, Node.registerAfterHandshake]
      cases hcheck : node.checkRoom peerHs mismatchPeerId with
      | error e =>
          rw [hcheck] at opened
          exact absurd unknown opened
      | ok value =>
          rw [hcheck] at opened
          dsimp only at opened ⊢
          split_ifs at opened ⊢ with htaken
          · rfl
          · exact absurd unknown opened
  | attachSecondaryLink peerId conn kind draw now =>
      have hunknown : node.sessions.contains peerId = false := by
        rw [SessionManager.contains, Option.isSome_eq_false_iff, Option.isNone_iff_eq_none]
        exact unknown
      rw [Node.call, Node.attachSecondaryLink, if_neg (ne_true_of_eq_false hunknown)] at opened
      exact absurd unknown opened
  | attachConnection peerId conn draw now => rfl
  | disconnectLink peerId linkId => cases attaches
  | disconnectPeer peerId => cases attaches

theorem Served.attach (served : Served before) {call : NodeCall}
    (attaches : call.act.attaches = true) : Served (before.attach call) := by
  obtain ⟨hnode, _, _, _, hothers⟩ := Bridged.attach_spec before call
  intro peerId hknown
  rw [hnode] at hknown
  by_cases hpeer : peerId = call.peerId
  · subst hpeer
    rw [Bridged.attach]
    by_cases hbefore : before.node.sessions.get call.peerId = none
    · rw [if_pos (spawnsBridge_of_opened before.node attaches hbefore hknown)]
      exact serving_spawn_self (Option.isSome_iff_ne_none.mpr hknown)
    · have hserving := served call.peerId hbefore
      split_ifs
      · apply Nat.lt_of_lt_of_le _ (serving_le_spawn _ _ _)
        rw [Bridged.serving_broadcast]
        exact hserving
      · rw [Bridged.serving_broadcast]
        exact hserving
  · rw [hothers peerId (absurd · hpeer)]
    apply served peerId
    have hview : (before.node.call call).view peerId = before.node.view peerId :=
      Node.view_call_of_ne hpeer
    exact fun hnone => hknown ((congrArg PeerView.session hview).trans hnone)

/-- Closing the channels of a peer that is gone. -/
theorem Served.closeGone (served : Served before) (peerId : String) :
    Served (before.closeGone peerId) := by
  by_cases hgone : before.node.sessions.get peerId = none
  · intro other hknown
    have hnode : (before.closeGone peerId).node = before.node := by
      rw [Bridged.closeGone]
      split_ifs <;> rfl
    rw [hnode] at hknown
    have hne : other ≠ peerId := by
      rintro rfl
      exact hknown hgone
    rw [Bridged.serving_closeGone_of_ne hne]
    exact served other hknown
  · rw [Bridged.closeGone, SessionManager.contains, if_pos (Option.isSome_iff_ne_none.mpr hgone)]
    exact served

/-- No session is opened, and the bridges stay as they are. -/
theorem Served.of_kept (served : Served before)
    (kept : ∀ other, after.node.sessions.get other ≠ none → before.node.sessions.get other ≠ none)
    (serving : ∀ other, after.serving other = before.serving other) : Served after := by
  intro other hknown
  rw [serving other]
  exact served other (kept other hknown)

theorem kept_detachLink (manager : SessionManager) (peerId linkId other : String)
    (known : (manager.detachLink peerId linkId).2.get other ≠ none) : manager.get other ≠ none := by
  by_cases hpeer : other = peerId
  · subst hpeer
    intro hnone
    apply known
    simp only [SessionManager.detachLink, hnone]
  · rwa [SessionManager.get_detachLink_of_ne hpeer] at known

theorem kept_dropPeer (manager : SessionManager) (peerId other : String)
    (known : (manager.dropPeer peerId).2.get other ≠ none) : manager.get other ≠ none := by
  by_cases hpeer : other = peerId
  · subst hpeer
    exact absurd (SessionManager.get_dropPeer_self manager other) known
  · rwa [SessionManager.get_dropPeer_of_ne hpeer] at known

theorem kept_update (manager : SessionManager) (peerId other : String) (use : Session → Session)
    (known : (manager.update peerId use).get other ≠ none) : manager.get other ≠ none := by
  by_cases hpeer : other = peerId
  · subst hpeer
    intro hnone
    rw [SessionManager.get_update_self, hnone] at known
    exact known rfl
  · rwa [SessionManager.get_update_of_ne hpeer] at known

theorem kept_switchActiveLink (node : Node) (peerId toLink other : String) (now : Instant)
    (known : (node.switchActiveLink peerId toLink now).2.sessions.get other ≠ none) :
    node.sessions.get other ≠ none := by
  rcases switchActiveLink_cases node peerId toLink now with
    ⟨_, hsame⟩ | ⟨session, hsession, _, _, _, hothers⟩
  · rwa [hsame] at known
  · by_cases hpeer : other = peerId
    · subst hpeer
      rw [hsession]
      exact Option.some_ne_none session
    · rwa [hothers other hpeer] at known

theorem Served.detach (served : Served before) (peerId linkId : String) {node : Node}
    (sessions : node.sessions = (before.node.sessions.detachLink peerId linkId).2) :
    Served (before.detach peerId linkId node) := by
  apply Served.closeGone
  apply served.of_kept
  · intro other hknown
    have hknown : node.sessions.get other ≠ none := hknown
    rw [sessions] at hknown
    exact kept_detachLink _ peerId linkId other hknown
  · exact fun other => Bridged.serving_broadcast _ _ _ _

theorem Served.disconnectPeer (served : Served before) (peerId : String) :
    Served ({ before with node := before.node.disconnectPeer peerId }.closeGone peerId) := by
  apply Served.closeGone
  apply served.of_kept
  · intro other hknown
    have hknown : (before.node.disconnectPeer peerId).sessions.get other ≠ none := hknown
    rw [Node.disconnectPeer, Node.sessions_evict] at hknown
    exact kept_dropPeer _ peerId other hknown
  · exact fun other => rfl

theorem Served.promote (served : Served before) (peerId failingId : String) (now : Instant) :
    Served (before.promote peerId failingId now) := by
  apply served.of_kept
  · exact fun other => kept_update before.node.sessions peerId other _
  · exact fun other => Bridged.serving_broadcast _ _ _ _

theorem Served.switchActiveLink (served : Served before) (peerId toLink : String)
    (now : Instant) :
    Served { before with node := (before.node.switchActiveLink peerId toLink now).2 } := by
  apply served.of_kept
  · exact fun other => kept_switchActiveLink before.node peerId toLink other now
  · exact fun other => rfl

/-- A bridge that has not fallen behind goes on. -/
theorem Served.forward (served : Served before) (index : Nat)
    (keepsUp : ∀ bridge ∈ before.bridges[index]?, bridge.queue.length ≤ SESSION_CHANNEL_CAPACITY) :
    Served ((before.forward index).getD before) := by
  cases hbridge : before.bridges[index]? with
  | none =>
      simp only [Bridged.forward, hbridge]
      exact served
  | some bridge =>
      simp only [Bridged.forward, hbridge]
      rw [if_neg (Nat.not_lt_of_le (keepsUp bridge hbridge))]
      cases hqueue : bridge.queue with
      | nil => exact served
      | cons event rest =>
          apply served.of_kept
          · intro other hknown
            have hsessions : (before.node.republish event).sessions = before.node.sessions := by
              rw [Node.republish]
              split_ifs <;> rfl
            rw [← hsessions]
            exact hknown
          · intro other
            exact Entries.countP_set_of_eq _ hbridge rfl

theorem Served.perform (served : Served before) {op : BridgeOp}
    (keepsUp : ∀ index, op = .forward index → ∀ bridge ∈ before.bridges[index]?,
      bridge.queue.length ≤ SESSION_CHANNEL_CAPACITY) :
    Served ((before.perform op).getD before) := by
  cases op with
  | attach call =>
      rw [Bridged.perform]
      split_ifs with hattaches
      · exact served.attach hattaches
      · exact served
  | disconnectLink peerId linkId =>
      apply served.detach peerId linkId
      rw [Node.disconnectLink]
      split_ifs
      · exact Node.sessions_evict _ peerId
      · rfl
  | loseLink peerId linkId => exact served.detach peerId linkId (Node.sessions_evict _ peerId)
  | promote peerId failingId now => exact served.promote peerId failingId now
  | forward index => exact served.forward index (keepsUp index rfl)

/-! ## Each switch is announced twice or more -/

namespace Change

/-- Two frames or more are due for each switch that is made. -/
def Doubles (change : Change) : Prop :=
  ∀ frame, 2 * change.made.count frame ≤ change.due.count frame

theorem doubles_of_made {made due lost : List PrimaryChanged} (unmade : made = []) :
    Doubles ⟨made, due, lost⟩ := by
  intro frame
  rw [unmade]
  exact Nat.zero_le _

end Change

/-- A session that is promoted has a bridge, which announces the switch on both streams. -/
theorem Served.doubles (served : Served before) (op : BridgeOp) :
    (bridgeChange before op).Doubles := by
  cases op with
  | attach call => exact Change.doubles_of_made rfl
  | disconnectLink peerId linkId => exact Change.doubles_of_made rfl
  | loseLink peerId linkId => exact Change.doubles_of_made rfl
  | promote peerId failingId now =>
      cases hsession : before.node.sessions.get peerId with
      | none =>
          apply Change.doubles_of_made
          simp only [promotion, hsession]
      | some session =>
          have hserving := served peerId (hsession ▸ Option.some_ne_none session)
          intro frame
          rw [bridgeChange]
          dsimp only
          rw [List.count_append, count_copies]
          have hcopies := Nat.le_mul_of_pos_left
            ((promotion before.node.sessions peerId failingId now).count frame) hserving
          omega
  | forward index =>
      have hmade : (bridgeChange before (.forward index)).made = [] := by
        rw [bridgeChange]
        split
        · rfl
        · dsimp only
          split_ifs <;> rfl
      exact Change.doubles_of_made hmade

namespace Listener

/-- Two frames or more are due for each switch that was made. -/
def Doubled (listener : Listener) : Prop :=
  ∀ frame, 2 * listener.made.count frame ≤ listener.due.count frame

variable {listener : Listener}

/-- Where no more is due than was made, there was no switch. -/
theorem Doubled.made_eq_nil (doubled : listener.Doubled)
    (less : ∀ frame, listener.due.count frame ≤ listener.made.count frame) :
    listener.made = [] := by
  rw [List.eq_nil_iff_forall_not_mem]
  intro frame hframe
  have hpositive := List.count_pos_iff.mpr hframe
  have htwice := doubled frame
  have hless := less frame
  omega

theorem Doubled.note (doubled : listener.Doubled) {change : Change} (doubles : change.Doubles) :
    (listener.note change).Doubled := by
  intro frame
  have hbefore := doubled frame
  have hmore := doubles frame
  show 2 * (listener.made ++ change.made).count frame ≤ (listener.due ++ change.due).count frame
  rw [List.count_append, List.count_append]
  omega

theorem Doubled.trySend (doubled : listener.Doubled) (frame : Option PrimaryChanged) :
    (listener.trySend frame).Doubled := by
  rw [Listener.trySend]
  split_ifs <;> exact doubled

theorem Doubled.pass (doubled : listener.Doubled) (relayed : List NodeEvent) :
    (listener.pass relayed).Doubled := by
  rw [Listener.pass]
  split_ifs <;> exact doubled

theorem Doubled.subscribe (doubled : listener.Doubled) (sent : Nat) :
    (listener.subscribe sent).Doubled := by
  rw [Listener.subscribe]
  split_ifs <;> exact doubled

theorem Doubled.writeOutbound (doubled : listener.Doubled) : listener.writeOutbound.Doubled := by
  rw [Listener.writeOutbound]
  split <;> exact doubled

theorem Doubled.writeEvent (doubled : listener.Doubled) (events : List NodeEvent) :
    (listener.writeEvent events).Doubled := by
  rw [Listener.writeEvent]
  split <;> exact doubled

end Listener

namespace Notices

variable {state : Notices}

/-- While the bridges keep up, every session of a peer has one, and two frames or more are
due for each switch. -/
structure Doubled (state : Notices) : Prop where
  served : Served state.bridged
  sessions : ∀ listener ∈ state.sessions, listener.Doubled

theorem doubled_start (appUuid : String) (encrypt : Bool) (roomHashes : List RoomHash) :
    (start appUuid encrypt roomHashes).Doubled where
  served _ hknown := absurd rfl hknown
  sessions _ hlistener := nomatch hlistener

theorem Doubled.upstream (doubled : state.Doubled) {after : Bridged} {change : Change}
    (served : Served after) (doubles : change.Doubles) : (state.upstream after change).Doubled := by
  refine ⟨served, ?_⟩
  intro listener hlistener
  obtain ⟨before, hbefore, rfl⟩ := List.mem_map.mp hlistener
  exact (doubled.sessions before hbefore).note doubles

theorem Doubled.forwardSessionEvent (doubled : state.Doubled) :
    state.forwardSessionEvent.Doubled := by
  refine ⟨doubled.served, ?_⟩
  intro listener hlistener
  obtain ⟨before, hbefore, rfl⟩ := List.mem_map.mp hlistener
  have hnoted (lost : List PrimaryChanged) : (before.note ⟨[], [], lost⟩).Doubled :=
    (doubled.sessions before hbefore).note (Change.doubles_of_made rfl)
  split
  · exact hnoted _
  · exact (hnoted _).trySend _

theorem Doubled.relay (doubled : state.Doubled) : state.relay.Doubled := by
  refine ⟨doubled.served, ?_⟩
  intro listener hlistener
  obtain ⟨before, hbefore, rfl⟩ := List.mem_map.mp hlistener
  have hnoted (lost : List PrimaryChanged) : (before.note ⟨[], [], lost⟩).Doubled :=
    (doubled.sessions before hbefore).note (Change.doubles_of_made rfl)
  exact (hnoted _).pass _

theorem Doubled.enter (doubled : state.Doubled) : state.enter.Doubled := by
  refine ⟨doubled.served, ?_⟩
  intro listener hlistener
  rcases List.mem_append.mp hlistener with hold | hnew
  · exact doubled.sessions listener hold
  · rw [List.mem_singleton.mp hnew]
    exact fun frame => Nat.zero_le _

theorem Doubled.modifySession (doubled : state.Doubled) (index : Nat)
    {use : Listener → Listener} (kept : ∀ listener : Listener, listener.Doubled →
      (use listener).Doubled) : (state.modifySession index use).Doubled :=
  ⟨doubled.served, Entries.forall_mem_modify doubled.sessions kept⟩

theorem Doubled.perform (doubled : state.Doubled) {op : NoticeOp}
    (keepsUp : state.BridgesKeepUp op) : (state.perform op).Doubled := by
  cases op with
  | bridge op =>
      apply doubled.upstream (doubled.served.perform _) (doubled.served.doubles op)
      rintro index rfl
      exact keepsUp
  | disconnectPeer peerId =>
      exact doubled.upstream (doubled.served.disconnectPeer peerId) (Change.doubles_of_made rfl)
  | switchActiveLink peerId toLink now =>
      apply doubled.upstream (doubled.served.switchActiveLink peerId toLink now)
      intro frame
      rw [List.count_append, Nat.two_mul]
  | publish event =>
      rw [Notices.perform]
      split_ifs
      · exact doubled.upstream doubled.served (Change.doubles_of_made rfl)
      · exact doubled
  | forwardSessionEvent => exact doubled.forwardSessionEvent
  | relay => exact doubled.relay
  | enter => exact doubled.enter
  | subscribe index => exact doubled.modifySession index fun _ hlistener => hlistener.subscribe _
  | push index => exact doubled.modifySession index fun _ hlistener => hlistener.trySend none
  | writeOutbound index =>
      exact doubled.modifySession index fun _ hlistener => hlistener.writeOutbound
  | writeEvent index => exact doubled.modifySession index fun _ hlistener => hlistener.writeEvent _
  | close index =>
      refine ⟨doubled.served, ?_⟩
      intro listener hlistener
      exact doubled.sessions listener (List.mem_of_mem_eraseIdx hlistener)

/-! ## How often a session is told -/

/-- Once nothing is on its way, what was due has been written or is lost. -/
theorem Balanced.settled (balanced : state.Balanced) {listener : Listener}
    (listed : listener ∈ state.sessions) (settled : state.Settled listener) :
    (listener.lost ++ listener.written).Perm listener.due := by
  obtain ⟨_, hunderway, houtbound, hunread⟩ := settled
  rw [List.perm_iff_count]
  intro frame
  have hcounted := (balanced.sessions listener listed).counted frame
  rw [hunderway, houtbound, hunread] at hcounted
  simp only [List.reduceOption_nil, List.count_nil] at hcounted
  rw [List.count_append]
  omega

theorem Balanced.onceEachAt_iff_surplusLostAt (balanced : state.Balanced) (index : Nat) :
    state.OnceEachAt index ↔ state.SurplusLostAt index := by
  constructor
  · intro onceEach listener hlistener settled
    have hdue := balanced.settled (List.mem_of_getElem? hlistener) settled
    exact ((onceEach listener hlistener settled).symm.append_left listener.lost).trans hdue
  · intro surplusLost listener hlistener settled
    have hdue := balanced.settled (List.mem_of_getElem? hlistener) settled
    exact (List.perm_append_left_iff listener.lost).mp
      (hdue.trans (surplusLost listener hlistener settled).symm)

/-- A session that has lost nothing is told of a switch at least twice. -/
theorem Doubled.onceEachAt_iff_noneDueAt (doubled : state.Doubled) (balanced : state.Balanced)
    {index : Nat} (losesNone : state.LosesNoneAt index) :
    state.OnceEachAt index ↔ state.NoneDueAt index := by
  rw [balanced.onceEachAt_iff_surplusLostAt index]
  constructor
  · intro surplusLost listener hlistener settled
    have hdue := surplusLost listener hlistener settled
    rw [losesNone listener hlistener, List.nil_append] at hdue
    have hmade : listener.made = [] :=
      (doubled.sessions listener (List.mem_of_getElem? hlistener)).made_eq_nil
        fun frame => Nat.le_of_eq (hdue.count_eq frame).symm
    rw [hmade] at hdue
    exact hdue.symm.eq_nil
  · intro noneDue listener hlistener settled
    have hnone := noneDue listener hlistener settled
    have hmade : listener.made = [] := by
      apply (doubled.sessions listener (List.mem_of_getElem? hlistener)).made_eq_nil
      intro frame
      rw [hnone]
      exact Nat.zero_le _
    rw [losesNone listener hlistener, hmade, hnone]
    rfl

/-- In every run, a session is told of each switch once exactly when all other
announcements have been lost on the way to it. While the bridges and the session keep up,
that is only before there was a switch to announce. -/
theorem onceEachAt_iff (appUuid : String) (encrypt : Bool) (roomHashes : List RoomHash)
    (ops : List NoticeOp) (index : Nat) :
    let started := start appUuid encrypt roomHashes
    let state := ops.foldl perform started
    (state.OnceEachAt index ↔ state.SurplusLostAt index) ∧
      ((∀ earlier op later, ops = earlier ++ op :: later →
          (earlier.foldl perform started).BridgesKeepUp op) →
        state.LosesNoneAt index → (state.OnceEachAt index ↔ state.NoneDueAt index)) := by
  intro started state
  have balanced : state.Balanced :=
    List.foldlRecOn ops perform (balanced_start appUuid encrypt roomHashes)
      fun _ hbalanced op _ => hbalanced.perform op
  refine ⟨balanced.onceEachAt_iff_surplusLostAt index, ?_⟩
  intro keepUp losesNone
  have doubled : state.Doubled :=
    Transition.foldl_of_guarded (fun _ _ hdoubled hkeepsUp => hdoubled.perform hkeepsUp)
      (doubled_start appUuid encrypt roomHashes) keepUp
  exact doubled.onceEachAt_iff_noneDueAt balanced losesNone

/-! ## A peer that is registered over two links -/

/-- A peer registers over TCP and over Bluetooth, so that two bridges are subscribed, and
a WebSocket session connects. The peer is switched to Bluetooth by hand, then that link
fails, and everything is delivered. -/
def switchedTwice : List NoticeOp :=
  [.bridge (.attach (.register ⟨"peer", none, none⟩ 0 "phone" "tcp" ⟨10000000⟩ "peer" ⟨1, 1⟩ 0)),
    .bridge (.attach (.register ⟨"peer", none, none⟩ 1 "phone" "ble" ⟨200000⟩ "peer" ⟨2, 2⟩ 1)),
    .relay, .relay, .relay, .enter, .subscribe 0,
    .switchActiveLink "peer" "ble:peer:00000002" 2,
    .forwardSessionEvent, .relay, .writeOutbound 0, .writeEvent 0,
    .bridge (.promote "peer" "ble:peer:00000002" 3),
    .bridge (.forward 0), .bridge (.forward 0), .bridge (.forward 1),
    .forwardSessionEvent, .forwardSessionEvent, .forwardSessionEvent, .relay, .relay,
    .writeOutbound 0, .writeOutbound 0, .writeEvent 0, .writeEvent 0]

/-- The session is told twice of the switch by hand and four times of the other. -/
theorem not_onceEachAt_switchedTwice :
    let state := switchedTwice.foldl perform (start "node" false [])
    let byHand : PrimaryChanged := ⟨"peer", "tcp:peer:00000001", "ble:peer:00000002", "manual"⟩
    let byFailure : PrimaryChanged :=
      ⟨"peer", "ble:peer:00000002", "tcp:peer:00000001", "active_failed"⟩
    ∃ listener, state.sessions[0]? = some listener ∧ state.Settled listener ∧
      listener.lost = [] ∧ listener.made = [byHand, byFailure] ∧
      listener.written = List.replicate 2 byHand ++ List.replicate 4 byFailure ∧
      ¬ state.OnceEachAt 0 := by
  intro state byHand byFailure
  have hruns : ∃ listener, state.sessions[0]? = some listener ∧ state.Settled listener ∧
      listener.lost = [] ∧ listener.made = [byHand, byFailure] ∧
      listener.written = List.replicate 2 byHand ++ List.replicate 4 byFailure :=
    ⟨_, rfl, ⟨rfl, rfl, rfl, rfl⟩, rfl, rfl, rfl⟩
  obtain ⟨listener, hlistener, settled, hlost, hmade, hwritten⟩ := hruns
  refine ⟨listener, hlistener, settled, hlost, hmade, hwritten, ?_⟩
  intro onceEach
  have hlength := (onceEach listener hlistener settled).length_eq
  rw [hmade, hwritten] at hlength
  exact absurd hlength (by decide)

end Notices

end Mlink.Daemon
