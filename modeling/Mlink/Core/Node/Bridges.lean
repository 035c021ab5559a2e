/-
# Publishing a session's events

Each registration, and each connection that is installed directly, starts a
bridge: a task that subscribes to the session's events and publishes them on the
node's two streams. A session that has been bridged twice has each of its later
events published twice, and a link that is taken down by hand is announced once
more by the call itself. Every event comes out once exactly when one bridge
serves the session whenever something happens to it.
-/

import Mlink.Core.Node.Lifecycle
import Mlink.Core.Session.Io
import Mlink.Lib.Entries
import Mlink.Lib.Transition

namespace Mlink.Core

open Mlink.Protocol Transition

namespace SessionEvent

/-- A bridge publishes these as events of the node. An added link is announced
by the call that attaches it. -/
def bridged : SessionEvent → Bool
  | linkAdded .. => false
  | linkRemoved .. | switched .. => true

/-- The link that an event says was removed. -/
def removed : SessionEvent → Option (String × String)
  | linkRemoved peerId linkId _ => some (peerId, linkId)
  | _ => none

end SessionEvent

namespace NodeEvent

/-- The node's event for an event of a session. -/
def ofSession : SessionEvent → NodeEvent
  | .linkAdded peerId linkId kind => .linkAdded peerId linkId kind
  | .linkRemoved peerId linkId reason => .linkRemoved peerId linkId reason
  | .switched peerId source target cause => .linkSwitched peerId source target cause

def bridged : NodeEvent → Bool
  | linkRemoved .. | linkSwitched .. => true
  | _ => false

def addsLink : NodeEvent → Bool
  | linkAdded .. => true
  | _ => false

/-- The link that an event says was removed. -/
def removed : NodeEvent → Option (String × String)
  | linkRemoved peerId linkId _ => some (peerId, linkId)
  | _ => none

end NodeEvent

/-- What a session had emitted when it was last looked at and has emitted since. -/
def newEvents (before after : Option Session) : List SessionEvent :=
  (after.elim [] Session.events).drop (before.elim [] Session.events).length

/-- What a detach emits on the session's channel. -/
def SessionManager.detachEvents (manager : SessionManager) (peerId linkId : String) :
    List SessionEvent :=
  match manager.get peerId with
  | none => []
  | some session =>
      if linkId ∈ session.links.map Link.id then [.linkRemoved peerId linkId "detach"] else []

/-- A session is promoted off a link that failed. -/
def SessionManager.promote (manager : SessionManager) (peerId failingId : String) (now : Instant) :
    SessionManager :=
  manager.update peerId fun session => (session.promoteOnFailure failingId now).2

namespace Node

/-- The call ends in `spawn_session_bridge_for`. -/
def spawnsBridge (node : Node) : NodeCall → Bool
  | .register peerHs conn name transportId transportCaps mismatchPeerId draw now =>
      !(node.registerAfterHandshake peerHs conn name transportId transportCaps mismatchPeerId
        draw now).closed
  | .attachConnection .. => true
  | _ => false

/-- What the reader's cleanup does when a link was lost. -/
def loseLink (node : Node) (peerId linkId : String) : Node :=
  { node with sessions := (node.sessions.detachLink peerId linkId).2 }.evict peerId

/-- What a bridge does with one event. -/
def republish (node : Node) (event : SessionEvent) : Node :=
  if event.bridged then (node.emitSession event).emit (.ofSession event)
  else node.emitSession event

end Node

/-- How many events a session's channel holds for a receiver. -/
def SESSION_CHANNEL_CAPACITY : Nat := 64

/-- A bridge task: what its receiver holds, and whether its session is still
the peer's. -/
structure Bridge where
  peerId : String
  queue : List SessionEvent
  live : Bool
  deriving DecidableEq, Repr

namespace Bridge

/-- The bridge is subscribed to the session of a peer. -/
def serves (bridge : Bridge) (peerId : String) : Bool := bridge.live && bridge.peerId == peerId

def push (peerId : String) (events : List SessionEvent) (bridge : Bridge) : Bridge :=
  if bridge.serves peerId then { bridge with queue := bridge.queue ++ events } else bridge

/-- The session's channel is closed. What the receiver holds is still read. -/
def close (peerId : String) (bridge : Bridge) : Bridge :=
  if bridge.serves peerId then { bridge with live := false } else bridge

end Bridge

/-- A node with its bridges, and a record of what its sessions emitted and of
the links that were detached. -/
structure Bridged where
  node : Node
  bridges : List Bridge
  emitted : List SessionEvent
  detached : List (String × String)

inductive BridgeOp
  | attach (call : NodeCall)
  | disconnectLink (peerId linkId : String)
  | loseLink (peerId linkId : String)
  | promote (peerId failingId : String) (now : Instant)
  | forward (index : Nat)

namespace Bridged

variable (state : Bridged)

/-- The session of a peer emits, and the bridges that are subscribed receive it. -/
def broadcast (peerId : String) (events : List SessionEvent) : Bridged :=
  { state with
    bridges := state.bridges.map (Bridge.push peerId events)
    emitted := state.emitted ++ events }

/-- Where a peer's session has gone, so has its channel. -/
def closeGone (peerId : String) : Bridged :=
  if state.node.sessions.contains peerId then state
  else { state with bridges := state.bridges.map (Bridge.close peerId) }

/-- Subscribe to the session of a peer, if there is one. -/
def spawnSessionBridgeFor (peerId : String) : Bridged :=
  if state.node.sessions.contains peerId then
    { state with bridges := state.bridges ++ [⟨peerId, [], true⟩] }
  else state

/-- A link is detached, and the node is as the call that detached it leaves it. -/
def detach (peerId linkId : String) (node : Node) : Bridged :=
  let events := state.node.sessions.detachEvents peerId linkId
  let state := { state with
    node := node, detached := state.detached ++ events.filterMap SessionEvent.removed }
  (state.broadcast peerId events).closeGone peerId

def attach (call : NodeCall) : Bridged :=
  let node := state.node.call call
  let events := newEvents (state.node.sessions.get call.peerId) (node.sessions.get call.peerId)
  let after := { state with node := node }.broadcast call.peerId events
  if state.node.spawnsBridge call then after.spawnSessionBridgeFor call.peerId else after

def promote (peerId failingId : String) (now : Instant) : Bridged :=
  let sessions := state.node.sessions.promote peerId failingId now
  let events := newEvents (state.node.sessions.get peerId) (sessions.get peerId)
  { state with node := { state.node with sessions := sessions } }.broadcast peerId events

/-- A bridge publishes the next event, or ends because it has fallen behind. -/
def forward (index : Nat) : Option Bridged :=
  match state.bridges[index]? with
  | none => none
  | some bridge =>
      if SESSION_CHANNEL_CAPACITY < bridge.queue.length then
        some { state with
          bridges := state.bridges.set index { bridge with queue := [], live := false } }
      else
        match bridge.queue with
        | [] => none
        | event :: rest =>
            some { state with
              node := state.node.republish event
              bridges := state.bridges.set index { bridge with queue := rest } }

def perform : BridgeOp → Option Bridged
  | .attach call => if call.act.attaches then some (state.attach call) else none
  | .disconnectLink peerId linkId =>
      some (state.detach peerId linkId (state.node.disconnectLink peerId linkId))
  | .loseLink peerId linkId =>
      some (state.detach peerId linkId (state.node.loseLink peerId linkId))
  | .promote peerId failingId now => some (state.promote peerId failingId now)
  | .forward index => state.forward index

/-- A new node under any sequence of attachments and detachments, with its
bridges running in between. -/
def system : System Bridged BridgeOp where
  init state := ∃ appUuid encrypt roomHashes,
    state = ⟨Node.new appUuid encrypt roomHashes, [], [], []⟩
  step state op after := state.perform op = some after

/-- The events that are still to be published. -/
def pending : List SessionEvent := state.bridges.flatMap Bridge.queue

/-- How many bridges serve a peer's session. -/
def serving (peerId : String) : Nat := state.bridges.countP fun bridge => bridge.serves peerId

/-- Whatever happens to a session, one bridge serves it; no link is taken down
by hand, a connection that is installed is taken, and no bridge falls behind. -/
def ServedOnce : BridgeOp → Prop
  | .attach call =>
      ∀ session ∈ state.node.sessions.get call.peerId, state.serving call.peerId = 1 ∧
        (call.act = .attachConnection → session.Takes .mock)
  | .disconnectLink _ _ => False
  | .loseLink peerId linkId =>
      ∀ session ∈ state.node.sessions.get peerId, linkId ∈ session.links.map Link.id →
        state.serving peerId = 1
  | .promote peerId failingId now =>
      ∀ session ∈ state.node.sessions.get peerId,
        (session.bestExcluding failingId now).isSome = true → state.serving peerId = 1
  | .forward index =>
      ∀ bridge ∈ state.bridges[index]?, bridge.queue.length ≤ SESSION_CHANNEL_CAPACITY

instance (op : BridgeOp) : Decidable (state.ServedOnce op) :=
  match op with
  | .attach call =>
      inferInstanceAs (Decidable (∀ session ∈ state.node.sessions.get call.peerId,
        _ = 1 ∧ (_ = PeerAct.attachConnection → session.Takes .mock)))
  | .disconnectLink _ _ => inferInstanceAs (Decidable False)
  | .loseLink peerId linkId =>
      inferInstanceAs (Decidable (∀ session ∈ state.node.sessions.get peerId,
        linkId ∈ session.links.map Link.id → state.serving peerId = 1))
  | .promote peerId failingId now =>
      inferInstanceAs (Decidable (∀ session ∈ state.node.sessions.get peerId,
        (session.bestExcluding failingId now).isSome = true → state.serving peerId = 1))
  | .forward index =>
      inferInstanceAs (Decidable (∀ bridge ∈ state.bridges[index]?,
        bridge.queue.length ≤ SESSION_CHANNEL_CAPACITY))

/-! ## What the bridges hold -/

variable {state} {peerId failingId : String} {now : Instant} {events : List SessionEvent}

/-- A broadcast is received as many times as bridges serve the session. -/
theorem pending_broadcast (state : Bridged) (peerId : String) (events : List SessionEvent) :
    (state.broadcast peerId events).pending.Perm
      (state.pending ++ (List.replicate (state.serving peerId) events).flatten) := by
  show ((state.bridges.map (Bridge.push peerId events)).flatMap Bridge.queue).Perm
    (state.bridges.flatMap Bridge.queue ++
      (List.replicate (state.bridges.countP fun bridge => bridge.serves peerId) events).flatten)
  induction state.bridges with
  | nil => exact .refl []
  | cons bridge rest ih =>
      rw [List.map_cons, List.flatMap_cons, List.flatMap_cons, List.countP_cons, Bridge.push]
      split_ifs with hserves
      · rw [List.replicate_succ, List.flatten_cons, List.append_assoc, List.append_assoc]
        apply List.Perm.append_left
        apply (ih.append_left events).trans
        rw [← List.append_assoc, ← List.append_assoc]
        exact List.perm_append_comm.append_right _
      · rw [Nat.add_zero, List.append_assoc]
        exact ih.append_left bridge.queue

/-- One bridge receives a broadcast once. -/
theorem pending_broadcast_of_one (once : state.serving peerId = 1) :
    (state.broadcast peerId events).pending.Perm (state.pending ++ events) := by
  have hpending := pending_broadcast state peerId events
  rw [once] at hpending
  simpa using hpending

/-- Without a bridge, a broadcast is lost. -/
theorem pending_broadcast_of_none (idle : state.serving peerId = 0) :
    (state.broadcast peerId events).pending.Perm state.pending := by
  have hpending := pending_broadcast state peerId events
  rw [idle] at hpending
  simpa using hpending

theorem serving_broadcast (state : Bridged) (peerId other : String)
    (events : List SessionEvent) :
    (state.broadcast peerId events).serving other = state.serving other := by
  rw [serving, serving, broadcast, List.countP_map]
  congr 1
  funext bridge
  rw [Function.comp_apply, Bridge.push]
  split_ifs <;> rfl

/-- Closing a channel takes nothing from its receivers. -/
theorem pending_closeGone (state : Bridged) (peerId : String) :
    (state.closeGone peerId).pending = state.pending := by
  rw [closeGone]
  split_ifs
  · rfl
  · rw [pending, pending, List.flatMap_map]
    congr 1
    funext bridge
    rw [Bridge.close]
    split_ifs <;> rfl

theorem serving_closeGone_self (gone : state.node.sessions.get peerId = none) :
    (state.closeGone peerId).serving peerId = 0 := by
  rw [closeGone, SessionManager.contains, gone, Option.isSome_none, if_neg Bool.false_ne_true,
    serving, List.countP_map, List.countP_eq_zero]
  intro bridge _
  rw [Function.comp_apply, Bridge.close]
  split_ifs with hserves
  · simp [Bridge.serves]
  · exact hserves

theorem serving_closeGone_of_ne {other : String} (hne : other ≠ peerId) :
    (state.closeGone peerId).serving other = state.serving other := by
  rw [closeGone]
  split_ifs
  · rfl
  · rw [serving, serving, List.countP_map]
    congr 1
    funext bridge
    rw [Function.comp_apply, Bridge.close]
    split_ifs with hserves
    · simp only [Bridge.serves, Bool.and_eq_true, beq_iff_eq] at hserves ⊢
      simp [hserves.2, Ne.symm hne]
    · rfl

theorem pending_spawn (state : Bridged) (peerId : String) :
    (state.spawnSessionBridgeFor peerId).pending = state.pending := by
  rw [spawnSessionBridgeFor]
  split_ifs
  · simp [pending]
  · rfl

theorem serving_spawn_of_ne {other : String} (hne : other ≠ peerId) :
    (state.spawnSessionBridgeFor peerId).serving other = state.serving other := by
  rw [spawnSessionBridgeFor]
  split_ifs
  · simp [serving, Bridge.serves, Ne.symm hne]
  · rfl

theorem serving_spawn_of_gone (gone : state.node.sessions.get peerId = none) (other : String) :
    (state.spawnSessionBridgeFor peerId).serving other = state.serving other := by
  rw [spawnSessionBridgeFor, SessionManager.contains, gone, Option.isSome_none,
    if_neg Bool.false_ne_true]

/-! ## Every event is accounted for -/

/-- What has come out on the two streams and what the bridges hold accounts for
what was emitted, but for the events that no bridge was there to receive. -/
structure Accounted (state : Bridged) : Prop where
  forwarded : state.node.events.filter NodeEvent.bridged =
    (state.node.sessionEvents.filter SessionEvent.bridged).map NodeEvent.ofSession
  announced : state.node.events.filter NodeEvent.addsLink =
    (state.emitted.filter fun event => !event.bridged).map NodeEvent.ofSession
  removed : state.emitted.filterMap SessionEvent.removed = state.detached
  flow : ∃ missed : List SessionEvent, (∀ event ∈ missed, event.bridged = false) ∧
    (missed ++ (state.node.sessionEvents ++ state.pending)).Perm state.emitted
  idle : ∀ peerId, state.node.sessions.get peerId = none → state.serving peerId = 0

/-- What happens to a session keeps the account if the bridges receive what it
emits, and the node says what no bridge will say. -/
theorem Accounted.emits (accounted : state.Accounted) (after : Bridged)
    (said : List NodeEvent) (events : List SessionEvent)
    (sessionEvents : after.node.sessionEvents = state.node.sessionEvents)
    (nodeEvents : after.node.events = state.node.events ++ said)
    (emitted : after.emitted = state.emitted ++ events)
    (detached : after.detached = state.detached ++ events.filterMap SessionEvent.removed)
    (unbridged : said.filter NodeEvent.bridged = [])
    (announces : said.filter NodeEvent.addsLink =
      (events.filter fun event => !event.bridged).map NodeEvent.ofSession)
    (received : after.pending.Perm (state.pending ++ events) ∨
      (after.pending.Perm state.pending ∧ ∀ event ∈ events, event.bridged = false))
    (idle : ∀ peerId, after.node.sessions.get peerId = none → after.serving peerId = 0) :
    after.Accounted where
  forwarded := by
    rw [nodeEvents, sessionEvents, List.filter_append, unbridged, List.append_nil]
    exact accounted.forwarded
  announced := by
    rw [nodeEvents, emitted, List.filter_append, List.filter_append, List.map_append,
      accounted.announced, announces]
  removed := by
    rw [emitted, detached, List.filterMap_append, accounted.removed]
  flow := by
    obtain ⟨missed, hmissed, hflow⟩ := accounted.flow
    rw [sessionEvents, emitted]
    rcases received with hreceived | ⟨hkept, hunbridged⟩
    · refine ⟨missed, hmissed, ?_⟩
      apply ((hreceived.append_left _).append_left missed).trans
      rw [← List.append_assoc, ← List.append_assoc, List.append_assoc missed]
      exact hflow.append_right events
    · refine ⟨events ++ missed, ?_, ?_⟩
      · intro event hevent
        exact (List.mem_append.mp hevent).elim (hunbridged event) (hmissed event)
      · rw [List.append_assoc]
        apply (((hkept.append_left _).append_left missed).append_left events).trans
        exact List.perm_append_comm.trans (hflow.append_right events)
  idle := idle

/-! ### Attaching -/

theorem sessionEvents_evict (node : Node) (peerId : String) :
    (node.evict peerId).sessionEvents = node.sessionEvents := by
  rw [Node.evict, Node.markDisconnected]
  dsimp only
  split <;> rfl

/-- No call publishes a session's event but through a bridge. -/
theorem sessionEvents_call (node : Node) (call : NodeCall) :
    (node.call call).sessionEvents = node.sessionEvents := by
  cases call with
  | register peerHs conn name transportId transportCaps mismatchPeerId draw now =>
      rw [Node.call, Node.registerAfterHandshake]
      cases node.checkRoom peerHs mismatchPeerId with
      | error e => rfl
      | ok value =>
          dsimp only
          split_ifs
          · rw [Node.enterPeer]
            split_ifs <;> rfl
          · rfl
  | attachSecondaryLink peerId conn kind draw now =>
      rw [Node.call, Node.attachSecondaryLink]
      split_ifs
      · dsimp only
        split <;> rfl
      · rfl
  | attachConnection peerId conn draw now =>
      rw [Node.call, Node.attachConnection]
      dsimp only
      split <;> rfl
  | disconnectLink peerId linkId =>
      rw [Node.call, Node.disconnectLink]
      split_ifs
      · exact sessionEvents_evict _ peerId
      · rfl
  | disconnectPeer peerId => exact sessionEvents_evict _ peerId

theorem newEvents_self (session : Option Session) : newEvents session session = [] :=
  List.drop_length

theorem newEvents_opened (peerId : String) (link : Link) (freshId : SessionId) :
    newEvents none (some (SessionManager.opened peerId link freshId)) =
      [.linkAdded peerId link.id link.kind] := rfl

theorem newEvents_of_append {session after : Session} {events : List SessionEvent}
    (appends : after.events = session.events ++ events) :
    newEvents (some session) (some after) = events := by
  show after.events.drop session.events.length = events
  rw [appends, List.drop_left]

theorem newEvents_joined (session : Session) (peerId : String) (link : Link) :
    newEvents (some session) (some (SessionManager.joined session peerId link)) =
      [.linkAdded peerId link.id link.kind] := newEvents_of_append rfl

/-- An act that attaches says which link it added, and nothing that a bridge says. -/
theorem published_of_change {act : PeerAct} {view after : PeerView} {said : List NodeEvent}
    (change : PeerChange peerId act view said after) (attaches : act.attaches = true)
    (takes : ∀ session ∈ view.session, act = .attachConnection → session.Takes .mock) :
    (∀ event ∈ newEvents view.session after.session, event.bridged = false) ∧
      (newEvents view.session after.session).filterMap SessionEvent.removed = [] ∧
      said.filter NodeEvent.bridged = [] ∧
      said.filter NodeEvent.addsLink =
        (newEvents view.session after.session).map NodeEvent.ofSession ∧
      (after.session = none → view.session = none) := by
  have hadded : ∀ link : Link, ∀ event ∈ [SessionEvent.linkAdded peerId link.id link.kind],
      event.bridged = false := by
    intro link event hevent
    rw [List.mem_singleton.mp hevent]
    rfl
  cases change with
  | refused _ attaches _ =>
      rw [newEvents_self]
      exact ⟨by simp, rfl, rfl, rfl, id⟩
  | registeredFirst _ unknown link peer freshId =>
      rw [unknown, newEvents_opened]
      exact ⟨hadded link, rfl, rfl, rfl, fun _ => rfl⟩
  | registered _ session known link peer =>
      rw [known, newEvents_joined]
      exact ⟨hadded link, rfl, rfl, rfl, nofun⟩
  | attached _ attaches _ session known link =>
      rw [known, newEvents_joined]
      exact ⟨hadded link, rfl, rfl, rfl, nofun⟩
  | installedFirst _ unknown link freshId =>
      rw [unknown, newEvents_opened]
      exact ⟨hadded link, rfl, rfl, rfl, fun _ => rfl⟩
  | announced _ session known refused linkId => exact absurd (takes session known rfl) refused
  | missed _ linkId absent => cases attaches
  | left _ session known linkId attached others => cases attaches
  | leftLast _ session known linkId attached last => cases attaches
  | dropped _ => cases attaches

/-- What an attach leaves, but for the bridge that it may start. -/
theorem attach_spec (state : Bridged) (call : NodeCall) :
    let events := newEvents (state.node.sessions.get call.peerId)
      ((state.node.call call).sessions.get call.peerId)
    (state.attach call).node = state.node.call call ∧
      (state.attach call).emitted = state.emitted ++ events ∧
      (state.attach call).detached = state.detached ∧
      (state.attach call).pending = (state.broadcast call.peerId events).pending ∧
      ∀ peerId, (peerId = call.peerId →
          (state.node.call call).sessions.get call.peerId = none) →
        (state.attach call).serving peerId = state.serving peerId := by
  rw [attach]
  split_ifs
  · refine ⟨?_, ?_, ?_, pending_spawn _ _, ?_⟩
    · rw [spawnSessionBridgeFor]
      split_ifs <;> rfl
    · rw [spawnSessionBridgeFor]
      split_ifs <;> rfl
    · rw [spawnSessionBridgeFor]
      split_ifs <;> rfl
    · intro peerId hgone
      by_cases hpeer : peerId = call.peerId
      · rw [serving_spawn_of_gone (hgone hpeer)]
        exact serving_broadcast _ _ _ _
      · rw [serving_spawn_of_ne hpeer]
        exact serving_broadcast _ _ _ _
  · exact ⟨rfl, rfl, rfl, rfl, fun peerId _ => serving_broadcast _ _ _ _⟩

theorem Accounted.attach (accounted : state.Accounted) {call : NodeCall}
    (attaches : call.act.attaches = true) (once : state.ServedOnce (.attach call)) :
    (state.attach call).Accounted := by
  obtain ⟨said, hsaid, hchange⟩ := Node.makes_call state.node call
  obtain ⟨hunbridged, hremoved, hsilent, hannounces, hgone⟩ :=
    published_of_change hchange attaches fun session hsession => (once session hsession).2
  obtain ⟨hnode, hemitted, hdetached, hpending, hserving⟩ := attach_spec state call
  apply accounted.emits (state.attach call) said (newEvents (state.node.sessions.get call.peerId)
    ((state.node.call call).sessions.get call.peerId)) _ _ hemitted _ hsilent
  · rw [hannounces, List.filter_eq_self.mpr]
    · rfl
    · intro event hevent
      rw [hunbridged event hevent]
      rfl
  · rw [hpending]
    cases hsession : state.node.sessions.get call.peerId with
    | none =>
        refine .inr ⟨pending_broadcast_of_none (accounted.idle call.peerId hsession), ?_⟩
        rw [← hsession]
        exact hunbridged
    | some session => exact .inl (pending_broadcast_of_one (once session hsession).1)
  · intro peerId hnone
    rw [hnode] at hnone
    rw [hserving peerId fun hpeer => hpeer ▸ hnone]
    apply accounted.idle
    by_cases hpeer : peerId = call.peerId
    · rw [hpeer] at hnone ⊢
      exact hgone hnone
    · rw [← hnone]
      exact (congrArg PeerView.session (Node.view_call_of_ne hpeer)).symm
  · rw [hnode]
    exact sessionEvents_call state.node call
  · rw [hnode]
    exact hsaid
  · rw [hdetached]
    have hremoved : (newEvents (state.node.sessions.get call.peerId)
        ((state.node.call call).sessions.get call.peerId)).filterMap SessionEvent.removed = [] :=
      hremoved
    rw [hremoved, List.append_nil]

/-! ### Detaching -/

/-- A broadcast of nothing. -/
theorem pending_broadcast_nil (state : Bridged) (peerId : String) :
    (state.broadcast peerId []).pending.Perm state.pending := by
  have hpending := pending_broadcast state peerId []
  rwa [List.flatten_replicate_nil, List.append_nil] at hpending

/-- What a detach leaves, whatever it does to the node. -/
theorem detach_spec (state : Bridged) (peerId linkId : String) (node : Node) :
    let events := state.node.sessions.detachEvents peerId linkId
    let after := state.detach peerId linkId node
    after.node = node ∧ after.emitted = state.emitted ++ events ∧
      after.detached = state.detached ++ events.filterMap SessionEvent.removed ∧
      after.pending = (state.broadcast peerId events).pending ∧
      (∀ other ≠ peerId, after.serving other = state.serving other) ∧
      (node.sessions.get peerId = none → after.serving peerId = 0) := by
  refine ⟨?_, ?_, ?_, pending_closeGone _ _, ?_, ?_⟩
  · rw [detach, closeGone]
    split_ifs <;> rfl
  · rw [detach, closeGone]
    split_ifs <;> rfl
  · rw [detach, closeGone]
    split_ifs <;> rfl
  · intro other hne
    rw [detach, serving_closeGone_of_ne hne]
    exact serving_broadcast _ _ _ _
  · intro hgone
    exact serving_closeGone_self hgone

/-- A detach emits that it removed the link, or does nothing. -/
theorem detachEvents_cases (manager : SessionManager) (peerId linkId : String) :
    manager.detachEvents peerId linkId = [] ∨
      ∃ session ∈ manager.get peerId, linkId ∈ session.links.map Link.id ∧
        manager.detachEvents peerId linkId = [.linkRemoved peerId linkId "detach"] := by
  cases hsession : manager.get peerId with
  | none =>
      left
      simp only [SessionManager.detachEvents, hsession]
  | some session =>
      simp only [SessionManager.detachEvents, hsession]
      split_ifs with hattached
      · exact .inr ⟨session, rfl, hattached, rfl⟩
      · exact .inl rfl

/-- A link that is lost keeps the account. -/
theorem Accounted.loseLink (accounted : state.Accounted) {peerId linkId : String}
    (once : state.ServedOnce (.loseLink peerId linkId)) :
    (state.detach peerId linkId (state.node.loseLink peerId linkId)).Accounted := by
  obtain ⟨hnode, hemitted, hdetached, hpending, hothers, hself⟩ :=
    detach_spec state peerId linkId (state.node.loseLink peerId linkId)
  have hsessions : (state.node.loseLink peerId linkId).sessions =
      (state.node.sessions.detachLink peerId linkId).2 := Node.sessions_evict _ peerId
  have hunbridged : (state.node.sessions.detachEvents peerId linkId).filter
      (fun event => !event.bridged) = [] := by
    rcases detachEvents_cases state.node.sessions peerId linkId with
      hnone | ⟨session, _, _, hevents⟩
    · rw [hnone]
      rfl
    · rw [hevents]
      rfl
  apply accounted.emits _ [.peerDisconnected peerId] _ _ _ hemitted hdetached rfl
  · rw [hunbridged]
    rfl
  · rw [hpending]
    rcases detachEvents_cases state.node.sessions peerId linkId with
      hnone | ⟨session, hknown, hattached, _⟩
    · rw [hnone]
      exact .inr ⟨pending_broadcast_nil state peerId, by simp⟩
    · exact .inl (pending_broadcast_of_one (once session hknown hattached))
  · intro other hnone
    by_cases hpeer : other = peerId
    · rw [hpeer, hnode] at hnone
      rw [hpeer]
      exact hself hnone
    · rw [hnode, hsessions, SessionManager.get_detachLink_of_ne hpeer] at hnone
      rw [hothers other hpeer]
      exact accounted.idle other hnone
  · rw [hnode]
    exact sessionEvents_evict _ peerId
  · rw [hnode]
    exact Node.events_evict peerId

/-! ### Promoting -/

/-- A promotion emits that the active link was switched, if there is another to switch to. -/
theorem newEvents_promote_eq (manager : SessionManager) (peerId failingId : String)
    (now : Instant) :
    newEvents (manager.get peerId) ((manager.promote peerId failingId now).get peerId) =
      (manager.get peerId).elim [] fun session =>
        (session.bestExcluding failingId now).toList.map fun target =>
          .switched session.peerId (session.active.getD "") target .activeFailed := by
  rw [SessionManager.promote, SessionManager.get_update_self]
  cases manager.get peerId with
  | none => rfl
  | some session =>
      dsimp only [Option.map_some, Option.elim_some]
      cases hbest : session.bestExcluding failingId now with
      | none =>
          have hsame : (session.promoteOnFailure failingId now).2 = session := by
            simp only [Session.promoteOnFailure, hbest]
          rw [hsame, newEvents_self]
          rfl
      | some target =>
          apply newEvents_of_append
          simp only [Session.promoteOnFailure, hbest]
          rfl

/-- What a promotion emits on the session's channel, where one bridge serves it. -/
theorem newEvents_promote (once : state.ServedOnce (.promote peerId failingId now)) :
    newEvents (state.node.sessions.get peerId)
        ((state.node.sessions.promote peerId failingId now).get peerId) = [] ∨
      state.serving peerId = 1 ∧ ∃ owner source target,
        newEvents (state.node.sessions.get peerId)
          ((state.node.sessions.promote peerId failingId now).get peerId) =
            [.switched owner source target .activeFailed] := by
  rw [newEvents_promote_eq]
  cases hsession : state.node.sessions.get peerId with
  | none => exact .inl rfl
  | some session =>
      dsimp only [Option.elim_some]
      cases hbest : session.bestExcluding failingId now with
      | none => exact .inl rfl
      | some target =>
          exact .inr ⟨once session hsession (hbest ▸ rfl), session.peerId, _, target, rfl⟩

theorem Accounted.promote (accounted : state.Accounted)
    (once : state.ServedOnce (.promote peerId failingId now)) :
    (state.promote peerId failingId now).Accounted := by
  have hevents := newEvents_promote once
  refine accounted.emits (state.promote peerId failingId now) [] (newEvents
    (state.node.sessions.get peerId)
    ((state.node.sessions.promote peerId failingId now).get peerId)) rfl
    (List.append_nil _).symm rfl ?_ rfl ?_ ?_ ?_
  · rcases hevents with hnone | ⟨_, owner, source, target, hone⟩
    · rw [hnone]
      exact (List.append_nil _).symm
    · rw [hone]
      exact (List.append_nil _).symm
  · rcases hevents with hnone | ⟨_, owner, source, target, hone⟩
    · rw [hnone]
      rfl
    · rw [hone]
      rfl
  · rcases hevents with hnone | ⟨hserving, _⟩
    · rw [Bridged.promote, hnone]
      exact .inr ⟨pending_broadcast_nil _ peerId, by simp⟩
    · exact .inl (pending_broadcast_of_one hserving)
  · intro other hnone
    rw [Bridged.promote, serving_broadcast]
    apply accounted.idle
    have hnone : (state.node.sessions.promote peerId failingId now).get other = none := hnone
    by_cases hpeer : other = peerId
    · rw [hpeer, SessionManager.promote, SessionManager.get_update_self] at hnone
      rw [hpeer]
      exact Option.map_eq_none_iff.mp hnone
    · rwa [SessionManager.promote, SessionManager.get_update_of_ne hpeer] at hnone

/-! ### Forwarding -/

@[simp]
theorem bridged_ofSession (event : SessionEvent) :
    (NodeEvent.ofSession event).bridged = event.bridged := by
  cases event <;> rfl

/-- A bridge publishes the first event that it holds. -/
theorem Accounted.republish (accounted : state.Accounted) {index : Nat} {bridge : Bridge}
    {event : SessionEvent} {rest : List SessionEvent}
    (hbridge : state.bridges[index]? = some bridge) (hqueue : bridge.queue = event :: rest) :
    Accounted { state with
      node := state.node.republish event
      bridges := state.bridges.set index { bridge with queue := rest } } := by
  have hsessionEvents : (state.node.republish event).sessionEvents =
      state.node.sessionEvents ++ [event] := by
    rw [Node.republish]
    split_ifs <;> rfl
  have hevents : (state.node.republish event).events =
      state.node.events ++ if event.bridged then [.ofSession event] else [] := by
    rw [Node.republish]
    split_ifs
    · rfl
    · exact (List.append_nil _).symm
  have hsessions : (state.node.republish event).sessions = state.node.sessions := by
    rw [Node.republish]
    split_ifs <;> rfl
  constructor
  · show (state.node.republish event).events.filter _ =
      ((state.node.republish event).sessionEvents.filter _).map _
    rw [hevents, hsessionEvents, List.filter_append, List.filter_append, List.map_append,
      accounted.forwarded]
    cases hbridged : event.bridged <;> simp [hbridged]
  · show (state.node.republish event).events.filter _ = _
    rw [hevents, List.filter_append, accounted.announced]
    cases event with
    | linkAdded owner linkId kind => exact List.append_nil _
    | linkRemoved owner linkId reason => exact List.append_nil _
    | switched owner source target cause => exact List.append_nil _
  · exact accounted.removed
  · obtain ⟨missed, hmissed, hflow⟩ := accounted.flow
    refine ⟨missed, hmissed, ?_⟩
    apply List.Perm.trans _ hflow
    apply List.Perm.append_left
    show ((state.node.republish event).sessionEvents ++ _).Perm _
    rw [hsessionEvents, List.append_assoc]
    apply List.Perm.append_left
    have hset := Entries.flatMap_set_perm Bridge.queue hbridge { bridge with queue := rest }
    rw [hqueue, List.cons_append] at hset
    exact (List.perm_append_left_iff rest).mp (List.perm_middle.trans hset)
  · intro peerId hnone
    have hnone : (state.node.republish event).sessions.get peerId = none := hnone
    rw [hsessions] at hnone
    have hserving : (state.bridges.set index { bridge with queue := rest }).countP
        (fun bridge => bridge.serves peerId) = state.serving peerId :=
      Entries.countP_set_of_eq _ hbridge rfl
    exact hserving.trans (accounted.idle peerId hnone)

theorem Accounted.forward (accounted : state.Accounted) {index : Nat} {after : Bridged}
    (once : state.ServedOnce (.forward index)) (taken : state.forward index = some after) :
    after.Accounted := by
  rw [Bridged.forward] at taken
  cases hbridge : state.bridges[index]? with
  | none =>
      rw [hbridge] at taken
      cases taken
  | some bridge =>
      rw [hbridge] at taken
      dsimp only at taken
      rw [if_neg (Nat.not_lt_of_le (once bridge hbridge))] at taken
      cases hqueue : bridge.queue with
      | nil =>
          rw [hqueue] at taken
          cases taken
      | cons event rest =>
          rw [hqueue] at taken
          cases taken
          exact accounted.republish hbridge hqueue

/-! ## Runs -/

theorem Accounted.perform (accounted : state.Accounted) {op : BridgeOp} {after : Bridged}
    (once : state.ServedOnce op) (taken : state.perform op = some after) : after.Accounted := by
  cases op with
  | attach call =>
      rw [Bridged.perform] at taken
      split_ifs at taken with hattaches
      cases taken
      exact accounted.attach hattaches once
  | disconnectLink peerId linkId => exact once.elim
  | loseLink peerId linkId =>
      cases taken
      exact accounted.loseLink once
  | promote peerId failingId now =>
      cases taken
      exact accounted.promote once
  | forward index => exact accounted.forward once taken

end Bridged

end Mlink.Core
