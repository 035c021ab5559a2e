/-
# What a client knows of its rooms

A client learns who is there from the frames `room_state`: one when it joins or leaves a
room, and one for each of its rooms when its session reads that a peer has come or gone.
The peers are listed when the frame is written, not when the event is sent. So a list may
be newer than the event that it is written for, and the last one a client has got is out of
date only if the session has yet to read of it or has fallen behind.
-/

import Mlink.Daemon.SessionLoop

namespace Mlink.Daemon

open Mlink.Core Mlink.Protocol

variable {Value : Type}

/-- The last of the views that is about a room. -/
def lastView (views : List RoomView) (room : String) : Option RoomView :=
  (views.filter (·.room = room)).getLast?

/-- More views: one of them is the last about a room, or none is about it. -/
theorem lastView_append (views more : List RoomView) (room : String) :
    (∃ view ∈ more, view.room = room ∧ lastView (views ++ more) room = some view) ∨
      (∀ view ∈ more, view.room ≠ room) ∧
        lastView (views ++ more) room = lastView views room := by
  rw [lastView, List.filter_append, List.getLast?_append]
  cases hlast : (more.filter (·.room = room)).getLast? with
  | some view =>
      left
      obtain ⟨hmore, hroom⟩ := List.mem_filter.mp (List.mem_of_getLast? hlast)
      exact ⟨view, hmore, of_decide_eq_true hroom, rfl⟩
  | none =>
      right
      refine ⟨fun view hview hroom => ?_, rfl⟩
      exact List.filter_eq_nil_iff.mp (List.getLast?_eq_none_iff.mp hlast) view hview
        (decide_eq_true hroom)

/-- What the sessions hear of: every list of peers since the node last said that one came or
went, the events that are still to be relayed, and those that have been. -/
structure Feed where
  since : List (List PeerInfo)
  coming : List NodeEvent
  events : List NodeEvent

def WsDaemon.feed (daemon : WsDaemon Value) : Feed :=
  ⟨daemon.since, daemon.node.events.drop daemon.bridge, daemon.events⟩

namespace WsConn

variable (feed : Feed) (conn : WsConn Value)

/-- What the client has been told. -/
def views : List RoomView := conn.written.filterMap fun (_, frame) => frame.view

/-- That a peer has come or gone is still on its way to the session, or it has missed it. -/
def Awaits : Prop :=
  feed.coming.any isPeerEvent = true ∨
    (Broadcast.unread feed.events conn.place).any isPeerEvent = true ∨ conn.missed = true

/-- What the client knows: which rooms it is in, and for each of them a list of peers that
still counts, unless something is still to come or was missed. -/
structure Knows : Prop where
  joined : ∀ room view, lastView conn.views room = some view →
    (view.joined = true ↔ room ∈ conn.subs)
  told : ∀ room ∈ conn.subs, ∃ view, lastView conn.views room = some view ∧
    (view.peers ∈ feed.since ∨ conn.Awaits feed)

/-- The same, with what a step needs to find. -/
structure Informed : Prop extends conn.Knows feed where
  place : conn.place ≤ feed.events.length
  silent : ∀ frame ∈ conn.channel, frame.view = none

variable {feed} {conn} {after : WsConn Value} {later : Feed} {more : List RoomView}

/-- The client is told more, truthfully; of the other rooms it knows what it knew. -/
theorem Informed.tell (informed : conn.Informed feed) (hviews : after.views = conn.views ++ more)
    (hjoined : ∀ view ∈ more, (view.joined = true ↔ view.room ∈ after.subs))
    (hpeers : ∀ view ∈ more, view.peers ∈ feed.since)
    (hsubs : ∀ room, (∀ view ∈ more, view.room ≠ room) → (room ∈ after.subs ↔ room ∈ conn.subs))
    (hawaits : ∀ room ∈ after.subs, (∀ view ∈ more, view.room ≠ room) → conn.Awaits feed →
      after.Awaits feed)
    (place : after.place ≤ feed.events.length)
    (silent : ∀ frame ∈ after.channel, frame.view = none) : after.Informed feed := by
  refine ⟨⟨fun room view hlast => ?_, fun room hroom => ?_⟩, place, silent⟩
  · rw [hviews] at hlast
    rcases lastView_append conn.views more room with ⟨newest, hmore, rfl, hnewest⟩ | ⟨hnone, hold⟩
    · rw [hnewest] at hlast
      cases hlast
      exact hjoined view hmore
    · rw [hold] at hlast
      exact (informed.joined room view hlast).trans (hsubs room hnone).symm
  · rw [hviews]
    rcases lastView_append conn.views more room with ⟨newest, hmore, rfl, hnewest⟩ | ⟨hnone, hold⟩
    · exact ⟨newest, hnewest, .inl (hpeers newest hmore)⟩
    · obtain ⟨view, hlast, hwhy⟩ := informed.told room ((hsubs room hnone).mp hroom)
      exact ⟨view, hold.trans hlast, hwhy.imp_right (hawaits room hroom hnone)⟩

/-- Nothing is written, and what the lists are worth changes for every room alike. -/
theorem Informed.hear (informed : conn.Informed feed)
    (hviews : after.views = conn.views) (hsubs : after.subs = conn.subs)
    (hkept : (∀ peers ∈ feed.since, peers ∈ later.since) ∨ after.Awaits later)
    (hawaits : conn.Awaits feed → after.Awaits later)
    (place : after.place ≤ later.events.length)
    (silent : ∀ frame ∈ after.channel, frame.view = none) : after.Informed later := by
  refine ⟨⟨fun room view hlast => ?_, fun room hroom => ?_⟩, place, silent⟩
  · rw [hsubs]
    exact informed.joined room view (hviews ▸ hlast)
  · obtain ⟨view, hlast, hwhy⟩ := informed.told room (hsubs ▸ hroom)
    refine ⟨view, hviews ▸ hlast, ?_⟩
    rcases hwhy with hpeers | hstill
    · exact hkept.imp_left fun hkept => hkept _ hpeers
    · exact .inr (hawaits hstill)

theorem views_append {arm : SessionArm} {sent : List (SessionFrame Value)}
    (hwritten : after.written = conn.written ++ sent.map (arm, ·)) :
    after.views = conn.views ++ sent.filterMap SessionFrame.view := by
  rw [views, hwritten, List.filterMap_append, List.filterMap_map]
  rfl

/-- Frames that tell of no room are written, or fail to be. -/
theorem Informed.sendAll (informed : conn.Informed feed) (arm : SessionArm)
    {frames : List (SessionFrame Value)} (silent : frames.filterMap SessionFrame.view = []) :
    (conn.sendAll arm frames).2.Informed feed := by
  obtain ⟨sent, left, hsent, hafter, _⟩ := sendAll_cases arm frames conn
  have hsilent : sent.filterMap SessionFrame.view = [] :=
    List.prefix_nil.mp (silent ▸ hsent.filterMap _)
  have hviews := views_append (congrArg written hafter)
  rw [hsilent, List.append_nil] at hviews
  rw [hafter] at hviews ⊢
  exact informed.hear hviews rfl (.inl fun _ hpeers => hpeers) (fun hawaits => hawaits)
    informed.place informed.silent

theorem Informed.trySend (informed : conn.Informed feed) {frame : SessionFrame Value}
    (silent : frame.view = none) : (conn.trySend frame).Informed feed := by
  rw [WsConn.trySend]
  split_ifs
  · refine informed.hear rfl rfl (.inl fun _ hpeers => hpeers) (fun hawaits => hawaits)
      informed.place ?_
    intro other hother
    rcases List.mem_append.mp hother with hold | hnew
    · exact informed.silent other hold
    · exact List.mem_singleton.mp hnew ▸ silent
  · exact informed

/-- A handler is done, and has told of the room that it touched. -/
theorem Informed.touch (informed : conn.Informed feed) {peers : List PeerInfo}
    {change : Finset String → Finset String} (touches : Touches peers change more)
    (hpeers : peers ∈ feed.since) (hviews : after.views = conn.views ++ more)
    (hsubs : after.subs = change conn.subs) (hawaits : conn.Awaits feed → after.Awaits feed)
    (place : after.place ≤ feed.events.length)
    (silent : ∀ frame ∈ after.channel, frame.view = none) : after.Informed feed := by
  cases touches with
  | nothing =>
      refine informed.hear ?_ hsubs (.inl fun _ hpeers => hpeers) hawaits place silent
      rw [hviews, List.append_nil]
  | join room =>
      refine informed.tell hviews ?_ ?_ ?_ (fun _ _ _ => hawaits) place silent
      · intro view hview
        rw [List.mem_singleton.mp hview, hsubs]
        exact iff_of_true rfl (Finset.mem_insert_self room _)
      · intro view hview
        exact List.mem_singleton.mp hview ▸ hpeers
      · intro other hother
        have hne := hother _ (List.mem_singleton.mpr rfl)
        rw [hsubs]
        exact Finset.mem_insert.trans (or_iff_right (Ne.symm hne))
  | leave room =>
      refine informed.tell hviews ?_ ?_ ?_ (fun _ _ _ => hawaits) place silent
      · intro view hview
        rw [List.mem_singleton.mp hview, hsubs]
        exact iff_of_false Bool.false_ne_true (Finset.notMem_erase room _)
      · intro view hview
        exact List.mem_singleton.mp hview ▸ hpeers
      · intro other hother
        have hne := hother _ (List.mem_singleton.mpr rfl)
        rw [hsubs]
        exact Finset.mem_erase.trans (and_iff_right (Ne.symm hne))

end WsConn

/-- A reading that returns a value has skipped nothing. -/
theorem skipped_of_value {α : Type} {capacity place : Nat} {log : List α} {value : α}
    (hvalue : (Broadcast.recv capacity log place).value = some value) :
    (Broadcast.recv capacity log place).skipped = [] := by
  by_cases hlagging : capacity < log.length - place
  · rw [Broadcast.recv, if_pos hlagging] at hvalue
    cases hvalue
  · rw [Broadcast.recv, if_neg hlagging]
    split <;> rfl

namespace WsDaemon

variable {daemon : WsDaemon Value} {conn : WsConn Value} {index : Nat}

/-- The rooms that are told of after an event. -/
theorem view_eventFrames (daemon : WsDaemon Value) (event : NodeEvent) (order : List String) :
    (daemon.eventFrames event order).filterMap SessionFrame.view =
      if isPeerEvent event then order.map fun room => ⟨room, peerInfos daemon.node, true⟩
      else [] := by
  have hlink : (linkFrame event : List (SessionFrame Value)).filterMap SessionFrame.view = [] := by
    cases event <;> rfl
  rw [eventFrames, List.filterMap_append, hlink, List.nil_append]
  split_ifs
  · rw [List.filterMap_map]
    exact congrFun List.filterMap_eq_map' order
  · rfl

structure Informing (daemon : WsDaemon Value) : Prop where
  conns : ∀ conn ∈ daemon.conns, conn.Informed daemon.feed
  bridge : daemon.bridge ≤ daemon.node.events.length
  now : peerInfos daemon.node ∈ daemon.since

namespace Informing

variable (informing : daemon.Informing)

include informing

/-- The node goes on: a peer event is on its way, or the lists so far still count. -/
theorem setNode {node : Node} (hevents : daemon.node.events <+: node.events) :
    (daemon.setNode node).Informing := by
  obtain ⟨fresh, hfresh⟩ := hevents
  have hdrop : node.events.drop daemon.node.events.length = fresh := by
    rw [← hfresh, List.drop_left]
  have hcoming : node.events.drop daemon.bridge =
      daemon.node.events.drop daemon.bridge ++ fresh := by
    rw [← hfresh, List.drop_append_of_le_length informing.bridge]
  have hsince : (daemon.setNode node).since =
      if fresh.any isPeerEvent then [peerInfos node] else daemon.since ++ [peerInfos node] := by
    rw [WsDaemon.setNode, hdrop]
  have hany : (daemon.setNode node).feed.coming.any isPeerEvent =
      (daemon.feed.coming.any isPeerEvent || fresh.any isPeerEvent) := by
    rw [← List.any_append]
    exact congrArg (List.any · isPeerEvent) hcoming
  refine ⟨fun conn hconn => ?_, ?_, ?_⟩
  · have informed := informing.conns conn hconn
    refine informed.hear rfl rfl ?_ ?_ informed.place informed.silent
    · by_cases hnew : fresh.any isPeerEvent = true
      · right
        left
        rw [hany, hnew, Bool.or_true]
      · left
        intro peers hpeers
        show peers ∈ (daemon.setNode node).since
        rw [hsince, if_neg hnew]
        exact List.mem_append_left _ hpeers
    · rintro (hcoming | hrest)
      · left
        rw [hany, hcoming, Bool.true_or]
      · exact .inr hrest
  · show daemon.bridge ≤ node.events.length
    rw [← hfresh, List.length_append]
    exact informing.bridge.trans (Nat.le_add_right _ _)
  · rw [hsince]
    split_ifs
    · exact List.mem_singleton.mpr rfl
    · exact List.mem_append_right _ (List.mem_singleton.mpr rfl)

theorem setConn (informed : conn.Informed daemon.feed) : (daemon.setConn index conn).Informing where
  conns := fun other hother => (List.mem_or_eq_of_mem_set hother).elim (informing.conns other)
    fun hsame => hsame ▸ informed
  bridge := informing.bridge
  now := informing.now

theorem finish : (daemon.finish index conn).Informing where
  conns := fun other hother => informing.conns other (List.mem_of_mem_eraseIdx hother)
  bridge := informing.bridge
  now := informing.now

theorem goOn {result : Bool × WsConn Value}
    (informed : result.1 = true → result.2.Informed daemon.feed) :
    (daemon.goOn index result).Informing := by
  obtain ⟨written, after⟩ := result
  cases written with
  | true => exact informing.setConn (informed rfl)
  | false => exact informing.finish

/-- The bridge takes an event from the node and hands it on, or misses some. -/
theorem relay : daemon.relay.Informing := by
  have hread := congrArg (List.any · isPeerEvent)
    (Broadcast.recv_unread NODE_CHANNEL_CAPACITY daemon.node.events daemon.bridge)
  simp only [List.any_append] at hread
  refine ⟨?_, Broadcast.recv_place_le informing.bridge, informing.now⟩
  by_cases hmissed : (Broadcast.recv NODE_CHANNEL_CAPACITY daemon.node.events
    daemon.bridge).skipped.any isPeerEvent = true
  · intro conn hconn
    have hconns : daemon.relay.conns = daemon.conns.map fun conn => { conn with missed := true } :=
      if_pos hmissed
    rw [hconns] at hconn
    obtain ⟨before, hbefore, rfl⟩ := List.mem_map.mp hconn
    have informed := informing.conns before hbefore
    refine informed.hear rfl rfl (.inr (.inr (.inr rfl))) (fun _ => .inr (.inr rfl)) ?_
      informed.silent
    exact informed.place.trans (List.prefix_append _ _).length_le
  · intro conn hconn
    have hconns : daemon.relay.conns = daemon.conns := if_neg hmissed
    have informed := informing.conns conn (hconns ▸ hconn)
    refine informed.hear rfl rfl (.inl fun _ hpeers => hpeers) ?_ ?_ informed.silent
    · have hunread : (Broadcast.unread daemon.relay.feed.events conn.place).any isPeerEvent =
          ((Broadcast.unread daemon.feed.events conn.place).any isPeerEvent ||
            (Broadcast.recv NODE_CHANNEL_CAPACITY daemon.node.events
              daemon.bridge).value.toList.any isPeerEvent) := by
        rw [← List.any_append]
        exact congrArg (List.any · isPeerEvent) (Broadcast.unread_append informed.place _)
      rintro (hcoming | hold | hpassed)
      · rw [Bool.eq_false_of_not_eq_true hmissed, Bool.false_or] at hread
        rcases Bool.or_eq_true_iff.mp (hread.trans hcoming) with hvalue | hlater
        · right
          left
          rw [hunread, hvalue, Bool.or_true]
        · exact .inl hlater
      · right
        left
        rw [hunread, hold, Bool.true_or]
      · exact .inr (.inr hpassed)
    · exact informed.place.trans (List.prefix_append _ _).length_le

theorem connect (left : Option Nat) : (daemon.connect left).Informing := by
  simp only [WsDaemon.connect]
  split_ifs with hgreeted
  · refine ⟨fun conn hconn => ?_, informing.bridge, informing.now⟩
    rcases List.mem_append.mp hconn with hold | hnew
    · exact informing.conns conn hold
    · rw [List.mem_singleton.mp hnew]
      rcases (WsConn.new daemon.events.length left : WsConn Value).send_cases .greeting
        (.ws (.ready none daemon.node.appUuid DAEMON_VERSION)) with ⟨_, hsent⟩ | hsent
      · rw [hsent]
        refine ⟨⟨fun _ _ hlast => ?_, fun _ hroom => absurd hroom (Finset.notMem_empty _)⟩, le_rfl,
          fun _ hframe => absurd hframe List.not_mem_nil⟩
        cases hlast
      · rw [hsent] at hgreeted
        cases hgreeted
  · exact informing

/-- Something is done to every session. -/
theorem map {after : WsDaemon Value} {use : WsConn Value → WsConn Value}
    (hconns : after.conns = daemon.conns.map use) (hfeed : after.feed = daemon.feed)
    (hnode : after.node = daemon.node) (hbridge : after.bridge = daemon.bridge)
    (uses : ∀ conn, conn.Informed daemon.feed → (use conn).Informed daemon.feed) :
    after.Informing where
  conns := fun other hother => by
    rw [hconns] at hother
    obtain ⟨before, hbefore, rfl⟩ := List.mem_map.mp hother
    rw [hfeed]
    exact uses before (informing.conns before hbefore)
  bridge := hnode ▸ hbridge ▸ informing.bridge
  now := by
    show peerInfos after.node ∈ after.feed.since
    rw [hnode, hfeed]
    exact informing.now

theorem absorb {state : SharedState Value} (hevents : daemon.node.events <+: state.node.events) :
    (daemon.absorb state).Informing :=
  let informing := informing.setNode hevents
  ⟨informing.conns, informing.bridge, informing.now⟩

theorem fan (entry : MessageEntry Value) : (daemon.fan entry).Informing :=
  informing.map rfl rfl rfl rfl fun conn informed => by
    split_ifs
    · exact informed.trySend rfl
    · exact informed

theorem push (notice : PrimaryChanged) : (daemon.push notice).Informing :=
  informing.map rfl rfl rfl rfl fun _ informed => informed.trySend rfl

theorem receive (hconn : daemon.conns[index]? = some conn) {parsers : Parsers Value}
    {primitives : Primitives} {roomHash : String → RoomHash} (message : ClientMessage)
    (io : HandlerIo) :
    (daemon.receive parsers primitives roomHash index conn message io).Informing := by
  have hmem := List.mem_of_getElem? hconn
  have informed := informing.conns conn hmem
  have hrefused : ∀ code reason, (WsConn.send { conn with taken := conn.taken ++ [message] }
      .client (refusal code reason)).2.Informed daemon.feed := by
    intro code reason
    rw [WsConn.send_eq_sendAll]
    refine WsConn.Informed.sendAll ?_ .client rfl
    exact { informed with }
  cases message with
  | text content =>
      rw [WsDaemon.receive]
      dsimp only
      split_ifs with hlong
      · exact informing.setConn (hrefused _ _)
      · have handles := handles_handleText parsers primitives roomHash daemon.shared io index hlong
        have informing' := informing.absorb handles.events
        obtain ⟨change, touches, hsessions⟩ := handles.touches
        have hsubs : ((handleText parsers primitives roomHash daemon.shared io index
            content).state.sessions[index]?).getD ∅ = change conn.subs := by
          have hshared : daemon.shared.sessions[index]? = some conn.subs := by
            rw [shared, List.getElem?_map, hconn, Option.map_some]
          rw [hsessions, List.getElem?_modify_eq, hshared]
          rfl
        apply informing'.goOn
        intro hdone
        obtain ⟨sent, left, _, hafter, hall⟩ := WsConn.sendAll_cases .client
          ((handleText parsers primitives roomHash daemon.shared io index content).frames.map
            .ws) _
        have hviews := WsConn.views_append (congrArg WsConn.written hafter)
        rw [hall hdone, List.filterMap_map] at hviews
        refine (informing'.conns conn hmem).touch touches informing'.now hviews
          ((congrArg WsConn.subs hafter).trans hsubs) ?_ ?_ ?_
        · rw [hafter]
          exact fun hawaits => hawaits
        · rw [hafter]
          exact informed.place
        · rw [hafter]
          exact informed.silent
  | binary length => exact informing.goOn fun _ => hrefused _ _
  | control => exact informing.setConn { informed with }
  | close | failure | endOfStream => exact informing.finish

theorem route (hconn : conn ∈ daemon.conns) : (daemon.route index conn).Informing := by
  have informed := informing.conns conn hconn
  rw [WsDaemon.route]
  split
  · exact informing
  · rename_i frame rest hchannel
    have hsilent := informed.silent
    rw [hchannel] at hsilent
    obtain ⟨hframe, hrest⟩ := List.forall_mem_cons.mp hsilent
    apply informing.goOn
    intro _
    rw [WsConn.send_eq_sendAll]
    refine WsConn.Informed.sendAll ?_ .routed (List.filterMap_cons_none hframe)
    exact { informed with silent := hrest }

theorem read (hconn : conn ∈ daemon.conns) {order : List String}
    (horder : order.toFinset = conn.subs) : (daemon.read index conn order).Informing := by
  have informed := informing.conns conn hconn
  have hread := congrArg (List.any · isPeerEvent)
    (Broadcast.recv_unread EVENT_CHANNEL_CAPACITY daemon.events conn.place)
  simp only [List.any_append] at hread
  have hplace : (Broadcast.recv EVENT_CHANNEL_CAPACITY daemon.events conn.place).place ≤
    daemon.events.length := Broadcast.recv_place_le informed.place
  rw [WsDaemon.read]
  dsimp only
  split
  · rename_i event hevent
    apply informing.goOn
    intro hdone
    obtain ⟨sent, left, _, hafter, hall⟩ := WsConn.sendAll_cases .event
      (daemon.eventFrames event order) _
    have hviews := WsConn.views_append (congrArg WsConn.written hafter)
    rw [hall hdone, view_eventFrames] at hviews
    have hsubs := congrArg WsConn.subs hafter
    refine informed.tell hviews ?_ ?_ ?_ ?_ ?_ ?_
    · intro view hview
      split_ifs at hview
      · obtain ⟨room, hroom, rfl⟩ := List.mem_map.mp hview
        rw [hsubs]
        exact iff_of_true rfl (horder ▸ List.mem_toFinset.mpr hroom)
      · cases hview
    · intro view hview
      split_ifs at hview
      · obtain ⟨room, _, rfl⟩ := List.mem_map.mp hview
        exact informing.now
      · cases hview
    · intro room _
      rw [hsubs]
    · intro room hroom hnone hawaits
      have hother : isPeerEvent event = false := Bool.eq_false_of_not_eq_true fun hpeer => by
        rw [if_pos hpeer] at hnone
        rw [hsubs, ← horder] at hroom
        exact hnone _ (List.mem_map.mpr ⟨room, List.mem_toFinset.mp hroom, rfl⟩) rfl
      rw [hafter]
      rcases hawaits with hcoming | hunread | hmissed
      · exact .inl hcoming
      · rw [skipped_of_value hevent, hevent] at hread
        have hlater := hread.trans hunread
        simp only [List.any_nil, Option.toList_some, List.any_cons, hother, Bool.false_or]
          at hlater
        exact .inr (.inl hlater)
      · right
        right
        show (conn.missed && !isPeerEvent event) = true
        rw [hmissed, hother]
        rfl
    · rw [hafter]
      exact hplace
    · rw [hafter]
      exact informed.silent
  · rename_i hnone
    apply informing.setConn
    refine informed.hear rfl rfl (.inl fun _ hpeers => hpeers) ?_ hplace informed.silent
    rintro (hcoming | hunread | hmissed)
    · exact .inl hcoming
    · rw [hnone] at hread
      rcases Bool.or_eq_true_iff.mp (hread.trans hunread) with hskipped | hlater
      · right
        right
        exact Bool.or_eq_true_iff.mpr (.inr hskipped)
      · exact .inr (.inl hlater)
    · right
      right
      exact Bool.or_eq_true_iff.mpr (.inl hmissed)

theorem step {parsers : Parsers Value} {primitives : Primitives} {roomHash : String → RoomHash}
    (op : WsOp Value) : (daemon.step parsers primitives roomHash op).Informing := by
  cases op with
  | network node =>
      rw [WsDaemon.step]
      split_ifs with hevents
      · exact informing.setNode (List.isPrefixOf_iff_prefix.mp hevents)
      · exact informing
  | relay => exact informing.relay
  | connect left => exact informing.connect left
  | fan entry => exact informing.fan entry
  | push notice => exact informing.push notice
  | receive index message io =>
      rw [WsDaemon.step]
      split
      · exact informing.receive ‹_› message io
      · exact informing
  | route index =>
      rw [WsDaemon.step]
      split
      · exact informing.route (List.mem_of_getElem? ‹_›)
      · exact informing
  | read index order =>
      rw [WsDaemon.step]
      split
      · split_ifs with horder
        · exact informing.read (List.mem_of_getElem? ‹_›) horder.1
        · exact informing
      · exact informing
  | fault index left =>
      rw [WsDaemon.step]
      split
      · rename_i conn hconn
        have informed := informing.conns conn (List.mem_of_getElem? hconn)
        split_ifs
        · exact informing.setConn { informed with }
        · exact informing
      · exact informing
  | shutdown index =>
      rw [WsDaemon.step]
      split
      · exact informing.finish
      · exact informing

end Informing

/-- Every client knows which rooms it is in; and of each of them, unless it is still to be
told or its session has fallen behind, it knows a list of peers no older than the last
event about one. -/
theorem knows_of_reachable {parsers : Parsers Value} {primitives : Primitives}
    {roomHash : String → RoomHash} {node : Node} {rooms : Finset String}
    {transports : TransportControllers}
    (reached : (system parsers primitives roomHash node rooms transports).Reachable daemon) :
    ∀ conn ∈ daemon.conns, conn.Knows daemon.feed := by
  have informing : daemon.Informing := by
    apply reached.invariant Informing
    · intro _ hstart
      rw [hstart]
      exact ⟨nofun, le_rfl, List.mem_singleton.mpr rfl⟩
    · intro _ op _ _ informing hstep
      rw [hstep]
      exact informing.step op
  exact fun conn hconn => (informing.conns conn hconn).toKnows

def joinText : String :=
  "\x7b\"v\":1,\"id\":\"1\",\"type\":\"join\",\"payload\":\x7b\"room\":\"123456\"\x7d\x7d"

/-- What serde makes of that text. -/
def joinParsers : Parsers Unit :=
  { nullParsers with
    envelope := fun text =>
      if text = joinText then .ok ⟨1, some "1", "join", ()⟩
      else .error "expected value at line 1 column 1"
    room := fun _ => .ok "123456" }

def joinedByOne : Node :=
  { Node.new "me" false [] with
    peerManager :=
      (∅ : AList fun _ : String => Peer).insert "other" ⟨"other", "Ann", "other", 0, "tcp"⟩
    events := [.peerConnected "other"] }

/-- A client joins a room, a peer connects, and the client's session reads of it. -/
def joinAndMeet : List (WsOp Unit) :=
  [.connect none, .receive 0 (.text joinText) openIo, .network joinedByOne, .relay,
    .read 0 ["123456"]]

theorem knows_of_reachable_joinAndMeet :
    let met := joinAndMeet.foldl
      (fun daemon op => daemon.step joinParsers .transparent (fun _ => 0) op)
      (start (.new "me" false []) ∅ ⟨true, false⟩)
    ∀ conn ∈ met.conns, conn.Knows met.feed :=
  knows_of_reachable ((Transition.System.Reachable.init rfl).run
    (.of_foldl (fun _ _ => rfl) _ joinAndMeet))

end WsDaemon

end Mlink.Daemon
