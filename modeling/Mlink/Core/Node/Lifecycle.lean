/-
# Attaching and disconnecting

A node keeps its tables by hand: registration, a secondary link, a connection
installed directly, the detach of one link and the end of a whole peer each
change the sessions, the connections, the peers and the events for one peer.
`PeerChange` says what such a call can do to them.
-/

import Mlink.Core.Node.Connect

namespace Mlink.Core

open Mlink.Protocol

namespace TransportKind

/-- The kind as `{:?}` prints it. -/
def debug : TransportKind → String
  | ble => "Ble"
  | tcp => "Tcp"
  | ipc => "Ipc"
  | mock => "Mock"

end TransportKind

namespace Node

variable (node : Node)

/-- Attach a further link to a session that is there. The link becomes known to
the session alone. -/
def attachSecondaryLink (peerId : String) (conn : ConnId) (kind : TransportKind)
    (draw : RegistrationDraw) (now : Instant) : Result String × Node :=
  if node.sessions.contains peerId then
    let linkId := makeLinkId kind peerId draw.linkNonce
    let link := Link.new linkId conn kind (defaultCapsForKind kind) now
    let attached := node.sessions.attachLink peerId link none draw.sessionId
    let node := { node with sessions := attached.2 }
    match attached.1 with
    | .attachedExisting => (.ok linkId, node.emit (.linkAdded peerId linkId kind))
    | .rejectedDuplicateKind =>
        (.error (.handlerError s!"peer {peerId} already has a {kind.debug} link"), node)
    | .rejectedCapacity =>
        (.error (.handlerError s!"peer {peerId} reached MAX_LINKS_PER_PEER"), node)
    | .createdNew _ | .rejectedSessionMismatch =>
        (.error (.handlerError s!"unexpected attach outcome for peer {peerId}"), node)
  else
    (.error (.handlerError s!"no session for peer {peerId}; cannot attach secondary"), node)

/-- Install a connection without a handshake. The link is announced whether or
not the session took it. -/
def attachConnection (peerId : String) (conn : ConnId) (draw : RegistrationDraw) (now : Instant) :
    Node :=
  let kind := TransportKind.mock
  let link := Link.new (makeLinkId kind peerId draw.linkNonce) conn kind
    (defaultCapsForKind kind) now
  let attached := node.sessions.attachLink peerId link none draw.sessionId
  let state := (node.peerStates.lookup peerId).getD .new
  let entered : Node :=
    { node with
      sessions := attached.2
      peerStates := node.peerStates.insert peerId
        { state with state := .connected, lastHeartbeat := some now }
      state := .connected }
  match attached.1 with
  | .createdNew _ =>
      let entered := { entered with connections := node.connections.insert peerId conn }
      (entered.emit (.peerConnected peerId)).emit (.linkAdded peerId link.id kind)
  | _ => entered.emit (.linkAdded peerId link.id kind)

/-- Hold a key for a peer. -/
def setPeerAesKey (peerId : String) (key : Bytes) : Node :=
  { node with
    peerStates := node.peerStates.insert peerId
      { ((node.peerStates.lookup peerId).getD .new) with aesKey := some key } }

/-- A peer that is known is marked as disconnected. -/
def markDisconnected (peerId : String) : Node :=
  match node.peerStates.lookup peerId with
  | none => node
  | some peer =>
      { node with
        peerStates := node.peerStates.insert peerId { peer with state := .disconnected } }

/-- Take a peer out of the connections and of the peers, and say that it is gone. -/
def evict (peerId : String) : Node :=
  ({ node with
      connections := node.connections.erase peerId
      peerManager := node.peerManager.erase peerId }.markDisconnected peerId).emit
    (.peerDisconnected peerId)

/-- Disconnect a whole peer. -/
def disconnectPeer (peerId : String) : Node :=
  { node with
    sessions := (node.sessions.dropPeer peerId).2
    explicitOverride := node.explicitOverride.erase peerId }.evict peerId

/-- Drop a single link, and the peer with its last one. -/
def disconnectLink (peerId linkId : String) : Node :=
  let detached := node.sessions.detachLink peerId linkId
  let node := { node with sessions := detached.2 }.emit (.linkRemoved peerId linkId "manual")
  if detached.1 then
    { node with explicitOverride := node.explicitOverride.erase peerId }.evict peerId
  else node

/-- Switch a peer to a link by hand, and pin the choice. -/
def switchActiveLink (peerId toLink : String) (now : Instant) : Result Unit × Node :=
  let switched := node.sessions.switchActiveLink peerId toLink
  match switched.1 with
  | .error e => (.error e, node)
  | .ok (kind, source) =>
      let pinned : Node :=
        { node with
          sessions := switched.2
          explicitOverride := node.explicitOverride.insert peerId (kind, now) }
      (.ok (),
        (pinned.emitSession (.switched peerId source toLink .manualUserRequest)).emit
          (.linkSwitched peerId source toLink .manualUserRequest))

end Node

/-! ## The calls -/

/-- The calls that keep the tables. -/
inductive NodeCall
  | register (peerHs : Handshake) (conn : ConnId) (name transportId : String)
      (transportCaps : TransportCapabilities) (mismatchPeerId : String)
      (draw : RegistrationDraw) (now : Instant)
  | attachSecondaryLink (peerId : String) (conn : ConnId) (kind : TransportKind)
      (draw : RegistrationDraw) (now : Instant)
  | attachConnection (peerId : String) (conn : ConnId) (draw : RegistrationDraw)
      (now : Instant)
  | disconnectLink (peerId linkId : String)
  | disconnectPeer (peerId : String)
  deriving DecidableEq, Repr

/-- What a call does with its peer. -/
inductive PeerAct
  | register
  | attachSecondary
  | attachConnection
  | detach (linkId : String)
  | disconnect
  deriving DecidableEq, Repr

namespace PeerAct

/-- The act may attach a link. -/
def attaches : PeerAct → Bool
  | register | attachSecondary | attachConnection => true
  | detach _ | disconnect => false

end PeerAct

namespace NodeCall

def act : NodeCall → PeerAct
  | register .. => .register
  | attachSecondaryLink .. => .attachSecondary
  | attachConnection .. => .attachConnection
  | disconnectLink _ linkId => .detach linkId
  | disconnectPeer _ => .disconnect

/-- The peer that a call is about. -/
def peerId : NodeCall → String
  | register peerHs _ _ _ _ _ _ _ => peerHs.appUuid
  | attachSecondaryLink peerId _ _ _ _ | attachConnection peerId _ _ _
  | disconnectLink peerId _ | disconnectPeer peerId => peerId

end NodeCall

def Node.call (node : Node) : NodeCall → Node
  | .register peerHs conn name transportId transportCaps mismatchPeerId draw now =>
      (node.registerAfterHandshake peerHs conn name transportId transportCaps mismatchPeerId
        draw now).node
  | .attachSecondaryLink peerId conn kind draw now =>
      (node.attachSecondaryLink peerId conn kind draw now).2
  | .attachConnection peerId conn draw now => node.attachConnection peerId conn draw now
  | .disconnectLink peerId linkId => node.disconnectLink peerId linkId
  | .disconnectPeer peerId => node.disconnectPeer peerId

/-! ## What a call does to the tables about its peer -/

/-- What a node's tables say about one peer. -/
structure PeerView where
  session : Option Session
  conn : Option ConnId
  listed : Option Peer

namespace Node

def view (node : Node) (peerId : String) : PeerView :=
  ⟨node.sessions.get peerId, node.connections.lookup peerId, node.peerManager.lookup peerId⟩

end Node

/-- What a call can do to the tables about its peer, and the events it emits. -/
inductive PeerChange (peerId : String) : PeerAct → PeerView → List NodeEvent → PeerView → Prop
  /-- Nothing is attached. -/
  | refused (act : PeerAct) (attaches : act = .register ∨ act = .attachSecondary)
      (view : PeerView) : PeerChange peerId act view [] view
  /-- Registration opens the peer's session. -/
  | registeredFirst (view : PeerView) (unknown : view.session = none) (link : Link) (peer : Peer)
      (freshId : SessionId) :
      PeerChange peerId .register view
        [.linkAdded peerId link.id link.kind, .peerConnected peerId]
        ⟨some (SessionManager.opened peerId link freshId), some link.conn, some peer⟩
  /-- Registration adds a link to the session, and the peer is written to over it. -/
  | registered (view : PeerView) (session : Session) (known : view.session = some session)
      (link : Link) (peer : Peer) :
      PeerChange peerId .register view [.linkAdded peerId link.id link.kind]
        ⟨some (SessionManager.joined session peerId link), some link.conn, some peer⟩
  /-- A link joins the session, and the peer is written to as before. -/
  | attached (act : PeerAct) (attaches : act = .attachSecondary ∨ act = .attachConnection)
      (view : PeerView) (session : Session) (known : view.session = some session) (link : Link) :
      PeerChange peerId act view [.linkAdded peerId link.id link.kind]
        { view with session := some (SessionManager.joined session peerId link) }
  /-- A connection installed directly opens the session. -/
  | installedFirst (view : PeerView) (unknown : view.session = none) (link : Link)
      (freshId : SessionId) :
      PeerChange peerId .attachConnection view
        [.peerConnected peerId, .linkAdded peerId link.id link.kind]
        { view with
          session := some (SessionManager.opened peerId link freshId), conn := some link.conn }
  /-- A connection that the session did not take is announced all the same. -/
  | announced (view : PeerView) (session : Session) (known : view.session = some session)
      (refused : ¬ session.Takes .mock) (linkId : String) :
      PeerChange peerId .attachConnection view [.linkAdded peerId linkId .mock] view
  /-- No such link is there to detach. -/
  | missed (view : PeerView) (linkId : String)
      (absent : ∀ session ∈ view.session, linkId ∉ session.links.map Link.id) :
      PeerChange peerId (.detach linkId) view [.linkRemoved peerId linkId "manual"] view
  /-- One link detaches and others stay. -/
  | left (view : PeerView) (session : Session) (known : view.session = some session)
      (linkId : String) (attached : linkId ∈ session.links.map Link.id)
      (others : (session.removeLink linkId).links ≠ []) :
      PeerChange peerId (.detach linkId) view [.linkRemoved peerId linkId "manual"]
        { view with session := some (SessionManager.left session peerId linkId) }
  /-- The last link detaches, and the peer goes with it. -/
  | leftLast (view : PeerView) (session : Session) (known : view.session = some session)
      (linkId : String) (attached : linkId ∈ session.links.map Link.id)
      (last : (session.removeLink linkId).links = []) :
      PeerChange peerId (.detach linkId) view
        [.linkRemoved peerId linkId "manual", .peerDisconnected peerId] ⟨none, none, none⟩
  /-- The peer is disconnected, whether or not it was connected. -/
  | dropped (view : PeerView) :
      PeerChange peerId .disconnect view [.peerDisconnected peerId] ⟨none, none, none⟩

namespace Node

variable {node : Node}

/-- Other sessions in place of the node's. -/
theorem view_setSessions (node : Node) (sessions : SessionManager) (peerId : String) :
    view { node with sessions } peerId =
      ⟨sessions.get peerId, (node.view peerId).conn, (node.view peerId).listed⟩ := rfl

@[simp]
theorem view_emit (event : NodeEvent) (peerId : String) :
    (node.emit event).view peerId = node.view peerId := rfl

@[simp]
theorem view_markDisconnected (peerId other : String) :
    (node.markDisconnected peerId).view other = node.view other := by
  rw [markDisconnected]
  cases node.peerStates.lookup peerId <;> rfl

@[simp]
theorem events_markDisconnected (peerId : String) :
    (node.markDisconnected peerId).events = node.events := by
  rw [markDisconnected]
  cases node.peerStates.lookup peerId <;> rfl

@[simp]
theorem events_evict (peerId : String) :
    (node.evict peerId).events = node.events ++ [.peerDisconnected peerId] := by
  simp [evict, emit]

theorem sessions_evict (node : Node) (peerId : String) :
    (node.evict peerId).sessions = node.sessions := by
  rw [evict, markDisconnected]
  dsimp only
  split <;> rfl

theorem view_evict_self (peerId : String) :
    (node.evict peerId).view peerId = ⟨node.sessions.get peerId, none, none⟩ := by
  rw [evict, view_emit, view_markDisconnected]
  simp [view]

theorem view_evict_of_ne {peerId other : String} (hne : other ≠ peerId) :
    (node.evict peerId).view other = node.view other := by
  rw [evict, view_emit, view_markDisconnected]
  simp [view, AList.lookup_erase_ne hne]

theorem view_enterPeer_self (sessions : SessionManager) (peer : Peer) (link : Link)
    (isFirstLink : Bool) (now : Instant) :
    (node.enterPeer sessions peer link isFirstLink now).view peer.id =
      ⟨sessions.get peer.id, some link.conn, some peer⟩ := by
  cases isFirstLink <;> simp [enterPeer, view, emit]

theorem view_enterPeer_of_ne {sessions : SessionManager} {peer : Peer} {other : String}
    (hne : other ≠ peer.id) (hget : sessions.get other = node.sessions.get other) (link : Link)
    (isFirstLink : Bool) (now : Instant) :
    (node.enterPeer sessions peer link isFirstLink now).view other = node.view other := by
  cases isFirstLink <;> simp [enterPeer, view, emit, hget, AList.lookup_insert_ne hne]

theorem events_enterPeer (sessions : SessionManager) (peer : Peer) (link : Link)
    (isFirstLink : Bool) (now : Instant) :
    (node.enterPeer sessions peer link isFirstLink now).events =
      node.events ++ .linkAdded peer.id link.id link.kind ::
        if isFirstLink then [.peerConnected peer.id] else [] := by
  cases isFirstLink <;> simp [enterPeer, emit]

/-! ## Each call makes one of the changes -/

/-- A call changes what the tables say about its peer as `PeerChange` allows, and
appends to the events. -/
def Makes (node after : Node) (peerId : String) (act : PeerAct) : Prop :=
  ∃ events, after.events = node.events ++ events ∧
    PeerChange peerId act (node.view peerId) events (after.view peerId)

theorem makes_refused (peerId : String) {act : PeerAct}
    (attaches : act = .register ∨ act = .attachSecondary) : node.Makes node peerId act :=
  ⟨[], (List.append_nil _).symm, .refused act attaches _⟩

/-- Entering a peer with the session that its first link opens. -/
theorem makes_enterFirst (peer : Peer) (link : Link) (freshId : SessionId) (now : Instant)
    (unknown : node.sessions.get peer.id = none) :
    node.Makes (node.enterPeer
      ⟨node.sessions.peers.insert peer.id (SessionManager.opened peer.id link freshId)⟩ peer link
      true now) peer.id .register := by
  refine ⟨_, events_enterPeer _ peer link true now, ?_⟩
  rw [view_enterPeer_self, SessionManager.get, AList.lookup_insert]
  exact .registeredFirst _ unknown link peer freshId

/-- Entering a peer with a link added to its session. -/
theorem makes_enterJoined (peer : Peer) (link : Link) (now : Instant) {session : Session}
    (known : node.sessions.get peer.id = some session) :
    node.Makes (node.enterPeer
      ⟨node.sessions.peers.insert peer.id (SessionManager.joined session peer.id link)⟩ peer link
      false now) peer.id .register := by
  refine ⟨_, events_enterPeer _ peer link false now, ?_⟩
  rw [view_enterPeer_self, SessionManager.get, AList.lookup_insert]
  exact .registered _ session known link peer

theorem makes_register (peerHs : Handshake) (conn : ConnId) (name transportId : String)
    (transportCaps : TransportCapabilities) (mismatchPeerId : String) (draw : RegistrationDraw)
    (now : Instant) :
    node.Makes (node.registerAfterHandshake peerHs conn name transportId transportCaps
      mismatchPeerId draw now).node peerHs.appUuid .register := by
  let kind := (TransportKind.fromWire transportId).getD .mock
  let link := Link.new (makeLinkId kind peerHs.appUuid draw.linkNonce) conn kind transportCaps now
  let peer : Peer := ⟨peerHs.appUuid, name, peerHs.appUuid, now, transportId⟩
  cases hcheck : node.checkRoom peerHs mismatchPeerId with
  | error e =>
      simp only [registerAfterHandshake, hcheck]
      exact makes_refused _ (.inl rfl)
  | ok value =>
      simp only [registerAfterHandshake, hcheck]
      rcases SessionManager.attachLink_cases node.sessions peerHs.appUuid link peerHs.sessionId
          draw.sessionId with
        ⟨hno, _⟩ | ⟨hunknown, _, hopened⟩ | ⟨session, hknown, _, _, hjoined⟩
      · rw [hno, if_neg Bool.false_ne_true]
        exact makes_refused _ (.inl rfl)
      · rw [hopened, SessionManager.contains, hunknown]
        exact makes_enterFirst peer link draw.sessionId now hunknown
      · rw [hjoined, SessionManager.contains, hknown]
        exact makes_enterJoined peer link now hknown

/-- Putting a changed session in place of the peer's, and nothing else. -/
theorem view_setSession_self (session : Session) (peerId : String) :
    view { node with sessions := ⟨node.sessions.peers.insert peerId session⟩ } peerId =
      { node.view peerId with session := some session } := by
  simp [view, SessionManager.get]

theorem makes_attachSecondaryLink (peerId : String) (conn : ConnId) (kind : TransportKind)
    (draw : RegistrationDraw) (now : Instant) :
    node.Makes (node.attachSecondaryLink peerId conn kind draw now).2 peerId .attachSecondary := by
  let link := Link.new (makeLinkId kind peerId draw.linkNonce) conn kind
    (defaultCapsForKind kind) now
  rw [attachSecondaryLink]
  by_cases hcontains : node.sessions.contains peerId = true
  · rw [if_pos hcontains]
    rcases SessionManager.attachLink_cases node.sessions peerId link none draw.sessionId with
      ⟨hno, hsame⟩ | ⟨hunknown, _⟩ | ⟨session, hknown, _, _, hjoined⟩
    · dsimp only
      rw [hsame]
      split
      · rename_i hattached
        rw [hattached] at hno
        cases hno
      · exact makes_refused _ (.inr rfl)
      · exact makes_refused _ (.inr rfl)
      · exact makes_refused _ (.inr rfl)
      · exact makes_refused _ (.inr rfl)
    · rw [SessionManager.contains, hunknown] at hcontains
      cases hcontains
    · dsimp only
      rw [hjoined]
      refine ⟨_, rfl, ?_⟩
      rw [view_emit, view_setSession_self]
      exact .attached _ (.inl rfl) _ session hknown link
  · rw [if_neg hcontains]
    exact makes_refused _ (.inr rfl)

theorem makes_attachConnection (peerId : String) (conn : ConnId) (draw : RegistrationDraw)
    (now : Instant) :
    node.Makes (node.attachConnection peerId conn draw now) peerId .attachConnection := by
  let link := Link.new (makeLinkId .mock peerId draw.linkNonce) conn .mock
    (defaultCapsForKind .mock) now
  rw [attachConnection]
  rcases SessionManager.attachLink_cases node.sessions peerId link none draw.sessionId with
    ⟨hno, hsame⟩ | ⟨hunknown, _, hopened⟩ | ⟨session, hknown, _, _, hjoined⟩
  · obtain ⟨session, hknown, hrefused⟩ := SessionManager.not_takes_of_refused hno
    dsimp only
    rw [hsame]
    split
    · rename_i hattached
      rw [hattached] at hno
      cases hno
    · exact ⟨_, rfl, .announced _ session hknown hrefused link.id⟩
  · dsimp only
    rw [hopened]
    refine ⟨[.peerConnected peerId, .linkAdded peerId link.id link.kind], ?_, ?_⟩
    · simp [emit, link, Link.new]
    · have hview : view (((({ node with
            sessions := ⟨node.sessions.peers.insert peerId
              (SessionManager.opened peerId link draw.sessionId)⟩
            connections := node.connections.insert peerId conn } : Node).emit
              (.peerConnected peerId)).emit (.linkAdded peerId link.id link.kind))) peerId =
          { node.view peerId with
            session := some (SessionManager.opened peerId link draw.sessionId)
            conn := some conn } := by
        simp [view, emit, SessionManager.get]
      exact hview ▸ .installedFirst _ hunknown link draw.sessionId
  · dsimp only
    rw [hjoined]
    refine ⟨[.linkAdded peerId link.id link.kind], rfl, ?_⟩
    have hview : view (({ node with
          sessions := ⟨node.sessions.peers.insert peerId
            (SessionManager.joined session peerId link)⟩ } : Node).emit
            (.linkAdded peerId link.id link.kind)) peerId =
        { node.view peerId with session := some (SessionManager.joined session peerId link) } := by
      simp [view, emit, SessionManager.get]
    exact hview ▸ .attached _ (.inr rfl) _ session hknown link

theorem makes_disconnectPeer (peerId : String) :
    node.Makes (node.disconnectPeer peerId) peerId .disconnect := by
  refine ⟨[.peerDisconnected peerId], events_evict peerId, ?_⟩
  rw [disconnectPeer, view_evict_self, SessionManager.get_dropPeer_self]
  exact .dropped _

theorem makes_disconnectLink (peerId linkId : String) :
    node.Makes (node.disconnectLink peerId linkId) peerId (.detach linkId) := by
  rw [disconnectLink]
  rcases SessionManager.detachLink_cases node.sessions peerId linkId with
    ⟨habsent, hmissed⟩ | ⟨session, hknown, hattached, ⟨hlast, hgone⟩ | ⟨hothers, hleft⟩⟩
  · rw [hmissed]
    exact ⟨_, rfl, .missed _ linkId habsent⟩
  · rw [hgone]
    refine ⟨[.linkRemoved peerId linkId "manual", .peerDisconnected peerId], ?_, ?_⟩
    · simp [emit]
    · rw [if_pos rfl, view_evict_self]
      show PeerChange peerId _ _ _ ⟨AList.lookup peerId (node.sessions.peers.erase peerId), _, _⟩
      rw [AList.lookup_erase]
      exact .leftLast _ session hknown linkId hattached hlast
  · rw [hleft]
    refine ⟨[.linkRemoved peerId linkId "manual"], rfl, ?_⟩
    rw [if_neg Bool.false_ne_true, view_emit, view_setSession_self]
    exact .left _ session hknown linkId hattached hothers

/-- A call changes what the tables say about its peer in one of the ways of
`PeerChange`. -/
theorem makes_call (node : Node) (call : NodeCall) :
    node.Makes (node.call call) call.peerId call.act := by
  cases call with
  | register peerHs conn name transportId transportCaps mismatchPeerId draw now =>
      exact makes_register peerHs conn name transportId transportCaps mismatchPeerId draw now
  | attachSecondaryLink peerId conn kind draw now =>
      exact makes_attachSecondaryLink peerId conn kind draw now
  | attachConnection peerId conn draw now => exact makes_attachConnection peerId conn draw now
  | disconnectLink peerId linkId => exact makes_disconnectLink peerId linkId
  | disconnectPeer peerId => exact makes_disconnectPeer peerId

/-! ## The other peers -/

theorem view_register_of_ne {peerHs : Handshake} {other : String} (hne : other ≠ peerHs.appUuid)
    (conn : ConnId) (name transportId : String) (transportCaps : TransportCapabilities)
    (mismatchPeerId : String) (draw : RegistrationDraw) (now : Instant) :
    (node.registerAfterHandshake peerHs conn name transportId transportCaps mismatchPeerId draw
      now).node.view other = node.view other := by
  rw [registerAfterHandshake]
  cases node.checkRoom peerHs mismatchPeerId with
  | error e => rfl
  | ok value =>
      dsimp only
      split_ifs
      · exact view_enterPeer_of_ne hne (SessionManager.get_attachLink_of_ne hne) _ _ _
      · rfl

/-- Changing the sessions and the bookkeeping alone leaves a peer's view as its
session is. -/
theorem view_of_get_eq {after : Node} {peerId : String}
    (hget : after.sessions.get peerId = node.sessions.get peerId)
    (hconn : after.connections.lookup peerId = node.connections.lookup peerId)
    (hlisted : after.peerManager.lookup peerId = node.peerManager.lookup peerId) :
    after.view peerId = node.view peerId := by
  rw [view, view, hget, hconn, hlisted]

theorem view_attachSecondaryLink_of_ne {peerId other : String} (hne : other ≠ peerId)
    (conn : ConnId) (kind : TransportKind) (draw : RegistrationDraw) (now : Instant) :
    (node.attachSecondaryLink peerId conn kind draw now).2.view other = node.view other := by
  rw [attachSecondaryLink]
  split_ifs
  · dsimp only
    split <;> exact view_of_get_eq (SessionManager.get_attachLink_of_ne hne) rfl rfl
  · rfl

theorem view_attachConnection_of_ne {peerId other : String} (hne : other ≠ peerId)
    (conn : ConnId) (draw : RegistrationDraw) (now : Instant) :
    (node.attachConnection peerId conn draw now).view other = node.view other := by
  rw [attachConnection]
  dsimp only
  split
  · exact view_of_get_eq (SessionManager.get_attachLink_of_ne hne) (AList.lookup_insert_ne hne) rfl
  · exact view_of_get_eq (SessionManager.get_attachLink_of_ne hne) rfl rfl

/-- A call is about one peer: what the tables say about the others stays. -/
theorem view_call_of_ne {call : NodeCall} {other : String} (hne : other ≠ call.peerId) :
    (node.call call).view other = node.view other := by
  cases call with
  | register peerHs conn name transportId transportCaps mismatchPeerId draw now =>
      exact view_register_of_ne hne conn name transportId transportCaps mismatchPeerId draw now
  | attachSecondaryLink peerId conn kind draw now =>
      exact view_attachSecondaryLink_of_ne hne conn kind draw now
  | attachConnection peerId conn draw now => exact view_attachConnection_of_ne hne conn draw now
  | disconnectLink peerId linkId =>
      have hne : other ≠ peerId := hne
      rw [call, disconnectLink]
      split_ifs
      · rw [view_evict_of_ne hne]
        exact view_of_get_eq (SessionManager.get_detachLink_of_ne hne) rfl rfl
      · exact view_of_get_eq (SessionManager.get_detachLink_of_ne hne) rfl rfl
  | disconnectPeer peerId =>
      have hne : other ≠ peerId := hne
      rw [call, disconnectPeer, view_evict_of_ne hne]
      exact view_of_get_eq (SessionManager.get_dropPeer_of_ne hne) rfl rfl

end Node

end Mlink.Core
