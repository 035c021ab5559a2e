/-
# What a node notes of a peer

For each peer the node remembers when it last heard from it. Connecting and taking a
heartbeat in set that time; everything else the node does leaves it as it is. `Notes`
says so of one operation: what was heard, if anything was, is what is recorded after.
-/

import Mlink.Core.Node.PeerReader

namespace Mlink.Core

open Mlink.Protocol

/-! ## What is recorded of a peer -/

namespace Node

/-- The node remembers the peer. -/
def Knows (node : Node) (peerId : String) : Prop := (node.peerStates.lookup peerId).isSome = true

/-- When the peer was heard from, as `checkHeartbeat` sees it. -/
def recorded (node : Node) (peerId : String) : Option Instant :=
  (node.peerStates.lookup peerId).bind PeerState.lastHeartbeat

/-- A peer that counts as dead was not heard from within the timeout. -/
theorem recorded_of_checkHeartbeat {node : Node} {peerId : String} {now : Instant}
    (dead : node.checkHeartbeat peerId now = .ok false) :
    ∃ heard, node.recorded peerId = some heard ∧ HEARTBEAT_TIMEOUT ≤ now - heard := by
  rw [checkHeartbeat] at dead
  cases hpeer : node.peerStates.lookup peerId with
  | none => simp [hpeer] at dead
  | some peer =>
      cases hheard : peer.lastHeartbeat with
      | none => simp [hpeer, hheard] at dead
      | some heard =>
          refine ⟨heard, by rw [recorded, hpeer, Option.bind_some, hheard], ?_⟩
          simpa [hpeer, hheard] using dead

/-- What is heard of the watched peer when some peer is heard from. -/
def heardOf (watched peerId : String) (now : Instant) : Option Instant :=
  if peerId = watched then some now else none

/-- The node has noted what was heard of the peer, if anything was; it forgets no peer,
and connects none that it does not remember. -/
structure Notes (watched : String) (heard : Option Instant) (node after : Node) : Prop where
  recorded : after.recorded watched = heard.or (node.recorded watched)
  knows : node.Knows watched → after.Knows watched
  connected : (after.connections.lookup watched).isSome →
    (node.connections.lookup watched).isSome ∨ after.Knows watched

namespace Notes

variable {watched : String} {heard : Option Instant} {node between after : Node}

theorem refl (node : Node) : Notes watched none node node where
  recorded := rfl
  knows := id
  connected := .inl

theorem trans (first : Notes watched heard node between)
    (second : Notes watched none between after) : Notes watched heard node after where
  recorded := second.recorded.trans first.recorded
  knows := second.knows ∘ first.knows
  connected hconnected := by
    rcases second.connected hconnected with hbetween | hknows
    · exact (first.connected hbetween).imp_right second.knows
    · exact .inr hknows

/-- Where neither table changes, nothing is noted. -/
theorem of_eq (states : after.peerStates = node.peerStates)
    (connections : after.connections = node.connections) : Notes watched none node after where
  recorded := by rw [Node.recorded, states]; rfl
  knows := by rw [Knows, Knows, states]; exact id
  connected := by rw [connections]; exact .inl

/-- Replacing what is known of a peer notes what its record says. -/
theorem of_insert {peerId : String} {state : PeerState}
    (states : after.peerStates = node.peerStates.insert peerId state)
    (connections : after.connections = node.connections ∨
      ∃ conn, after.connections = node.connections.insert peerId conn)
    (beat : peerId = watched → state.lastHeartbeat = heard.or (node.recorded watched))
    (quiet : peerId ≠ watched → heard = none) : Notes watched heard node after where
  recorded := by
    by_cases hpeer : peerId = watched
    · rw [← beat hpeer, Node.recorded, states, ← hpeer, AList.lookup_insert]
      rfl
    · rw [quiet hpeer, Node.recorded, states, AList.lookup_insert_ne (Ne.symm hpeer)]
      rfl
  knows hknows := by
    by_cases hpeer : peerId = watched
    · rw [Knows, states, hpeer, AList.lookup_insert]
      rfl
    · rw [Knows, states, AList.lookup_insert_ne (Ne.symm hpeer)]
      exact hknows
  connected hconnected := by
    by_cases hpeer : peerId = watched
    · right
      rw [Knows, states, hpeer, AList.lookup_insert]
      rfl
    · left
      rcases connections with hsame | ⟨conn, hinsert⟩
      · rwa [hsame] at hconnected
      · rwa [hinsert, AList.lookup_insert_ne (Ne.symm hpeer)] at hconnected

/-- Noting a peer's time notes it for that peer. -/
theorem of_beat {peerId : String} {state : PeerState} {now : Instant}
    (states : after.peerStates = node.peerStates.insert peerId state)
    (connections : after.connections = node.connections ∨
      ∃ conn, after.connections = node.connections.insert peerId conn)
    (beat : state.lastHeartbeat = some now) :
    Notes watched (heardOf watched peerId now) node after :=
  of_insert states connections
    (fun hpeer => by rw [beat, heardOf, if_pos hpeer, Option.some_or]) fun hpeer => if_neg hpeer

/-- Taking a connection away notes nothing. -/
theorem of_erase {peerId : String} (states : after.peerStates = node.peerStates)
    (connections : after.connections = node.connections.erase peerId) :
    Notes watched none node after where
  recorded := by rw [Node.recorded, states]; rfl
  knows := by rw [Knows, Knows, states]; exact id
  connected hconnected := by
    left
    by_cases hpeer : watched = peerId
    · rw [connections, hpeer, AList.lookup_erase] at hconnected
      cases hconnected
    · rwa [connections, AList.lookup_erase_ne hpeer] at hconnected

end Notes

/-! ## What each operation notes -/

section Operations

variable {primitives : Primitives} {node : Node} {watched peerId : String}

/-- What is remembered of a peer, or made up for a new one, has its time. -/
theorem lastHeartbeat_getD (node : Node) (peerId : String) :
    ((node.peerStates.lookup peerId).getD .new).lastHeartbeat = node.recorded peerId := by
  rw [recorded]
  cases node.peerStates.lookup peerId <;> rfl

theorem notes_setPeerState (state : NodeState) :
    Notes watched none node (node.setPeerState peerId state) :=
  .of_insert rfl (.inl rfl) (fun hpeer => by rw [← hpeer]; exact lastHeartbeat_getD node peerId)
    fun _ => rfl

theorem notes_setPeerAesKey (key : Bytes) :
    Notes watched none node (node.setPeerAesKey peerId key) :=
  .of_insert rfl (.inl rfl) (fun hpeer => by rw [← hpeer]; exact lastHeartbeat_getD node peerId)
    fun _ => rfl

theorem notes_markDisconnected : Notes watched none node (node.markDisconnected peerId) := by
  rw [markDisconnected]
  cases hpeer : node.peerStates.lookup peerId with
  | none => exact .refl node
  | some peer =>
      refine .of_insert rfl (.inl rfl) (fun hsame => ?_) fun _ => rfl
      rw [← hsame, recorded, hpeer]
      rfl

theorem notes_emit (event : NodeEvent) : Notes watched none node (node.emit event) :=
  .of_eq rfl rfl

theorem notes_evict : Notes watched none node (node.evict peerId) := by
  have herased : Notes watched none node
      { node with
        connections := node.connections.erase peerId
        peerManager := node.peerManager.erase peerId } := .of_erase rfl rfl
  exact (herased.trans notes_markDisconnected).trans (notes_emit (.peerDisconnected peerId))

theorem notes_disconnectPeer : Notes watched none node (node.disconnectPeer peerId) := by
  have hdropped : Notes watched none node
      { node with
        sessions := (node.sessions.dropPeer peerId).2
        explicitOverride := node.explicitOverride.erase peerId } := .of_eq rfl rfl
  exact hdropped.trans notes_evict

theorem notes_disconnectLink (linkId : String) :
    Notes watched none node (node.disconnectLink peerId linkId) := by
  have hdetached (explicitOverride) : Notes watched none node
      { ({ node with sessions := (node.sessions.detachLink peerId linkId).2 }.emit
          (.linkRemoved peerId linkId "manual")) with explicitOverride } := .of_eq rfl rfl
  rw [disconnectLink]
  split
  · exact (hdetached _).trans notes_evict
  · exact hdetached _

theorem notes_attachSecondaryLink (conn : ConnId) (kind : TransportKind) (draw : RegistrationDraw)
    (now : Instant) :
    Notes watched none node (node.attachSecondaryLink peerId conn kind draw now).2 := by
  rw [attachSecondaryLink]
  split
  · dsimp only
    split <;> exact .of_eq rfl rfl
  · exact .refl node

theorem notes_switchActiveLink (toLink : String) (now : Instant) :
    Notes watched none node (node.switchActiveLink peerId toLink now).2 := by
  rw [switchActiveLink]
  dsimp only
  split
  · exact .refl node
  · exact .of_eq rfl rfl

theorem notes_attachConnection (conn : ConnId) (draw : RegistrationDraw) (now : Instant) :
    Notes watched (heardOf watched peerId now) node
      (node.attachConnection peerId conn draw now) := by
  rw [attachConnection]
  dsimp only
  split
  · exact .of_beat rfl (.inr ⟨conn, rfl⟩) rfl
  · exact .of_beat rfl (.inl rfl) rfl

theorem notes_enterPeer (sessions : SessionManager) (peer : Peer) (link : Link)
    (isFirstLink : Bool) (now : Instant) :
    Notes watched (heardOf watched peer.id now) node
      (node.enterPeer sessions peer link isFirstLink now) := by
  rw [enterPeer]
  split
  · exact .of_beat rfl (.inr ⟨link.conn, rfl⟩) rfl
  · exact .of_beat rfl (.inr ⟨link.conn, rfl⟩) rfl

/-- A registration that keeps the connection is heard. -/
theorem notes_register (peerHs : Handshake) (conn : ConnId) (name transportId : String)
    (transportCaps : TransportCapabilities) (mismatchPeerId : String) (draw : RegistrationDraw)
    (now : Instant) :
    let registration := node.registerAfterHandshake peerHs conn name transportId transportCaps
      mismatchPeerId draw now
    Notes watched (if registration.closed then none else heardOf watched peerHs.appUuid now) node
      registration.node := by
  simp only [registerAfterHandshake]
  cases node.checkRoom peerHs mismatchPeerId with
  | error e => exact .refl node
  | ok value =>
      dsimp only
      cases (node.sessions.attachLink peerHs.appUuid _ peerHs.sessionId
        draw.sessionId).1.isAttached with
      | false => exact .refl node
      | true =>
          exact notes_enterPeer _ ⟨peerHs.appUuid, name, peerHs.appUuid, now, transportId⟩ _ _ now

theorem notes_sendRaw (msgType : MessageType) (payload : Bytes) (io : NodeIo) :
    Notes watched none node (node.sendRaw primitives peerId msgType payload io).node := by
  rcases node.node_sendRaw_cases primitives peerId msgType payload io with
    hsame | ⟨_, hsession⟩ | ⟨peer, hpeer, hcounter⟩
  · rw [hsame]
    exact .refl node
  · rw [hsession]
    exact .of_eq rfl rfl
  · rw [hcounter]
    refine .of_insert rfl (.inl rfl) (fun hsame => ?_) fun _ => rfl
    rw [← hsame, recorded, hpeer]
    rfl

theorem notes_recvOnceSession (turns : List Session.Turn) :
    Notes watched none node (node.recvOnceSession peerId turns).2 := by
  rw [recvOnceSession]
  split
  · exact .refl node
  · exact .of_eq rfl rfl

theorem notes_afterRead (useSession : Bool) (returned : Result (MessageType × Bytes)) :
    Notes watched none node (node.afterRead peerId useSession returned).1 := by
  cases returned with
  | error e => exact .refl node
  | ok received =>
      rw [afterRead, publish]
      split
      · exact notes_emit _
      · exact .refl node

/-- What was read is a heartbeat of the peer, which the node can open. -/
def decodesHeartbeat (primitives : Primitives) (node : Node) (peerId : String)
    (read : Result Bytes) : Bool :=
  match read.bind (node.decodeMessage primitives peerId) with
  | .ok (msgType, _) => msgType = .heartbeat
  | .error _ => false

/-- What was read is a heartbeat of a connected peer, as `recvRaw` opens it. -/
def rawHeartbeat (primitives : Primitives) (node : Node) (peerId : String)
    (read : Result Bytes) : Bool :=
  (node.connections.lookup peerId).isSome &&
    match read.bind (node.decodeRaw primitives peerId) with
    | .ok (frame, _) => (decodeFlags frame.flags).2.2 = .heartbeat
    | .error _ => false

/-- A peer that the node does not remember is not the one that it knows. -/
theorem heardOf_of_unknown {now : Instant} (hpeer : node.peerStates.lookup peerId = none)
    (knows : peerId = watched → node.Knows watched) : heardOf watched peerId now = none := by
  have hother : peerId ≠ watched := by
    intro hsame
    have hknows := knows hsame
    rw [Knows, ← hsame, hpeer] at hknows
    cases hknows
  rw [heardOf, if_neg hother]

/-- The single-link reader notes the heartbeats of a peer that the node remembers. -/
theorem notes_readFrame (read : Result Bytes) (now : Instant)
    (knows : peerId = watched → node.Knows watched) :
    Notes watched
      (if node.decodesHeartbeat primitives peerId read then heardOf watched peerId now else none)
      node (node.readFrame primitives peerId read now).2 := by
  rw [readFrame, decodesHeartbeat]
  cases read.bind (node.decodeMessage primitives peerId) with
  | error e => exact .refl node
  | ok received =>
      obtain ⟨msgType, payload⟩ := received
      by_cases hheartbeat : msgType = .heartbeat
      · simp only [hheartbeat, decide_true, if_true]
        cases hpeer : node.peerStates.lookup peerId with
        | none =>
            rw [heardOf_of_unknown hpeer knows]
            exact .refl node
        | some peer => exact .of_beat rfl (.inl rfl) rfl
      · simp only [hheartbeat, decide_false, Bool.false_eq_true, if_false]
        exact .refl node

/-- `recvRaw` notes the heartbeats of a connected peer that the node remembers. -/
theorem notes_recvRaw (read : Result Bytes) (now : Instant)
    (knows : peerId = watched → (node.connections.lookup watched).isSome → node.Knows watched) :
    Notes watched
      (if node.rawHeartbeat primitives peerId read then heardOf watched peerId now else none)
      node (node.recvRaw primitives peerId read now).2 := by
  rw [recvRaw, rawHeartbeat]
  cases hconn : node.connections.lookup peerId with
  | none => exact .refl node
  | some conn =>
      simp only [Option.isSome_some, Bool.true_and]
      cases read.bind (node.decodeRaw primitives peerId) with
      | error e => exact .refl node
      | ok received =>
          obtain ⟨frame, payload⟩ := received
          by_cases hheartbeat : (decodeFlags frame.flags).2.2 = .heartbeat
          · simp only [hheartbeat, decide_true, if_true]
            cases hpeer : node.peerStates.lookup peerId with
            | none =>
                have hknows : peerId = watched → node.Knows watched :=
                  fun hsame => knows hsame (by rw [← hsame, hconn]; rfl)
                rw [heardOf_of_unknown hpeer hknows]
                exact .refl node
            | some peer => exact .of_beat rfl (.inl rfl) rfl
          · simp only [hheartbeat, decide_false, Bool.false_eq_true, if_false]
            exact .refl node

/-- A reader that is not about to read a frame notes nothing. -/
theorem notes_advance {io : ReaderIo} {stage next : ReaderStage} {after : Node}
    (between : ∀ conn, stage ≠ .onConn conn)
    (advanced : node.advance primitives peerId io stage = some (after, next)) :
    Notes watched none node after := by
  cases stage with
  | onConn conn => exact absurd rfl (between conn)
  | onSession sessionId =>
      rw [advance] at advanced
      split_ifs at advanced
      · have hreceived : Notes watched none node (node.recvOnceSession peerId io.turns).2 :=
          notes_recvOnceSession io.turns
        split at advanced
        · rename_i returned middle hrecv
          rw [hrecv] at hreceived
          have hpublished : Notes watched none middle (middle.afterRead peerId true returned).1 :=
            notes_afterRead true returned
          rw [Option.some.inj advanced] at hpublished
          exact hreceived.trans hpublished
        · cases advanced
      · have hpublished : Notes watched none node (node.afterRead peerId true io.orphaned).1 :=
          notes_afterRead true io.orphaned
        rw [Option.some.inj advanced] at hpublished
        exact hpublished
  | marking =>
      cases advanced
      exact notes_markDisconnected
  | evicting =>
      cases advanced
      exact .of_erase rfl rfl
  | finished => cases advanced
  | chosen useSession =>
      cases useSession with
      | true =>
          rw [advance] at advanced
          split at advanced <;>
            (cases advanced; exact .refl node)
      | false =>
          rw [advance] at advanced
          split at advanced <;>
            (cases advanced; exact .refl node)
  | failed useSession =>
      cases useSession with
      | true =>
          cases advanced
          exact .refl node
      | false =>
          rw [advance] at advanced
          split at advanced <;>
            (cases advanced; exact .refl node)
  | _ =>
      cases advanced
      exact .of_eq rfl rfl

end Operations

end Node

/-! ## What is heard of a peer -/

/-- When a call connects the watched peer. -/
def NodeCall.heard (node : Node) (watched : String) : NodeCall → Option Instant
  | .register peerHs conn name transportId transportCaps mismatchPeerId draw now =>
      if (node.registerAfterHandshake peerHs conn name transportId transportCaps mismatchPeerId
        draw now).closed then none
      else Node.heardOf watched peerHs.appUuid now
  | .attachConnection peerId _ _ now => Node.heardOf watched peerId now
  | _ => none

/-- Whether a call connects the watched peer, it notes just that. -/
theorem Node.notes_call (node : Node) (watched : String) (call : NodeCall) :
    Node.Notes watched (call.heard node watched) node (node.call call) := by
  cases call with
  | register peerHs conn name transportId transportCaps mismatchPeerId draw now =>
      exact notes_register peerHs conn name transportId transportCaps mismatchPeerId draw now
  | attachSecondaryLink peerId conn kind draw now =>
      exact notes_attachSecondaryLink conn kind draw now
  | attachConnection peerId conn draw now => exact notes_attachConnection conn draw now
  | disconnectLink peerId linkId => exact notes_disconnectLink linkId
  | disconnectPeer peerId => exact notes_disconnectPeer

end Mlink.Core
