/-
# Connections and sessions

The single-link path writes to the connection that the connections table names,
and that connection should belong to a link of the peer's session. Five calls
keep the two tables. Four of them keep this promise in every state. A detach
takes a link out of the session and leaves the table alone, so it keeps the
promise exactly when the table names the connection of a link that stays.
-/

import Mlink.Core.Node.Lifecycle
import Mlink.Lib.Transition

namespace Mlink.Core

open Mlink.Protocol Transition

namespace PeerView

/-- The peer has a connection exactly when it has a session, and the connection
is that of a link attached to the session. -/
structure Agrees (view : PeerView) : Prop where
  together : view.conn.isSome = view.session.isSome
  attached : ∀ conn ∈ view.conn, ∀ session ∈ view.session, conn ∈ session.links.map Link.conn

/-- What an act may do to a peer so that the tables stay in agreement: a link
that is detached is the last one, or leaves a link over the connection that the
peer is written to. -/
def Spares (view : PeerView) : PeerAct → Prop
  | .detach linkId =>
      ∀ session ∈ view.session, linkId ∈ session.links.map Link.id →
        (session.removeLink linkId).links = [] ∨
          ∀ conn ∈ view.conn, conn ∈ (session.removeLink linkId).links.map Link.conn
  | _ => True

variable {peerId : String} {act : PeerAct} {view after : PeerView} {events : List NodeEvent}

theorem agrees_none : Agrees ⟨none, none, none⟩ where
  together := rfl
  attached := by
    rintro conn ⟨⟩

/-- A link that the table names is attached after the change. -/
theorem agrees_of_mem {session : Session} {conn : ConnId}
    (hconn : conn ∈ session.links.map Link.conn) (listed : Option Peer) :
    Agrees ⟨some session, some conn, listed⟩ where
  together := rfl
  attached := by
    rintro _ ⟨⟩ _ ⟨⟩
    exact hconn

/-- A session that gains a link still has the link that the table names. -/
theorem Agrees.joined (agrees : view.Agrees) {session : Session}
    (known : view.session = some session) (link : Link) :
    Agrees { view with session := some (SessionManager.joined session peerId link) } where
  together := by
    rw [agrees.together, known]
    rfl
  attached := by
    rintro conn hconn _ ⟨⟩
    rw [SessionManager.joined, Session.emit, List.map_append]
    exact List.mem_append_left _ (agrees.attached conn hconn session known)

/-- A detach that leaves links keeps the agreement exactly when one of them is
over the connection that the table names. -/
theorem Agrees.left_iff (agrees : view.Agrees) {session : Session}
    (known : view.session = some session) (linkId : String) :
    Agrees { view with session := some (SessionManager.left session peerId linkId) } ↔
      ∀ conn ∈ view.conn, conn ∈ (session.removeLink linkId).links.map Link.conn := by
  constructor
  · intro hafter conn hconn
    exact hafter.attached conn hconn (SessionManager.left session peerId linkId) rfl
  · intro hspared
    constructor
    · rw [agrees.together, known]
      rfl
    · rintro conn hconn _ ⟨⟩
      exact hspared conn hconn

/-- From tables that agree, an act leads to tables that agree exactly when it
spares the connection that the peer is written to. -/
theorem Agrees.change_iff (agrees : view.Agrees)
    (change : PeerChange peerId act view events after) : after.Agrees ↔ view.Spares act := by
  cases change with
  | refused _ attaches _ =>
      rcases attaches with rfl | rfl
      · exact iff_of_true agrees trivial
      · exact iff_of_true agrees trivial
  | registeredFirst _ unknown link peer freshId =>
      exact iff_of_true (agrees_of_mem (List.mem_singleton_self _) _) trivial
  | registered _ session known link peer =>
      refine iff_of_true (agrees_of_mem ?_ _) trivial
      simp [SessionManager.joined, Session.emit]
  | attached _ attaches _ session known link =>
      rcases attaches with rfl | rfl
      · exact iff_of_true (agrees.joined known link) trivial
      · exact iff_of_true (agrees.joined known link) trivial
  | installedFirst _ unknown link freshId =>
      exact iff_of_true (agrees_of_mem (List.mem_singleton_self _) _) trivial
  | announced _ session known refused linkId => exact iff_of_true agrees trivial
  | missed _ linkId absent =>
      refine iff_of_true agrees ?_
      intro session hsession hattached
      exact absurd hattached (absent session hsession)
  | left _ session known linkId attached others =>
      rw [agrees.left_iff known]
      constructor
      · intro hspared other hother _
        rw [known] at hother
        cases hother
        exact .inr hspared
      · intro hspares
        exact (hspares session known attached).resolve_left others
  | leftLast _ session known linkId attached last =>
      refine iff_of_true agrees_none ?_
      intro other hother _
      rw [known] at hother
      cases hother
      exact .inl last
  | dropped _ => exact iff_of_true agrees_none trivial

end PeerView

namespace Node

variable {node : Node}

/-- The connections and the sessions agree about every peer. -/
def Agrees (node : Node) : Prop := ∀ peerId, (node.view peerId).Agrees

/-- A call spares the connection that its peer is written to. -/
def Spares (node : Node) (call : NodeCall) : Prop := (node.view call.peerId).Spares call.act

/-- The node after a sequence of calls. -/
def afterCalls (node : Node) (calls : List NodeCall) : Node := calls.foldl Node.call node

theorem agrees_new (appUuid : String) (encrypt : Bool) (roomHashes : List RoomHash) :
    (new appUuid encrypt roomHashes).Agrees := by
  intro peerId
  exact PeerView.agrees_none

/-- From tables that agree, a call leads to tables that agree exactly when it
spares the connection that its peer is written to. -/
theorem Agrees.call_iff (agrees : node.Agrees) (call : NodeCall) :
    (node.call call).Agrees ↔ node.Spares call := by
  obtain ⟨events, _, hchange⟩ := makes_call node call
  rw [Spares, ← (agrees call.peerId).change_iff hchange]
  constructor
  · intro hafter
    exact hafter call.peerId
  · intro hself peerId
    by_cases hpeer : peerId = call.peerId
    · rw [hpeer]
      exact hself
    · rw [view_call_of_ne hpeer]
      exact agrees peerId

/-- Along any sequence of calls to a new node, the tables agree throughout
exactly when every link that is detached is the last of its peer or leaves one
over the connection that the peer is written to. -/
theorem agrees_throughout_iff (appUuid : String) (encrypt : Bool) (roomHashes : List RoomHash)
    (calls : List NodeCall) :
    (∀ earlier later, calls = earlier ++ later →
        ((new appUuid encrypt roomHashes).afterCalls earlier).Agrees) ↔
      ∀ earlier call later, calls = earlier ++ call :: later →
        ((new appUuid encrypt roomHashes).afterCalls earlier).Spares call :=
  forall_foldl_iff_guarded (fun _ call agrees => agrees.call_iff call)
    (agrees_new appUuid encrypt roomHashes) calls

/-! ## A detach that leaves a closed connection -/

/-- A peer registers over TCP, then over Bluetooth, and the Bluetooth link is
taken down by hand. -/
def detachNewest : List NodeCall :=
  [.register ⟨"peer", none, none⟩ 0 "phone" "tcp" ⟨10000000⟩ "peer" ⟨1, 1⟩ 0,
    .register ⟨"peer", none, none⟩ 1 "phone" "ble" ⟨200000⟩ "peer" ⟨2, 2⟩ 1,
    .disconnectLink "peer" (makeLinkId .ble "peer" 2)]

/-- The peer is still connected over TCP, and the table names the connection
over Bluetooth. -/
theorem not_agrees_detachNewest :
    ¬ ((new "node" false []).afterCalls detachNewest).Agrees := by
  intro agrees
  have hattached := (agrees "peer").attached
  revert hattached
  decide

end Node

end Mlink.Core
