/-
# A peer is gone with its last link

When a read fails, the reader deals with the session and then takes the peer out
of the tables and says that it is gone, whatever the session still holds. That
is right when no link is attached from then on: the link that the reader detaches
must be the last, and none may be attached before the cleanup has ended.
-/

import Mlink.Core.Node.PeerReader

namespace Mlink.Core

open Mlink.Protocol Transition

/-! ## What takes nothing away and what gives nothing -/

namespace PeerView

variable {view after : PeerView}

/-- A link of the peer's session is attached. -/
def Linked (view : PeerView) : Prop := ∃ session ∈ view.session, session.links ≠ []

/-- Of a peer there is no more than before: no link where there was none, and
no entry in a table that had none. -/
structure Shrinks (view after : PeerView) : Prop where
  linked : after.Linked → view.Linked
  conn : view.conn = none → after.conn = none
  listed : view.listed = none → after.listed = none

theorem Shrinks.refl (view : PeerView) : Shrinks view view := ⟨id, id, id⟩

theorem shrinks_none (view : PeerView) : view.Shrinks ⟨none, none, none⟩ where
  linked := by
    rintro ⟨session, ⟨⟩, _⟩
  conn _ := rfl
  listed _ := rfl

/-- Links of a session that is there are attached. -/
theorem linked_of_attached {session : Session} {linkId : String}
    (known : view.session = some session) (attached : linkId ∈ session.links.map Link.id) :
    view.Linked := by
  refine ⟨session, known, ?_⟩
  intro hempty
  simp [hempty] at attached

end PeerView

/-- An act that attaches nothing gives its peer nothing. -/
theorem PeerChange.shrinks {peerId : String} {act : PeerAct} {view after : PeerView}
    {events : List NodeEvent} (change : PeerChange peerId act view events after)
    (attachless : act.attaches = false) : view.Shrinks after := by
  cases change with
  | refused _ attaches _ => exact .refl view
  | registeredFirst _ unknown link peer freshId => cases attachless
  | registered _ session known link peer => cases attachless
  | attached _ attaches _ session known link => rcases attaches with rfl | rfl <;> cases attachless
  | installedFirst _ unknown link freshId => cases attachless
  | announced _ session known refused linkId => exact .refl view
  | missed _ linkId absent => exact .refl view
  | left _ session known linkId attached others =>
      exact ⟨fun _ => PeerView.linked_of_attached known attached, id, id⟩
  | leftLast _ session known linkId attached last => exact PeerView.shrinks_none view
  | dropped _ => exact PeerView.shrinks_none view

namespace Node

variable {node after : Node} {peerId : String}

theorem linked_iff_linkIds : (node.view peerId).Linked ↔ ∃ ids ∈ node.linkIds peerId, ids ≠ [] := by
  simp [PeerView.Linked, linkIds, view]

theorem OnlyReads.shrinks (only : node.OnlyReads after) (peerId : String) :
    (node.view peerId).Shrinks (after.view peerId) where
  linked := by
    rw [linked_iff_linkIds, linked_iff_linkIds, only.linkIds]
    exact id
  conn hnone := (congrArg (AList.lookup peerId) only.connections).trans hnone
  listed hnone := (congrArg (AList.lookup peerId) only.peerManager).trans hnone

theorem shrinks_detachLink (node : Node) (peerId linkId other : String) :
    (node.view other).Shrinks
      (view { node with sessions := (node.sessions.detachLink peerId linkId).2 } other) := by
  by_cases hother : other = peerId
  · rw [hother]
    rcases SessionManager.detachLink_cases node.sessions peerId linkId with
      ⟨_, hmissed⟩ | ⟨held, hknown, hattached, _⟩
    · rw [hmissed]
      exact .refl _
    · exact ⟨fun _ => PeerView.linked_of_attached hknown hattached, id, id⟩
  · rw [view_setSessions node (node.sessions.detachLink peerId linkId).2 other,
      SessionManager.get_detachLink_of_ne hother]
    exact .refl _

theorem shrinks_dropPeer (node : Node) (peerId other : String) :
    (node.view other).Shrinks
      (view { node with sessions := (node.sessions.dropPeer peerId).2 } other) := by
  by_cases hother : other = peerId
  · rw [hother, view_setSessions node (node.sessions.dropPeer peerId).2 peerId,
      SessionManager.get_dropPeer_self]
    refine ⟨?_, id, id⟩
    rintro ⟨session, ⟨⟩, _⟩
  · rw [view_setSessions node (node.sessions.dropPeer peerId).2 other,
      SessionManager.get_dropPeer_of_ne hother]
    exact .refl _

theorem lookup_erase_of_none {β : Type} {entries : AList fun _ : String => β} {key other : String}
    (hnone : entries.lookup key = none) : (entries.erase other).lookup key = none := by
  by_cases hkey : key = other
  · rw [hkey]
    exact AList.lookup_erase _ _
  · rwa [AList.lookup_erase_ne hkey]

end Node

/-- No step of a reader gives a peer anything. -/
theorem ReaderMove.shrinks {peerId : String} {node after : Node} {stage next : ReaderStage}
    (move : ReaderMove peerId node stage after next) (other : String) :
    (node.view other).Shrinks (after.view other) := by
  cases move with
  | reads _ _ only => exact only.shrinks other
  | detached linkId => exact Node.shrinks_detachLink node peerId linkId other
  | dropped => exact Node.shrinks_dropPeer node peerId other
  | evicted => exact ⟨id, Node.lookup_erase_of_none, id⟩
  | removed => exact ⟨id, id, Node.lookup_erase_of_none⟩
  | marked =>
      rw [Node.view_markDisconnected]
      exact .refl _
  | announced =>
      rw [Node.view_emit]
      exact .refl _

/-! ## How far a cleanup has come -/

namespace ReaderStage

/-- The peer's connection has been evicted. -/
def evicted : ReaderStage → Bool
  | removing | marking | announcing => true
  | _ => false

/-- The peer has been removed from the peers. -/
def removed : ReaderStage → Bool
  | marking | announcing => true
  | _ => false

/-- The link that is about to be detached. -/
def detaches : ReaderStage → Option String
  | detaching linkId => some linkId
  | _ => none

/-- If a link is about to be detached, it leaves no other attached. -/
def DetachesLast (node : Node) (peerId : String) (stage : ReaderStage) : Prop :=
  ∀ linkId ∈ stage.detaches, ∀ session ∈ node.sessions.get peerId,
    (session.removeLink linkId).links = []

instance (node : Node) (peerId : String) (stage : ReaderStage) :
    Decidable (stage.DetachesLast node peerId) :=
  inferInstanceAs (Decidable (∀ linkId ∈ stage.detaches, ∀ session ∈ node.sessions.get peerId,
    (session.removeLink linkId).links = []))

end ReaderStage

/-- What a reader has taken away stays away while it cleans up. -/
structure PeerView.Cleared (view : PeerView) (stage : ReaderStage) : Prop where
  unlinked : stage.cleaning = true → ¬ view.Linked
  evicted : stage.evicted = true → view.conn = none
  removed : stage.removed = true → view.listed = none

namespace PeerView

variable {view after : PeerView} {stage : ReaderStage}

theorem Cleared.shrinks (cleared : view.Cleared stage) (shrinks : view.Shrinks after) :
    after.Cleared stage where
  unlinked hcleaning hlinked := cleared.unlinked hcleaning (shrinks.linked hlinked)
  evicted hevicted := shrinks.conn (cleared.evicted hevicted)
  removed hremoved := shrinks.listed (cleared.removed hremoved)

end PeerView

namespace Readers

variable {primitives : Primitives} {run after : Readers}

/-- The reader detaches a link that leaves no other attached, and while a peer
is cleaned up no link is attached to it. -/
def Undisturbed (run : Readers) : RunStep → Prop
  | .call call =>
      call.act.attaches = true → ∀ reader ∈ run.readers, reader.peerId = call.peerId →
        reader.stage.cleaning = false
  | .spawnPeerReader _ => True
  | .advance index _ =>
      ∀ reader ∈ run.readers[index]?, reader.stage.DetachesLast run.node reader.peerId

instance (run : Readers) (label : RunStep) : Decidable (run.Undisturbed label) :=
  match label with
  | .call _ => inferInstanceAs (Decidable (_ = true → ∀ reader ∈ run.readers, _ → _))
  | .spawnPeerReader _ => inferInstanceAs (Decidable True)
  | .advance index _ => inferInstanceAs (Decidable (∀ reader ∈ run.readers[index]?, _))

/-- Every reader's peer is cleared as far as its cleanup has come. -/
def Cleared (run : Readers) : Prop :=
  ∀ reader ∈ run.readers, (run.node.view reader.peerId).Cleared reader.stage

end Readers

end Mlink.Core
