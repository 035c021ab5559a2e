/-
# The session manager

One session for each peer. A new link opens a session or joins the one that is
there; a session takes at most four links, each of a different kind.
-/

import Mathlib.Data.List.AList
import Mlink.Core.Session.Types

namespace Mlink.Core

open Mlink.Protocol

inductive AttachOutcome
  | createdNew (sessionId : SessionId)
  | attachedExisting
  | rejectedDuplicateKind
  | rejectedCapacity
  | rejectedSessionMismatch
  deriving DecidableEq, Repr

namespace AttachOutcome

/-- The link was taken. -/
def isAttached : AttachOutcome → Bool
  | createdNew _ | attachedExisting => true
  | rejectedDuplicateKind | rejectedCapacity | rejectedSessionMismatch => false

end AttachOutcome

structure SessionManager where
  peers : AList fun _ : String => Session

namespace SessionManager

def new : SessionManager := ⟨∅⟩

def get (manager : SessionManager) (peerId : String) : Option Session :=
  manager.peers.lookup peerId

def contains (manager : SessionManager) (peerId : String) : Bool :=
  (manager.get peerId).isSome

/-- Attach a link to the peer's session, or open one under `freshId`. The first
link of an unknown peer cannot claim an existing session. -/
def attachLink (manager : SessionManager) (peerId : String) (link : Link)
    (sessionIdHint : Option SessionId) (freshId : SessionId) :
    AttachOutcome × SessionManager :=
  match manager.get peerId with
  | some session =>
      if sessionIdHint.any (· != session.sessionId) then (.rejectedSessionMismatch, manager)
      else if MAX_LINKS_PER_PEER ≤ session.links.length then (.rejectedCapacity, manager)
      else if session.links.any fun other => other.kind = link.kind then
        (.rejectedDuplicateKind, manager)
      else
        let session := { session with links := session.links ++ [link] }
        (.attachedExisting,
          ⟨manager.peers.insert peerId (session.emit (.linkAdded peerId link.id link.kind))⟩)
  | none =>
      if sessionIdHint.isSome then (.rejectedSessionMismatch, manager)
      else
        let session : Session :=
          { Session.new peerId freshId with links := [link], active := some link.id }
        (.createdNew freshId,
          ⟨manager.peers.insert peerId (session.emit (.linkAdded peerId link.id link.kind))⟩)

/-- Drop a whole peer; its links are closed, and the caller gets the session. -/
def dropPeer (manager : SessionManager) (peerId : String) : Option Session × SessionManager :=
  match manager.get peerId with
  | none => (none, manager)
  | some session => (some session, ⟨manager.peers.erase peerId⟩)

/-- Detach a single link and say so. `true` if the peer was removed with it. -/
def detachLink (manager : SessionManager) (peerId linkId : String) : Bool × SessionManager :=
  match manager.get peerId with
  | none => (false, manager)
  | some session =>
      if linkId ∈ session.links.map Link.id then
        let session := (session.removeLink linkId).emit (.linkRemoved peerId linkId "detach")
        let session := session.clearActive linkId
        if session.links.isEmpty then (true, ⟨manager.peers.erase peerId⟩)
        else (false, ⟨manager.peers.insert peerId session⟩)
      else (false, manager)

/-- The session's part of `switch_active_link`: the kind of the link, and the
link that was active before. -/
def switchActiveLink (manager : SessionManager) (peerId toLink : String) :
    Result (TransportKind × String) × SessionManager :=
  match manager.get peerId with
  | none => (.error (.handlerError s!"no session for peer {peerId}"), manager)
  | some session =>
      match session.linkById toLink with
      | none => (.error (.handlerError s!"link {toLink} not found on peer {peerId}"), manager)
      | some link =>
          (.ok (link.kind, session.active.getD ""),
            ⟨manager.peers.insert peerId { session with active := some toLink }⟩)

/-- What a holder of the peer's session does to it. -/
def update (manager : SessionManager) (peerId : String) (use : Session → Session) :
    SessionManager :=
  match manager.get peerId with
  | none => manager
  | some session => ⟨manager.peers.insert peerId (use session)⟩

variable {manager : SessionManager} {peerId linkId : String}

/-! ## What an operation can do -/

/-- The session that the first link of a peer opens. -/
def opened (peerId : String) (link : Link) (freshId : SessionId) : Session :=
  Session.emit { Session.new peerId freshId with links := [link], active := some link.id }
    (.linkAdded peerId link.id link.kind)

/-- A session with one more link. -/
def joined (session : Session) (peerId : String) (link : Link) : Session :=
  Session.emit { session with links := session.links ++ [link] }
    (.linkAdded peerId link.id link.kind)

/-- A session with one link less. -/
def left (session : Session) (peerId linkId : String) : Session :=
  ((session.removeLink linkId).emit (.linkRemoved peerId linkId "detach")).clearActive linkId

/-- An attach is rejected, opens a session, or adds a link of a new kind to a
session that has room. -/
theorem attachLink_cases (manager : SessionManager) (peerId : String) (link : Link)
    (hint : Option SessionId) (freshId : SessionId) :
    ((manager.attachLink peerId link hint freshId).1.isAttached = false ∧
        (manager.attachLink peerId link hint freshId).2 = manager) ∨
      (manager.get peerId = none ∧ hint = none ∧
        manager.attachLink peerId link hint freshId =
          (.createdNew freshId, ⟨manager.peers.insert peerId (opened peerId link freshId)⟩)) ∨
      ∃ session, manager.get peerId = some session ∧
        session.links.length < MAX_LINKS_PER_PEER ∧
        (∀ other ∈ session.links, other.kind ≠ link.kind) ∧
        manager.attachLink peerId link hint freshId =
          (.attachedExisting, ⟨manager.peers.insert peerId (joined session peerId link)⟩) := by
  cases hsession : manager.get peerId with
  | none =>
      simp only [attachLink, hsession]
      split_ifs with hclaims
      · exact .inl ⟨rfl, rfl⟩
      · rw [Option.not_isSome_iff_eq_none] at hclaims
        exact .inr (.inl ⟨trivial, hclaims, rfl⟩)
  | some session =>
      simp only [attachLink, hsession]
      split_ifs with hmismatch hfull hkind
      · exact .inl ⟨rfl, rfl⟩
      · exact .inl ⟨rfl, rfl⟩
      · exact .inl ⟨rfl, rfl⟩
      · refine .inr (.inr ⟨session, rfl, Nat.lt_of_not_le hfull, ?_, rfl⟩)
        intro other hother hsame
        exact hkind (List.any_eq_true.mpr ⟨other, hother, decide_eq_true hsame⟩)

/-- With no session id to claim, a link is only refused by a session that is
there and does not take its kind. -/
theorem not_takes_of_refused {link : Link} {freshId : SessionId}
    (refused : (manager.attachLink peerId link none freshId).1.isAttached = false) :
    ∃ session, manager.get peerId = some session ∧ ¬ session.Takes link.kind := by
  rcases attachLink_cases manager peerId link none freshId with
    ⟨_, hsame⟩ | ⟨_, _, hopened⟩ | ⟨session, _, _, _, hjoined⟩
  · cases hsession : manager.get peerId with
    | none =>
        simp only [attachLink, hsession] at refused
        cases refused
    | some session =>
        refine ⟨session, rfl, ?_⟩
        rintro ⟨hroom, hkinds⟩
        have hany : ¬ (session.links.any fun other => other.kind = link.kind) = true := by
          simpa using hkinds
        simp only [attachLink, hsession, Option.any_none, Bool.false_eq_true, if_false,
          if_neg (Nat.not_le_of_lt hroom), if_neg hany] at refused
        cases refused
  · rw [hopened] at refused
    cases refused
  · rw [hjoined] at refused
    cases refused

/-- A detach does nothing, takes the last link and the session with it, or leaves
a session with a link less. -/
theorem detachLink_cases (manager : SessionManager) (peerId linkId : String) :
    ((∀ session ∈ manager.get peerId, linkId ∉ session.links.map Link.id) ∧
        manager.detachLink peerId linkId = (false, manager)) ∨
      ∃ session, manager.get peerId = some session ∧ linkId ∈ session.links.map Link.id ∧
        (((session.removeLink linkId).links = [] ∧
            manager.detachLink peerId linkId = (true, ⟨manager.peers.erase peerId⟩)) ∨
          ((session.removeLink linkId).links ≠ [] ∧
            manager.detachLink peerId linkId =
              (false, ⟨manager.peers.insert peerId (left session peerId linkId)⟩))) := by
  cases hsession : manager.get peerId with
  | none =>
      simp only [detachLink, hsession]
      left
      refine ⟨?_, trivial⟩
      rintro session ⟨⟩
  | some session =>
      simp only [detachLink, hsession]
      split_ifs with hattached hlast
      · exact .inr ⟨session, rfl, hattached, .inl ⟨List.isEmpty_iff.mp hlast, rfl⟩⟩
      · refine .inr ⟨session, rfl, hattached, .inr ⟨?_, rfl⟩⟩
        intro hempty
        exact hlast (List.isEmpty_iff.mpr hempty)
      · left
        refine ⟨?_, rfl⟩
        rintro _ ⟨⟩
        exact hattached

/-- Dropping a peer leaves it without a session. -/
theorem get_dropPeer_self (manager : SessionManager) (peerId : String) :
    (manager.dropPeer peerId).2.get peerId = none := by
  cases hsession : manager.get peerId with
  | none =>
      simp only [dropPeer, hsession]
  | some session =>
      simp only [dropPeer, hsession]
      exact AList.lookup_erase _ _

theorem get_dropPeer_of_ne {other : String} (hne : other ≠ peerId) :
    (manager.dropPeer peerId).2.get other = manager.get other := by
  cases hsession : manager.get peerId with
  | none => simp only [dropPeer, hsession]
  | some session =>
      simp only [dropPeer, hsession]
      exact AList.lookup_erase_ne hne

/-- Detaching the last link leaves the peer without a session. -/
theorem get_detachLink_of_last {session : Session} (known : manager.get peerId = some session)
    (attached : linkId ∈ session.links.map Link.id)
    (last : (session.removeLink linkId).links = []) :
    (manager.detachLink peerId linkId).2.get peerId = none := by
  rcases detachLink_cases manager peerId linkId with
    ⟨habsent, _⟩ | ⟨held, hknown, _, ⟨_, hgone⟩ | ⟨hothers, _⟩⟩
  · exact absurd attached (habsent session known)
  · rw [hgone]
    exact AList.lookup_erase _ _
  · rw [known, Option.some.injEq] at hknown
    rw [hknown] at last
    exact absurd last hothers

/-- Detaching a link of one peer leaves the other sessions alone. -/
theorem get_detachLink_of_ne {other : String} (hne : other ≠ peerId) :
    (manager.detachLink peerId linkId).2.get other = manager.get other := by
  rcases detachLink_cases manager peerId linkId with ⟨_, hsame⟩ | ⟨session, _, _, hlast | hmore⟩
  · rw [hsame]
  · rw [hlast.2]
    exact AList.lookup_erase_ne hne
  · rw [hmore.2]
    exact AList.lookup_insert_ne hne

/-- Attaching a link to one peer leaves the other sessions alone. -/
theorem get_attachLink_of_ne {other : String} {link : Link} {hint : Option SessionId}
    {freshId : SessionId} (hne : other ≠ peerId) :
    (manager.attachLink peerId link hint freshId).2.get other = manager.get other := by
  rcases attachLink_cases manager peerId link hint freshId with
    ⟨_, hsame⟩ | ⟨_, _, hopened⟩ | ⟨session, _, _, _, hjoined⟩
  · rw [hsame]
  · rw [hopened]
    exact AList.lookup_insert_ne hne
  · rw [hjoined]
    exact AList.lookup_insert_ne hne

/-- An update reaches the peer's session, if there is one. -/
theorem get_update_self (manager : SessionManager) (peerId : String) (use : Session → Session) :
    (manager.update peerId use).get peerId = (manager.get peerId).map use := by
  cases hsession : manager.get peerId with
  | none =>
      simp only [update, hsession]
      rfl
  | some session =>
      simp only [update, hsession]
      exact AList.lookup_insert _

theorem get_update_of_ne {use : Session → Session} {other : String} (hne : other ≠ peerId) :
    (manager.update peerId use).get other = manager.get other := by
  cases hsession : manager.get peerId with
  | none => simp only [update, hsession]
  | some session =>
      simp only [update, hsession]
      exact AList.lookup_insert_ne hne

/-- The first link of a peer opens a session with that link alone. -/
theorem attachLink_of_unknown (link : Link) (freshId : SessionId)
    (unknown : manager.get peerId = none) :
    (manager.attachLink peerId link none freshId).1 = .createdNew freshId ∧
      ∃ session, (manager.attachLink peerId link none freshId).2.get peerId = some session ∧
        session.links = [link] := by
  simp only [attachLink, unknown]
  exact ⟨rfl, _, AList.lookup_insert _, rfl⟩

/-- A second link of a kind is refused, and nothing changes. -/
theorem attachLink_of_same_kind {held : Link} {session : Session} (link : Link)
    (hint : Option SessionId) (freshId : SessionId)
    (known : manager.get peerId = some session) (attached : held ∈ session.links)
    (same : held.kind = link.kind) :
    (manager.attachLink peerId link hint freshId).1.isAttached = false ∧
      (manager.attachLink peerId link hint freshId).2 = manager := by
  have hany : (session.links.any fun other => other.kind = link.kind) = true := by
    rw [List.any_eq_true]
    exact ⟨held, attached, by simp [same]⟩
  simp only [attachLink, known]
  split_ifs
  · exact ⟨rfl, rfl⟩
  · exact ⟨rfl, rfl⟩
  · exact ⟨rfl, rfl⟩

end SessionManager

end Mlink.Core
