/-
# What holds of every session in the manager

Six operations change a session: a link attaches or detaches, the peer is
dropped, the active link is switched by hand, promoted after a failure or picked
for a send. Each of them, on its own, keeps between one and four links of
different kinds, an active id that names one of them, and the session's own id.
-/

import Mlink.Core.Session.Io
import Mlink.Core.Session.Manager
import Mlink.Lib.Transition

namespace Mlink.Core

open Mlink.Protocol Transition

/-! ## Sound sessions -/

/-- What the manager promises of a session that it holds. -/
structure Session.Sound (session : Session) : Prop where
  nonempty : session.links ≠ []
  capacity : session.links.length ≤ MAX_LINKS_PER_PEER
  kinds : (session.links.map Link.kind).Nodup
  active : ∀ id ∈ session.active, id ∈ session.links.map Link.id

namespace Session

variable {session after : Session}

/-- A session with one link, which is active. -/
theorem sound_first (peerId : String) (sessionId : SessionId) (link : Link) :
    Sound { Session.new peerId sessionId with links := [link], active := some link.id } where
  nonempty := List.cons_ne_nil link []
  capacity := by
    show 1 ≤ 4
    omega
  kinds := List.nodup_singleton _
  active := by
    intro id hid
    cases hid
    exact List.mem_singleton_self _

/-- A link of a new kind fits while there is room. -/
theorem Sound.attach (sound : session.Sound) {link : Link}
    (hroom : session.links.length < MAX_LINKS_PER_PEER)
    (hkind : ∀ other ∈ session.links, other.kind ≠ link.kind) :
    Sound { session with links := session.links ++ [link] } where
  nonempty := List.append_ne_nil_of_right_ne_nil _ (List.cons_ne_nil link [])
  capacity := by
    rw [List.length_append]
    exact hroom
  kinds := by
    rw [List.map_append, List.nodup_append]
    refine ⟨sound.kinds, List.nodup_singleton _, ?_⟩
    intro kind hmem other hother
    obtain ⟨held, hheld, rfl⟩ := List.mem_map.mp hmem
    rw [List.mem_singleton.mp hother]
    exact hkind held hheld
  active := by
    intro id hid
    rw [List.map_append]
    exact List.mem_append_left _ (sound.active id hid)

/-- Taking out a link with another id leaves an id attached. -/
theorem mem_removeLink {id linkId : String} (hmem : id ∈ session.links.map Link.id)
    (hne : id ≠ linkId) : id ∈ (session.removeLink linkId).links.map Link.id := by
  obtain ⟨link, hlink, rfl⟩ := List.mem_map.mp hmem
  apply List.mem_map_of_mem
  rw [removeLink, List.mem_eraseP_of_neg]
  · exact hlink
  · simpa using hne

/-- What is left after a detach is sound, if anything is left. -/
theorem Sound.detach (sound : session.Sound) {linkId : String}
    (hsome : (session.removeLink linkId).links ≠ []) :
    ((session.removeLink linkId).clearActive linkId).Sound where
  nonempty := hsome
  capacity := (List.eraseP_sublist.length_le).trans sound.capacity
  kinds := (List.eraseP_sublist.map Link.kind).nodup sound.kinds
  active := by
    intro id hid
    simp only [clearActive] at hid
    split_ifs at hid with hactive
    · cases hid
    · have hne : id ≠ linkId := by
        rintro rfl
        exact hactive hid
      exact mem_removeLink (sound.active id hid) hne

/-- An attached link may be made active. -/
theorem Sound.activate (sound : session.Sound) {id : String}
    (hmem : id ∈ session.links.map Link.id) : Sound { session with active := some id } where
  nonempty := sound.nonempty
  capacity := sound.capacity
  kinds := sound.kinds
  active := by
    intro other hother
    cases hother
    exact hmem

/-- An event changes none of this. -/
theorem Sound.emit (sound : session.Sound) (event : SessionEvent) : (session.emit event).Sound :=
  ⟨sound.nonempty, sound.capacity, sound.kinds, sound.active⟩

theorem mem_of_linkById {id : String} {link : Link} (hlink : session.linkById id = some link) :
    id ∈ session.links.map Link.id := by
  rw [← id_of_linkById hlink]
  exact List.mem_map_of_mem (List.mem_of_find?_eq_some hlink)

/-- A promotion makes an attached link active, or does nothing. -/
theorem Sound.promoteOnFailure (sound : session.Sound) (failingId : String) (now : Instant) :
    (session.promoteOnFailure failingId now).2.Sound := by
  cases hbest : session.bestExcluding failingId now with
  | none =>
      simp only [Session.promoteOnFailure, hbest]
      exact sound
  | some target =>
      obtain ⟨⟨link, hlink⟩, _⟩ := exists_linkById_of_bestExcluding hbest
      simp only [Session.promoteOnFailure, hbest]
      exact (sound.activate (mem_of_linkById hlink)).emit _

theorem Sound.pickAndPin (sound : session.Sound) (now : Instant) :
    (session.pickAndPin now).2.Sound := by
  cases hbest : session.pickBest now with
  | none =>
      simp only [Session.pickAndPin, hbest]
      exact sound
  | some target =>
      obtain ⟨⟨link, hlink⟩, _⟩ := exists_linkById_of_bestExcluding hbest
      simp only [Session.pickAndPin, hbest]
      by_cases hnone : session.active.isNone
      · rw [if_pos hnone]
        exact sound.activate (mem_of_linkById hlink)
      · rw [if_neg hnone]
        exact sound

/-- A pick keeps the active link, or pins the best one where there was none. -/
theorem Sound.currentOrPick (sound : session.Sound) (now : Instant) :
    (session.currentOrPick now).2.Sound := by
  cases hactive : session.active.bind session.linkById with
  | none =>
      simp only [Session.currentOrPick, hactive]
      exact sound.pickAndPin now
  | some link =>
      simp only [Session.currentOrPick, hactive]
      split_ifs
      · exact sound
      · exact sound.pickAndPin now

theorem sessionId_promoteOnFailure (failingId : String) (now : Instant) :
    (session.promoteOnFailure failingId now).2.sessionId = session.sessionId := by
  rw [promoteOnFailure]
  cases session.bestExcluding failingId now <;> rfl

theorem sessionId_pickAndPin (now : Instant) :
    (session.pickAndPin now).2.sessionId = session.sessionId := by
  rw [pickAndPin]
  cases session.pickBest now <;> rfl

theorem sessionId_currentOrPick (now : Instant) :
    (session.currentOrPick now).2.sessionId = session.sessionId := by
  rw [currentOrPick]
  cases session.active.bind session.linkById with
  | none => exact sessionId_pickAndPin now
  | some link =>
      dsimp only
      split_ifs
      · rfl
      · exact sessionId_pickAndPin now

end Session

/-! ## The manager, one operation after another -/

inductive ManagerOp
  | attach (peerId : String) (link : Link) (sessionIdHint : Option SessionId)
      (freshId : SessionId)
  | detach (peerId linkId : String)
  | drop (peerId : String)
  | switch (peerId toLink : String)
  | promote (peerId failingId : String) (now : Instant)
  /-- A send picks its link. -/
  | pick (peerId : String) (now : Instant)

namespace SessionManager

def perform (manager : SessionManager) : ManagerOp → SessionManager
  | .attach peerId link sessionIdHint freshId =>
      (manager.attachLink peerId link sessionIdHint freshId).2
  | .detach peerId linkId => (manager.detachLink peerId linkId).2
  | .drop peerId => (manager.dropPeer peerId).2
  | .switch peerId toLink => (manager.switchActiveLink peerId toLink).2
  | .promote peerId failingId now =>
      manager.update peerId fun session => (session.promoteOnFailure failingId now).2
  | .pick peerId now => manager.update peerId fun session => (session.currentOrPick now).2

/-- The manager from its start, under any sequence of operations. -/
def system : System SessionManager ManagerOp where
  init manager := manager = .new
  step source op target := target = source.perform op

def Sound (manager : SessionManager) : Prop :=
  ∀ peerId, ∀ session ∈ manager.get peerId, session.Sound

/-- No session that is there before and after changes its id. -/
def KeepsIds (before after : SessionManager) : Prop :=
  ∀ peerId, ∀ session ∈ before.get peerId, ∀ later ∈ after.get peerId,
    later.sessionId = session.sessionId

variable {manager : SessionManager}

theorem keepsIds_refl (manager : SessionManager) : manager.KeepsIds manager := by
  intro peerId session hsession later hlater
  rw [Option.mem_unique hlater hsession]

/-- Putting a sound session in place of the peer's keeps the others. -/
theorem Sound.insert (sound : manager.Sound) (peerId : String) {session : Session}
    (hsession : session.Sound) : Sound ⟨manager.peers.insert peerId session⟩ := by
  intro other found hfound
  by_cases here : other = peerId
  · subst here
    rw [get, AList.lookup_insert] at hfound
    cases hfound
    exact hsession
  · rw [get, AList.lookup_insert_ne here] at hfound
    exact sound other found hfound

theorem Sound.erase (sound : manager.Sound) (peerId : String) :
    Sound ⟨manager.peers.erase peerId⟩ := by
  intro other found hfound
  by_cases here : other = peerId
  · subst here
    rw [get, AList.lookup_erase] at hfound
    cases hfound
  · rw [get, AList.lookup_erase_ne here] at hfound
    exact sound other found hfound

/-- A session replaced by one of the same id, or opened where there was none. -/
theorem keepsIds_insert (peerId : String) {session : Session}
    (hsame : ∀ old ∈ manager.get peerId, session.sessionId = old.sessionId) :
    manager.KeepsIds ⟨manager.peers.insert peerId session⟩ := by
  intro other old hold later hlater
  by_cases here : other = peerId
  · subst here
    rw [get, AList.lookup_insert] at hlater
    cases hlater
    exact hsame old hold
  · rw [get, AList.lookup_insert_ne here] at hlater
    rw [Option.mem_unique hlater hold]

theorem keepsIds_erase (peerId : String) :
    manager.KeepsIds ⟨manager.peers.erase peerId⟩ := by
  intro other old hold later hlater
  by_cases here : other = peerId
  · subst here
    rw [get, AList.lookup_erase] at hlater
    cases hlater
  · rw [get, AList.lookup_erase_ne here] at hlater
    rw [Option.mem_unique hlater hold]

/-- A rejected attach is no operation. -/
theorem attachLink_of_rejected {peerId : String} {link : Link} {hint : Option SessionId}
    {freshId : SessionId}
    (hrejected : (manager.attachLink peerId link hint freshId).1.isAttached = false) :
    (manager.attachLink peerId link hint freshId).2 = manager := by
  rcases attachLink_cases manager peerId link hint freshId with
    ⟨_, hsame⟩ | ⟨_, _, hopened⟩ | ⟨session, _, _, _, hjoined⟩
  · exact hsame
  · rw [hopened] at hrejected
    cases hrejected
  · rw [hjoined] at hrejected
    cases hrejected

theorem Sound.attachLink (sound : manager.Sound) (peerId : String) (link : Link)
    (hint : Option SessionId) (freshId : SessionId) :
    (manager.attachLink peerId link hint freshId).2.Sound ∧
      manager.KeepsIds (manager.attachLink peerId link hint freshId).2 := by
  rcases attachLink_cases manager peerId link hint freshId with
    ⟨_, hsame⟩ | ⟨hunknown, _, hopened⟩ | ⟨session, hsession, hroom, hkind, hjoined⟩
  · rw [hsame]
    exact ⟨sound, keepsIds_refl manager⟩
  · rw [hopened]
    refine ⟨sound.insert peerId ((Session.sound_first peerId freshId link).emit _), ?_⟩
    apply keepsIds_insert
    intro old hold
    rw [hunknown] at hold
    cases hold
  · rw [hjoined]
    have hsound := (sound peerId session hsession).attach hroom hkind
    refine ⟨sound.insert peerId (hsound.emit _), ?_⟩
    apply keepsIds_insert
    intro old hold
    rw [Option.mem_unique hold hsession]
    rfl

theorem Sound.detachLink (sound : manager.Sound) (peerId linkId : String) :
    (manager.detachLink peerId linkId).2.Sound ∧
      manager.KeepsIds (manager.detachLink peerId linkId).2 := by
  rcases detachLink_cases manager peerId linkId with
    ⟨_, hsame⟩ | ⟨session, hsession, _, ⟨_, hlast⟩ | ⟨hsome, hmore⟩⟩
  · rw [hsame]
    exact ⟨sound, keepsIds_refl manager⟩
  · rw [hlast]
    exact ⟨sound.erase peerId, keepsIds_erase peerId⟩
  · rw [hmore]
    have hsound := (sound peerId session hsession).detach hsome
    refine ⟨sound.insert peerId (hsound.emit _), ?_⟩
    apply keepsIds_insert
    intro old hold
    rw [Option.mem_unique hold hsession]
    rfl

theorem Sound.dropPeer (sound : manager.Sound) (peerId : String) :
    (manager.dropPeer peerId).2.Sound ∧ manager.KeepsIds (manager.dropPeer peerId).2 := by
  cases hsession : manager.get peerId with
  | none =>
      simp only [SessionManager.dropPeer, hsession]
      exact ⟨sound, keepsIds_refl manager⟩
  | some session =>
      simp only [SessionManager.dropPeer, hsession]
      exact ⟨sound.erase peerId, keepsIds_erase peerId⟩

theorem Sound.switchActiveLink (sound : manager.Sound) (peerId toLink : String) :
    (manager.switchActiveLink peerId toLink).2.Sound ∧
      manager.KeepsIds (manager.switchActiveLink peerId toLink).2 := by
  cases hsession : manager.get peerId with
  | none =>
      simp only [SessionManager.switchActiveLink, hsession]
      exact ⟨sound, keepsIds_refl manager⟩
  | some session =>
      cases hlink : session.linkById toLink with
      | none =>
          simp only [SessionManager.switchActiveLink, hsession, hlink]
          exact ⟨sound, keepsIds_refl manager⟩
      | some link =>
          simp only [SessionManager.switchActiveLink, hsession, hlink]
          have hsound := (sound peerId session hsession).activate (Session.mem_of_linkById hlink)
          refine ⟨sound.insert peerId hsound, ?_⟩
          apply keepsIds_insert
          intro old hold
          rw [Option.mem_unique hold hsession]

/-- What keeps a session sound and keeps its id may be done to any session. -/
theorem Sound.update (sound : manager.Sound) (peerId : String) {use : Session → Session}
    (huse : ∀ session : Session, session.Sound → (use session).Sound)
    (hid : ∀ session : Session, (use session).sessionId = session.sessionId) :
    (manager.update peerId use).Sound ∧ manager.KeepsIds (manager.update peerId use) := by
  cases hsession : manager.get peerId with
  | none =>
      simp only [SessionManager.update, hsession]
      exact ⟨sound, keepsIds_refl manager⟩
  | some session =>
      simp only [SessionManager.update, hsession]
      refine ⟨sound.insert peerId (huse session (sound peerId session hsession)), ?_⟩
      apply keepsIds_insert
      intro old hold
      rw [Option.mem_unique hold hsession]
      exact hid session

/-- One operation keeps every session sound and every id. -/
theorem Sound.perform (sound : manager.Sound) (op : ManagerOp) :
    (manager.perform op).Sound ∧ manager.KeepsIds (manager.perform op) := by
  cases op with
  | attach peerId link sessionIdHint freshId =>
      exact sound.attachLink peerId link sessionIdHint freshId
  | detach peerId linkId => exact sound.detachLink peerId linkId
  | drop peerId => exact sound.dropPeer peerId
  | switch peerId toLink => exact sound.switchActiveLink peerId toLink
  | promote peerId failingId now =>
      exact sound.update peerId (fun _ hsound => hsound.promoteOnFailure failingId now)
        fun _ => Session.sessionId_promoteOnFailure failingId now
  | pick peerId now =>
      exact sound.update peerId (fun _ hsound => hsound.currentOrPick now)
        fun _ => Session.sessionId_currentOrPick now

/-- In every run every session is sound; no operation changes the id of a
session that it leaves in place, and an attach that is rejected changes nothing. -/
theorem sound_of_reachable (reached : system.Reachable manager) :
    manager.Sound ∧ (∀ op, manager.KeepsIds (manager.perform op)) ∧
      ∀ peerId link hint freshId,
        (manager.attachLink peerId link hint freshId).1.isAttached = false →
          (manager.attachLink peerId link hint freshId).2 = manager := by
  have hsound : manager.Sound := by
    apply reached.invariant Sound
    · rintro _ rfl peerId session hsession
      cases hsession
    · rintro source op _ _ sound rfl
      exact (sound.perform op).1
  exact ⟨hsound, fun op => (hsound.perform op).2, fun _ _ _ _ => attachLink_of_rejected⟩

/-- Two links attach, and the first one detaches again. -/
theorem sound_of_reachable_detached :
    Sound (((new.perform (.attach "a" (.new "tcp:a" 0 .tcp ⟨10000000⟩ 0) none 1)).perform
      (.attach "a" (.new "ble:a" 1 .ble ⟨200000⟩ 0) none 2)).perform (.detach "a" "tcp:a")) :=
  (sound_of_reachable (.step (.step (.step (.init rfl) rfl) rfl) rfl)).1

end SessionManager

end Mlink.Core
