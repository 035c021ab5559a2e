/-
# The events about a peer

A node says that a peer connected when the peer's session opens, and that it
disconnected when the session goes. The calls and the readers emit these events
by hand, so they tell the truth only if each is emitted at a change: a peer that
is disconnected has a session, a cleanup takes the session's last link, and a
connection that is installed directly is one that the session takes.
-/

import Mlink.Core.Node.PeerReader
import Mlink.Lib.Alternation
import Mlink.Lib.Entries

namespace Mlink.Core

open Mlink.Protocol Transition Alternation

/-! ## What the events tell -/

/-- What an event tells about whether a peer is connected. -/
def NodeEvent.notice (peerId : String) : NodeEvent → Option Bool
  | .peerConnected other => if other = peerId then some true else none
  | .peerDisconnected other => if other = peerId then some false else none
  | _ => none

@[simp]
theorem NodeEvent.notice_peerConnected (peerId : String) :
    (peerConnected peerId).notice peerId = some true := if_pos rfl

@[simp]
theorem NodeEvent.notice_peerDisconnected (peerId : String) :
    (peerDisconnected peerId).notice peerId = some false := if_pos rfl

/-- What the events tell about a peer, in order. -/
def notices (events : List NodeEvent) (peerId : String) : List Bool :=
  events.filterMap (NodeEvent.notice peerId)

/-- The events about a peer alternate, and tell whether it is present. -/
structure Tells (events : List NodeEvent) (peerId : String) (present : Prop) : Prop where
  alternates : Alternates (notices events peerId)
  current : current (notices events peerId) = true ↔ present

namespace Tells

variable {events : List NodeEvent} {peerId : String} {present : Prop}

theorem congr (tells : Tells events peerId present) {other : Prop} (hiff : present ↔ other) :
    Tells events peerId other :=
  ⟨tells.alternates, tells.current.trans hiff⟩

/-- Events about anything else change nothing. -/
theorem append (tells : Tells events peerId present) (later : List NodeEvent)
    (silent : ∀ event ∈ later, event.notice peerId = none) :
    Tells (events ++ later) peerId present := by
  have hnotices : notices (events ++ later) peerId = notices events peerId := by
    rw [notices, List.filterMap_append, List.filterMap_eq_nil_iff.mpr silent, List.append_nil]
    rfl
  constructor
  · rw [hnotices]
    exact tells.alternates
  · rw [hnotices]
    exact tells.current

theorem notices_concat (events : List NodeEvent) {event : NodeEvent} {notice : Bool}
    (hnotice : event.notice peerId = some notice) :
    notices (events ++ [event]) peerId = notices events peerId ++ [notice] := by
  simp [notices, hnotice]

/-- A peer that was absent connects. -/
theorem connected (tells : Tells events peerId present) (absent : ¬ present) :
    Tells (events ++ [.peerConnected peerId]) peerId True := by
  have hnotices := notices_concat events (NodeEvent.notice_peerConnected peerId)
  constructor
  · rw [hnotices, alternates_concat]
    exact ⟨tells.alternates, fun hcurrent => absent (tells.current.mp hcurrent)⟩
  · rw [hnotices, current_concat]
    exact iff_of_true rfl trivial

/-- A peer that was present disconnects. -/
theorem disconnected (tells : Tells events peerId present) (here : present) :
    Tells (events ++ [.peerDisconnected peerId]) peerId False := by
  have hnotices := notices_concat events (NodeEvent.notice_peerDisconnected peerId)
  constructor
  · rw [hnotices, alternates_concat, tells.current.mpr here]
    exact ⟨tells.alternates, Bool.noConfusion⟩
  · rw [hnotices, current_concat]
    exact iff_of_false Bool.noConfusion id

end Tells

/-! ## What an act announces -/

namespace PeerView

/-- An act announces what it does: a peer that is disconnected has a session,
and a session takes the connection that is installed. -/
def Announces (view : PeerView) : PeerAct → Prop
  | .attachConnection => ∀ session ∈ view.session, session.Takes .mock
  | .disconnect => view.session.isSome = true
  | _ => True

instance (view : PeerView) (act : PeerAct) : Decidable (view.Announces act) := by
  cases act with
  | attachConnection =>
      exact inferInstanceAs (Decidable (∀ session ∈ view.session, session.Takes .mock))
  | disconnect => exact inferInstanceAs (Decidable (_ = true))
  | _ => exact inferInstanceAs (Decidable True)

end PeerView

namespace PeerAct

/-- The act may open a session. -/
def opens : PeerAct → Bool
  | register | attachConnection => true
  | attachSecondary | detach _ | disconnect => false

end PeerAct

namespace PeerChange

variable {peerId : String} {act : PeerAct} {view after : PeerView} {events : List NodeEvent}

/-- The events of a change tell nothing about another peer. -/
theorem notice_of_ne (change : PeerChange peerId act view events after) {other : String}
    (hne : other ≠ peerId) : ∀ event ∈ events, event.notice other = none := by
  cases change <;> simp [NodeEvent.notice, hne.symm]

/-- While the events told whether the peer had a session, they do so after an
act that announces what it does. -/
theorem tells (change : PeerChange peerId act view events after) (announces : view.Announces act)
    {earlier : List NodeEvent} (told : Tells earlier peerId (view.session.isSome = true)) :
    Tells (earlier ++ events) peerId (after.session.isSome = true) := by
  cases change with
  | refused _ attaches _ =>
      rw [List.append_nil]
      exact told
  | registeredFirst _ unknown link peer freshId =>
      rw [unknown] at told
      have hadded := told.append [.linkAdded peerId link.id link.kind]
        (by simp [NodeEvent.notice])
      simpa using hadded.connected Bool.noConfusion
  | registered _ session known link peer =>
      rw [known] at told
      exact told.append _ (by simp [NodeEvent.notice])
  | attached _ attaches _ session known link =>
      rw [known] at told
      exact told.append _ (by simp [NodeEvent.notice])
  | installedFirst _ unknown link freshId =>
      rw [unknown] at told
      have hadded := (told.connected Bool.noConfusion).append
        [.linkAdded peerId link.id link.kind] (by simp [NodeEvent.notice])
      simpa using hadded
  | announced _ session known refused linkId => exact told.append _ (by simp [NodeEvent.notice])
  | missed _ linkId absent => exact told.append _ (by simp [NodeEvent.notice])
  | left _ session known linkId attached others =>
      rw [known] at told
      exact told.append _ (by simp [NodeEvent.notice])
  | leftLast _ session known linkId attached last =>
      rw [known] at told
      have hremoved := told.append [.linkRemoved peerId linkId "manual"]
        (by simp [NodeEvent.notice])
      simpa using hremoved.disconnected rfl
  | dropped _ => simpa using told.disconnected announces

/-- An act that opens no session leaves a peer without one as it is. -/
theorem quiet_of_absent (change : PeerChange peerId act view events after)
    (announces : view.Announces act) (absent : view.session = none)
    (opensNone : act.opens = false) :
    after.session = none ∧ ∀ event ∈ events, event.notice peerId = none := by
  cases change with
  | refused _ attaches _ => exact ⟨absent, by simp⟩
  | registeredFirst _ unknown link peer freshId => cases opensNone
  | registered _ session known link peer => cases opensNone
  | attached _ attaches _ session known link =>
      rw [absent] at known
      cases known
  | installedFirst _ unknown link freshId => cases opensNone
  | announced _ session known refused linkId => cases opensNone
  | missed _ linkId absent' => exact ⟨absent, by simp [NodeEvent.notice]⟩
  | left _ session known linkId attached others =>
      rw [absent] at known
      cases known
  | leftLast _ session known linkId attached last =>
      rw [absent] at known
      cases known
  | dropped _ =>
      rw [PeerView.Announces, absent] at announces
      cases announces

end PeerChange

/-! ## Runs -/

namespace ReaderStage

/-- A cleanup that is about to deal with the session takes the peer's last link,
or drops a session that is there. -/
def TakesLast (node : Node) (peerId : String) : ReaderStage → Prop
  | detaching linkId =>
      ∃ session ∈ node.sessions.get peerId,
        linkId ∈ session.links.map Link.id ∧ (session.removeLink linkId).links = []
  | dropping => (node.sessions.get peerId).isSome = true
  | _ => True

instance (node : Node) (peerId : String) (stage : ReaderStage) :
    Decidable (stage.TakesLast node peerId) := by
  cases stage with
  | detaching linkId =>
      exact inferInstanceAs (Decidable (∃ session ∈ node.sessions.get peerId, _ ∧ _ = []))
  | dropping => exact inferInstanceAs (Decidable (_ = true))
  | _ => exact inferInstanceAs (Decidable True)

end ReaderStage

namespace Readers

variable {primitives : Primitives} {run after : Readers}

/-- A step announces what it does: a call does, and opens no session for a peer
that is being cleaned up; a cleanup takes the peer's last link. -/
def Announces (run : Readers) : RunStep → Prop
  | .call call =>
      (run.node.view call.peerId).Announces call.act ∧
        (call.act.opens = true → ∀ reader ∈ run.readers, reader.peerId = call.peerId →
          reader.stage.cleaning = false)
  | .spawnPeerReader _ => True
  | .advance index _ =>
      ∀ reader ∈ run.readers[index]?, reader.stage.TakesLast run.node reader.peerId

instance (run : Readers) (label : RunStep) : Decidable (run.Announces label) :=
  match label with
  | .call _ =>
      inferInstanceAs (Decidable (PeerView.Announces _ _ ∧ (_ → ∀ reader ∈ run.readers, _ → _)))
  | .spawnPeerReader _ => inferInstanceAs (Decidable True)
  | .advance index _ => inferInstanceAs (Decidable (∀ reader ∈ run.readers[index]?, _))

/-- How many readers are cleaning up after a peer. -/
def cleaners (run : Readers) (peerId : String) : Nat :=
  run.readers.countP fun reader => reader.peerId == peerId && reader.stage.cleaning

/-- A peer that is cleaned up has no session, one reader cleans up after it, and
it is present to the events until that reader says that it is gone. -/
structure Told (run : Readers) : Prop where
  absent : ∀ peerId, 0 < run.cleaners peerId → run.node.sessions.get peerId = none
  alone : ∀ peerId, run.cleaners peerId ≤ 1
  tells : ∀ peerId, Tells run.node.events peerId
    ((run.node.sessions.get peerId).isSome = true ∨ 0 < run.cleaners peerId)

/-- A step that changes none of this. -/
theorem Told.quiet (told : run.Told)
    (cleaners : ∀ peerId, after.cleaners peerId = run.cleaners peerId)
    (sessions : ∀ peerId, (after.node.sessions.get peerId).isSome =
      (run.node.sessions.get peerId).isSome)
    {later : List NodeEvent} (events : after.node.events = run.node.events ++ later)
    (silent : ∀ peerId, ∀ event ∈ later, event.notice peerId = none) : after.Told where
  absent peerId hcleaning := by
    rw [cleaners] at hcleaning
    rw [← Option.isNone_iff_eq_none, ← Option.not_isSome, sessions,
      told.absent peerId hcleaning]
    rfl
  alone peerId := by
    rw [cleaners]
    exact told.alone peerId
  tells peerId := by
    rw [events, sessions, cleaners]
    exact (told.tells peerId).append later (silent peerId)

/-- A call to a peer that is being cleaned up opens nothing and tells nothing. -/
theorem quiet_of_cleaning (told : run.Told) {call : NodeCall}
    (announces : run.Announces (.call call)) {events : List NodeEvent}
    (change : PeerChange call.peerId call.act (run.node.view call.peerId) events
      ((run.node.call call).view call.peerId)) (cleaning : 0 < run.cleaners call.peerId) :
    (run.node.call call).sessions.get call.peerId = none ∧
      ∀ event ∈ events, event.notice call.peerId = none := by
  apply change.quiet_of_absent announces.1 (told.absent call.peerId cleaning)
  rw [← Bool.not_eq_true]
  intro hopens
  obtain ⟨reader, hreader, hcleaning⟩ := List.countP_pos_iff.mp cleaning
  rw [Bool.and_eq_true, beq_iff_eq] at hcleaning
  rw [announces.2 hopens reader hreader hcleaning.1] at hcleaning
  cases hcleaning.2

/-- A call keeps the events true if it announces what it does. -/
theorem Told.call (told : run.Told) {call : NodeCall} (announces : run.Announces (.call call)) :
    Told { run with node := run.node.call call } := by
  obtain ⟨events, hevents, hchange⟩ := Node.makes_call run.node call
  have hother : ∀ peerId ≠ call.peerId,
      (run.node.call call).sessions.get peerId = run.node.sessions.get peerId := by
    intro peerId hne
    exact congrArg PeerView.session (Node.view_call_of_ne hne)
  refine ⟨?_, told.alone, ?_⟩
  · intro peerId hcleaning
    by_cases hpeer : peerId = call.peerId
    · rw [hpeer] at hcleaning ⊢
      exact (quiet_of_cleaning told announces hchange hcleaning).1
    · exact (hother peerId hpeer).trans (told.absent peerId hcleaning)
  · intro peerId
    have hbefore := told.tells peerId
    show Tells (run.node.call call).events peerId
      (((run.node.call call).sessions.get peerId).isSome = true ∨ 0 < run.cleaners peerId)
    rw [hevents]
    by_cases hpeer : peerId = call.peerId
    · rw [hpeer] at hbefore ⊢
      by_cases hcleaning : 0 < run.cleaners call.peerId
      · have hsilent := (quiet_of_cleaning told announces hchange hcleaning).2
        apply (hbefore.append events hsilent).congr
        exact iff_of_true (.inr hcleaning) (.inr hcleaning)
      · apply (hchange.tells announces.1 (hbefore.congr (or_iff_left hcleaning))).congr
        exact (or_iff_left hcleaning).symm
    · rw [hother peerId hpeer]
      exact hbefore.append events (hchange.notice_of_ne hpeer)

/-! ### The readers' steps -/

/-- Advancing one reader counts it out or in. -/
theorem cleaners_set {index : Nat} {moved : Reader} (next : ReaderStage) (node : Node)
    (hmoved : run.readers[index]? = some moved) (peerId : String) :
    cleaners ⟨node, run.readers.set index ⟨moved.peerId, next⟩⟩ peerId =
      run.cleaners peerId - (if moved.peerId = peerId ∧ moved.stage.cleaning = true then 1 else 0) +
        if moved.peerId = peerId ∧ next.cleaning = true then 1 else 0 := by
  obtain ⟨hlength, hget⟩ := List.getElem?_eq_some_iff.mp hmoved
  rw [cleaners, cleaners, List.countP_set hlength, hget]
  simp

/-- A reader that is cleaning up is counted. -/
theorem cleaners_pos {index : Nat} {moved : Reader} (hmoved : run.readers[index]? = some moved)
    (cleaning : moved.stage.cleaning = true) : 0 < run.cleaners moved.peerId := by
  rw [cleaners, List.countP_pos_iff]
  exact ⟨moved, List.mem_of_getElem? hmoved, by simp [cleaning]⟩

/-- A reader that moves without starting or ending its cleanup is counted as before. -/
theorem cleaners_set_of_same {index : Nat} {moved : Reader} {next : ReaderStage} (node : Node)
    (hmoved : run.readers[index]? = some moved) (same : next.cleaning = moved.stage.cleaning)
    (peerId : String) :
    cleaners ⟨node, run.readers.set index ⟨moved.peerId, next⟩⟩ peerId = run.cleaners peerId := by
  apply Entries.countP_set_of_eq _ hmoved
  rw [same]

/-- A reader starts to clean up after a peer whose session it has taken. -/
theorem Told.startCleaning (told : run.Told) {index : Nat} {moved : Reader} {next : ReaderStage}
    (hmoved : run.readers[index]? = some moved) (before : moved.stage.cleaning = false)
    (starts : next.cleaning = true)
    (held : (run.node.sessions.get moved.peerId).isSome = true) {sessions : SessionManager}
    (taken : sessions.get moved.peerId = none)
    (others : ∀ peerId ≠ moved.peerId, sessions.get peerId = run.node.sessions.get peerId) :
    Told ⟨{ run.node with sessions }, run.readers.set index ⟨moved.peerId, next⟩⟩ := by
  have hcleaners : ∀ peerId, cleaners ⟨{ run.node with sessions },
      run.readers.set index ⟨moved.peerId, next⟩⟩ peerId =
        run.cleaners peerId + if moved.peerId = peerId then 1 else 0 := by
    intro peerId
    rw [cleaners_set next _ hmoved]
    simp [before, starts]
  have hnone : run.cleaners moved.peerId = 0 := by
    rw [← Nat.le_zero, ← Nat.not_lt]
    intro hpos
    rw [told.absent moved.peerId hpos] at held
    cases held
  refine ⟨?_, ?_, ?_⟩
  · intro peerId hcleaning
    by_cases hpeer : peerId = moved.peerId
    · rw [hpeer]
      exact taken
    · rw [hcleaners, if_neg (Ne.symm hpeer)] at hcleaning
      exact (others peerId hpeer).trans (told.absent peerId hcleaning)
  · intro peerId
    rw [hcleaners]
    by_cases hpeer : moved.peerId = peerId
    · rw [if_pos hpeer, ← hpeer, hnone]
    · rw [if_neg hpeer]
      exact told.alone peerId
  · intro peerId
    rw [hcleaners]
    by_cases hpeer : moved.peerId = peerId
    · rw [← hpeer, if_pos rfl]
      apply (told.tells moved.peerId).congr
      exact iff_of_true (.inl held) (.inr (Nat.succ_pos _))
    · rw [if_neg hpeer]
      apply (told.tells peerId).congr
      show _ ↔ (sessions.get peerId).isSome = true ∨ _
      rw [others peerId (Ne.symm hpeer)]
      exact Iff.rfl

/-- The one reader that was cleaning up after a peer says that it is gone. -/
theorem Told.announce (told : run.Told) {index : Nat} {moved : Reader} {next : ReaderStage}
    (hmoved : run.readers[index]? = some moved) (before : moved.stage.cleaning = true)
    (ends : next.cleaning = false) :
    Told ⟨run.node.emit (.peerDisconnected moved.peerId),
      run.readers.set index ⟨moved.peerId, next⟩⟩ := by
  have hcleaners : ∀ peerId, cleaners ⟨run.node.emit (.peerDisconnected moved.peerId),
      run.readers.set index ⟨moved.peerId, next⟩⟩ peerId =
        run.cleaners peerId - if moved.peerId = peerId then 1 else 0 := by
    intro peerId
    rw [cleaners_set next _ hmoved]
    simp [before, ends]
  have hone : run.cleaners moved.peerId = 1 :=
    Nat.le_antisymm (told.alone moved.peerId) (cleaners_pos hmoved before)
  refine ⟨?_, ?_, ?_⟩
  · intro peerId hcleaning
    apply told.absent peerId
    rw [hcleaners] at hcleaning
    omega
  · intro peerId
    have hle := told.alone peerId
    rw [hcleaners]
    omega
  · intro peerId
    rw [hcleaners]
    show Tells (run.node.events ++ [.peerDisconnected moved.peerId]) peerId _
    by_cases hpeer : moved.peerId = peerId
    · rw [← hpeer, hone, if_pos rfl]
      apply ((told.tells moved.peerId).disconnected (.inr (by omega))).congr
      show False ↔ (run.node.sessions.get moved.peerId).isSome = true ∨ _
      rw [told.absent moved.peerId (by omega)]
      simp
    · rw [if_neg hpeer]
      apply (told.tells peerId).append
      intro event hevent
      rw [List.mem_singleton.mp hevent]
      exact if_neg hpeer

/-- A step of a reader keeps the events true if its cleanup takes the last link. -/
theorem Told.move (told : run.Told) {index : Nat} {moved : Reader} {next : ReaderStage}
    {node : Node} (hmoved : run.readers[index]? = some moved)
    (takesLast : moved.stage.TakesLast run.node moved.peerId)
    (move : ReaderMove moved.peerId run.node moved.stage node next) :
    Told ⟨node, run.readers.set index ⟨moved.peerId, next⟩⟩ := by
  generalize hstage : moved.stage = stage at move takesLast
  cases move with
  | reads before still only =>
      have hsame : next.cleaning = moved.stage.cleaning := by
        rw [hstage, ReaderStage.not_cleaning_of_reads before,
          ReaderStage.not_cleaning_of_reads still]
      obtain ⟨received, hevents, hmessages⟩ := only.events
      refine told.quiet (cleaners_set_of_same node hmoved hsame) ?_ hevents ?_
      · intro peerId
        have hids := congrArg Option.isSome (only.linkIds peerId)
        simpa [Node.linkIds] using hids
      · intro peerId event hevent
        obtain ⟨sender, payload, rfl⟩ := hmessages event hevent
        rfl
  | detached linkId =>
      obtain ⟨session, hknown, hattached, hlast⟩ := takesLast
      apply told.startCleaning hmoved (by rw [hstage]; rfl) rfl (Option.isSome_of_mem hknown)
      · exact SessionManager.get_detachLink_of_last hknown hattached hlast
      · intro peerId hne
        exact SessionManager.get_detachLink_of_ne hne
  | dropped =>
      apply told.startCleaning hmoved (by rw [hstage]; rfl) rfl takesLast
      · exact SessionManager.get_dropPeer_self _ _
      · intro peerId hne
        exact SessionManager.get_dropPeer_of_ne hne
  | evicted =>
      exact told.quiet (cleaners_set_of_same _ hmoved (by rw [hstage]; rfl)) (fun _ => rfl)
        (List.append_nil _).symm (by simp)
  | removed =>
      exact told.quiet (cleaners_set_of_same _ hmoved (by rw [hstage]; rfl)) (fun _ => rfl)
        (List.append_nil _).symm (by simp)
  | marked =>
      have hevents : (run.node.markDisconnected moved.peerId).events = run.node.events ++ [] := by
        rw [List.append_nil]
        exact Node.events_markDisconnected moved.peerId
      apply told.quiet (cleaners_set_of_same _ hmoved (by rw [hstage]; rfl)) _ hevents (by simp)
      intro peerId
      exact congrArg (fun view => view.session.isSome)
        (Node.view_markDisconnected moved.peerId peerId)
  | announced => exact told.announce hmoved (by rw [hstage]; rfl) rfl

theorem Told.perform (told : run.Told) {label : RunStep} (announces : run.Announces label)
    (taken : run.perform primitives label = some after) : after.Told := by
  cases label with
  | call call =>
      cases taken
      exact told.call announces
  | spawnPeerReader peerId =>
      cases taken
      refine told.quiet ?_ (fun _ => rfl) (List.append_nil _).symm (by simp)
      intro other
      simp [cleaners, ReaderStage.cleaning]
  | advance index io =>
      obtain ⟨moved, next, hmoved, hmove, hreaders⟩ := move_of_perform taken
      have hafter : after = ⟨after.node, run.readers.set index ⟨moved.peerId, next⟩⟩ := by
        rw [← hreaders]
      rw [hafter]
      exact told.move hmoved (announces moved hmoved) hmove

/-- After the step, the events about each peer alternate, and each link that the
step said was added is attached to the peer's session. -/
structure InOrder (run after : Readers) : Prop where
  alternates : ∀ peerId, Alternates (notices after.node.events peerId)
  attached : ∀ peerId linkId kind,
    NodeEvent.linkAdded peerId linkId kind ∈ after.node.events.drop run.node.events.length →
      ∃ session, after.node.sessions.get peerId = some session ∧
        linkId ∈ session.links.map Link.id

end Readers

end Mlink.Core
