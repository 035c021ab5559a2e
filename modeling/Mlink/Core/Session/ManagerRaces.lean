/-
# Attach, detach and switch at the same time

Between finding a session empty and removing the peer, a detach holds no lock: a
link that attaches in between is lost with the session. Between finding a link
and making it active, a switch holds none either: the link that it makes active
may be gone. Where neither happens, every link that stands is reached through
the peers, and no session at rest names a link that is not attached.
-/

import Mlink.Core.Session.ManagerTasks
import Mlink.Lib.Entries

namespace Mlink.Core

open Mlink.Protocol Transition

namespace Session

variable {session : Session} {linkId : String} {kind : TransportKind}

/-- A session with one more link holds what it held. -/
theorem Holds.joined (holds : session.Holds linkId kind) (peerId : String) (link : Link) :
    (SessionManager.joined session peerId link).Holds linkId kind := by
  obtain ⟨held, hheld, hsame⟩ := holds
  exact ⟨held, List.mem_append_left _ hheld, hsame⟩

theorem holds_joined (session : Session) (peerId : String) (link : Link) :
    (SessionManager.joined session peerId link).Holds link.id link.kind :=
  ⟨link, List.mem_append_right _ (List.mem_singleton_self link), rfl, rfl⟩

theorem holds_opened (peerId : String) (link : Link) (freshId : SessionId) :
    (SessionManager.opened peerId link freshId).Holds link.id link.kind :=
  ⟨link, List.mem_singleton_self link, rfl, rfl⟩

/-- Taking one link out leaves the links that are not like it. -/
theorem Holds.takeOut {link : Link} (holds : session.Holds linkId kind)
    (hlink : session.linkById link.id = some link)
    (other : ¬ (linkId = link.id ∧ kind = link.kind)) (peerId : String) :
    (session.takeOut peerId link.id).Holds linkId kind := by
  obtain ⟨held, hheld, hid, hkind⟩ := holds
  refine ⟨held, ?_, hid, hkind⟩
  show held ∈ session.links.eraseP fun found => found.id == link.id
  obtain ⟨hthis, before, rest, hsplit, hbefore⟩ := List.find?_eq_some_iff_append.mp hlink
  have hnone : ∀ found ∈ before, ¬ (found.id == link.id) = true := by
    intro found hfound
    simpa using hbefore found hfound
  rw [hsplit] at hheld ⊢
  rw [List.eraseP_append_right _ hnone,
    List.eraseP_cons_of_pos (p := fun found : Link => found.id == link.id) hthis]
  rcases List.mem_append.mp hheld with hmem | hmem
  · exact List.mem_append_left _ hmem
  · rcases List.mem_cons.mp hmem with rfl | hmem
    · exact absurd ⟨hid.symm, hkind.symm⟩ other
    · exact List.mem_append_right _ hmem

/-- A link that is updated stays, as it was or as the update leaves it. -/
theorem exists_mem_updateLinks {links : List Link} {link : Link} (hlink : link ∈ links)
    (id : String) (use : Link → Link) :
    ∃ later ∈ updateLinks links id use, later = link ∨ later = use link := by
  induction links with
  | nil => cases hlink
  | cons first rest ih =>
      rw [updateLinks]
      split_ifs with hfirst
      · rcases List.mem_cons.mp hlink with rfl | hrest
        · exact ⟨use link, List.mem_cons_self, .inr rfl⟩
        · exact ⟨link, List.mem_cons_of_mem _ hrest, .inl rfl⟩
      · rcases List.mem_cons.mp hlink with rfl | hrest
        · exact ⟨link, List.mem_cons_self, .inl rfl⟩
        · obtain ⟨later, hlater, hsame⟩ := ih hrest
          exact ⟨later, List.mem_cons_of_mem _ hlater, hsame⟩

/-- A change of health changes no link's id and no link's kind. -/
theorem Holds.observe (holds : session.Holds linkId kind) (observed : String)
    (health : LinkHealth) :
    (session.updateLink observed fun link => { link with health }).Holds linkId kind := by
  obtain ⟨held, hheld, hid, hkind⟩ := holds
  obtain ⟨later, hlater, hsame⟩ :=
    exists_mem_updateLinks hheld observed fun link => { link with health }
  rcases hsame with rfl | rfl
  · exact ⟨later, hlater, hid, hkind⟩
  · exact ⟨_, hlater, hid, hkind⟩

/-- Making a link active attaches and detaches none. -/
theorem links_activate (session : Session) (linkId : String) (cause : SwitchCause) :
    (session.activate linkId cause).links = session.links := by
  cases cause <;> rfl

theorem active_activate (session : Session) (linkId : String) (cause : SwitchCause) :
    (session.activate linkId cause).active = some linkId := by
  cases cause <;> rfl

end Session

namespace SharedManager

/-! ## What holds at every step -/

/-- The peers name the session that the link went to, and the link is there. -/
def Stands (run : SharedManager) (entry : Standing) : Prop :=
  run.peers.lookup entry.peerId = some entry.ref ∧
    ∃ session ∈ run.sessions[entry.ref]?, session.Holds entry.linkId entry.kind

/-- The peers name sessions that were opened; a task that joins one keeps the
lock on the peers, which name it; what stands is there; and an active id is
accounted for. -/
structure Inv (run : SharedManager) : Prop where
  named : ∀ peerId, ∀ ref ∈ run.peers.lookup peerId, ref < run.sessions.length
  joining : ∀ index, ∀ stage ∈ run.tasks[index]?, ∀ joined ∈ stage.joins,
    run.holder = some index ∧ run.peers.lookup joined.1 = some joined.2
  standing : ∀ entry ∈ run.standing, run.Stands entry
  accounted : ∀ ref, ∀ session ∈ run.sessions[ref]?, ∀ linkId ∈ session.active,
    run.Accounts ref linkId

variable {run moved after : SharedManager} {index : Nat} {stage next : ManagerStage}

theorem inv_new : Inv new where
  named _ _ hknown := by cases hknown
  joining _ _ hstage := by cases hstage
  standing _ hentry := by cases hentry
  accounted _ _ hsession := by cases hsession

/-- What is done to a session does not matter to what stands, if the session
keeps its links. -/
theorem Stands.onSession {entry : Standing} (stands : run.Stands entry) (ref : Nat)
    {use : Session → Session}
    (keeps : ∀ session ∈ run.sessions[ref]?, entry.ref = ref →
      session.Holds entry.linkId entry.kind → (use session).Holds entry.linkId entry.kind) :
    (run.onSession ref use).Stands entry := by
  obtain ⟨hnamed, session, hsession, holds⟩ := stands
  by_cases hhere : entry.ref = ref
  · subst hhere
    refine ⟨hnamed, use session, ?_, keeps session hsession rfl holds⟩
    show (run.sessions.modify entry.ref use)[entry.ref]? = some (use session)
    rw [List.getElem?_modify_eq, Option.mem_def.mp hsession]
    rfl
  · refine ⟨hnamed, session, ?_, holds⟩
    show (run.sessions.modify ref use)[entry.ref]? = some session
    rw [List.getElem?_modify_ne _ _ (Ne.symm hhere)]
    exact hsession

/-- Where the session's links are untouched, all that stands stays. -/
theorem Stands.onSession_of_links {entry : Standing} (stands : run.Stands entry) (ref : Nat)
    {use : Session → Session} (same : ∀ session, (use session).links = session.links) :
    (run.onSession ref use).Stands entry := by
  apply stands.onSession ref
  intro session _ _ holds
  rw [Session.Holds, same]
  exact holds

/-- A session in a list is looked for and found in a longer one. -/
theorem Stands.openSession {entry : Standing} (stands : run.Stands entry) {peerId : String}
    (unknown : run.peers.lookup peerId = none) (link : Link) (freshId : SessionId) :
    (run.openSession peerId link freshId).Stands entry := by
  obtain ⟨hnamed, session, hsession, holds⟩ := stands
  have hapart : entry.peerId ≠ peerId := by
    intro hsame
    rw [hsame, unknown] at hnamed
    cases hnamed
  exact ⟨(AList.lookup_insert_ne hapart).trans hnamed, session,
    Entries.getElem?_concat_of_some hsession _, holds⟩

/-- Forgetting one peer matters only to what that peer has. -/
theorem Stands.forget {entry : Standing} (stands : run.Stands entry) {peerId : String}
    (other : entry.peerId ≠ peerId) : (run.forget peerId).Stands entry :=
  ⟨(AList.lookup_erase_ne other).trans stands.1, stands.2⟩

/-- One step of a task leaves standing what is not detached or dropped. -/
theorem Inv.standing_of_move (inv : run.Inv) (steady : ∀ peerId ∈ retires stage,
      ∀ session ∈ run.get peerId, session.links = [])
    (hstage : run.tasks[index]? = some stage) (move : Move run index stage moved next) :
    ∀ entry ∈ moved.standing, moved.Stands entry := by
  intro entry hentry
  cases move with
  | looked => exact inv.standing entry hentry
  | opened unknown =>
      rename_i peerId link freshId
      rcases List.mem_append.mp hentry with hold | hnew
      · exact (inv.standing entry hold).openSession unknown link freshId
      · cases List.mem_singleton.mp hnew
        refine ⟨AList.lookup_insert _, _, ?_, Session.holds_opened peerId link freshId⟩
        exact List.getElem?_concat_length
  | locked => exact inv.standing entry hentry
  | refused => exact inv.standing entry hentry
  | joined found takes =>
      rename_i peerId ref link session
      have hnamed := (inv.joining index _ hstage (peerId, ref) rfl).2
      rcases List.mem_append.mp hentry with hold | hnew
      · exact (inv.standing entry hold).onSession ref fun _ _ _ holds => holds.joined peerId link
      · cases List.mem_singleton.mp hnew
        refine ⟨hnamed, _, ?_, Session.holds_joined session peerId link⟩
        show (run.sessions.modify ref _)[ref]? = _
        rw [List.getElem?_modify_eq, found]
        rfl
  | tookOut found hlink =>
      rename_i peerId linkId ref session link
      obtain ⟨hold, hother⟩ := List.mem_filter.mp hentry
      apply (inv.standing entry hold).onSession ref
      intro held hheld hhere holds
      rw [Option.mem_unique hheld found] at holds ⊢
      rw [← Session.id_of_linkById hlink] at hlink
      apply holds.takeOut hlink
      rintro ⟨hid, hkind⟩
      simp [hhere, hid, hkind] at hother
  | cleared => exact (inv.standing entry hentry).onSession_of_links _ fun _ => rfl
  | retired =>
      rename_i peerId
      have hstands := inv.standing entry hentry
      apply hstands.forget
      rintro rfl
      obtain ⟨hnamed, session, hsession, link, hlink, _⟩ := hstands
      have hempty := steady entry.peerId rfl session
        (Option.mem_def.mpr (Option.bind_eq_some_iff.mpr ⟨entry.ref, hnamed, hsession⟩))
      rw [hempty] at hlink
      cases hlink
  | dropped known =>
      rename_i peerId ref
      obtain ⟨hold, hother⟩ := List.mem_filter.mp hentry
      have hstands := inv.standing entry hold
      apply hstands.forget
      rintro rfl
      rw [Option.mem_unique known hstands.1] at hother
      simp at hother
  | activated =>
      exact (inv.standing entry hentry).onSession_of_links _ fun session =>
        session.links_activate _ _
  | pinned => exact (inv.standing entry hentry).onSession_of_links _ fun _ => rfl

/-- The sessions that the peers name stay, and more may come. -/
theorem Inv.named_of_move (inv : run.Inv) (move : Move run index stage moved next) :
    ∀ peerId, ∀ ref ∈ moved.peers.lookup peerId, ref < moved.sessions.length := by
  intro peerId ref hknown
  have hmodify : ∀ place use, ref < run.sessions.length →
      ref < (run.onSession place use).sessions.length := by
    intro place use hbound
    show ref < (run.sessions.modify place use).length
    rw [List.length_modify]
    exact hbound
  have herase : ∀ other, ref ∈ (run.peers.erase other).lookup peerId →
      ref < run.sessions.length := by
    intro other hleft
    by_cases hhere : peerId = other
    · rw [hhere, AList.lookup_erase] at hleft
      cases hleft
    · rw [AList.lookup_erase_ne hhere] at hleft
      exact inv.named peerId ref hleft
  cases move with
  | looked => exact inv.named peerId ref hknown
  | opened unknown =>
      rename_i other link freshId
      show ref < (run.sessions ++ [_]).length
      rw [List.length_append]
      by_cases hhere : peerId = other
      · rw [hhere] at hknown
        cases (AList.lookup_insert _).symm.trans hknown
        exact Nat.lt_succ_self _
      · exact Nat.lt_succ_of_lt
          (inv.named peerId ref ((AList.lookup_insert_ne hhere).symm.trans hknown))
  | locked => exact inv.named peerId ref hknown
  | refused => exact inv.named peerId ref hknown
  | joined => exact hmodify _ _ (inv.named peerId ref hknown)
  | tookOut => exact hmodify _ _ (inv.named peerId ref hknown)
  | cleared => exact hmodify _ _ (inv.named peerId ref hknown)
  | retired => exact herase _ hknown
  | dropped => exact herase _ hknown
  | activated => exact hmodify _ _ (inv.named peerId ref hknown)
  | pinned => exact hmodify _ _ (inv.named peerId ref hknown)

/-- A task that keeps the lock keeps it through the steps of the others. -/
theorem Inv.joining_of_move (inv : run.Inv)
    (free : stage.locksPeers = true → run.holder = none)
    (hstage : run.tasks[index]? = some stage) (move : Move run index stage moved next) :
    ∀ place, ∀ other ∈ (run.tasks.set index next)[place]?, ∀ joined ∈ other.joins,
      moved.holder = some place ∧ moved.peers.lookup joined.1 = some joined.2 := by
  intro place other hother joined hjoined
  obtain ⟨hbound, _⟩ := List.getElem?_eq_some_iff.mp hstage
  by_cases hhere : index = place
  · subst hhere
    rw [List.getElem?_set_self hbound] at hother
    cases hother
    cases move with
    | looked before uncleared still =>
        rw [still] at hjoined
        cases hjoined
    | locked known =>
        cases hjoined
        exact ⟨rfl, known⟩
    | _ => cases hjoined
  · rw [List.getElem?_set_ne hhere] at hother
    have hheld := inv.joining place other hother joined hjoined
    -- the lock is not free, so this is no step that takes it or gives it back
    have hlocked : ∀ {α : Prop}, run.holder = none → α := by
      intro α hfree
      rw [hfree] at hheld
      cases hheld.1
    have hmine : ∀ {α : Prop}, (∃ mine, stage.joins = some mine) → α := by
      rintro α ⟨mine, hmine⟩
      have := (inv.joining index stage hstage mine hmine).1.symm.trans hheld.1
      exact absurd (Option.some.inj this) hhere
    cases move with
    | looked => exact hheld
    | opened => exact hlocked (free rfl)
    | locked => exact hlocked (free rfl)
    | refused => exact hmine ⟨_, rfl⟩
    | joined => exact hmine ⟨_, rfl⟩
    | tookOut => exact hheld
    | cleared => exact hheld
    | retired => exact hlocked (free rfl)
    | dropped => exact hlocked (free rfl)
    | activated => exact hheld
    | pinned => exact hheld

/-- The ids that are attached to a session. -/
def Attached (run : SharedManager) (ref : Nat) (linkId : String) : Prop :=
  ∃ session ∈ run.sessions[ref]?, linkId ∈ session.links.map Link.id

/-- An id stays accounted for while its link stays or is about to be looked for. -/
theorem Accounts.of_kept {place : Nat} {linkId : String} (accounts : run.Accounts place linkId)
    (hstage : run.tasks[index]? = some stage) (htasks : after.tasks = run.tasks.set index next)
    (kept : stage.clears ≠ some (place, linkId))
    (links : run.Attached place linkId →
      after.Attached place linkId ∨ next.clears = some (place, linkId)) :
    after.Accounts place linkId := by
  rcases accounts with hattached | ⟨other, hother, hclears⟩
  · rcases links hattached with hstill | hnext
    · exact .inl hstill
    · right
      refine ⟨next, ?_, hnext⟩
      obtain ⟨hbound, _⟩ := List.getElem?_eq_some_iff.mp hstage
      rw [htasks]
      exact List.mem_set hbound next
  · right
    refine ⟨other, ?_, hclears⟩
    rw [htasks]
    apply Entries.mem_set_of_ne hstage hother
    rintro rfl
    exact kept hclears

/-- Where the sessions are untouched, all ids stay accounted for. -/
theorem Inv.accounted_of_same (inv : run.Inv) (hstage : run.tasks[index]? = some stage)
    (uncleared : stage.clears = none) (hsessions : after.sessions = run.sessions)
    (htasks : after.tasks = run.tasks.set index next) :
    ∀ place, ∀ session ∈ after.sessions[place]?, ∀ linkId ∈ session.active,
      after.Accounts place linkId := by
  intro place session hsession linkId hactive
  rw [hsessions] at hsession
  apply (inv.accounted place session hsession linkId hactive).of_kept hstage htasks
  · rw [uncleared]
    exact nofun
  · rintro ⟨held, hheld, hmem⟩
    exact .inl ⟨held, hsessions ▸ hheld, hmem⟩

/-- One session is changed: its active id was active before, or is accounted for,
and a link that it loses is about to be looked for. -/
theorem Inv.accounted_of_modify (inv : run.Inv) {ref : Nat} {use : Session → Session}
    (hstage : run.tasks[index]? = some stage)
    (hsessions : after.sessions = run.sessions.modify ref use)
    (htasks : after.tasks = run.tasks.set index next)
    (active : ∀ session ∈ run.sessions[ref]?, ∀ linkId ∈ (use session).active,
      run.Accounts ref linkId ∧ stage.clears ≠ some (ref, linkId))
    (elsewhere : ∀ place linkId, place ≠ ref → stage.clears ≠ some (place, linkId))
    (links : ∀ session ∈ run.sessions[ref]?, ∀ linkId ∈ session.links.map Link.id,
      linkId ∈ (use session).links.map Link.id ∨ next.clears = some (ref, linkId)) :
    ∀ place, ∀ session ∈ after.sessions[place]?, ∀ linkId ∈ session.active,
      after.Accounts place linkId := by
  intro place session hsession linkId hactive
  by_cases hhere : place = ref
  · subst hhere
    rw [hsessions, List.getElem?_modify_eq] at hsession
    obtain ⟨held, hheld, rfl⟩ := Option.map_eq_some_iff.mp hsession
    obtain ⟨haccounts, hkept⟩ := active held hheld linkId hactive
    apply haccounts.of_kept hstage htasks hkept
    rintro ⟨other, hother, hmem⟩
    rw [Option.mem_unique hother hheld] at hmem
    apply (links held hheld linkId hmem).imp_left
    intro hstill
    refine ⟨use held, ?_, hstill⟩
    rw [hsessions, List.getElem?_modify_eq, hheld]
    rfl
  · have hsame : after.sessions[place]? = run.sessions[place]? := by
      rw [hsessions, List.getElem?_modify_ne _ _ (Ne.symm hhere)]
    rw [hsame] at hsession
    apply (inv.accounted place session hsession linkId hactive).of_kept hstage htasks
      (elsewhere place linkId hhere)
    rintro ⟨other, hother, hmem⟩
    exact .inl ⟨other, hsame ▸ hother, hmem⟩

/-- One step of a task leaves every active id accounted for, if what it makes
active is. -/
theorem Inv.accounted_of_move (inv : run.Inv)
    (steady : ∀ target ∈ run.activates stage, run.Accounts target.1 target.2)
    (hstage : run.tasks[index]? = some stage) (move : Move run index stage moved next)
    (hafter : after = { moved with tasks := run.tasks.set index next }) :
    ∀ place, ∀ session ∈ after.sessions[place]?, ∀ linkId ∈ session.active,
      after.Accounts place linkId := by
  subst hafter
  cases move with
  | looked before uncleared still => exact inv.accounted_of_same hstage uncleared rfl rfl
  | opened unknown =>
      rename_i peerId link freshId
      intro place session hsession linkId hactive
      rcases Entries.getElem?_concat_cases hsession with hold | ⟨_, hnew⟩
      · apply (inv.accounted place session hold linkId hactive).of_kept hstage rfl (by rintro ⟨⟩)
        rintro ⟨held, hheld, hmem⟩
        exact .inl ⟨held, Entries.getElem?_concat_of_some hheld _, hmem⟩
      · left
        refine ⟨session, hsession, ?_⟩
        rw [hnew] at hactive ⊢
        cases hactive
        exact List.mem_singleton_self _
  | locked => exact inv.accounted_of_same hstage rfl rfl rfl
  | refused => exact inv.accounted_of_same hstage rfl rfl rfl
  | joined =>
      rename_i peerId ref link session found takes
      apply inv.accounted_of_modify hstage rfl rfl
      · intro held hheld linkId hactive
        exact ⟨inv.accounted ref held hheld linkId hactive, by rintro ⟨⟩⟩
      · rintro place other hapart ⟨⟩
      · intro held _ linkId hmem
        left
        rw [SessionManager.joined, Session.emit, List.map_append]
        exact List.mem_append_left _ hmem
  | tookOut found hlink =>
      rename_i peerId linkId ref session link
      have hid := Session.id_of_linkById hlink
      apply inv.accounted_of_modify hstage rfl rfl
      · intro held hheld other hactive
        exact ⟨inv.accounted ref held hheld other hactive, by rintro ⟨⟩⟩
      · rintro place other hapart ⟨⟩
      · intro held _ other hmem
        by_cases hsame : other = linkId
        · right
          rw [hsame]
          rfl
        · left
          exact Session.mem_removeLink hmem (by rwa [hid])
  | cleared =>
      rename_i peerId linkId ref
      apply inv.accounted_of_modify hstage rfl rfl
      · intro held hheld other hactive
        simp only [Session.clearActive] at hactive
        split_ifs at hactive with hcleared
        · cases hactive
        · refine ⟨inv.accounted ref held hheld other hactive, ?_⟩
          rintro ⟨⟩
          exact hcleared hactive
      · rintro place other hapart ⟨⟩
        exact hapart rfl
      · exact fun _ _ _ hmem => .inl hmem
  | retired => exact inv.accounted_of_same hstage rfl rfl rfl
  | dropped => exact inv.accounted_of_same hstage rfl rfl rfl
  | activated =>
      rename_i linkId ref cause
      apply inv.accounted_of_modify hstage rfl rfl
      · intro held _ other hactive
        rw [Session.active_activate] at hactive
        cases hactive
        exact ⟨steady (ref, linkId) rfl, by rintro ⟨⟩⟩
      · rintro place other hapart ⟨⟩
      · intro held _ other hmem
        left
        rw [Session.links_activate]
        exact hmem
  | pinned =>
      rename_i linkId ref
      apply inv.accounted_of_modify hstage rfl rfl
      · intro held hheld other hactive
        refine ⟨?_, by rintro ⟨⟩⟩
        cases hprior : held.active with
        | none =>
            rw [Session.pin, hprior] at hactive
            cases hactive
            apply steady (ref, linkId)
            rw [activates, Option.mem_def.mp hheld, Option.bind_some, hprior]
            rfl
        | some active =>
            rw [Session.pin, hprior] at hactive
            exact inv.accounted ref held hheld other (hprior.trans hactive)
      · rintro place other hapart ⟨⟩
      · exact fun _ _ _ hmem => .inl hmem

/-! ## Every run -/

/-- A new task takes no part in anything yet. -/
theorem Inv.start (inv : run.Inv) (op : ManagerOp) :
    Inv { run with tasks := run.tasks ++ [.start op] } where
  named := inv.named
  joining := by
    intro index stage hstage joined hjoined
    rcases Entries.getElem?_concat_cases hstage with hold | ⟨_, hnew⟩
    · exact inv.joining index stage hold joined hjoined
    · rw [hnew] at hjoined
      cases op <;> cases hjoined
  standing := inv.standing
  accounted := by
    intro place session hsession linkId hactive
    apply (inv.accounted place session hsession linkId hactive).imp_right
    rintro ⟨stage, hstage, hclears⟩
    exact ⟨stage, List.mem_append_left _ hstage, hclears⟩

/-- The health of a link is no part of this. -/
theorem Inv.observe (inv : run.Inv) (ref : Nat) (observed : String) (health : LinkHealth) :
    (run.onSession ref (·.updateLink observed fun link => { link with health })).Inv where
  named := by
    intro peerId place hknown
    show place < (run.sessions.modify ref _).length
    rw [List.length_modify]
    exact inv.named peerId place hknown
  joining := inv.joining
  standing := by
    intro entry hentry
    exact (inv.standing entry hentry).onSession ref
      fun _ _ _ holds => holds.observe observed health
  accounted := by
    intro place session hsession linkId hactive
    -- the session was there with the same ids and the same active one
    have hback : ∃ held ∈ run.sessions[place]?, held.active = session.active ∧
        session.links.map Link.id = held.links.map Link.id := by
      by_cases hhere : place = ref
      · subst hhere
        rw [onSession, List.getElem?_modify_eq] at hsession
        obtain ⟨held, hheld, rfl⟩ := Option.map_eq_some_iff.mp hsession
        exact ⟨held, hheld, rfl, Session.map_id_updateLinks _ _ fun _ => rfl⟩
      · rw [onSession, List.getElem?_modify_ne _ _ (Ne.symm hhere)] at hsession
        exact ⟨session, hsession, rfl, rfl⟩
    obtain ⟨held, hheld, hsame, hids⟩ := hback
    apply (inv.accounted place held hheld linkId (hsame ▸ hactive)).imp_left
    rintro ⟨other, hother, hmem⟩
    rw [Option.mem_unique hother hheld, ← hids] at hmem
    exact ⟨session, hsession, hmem⟩

theorem Inv.perform {step : ManagerStep} (inv : run.Inv) (steady : run.Steady step)
    (taken : run.perform step = some after) : after.Inv := by
  cases step with
  | start op =>
      cases taken
      exact inv.start op
  | observe ref linkId health =>
      cases taken
      exact inv.observe ref linkId health
  | advance index =>
      obtain ⟨stage, moved, next, hstage, free, move, hafter⟩ := move_of_perform taken
      obtain ⟨hretires, hactivates⟩ := steady stage hstage
      have hnamed := inv.named_of_move move
      have hjoining := inv.joining_of_move free hstage move
      have hstanding := inv.standing_of_move hretires hstage move
      have haccounted := inv.accounted_of_move hactivates hstage move hafter
      subst hafter
      exact ⟨hnamed, hjoining, hstanding, haccounted⟩

theorem inv_of_reachable (reached : (system.restrict Steady).Reachable run) : run.Inv := by
  apply reached.invariant Inv
  · rintro _ rfl
    exact inv_new
  · rintro source step target _ inv ⟨taken, steady⟩
    exact inv.perform steady taken

/-- Where a peer is removed only without links, and a link made active only while
it is attached, every link that stands is reached through the peers, and at rest
every active id is the id of an attached link. -/
theorem reaches_of_reachable (reached : (system.restrict Steady).Reachable run) :
    run.Reaches ∧ (run.Quiet → run.NamesAttached) := by
  have inv := inv_of_reachable reached
  constructor
  · intro entry hentry
    obtain ⟨hnamed, session, hsession, holds⟩ := inv.standing entry hentry
    exact ⟨session, Option.bind_eq_some_iff.mpr ⟨entry.ref, hnamed, hsession⟩, holds⟩
  · intro quiet session hsession linkId hactive
    obtain ⟨ref, href⟩ := List.mem_iff_getElem?.mp hsession
    rcases inv.accounted ref session href linkId hactive with
      ⟨other, hother, hmem⟩ | ⟨stage, hstage, hclears⟩
    · rwa [Option.mem_unique hother href] at hmem
    · rw [ManagerStage.clears_of_idle (quiet stage hstage)] at hclears
      cases hclears

/-! ## Two tasks at once -/

/-- A peer with one link. -/
def attachTcp : List ManagerStep :=
  [.start (.attach "peer" (.new "tcp" 0 .tcp ⟨10000000⟩ 0) none 1), .advance 0]

/-- A second link attaches after a detach found none left and before it removes
the peer. -/
def attachWhileDetaching : List ManagerStep :=
  attachTcp ++ [.start (.detach "peer" "tcp")] ++ List.replicate 4 (.advance 1) ++
    [.start (.attach "peer" (.new "ble" 1 .ble ⟨200000⟩ 0) none 2)] ++
    List.replicate 2 (.advance 2) ++ [.advance 1]

/-- A link is detached after a switch found it and before the switch makes it
active. -/
def detachWhileSwitching : List ManagerStep :=
  attachTcp ++ [.start (.attach "peer" (.new "ble" 1 .ble ⟨200000⟩ 0) none 2)] ++
    List.replicate 2 (.advance 1) ++ [.start (.switch "peer" "tcp")] ++
    List.replicate 2 (.advance 2) ++ [.start (.detach "peer" "tcp")] ++
    List.replicate 4 (.advance 3) ++ [.advance 2]

/-- The second link is lost, and the switch names a link that is gone. -/
theorem not_reaches_of_races :
    (∃ run, system.Reachable run ∧ run.Quiet ∧ ¬ run.Reaches) ∧
      ∃ run, system.Reachable run ∧ run.Quiet ∧ ¬ run.NamesAttached := by
  constructor
  · have hruns : ∃ run, attachWhileDetaching.foldlM perform new = some run := ⟨_, rfl⟩
    obtain ⟨run, hsteps⟩ := hruns
    refine ⟨run, System.Reachable.run (S := system) (.init rfl) (.of_foldlM id hsteps), ?_⟩
    cases hsteps
    refine ⟨by decide, ?_⟩
    intro reaches
    obtain ⟨session, hsession, _⟩ := reaches ⟨"peer", 0, "ble", .ble⟩ (by decide)
    cases hsession
  · have hruns : ∃ run, detachWhileSwitching.foldlM perform new = some run := ⟨_, rfl⟩
    obtain ⟨run, hsteps⟩ := hruns
    refine ⟨run, System.Reachable.run (S := system) (.init rfl) (.of_foldlM id hsteps), ?_⟩
    cases hsteps
    exact ⟨by decide, by decide⟩

/-- The same tasks one after the other: the switch, and then the detach. -/
def detachAfterSwitching : List ManagerStep :=
  attachTcp ++ [.start (.attach "peer" (.new "ble" 1 .ble ⟨200000⟩ 0) none 2)] ++
    List.replicate 2 (.advance 1) ++ [.start (.switch "peer" "tcp")] ++
    List.replicate 3 (.advance 2) ++ [.start (.detach "peer" "tcp")] ++
    List.replicate 4 (.advance 3)

theorem reaches_of_reachable_detached :
    ∃ run, detachAfterSwitching.foldlM perform new = some run ∧
      run.standing = [⟨"peer", 0, "ble", .ble⟩] ∧ run.Reaches ∧ run.NamesAttached := by
  have hruns : ∃ run, detachAfterSwitching.foldlM (System.guarded perform Steady) new =
      some run := ⟨_, rfl⟩
  obtain ⟨run, hsteps⟩ := hruns
  have hstart : (system.restrict Steady).Reachable new := .init rfl
  have hreached := reaches_of_reachable (hstart.run (.of_guarded id hsteps))
  cases hsteps
  exact ⟨_, rfl, by decide, hreached.1, hreached.2 (by decide)⟩

end SharedManager

end Mlink.Core
