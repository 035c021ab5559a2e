/-
# One task at a time

A task that runs without others does what the operation does: lock after lock, it
takes a shared manager that mirrors a manager to one that mirrors the manager
after the operation. So whatever operations reach one after the other is reached
by tasks as well.
-/

import Mlink.Core.Session.ManagerTasks

namespace Mlink.Core

open Mlink.Protocol Transition

namespace SessionManager

variable {manager : SessionManager} {peerId : String} {session : Session}
  {use : Session → Session}

/-- Only what is done to the session that is there matters. -/
theorem update_congr (other : Session → Session) (hsession : manager.get peerId = some session)
    (hsame : use session = other session) :
    manager.update peerId use = manager.update peerId other := by
  rw [update, update, hsession]
  simp only [hsame]

/-- Nothing is done to the session that is there. -/
theorem get_update_of_same (hsession : manager.get peerId = some session)
    (hsame : use session = session) (asked : String) :
    (manager.update peerId use).get asked = manager.get asked := by
  by_cases hhere : asked = peerId
  · rw [hhere, get_update_self, hsession, Option.map_some, hsame]
  · exact get_update_of_ne hhere

/-- A detach takes the link out, clears it, and removes a session without links. -/
theorem get_detachLink_of_linkById {linkId : String} {link : Link}
    (hsession : manager.get peerId = some session) (hlink : session.linkById linkId = some link)
    (asked : String) :
    let cleared := (manager.update peerId (·.takeOut peerId link.id)).update peerId
      (·.clearActive linkId)
    (manager.detachLink peerId linkId).2.get asked =
      (if ((session.takeOut peerId link.id).clearActive linkId).links = [] then
        ⟨cleared.peers.erase peerId⟩
      else cleared : SessionManager).get asked := by
  intro cleared
  have hid := Session.id_of_linkById hlink
  subst hid
  have hattached := Session.mem_of_linkById hlink
  have hothers : ∀ other, other ≠ peerId → cleared.get other = manager.get other := fun other hne =>
    (get_update_of_ne hne).trans (get_update_of_ne hne)
  have hself : cleared.get peerId = some (left session peerId link.id) := by
    rw [get_update_self, get_update_self, hsession]
    rfl
  have hlinks : ((session.takeOut peerId link.id).clearActive link.id).links =
      (session.removeLink link.id).links := rfl
  rcases detachLink_cases manager peerId link.id with
    ⟨habsent, _⟩ | ⟨held, hheld, _, ⟨hlast, hdetach⟩ | ⟨hmore, hdetach⟩⟩
  · exact absurd hattached (habsent session hsession)
  · rw [hsession] at hheld
    cases hheld
    rw [hdetach, hlinks, if_pos hlast]
    by_cases hhere : asked = peerId
    · rw [hhere, get, get, AList.lookup_erase, AList.lookup_erase]
    · rw [get, get, AList.lookup_erase_ne hhere, AList.lookup_erase_ne hhere]
      exact (hothers asked hhere).symm
  · rw [hsession] at hheld
    cases hheld
    rw [hdetach, hlinks, if_neg hmore]
    by_cases hhere : asked = peerId
    · rw [hhere, hself]
      exact AList.lookup_insert _
    · rw [hothers asked hhere]
      exact AList.lookup_insert_ne hhere

end SessionManager

namespace SharedManager

/-- The peers name the same sessions as those of a manager, each a session of its
own that was opened. -/
structure Mirrors (run : SharedManager) (manager : SessionManager) : Prop where
  same : ∀ peerId, run.get peerId = manager.get peerId
  named : ∀ peerId, ∀ ref ∈ run.peers.lookup peerId, ref < run.sessions.length
  apart : ∀ first second, ∀ ref ∈ run.peers.lookup first, ref ∈ run.peers.lookup second →
    first = second

variable {run moved : SharedManager} {manager target : SessionManager} {peerId linkId : String}
  {ref index : Nat} {stage next : ManagerStage} {session : Session}

theorem mirrors_new : Mirrors new .new where
  same _ := rfl
  named _ _ hknown := by cases hknown
  apart _ _ _ hknown := by cases hknown

section Mirrors

variable (mirrors : run.Mirrors manager)
include mirrors

/-- Only what the peers name is mirrored. -/
theorem Mirrors.congr (hsame : ∀ peerId, target.get peerId = manager.get peerId) :
    run.Mirrors target :=
  ⟨fun peerId => (mirrors.same peerId).trans (hsame peerId).symm, mirrors.named, mirrors.apart⟩

/-- Tasks and locks are not mirrored. -/
theorem Mirrors.of_same (hpeers : moved.peers = run.peers)
    (hsessions : moved.sessions = run.sessions) : moved.Mirrors manager := by
  constructor
  · intro peerId
    rw [SharedManager.get, hpeers, hsessions]
    exact mirrors.same peerId
  · rw [hpeers, hsessions]
    exact mirrors.named
  · rw [hpeers]
    exact mirrors.apart

/-- A peer without a session is named nowhere. -/
theorem Mirrors.unknown (hpeer : run.peers.lookup peerId = none) : manager.get peerId = none := by
  rw [← mirrors.same, SharedManager.get, hpeer]
  rfl

/-- The session that a peer names is the one that the manager has for it. -/
theorem Mirrors.known (hpeer : run.peers.lookup peerId = some ref) :
    ∃ session, run.sessions[ref]? = some session ∧ manager.get peerId = some session := by
  have hfound := List.getElem?_eq_getElem (mirrors.named peerId ref hpeer)
  refine ⟨_, hfound, ?_⟩
  rw [← mirrors.same, SharedManager.get, hpeer]
  exact hfound

/-- What is done to the session that a peer names. -/
theorem Mirrors.onSession (hpeer : run.peers.lookup peerId = some ref)
    (use : Session → Session) : (run.onSession ref use).Mirrors (manager.update peerId use) where
  same := by
    intro other
    by_cases hhere : other = peerId
    · rw [hhere, SessionManager.get_update_self, ← mirrors.same, SharedManager.get,
        SharedManager.get]
      show (run.peers.lookup peerId).bind ((run.sessions.modify ref use)[·]?) = _
      rw [hpeer, Option.bind_some, List.getElem?_modify_eq]
      rfl
    · rw [SessionManager.get_update_of_ne hhere, ← mirrors.same, SharedManager.get,
        SharedManager.get]
      show (run.peers.lookup other).bind ((run.sessions.modify ref use)[·]?) = _
      cases hother : run.peers.lookup other with
      | none => rfl
      | some place =>
          have hapart : ref ≠ place := by
            intro hsame
            rw [← hsame] at hother
            exact hhere (mirrors.apart other peerId ref hother hpeer)
          rw [Option.bind_some, List.getElem?_modify_ne _ _ hapart]
          rfl
  named := by
    intro other place hother
    show place < (run.sessions.modify ref use).length
    rw [List.length_modify]
    exact mirrors.named other place hother
  apart := mirrors.apart

/-- The first link of a peer opens a session of its own. -/
theorem Mirrors.openSession (peerId : String) (link : Link) (freshId : SessionId) :
    (run.openSession peerId link freshId).Mirrors
      ⟨manager.peers.insert peerId (SessionManager.opened peerId link freshId)⟩ where
  same := by
    intro other
    show ((run.peers.insert peerId run.sessions.length).lookup other).bind
      ((run.sessions ++ [SessionManager.opened peerId link freshId])[·]?) =
        (manager.peers.insert peerId _).lookup other
    by_cases hhere : other = peerId
    · rw [hhere, AList.lookup_insert, AList.lookup_insert]
      exact List.getElem?_concat_length
    · rw [AList.lookup_insert_ne hhere, AList.lookup_insert_ne hhere]
      have hsame := mirrors.same other
      rw [SharedManager.get] at hsame
      rw [← SessionManager.get, ← hsame]
      cases hother : run.peers.lookup other with
      | none => rfl
      | some place => exact List.getElem?_append_left (mirrors.named other place hother)
  named := by
    intro other place hother
    show place < (run.sessions ++ [_]).length
    rw [List.length_append]
    by_cases hhere : other = peerId
    · rw [hhere] at hother
      cases (AList.lookup_insert _).symm.trans hother
      exact Nat.lt_succ_self _
    · exact Nat.lt_succ_of_lt
        (mirrors.named other place ((AList.lookup_insert_ne hhere).symm.trans hother))
  apart := by
    have hfresh : ∀ other, run.sessions.length ∉ run.peers.lookup other := fun other hother =>
      absurd (mirrors.named other _ hother) (Nat.lt_irrefl _)
    intro first second place hfirst hsecond
    change place ∈ (run.peers.insert peerId run.sessions.length).lookup first at hfirst
    change place ∈ (run.peers.insert peerId run.sessions.length).lookup second at hsecond
    by_cases hone : first = peerId
    · by_cases htwo : second = peerId
      · rw [hone, htwo]
      · rw [hone, AList.lookup_insert] at hfirst
        cases hfirst
        rw [AList.lookup_insert_ne htwo] at hsecond
        exact absurd hsecond (hfresh second)
    · rw [AList.lookup_insert_ne hone] at hfirst
      by_cases htwo : second = peerId
      · rw [htwo, AList.lookup_insert] at hsecond
        cases hsecond
        exact absurd hfirst (hfresh first)
      · rw [AList.lookup_insert_ne htwo] at hsecond
        exact mirrors.apart first second place hfirst hsecond

/-- The peers forget one of them. -/
theorem Mirrors.forget (peerId : String) :
    (run.forget peerId).Mirrors ⟨manager.peers.erase peerId⟩ := by
  have hkept : ∀ other, ∀ place ∈ (run.peers.erase peerId).lookup other,
      place ∈ run.peers.lookup other := by
    intro other place hother
    by_cases hhere : other = peerId
    · rw [hhere, AList.lookup_erase] at hother
      cases hother
    · rwa [AList.lookup_erase_ne hhere] at hother
  constructor
  · intro other
    show ((run.peers.erase peerId).lookup other).bind (run.sessions[·]?) =
      (manager.peers.erase peerId).lookup other
    by_cases hhere : other = peerId
    · rw [hhere, AList.lookup_erase, AList.lookup_erase]
      rfl
    · rw [AList.lookup_erase_ne hhere, AList.lookup_erase_ne hhere]
      exact mirrors.same other
  · intro other place hother
    exact mirrors.named other place (hkept other place hother)
  · intro first second place hfirst hsecond
    exact mirrors.apart first second place (hkept first place hfirst) (hkept second place hsecond)

end Mirrors

theorem Mirrors.retask (mirrors : run.Mirrors manager) (tasks : List ManagerStage) :
    Mirrors { run with tasks } manager :=
  mirrors.of_same rfl rfl

/-! ## A task by itself -/

/-- A task at this stage that runs by itself ends, with nothing locked, where the
shared manager mirrors the target. -/
inductive Alone (index : Nat) (target : SessionManager) : SharedManager → ManagerStage → Prop
  | ends {run : SharedManager} {stage : ManagerStage} (mirrors : run.Mirrors target)
      (free : run.holder = none) (idle : stage.idle = true) : Alone index target run stage
  | goes {run moved : SharedManager} {stage next : ManagerStage}
      (advanced : run.advance index stage = some (moved, next))
      (free : stage.locksPeers = true → run.holder = none)
      (rest : Alone index target { moved with tasks := run.tasks.set index next } next) :
      Alone index target run stage

/-- Only what the target has for each peer matters. -/
theorem Alone.congr {other : SessionManager} (alone : Alone index target run stage)
    (hsame : ∀ peerId, other.get peerId = target.get peerId) : Alone index other run stage := by
  induction alone with
  | ends mirrors free idle => exact .ends (mirrors.congr hsame) free idle
  | goes advanced free _ ih => exact .goes advanced free ih

/-- What is started and ends alone makes a run. -/
theorem Alone.exists_run (alone : Alone index target run stage)
    (hstage : run.tasks[index]? = some stage) :
    ∃ labels after last, system.Run run labels after ∧ after.tasks = run.tasks.set index last ∧
      last.idle = true ∧ after.Mirrors target ∧ after.holder = none := by
  induction alone with
  | @ends run stage mirrors free idle =>
      obtain ⟨hbound, hget⟩ := List.getElem?_eq_some_iff.mp hstage
      refine ⟨[], run, stage, .nil run, ?_, idle, mirrors, free⟩
      rw [← hget, List.set_getElem_self]
  | @goes run moved stage next advanced free rest ih =>
      obtain ⟨hbound, _⟩ := List.getElem?_eq_some_iff.mp hstage
      have htaken : run.perform (.advance index) =
          some { moved with tasks := run.tasks.set index next } := by
        have hlocks : ¬ (stage.locksPeers && run.holder.isSome) = true := by
          rw [Bool.and_eq_true]
          rintro ⟨hlocks, hheld⟩
          rw [free hlocks] at hheld
          cases hheld
        rw [perform, hstage, Option.bind_eq_bind, Option.bind_some, if_neg hlocks, advanced]
        rfl
      obtain ⟨labels, after, last, hrun, htasks, hlast⟩ := ih (List.getElem?_set_self hbound)
      refine ⟨_, after, last, .cons htaken hrun, ?_, hlast⟩
      rw [htasks, List.set_set]

section Alone

variable (mirrors : run.Mirrors manager) (free : run.holder = none)
include free

/-- A task that only looks and then goes on. -/
theorem alone_looks (advanced : run.advance index stage = some (run, next))
    (rest : ∀ tasks, Alone index target { run with tasks } next) : Alone index target run stage :=
  .goes advanced (fun _ => free) (rest _)

include mirrors

/-- A task that only looks and then ends. -/
theorem alone_stops (advanced : run.advance index stage = some (run, next))
    (idle : next.idle = true) (hsame : ∀ peerId, target.get peerId = manager.get peerId) :
    Alone index target run stage :=
  alone_looks free advanced fun tasks => .ends ((mirrors.congr hsame).retask tasks) free idle

theorem alone_retiring (peerId : String) :
    Alone index ⟨manager.peers.erase peerId⟩ run (.retiring peerId) := by
  apply Alone.goes rfl fun _ => free
  exact .ends ((mirrors.forget peerId).of_same rfl rfl) free rfl

section Known

variable (hpeer : run.peers.lookup peerId = some ref)
include hpeer

theorem alone_activating (linkId : String) (cause : SwitchCause) :
    Alone index (manager.update peerId (·.activate linkId cause)) run
      (.activating linkId ref cause) := by
  apply Alone.goes rfl fun _ => free
  exact .ends ((mirrors.onSession hpeer _).of_same rfl rfl) free rfl

theorem alone_pinning (linkId : String) :
    Alone index (manager.update peerId (·.pin linkId)) run (.pinning linkId ref) := by
  apply Alone.goes rfl fun _ => free
  exact .ends ((mirrors.onSession hpeer _).of_same rfl rfl) free rfl

theorem alone_ranking (now : Instant) :
    Alone index (manager.update peerId fun session => (session.pickAndPin now).2) run
      (.ranking now ref) := by
  obtain ⟨session, hfound, hsession⟩ := mirrors.known hpeer
  cases hbest : session.pickBest now with
  | none =>
      have hadvance : run.advance index (.ranking now ref) = some (run, .finished) := by
        simp [advance, hfound, hbest]
      apply alone_stops mirrors free hadvance rfl
      apply SessionManager.get_update_of_same hsession
      rw [Session.pickAndPin, hbest]
  | some best =>
      have hadvance : run.advance index (.ranking now ref) = some (run, .pinning best ref) := by
        simp [advance, hfound, hbest]
      have hpins : (session.pickAndPin now).2 = session.pin best := by
        rw [Session.pickAndPin, hbest]
        rfl
      rw [SessionManager.update_congr (·.pin best) hsession hpins]
      exact alone_looks free hadvance fun tasks =>
        alone_pinning (mirrors.retask tasks) free hpeer best

/-- A pick uses the active link while it is there and healthy, and otherwise pins
the best one. -/
theorem alone_consulting (now : Instant) :
    Alone index (manager.update peerId fun session => (session.currentOrPick now).2) run
      (.consulting now ref) := by
  obtain ⟨session, hfound, hsession⟩ := mirrors.known hpeer
  have hranks : (session.active.bind session.linkById).any (·.isHealthy now) = false →
      (session.currentOrPick now).2 = (session.pickAndPin now).2 := by
    intro hunhealthy
    rw [Session.currentOrPick]
    cases hlink : session.active.bind session.linkById with
    | none => rfl
    | some link =>
        rw [hlink, Option.any_some] at hunhealthy
        simp only [hunhealthy, Bool.false_eq_true, if_false]
  cases hactive : session.active with
  | none =>
      have hadvance : run.advance index (.consulting now ref) = some (run, .ranking now ref) := by
        simp [advance, hfound, hactive]
      rw [SessionManager.update_congr (fun session => (session.pickAndPin now).2) hsession
        (hranks (by rw [hactive]; rfl))]
      exact alone_looks free hadvance fun tasks =>
        alone_ranking (mirrors.retask tasks) free hpeer now
  | some linkId =>
      have hadvance : run.advance index (.consulting now ref) =
          some (run, .trying linkId now ref) := by
        simp [advance, hfound, hactive]
      apply alone_looks free hadvance
      intro tasks
      have hmirrors := mirrors.retask tasks
      cases hhealthy : (session.linkById linkId).any (·.isHealthy now) with
      | true =>
          have htry : advance { run with tasks } index (.trying linkId now ref) =
              some ({ run with tasks }, .finished) := by
            simp [advance, hfound, hhealthy]
          apply alone_stops hmirrors free htry rfl
          apply SessionManager.get_update_of_same hsession
          rw [Session.currentOrPick, hactive, Option.bind_some]
          cases hlink : session.linkById linkId with
          | none =>
              rw [hlink] at hhealthy
              cases hhealthy
          | some link =>
              rw [hlink, Option.any_some] at hhealthy
              simp only [hhealthy, if_true]
      | false =>
          have htry : advance { run with tasks } index (.trying linkId now ref) =
              some ({ run with tasks }, .ranking now ref) := by
            simp [advance, hfound, hhealthy]
          have hunhealthy : (session.active.bind session.linkById).any (·.isHealthy now) =
              false := by
            rw [hactive, Option.bind_some, hhealthy]
          rw [SessionManager.update_congr (fun session => (session.pickAndPin now).2) hsession
            (hranks hunhealthy)]
          exact alone_looks free htry fun later =>
            alone_ranking (hmirrors.retask later) free hpeer now

/-- A switch by hand makes the link active if it is there. -/
theorem alone_finding (toLink : String) :
    Alone index (manager.switchActiveLink peerId toLink).2 run (.finding toLink ref) := by
  obtain ⟨session, hfound, hsession⟩ := mirrors.known hpeer
  cases hlink : session.linkById toLink with
  | none =>
      have hadvance : run.advance index (.finding toLink ref) = some (run, .finished) := by
        simp [advance, hfound, hlink]
      apply alone_stops mirrors free hadvance rfl
      intro asked
      simp only [SessionManager.switchActiveLink, hsession, hlink]
  | some link =>
      have hadvance : run.advance index (.finding toLink ref) =
          some (run, .activating toLink ref .manualUserRequest) := by
        simp [advance, hfound, hlink]
      have hswitches : (manager.switchActiveLink peerId toLink).2 =
          manager.update peerId (·.activate toLink .manualUserRequest) := by
        simp only [SessionManager.switchActiveLink, SessionManager.update, hsession, hlink]
        rfl
      rw [hswitches]
      exact alone_looks free hadvance fun tasks =>
        alone_activating (mirrors.retask tasks) free hpeer toLink .manualUserRequest

/-- A promotion makes the best of the other links active. -/
theorem alone_choosing (failingId : String) (now : Instant) :
    Alone index (manager.update peerId fun session => (session.promoteOnFailure failingId now).2)
      run (.choosing failingId now ref) := by
  obtain ⟨session, hfound, hsession⟩ := mirrors.known hpeer
  cases hbest : session.bestExcluding failingId now with
  | none =>
      have hadvance : run.advance index (.choosing failingId now ref) =
          some (run, .finished) := by
        simp [advance, hfound, hbest]
      apply alone_stops mirrors free hadvance rfl
      apply SessionManager.get_update_of_same hsession
      rw [Session.promoteOnFailure, hbest]
  | some best =>
      have hadvance : run.advance index (.choosing failingId now ref) =
          some (run, .activating best ref .activeFailed) := by
        simp [advance, hfound, hbest]
      have hpromotes : (session.promoteOnFailure failingId now).2 =
          session.activate best .activeFailed := by
        rw [Session.promoteOnFailure, hbest]
        rfl
      rw [SessionManager.update_congr (·.activate best .activeFailed) hsession hpromotes]
      exact alone_looks free hadvance fun tasks =>
        alone_activating (mirrors.retask tasks) free hpeer best .activeFailed

/-- With the lock on the peers in hand, a link joins the session or is refused. -/
theorem alone_joining (link : Link) (hint : Option SessionId) (freshId : SessionId)
    (claims : ∀ session ∈ run.sessions[ref]?, hint.any (· != session.sessionId) = false) :
    Alone index (manager.attachLink peerId link hint freshId).2 { run with holder := some index }
      (.joining peerId ref link) := by
  obtain ⟨session, hfound, hsession⟩ := mirrors.known hpeer
  have hclaims := claims session hfound
  have hadvance : advance { run with holder := some index } index (.joining peerId ref link) =
      if MAX_LINKS_PER_PEER ≤ session.links.length then
        some (run, .returned .rejectedCapacity)
      else if session.links.any fun other => other.kind = link.kind then
        some (run, .returned .rejectedDuplicateKind)
      else some (run.joinSession peerId ref link, .returned .attachedExisting) := by
    simp only [advance, hfound, Option.bind_eq_bind, Option.bind_some, ← free]
    rfl
  have hattach : (manager.attachLink peerId link hint freshId).2 =
      if MAX_LINKS_PER_PEER ≤ session.links.length then manager
      else if session.links.any fun other => other.kind = link.kind then manager
      else manager.update peerId (SessionManager.joined · peerId link) := by
    simp only [SessionManager.attachLink, SessionManager.update, hsession, hclaims,
      Bool.false_eq_true, if_false]
    split_ifs <;> rfl
  rw [hattach]
  split_ifs at hadvance ⊢
  · exact .goes hadvance (by rintro ⟨⟩) (.ends (mirrors.retask _) free rfl)
  · exact .goes hadvance (by rintro ⟨⟩) (.ends (mirrors.retask _) free rfl)
  · have hjoined := mirrors.onSession hpeer (SessionManager.joined · peerId link)
    exact .goes hadvance (by rintro ⟨⟩) (.ends (hjoined.of_same rfl rfl) rfl rfl)

/-- A session without links is removed. -/
theorem alone_counting (hsession : manager.get peerId = some session) :
    Alone index (if session.links = [] then ⟨manager.peers.erase peerId⟩ else manager) run
      (.counting peerId ref) := by
  obtain ⟨held, hfound, hheld⟩ := mirrors.known hpeer
  rw [hsession] at hheld
  cases hheld
  by_cases hempty : session.links = []
  · have hadvance : run.advance index (.counting peerId ref) = some (run, .retiring peerId) := by
      simp [advance, hfound, hempty]
    rw [if_pos hempty]
    exact alone_looks free hadvance fun tasks => alone_retiring (mirrors.retask tasks) free peerId
  · have hadvance : run.advance index (.counting peerId ref) = some (run, .finished) := by
      simp [advance, hfound, hempty]
    rw [if_neg hempty]
    exact alone_stops mirrors free hadvance rfl fun _ => rfl

theorem alone_clearing (hsession : manager.get peerId = some session) (linkId : String) :
    Alone index
      (if (session.clearActive linkId).links = [] then
        ⟨(manager.update peerId (·.clearActive linkId)).peers.erase peerId⟩
      else manager.update peerId (·.clearActive linkId)) run (.clearing peerId linkId ref) := by
  have hcleared : (manager.update peerId (·.clearActive linkId)).get peerId =
      some (session.clearActive linkId) := by
    rw [SessionManager.get_update_self, hsession]
    rfl
  apply Alone.goes rfl fun _ => free
  exact alone_counting ((mirrors.onSession hpeer _).of_same rfl rfl) free hpeer hcleared

/-- A detach takes the link out, clears it, and removes a session without links. -/
theorem alone_removing (linkId : String) :
    Alone index (manager.detachLink peerId linkId).2 run (.removing peerId linkId ref) := by
  obtain ⟨session, hfound, hsession⟩ := mirrors.known hpeer
  cases hlink : session.linkById linkId with
  | none =>
      have hadvance : run.advance index (.removing peerId linkId ref) = some (run, .finished) := by
        simp [advance, hfound, hlink]
      have hgone : linkId ∉ session.links.map Link.id := by
        intro hmem
        obtain ⟨link, hheld, hid⟩ := List.mem_map.mp hmem
        exact List.find?_eq_none.mp hlink link hheld (by simp [hid])
      apply alone_stops mirrors free hadvance rfl
      intro asked
      simp only [SessionManager.detachLink, hsession, if_neg hgone]
  | some link =>
      have hadvance : run.advance index (.removing peerId linkId ref) =
          some (run.takeOut peerId ref link, .clearing peerId linkId ref) := by
        simp [advance, hfound, hlink]
      have htaken : (manager.update peerId (·.takeOut peerId link.id)).get peerId =
          some (session.takeOut peerId link.id) := by
        rw [SessionManager.get_update_self, hsession]
        rfl
      have hmirrors : Mirrors { run.takeOut peerId ref link with
          tasks := run.tasks.set index (.clearing peerId linkId ref) }
            (manager.update peerId (·.takeOut peerId link.id)) :=
        (mirrors.onSession hpeer _).of_same rfl rfl
      apply (Alone.goes hadvance (fun _ => free)
        (alone_clearing hmirrors free hpeer htaken linkId)).congr
      exact SessionManager.get_detachLink_of_linkById hsession hlink

end Known

/-- A link is refused, opens a session, or joins the one that is there. -/
theorem alone_attaching (peerId : String) (link : Link) (hint : Option SessionId)
    (freshId : SessionId) :
    Alone index (manager.attachLink peerId link hint freshId).2 run
      (.attaching peerId link hint freshId) := by
  cases hpeer : run.peers.lookup peerId with
  | none =>
      have hunknown := mirrors.unknown hpeer
      by_cases hclaims : hint.isSome
      · have hadvance : run.advance index (.attaching peerId link hint freshId) =
            some (run, .returned .rejectedSessionMismatch) := by
          simp only [advance, hpeer, hclaims, if_true]
        apply alone_stops mirrors free hadvance rfl
        intro asked
        simp only [SessionManager.attachLink, hunknown, hclaims, if_true]
      · have hadvance : run.advance index (.attaching peerId link hint freshId) =
            some (run.openSession peerId link freshId, .returned (.createdNew freshId)) := by
          simp only [advance, hpeer, hclaims, Bool.false_eq_true, if_false]
        have hopens : (manager.attachLink peerId link hint freshId).2 =
            ⟨manager.peers.insert peerId (SessionManager.opened peerId link freshId)⟩ := by
          simp only [SessionManager.attachLink, hunknown, hclaims, Bool.false_eq_true, if_false]
          rfl
        rw [hopens]
        apply Alone.goes hadvance fun _ => free
        exact .ends ((mirrors.openSession peerId link freshId).of_same rfl rfl) free rfl
  | some ref =>
      obtain ⟨session, hfound, hsession⟩ := mirrors.known hpeer
      cases hclaims : hint.any (· != session.sessionId) with
      | true =>
          have hadvance : run.advance index (.attaching peerId link hint freshId) =
              some (run, .returned .rejectedSessionMismatch) := by
            simp only [advance, hpeer, hfound, Option.bind_eq_bind, Option.bind_some, hclaims,
              if_true]
          apply alone_stops mirrors free hadvance rfl
          intro asked
          simp only [SessionManager.attachLink, hsession, hclaims, if_true]
      | false =>
          have hadvance : run.advance index (.attaching peerId link hint freshId) =
              some ({ run with holder := some index }, .joining peerId ref link) := by
            simp only [advance, hpeer, hfound, Option.bind_eq_bind, Option.bind_some, hclaims,
              Bool.false_eq_true, if_false]
          have hfits : ∀ held ∈ run.sessions[ref]?, hint.any (· != held.sessionId) = false := by
            intro held hheld
            rwa [Option.mem_unique hheld hfound]
          apply Alone.goes hadvance fun _ => free
          exact alone_joining (mirrors.retask (run.tasks.set index (.joining peerId ref link)))
            free hpeer link hint freshId hfits

/-- A task looks its peer up, and ends if there is no session. -/
theorem alone_lookup {after : Nat → ManagerStage}
    (advanced : run.advance index stage =
      some (run, (run.peers.lookup peerId).elim .finished after))
    (missing : manager.get peerId = none → ∀ asked, target.get asked = manager.get asked)
    (found : ∀ ref, run.peers.lookup peerId = some ref →
      ∀ tasks, Alone index target { run with tasks } (after ref)) :
    Alone index target run stage := by
  cases hpeer : run.peers.lookup peerId with
  | none =>
      rw [hpeer] at advanced
      exact alone_stops mirrors free advanced rfl (missing (mirrors.unknown hpeer))
  | some ref =>
      rw [hpeer] at advanced
      exact alone_looks free advanced (found ref hpeer)

/-- An operation that runs alone, from its start. -/
theorem alone_start (index : Nat) (op : ManagerOp) :
    Alone index (manager.perform op) run (.start op) := by
  have hmissing : ∀ {peerId use}, manager.get peerId = none →
      ∀ asked, (manager.update peerId use).get asked = manager.get asked := by
    intro peerId use hunknown asked
    simp only [SessionManager.update, hunknown]
  cases op with
  | attach peerId link hint freshId => exact alone_attaching mirrors free peerId link hint freshId
  | detach peerId linkId =>
      apply alone_lookup mirrors free rfl
      · intro hunknown asked
        simp only [SessionManager.perform, SessionManager.detachLink, hunknown]
      · intro ref hpeer tasks
        exact alone_removing (mirrors.retask tasks) free hpeer linkId
  | drop peerId =>
      cases hpeer : run.peers.lookup peerId with
      | none =>
          have hunknown := mirrors.unknown hpeer
          have hadvance : run.advance index (.dropping peerId) = some (run, .finished) := by
            simp only [advance, hpeer]
          apply alone_stops mirrors free hadvance rfl
          intro asked
          simp only [SessionManager.perform, SessionManager.dropPeer, hunknown]
      | some ref =>
          obtain ⟨session, _, hsession⟩ := mirrors.known hpeer
          have hadvance : run.advance index (.dropping peerId) =
              some (run.dropSession peerId ref, .finished) := by
            simp only [advance, hpeer]
          have hdrops : manager.perform (.drop peerId) = ⟨manager.peers.erase peerId⟩ := by
            simp only [SessionManager.perform, SessionManager.dropPeer, hsession]
          rw [hdrops]
          apply Alone.goes hadvance fun _ => free
          exact .ends ((mirrors.forget peerId).of_same rfl rfl) free rfl
  | switch peerId toLink =>
      apply alone_lookup mirrors free rfl
      · intro hunknown asked
        simp only [SessionManager.perform, SessionManager.switchActiveLink, hunknown]
      · intro ref hpeer tasks
        exact alone_finding (mirrors.retask tasks) free hpeer toLink
  | promote peerId failingId now =>
      apply alone_lookup mirrors free rfl hmissing
      intro ref hpeer tasks
      exact alone_choosing (mirrors.retask tasks) free hpeer failingId now
  | pick peerId now =>
      apply alone_lookup mirrors free rfl hmissing
      intro ref hpeer tasks
      exact alone_consulting (mirrors.retask tasks) free hpeer now

end Alone

/-! ## One operation after another -/

/-- Whatever the operations reach one after the other, tasks reach that run one at
a time. -/
theorem exists_mirrors_of_reachable (reached : SessionManager.system.Reachable manager) :
    ∃ run, system.Reachable run ∧ run.Quiet ∧ run.Mirrors manager := by
  have hreaches : ∃ run, system.Reachable run ∧ run.Quiet ∧ run.holder = none ∧
      run.Mirrors manager := by
    induction reached with
    | init start =>
        rw [start]
        exact ⟨new, .init rfl, nofun, rfl, mirrors_new⟩
    | @step source target op _ taken ih =>
        obtain ⟨run, hreached, quiet, free, mirrors⟩ := ih
        have hstarted : system.Reachable { run with tasks := run.tasks ++ [.start op] } :=
          hreached.step (show run.perform (.start op) = some _ from rfl)
        have halone := alone_start (mirrors.retask (run.tasks ++ [.start op])) free
          run.tasks.length op
        obtain ⟨labels, after, last, hrun, htasks, hlast, hmirrors, hfree⟩ :=
          halone.exists_run List.getElem?_concat_length
        refine ⟨after, hstarted.run hrun, ?_, hfree, taken ▸ hmirrors⟩
        intro stage hstage
        rw [htasks, List.set_append_right _ _ (Nat.le_refl _), Nat.sub_self,
          List.set_cons_zero] at hstage
        rcases List.mem_append.mp hstage with hold | hnew
        · exact quiet stage hold
        · rwa [List.mem_singleton.mp hnew]
  obtain ⟨run, hreached, quiet, _, mirrors⟩ := hreaches
  exact ⟨run, hreached, quiet, mirrors⟩

end SharedManager

end Mlink.Core
