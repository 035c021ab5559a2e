/-
# Tasks on one session manager

The manager's operations take its locks one after the other: the lock on the
peers, and the locks on the links and on the active id of a session. Other tasks
run in between, and a session stays with the tasks that looked it up when the
peers no longer name it. A task is therefore a stage that advances by one lock
at a time, over sessions that are known by reference.
-/

import Mlink.Core.Session.ManagerInvariant

namespace Mlink.Core

open Mlink.Protocol Transition

/-- Where a task stands. -/
inductive ManagerStage
  | attaching (peerId : String) (link : Link) (sessionIdHint : Option SessionId)
      (freshId : SessionId)
  /-- The peer has a session, and the task keeps the lock on the peers. -/
  | joining (peerId : String) (ref : Nat) (link : Link)
  | detaching (peerId linkId : String)
  | removing (peerId linkId : String) (ref : Nat)
  /-- The link is out, and may still be the active one. -/
  | clearing (peerId linkId : String) (ref : Nat)
  | counting (peerId : String) (ref : Nat)
  /-- The session had no link left. -/
  | retiring (peerId : String)
  | dropping (peerId : String)
  | switching (peerId toLink : String)
  | finding (toLink : String) (ref : Nat)
  | promoting (peerId failingId : String) (now : Instant)
  | choosing (failingId : String) (now : Instant) (ref : Nat)
  /-- The link was there, and is to become active. -/
  | activating (linkId : String) (ref : Nat) (cause : SwitchCause)
  | picking (peerId : String) (now : Instant)
  /-- About to read the active id, and then the link that it names. The task
  keeps its lock on the id until it has the link; that others may write the id in
  between only adds to what can happen. -/
  | consulting (now : Instant) (ref : Nat)
  | trying (linkId : String) (now : Instant) (ref : Nat)
  | ranking (now : Instant) (ref : Nat)
  /-- The link is the best, and is to become active if none is. -/
  | pinning (linkId : String) (ref : Nat)
  | returned (outcome : AttachOutcome)
  | finished
  deriving DecidableEq, Repr

namespace ManagerStage

/-- Where an operation begins. -/
def start : ManagerOp → ManagerStage
  | .attach peerId link sessionIdHint freshId => attaching peerId link sessionIdHint freshId
  | .detach peerId linkId => detaching peerId linkId
  | .drop peerId => dropping peerId
  | .switch peerId toLink => switching peerId toLink
  | .promote peerId failingId now => promoting peerId failingId now
  | .pick peerId now => picking peerId now

/-- The next step takes the lock on the peers. -/
def locksPeers : ManagerStage → Bool
  | attaching .. | detaching .. | retiring _ | dropping _ | switching .. | promoting ..
  | picking .. => true
  | _ => false

/-- The operation is over. -/
def idle : ManagerStage → Bool
  | returned _ | finished => true
  | _ => false

/-- The lock on the peers is kept for this session. -/
def joins : ManagerStage → Option (String × Nat)
  | joining peerId ref _ => some (peerId, ref)
  | _ => none

/-- The active id of this session will be cleared if it is still this one. -/
def clears : ManagerStage → Option (Nat × String)
  | clearing _ linkId ref => some (ref, linkId)
  | _ => none

theorem clears_of_idle {stage : ManagerStage} (hidle : stage.idle = true) :
    stage.clears = none := by
  cases stage <;> first | rfl | cases hidle

end ManagerStage

namespace Session

/-- Make a link active. A promotion is told to whoever listens to the session. -/
def activate (session : Session) (linkId : String) (cause : SwitchCause) : Session :=
  let after := { session with active := some linkId }
  match cause with
  | .activeFailed =>
      after.emit (.switched session.peerId (session.active.getD "") linkId .activeFailed)
  | _ => after

/-- Make a link active if none is. -/
def pin (session : Session) (linkId : String) : Session :=
  { session with active := if session.active.isNone then some linkId else session.active }

/-- A link of this id and kind is attached. -/
def Holds (session : Session) (linkId : String) (kind : TransportKind) : Prop :=
  ∃ link ∈ session.links, link.id = linkId ∧ link.kind = kind

/-- Take a link out and say so. -/
def takeOut (session : Session) (peerId linkId : String) : Session :=
  (session.removeLink linkId).emit (.linkRemoved peerId linkId "detach")

end Session

/-- A link that `attach_link` took, and the session it went to. -/
structure Standing where
  peerId : String
  ref : Nat
  linkId : String
  kind : TransportKind
  deriving DecidableEq, Repr

/-- The manager, every session that was ever opened, the tasks, and a record of
the links that were attached and neither detached nor dropped since. -/
structure SharedManager where
  sessions : List Session
  peers : AList fun _ : String => Nat
  /-- The task that keeps the lock on the peers from one step to the next. -/
  holder : Option Nat
  tasks : List ManagerStage
  standing : List Standing

/-- One step of a run. Between the tasks' steps the health of a link changes as
it is written to and read from. -/
inductive ManagerStep
  | start (op : ManagerOp)
  | advance (index : Nat)
  | observe (ref : Nat) (linkId : String) (health : LinkHealth)

namespace SharedManager

def new : SharedManager := ⟨[], ∅, none, [], []⟩

variable (run : SharedManager)

/-- The session that the peers name. -/
def get (peerId : String) : Option Session :=
  (run.peers.lookup peerId).bind (run.sessions[·]?)

/-- What a task does to a session that it knows. -/
def onSession (ref : Nat) (use : Session → Session) : SharedManager :=
  { run with sessions := run.sessions.modify ref use }

/-- The first link of a peer opens a session. -/
def openSession (peerId : String) (link : Link) (freshId : SessionId) : SharedManager :=
  { run with
    sessions := run.sessions ++ [SessionManager.opened peerId link freshId]
    peers := run.peers.insert peerId run.sessions.length
    standing := run.standing ++ [⟨peerId, run.sessions.length, link.id, link.kind⟩] }

/-- A link joins the session that the task holds the peers for. -/
def joinSession (peerId : String) (ref : Nat) (link : Link) : SharedManager :=
  { run.onSession ref (SessionManager.joined · peerId link) with
    holder := none
    standing := run.standing ++ [⟨peerId, ref, link.id, link.kind⟩] }

/-- A link is taken out of its session; the session has no other of its kind. -/
def takeOut (peerId : String) (ref : Nat) (link : Link) : SharedManager :=
  { run.onSession ref (·.takeOut peerId link.id) with
    standing := run.standing.filter fun entry =>
      !decide (entry.ref = ref ∧ entry.linkId = link.id ∧ entry.kind = link.kind) }

/-- The peers forget whatever session they name. -/
def forget (peerId : String) : SharedManager :=
  { run with peers := run.peers.erase peerId }

/-- A session is dropped with all its links. -/
def dropSession (peerId : String) (ref : Nat) : SharedManager :=
  { run.forget peerId with
    standing := run.standing.filter fun entry => entry.ref ≠ ref }

/-- What one lock's worth of a task does, and where the task then stands. -/
def advance (index : Nat) : ManagerStage → Option (SharedManager × ManagerStage)
  | .attaching peerId link sessionIdHint freshId =>
      match run.peers.lookup peerId with
      | some ref => do
          let session ← run.sessions[ref]?
          if sessionIdHint.any (· != session.sessionId) then
            some (run, .returned .rejectedSessionMismatch)
          else some ({ run with holder := some index }, .joining peerId ref link)
      | none =>
          if sessionIdHint.isSome then some (run, .returned .rejectedSessionMismatch)
          else some (run.openSession peerId link freshId, .returned (.createdNew freshId))
  | .joining peerId ref link => do
      let session ← run.sessions[ref]?
      if MAX_LINKS_PER_PEER ≤ session.links.length then
        some ({ run with holder := none }, .returned .rejectedCapacity)
      else if session.links.any fun other => other.kind = link.kind then
        some ({ run with holder := none }, .returned .rejectedDuplicateKind)
      else some (run.joinSession peerId ref link, .returned .attachedExisting)
  | .detaching peerId linkId =>
      some (run, (run.peers.lookup peerId).elim .finished (.removing peerId linkId))
  | .removing peerId linkId ref => do
      let session ← run.sessions[ref]?
      match session.linkById linkId with
      | some link => some (run.takeOut peerId ref link, .clearing peerId linkId ref)
      | none => some (run, .finished)
  | .clearing peerId linkId ref =>
      some (run.onSession ref (·.clearActive linkId), .counting peerId ref)
  | .counting peerId ref => do
      let session ← run.sessions[ref]?
      some (run, if session.links.isEmpty then .retiring peerId else .finished)
  | .retiring peerId => some (run.forget peerId, .finished)
  | .dropping peerId =>
      match run.peers.lookup peerId with
      | some ref => some (run.dropSession peerId ref, .finished)
      | none => some (run, .finished)
  | .switching peerId toLink =>
      some (run, (run.peers.lookup peerId).elim .finished (.finding toLink))
  | .finding toLink ref => do
      let session ← run.sessions[ref]?
      some (run, (session.linkById toLink).elim .finished fun _ =>
        .activating toLink ref .manualUserRequest)
  | .promoting peerId failingId now =>
      some (run, (run.peers.lookup peerId).elim .finished (.choosing failingId now))
  | .choosing failingId now ref => do
      let session ← run.sessions[ref]?
      some (run, (session.bestExcluding failingId now).elim .finished fun nextId =>
        .activating nextId ref .activeFailed)
  | .activating linkId ref cause =>
      some (run.onSession ref (·.activate linkId cause), .finished)
  | .picking peerId now =>
      some (run, (run.peers.lookup peerId).elim .finished (.consulting now))
  | .consulting now ref => do
      let session ← run.sessions[ref]?
      some (run, session.active.elim (.ranking now ref) (.trying · now ref))
  | .trying linkId now ref => do
      let session ← run.sessions[ref]?
      some (run, if (session.linkById linkId).any (·.isHealthy now) then .finished
        else .ranking now ref)
  | .ranking now ref => do
      let session ← run.sessions[ref]?
      some (run, (session.pickBest now).elim .finished (.pinning · ref))
  | .pinning linkId ref => some (run.onSession ref (·.pin linkId), .finished)
  | .returned _ | .finished => none

def perform : ManagerStep → Option SharedManager
  | .start op => some { run with tasks := run.tasks ++ [.start op] }
  | .advance index => do
      let stage ← run.tasks[index]?
      if stage.locksPeers && run.holder.isSome then none
      else
        let (after, next) ← run.advance index stage
        some { after with tasks := run.tasks.set index next }
  | .observe ref linkId health =>
      some (run.onSession ref (·.updateLink linkId fun link => { link with health }))

/-- A new manager under any interleaving of tasks. -/
def system : System SharedManager ManagerStep where
  init run := run = new
  step run label after := run.perform label = some after

/-! ## What the manager owes its callers -/

/-- Every link that was attached, and neither detached nor dropped since, is in
the session that the peers name. -/
def Reaches : Prop :=
  ∀ entry ∈ run.standing, ∃ session, run.get entry.peerId = some session ∧
    session.Holds entry.linkId entry.kind

/-- No operation is in progress. -/
def Quiet : Prop := ∀ stage ∈ run.tasks, stage.idle = true

/-- An active id is the id of an attached link, in every session. -/
def NamesAttached : Prop :=
  ∀ session ∈ run.sessions, ∀ linkId ∈ session.active, linkId ∈ session.links.map Link.id

instance : Decidable run.Quiet :=
  inferInstanceAs (Decidable (∀ stage ∈ run.tasks, stage.idle = true))

instance : Decidable run.NamesAttached :=
  inferInstanceAs (Decidable (∀ session ∈ run.sessions, ∀ linkId ∈ session.active,
    linkId ∈ session.links.map Link.id))

/-- The link is attached, or a task that has taken it out is yet to look whether
it is active. -/
def Accounts (ref : Nat) (linkId : String) : Prop :=
  (∃ session ∈ run.sessions[ref]?, linkId ∈ session.links.map Link.id) ∨
    ∃ stage ∈ run.tasks, stage.clears = some (ref, linkId)

instance (ref : Nat) (linkId : String) : Decidable (run.Accounts ref linkId) :=
  inferInstanceAs (Decidable ((∃ session ∈ run.sessions[ref]?, _) ∨ ∃ stage ∈ run.tasks, _))

/-- The active id that a step sets. -/
def activates : ManagerStage → Option (Nat × String)
  | .activating linkId ref _ => some (ref, linkId)
  | .pinning linkId ref =>
      if (run.sessions[ref]?.bind Session.active).isSome then none else some (ref, linkId)
  | _ => none

/-- The peer whose session a step removes. -/
def retires : ManagerStage → Option String
  | .retiring peerId => some peerId
  | _ => none

/-- The session that is removed has no link at that moment, and the link that is
made active is still attached. -/
def Steady : ManagerStep → Prop
  | .start _ | .observe .. => True
  | .advance index =>
      ∀ stage ∈ run.tasks[index]?,
        (∀ peerId ∈ retires stage, ∀ session ∈ run.get peerId, session.links = []) ∧
          ∀ target ∈ run.activates stage, run.Accounts target.1 target.2

instance (step : ManagerStep) : Decidable (run.Steady step) :=
  match step with
  | .start _ | .observe .. => inferInstanceAs (Decidable True)
  | .advance index =>
      inferInstanceAs (Decidable (∀ stage ∈ run.tasks[index]?,
        (∀ peerId ∈ retires stage, ∀ session ∈ run.get peerId, session.links = []) ∧
          ∀ target ∈ run.activates stage, run.Accounts target.1 target.2))

/-! ## What a step can do -/

/-- What one lock's worth of a task can do. -/
inductive Move (run : SharedManager) (index : Nat) :
    ManagerStage → SharedManager → ManagerStage → Prop
  /-- A read, or a refusal before the session is known. -/
  | looked {stage next : ManagerStage} (before : stage.joins = none)
      (uncleared : stage.clears = none) (still : next.joins = none) :
      Move run index stage run next
  | opened {peerId : String} {link : Link} {freshId : SessionId}
      (unknown : run.peers.lookup peerId = none) :
      Move run index (.attaching peerId link none freshId) (run.openSession peerId link freshId)
        (.returned (.createdNew freshId))
  | locked {peerId : String} {link : Link} {hint : Option SessionId} {freshId : SessionId}
      {ref : Nat} (known : run.peers.lookup peerId = some ref) :
      Move run index (.attaching peerId link hint freshId) { run with holder := some index }
        (.joining peerId ref link)
  | refused {peerId : String} {ref : Nat} {link : Link} {outcome : AttachOutcome}
      (refusal : outcome.isAttached = false) :
      Move run index (.joining peerId ref link) { run with holder := none } (.returned outcome)
  | joined {peerId : String} {ref : Nat} {link : Link} {session : Session}
      (found : run.sessions[ref]? = some session) (takes : session.Takes link.kind) :
      Move run index (.joining peerId ref link) (run.joinSession peerId ref link)
        (.returned .attachedExisting)
  | tookOut {peerId linkId : String} {ref : Nat} {session : Session} {link : Link}
      (found : run.sessions[ref]? = some session) (hlink : session.linkById linkId = some link) :
      Move run index (.removing peerId linkId ref) (run.takeOut peerId ref link)
        (.clearing peerId linkId ref)
  | cleared {peerId linkId : String} {ref : Nat} :
      Move run index (.clearing peerId linkId ref) (run.onSession ref (·.clearActive linkId))
        (.counting peerId ref)
  | retired {peerId : String} : Move run index (.retiring peerId) (run.forget peerId) .finished
  | dropped {peerId : String} {ref : Nat} (known : run.peers.lookup peerId = some ref) :
      Move run index (.dropping peerId) (run.dropSession peerId ref) .finished
  | activated {linkId : String} {ref : Nat} {cause : SwitchCause} :
      Move run index (.activating linkId ref cause)
        (run.onSession ref (·.activate linkId cause)) .finished
  | pinned {linkId : String} {ref : Nat} :
      Move run index (.pinning linkId ref) (run.onSession ref (·.pin linkId)) .finished

variable {run after : SharedManager} {index : Nat} {stage next : ManagerStage}

/-- What is looked for is found or not, and the task goes on or ends. -/
theorem joins_elim {α : Type} (found : Option α) {onMissing : ManagerStage}
    {onFound : α → ManagerStage} (hmissing : onMissing.joins = none)
    (hfound : ∀ value, (onFound value).joins = none) :
    (found.elim onMissing onFound).joins = none := by
  cases found with
  | none => exact hmissing
  | some value => exact hfound value

theorem move_of_attaching {peerId : String} {link : Link} {hint : Option SessionId}
    {freshId : SessionId}
    (advanced : run.advance index (.attaching peerId link hint freshId) = some (after, next)) :
    Move run index (.attaching peerId link hint freshId) after next := by
  rw [advance] at advanced
  split at advanced
  · rename_i ref hknown
    obtain ⟨session, _, hchecked⟩ := Option.bind_eq_some_iff.mp advanced
    split_ifs at hchecked
    · cases hchecked
      exact .looked rfl rfl rfl
    · cases hchecked
      exact .locked hknown
  · rename_i hunknown
    split_ifs at advanced with hclaims
    · cases advanced
      exact .looked rfl rfl rfl
    · cases advanced
      rw [Option.not_isSome_iff_eq_none] at hclaims
      rw [hclaims]
      exact .opened hunknown

theorem move_of_joining {peerId : String} {ref : Nat} {link : Link}
    (advanced : run.advance index (.joining peerId ref link) = some (after, next)) :
    Move run index (.joining peerId ref link) after next := by
  obtain ⟨session, hfound, hjoins⟩ := Option.bind_eq_some_iff.mp advanced
  split_ifs at hjoins with hfull hkind
  · cases hjoins
    exact .refused rfl
  · cases hjoins
    exact .refused rfl
  · cases hjoins
    apply Move.joined hfound ⟨Nat.lt_of_not_le hfull, _⟩
    intro other hother hsame
    exact hkind (List.any_eq_true.mpr ⟨other, hother, decide_eq_true hsame⟩)

theorem move_of_advance (advanced : run.advance index stage = some (after, next)) :
    Move run index stage after next := by
  cases stage with
  | attaching peerId link hint freshId => exact move_of_attaching advanced
  | joining peerId ref link => exact move_of_joining advanced
  | detaching peerId linkId =>
      cases advanced
      exact .looked rfl rfl (joins_elim _ rfl fun _ => rfl)
  | removing peerId linkId ref =>
      obtain ⟨session, hfound, hremoved⟩ := Option.bind_eq_some_iff.mp advanced
      split at hremoved
      · rename_i link hlink
        cases hremoved
        exact .tookOut hfound hlink
      · cases hremoved
        exact .looked rfl rfl rfl
  | clearing peerId linkId ref =>
      cases advanced
      exact .cleared
  | counting peerId ref =>
      obtain ⟨session, _, hcounted⟩ := Option.bind_eq_some_iff.mp advanced
      cases hcounted
      apply Move.looked rfl rfl
      split_ifs <;> rfl
  | retiring peerId =>
      cases advanced
      exact .retired
  | dropping peerId =>
      rw [advance] at advanced
      split at advanced
      · rename_i ref hknown
        cases advanced
        exact .dropped hknown
      · cases advanced
        exact .looked rfl rfl rfl
  | switching peerId toLink =>
      cases advanced
      exact .looked rfl rfl (joins_elim _ rfl fun _ => rfl)
  | finding toLink ref =>
      obtain ⟨session, _, hfound⟩ := Option.bind_eq_some_iff.mp advanced
      cases hfound
      exact .looked rfl rfl (joins_elim _ rfl fun _ => rfl)
  | promoting peerId failingId now =>
      cases advanced
      exact .looked rfl rfl (joins_elim _ rfl fun _ => rfl)
  | choosing failingId now ref =>
      obtain ⟨session, _, hchosen⟩ := Option.bind_eq_some_iff.mp advanced
      cases hchosen
      exact .looked rfl rfl (joins_elim _ rfl fun _ => rfl)
  | activating linkId ref cause =>
      cases advanced
      exact .activated
  | picking peerId now =>
      cases advanced
      exact .looked rfl rfl (joins_elim _ rfl fun _ => rfl)
  | consulting now ref =>
      obtain ⟨session, _, hconsulted⟩ := Option.bind_eq_some_iff.mp advanced
      cases hconsulted
      exact .looked rfl rfl (joins_elim _ rfl fun _ => rfl)
  | trying linkId now ref =>
      obtain ⟨session, _, htried⟩ := Option.bind_eq_some_iff.mp advanced
      cases htried
      apply Move.looked rfl rfl
      split_ifs <;> rfl
  | ranking now ref =>
      obtain ⟨session, _, hranked⟩ := Option.bind_eq_some_iff.mp advanced
      cases hranked
      exact .looked rfl rfl (joins_elim _ rfl fun _ => rfl)
  | pinning linkId ref =>
      cases advanced
      exact .pinned
  | returned outcome => cases advanced
  | finished => cases advanced

/-- A step of a task is a move of one of them, and needs the lock on the peers to
be free where it takes it. -/
theorem move_of_perform (taken : run.perform (.advance index) = some after) :
    ∃ stage moved next, run.tasks[index]? = some stage ∧
      (stage.locksPeers = true → run.holder = none) ∧ Move run index stage moved next ∧
      after = { moved with tasks := run.tasks.set index next } := by
  obtain ⟨stage, hstage, hstep⟩ := Option.bind_eq_some_iff.mp taken
  split_ifs at hstep with hlocked
  obtain ⟨⟨moved, next⟩, hadvance, hafter⟩ := Option.bind_eq_some_iff.mp hstep
  cases hafter
  refine ⟨stage, moved, next, hstage, ?_, move_of_advance hadvance, rfl⟩
  intro hlocks
  rw [hlocks, Bool.true_and, Option.not_isSome_iff_eq_none] at hlocked
  exact hlocked

end SharedManager

end Mlink.Core
