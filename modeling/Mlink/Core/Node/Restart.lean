/-
# A session that is started again

One end of a pair drops its session and opens another, whose numbers start at
zero. The other end keeps its session, and with it the window of the numbers
that it has accepted. A handshake claims no session, so the new links join the
old session, and its window judges the new numbers by the old ones: a number
gets through if it fits the window as the old numbers left it.
-/

import Mlink.Core.Node.Lifecycle
import Mlink.Core.Session.Reader
import Mlink.Lib.Transition
import Mlink.Protocol.Window

namespace Mlink.Core

open Mlink.Protocol Transition

/-- A message on its way over a connection, framed with its session number. -/
structure SentMessage where
  conn : ConnId
  seq : UInt32
  payload : Bytes
  deriving DecidableEq, Repr

/-- A node that keeps its session and one that starts it again, the messages on
their way from the second to the first, and a record of what the first made of
those that arrived. -/
structure Restart where
  survivor : Node
  restarted : Node
  flight : List SentMessage
  hasRestarted : Bool
  accepted : List UInt32
  /-- The numbers of messages sent after the restart that were discarded. -/
  discarded : List UInt32

inductive RestartOp
  /-- The ends shake hands over a new connection, and both register it. -/
  | connect (conn : ConnId) (transportId : String) (transportCaps : TransportCapabilities)
      (survivorDraw restartedDraw : RegistrationDraw) (now : Instant)
  /-- Anything else the survivor does, as long as it keeps its session. -/
  | survivorCall (call : NodeCall)
  /-- The other end drops its session, and its connections with it. -/
  | drop
  | send (conn : ConnId) (payload : Bytes)
  | deliver (index : Nat) (io : LinkIo)

namespace Restart

variable (state : Restart)

/-- The survivor's session for the other end. -/
def session : Option Session := state.survivor.sessions.get state.restarted.appUuid

def connect (conn : ConnId) (transportId : String) (transportCaps : TransportCapabilities)
    (survivorDraw restartedDraw : RegistrationDraw) (now : Instant) : Restart :=
  let survivorHs := state.survivor.localHandshake
  let restartedHs := state.restarted.localHandshake
  { state with
    survivor := (state.survivor.registerAfterHandshake restartedHs conn restartedHs.appUuid
      transportId transportCaps restartedHs.appUuid survivorDraw now).node
    restarted := (state.restarted.registerAfterHandshake survivorHs conn survivorHs.appUuid
      transportId transportCaps survivorHs.appUuid restartedDraw now).node }

def survivorCall (call : NodeCall) : Option Restart :=
  let survivor := state.survivor.call call
  if state.session.isSome ∧ (survivor.sessions.get state.restarted.appUuid).isNone then none
  else some { state with survivor := survivor }

def drop : Restart :=
  { state with
    restarted := state.restarted.disconnectPeer state.survivor.appUuid
    flight := []
    hasRestarted := true }

/-- Send over a link of the session, if the frame's length has room for it. -/
def send (conn : ConnId) (payload : Bytes) : Option Restart :=
  match state.restarted.sessions.get state.survivor.appUuid with
  | none => none
  | some session =>
      if conn ∈ session.links.map Link.conn ∧ payload.length ≤ 65531 then
        some { state with
          restarted := { state.restarted with
            sessions := state.restarted.sessions.update state.survivor.appUuid Session.spendSeq }
          flight := state.flight ++ [⟨conn, session.sendSeq.nextSeq, payload⟩] }
      else none

/-- A message arrives over a link of the survivor's session, which surfaces or
discards it. -/
def deliver (index : Nat) (io : LinkIo) : Option Restart :=
  match state.flight[index]?, state.session with
  | some message, some session =>
      if message.conn ∈ session.links.map Link.conn then
        let bytes := encodeFrame (Session.dataFrame message.seq message.payload)
        let (outcome, after, _) := session.handleBytes bytes io
        let surfaced := outcome = .msg message.seq message.payload
        some { state with
          survivor := { state.survivor with
            sessions := state.survivor.sessions.update state.restarted.appUuid fun _ => after }
          flight := state.flight.eraseIdx index
          accepted := if surfaced then message.seq :: state.accepted else state.accepted
          discarded :=
            if state.hasRestarted ∧ ¬ surfaced then message.seq :: state.discarded
            else state.discarded }
      else none
  | _, _ => none

def perform : RestartOp → Option Restart
  | .connect conn transportId transportCaps survivorDraw restartedDraw now =>
      some (state.connect conn transportId transportCaps survivorDraw restartedDraw now)
  | .survivorCall call => state.survivorCall call
  | .drop => some state.drop
  | .send conn payload => state.send conn payload
  | .deliver index io => state.deliver index io

/-- Two new nodes, with nothing between them yet. -/
def system : System Restart RestartOp where
  init state := ∃ survivor restarted : String, ∃ encrypt roomHashes otherHashes,
    state = ⟨.new survivor encrypt roomHashes, .new restarted encrypt otherHashes, [], false,
      [], []⟩
  step state op after := state.perform op = some after

/-- A message that arrives after the restart fits the survivor's window. -/
def ArrivalFits : RestartOp → Prop
  | .deliver index _ =>
      state.hasRestarted = true → ∀ message ∈ state.flight[index]?, ∀ session ∈ state.session,
        session.dedup.Fits state.accepted message.seq
  | _ => True

instance (op : RestartOp) : Decidable (state.ArrivalFits op) :=
  match op with
  | .deliver index _ =>
      inferInstanceAs (Decidable (_ = true → ∀ message ∈ state.flight[index]?,
        ∀ session ∈ state.session, session.dedup.Fits state.accepted message.seq))
  | .connect .. | .survivorCall _ | .drop | .send .. => inferInstanceAs (Decidable True)

/-! ## The window through attaching and detaching -/

/-- A session after an act is new, or has the window that it had. -/
theorem dedup_of_change {peerId : String} {act : PeerAct} {view after : PeerView}
    {events : List NodeEvent} (change : PeerChange peerId act view events after)
    {session : Session} (hsession : after.session = some session) :
    session.dedup = .new ∨ ∃ before ∈ view.session, session.dedup = before.dedup := by
  cases change with
  | refused _ attaches _ => exact .inr ⟨session, hsession, rfl⟩
  | registeredFirst _ unknown link peer freshId =>
      cases hsession
      exact .inl rfl
  | registered _ before known link peer =>
      cases hsession
      exact .inr ⟨before, known, rfl⟩
  | attached _ attaches _ before known link =>
      cases hsession
      exact .inr ⟨before, known, rfl⟩
  | installedFirst _ unknown link freshId =>
      cases hsession
      exact .inl rfl
  | announced _ before known refused linkId => exact .inr ⟨session, hsession, rfl⟩
  | missed _ linkId absent => exact .inr ⟨session, hsession, rfl⟩
  | left _ before known linkId attached others =>
      cases hsession
      exact .inr ⟨before, known, rfl⟩
  | leftLast _ before known linkId attached last => cases hsession
  | dropped _ => cases hsession

/-- The window that a node keeps for a peer marks only the given numbers. -/
def MarksOnly (node : Node) (peerId : String) (accepted : List UInt32) : Prop :=
  ∀ session ∈ node.sessions.get peerId, session.dedup.MarksOnly accepted

theorem MarksOnly.change {node after : Node} {peerId other : String} {accepted : List UInt32}
    (marksOnly : MarksOnly node peerId accepted) {act : PeerAct}
    (made : node.Makes after other act)
    (others : peerId ≠ other → after.view peerId = node.view peerId) :
    MarksOnly after peerId accepted := by
  intro session hsession
  by_cases hpeer : peerId = other
  · obtain ⟨events, _, hchange⟩ := made
    rw [← hpeer] at hchange
    rcases dedup_of_change hchange hsession with hnew | ⟨before, hbefore, hsame⟩
    · rw [hnew]
      exact DedupWindow.marksOnly_new accepted
    · rw [hsame]
      exact marksOnly before hbefore
  · exact marksOnly session ((congrArg PeerView.session (others hpeer)).symm.trans hsession)

/-! ## Runs -/

/-- The survivor's window marks only what was accepted, what is on its way fits
a frame, and nothing sent after the restart has been discarded. -/
structure Kept (state : Restart) : Prop where
  marks : MarksOnly state.survivor state.restarted.appUuid state.accepted
  sizes : ∀ message ∈ state.flight, message.payload.length ≤ 65531
  discarded : state.discarded = []

variable {state} {after : Restart}

theorem appUuid_disconnectPeer (node : Node) (peerId : String) :
    (node.disconnectPeer peerId).appUuid = node.appUuid := by
  rw [Node.disconnectPeer, Node.evict, Node.markDisconnected]
  dsimp only
  split <;> rfl

theorem Kept.connect (kept : state.Kept) (conn : ConnId) (transportId : String)
    (transportCaps : TransportCapabilities) (survivorDraw restartedDraw : RegistrationDraw)
    (now : Instant) :
    (state.connect conn transportId transportCaps survivorDraw restartedDraw now).Kept := by
  refine ⟨?_, kept.sizes, kept.discarded⟩
  have hsame : (state.connect conn transportId transportCaps survivorDraw restartedDraw
      now).restarted.appUuid = state.restarted.appUuid :=
    (Node.registerAfterHandshake_identity _ _ _ _ _ _ _ _ _).2
  rw [hsame]
  apply kept.marks.change (Node.makes_register _ _ _ _ _ _ _ _)
  intro hne
  exact Node.view_register_of_ne hne _ _ _ _ _ _ _

theorem Kept.survivorCall (kept : state.Kept) {call : NodeCall}
    (taken : state.survivorCall call = some after) : after.Kept := by
  rw [Restart.survivorCall] at taken
  split_ifs at taken
  cases taken
  refine ⟨?_, kept.sizes, kept.discarded⟩
  apply kept.marks.change (Node.makes_call state.survivor call)
  intro hne
  exact Node.view_call_of_ne hne

theorem Kept.drop (kept : state.Kept) : state.drop.Kept := by
  refine ⟨?_, by simp [Restart.drop], kept.discarded⟩
  show MarksOnly state.survivor (state.restarted.disconnectPeer _).appUuid _
  rw [appUuid_disconnectPeer]
  exact kept.marks

theorem Kept.send (kept : state.Kept) {conn : ConnId} {payload : Bytes}
    (taken : state.send conn payload = some after) : after.Kept := by
  rw [Restart.send] at taken
  cases hsession : state.restarted.sessions.get state.survivor.appUuid with
  | none =>
      rw [hsession] at taken
      cases taken
  | some session =>
      rw [hsession] at taken
      dsimp only at taken
      split_ifs at taken with hfits
      cases taken
      refine ⟨kept.marks, ?_, kept.discarded⟩
      intro message hmessage
      rcases List.mem_append.mp hmessage with hold | hnew
      · exact kept.sizes message hold
      · rw [List.mem_singleton.mp hnew]
        exact hfits.2

theorem Kept.deliver (kept : state.Kept) {index : Nat} {io : LinkIo}
    (fits : state.ArrivalFits (.deliver index io))
    (taken : state.deliver index io = some after) : after.Kept := by
  rw [Restart.deliver] at taken
  cases hmessage : state.flight[index]? with
  | none =>
      rw [hmessage] at taken
      cases taken
  | some message =>
      cases hsession : state.session with
      | none =>
          rw [hmessage, hsession] at taken
          cases taken
      | some session =>
          rw [hmessage, hsession] at taken
          dsimp only at taken
          by_cases hattached : message.conn ∈ session.links.map Link.conn
          · rw [if_pos hattached] at taken
            cases taken
            have hmarks := kept.marks session hsession
            obtain ⟨hsurfaced, hdedup, _, _⟩ := Session.handleBytes_dataFrame session message.seq
              message.payload io (kept.sizes message (List.mem_of_getElem? hmessage))
            refine ⟨?_, ?_, ?_⟩
            · intro held hheld
              have hsame := SessionManager.get_update_self state.survivor.sessions
                state.restarted.appUuid fun _ => (session.handleBytes
                  (encodeFrame (Session.dataFrame message.seq message.payload)) io).2.1
              rw [show state.survivor.sessions.get state.restarted.appUuid = some session from
                hsession] at hsame
              have hheld := Option.some.inj (hsame.symm.trans hheld)
              rw [← hheld, hdedup]
              simp only [hsurfaced]
              exact hmarks.observe message.seq
            · intro other hother
              exact kept.sizes other (List.mem_of_mem_eraseIdx hother)
            · show (if state.hasRestarted = true ∧ _ then _ else state.discarded) = []
              rw [if_neg, kept.discarded]
              rintro ⟨hrestarted, hlost⟩
              apply hlost
              rw [hsurfaced]
              exact DedupWindow.observe_of_fits hmarks
                (fits hrestarted message hmessage session hsession)
          · rw [if_neg hattached] at taken
            cases taken

/-- Nothing has happened yet. -/
def start : Restart := ⟨.new "survivor" false [], .new "restarted" false [], [], false, [], []⟩

/-- Every write succeeds. -/
def calm : LinkIo := ⟨0, fun _ => .ok ()⟩

end Restart

end Mlink.Core
