/-
# Two nodes that dial each other

Each node dials the other over the same kind of transport, so there are two
connections, each with a handshake and a registration at both ends. A node keeps
the connection that it registers first and closes the other. The two orders are
the nodes' own, and nothing makes them agree.
-/

import Mathlib.Logic.Function.Basic
import Mlink.Core.Node.Connect
import Mlink.Lib.Transition

namespace Mlink.Core

open Mlink.Protocol Transition

/-- How far one end of one connection has got. -/
inductive DialTask
  | idle
  | opened
  | wrote
  | shaken (peerHs : Handshake)
  | finished
  deriving DecidableEq, Repr

/-- One step of one end. A connection goes by the side that dialled it. -/
inductive DialOp
  | dial (conn : Side) (wireId : String)
  | accept (conn : Side)
  | write (node conn : Side)
  | read (node conn : Side)
  /-- The handshake fails, or a timeout drops it; the end closes the connection. -/
  | fail (node conn : Side)
  | register (node conn : Side) (name mismatchPeerId : String)
      (transportCaps : TransportCapabilities) (draw : RegistrationDraw) (now : Instant)
  deriving DecidableEq, Repr

/-- Both nodes, and for each end of each connection (first the node, then the
connection) its task, the handshake it has written and whether it has closed. -/
structure MutualDial where
  nodes : Side → Node
  tasks : Side → Side → DialTask
  sent : Side → Side → Option Handshake
  closed : Side → Side → Bool

namespace MutualDial

/-- Change the entry of one end of one connection. -/
def setEnd {α : Type} (ends : Side → Side → α) (node conn : Side) (value : α) :
    Side → Side → α :=
  Function.update ends node (Function.update (ends node) conn value)

/-- The connections as the nodes' tables know them. -/
def connId : Side → ConnId
  | .left => 0
  | .right => 1

/-- Before either has dialled. -/
def initial (nodes : Side → Node) : MutualDial :=
  ⟨nodes, fun _ _ => .idle, fun _ _ => none, fun _ _ => false⟩

/-- Start the handshake on a connection that has just been opened. -/
def openEnd (state : MutualDial) (node conn : Side) : MutualDial :=
  { state with tasks := setEnd state.tasks node conn .opened }

/-- Register a connection whose handshake is complete. -/
def register (state : MutualDial) (node conn : Side)
    (registration : Registration) : MutualDial :=
  { state with
    nodes := Function.update state.nodes node registration.node
    tasks := setEnd state.tasks node conn .finished
    closed := setEnd state.closed node conn (state.closed node conn || registration.closed) }

/-- One step, if the end is ready for it. -/
def step (transportId : String) (state : MutualDial) : DialOp → Option MutualDial
  | .dial conn wireId =>
      match state.tasks conn conn with
      | .idle =>
          some { state.openEnd conn conn with
            nodes := Function.update state.nodes conn
              ((state.nodes conn).setPeerState wireId .connecting) }
      | _ => none
  | .accept conn =>
      match state.tasks conn conn, state.tasks conn.other conn with
      | .idle, _ => none
      | _, .idle => some (state.openEnd conn.other conn)
      | _, _ => none
  | .write node conn =>
      match state.tasks node conn with
      | .opened =>
          some { state with
            tasks := setEnd state.tasks node conn .wrote
            sent := setEnd state.sent node conn (some (state.nodes node).localHandshake) }
      | _ => none
  | .read node conn =>
      match state.tasks node conn, state.sent node.other conn with
      | .wrote, some peerHs =>
          some { state with tasks := setEnd state.tasks node conn (.shaken peerHs) }
      | _, _ => none
  | .fail node conn =>
      match state.tasks node conn with
      | .opened | .wrote | .shaken _ =>
          some { state with
            tasks := setEnd state.tasks node conn .finished
            closed := setEnd state.closed node conn true }
      | _ => none
  | .register node conn name mismatchPeerId transportCaps draw now =>
      match state.tasks node conn with
      | .shaken peerHs =>
          some (state.register node conn
            ((state.nodes node).registerAfterHandshake peerHs (connId conn) name transportId
              transportCaps mismatchPeerId draw now))
      | _ => none

/-- All interleavings of the two nodes' steps. -/
def system (transportId : String) (start : Side → Node) : System MutualDial DialOp where
  init state := state = initial start
  step source op target := step transportId source op = some target

/-- Neither node has met the other. -/
def Strangers (start : Side → Node) : Prop :=
  ∀ side, (start side).sessions.get (start side.other).appUuid = none ∧
    ¬ (start side).lists (start side.other).appUuid

/-- Every end of every connection has registered or failed. -/
def Completed (state : MutualDial) : Prop := ∀ node conn, state.tasks node conn = .finished

/-- Neither lists the other, or they hold the two ends of one connection that
neither has closed. -/
def Agreement (start : Side → Node) (state : MutualDial) : Prop :=
  (∀ side, ¬ (state.nodes side).lists (start side.other).appUuid) ∨
    ∃ conn, ∀ side, (state.nodes side).Holds (start side.other).appUuid (connId conn) ∧
      state.closed side conn = false

/-- The connection that a node registers first, if it admits the other's room. -/
def firstRegistered (start : Side → Node) (side : Side) : List DialOp → Option Side
  | [] => none
  | .register node conn _ _ _ _ _ :: rest =>
      if node = side ∧ (start side).admits (start side.other).wireRoomHash then some conn
      else firstRegistered start side rest
  | .dial _ _ :: rest | .accept _ :: rest | .write _ _ :: rest | .read _ _ :: rest
  | .fail _ _ :: rest => firstRegistered start side rest

/-! ## Each node keeps what it registers first -/

section Tracks

variable {transportId : String} {start : Side → Node} {held : Side → Option Side}
  {state after : MutualDial}

theorem setEnd_self {α : Type} (ends : Side → Side → α) (node conn : Side) (value : α) :
    setEnd ends node conn value node conn = value := by
  simp [setEnd]

theorem setEnd_of_ne {α : Type} {ends : Side → Side → α} {node conn node' conn' : Side}
    {value : α} (other : ¬ (node' = node ∧ conn' = conn)) :
    setEnd ends node conn value node' conn' = ends node' conn' := by
  by_cases hnode : node' = node
  · subst hnode
    have hconn : conn' ≠ conn := fun same => other ⟨rfl, same⟩
    simp [setEnd, hconn]
  · simp [setEnd, hnode]

theorem connId_inj {first second : Side} (same : connId first = connId second) :
    first = second := by
  cases first <;> cases second <;> first | rfl | cases same

/-- A node holds exactly the given connection, and lists its peer. -/
def Keeps (transportId peerId : String) (node : Node) (conn : Side) : Prop :=
  node.lists peerId ∧ ∃ session link, node.sessions.get peerId = some session ∧
    session.links = [link] ∧ link.conn = connId conn ∧
    link.kind = (TransportKind.fromWire transportId).getD .mock

/-- What the nodes hold, given what each has registered first. -/
structure Tracks (transportId : String) (start : Side → Node) (held : Side → Option Side)
    (state : MutualDial) : Prop where
  identity : ∀ side, (state.nodes side).roomHashes = (start side).roomHashes ∧
    (state.nodes side).appUuid = (start side).appUuid
  sent : ∀ node conn peerHs, state.sent node conn = some peerHs →
    peerHs = (start node).localHandshake
  shaken : ∀ node conn peerHs, state.tasks node conn = .shaken peerHs →
    peerHs = (start node.other).localHandshake
  unclosed : ∀ node conn, state.tasks node conn ≠ .finished → state.closed node conn = false
  nothing : ∀ side, held side = none →
    (state.nodes side).sessions.get (start side.other).appUuid = none ∧
      ¬ (state.nodes side).lists (start side.other).appUuid
  kept : ∀ side conn, held side = some conn →
    Keeps transportId (start side.other).appUuid (state.nodes side) conn ∧
      state.closed side conn = false ∧ state.tasks side conn = .finished

theorem initial_tracks (strangers : Strangers start) :
    Tracks transportId start (fun _ => none) (initial start) where
  identity side := ⟨rfl, rfl⟩
  sent node conn peerHs hsent := by cases hsent
  shaken node conn peerHs hshaken := by cases hshaken
  unclosed node conn _ := rfl
  nothing side _ := strangers side
  kept side conn hheld := by cases hheld

/-- What a node writes is its handshake at the start. -/
theorem Tracks.localHandshake (tracks : Tracks transportId start held state) (side : Side) :
    (state.nodes side).localHandshake = (start side).localHandshake := by
  obtain ⟨hrooms, huuid⟩ := tracks.identity side
  simp only [Node.localHandshake, Node.wireRoomHash, hrooms, huuid]

/-- An end that moves on without registering, and does not close a connection it
keeps, changes nothing that is held. -/
theorem Tracks.move (tracks : Tracks transportId start held state) {node conn : Side}
    (task : DialTask) (closed : Bool) (busy : state.tasks node conn ≠ .finished)
    (shaken : ∀ peerHs, task = .shaken peerHs → peerHs = (start node.other).localHandshake)
    {sent : Side → Side → Option Handshake}
    (hsent : ∀ node conn peerHs, sent node conn = some peerHs →
      peerHs = (start node).localHandshake)
    (unclosed : task ≠ .finished → closed = false) :
    Tracks transportId start held
      { state with
        tasks := setEnd state.tasks node conn task
        sent
        closed := setEnd state.closed node conn closed } where
  identity := tracks.identity
  sent := hsent
  shaken node' conn' peerHs hshaken := by
    by_cases here : node' = node ∧ conn' = conn
    · obtain ⟨rfl, rfl⟩ := here
      simp only [setEnd_self] at hshaken
      exact shaken peerHs hshaken
    · simp only [setEnd_of_ne here] at hshaken
      exact tracks.shaken node' conn' peerHs hshaken
  unclosed node' conn' hunfinished := by
    by_cases here : node' = node ∧ conn' = conn
    · obtain ⟨rfl, rfl⟩ := here
      simp only [setEnd_self] at hunfinished ⊢
      exact unclosed hunfinished
    · simp only [setEnd_of_ne here] at hunfinished ⊢
      exact tracks.unclosed node' conn' hunfinished
  nothing := tracks.nothing
  kept side conn' hheld := by
    obtain ⟨hkeeps, hopen, hfinished⟩ := tracks.kept side conn' hheld
    have hother : ¬ (side = node ∧ conn' = conn) := by
      rintro ⟨rfl, rfl⟩
      exact busy hfinished
    simp only [setEnd_of_ne hother]
    exact ⟨hkeeps, hopen, hfinished⟩

/-- Leaving an entry as it is changes nothing. -/
theorem setEnd_same {α : Type} (ends : Side → Side → α) (node conn : Side) :
    setEnd ends node conn (ends node conn) = ends := by
  funext node' conn'
  by_cases here : node' = node ∧ conn' = conn
  · obtain ⟨rfl, rfl⟩ := here
    exact setEnd_self _ _ _ _
  · exact setEnd_of_ne here

/-- An end that moves on with its connection open. -/
theorem Tracks.moveOpen (tracks : Tracks transportId start held state) {node conn : Side}
    (task : DialTask) (busy : state.tasks node conn ≠ .finished)
    (shaken : ∀ peerHs, task = .shaken peerHs → peerHs = (start node.other).localHandshake) :
    Tracks transportId start held
      { state with tasks := setEnd state.tasks node conn task } := by
  have hmoved := tracks.move task (state.closed node conn) busy shaken tracks.sent
    fun _ => tracks.unclosed node conn busy
  rwa [setEnd_same] at hmoved

/-- A node's own note about a peer it dials changes nothing that is held. -/
theorem Tracks.setPeerState (tracks : Tracks transportId start held state) (node : Side)
    (wireId : String) (peerState : NodeState) :
    Tracks transportId start held
      { state with
        nodes := Function.update state.nodes node
          ((state.nodes node).setPeerState wireId peerState) } := by
  have hsame : ∀ side, ∃ peerStates, Function.update state.nodes node
      ((state.nodes node).setPeerState wireId peerState) side =
        { state.nodes side with peerStates } := by
    intro side
    by_cases here : side = node
    · subst here
      exact ⟨_, Function.update_self _ _ _⟩
    · exact ⟨_, Function.update_of_ne here _ _⟩
  refine ⟨?_, tracks.sent, tracks.shaken, tracks.unclosed, ?_, ?_⟩
  · intro side
    obtain ⟨peerStates, hnode⟩ := hsame side
    simp only [hnode]
    exact tracks.identity side
  · intro side hheld
    obtain ⟨peerStates, hnode⟩ := hsame side
    simp only [hnode]
    exact tracks.nothing side hheld
  · intro side conn hheld
    obtain ⟨peerStates, hnode⟩ := hsame side
    simp only [hnode]
    exact tracks.kept side conn hheld

/-- What a node holds after one step: the connection it registers, if it held
none and admits the other's room. -/
def heldAfter (start : Side → Node) (held : Side → Option Side) (op : DialOp) (side : Side) :
    Option Side :=
  (held side).orElse fun _ => firstRegistered start side [op]

/-- A step that registers nothing leaves what is held. -/
theorem heldAfter_of_not_register {op : DialOp}
    (other : ∀ side, firstRegistered start side [op] = none) : heldAfter start held op = held := by
  funext side
  simp [heldAfter, other side]

/-- A registration that is admitted is held if it is the first. -/
theorem heldAfter_register (node conn : Side) (name mismatchPeerId : String)
    (transportCaps : TransportCapabilities) (draw : RegistrationDraw) (now : Instant) :
    heldAfter start held (.register node conn name mismatchPeerId transportCaps draw now) =
      if held node = none ∧ (start node).admits (start node.other).wireRoomHash then
        Function.update held node (some conn)
      else held := by
  have hfirst : ∀ side, firstRegistered start side
      [.register node conn name mismatchPeerId transportCaps draw now] =
        if node = side ∧ (start side).admits (start side.other).wireRoomHash then some conn
        else none := fun side => rfl
  funext side
  by_cases here : side = node
  · subst here
    cases hheld : held side with
    | some first => simp [heldAfter, hheld]
    | none =>
        by_cases admitted : (start side).admits (start side.other).wireRoomHash = true
        · simp [heldAfter, hheld, hfirst, admitted]
        · simp [heldAfter, hheld, hfirst, admitted]
  · have hsame : heldAfter start held
        (.register node conn name mismatchPeerId transportCaps draw now) side = held side := by
      simp [heldAfter, hfirst, Ne.symm here]
    rw [hsame]
    split_ifs
    · rw [Function.update_of_ne here]
    · rfl

/-- A connection that is not taken is closed, and no node changes. -/
theorem Tracks.refuse (tracks : Tracks transportId start held state) {node conn : Side}
    (busy : state.tasks node conn ≠ .finished) (result : Result String) :
    Tracks transportId start held (state.register node conn ⟨result, state.nodes node, true⟩) := by
  have hmoved := tracks.move .finished true busy (by rintro _ ⟨⟩) tracks.sent
    (fun hunfinished => absurd rfl hunfinished)
  rw [MutualDial.register, Function.update_eq_self, Bool.or_true]
  exact hmoved

/-- A connection that is taken is held from then on. -/
theorem Tracks.take (tracks : Tracks transportId start held state) {node conn : Side}
    (busy : state.tasks node conn ≠ .finished) {registration : Registration}
    (identity : registration.node.roomHashes = (state.nodes node).roomHashes ∧
      registration.node.appUuid = (state.nodes node).appUuid)
    (keeps : Keeps transportId (start node.other).appUuid registration.node conn)
    (unclosed : registration.closed = false) :
    Tracks transportId start (Function.update held node (some conn))
      (state.register node conn registration) := by
  have hmoved := tracks.move .finished (state.closed node conn || registration.closed) busy
    (by rintro _ ⟨⟩) tracks.sent (fun hunfinished => absurd rfl hunfinished)
  refine ⟨?_, hmoved.sent, hmoved.shaken, hmoved.unclosed, ?_, ?_⟩
  · intro side
    by_cases here : side = node
    · subst here
      obtain ⟨hrooms, huuid⟩ := tracks.identity side
      simp only [MutualDial.register, Function.update_self]
      exact ⟨identity.1.trans hrooms, identity.2.trans huuid⟩
    · simp only [MutualDial.register, Function.update_of_ne here]
      exact tracks.identity side
  · intro side hnone
    by_cases here : side = node
    · subst here
      simp at hnone
    · rw [Function.update_of_ne here] at hnone
      simp only [MutualDial.register, Function.update_of_ne here]
      exact tracks.nothing side hnone
  · intro side conn' hsome
    by_cases here : side = node
    · subst here
      rw [Function.update_self, Option.some.injEq] at hsome
      subst hsome
      simp only [MutualDial.register, Function.update_self, setEnd_self]
      exact ⟨keeps, by simp [tracks.unclosed _ _ busy, unclosed], trivial⟩
    · rw [Function.update_of_ne here] at hsome
      obtain ⟨hkeeps, hunclosed, hfinished⟩ := hmoved.kept side conn' hsome
      simp only [MutualDial.register, Function.update_of_ne here]
      exact ⟨hkeeps, hunclosed, hfinished⟩

/-- The room check judges the room that the other node had at the start. -/
theorem Tracks.checkRoom (tracks : Tracks transportId start held state) {node conn : Side}
    {peerHs : Handshake} (hshaken : state.tasks node conn = .shaken peerHs)
    (mismatchPeerId : String) :
    (state.nodes node).checkRoom peerHs mismatchPeerId =
      if (start node).admits (start node.other).wireRoomHash then .ok ()
      else .error (.roomMismatch mismatchPeerId) := by
  have hpeer := tracks.shaken node conn peerHs hshaken
  have hadmits : (state.nodes node).admits peerHs.roomHash =
      (start node).admits (start node.other).wireRoomHash := by
    rw [Node.admits, Node.admits, (tracks.identity node).1, hpeer, Node.localHandshake]
  rw [Node.checkRoom, hadmits]

/-- Registering keeps the connection if it is the first to be admitted, and
otherwise closes it. -/
theorem Tracks.register (tracks : Tracks transportId start held state) {node conn : Side}
    {peerHs : Handshake} (hshaken : state.tasks node conn = .shaken peerHs)
    (name mismatchPeerId : String) (transportCaps : TransportCapabilities)
    (draw : RegistrationDraw) (now : Instant) :
    Tracks transportId start
      (heldAfter start held (.register node conn name mismatchPeerId transportCaps draw now))
      (state.register node conn ((state.nodes node).registerAfterHandshake peerHs (connId conn)
        name transportId transportCaps mismatchPeerId draw now)) := by
  have hpeer := tracks.shaken node conn peerHs hshaken
  have busy : state.tasks node conn ≠ .finished := by
    rw [hshaken]
    rintro ⟨⟩
  have hcheck := tracks.checkRoom hshaken mismatchPeerId
  rw [heldAfter_register]
  by_cases admitted : (start node).admits (start node.other).wireRoomHash = true
  · rw [if_pos admitted] at hcheck
    cases hheld : held node with
    | some first =>
        obtain ⟨⟨_, session, link, hsession, hlinks, _, hkind⟩, _, _⟩ :=
          tracks.kept node first hheld
        have hknown : (state.nodes node).sessions.get peerHs.appUuid = some session := by
          rw [hpeer]
          exact hsession
        have hattached : link ∈ session.links := by
          rw [hlinks]
          exact List.mem_singleton_self _
        rw [if_neg (by simp),
          Node.registerAfterHandshake_of_same_kind hcheck hknown hattached hkind]
        exact tracks.refuse busy _
    | none =>
        obtain ⟨hunknown, _⟩ := tracks.nothing node hheld
        have hpeerId : peerHs.appUuid = (start node.other).appUuid := by
          rw [hpeer]
          rfl
        rw [← hpeerId] at hunknown
        have hfresh : peerHs.sessionId = none := by
          rw [hpeer]
          rfl
        obtain ⟨hopen, hlists, hsession⟩ := Node.registerAfterHandshake_of_unknown
          (connId conn) name transportId transportCaps draw now hcheck hunknown hfresh
        rw [hpeerId] at hlists hsession
        rw [if_pos ⟨rfl, admitted⟩]
        exact tracks.take busy (Node.registerAfterHandshake_identity _ _ _ _ _ _ _ _ _)
          ⟨hlists, hsession⟩ hopen
  · rw [if_neg admitted] at hcheck
    rw [if_neg fun hboth => admitted hboth.2, Node.registerAfterHandshake_of_mismatch hcheck]
    exact tracks.refuse busy _

/-- Every step keeps track of what is held. -/
theorem Tracks.step (tracks : Tracks transportId start held state) {op : DialOp}
    (taken : step transportId state op = some after) :
    Tracks transportId start (heldAfter start held op) after := by
  cases op with
  | dial conn wireId =>
      rw [heldAfter_of_not_register fun _ => rfl]
      cases htask : state.tasks conn conn with
      | idle =>
          simp only [MutualDial.step, htask, Option.some.injEq] at taken
          subst taken
          have hopened := tracks.moveOpen .opened (by rw [htask]; rintro ⟨⟩)
            (by rintro _ ⟨⟩)
          exact hopened.setPeerState conn wireId .connecting
      | _ => simp [MutualDial.step, htask] at taken
  | accept conn =>
      rw [heldAfter_of_not_register fun _ => rfl]
      cases hpeer : state.tasks conn conn with
      | idle => simp [MutualDial.step, hpeer] at taken
      | _ =>
          cases htask : state.tasks conn.other conn with
          | idle =>
              simp only [MutualDial.step, hpeer, htask, Option.some.injEq] at taken
              subst taken
              exact tracks.moveOpen _ (by rw [htask]; rintro ⟨⟩) (by rintro _ ⟨⟩)
          | _ => simp [MutualDial.step, hpeer, htask] at taken
  | write node conn =>
      rw [heldAfter_of_not_register fun _ => rfl]
      cases htask : state.tasks node conn with
      | opened =>
          simp only [MutualDial.step, htask, Option.some.injEq] at taken
          subst taken
          have busy : state.tasks node conn ≠ .finished := by
            rw [htask]
            rintro ⟨⟩
          have hwritten : ∀ node' conn' peerHs,
              setEnd state.sent node conn (some (state.nodes node).localHandshake) node' conn' =
                some peerHs → peerHs = (start node').localHandshake := ?_
          · have hmoved := tracks.move .wrote (state.closed node conn) busy (by rintro _ ⟨⟩)
              hwritten fun _ => tracks.unclosed node conn busy
            rwa [setEnd_same] at hmoved
          · intro node' conn' peerHs hsent
            by_cases here : node' = node ∧ conn' = conn
            · obtain ⟨rfl, rfl⟩ := here
              rw [setEnd_self, Option.some.injEq] at hsent
              rw [← hsent]
              exact tracks.localHandshake node'
            · rw [setEnd_of_ne here] at hsent
              exact tracks.sent node' conn' peerHs hsent
      | _ => simp [MutualDial.step, htask] at taken
  | read node conn =>
      rw [heldAfter_of_not_register fun _ => rfl]
      cases htask : state.tasks node conn with
      | wrote =>
          cases hsent : state.sent node.other conn with
          | none => simp [MutualDial.step, htask, hsent] at taken
          | some peerHs =>
              simp only [MutualDial.step, htask, hsent, Option.some.injEq] at taken
              subst taken
              refine tracks.moveOpen _ (by rw [htask]; rintro ⟨⟩) ?_
              rintro _ ⟨rfl⟩
              exact tracks.sent node.other conn peerHs hsent
      | _ => simp [MutualDial.step, htask] at taken
  | fail node conn =>
      rw [heldAfter_of_not_register fun _ => rfl]
      have hfailed : state.tasks node conn ≠ .finished →
          Tracks transportId start held
            { state with
              tasks := setEnd state.tasks node conn .finished
              closed := setEnd state.closed node conn true } := fun busy =>
        tracks.move .finished true busy (by rintro _ ⟨⟩) tracks.sent
          fun hunfinished => absurd rfl hunfinished
      cases htask : state.tasks node conn with
      | idle => simp [MutualDial.step, htask] at taken
      | finished => simp [MutualDial.step, htask] at taken
      | _ =>
          simp only [MutualDial.step, htask, Option.some.injEq] at taken
          subst taken
          exact hfailed (by rw [htask]; rintro ⟨⟩)
  | register node conn name mismatchPeerId transportCaps draw now =>
      cases htask : state.tasks node conn with
      | shaken peerHs =>
          simp only [MutualDial.step, htask, Option.some.injEq] at taken
          subst taken
          exact tracks.register htask name mismatchPeerId transportCaps draw now
      | _ => simp [MutualDial.step, htask] at taken

/-- The first registration of a run is that of its first step, or of the rest. -/
theorem firstRegistered_cons (side : Side) (op : DialOp) (rest : List DialOp) :
    firstRegistered start side (op :: rest) =
      (firstRegistered start side [op]).orElse fun _ => firstRegistered start side rest := by
  cases op with
  | register node conn name mismatchPeerId transportCaps draw now =>
      simp only [firstRegistered]
      split_ifs <;> rfl
  | _ => rfl

/-- After a run, each node holds what it registered first. -/
theorem Tracks.run {ops : List DialOp} (run : (system transportId start).Run state ops after)
    (tracks : Tracks transportId start held state) :
    Tracks transportId start
      (fun side => (held side).orElse fun _ => firstRegistered start side ops) after := by
  induction run generalizing held with
  | nil state =>
      have hsame : (fun side => (held side).orElse fun _ => firstRegistered start side []) =
          held := by
        funext side
        cases held side <;> simp [firstRegistered]
      rw [hsame]
      exact tracks
  | cons taken rest ih =>
      have hrest := ih (tracks.step taken)
      convert hrest using 2 with side
      rw [heldAfter, firstRegistered_cons]
      cases held side <;> rfl

end Tracks

/-- However the handshakes and registrations of a mutual dial interleave, the
nodes agree exactly when they registered the same connection first. -/
theorem agreement_iff {transportId : String} {start : Side → Node} {state : MutualDial}
    {ops : List DialOp} (strangers : Strangers start)
    (run : (system transportId start).Run (initial start) ops state) :
    state.Agreement start ↔
      firstRegistered start .left ops = firstRegistered start .right ops := by
  have hinitial : Tracks transportId start (fun _ => none) (initial start) :=
    initial_tracks strangers
  have tracks := hinitial.run run
  simp only [Option.orElse_none] at tracks
  constructor
  · rintro (hneither | ⟨conn, hboth⟩)
    · have hnone : ∀ side, firstRegistered start side ops = none := by
        intro side
        cases hheld : firstRegistered start side ops with
        | none => rfl
        | some conn => exact absurd (tracks.kept side conn hheld).1.1 (hneither side)
      rw [hnone, hnone]
    · have hsome : ∀ side, firstRegistered start side ops = some conn := by
        intro side
        obtain ⟨⟨session, link, hsession, hlinks, hconn⟩, _⟩ := hboth side
        cases hheld : firstRegistered start side ops with
        | none =>
            rw [(tracks.nothing side hheld).1] at hsession
            cases hsession
        | some first =>
            obtain ⟨⟨_, session', link', hsession', hlinks', hconn', _⟩, _⟩ :=
              tracks.kept side first hheld
            rw [hsession'] at hsession
            cases hsession
            rw [hlinks'] at hlinks
            cases hlinks
            rw [connId_inj (hconn'.symm.trans hconn)]
      rw [hsome, hsome]
  · intro same
    cases hheld : firstRegistered start .left ops with
    | none =>
        left
        intro side
        cases side with
        | left => exact (tracks.nothing .left hheld).2
        | right => exact (tracks.nothing .right (same ▸ hheld)).2
    | some conn =>
        right
        refine ⟨conn, ?_⟩
        have hheldBy : ∀ side, firstRegistered start side ops = some conn := by
          intro side
          cases side with
          | left => exact hheld
          | right => exact same ▸ hheld
        intro side
        obtain ⟨⟨_, session, link, hsession, hlinks, hconn, _⟩, hopen, _⟩ :=
          tracks.kept side conn (hheldBy side)
        exact ⟨⟨session, link, hsession, hlinks, hconn⟩, hopen⟩

/-! ## Two registrations that cross -/

/-- Two new nodes in no room. -/
def newcomers : Side → Node
  | .left => Node.new "a" false []
  | .right => Node.new "b" false []

theorem newcomers_strangers : Strangers newcomers := by
  intro side
  cases side <;> exact ⟨rfl, by decide⟩

def registerOp (node conn : Side) : DialOp :=
  .register node conn "peer" "wire" ⟨10000000⟩ ⟨0, 0⟩ 0

/-- Both handshakes are complete, and each node registers its own dial first. -/
def crossed : List DialOp :=
  [.dial .left "b:1", .dial .right "a:1", .accept .left, .accept .right,
    .write .left .left, .write .right .left, .write .left .right, .write .right .right,
    .read .left .left, .read .right .left, .read .left .right, .read .right .right,
    registerOp .left .left, registerOp .right .right,
    registerOp .right .left, registerOp .left .right]

/-- Each node waits in its own dial until it times out, and only then accepts
the other's connection, in which the handshake still waits. -/
def timedOut : List DialOp :=
  [.dial .left "b:1", .dial .right "a:1", .write .left .left, .write .right .right,
    .fail .left .left, .fail .right .right, .accept .left, .accept .right,
    .write .left .right, .write .right .left, .read .left .right, .read .right .left,
    registerOp .left .right, registerOp .right .left]

/-- A run of two newcomers that ends in disagreement. -/
def Disagrees (ops : List DialOp) : Prop :=
  ∃ state, (system "tcp" newcomers).Run (initial newcomers) ops state ∧ state.Completed ∧
    ¬ state.Agreement newcomers

/-- Nodes that list each other do not agree when one end of each connection is
closed. -/
theorem disagrees_of_closed {ops : List DialOp} {state : MutualDial}
    (taken : ops.foldlM (step "tcp") (initial newcomers) = some state)
    (completed : state.Completed)
    (listed : (state.nodes .left).lists (newcomers .right).appUuid)
    (closed : ∀ conn, ∃ side, state.closed side conn = true) : Disagrees ops := by
  refine ⟨state, .of_foldlM id taken, completed, ?_⟩
  rintro (hneither | ⟨conn, hboth⟩)
  · exact hneither .left listed
  · obtain ⟨side, hside⟩ := closed conn
    rw [(hboth side).2] at hside
    cases hside

/-- Either way each node is left with a connection that the other has closed. -/
theorem not_agreement_crossed : Disagrees crossed ∧ Disagrees timedOut := by
  constructor
  · refine disagrees_of_closed rfl ?_ (by decide) ?_
    · intro node conn
      cases node <;> cases conn <;> rfl
    · intro conn
      exact ⟨conn.other, by cases conn <;> rfl⟩
  · refine disagrees_of_closed rfl ?_ (by decide) ?_
    · intro node conn
      cases node <;> cases conn <;> rfl
    · intro conn
      exact ⟨conn, by cases conn <;> rfl⟩

/-- Both nodes register the left node's dial first. -/
def leftFirst : List DialOp :=
  crossed.take 12 ++
    [registerOp .right .left, registerOp .left .left, registerOp .left .right,
      registerOp .right .right]

/-- The characterization for that run. -/
theorem agreement_iff_leftFirst :
    ∃ state, (system "tcp" newcomers).Run (initial newcomers) leftFirst state ∧
      (state.Agreement newcomers ↔
        firstRegistered newcomers .left leftFirst =
          firstRegistered newcomers .right leftFirst) := by
  have hruns : ∃ state, leftFirst.foldlM (step "tcp") (initial newcomers) = some state :=
    ⟨_, rfl⟩
  obtain ⟨state, hsteps⟩ := hruns
  have run : (system "tcp" newcomers).Run (initial newcomers) leftFirst state :=
    .of_foldlM id hsteps
  exact ⟨state, run, agreement_iff newcomers_strangers run⟩

end MutualDial

end Mlink.Core
