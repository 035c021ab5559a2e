/-
# The peer's reader

`spawn_peer_reader` reads frames off a peer until a read fails, and then cleans
up after the peer. Between any two of its locks other tasks run: the calls that
attach and detach links, and the readers of this and of other peers. A reader is
therefore a stage that advances by one lock at a time, and a run interleaves the
steps of any number of readers with calls.
-/

import Mlink.Core.Node.Io
import Mlink.Core.Node.Lifecycle
import Mlink.Core.Session.Quiet
import Mlink.Lib.Transition

namespace Mlink.Core

open Mlink.Protocol Transition

/-- Where a reader stands. -/
inductive ReaderStage
  /-- About to choose how to read. -/
  | watching
  /-- The peer had two links or more, or it had not. -/
  | chosen (useSession : Bool)
  /-- Parked on the session's `recv`. -/
  | onSession (sessionId : SessionId)
  /-- Parked on a connection. -/
  | onConn (conn : ConnId)
  /-- The read failed. -/
  | failed (useSession : Bool)
  /-- The link that was active is to be detached. -/
  | detaching (linkId : String)
  /-- The session is to be dropped. -/
  | dropping
  | evicting
  | removing
  | marking
  | announcing
  | finished
  deriving DecidableEq, Repr

namespace ReaderStage

/-- The session has been dealt with, and the rest of the cleanup is to come. -/
def cleaning : ReaderStage → Bool
  | evicting | removing | marking | announcing => true
  | _ => false

/-- The session has not been dealt with yet. -/
def reads : ReaderStage → Bool
  | evicting | removing | marking | announcing | finished => false
  | _ => true

theorem not_cleaning_of_reads {stage : ReaderStage} (hreads : stage.reads = true) :
    stage.cleaning = false := by
  cases stage <;> first | rfl | cases hreads

end ReaderStage

/-- What the world answers to a step of a reader. -/
structure ReaderIo where
  /-- What the connection's read yields. -/
  read : Result Bytes
  /-- The passes of the session's `recv`. -/
  turns : List Session.Turn
  /-- What `recv` yields on a session that the manager no longer holds. -/
  orphaned : Result (MessageType × Bytes)
  now : Instant

namespace Node

variable (primitives : Primitives) (node : Node) (peerId : String)

/-- The part of `recv_once` that follows the lookup of the connection. -/
def readFrame (read : Result Bytes) (now : Instant) : Result (MessageType × Bytes) × Node :=
  match read.bind (node.decodeMessage primitives peerId) with
  | .error e => (.error e, node)
  | .ok (msgType, payload) =>
      if msgType = .heartbeat then
        match node.peerStates.lookup peerId with
        | some peer =>
            (.ok (msgType, payload),
              { node with
                peerStates := node.peerStates.insert peerId
                  { peer with lastHeartbeat := some now } })
        | none => (.ok (msgType, payload), node)
      else (.ok (msgType, payload), node)

/-- A message is published, and every other frame is consumed in silence. -/
def publish (received : MessageType × Bytes) : Node :=
  if received.1 = .message then node.emit (.messageReceived peerId received.2) else node

/-- What follows a read: publish and read on, or clean up. -/
def afterRead (useSession : Bool) (returned : Result (MessageType × Bytes)) :
    Node × ReaderStage :=
  match returned with
  | .ok received => (node.publish peerId received, .watching)
  | .error _ => (node, .failed useSession)

/-- One step of a peer's reader; `none` while it is parked and once it has
returned. -/
def advance (io : ReaderIo) : ReaderStage → Option (Node × ReaderStage)
  | .watching => some (node, .chosen (node.sessionIsMultilink peerId))
  | .chosen true =>
      match node.sessions.get peerId with
      | some session => some (node, .onSession session.sessionId)
      | none => some (node, .failed true)
  | .chosen false =>
      match node.connections.lookup peerId with
      | some conn => some (node, .onConn conn)
      | none => some (node, .failed false)
  | .onSession sessionId =>
      if (node.sessions.get peerId).any (·.sessionId == sessionId) then
        match node.recvOnceSession peerId io.turns with
        | (some returned, after) => some (after.afterRead peerId true returned)
        | (none, _) => none
      else some (node.afterRead peerId true io.orphaned)
  | .onConn _ =>
      let (returned, after) := node.readFrame primitives peerId io.read io.now
      some (after.afterRead peerId false returned)
  | .failed true => some (node, .dropping)
  | .failed false =>
      match (node.sessions.get peerId).bind Session.active with
      | some linkId => some (node, .detaching linkId)
      | none => some (node, .dropping)
  | .detaching linkId =>
      some ({ node with sessions := (node.sessions.detachLink peerId linkId).2 }, .evicting)
  | .dropping => some ({ node with sessions := (node.sessions.dropPeer peerId).2 }, .evicting)
  | .evicting => some ({ node with connections := node.connections.erase peerId }, .removing)
  | .removing => some ({ node with peerManager := node.peerManager.erase peerId }, .marking)
  | .marking => some (node.markDisconnected peerId, .announcing)
  | .announcing => some (node.emit (.peerDisconnected peerId), .finished)
  | .finished => none

variable {primitives node peerId}

/-- A reader that has looked its connection up reads as `recv_once` does. -/
theorem recvOnce_of_lookup {conn : ConnId} (connected : node.connections.lookup peerId = some conn)
    (read : Result Bytes) (now : Instant) :
    node.recvOnce primitives peerId read now = node.readFrame primitives peerId read now := by
  rw [recvOnce, connected]
  rfl

/-! ## What reading changes -/

/-- The ids of the links attached for a peer. -/
def linkIds (node : Node) (peerId : String) : Option (List String) :=
  (node.sessions.get peerId).map fun session => session.links.map Link.id

/-- Reading attaches and detaches nothing, keeps the tables, and publishes
nothing but messages. -/
structure OnlyReads (node after : Node) : Prop where
  linkIds : ∀ peerId, after.linkIds peerId = node.linkIds peerId
  connections : after.connections = node.connections
  peerManager : after.peerManager = node.peerManager
  events : ∃ received, after.events = node.events ++ received ∧
    ∀ event ∈ received, ∃ peerId payload, event = .messageReceived peerId payload

namespace OnlyReads

theorem refl (node : Node) : OnlyReads node node where
  linkIds _ := rfl
  connections := rfl
  peerManager := rfl
  events := ⟨[], (List.append_nil _).symm, by simp⟩

theorem trans {first second third : Node} (hfirst : OnlyReads first second)
    (hsecond : OnlyReads second third) : OnlyReads first third where
  linkIds peerId := (hsecond.linkIds peerId).trans (hfirst.linkIds peerId)
  connections := hsecond.connections.trans hfirst.connections
  peerManager := hsecond.peerManager.trans hfirst.peerManager
  events := by
    obtain ⟨earlier, hearlier, hmessages⟩ := hfirst.events
    obtain ⟨later, hlater, hrest⟩ := hsecond.events
    refine ⟨earlier ++ later, by rw [hlater, hearlier, List.append_assoc], ?_⟩
    intro event hevent
    exact (List.mem_append.mp hevent).elim (hmessages event) (hrest event)

end OnlyReads

/-- A change of what is remembered of a peer is none of the tables. -/
theorem onlyReads_peerStates (node : Node) (peerStates : AList fun _ : String => PeerState) :
    OnlyReads node { node with peerStates } where
  linkIds _ := rfl
  connections := rfl
  peerManager := rfl
  events := ⟨[], (List.append_nil _).symm, by simp⟩

theorem onlyReads_readFrame (read : Result Bytes) (now : Instant) :
    OnlyReads node (node.readFrame primitives peerId read now).2 := by
  rw [readFrame]
  cases read.bind (node.decodeMessage primitives peerId) with
  | error e => exact .refl node
  | ok received =>
      dsimp only
      split_ifs
      · cases node.peerStates.lookup peerId with
        | none => exact .refl node
        | some peer => exact onlyReads_peerStates node _
      · exact .refl node

/-- A session in place of the peer's with the same links attached. -/
theorem onlyReads_setSession {session after : Session}
    (known : node.sessions.get peerId = some session)
    (keeps : after.links.map Link.id = session.links.map Link.id) :
    OnlyReads node { node with sessions := ⟨node.sessions.peers.insert peerId after⟩ } where
  linkIds other := by
    by_cases hother : other = peerId
    · rw [hother, linkIds, linkIds, known, SessionManager.get, AList.lookup_insert]
      simp [keeps]
    · rw [linkIds, linkIds, SessionManager.get, AList.lookup_insert_ne hother]
      rfl
  connections := rfl
  peerManager := rfl
  events := ⟨[], (List.append_nil _).symm, by simp⟩

variable (node peerId) in
theorem onlyReads_recvOnceSession (turns : List Session.Turn) :
    OnlyReads node (node.recvOnceSession peerId turns).2 := by
  rw [recvOnceSession]
  cases hsession : node.sessions.get peerId with
  | none => exact .refl node
  | some session => exact onlyReads_setSession hsession (Session.ids_recv session turns)

variable (node peerId) in
/-- After a read, a message may be published, and the reader reads on or has failed. -/
theorem onlyReads_afterRead (useSession : Bool) (returned : Result (MessageType × Bytes)) :
    OnlyReads node (node.afterRead peerId useSession returned).1 ∧
      ((node.afterRead peerId useSession returned).2 = .watching ∨
        (node.afterRead peerId useSession returned).2 = .failed useSession) := by
  cases returned with
  | error e => exact ⟨.refl node, .inr rfl⟩
  | ok received =>
      refine ⟨?_, .inl rfl⟩
      show OnlyReads node (node.publish peerId received)
      rw [publish]
      split_ifs
      · exact ⟨fun _ => rfl, rfl, rfl, [.messageReceived peerId received.2], rfl, by simp⟩
      · exact .refl node

end Node

/-! ## What a step can do -/

/-- What a step of a peer's reader can do to the node. -/
inductive ReaderMove (peerId : String) (node : Node) : ReaderStage → Node → ReaderStage → Prop
  | reads {stage next : ReaderStage} {after : Node} (before : stage.reads = true)
      (still : next.reads = true) (only : node.OnlyReads after) :
      ReaderMove peerId node stage after next
  | detached (linkId : String) :
      ReaderMove peerId node (.detaching linkId)
        { node with sessions := (node.sessions.detachLink peerId linkId).2 } .evicting
  | dropped :
      ReaderMove peerId node .dropping
        { node with sessions := (node.sessions.dropPeer peerId).2 } .evicting
  | evicted :
      ReaderMove peerId node .evicting
        { node with connections := node.connections.erase peerId } .removing
  | removed :
      ReaderMove peerId node .removing
        { node with peerManager := node.peerManager.erase peerId } .marking
  | marked : ReaderMove peerId node .marking (node.markDisconnected peerId) .announcing
  | announced :
      ReaderMove peerId node .announcing (node.emit (.peerDisconnected peerId)) .finished

namespace Node

/-- Reading on or failing after a read is a reading move. -/
theorem move_of_afterRead {stage next : ReaderStage} {between after : Node} {useSession : Bool}
    {returned : Result (MessageType × Bytes)} (before : stage.reads = true)
    (only : node.OnlyReads between)
    (done : some (between.afterRead peerId useSession returned) = some (after, next)) :
    ReaderMove peerId node stage after next := by
  rw [Option.some.injEq] at done
  obtain ⟨hrest, hstage⟩ := onlyReads_afterRead between peerId useSession returned
  rw [done] at hrest hstage
  refine .reads before ?_ (only.trans hrest)
  rcases hstage with hstage | hstage
  · cases hstage
    rfl
  · cases hstage
    rfl

theorem move_of_advance {io : ReaderIo} {stage next : ReaderStage} {after : Node}
    (advanced : node.advance primitives peerId io stage = some (after, next)) :
    ReaderMove peerId node stage after next := by
  cases stage with
  | watching =>
      cases advanced
      exact .reads rfl rfl (.refl _)
  | chosen useSession =>
      cases useSession with
      | true =>
          rw [advance] at advanced
          split at advanced
          · cases advanced
            exact .reads rfl rfl (.refl _)
          · cases advanced
            exact .reads rfl rfl (.refl _)
      | false =>
          rw [advance] at advanced
          split at advanced
          · cases advanced
            exact .reads rfl rfl (.refl _)
          · cases advanced
            exact .reads rfl rfl (.refl _)
  | onSession sessionId =>
      rw [advance] at advanced
      split_ifs at advanced
      · have hreceived := onlyReads_recvOnceSession node peerId io.turns
        split at advanced
        · rename_i returned between hrecv
          rw [hrecv] at hreceived
          exact move_of_afterRead rfl hreceived advanced
        · cases advanced
      · exact move_of_afterRead rfl (.refl _) advanced
  | onConn conn =>
      exact move_of_afterRead rfl (onlyReads_readFrame io.read io.now) advanced
  | failed useSession =>
      cases useSession with
      | true =>
          cases advanced
          exact .reads rfl rfl (.refl _)
      | false =>
          rw [advance] at advanced
          split at advanced
          · cases advanced
            exact .reads rfl rfl (.refl _)
          · cases advanced
            exact .reads rfl rfl (.refl _)
  | detaching linkId =>
      cases advanced
      exact .detached linkId
  | dropping =>
      cases advanced
      exact .dropped
  | evicting =>
      cases advanced
      exact .evicted
  | removing =>
      cases advanced
      exact .removed
  | marking =>
      cases advanced
      exact .marked
  | announcing =>
      cases advanced
      exact .announced
  | finished => cases advanced

end Node

/-! ## Runs -/

structure Reader where
  peerId : String
  stage : ReaderStage
  deriving DecidableEq, Repr

/-- A node and the readers that were spawned over it. -/
structure Readers where
  node : Node
  readers : List Reader

inductive RunStep
  | call (call : NodeCall)
  | spawnPeerReader (peerId : String)
  | advance (index : Nat) (io : ReaderIo)

namespace Readers

variable (primitives : Primitives)

def perform (run : Readers) : RunStep → Option Readers
  | .call call => some { run with node := run.node.call call }
  | .spawnPeerReader peerId =>
      some { run with readers := run.readers ++ [⟨peerId, .watching⟩] }
  | .advance index io => do
      let reader ← run.readers[index]?
      let (node, stage) ← run.node.advance primitives reader.peerId io reader.stage
      some ⟨node, run.readers.set index ⟨reader.peerId, stage⟩⟩

/-- A new node under any interleaving of calls and readers. -/
def system : System Readers RunStep where
  init run := run.readers = [] ∧
    ∃ appUuid encrypt roomHashes, run.node = Node.new appUuid encrypt roomHashes
  step run label after := run.perform primitives label = some after

variable {primitives} {run after : Readers}

/-- A step of a reader is a move of one of them. -/
theorem move_of_perform {index : Nat} {io : ReaderIo}
    (taken : run.perform primitives (.advance index io) = some after) :
    ∃ reader next, run.readers[index]? = some reader ∧
      ReaderMove reader.peerId run.node reader.stage after.node next ∧
      after.readers = run.readers.set index ⟨reader.peerId, next⟩ := by
  simp only [perform, Option.bind_eq_bind, Option.bind_eq_some_iff] at taken
  obtain ⟨reader, hreader, ⟨node, next⟩, hadvance, hafter⟩ := taken
  cases hafter
  exact ⟨reader, next, hreader, Node.move_of_advance hadvance, rfl⟩

/-! ## A connection that is lost -/

/-- The connection is lost. -/
def lost : ReaderIo := ⟨.error (.peerGone "peer"), [], .error (.peerGone "peer"), 0⟩

end Readers

end Mlink.Core
