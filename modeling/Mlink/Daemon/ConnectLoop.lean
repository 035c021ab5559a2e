/-
# The connect loop

One loop for each transport takes discovered peers and accepted connections, one
at a time: it awaits the dial or the accept inside the arm of its select, and
meanwhile serves nothing else. Its tables keep it from dialling a peer twice.
Times are in milliseconds.
-/

import Mathlib.Data.Finset.Basic
import Mlink.Core.Node.Connect

namespace Mlink.Daemon

open Mlink.Core Mlink.Protocol

/-- The limit on the whole of a dial or an accept. -/
def CONNECT_TIMEOUT : Nat := 15000

/-- The limit on each direction of the handshake. -/
def HANDSHAKE_IO_TIMEOUT : Nat := 10000

def MAX_RETRIES : UInt8 := 3

def PEER_CAPACITY : Nat := 16

def ACCEPTED_CAPACITY : Nat := 4

structure DiscoveredPeer where
  id : String
  name : String
  deriving DecidableEq, Repr

/-! ## The tables -/

/-- What the loop remembers, by wire id and by the app uuid behind it. -/
structure ConnectTables where
  engaged : Finset String
  attempts : AList fun _ : String => UInt8
  connectedInbound : Finset String
  connectedPeers : Finset String
  wireToApp : AList fun _ : String => String

namespace ConnectTables

def new : ConnectTables := ⟨∅, ∅, ∅, ∅, ∅⟩

variable (tables : ConnectTables) (wireId : String)

/-- A discovered peer is skipped while it is engaged, or connected either way. -/
def skips : Bool :=
  wireId ∈ tables.connectedInbound || wireId ∈ tables.engaged ||
    (tables.wireToApp.lookup wireId).any fun app => app ∈ tables.connectedPeers

/-- Start a dial, unless the peer is skipped or its attempts are used up. -/
def beginDial : Option ConnectTables :=
  if tables.skips wireId then none
  else
    let attempt := (tables.attempts.lookup wireId).getD 0
    if MAX_RETRIES ≤ attempt then none
    else
      some { tables with
        attempts := tables.attempts.insert wireId (attempt + 1)
        engaged := insert wireId tables.engaged }

def beginAccept : ConnectTables :=
  { tables with
    engaged := insert wireId tables.engaged
    connectedInbound := insert wireId tables.connectedInbound }

/-- Either arm has reached a peer. -/
def connected (app : String) : ConnectTables :=
  { tables with
    attempts := tables.attempts.erase wireId
    wireToApp := tables.wireToApp.insert wireId app
    connectedPeers := insert app tables.connectedPeers }

/-- A peer from another room is not dialled again; any other error frees the
wire for another attempt. -/
def dialDone : Result String → ConnectTables
  | .ok app => tables.connected wireId app
  | .error (.roomMismatch _) =>
      { tables with
        attempts := tables.attempts.insert wireId MAX_RETRIES
        engaged := tables.engaged.erase wireId }
  | .error _ => { tables with engaged := tables.engaged.erase wireId }

def acceptDone : Result String → ConnectTables
  | .ok app => tables.connected wireId app
  | .error _ =>
      { tables with
        engaged := tables.engaged.erase wireId
        connectedInbound := tables.connectedInbound.erase wireId }

def peerConnected (peerId : String) : ConnectTables :=
  { tables with connectedPeers := insert peerId tables.connectedPeers }

/-- Forget the peer and every wire that led to it. -/
def peerDisconnected (peerId : String) : ConnectTables :=
  let deadWires := (tables.wireToApp.entries.filter fun entry => entry.2 = peerId).map Sigma.fst
  { engaged := tables.engaged.filter fun wire => wire ∉ deadWires
    attempts := deadWires.foldl (fun attempts wire => attempts.erase wire) tables.attempts
    connectedInbound := tables.connectedInbound.filter fun wire => wire ∉ deadWires
    connectedPeers := tables.connectedPeers.erase peerId
    wireToApp := deadWires.foldl (fun wires wire => wires.erase wire) tables.wireToApp }

/-- After missed events, start over from the peers of the node. -/
def lagged (peers : List String) : ConnectTables :=
  { tables with connectedPeers := peers.toFinset, wireToApp := ∅ }

end ConnectTables

/-! ## The loop -/

/-- How far `connect_peer` or `accept_incoming` has got, and since when. -/
inductive Progress
  | connecting
  | writing (conn : ConnId) (since : Instant)
  | reading (conn : ConnId) (since : Instant)
  deriving DecidableEq, Repr

/-- A dial or an accept that an arm awaits. -/
structure Awaited where
  wireId : String
  name : String
  started : Instant
  progress : Progress
  deriving DecidableEq, Repr

inductive Arm
  | select
  | dial (awaited : Awaited)
  | accept (awaited : Awaited)
  deriving DecidableEq, Repr

namespace Arm

def awaited? : Arm → Option Awaited
  | select => none
  | dial awaited | accept awaited => some awaited

/-- The same arm, further on. -/
def advance (arm : Arm) (progress : Progress) : Arm :=
  match arm with
  | select => select
  | dial awaited => dial { awaited with progress }
  | accept awaited => accept { awaited with progress }

end Arm

namespace Awaited

/-- The moment at which a timeout ends the wait. -/
def deadline (awaited : Awaited) : Instant :=
  match awaited.progress with
  | .connecting => awaited.started + CONNECT_TIMEOUT
  | .writing _ since | .reading _ since =>
      min (awaited.started + CONNECT_TIMEOUT) (since + HANDSHAKE_IO_TIMEOUT)

/-- The connection, once there is one. -/
def conn? (awaited : Awaited) : Option ConnId :=
  match awaited.progress with
  | .connecting => none
  | .writing conn _ | .reading conn _ => some conn

end Awaited

/-- A daemon's connect loop: its node, its tables, what the scanner and the
listener have queued for it, and the arm it is in. An accepted connection comes
with its remote address. -/
structure ConnectLoop where
  node : Node
  tables : ConnectTables
  peerRx : List DiscoveredPeer
  backlog : List (ConnId × String)
  acceptedRx : List (ConnId × String)
  arm : Arm

namespace ConnectLoop

def new (node : Node) : ConnectLoop := ⟨node, .new, [], [], [], .select⟩

variable (loop : ConnectLoop)

/-- Take a discovered peer and dial it, unless the tables say otherwise. -/
def takePeer (now : Instant) : Option ConnectLoop :=
  match loop.arm, loop.peerRx with
  | .select, peer :: rest =>
      match loop.tables.beginDial peer.id with
      | none => some { loop with peerRx := rest }
      | some tables =>
          some { loop with
            peerRx := rest
            tables
            node := loop.node.setPeerState peer.id .connecting
            arm := .dial ⟨peer.id, peer.name, now, .connecting⟩ }
  | _, _ => none

/-- Take an accepted connection and start its handshake. -/
def takeConn (now : Instant) : Option ConnectLoop :=
  match loop.arm, loop.acceptedRx with
  | .select, (conn, wireId) :: rest =>
      some { loop with
        acceptedRx := rest
        tables := loop.tables.beginAccept wireId
        arm := .accept ⟨wireId, wireId, now, .writing conn now⟩ }
  | _, _ => none

/-- Leave the arm with a result. -/
def finish (node : Node) (result : Result String) : ConnectLoop :=
  match loop.arm with
  | .select => loop
  | .dial awaited =>
      { loop with node, tables := loop.tables.dialDone awaited.wireId result, arm := .select }
  | .accept awaited =>
      { loop with node, tables := loop.tables.acceptDone awaited.wireId result, arm := .select }

/-- Handle an event of the node. -/
def handleEvent (event : NodeEvent) : Option ConnectLoop :=
  match loop.arm with
  | .select =>
      match event with
      | .peerConnected peerId => some { loop with tables := loop.tables.peerConnected peerId }
      | .peerDisconnected peerId =>
          some { loop with tables := loop.tables.peerDisconnected peerId }
      | .messageReceived _ _ | .linkAdded _ _ _ | .linkRemoved _ _ _
      | .linkSwitched _ _ _ _ => some loop
  | .dial _ | .accept _ => none

/-- Handle a gap in the node's events. -/
def handleLagged : Option ConnectLoop :=
  match loop.arm with
  | .select =>
      some { loop with tables := loop.tables.lagged (loop.node.peerManager.keys) }
  | .dial _ | .accept _ => none

end ConnectLoop

/-! ## Arms and their deadlines -/

/-- However far an arm has got, the limit on the whole of it stands. -/
theorem Awaited.deadline_le (awaited : Awaited) :
    awaited.deadline ≤ awaited.started + CONNECT_TIMEOUT := by
  cases h : awaited.progress with
  | connecting => simp only [Awaited.deadline, h, le_refl]
  | writing conn since => simp only [Awaited.deadline, h, min_le_left]
  | reading conn since => simp only [Awaited.deadline, h, min_le_left]

theorem Arm.awaited?_advance (arm : Arm) (progress : Progress) :
    (arm.advance progress).awaited? =
      arm.awaited?.map fun awaited => { awaited with progress } := by
  cases arm <;> rfl

namespace ConnectLoop

variable {loop next : ConnectLoop} {now : Instant}

/-- A dial that begins now has all of its time left. -/
theorem deadline_of_takePeer (htaken : loop.takePeer now = some next) :
    ∀ awaited ∈ next.arm.awaited?, now ≤ awaited.deadline := by
  intro awaited hawaited
  cases harm : loop.arm with
  | dial current => simp [takePeer, harm] at htaken
  | accept current => simp [takePeer, harm] at htaken
  | select =>
      cases hpeers : loop.peerRx with
      | nil => simp [takePeer, harm, hpeers] at htaken
      | cons peer rest =>
          cases hdial : loop.tables.beginDial peer.id with
          | none =>
              -- the peer is dropped, and the loop stays in its select
              simp only [takePeer, harm, hpeers, hdial, Option.some.injEq] at htaken
              subst htaken
              simp [Arm.awaited?] at hawaited
          | some tables =>
              simp only [takePeer, harm, hpeers, hdial, Option.some.injEq] at htaken
              subst htaken
              cases hawaited
              exact Nat.le_add_right now CONNECT_TIMEOUT

/-- So has an accept. -/
theorem deadline_of_takeConn (htaken : loop.takeConn now = some next) :
    ∀ awaited ∈ next.arm.awaited?, now ≤ awaited.deadline := by
  intro awaited hawaited
  cases harm : loop.arm with
  | dial current => simp [takeConn, harm] at htaken
  | accept current => simp [takeConn, harm] at htaken
  | select =>
      cases hconns : loop.acceptedRx with
      | nil => simp [takeConn, harm, hconns] at htaken
      | cons head rest =>
          simp only [takeConn, harm, hconns, Option.some.injEq] at htaken
          subst htaken
          cases hawaited
          exact le_min (Nat.le_add_right now _) (Nat.le_add_right now _)

/-- Whatever the result, the loop is back in its select. -/
theorem arm_finish (loop : ConnectLoop) (node : Node) (result : Result String) :
    (loop.finish node result).arm = .select := by
  cases harm : loop.arm with
  | select => simp only [finish, harm]
  | dial awaited => simp only [finish, harm]
  | accept awaited => simp only [finish, harm]

/-- Events are handled in the select. -/
theorem arm_of_handleEvent {event : NodeEvent}
    (hhandled : loop.handleEvent event = some next) : next.arm = .select := by
  cases harm : loop.arm with
  | dial awaited => simp [handleEvent, harm] at hhandled
  | accept awaited => simp [handleEvent, harm] at hhandled
  | select =>
      cases event with
      | peerConnected peerId =>
          simp only [handleEvent, harm, Option.some.injEq] at hhandled
          rw [← hhandled]
      | peerDisconnected peerId =>
          simp only [handleEvent, harm, Option.some.injEq] at hhandled
          rw [← hhandled]
      | messageReceived peerId payload =>
          simp only [handleEvent, harm, Option.some.injEq] at hhandled
          rw [← hhandled, harm]
      | linkAdded peerId linkId kind =>
          simp only [handleEvent, harm, Option.some.injEq] at hhandled
          rw [← hhandled, harm]
      | linkRemoved peerId linkId reason =>
          simp only [handleEvent, harm, Option.some.injEq] at hhandled
          rw [← hhandled, harm]
      | linkSwitched peerId fromLink toLink cause =>
          simp only [handleEvent, harm, Option.some.injEq] at hhandled
          rw [← hhandled, harm]

theorem arm_of_handleLagged (hhandled : loop.handleLagged = some next) :
    next.arm = .select := by
  cases harm : loop.arm with
  | dial awaited => simp [handleLagged, harm] at hhandled
  | accept awaited => simp [handleLagged, harm] at hhandled
  | select =>
      simp only [handleLagged, harm, Option.some.injEq] at hhandled
      rw [← hhandled]

end ConnectLoop

end Mlink.Daemon
