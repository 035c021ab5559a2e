/-
# Two daemons that wait for each other

A loop that dials awaits the handshake inside its dial arm, and only its accept
arm answers a handshake on a connection that the other end dialled. Two loops
that dial each other can so wait for each other. What ends the wait is
`HANDSHAKE_IO_TIMEOUT`: time does not pass a deadline without the loop that it
belongs to leaving its arm.
-/

import Mlink.Daemon.ConnectLoop
import Mlink.Lib.Transition

namespace Mlink.Daemon

open Mlink.Core Mlink.Protocol Transition

/-- A connection between the daemons: who dialled it, the handshake that each
end has written, and which ends have closed. -/
structure Wire where
  dialer : Side
  sent : Side → Option Handshake
  closed : Side → Bool

/-- Both daemons, the connections between them by id, and the time. -/
structure Daemons where
  now : Instant
  loops : Side → ConnectLoop
  wires : List Wire

inductive DaemonsOp
  /-- The scanner surfaces a peer. -/
  | discover (side : Side) (peer : DiscoveredPeer)
  /-- The listener hands a connection to the loop. -/
  | listen (side : Side)
  | takePeer (side : Side)
  | takeConn (side : Side)
  | event (side : Side) (event : NodeEvent)
  | lagged (side : Side)
  /-- The transport connects; the other end sees a remote address. -/
  | connect (side : Side) (remote : String)
  | write (side : Side)
  /-- The peer's handshake is read, and the connection registered. -/
  | read (side : Side) (transportCaps : TransportCapabilities) (draw : RegistrationDraw)
  /-- Connecting, writing or reading fails. -/
  | fail (side : Side) (error : MlinkError)
  /-- A deadline is reached. -/
  | timeout (side : Side)
  | tick (elapsed : Nat)
  deriving DecidableEq, Repr

namespace Daemons

def initial (nodes : Side → Node) : Daemons := ⟨0, fun side => .new (nodes side), []⟩

variable (daemons : Daemons)

def setLoop (side : Side) (loop : ConnectLoop) : Daemons :=
  { daemons with loops := Function.update daemons.loops side loop }

/-- The end of a connection on one side closes, if there is a connection. -/
def closeEnd (side : Side) (conn : Option ConnId) : Daemons :=
  match conn with
  | none => daemons
  | some conn =>
      { daemons with
        wires := daemons.wires.modify conn fun wire =>
          { wire with closed := Function.update wire.closed side true } }

/-- The transport has connected: the dialler goes on to write its handshake, and
the connection waits in the other end's backlog. -/
def connect (side : Side) (remote : String) : Option Daemons :=
  match (daemons.loops side).arm with
  | .dial awaited =>
      match awaited.progress with
      | .connecting =>
          let conn := daemons.wires.length
          let loop := daemons.loops side
          let other := daemons.loops side.other
          let dialled := daemons.setLoop side
            { loop with arm := loop.arm.advance (.writing conn daemons.now) }
          some { dialled.setLoop side.other
              { other with backlog := other.backlog ++ [(conn, remote)] } with
            wires := daemons.wires ++ [⟨side, fun _ => none, fun _ => false⟩] }
      | .writing _ _ | .reading _ _ => none
  | .select | .accept _ => none

/-- The handshake is written, and the loop goes on to read the peer's. -/
def write (side : Side) : Option Daemons :=
  let loop := daemons.loops side
  match loop.arm.awaited?.map Awaited.progress with
  | some (.writing conn _) =>
      some { daemons.setLoop side
          { loop with arm := loop.arm.advance (.reading conn daemons.now) } with
        wires := daemons.wires.modify conn fun wire =>
          { wire with sent := Function.update wire.sent side (some loop.node.localHandshake) } }
  | some .connecting | some (.reading _ _) | none => none

/-- The handshake that waits for a side on a connection. -/
def handshakeFor (side : Side) (conn : ConnId) : Option Handshake :=
  daemons.wires[conn]?.bind fun wire => wire.sent side.other

/-- The peer's handshake is read; registration ends the arm. -/
def read (side : Side) (transportCaps : TransportCapabilities) (draw : RegistrationDraw) :
    Option Daemons :=
  let loop := daemons.loops side
  match loop.arm.awaited? with
  | none => none
  | some awaited =>
      match awaited.progress with
      | .reading conn _ =>
          (daemons.handshakeFor side conn).map fun peerHs =>
            let registration := loop.node.registerAfterHandshake peerHs conn awaited.name "tcp"
              transportCaps awaited.wireId draw daemons.now
            (daemons.setLoop side (loop.finish registration.node registration.result)).closeEnd
              side (if registration.closed then some conn else none)
      | .connecting | .writing _ _ => none

/-- The arm ends with an error, and the connection closes. -/
def fail (side : Side) (error : MlinkError) : Option Daemons :=
  let loop := daemons.loops side
  loop.arm.awaited?.map fun awaited =>
    (daemons.setLoop side (loop.finish loop.node (.error error))).closeEnd side awaited.conn?

/-- The text of the error that a timeout ends an arm with. -/
def timeoutError (arm : Arm) (awaited : Awaited) (now : Instant) : MlinkError :=
  if awaited.started + CONNECT_TIMEOUT ≤ now then
    match arm with
    | .accept _ => .handlerError s!"accept from {awaited.wireId} timed out"
    | .select | .dial _ => .handlerError s!"connect to {awaited.wireId} timed out"
  else
    match awaited.progress with
    | .reading _ _ => .handlerError "handshake read timed out after 10s"
    | .connecting | .writing _ _ => .handlerError "handshake write timed out after 10s"

/-- At its deadline, an arm ends with an error. -/
def timeout (side : Side) : Option Daemons :=
  let arm := (daemons.loops side).arm
  arm.awaited?.bind fun awaited =>
    if awaited.deadline ≤ daemons.now then
      daemons.fail side (timeoutError arm awaited daemons.now)
    else none

/-- No deadline lies before a moment. -/
def MayReach (moment : Instant) : Prop :=
  ∀ side, ∀ awaited ∈ (daemons.loops side).arm.awaited?, moment ≤ awaited.deadline

/-- One step, if it is possible. Time passes up to the next deadline and no
further. -/
inductive Step : Daemons → DaemonsOp → Daemons → Prop
  | discover (daemons : Daemons) (side : Side) (peer : DiscoveredPeer)
      (space : (daemons.loops side).peerRx.length < PEER_CAPACITY) :
      Step daemons (.discover side peer)
        (daemons.setLoop side
          { daemons.loops side with peerRx := (daemons.loops side).peerRx ++ [peer] })
  | listen (daemons : Daemons) (side : Side) (conn : ConnId × String)
      (rest : List (ConnId × String)) (waiting : (daemons.loops side).backlog = conn :: rest)
      (space : (daemons.loops side).acceptedRx.length < ACCEPTED_CAPACITY) :
      Step daemons (.listen side)
        (daemons.setLoop side
          { daemons.loops side with
            backlog := rest
            acceptedRx := (daemons.loops side).acceptedRx ++ [conn] })
  | takePeer (daemons : Daemons) (side : Side) (loop : ConnectLoop)
      (taken : (daemons.loops side).takePeer daemons.now = some loop) :
      Step daemons (.takePeer side) (daemons.setLoop side loop)
  | takeConn (daemons : Daemons) (side : Side) (loop : ConnectLoop)
      (taken : (daemons.loops side).takeConn daemons.now = some loop) :
      Step daemons (.takeConn side) (daemons.setLoop side loop)
  | event (daemons : Daemons) (side : Side) (event : NodeEvent) (loop : ConnectLoop)
      (handled : (daemons.loops side).handleEvent event = some loop) :
      Step daemons (.event side event) (daemons.setLoop side loop)
  | lagged (daemons : Daemons) (side : Side) (loop : ConnectLoop)
      (handled : (daemons.loops side).handleLagged = some loop) :
      Step daemons (.lagged side) (daemons.setLoop side loop)
  | connect (daemons after : Daemons) (side : Side) (remote : String)
      (taken : daemons.connect side remote = some after) :
      Step daemons (.connect side remote) after
  | write (daemons after : Daemons) (side : Side) (taken : daemons.write side = some after) :
      Step daemons (.write side) after
  | read (daemons after : Daemons) (side : Side) (transportCaps : TransportCapabilities)
      (draw : RegistrationDraw) (taken : daemons.read side transportCaps draw = some after) :
      Step daemons (.read side transportCaps draw) after
  | fail (daemons after : Daemons) (side : Side) (error : MlinkError)
      (taken : daemons.fail side error = some after) : Step daemons (.fail side error) after
  | timeout (daemons after : Daemons) (side : Side)
      (taken : daemons.timeout side = some after) : Step daemons (.timeout side) after
  | tick (daemons : Daemons) (elapsed : Nat) (may : daemons.MayReach (daemons.now + elapsed)) :
      Step daemons (.tick elapsed) { daemons with now := daemons.now + elapsed }

/-- Two daemons from their start, under any order of discoveries, dials,
connections and events. -/
def system (nodes : Side → Node) : System Daemons DaemonsOp where
  init daemons := daemons = initial nodes
  step := Step

variable {daemons} {after : Daemons} {side : Side}

@[simp]
theorem setLoop_now (loop : ConnectLoop) : (daemons.setLoop side loop).now = daemons.now := rfl

@[simp]
theorem setLoop_self (loop : ConnectLoop) : (daemons.setLoop side loop).loops side = loop :=
  Function.update_self ..

@[simp]
theorem closeEnd_now (conn : Option ConnId) :
    (daemons.closeEnd side conn).now = daemons.now := by
  cases conn <;> rfl

/-- Closing an end of a connection moves no loop. -/
@[simp]
theorem closeEnd_loops (conn : Option ConnId) :
    (daemons.closeEnd side conn).loops = daemons.loops := by
  cases conn <;> rfl

/-- Deadlines are about the loops alone. -/
theorem MayReach.of_loops {moment : Instant} (hmay : daemons.MayReach moment)
    (hloops : after.loops = daemons.loops) : after.MayReach moment := by
  intro other
  rw [hloops]
  exact hmay other

/-- A loop that is put back keeps every deadline ahead when its own arm does. -/
theorem MayReach.setLoop {moment : Instant} (hmay : daemons.MayReach moment) (side : Side)
    (loop : ConnectLoop) (hloop : ∀ awaited ∈ loop.arm.awaited?, moment ≤ awaited.deadline) :
    (daemons.setLoop side loop).MayReach moment := by
  intro other awaited hawaited
  by_cases hother : other = side
  · subst hother
    rw [setLoop_self] at hawaited
    exact hloop awaited hawaited
  · simp only [Daemons.setLoop, Function.update_of_ne hother] at hawaited
    exact hmay other awaited hawaited

/-- A loop in its select has no deadline. -/
theorem MayReach.setSelect {loop : ConnectLoop} {moment : Instant}
    (hmay : daemons.MayReach moment) (harm : loop.arm = .select) :
    (daemons.setLoop side loop).MayReach moment := by
  apply hmay.setLoop
  intro awaited hawaited
  rw [harm] at hawaited
  cases hawaited

/-- An arm that goes on to its next step gets a new limit for that step; the
limit on the whole of it was ahead and still is. -/
theorem MayReach.advance (hmay : daemons.MayReach daemons.now) (side : Side) {progress : Progress}
    (hprogress : ∃ conn, progress = .writing conn daemons.now ∨
      progress = .reading conn daemons.now) :
    (daemons.setLoop side { daemons.loops side with
      arm := (daemons.loops side).arm.advance progress }).MayReach daemons.now := by
  apply hmay.setLoop
  intro awaited hawaited
  change awaited ∈ ((daemons.loops side).arm.advance progress).awaited? at hawaited
  rw [Arm.awaited?_advance, Option.mem_def, Option.map_eq_some_iff] at hawaited
  obtain ⟨before, hbefore, rfl⟩ := hawaited
  have hwhole : daemons.now ≤ before.started + CONNECT_TIMEOUT :=
    (hmay side before hbefore).trans before.deadline_le
  have hstep : daemons.now ≤ daemons.now + HANDSHAKE_IO_TIMEOUT := Nat.le_add_right ..
  obtain ⟨conn, rfl | rfl⟩ := hprogress
  · exact le_min hwhole hstep
  · exact le_min hwhole hstep

theorem now_of_connect {remote : String} (htaken : daemons.connect side remote = some after) :
    after.now = daemons.now := by
  unfold connect at htaken
  split at htaken
  · split at htaken
    · cases htaken
      rfl
    · cases htaken
    · cases htaken
  · cases htaken
  · cases htaken

/-- The other end of a new connection only finds it in its backlog. -/
theorem MayReach.connect (hmay : daemons.MayReach daemons.now) {remote : String}
    (htaken : daemons.connect side remote = some after) : after.MayReach daemons.now := by
  unfold Daemons.connect at htaken
  split at htaken
  · split at htaken
    · cases htaken
      have hdialled := hmay.advance side ⟨daemons.wires.length, .inl rfl⟩
      refine MayReach.of_loops (hdialled.setLoop side.other _ ?_) rfl
      exact hmay side.other
    · cases htaken
    · cases htaken
  · cases htaken
  · cases htaken

/-- Either the arm is not at a write, or it goes on to read. -/
theorem write_eq_some (htaken : daemons.write side = some after) :
    after.now = daemons.now ∧ ∃ conn,
      after.loops = (daemons.setLoop side { daemons.loops side with
        arm := (daemons.loops side).arm.advance (.reading conn daemons.now) }).loops := by
  unfold write at htaken
  dsimp only at htaken
  split at htaken
  · cases htaken
    exact ⟨rfl, _, rfl⟩
  · cases htaken
  · cases htaken
  · cases htaken

/-- A read that succeeds takes the loop back to its select. -/
theorem read_eq_some {transportCaps : TransportCapabilities} {draw : RegistrationDraw}
    (htaken : daemons.read side transportCaps draw = some after) :
    after.now = daemons.now ∧ ∃ loop : ConnectLoop, loop.arm = .select ∧
      after.loops = (daemons.setLoop side loop).loops := by
  unfold read at htaken
  dsimp only at htaken
  split at htaken
  · cases htaken
  · split at htaken
    · rw [Option.map_eq_some_iff] at htaken
      obtain ⟨peerHs, _, rfl⟩ := htaken
      exact ⟨closeEnd_now _, _, ConnectLoop.arm_finish .., closeEnd_loops _⟩
    · cases htaken
    · cases htaken

/-- So does a failure. -/
theorem fail_eq_some {error : MlinkError} (htaken : daemons.fail side error = some after) :
    after.now = daemons.now ∧ ∃ loop : ConnectLoop, loop.arm = .select ∧
      after.loops = (daemons.setLoop side loop).loops := by
  unfold fail at htaken
  rw [Option.map_eq_some_iff] at htaken
  obtain ⟨awaited, _, rfl⟩ := htaken
  exact ⟨closeEnd_now _, _, ConnectLoop.arm_finish .., closeEnd_loops _⟩

/-- A timeout is a failure whose deadline has been reached. -/
theorem timeout_eq_some (htaken : daemons.timeout side = some after) :
    ∃ error, daemons.fail side error = some after := by
  unfold timeout at htaken
  dsimp only at htaken
  obtain ⟨awaited, _, hfail⟩ := Option.bind_eq_some_iff.mp htaken
  split at hfail
  · exact ⟨_, hfail⟩
  · cases hfail

/-- No step takes time past a deadline: the steps of a loop take none and start
from its select or renew its limit, and a tick stops at the first deadline. -/
theorem MayReach.step {op : DaemonsOp} (hmay : daemons.MayReach daemons.now)
    (htaken : Step daemons op after) : after.MayReach after.now := by
  cases htaken with
  | discover side peer space => exact hmay.setLoop side _ (hmay side)
  | listen side conn rest waiting space => exact hmay.setLoop side _ (hmay side)
  | takePeer side loop taken =>
      exact hmay.setLoop side loop (ConnectLoop.deadline_of_takePeer taken)
  | takeConn side loop taken =>
      exact hmay.setLoop side loop (ConnectLoop.deadline_of_takeConn taken)
  | event side event loop handled =>
      exact hmay.setSelect (ConnectLoop.arm_of_handleEvent handled)
  | lagged side loop handled =>
      exact hmay.setSelect (ConnectLoop.arm_of_handleLagged handled)
  | connect _ side remote taken =>
      rw [now_of_connect taken]
      exact hmay.connect taken
  | write _ side taken =>
      obtain ⟨hnow, conn, hloops⟩ := write_eq_some taken
      rw [hnow]
      exact (hmay.advance side ⟨conn, .inr rfl⟩).of_loops hloops
  | read _ side transportCaps draw taken =>
      obtain ⟨hnow, loop, harm, hloops⟩ := read_eq_some taken
      rw [hnow]
      exact (hmay.setSelect harm).of_loops hloops
  | fail _ side error taken =>
      obtain ⟨hnow, loop, harm, hloops⟩ := fail_eq_some taken
      rw [hnow]
      exact (hmay.setSelect harm).of_loops hloops
  | timeout _ side taken =>
      obtain ⟨error, hfail⟩ := timeout_eq_some taken
      obtain ⟨hnow, loop, harm, hloops⟩ := fail_eq_some hfail
      rw [hnow]
      exact (hmay.setSelect harm).of_loops hloops
  | tick elapsed may => exact MayReach.of_loops may rfl

/-- Two new nodes in no room. -/
def newcomers : Side → Node
  | .left => Node.new "a" false []
  | .right => Node.new "b" false []

end Daemons

end Mlink.Daemon
