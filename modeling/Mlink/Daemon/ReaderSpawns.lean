/-
# Spawning readers

The connect loops of a daemon share its node. An arm that has reached a peer spawns
a reader for the peer, whatever the registration made of the connection: a duplicate
that was closed and a link that joined the peer's session are answered with the peer
just as a first link is. A peer has at most one reader at a time exactly as long as
no arm reaches a peer whose reader still runs.
-/

import Mlink.Core.Node.PeerReader
import Mlink.Daemon.ConnectLoop
import Mlink.Lib.Entries

namespace Mlink.Daemon

open Mlink.Core Mlink.Protocol Transition

/-- The reader has been spawned for the peer and has not returned. -/
def runsFor (peerId : String) (reader : Reader) : Bool :=
  reader.peerId == peerId && reader.stage != .finished

/-- A connect loop, and what the dial or the accept of its arm has come to. -/
structure ArmedLoop where
  loop : ConnectLoop
  settled : Option (Result String)

/-- The node of a daemon with its readers, and its connect loops. -/
structure DaemonLoops where
  readers : Readers
  loops : List ArmedLoop

/-- One step of a run. Links are attached and detached, and readers read, apart from
the loops; what a connection is registered with comes from its handshake. -/
inductive SpawnStep
  | call (call : NodeCall)
  | read (index : Nat) (io : ReaderIo)
  | queue (index : Nat) (peers : List DiscoveredPeer) (conns : List (ConnId × String))
  | takePeer (index : Nat) (now : Instant)
  | takeConn (index : Nat) (now : Instant)
  | register (index : Nat) (peerHs : Handshake) (conn : ConnId) (name transportId : String)
      (transportCaps : TransportCapabilities) (mismatchPeerId : String)
      (draw : RegistrationDraw) (now : Instant)
  | giveUp (index : Nat) (e : MlinkError)
  | finish (index : Nat)
  | handleEvent (index : Nat) (event : NodeEvent)
  | handleLagged (index : Nat)

namespace DaemonLoops

/-- A daemon that has just started, with one loop for each transport. -/
def start (node : Node) (transports : Nat) : DaemonLoops where
  readers := ⟨node, []⟩
  loops := List.replicate transports ⟨.new node, none⟩

variable (primitives : Primitives) (run : DaemonLoops)

/-- What a loop does with the shared node. -/
def onLoop (index : Nat) (use : ConnectLoop → Option ConnectLoop) : Option DaemonLoops := do
  let armed ← run.loops[index]?
  let next ← use { armed.loop with node := run.readers.node }
  some {
    readers := { run.readers with node := next.node }
    loops := run.loops.set index { armed with loop := next } }

/-- The dial or the accept of an arm comes to an end. -/
def settle (index : Nat) (node : Node) (result : Result String) : Option DaemonLoops := do
  let armed ← run.loops[index]?
  let _ ← armed.loop.arm.awaited?
  some {
    readers := { run.readers with node }
    loops := run.loops.set index { armed with settled := some result } }

/-- Leave an arm, and spawn a reader for the peer that it has reached. -/
def finish (index : Nat) : Option DaemonLoops := do
  let armed ← run.loops[index]?
  let result ← armed.settled
  let loops := run.loops.set index ⟨armed.loop.finish run.readers.node result, none⟩
  match result with
  | .ok app =>
      let readers ← run.readers.perform primitives (.spawnPeerReader app)
      some { readers, loops }
  | .error _ => some { run with loops }

def perform : SpawnStep → Option DaemonLoops
  | .call call => do
      let readers ← run.readers.perform primitives (.call call)
      some { run with readers }
  | .read index io => do
      let readers ← run.readers.perform primitives (.advance index io)
      some { run with readers }
  | .queue index peers conns =>
      run.onLoop index fun loop =>
        some { loop with
          peerRx := loop.peerRx ++ peers, acceptedRx := loop.acceptedRx ++ conns }
  | .takePeer index now => run.onLoop index (·.takePeer now)
  | .takeConn index now => run.onLoop index (·.takeConn now)
  | .register index peerHs conn name transportId transportCaps mismatchPeerId draw now =>
      let registration := run.readers.node.registerAfterHandshake peerHs conn name transportId
        transportCaps mismatchPeerId draw now
      run.settle index registration.node registration.result
  | .giveUp index e => run.settle index run.readers.node (.error e)
  | .finish index => run.finish primitives index
  | .handleEvent index event => run.onLoop index (·.handleEvent event)
  | .handleLagged index => run.onLoop index (·.handleLagged)

/-- The state after a step; one that cannot be taken changes nothing. -/
def after (run : DaemonLoops) (step : SpawnStep) : DaemonLoops :=
  (run.perform primitives step).getD run

/-- How many readers of a peer are running. -/
def running (peerId : String) : Nat := run.readers.readers.countP (runsFor peerId)

/-! ## What the spawning owes -/

/-- At most one reader of each peer is running. -/
def OneEach : Prop := ∀ peerId, run.running peerId ≤ 1

/-- An arm that is left has reached no peer whose reader still runs. -/
def ReachesUnread (run : DaemonLoops) : SpawnStep → Prop
  | .finish index => ∀ armed ∈ run.loops[index]?, ∀ app, armed.settled = some (.ok app) →
      run.running app = 0
  | _ => True

variable {primitives}

theorem oneEach_start (node : Node) (transports : Nat) : (start node transports).OneEach :=
  fun _ => Nat.zero_le _

/-- What a loop does beside its arms spawns no reader. -/
theorem readers_onLoop (index : Nat) (use : ConnectLoop → Option ConnectLoop) :
    ((run.onLoop index use).getD run).readers.readers = run.readers.readers := by
  rw [onLoop]
  cases run.loops[index]? with
  | none => rfl
  | some armed =>
      simp only [Option.bind_eq_bind, Option.bind_some]
      cases use { armed.loop with node := run.readers.node } with
      | none => rfl
      | some next => rfl

theorem readers_settle (index : Nat) (node : Node) (result : Result String) :
    ((run.settle index node result).getD run).readers.readers = run.readers.readers := by
  rw [settle]
  cases run.loops[index]? with
  | none => rfl
  | some armed =>
      simp only [Option.bind_eq_bind, Option.bind_some]
      cases armed.loop.arm.awaited? with
      | none => rfl
      | some awaited => rfl

variable {run}

/-- No move starts where a reader has returned. -/
theorem ne_finished_of_move {peerId : String} {node after : Node} {stage next : ReaderStage}
    (move : ReaderMove peerId node stage after next) : stage ≠ .finished := by
  intro hfinished
  cases move with
  | reads before _ _ =>
      rw [hfinished] at before
      cases before
  | detached | dropped | evicted | removed | marked | announced => cases hfinished

/-- A reader that has returned never runs again. -/
theorem running_read_le (index : Nat) (io : ReaderIo) (peerId : String) :
    (run.after primitives (.read index io)).running peerId ≤ run.running peerId := by
  rw [after, perform]
  cases hmoved : run.readers.perform primitives (.advance index io) with
  | none => exact Nat.le_refl _
  | some readers =>
      obtain ⟨reader, next, hreader, hmove, hset⟩ := Readers.move_of_perform hmoved
      show readers.readers.countP (runsFor peerId) ≤ _
      rw [hset]
      apply Entries.countP_set_le _ hreader
      intro hruns
      rw [runsFor, Bool.and_eq_true] at hruns ⊢
      exact ⟨hruns.1, bne_iff_ne.mpr (ne_finished_of_move hmove)⟩

/-- A spawn adds one reader to those of its peer. -/
theorem running_spawn (app peerId : String) (loops : List ArmedLoop) :
    running ⟨{ run.readers with readers := run.readers.readers ++ [⟨app, .watching⟩] }, loops⟩
        peerId =
      run.running peerId + if app = peerId then 1 else 0 := by
  rw [running, List.countP_append, List.countP_singleton]
  simp [running, runsFor]

/-- What leaving an arm does to the readers. -/
theorem running_finish (index : Nat) (peerId : String) :
    (run.after primitives (.finish index)).running peerId =
      run.running peerId +
        if run.loops[index]?.bind ArmedLoop.settled = some (.ok peerId) then 1 else 0 := by
  rw [after, perform, finish]
  cases run.loops[index]? with
  | none => rfl
  | some armed =>
      rcases armed with ⟨loop, settled⟩
      cases settled with
      | none => rfl
      | some result =>
          cases result with
          | error e => rfl
          | ok app =>
              show running ⟨{ run.readers with
                readers := run.readers.readers ++ [⟨app, .watching⟩] }, _⟩ peerId = _
              rw [running_spawn]
              simp

/-- One step: each peer keeps to one reader exactly when no arm that is left has reached
a peer whose reader runs. -/
theorem oneEach_after_iff (step : SpawnStep) (oneEach : run.OneEach) :
    (run.after primitives step).OneEach ↔ run.ReachesUnread step := by
  have hsame : (run.after primitives step).readers.readers = run.readers.readers →
      (run.after primitives step).OneEach := by
    intro hreaders peerId
    rw [running, hreaders]
    exact oneEach peerId
  cases step with
  | call call => exact iff_of_true (hsame rfl) trivial
  | read index io =>
      apply iff_of_true _ trivial
      intro peerId
      exact Nat.le_trans (running_read_le index io peerId) (oneEach peerId)
  | queue _ _ _ | takePeer _ _ | takeConn _ _ | handleEvent _ _ | handleLagged _ =>
      apply iff_of_true (hsame _) trivial
      rw [after, perform, readers_onLoop]
  | register _ _ _ _ _ _ _ _ _ | giveUp _ _ =>
      apply iff_of_true (hsame _) trivial
      rw [after, perform, readers_settle]
  | finish index =>
      constructor
      · intro hafter armed harmed app hsettled
        have happ := hafter app
        rw [running_finish, Option.mem_def.mp harmed, Option.bind_some, if_pos hsettled] at happ
        omega
      · intro hunread peerId
        rw [running_finish]
        split_ifs with hreached
        · obtain ⟨armed, harmed, hsettled⟩ := Option.bind_eq_some_iff.mp hreached
          rw [hunread armed harmed peerId hsettled]
        · exact oneEach peerId

/-- In a run of a daemon's connect loops each peer has at most one running reader
throughout exactly when no arm is left with a peer whose reader still runs. -/
theorem oneEach_iff_reachesUnread (primitives : Primitives) (node : Node) (transports : Nat)
    (steps : List SpawnStep) :
    (∀ earlier later, steps = earlier ++ later →
        (earlier.foldl (after primitives) (start node transports)).OneEach) ↔
      ∀ earlier step later, steps = earlier ++ step :: later →
        (earlier.foldl (after primitives) (start node transports)).ReachesUnread step :=
  forall_foldl_iff_guarded (fun _ step oneEach => oneEach_after_iff step oneEach)
    (oneEach_start node transports) steps

/-- One device is seen under two wire ids, and both are dialled. The second
connection is a duplicate, which the node closes. -/
def dialledTwice : List SpawnStep :=
  [.queue 0 [⟨"wire-1", "phone"⟩, ⟨"wire-2", "phone"⟩] [],
    .takePeer 0 0, .register 0 ⟨"peer", none, none⟩ 0 "phone" "tcp" ⟨10000000⟩ "wire-1" ⟨1, 1⟩ 0,
    .finish 0,
    .takePeer 0 0, .register 0 ⟨"peer", none, none⟩ 1 "phone" "tcp" ⟨10000000⟩ "wire-2" ⟨2, 2⟩ 0,
    .finish 0]

/-- The peer has one link, and two readers run on it. -/
theorem not_oneEach_dialledTwice :
    let run := dialledTwice.foldl (after .transparent) (start (.new "me" false []) 1)
    (run.readers.node.linkIds "peer").map List.length = some 1 ∧
      run.running "peer" = 2 ∧ ¬run.OneEach := by
  have hrun : let run := dialledTwice.foldl (after .transparent) (start (.new "me" false []) 1)
      (run.readers.node.linkIds "peer").map List.length = some 1 ∧ run.running "peer" = 2 := by
    decide +kernel
  obtain ⟨hlinks, hrunning⟩ := hrun
  refine ⟨hlinks, hrunning, ?_⟩
  intro oneEach
  have hone := oneEach "peer"
  rw [hrunning] at hone
  exact absurd hone (by decide)

end DaemonLoops

end Mlink.Daemon
