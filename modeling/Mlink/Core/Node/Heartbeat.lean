/-
# Heartbeats

A peer that sends heartbeats is to count as alive. The single-link reader and
`recvRaw` note the time of each heartbeat they take in; the session drops every frame
that is neither a message nor an acknowledgement, and the reader that is parked on it
hears nothing of them. So the record follows what was taken in exactly as long as no
heartbeat comes in over a session.
-/

import Mlink.Core.Node.PeerRecord
import Mlink.Lib.Transition

namespace Mlink.Core

open Mlink.Protocol Transition

/-! ## One pass over a session -/

/-- The frame that one pass of a session's `recv` takes off a link. On a session that the
manager no longer holds, any link may have had it. -/
def Node.takenOff (node : Node) (peerId : String) (sessionId : SessionId) (turn : Session.Turn) :
    Option Bytes :=
  match turn.wake with
  | .ready linkId (.ok bytes) =>
      match (node.sessions.get peerId).filter (·.sessionId == sessionId) with
      | some session => if (session.linkById linkId).isSome then some bytes else none
      | none => some bytes
  | _ => none

/-- One pass of `recv` by a reader that is parked on a session: it returns, or the reader
stays where it is. `orphaned` is what comes of a session that the manager no longer
holds. -/
def Node.sessionPass (node : Node) (peerId : String) (sessionId : SessionId)
    (turn : Session.Turn) (orphaned : Option (Result (MessageType × Bytes))) :
    Node × ReaderStage :=
  if (node.sessions.get peerId).any (·.sessionId == sessionId) then
    match node.recvOnceSession peerId [turn] with
    | (some returned, after) => after.afterRead peerId true returned
    | (none, after) => (after, .onSession sessionId)
  else
    match orphaned with
    | some returned => node.afterRead peerId true returned
    | none => (node, .onSession sessionId)

/-- The session path notes nothing, whatever it takes off a link. -/
theorem Node.notes_sessionPass {node : Node} {watched peerId : String} (sessionId : SessionId)
    (turn : Session.Turn) (orphaned : Option (Result (MessageType × Bytes))) :
    Node.Notes watched none node (node.sessionPass peerId sessionId turn orphaned).1 := by
  unfold sessionPass
  split
  · have hreceived : Notes watched none node (node.recvOnceSession peerId [turn]).2 :=
      notes_recvOnceSession [turn]
    split
    · rename_i returned after hrecv
      rw [hrecv] at hreceived
      exact hreceived.trans (notes_afterRead true returned)
    · rename_i after hrecv
      rw [hrecv] at hreceived
      exact hreceived
  · split
    · exact notes_afterRead true _
    · exact .refl node

/-! ## Runs -/

namespace ReaderStage

/-- The reader waits for a frame of a connection. -/
def readsConn : ReaderStage → Bool
  | .onConn _ => true
  | _ => false

/-- The session whose `recv` the reader waits for. -/
def parkedOn : ReaderStage → Option SessionId
  | .onSession sessionId => some sessionId
  | _ => none

end ReaderStage

/-- A node, the readers over it, and when the watched peer connected or was heard from. -/
structure Vigil where
  node : Node
  readers : List Reader
  heard : List Instant

/-- What can happen at a node between two locks. -/
inductive VigilStep
  | call (call : NodeCall)
  | switchActiveLink (peerId toLink : String) (now : Instant)
  | setPeerState (peerId : String) (state : NodeState)
  | setPeerAesKey (peerId : String) (key : Bytes)
  | sendRaw (peerId : String) (msgType : MessageType) (payload : Bytes) (io : NodeIo)
  | recvRaw (peerId : String) (read : Result Bytes) (now : Instant)
  | spawnPeerReader (peerId : String)
  /-- A reader that is not parked on a session moves on. -/
  | advance (index : Nat) (io : ReaderIo)
  /-- A reader that is parked on a session takes one pass. -/
  | pass (index : Nat) (turn : Session.Turn)
      (orphaned : Option (Result (MessageType × Bytes)))

/-- The time at which a step may note something. -/
def VigilStep.time : VigilStep → Option Instant
  | .call (.register _ _ _ _ _ _ _ now) => some now
  | .call (.attachConnection _ _ _ now) => some now
  | .recvRaw _ _ now => some now
  | .advance _ io => some io.now
  | .pass _ turn _ => some turn.io.now
  | _ => none

/-- The step is a pass of a session. -/
def VigilStep.overSession : VigilStep → Bool
  | .pass .. => true
  | _ => false

namespace Vigil

variable (primitives : Primitives) (watched : String)

/-- What a step hears of the watched peer: that it connected, or a heartbeat that is taken
off one of its links. -/
def hears (run : Vigil) : VigilStep → Option Instant
  | .call call => call.heard run.node watched
  | .recvRaw peerId read now =>
      if run.node.rawHeartbeat primitives peerId read then Node.heardOf watched peerId now
      else none
  | .advance index io =>
      (run.readers[index]?).bind fun reader =>
        if reader.stage.readsConn && run.node.decodesHeartbeat primitives reader.peerId io.read then
          Node.heardOf watched reader.peerId io.now
        else none
  | .pass index turn _ =>
      (run.readers[index]?).bind fun reader =>
        reader.stage.parkedOn.bind fun sessionId =>
          (run.node.takenOff reader.peerId sessionId turn).bind fun bytes =>
            if run.node.decodesHeartbeat primitives reader.peerId (.ok bytes) then
              Node.heardOf watched reader.peerId turn.io.now
            else none
  | _ => none

/-- What a step does to the node and the readers; a step that cannot be taken does
nothing. -/
def act (run : Vigil) : VigilStep → Node × List Reader
  | .call call => (run.node.call call, run.readers)
  | .switchActiveLink peerId toLink now =>
      ((run.node.switchActiveLink peerId toLink now).2, run.readers)
  | .setPeerState peerId state => (run.node.setPeerState peerId state, run.readers)
  | .setPeerAesKey peerId key => (run.node.setPeerAesKey peerId key, run.readers)
  | .sendRaw peerId msgType payload io =>
      ((run.node.sendRaw primitives peerId msgType payload io).node, run.readers)
  | .recvRaw peerId read now =>
      ((run.node.recvRaw primitives peerId read now).2, run.readers)
  | .spawnPeerReader peerId => (run.node, run.readers ++ [⟨peerId, .watching⟩])
  | .advance index io =>
      match run.readers[index]? with
      | none => (run.node, run.readers)
      | some reader =>
          if reader.stage.parkedOn.isSome then (run.node, run.readers)
          else
            match run.node.advance primitives reader.peerId io reader.stage with
            | some (node, stage) => (node, run.readers.set index ⟨reader.peerId, stage⟩)
            | none => (run.node, run.readers)
  | .pass index turn orphaned =>
      match run.readers[index]? with
      | none => (run.node, run.readers)
      | some reader =>
          match reader.stage.parkedOn with
          | none => (run.node, run.readers)
          | some sessionId =>
              let (node, stage) := run.node.sessionPass reader.peerId sessionId turn orphaned
              (node, run.readers.set index ⟨reader.peerId, stage⟩)

def perform (run : Vigil) (label : VigilStep) : Vigil where
  node := (run.act primitives label).1
  readers := (run.act primitives label).2
  heard := run.heard ++ (run.hears primitives watched label).toList

/-- A node that has just started. -/
def start (appUuid : String) (encrypt : Bool) (roomHashes : List RoomHash) : Vigil :=
  ⟨.new appUuid encrypt roomHashes, [], []⟩

/-- The record is of the last time the watched peer was heard from, and the peer counts as
dead only when every time is longer ago than the timeout. -/
def HeartbeatsCount (run : Vigil) : Prop :=
  run.node.recorded watched = run.heard.getLast? ∧
    ∀ now, run.node.checkHeartbeat watched now = .ok false →
      ∀ heard ∈ run.heard, HEARTBEAT_TIMEOUT ≤ now - heard

/-- A pass of a session takes no heartbeat of the watched peer off a link, unless one was
noted at the same instant. -/
def SparesHeartbeats (run : Vigil) (label : VigilStep) : Prop :=
  label.overSession = true →
    ∀ now, run.hears primitives watched label = some now → run.heard.getLast? = some now

variable {primitives watched} {run : Vigil} {label : VigilStep}

/-! ## The invariant -/

/-- A peer with a connection is remembered, and so is one whose connection a reader is
about to read. -/
structure Remembers (watched : String) (run : Vigil) : Prop where
  connected : (run.node.connections.lookup watched).isSome → run.node.Knows watched
  reading : ∀ reader ∈ run.readers, reader.peerId = watched →
    reader.stage.readsConn = true → run.node.Knows watched

theorem readsConn_of_parkedOn {stage : ReaderStage} {sessionId : SessionId}
    (hparked : stage.parkedOn = some sessionId) : stage.readsConn = false := by
  cases stage <;> first | rfl | cases hparked

/-- A reader that waits for a frame of its connection can move on. -/
theorem readsConn_of_advance {node : Node} {peerId : String} {io : ReaderIo}
    {stage : ReaderStage} (stuck : node.advance primitives peerId io stage = none) :
    stage.readsConn = false := by
  cases stage <;> first | rfl | cases stuck

/-- A reader that has a frame of its connection notes a heartbeat, and one that has not
notes nothing. -/
theorem notes_reader (remembers : run.Remembers watched) {reader : Reader}
    (hreader : reader ∈ run.readers) {io : ReaderIo} {stage : ReaderStage} {after : Node}
    (advanced : run.node.advance primitives reader.peerId io reader.stage = some (after, stage)) :
    Node.Notes watched
      (if reader.stage.readsConn && run.node.decodesHeartbeat primitives reader.peerId io.read then
        Node.heardOf watched reader.peerId io.now
      else none) run.node after := by
  cases hstage : reader.stage with
  | onConn conn =>
      have hread : Node.Notes watched _ run.node
          (run.node.readFrame primitives reader.peerId io.read io.now).2 :=
        Node.notes_readFrame io.read io.now fun hsame =>
          remembers.reading reader hreader hsame (by rw [hstage]; rfl)
      rw [hstage] at advanced
      rcases hframe : run.node.readFrame primitives reader.peerId io.read io.now with
        ⟨returned, between⟩
      rw [hframe] at hread
      have hpublished : Node.Notes watched none between
          (between.afterRead reader.peerId false returned).1 := Node.notes_afterRead false returned
      rw [Node.advance, hframe] at advanced
      rw [Option.some.inj advanced] at hpublished
      exact hread.trans hpublished
  | _ =>
      refine Node.notes_advance ?_ advanced
      intro conn hconn
      rw [hstage] at hconn
      cases hconn

/-- Every step notes what it hears, except over a session. -/
theorem notes_act (remembers : run.Remembers watched) (label : VigilStep) :
    Node.Notes watched
      (if label.overSession then none else run.hears primitives watched label) run.node
      (run.act primitives label).1 := by
  cases label with
  | call call => exact run.node.notes_call watched call
  | switchActiveLink peerId toLink now => exact Node.notes_switchActiveLink toLink now
  | setPeerState peerId state => exact Node.notes_setPeerState state
  | setPeerAesKey peerId key => exact Node.notes_setPeerAesKey key
  | sendRaw peerId msgType payload io => exact Node.notes_sendRaw msgType payload io
  | recvRaw peerId read now =>
      exact Node.notes_recvRaw read now fun hsame hconnected => remembers.connected hconnected
  | spawnPeerReader peerId => exact .refl run.node
  | advance index io =>
      simp only [VigilStep.overSession, Bool.false_eq_true, if_false, hears, act]
      cases hreader : run.readers[index]? with
      | none => exact .refl run.node
      | some reader =>
          simp only [Option.bind_some]
          cases hparked : reader.stage.parkedOn with
          | some sessionId =>
              rw [readsConn_of_parkedOn hparked]
              exact .refl run.node
          | none =>
              cases hadvanced : run.node.advance primitives reader.peerId io reader.stage with
              | none =>
                  rw [readsConn_of_advance hadvanced]
                  exact .refl run.node
              | some moved =>
                  exact notes_reader remembers (List.mem_of_getElem? hreader) hadvanced
  | pass index turn orphaned =>
      simp only [VigilStep.overSession, if_true, act]
      split
      · exact .refl run.node
      · split
        · exact .refl run.node
        · exact Node.notes_sessionPass _ turn orphaned

/-- After a read, a reader waits for no connection. -/
theorem readsConn_afterRead (node : Node) (peerId : String) (useSession : Bool)
    (returned : Result (MessageType × Bytes)) :
    (node.afterRead peerId useSession returned).2.readsConn = false := by
  cases returned <;> rfl

/-- A reader comes to wait for a frame of a connection that is there. -/
theorem connected_of_advance {node after : Node} {peerId : String} {io : ReaderIo}
    {stage next : ReaderStage}
    (advanced : node.advance primitives peerId io stage = some (after, next))
    (reads : next.readsConn = true) : (node.connections.lookup peerId).isSome := by
  have hread (between : Node) (useSession : Bool) (returned : Result (MessageType × Bytes))
      (hnext : some (between.afterRead peerId useSession returned) = some (after, next)) :
      (node.connections.lookup peerId).isSome := by
    have hquiet := readsConn_afterRead between peerId useSession returned
    rw [Option.some.inj hnext, reads] at hquiet
    cases hquiet
  cases stage with
  | chosen useSession =>
      cases useSession with
      | true =>
          rw [Node.advance] at advanced
          split at advanced <;>
            (cases advanced; cases reads)
      | false =>
          rw [Node.advance] at advanced
          split at advanced
          · rename_i conn hconn
            rw [hconn]
            rfl
          · cases advanced
            cases reads
  | onConn conn => exact hread _ false _ advanced
  | onSession sessionId =>
      rw [Node.advance] at advanced
      split_ifs at advanced
      · split at advanced
        · exact hread _ true _ advanced
        · cases advanced
      · exact hread _ true _ advanced
  | failed useSession =>
      cases useSession with
      | true =>
          cases advanced
          cases reads
      | false =>
          rw [Node.advance] at advanced
          split at advanced <;>
            (cases advanced; cases reads)
  | finished => cases advanced
  | _ =>
      cases advanced
      cases reads

/-- After a pass of a session, a reader waits for no connection. -/
theorem readsConn_sessionPass (node : Node) (peerId : String) (sessionId : SessionId)
    (turn : Session.Turn) (orphaned : Option (Result (MessageType × Bytes))) :
    (node.sessionPass peerId sessionId turn orphaned).2.readsConn = false := by
  unfold Node.sessionPass
  split
  · split
    · exact readsConn_afterRead _ peerId true _
    · rfl
  · split
    · exact readsConn_afterRead _ peerId true _
    · rfl

/-- After a step, a reader that waits for a connection did so before, or there is one. -/
theorem reading_of_act {reader : Reader} (label : VigilStep)
    (hreader : reader ∈ (run.act primitives label).2) (reads : reader.stage.readsConn = true) :
    reader ∈ run.readers ∨ (run.node.connections.lookup reader.peerId).isSome := by
  cases label with
  | spawnPeerReader peerId =>
      rcases List.mem_append.mp hreader with hold | hnew
      · exact .inl hold
      · rw [List.mem_singleton.mp hnew] at reads
        cases reads
  | advance index io =>
      simp only [act] at hreader
      split at hreader
      · exact .inl hreader
      · rename_i current hcurrent
        split_ifs at hreader
        · exact .inl hreader
        · split at hreader
          · rename_i node stage hadvanced
            rcases List.mem_or_eq_of_mem_set hreader with hold | hnew
            · exact .inl hold
            · rw [hnew] at reads ⊢
              exact .inr (connected_of_advance hadvanced reads)
          · exact .inl hreader
  | pass index turn orphaned =>
      simp only [act] at hreader
      split at hreader
      · exact .inl hreader
      · rename_i current hcurrent
        split at hreader
        · exact .inl hreader
        · rename_i sessionId hparked
          rcases List.mem_or_eq_of_mem_set hreader with hold | hnew
          · exact .inl hold
          · rw [hnew, readsConn_sessionPass] at reads
            cases reads
  | _ => exact .inl hreader

theorem Remembers.perform (remembers : run.Remembers watched) (label : VigilStep) :
    (run.perform primitives watched label).Remembers watched where
  connected hconnected := by
    have hnotes : Node.Notes watched _ run.node (run.act primitives label).1 :=
      notes_act remembers label
    rcases hnotes.connected hconnected with hold | hknows
    · exact hnotes.knows (remembers.connected hold)
    · exact hknows
  reading reader hreader hsame hreads := by
    have hnotes : Node.Notes watched _ run.node (run.act primitives label).1 :=
      notes_act remembers label
    rcases reading_of_act label hreader hreads with hold | hconnected
    · exact hnotes.knows (remembers.reading reader hold hsame hreads)
    · rw [hsame] at hconnected
      exact hnotes.knows (remembers.connected hconnected)

/-- The record is of the last time the watched peer was heard from. -/
def Noted (watched : String) (run : Vigil) : Prop :=
  run.node.recorded watched = run.heard.getLast?

/-- Where the record was right, a step keeps it right exactly when it spares heartbeats. -/
theorem noted_perform_iff (remembers : run.Remembers watched) (hnoted : run.Noted watched)
    (label : VigilStep) :
    (run.perform primitives watched label).Noted watched ↔
      run.SparesHeartbeats primitives watched label := by
  have hnotes : Node.Notes watched _ run.node (run.act primitives label).1 :=
    notes_act remembers label
  rw [Noted] at hnoted
  rw [Noted, perform, hnotes.recorded, hnoted, SparesHeartbeats]
  cases hover : label.overSession with
  | true =>
      cases hheard : run.hears primitives watched label with
      | none => simp
      | some now => simp
  | false =>
      cases hheard : run.hears primitives watched label with
      | none => simp
      | some now => simp

/-! ## Time -/

/-- What is heard is heard at the time of the step. -/
theorem time_of_hears {now : Instant} (hheard : run.hears primitives watched label = some now) :
    label.time = some now := by
  have hof {peerId : String} {time : Instant}
      (hsome : Node.heardOf watched peerId time = some now) : some time = some now := by
    rw [Node.heardOf] at hsome
    split_ifs at hsome
    exact hsome
  cases label with
  | call call =>
      cases call with
      | register peerHs conn name transportId transportCaps mismatchPeerId draw time =>
          simp only [hears, NodeCall.heard] at hheard
          split at hheard
          · cases hheard
          · exact hof hheard
      | attachConnection peerId conn draw time => exact hof hheard
      | _ => cases hheard
  | recvRaw peerId read time =>
      simp only [hears] at hheard
      split at hheard
      · exact hof hheard
      · cases hheard
  | advance index io =>
      obtain ⟨reader, -, hreader⟩ := Option.bind_eq_some_iff.mp hheard
      split_ifs at hreader
      exact hof hreader
  | pass index turn orphaned =>
      obtain ⟨reader, -, hreader⟩ := Option.bind_eq_some_iff.mp hheard
      obtain ⟨sessionId, -, hsession⟩ := Option.bind_eq_some_iff.mp hreader
      obtain ⟨bytes, -, hbytes⟩ := Option.bind_eq_some_iff.mp hsession
      split_ifs at hbytes
      exact hof hbytes
  | _ => cases hheard

/-- What has been heard was heard in the order of the steps. -/
theorem heard_sublist (run : Vigil) (labels : List VigilStep) :
    (labels.foldl (perform primitives watched) run).heard.Sublist
      (run.heard ++ labels.filterMap VigilStep.time) := by
  induction labels generalizing run with
  | nil => simp
  | cons label rest ih =>
      apply (ih _).trans
      rw [perform, List.append_assoc]
      apply List.Sublist.append_left
      rw [List.filterMap_cons]
      cases hheard : run.hears primitives watched label with
      | none =>
          cases label.time with
          | none => exact .refl _
          | some time => exact List.sublist_cons_self _ _
      | some now =>
          rw [time_of_hears hheard]
          exact .refl _

/-- In a list in order, nothing is after the last. -/
theorem le_of_getLast? {times : List Instant} {last time : Instant}
    (ordered : times.Pairwise (· ≤ ·)) (hlast : times.getLast? = some last)
    (htime : time ∈ times) : time ≤ last := by
  obtain ⟨earlier, rfl⟩ := List.getLast?_eq_some_iff.mp hlast
  rcases List.mem_append.mp htime with hearlier | hsame
  · exact (List.pairwise_append.mp ordered).2.2 time hearlier last (List.mem_singleton_self last)
  · rw [List.mem_singleton.mp hsame]

/-- A right record counts a peer as dead only when it was not heard from in time. -/
theorem Noted.heartbeatsCount (noted : run.Noted watched)
    (ordered : run.heard.Pairwise (· ≤ ·)) : run.HeartbeatsCount watched := by
  refine ⟨noted, ?_⟩
  intro now dead heard hheard
  obtain ⟨last, hlast, hlong⟩ := Node.recorded_of_checkHeartbeat dead
  rw [Noted, hlast] at noted
  have hle : heard ≤ last := le_of_getLast? ordered noted.symm hheard
  exact hlong.trans (Nat.sub_le_sub_left hle now)

theorem remembers_start (watched appUuid : String) (encrypt : Bool) (roomHashes : List RoomHash) :
    (start appUuid encrypt roomHashes).Remembers watched where
  connected hconnected := by cases hconnected
  reading _ hreader := by cases hreader

/-- Under a clock that does not go back, heartbeats count throughout a run exactly when no
heartbeat of the peer is taken off a link by a session. -/
theorem heartbeatsCount_iff (primitives : Primitives) (watched appUuid : String) (encrypt : Bool)
    (roomHashes : List RoomHash) (labels : List VigilStep)
    (clock : (labels.filterMap VigilStep.time).Pairwise (· ≤ ·)) :
    (∀ earlier later, labels = earlier ++ later →
        (earlier.foldl (perform primitives watched)
          (start appUuid encrypt roomHashes)).HeartbeatsCount watched) ↔
      ∀ earlier label later, labels = earlier ++ label :: later →
        (earlier.foldl (perform primitives watched)
          (start appUuid encrypt roomHashes)).SparesHeartbeats primitives watched label := by
  have keeps : ∀ (run : Vigil) (label : VigilStep),
      (run.Remembers watched ∧ run.Noted watched) →
        run.SparesHeartbeats primitives watched label →
        (run.perform primitives watched label).Remembers watched ∧
          (run.perform primitives watched label).Noted watched :=
    fun run label hrun hspares =>
      ⟨hrun.1.perform label, (noted_perform_iff hrun.1 hrun.2 label).mpr hspares⟩
  have needed : ∀ (run : Vigil) (label : VigilStep),
      (run.Remembers watched ∧ run.Noted watched) →
        (run.perform primitives watched label).Noted watched →
          run.SparesHeartbeats primitives watched label :=
    fun run label hrun hnext => (noted_perform_iff hrun.1 hrun.2 label).mp hnext
  rw [← forall_foldl_iff_of_invariant (fun _ hrun => hrun.2) keeps needed
    ⟨remembers_start watched appUuid encrypt roomHashes, rfl⟩ labels]
  constructor
  · exact fun hcount earlier later hsplit => (hcount earlier later hsplit).1
  · intro hnoted earlier later hsplit
    apply (hnoted earlier later hsplit).heartbeatsCount
    rw [hsplit, List.filterMap_append] at clock
    exact ((List.pairwise_append.mp clock).1).sublist (heard_sublist _ earlier)

/-! ## Two links -/

/-- A heartbeat frame as `send_heartbeat` writes it. -/
def heartbeatFrame : Bytes := [0x4D, 0x4C, 0x01, 0x02, 0, 0, 0, 0]

/-- A peer with one link sends its heartbeat 44 seconds after it connected. -/
def singleLink : List VigilStep :=
  [.call (.attachConnection "peer" 0 ⟨1, 1⟩ 0),
    .spawnPeerReader "peer",
    .advance 0 Readers.lost,
    .advance 0 Readers.lost,
    .advance 0 { Readers.lost with read := .ok heartbeatFrame, now := 44000 }]

/-- Over one link, heartbeats count. -/
theorem heartbeatsCount_singleLink :
    (singleLink.foldl (perform .transparent "peer") (start "self" false [])).HeartbeatsCount
      "peer" := by
  have hcount := (heartbeatsCount_iff .transparent "peer" "self" false [] singleLink
    (by decide)).mpr
  refine hcount ?_ singleLink [] (List.append_nil _).symm
  intro earlier label later hsplit hover
  have hmem : label ∈ singleLink := by rw [hsplit]; simp
  have hnone : singleLink.all (fun label => !label.overSession) = true := by decide
  have hlabel := List.all_eq_true.mp hnone label hmem
  rw [hover] at hlabel
  cases hlabel

/-- A peer with two links connects at once, and sends its heartbeat in good time: 44
seconds later, over one of its two links. -/
def dualLink : List VigilStep :=
  let io : LinkIo := ⟨44000, fun _ => .ok ()⟩
  [.call (.attachConnection "peer" 0 ⟨1, 1⟩ 0),
    .call (.attachSecondaryLink "peer" 1 .tcp ⟨2, 2⟩ 0),
    .spawnPeerReader "peer",
    .advance 0 Readers.lost,
    .advance 0 Readers.lost,
    .pass 0 ⟨io, .ready "tcp:peer:00000002" (.ok heartbeatFrame), io⟩ none]

/-- One second later the node counts the peer as dead: it was heard from, and the record
does not say so. -/
theorem not_heartbeatsCount_dualLink :
    let run := dualLink.foldl (perform .transparent "peer") (start "self" false [])
    run.heard = [0, 44000] ∧ run.node.checkHeartbeat "peer" 45000 = .ok false ∧
      ¬ run.HeartbeatsCount "peer" := by
  have hheard : (dualLink.foldl (perform .transparent "peer") (start "self" false [])).heard =
      [0, 44000] := by decide +kernel
  have hdead : (dualLink.foldl (perform .transparent "peer")
      (start "self" false [])).node.checkHeartbeat "peer" 45000 = .ok false := by decide +kernel
  refine ⟨hheard, hdead, ?_⟩
  rintro ⟨-, hcounts⟩
  have hlong := hcounts 45000 hdead 44000 (by rw [hheard]; decide)
  revert hlong
  decide

end Vigil

end Mlink.Core
