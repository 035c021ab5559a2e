/-
# What a failover leaves behind

The ring holds the frames a send has accepted that are neither acknowledged nor
evicted; `buf_eq_outstanding` proves it against a ledger that knows nothing of
the ring. A promotion is the moment those frames are for: the old link took
them and has failed. The failover branch writes the new frame over the promoted
link and nothing before it, so the frames survive exactly when there are none.
-/

import Mlink.Core.Session.Io
import Mlink.Lib.Ledger
import Mlink.Lib.Transition

namespace Mlink.Core

open Mlink.Protocol

/-- The arguments of one send, with what the world answers. -/
structure SendCall where
  msgType : MessageType
  payload : Bytes
  encryptKey : Option Bytes
  compress : Bool
  first : LinkIo
  retry : LinkIo

namespace SendCall

variable (primitives : Primitives) (call : SendCall) (session : Session)

def run : SendOutcome :=
  session.send primitives call.msgType call.payload call.encryptKey call.compress call.first
    call.retry

/-- The frame the call would write. -/
def frame : Result Bytes :=
  packFrame primitives call.msgType call.payload call.encryptKey call.compress
    session.sendSeq.nextSeq.toUInt16

/-- The call packs, its write fails, and another healthy link is there. -/
def Promotes : Prop :=
  (∃ bytes, call.frame primitives session = .ok bytes) ∧
    ∃ target, session.promotionTarget call.first call.retry = some target

end SendCall

/-- A sending session and the ledger of the frames its sends accepted. -/
structure Sender where
  session : Session
  ledger : List (Ledger.Entry (UInt32 × PendingFrame))

namespace Sender

/-- What may happen to a sending session: a send, an acknowledgement, or any
change other tasks make to its links. -/
inductive Op
  | send (call : SendCall)
  | ack (frame : AckFrame)
  | relink (links : List Link) (active : Option String)

/-- A session whose ring is what the ledger starts with. -/
def start (session : Session) : Sender := ⟨session, Ledger.ofList session.unacked.buf⟩

/-- The ledger after a send: a successful one is accepted as it was written. -/
def record (ledger : List (Ledger.Entry (UInt32 × PendingFrame))) (msgType : MessageType)
    (outcome : SendOutcome) : List (Ledger.Entry (UInt32 × PendingFrame)) :=
  match outcome.result, outcome.writes.getLast? with
  | .ok seq, some write => Ledger.accept UNACKED_RING_CAP ledger (seq, ⟨write.bytes, msgType⟩)
  | _, _ => ledger

def step (primitives : Primitives) (sender : Sender) : Op → Sender
  | .send call =>
      let outcome := call.run primitives sender.session
      ⟨outcome.session, record sender.ledger call.msgType outcome⟩
  | .ack frame =>
      ⟨sender.session.onAck frame,
        Ledger.settle (fun entry => frame.covers entry.1) sender.ledger⟩
  | .relink links active => ⟨{ sender.session with links, active }, sender.ledger⟩

/-- The runs of a session. -/
def system (primitives : Primitives) (session : Session) : Transition.System Sender Op where
  init := (· = start session)
  step source op target := target = source.step primitives op

/-- The sender after a run of operations. -/
def runAll (primitives : Primitives) (sender : Sender) (ops : List Op) : Sender :=
  ops.foldl (step primitives) sender

variable {primitives : Primitives} {session : Session}

/-- A run ends in a reachable state. -/
theorem reachable_runAll {sender : Sender} (reached : (system primitives session).Reachable sender)
    (ops : List Op) : (system primitives session).Reachable (sender.runAll primitives ops) :=
  reached.run (.of_foldl (fun _ _ => rfl) sender ops)

/-! ## The ring refines the ledger -/

/-- A send keeps the ring and the ledger in step. -/
theorem buf_eq_outstanding_send {sender : Sender} (call : SendCall)
    (agrees : sender.session.unacked.buf = Ledger.outstanding sender.ledger) :
    (sender.step primitives (.send call)).session.unacked.buf =
      Ledger.outstanding (sender.step primitives (.send call)).ledger := by
  rcases Session.send_spec primitives sender.session call.msgType call.payload call.encryptKey
    call.compress call.first call.retry with ⟨e, _, houtcome⟩ | ⟨bytes, _, houtcome⟩
  · simp only [step, SendCall.run, houtcome, record]
    exact agrees
  · obtain ⟨hring, huse⟩ := Session.transmit_spec sender.session.spendSeq
      sender.session.sendSeq.nextSeq bytes call.msgType call.first call.retry
    simp only [step, SendCall.run, houtcome]
    generalize sender.session.spendSeq.transmit sender.session.sendSeq.nextSeq bytes
      call.msgType call.first call.retry = outcome at hring huse ⊢
    cases hresult : outcome.result with
    | error e =>
        rw [hring.refused hresult, record, hresult]
        exact agrees
    | ok seq =>
        obtain ⟨rfl, hpushed, write, hwrite, _⟩ := hring.recorded hresult
        obtain ⟨last, hlast⟩ : ∃ last, List.getLast? outcome.writes = some last := by
          apply Option.isSome_iff_exists.mp
          rw [List.getLast?_isSome]
          exact List.ne_nil_of_mem hwrite
        have hbytes : last.bytes = bytes := huse.bytes_eq (List.mem_of_getLast? hlast)
        simp only [record, hresult, hlast, hbytes]
        rw [hpushed, UnackedRing.push_buf, Session.spendSeq_unacked, Ledger.outstanding_accept,
          agrees]

/-- In every run the ring is what the ledger still holds. -/
theorem buf_eq_outstanding {sender : Sender}
    (reached : (system primitives session).Reachable sender) :
    sender.session.unacked.buf = Ledger.outstanding sender.ledger := by
  apply reached.invariant fun sender =>
    sender.session.unacked.buf = Ledger.outstanding sender.ledger
  · rintro state rfl
    exact (Ledger.outstanding_ofList _).symm
  · rintro source op target _ agrees rfl
    cases op with
    | send call => exact buf_eq_outstanding_send call agrees
    | ack frame =>
        show ((source.session.unacked.ackCum frame.ack).sack frame.ack frame.bitmap).buf = _
        rw [AckFrame.buf_ackCum_sack, agrees]
        exact (Ledger.outstanding_settle _ _).symm
    | relink links active => exact agrees

/-! ## Promotions -/

/-- Whenever the call announces a promotion, what was outstanding is written
over the promoted link, in order and before the call's own frame. -/
def ResendsFirst (primitives : Primitives) (sender : Sender) (call : SendCall) : Prop :=
  let outcome := call.run primitives sender.session
  ∀ source target newer,
    outcome.session.events = sender.session.events ++
      [.switched sender.session.peerId source target .activeFailed] →
    call.frame primitives sender.session = .ok newer →
    ∃ resent rest,
      (outcome.writes.filter fun write => write.linkId = target).map LinkWrite.bytes =
          resent ++ newer :: rest ∧
        ((Ledger.outstanding sender.ledger).map fun entry => entry.2.bytes).Sublist resent

/-- A call resends first exactly when it promotes nothing or nothing is
outstanding. -/
theorem resendsFirst_iff {sender : Sender} {call : SendCall} :
    ResendsFirst primitives sender call ↔
      (call.Promotes primitives sender.session → Ledger.outstanding sender.ledger = []) := by
  rcases Session.send_spec primitives sender.session call.msgType call.payload call.encryptKey
    call.compress call.first call.retry with ⟨e, hframe, houtcome⟩ | ⟨bytes, hframe, houtcome⟩
  · constructor
    · rintro _ ⟨⟨bytes, hbytes⟩, _⟩
      rw [SendCall.frame, hframe] at hbytes
      cases hbytes
    · rintro _ source target newer _ hnewer
      rw [SendCall.frame, hframe] at hnewer
      cases hnewer
  · obtain ⟨_, huse⟩ := Session.transmit_spec sender.session.spendSeq
      sender.session.sendSeq.nextSeq bytes call.msgType call.first call.retry
    have hframe' : call.frame primitives sender.session = .ok bytes := hframe
    simp only [ResendsFirst, SendCall.Promotes, hframe', SendCall.run, houtcome,
      Except.ok.injEq]
    cases huse with
    | direct noTarget quiet _ _ =>
        rw [Session.promotionTarget_spendSeq] at noTarget
        constructor
        · rintro _ ⟨_, target, htarget⟩
          rw [noTarget] at htarget
          cases htarget
        · intro _ source target newer hannounced _
          rw [quiet, Session.spendSeq_events] at hannounced
          simp at hannounced
    | promoted source target failed retried hasTarget announced _ writes _ overOther overTarget
        retriedBytes =>
        rw [Session.promotionTarget_spendSeq] at hasTarget
        have hover : (([failed, retried] : List LinkWrite).filter fun write =>
            write.linkId = target).map LinkWrite.bytes = [bytes] := by
          simp [overOther, overTarget, retriedBytes]
        rw [writes, announced, Session.spendSeq_events, Session.spendSeq_peerId]
        constructor
        · rintro hresends _
          obtain ⟨resent, rest, hwritten, hsub⟩ := hresends source target bytes rfl rfl
          rw [hover] at hwritten
          have hresent : resent = [] := by
            cases resent with
            | nil => rfl
            | cons head tail => simp at hwritten
          rw [hresent, List.sublist_nil, List.map_eq_nil_iff] at hsub
          exact hsub
        · intro hempty source' target' newer hannounced hnewer
          have hevent := List.append_cancel_left hannounced
          simp only [List.cons.injEq, SessionEvent.switched.injEq, and_true, true_and] at hevent
          obtain ⟨_, rfl⟩ := hevent
          subst hnewer
          rw [hempty ⟨⟨_, rfl⟩, target, hasTarget⟩]
          exact ⟨[], [], hover, List.Sublist.refl _⟩

/-- A run loses nothing on failover exactly when the ring is empty before every
send of it that promotes a link. -/
theorem losesNothing_iff (primitives : Primitives) (session : Session) (ops : List Op) :
    (∀ earlier call later, ops = earlier ++ .send call :: later →
        ResendsFirst primitives ((start session).runAll primitives earlier) call) ↔
      ∀ earlier call later, ops = earlier ++ .send call :: later →
        let before := ((start session).runAll primitives earlier).session
        call.Promotes primitives before → before.unacked.buf = [] := by
  have hring : ∀ earlier, ((start session).runAll primitives earlier).session.unacked.buf =
      Ledger.outstanding ((start session).runAll primitives earlier).ledger := fun earlier =>
    buf_eq_outstanding (reachable_runAll (.init rfl) earlier)
  constructor
  · intro hresends earlier call later hops
    have hcall := resendsFirst_iff.mp (hresends earlier call later hops)
    rw [← hring] at hcall
    exact hcall
  · intro hempty earlier call later hops
    apply resendsFirst_iff.mpr
    rw [← hring]
    exact hempty earlier call later hops

/-! ## One frame outstanding when the active link fails -/

/-- Two healthy links, the first of them active. -/
def twoLinks : Session :=
  { Session.new "peer" 0 with
    links := [Link.new "ble" 0 .ble ⟨1000⟩ 0, Link.new "tcp" 1 .tcp ⟨1000000⟩ 0],
    active := some "ble" }

/-- Send one byte while the named links refuse every write. -/
def sendByte (byte : UInt8) (down : List String) : SendCall :=
  let io : LinkIo := ⟨0, fun id => if id ∈ down then .error (.io "reset") else .ok ()⟩
  ⟨.message, [byte], none, false, io, io⟩

/-- Frame 0 went out over the first link; when that link fails under frame 1,
frame 1 alone is written over the second. -/
theorem not_resendsFirst_after_one_frame :
    let before := (start twoLinks).runAll .transparent [.send (sendByte 97 [])]
    let outcome := (sendByte 98 ["ble"]).run .transparent before.session
    outcome.result = .ok 1 ∧
      (Ledger.outstanding before.ledger).map Prod.fst = [0] ∧
      outcome.writes.map LinkWrite.linkId = ["ble", "tcp"] ∧
      ¬ ResendsFirst .transparent before (sendByte 98 ["ble"]) := by
  refine ⟨rfl, by decide, by decide, ?_⟩
  intro hresends
  have hempty := resendsFirst_iff.mp hresends ⟨⟨_, rfl⟩, "tcp", by decide⟩
  exact absurd hempty (by decide)

end Sender

end Mlink.Core
