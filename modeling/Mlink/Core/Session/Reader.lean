/-
# The receive path

`recv` merges the attached links: it reads whichever has data first, drops what
the window has seen, clears the ring on an acknowledgement, and keeps its own
acknowledgement debt. One pass of its loop is `recvTurn`; the loop carries
nothing from pass to pass but the session, so a run of calls is a run of
passes.
-/

import Mlink.Core.Session.Io

namespace Mlink.Core

open Mlink.Protocol

def SESSION_SEQ_HEADER : Nat := 4

/-- What one read yields. -/
inductive ReadOutcome
  | msg (seq : UInt32) (payload : Bytes)
  | continueLoop
  | allLinksGone
  deriving DecidableEq, Repr

/-- An acknowledgement in its own frame; the header's number means nothing. -/
def encodeAckFrame (ack : AckFrame) : Bytes :=
  let body := encodeAck ack
  encodeFrame
    { magic := MAGIC, version := PROTOCOL_VERSION,
      flags := encodeFlags false false .ack, seq := 0,
      length := UInt16.ofNat body.length, payload := body }

/-- One more accepted frame; the count saturates. -/
def AckPending.record (pending : AckPending) (now : Instant) : AckPending where
  count := if pending.count = 0xFFFFFFFF then pending.count else pending.count + 1
  firstPendingAt := some (pending.firstPendingAt.getD now)

def ackShouldFlush (pending : AckPending) (now : Instant) : Bool :=
  if ACK_MAX_PENDING ≤ pending.count.toNat then true
  else
    match pending.firstPendingAt with
    | some first => ACK_MAX_DELAY_MS ≤ now - first
    | none => false

namespace Session

/-! ## Acknowledging -/

def activeLink (session : Session) : Option Link :=
  session.active.bind session.linkById

/-- The acknowledgement the window stands for. -/
def ackFrame (session : Session) : AckFrame :=
  let (last, bits) := session.dedup.snapshot
  { ack := last, bitmap := bits }

/-- Pay the acknowledgement debt over the active link. Without an active link
the debt is forgotten; after a failed write it is one frame again. -/
def flushAckNow (session : Session) (io : LinkIo) : Result Unit × Session × List LinkWrite :=
  if session.ackPending.count = 0 then (.ok (), session, [])
  else
    let session := { session with ackPending := .default }
    let bytes := encodeAckFrame session.ackFrame
    match session.activeLink with
    | none => (.ok (), session, [])
    | some link =>
        let (attempt, session) := session.writeLink link.id bytes io
        match attempt.outcome with
        | .ok () => (.ok (), session, [attempt])
        | .error e =>
            (.error e, { session with ackPending := session.ackPending.record io.now },
              [attempt])

def maybeFlushAck (session : Session) (io : LinkIo) : Session × List LinkWrite :=
  if ackShouldFlush session.ackPending io.now then (session.flushAckNow io).2
  else (session, [])

/-- The instant at which the timer of the next read fires. -/
def ackDeadline (session : Session) (now : Instant) : Instant :=
  match session.ackPending.firstPendingAt with
  | some first => first + ACK_MAX_DELAY_MS
  | none => now + 60000

/-! ## One frame -/

/-- Split the session number off, observe it, and surface the rest if it is
new. The eighth accepted frame pays the debt at once. -/
def consumeMessage (session : Session) (frame : Frame) (io : LinkIo) :
    Option (UInt32 × Bytes) × Session × List LinkWrite :=
  if frame.payload.length < SESSION_SEQ_HEADER then (none, session, [])
  else
    let seq := ofBe32 (frame.payload.take SESSION_SEQ_HEADER)
    let body := frame.payload.drop SESSION_SEQ_HEADER
    let (observed, window) := session.dedup.observe seq
    let session := { session with dedup := window }
    match observed with
    | .duplicate => (none, session, [])
    | .stale => (none, session, [])
    | .accept =>
        let session := { session with ackPending := session.ackPending.record io.now }
        if ACK_MAX_PENDING ≤ session.ackPending.count.toNat then
          (some (seq, body), (session.flushAckNow io).2)
        else (some (seq, body), session, [])

/-- Dispatch one frame. Malformed bytes and the types of the other paths are
ignored. -/
def handleBytes (session : Session) (bytes : Bytes) (io : LinkIo) :
    ReadOutcome × Session × List LinkWrite :=
  match decodeFrame bytes with
  | .error _ => (.continueLoop, session, [])
  | .ok frame =>
      match (decodeFlags frame.flags).2.2 with
      | .ack =>
          match decodeAck frame.payload with
          | .ok ack => (.continueLoop, session.onAck ack, [])
          | .error _ => (.continueLoop, session, [])
      | .message =>
          match session.consumeMessage frame io with
          | (some (seq, payload), after) => (.msg seq payload, after)
          | (none, after) => (.continueLoop, after)
      | _ => (.continueLoop, session, [])

/-- A frame is surfaced exactly when its payload is a number the window accepts
followed by what is surfaced. -/
theorem consumeMessage_eq_some (session : Session) (frame : Frame) (payload : Bytes)
    (io : LinkIo) (seq : UInt32) :
    (session.consumeMessage frame io).1 = some (seq, payload) ↔
      frame.payload = be32 seq ++ payload ∧ (session.dedup.observe seq).1 = .accept := by
  by_cases hshort : frame.payload.length < SESSION_SEQ_HEADER
  · rw [consumeMessage, if_pos hshort]
    constructor
    · rintro ⟨⟩
    · rintro ⟨hpayload, _⟩
      simp [hpayload, SESSION_SEQ_HEADER] at hshort
  · have hlength : 4 ≤ frame.payload.length := Nat.not_lt.mp hshort
    have hsplit : be32 (ofBe32 (frame.payload.take 4)) ++ frame.payload.drop 4 =
        frame.payload := by
      rw [be32_ofBe32 (by simpa using hlength), List.take_append_drop]
    rcases hobserve : session.dedup.observe (ofBe32 (frame.payload.take 4)) with
      ⟨observed, window⟩
    constructor
    · intro hsome
      have haccept : observed = .accept ∧ ofBe32 (frame.payload.take 4) = seq ∧
          frame.payload.drop 4 = payload := by
        rw [consumeMessage, if_neg hshort] at hsome
        simp only [SESSION_SEQ_HEADER, hobserve] at hsome
        cases observed with
        | duplicate => cases hsome
        | stale => cases hsome
        | accept =>
            dsimp only at hsome
            split_ifs at hsome <;> simpa using hsome
      obtain ⟨rfl, rfl, rfl⟩ := haccept
      exact ⟨hsplit.symm, by rw [hobserve]⟩
    · rintro ⟨hpayload, haccept⟩
      have hseq : ofBe32 (frame.payload.take 4) = seq := by
        rw [hpayload, List.take_left' (be32_length seq), ofBe32_be32]
      have hrest : frame.payload.drop 4 = payload := by
        rw [hpayload, List.drop_left' (be32_length seq)]
      have hobserved : observed = .accept := by
        rw [← hseq, hobserve] at haccept
        exact haccept
      rw [hobserved, hseq] at hobserve
      rw [consumeMessage, if_neg hshort]
      simp only [SESSION_SEQ_HEADER, hseq, hobserve, hrest]
      split_ifs <;> rfl

/-- Bytes surface a message exactly when they decode to a message frame that
carries it behind a number the window accepts. -/
theorem handleBytes_eq_msg (session : Session) (bytes payload : Bytes) (io : LinkIo)
    (seq : UInt32) :
    (session.handleBytes bytes io).1 = .msg seq payload ↔
      ∃ frame, decodeFrame bytes = .ok frame ∧ (decodeFlags frame.flags).2.2 = .message ∧
        frame.payload = be32 seq ++ payload ∧ (session.dedup.observe seq).1 = .accept := by
  cases hdecode : decodeFrame bytes with
  | error e => simp [handleBytes, hdecode]
  | ok frame =>
      cases htype : (decodeFlags frame.flags).2.2 with
      | message =>
          have hconsume := consumeMessage_eq_some session frame payload io seq
          rcases hresult : session.consumeMessage frame io with ⟨surfaced, after⟩
          rw [hresult] at hconsume
          cases surfaced with
          | none =>
              simp only [reduceCtorEq, false_iff] at hconsume
              simp [handleBytes, hdecode, htype, hresult, hconsume]
          | some pair =>
              obtain ⟨number, body⟩ := pair
              simp only [Option.some.injEq, Prod.mk.injEq] at hconsume
              simp [handleBytes, hdecode, htype, hresult, hconsume]
      | ack =>
          cases hack : decodeAck frame.payload <;>
            simp [handleBytes, hdecode, htype, hack]
      | _ => simp [handleBytes, hdecode, htype]

/-- Paying the debt leaves window and ring alone. Whatever it writes is the
window's acknowledgement, and without debt it writes nothing. -/
theorem flushAckNow_spec (session : Session) (io : LinkIo) :
    let after := session.flushAckNow io
    after.2.1.dedup = session.dedup ∧ after.2.1.unacked = session.unacked ∧
      (∀ write ∈ after.2.2, write.bytes = encodeAckFrame session.ackFrame) ∧
      (session.ackPending.count = 0 → after.2.1 = session ∧ after.2.2 = []) := by
  by_cases hzero : session.ackPending.count = 0
  · simp [flushAckNow, hzero]
  · rw [flushAckNow, if_neg hzero]
    cases hactive : ({ session with ackPending := .default } : Session).activeLink with
    | none =>
        simp [hactive, hzero]
    | some link =>
        cases hwrite : io.write link.id with
        | ok value =>
            simp only [hactive, writeLink, hwrite, List.mem_singleton]
            exact ⟨rfl, rfl, by rintro _ rfl; rfl, fun hcount => absurd hcount hzero⟩
        | error e =>
            simp only [hactive, writeLink, hwrite, List.mem_singleton]
            exact ⟨rfl, rfl, by rintro _ rfl; rfl, fun hcount => absurd hcount hzero⟩

/-- A frame as the reader documents it: the number, then the payload. -/
def dataFrame (seq : UInt32) (payload : Bytes) : Frame where
  magic := MAGIC
  version := PROTOCOL_VERSION
  flags := encodeFlags false false .message
  seq := seq.toUInt16
  length := UInt16.ofNat (be32 seq ++ payload).length
  payload := be32 seq ++ payload

/-- Such a frame moves the window. A new number is surfaced, and its
acknowledgement may go out; any other is dropped without a trace. -/
theorem handleBytes_dataFrame (session : Session) (seq : UInt32) (payload : Bytes)
    (io : LinkIo) (fits : payload.length ≤ 65531) :
    let observed := session.dedup.observe seq
    let handled := session.handleBytes (encodeFrame (dataFrame seq payload)) io
    (handled.1 = .msg seq payload ↔ observed.1 = .accept) ∧
      handled.2.1.dedup = observed.2 ∧
      (∀ write ∈ handled.2.2, write.bytes = encodeAckFrame handled.2.1.ackFrame) ∧
      (observed.1 ≠ .accept →
        handled.2.1.ackPending = session.ackPending ∧ handled.2.2 = []) := by
  have hdecode : decodeFrame (encodeFrame (dataFrame seq payload)) =
      .ok (dataFrame seq payload) := by
    have hround := decodeFrame_encodeFrame (dataFrame seq payload) []
      (by simp [dataFrame]; omega)
    rw [List.append_nil] at hround
    exact hround
  have hmsg : (session.handleBytes (encodeFrame (dataFrame seq payload)) io).1 =
      .msg seq payload ↔ (session.dedup.observe seq).1 = .accept := by
    rw [handleBytes_eq_msg, hdecode]
    simp [dataFrame]
  refine ⟨hmsg, ?_⟩
  have hlong : ¬ (dataFrame seq payload).payload.length < SESSION_SEQ_HEADER := by
    simp [dataFrame, SESSION_SEQ_HEADER]
  have hseq : ofBe32 ((dataFrame seq payload).payload.take SESSION_SEQ_HEADER) = seq := by
    show ofBe32 ((be32 seq ++ payload).take 4) = seq
    rw [List.take_left' (be32_length seq), ofBe32_be32]
  have htype : (decodeFlags (dataFrame seq payload).flags).2.2 = .message := by
    simp [dataFrame]
  rcases hobserve : session.dedup.observe seq with ⟨observed, window⟩
  cases observed with
  | duplicate =>
      simp [handleBytes, hdecode, htype, consumeMessage, if_neg hlong, hseq, hobserve]
  | stale =>
      simp [handleBytes, hdecode, htype, consumeMessage, if_neg hlong, hseq, hobserve]
  | accept =>
      simp only [handleBytes, hdecode, htype, consumeMessage, if_neg hlong, hseq, hobserve]
      split_ifs
      · obtain ⟨hdedup, _, hwrites, _⟩ := flushAckNow_spec
          { session with dedup := window, ackPending := session.ackPending.record io.now } io
        refine ⟨hdedup, ?_, by simp⟩
        intro write hwrite
        rw [hwrites write hwrite, ackFrame, ackFrame, hdedup]
      · exact ⟨rfl, by simp, by simp⟩

/-- An acknowledgement frame is applied to the ring and does nothing else. -/
theorem handleBytes_encodeAckFrame (session : Session) (ack : AckFrame) (io : LinkIo) :
    session.handleBytes (encodeAckFrame ack) io = (.continueLoop, session.onAck ack, []) := by
  have hdecode := decodeFrame_encodeFrame
    { magic := MAGIC, version := PROTOCOL_VERSION, flags := encodeFlags false false .ack,
      seq := 0, length := UInt16.ofNat (encodeAck ack).length, payload := encodeAck ack } []
    (by simp [ACK_FRAME_BYTES])
  rw [List.append_nil] at hdecode
  simp only [handleBytes, encodeAckFrame, hdecode, decodeFlags_encodeFlags, decodeAck_encodeAck]

/-! ## The loop -/

/-- What ends one `select!`: the timer, or the first link to be ready with what
its connection read. -/
inductive Wake
  | timer
  | ready (linkId : String) (outcome : Result Bytes)
  deriving Repr

/-- Race the reads of all links against the timer. A failed link is reported;
the session keeps it. -/
def readAny (session : Session) (wake : Wake) (io : LinkIo) :
    ReadOutcome × Session × List LinkWrite :=
  match wake with
  | .timer => (.continueLoop, session, [])
  | .ready linkId outcome =>
      match session.linkById linkId with
      | none => (.continueLoop, session, [])
      | some link =>
          let session := session.updateLink linkId fun link => (link.recv io.now outcome).2
          match outcome with
          | .ok bytes => session.handleBytes bytes io
          | .error _ =>
              let session := session.emit (.linkRemoved session.peerId link.id "recv_error")
              if session.links.any fun other => other.id != link.id then
                (.continueLoop, session, [])
              else (.allLinksGone, session, [])

/-- What one pass of the loop meets: the world while the debt is paid, the end
of the `select!`, and the world while its result is handled. -/
structure Turn where
  flushIo : LinkIo
  wake : Wake
  io : LinkIo

/-- One pass of the loop of `recv`: the value it returns, if it does. -/
def recvTurn (session : Session) (turn : Turn) :
    Option (Result (UInt32 × Bytes)) × Session :=
  if session.links.isEmpty then (some (.error session.noHealthyLink), session)
  else
    let session := (session.maybeFlushAck turn.flushIo).1
    match session.readAny turn.wake turn.io with
    | (.msg seq payload, after, _) => (some (.ok (seq, payload)), after)
    | (.continueLoop, after, _) => (none, after)
    | (.allLinksGone, after, _) => (some (.error after.noHealthyLink), after)

/-- One call of `recv` over the passes it meets; `none` while it still waits. -/
def recv (session : Session) : List Turn → Option (Result (UInt32 × Bytes)) × Session
  | [] => (none, session)
  | turn :: turns =>
      match session.recvTurn turn with
      | (some returned, after) => (some returned, after)
      | (none, after) => after.recv turns

end Session

end Mlink.Core
