/-
# The handshake on a connection

Both ends of a connection do the same: write the own handshake as one frame, then
read one frame and take it for the other's handshake. Neither waits for the other
before it writes, each half has its own deadline, and a connection may fail or be
closed at any time. An end that is done may start to write what it has to say while
the other is still reading.

The two ends and the network take turns in any order. Whatever that order, an end
that is content has the other's handshake and has taken nothing else off the stream;
and without a deadline that passes or a connection that fails, both ends are content
in the end.
-/

import Mlink.Core.Node.Channel
import Mlink.Core.Node.Connect
import Mlink.Protocol.Codec

namespace Mlink.Core

open Mlink.Protocol Mlink.Transport

structure StreamResumeInfo where
  streamId : UInt16
  receivedBitmap : Bytes
  deriving DecidableEq, Repr

/-- A handshake as it travels. -/
structure WireHandshake where
  appUuid : String
  version : UInt8
  mtu : UInt16
  compress : Bool
  encrypt : Bool
  lastSeq : UInt16
  resumeStreams : List StreamResumeInfo
  roomHash : Option RoomHash
  sessionId : Option SessionId
  sessionLastSeq : UInt32
  deriving DecidableEq, Repr

/-- What registration reads of it. -/
def WireHandshake.toHandshake (handshake : WireHandshake) : Handshake :=
  ⟨handshake.appUuid, handshake.roomHash, handshake.sessionId⟩

/-- The handshake a node dials and accepts with; it holds no key yet, and says so. -/
def Node.wireHandshake (node : Node) (mtu : UInt16) : WireHandshake where
  appUuid := node.appUuid
  version := PROTOCOL_VERSION
  mtu := mtu
  compress := true
  encrypt := false
  lastSeq := 0
  resumeStreams := []
  roomHash := node.wireRoomHash
  sessionId := none
  sessionLastSeq := 0

theorem Node.toHandshake_wireHandshake (node : Node) (mtu : UInt16) :
    (node.wireHandshake mtu).toHandshake = node.localHandshake := rfl

/-- The name of a message type, as its `Debug` has it. -/
def messageTypeDebug : MessageType → String
  | .handshake => "Handshake"
  | .heartbeat => "Heartbeat"
  | .ack => "Ack"
  | .ctrl => "Ctrl"
  | .message => "Message"
  | .streamStart => "StreamStart"
  | .streamChunk => "StreamChunk"
  | .streamEnd => "StreamEnd"
  | .streamAck => "StreamAck"
  | .request => "Request"
  | .response => "Response"
  | .responseStream => "ResponseStream"
  | .subscribe => "Subscribe"
  | .publish => "Publish"
  | .unsubscribe => "Unsubscribe"
  | .error => "Error"

variable (serde : Serde WireHandshake)

/-- What `perform_handshake` writes. -/
def handshakeFrame (localHandshake : WireHandshake) : Result Bytes := do
  let payload ← encode serde localHandshake
  if payload.length ≤ 65535 then
    pure (encodeFrame
      { magic := MAGIC
        version := PROTOCOL_VERSION
        flags := encodeFlags false false .handshake
        seq := 0
        length := UInt16.ofNat payload.length
        payload := payload })
  else throw (.payloadTooLarge payload.length 65535)

/-- What `perform_handshake` makes of the bytes it read. -/
def readHandshake (bytes : Bytes) : Result WireHandshake := do
  let frame ← decodeFrame bytes
  let msgType := (decodeFlags frame.flags).2.2
  if msgType = .handshake then decode serde frame.payload
  else throw (.codecError s!"expected Handshake, got {messageTypeDebug msgType}")

/-- How far one end has come. -/
inductive HandshakeStage
  | starting
  /-- The own handshake is written. -/
  | awaiting
  | returned (result : Result WireHandshake)

/-- A connection with an end at each side; a side's wire carries what it writes. It is
kept whether a deadline has passed or the connection has failed somewhere. -/
structure Exchange where
  stage : Side → HandshakeStage
  wire : Side → StreamConnection
  troubled : Bool

inductive ExchangeEvent
  | begin (side : Side)
  | poll (side : Side)
  | deliver (side : Side) (count : Nat)
  /-- The deadline of the write or of the read passes. -/
  | expire (side : Side)
  /-- The connection fails under the write or the read. -/
  | fail (side : Side) (e : MlinkError)
  /-- An end that is content goes on to write. -/
  | send (side : Side) (data : Bytes)
  /-- An end that has returned closes. -/
  | close (side : Side)

namespace Exchange

variable (localHandshake : Side → WireHandshake) (exchange : Exchange)

def new (peerId : Side → String) : Exchange where
  stage _ := .starting
  wire side := .new (peerId side)
  troubled := false

def setStage (side : Side) (stage : HandshakeStage) : Exchange :=
  { exchange with stage := Function.update exchange.stage side stage }

def setWire (side : Side) (wire : StreamConnection) : Exchange :=
  { exchange with wire := Function.update exchange.wire side wire }

/-- Encode the own handshake and write it. -/
def begin (side : Side) : Exchange :=
  match exchange.stage side with
  | .starting =>
      match handshakeFrame serde (localHandshake side) with
      | .error e => exchange.setStage side (.returned (.error e))
      | .ok frame =>
          match (exchange.wire side).write frame with
          | (.error e, _) => exchange.setStage side (.returned (.error e))
          | (.ok (), wire) => (exchange.setWire side wire).setStage side .awaiting
  | _ => exchange

/-- Poll the read of the other's handshake. -/
def poll (side : Side) : Exchange :=
  match exchange.stage side with
  | .awaiting =>
      match (exchange.wire side.other).read with
      | (none, wire) => exchange.setWire side.other wire
      | (some (.error e), wire) =>
          (exchange.setWire side.other wire).setStage side (.returned (.error e))
      | (some (.ok bytes), wire) =>
          (exchange.setWire side.other wire).setStage side
            (.returned (readHandshake serde bytes))
  | _ => exchange

/-- The deadline of the call in progress passes, and a pending read is dropped. -/
def expire (side : Side) : Exchange :=
  match exchange.stage side with
  | .starting =>
      { exchange.setStage side
          (.returned (.error (.handlerError "handshake write timed out after 10s"))) with
        troubled := true }
  | .awaiting =>
      { (exchange.setWire side.other (exchange.wire side.other).dropRead).setStage side
          (.returned (.error (.handlerError "handshake read timed out after 10s"))) with
        troubled := true }
  | .returned _ => exchange

def fail (side : Side) (e : MlinkError) : Exchange :=
  match exchange.stage side with
  | .returned _ => exchange
  | _ => { exchange.setStage side (.returned (.error e)) with troubled := true }

def send (side : Side) (data : Bytes) : Exchange :=
  match exchange.stage side with
  | .returned (.ok _) => exchange.setWire side ((exchange.wire side).write data).2
  | _ => exchange

def close (side : Side) : Exchange :=
  match exchange.stage side with
  | .returned _ => exchange.setWire side (exchange.wire side).close
  | _ => exchange

def deliver (side : Side) (count : Nat) : Exchange :=
  exchange.setWire side ((exchange.wire side).deliver count)

def step : ExchangeEvent → Exchange
  | .begin side => exchange.begin serde localHandshake side
  | .poll side => exchange.poll serde side
  | .deliver side count => exchange.deliver side count
  | .expire side => exchange.expire side
  | .fail side e => exchange.fail side e
  | .send side data => exchange.send side data
  | .close side => exchange.close side

def system (peerId : Side → String) : Transition.System Exchange ExchangeEvent where
  init exchange := exchange = new peerId
  step source event target := target = source.step serde localHandshake event

/-- Something has come in the way: a deadline, the connection, or a handshake that cannot
be put into a frame. -/
def Disturbed (troubled : Bool) : Prop :=
  troubled = true ∨ ∃ side e, handshakeFrame serde (localHandshake side) = .error e

/-- The stream from a side, read by the other up to the handshake and no further. -/
structure ReadHandshake (side : Side) : Prop where
  lossless : (exchange.wire side).Lossless
  frame : ∃ frame later, handshakeFrame serde (localHandshake side) = .ok frame ∧
    (exchange.wire side).returned = [frame] ∧ (exchange.wire side).written = frame :: later

/-- What an end may rely on. -/
structure Agreed (side : Side) : Prop where
  /-- Once the other has written, what is in flight is all that is waited for. -/
  waits : exchange.stage side = .awaiting → (exchange.wire side.other).written ≠ [] →
    ((exchange.deliver side.other (exchange.wire side.other).inflight.length).poll serde
      side).stage side = .returned (.ok (localHandshake side.other))
  content : ∀ peerHandshake, exchange.stage side = .returned (.ok peerHandshake) →
    peerHandshake = localHandshake side.other ∧
      exchange.ReadHandshake serde localHandshake side.other
  failed : ∀ e, exchange.stage side = .returned (.error e) →
    Disturbed serde localHandshake exchange.troubled

end Exchange

/-! ## The frame of a handshake -/

section Frame

variable {serde : Serde WireHandshake} {localHandshake : WireHandshake} {frame : Bytes}

/-- A handshake that can be put into a frame is read out of it again. -/
theorem readHandshake_of_frame (lawful : serde.Lawful)
    (hframe : handshakeFrame serde localHandshake = .ok frame) :
    readHandshake serde frame = .ok localHandshake := by
  cases hencode : encode serde localHandshake with
  | error e => simp [handshakeFrame, hencode, bind, Except.bind] at hframe
  | ok payload =>
      by_cases hfits : payload.length ≤ 65535
      · simp only [handshakeFrame, hencode, hfits, if_true, bind, Except.bind, pure,
          Except.pure] at hframe
        cases hframe
        have hdecode := decodeFrame_encodeFrame
          { magic := MAGIC
            version := PROTOCOL_VERSION
            flags := encodeFlags false false .handshake
            seq := 0
            length := UInt16.ofNat payload.length
            payload := payload } [] hfits
        rw [List.append_nil] at hdecode
        simp only [readHandshake, hdecode, bind, Except.bind, decodeFlags_encodeFlags, if_true]
        exact decode_of_encode lawful hencode
      · simp [handshakeFrame, hencode, hfits, bind, Except.bind, throw, throwThe,
          MonadExceptOf.throw] at hframe

/-- The frame is short enough for any connection. -/
theorem length_handshakeFrame (hframe : handshakeFrame serde localHandshake = .ok frame) :
    frame.length ≤ 4294967295 := by
  cases hencode : encode serde localHandshake with
  | error e => simp [handshakeFrame, hencode, bind, Except.bind] at hframe
  | ok payload =>
      by_cases hfits : payload.length ≤ 65535
      · simp only [handshakeFrame, hencode, hfits, if_true, bind, Except.bind, pure,
          Except.pure] at hframe
        cases hframe
        rw [encodeFrame_length, HEADER_SIZE]
        dsimp only
        omega
      · simp [handshakeFrame, hencode, hfits, bind, Except.bind, throw, throwThe,
          MonadExceptOf.throw] at hframe

end Frame

/-! ## One direction -/

/-- What holds of the stream from one end to the other: the handshake comes first on it,
nothing comes unless the writer has failed or not begun, and the reader has taken the
handshake exactly if it is content. -/
structure Carried (frame : Result Bytes) (own : WireHandshake) (disturbed : Prop)
    (writer reader : HandshakeStage) (wire : StreamConnection) : Prop where
  unsaid : writer = .starting → wire.written = []
  said : writer ≠ .starting →
    (∃ bytes later, frame = .ok bytes ∧ wire.written = bytes :: later) ∨
      wire.written = [] ∧ ∃ e, writer = .returned (.error e)
  shut : wire.shut = true → ∃ result, writer = .returned result
  unread : reader = .starting ∨ reader = .awaiting → wire.Lossless ∧ wire.returned = []
  agreed : ∀ peerHandshake, reader = .returned (.ok peerHandshake) →
    peerHandshake = own ∧ wire.Lossless ∧ ∃ bytes later, frame = .ok bytes ∧
      wire.returned = [bytes] ∧ wire.written = bytes :: later
  cause : ∀ e, reader = .returned (.error e) → disturbed

namespace Carried

variable {frame : Result Bytes} {own : WireHandshake} {disturbed : Prop}
  {writer reader : HandshakeStage} {wire : StreamConnection}

/-- The writer gives up. -/
theorem writerFails (carried : Carried frame own disturbed writer reader wire)
    (open_ : writer = .starting ∨ writer = .awaiting) (e : MlinkError) {later : Prop}
    (still : disturbed → later) :
    Carried frame own later (.returned (.error e)) reader wire where
  unsaid := fun hstarting => by cases hstarting
  said := fun _ => by
    rcases open_ with rfl | rfl
    · exact .inr ⟨carried.unsaid rfl, e, rfl⟩
    · exact (carried.said HandshakeStage.noConfusion).imp_right fun hnothing =>
        ⟨hnothing.1, e, rfl⟩
  shut := fun _ => ⟨_, rfl⟩
  unread := carried.unread
  agreed := carried.agreed
  cause := fun e hreader => still (carried.cause e hreader)

/-- The reader gives up, with its reason; what it leaves of the stream is nobody's. -/
theorem readerFails (carried : Carried frame own disturbed writer reader wire)
    (e : MlinkError) {left : StreamConnection} (hwritten : left.written = wire.written)
    (hshut : left.shut = wire.shut) {later : Prop} (reason : later) :
    Carried frame own later writer (.returned (.error e)) left where
  unsaid := by
    rw [hwritten]
    exact carried.unsaid
  said := by
    rw [hwritten]
    exact carried.said
  shut := by
    rw [hshut]
    exact carried.shut
  unread := fun hreader => by rcases hreader with hreader | hreader <;> cases hreader
  agreed := fun _ hreader => by cases hreader
  cause := fun _ _ => reason

/-- The writer puts its handshake on the stream. -/
theorem writerBegins (carried : Carried frame own disturbed .starting reader wire)
    {bytes : Bytes} (hframe : frame = .ok bytes) (hfits : bytes.length ≤ 4294967295) :
    (wire.write bytes).1 = .ok () ∧
      Carried frame own disturbed .awaiting reader (wire.write bytes).2 := by
  have hopen : ¬ wire.shut = true := fun hshut => by
    obtain ⟨_, hreturned⟩ := carried.shut hshut
    cases hreturned
  have hnothing := carried.unsaid rfl
  have hlossless := fun lossless : wire.Lossless =>
    StreamConnection.write_lossless lossless bytes
  rw [StreamConnection.write, if_neg hopen, if_pos hfits] at hlossless ⊢
  refine ⟨rfl, HandshakeStage.noConfusion, fun _ => .inl ⟨bytes, [], hframe, ?_⟩,
    fun hshut => absurd hshut hopen, ?_, ?_, carried.cause⟩
  · show wire.written ++ [bytes] = [bytes]
    rw [hnothing, List.nil_append]
  · intro hreader
    obtain ⟨lossless, hreturned⟩ := carried.unread hreader
    exact ⟨hlossless lossless, hreturned⟩
  · intro peerHandshake hreader
    obtain ⟨_, _, _, _, _, _, hwritten⟩ := carried.agreed peerHandshake hreader
    rw [hnothing] at hwritten
    cases hwritten

/-- A writer that has its answer goes on to write. -/
theorem writerSends {peer : WireHandshake}
    (carried : Carried frame own disturbed (.returned (.ok peer)) reader wire) (data : Bytes) :
    Carried frame own disturbed (.returned (.ok peer)) reader (wire.write data).2 := by
  have hlossless := fun lossless : wire.Lossless => StreamConnection.write_lossless lossless data
  rw [StreamConnection.write] at hlossless ⊢
  split_ifs at hlossless ⊢
  · exact carried
  · refine ⟨HandshakeStage.noConfusion, fun hwriter => ?_, fun _ => ⟨_, rfl⟩, ?_, ?_,
      carried.cause⟩
    · rcases carried.said hwriter with ⟨bytes, later, hframe, hwritten⟩ | ⟨_, e, hfailed⟩
      · exact .inl ⟨bytes, later ++ [data], hframe, by rw [hwritten, List.cons_append]⟩
      · cases hfailed
    · intro hreader
      obtain ⟨lossless, hreturned⟩ := carried.unread hreader
      exact ⟨hlossless lossless, hreturned⟩
    · intro peerHandshake hreader
      obtain ⟨rfl, lossless, bytes, later, hframe, hreturned, hwritten⟩ :=
        carried.agreed peerHandshake hreader
      exact ⟨rfl, hlossless lossless, bytes, later ++ [data], hframe, hreturned,
        by rw [hwritten, List.cons_append]⟩
  · exact carried

/-- The network brings bytes. -/
theorem deliver (carried : Carried frame own disturbed writer reader wire) (count : Nat) :
    Carried frame own disturbed writer reader (wire.deliver count) :=
  { carried with
    unread := fun hreader => (carried.unread hreader).imp_left fun lossless =>
      StreamConnection.deliver_lossless lossless count
    agreed := fun peerHandshake hreader =>
      (carried.agreed peerHandshake hreader).imp_right fun hrest => hrest.imp_left fun lossless =>
        StreamConnection.deliver_lossless lossless count }

/-- A writer that has returned closes. -/
theorem close {result : Result WireHandshake}
    (carried : Carried frame own disturbed (.returned result) reader wire) :
    Carried frame own disturbed (.returned result) reader wire.close :=
  { carried with
    shut := fun _ => ⟨result, rfl⟩
    unread := fun hreader => (carried.unread hreader).imp_left StreamConnection.close_lossless
    agreed := fun peerHandshake hreader =>
      (carried.agreed peerHandshake hreader).imp_right fun hrest =>
        hrest.imp_left StreamConnection.close_lossless }

/-- What the reader finds when it polls: nothing yet, the handshake, or the end of a stream
on which the writer, having failed, has put nothing. -/
theorem poll (carried : Carried frame own disturbed writer .awaiting wire) :
    (wire.read.1 = none ∧ Carried frame own disturbed writer .awaiting wire.read.2 ∧
        (wire.inflight = [] → wire.written = [])) ∨
      (∃ bytes, frame = .ok bytes ∧ wire.read.1 = some (.ok bytes) ∧
        Carried frame own disturbed writer (.returned (.ok own)) wire.read.2) ∨
      (∃ e, wire.read.1 = some (.error e) ∧ wire.written = [] ∧
        ∃ cause, writer = .returned (.error cause)) := by
  obtain ⟨lossless, hreturned⟩ := carried.unread (.inr rfl)
  have hunread : wire.unread = wire.written := by
    rw [StreamConnection.unread, hreturned]
    rfl
  obtain ⟨hwritten, hshut⟩ := StreamConnection.written_read wire
  have hafter := StreamConnection.read_lossless lossless
  rcases StreamConnection.read_cases lossless with
    ⟨message, later, hnext, hready, hread⟩ | ⟨hpending, hread, hidle⟩ |
    ⟨hended, hnothing, hclosed, _⟩
  · rw [hunread] at hnext
    have hfirst : frame = .ok message := by
      by_cases hwriter : writer = .starting
      · rw [carried.unsaid hwriter] at hnext
        cases hnext
      · rcases carried.said hwriter with ⟨bytes, others, hframe, hbytes⟩ | ⟨hempty, _⟩
        · rw [hbytes] at hnext
          cases hnext
          exact hframe
        · rw [hempty] at hnext
          cases hnext
    right
    left
    refine ⟨message, hfirst, hready, ?_, ?_, ?_, ?_, ?_, ?_⟩
    · rw [hwritten]
      exact carried.unsaid
    · rw [hwritten]
      exact carried.said
    · rw [hshut]
      exact carried.shut
    · intro hreader
      rcases hreader with hreader | hreader <;> cases hreader
    · intro peerHandshake hreader
      cases hreader
      exact ⟨rfl, hafter, message, later, hfirst, by rw [hread, hreturned]; rfl,
        hwritten.trans hnext⟩
    · intro e hreader
      cases hreader
  · left
    refine ⟨hpending, ⟨?_, ?_, ?_, ?_, ?_, ?_⟩,
      fun hinflight => hunread ▸ (hidle hinflight).1⟩
    · rw [hwritten]
      exact carried.unsaid
    · rw [hwritten]
      exact carried.said
    · rw [hshut]
      exact carried.shut
    · exact fun _ => ⟨hafter, hread.trans hreturned⟩
    · intro _ hreader
      cases hreader
    · intro _ hreader
      cases hreader
  · right
    right
    rw [hunread] at hnothing
    obtain ⟨result, hresult⟩ := carried.shut hclosed
    have hbegun : writer ≠ .starting := by
      rw [hresult]
      exact HandshakeStage.noConfusion
    rcases carried.said hbegun with ⟨_, _, _, hbytes⟩ | ⟨_, hcause⟩
    · rw [hnothing] at hbytes
      cases hbytes
    · exact ⟨_, hended, hnothing, hcause⟩

/-- The reader writes its own handshake and is about to read. -/
theorem readerBegins (carried : Carried frame own disturbed writer .starting wire) :
    Carried frame own disturbed writer .awaiting wire :=
  { carried with
    unread := fun _ => carried.unread (.inl rfl)
    agreed := fun _ hreader => by cases hreader
    cause := fun _ hreader => by cases hreader }

/-- The writer has its answer. -/
theorem writerContent (carried : Carried frame own disturbed .awaiting reader wire)
    (result : Result WireHandshake) :
    Carried frame own disturbed (.returned result) reader wire :=
  { carried with
    unsaid := fun hstarting => by cases hstarting
    said := fun _ => by
      rcases carried.said HandshakeStage.noConfusion with hsaid | ⟨_, e, hfailed⟩
      · exact .inl hsaid
      · cases hfailed
    shut := fun _ => ⟨result, rfl⟩ }

end Carried

/-! ## Both directions -/

namespace Side

@[simp]
theorem other_other (side : Side) : side.other.other = side := by cases side <;> rfl

theorem other_ne (side : Side) : side.other ≠ side := by cases side <;> exact Side.noConfusion

/-- Every side is this one or the other. -/
theorem forall_iff {p : Side → Prop} (side : Side) :
    (∀ each, p each) ↔ p side ∧ p side.other := by
  constructor
  · exact fun hall => ⟨hall side, hall side.other⟩
  · rintro ⟨hside, hother⟩ each
    cases side <;> cases each <;> assumption

end Side

namespace Exchange

variable {serde : Serde WireHandshake} {localHandshake : Side → WireHandshake}
  {exchange : Exchange} {side : Side}

section Updates

variable (stage : HandshakeStage) (wire : StreamConnection)

@[simp]
theorem stage_setStage : (exchange.setStage side stage).stage side = stage :=
  Function.update_self ..

@[simp]
theorem stage_other_setStage :
    (exchange.setStage side stage).stage side.other = exchange.stage side.other :=
  Function.update_of_ne side.other_ne ..

@[simp]
theorem wire_setStage : (exchange.setStage side stage).wire = exchange.wire := rfl

@[simp]
theorem wire_setWire : (exchange.setWire side wire).wire side = wire := Function.update_self ..

@[simp]
theorem wire_other_setWire :
    (exchange.setWire side wire).wire side.other = exchange.wire side.other :=
  Function.update_of_ne side.other_ne ..

@[simp]
theorem wire_setWire_other :
    (exchange.setWire side.other wire).wire side = exchange.wire side :=
  Function.update_of_ne side.other_ne.symm ..

@[simp]
theorem stage_setWire : (exchange.setWire side wire).stage = exchange.stage := rfl

@[simp]
theorem troubled_setStage : (exchange.setStage side stage).troubled = exchange.troubled := rfl

@[simp]
theorem troubled_setWire : (exchange.setWire side wire).troubled = exchange.troubled := rfl

theorem setWire_wire (side : Side) : exchange.setWire side (exchange.wire side) = exchange := by
  rw [setWire, Function.update_eq_self]

end Updates

variable (serde localHandshake exchange) in
/-- Each direction carries the handshake of its writer. -/
def Sound : Prop := ∀ side,
  Carried (handshakeFrame serde (localHandshake side)) (localHandshake side)
    (Disturbed serde localHandshake exchange.troubled) (exchange.stage side)
    (exchange.stage side.other) (exchange.wire side)

/-- The two directions, seen from one end: what it writes and what it reads. -/
theorem sound_iff (side : Side) : exchange.Sound serde localHandshake ↔
    Carried (handshakeFrame serde (localHandshake side)) (localHandshake side)
      (Disturbed serde localHandshake exchange.troubled) (exchange.stage side)
      (exchange.stage side.other) (exchange.wire side) ∧
    Carried (handshakeFrame serde (localHandshake side.other)) (localHandshake side.other)
      (Disturbed serde localHandshake exchange.troubled) (exchange.stage side.other)
      (exchange.stage side) (exchange.wire side.other) := by
  rw [Sound, Side.forall_iff side, Side.other_other]

theorem sound_new (peerId : Side → String) : (new peerId).Sound serde localHandshake :=
  fun side => {
    unsaid := fun _ => rfl
    said := fun hbegun => absurd rfl hbegun
    shut := fun hshut => by cases hshut
    unread := fun _ => ⟨StreamConnection.new_lossless (peerId side), rfl⟩
    agreed := fun _ hreader => by cases hreader
    cause := fun _ hreader => by cases hreader }

/-- An end that has not returned gives up, for a reason that is on record. -/
theorem Sound.gives_up (sound : exchange.Sound serde localHandshake)
    (open_ : exchange.stage side = .starting ∨ exchange.stage side = .awaiting) (e : MlinkError)
    {left : StreamConnection} (hwritten : left.written = (exchange.wire side.other).written)
    (hshut : left.shut = (exchange.wire side.other).shut) (troubled : Bool)
    (reason : Disturbed serde localHandshake troubled) :
    Sound serde localHandshake
      { (exchange.setWire side.other left).setStage side (.returned (.error e)) with
        troubled := troubled } := by
  obtain ⟨hwrites, hreads⟩ := (sound_iff side).mp sound
  refine (sound_iff side).mpr ⟨?_, ?_⟩
  · have hfails := hwrites.writerFails open_ e fun _ => reason
    simpa using hfails
  · have hfails := hreads.readerFails e hwritten hshut reason
    simpa using hfails

theorem Sound.begin (sound : exchange.Sound serde localHandshake) (side : Side) :
    (exchange.begin serde localHandshake side).Sound serde localHandshake := by
  rw [Exchange.begin]
  cases hstage : exchange.stage side with
  | awaiting => exact sound
  | returned result => exact sound
  | starting =>
      dsimp only
      cases hframe : handshakeFrame serde (localHandshake side) with
      | error e =>
          have hgives := sound.gives_up (.inl hstage) e rfl rfl exchange.troubled
            (.inr ⟨side, e, hframe⟩)
          rwa [setWire_wire] at hgives
      | ok frame =>
          obtain ⟨hwrites, hreads⟩ := (sound_iff side).mp sound
          rw [hstage] at hwrites hreads
          obtain ⟨hok, hbegins⟩ := hwrites.writerBegins hframe (length_handshakeFrame hframe)
          rcases hwrite : (exchange.wire side).write frame with ⟨answer, wire⟩
          rw [hwrite] at hok hbegins
          cases hok
          simp only [hwrite]
          refine (sound_iff side).mpr ⟨?_, ?_⟩
          · simpa using hbegins
          · simpa using hreads.readerBegins

/-- The other direction is untouched by what an end writes. -/
theorem Sound.setWire (sound : exchange.Sound serde localHandshake) {wire : StreamConnection}
    (hwrites : Carried (handshakeFrame serde (localHandshake side)) (localHandshake side)
      (Disturbed serde localHandshake exchange.troubled) (exchange.stage side)
      (exchange.stage side.other) wire) :
    (exchange.setWire side wire).Sound serde localHandshake := by
  refine (sound_iff side).mpr ⟨?_, ?_⟩
  · simpa using hwrites
  · simpa using ((sound_iff side).mp sound).2

theorem Sound.poll (lawful : serde.Lawful) (sound : exchange.Sound serde localHandshake)
    (side : Side) : (exchange.poll serde side).Sound serde localHandshake := by
  rw [Exchange.poll]
  cases hstage : exchange.stage side with
  | starting => exact sound
  | returned result => exact sound
  | awaiting =>
      obtain ⟨hwrites, hreads⟩ := (sound_iff side).mp sound
      rw [hstage] at hwrites hreads
      obtain ⟨hwritten, hshut⟩ := StreamConnection.written_read (exchange.wire side.other)
      rcases hread : (exchange.wire side.other).read with ⟨polled, wire⟩
      rw [hread] at hwritten hshut
      rcases hreads.poll with ⟨hpending, hcarried, _⟩ | ⟨bytes, hframe, hready, hcarried⟩ |
        ⟨e, hended, _, cause, hcause⟩
      · rw [hread] at hpending hcarried
        cases hpending
        simp only
        refine (sound_iff side).mpr ⟨?_, ?_⟩
        · simpa [hstage] using hwrites
        · simpa [hstage] using hcarried
      · rw [hread] at hready hcarried
        cases hready
        simp only [readHandshake_of_frame lawful hframe]
        refine (sound_iff side).mpr ⟨?_, ?_⟩
        · simpa using hwrites.writerContent _
        · simpa using hcarried
      · rw [hread] at hended
        cases hended
        -- the other has failed, and its reason is the reason of this end as well
        have hreason := hwrites.cause cause hcause
        exact sound.gives_up (.inr hstage) e hwritten hshut exchange.troubled hreason

theorem Sound.expire (sound : exchange.Sound serde localHandshake) (side : Side) :
    (exchange.expire side).Sound serde localHandshake := by
  rw [Exchange.expire]
  cases hstage : exchange.stage side with
  | starting =>
      have hgives := sound.gives_up (.inl hstage)
        (.handlerError "handshake write timed out after 10s") rfl rfl true (.inl rfl)
      rwa [setWire_wire] at hgives
  | awaiting =>
      have hwritten : (exchange.wire side.other).dropRead.written =
        (exchange.wire side.other).written := rfl
      exact sound.gives_up (.inr hstage) _ hwritten rfl true (.inl rfl)
  | returned result => exact sound

theorem Sound.fail (sound : exchange.Sound serde localHandshake) (side : Side) (e : MlinkError) :
    (exchange.fail side e).Sound serde localHandshake := by
  rw [Exchange.fail]
  cases hstage : exchange.stage side with
  | starting =>
      have hgives := sound.gives_up (.inl hstage) e rfl rfl true (.inl rfl)
      rwa [setWire_wire] at hgives
  | awaiting =>
      have hgives := sound.gives_up (.inr hstage) e rfl rfl true (.inl rfl)
      rwa [setWire_wire] at hgives
  | returned result => exact sound

theorem Sound.send (sound : exchange.Sound serde localHandshake) (side : Side) (data : Bytes) :
    (exchange.send side data).Sound serde localHandshake := by
  rw [Exchange.send]
  have hwrites := ((sound_iff side).mp sound).1
  cases hstage : exchange.stage side with
  | starting => exact sound
  | awaiting => exact sound
  | returned result =>
      cases result with
      | error e => exact sound
      | ok peerHandshake =>
          apply sound.setWire
          rw [hstage] at hwrites ⊢
          exact hwrites.writerSends data

theorem Sound.close (sound : exchange.Sound serde localHandshake) (side : Side) :
    (exchange.close side).Sound serde localHandshake := by
  rw [Exchange.close]
  have hwrites := ((sound_iff side).mp sound).1
  cases hstage : exchange.stage side with
  | starting => exact sound
  | awaiting => exact sound
  | returned result =>
      apply sound.setWire
      rw [hstage] at hwrites ⊢
      exact hwrites.close

theorem Sound.step (lawful : serde.Lawful) (sound : exchange.Sound serde localHandshake)
    (event : ExchangeEvent) :
    (exchange.step serde localHandshake event).Sound serde localHandshake := by
  cases event with
  | begin side => exact sound.begin side
  | poll side => exact sound.poll lawful side
  | deliver side count => exact sound.setWire ((sound side).deliver count)
  | expire side => exact sound.expire side
  | fail side e => exact sound.fail side e
  | send side data => exact sound.send side data
  | close side => exact sound.close side

/-! ## Whole runs -/

/-- In every run, whatever the order in which the ends and the network take turns: an end
that is content has the other's handshake and has read nothing else; one that waits for a
handshake that was written gets it as soon as it has been delivered; and one that failed
did so because a deadline passed, the connection failed, or one of the two handshakes does
not fit a frame. -/
theorem agreed_of_reachable (lawful : serde.Lawful) {peerId : Side → String}
    (reached : (system serde localHandshake peerId).Reachable exchange) (side : Side) :
    exchange.Agreed serde localHandshake side := by
  have sound : exchange.Sound serde localHandshake := by
    apply reached.invariant fun exchange => exchange.Sound serde localHandshake
    · rintro _ rfl
      exact sound_new peerId
    · rintro source event _ _ hsource rfl
      exact hsource.step lawful event
  have hreads := ((sound_iff side).mp sound).2
  constructor
  · intro hstage hwritten
    have hdelivered := hreads.deliver (exchange.wire side.other).inflight.length
    rw [hstage] at hdelivered
    have hidle : ((exchange.wire side.other).deliver
        (exchange.wire side.other).inflight.length).inflight = [] := List.drop_length
    rw [Exchange.poll, deliver, stage_setWire, hstage, wire_setWire]
    dsimp only
    rcases hread : ((exchange.wire side.other).deliver
        (exchange.wire side.other).inflight.length).read with ⟨polled, wire⟩
    rcases hdelivered.poll with ⟨_, _, hnothing⟩ | ⟨bytes, hframe, hready, _⟩ |
      ⟨_, _, hnothing, _⟩
    · exact absurd (hnothing hidle) hwritten
    · rw [hread] at hready
      cases hready
      simp only [readHandshake_of_frame lawful hframe, stage_setStage]
    · exact absurd hnothing hwritten
  · intro peerHandshake hstage
    obtain ⟨hpeer, lossless, hrest⟩ := hreads.agreed peerHandshake hstage
    exact ⟨hpeer, lossless, hrest⟩
  · exact hreads.cause

/-- With a healthy connection, an end that is content has a channel from the other: what
the other sent in the meantime waits behind the handshake. -/
theorem ReadHandshake.opened {primitives : Primitives} {key : Option Bytes}
    (read : exchange.ReadHandshake serde localHandshake side) {sender receiver : Node}
    {senderId receiverId : String} {accepted : List (MessageType × Bytes)}
    (packed : List.Forall₂ (Channel.Packs primitives key) (exchange.wire side).unread accepted)
    (seals : sender.SealsWith receiverId key) (opens : receiver.OpensWith senderId key)
    (connected : (receiver.connections.lookup senderId).isSome) :
    (Channel.mk sender receiver (exchange.wire side) .watching accepted).Opened primitives
      senderId receiverId key :=
  ⟨read.lossless, packed, rfl, seals, opens, connected⟩

/-- A short name or string of the format. -/
def fixstr (text : String) : Bytes :=
  UInt8.ofNat (0xa0 + text.length) :: text.toList.map fun char => UInt8.ofNat char.toNat

/-- The map of a handshake that names no room, as the library writes it. -/
def shortBytes (appUuid : String) : Bytes :=
  [0x8a] ++ fixstr "app_uuid" ++ fixstr appUuid ++ fixstr "version" ++ [1] ++ fixstr "mtu" ++
    [0xcd, 2, 0] ++ fixstr "compress" ++ [0xc3] ++ fixstr "encrypt" ++ [0xc2] ++
    fixstr "last_seq" ++ [0] ++ fixstr "resume_streams" ++ [0x90] ++ fixstr "room_hash" ++
    [0xc0] ++ fixstr "session_id" ++ [0xc0] ++ fixstr "session_last_seq" ++ [0]

/-- Two nodes in no room. -/
def shortHandshake : Side → WireHandshake
  | .left => (Node.new "a" false []).wireHandshake 512
  | .right => (Node.new "b" false []).wireHandshake 512

/-- The library on the handshakes of these two nodes. -/
def shortSerde : Serde WireHandshake where
  toVec value :=
    if value = shortHandshake .left then .ok (shortBytes "a")
    else if value = shortHandshake .right then .ok (shortBytes "b")
    else .error "invalid value"
  fromSlice bytes :=
    if bytes = shortBytes "a" then .ok (shortHandshake .left)
    else if bytes = shortBytes "b" then .ok (shortHandshake .right)
    else .error "invalid type"

theorem shortSerde_lawful : shortSerde.Lawful where
  fromSlice_of_toVec := by
    intro value bytes hwritten
    have hdistinct : shortBytes "b" ≠ shortBytes "a" := by decide
    simp only [shortSerde] at hwritten ⊢
    split_ifs at hwritten with hleft hright
    · cases hwritten
      rw [if_pos rfl, hleft]
    · cases hwritten
      rw [if_neg hdistinct, if_pos rfl, hright]

/-- Any list of events makes a run. -/
theorem reachable_foldl (peerId : Side → String) (events : List ExchangeEvent) :
    (system serde localHandshake peerId).Reachable
      (events.foldl (step serde localHandshake) (new peerId)) :=
  .run (.init rfl) (.of_foldl (fun _ _ => rfl) _ _)

/-- The right end reads the handshake of the left one, which does not read yet. -/
def greeting : List ExchangeEvent :=
  [.begin .left, .deliver .left 200, .begin .right, .poll .right]

theorem agreed_of_reachable_greeting :
    (greeting.foldl (step shortSerde shortHandshake) (new fun _ => "peer")).Agreed shortSerde
      shortHandshake .right :=
  agreed_of_reachable shortSerde_lawful (reachable_foldl _ _) .right

end Exchange

end Mlink.Core
