/-
# Streams over one connection

One node opens streams to another and writes them chunk by chunk. At the other end the
application takes frames as they come, opens a reader for every stream that is announced
to it, and then takes frames through its readers. Any number of streams may be under way,
with other messages in between, and whoever takes a frame takes it from all the others.

What a reader is to get can be told from the frames that have been accepted: the frames
from the start of its stream on hold what was sent on the stream, as long as no later
stream has its id. This module has the two sides and their accounts, and shows that the
sending side keeps them.
-/

import Mlink.Api.Stream
import Mlink.Api.StreamIds
import Mlink.Core.Node.Channel
import Mlink.Lib.Entries

namespace Mlink.Api

open Mlink.Protocol Mlink.Core Mlink.Transport

/-- The library, with the headers of streams. -/
structure StartCodec extends StreamCodec where
  decodeInfo : Bytes → Result StreamInfo
  decode_of_encodeInfo : ∀ info payload, encodeInfo info = .ok payload →
    decodeInfo payload = .ok info

/-- A stream that is being sent: its writer, how many messages had been accepted when its
start was, and then what its writer was given and what was sent of that. It is sound while
every chunk it was given has been sent or is still to be sent. -/
structure Sending where
  writer : StreamWriter
  start : Nat
  given : Bytes
  sent : List Bytes
  todo : List Bytes
  sound : Bool
  /-- How many messages had been accepted when the writer was finished or dropped. -/
  stop : Option Nat
  /-- The last frame of the stream has been accepted. -/
  ended : Bool

inductive ReadingEnd
  | finished | closed | dropped
  deriving DecidableEq, Repr

/-- A stream that is being read: its reader, how many frames had been taken when its start
was, and the chunks that `next` has returned. -/
structure Receiving where
  reader : StreamReader
  start : Nat
  chunks : List Bytes
  ending : Option ReadingEnd
  /-- Since the start of the stream nobody else has taken a frame. -/
  alone : Bool

/-- Who takes a frame. -/
inductive Taker
  | app
  | reader (index : Nat)
  deriving DecidableEq, Repr

/-- The channel that the streams go through, the counters of the sending process, and who
holds the lock of the connection's reading half. -/
structure StreamLink where
  channel : Channel
  counters : StreamCounters
  sendings : List Sending
  receivings : List Receiving
  holder : Option Taker
  taken : Nat

inductive TransferEvent
  | create (usize : Word) (data : Bytes) (chunkSize : Nat) (first retry : LinkIo)
  | write (index : Nat) (data : Bytes)
  | sendChunk (index : Nat) (first retry : LinkIo)
  | finish (index : Nat) (first retry : LinkIo)
  | dropWriter (index : Nat)
  | drawElsewhere (role : Role)
  | elsewhere (event : ChannelEvent)
  | poll (who : Taker) (now : Instant)
  | dropReader (index : Nat)

namespace Receiving

/-- A frame that somebody else takes is lost to the reader. -/
def passedOver (receiving : Receiving) : Receiving :=
  if receiving.ending.isSome then receiving else { receiving with alone := false }

/-- The reader is dropped. -/
def drop (receiving : Receiving) : Receiving :=
  if receiving.ending.isSome then receiving else { receiving with ending := some .dropped }

/-- The reader takes what arrives; a frame that is not for it leaves it waiting. -/
def take (codec : StreamCodec) (arrival : Result (MessageType × Bytes)) (receiving : Receiving) :
    Receiving :=
  match receiving.reader.next codec [arrival] with
  | none => receiving
  | some (.chunk data _, reader, _) =>
      { receiving with reader := reader, chunks := receiving.chunks ++ [data] }
  | some (.finished, reader, _) => { receiving with reader := reader, ending := some .finished }
  | some (.closed, reader, _) => { receiving with reader := reader, ending := some .closed }

end Receiving

namespace Sending

/-- A stream that has just been announced. -/
def announced (writer : StreamWriter) (accepted : Nat) : Sending :=
  ⟨writer, accepted, [], [], [], true, none, false⟩

/-- The writer is finished or dropped; a write under way is given up. -/
def close (sending : Sending) (accepted : Nat) (ended : Bool) : Sending :=
  { sending with
    todo := []
    sound := sending.sound && sending.todo.isEmpty
    stop := some accepted
    ended := ended }

/-- A write begins; one that is still under way is given up. -/
def write (sending : Sending) (data : Bytes) : Sending :=
  { sending with
    given := sending.given ++ data
    todo := Pieces.chunks sending.writer.chunkSize data
    sound := sending.sound && sending.todo.isEmpty }

end Sending

namespace StreamLink

variable (codec : StartCodec) (primitives : Primitives) (senderId receiverId : String)
  (link : StreamLink)

/-- What `send_raw` returns for a frame. -/
def answers (first retry : LinkIo) (msgType : MessageType) (payload : Bytes) : Result Unit :=
  link.channel.sendResult primitives receiverId msgType payload first retry

/-- The channel once a frame has been handed to `send_raw`, unless it could not be encoded. -/
def handOver (msgType : MessageType) (encoded : Result Bytes) (first retry : LinkIo) : Channel :=
  match encoded with
  | .ok payload => link.channel.send primitives receiverId msgType payload first retry
  | .error _ => link.channel

/-- Open a stream. Without chunks the call fails at once; else it draws an id, and it goes on
unless the arithmetic panics. -/
def create (usize : Word) (data : Bytes) (chunkSize : Nat) (first retry : LinkIo) : StreamLink :=
  if chunkSize = 0 then link
  else
    let (streamId, counters) := link.counters.nextStreamId (negotiateRole senderId receiverId)
    let link := { link with counters := counters }
    match totalChunks usize data chunkSize with
    | none => link
    | some total =>
        let channel := link.handOver primitives receiverId .streamStart
          (codec.encodeInfo ⟨streamId, total, data.length.toUInt64, DEFAULT_CHECKSUM_ALGO⟩)
          first retry
        match createStreamWithChunkSize codec.toStreamCodec
            (link.answers primitives receiverId first retry) usize receiverId streamId data
            chunkSize with
        | some (.ok writer) =>
            { link with
              channel := channel
              sendings := link.sendings ++ [.announced writer channel.accepted.length] }
        | _ => { link with channel := channel }

/-- One turn of the loop over the chunks of a write. -/
def sendChunk (index : Nat) (first retry : LinkIo) : StreamLink :=
  match link.sendings[index]? with
  | none => link
  | some sending =>
      match sending.stop, sending.todo with
      | none, chunk :: rest =>
          let written := sending.writer.writeChunks codec.toStreamCodec
            (link.answers primitives receiverId first retry) [chunk]
          let channel := link.handOver primitives receiverId .streamChunk
            (codec.encodeChunk ⟨sending.writer.streamId, sending.writer.chunkIndex, chunk⟩)
            first retry
          let after := { sending with writer := written.writer }
          { link with
            channel := channel
            sendings := link.sendings.set index <|
              match written.result with
              | .ok () => { after with sent := sending.sent ++ [chunk], todo := rest }
              | .error _ => { after with todo := [], sound := false } }
      | _, _ => link

/-- Finish a writer, which takes it out of its owner's hands whatever comes of it. -/
def finish (index : Nat) (first retry : LinkIo) : StreamLink :=
  match link.sendings[index]? with
  | none => link
  | some sending =>
      if sending.stop.isSome then link
      else
        let channel := link.handOver primitives receiverId .streamEnd
          (codec.encodeEnd ⟨sending.writer.streamId, sending.writer.checksum⟩) first retry
        let ended :=
          match sending.writer.finish codec.toStreamCodec
              (link.answers primitives receiverId first retry) with
          | .ok _ => true
          | .error _ => false
        { link with
          channel := channel
          sendings := link.sendings.set index (sending.close channel.accepted.length ended) }

/-- Change a writer that is neither finished nor dropped. -/
def withWriter (index : Nat) (change : Sending → Sending) : StreamLink :=
  match link.sendings[index]? with
  | none => link
  | some sending =>
      if sending.stop.isSome then link
      else { link with sendings := link.sendings.set index (change sending) }

/-- What is read after a frame, or an error, was handed to the one who took it. -/
def hear (who : Taker) (arrival : Result (MessageType × Bytes)) : List Receiving :=
  match who, arrival with
  | .app, .ok (msgType, payload) =>
      let others := link.receivings.map Receiving.passedOver
      match msgType, codec.decodeInfo payload with
      | .streamStart, .ok info => others ++ [⟨.new senderId info, link.taken + 1, [], none, true⟩]
      | _, _ => others
  | .app, .error _ => link.receivings
  | .reader index, .ok frame =>
      link.receivings.mapIdx fun place receiving =>
        if place = index then receiving.take codec.toStreamCodec (.ok frame)
        else receiving.passedOver
  | .reader index, .error e =>
      link.receivings.modify index (·.take codec.toStreamCodec (.error e))

/-- The one who takes a frame is the application, or a reader whose stream is not over. -/
def mayTake : Taker → Bool
  | .app => true
  | .reader index => (link.receivings[index]?).any fun receiving => receiving.ending.isNone

/-- Poll a call of `recv_raw`. While another call holds the reading half it waits. -/
def poll (who : Taker) (now : Instant) : StreamLink :=
  if link.mayTake who = true ∧ (link.holder = none ∨ link.holder = some who) then
    match link.channel.stream.read with
    | (none, stream) =>
        { link with channel := { link.channel with stream := stream }, holder := some who }
    | (some read, stream) =>
        let (returned, receiver) := link.channel.receiver.recvRaw primitives senderId read now
        { link with
          channel := { link.channel with stream := stream, receiver := receiver }
          receivings := link.hear codec senderId who
            (returned.map fun (frame, payload) => ((decodeFlags frame.flags).2.2, payload))
          holder := none
          taken :=
            match read with
            | .ok _ => link.taken + 1
            | .error _ => link.taken }
  else link

def step : TransferEvent → StreamLink
  | .create usize data chunkSize first retry =>
      link.create codec primitives senderId receiverId usize data chunkSize first retry
  | .write index data => link.withWriter index (·.write data)
  | .sendChunk index first retry => link.sendChunk codec primitives receiverId index first retry
  | .finish index first retry => link.finish codec primitives receiverId index first retry
  | .dropWriter index => link.withWriter index (·.close link.channel.accepted.length false)
  | .drawElsewhere role => { link with counters := (link.counters.nextStreamId role).2 }
  | .elsewhere event =>
      { link with channel := link.channel.step primitives senderId receiverId event }
  | .poll who now => link.poll codec primitives senderId who now
  | .dropReader index =>
      { link with receivings := link.receivings.modify index Receiving.drop }

end StreamLink

/-! ## What frames hold for readers -/

/-- The chunks of a stream among these frames, up to its last frame, and whether that is
among them. -/
def told (codec : StreamCodec) (streamId : UInt16) :
    List (MessageType × Bytes) → List Bytes × Bool
  | [] => ([], false)
  | frame :: rest =>
      match heed codec streamId frame.1 frame.2 with
      | .pass => told codec streamId rest
      | .chunk data => (data :: (told codec streamId rest).1, (told codec streamId rest).2)
      | .finish => ([], true)

section Told

variable {codec : StreamCodec} {streamId : UInt16} {first second : List (MessageType × Bytes)}

/-- What follows the last frame of the stream no longer counts. -/
theorem told_append_of_ended (ended : (told codec streamId first).2 = true) :
    told codec streamId (first ++ second) = told codec streamId first := by
  induction first with
  | nil => cases ended
  | cons frame rest ih =>
      rw [List.cons_append]
      unfold told at ended ⊢
      cases hheed : heed codec streamId frame.1 frame.2 with
      | pass =>
          simp only [hheed] at ended ⊢
          exact ih ended
      | chunk data =>
          simp only [hheed] at ended ⊢
          rw [ih ended]
      | finish => rfl

/-- Before that the chunks add up. -/
theorem told_append (going : (told codec streamId first).2 = false) :
    told codec streamId (first ++ second) =
      ((told codec streamId first).1 ++ (told codec streamId second).1,
        (told codec streamId second).2) := by
  induction first with
  | nil => rfl
  | cons frame rest ih =>
      rw [List.cons_append]
      unfold told at going
      cases hheed : heed codec streamId frame.1 frame.2 with
      | pass =>
          simp only [hheed] at going
          simp only [told, hheed]
          exact ih going
      | chunk data =>
          simp only [hheed] at going
          simp only [told, hheed, ih going, List.cons_append]
      | finish =>
          simp only [hheed] at going
          cases going

/-- More frames hold at least the same chunks. -/
theorem told_prefix : (told codec streamId first).1 <+: (told codec streamId (first ++ second)).1 := by
  cases hended : (told codec streamId first).2 with
  | false =>
      rw [told_append hended]
      exact List.prefix_append _ _
  | true => rw [told_append_of_ended hended]

/-- Frames that are not for the readers of the stream hold nothing. -/
theorem told_of_pass (passes : ∀ frame ∈ first, heed codec streamId frame.1 frame.2 = .pass) :
    told codec streamId first = ([], false) := by
  induction first with
  | nil => rfl
  | cons frame rest ih =>
      rw [told, passes frame List.mem_cons_self]
      exact ih fun later hlater => passes later (List.mem_cons_of_mem frame hlater)

theorem told_append_of_pass
    (passes : ∀ frame ∈ second, heed codec streamId frame.1 frame.2 = .pass) :
    told codec streamId (first ++ second) = told codec streamId first := by
  cases hended : (told codec streamId first).2 with
  | false =>
      rw [told_append hended, told_of_pass passes, List.append_nil, ← hended]
  | true => exact told_append_of_ended hended

/-- Of the frames from the start of a stream on, the first have been taken. -/
theorem drop_eq_append {frames : List (MessageType × Bytes)} {start taken : Nat}
    (hle : start ≤ taken) :
    frames.drop start = (frames.take taken).drop start ++ frames.drop taken := by
  have hrest : frames.drop taken = (frames.drop start).drop (taken - start) := by
    rw [List.drop_drop, Nat.add_sub_cancel' hle]
  rw [List.drop_take, hrest, List.take_append_drop]

/-- Only the readers of its stream take a chunk. -/
theorem heed_chunk_of_ne {msg : StreamChunkMsg} {payload : Bytes}
    (encoded : codec.encodeChunk msg = .ok payload) (other : msg.streamId ≠ streamId) :
    heed codec streamId .streamChunk payload = .pass := by
  simp only [heed, codec.decode_of_encodeChunk msg payload encoded, if_neg other]

theorem heed_end_of_ne {msg : StreamEndMsg} {payload : Bytes}
    (encoded : codec.encodeEnd msg = .ok payload) (other : msg.streamId ≠ streamId) :
    heed codec streamId .streamEnd payload = .pass := by
  simp only [heed, codec.decode_of_encodeEnd msg payload encoded, if_neg other]

/-- Nobody's reader takes a frame of another kind. -/
theorem heed_of_other_kind {msgType : MessageType} (notChunk : msgType ≠ .streamChunk)
    (notEnd : msgType ≠ .streamEnd) (payload : Bytes) :
    heed codec streamId msgType payload = .pass := by
  cases msgType with
  | streamChunk => exact absurd rfl notChunk
  | streamEnd => exact absurd rfl notEnd
  | _ => rfl

end Told

/-! ## What holds between two steps -/

namespace Sending

variable (accepted : Nat) (sending : Sending)

/-- The bookkeeping of one stream, when so many messages have been accepted. -/
structure Sane : Prop where
  started : sending.start ≤ accepted
  stopped : ∀ stop, sending.stop = some stop → sending.start ≤ stop
  closed : sending.ended = true → sending.stop.isSome
  unfinished : sending.writer.finished = false
  idle : sending.stop.isSome → sending.todo = []
  whole : sending.sound = true → sending.sent.flatten ++ sending.todo.flatten = sending.given

/-- The same stream later on. What was sent remains, and nothing is added once the stream
is over or the connection shut. -/
structure Later (shut : Bool) (after : Sending) : Prop where
  streamId : after.writer.streamId = sending.writer.streamId
  totalChunks : after.writer.totalChunks = sending.writer.totalChunks
  start : after.start = sending.start
  sent : sending.sent <+: after.sent
  stop : ∀ stop, sending.stop = some stop → after.stop = some stop
  fixed : shut = true ∨ sending.stop.isSome = true →
    after.sent = sending.sent ∧ after.ended = sending.ended

/-- A stream that is not over has not ended. -/
theorem Sane.going {sending : Sending} {accepted : Nat} (sane : sending.Sane accepted)
    (open_ : sending.stop = none) : sending.ended = false := by
  cases hended : sending.ended with
  | false => rfl
  | true =>
      have hclosed := sane.closed hended
      rw [open_] at hclosed
      cases hclosed

theorem Sane.mono {sending : Sending} {before after : Nat} (sane : sending.Sane before)
    (more : before ≤ after) : sending.Sane after :=
  { sane with started := sane.started.trans more }

theorem Sane.close {sending : Sending} {before accepted : Nat} (sane : sending.Sane before)
    (more : before ≤ accepted) (ended : Bool) : (sending.close accepted ended).Sane accepted where
  started := sane.started.trans more
  stopped := by
    rintro stop ⟨⟩
    exact sane.started.trans more
  closed := fun _ => rfl
  unfinished := sane.unfinished
  idle := fun _ => rfl
  whole := by
    intro hsound
    obtain ⟨hwhole, htodo⟩ := Bool.and_eq_true_iff.mp hsound
    have hsent := sane.whole hwhole
    rwa [List.isEmpty_iff.mp htodo] at hsent

theorem Sane.write {sending : Sending} {accepted : Nat} (sane : sending.Sane accepted)
    (open_ : sending.stop = none) (data : Bytes) : (sending.write data).Sane accepted where
  started := sane.started
  stopped := sane.stopped
  closed := sane.closed
  unfinished := sane.unfinished
  idle := by
    intro hstop
    rw [Sending.write, open_] at hstop
    cases hstop
  whole := by
    intro hsound
    obtain ⟨hwhole, htodo⟩ := Bool.and_eq_true_iff.mp hsound
    have hsent := sane.whole hwhole
    rw [List.isEmpty_iff.mp htodo, List.flatten_nil, List.append_nil] at hsent
    show sending.sent.flatten ++ (Pieces.chunks sending.writer.chunkSize data).flatten = _
    rw [Pieces.flatten_chunks sending.writer.chunkSize_pos, hsent]
    rfl

theorem Later.close {sending : Sending} {shut ended : Bool} (open_ : sending.stop = none)
    (kept : shut = true → ended = sending.ended) (accepted : Nat) :
    sending.Later shut (sending.close accepted ended) where
  streamId := rfl
  totalChunks := rfl
  start := rfl
  sent := List.prefix_refl _
  stop := fun stop hstop => by
    rw [open_] at hstop
    cases hstop
  fixed := by
    rintro (hshut | hstop)
    · exact ⟨rfl, kept hshut⟩
    · rw [open_] at hstop
      cases hstop

theorem Later.refl (shut : Bool) : sending.Later shut sending :=
  ⟨rfl, rfl, rfl, List.prefix_refl _, fun _ hstop => hstop, fun _ => ⟨rfl, rfl⟩⟩

end Sending

namespace Receiving

/-- The reader is one for this stream. -/
structure Reads (receiving : Receiving) (sending : Sending) : Prop where
  streamId : receiving.reader.streamId = sending.writer.streamId
  totalChunks : receiving.reader.totalChunks = sending.writer.totalChunks

theorem Reads.later {receiving : Receiving} {sending next : Sending} {shut : Bool}
    (reads : receiving.Reads sending) (later : sending.Later shut next) :
    receiving.Reads next :=
  ⟨reads.streamId.trans later.streamId.symm, reads.totalChunks.trans later.totalChunks.symm⟩

/-- Progress counts the chunks, as far as it goes. -/
structure Counts (receiving : Receiving) : Prop where
  received : receiving.reader.received.toNat = min receiving.chunks.length 4294967295
  awake : receiving.ending = none → receiving.reader.done = false

theorem Counts.passedOver {receiving : Receiving} (counts : receiving.Counts) :
    receiving.passedOver.Counts := by
  rw [Receiving.passedOver]
  split_ifs
  · exact counts
  · exact ⟨counts.received, counts.awake⟩

/-- What a reader makes of a frame. -/
theorem take_of_heed {codec : StreamCodec} {receiving : Receiving}
    (awake : receiving.reader.done = false) (message : MessageType × Bytes) :
    receiving.take codec (.ok message) =
      match heed codec receiving.reader.streamId message.1 message.2 with
      | .pass => receiving
      | .chunk data =>
          { receiving with
            reader := { receiving.reader with
              received := saturatingSucc receiving.reader.received }
            chunks := receiving.chunks ++ [data] }
      | .finish =>
          { receiving with
            reader := { receiving.reader with done := true }
            ending := some .finished } := by
  rw [take, StreamReader.next, awake]
  cases hheed : heed codec receiving.reader.streamId message.1 message.2 <;>
    simp [StreamReader.await, hheed]

/-- When reading fails the reader is done. -/
theorem take_of_error {codec : StreamCodec} {receiving : Receiving}
    (awake : receiving.reader.done = false) (e : MlinkError) :
    receiving.take codec (.error e) =
      { receiving with
        reader := { receiving.reader with done := true }
        ending := some .closed } := by
  rw [take, StreamReader.next, awake]
  rfl

theorem toNat_saturatingSucc (count : UInt32) :
    (saturatingSucc count).toNat = min (count.toNat + 1) 4294967295 := by
  have hlt := count.toNat_lt
  rw [saturatingSucc]
  split_ifs with hwrap
  · have hzero := congrArg UInt32.toNat hwrap
    rw [UInt32.toNat_add, UInt32.toNat_one, UInt32.toNat_zero] at hzero
    omega
  · have hnonzero : (count + 1).toNat ≠ 0 := fun hzero => hwrap (UInt32.toNat_inj.mp hzero)
    rw [UInt32.toNat_add, UInt32.toNat_one] at hnonzero ⊢
    omega

theorem Counts.take {codec : StreamCodec} {receiving : Receiving} (counts : receiving.Counts)
    (open_ : receiving.ending = none) (arrival : Result (MessageType × Bytes)) :
    (receiving.take codec arrival).Counts := by
  have hawake := counts.awake open_
  cases arrival with
  | error e =>
      rw [take_of_error hawake]
      exact ⟨counts.received, fun hover => by cases hover⟩
  | ok message =>
      rw [take_of_heed hawake]
      split
      · exact counts
      · refine ⟨?_, fun _ => hawake⟩
        dsimp only
        rw [toNat_saturatingSucc, counts.received, List.length_append, List.length_singleton]
        omega
      · exact ⟨counts.received, fun hover => by cases hover⟩

end Receiving

namespace StreamLink

variable (codec : StartCodec) (primitives : Primitives) (senderId receiverId : String)
  (key : Option Bytes) (link : StreamLink)

/-- No later stream has the id of this one. -/
def Latest (index : Nat) (streamId : UInt16) : Prop :=
  ∀ place other, index < place → link.sendings[place]? = some other →
    other.writer.streamId ≠ streamId

/-- No reader takes frames of this id. -/
def Unread (streamId : UInt16) : Prop :=
  ∀ receiving ∈ link.receivings, receiving.reader.streamId = streamId → receiving.ending.isSome

/-- The streams of this id are over, and all of their frames have been taken. -/
def Settled (sending : Sending) : Prop := ∃ stop, sending.stop = some stop ∧ stop ≤ link.taken

/-- The id is free for another stream. -/
def Free (streamId : UInt16) : Prop :=
  (∀ sending ∈ link.sendings, sending.writer.streamId = streamId → link.Settled sending) ∧
    link.Unread streamId

/-- What a reader that took all frames has got. While it reads on, its stream is the latest
of its id and its chunks are those among the frames taken. -/
def Matches (receiving : Receiving) : Prop :=
  match receiving.ending with
  | none =>
      ∃ index sending, link.sendings[index]? = some sending ∧
        link.Latest index sending.writer.streamId ∧ receiving.Reads sending ∧
        receiving.start = sending.start ∧ receiving.start ≤ link.taken ∧
        told codec.toStreamCodec receiving.reader.streamId
          ((link.channel.accepted.take link.taken).drop receiving.start) =
            (receiving.chunks, false)
  | some .finished =>
      ∃ sending ∈ link.sendings, receiving.Reads sending ∧ sending.ended = true ∧
        receiving.chunks = sending.sent
  | some .closed =>
      ∃ sending ∈ link.sendings, receiving.Reads sending ∧
        link.channel.stream.shut = true ∧ receiving.chunks = sending.sent
  | some .dropped =>
      ∃ sending ∈ link.sendings, receiving.Reads sending ∧ receiving.chunks <+: sending.sent

/-- The frame is the announcement of one of the streams. -/
def Announces (position : Nat) (payload : Bytes) : Prop :=
  ∃ (index : Nat) (sending : Sending) (info : StreamInfo),
    link.sendings[index]? = some sending ∧ sending.start = position + 1 ∧
      codec.decodeInfo payload = .ok info ∧ info.streamId = sending.writer.streamId ∧
      info.totalChunks = sending.writer.totalChunks

structure Transfers (skipped : Nat) : Prop where
  carried : link.channel.Carried primitives receiverId key skipped
  opens : link.channel.receiver.OpensWith senderId key
  connected : (link.channel.receiver.connections.lookup senderId).isSome
  counted : link.taken = link.channel.taken skipped
  sane : ∀ sending ∈ link.sendings, sending.Sane link.channel.accepted.length
  tells : ∀ index sending, link.sendings[index]? = some sending →
    link.Latest index sending.writer.streamId →
      told codec.toStreamCodec sending.writer.streamId
        (link.channel.accepted.drop sending.start) = (sending.sent, sending.ended)
  settled : ∀ (index place : Nat) (earlier later : Sending), index < place →
    link.sendings[index]? = some earlier → link.sendings[place]? = some later →
      earlier.writer.streamId = later.writer.streamId → link.Settled earlier
  announced : ∀ position payload,
    link.channel.accepted[position]? = some (.streamStart, payload) →
      link.Announces codec position payload
  matched : ∀ receiving ∈ link.receivings, receiving.alone = true →
    link.Matches codec receiving
  counts : ∀ receiving ∈ link.receivings, receiving.Counts

/-- A step of the sending side: it hands over frames, takes streams further and opens at most
one, under a free id. -/
structure SendsOn (link after : StreamLink) (new : List (MessageType × Bytes)) : Prop where
  receivings : after.receivings = link.receivings
  taken : after.taken = link.taken
  receiver : after.channel.receiver = link.channel.receiver
  returned : after.channel.stream.returned = link.channel.stream.returned
  shut : link.channel.stream.shut = true → after.channel.stream.shut = true
  accepted : after.channel.accepted = link.channel.accepted ++ new
  later : ∀ (index : Nat) sending, link.sendings[index]? = some sending →
    ∃ next, after.sendings[index]? = some next ∧ sending.Later link.channel.stream.shut next
  older : ∀ (index : Nat) next, after.sendings[index]? = some next →
    (∃ sending, link.sendings[index]? = some sending) ∨
      index = link.sendings.length ∧ link.Free next.writer.streamId

/-- The channel after these frames have been accepted. -/
structure Handed (link : StreamLink) (channel : Channel) (new : List (MessageType × Bytes)) : Prop
    where
  receiver : channel.receiver = link.channel.receiver
  returned : channel.stream.returned = link.channel.stream.returned
  shut : link.channel.stream.shut = true → channel.stream.shut = true
  accepted : channel.accepted = link.channel.accepted ++ new

theorem Handed.refl (link : StreamLink) : Handed link link.channel [] :=
  ⟨rfl, rfl, fun hshut => hshut, (List.append_nil _).symm⟩

/-! ## The sending side -/

section Sends

variable {codec : StartCodec} {primitives : Primitives} {senderId receiverId : String}
  {key : Option Bytes} {link after : StreamLink} {new : List (MessageType × Bytes)}
  {skipped : Nat}

/-- A stream of before goes on in its place. -/
theorem SendsOn.later_of_getElem? (sends : SendsOn link after new) {index : Nat}
    {sending next : Sending} (hsending : link.sendings[index]? = some sending)
    (hnext : after.sendings[index]? = some next) :
    sending.Later link.channel.stream.shut next := by
  obtain ⟨found, hfound, hlater⟩ := sends.later index sending hsending
  rw [hnext] at hfound
  cases hfound
  exact hlater

theorem SendsOn.later_of_mem (sends : SendsOn link after new) {sending : Sending}
    (hsending : sending ∈ link.sendings) :
    ∃ next ∈ after.sendings, sending.Later link.channel.stream.shut next := by
  obtain ⟨index, hindex⟩ := List.mem_iff_getElem?.mp hsending
  obtain ⟨next, hnext, hlater⟩ := sends.later index sending hindex
  exact ⟨next, List.mem_of_getElem? hnext, hlater⟩

/-- What a reader has got stays what it is of its stream. -/
theorem SendsOn.matched (sends : SendsOn link after new)
    (short : link.taken ≤ link.channel.accepted.length)
    (sane : ∀ sending ∈ link.sendings, sending.Sane link.channel.accepted.length)
    {receiving : Receiving} (hreceiving : receiving ∈ link.receivings)
    (matched : link.Matches codec receiving) : after.Matches codec receiving := by
  unfold Matches at matched ⊢
  cases hover : receiving.ending with
  | none =>
      rw [hover] at matched
      obtain ⟨index, sending, hsending, hlatest, hreads, hstart, hle, htold⟩ := matched
      obtain ⟨next, hnext, hlater⟩ := sends.later index sending hsending
      refine ⟨index, next, hnext, ?_, hreads.later hlater, hstart.trans hlater.start.symm, ?_, ?_⟩
      · intro place other hplace hother
        rcases sends.older place other hother with ⟨old, hold⟩ | ⟨_, _, hunread⟩
        · rw [(sends.later_of_getElem? hold hother).streamId, hlater.streamId]
          exact hlatest place old hplace hold
        · intro hsame
          have hgone := hunread receiving hreceiving
            (hreads.streamId.trans (hlater.streamId.symm.trans hsame.symm))
          rw [hover] at hgone
          cases hgone
      · rw [sends.taken]
        exact hle
      · rw [sends.taken, sends.accepted, List.take_append_of_le_length short]
        exact htold
  | some ending =>
      cases ending with
      | finished =>
          rw [hover] at matched
          obtain ⟨sending, hsending, hreads, hended, hchunks⟩ := matched
          obtain ⟨next, hnext, hlater⟩ := sends.later_of_mem hsending
          obtain ⟨hsent, hend⟩ := hlater.fixed (.inr ((sane sending hsending).closed hended))
          exact ⟨next, hnext, hreads.later hlater, hend.trans hended, hchunks.trans hsent.symm⟩
      | closed =>
          rw [hover] at matched
          obtain ⟨sending, hsending, hreads, hshut, hchunks⟩ := matched
          obtain ⟨next, hnext, hlater⟩ := sends.later_of_mem hsending
          exact ⟨next, hnext, hreads.later hlater, sends.shut hshut,
            hchunks.trans (hlater.fixed (.inl hshut)).1.symm⟩
      | dropped =>
          rw [hover] at matched
          obtain ⟨sending, hsending, hreads, hchunks⟩ := matched
          obtain ⟨next, hnext, hlater⟩ := sends.later_of_mem hsending
          exact ⟨next, hnext, hreads.later hlater, hchunks.trans hlater.sent⟩

theorem Settled.later {sending next : Sending} {shut : Bool} (settled : link.Settled sending)
    (later : sending.Later shut next) (htaken : after.taken = link.taken) :
    after.Settled next := by
  obtain ⟨stop, hstop, hle⟩ := settled
  exact ⟨stop, later.stop stop hstop, hle.trans_eq htaken.symm⟩

/-- Beside the accounts of its streams a step of the sending side changes nothing. -/
theorem Transfers.sendsOn (transfers : link.Transfers codec primitives senderId receiverId key
      skipped) (sends : SendsOn link after new)
    (carried : after.channel.Carried primitives receiverId key skipped)
    (sane : ∀ sending ∈ after.sendings, sending.Sane after.channel.accepted.length)
    (tells : ∀ index sending, after.sendings[index]? = some sending →
      after.Latest index sending.writer.streamId →
        told codec.toStreamCodec sending.writer.streamId
          (after.channel.accepted.drop sending.start) = (sending.sent, sending.ended))
    (announced : ∀ position payload,
      after.channel.accepted[position]? = some (.streamStart, payload) →
        after.Announces codec position payload) :
    after.Transfers codec primitives senderId receiverId key skipped := by
  have hshort : link.taken ≤ link.channel.accepted.length :=
    transfers.counted.trans_le transfers.carried.taken_le
  refine ⟨carried, ?_, ?_, ?_, sane, tells, ?_, announced, ?_, ?_⟩
  · rw [sends.receiver]
    exact transfers.opens
  · rw [sends.receiver]
    exact transfers.connected
  · rw [sends.taken, transfers.counted, Channel.taken, Channel.taken, sends.returned]
  · intro index place earlier later hlt hearlier hlater hsame
    rcases sends.older index earlier hearlier with ⟨first, hfirst⟩ | ⟨hindex, _⟩
    · have hnext := sends.later_of_getElem? hfirst hearlier
      rcases sends.older place later hlater with ⟨second, hsecond⟩ | ⟨_, hsettled, _⟩
      · have hthen := sends.later_of_getElem? hsecond hlater
        refine Settled.later (transfers.settled index place first second hlt hfirst hsecond ?_)
          hnext sends.taken
        rw [← hnext.streamId, ← hthen.streamId]
        exact hsame
      · refine Settled.later (hsettled first (List.mem_of_getElem? hfirst) ?_) hnext sends.taken
        rw [← hnext.streamId]
        exact hsame
    · rcases sends.older place later hlater with ⟨second, hsecond⟩ | ⟨hplace, _⟩
      · have hbound := (List.getElem?_eq_some_iff.mp hsecond).1
        omega
      · omega
  · intro receiving hreceiving halone
    rw [sends.receivings] at hreceiving
    exact sends.matched hshort transfers.sane hreceiving
      (transfers.matched receiving hreceiving halone)
  · rw [sends.receivings]
    exact transfers.counts

/-- The streams announced are announced still. -/
theorem SendsOn.announces (sends : SendsOn link after new) {position : Nat} {payload : Bytes}
    (announces : link.Announces codec position payload) :
    after.Announces codec position payload := by
  obtain ⟨index, sending, info, hsending, hstart, hinfo, hid, htotal⟩ := announces
  obtain ⟨next, hnext, hlater⟩ := sends.later index sending hsending
  exact ⟨index, next, info, hnext, hlater.start.trans hstart, hinfo,
    hid.trans hlater.streamId.symm, htotal.trans hlater.totalChunks.symm⟩

/-- Frames of other kinds announce nothing. -/
theorem Transfers.announces_of_append
    (transfers : link.Transfers codec primitives senderId receiverId key skipped)
    (sends : SendsOn link after new) (kind : ∀ frame ∈ new, frame.1 ≠ .streamStart)
    {position : Nat} {payload : Bytes}
    (hframe : after.channel.accepted[position]? = some (.streamStart, payload)) :
    after.Announces codec position payload := by
  rw [sends.accepted] at hframe
  by_cases hold : position < link.channel.accepted.length
  · rw [List.getElem?_append_left hold] at hframe
    exact sends.announces (transfers.announced position payload hframe)
  · rw [List.getElem?_append_right (Nat.le_of_not_lt hold)] at hframe
    exact absurd rfl (kind _ (List.mem_of_getElem? hframe))

/-- One stream goes on, and only it has anything in the frames handed over. -/
theorem Transfers.advance
    (transfers : link.Transfers codec primitives senderId receiverId key skipped)
    {index : Nat} {sending next : Sending} {channel : Channel} {added : List Bytes}
    (hsending : link.sendings[index]? = some sending) (going : sending.stop = none)
    (sends : SendsOn link { link with channel, sendings := link.sendings.set index next } new)
    (carried : channel.Carried primitives receiverId key skipped)
    (sane : next.Sane channel.accepted.length)
    (sent : next.sent = sending.sent ++ added)
    (holds : told codec.toStreamCodec sending.writer.streamId new = (added, next.ended))
    (foreign : ∀ frame ∈ new, ∀ streamId ≠ sending.writer.streamId,
      heed codec.toStreamCodec streamId frame.1 frame.2 = .pass)
    (kind : ∀ frame ∈ new, frame.1 ≠ .streamStart) :
    { link with channel, sendings := link.sendings.set index next }.Transfers codec primitives
      senderId receiverId key skipped := by
  have hmem : sending ∈ link.sendings := List.mem_of_getElem? hsending
  have hbound := (List.getElem?_eq_some_iff.mp hsending).1
  have hnext : (link.sendings.set index next)[index]? = some next :=
    List.getElem?_set_self hbound
  have hlater := sends.later_of_getElem? hsending hnext
  have haccepted : channel.accepted = link.channel.accepted ++ new := sends.accepted
  refine transfers.sendsOn sends carried ?_ ?_ fun _ _ => transfers.announces_of_append sends kind
  · intro other hother
    obtain ⟨place, hplace⟩ := List.mem_iff_getElem?.mp hother
    rcases Entries.getElem?_set_cases hplace with ⟨_, rfl⟩ | ⟨_, hold⟩
    · exact sane
    · refine (transfers.sane other (List.mem_of_getElem? hold)).mono ?_
      show _ ≤ channel.accepted.length
      rw [haccepted, List.length_append]
      exact Nat.le_add_right _ _
  · intro place other hplace hlatest
    have hlatestBefore : ∀ old, link.sendings[place]? = some old →
        link.Latest place old.writer.streamId := by
      intro old hold behind found hbehind hfound
      obtain ⟨changed, hchanged, hgone⟩ := sends.later behind found hfound
      rw [← hgone.streamId, ← (sends.later_of_getElem? hold hplace).streamId]
      exact hlatest behind changed hbehind hchanged
    show told _ _ (channel.accepted.drop other.start) = _
    rw [haccepted]
    rcases Entries.getElem?_set_cases hplace with ⟨rfl, rfl⟩ | ⟨hapart, hold⟩
    · have htold := transfers.tells place sending hsending (hlatestBefore sending hsending)
      have hsane := transfers.sane sending hmem
      have hgoing := hsane.going going
      rw [hlater.streamId, hlater.start, List.drop_append_of_le_length hsane.started,
        told_append (by rw [htold, hgoing]), htold, holds, sent]
    · have htold := transfers.tells place other hold (hlatestBefore other hold)
      have hsane := transfers.sane other (List.mem_of_getElem? hold)
      -- two streams with one id are not both the latest, and the earlier one is over
      have hother : other.writer.streamId ≠ sending.writer.streamId := by
        intro hsame
        rcases Nat.lt_or_gt_of_ne hapart with hbefore | hafter
        · exact hlatestBefore other hold index sending hbefore hsending hsame.symm
        · obtain ⟨stop, hstop, _⟩ := transfers.settled index place sending other hafter hsending
            hold hsame.symm
          rw [going] at hstop
          cases hstop
      rw [List.drop_append_of_le_length hsane.started,
        told_append_of_pass fun frame hframe => foreign frame hframe _ hother]
      exact htold

/-- A frame that is handed over is accepted, or nothing is. -/
theorem handOver_cases (carried : link.channel.Carried primitives receiverId key skipped)
    (single : link.channel.sender.sessionIsMultilink receiverId = false) (msgType : MessageType)
    (encoded : Result Bytes) (first retry : LinkIo) :
    (link.handOver primitives receiverId msgType encoded first retry).Carried primitives
        receiverId key skipped ∧
      ((∃ payload, encoded = .ok payload ∧
          link.answers primitives receiverId first retry msgType payload = .ok () ∧
          link.channel.stream.shut = false ∧
          Handed link (link.handOver primitives receiverId msgType encoded first retry)
            [(msgType, payload)]) ∨
        ((∀ payload, encoded = .ok payload →
          ∃ e, link.answers primitives receiverId first retry msgType payload = .error e) ∧
        Handed link (link.handOver primitives receiverId msgType encoded first retry) [])) := by
  cases encoded with
  | error e => exact ⟨carried, .inr ⟨(fun payload hok => by cases hok), .refl link⟩⟩
  | ok payload =>
      obtain ⟨hcarried, offers⟩ := carried.send msgType payload first retry single
      have hshut : link.channel.stream.shut = true →
          (link.channel.send primitives receiverId msgType payload first retry).stream.shut =
            true := by
        rw [offers.shut]
        exact fun hshut => hshut
      refine ⟨hcarried, ?_⟩
      rcases offers.accepted with ⟨hok, hopen, hgrown⟩ | ⟨⟨e, herror⟩, hsame⟩
      · exact .inl ⟨payload, rfl, hok, hopen, offers.receiver, offers.returned, hshut, hgrown⟩
      · refine .inr ⟨?_, offers.receiver, offers.returned, hshut, ?_⟩
        · intro other hother
          cases hother
          exact ⟨e, herror⟩
        · exact hsame.trans (List.append_nil _).symm

theorem Handed.sendsOn_set {channel : Channel} (handed : Handed link channel new) {index : Nat}
    {sending next : Sending} (hsending : link.sendings[index]? = some sending)
    (later : sending.Later link.channel.stream.shut next) :
    SendsOn link { link with channel, sendings := link.sendings.set index next } new where
  receivings := rfl
  taken := rfl
  receiver := handed.receiver
  returned := handed.returned
  shut := handed.shut
  accepted := handed.accepted
  later := by
    intro place other hother
    by_cases hplace : place = index
    · subst hplace
      rw [hsending] at hother
      cases hother
      exact ⟨next, List.getElem?_set_self (List.getElem?_eq_some_iff.mp hsending).1, later⟩
    · exact ⟨other, by rw [List.getElem?_set_ne (Ne.symm hplace), hother], .refl other _⟩
  older := by
    intro place other hother
    rcases Entries.getElem?_set_cases hother with ⟨rfl, _⟩ | ⟨_, hold⟩
    · exact .inl ⟨sending, hsending⟩
    · exact .inl ⟨other, hold⟩

/-- The next chunk of a write is sent, or the write fails. -/
theorem Transfers.sendChunk
    (transfers : link.Transfers codec primitives senderId receiverId key skipped)
    (single : link.channel.sender.sessionIsMultilink receiverId = false) (index : Nat)
    (first retry : LinkIo) :
    (link.sendChunk codec primitives receiverId index first retry).Transfers codec primitives
      senderId receiverId key skipped := by
  unfold StreamLink.sendChunk
  split
  · exact transfers
  · rename_i sending hsending
    split
    · rename_i chunk rest hstop htodo
      have hsane := transfers.sane sending (List.mem_of_getElem? hsending)
      obtain ⟨hcarried, hhanded⟩ := handOver_cases transfers.carried single .streamChunk
        (codec.encodeChunk ⟨sending.writer.streamId, sending.writer.chunkIndex, chunk⟩) first retry
      rcases hhanded with ⟨payload, hencoded, hanswer, hopen, handed⟩ | ⟨hfailed, handed⟩
      · have hheed := heed_chunk hencoded
        simp only [StreamWriter.writeChunks, hencoded, hanswer] at handed hcarried ⊢
        refine transfers.advance hsending hstop
          (handed.sendsOn_set hsending ?_) hcarried ?_ rfl ?_ ?_ ?_
        · exact ⟨rfl, rfl, rfl, List.prefix_append _ _, fun _ hstopped => hstopped,
            fun hfixed => by simp [hopen, hstop] at hfixed⟩
        · refine { hsane with
            started := ?_
            idle := fun hover => by rw [hstop] at hover; cases hover
            whole := fun hsound => ?_ }
          · show sending.start ≤ _
            rw [handed.accepted, List.length_append]
            exact hsane.started.trans (Nat.le_add_right _ _)
          · have hwhole := hsane.whole hsound
            rw [htodo] at hwhole
            simpa using hwhole
        · simp only [told, hheed, hsane.going hstop]
        · rintro frame hframe streamId hother
          rw [List.mem_singleton.mp hframe]
          exact heed_chunk_of_ne hencoded (Ne.symm hother)
        · intro frame hframe
          rw [List.mem_singleton.mp hframe]
          intro hkind
          cases hkind
      · obtain ⟨e, hwritten⟩ : ∃ e, sending.writer.writeChunks codec.toStreamCodec
            (link.answers primitives receiverId first retry) [chunk] =
              ⟨{ sending.writer with
                  checksum := sending.writer.checksum ^^^ xor8Checksum chunk }, [], .error e⟩ := by
          cases hencoded : codec.encodeChunk
              ⟨sending.writer.streamId, sending.writer.chunkIndex, chunk⟩ with
          | error e => exact ⟨e, by simp only [StreamWriter.writeChunks, hencoded]⟩
          | ok payload =>
              obtain ⟨e, hanswer⟩ := hfailed payload hencoded
              exact ⟨e, by simp only [StreamWriter.writeChunks, hencoded, hanswer]⟩
        simp only [hwritten]
        refine transfers.advance hsending hstop (handed.sendsOn_set hsending ?_)
          hcarried ?_ (List.append_nil _).symm ?_ ?_ ?_
        · exact ⟨rfl, rfl, rfl, List.prefix_refl _, fun _ hstopped => hstopped,
            fun _ => ⟨rfl, rfl⟩⟩
        · refine { hsane with
            started := ?_
            idle := fun _ => rfl
            whole := fun hsound => by cases hsound }
          show sending.start ≤ _
          rw [handed.accepted, List.append_nil]
          exact hsane.started
        · exact congrArg (Prod.mk []) (hsane.going hstop).symm
        · intro frame hframe
          cases hframe
        · intro frame hframe
          cases hframe
    · exact transfers

/-- A writer is finished, and the last frame of its stream is accepted or it is not. -/
theorem Transfers.finish
    (transfers : link.Transfers codec primitives senderId receiverId key skipped)
    (single : link.channel.sender.sessionIsMultilink receiverId = false) (index : Nat)
    (first retry : LinkIo) :
    (link.finish codec primitives receiverId index first retry).Transfers codec primitives
      senderId receiverId key skipped := by
  unfold StreamLink.finish
  split
  · exact transfers
  · rename_i sending hsending
    split_ifs with hover
    · exact transfers
    · have hstop : sending.stop = none := Option.not_isSome_iff_eq_none.mp hover
      have hsane := transfers.sane sending (List.mem_of_getElem? hsending)
      obtain ⟨hcarried, hhanded⟩ := handOver_cases transfers.carried single .streamEnd
        (codec.encodeEnd ⟨sending.writer.streamId, sending.writer.checksum⟩) first retry
      rcases hhanded with ⟨payload, hencoded, hanswer, hopen, handed⟩ | ⟨hfailed, handed⟩
      · have hheed := heed_end hencoded
        have hfinish : sending.writer.finish codec.toStreamCodec
            (link.answers primitives receiverId first retry) = .ok [(.streamEnd, payload)] := by
          simp [StreamWriter.finish, hsane.unfinished, hencoded, hanswer, bind, Except.bind,
            pure, Except.pure]
        have hmore : link.channel.accepted.length ≤ (link.handOver primitives receiverId
            .streamEnd (codec.encodeEnd ⟨sending.writer.streamId, sending.writer.checksum⟩)
            first retry).accepted.length := by
          rw [handed.accepted, List.length_append]
          exact Nat.le_add_right _ _
        simp only [hfinish]
        refine transfers.advance hsending hstop (handed.sendsOn_set hsending ?_) hcarried
          (hsane.close hmore true) (List.append_nil _).symm ?_ ?_ ?_
        · exact .close hstop (fun hshut => by simp [hopen] at hshut) _
        · simp only [told, hheed]
          rfl
        · rintro frame hframe streamId hother
          rw [List.mem_singleton.mp hframe]
          exact heed_end_of_ne hencoded (Ne.symm hother)
        · intro frame hframe
          rw [List.mem_singleton.mp hframe]
          intro hkind
          cases hkind
      · obtain ⟨e, hfinish⟩ : ∃ e, sending.writer.finish codec.toStreamCodec
            (link.answers primitives receiverId first retry) = .error e := by
          cases hencoded : codec.encodeEnd
              ⟨sending.writer.streamId, sending.writer.checksum⟩ with
          | error e =>
              refine ⟨e, ?_⟩
              simp [StreamWriter.finish, hsane.unfinished, hencoded, bind, Except.bind]
          | ok payload =>
              obtain ⟨e, hanswer⟩ := hfailed payload hencoded
              refine ⟨e, ?_⟩
              simp [StreamWriter.finish, hsane.unfinished, hencoded, hanswer, bind, Except.bind]
        have hsame : link.channel.accepted.length ≤ (link.handOver primitives receiverId
            .streamEnd (codec.encodeEnd ⟨sending.writer.streamId, sending.writer.checksum⟩)
            first retry).accepted.length := by
          rw [handed.accepted, List.append_nil]
        simp only [hfinish]
        refine transfers.advance hsending hstop (handed.sendsOn_set hsending ?_) hcarried
          (hsane.close hsame false) (List.append_nil _).symm rfl ?_ ?_
        · exact .close hstop (fun _ => (hsane.going hstop).symm) _
        · intro frame hframe
          cases hframe
        · intro frame hframe
          cases hframe

/-- A stream changes, and nothing is handed over. -/
theorem Transfers.withWriter
    (transfers : link.Transfers codec primitives senderId receiverId key skipped) (index : Nat)
    {change : Sending → Sending}
    (later : ∀ sending : Sending, sending.stop = none → sending.ended = false →
      sending.Later link.channel.stream.shut (change sending))
    (sane : ∀ sending : Sending, sending.stop = none →
      sending.Sane link.channel.accepted.length →
        (change sending).Sane link.channel.accepted.length)
    (kept : ∀ sending, sending.ended = false →
      (change sending).sent = sending.sent ∧ (change sending).ended = false) :
    (link.withWriter index change).Transfers codec primitives senderId receiverId key skipped := by
  unfold StreamLink.withWriter
  split
  · exact transfers
  · rename_i sending hsending
    split_ifs with hover
    · exact transfers
    · have hstop : sending.stop = none := Option.not_isSome_iff_eq_none.mp hover
      have hsane := transfers.sane sending (List.mem_of_getElem? hsending)
      have hgoing := hsane.going hstop
      obtain ⟨hsent, hended⟩ := kept sending hgoing
      refine transfers.advance hsending hstop
        ((Handed.refl link).sendsOn_set hsending (later sending hstop hgoing)) transfers.carried
        (sane sending hstop hsane) (hsent.trans (List.append_nil _).symm)
        (congrArg (Prod.mk []) hended.symm) ?_ ?_
      · intro frame hframe
        cases hframe
      · intro frame hframe
        cases hframe

theorem Transfers.write
    (transfers : link.Transfers codec primitives senderId receiverId key skipped) (index : Nat)
    (data : Bytes) :
    (link.withWriter index (·.write data)).Transfers codec primitives senderId receiverId key
      skipped := by
  apply transfers.withWriter index
  · intro sending _ _
    exact ⟨rfl, rfl, rfl, List.prefix_refl _, fun _ hstop => hstop, fun _ => ⟨rfl, rfl⟩⟩
  · intro sending hstop hsane
    exact hsane.write hstop data
  · intro sending hgoing
    exact ⟨rfl, hgoing⟩

theorem Transfers.dropWriter
    (transfers : link.Transfers codec primitives senderId receiverId key skipped) (index : Nat) :
    (link.withWriter index (·.close link.channel.accepted.length false)).Transfers codec
      primitives senderId receiverId key skipped := by
  apply transfers.withWriter index
  · intro sending hstop hgoing
    exact .close hstop (fun _ => hgoing.symm) _
  · intro sending _ hsane
    exact hsane.close (Nat.le_refl _) false
  · intro sending _
    exact ⟨rfl, rfl⟩

/-- Frames that no reader takes go through the channel. -/
theorem Transfers.onChannel
    (transfers : link.Transfers codec primitives senderId receiverId key skipped)
    {channel : Channel} (handed : Handed link channel new)
    (carried : channel.Carried primitives receiverId key skipped)
    (passes : ∀ frame ∈ new, ∀ streamId,
      heed codec.toStreamCodec streamId frame.1 frame.2 = .pass)
    (kind : ∀ frame ∈ new, frame.1 ≠ .streamStart) :
    { link with channel }.Transfers codec primitives senderId receiverId key skipped := by
  have sends : SendsOn link { link with channel } new :=
    { handed with
      receivings := rfl
      taken := rfl
      later := fun index sending hsending => ⟨sending, hsending, .refl sending _⟩
      older := fun index sending hsending => .inl ⟨sending, hsending⟩ }
  have haccepted : channel.accepted = link.channel.accepted ++ new := handed.accepted
  refine transfers.sendsOn sends carried ?_ ?_ fun _ _ => transfers.announces_of_append sends kind
  · intro sending hsending
    refine (transfers.sane sending hsending).mono ?_
    show _ ≤ channel.accepted.length
    rw [haccepted, List.length_append]
    exact Nat.le_add_right _ _
  · intro index sending hsending hlatest
    have hsane := transfers.sane sending (List.mem_of_getElem? hsending)
    show told _ _ (channel.accepted.drop sending.start) = _
    rw [haccepted, List.drop_append_of_le_length hsane.started,
      told_append_of_pass fun frame hframe => passes frame hframe _]
    exact transfers.tells index sending hsending hlatest

/-- A stream is announced under a free id. -/
theorem Transfers.announce
    (transfers : link.Transfers codec primitives senderId receiverId key skipped)
    {channel : Channel} {writer : StreamWriter} {payload : Bytes} {info : StreamInfo}
    (free : link.Free writer.streamId)
    (handed : Handed link channel [(.streamStart, payload)])
    (carried : channel.Carried primitives receiverId key skipped)
    (unfinished : writer.finished = false) (hinfo : codec.decodeInfo payload = .ok info)
    (hid : info.streamId = writer.streamId) (htotal : info.totalChunks = writer.totalChunks) :
    { link with
      channel
      sendings :=
        link.sendings ++ [Sending.announced writer channel.accepted.length] }.Transfers codec
      primitives senderId receiverId key skipped := by
  have sends : SendsOn link { link with
      channel
      sendings := link.sendings ++ [.announced writer channel.accepted.length] }
      [(.streamStart, payload)] :=
    { handed with
      receivings := rfl
      taken := rfl
      later := fun index sending hsending =>
        ⟨sending, Entries.getElem?_concat_of_some hsending _, .refl sending _⟩
      older := fun index sending hsending => by
        rcases Entries.getElem?_concat_cases hsending with hold | ⟨hindex, rfl⟩
        · exact .inl ⟨sending, hold⟩
        · exact .inr ⟨hindex, free⟩ }
  have haccepted : channel.accepted = link.channel.accepted ++ [(.streamStart, payload)] :=
    handed.accepted
  refine transfers.sendsOn sends carried ?_ ?_ ?_
  · intro sending hsending
    rcases List.mem_append.mp hsending with hold | hnew
    · refine (transfers.sane sending hold).mono ?_
      show _ ≤ channel.accepted.length
      rw [haccepted, List.length_append]
      exact Nat.le_add_right _ _
    · cases List.mem_singleton.mp hnew
      exact ⟨Nat.le_refl _, fun _ hstop => (by cases hstop), fun hended => (by cases hended),
        unfinished, fun _ => rfl, fun _ => rfl⟩
  · intro index sending hsending hlatest
    show told _ _ (channel.accepted.drop sending.start) = _
    rcases Entries.getElem?_concat_cases hsending with hold | ⟨_, rfl⟩
    · have hsane := transfers.sane sending (List.mem_of_getElem? hold)
      have hpass : ∀ frame ∈ [(MessageType.streamStart, payload)],
          heed codec.toStreamCodec sending.writer.streamId frame.1 frame.2 = .pass := by
        intro frame hframe
        cases List.mem_singleton.mp hframe
        rfl
      rw [haccepted, List.drop_append_of_le_length hsane.started, told_append_of_pass hpass]
      apply transfers.tells index sending hold
      intro place other hplace hother
      exact hlatest place other hplace (Entries.getElem?_concat_of_some hother _)
    · rw [Sending.announced, List.drop_length]
      rfl
  · intro position found hframe
    have hfound : (link.channel.accepted ++ [(.streamStart, payload)])[position]? =
        some (.streamStart, found) := by
      rw [← haccepted]
      exact hframe
    rcases Entries.getElem?_concat_cases hfound with hold | ⟨hposition, hsame⟩
    · exact sends.announces (transfers.announced position found hold)
    · cases hsame
      refine ⟨link.sendings.length, _, info, List.getElem?_concat_length, ?_, hinfo, hid, htotal⟩
      rw [hposition, Sending.announced, haccepted, List.length_append, List.length_singleton]

/-- A call that opens a stream announces it, or fails. -/
theorem Transfers.create
    (transfers : link.Transfers codec primitives senderId receiverId key skipped)
    (single : link.channel.sender.sessionIsMultilink receiverId = false)
    (free : link.Free (link.counters.nextStreamId (negotiateRole senderId receiverId)).1)
    (usize : Word) (data : Bytes) (chunkSize : Nat) (first retry : LinkIo) :
    (link.create codec primitives senderId receiverId usize data chunkSize first
      retry).Transfers codec primitives senderId receiverId key skipped := by
  unfold StreamLink.create
  split_ifs with hsize
  · exact transfers
  · generalize link.counters.nextStreamId (negotiateRole senderId receiverId) = drawn at free ⊢
    obtain ⟨streamId, counters⟩ := drawn
    dsimp only at free ⊢
    have drawing : { link with counters }.Transfers codec primitives senderId receiverId key
        skipped :=
      ⟨transfers.carried, transfers.opens, transfers.connected, transfers.counted, transfers.sane,
        transfers.tells, transfers.settled, transfers.announced, transfers.matched,
        transfers.counts⟩
    cases htotal : totalChunks usize data chunkSize with
    | none => exact drawing
    | some total =>
        dsimp only
        obtain ⟨hcarried, hhanded⟩ := handOver_cases drawing.carried single .streamStart
          (codec.encodeInfo ⟨streamId, total, data.length.toUInt64, DEFAULT_CHECKSUM_ALGO⟩)
          first retry
        rcases hhanded with ⟨payload, hencoded, hanswer, hopen, handed⟩ | ⟨hfailed, handed⟩
        · have hinfo := codec.decode_of_encodeInfo _ _ hencoded
          simp only [createStreamWithChunkSize, dif_neg hsize, htotal, Option.map_some, hencoded,
            hanswer, bind, Except.bind, pure, Except.pure] at handed hcarried ⊢
          refine drawing.announce ?_ handed hcarried ?_ hinfo ?_ ?_
          · exact free
          · rfl
          · rfl
          · rfl
        · obtain ⟨e, hcreated⟩ : ∃ e, createStreamWithChunkSize codec.toStreamCodec
              ({ link with counters }.answers primitives receiverId first retry) usize receiverId
              streamId data chunkSize = some (.error e) := by
            cases hencoded : codec.encodeInfo
                ⟨streamId, total, data.length.toUInt64, DEFAULT_CHECKSUM_ALGO⟩ with
            | error e =>
                refine ⟨e, ?_⟩
                simp only [createStreamWithChunkSize, dif_neg hsize, htotal, Option.map_some,
                  hencoded, bind, Except.bind]
            | ok payload =>
                obtain ⟨e, hanswer⟩ := hfailed payload hencoded
                refine ⟨e, ?_⟩
                simp only [createStreamWithChunkSize, dif_neg hsize, htotal, Option.map_some,
                  hencoded, hanswer, bind, Except.bind]
          simp only [hcreated]
          apply drawing.onChannel handed hcarried
          · intro frame hframe
            cases hframe
          · intro frame hframe
            cases hframe

end Sends

end StreamLink

end Mlink.Api
