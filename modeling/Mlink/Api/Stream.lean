/-
# Streams of chunks

A writer cuts the bytes it is given into chunks, numbers them, and ends the stream
with a checksum over all of them. The reader takes the chunks of its stream as they
come: it looks neither at their numbers nor at how many there are to be, and not
at the checksum. How messages become payloads is the work of a library.
-/

import Mathlib.Data.List.Forall2
import Mlink.Lib.Pieces
import Mlink.Lib.Word
import Mlink.Protocol.Types

namespace Mlink.Api

open Mlink.Protocol

def DEFAULT_CHECKSUM_ALGO : String := "xor8"

structure StreamInfo where
  streamId : UInt16
  totalChunks : UInt32
  totalSize : UInt64
  checksumAlgo : String
  deriving DecidableEq, Repr

structure StreamChunkMsg where
  streamId : UInt16
  chunkIndex : UInt32
  data : Bytes
  deriving DecidableEq, Repr

structure StreamEndMsg where
  streamId : UInt16
  checksum : UInt8
  deriving DecidableEq, Repr

/-- The library: what it has encoded it decodes to what it was. -/
structure StreamCodec where
  encodeInfo : StreamInfo → Result Bytes
  encodeChunk : StreamChunkMsg → Result Bytes
  decodeChunk : Bytes → Result StreamChunkMsg
  encodeEnd : StreamEndMsg → Result Bytes
  decodeEnd : Bytes → Result StreamEndMsg
  decode_of_encodeChunk : ∀ msg payload, encodeChunk msg = .ok payload →
    decodeChunk payload = .ok msg
  decode_of_encodeEnd : ∀ msg payload, encodeEnd msg = .ok payload → decodeEnd payload = .ok msg

def xor8Checksum (data : Bytes) : UInt8 := data.foldl (fun checksum byte => checksum ^^^ byte) 0

/-- One more, up to the largest number. -/
def saturatingSucc (count : UInt32) : UInt32 := if count + 1 = 0 then count else count + 1

/-! ## Writing -/

/-- A writer; chunks are never empty. -/
structure StreamWriter where
  peerId : String
  streamId : UInt16
  chunkSize : Nat
  chunkSize_pos : 0 < chunkSize
  chunkIndex : UInt32
  totalChunks : UInt32
  checksum : UInt8
  finished : Bool

/-- What a call of a writer leaves and returns, and the payloads that the node has
taken for it. -/
structure Written where
  writer : StreamWriter
  sent : List (MessageType × Bytes)
  result : Result Unit

/-- A stream that has been written and finished: its chunk frames and the last one. -/
structure Streamed where
  chunks : List (MessageType × Bytes)
  last : List (MessageType × Bytes)
  deriving DecidableEq, Repr

section Writing

variable (codec : StreamCodec) (sendRaw : MessageType → Bytes → Result Unit)

/-- The number of chunks, rounded up in the arithmetic of the machine. -/
def totalChunks (usize : Word) (data : Bytes) (chunkSize : Nat) : Option UInt32 :=
  if data = [] then some 0
  else do
    let sum ← usize.add data.length chunkSize
    let last ← usize.sub sum 1
    return (last / chunkSize).toUInt32

/-- Announce a stream and open its writer, if the arithmetic does not panic. The id is
drawn from one of two counters. -/
def createStreamWithChunkSize (usize : Word) (peerId : String) (streamId : UInt16) (data : Bytes)
    (chunkSize : Nat) : Option (Result StreamWriter) :=
  if hsize : chunkSize = 0 then some (.error (.handlerError "chunk_size must be > 0"))
  else (totalChunks usize data chunkSize).map fun totalChunks => do
    let payload ← codec.encodeInfo
      ⟨streamId, totalChunks, data.length.toUInt64, DEFAULT_CHECKSUM_ALGO⟩
    sendRaw .streamStart payload
    return ⟨peerId, streamId, chunkSize, Nat.pos_of_ne_zero hsize, 0, totalChunks, 0, false⟩

namespace StreamWriter

/-- Send chunks until one cannot be sent. -/
def writeChunks (writer : StreamWriter) : List Bytes → Written
  | [] => ⟨writer, [], .ok ()⟩
  | chunk :: rest =>
      let writer := { writer with checksum := writer.checksum ^^^ xor8Checksum chunk }
      match codec.encodeChunk ⟨writer.streamId, writer.chunkIndex, chunk⟩ with
      | .error e => ⟨writer, [], .error e⟩
      | .ok payload =>
          match sendRaw .streamChunk payload with
          | .error e => ⟨writer, [], .error e⟩
          | .ok () =>
              let later := writeChunks
                { writer with chunkIndex := saturatingSucc writer.chunkIndex } rest
              { later with sent := (.streamChunk, payload) :: later.sent }

def write (writer : StreamWriter) (data : Bytes) : Written :=
  if writer.finished then ⟨writer, [], .error (.handlerError "stream already finished")⟩
  else writer.writeChunks codec sendRaw (Pieces.chunks writer.chunkSize data)

/-- Several writes, until one fails. -/
def writeAll (writer : StreamWriter) : List Bytes → Written
  | [] => ⟨writer, [], .ok ()⟩
  | data :: rest =>
      let written := writer.write codec sendRaw data
      match written.result with
      | .error _ => written
      | .ok () =>
          let later := writeAll written.writer rest
          { later with sent := written.sent ++ later.sent }

/-- Send the checksum. A finished writer has done so. -/
def finish (writer : StreamWriter) : Result (List (MessageType × Bytes)) :=
  if writer.finished then .ok []
  else do
    let payload ← codec.encodeEnd ⟨writer.streamId, writer.checksum⟩
    sendRaw .streamEnd payload
    return [(.streamEnd, payload)]

/-- Write everything and finish. -/
def stream (writer : StreamWriter) (writes : List Bytes) : Result Streamed :=
  let written := writer.writeAll codec sendRaw writes
  match written.result with
  | .error e => .error e
  | .ok () => (written.writer.finish codec sendRaw).map fun last => ⟨written.sent, last⟩

end StreamWriter

end Writing

/-! ## Reading -/

structure StreamReader where
  peerId : String
  streamId : UInt16
  totalChunks : UInt32
  received : UInt32
  done : Bool
  deriving DecidableEq, Repr

/-- How far a reader has got; the percentage follows from it. -/
structure Progress where
  received : UInt32
  total : UInt32
  deriving DecidableEq, Repr

/-- What a frame is to the reader of a stream. -/
inductive Heed
  | pass
  | chunk (data : Bytes)
  | finish
  deriving DecidableEq, Repr

/-- What a call of `next` returns. After the last frame of the stream, and once
reading has failed, there is no more. -/
inductive Next
  | chunk (data : Bytes) (progress : Progress)
  | finished
  | closed
  deriving DecidableEq, Repr

/-- A frame of another kind, of another stream or without meaning is passed over. -/
def heed (codec : StreamCodec) (streamId : UInt16) (msgType : MessageType) (payload : Bytes) :
    Heed :=
  match msgType with
  | .streamChunk =>
      match codec.decodeChunk payload with
      | .ok msg => if msg.streamId = streamId then .chunk msg.data else .pass
      | .error _ => .pass
  | .streamEnd =>
      match codec.decodeEnd payload with
      | .ok msg => if msg.streamId = streamId then .finish else .pass
      | .error _ => .pass
  | _ => .pass

namespace StreamReader

def new (peerId : String) (info : StreamInfo) : StreamReader :=
  ⟨peerId, info.streamId, info.totalChunks, 0, false⟩

variable (codec : StreamCodec) (reader : StreamReader)

/-- Take what arrives up to the next frame of the stream. Without one the call
waits. -/
def await : List (Result (MessageType × Bytes)) →
    Option (Next × StreamReader × List (Result (MessageType × Bytes)))
  | [] => none
  | .error _ :: rest => some (.closed, { reader with done := true }, rest)
  | .ok (msgType, payload) :: rest =>
      match heed codec reader.streamId msgType payload with
      | .pass => await rest
      | .chunk data =>
          let received := saturatingSucc reader.received
          some (.chunk data ⟨received, reader.totalChunks⟩, { reader with received }, rest)
      | .finish => some (.finished, { reader with done := true }, rest)

def next (arrivals : List (Result (MessageType × Bytes))) :
    Option (Next × StreamReader × List (Result (MessageType × Bytes))) :=
  if reader.done then some (.closed, reader, arrivals) else reader.await codec arrivals

/-- The chunks of that many calls of `next`, and whether the last of them has met
the end of the stream. -/
def readAll : Nat → StreamReader → List (Result (MessageType × Bytes)) → List Bytes × Bool
  | 0, _, _ => ([], false)
  | calls + 1, reader, arrivals =>
      match reader.next codec arrivals with
      | none => ([], false)
      | some (.closed, _, _) => ([], false)
      | some (.finished, _, _) => ([], true)
      | some (.chunk data _, after, rest) =>
          let later := readAll calls after rest
          (data :: later.1, later.2)

end StreamReader

/-! ## What is sent -/

/-- The frame carries the chunk to readers of the stream. -/
def Carries (codec : StreamCodec) (streamId : UInt16) (frame : MessageType × Bytes)
    (chunk : Bytes) : Prop :=
  heed codec streamId frame.1 frame.2 = .chunk chunk

variable {codec : StreamCodec} {sendRaw : MessageType → Bytes → Result Unit}
  {writer : StreamWriter}

/-- The same stream, with chunks of the same size, still open. -/
structure SameStream (writer after : StreamWriter) : Prop where
  streamId : after.streamId = writer.streamId
  chunkSize : after.chunkSize = writer.chunkSize
  finished : after.finished = writer.finished

theorem SameStream.trans {first second third : StreamWriter} (hfirst : SameStream first second)
    (hsecond : SameStream second third) : SameStream first third :=
  ⟨hsecond.streamId.trans hfirst.streamId, hsecond.chunkSize.trans hfirst.chunkSize,
    hsecond.finished.trans hfirst.finished⟩

theorem heed_chunk {msg : StreamChunkMsg} {payload : Bytes}
    (encoded : codec.encodeChunk msg = .ok payload) :
    heed codec msg.streamId .streamChunk payload = .chunk msg.data := by
  simp only [heed, codec.decode_of_encodeChunk msg payload encoded, if_true]

theorem heed_end {msg : StreamEndMsg} {payload : Bytes}
    (encoded : codec.encodeEnd msg = .ok payload) :
    heed codec msg.streamId .streamEnd payload = .finish := by
  simp only [heed, codec.decode_of_encodeEnd msg payload encoded, if_true]

/-- Chunks that have been sent are carried by the frames, one by one. -/
theorem writeChunks_spec {chunks : List Bytes}
    (sent : (writer.writeChunks codec sendRaw chunks).result = .ok ()) :
    SameStream writer (writer.writeChunks codec sendRaw chunks).writer ∧
      List.Forall₂ (Carries codec writer.streamId)
        (writer.writeChunks codec sendRaw chunks).sent chunks := by
  induction chunks generalizing writer with
  | nil => exact ⟨⟨rfl, rfl, rfl⟩, .nil⟩
  | cons chunk rest ih =>
      simp only [StreamWriter.writeChunks] at sent ⊢
      cases hencoded : codec.encodeChunk ⟨writer.streamId, writer.chunkIndex, chunk⟩ with
      | error e =>
          rw [hencoded] at sent
          cases sent
      | ok payload =>
          rw [hencoded] at sent
          dsimp only at sent ⊢
          cases htaken : sendRaw .streamChunk payload with
          | error e =>
              rw [htaken] at sent
              cases sent
          | ok _ =>
              rw [htaken] at sent
              obtain ⟨hsame, hcarried⟩ := ih sent
              exact ⟨⟨hsame.streamId, hsame.chunkSize, hsame.finished⟩,
                .cons (heed_chunk hencoded) hcarried⟩

/-- Writes that have been sent are carried, cut into their pieces. -/
theorem writeAll_spec {writes : List Bytes}
    (sent : (writer.writeAll codec sendRaw writes).result = .ok ()) :
    SameStream writer (writer.writeAll codec sendRaw writes).writer ∧
      List.Forall₂ (Carries codec writer.streamId)
        (writer.writeAll codec sendRaw writes).sent
        (writes.flatMap (Pieces.chunks writer.chunkSize)) := by
  induction writes generalizing writer with
  | nil => exact ⟨⟨rfl, rfl, rfl⟩, .nil⟩
  | cons data rest ih =>
      simp only [StreamWriter.writeAll] at sent ⊢
      cases hwritten : (writer.write codec sendRaw data).result with
      | error e =>
          rw [hwritten] at sent
          dsimp only at sent
          rw [hwritten] at sent
          cases sent
      | ok _ =>
          rw [hwritten] at sent
          dsimp only at sent ⊢
          have hopen : writer.finished = false := by
            cases hfinished : writer.finished with
            | false => rfl
            | true => simp [StreamWriter.write, hfinished] at hwritten
          have hwrite : writer.write codec sendRaw data = writer.writeChunks codec sendRaw
              (Pieces.chunks writer.chunkSize data) := by
            simp [StreamWriter.write, hopen]
          rw [hwrite] at hwritten sent ⊢
          obtain ⟨hsame, hcarried⟩ := writeChunks_spec hwritten
          obtain ⟨hlater, hrest⟩ := ih sent
          rw [hsame.streamId, hsame.chunkSize] at hrest
          exact ⟨hsame.trans hlater, List.rel_append hcarried hrest⟩

/-- A stream that has been written out carries the pieces of its writes, and the
last frame ends it. -/
theorem stream_spec (unfinished : writer.finished = false) {writes : List Bytes}
    {streamed : Streamed} (written : writer.stream codec sendRaw writes = .ok streamed) :
    List.Forall₂ (Carries codec writer.streamId) streamed.chunks
        (writes.flatMap (Pieces.chunks writer.chunkSize)) ∧
      ∃ payload, streamed.last = [(.streamEnd, payload)] ∧
        heed codec writer.streamId .streamEnd payload = .finish := by
  simp only [StreamWriter.stream] at written
  cases hresult : (writer.writeAll codec sendRaw writes).result with
  | error e =>
      rw [hresult] at written
      cases written
  | ok _ =>
      rw [hresult] at written
      obtain ⟨hsame, hcarried⟩ := writeAll_spec hresult
      generalize (writer.writeAll codec sendRaw writes).writer = after at hsame written
      dsimp only at written
      rw [StreamWriter.finish, hsame.finished, unfinished] at written
      simp only [Bool.false_eq_true, if_false] at written
      cases hencoded : codec.encodeEnd ⟨after.streamId, after.checksum⟩ with
      | error e =>
          rw [hencoded] at written
          cases written
      | ok payload =>
          cases htaken : sendRaw .streamEnd payload with
          | error e =>
              rw [hencoded] at written
              simp [bind, Except.bind, Except.map, htaken] at written
          | ok _ =>
              rw [hencoded] at written
              simp only [bind, Except.bind, htaken, pure, Except.pure, Except.map,
                Except.ok.injEq] at written
              rw [← written]
              exact ⟨hcarried, payload, rfl, hsame.streamId ▸ heed_end hencoded⟩

/-! ## What arrives -/

/-- One arrival before the last frame of a stream: one of its chunk frames, or a frame
that is none of the stream's. -/
inductive Delivered (codec : StreamCodec) (streamId : UInt16) (count : Nat)
  | chunk (index : Fin count)
  | other (msgType : MessageType) (payload : Bytes)
      (foreign : heed codec streamId msgType payload = .pass)

namespace Delivered

variable {streamId : UInt16} {count : Nat}

/-- The place of a chunk frame in the stream. -/
def index? : Delivered codec streamId count → Option Nat
  | chunk index => some index
  | other _ _ _ => none

/-- The frame that arrives. -/
def arrival (streamed : Streamed) :
    Delivered codec streamId count → Option (Result (MessageType × Bytes))
  | chunk index => streamed.chunks[index.val]?.map .ok
  | other msgType payload _ => some (.ok (msgType, payload))

/-- What the reader takes from it. -/
def taken (pieces : List Bytes) : Delivered codec streamId count → Option Bytes
  | chunk index => pieces[index.val]?
  | other _ _ _ => none

end Delivered

/-- The places of the chunk frames in the order in which they arrive. -/
def places {streamId : UInt16} {count : Nat} (order : List (Delivered codec streamId count)) :
    List Nat :=
  order.filterMap Delivered.index?

/-- Everything that arrives: the given frames, and then the last one. -/
def Streamed.arrivals (streamed : Streamed) {streamId : UInt16} {count : Nat}
    (order : List (Delivered codec streamId count)) : List (Result (MessageType × Bytes)) :=
  order.filterMap (Delivered.arrival streamed) ++ streamed.last.map .ok

/-- How many chunks writes of these lengths make. -/
def StreamWriter.chunkCount (writer : StreamWriter) (lengths : List Nat) : Nat :=
  (Pieces.allLengths writer.chunkSize lengths).length

/-- If the reader ends on the last frame of the stream, its chunks make up what was
written. -/
def Intact (codec : StreamCodec) (info : StreamInfo) (peerId : String)
    (arrivals : List (Result (MessageType × Bytes))) (writes : List Bytes) : Prop :=
  let read := StreamReader.readAll codec (arrivals.length + 1) (.new peerId info) arrivals
  read.2 = true → read.1.flatten = writes.flatten

section Reading

variable {reader : StreamReader} {msgType : MessageType} {payload data : Bytes}
  {rest : List (Result (MessageType × Bytes))}

/-- A frame that is passed over does not end a call. -/
theorem next_of_pass (reading : reader.done = false)
    (passed : heed codec reader.streamId msgType payload = .pass) :
    reader.next codec (.ok (msgType, payload) :: rest) = reader.next codec rest := by
  simp [StreamReader.next, reading, StreamReader.await, passed]

theorem next_of_chunk (reading : reader.done = false)
    (heeded : heed codec reader.streamId msgType payload = .chunk data) :
    reader.next codec (.ok (msgType, payload) :: rest) =
      some (.chunk data ⟨saturatingSucc reader.received, reader.totalChunks⟩,
        { reader with received := saturatingSucc reader.received }, rest) := by
  simp [StreamReader.next, reading, StreamReader.await, heeded]

theorem next_of_finish (reading : reader.done = false)
    (heeded : heed codec reader.streamId msgType payload = .finish) :
    reader.next codec (.ok (msgType, payload) :: rest) =
      some (.finished, { reader with done := true }, rest) := by
  simp [StreamReader.next, reading, StreamReader.await, heeded]

variable {streamId : UInt16} {count : Nat} {streamed : Streamed} {pieces : List Bytes}

/-- The reader takes the chunks as they arrive, and ends on the last frame. -/
theorem readAll_arrivals {order : List (Delivered codec streamId count)}
    (carried : List.Forall₂ (Carries codec streamId) streamed.chunks pieces)
    (complete : pieces.length = count) {last : Bytes}
    (hlast : streamed.last = [(.streamEnd, last)])
    (ends : heed codec streamId .streamEnd last = .finish)
    (same : reader.streamId = streamId) (reading : reader.done = false) {calls : Nat}
    (enough : order.length < calls) :
    StreamReader.readAll codec calls reader (streamed.arrivals order) =
      (order.filterMap (Delivered.taken pieces), true) := by
  induction order generalizing reader calls with
  | nil =>
      cases calls with
      | zero => cases enough
      | succ calls =>
          have harrivals : streamed.arrivals ([] : List (Delivered codec streamId count)) =
              [.ok (.streamEnd, last)] := by
            rw [Streamed.arrivals, hlast]
            rfl
          rw [harrivals, StreamReader.readAll, next_of_finish reading (same ▸ ends)]
          rfl
  | cons first rest ih =>
      cases first with
      | other msgType payload foreign =>
          cases calls with
          | zero => cases enough
          | succ calls =>
              have hrest := ih same reading (Nat.lt_of_succ_lt enough)
              rw [StreamReader.readAll] at hrest
              show StreamReader.readAll codec (calls + 1) reader
                (.ok (msgType, payload) :: streamed.arrivals rest) = _
              rw [StreamReader.readAll, next_of_pass reading (same ▸ foreign)]
              exact hrest
      | chunk index =>
          cases calls with
          | zero => cases enough
          | succ calls =>
              have hbound : index.val < pieces.length := complete ▸ index.isLt
              have hframes : index.val < streamed.chunks.length := carried.length_eq ▸ hbound
              have hcarries : Carries codec streamId streamed.chunks[index.val]
                  pieces[index.val] := carried.get hframes hbound
              have harrivals : streamed.arrivals (.chunk index :: rest) =
                  .ok streamed.chunks[index.val] :: streamed.arrivals rest := by
                simp [Streamed.arrivals, Delivered.arrival, hframes]
              have htaken : (Delivered.chunk index :: rest).filterMap (Delivered.taken pieces) =
                  pieces[index.val] :: rest.filterMap (Delivered.taken pieces) := by
                simp [Delivered.taken, hbound]
              let counted : StreamReader :=
                { reader with received := saturatingSucc reader.received }
              have hsame : counted.streamId = streamId := same
              have hreading : counted.done = false := reading
              have hlater := ih hsame hreading (Nat.lt_of_succ_lt_succ enough)
              rw [harrivals, htaken, StreamReader.readAll, next_of_chunk reading (same ▸ hcarries)]
              show (_ :: (StreamReader.readAll codec calls counted _).1,
                (StreamReader.readAll codec calls counted _).2) = _
              rw [hlater]

/-- The chunks that the reader takes are assembled in the order of their places. -/
theorem flatten_taken (order : List (Delivered codec streamId count)) :
    (order.filterMap (Delivered.taken pieces)).flatten =
      Pieces.assembled pieces (places order) := by
  induction order with
  | nil => rfl
  | cons first rest ih =>
      cases first with
      | other msgType payload foreign => exact ih
      | chunk index =>
          have hplaces : places (.chunk index :: rest) = index.val :: places rest := rfl
          rw [hplaces, Pieces.assembled_cons, ← ih]
          cases hpiece : pieces[index.val]? with
          | none => simp [Delivered.taken, hpiece]
          | some piece => simp [Delivered.taken, hpiece]

/-- Everything in the order arrives, and then the last frame. -/
theorem lt_length_arrivals {order : List (Delivered codec streamId count)}
    (complete : streamed.chunks.length = count) :
    order.length < (streamed.arrivals order).length + 1 := by
  have hall : (order.filterMap (Delivered.arrival streamed)).length = order.length := by
    rw [List.filterMap_length_eq_length]
    intro delivered _
    cases delivered with
    | other msgType payload foreign => rfl
    | chunk index => simp [Delivered.arrival, complete]
  rw [Streamed.arrivals, List.length_append, hall]
  omega

/-- A stream arrives intact exactly when its chunks assemble to what was written. -/
theorem intact_iff_assembled {info : StreamInfo} {peerId : String} {writes : List Bytes}
    {writer : StreamWriter} {sendRaw : MessageType → Bytes → Result Unit}
    (unfinished : writer.finished = false) (same : info.streamId = writer.streamId)
    (written : writer.stream codec sendRaw writes = .ok streamed)
    (counted : (writes.flatMap (Pieces.chunks writer.chunkSize)).length = count)
    (order : List (Delivered codec writer.streamId count)) :
    Intact codec info peerId (streamed.arrivals order) writes ↔
      Pieces.assembled (writes.flatMap (Pieces.chunks writer.chunkSize)) (places order) =
        (writes.flatMap (Pieces.chunks writer.chunkSize)).flatten := by
  obtain ⟨hcarried, last, hlast, hends⟩ := stream_spec unfinished written
  have hread : StreamReader.readAll codec ((streamed.arrivals order).length + 1)
      (.new peerId info) (streamed.arrivals order) =
        (order.filterMap (Delivered.taken (writes.flatMap (Pieces.chunks writer.chunkSize))),
          true) :=
    readAll_arrivals hcarried counted hlast hends same rfl
      (lt_length_arrivals (hcarried.length_eq.trans counted))
  rw [Intact, hread, flatten_taken, Pieces.flatten_flatMap_chunks writer.chunkSize_pos]
  simp

/-- However the chunk frames of writes of given lengths are lost, repeated and
reordered, the reader yields every such writes exactly when each frame arrives once
and in order. -/
theorem intact_iff {codec : StreamCodec} {sendRaw : MessageType → Bytes → Result Unit}
    {writer : StreamWriter} {lengths : List Nat} {info : StreamInfo} (peerId : String)
    (unfinished : writer.finished = false) (same : info.streamId = writer.streamId)
    (writable : ∀ writes : List Bytes, writes.map List.length = lengths →
      ∃ streamed, writer.stream codec sendRaw writes = .ok streamed)
    (order : List (Delivered codec writer.streamId (writer.chunkCount lengths))) :
    (∀ writes streamed, writes.map List.length = lengths →
        writer.stream codec sendRaw writes = .ok streamed →
        Intact codec info peerId (streamed.arrivals order) writes) ↔
      places order = List.range (writer.chunkCount lengths) := by
  have hcount : ∀ writes : List Bytes, writes.map List.length = lengths →
      (writes.flatMap (Pieces.chunks writer.chunkSize)).length = writer.chunkCount lengths := by
    intro writes hlengths
    rw [StreamWriter.chunkCount, ← hlengths, ← Pieces.map_length_flatMap_chunks,
      List.length_map]
  have hvalid : ∀ index ∈ places order,
      index < (Pieces.allLengths writer.chunkSize lengths).length := by
    intro index hindex
    obtain ⟨delivered, _, hplace⟩ := List.mem_filterMap.mp hindex
    cases delivered with
    | other msgType payload foreign => cases hplace
    | chunk index =>
        cases hplace
        exact index.isLt
  have hbytes : Nontrivial UInt8 := ⟨0, 1, by decide⟩
  have hassembled := Pieces.assembled_iff_range (α := UInt8)
    (Pieces.pos_of_mem_allLengths writer.chunkSize_pos lengths) hvalid
  refine Iff.trans ?_ hassembled
  constructor
  · intro intact pieces hpieces
    obtain ⟨writes, hlengths, rfl⟩ := Pieces.exists_flatMap_chunks writer.chunkSize_pos hpieces
    obtain ⟨streamed, hwritten⟩ := writable writes hlengths
    exact (intact_iff_assembled unfinished same hwritten (hcount writes hlengths) order).mp
      (intact writes streamed hlengths hwritten)
  · intro assembled writes streamed hlengths hwritten
    apply (intact_iff_assembled unfinished same hwritten (hcount writes hlengths) order).mpr
    apply assembled
    rw [Pieces.map_length_flatMap_chunks, hlengths]

end Reading

/-! ## Two chunks of one byte -/

/-- A field name of less than 32 ASCII characters in MessagePack. -/
def packName (name : String) : Bytes :=
  (0xa0 + name.length.toUInt8) :: name.toList.map fun char => char.toNat.toUInt8

/-- Bytes as the numbers of an array, without its header. -/
def packBytes (data : Bytes) : Bytes :=
  data.flatMap fun byte => if byte < 128 then [byte] else [0xcc, byte]

/-- Read the numbers of an array; after its marker a number is a whole byte. -/
def unpackFrom (marked : Bool) : Bytes → Option Bytes
  | [] => if marked then none else some []
  | byte :: rest =>
      if marked || byte < 128 then (unpackFrom false rest).map (byte :: ·)
      else unpackFrom true rest

theorem unpackFrom_packBytes (data : Bytes) : unpackFrom false (packBytes data) = some data := by
  induction data with
  | nil => rfl
  | cons byte rest ih =>
      rw [packBytes, List.flatMap_cons]
      by_cases hsmall : byte < 128
      · rw [if_pos hsmall, List.singleton_append, unpackFrom]
        simp only [hsmall, decide_true, Bool.or_true, if_true]
        exact congrArg (Option.map (byte :: ·)) ih
      · rw [if_neg hsmall, List.cons_append, List.singleton_append, unpackFrom, unpackFrom]
        exact congrArg (Option.map (byte :: ·)) ih

/-- The message as a map with its field names, where the numbers take one byte. -/
def packChunk (msg : StreamChunkMsg) : Option Bytes :=
  if msg.streamId < 128 ∧ msg.chunkIndex < 128 ∧ msg.data.length < 16 then
    some (0x83 :: packName "stream_id" ++ [msg.streamId.toUInt8] ++ packName "chunk_index" ++
      [msg.chunkIndex.toUInt8] ++ packName "data" ++ [0x90 + msg.data.length.toUInt8] ++
      packBytes msg.data)
  else none

def packEnd (msg : StreamEndMsg) : Option Bytes :=
  if msg.streamId < 128 then
    some (0x82 :: packName "stream_id" ++ [msg.streamId.toUInt8] ++ packName "checksum" ++
      packBytes [msg.checksum])
  else none

/-- Read the fields where they are written, and check that they are. -/
def unpackChunk (payload : Bytes) : Option StreamChunkMsg := do
  let streamId ← payload[11]?
  let chunkIndex ← payload[24]?
  let data ← unpackFrom false (payload.drop 31)
  let msg : StreamChunkMsg := ⟨streamId.toUInt16, chunkIndex.toUInt32, data⟩
  if packChunk msg = some payload then some msg else none

def unpackEnd (payload : Bytes) : Option StreamEndMsg := do
  let streamId ← payload[11]?
  let checksum ← unpackFrom false (payload.drop 21)
  let msg : StreamEndMsg := ⟨streamId.toUInt16, checksum.headD 0⟩
  if packEnd msg = some payload then some msg else none

/-- A small stream id fits its one byte. -/
theorem toUInt16_toUInt8_of_lt {streamId : UInt16} (small : streamId < 128) :
    streamId.toUInt8.toUInt16 = streamId := by
  apply UInt16.toNat_inj.mp
  have hlt : streamId.toNat < 128 := small
  simp
  omega

/-- And so does a small chunk number. -/
theorem toUInt32_toUInt8_of_lt {chunkIndex : UInt32} (small : chunkIndex < 128) :
    chunkIndex.toUInt8.toUInt32 = chunkIndex := by
  apply UInt32.toNat_inj.mp
  have hlt : chunkIndex.toNat < 128 := small
  simp
  omega

theorem unpackChunk_of_packChunk {msg : StreamChunkMsg} {payload : Bytes}
    (packed : packChunk msg = some payload) : unpackChunk payload = some msg := by
  have hpacked := packed
  rw [packChunk] at packed
  split_ifs at packed with hsmall
  obtain ⟨hstream, hindex, _⟩ := hsmall
  cases packed
  show (do
    let data ← unpackFrom false (packBytes msg.data)
    let read : StreamChunkMsg :=
      ⟨msg.streamId.toUInt8.toUInt16, msg.chunkIndex.toUInt8.toUInt32, data⟩
    if packChunk read = some _ then some read else none) = some msg
  rw [unpackFrom_packBytes, toUInt16_toUInt8_of_lt hstream, toUInt32_toUInt8_of_lt hindex]
  exact if_pos hpacked

theorem unpackEnd_of_packEnd {msg : StreamEndMsg} {payload : Bytes}
    (packed : packEnd msg = some payload) : unpackEnd payload = some msg := by
  have hpacked := packed
  rw [packEnd] at packed
  split_ifs at packed with hstream
  cases packed
  show (do
    let checksum ← unpackFrom false (packBytes [msg.checksum])
    let read : StreamEndMsg := ⟨msg.streamId.toUInt8.toUInt16, checksum.headD 0⟩
    if packEnd read = some _ then some read else none) = some msg
  rw [unpackFrom_packBytes, toUInt16_toUInt8_of_lt hstream]
  exact if_pos hpacked

/-- A message that does not fit is not packed here. -/
def orError {α : Type} (packed : Option α) : Result α :=
  match packed with
  | some value => .ok value
  | none => .error (.codecError "out of range")

theorem orError_eq_ok {α : Type} {packed : Option α} {value : α}
    (hok : orError packed = .ok value) : packed = some value := by
  cases packed with
  | none => cases hok
  | some other =>
      cases hok
      rfl

/-- The library, as far as numbers below 128 and chunks below 16 bytes go. -/
def smallPack : StreamCodec where
  encodeInfo info :=
    orError (if info.streamId < 128 ∧ info.totalChunks < 128 ∧ info.totalSize < 128 then
      some (0x84 :: packName "stream_id" ++ [info.streamId.toUInt8] ++ packName "total_chunks" ++
        [info.totalChunks.toUInt8] ++ packName "total_size" ++ [info.totalSize.toUInt8] ++
        packName "checksum_algo" ++ packName info.checksumAlgo)
    else none)
  encodeChunk msg := orError (packChunk msg)
  decodeChunk payload := orError (unpackChunk payload)
  encodeEnd msg := orError (packEnd msg)
  decodeEnd payload := orError (unpackEnd payload)
  decode_of_encodeChunk msg payload hencoded := by
    rw [unpackChunk_of_packChunk (orError_eq_ok hencoded)]
    rfl
  decode_of_encodeEnd msg payload hencoded := by
    rw [unpackEnd_of_packEnd (orError_eq_ok hencoded)]
    rfl

/-- A node that takes every frame. -/
def takesAll (_ : MessageType) (_ : Bytes) : Result Unit := .ok ()

def byteWise : StreamWriter := ⟨"peer", 0, 1, by decide, 0, 2, 0, false⟩

def twoChunks : StreamInfo := ⟨0, 2, 2, DEFAULT_CHECKSUM_ALGO⟩

/-- The first of two chunks is lost. -/
def firstLost : List (Delivered smallPack 0 2) := [.chunk 1]

theorem not_intact_firstLost :
    ∃ streamed, byteWise.stream smallPack takesAll [[1, 2]] = .ok streamed ∧
      ¬ Intact smallPack twoChunks "peer" (streamed.arrivals firstLost) [[1, 2]] :=
  ⟨_, rfl, by simp only [Intact]; decide⟩

/-- Two bytes can be written in two chunks, whatever they are. -/
theorem writable_byteWise (writes : List Bytes) (hlengths : writes.map List.length = [2]) :
    ∃ streamed, byteWise.stream smallPack takesAll writes = .ok streamed := by
  obtain ⟨data, rest, rfl, hdata, hrest⟩ := List.map_eq_cons_iff.mp hlengths
  cases List.map_eq_nil_iff.mp hrest
  obtain ⟨first, second, rfl⟩ := List.length_eq_two.mp hdata
  exact ⟨_, rfl⟩

theorem intact_iff_byteWise :
    (∀ writes streamed, writes.map List.length = [2] →
        byteWise.stream smallPack takesAll writes = .ok streamed →
        Intact smallPack twoChunks "peer" (streamed.arrivals firstLost) writes) ↔
      places firstLost = List.range 2 :=
  intact_iff "peer" rfl rfl writable_byteWise firstLost

end Mlink.Api
