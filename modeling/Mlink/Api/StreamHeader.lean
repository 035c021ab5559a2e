/-
# What a stream announces

The header of a stream says how many chunks there will be. That number comes from a
division which rounds up by adding first, in the size type of the machine, and whose
result is cut down to 32 bits; the chunks come from a loop. The two agree as long as the
sum stays within the size type and the number within 32 bits.
-/

import Mlink.Api.Stream
import Mlink.Lib.BigEndian

namespace Mlink.Api

open Mlink.Protocol

/-- Whether or not the build checks for overflow: the stream is opened without a panic,
and a write of the data sends as many chunks as its header says. -/
def HeaderTrue (bits : Nat) (data : Bytes) (chunkSize : Nat) : Prop :=
  ∀ checked codec sendRaw peerId streamId,
    ∃ created, createStreamWithChunkSize codec sendRaw ⟨bits, checked⟩ peerId streamId data
        chunkSize = some created ∧
      ∀ writer, created = .ok writer → (writer.write codec sendRaw data).result = .ok () →
        (writer.write codec sendRaw data).sent.length = writer.totalChunks.toNat

section Headers

variable {usize : Word} {codec : StreamCodec} {sendRaw : MessageType → Bytes → Result Unit}
  {peerId : String} {streamId : UInt16} {data : Bytes} {chunkSize : Nat} {writer : StreamWriter}

/-- What a stream that is opened has computed. -/
theorem createStream_spec {created : Result StreamWriter}
    (opened : createStreamWithChunkSize codec sendRaw usize peerId streamId data chunkSize =
      some created) (hok : created = .ok writer) :
    writer.chunkSize = chunkSize ∧ writer.finished = false ∧
      totalChunks usize data chunkSize = some writer.totalChunks := by
  rw [createStreamWithChunkSize] at opened
  split_ifs at opened with hsize
  · cases opened
    cases hok
  · obtain ⟨total, htotal, hcreated⟩ := Option.map_eq_some_iff.mp opened
    rw [hok] at hcreated
    cases hinfo : codec.encodeInfo
        ⟨streamId, total, data.length.toUInt64, DEFAULT_CHECKSUM_ALGO⟩ with
    | error e =>
        rw [hinfo] at hcreated
        cases hcreated
    | ok payload =>
        rw [hinfo] at hcreated
        cases hsent : sendRaw .streamStart payload with
        | error e =>
            simp only [bind, Except.bind, hsent] at hcreated
            cases hcreated
        | ok _ =>
            simp only [bind, Except.bind, hsent, pure, Except.pure, Except.ok.injEq] at hcreated
            rw [← hcreated]
            exact ⟨rfl, rfl, htotal⟩

/-- A write that succeeds sends one frame for each piece of the data. -/
theorem length_sent_write (unfinished : writer.finished = false)
    (written : (writer.write codec sendRaw data).result = .ok ()) :
    (writer.write codec sendRaw data).sent.length =
      (data.length + writer.chunkSize - 1) / writer.chunkSize := by
  have hwrite : writer.write codec sendRaw data =
      writer.writeChunks codec sendRaw (Pieces.chunks writer.chunkSize data) := by
    rw [StreamWriter.write, unfinished]
    rfl
  rw [hwrite] at written ⊢
  rw [(writeChunks_spec written).2.length_eq, Pieces.length_chunks writer.chunkSize_pos]

/-- The division rounds up if the sum fits. -/
theorem totalChunks_of_lt (hsome : data ≠ [])
    (fits : data.length + chunkSize < 2 ^ usize.bits) :
    totalChunks usize data chunkSize =
      some ((data.length + chunkSize - 1) / chunkSize).toUInt32 := by
  have hpos : 0 < data.length := List.length_pos_iff.mpr hsome
  have hsub : usize.sub (data.length + chunkSize) 1 = some (data.length + chunkSize - 1) :=
    Word.sub_of_le (by omega)
  rw [totalChunks, if_neg hsome, Word.add_of_lt fits]
  simp only [Option.bind_eq_bind, Option.bind_some, hsub]
  rfl

end Headers

/-! ## A library that encodes every message -/

/-- Fixed-width numbers, and the data after them. -/
def fixedWidth : StreamCodec where
  encodeInfo info := .ok (BigEndian.encode 2 info.streamId.toNat)
  encodeChunk msg :=
    .ok (BigEndian.encode 2 msg.streamId.toNat ++
      (BigEndian.encode 4 msg.chunkIndex.toNat ++ msg.data))
  decodeChunk payload :=
    .ok ⟨(BigEndian.decode (payload.take 2)).toUInt16,
      (BigEndian.decode ((payload.drop 2).take 4)).toUInt32, (payload.drop 2).drop 4⟩
  encodeEnd msg := .ok (BigEndian.encode 2 msg.streamId.toNat ++ [msg.checksum])
  decodeEnd payload :=
    .ok ⟨(BigEndian.decode (payload.take 2)).toUInt16, (payload.drop 2).headD 0⟩
  decode_of_encodeChunk msg payload hencoded := by
    cases hencoded
    rw [List.take_left' (BigEndian.encode_length _ _), List.drop_left' (BigEndian.encode_length _ _),
      List.take_left' (BigEndian.encode_length _ _), List.drop_left' (BigEndian.encode_length _ _),
      BigEndian.decode_encode_of_lt msg.streamId.toNat_lt,
      BigEndian.decode_encode_of_lt msg.chunkIndex.toNat_lt]
    simp
  decode_of_encodeEnd msg payload hencoded := by
    cases hencoded
    rw [List.take_left' (BigEndian.encode_length _ _), List.drop_left' (BigEndian.encode_length _ _),
      BigEndian.decode_encode_of_lt msg.streamId.toNat_lt]
    simp

theorem result_writeChunks_fixedWidth (writer : StreamWriter) (chunks : List Bytes) :
    (writer.writeChunks fixedWidth takesAll chunks).result = .ok () := by
  induction chunks generalizing writer with
  | nil => rfl
  | cons chunk rest ih => exact ih _

theorem result_write_fixedWidth {writer : StreamWriter} (unfinished : writer.finished = false)
    (data : Bytes) : (writer.write fixedWidth takesAll data).result = .ok () := by
  rw [StreamWriter.write, unfinished]
  exact result_writeChunks_fixedWidth writer _

/-! ## When the header is right -/

section Exact

variable {bits : Nat} {data : Bytes} {chunkSize : Nat}

/-- A number that is computed without a panic, and is that of the pieces, makes the header
right. -/
theorem headerTrue_of_totalChunks {total : UInt32} (hsize : chunkSize ≠ 0)
    (computed : ∀ checked, totalChunks ⟨bits, checked⟩ data chunkSize = some total)
    (exact : total.toNat = (data.length + chunkSize - 1) / chunkSize) :
    HeaderTrue bits data chunkSize := by
  intro checked codec sendRaw peerId streamId
  cases hcreate : createStreamWithChunkSize codec sendRaw ⟨bits, checked⟩ peerId streamId data
      chunkSize with
  | none =>
      rw [createStreamWithChunkSize, dif_neg hsize, computed] at hcreate
      cases hcreate
  | some created =>
      refine ⟨created, rfl, ?_⟩
      intro writer hok hwritten
      obtain ⟨hchunkSize, hopen, htotal⟩ := createStream_spec hcreate hok
      have hsame : total = writer.totalChunks := Option.some.inj ((computed checked).symm.trans htotal)
      rw [length_sent_write hopen hwritten, hchunkSize, ← hsame, exact]

/-- And the other way: where nothing else fails, the header says what was computed. -/
theorem totalChunks_of_headerTrue (hsize : chunkSize ≠ 0)
    (holds : HeaderTrue bits data chunkSize) (checked : Bool) :
    ∃ total : UInt32, totalChunks ⟨bits, checked⟩ data chunkSize = some total ∧
      total.toNat = (data.length + chunkSize - 1) / chunkSize := by
  obtain ⟨created, hcreate, hexact⟩ := holds checked fixedWidth takesAll "peer" 0
  rw [createStreamWithChunkSize, dif_neg hsize] at hcreate
  obtain ⟨total, htotal, hcreated⟩ := Option.map_eq_some_iff.mp hcreate
  refine ⟨total, htotal, ?_⟩
  have hlength := hexact _ hcreated.symm (result_write_fixedWidth rfl data)
  rw [length_sent_write rfl (result_write_fixedWidth rfl data)] at hlength
  exact hlength.symm

/-- A header is right exactly when the sum of both lengths fits the size type and the
number of chunks fits 32 bits, or when there is nothing to send. -/
theorem headerTrue_iff (bits : Nat) (data : Bytes) (chunkSize : Nat) :
    HeaderTrue bits data chunkSize ↔
      chunkSize = 0 ∨ data = [] ∨
        data.length + chunkSize < 2 ^ bits ∧
          (data.length + chunkSize - 1) / chunkSize < 2 ^ 32 := by
  by_cases hsize : chunkSize = 0
  · refine iff_of_true ?_ (.inl hsize)
    intro checked codec sendRaw peerId streamId
    exact ⟨_, dif_pos hsize, fun writer herror => nomatch herror⟩
  have hpos : 0 < chunkSize := Nat.pos_of_ne_zero hsize
  rw [or_iff_right hsize]
  by_cases hempty : data = []
  · refine iff_of_true (headerTrue_of_totalChunks hsize (fun _ => if_pos hempty) ?_) (.inl hempty)
    rw [hempty, List.length_nil, Nat.zero_add, Nat.div_eq_of_lt (Nat.sub_lt hpos Nat.one_pos)]
    rfl
  rw [or_iff_right hempty]
  constructor
  · intro holds
    have hsum : data.length + chunkSize < 2 ^ bits := by
      by_contra hover
      obtain ⟨total, htotal, _⟩ := totalChunks_of_headerTrue hsize holds true
      rw [totalChunks, if_neg hempty, Word.add_checked_of_le (Nat.not_lt.mp hover)] at htotal
      cases htotal
    obtain ⟨total, htotal, hexact⟩ := totalChunks_of_headerTrue hsize holds true
    exact ⟨hsum, hexact ▸ total.toNat_lt⟩
  · rintro ⟨hsum, hcount⟩
    refine headerTrue_of_totalChunks hsize (fun checked => totalChunks_of_lt hempty hsum) ?_
    exact Nat.mod_eq_of_lt hcount

end Exact

/-- Two bytes in one chunk of the largest size: the sum wraps, and none is announced. -/
theorem not_headerTrue_largest : ¬ HeaderTrue 64 [1, 2] (2 ^ 64 - 1) := by
  intro holds
  obtain ⟨total, htotal, hexact⟩ :=
    totalChunks_of_headerTrue (by decide) holds false
  have hnone : totalChunks ⟨64, false⟩ [1, 2] (2 ^ 64 - 1) = some 0 := by decide
  rw [hnone] at htotal
  cases htotal
  revert hexact
  decide

end Mlink.Api
