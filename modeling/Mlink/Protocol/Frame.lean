/-
# The frame codec

Eight header bytes (magic, version, flags, sequence number, length, each
big-endian) followed by the payload. The decoder ignores whatever follows the
payload it announces.
-/

import Mlink.Lib.BigEndian
import Mlink.Protocol.Types

namespace Mlink.Protocol

/-- `u16::to_be_bytes`. -/
def be16 (value : UInt16) : Bytes := BigEndian.encode 2 value.toNat

/-- `u32::to_be_bytes`. -/
def be32 (value : UInt32) : Bytes := BigEndian.encode 4 value.toNat

/-- `u16::from_be_bytes`. -/
def ofBe16 (bytes : Bytes) : UInt16 := UInt16.ofNat (BigEndian.decode bytes)

/-- `u32::from_be_bytes`. -/
def ofBe32 (bytes : Bytes) : UInt32 := UInt32.ofNat (BigEndian.decode bytes)

@[simp]
theorem be16_length (value : UInt16) : (be16 value).length = 2 := by simp [be16]

@[simp]
theorem be32_length (value : UInt32) : (be32 value).length = 4 := by simp [be32]

@[simp]
theorem ofBe16_be16 (value : UInt16) : ofBe16 (be16 value) = value := by
  rw [ofBe16, be16, BigEndian.decode_encode_of_lt value.toNat_lt, UInt16.ofNat_toNat]

@[simp]
theorem ofBe32_be32 (value : UInt32) : ofBe32 (be32 value) = value := by
  rw [ofBe32, be32, BigEndian.decode_encode_of_lt value.toNat_lt, UInt32.ofNat_toNat]

/-- A four-byte string is the big-endian form of the number it denotes. -/
theorem be32_ofBe32 {bytes : Bytes} (four : bytes.length = 4) :
    be32 (ofBe32 bytes) = bytes := by
  have hlt := BigEndian.decode_lt bytes
  rw [four] at hlt
  rw [be32, ofBe32, UInt32.toNat_ofNat_of_lt' hlt, ← four, BigEndian.encode_decode]

/-- Serialize a frame. Magic, version and length are written from the constants
and the payload, not from the record's own fields. -/
def encodeFrame (frame : Frame) : Bytes :=
  be16 MAGIC ++ [PROTOCOL_VERSION] ++ [frame.flags] ++ be16 frame.seq ++
    be16 (UInt16.ofNat frame.payload.length) ++ frame.payload

/-- One hexadecimal digit, upper case. -/
def hexDigit (digit : Nat) : Char :=
  if digit < 10 then Char.ofNat (48 + digit) else Char.ofNat (55 + digit)

/-- `{:0width$X}` for a value that fits the width. -/
def hexUpper : (width value : Nat) → String
  | 0, _ => ""
  | width + 1, value => (hexUpper width (value / 16)).push (hexDigit (value % 16))

/-- Parse a frame off the front of a byte string. -/
def decodeFrame (data : Bytes) : Result Frame :=
  match data with
  | m0 :: m1 :: version :: flags :: s0 :: s1 :: l0 :: l1 :: rest =>
    let magic := ofBe16 [m0, m1]
    if magic ≠ MAGIC then
      .error (.codecError s!"invalid magic: 0x{hexUpper 4 magic.toNat}")
    else if version ≠ PROTOCOL_VERSION then
      .error (.codecError s!"unsupported version: 0x{hexUpper 2 version.toNat}")
    else
      let length := ofBe16 [l0, l1]
      let payloadEnd := HEADER_SIZE + length.toNat
      if data.length < payloadEnd then
        .error (.codecError
          s!"payload truncated: have {data.length} bytes, need {payloadEnd}")
      else
        .ok { magic, version, flags, seq := ofBe16 [s0, s1], length,
              payload := rest.take length.toNat }
  | short =>
    .error (.codecError s!"frame too short: {short.length} < {HEADER_SIZE}")

@[simp]
theorem encodeFrame_length (frame : Frame) :
    (encodeFrame frame).length = HEADER_SIZE + frame.payload.length := by
  simp [encodeFrame, HEADER_SIZE]
  omega

/-- Decoding an encoded frame gives back its flags, sequence number and payload,
whatever bytes follow, as long as the payload fits the length field. -/
theorem decodeFrame_encodeFrame (frame : Frame) (rest : Bytes)
    (fits : frame.payload.length ≤ 65535) :
    decodeFrame (encodeFrame frame ++ rest) =
      .ok { magic := MAGIC, version := PROTOCOL_VERSION, flags := frame.flags,
            seq := frame.seq, length := UInt16.ofNat frame.payload.length,
            payload := frame.payload } := by
  obtain ⟨s0, s1, hseq⟩ := List.length_eq_two.mp (be16_length frame.seq)
  obtain ⟨l0, l1, hlen⟩ :=
    List.length_eq_two.mp (be16_length (UInt16.ofNat frame.payload.length))
  have hseqBack : ofBe16 [s0, s1] = frame.seq := by rw [← hseq, ofBe16_be16]
  have hlenBack : ofBe16 [l0, l1] = UInt16.ofNat frame.payload.length := by
    rw [← hlen, ofBe16_be16]
  have hlenNat : (UInt16.ofNat frame.payload.length).toNat = frame.payload.length :=
    UInt16.toNat_ofNat_of_lt' (by simp [UInt16.size]; omega)
  have hmagic : be16 MAGIC = [0x4D, 0x4C] := by decide
  have hmagicBack : ofBe16 [0x4D, 0x4C] = MAGIC := by decide
  rw [encodeFrame, hseq, hlen, hmagic]
  simp only [List.cons_append, List.nil_append, decodeFrame, hmagicBack, hseqBack,
    hlenBack, hlenNat, HEADER_SIZE, ne_eq, not_true_eq_false, if_false]
  rw [if_neg (by simp only [List.length_cons, List.length_append]; omega)]
  simp

end Mlink.Protocol
