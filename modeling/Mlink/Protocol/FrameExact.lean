/-
# The frame codec is exact

`encodeFrame` writes the magic, the version and the length from what they must be,
not from the record. So it loses nothing of a record whose header tells the truth,
and the decoder accepts the encodings of such records, whatever follows them, and
nothing else.
-/

import Mlink.Lib.PrefixCodec
import Mlink.Protocol.Frame

namespace Mlink.Protocol

/-- A frame of the protocol whose length is that of its payload. -/
structure Frame.WellFormed (frame : Frame) : Prop where
  magic : frame.magic = MAGIC
  version : frame.version = PROTOCOL_VERSION
  length : frame.length.toNat = frame.payload.length

/-- The length field bounds the payload. -/
theorem Frame.WellFormed.fits {frame : Frame} (wellFormed : frame.WellFormed) :
    frame.payload.length ≤ 65535 := by
  have hlength := frame.length.toNat_lt
  rw [wellFormed.length] at hlength
  omega

/-- A string that is no frame: it is shorter than a header, starts with another magic,
announces another version, or ends before the payload does. -/
def Malformed (data : Bytes) : Prop :=
  data.length < HEADER_SIZE ∨ ofBe16 (data.take 2) ≠ MAGIC ∨
    data[2]? ≠ some PROTOCOL_VERSION ∨
      data.length < HEADER_SIZE + (ofBe16 ((data.drop 6).take 2)).toNat

/-- A two-byte string is the big-endian form of the number it denotes. -/
theorem be16_ofBe16 {bytes : Bytes} (two : bytes.length = 2) : be16 (ofBe16 bytes) = bytes := by
  have hlt := BigEndian.decode_lt bytes
  rw [two] at hlt
  rw [be16, ofBe16, UInt16.toNat_ofNat_of_lt' hlt, ← two, BigEndian.encode_decode]

/-- A string shorter than a header is rejected. -/
theorem decodeFrame_of_short {data : Bytes} (short : data.length < HEADER_SIZE) :
    decodeFrame data =
      .error (.codecError s!"frame too short: {data.length} < {HEADER_SIZE}") := by
  unfold decodeFrame
  split
  · simp [HEADER_SIZE] at short
    omega
  · rfl

/-- A string of eight bytes or more begins with the fields of a header. -/
theorem exists_header {data : Bytes} (long : HEADER_SIZE ≤ data.length) :
    ∃ m0 m1 version flags s0 s1 l0 l1 rest,
      data = m0 :: m1 :: version :: flags :: s0 :: s1 :: l0 :: l1 :: rest := by
  match data, long with
  | m0 :: m1 :: version :: flags :: s0 :: s1 :: l0 :: l1 :: rest, _ =>
    exact ⟨m0, m1, version, flags, s0, s1, l0, l1, rest, rfl⟩

section Header

variable {m0 m1 version flags s0 s1 l0 l1 : UInt8} {rest : Bytes}

/-- What the decoder returns on a whole header: the frame, unless a field is wrong or the
payload is cut short. -/
theorem decodeFrame_eq_ok_iff {frame : Frame} :
    decodeFrame (m0 :: m1 :: version :: flags :: s0 :: s1 :: l0 :: l1 :: rest) = .ok frame ↔
      (ofBe16 [m0, m1] = MAGIC ∧ version = PROTOCOL_VERSION ∧
        (ofBe16 [l0, l1]).toNat ≤ rest.length) ∧
      frame = ⟨MAGIC, PROTOCOL_VERSION, flags, ofBe16 [s0, s1], ofBe16 [l0, l1],
        rest.take (ofBe16 [l0, l1]).toNat⟩ := by
  simp only [decodeFrame, List.length_cons, HEADER_SIZE]
  by_cases hmagic : ofBe16 [m0, m1] = MAGIC
  · by_cases hversion : version = PROTOCOL_VERSION
    · by_cases hshort : rest.length + 8 < 8 + (ofBe16 [l0, l1]).toNat
      · have hcut : ¬ (ofBe16 [l0, l1]).toNat ≤ rest.length := by omega
        simp [hmagic, hversion, hcut, hshort]
      · have hwhole : (ofBe16 [l0, l1]).toNat ≤ rest.length := by omega
        simp [hmagic, hversion, hwhole, hshort, eq_comm]
    · simp [hmagic, hversion]
  · simp [hmagic]

/-- A whole header is part of a malformed string when one of its fields is wrong. -/
theorem malformed_header_iff :
    Malformed (m0 :: m1 :: version :: flags :: s0 :: s1 :: l0 :: l1 :: rest) ↔
      ¬ (ofBe16 [m0, m1] = MAGIC ∧ version = PROTOCOL_VERSION ∧
        (ofBe16 [l0, l1]).toNat ≤ rest.length) := by
  have hlength : (rest.length + 8 < 8 + (ofBe16 [l0, l1]).toNat) ↔
      ¬ (ofBe16 [l0, l1]).toNat ≤ rest.length := by omega
  have hlong : ¬ rest.length + 8 < 8 := by omega
  simp only [Malformed, HEADER_SIZE, List.length_cons, List.take, List.drop,
    List.getElem?_cons_succ, List.getElem?_cons_zero, Option.some.injEq, ne_eq, hlength, hlong]
  tauto

end Header

/-- Whatever is accepted is long enough for a header. -/
theorem exists_header_of_decodeFrame {data : Bytes} {frame : Frame}
    (taken : decodeFrame data = .ok frame) :
    ∃ m0 m1 version flags s0 s1 l0 l1 rest,
      data = m0 :: m1 :: version :: flags :: s0 :: s1 :: l0 :: l1 :: rest := by
  apply exists_header
  by_contra hshort
  rw [decodeFrame_of_short (by omega)] at taken
  cases taken

/-- The strings the decoder rejects are the malformed ones. -/
theorem malformed_iff (data : Bytes) :
    Malformed data ↔ ∃ error, decodeFrame data = .error error := by
  by_cases hlong : HEADER_SIZE ≤ data.length
  · obtain ⟨m0, m1, version, flags, s0, s1, l0, l1, rest, rfl⟩ := exists_header hlong
    rw [malformed_header_iff]
    cases hresult : decodeFrame (m0 :: m1 :: version :: flags :: s0 :: s1 :: l0 :: l1 :: rest) with
    | error error =>
        simp only [Except.error.injEq, exists_eq', iff_true]
        intro hfields
        rw [decodeFrame_eq_ok_iff.mpr ⟨hfields, rfl⟩] at hresult
        cases hresult
    | ok frame => simp [(decodeFrame_eq_ok_iff.mp hresult).1]
  · rw [decodeFrame_of_short (by omega)]
    simp [Malformed, Nat.lt_of_not_le hlong]

/-- Whatever the reason, a rejection is a codec error. -/
theorem codecError_of_decodeFrame {data : Bytes} {error : MlinkError}
    (rejected : decodeFrame data = .error error) : ∃ text, error = .codecError text := by
  unfold decodeFrame at rejected
  split at rejected
  · dsimp only at rejected
    split_ifs at rejected <;>
      exact ⟨_, (Except.error.inj rejected).symm⟩
  · exact ⟨_, (Except.error.inj rejected).symm⟩

/-- The codec is exact on well-formed frames. -/
theorem exact_wellFormed : PrefixCodec.Exact encodeFrame decodeFrame Frame.WellFormed where
  decode_append := by
    intro frame hframe rest
    have hlength : UInt16.ofNat frame.payload.length = frame.length := by
      rw [← hframe.length, UInt16.ofNat_toNat]
    rw [decodeFrame_encodeFrame frame rest hframe.fits, hlength, ← hframe.magic,
      ← hframe.version]
  valid_of_decode := by
    intro data frame htaken
    obtain ⟨m0, m1, version, flags, s0, s1, l0, l1, rest, rfl⟩ :=
      exists_header_of_decodeFrame htaken
    obtain ⟨⟨-, -, hwhole⟩, rfl⟩ := decodeFrame_eq_ok_iff.mp htaken
    exact ⟨rfl, rfl, (List.length_take_of_le hwhole).symm⟩
  append_of_decode := by
    intro data frame htaken
    obtain ⟨m0, m1, version, flags, s0, s1, l0, l1, rest, rfl⟩ :=
      exists_header_of_decodeFrame htaken
    obtain ⟨⟨hmagic, hversion, hwhole⟩, rfl⟩ := decodeFrame_eq_ok_iff.mp htaken
    have hm : be16 MAGIC = [m0, m1] := by rw [← hmagic, be16_ofBe16 rfl]
    have hl : be16 (UInt16.ofNat (rest.take (ofBe16 [l0, l1]).toNat).length) = [l0, l1] := by
      rw [List.length_take_of_le hwhole, UInt16.ofNat_toNat, be16_ofBe16 rfl]
    refine ⟨rest.drop (ofBe16 [l0, l1]).toNat, ?_⟩
    rw [encodeFrame, hm, hl, be16_ofBe16 rfl, ← hversion]
    simp

/-- The decoder returns a well-formed frame from its encoding, whatever follows. What it
accepts is the encoding of what it returns, over as many bytes as the header says, and
what it returns is well-formed. It rejects, as a codec error, every malformed string,
which is every string that starts with no encoding of a well-formed frame. -/
theorem decodeFrame_exact :
    (∀ frame : Frame, frame.WellFormed →
      ∀ rest, decodeFrame (encodeFrame frame ++ rest) = .ok frame) ∧
    (∀ data frame, decodeFrame data = .ok frame →
      frame.WellFormed ∧ HEADER_SIZE + frame.length.toNat ≤ data.length ∧
        encodeFrame frame = data.take (HEADER_SIZE + frame.length.toNat)) ∧
    (∀ data, Malformed data ↔ ∃ text, decodeFrame data = .error (.codecError text)) ∧
    ∀ data, Malformed data ↔
      ¬ ∃ frame rest, Frame.WellFormed frame ∧ data = encodeFrame frame ++ rest := by
  refine ⟨fun frame hframe rest => exact_wellFormed.decode_append hframe rest, ?_, ?_, ?_⟩
  · intro data frame htaken
    have hframe := exact_wellFormed.valid_of_decode htaken
    have hlength : (encodeFrame frame).length = HEADER_SIZE + frame.length.toNat := by
      rw [encodeFrame_length, hframe.length]
    have hprefix := exact_wellFormed.encode_eq_take htaken
    obtain ⟨rest, hdata⟩ := exact_wellFormed.append_of_decode htaken
    rw [hlength] at hprefix
    refine ⟨hframe, ?_, hprefix⟩
    rw [hdata, List.length_append, hlength]
    omega
  · intro data
    rw [malformed_iff]
    constructor
    · rintro ⟨error, herror⟩
      obtain ⟨text, rfl⟩ := codecError_of_decodeFrame herror
      exact ⟨text, herror⟩
    · exact fun ⟨text, htext⟩ => ⟨_, htext⟩
  · intro data
    rw [malformed_iff, exact_wellFormed.rejects_iff]

/-- A frame of the greatest length comes back with two stray bytes behind it. -/
theorem decodeFrame_exact_longest :
    decodeFrame (encodeFrame ⟨MAGIC, PROTOCOL_VERSION, 0x10, 0, 65535,
        List.replicate 65535 7⟩ ++ [0xDE, 0xAD]) =
      .ok ⟨MAGIC, PROTOCOL_VERSION, 0x10, 0, 65535, List.replicate 65535 7⟩ :=
  decodeFrame_exact.1 _ ⟨rfl, rfl, by rw [List.length_replicate]; rfl⟩ [0xDE, 0xAD]

end Mlink.Protocol
