/-
# Acknowledgement frames and the ring of unacknowledged entries

An `AckFrame` carries a cumulative number and a 128-bit selective map. The
sender keeps what it has written in a bounded ring and drops the entries an
incoming frame covers: `seqGeq` decides the cumulative part, and bit `i` of the
map stands for the number `i + 1` past the cumulative one.
-/

import Mlink.Protocol.Frame
import Mlink.Protocol.Seq

namespace Mlink.Protocol

def ACK_FRAME_BYTES : Nat := 20
def UNACKED_RING_CAP : Nat := 256
def SACK_WINDOW : Nat := 128

/-- Cumulative number and selective map. -/
structure AckFrame where
  ack : UInt32
  bitmap : BitVec 128
  deriving DecidableEq, Repr

/-- Twenty bytes: the number, then the map. -/
def encodeAck (frame : AckFrame) : Bytes :=
  be32 frame.ack ++ BigEndian.encode 16 frame.bitmap.toNat

/-- Read an acknowledgement off the front of a byte string. -/
def decodeAck (bytes : Bytes) : Result AckFrame :=
  if bytes.length < ACK_FRAME_BYTES then
    .error (.codecError s!"ack frame too short: {bytes.length} < {ACK_FRAME_BYTES}")
  else
    .ok { ack := ofBe32 (bytes.take 4),
          bitmap := BitVec.ofNat 128 (BigEndian.decode ((bytes.drop 4).take 16)) }

@[simp]
theorem encodeAck_length (frame : AckFrame) :
    (encodeAck frame).length = ACK_FRAME_BYTES := by
  simp [encodeAck, ACK_FRAME_BYTES]

/-- An acknowledgement survives the wire. -/
@[simp]
theorem decodeAck_encodeAck (frame : AckFrame) : decodeAck (encodeAck frame) = .ok frame := by
  have hack : (encodeAck frame).take 4 = be32 frame.ack :=
    List.take_left' (be32_length frame.ack)
  have hmap : ((encodeAck frame).drop 4).take 16 =
      BigEndian.encode 16 frame.bitmap.toNat := by
    rw [encodeAck, List.drop_left' (be32_length frame.ack), List.take_of_length_le (by simp)]
  have hlt : frame.bitmap.toNat < 256 ^ 16 := frame.bitmap.isLt
  rw [decodeAck, if_neg (by simp), hack, hmap, ofBe32_be32,
    BigEndian.decode_encode_of_lt hlt, BitVec.ofNat_toNat, BitVec.setWidth_eq]

/-- `a` is at or after `b` on the 32-bit circle. -/
def seqGeq (a b : UInt32) : Bool := Serial.distance a b < 0x80000000

/-- The entries written and not yet acknowledged, oldest first. -/
structure UnackedRing (τ : Type) where
  buf : List (UInt32 × τ)
  deriving DecidableEq, Repr

namespace UnackedRing

variable {τ : Type}

def new : UnackedRing τ := ⟨[]⟩

/-- Append an entry; a full ring gives up its oldest one and returns it. -/
def push (ring : UnackedRing τ) (seq : UInt32) (item : τ) :
    Option (UInt32 × τ) × UnackedRing τ :=
  if UNACKED_RING_CAP ≤ ring.buf.length then
    (ring.buf.head?, ⟨ring.buf.tail ++ [(seq, item)]⟩)
  else
    (none, ⟨ring.buf ++ [(seq, item)]⟩)

/-- What a push leaves: room is made in a full ring, and the entry comes last. -/
theorem push_buf (ring : UnackedRing τ) (seq : UInt32) (item : τ) :
    (ring.push seq item).2.buf =
      (if UNACKED_RING_CAP ≤ ring.buf.length then ring.buf.tail else ring.buf) ++
        [(seq, item)] := by
  rw [push]
  split_ifs <;> rfl

/-- Drop every entry at or before `ack`. -/
def ackCum (ring : UnackedRing τ) (ack : UInt32) : UnackedRing τ :=
  ⟨ring.buf.filter fun entry => !seqGeq ack entry.1⟩

/-- Drop the entries in `(base, base + SACK_WINDOW]` whose bit is set. -/
def sack (ring : UnackedRing τ) (base : UInt32) (bitmap : BitVec 128) : UnackedRing τ :=
  if bitmap = 0 then ring
  else
    ⟨ring.buf.filter fun entry =>
      let d := Serial.distance entry.1 base
      if d = 0 ∨ SACK_WINDOW < d then true else !bitmap.getLsbD (d - 1)⟩

/-- The entries at or after `since`, oldest first. -/
def unackedSince (ring : UnackedRing τ) (since : UInt32) : List (UInt32 × τ) :=
  ring.buf.filter fun entry => seqGeq entry.1 since

def len (ring : UnackedRing τ) : Nat := ring.buf.length

end UnackedRing

namespace AckFrame

/-- The selective map has the bit of `seq` set. -/
def selects (frame : AckFrame) (seq : UInt32) : Bool :=
  let d := Serial.distance seq frame.ack
  d ≠ 0 && d ≤ SACK_WINDOW && frame.bitmap.getLsbD (d - 1)

/-- The frame acknowledges `seq`, cumulatively or selectively. -/
def covers (frame : AckFrame) (seq : UInt32) : Bool :=
  seqGeq frame.ack seq || frame.selects seq

/-- A selective drop keeps the entries that the map does not select. -/
theorem buf_sack {τ : Type} (frame : AckFrame) (ring : UnackedRing τ) :
    (ring.sack frame.ack frame.bitmap).buf =
      ring.buf.filter fun entry => !frame.selects entry.1 := by
  by_cases hzero : frame.bitmap = 0
  · rw [UnackedRing.sack, if_pos hzero]
    symm
    apply List.filter_eq_self.mpr
    intro entry _
    simp [selects, hzero]
  · rw [UnackedRing.sack, if_neg hzero]
    apply List.filter_congr
    intro entry _
    simp only [selects]
    split_ifs with hrange
    · rcases hrange with hrange | hrange
      · simp [hrange]
      · simp [Nat.not_le.mpr hrange]
    · rw [not_or, Nat.not_lt] at hrange
      simp [hrange.1, hrange.2]

/-- What an acknowledgement does to the ring: the two drops in sequence keep
exactly the entries it does not cover. -/
theorem buf_ackCum_sack {τ : Type} (frame : AckFrame) (ring : UnackedRing τ) :
    ((ring.ackCum frame.ack).sack frame.ack frame.bitmap).buf =
      ring.buf.filter fun entry => !frame.covers entry.1 := by
  rw [buf_sack, UnackedRing.ackCum, List.filter_filter]
  apply List.filter_congr
  intro entry _
  rw [covers, Bool.not_or, Bool.and_comm]

end AckFrame

end Mlink.Protocol
