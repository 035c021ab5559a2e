/-
# Which way a map runs

The window fills its map downwards from its top: bit `i` speaks of `last - i`.
The ring reads a selective map upwards from the cumulative number: bit `i`
speaks of `base + 1 + i`. `flushAckNow` hands the one map to the other without
turning it round, so that the entries it clears lie above the top, in the mirror
image of the numbers the window has seen.
-/

import Mlink.Core.Session.Reader
import Mlink.Protocol.Window

namespace Mlink.Protocol

namespace DedupWindow

/-- The window has marked the number as seen. -/
def marks (window : DedupWindow) (seq : UInt32) : Bool :=
  let back := Serial.distance window.last seq
  window.seen && back < 128 && window.bits.getLsbD back

/-- The number lies as far above `last + 1` as some marked number lies below the
top. -/
def mirrors (window : DedupWindow) (seq : UInt32) : Bool :=
  let ahead := Serial.distance seq window.last
  window.seen && ahead ≠ 0 && ahead ≤ 128 && window.bits.getLsbD (ahead - 1)

/-- What lies above the top is not marked. -/
theorem not_marks_of_follows {window : DedupWindow} {seq : UInt32}
    (above : Serial.Follows seq window.last) : window.marks seq = false := by
  have hlast := window.last.toNat_lt
  have hseq := seq.toNat_lt
  obtain ⟨hne, hnear⟩ := above
  have hfar : ¬ Serial.distance window.last seq < 128 := by
    rw [ne_eq, ← Serial.distance_eq_zero_iff, Serial.distance_toNat] at hne
    rw [Serial.distance_toNat] at hnear ⊢
    omega
  simp [marks, hfar]

/-- The mirror image lies above the top. -/
theorem follows_of_mirrors {window : DedupWindow} {seq : UInt32}
    (mirrored : window.mirrors seq = true) : Serial.Follows seq window.last := by
  simp only [mirrors, Bool.and_eq_true, decide_eq_true_eq] at mirrored
  obtain ⟨⟨⟨_, hne⟩, hle⟩, _⟩ := mirrored
  exact ⟨fun hsame => hne (Serial.distance_eq_zero_iff.mpr hsame), by omega⟩

/-- The map of a snapshot, read as an acknowledgement, selects the mirror
image. -/
theorem selects_snapshot (window : DedupWindow) (seq : UInt32) :
    AckFrame.selects ⟨window.snapshot.1, window.snapshot.2⟩ seq = window.mirrors seq := by
  cases hused : window.seen with
  | false => simp [snapshot, hused, AckFrame.selects, mirrors]
  | true => simp [snapshot, hused, AckFrame.selects, mirrors, SACK_WINDOW]

end DedupWindow

end Mlink.Protocol

namespace Mlink.Core

open Mlink.Protocol

namespace Session

/-- What the ring drops at the acknowledgement is what the window has marked, and
nothing that lies above the top of the window. -/
structure Removes (window : DedupWindow) {τ : Type} (before after : UnackedRing τ) : Prop where
  marked : after.buf = before.buf.filter fun entry => !window.marks entry.1
  noneAbove : ∀ entry ∈ before.buf, Serial.Follows entry.1 window.last → entry ∈ after.buf

/-- No entry of the ring is marked, and none is a mirror image of a mark. -/
def OutOfReach (window : DedupWindow) {τ : Type} (ring : UnackedRing τ) : Prop :=
  ∀ entry ∈ ring.buf, window.marks entry.1 = false ∧ window.mirrors entry.1 = false

/-- The map of a window clears from a ring what the window has marked exactly
when it clears nothing and nothing is marked. -/
theorem removes_iff_outOfReach (window : DedupWindow) {τ : Type} (ring : UnackedRing τ) :
    Removes window ring (ring.sack window.snapshot.1 window.snapshot.2) ↔
      OutOfReach window ring := by
  have hsack : (ring.sack window.snapshot.1 window.snapshot.2).buf =
      ring.buf.filter fun entry => !window.mirrors entry.1 := by
    rw [AckFrame.buf_sack ⟨window.snapshot.1, window.snapshot.2⟩ ring]
    simp only [window.selects_snapshot]
  constructor
  · rintro ⟨hmarked, -⟩ entry hentry
    rw [hsack] at hmarked
    have hsame : window.mirrors entry.1 = false ↔ window.marks entry.1 = false := by
      have hagree := congrArg (entry ∈ ·) hmarked
      simpa only [List.mem_filter, hentry, true_and, Bool.not_eq_true', eq_iff_iff] using hagree
    cases habove : window.mirrors entry.1 with
    | false => exact ⟨hsame.mp habove, rfl⟩
    | true =>
        -- an entry cannot lie above the top and be marked below it
        have hclear := hsame.mpr
          (DedupWindow.not_marks_of_follows (DedupWindow.follows_of_mirrors habove))
        rw [habove] at hclear
        cases hclear
  · intro hreach
    have hkept : (ring.sack window.snapshot.1 window.snapshot.2).buf = ring.buf := by
      rw [hsack]
      apply List.filter_eq_self.mpr
      intro entry hentry
      simp [(hreach entry hentry).2]
    refine ⟨?_, fun entry hentry _ => by rwa [hkept]⟩
    rw [hkept]
    symm
    apply List.filter_eq_self.mpr
    intro entry hentry
    simp [(hreach entry hentry).1]

/-- The acknowledgement that a peer reads off what a session wrote. -/
def readAck (bytes : Bytes) : Option AckFrame :=
  match decodeFrame bytes with
  | .error _ => none
  | .ok frame =>
      match (decodeFlags frame.flags).2.2, decodeAck frame.payload with
      | .ack, .ok ack => some ack
      | _, _ => none

/-- An acknowledgement is read as it was written. -/
theorem readAck_encodeAckFrame (ack : AckFrame) : readAck (encodeAckFrame ack) = some ack := by
  have hdecode := decodeFrame_encodeFrame
    { magic := MAGIC, version := PROTOCOL_VERSION, flags := encodeFlags false false .ack,
      seq := 0, length := UInt16.ofNat (encodeAck ack).length, payload := encodeAck ack } []
    (by simp [ACK_FRAME_BYTES])
  rw [List.append_nil] at hdecode
  simp only [readAck, encodeAckFrame, hdecode, decodeFlags_encodeFlags, decodeAck_encodeAck]

/-- Whatever `flushAckNow` writes is read back as the window's snapshot, and its
map clears from a ring what the window has marked exactly when no entry of the
ring is marked or the mirror image of a mark. -/
theorem sack_of_flushAckNow (session : Session) (io : LinkIo) {write : LinkWrite}
    (written : write ∈ (session.flushAckNow io).2.2) {τ : Type} (ring : UnackedRing τ) :
    ∃ ack, readAck write.bytes = some ack ∧
      (ack.ack, ack.bitmap) = session.dedup.snapshot ∧
      (Removes session.dedup ring (ring.sack ack.ack ack.bitmap) ↔
        OutOfReach session.dedup ring) := by
  have hbytes := (session.flushAckNow_spec io).2.2.1 write written
  refine ⟨session.ackFrame, ?_, rfl, removes_iff_outOfReach session.dedup ring⟩
  rw [hbytes]
  exact readAck_encodeAckFrame session.ackFrame

/-! ## One frame received, one lost -/

/-- Frame 0 was accepted and is to be acknowledged over the one link. -/
def zeroAccepted : Session :=
  { new "peer" 0 with
    links := [Link.new "tcp" 0 .tcp ⟨1000000⟩ 0]
    active := some "tcp"
    dedup := (DedupWindow.new.observe 0).2
    ackPending := AckPending.default.record 0 }

/-- A ring with the given numbers. -/
def ringOf (seqs : List UInt32) : UnackedRing PendingFrame :=
  ⟨seqs.map fun seq => (seq, ⟨[], .message⟩)⟩

/-- A ring that holds neither frame 0 nor its mirror image, frame 1, is left alone as it
should be. -/
theorem sack_of_flushAckNow_far :
    ∃ write ∈ (zeroAccepted.flushAckNow ⟨0, fun _ => .ok ()⟩).2.2,
      ∃ ack, readAck write.bytes = some ack ∧
        Removes zeroAccepted.dedup (ringOf [2, 3]) ((ringOf [2, 3]).sack ack.ack ack.bitmap) := by
  have hwritten : (⟨"tcp", encodeAckFrame zeroAccepted.ackFrame, .ok ()⟩ : LinkWrite) ∈
      (zeroAccepted.flushAckNow ⟨0, fun _ => .ok ()⟩).2.2 := List.mem_singleton_self _
  have hreach : OutOfReach zeroAccepted.dedup (ringOf [2, 3]) := by
    unfold OutOfReach
    decide +kernel
  obtain ⟨ack, hread, _, hiff⟩ := sack_of_flushAckNow zeroAccepted ⟨0, fun _ => .ok ()⟩ hwritten
    (ringOf [2, 3])
  exact ⟨_, hwritten, ack, hread, hiff.mpr hreach⟩

/-- The peer that sent frames 0 and 1 keeps the one that arrived and drops the one
that did not. -/
theorem sack_drops_unseen :
    ∃ write ∈ (zeroAccepted.flushAckNow ⟨0, fun _ => .ok ()⟩).2.2,
      ∃ ack, readAck write.bytes = some ack ∧
        (ringOf [0, 1]).sack ack.ack ack.bitmap = ringOf [0] ∧
        ¬ Removes zeroAccepted.dedup (ringOf [0, 1])
          ((ringOf [0, 1]).sack ack.ack ack.bitmap) := by
  refine ⟨_, List.mem_singleton_self _, zeroAccepted.ackFrame, readAck_encodeAckFrame _, ?_, ?_⟩
  · decide +kernel
  · intro removes
    exact absurd removes.marked (by decide +kernel)

end Session

end Mlink.Core
