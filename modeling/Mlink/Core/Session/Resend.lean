/-
# Resending over another link

`flushUnackedOver` asks the ring for what it holds at or after number 0 and
writes that, entry by entry, until a write fails. On the circle "at or after 0" is
the lower half, so that an entry of the upper half is not among what is resent.
-/

import Mlink.Core.Session.Io
import Mlink.Protocol.RingHistory

namespace Mlink.Core

open Mlink.Protocol

namespace Session

/-- Write the entries over a link until a write fails. The world answers each write
in its turn. -/
def resend (session : Session) (linkId : String) :
    List (UInt32 × PendingFrame) → (Nat → LinkIo) → Result Unit × Session × List LinkWrite
  | [], _ => (.ok (), session, [])
  | (_, frame) :: rest, io =>
      let (attempt, session) := session.writeLink linkId frame.bytes (io 0)
      match attempt.outcome with
      | .error e => (.error e, session, [attempt])
      | .ok () =>
          let (result, session, writes) := session.resend linkId rest fun turn => io (turn + 1)
          (result, session, attempt :: writes)

/-- Write what the ring holds over the link again, under the old numbers. -/
def flushUnackedOver (session : Session) (linkId : String) (io : Nat → LinkIo) :
    Result Unit × Session × List LinkWrite :=
  match session.linkById linkId with
  | none => (.error session.noHealthyLink, session, [])
  | some link => session.resend link.id (session.unacked.unackedSince 0) io

/-- While every write succeeds, each entry is written once and in order. -/
theorem resend_of_succeeds (session : Session) {linkId : String}
    (entries : List (UInt32 × PendingFrame)) {io : Nat → LinkIo}
    (succeeds : ∀ turn, (io turn).write linkId = .ok ()) :
    (session.resend linkId entries io).2.2 =
      entries.map fun entry => ⟨linkId, entry.2.bytes, .ok ()⟩ := by
  induction entries generalizing session io with
  | nil => rfl
  | cons entry rest ih =>
      have hrest := ih (session.afterWrite linkId (io 0)) fun turn => succeeds (turn + 1)
      simp only [resend, writeLink, succeeds, hrest, List.map_cons]

/-- Half of the circle lies at or after number 0. -/
theorem seqGeq_zero_iff (seq : UInt32) : seqGeq seq 0 = true ↔ seq < 0x80000000 := by
  have hseq := seq.toNat_lt
  rw [seqGeq, decide_eq_true_iff, Serial.distance, UInt32.sub_zero, UInt32.lt_iff_toNat_lt]
  rfl

/-- What is kept of a list is the list exactly when all of it is kept. -/
theorem map_filter_eq_map_iff {α β : Type} (f : α → β) {p : α → Bool} {items : List α} :
    (items.filter p).map f = items.map f ↔ ∀ item ∈ items, p item = true := by
  constructor
  · intro hsame
    have hlength := congrArg List.length hsame
    rw [List.length_map, List.length_map] at hlength
    exact List.length_filter_eq_length_iff.mp hlength
  · intro hall
    rw [List.filter_eq_self.mpr hall]

/-- Over a link that writes everything, the whole ring is resent, once and in order,
exactly when every number it holds lies in the lower half of the circle. -/
theorem flushUnackedOver_eq_ring_iff (session : Session) {linkId : String} {link : Link}
    (attached : session.linkById linkId = some link) (io : Nat → LinkIo)
    (succeeds : ∀ turn, (io turn).write linkId = .ok ()) :
    (session.flushUnackedOver linkId io).2.2 =
        session.unacked.buf.map (fun entry => ⟨linkId, entry.2.bytes, .ok ()⟩) ↔
      ∀ entry ∈ session.unacked.buf, entry.1 < 0x80000000 := by
  simp only [flushUnackedOver, attached, id_of_linkById attached,
    resend_of_succeeds session _ succeeds, UnackedRing.unackedSince, map_filter_eq_map_iff,
    seqGeq_zero_iff]

/-- A session with one link, and nothing in its ring yet. -/
def overOneLink : Session :=
  { new "peer" 0 with links := [Link.new "tcp" 0 .tcp ⟨1000000⟩ 0] }

def allAnswered : Nat → LinkIo := fun _ => ⟨0, fun _ => .ok ()⟩

/-- Two entries just below the half are both resent. -/
theorem flushUnackedOver_eq_ring_below_half :
    let frames : List (UInt32 × PendingFrame) :=
      [(0x7FFFFFFE, ⟨[1], .message⟩), (0x7FFFFFFF, ⟨[2], .message⟩)]
    let session := { overOneLink with unacked := ⟨frames⟩ }
    (session.flushUnackedOver "tcp" allAnswered).2.2 =
      frames.map fun entry => ⟨"tcp", entry.2.bytes, .ok ()⟩ := by
  intro frames session
  have hbelow : ∀ entry ∈ session.unacked.buf, entry.1 < 0x80000000 := by decide
  have hattached : session.linkById "tcp" = some (Link.new "tcp" 0 .tcp ⟨1000000⟩ 0) := rfl
  exact (flushUnackedOver_eq_ring_iff session hattached allAnswered fun _ => rfl).mpr hbelow

/-! ## The upper half is reached -/

section Circle

variable {τ : Type}

/-- So many frames, each acknowledged before the next is sent. -/
def oneByOne (item : τ) : Nat → List (RingOp τ)
  | 0 => []
  | count + 1 => oneByOne item count ++ [.push item, .ackCum (UInt32.ofNat count)]

/-- They leave the ring empty and the numbering at the next number. -/
theorem run_oneByOne (item : τ) (count : Nat) :
    (RingHistory.run 0 (oneByOne item count)).ring = .new ∧
      (RingHistory.run 0 (oneByOne item count)).ledger.length = count := by
  induction count with
  | zero => exact ⟨rfl, rfl⟩
  | succ count ih =>
      obtain ⟨hring, hlength⟩ := ih
      rw [oneByOne, List.append_cons, RingHistory.run_append_singleton,
        RingHistory.run_append_singleton]
      refine ⟨?_, ?_⟩
      · simp [RingHistory.after, RingHistory.nextSeq, hring, hlength, UnackedRing.push,
          UnackedRing.new, UnackedRing.ackCum, UNACKED_RING_CAP, seqGeq, Serial.distance]
      · rw [← List.length_map Ledger.Entry.item, RingHistory.map_item_after,
          RingHistory.map_item_after]
        simp [RingOp.pushed, hlength]

/-- Every number is held alone in some run. -/
theorem exists_run_single (item : τ) (number : Nat) :
    ∃ ops, (RingHistory.run 0 ops).ring = ⟨[(UInt32.ofNat number, item)]⟩ := by
  obtain ⟨hring, hlength⟩ := run_oneByOne item number
  refine ⟨oneByOne item number ++ [.push item], ?_⟩
  rw [RingHistory.run_append_singleton]
  simp [RingHistory.after, RingHistory.nextSeq, hring, hlength, UnackedRing.push,
    UnackedRing.new, UNACKED_RING_CAP]

end Circle

/-- After `2 ^ 31` frames acknowledged one by one the next one is held, and a resend
that meets no error writes nothing. -/
theorem flushUnackedOver_skips_upper_half :
    ∃ ops, (RingHistory.run 0 ops).ring = ⟨[(0x80000000, ⟨[1], .message⟩)]⟩ ∧
      let session := { overOneLink with unacked := (RingHistory.run 0 ops).ring }
      (session.flushUnackedOver "tcp" allAnswered).1 = .ok () ∧
        (session.flushUnackedOver "tcp" allAnswered).2.2 = [] ∧
        (session.flushUnackedOver "tcp" allAnswered).2.2 ≠
          session.unacked.buf.map fun entry => ⟨"tcp", entry.2.bytes, .ok ()⟩ := by
  obtain ⟨ops, hring⟩ := exists_run_single (⟨[1], .message⟩ : PendingFrame) (2 ^ 31)
  have hnumber : UInt32.ofNat (2 ^ 31) = 0x80000000 := by decide
  rw [hnumber] at hring
  refine ⟨ops, hring, ?_⟩
  rw [hring]
  exact ⟨rfl, rfl, nofun⟩

end Session

end Mlink.Core
