/-
# What becomes of an entry

The ring over a whole history of pushes, whose numbers follow one another around
the circle from any start, and of acknowledgements of any kind. Beside it runs a
ledger of every entry ever pushed. The ring is the list of entries that the
ledger has as held, and each entry the ledger has as settled or evicted left the
ring at one acknowledgement that covers it or at one push that found it the oldest
of a full ring.
-/

import Mlink.Lib.Ledger
import Mlink.Protocol.Ack

namespace Mlink.Protocol

/-- One call on the ring. The number of a push follows from the pushes before it. -/
inductive RingOp (τ : Type)
  | push (item : τ)
  | ackCum (ack : UInt32)
  | sack (base : UInt32) (bitmap : BitVec 128)
  deriving DecidableEq, Repr

variable {τ : Type}

/-- The call acknowledges the number: cumulatively from less than half a turn after
it, or selectively by the bit for its distance from the base. -/
def RingOp.Covers : RingOp τ → UInt32 → Prop
  | .push _, _ => False
  | .ackCum ack, seq => Serial.distance ack seq < 2 ^ 31
  | .sack base bitmap, seq =>
      1 ≤ Serial.distance seq base ∧ Serial.distance seq base ≤ 128 ∧
        bitmap.getLsbD (Serial.distance seq base - 1) = true

/-- The item that the call pushes. -/
def RingOp.pushed : RingOp τ → Option τ
  | .push item => some item
  | .ackCum _ | .sack _ _ => none

instance (op : RingOp τ) (seq : UInt32) : Decidable (op.Covers seq) :=
  match op with
  | .push _ => inferInstanceAs (Decidable False)
  | .ackCum _ => inferInstanceAs (Decidable (_ < _))
  | .sack _ _ => inferInstanceAs (Decidable (_ ∧ _ ∧ _))

/-- The ring, and the ledger of all entries pushed, in push order. -/
structure RingHistory (τ : Type) where
  ring : UnackedRing τ
  ledger : List (Ledger.Entry (UInt32 × τ))

namespace RingHistory

def start : RingHistory τ := ⟨.new, []⟩

/-- The number of the next push, after a first one of the given number. -/
def nextSeq (first : UInt32) (history : RingHistory τ) : UInt32 :=
  first + UInt32.ofNat history.ledger.length

/-- The ledger with the entries settled that an acknowledgement covers. -/
def settledBy (history : RingHistory τ) (op : RingOp τ) : List (Ledger.Entry (UInt32 × τ)) :=
  Ledger.settle (fun entry => decide (op.Covers entry.1)) history.ledger

/-- One call on the ring, noted in the ledger. -/
def after (first : UInt32) (history : RingHistory τ) : RingOp τ → RingHistory τ
  | .push item =>
      ⟨(history.ring.push (history.nextSeq first) item).2,
        Ledger.accept UNACKED_RING_CAP history.ledger (history.nextSeq first, item)⟩
  | .ackCum ack => ⟨history.ring.ackCum ack, history.settledBy (.ackCum ack)⟩
  | .sack base bitmap => ⟨history.ring.sack base bitmap, history.settledBy (.sack base bitmap)⟩

/-- The history of a list of calls. -/
def run (first : UInt32) (ops : List (RingOp τ)) : RingHistory τ := ops.foldl (after first) start

theorem run_append_singleton (first : UInt32) (ops : List (RingOp τ)) (op : RingOp τ) :
    run first (ops ++ [op]) = (run first ops).after first op := by
  rw [run, List.foldl_append]
  rfl

/-! ## The ring is what the ledger holds -/

/-- A selective call covers what its map selects. -/
theorem covers_sack {base : UInt32} {bitmap : BitVec 128} {seq : UInt32} :
    (RingOp.sack base bitmap : RingOp τ).Covers seq ↔
      AckFrame.selects ⟨base, bitmap⟩ seq = true := by
  simp only [RingOp.Covers, AckFrame.selects, Nat.one_le_iff_ne_zero, Bool.and_eq_true,
    decide_eq_true_eq, and_assoc]
  rfl

/-- A selective drop removes what its call covers. -/
theorem sack_buf_eq_filter (ring : UnackedRing τ) (base : UInt32) (bitmap : BitVec 128) :
    (ring.sack base bitmap).buf =
      ring.buf.filter fun entry =>
        !decide ((RingOp.sack base bitmap : RingOp τ).Covers entry.1) := by
  simp only [AckFrame.buf_sack ⟨base, bitmap⟩ ring, covers_sack, Bool.decide_eq_true]

/-- One call keeps the ring equal to what the ledger holds. -/
theorem after_refines {first : UInt32} {history : RingHistory τ}
    (refines : history.ring.buf = Ledger.outstanding history.ledger) (op : RingOp τ) :
    (history.after first op).ring.buf = Ledger.outstanding (history.after first op).ledger := by
  cases op with
  | push item =>
      change (history.ring.push _ item).2.buf = _
      rw [UnackedRing.push_buf, refines]
      exact (Ledger.outstanding_accept _ _ _).symm
  | ackCum ack =>
      change (history.ring.ackCum ack).buf = _
      rw [UnackedRing.ackCum, refines]
      exact (Ledger.outstanding_settle _ _).symm
  | sack base bitmap =>
      change (history.ring.sack base bitmap).buf = _
      rw [sack_buf_eq_filter, refines]
      exact (Ledger.outstanding_settle _ _).symm

theorem ring_buf_run (first : UInt32) (ops : List (RingOp τ)) :
    (run first ops).ring.buf = Ledger.outstanding (run first ops).ledger := by
  induction ops using List.reverseRecOn with
  | nil => rfl
  | append_singleton ops op ih =>
      rw [run_append_singleton]
      exact after_refines ih op

/-- No call leaves more than a full ring. -/
theorem length_run_le (first : UInt32) (ops : List (RingOp τ)) :
    (run first ops).ring.buf.length ≤ UNACKED_RING_CAP := by
  induction ops using List.reverseRecOn with
  | nil => simp [run, start, UnackedRing.new]
  | append_singleton ops op ih =>
      rw [run_append_singleton]
      cases op with
      | push item =>
          change ((run first ops).ring.push _ item).2.buf.length ≤ _
          rw [UnackedRing.push_buf]
          split_ifs with hfull
          · simp only [List.length_append, List.length_tail, List.length_singleton]
            simp only [UNACKED_RING_CAP] at hfull ih ⊢
            omega
          · simp only [List.length_append, List.length_singleton]
            omega
      | ackCum ack => exact le_trans (List.length_filter_le _ _) ih
      | sack base bitmap =>
          change ((run first ops).ring.sack base bitmap).buf.length ≤ _
          rw [sack_buf_eq_filter]
          exact le_trans (List.length_filter_le _ _) ih

/-! ## Every entry ever pushed -/

/-- The items pushed by a list of calls, in order. -/
def pushes (ops : List (RingOp τ)) : List τ := ops.filterMap RingOp.pushed

/-- A call adds at most the item it pushes to what the ledger lists. -/
theorem map_item_after (first : UInt32) (history : RingHistory τ) (op : RingOp τ) :
    (history.after first op).ledger.map Ledger.Entry.item =
      history.ledger.map Ledger.Entry.item ++
        op.pushed.toList.map fun item => (history.nextSeq first, item) := by
  cases op with
  | push item => exact Ledger.map_item_accept _ _ _
  | ackCum ack => simp [after, settledBy, RingOp.pushed]
  | sack base bitmap => simp [after, settledBy, RingOp.pushed]

/-- The ledger lists the pushes in order, under consecutive numbers. -/
theorem map_item_run (first : UInt32) (ops : List (RingOp τ)) :
    (run first ops).ledger.map Ledger.Entry.item =
      (pushes ops).zipIdx.map fun (item, number) => (first + UInt32.ofNat number, item) := by
  induction ops using List.reverseRecOn with
  | nil => rfl
  | append_singleton ops op ih =>
      have hlength := congrArg List.length ih
      rw [List.length_map, List.length_map, List.length_zipIdx] at hlength
      have hpushes : pushes (ops ++ [op]) = pushes ops ++ op.pushed.toList := by
        rw [pushes, List.filterMap_append]
        cases op <;> rfl
      rw [run_append_singleton, map_item_after, ih, nextSeq, hlength, hpushes,
        List.zipIdx_append, List.map_append]
      cases op <;> simp [RingOp.pushed]

/-- How an entry leaves the ring at a call: covered by an acknowledgement, or handed
back by a push that found it the oldest of a full ring. -/
inductive LeavesAt (first : UInt32) (history : RingHistory τ) (seq : UInt32) (item : τ) :
    RingOp τ → Ledger.Fate → Prop
  | acked {op : RingOp τ} (covers : op.Covers seq) : LeavesAt first history seq item op .settled
  | evicted {next : τ} (full : history.ring.buf.length = UNACKED_RING_CAP)
      (oldest : history.ring.buf.head? = some (seq, item))
      (returned : (history.ring.push (history.nextSeq first) next).1 = some (seq, item)) :
      LeavesAt first history seq item (.push next) .evicted

/-- An entry of the ledger after a call was there before with the same fate, is the
one just pushed, or was held and left the ring at the call. -/
theorem getElem?_after {first : UInt32} {history : RingHistory τ}
    (refines : history.ring.buf = Ledger.outstanding history.ledger)
    (bounded : history.ring.buf.length ≤ UNACKED_RING_CAP) {op : RingOp τ} {place : Nat}
    {entry : Ledger.Entry (UInt32 × τ)}
    (found : (history.after first op).ledger[place]? = some entry) :
    history.ledger[place]? = some entry ∨ entry.fate = .held ∨
      history.ledger[place]? = some ⟨entry.item, .held⟩ ∧
        LeavesAt first history entry.item.1 entry.item.2 op entry.fate := by
  have hsettled : ∀ op : RingOp τ,
      (history.settledBy op)[place]? = some entry →
        history.ledger[place]? = some entry ∨ entry.fate = .held ∨
          history.ledger[place]? = some ⟨entry.item, .held⟩ ∧
            LeavesAt first history entry.item.1 entry.item.2 op entry.fate := by
    intro op hfound
    rcases Ledger.getElem?_settle hfound with hsame | ⟨hfate, hheld, hcovers⟩
    · exact .inl hsame
    · rw [hfate]
      exact .inr (.inr ⟨hheld, .acked (of_decide_eq_true hcovers)⟩)
  cases op with
  | ackCum ack => exact hsettled _ found
  | sack base bitmap => exact hsettled _ found
  | push item =>
      change (Ledger.accept _ _ _)[place]? = _ at found
      rw [Ledger.accept, List.getElem?_append] at found
      split_ifs at found with hfull hplace hplace
      · rcases Ledger.getElem?_evictOldest found with hsame | ⟨hfate, hheld, holdest⟩
        · exact .inl hsame
        · -- the ledger holds as many as the ring, and they start with the same entry
          rw [← refines] at hfull holdest
          rw [hfate]
          refine .inr (.inr ⟨hheld, .evicted (le_antisymm bounded hfull) holdest ?_⟩)
          rw [UnackedRing.push, if_pos hfull]
          exact holdest
      · right; left
        rw [List.getElem?_singleton] at found
        split_ifs at found
        rw [← Option.some.inj found]
      · exact .inl found
      · right; left
        rw [List.getElem?_singleton] at found
        split_ifs at found
        rw [← Option.some.inj found]

/-- The account of a history: the ring holds at most its capacity, and it is the list
of the entries held, in push order. Every entry ever pushed is in the ledger once,
at its place and with its number, and an entry not held left the ring at one later
call, before which it was held. -/
structure Accounts (first : UInt32) (ops : List (RingOp τ)) : Prop where
  bounded : (run first ops).ring.buf.length ≤ UNACKED_RING_CAP
  held : (run first ops).ring.buf = Ledger.outstanding (run first ops).ledger
  pushed : (run first ops).ledger.map Ledger.Entry.item =
    (pushes ops).zipIdx.map fun (item, number) => (first + UInt32.ofNat number, item)
  left : ∀ (place : Nat) (seq : UInt32) (item : τ) (fate : Ledger.Fate), fate ≠ .held →
    (run first ops).ledger[place]? = some ⟨(seq, item), fate⟩ →
      ∃ earlier op later, ops = earlier ++ op :: later ∧
        (run first earlier).ledger[place]? = some ⟨(seq, item), .held⟩ ∧
          LeavesAt first (run first earlier) seq item op fate

/-- The ring accounts for every entry, over every history. -/
theorem accounts_run (first : UInt32) (ops : List (RingOp τ)) : Accounts first ops where
  bounded := length_run_le first ops
  held := ring_buf_run first ops
  pushed := map_item_run first ops
  left := by
    induction ops using List.reverseRecOn with
    | nil => simp [run, start]
    | append_singleton ops op ih =>
        intro place seq item fate hfate hfound
        rw [run_append_singleton] at hfound
        rcases getElem?_after (ring_buf_run first ops) (length_run_le first ops) hfound with
          hsame | hheld | ⟨hheld, hleaves⟩
        · obtain ⟨earlier, taken, later, hsplit, hbefore, hleaves⟩ :=
            ih place seq item fate hfate hsame
          exact ⟨earlier, taken, later ++ [op], by rw [hsplit]; simp, hbefore, hleaves⟩
        · exact absurd hheld hfate
        · exact ⟨ops, op, [], rfl, hheld, hleaves⟩

/-- Across the wrap: a selective acknowledgement takes the middle of three entries, a
stale cumulative one takes none, and a late one takes the first. -/
example : (run 0xFFFFFFFE [.push 'a', .push 'b', .push 'c', .sack 0xFFFFFFFE 1,
    .ackCum 0xFFFFFFF0, .ackCum 0xFFFFFFFF]).ledger =
      [⟨(0xFFFFFFFE, 'a'), .settled⟩, ⟨(0xFFFFFFFF, 'b'), .settled⟩, ⟨(0, 'c'), .held⟩] := by
  decide +kernel

end RingHistory

end Mlink.Protocol
