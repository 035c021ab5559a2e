/-
# What an acknowledgement may remove

A sending and a receiving session over links that lose, reorder and duplicate.
Every number has a logical value beside its wire form, and the world records
which numbers the receiver's window accepted and which entries an
acknowledgement removed from the sender's ring.

An acknowledgement carries the top of the window as its cumulative number,
whatever is missing below it, and the window's map, whose bit `i` stands for
`top - i` where it is filled in and for `top + 1 + i` where it is read. Removal
is safe exactly when nothing held lies in a gap below the top or is the mirror
image of a number seen.
-/

import Mlink.Core.Session.Reader
import Mlink.Lib.Transition
import Mlink.Protocol.Window

namespace Mlink.Core

open Mlink.Protocol

/-- An acknowledgement on its way, with the top and the accepted numbers of the
window it was made from. -/
structure SentAck where
  frame : AckFrame
  top : Nat
  seen : List Nat
  deriving DecidableEq, Repr

/-- Both sessions, the network, and what has happened so far. Frames and
acknowledgements stay in flight for good, so they can be delivered late, often
or never. -/
structure World where
  sender : Session
  receiver : Session
  /-- How many numbers the sender has handed out. -/
  sent : Nat
  /-- Numbers whose frame is out and not yet recorded in the ring. -/
  pending : List Nat
  /-- The numbers of the ring, oldest first. -/
  held : List Nat
  frames : List (Nat × Bytes)
  acks : List SentAck
  /-- The highest number accepted. -/
  top : Nat
  accepted : List Nat
  /-- The numbers of the entries removed by an acknowledgement. -/
  removed : List Nat
  deriving DecidableEq, Repr

namespace World

/-- One step of either party or of the network. -/
inductive Event
  | write (payload : Bytes)
  | record (seq : Nat) (frame : PendingFrame)
  | deliver (seq : Nat) (payload : Bytes) (io : LinkIo)
  | flush (io : LinkIo)
  | deliverAck (ack : SentAck) (io : LinkIo)
  | relink (links : List Link) (active : Option String)

/-- The start of a run: two fresh sessions over any links. -/
def start (sender receiver : Session) : World where
  sender := { sender with sendSeq := .new, unacked := .new }
  receiver := { receiver with dedup := .new, ackPending := .default }
  sent := 0
  pending := []
  held := []
  frames := []
  acks := []
  top := 0
  accepted := []
  removed := []

/-- When a step can be taken. -/
def Enabled (world : World) : Event → Prop
  | .write payload => payload.length ≤ 65531
  | .record seq _ => seq ∈ world.pending
  | .deliver seq payload _ => (seq, payload) ∈ world.frames
  | .deliverAck ack _ => ack ∈ world.acks
  | .flush _ | .relink _ _ => True

/-- The acknowledgements that the receiver's writes put in flight. -/
def sendAcks (receiver : Session) (top : Nat) (seen : List Nat) (writes : List LinkWrite) :
    List SentAck :=
  writes.map fun _ => ⟨receiver.ackFrame, top, seen⟩

instance (world : World) (event : Event) : Decidable (world.Enabled event) :=
  match event with
  | .write payload => inferInstanceAs (Decidable (payload.length ≤ 65531))
  | .record seq _ => inferInstanceAs (Decidable (seq ∈ world.pending))
  | .deliver seq payload _ => inferInstanceAs (Decidable ((seq, payload) ∈ world.frames))
  | .deliverAck ack _ => inferInstanceAs (Decidable (ack ∈ world.acks))
  | .flush _ => inferInstanceAs (Decidable True)
  | .relink _ _ => inferInstanceAs (Decidable True)

/-- The state after a step. -/
def after (world : World) : Event → World
  | .write payload =>
      { world with
        sender := world.sender.spendSeq
        sent := world.sent + 1
        pending := world.pending ++ [world.sent]
        frames := world.frames ++ [(world.sent, payload)] }
  | .record seq frame =>
      { world with
        sender := world.sender.recordUnacked (UInt32.ofNat seq) frame.bytes frame.msgType
        pending := world.pending.erase seq
        held := (if UNACKED_RING_CAP ≤ world.held.length then world.held.tail else world.held) ++
          [seq] }
  | .deliver seq payload io =>
      let (outcome, receiver, writes) := world.receiver.handleBytes
        (encodeFrame (Session.dataFrame (UInt32.ofNat seq) payload)) io
      let isNew := outcome = .msg (UInt32.ofNat seq) payload
      let top := if isNew then max world.top seq else world.top
      let accepted := if isNew then seq :: world.accepted else world.accepted
      { world with
        receiver, top, accepted
        acks := world.acks ++ sendAcks receiver top accepted writes }
  | .flush io =>
      let (_, receiver, writes) := world.receiver.flushAckNow io
      { world with
        receiver
        acks := world.acks ++ sendAcks receiver world.top world.accepted writes }
  | .deliverAck ack io =>
      { world with
        sender := (world.sender.handleBytes (encodeAckFrame ack.frame) io).2.1
        held := world.held.filter fun seq => !ack.frame.covers (UInt32.ofNat seq)
        removed := world.removed ++
          world.held.filter fun seq => ack.frame.covers (UInt32.ofNat seq) }
  | .relink links active =>
      { world with receiver := { world.receiver with links, active } }

/-- The runs of two sessions. -/
def system : Transition.System World Event where
  init world := ∃ sender receiver, world = start sender receiver
  step source event target := source.Enabled event ∧ target = source.after event

/-! ## The two conditions -/

/-- Fewer than half a turn is outstanding: the numbers a delivery compares are
within half a turn of the newest one. -/
def Near (world : World) : Event → Prop
  | .deliver seq _ _ =>
      world.sent ≤ seq + 2 ^ 31 ∧ (world.accepted ≠ [] → world.sent ≤ world.top + 2 ^ 31)
  | .deliverAck ack _ =>
      world.sent ≤ ack.top + 2 ^ 31 ∧ ∀ seq ∈ world.held, world.sent ≤ seq + 2 ^ 31
  | _ => True

instance (world : World) (event : Event) : Decidable (world.Near event) :=
  match event with
  | .deliver _ _ _ | .deliverAck _ _ => inferInstanceAs (Decidable (_ ∧ _))
  | .write _ | .record _ _ | .flush _ | .relink _ _ => inferInstanceAs (Decidable True)

/-- A delivered acknowledgement meets no gap and no mirror image: what the
sender holds at or below the top has arrived, and so has what it holds as far
above `top + 1` as some number the window had seen lies below `top`. -/
def Aligned (world : World) : Event → Prop
  | .deliverAck ack _ =>
      (∀ seq ∈ world.held, seq ≤ ack.top → seq ∈ world.accepted) ∧
        ∀ seq ∈ world.held, ∀ i < 128, seq = ack.top + 1 + i → i ≤ ack.top →
          ack.top - i ∈ ack.seen → seq ∈ world.accepted
  | _ => True

instance (world : World) (event : Event) : Decidable (world.Aligned event) :=
  match event with
  | .deliverAck _ _ => inferInstanceAs (Decidable (_ ∧ _))
  | .write _ | .record _ _ | .deliver _ _ _ | .flush _ | .relink _ _ =>
      inferInstanceAs (Decidable True)

/-! ## What an acknowledgement covers -/

/-- Within half a turn, an acknowledgement made from a window covers what is at
or below its top and the mirror images of what the window had seen. -/
theorem covers_iff {bits : BitVec 128} {top seq : Nat} {seen : List Nat}
    (shows : DedupWindow.Shows bits top seen) (forward : seq < top + 2 ^ 31)
    (backward : top < seq + 2 ^ 31) :
    (⟨UInt32.ofNat top, bits⟩ : AckFrame).covers (UInt32.ofNat seq) = true ↔
      seq ≤ top ∨ ∃ i < 128, seq = top + 1 + i ∧ i ≤ top ∧ top - i ∈ seen := by
  have hcum : seqGeq (UInt32.ofNat top) (UInt32.ofNat seq) = true ↔ seq ≤ top := by
    rw [seqGeq, decide_eq_true_eq]
    exact Serial.distance_lt_half_iff backward forward
  rw [AckFrame.covers, Bool.or_eq_true, hcum]
  by_cases hle : seq ≤ top
  · simp [hle]
  · have hdistance : Serial.distance (UInt32.ofNat seq) (UInt32.ofNat top) = seq - top :=
      Serial.distance_of_le (by omega) (by omega)
    simp only [hle, false_or, AckFrame.selects, hdistance, SACK_WINDOW, Bool.and_eq_true,
      decide_eq_true_eq]
    constructor
    · rintro ⟨⟨hne, hreach⟩, hbit⟩
      obtain ⟨hin, hmem⟩ := (shows (seq - top - 1) (by omega)).mp hbit
      exact ⟨seq - top - 1, by omega, by omega, hin, hmem⟩
    · rintro ⟨i, hi, rfl, hin, hmem⟩
      have hindex : top + 1 + i - top - 1 = i := by omega
      rw [hindex]
      exact ⟨⟨by omega, by omega⟩, (shows i hi).mpr ⟨hin, hmem⟩⟩

/-! ## The invariant -/

/-- The receiver's window stands for what was accepted; before the first frame
it owes nothing. -/
def WindowSound (world : World) : Prop :=
  (world.receiver.dedup.seen = false ∧ world.accepted = [] ∧ world.top = 0 ∧
      world.receiver.ackPending.count = 0) ∨
    world.receiver.dedup.Represents world.top world.accepted

/-- An acknowledgement in flight is the snapshot of a window whose top is among
the numbers handed out. -/
structure SentAck.Sound (sent : Nat) (ack : SentAck) : Prop where
  number : ack.frame.ack = UInt32.ofNat ack.top
  shows : DedupWindow.Shows ack.frame.bitmap ack.top ack.seen
  sent : ack.top < sent

/-- What holds in every run with less than half a turn outstanding: the wire
counters, the ring and the window are what the logical numbers say. -/
structure Sound (world : World) : Prop where
  counter : world.sender.sendSeq.nextSeq = UInt32.ofNat world.sent
  ring : world.sender.unacked.buf.map Prod.fst = world.held.map UInt32.ofNat
  pending : ∀ seq ∈ world.pending, seq < world.sent
  held : ∀ seq ∈ world.held, seq < world.sent
  frames : ∀ frame ∈ world.frames, frame.1 < world.sent ∧ frame.2.length ≤ 65531
  window : world.WindowSound
  accepted : ∀ seq ∈ world.accepted, seq < world.sent
  acks : ∀ ack ∈ world.acks, SentAck.Sound world.sent ack

theorem sound_start (sender receiver : Session) : (start sender receiver).Sound where
  counter := rfl
  ring := rfl
  pending := by simp [start]
  held := by simp [start]
  frames := by simp [start]
  window := .inl ⟨rfl, rfl, rfl, rfl⟩
  accepted := by simp [start]
  acks := by simp [start]

variable {world : World}

/-- Handing out one more number keeps acknowledgements in range. -/
theorem SentAck.Sound.mono {sent later : Nat} {ack : SentAck}
    (sound : SentAck.Sound sent ack) (hlater : sent ≤ later) : SentAck.Sound later ack :=
  ⟨sound.number, sound.shows, lt_of_lt_of_le sound.sent hlater⟩

/-- The acknowledgement of a window in use states its top and shows its map. -/
theorem sound_sendAcks {receiver : Session} {sent top : Nat} {seen : List Nat}
    {writes : List LinkWrite} (represents : receiver.dedup.Represents top seen)
    (hsent : top < sent) :
    ∀ ack ∈ sendAcks receiver top seen writes, SentAck.Sound sent ack := by
  intro ack hack
  obtain ⟨_, _, rfl⟩ := List.mem_map.mp hack
  have hframe : receiver.ackFrame = ⟨receiver.dedup.last, receiver.dedup.bits⟩ := by
    simp [Session.ackFrame, DedupWindow.snapshot, represents.used]
  refine ⟨?_, ?_, hsent⟩
  · rw [hframe]
    exact represents.last
  · rw [hframe]
    exact represents.shows

theorem sound_write (sound : world.Sound) (payload : Bytes) (fits : payload.length ≤ 65531) :
    (world.after (.write payload)).Sound where
  counter := by
    show world.sender.sendSeq.nextSeq + 1 = UInt32.ofNat (world.sent + 1)
    rw [sound.counter, Serial.ofNat_succ]
  ring := sound.ring
  pending := by
    intro seq hseq
    rcases List.mem_append.mp hseq with hold | hnew
    · exact Nat.lt_succ_of_lt (sound.pending seq hold)
    · rw [List.mem_singleton.mp hnew]
      exact Nat.lt_succ_self _
  held := fun seq hseq => Nat.lt_succ_of_lt (sound.held seq hseq)
  frames := by
    intro frame hframe
    rcases List.mem_append.mp hframe with hold | hnew
    · obtain ⟨hlt, hlength⟩ := sound.frames frame hold
      exact ⟨Nat.lt_succ_of_lt hlt, hlength⟩
    · rw [List.mem_singleton.mp hnew]
      exact ⟨Nat.lt_succ_self _, fits⟩
  window := sound.window
  accepted := fun seq hseq => Nat.lt_succ_of_lt (sound.accepted seq hseq)
  acks := fun ack hack => (sound.acks ack hack).mono (Nat.le_succ _)

theorem sound_record (sound : world.Sound) (seq : Nat) (frame : PendingFrame)
    (hpending : seq ∈ world.pending) : (world.after (.record seq frame)).Sound where
  counter := sound.counter
  ring := by
    have hlength : world.sender.unacked.buf.length = world.held.length := by
      simpa using congrArg List.length sound.ring
    show ((world.sender.unacked.push (UInt32.ofNat seq)
      ⟨frame.bytes, frame.msgType⟩).2.buf.map Prod.fst) = _
    rw [UnackedRing.push_buf, hlength]
    simp only [after]
    split_ifs
    · simp [List.map_tail, sound.ring]
    · simp [sound.ring]
  pending := fun other hother => sound.pending other (List.mem_of_mem_erase hother)
  held := by
    intro other hother
    rcases List.mem_append.mp hother with hold | hnew
    · apply sound.held other
      split_ifs at hold
      · exact List.mem_of_mem_tail hold
      · exact hold
    · rw [List.mem_singleton.mp hnew]
      exact sound.pending seq hpending
  frames := sound.frames
  window := sound.window
  accepted := sound.accepted
  acks := sound.acks

/-- A delivered frame: the window moves to what it stands for with the number
added, and a snapshot of it may go out. -/
theorem sound_deliver (sound : world.Sound) (seq : Nat) (payload : Bytes) (io : LinkIo)
    (hframe : (seq, payload) ∈ world.frames) (near : world.Near (.deliver seq payload io)) :
    (world.after (.deliver seq payload io)).Sound := by
  obtain ⟨hlt, hlength⟩ := sound.frames _ hframe
  obtain ⟨hnew, hdedup, _, hquiet⟩ :=
    Session.handleBytes_dataFrame world.receiver (UInt32.ofNat seq) payload io hlength
  rcases hhandled : world.receiver.handleBytes
    (encodeFrame (Session.dataFrame (UInt32.ofNat seq) payload)) io with
    ⟨outcome, receiver, writes⟩
  rw [hhandled] at hnew hdedup hquiet
  dsimp only at hnew hdedup hquiet
  -- the window after the step, and whether the number was new
  have hwindow : (outcome = .msg (UInt32.ofNat seq) payload →
        receiver.dedup.Represents (max world.top seq) (seq :: world.accepted)) ∧
      (outcome ≠ .msg (UInt32.ofNat seq) payload →
        receiver.dedup.Represents world.top world.accepted) := by
    rcases sound.window with ⟨hfresh, hnone, htop, _⟩ | hrepresents
    · obtain ⟨haccept, hfirst⟩ := DedupWindow.represents_first hfresh seq
      rw [hnone, htop, Nat.zero_max, hdedup]
      exact ⟨fun _ => hfirst, fun hne => absurd (hnew.mpr haccept) hne⟩
    · have htop := sound.accepted _ hrepresents.top_mem
      have hnear := near.2 (List.ne_nil_of_mem hrepresents.top_mem)
      have hseq := near.1
      have hforward : seq < world.top + 2 ^ 31 := by omega
      have hbackward : world.top < seq + 2 ^ 31 := by omega
      obtain ⟨_, hadded, hsame⟩ :=
        DedupWindow.represents_observe hrepresents hforward hbackward
      rw [hdedup]
      refine ⟨fun heq => hadded (hnew.mp heq), fun hne => ?_⟩
      rw [hsame fun haccept => hne (hnew.mpr haccept)]
      exact hrepresents
  simp only [after, hhandled]
  by_cases heq : outcome = .msg (UInt32.ofNat seq) payload
  · have hrepresents := hwindow.1 heq
    simp only [heq, if_true]
    have haccepted : ∀ other ∈ seq :: world.accepted, other < world.sent := by
      intro other hother
      rcases List.mem_cons.mp hother with rfl | hmem
      · exact hlt
      · exact sound.accepted other hmem
    refine ⟨sound.counter, sound.ring, sound.pending, sound.held, sound.frames,
      .inr hrepresents, haccepted, ?_⟩
    intro ack hack
    rcases List.mem_append.mp hack with hold | hsent
    · exact sound.acks ack hold
    · exact sound_sendAcks hrepresents (haccepted _ hrepresents.top_mem) ack hsent
  · have hnone : writes = [] :=
      (hquiet fun haccept => heq (hnew.mpr haccept)).2
    simp only [heq, if_false, hnone, sendAcks, List.map_nil, List.append_nil]
    exact ⟨sound.counter, sound.ring, sound.pending, sound.held, sound.frames,
      .inr (hwindow.2 heq), sound.accepted, sound.acks⟩

/-- Paying the debt puts snapshots of the window in flight. -/
theorem sound_flush (sound : world.Sound) (io : LinkIo) : (world.after (.flush io)).Sound := by
  obtain ⟨hdedup, _, _, hzero⟩ := Session.flushAckNow_spec world.receiver io
  rcases hflush : world.receiver.flushAckNow io with ⟨result, receiver, writes⟩
  rw [hflush] at hdedup hzero
  dsimp only at hdedup hzero
  simp only [after, hflush]
  rcases sound.window with hfresh | hrepresents
  · obtain ⟨hsame, hnone⟩ := hzero hfresh.2.2.2
    subst hsame hnone
    refine ⟨sound.counter, sound.ring, sound.pending, sound.held, sound.frames, .inl hfresh,
      sound.accepted, ?_⟩
    simpa [sendAcks] using sound.acks
  · rw [← hdedup] at hrepresents
    refine ⟨sound.counter, sound.ring, sound.pending, sound.held, sound.frames,
      .inr hrepresents, sound.accepted, ?_⟩
    intro ack hack
    rcases List.mem_append.mp hack with hold | hsent
    · exact sound.acks ack hold
    · exact sound_sendAcks hrepresents (sound.accepted _ hrepresents.top_mem) ack hsent

theorem sound_deliverAck (sound : world.Sound) (ack : SentAck) (io : LinkIo) :
    (world.after (.deliverAck ack io)).Sound := by
  simp only [after, Session.handleBytes_encodeAckFrame]
  refine ⟨sound.counter, ?_, sound.pending, ?_, sound.frames, sound.window, sound.accepted,
    sound.acks⟩
  · show (((world.sender.unacked.ackCum ack.frame.ack).sack ack.frame.ack
      ack.frame.bitmap).buf.map Prod.fst) = _
    have hmap : (world.sender.unacked.buf.filter fun entry => !ack.frame.covers entry.1).map
        Prod.fst = (world.sender.unacked.buf.map Prod.fst).filter fun seq =>
          !ack.frame.covers seq := by
      rw [List.filter_map]
      rfl
    rw [AckFrame.buf_ackCum_sack, hmap, sound.ring, List.filter_map]
    rfl
  · intro seq hseq
    exact sound.held seq (List.mem_filter.mp hseq).1

/-- Every step with less than half a turn outstanding keeps the invariant. -/
theorem sound_after (sound : world.Sound) {event : Event} (enabled : world.Enabled event)
    (near : world.Near event) : (world.after event).Sound := by
  cases event with
  | write payload => exact sound_write sound payload enabled
  | record seq frame => exact sound_record sound seq frame enabled
  | deliver seq payload io => exact sound_deliver sound seq payload io enabled near
  | flush io => exact sound_flush sound io
  | deliverAck ack io => exact sound_deliverAck sound ack io
  | relink links active =>
      exact ⟨sound.counter, sound.ring, sound.pending, sound.held, sound.frames, sound.window,
        sound.accepted, sound.acks⟩

/-! ## Safety -/

/-- An acknowledgement covers only accepted entries exactly when it meets no
gap and no mirror image. -/
theorem covers_accepted_iff (sound : world.Sound) {ack : SentAck} {io : LinkIo}
    (hack : ack ∈ world.acks) (near : world.Near (.deliverAck ack io)) :
    (∀ seq ∈ world.held, ack.frame.covers (UInt32.ofNat seq) = true → seq ∈ world.accepted) ↔
      world.Aligned (.deliverAck ack io) := by
  obtain ⟨hnumber, hshows, hsent⟩ := sound.acks ack hack
  have hcovers : ∀ seq ∈ world.held, ack.frame.covers (UInt32.ofNat seq) = true ↔
      seq ≤ ack.top ∨ ∃ i < 128, seq = ack.top + 1 + i ∧ i ≤ ack.top ∧
        ack.top - i ∈ ack.seen := by
    intro seq hseq
    have hforward := sound.held seq hseq
    have hnearTop := near.1
    have hnearSeq := near.2 seq hseq
    have hframe : ack.frame = ⟨UInt32.ofNat ack.top, ack.frame.bitmap⟩ := by rw [← hnumber]
    rw [hframe]
    exact covers_iff hshows (by omega) (by omega)
  constructor
  · intro hsafe
    constructor
    · intro seq hseq hle
      exact hsafe seq hseq ((hcovers seq hseq).mpr (.inl hle))
    · intro seq hseq i hi hseqEq hin hmem
      exact hsafe seq hseq ((hcovers seq hseq).mpr (.inr ⟨i, hi, hseqEq, hin, hmem⟩))
  · rintro ⟨hgap, hmirror⟩ seq hseq hcovered
    rcases (hcovers seq hseq).mp hcovered with hle | ⟨i, hi, hseqEq, hin, hmem⟩
    · exact hgap seq hseq hle
    · exact hmirror seq hseq i hi hseqEq hin hmem

/-- A step removes only accepted entries, if its acknowledgement is aligned;
nothing accepted is ever forgotten. -/
theorem removed_after (sound : world.Sound) {event : Event} (enabled : world.Enabled event)
    (near : world.Near event) (aligned : world.Aligned event)
    (safe : ∀ seq ∈ world.removed, seq ∈ world.accepted) :
    ∀ seq ∈ (world.after event).removed, seq ∈ (world.after event).accepted := by
  cases event with
  | write payload => exact safe
  | record seq frame => exact safe
  | flush io =>
      simp only [after]
      exact safe
  | relink links active => exact safe
  | deliver seq payload io =>
      simp only [after]
      intro other hother
      split_ifs
      · exact List.mem_cons_of_mem _ (safe other hother)
      · exact safe other hother
  | deliverAck ack io =>
      rw [after]
      intro seq hseq
      rcases List.mem_append.mp hseq with hold | hnew
      · exact safe seq hold
      · obtain ⟨hheld, hcovers⟩ := List.mem_filter.mp hnew
        exact (covers_accepted_iff sound enabled near).mpr aligned seq hheld hcovers

/-- Acknowledgement safety: in every run with less than half a turn outstanding
and no acknowledgement that meets a gap or a mirror image, an acknowledgement
removes only entries whose number the window had accepted. -/
theorem accepted_of_removed
    (reached : (system.restrict fun world event =>
      world.Near event ∧ world.Aligned event).Reachable world) :
    ∀ seq ∈ world.removed, seq ∈ world.accepted := by
  have hsafe : world.Sound ∧ ∀ seq ∈ world.removed, seq ∈ world.accepted := by
    apply reached.invariant fun world =>
      world.Sound ∧ ∀ seq ∈ world.removed, seq ∈ world.accepted
    · rintro state ⟨sender, receiver, rfl⟩
      exact ⟨sound_start sender receiver, by simp [start]⟩
    · rintro source event target _ ⟨sound, safe⟩ ⟨⟨enabled, rfl⟩, near, aligned⟩
      exact ⟨sound_after sound enabled near, removed_after sound enabled near aligned safe⟩
  exact hsafe.2

/-! ## Two runs -/

/-- A session with one link to write acknowledgements over. -/
def linked : Session :=
  { Session.new "peer" 0 with
    links := [Link.new "tcp" 0 .tcp ⟨1000000⟩ 0], active := some "tcp" }

/-- Every write succeeds. -/
def calm : LinkIo := ⟨0, fun _ => .ok ()⟩

/-- One frame goes out, arrives and is acknowledged. -/
def plainRun : List Event :=
  [.write [97], .record 0 ⟨[97], .message⟩, .deliver 0 [97] calm, .flush calm,
    .deliverAck ⟨⟨0, 1⟩, 0, [0]⟩ calm]

/-- In it the one entry is removed, and its number had been accepted. -/
theorem accepted_of_removed_plain :
    ((plainRun.foldl after (start linked linked)).removed = [0]) ∧
      ∀ seq ∈ (plainRun.foldl after (start linked linked)).removed,
        seq ∈ (plainRun.foldl after (start linked linked)).accepted := by
  refine ⟨by decide, accepted_of_removed ?_⟩
  have hstart : (system.restrict fun world event =>
      world.Near event ∧ world.Aligned event).Reachable (start linked linked) :=
    .init ⟨linked, linked, rfl⟩
  refine hstart.run (show Transition.System.Run _ _ plainRun _ from ?_)
  iterate 5 refine .cons ⟨⟨?_, rfl⟩, ?_, ?_⟩ ?_ <;> try decide
  exact .nil _

/-- Three frames go out and are recorded; only the middle one arrives; its
acknowledgement comes back. -/
def gapRun : List Event :=
  [.write [97], .write [98], .write [99],
    .record 0 ⟨[97], .message⟩, .record 1 ⟨[98], .message⟩, .record 2 ⟨[99], .message⟩,
    .deliver 1 [98] calm, .flush calm, .deliverAck ⟨⟨1, 1⟩, 1, [1]⟩ calm]

/-- The first frame is in the gap below the top and the third is the mirror
image of the second: all three are removed, and only the second was accepted. -/
theorem removes_unaccepted :
    ∃ world, (system.restrict Near).Run (start linked linked) gapRun world ∧
      world.removed = [0, 1, 2] ∧ world.accepted = [1] ∧ world.sender.unacked.buf = [] := by
  refine ⟨gapRun.foldl after (start linked linked), ?_, by decide, by decide, by decide⟩
  iterate 9 refine .cons ⟨⟨?_, rfl⟩, ?_⟩ ?_ <;> try decide
  exact .nil _

end World

end Mlink.Core
