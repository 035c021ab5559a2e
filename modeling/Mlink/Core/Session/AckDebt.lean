/-
# The acknowledgement debt

Beside a session runs a plain count of the frames it has accepted since it last
wrote an acknowledgement. `ackPending` is meant to be that count. `flushAckNow`
empties it before it knows whether the acknowledgement goes out: without an
active link it stays empty, and after a failed write it stands at one whatever
it was.
-/

import Mlink.Core.Session.Reader
import Mlink.Lib.Transition

namespace Mlink.Core

open Mlink.Protocol

/-- A session, and how many frames it accepted since its last acknowledgement that
was written. -/
structure Debtor where
  session : Session
  owed : Nat
  deriving DecidableEq, Repr

namespace Debtor

/-- What happens to a receiving session: bytes arrive, the timer of the loop fires,
its links change. -/
inductive Event
  | deliver (bytes : Bytes) (io : LinkIo)
  | timer (io : LinkIo)
  | relink (links : List Link) (active : Option String)

/-- The session after an event, whether it accepted a frame, and what it wrote. -/
def react (session : Session) : Event → Session × Bool × List LinkWrite
  | .deliver bytes io =>
      let (outcome, session, writes) := session.handleBytes bytes io
      (session, outcome matches .msg .., writes)
  | .timer io =>
      let (session, writes) := session.maybeFlushAck io
      (session, false, writes)
  | .relink links active => ({ session with links, active }, false, [])

/-- An acknowledgement was written. -/
def Written (writes : List LinkWrite) : Prop := ∃ write ∈ writes, write.outcome = .ok ()

instance (writes : List LinkWrite) : Decidable (Written writes) :=
  inferInstanceAs (Decidable (∃ write ∈ writes, write.outcome = .ok ()))

/-- The count goes up by an accepted frame and back to zero at a write. -/
def after (debtor : Debtor) (event : Event) : Debtor :=
  let (session, accepted, writes) := react debtor.session event
  { session
    owed :=
      if Written writes then 0 else if accepted then debtor.owed + 1 else debtor.owed }

/-- The session's record agrees with the count, and has a time exactly when the count
is positive. -/
structure Kept (debtor : Debtor) : Prop where
  count : debtor.session.ackPending.count.toNat = debtor.owed
  timed : debtor.session.ackPending.firstPendingAt.isSome = true ↔
    0 < debtor.session.ackPending.count

/-! ## When an acknowledgement comes due -/

/-- The bytes are a message whose number the window accepts. -/
def accepts (session : Session) (bytes : Bytes) : Bool :=
  match decodeFrame bytes with
  | .error _ => false
  | .ok frame =>
      (decodeFlags frame.flags).2.2 = .message && SESSION_SEQ_HEADER ≤ frame.payload.length &&
        (session.dedup.observe (ofBe32 (frame.payload.take SESSION_SEQ_HEADER))).1 = .accept

/-- What the active link answers to a write, if one is attached. -/
def answer (session : Session) (io : LinkIo) : Option (Result Unit) :=
  session.activeLink.map fun link => io.write link.id

/-- Paying a debt over these links keeps account of it: the write succeeds, or it
fails and the debt is of one frame. -/
def Settles (session : Session) (io : LinkIo) (debt : Nat) : Prop :=
  match answer session io with
  | some (.ok ()) => True
  | some (.error _) => debt = 1
  | none => False

instance (session : Session) (io : LinkIo) (debt : Nat) : Decidable (Settles session io debt) :=
  match h : answer session io with
  | some (.ok ()) => .isTrue (by rw [Settles, h]; trivial)
  | some (.error _) => decidable_of_iff (debt = 1) (by rw [Settles, h])
  | none => .isFalse (by rw [Settles, h]; exact id)

/-- Whatever comes due at the event is settled. -/
def Covered (debtor : Debtor) : Event → Prop
  | .deliver bytes io =>
      accepts debtor.session bytes = true → ACK_MAX_PENDING ≤ debtor.owed + 1 →
        Settles debtor.session io (debtor.owed + 1)
  | .timer io =>
      ackShouldFlush debtor.session.ackPending io.now = true →
        Settles debtor.session io debtor.owed
  | .relink _ _ => True

instance (debtor : Debtor) (event : Event) : Decidable (debtor.Covered event) :=
  match event with
  | .deliver _ _ => inferInstanceAs (Decidable (_ → _ → _))
  | .timer _ => inferInstanceAs (Decidable (_ → _))
  | .relink _ _ => inferInstanceAs (Decidable True)

/-! ## One event -/

/-- What paying a debt leaves of it, by the answer of the active link. -/
theorem flushAckNow_pending {session : Session} (io : LinkIo)
    (debt : session.ackPending.count ≠ 0) :
    (answer session io = none ∧
        (session.flushAckNow io).2.1.ackPending = .default ∧
        ¬ Written (session.flushAckNow io).2.2) ∨
      (answer session io = some (.ok ()) ∧
        (session.flushAckNow io).2.1.ackPending = .default ∧
        Written (session.flushAckNow io).2.2) ∨
      ∃ e, answer session io = some (.error e) ∧
        (session.flushAckNow io).2.1.ackPending = AckPending.default.record io.now ∧
        ¬ Written (session.flushAckNow io).2.2 := by
  have hsame : ({ session with ackPending := .default } : Session).activeLink =
      session.activeLink := rfl
  rw [Session.flushAckNow, if_neg debt, answer, ← hsame]
  cases hactive : ({ session with ackPending := .default } : Session).activeLink with
  | none => exact .inl ⟨rfl, by simp [hactive], by simp [hactive, Written]⟩
  | some link =>
      cases hwrite : io.write link.id with
      | ok value =>
          refine .inr (.inl ⟨by simp [hwrite], ?_, ?_⟩) <;>
            simp [hactive, Session.writeLink, Session.afterWrite, Session.updateLink, hwrite,
              Written]
      | error e =>
          refine .inr (.inr ⟨e, by simp [hwrite], ?_, ?_⟩) <;>
            simp [hactive, Session.writeLink, Session.afterWrite, Session.updateLink, hwrite,
              Written]

/-- Bytes that are not accepted leave the debt alone; accepted ones add a frame to it
and pay it from the eighth on. -/
theorem handleBytes_pending (session : Session) (bytes : Bytes) (io : LinkIo) :
    (accepts session bytes = false ∧
        (∀ seq payload, (session.handleBytes bytes io).1 ≠ .msg seq payload) ∧
        (session.handleBytes bytes io).2.1.ackPending = session.ackPending ∧
        (session.handleBytes bytes io).2.2 = []) ∨
      (accepts session bytes = true ∧
        (∃ seq payload, (session.handleBytes bytes io).1 = .msg seq payload) ∧
        ∃ window, let recorded : Session :=
            { session with dedup := window, ackPending := session.ackPending.record io.now }
          (session.handleBytes bytes io).2 =
            if ACK_MAX_PENDING ≤ recorded.ackPending.count.toNat then (recorded.flushAckNow io).2
            else (recorded, [])) := by
  cases hdecode : decodeFrame bytes with
  | error e => left; simp [accepts, Session.handleBytes, hdecode]
  | ok frame =>
      cases htype : (decodeFlags frame.flags).2.2 with
      | message =>
          by_cases hshort : frame.payload.length < SESSION_SEQ_HEADER
          · left
            simp [accepts, Session.handleBytes, Session.consumeMessage, hdecode, htype, hshort]
          · rcases hobserve : session.dedup.observe
              (ofBe32 (frame.payload.take SESSION_SEQ_HEADER)) with ⟨observed, window⟩
            cases observed with
            | accept =>
                right
                refine ⟨by simp [accepts, hdecode, htype, hobserve, Nat.not_lt.mp hshort], ?_,
                  window, ?_⟩
                · simp only [Session.handleBytes, Session.consumeMessage, hdecode, htype, hobserve,
                    if_neg hshort]
                  split_ifs <;> exact ⟨_, _, rfl⟩
                · simp only [Session.handleBytes, Session.consumeMessage, hdecode, htype, hobserve,
                    if_neg hshort]
                  split_ifs <;> rfl
            | duplicate =>
                left
                simp [accepts, Session.handleBytes, Session.consumeMessage, hdecode, htype,
                  hobserve, hshort]
            | stale =>
                left
                simp [accepts, Session.handleBytes, Session.consumeMessage, hdecode, htype,
                  hobserve, hshort]
      | ack =>
          left
          cases hack : decodeAck frame.payload <;>
            simp [accepts, Session.handleBytes, hdecode, htype, hack, Session.onAck]
      | _ => left; simp [accepts, Session.handleBytes, hdecode, htype]

/-- Paying a positive debt keeps account of it exactly where it settles it. -/
theorem kept_flush_iff (session : Session) {owed : Nat} (io : LinkIo) (positive : 0 < owed)
    (debt : session.ackPending.count ≠ 0) :
    Kept ⟨(session.flushAckNow io).2.1,
        if Written (session.flushAckNow io).2.2 then 0 else owed⟩ ↔ Settles session io owed := by
  rcases flushAckNow_pending io debt with ⟨hanswer, hpending, hwritten⟩ |
    ⟨hanswer, hpending, hwritten⟩ | ⟨e, hanswer, hpending, hwritten⟩
  · -- no active link: the debt is forgotten
    simp only [Settles, hanswer, if_neg hwritten, iff_false]
    intro kept
    have hcount := kept.count
    rw [hpending] at hcount
    exact absurd hcount (Nat.ne_of_lt positive)
  · simp only [Settles, hanswer, if_pos hwritten, iff_true]
    exact ⟨by rw [hpending]; rfl, by rw [hpending]; decide⟩
  · -- a failed write: one frame is put back
    simp only [Settles, hanswer, if_neg hwritten]
    have hone : (AckPending.default.record io.now).count = 1 := rfl
    constructor
    · intro kept
      have hcount := kept.count
      rw [hpending, hone] at hcount
      exact hcount.symm
    · rintro rfl
      refine ⟨by rw [hpending]; rfl, ?_⟩
      rw [hpending, hone]
      exact iff_of_true rfl (by decide)

/-- One more frame is at least one, and one more than before unless the count is at
its end. -/
theorem count_record (pending : AckPending) (now : Instant) :
    (pending.record now).count ≠ 0 ∧
      (pending.count.toNat < 2 ^ 32 - 1 →
        (pending.record now).count.toNat = pending.count.toNat + 1) ∧
      (ACK_MAX_PENDING ≤ (pending.record now).count.toNat ↔
        ACK_MAX_PENDING ≤ pending.count.toNat + 1) := by
  have hcount := pending.count.toNat_lt
  rw [AckPending.record]
  dsimp only
  split_ifs with hmax
  · rw [hmax]
    decide
  · have hbelow : pending.count.toNat ≠ 2 ^ 32 - 1 := fun htop =>
      hmax (UInt32.toNat_inj.mp htop)
    have hnext : (pending.count + 1).toNat = pending.count.toNat + 1 := by
      rw [UInt32.toNat_add]
      exact Nat.mod_eq_of_lt (by simp; omega)
    refine ⟨?_, fun _ => hnext, by rw [hnext]⟩
    intro hzero
    rw [hzero] at hnext
    simp at hnext

/-- Without a frame more or a debt paid, the account stays as it is. -/
theorem Kept.of_same {debtor : Debtor} (kept : debtor.Kept) {owed : Nat} {session : Session}
    (howed : owed = debtor.owed) (hpending : session.ackPending = debtor.session.ackPending) :
    Kept ⟨session, owed⟩ :=
  ⟨by rw [howed, hpending, kept.count], by rw [hpending, kept.timed]⟩

/-- The timer keeps account of the debt exactly where it settles what is due. -/
theorem kept_timer_iff {debtor : Debtor} (kept : debtor.Kept) (io : LinkIo) :
    (debtor.after (.timer io)).Kept ↔ debtor.Covered (.timer io) := by
  by_cases hdue : ackShouldFlush debtor.session.ackPending io.now = true
  · have hpositive : 0 < debtor.session.ackPending.count := by
      by_contra hzero
      have hnone : debtor.session.ackPending.firstPendingAt = none := by
        simpa using mt kept.timed.mp hzero
      have hcount : debtor.session.ackPending.count = 0 := by simpa using hzero
      simp [ackShouldFlush, hcount, hnone, ACK_MAX_PENDING] at hdue
    have howed : 0 < debtor.owed := by
      rw [← kept.count]
      exact UInt32.lt_iff_toNat_lt.mp hpositive
    have hflush := kept_flush_iff debtor.session io howed
      (fun hzero => by simp [hzero] at hpositive)
    simp only [Covered, hdue, forall_const, ← hflush, after, react, Session.maybeFlushAck,
      if_true, Bool.false_eq_true, if_false]
  · refine iff_of_true ?_ fun due => absurd due hdue
    simp only [after, react, Session.maybeFlushAck, if_neg hdue]
    exact kept.of_same (by simp [Written]) rfl

/-- The same for a frame that arrives, which may itself be accepted. -/
theorem kept_deliver_iff {debtor : Debtor} (kept : debtor.Kept) (bytes : Bytes) (io : LinkIo) :
    (debtor.after (.deliver bytes io)).Kept ↔ debtor.Covered (.deliver bytes io) := by
  rcases handleBytes_pending debtor.session bytes io with
    ⟨hrejects, houtcome, hpending, hwrites⟩ | ⟨haccepts, ⟨seq, payload, houtcome⟩, window, hafter⟩
  · refine iff_of_true ?_ fun accepted => by simp [hrejects] at accepted
    rcases hhandled : debtor.session.handleBytes bytes io with ⟨outcome, session, writes⟩
    rw [hhandled] at houtcome hpending hwrites
    dsimp only at houtcome hpending hwrites
    subst hwrites
    simp only [after, react, hhandled]
    refine kept.of_same ?_ hpending
    cases outcome with
    | msg seq payload => exact absurd rfl (houtcome seq payload)
    | continueLoop => simp [Written]
    | allLinksGone => simp [Written]
  · rcases hhandled : debtor.session.handleBytes bytes io with ⟨outcome, session, writes⟩
    rw [hhandled] at houtcome hafter
    dsimp only at houtcome hafter
    subst houtcome
    obtain ⟨hsome, hnext, hthreshold⟩ := count_record debtor.session.ackPending io.now
    rw [kept.count] at hthreshold hnext
    let recorded : Session :=
      { debtor.session with
        dedup := window, ackPending := debtor.session.ackPending.record io.now }
    change (session, writes) = if ACK_MAX_PENDING ≤ recorded.ackPending.count.toNat
      then (recorded.flushAckNow io).2 else (recorded, []) at hafter
    simp only [after, react, hhandled, Covered, haccepts, forall_const, if_true]
    by_cases hdue : ACK_MAX_PENDING ≤ recorded.ackPending.count.toNat
    · have hflush := kept_flush_iff recorded io (Nat.succ_pos debtor.owed) hsome
      rw [if_pos hdue] at hafter
      rw [← hafter] at hflush
      rw [hflush]
      exact ⟨fun settles _ => settles, fun due => due (hthreshold.mp hdue)⟩
    · have hnot : ¬ ACK_MAX_PENDING ≤ debtor.owed + 1 := mt hthreshold.mpr hdue
      rw [if_neg hdue, Prod.mk.injEq] at hafter
      obtain ⟨rfl, rfl⟩ := hafter
      refine iff_of_true ?_ fun due => absurd due hnot
      have hcount : recorded.ackPending.count.toNat = debtor.owed + 1 := by
        apply hnext
        simp only [ACK_MAX_PENDING] at hnot
        omega
      refine ⟨by simp [Written, hcount], iff_of_true rfl ?_⟩
      rw [UInt32.lt_iff_toNat_lt, hcount]
      exact Nat.succ_pos _

/-- An event keeps account of the debt exactly where it covers what comes due. -/
theorem kept_after_iff {debtor : Debtor} (kept : debtor.Kept) (event : Event) :
    (debtor.after event).Kept ↔ debtor.Covered event := by
  cases event with
  | relink links active => exact iff_of_true (kept.of_same (by simp [Written]) rfl) trivial
  | timer io => exact kept_timer_iff kept io
  | deliver bytes io => exact kept_deliver_iff kept bytes io

/-! ## Runs -/

/-- The debt is remembered at an event: the record is the count and timed exactly
while positive, and an acknowledgement written is all that brings it to zero. -/
structure Remembers (debtor : Debtor) (event : Event) : Prop where
  kept : (debtor.after event).Kept
  paid : 0 < debtor.session.ackPending.count →
    (debtor.after event).session.ackPending.count = 0 → Written (react debtor.session event).2.2

/-- Between two records that agree with the count, only a write brings it to zero. -/
theorem remembers_of_kept {debtor : Debtor} {event : Event} (before : debtor.Kept)
    (after : (debtor.after event).Kept) : debtor.Remembers event where
  kept := after
  paid := by
    intro hpositive hzero
    by_contra hsilent
    have howed := before.count
    have hcount := after.count
    rw [UInt32.lt_iff_toNat_lt, before.count] at hpositive
    have hleft : (debtor.after event).owed ≠ 0 := by
      simp only [Debtor.after, if_neg hsilent]
      split_ifs
      · exact Nat.succ_ne_zero _
      · exact Nat.ne_of_gt hpositive
    apply hleft
    rw [← hcount, hzero]
    rfl

/-- In every run from a session whose record is timed exactly while positive, the debt
is remembered throughout exactly when every event covers what comes due at it. -/
theorem remembers_iff_covered (session : Session)
    (timed : session.ackPending.firstPendingAt.isSome = true ↔ 0 < session.ackPending.count)
    (events : List Event) :
    (∀ earlier event later, events = earlier ++ event :: later →
        Remembers (earlier.foldl after ⟨session, session.ackPending.count.toNat⟩) event) ↔
      ∀ earlier event later, events = earlier ++ event :: later →
        Covered (earlier.foldl after ⟨session, session.ackPending.count.toNat⟩) event := by
  have hstart : Kept ⟨session, session.ackPending.count.toNat⟩ := ⟨rfl, timed⟩
  have hkeeps : ∀ (debtor : Debtor) (event : Event), debtor.Kept →
      ((debtor.after event).Kept ↔ debtor.Covered event) := fun _ event kept =>
    kept_after_iff kept event
  rw [← Transition.forall_foldl_iff_guarded hkeeps hstart events]
  constructor
  · intro remembers earlier later hsplit
    rcases List.eq_nil_or_concat earlier with rfl | ⟨before, event, rfl⟩
    · exact hstart
    · rw [List.concat_eq_append, List.foldl_append]
      exact (remembers before event later (by simpa using hsplit)).kept
  · intro kept earlier event later hsplit
    apply remembers_of_kept (kept earlier (event :: later) hsplit)
    have hnext := kept (earlier ++ [event]) later (by simpa using hsplit)
    rwa [List.foldl_append] at hnext

/-! ## Three runs -/

/-- A session with one link, which is active. -/
def linked : Session :=
  { Session.new "peer" 0 with
    links := [Link.new "tcp" 0 .tcp ⟨1000000⟩ 0], active := some "tcp" }

/-- The frame of a number arrives. -/
def arrive (seq : UInt32) (now : Instant) : Event :=
  .deliver (encodeFrame (Session.dataFrame seq [97])) ⟨now, fun _ => .ok ()⟩

/-- The timer fires, and a write meets the given answer. -/
def fire (now : Instant) (outcome : Result Unit) : Event := .timer ⟨now, fun _ => outcome⟩

/-- One frame, whose acknowledgement fails at first; then another, and an
acknowledgement for both. -/
def retriedRun : List Event :=
  [arrive 0 0, fire 60 (.error (.io "reset")), arrive 1 70, fire 130 (.ok ())]

theorem remembers_retriedRun :
    (retriedRun.foldl after ⟨linked, linked.ackPending.count.toNat⟩).owed = 0 ∧
      ∀ earlier event later, retriedRun = earlier ++ event :: later →
        Remembers (earlier.foldl after ⟨linked, linked.ackPending.count.toNat⟩) event := by
  refine ⟨by decide +kernel, ?_⟩
  apply (remembers_iff_covered linked (by decide) retriedRun).mpr
  exact (Transition.forall_splits_iff _).mpr (by decide +kernel)

/-- Two frames, whose acknowledgement fails. -/
def failedRun : List Event := [arrive 0 0, arrive 1 1, fire 60 (.error (.io "reset"))]

/-- One frame, whose acknowledgement comes due while no link is active. -/
def detachedRun : List Event := [arrive 0 0, .relink linked.links none, fire 60 (.ok ())]

/-- The first run leaves a debt of one frame instead of two, the second none instead of
one, though nothing was written in either. -/
theorem debt_forgotten :
    ((failedRun.foldl after ⟨linked, 0⟩).owed = 2 ∧
        (failedRun.foldl after ⟨linked, 0⟩).session.ackPending.count = 1 ∧
        ¬ (failedRun.foldl after ⟨linked, 0⟩).Kept) ∧
      (detachedRun.foldl after ⟨linked, 0⟩).owed = 1 ∧
        (detachedRun.foldl after ⟨linked, 0⟩).session.ackPending = .default ∧
        ¬ (detachedRun.foldl after ⟨linked, 0⟩).Kept := by
  refine ⟨⟨by decide +kernel, by decide +kernel, fun kept => ?_⟩,
    by decide +kernel, by decide +kernel, fun kept => ?_⟩
  · exact absurd kept.count (by decide +kernel)
  · exact absurd kept.count (by decide +kernel)

end Debtor

end Mlink.Core
