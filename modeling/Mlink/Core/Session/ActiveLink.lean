/-
# The link that carried the frame

After a successful send the active link should be the one that carried the frame:
acknowledgements go out over it, the status reports it, and the next send starts
from it. A promotion makes it so. When the active id names no healthy link, the
best link is written to instead, but it becomes active only if no id was active
before.
-/

import Mlink.Core.Session.Failover

namespace Mlink.Core

open Mlink.Protocol

namespace Session

/-! ## Picking a link -/

/-- The id names no attached link that is healthy. -/
def Unhealthy (session : Session) (id : String) (now : Instant) : Prop :=
  ∀ link, session.linkById id = some link → link.isHealthy now = false

/-- The four ways of picking a link: none is healthy; the active one is; no id was
active, and the best becomes it; or the active id names no healthy link, and the best
is picked without becoming active. -/
inductive Picks (session : Session) (now : Instant) : Option Link × Session → Prop
  | nothing (noBest : session.pickBest now = none) : Picks session now (none, session)
  | current {link : Link} (active : session.active = some link.id)
      (attached : session.linkById link.id = some link) (healthy : link.isHealthy now = true) :
      Picks session now (some link, session)
  | pinned {link : Link} (inactive : session.active = none)
      (best : session.pickBest now = some link.id) :
      Picks session now (some link, { session with active := some link.id })
  | instead {id : String} {link : Link} (active : session.active = some id)
      (unhealthy : session.Unhealthy id now) (best : session.pickBest now = some link.id) :
      Picks session now (some link, session)

/-- The best link where the active id names no healthy one. -/
theorem picks_pickAndPin {session : Session} {now : Instant}
    (unhealthy : ∀ id, session.active = some id → session.Unhealthy id now) :
    Picks session now (session.pickAndPin now) := by
  cases hbest : session.pickBest now with
  | none =>
      rw [pickAndPin, hbest]
      exact .nothing hbest
  | some best =>
      obtain ⟨link, hlink⟩ := (exists_linkById_of_bestExcluding hbest).1
      have hid := id_of_linkById hlink
      subst hid
      cases hactive : session.active with
      | none =>
          have hpick : session.pickAndPin now =
              (some link, { session with active := some link.id }) := by
            simp only [pickAndPin, hbest, hactive, Option.isNone_none, if_true, Prod.mk.injEq,
              and_true]
            exact hlink
          rw [hpick]
          exact .pinned hactive hbest
      | some id =>
          have hpick : session.pickAndPin now = (some link, session) := by
            have hsame : ({ session with active := some id } : Session) = session := by
              rw [← hactive]
            simp only [pickAndPin, hbest, hactive, Option.isNone_some, Bool.false_eq_true,
              if_false, hsame, Prod.mk.injEq, and_true]
            exact hlink
          rw [hpick]
          exact .instead hactive (unhealthy id hactive) hbest

theorem picks_currentOrPick (session : Session) (now : Instant) :
    Picks session now (session.currentOrPick now) := by
  cases hactive : session.active with
  | none =>
      have hpick : session.currentOrPick now = session.pickAndPin now := by
        rw [currentOrPick, hactive]
        rfl
      rw [hpick]
      exact picks_pickAndPin (by simp [hactive])
  | some id =>
      cases hlink : session.linkById id with
      | none =>
          have hpick : session.currentOrPick now = session.pickAndPin now := by
            simp only [currentOrPick, hactive, Option.bind_some, hlink]
          rw [hpick]
          apply picks_pickAndPin
          intro other hother
          rw [hactive, Option.some.injEq] at hother
          subst hother
          simp [Unhealthy, hlink]
      | some link =>
          have hid := id_of_linkById hlink
          subst hid
          by_cases hhealthy : link.isHealthy now = true
          · have hpick : session.currentOrPick now = (some link, session) := by
              simp only [currentOrPick, hactive, Option.bind_some, hlink, if_pos hhealthy]
            rw [hpick]
            exact .current hactive hlink hhealthy
          · have hpick : session.currentOrPick now = session.pickAndPin now := by
              simp only [currentOrPick, hactive, Option.bind_some, hlink, if_neg hhealthy]
            rw [hpick]
            apply picks_pickAndPin
            intro other hother
            rw [hactive, Option.some.injEq] at hother
            subst hother
            simpa [Unhealthy, hlink] using hhealthy

/-! ## What a send owes its caller -/

/-- No entry of the ring has the number that the next send hands out. -/
def Fresh (session : Session) : Prop :=
  ∀ entry ∈ session.unacked.buf, entry.1 ≠ session.sendSeq.nextSeq

/-- After a success some write succeeded, over the link that is active now. -/
def Carried (outcome : SendOutcome) : Prop :=
  ∀ seq, outcome.result = .ok seq →
    (∃ write ∈ outcome.writes, write.outcome = .ok ()) ∧
      ∀ write ∈ outcome.writes, write.outcome = .ok () →
        outcome.session.active = some write.linkId

/-- A successful send hands out the number, records the frame it wrote once, and
leaves the link active that carried it; a failed one records nothing. Either way at
most two links were written to. -/
structure Truthful (before : Session) (outcome : SendOutcome) : Prop where
  recorded : ∀ {seq}, outcome.result = .ok seq → seq = before.sendSeq.nextSeq ∧
    ∃ frame, outcome.session.unacked = (before.unacked.push seq frame).2 ∧
      (∀ write ∈ outcome.writes, write.bytes = frame.bytes) ∧
      (before.Fresh →
        (outcome.session.unacked.buf.filter fun entry => entry.1 = seq) = [(seq, frame)])
  fewLinks : (outcome.writes.map LinkWrite.linkId).dedup.length ≤ 2
  carried : Carried outcome
  refused : ∀ {e}, outcome.result = .error e → outcome.session.unacked = before.unacked ∧
    (before.Fresh → ∀ entry ∈ outcome.session.unacked.buf, entry.1 ≠ before.sendSeq.nextSeq)

/-- The active id names no healthy link, another link is the best, and it takes the
first write. -/
def Bypasses (session : Session) (first : LinkIo) : Prop :=
  ∃ id best, session.active = some id ∧ session.Unhealthy id first.now ∧
    session.pickBest first.now = some best ∧ best ≠ id ∧ first.write best = .ok ()

/-- An entry of a new number is the only one of that number after its push. -/
theorem filter_push_of_new {ring : UnackedRing PendingFrame} {seq : UInt32}
    (new : ∀ entry ∈ ring.buf, entry.1 ≠ seq) (frame : PendingFrame) :
    ((ring.push seq frame).2.buf.filter fun entry => entry.1 = seq) = [(seq, frame)] := by
  have hkept : (if UNACKED_RING_CAP ≤ ring.buf.length then ring.buf.tail else ring.buf).filter
      (fun entry => entry.1 = seq) = [] := by
    apply List.filter_eq_nil_iff.mpr
    intro entry hentry
    split_ifs at hentry
    · simpa using new entry (List.mem_of_mem_tail hentry)
    · simpa using new entry hentry
  rw [UnackedRing.push_buf, List.filter_append, hkept]
  simp

/-! ## Which link is active after a transmission -/

section Transmit

variable {session chosen : Session} {seq : UInt32} {bytes : Bytes} {msgType : MessageType}
  {first retry : LinkIo} {link : Link}

/-- The first write succeeds: the frame is carried truthfully where the picked link is
active. -/
theorem carried_of_ok (picked : session.currentOrPick first.now = (some link, chosen))
    (written : first.write link.id = .ok ()) :
    Carried (session.transmit seq bytes msgType first retry) ↔ chosen.active = some link.id := by
  have houtcome : session.transmit seq bytes msgType first retry =
      ⟨.ok seq, (chosen.afterWrite link.id first).recordUnacked seq bytes msgType,
        [⟨link.id, bytes, .ok ()⟩]⟩ := by
    simp only [transmit, picked, writeLink, written]
  have hactive : ((chosen.afterWrite link.id first).recordUnacked seq bytes msgType).active =
      chosen.active := rfl
  rw [houtcome, Carried]
  simp [hactive]

/-- The first write fails: a success afterwards was carried by the promoted link. -/
theorem carried_of_error (picked : session.currentOrPick first.now = (some link, chosen))
    {e : MlinkError} (failed : first.write link.id = .error e) :
    Carried (session.transmit seq bytes msgType first retry) := by
  obtain ⟨hring, hlinks⟩ := failover_spec (chosen.afterWrite link.id first) link.id seq bytes
    msgType retry
  have houtcome : session.transmit seq bytes msgType first retry =
      { (chosen.afterWrite link.id first).failover link.id seq bytes msgType retry with
        writes := ⟨link.id, bytes, .error e⟩ ::
          ((chosen.afterWrite link.id first).failover link.id seq bytes msgType retry).writes } := by
    simp only [transmit, picked, writeLink, failed]
  rw [houtcome]
  intro returned hresult
  obtain ⟨_, _, write, hwrite, hok⟩ := hring.recorded hresult
  refine ⟨⟨write, List.mem_cons_of_mem _ hwrite, hok⟩, ?_⟩
  intro other hother hsucceeded
  rcases hlinks with ⟨_, _, hnone⟩ | ⟨_, target, retried, _, _, hactive, hwrites, hover, _⟩
  · rw [hnone] at hwrite
    cases hwrite
  · rw [hwrites] at hother
    rcases List.mem_pair.mp hother with rfl | rfl
    · cases hsucceeded
    · rw [hover]
      exact hactive

/-- The frame is carried truthfully exactly when the active id is not bypassed. -/
theorem carried_transmit_iff (session : Session) (seq : UInt32) (bytes : Bytes)
    (msgType : MessageType) (first retry : LinkIo) :
    Carried (session.transmit seq bytes msgType first retry) ↔ ¬ session.Bypasses first := by
  have hpicks := picks_currentOrPick session first.now
  generalize hpick : session.currentOrPick first.now = pick at hpicks
  -- unless the pick was made instead of the active id, it is the active link
  have hactive : ∀ {link : Link} {chosen : Session}, pick = (some link, chosen) →
      chosen.active = some link.id → ¬ session.Bypasses first →
        (Carried (session.transmit seq bytes msgType first retry) ↔ ¬ session.Bypasses first) := by
    rintro link chosen rfl hchosen hdirect
    refine iff_of_true ?_ hdirect
    cases hwrite : first.write link.id with
    | ok value => exact (carried_of_ok hpick hwrite).mpr hchosen
    | error e => exact carried_of_error hpick hwrite
  cases hpicks with
  | nothing noBest =>
      refine iff_of_true ?_ ?_
      · simp [Carried, transmit, hpick]
      · rintro ⟨id, best, _, _, hbest, _⟩
        simp [noBest] at hbest
  | @current link active attached healthy =>
      apply hactive rfl active
      rintro ⟨id, best, hid, hunhealthy, _⟩
      rw [active, Option.some.injEq] at hid
      subst hid
      simp [hunhealthy link attached] at healthy
  | pinned inactive best =>
      apply hactive rfl rfl
      rintro ⟨id, other, hid, _⟩
      simp [inactive] at hid
  | @instead id link active unhealthy best =>
      cases hwrite : first.write link.id with
      | ok value =>
          rw [carried_of_ok hpick hwrite, active, Option.some.injEq]
          constructor
          · rintro hsame ⟨other, target, hother, _, htarget, hne, _⟩
            simp only [active, best, Option.some.injEq] at hother htarget
            exact hne (by rw [← htarget, ← hother, hsame])
          · intro hdirect
            by_contra hother
            exact hdirect ⟨id, link.id, active, unhealthy, best, Ne.symm hother, hwrite⟩
      | error e =>
          refine iff_of_true (carried_of_error hpick hwrite) ?_
          rintro ⟨other, target, _, _, htarget, _, hwritten⟩
          rw [best, Option.some.injEq] at htarget
          rw [← htarget, hwrite] at hwritten
          cases hwritten

end Transmit

/-- The number handed out does not bear on which link is bypassed. -/
theorem bypasses_spendSeq (session : Session) (first : LinkIo) :
    session.spendSeq.Bypasses first ↔ session.Bypasses first := Iff.rfl

/-- A transmission writes over at most two links. -/
theorem fewLinks_of_linkUse {before : Session} {bytes : Bytes} {first retry : LinkIo}
    {outcome : SendOutcome} (use : LinkUse before bytes first retry outcome) :
    (outcome.writes.map LinkWrite.linkId).dedup.length ≤ 2 := by
  refine le_trans (List.dedup_sublist _).length_le ?_
  rw [List.length_map]
  cases use with
  | direct _ _ single _ => exact le_trans single (by decide)
  | promoted _ _ _ _ _ _ _ writes _ _ _ _ => simp [writes]

/-- A send keeps its promises exactly unless its frame packs and the active id is
bypassed. -/
theorem truthful_run_iff (primitives : Primitives) (session : Session) (call : SendCall) :
    Truthful session (call.run primitives session) ↔
      ¬ ((∃ bytes, call.frame primitives session = .ok bytes) ∧ session.Bypasses call.first) := by
  rcases send_spec primitives session call.msgType call.payload call.encryptKey call.compress
    call.first call.retry with ⟨e, hpack, houtcome⟩ | ⟨bytes, hpack, houtcome⟩
  · -- the frame does not pack: nothing is written or recorded
    have hnever : ¬ ∃ bytes, call.frame primitives session = .ok bytes := by
      rintro ⟨bytes, hbytes⟩
      rw [SendCall.frame, hpack] at hbytes
      cases hbytes
    refine iff_of_true ?_ fun packs => hnever packs.1
    rw [SendCall.run, houtcome]
    refine ⟨?_, by simp, ?_, fun _ => ⟨rfl, id⟩⟩
    · intro seq hresult
      cases hresult
    · intro seq hresult
      cases hresult
  · have hpacks : ∃ bytes, call.frame primitives session = .ok bytes := ⟨bytes, hpack⟩
    have hcarried := carried_transmit_iff session.spendSeq session.sendSeq.nextSeq bytes
      call.msgType call.first call.retry
    obtain ⟨hring, huse⟩ := transmit_spec session.spendSeq session.sendSeq.nextSeq bytes
      call.msgType call.first call.retry
    rw [SendCall.run, houtcome]
    simp only [hpacks, true_and]
    rw [← bypasses_spendSeq, ← hcarried]
    constructor
    · exact Truthful.carried
    · intro carried
      refine ⟨?_, fewLinks_of_linkUse huse, carried, ?_⟩
      · intro seq hresult
        obtain ⟨rfl, hpushed, _⟩ := hring.recorded hresult
        refine ⟨rfl, ⟨bytes, call.msgType⟩, hpushed, fun write hwrite => huse.bytes_eq hwrite, ?_⟩
        intro fresh
        rw [hpushed]
        exact filter_push_of_new fresh _
      · intro e hresult
        have hsame := hring.refused hresult
        exact ⟨hsame, fun fresh => by rw [hsame]; exact fresh⟩

/-! ## The number is new until the counter comes round -/

/-- The numbers in the ring are among the last ones handed out. -/
def Recent (session : Session) (sent : Nat) : Prop :=
  ∀ entry ∈ session.unacked.buf,
    0 < Serial.distance session.sendSeq.nextSeq entry.1 ∧
      Serial.distance session.sendSeq.nextSeq entry.1 ≤ sent

/-- A number that is a step or more behind is not the next one. -/
theorem fresh_of_recent {session : Session} {sent : Nat} (recent : session.Recent sent) :
    session.Fresh := by
  intro entry hentry hsame
  have hbehind := (recent entry hentry).1
  rw [Serial.distance_eq_zero_iff.mpr hsame.symm] at hbehind
  exact absurd hbehind (Nat.lt_irrefl 0)

/-- A send leaves the ring as it was or with its own number added. -/
theorem mem_buf_of_send {primitives : Primitives} {session : Session} {call : SendCall}
    {entry : UInt32 × PendingFrame}
    (hentry : entry ∈ (call.run primitives session).session.unacked.buf) :
    entry ∈ session.unacked.buf ∨ entry.1 = session.sendSeq.nextSeq := by
  rcases send_spec primitives session call.msgType call.payload call.encryptKey call.compress
    call.first call.retry with ⟨e, _, houtcome⟩ | ⟨bytes, _, houtcome⟩
  · rw [SendCall.run, houtcome] at hentry
    exact .inl hentry
  · have hring := (transmit_spec session.spendSeq session.sendSeq.nextSeq bytes call.msgType
      call.first call.retry).1
    rw [SendCall.run, houtcome] at hentry
    cases hresult : (session.spendSeq.transmit session.sendSeq.nextSeq bytes call.msgType
        call.first call.retry).result with
    | error e =>
        rw [hring.refused hresult] at hentry
        exact .inl hentry
    | ok seq =>
        rw [(hring.recorded hresult).2.1, UnackedRing.push_buf] at hentry
        rcases List.mem_append.mp hentry with hold | hnew
        · split_ifs at hold
          · exact .inl (List.mem_of_mem_tail hold)
          · exact .inl hold
        · rw [List.mem_singleton] at hnew
          exact .inr (by rw [hnew])

/-- One more number is handed out, and those in the ring fall one behind. -/
theorem recent_send {primitives : Primitives} {session : Session} {call : SendCall} {sent : Nat}
    (recent : session.Recent sent) (room : sent + 1 < 2 ^ 32) :
    (call.run primitives session).session.Recent (sent + 1) := by
  have hnext : (call.run primitives session).session.sendSeq.nextSeq =
      session.sendSeq.nextSeq + 1 := by
    have hkeeps := send_keeps primitives session call.msgType call.payload call.encryptKey
      call.compress call.first call.retry
    rw [SendCall.run, hkeeps.sendSeq]
    rfl
  have hstep : ∀ seq : UInt32, Serial.distance session.sendSeq.nextSeq seq ≤ sent →
      Serial.distance (session.sendSeq.nextSeq + 1) seq =
        Serial.distance session.sendSeq.nextSeq seq + 1 := by
    intro seq hnear
    have hseq := seq.toNat_lt
    have hcounter := session.sendSeq.nextSeq.toNat_lt
    rw [Serial.distance_toNat] at hnear ⊢
    rw [Serial.distance_toNat, UInt32.toNat_add, UInt32.toNat_one]
    omega
  intro entry hentry
  rw [hnext]
  rcases mem_buf_of_send hentry with hold | hnew
  · obtain ⟨hbehind, hnear⟩ := recent entry hold
    rw [hstep entry.1 hnear]
    omega
  · have hzero : Serial.distance session.sendSeq.nextSeq entry.1 = 0 :=
      Serial.distance_eq_zero_iff.mpr hnew.symm
    rw [hstep entry.1 (by omega), hzero]
    omega

/-- In a run of fewer than `2 ^ 32` sends from an empty ring, each number handed out
is new to the ring. -/
theorem fresh_runAll (primitives : Primitives) {session : Session}
    (empty : session.unacked.buf = []) (ops : List Sender.Op)
    (few : ops.countP (· matches .send _) < 2 ^ 32) :
    ((Sender.start session).runAll primitives ops).session.Fresh := by
  have hrecent : ((Sender.start session).runAll primitives ops).session.Recent
      (ops.countP (· matches .send _)) := by
    induction ops using List.reverseRecOn with
    | nil =>
        intro entry hentry
        change entry ∈ session.unacked.buf at hentry
        simp [empty] at hentry
    | append_singleton ops op ih =>
        rw [List.countP_append] at few ⊢
        have hprior := ih (by omega)
        rw [Sender.runAll, List.foldl_append]
        cases op with
        | send call => exact recent_send hprior few
        | relink links active => exact hprior
        | ack frame =>
            intro entry hentry
            change entry ∈ (((Sender.start session).runAll primitives ops).session.onAck
              frame).unacked.buf at hentry
            rw [onAck, AckFrame.buf_ackCum_sack] at hentry
            exact hprior entry (List.mem_of_mem_filter hentry)
  exact fresh_of_recent hrecent

/-! ## An unhealthy active link -/

/-- A write over a link that has failed often: its health is below the threshold. -/
def failing (link : Link) : Link :=
  { link with health := { link.health with errRateMilli := 900 } }

/-- Two links. The active one is failing. -/
def activeFailing : Session :=
  { Sender.twoLinks with
    links := Sender.twoLinks.links.map fun link =>
      if link.id = "ble" then failing link else link }

/-- The frame goes out over the healthy link, and the failing one stays active. -/
theorem carrier_not_active :
    let outcome := (Sender.sendByte 97 []).run .transparent activeFailing
    outcome.result = .ok 0 ∧ outcome.writes.map LinkWrite.linkId = ["tcp"] ∧
      outcome.session.active = some "ble" ∧ ¬ Truthful activeFailing outcome := by
  refine ⟨rfl, by decide, by decide, ?_⟩
  intro truthful
  obtain ⟨_, hactive⟩ := truthful.carried 0 rfl
  exact absurd (hactive ⟨"tcp", _, .ok ()⟩ (List.mem_singleton_self _) rfl) (by decide)

end Session

end Mlink.Core
