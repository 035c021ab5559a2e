/-
# The send path and its inline scheduler

`Session.send` numbers a payload, packs it, writes it over the active link and
records it in the ring. When the write fails it promotes another link and tries
once more. What the connections answer is an argument: one `LinkIo` for the
first attempt and one for the retry.
-/

import Mlink.Core.Packing
import Mlink.Core.Session.Types

namespace Mlink.Core

open Mlink.Protocol

/-- The world during one attempt: the time, and what each connection answers to
a write. -/
structure LinkIo where
  now : Instant
  write : String → Result Unit

/-- One write handed to a link, and the connection's answer. -/
structure LinkWrite where
  linkId : String
  bytes : Bytes
  outcome : Result Unit

/-- What a send returns, the session it leaves, and what it wrote. -/
structure SendOutcome where
  result : Result UInt32
  session : Session
  writes : List LinkWrite

namespace Session

/-! ## The scheduler -/

/-- The healthy link with the highest score, other than the excluded one. Among
equals the last attached wins, as `max_by_key` has it. -/
def bestExcluding (session : Session) (excludeId : String) (now : Instant) : Option String :=
  let candidates := session.links.filter fun link =>
    link.id != excludeId && link.isHealthy now
  (candidates.reverse.maxOn? Link.score).map Link.id

def pickBest (session : Session) (now : Instant) : Option String :=
  session.bestExcluding "" now

/-- The best link, which becomes active only if no link was. -/
def pickAndPin (session : Session) (now : Instant) : Option Link × Session :=
  match session.pickBest now with
  | none => (none, session)
  | some id =>
      let session :=
        { session with active := if session.active.isNone then some id else session.active }
      (session.linkById id, session)

/-- The active link if it is attached and healthy, and otherwise the best. -/
def currentOrPick (session : Session) (now : Instant) : Option Link × Session :=
  match session.active.bind session.linkById with
  | some link => if link.isHealthy now then (some link, session) else session.pickAndPin now
  | none => session.pickAndPin now

/-- Make the best of the other links active and say so. -/
def promoteOnFailure (session : Session) (failingId : String) (now : Instant) :
    Option (String × SwitchCause) × Session :=
  match session.bestExcluding failingId now with
  | none => (none, session)
  | some nextId =>
      let source := session.active.getD ""
      let session := { session with active := some nextId }
      (some (nextId, .activeFailed),
        session.emit (.switched session.peerId source nextId .activeFailed))

/-! ## Sending -/

/-- The session after a write over a link, whose health records how it went. -/
def afterWrite (session : Session) (linkId : String) (io : LinkIo) : Session :=
  session.updateLink linkId fun link => (link.send io.now (io.write linkId)).2

/-- Write over a link. -/
def writeLink (session : Session) (linkId : String) (bytes : Bytes) (io : LinkIo) :
    LinkWrite × Session :=
  (⟨linkId, bytes, io.write linkId⟩, session.afterWrite linkId io)

def recordUnacked (session : Session) (seq : UInt32) (bytes : Bytes) (msgType : MessageType) :
    Session :=
  { session with unacked := (session.unacked.push seq ⟨bytes, msgType⟩).2 }

def noHealthyLink (session : Session) : MlinkError := .noHealthyLink session.peerId

/-- The retry after a failed write: promote, write once, record. -/
def failover (session : Session) (failingId : String) (seq : UInt32) (bytes : Bytes)
    (msgType : MessageType) (io : LinkIo) : SendOutcome :=
  match session.promoteOnFailure failingId io.now with
  | (none, session) => ⟨.error session.noHealthyLink, session, []⟩
  | (some (newId, _), session) =>
      match session.linkById newId with
      | none => ⟨.error session.noHealthyLink, session, []⟩
      | some newLink =>
          let (attempt, session) := session.writeLink newLink.id bytes io
          match attempt.outcome with
          | .error _ => ⟨.error session.noHealthyLink, session, [attempt]⟩
          | .ok () => ⟨.ok seq, session.recordUnacked seq bytes msgType, [attempt]⟩

/-- Write a packed frame over the active link, failing over once. -/
def transmit (session : Session) (seq : UInt32) (bytes : Bytes) (msgType : MessageType)
    (first retry : LinkIo) : SendOutcome :=
  match session.currentOrPick first.now with
  | (none, session) => ⟨.error session.noHealthyLink, session, []⟩
  | (some primary, session) =>
      let (attempt, session) := session.writeLink primary.id bytes first
      match attempt.outcome with
      | .ok () => ⟨.ok seq, session.recordUnacked seq bytes msgType, [attempt]⟩
      | .error _ =>
          let outcome := session.failover primary.id seq bytes msgType retry
          { outcome with writes := attempt :: outcome.writes }

/-- The session after handing out a number. -/
def spendSeq (session : Session) : Session :=
  { session with sendSeq := session.sendSeq.next.2 }

@[simp]
theorem spendSeq_events (session : Session) : session.spendSeq.events = session.events := rfl

@[simp]
theorem spendSeq_peerId (session : Session) : session.spendSeq.peerId = session.peerId := rfl

@[simp]
theorem spendSeq_unacked (session : Session) : session.spendSeq.unacked = session.unacked := rfl

/-- Number, pack, transmit. The number is spent even when the send fails; the
frame header and the nonce carry its low sixteen bits. -/
def send (session : Session) (primitives : Primitives) (msgType : MessageType)
    (payload : Bytes) (encryptKey : Option Bytes) (compress : Bool) (first retry : LinkIo) :
    SendOutcome :=
  let seq := session.sendSeq.next.1
  let session := session.spendSeq
  match packFrame primitives msgType payload encryptKey compress seq.toUInt16 with
  | .error e => ⟨.error e, session, []⟩
  | .ok bytes => session.transmit seq bytes msgType first retry

/-- An acknowledgement from the peer clears what it covers. -/
def onAck (session : Session) (ack : AckFrame) : Session :=
  { session with
    unacked := (session.unacked.ackCum ack.ack).sack ack.ack ack.bitmap }

/-! ## What a send does

Only the ring, the active link, the links' health and the events change on the
way, each in one place. -/

section Frame

variable (session : Session) (now : Instant) (io : LinkIo)

/-- A link found by its id has that id. -/
theorem id_of_linkById {session : Session} {id : String} {link : Link}
    (found : session.linkById id = some link) : link.id = id := by
  have hfound := List.find?_some found
  simpa using hfound

/-- Picking a link touches nothing but the active id. -/
theorem currentOrPick_eq :
    ∃ picked active, session.currentOrPick now = (picked, { session with active }) := by
  have hpick : ∃ picked active, session.pickAndPin now = (picked, { session with active }) := by
    cases hbest : session.pickBest now with
    | none => exact ⟨_, session.active, by rw [pickAndPin, hbest]⟩
    | some id => exact ⟨_, _, by rw [pickAndPin, hbest]⟩
  cases hcurrent : session.active.bind session.linkById with
  | none =>
      rw [currentOrPick, hcurrent]
      exact hpick
  | some link =>
      by_cases healthy : link.isHealthy now
      · exact ⟨some link, session.active, by simp [currentOrPick, hcurrent, healthy]⟩
      · simpa [currentOrPick, hcurrent, healthy] using hpick

/-- A promotion makes its choice active and announces it. -/
theorem promoteOnFailure_eq_some {session after : Session} {failingId target : String}
    {cause : SwitchCause}
    (promoted : session.promoteOnFailure failingId now = (some (target, cause), after)) :
    ∃ source, after =
      { session with
        active := some target,
        events := session.events ++ [.switched session.peerId source target .activeFailed] } := by
  rw [promoteOnFailure] at promoted
  cases hbest : session.bestExcluding failingId now with
  | none => simp [hbest] at promoted
  | some best =>
      simp only [hbest, Prod.mk.injEq, Option.some.injEq] at promoted
      obtain ⟨⟨rfl, _⟩, rfl⟩ := promoted
      exact ⟨session.active.getD "", rfl⟩

/-- Without a candidate nothing happens. -/
theorem promoteOnFailure_eq_none {session after : Session} {failingId : String}
    (stuck : session.promoteOnFailure failingId now = (none, after)) : after = session := by
  rw [promoteOnFailure] at stuck
  cases hbest : session.bestExcluding failingId now with
  | none =>
      simp only [hbest, Prod.mk.injEq, true_and] at stuck
      exact stuck.symm
  | some best => simp [hbest] at stuck

end Frame

/-- The two fates of a packed frame: recorded and acknowledged to the caller,
or refused with the ring untouched. -/
structure RingEffect (before : Session) (seq : UInt32) (bytes : Bytes)
    (msgType : MessageType) (outcome : SendOutcome) : Prop where
  recorded : ∀ {returned}, outcome.result = .ok returned →
    returned = seq ∧
      outcome.session.unacked = (before.unacked.push seq ⟨bytes, msgType⟩).2 ∧
      ∃ write ∈ outcome.writes, write.outcome = .ok ()
  refused : ∀ {e}, outcome.result = .error e → outcome.session.unacked = before.unacked

/-- The link a transmission would promote: the write over the picked link
fails, and another link is healthy by then. -/
def promotionTarget (session : Session) (first retry : LinkIo) : Option String :=
  match session.currentOrPick first.now with
  | (none, _) => none
  | (some primary, session) =>
      match first.write primary.id with
      | .ok () => none
      | .error _ => (session.afterWrite primary.id first).bestExcluding primary.id retry.now

/-- The two ways a transmission uses its links: at most one write and no
promotion, or a failed write, a promotion and one write over the promoted
link. -/
inductive LinkUse (before : Session) (bytes : Bytes) (first retry : LinkIo)
    (outcome : SendOutcome) : Prop
  | direct (noTarget : before.promotionTarget first retry = none)
      (quiet : outcome.session.events = before.events)
      (single : outcome.writes.length ≤ 1)
      (same : ∀ write ∈ outcome.writes, write.bytes = bytes)
  | promoted (source target : String) (failed retried : LinkWrite)
      (hasTarget : before.promotionTarget first retry = some target)
      (announced : outcome.session.events =
        before.events ++ [.switched before.peerId source target .activeFailed])
      (nowActive : outcome.session.active = some target)
      (writes : outcome.writes = [failed, retried])
      (failedBytes : failed.bytes = bytes)
      (overOther : failed.linkId ≠ target)
      (overTarget : retried.linkId = target)
      (retriedBytes : retried.bytes = bytes)

/-- However the links were used, every write carried the frame. -/
theorem LinkUse.bytes_eq {before : Session} {bytes : Bytes} {first retry : LinkIo}
    {outcome : SendOutcome} (use : LinkUse before bytes first retry outcome)
    {write : LinkWrite} (hwrite : write ∈ outcome.writes) : write.bytes = bytes := by
  cases use with
  | direct _ _ _ same => exact same write hwrite
  | promoted _ _ failed retried _ _ _ writes failedBytes _ _ retriedBytes =>
      rw [writes] at hwrite
      rcases List.mem_pair.mp hwrite with rfl | rfl
      · exact failedBytes
      · exact retriedBytes

/-- A best link is attached, and it is not the excluded one. -/
theorem exists_linkById_of_bestExcluding {session : Session} {excludeId target : String}
    {now : Instant} (hbest : session.bestExcluding excludeId now = some target) :
    (∃ link, session.linkById target = some link) ∧ target ≠ excludeId := by
  obtain ⟨link, hmax, hid⟩ := Option.map_eq_some_iff.mp hbest
  have hmem := List.maxOn?_mem hmax
  rw [List.mem_reverse, List.mem_filter] at hmem
  obtain ⟨hlink, hother⟩ := hmem
  constructor
  · apply Option.isSome_iff_exists.mp
    rw [linkById, List.find?_isSome]
    exact ⟨link, hlink, by simp [hid]⟩
  · rw [← hid]
    simp only [Bool.and_eq_true, bne_iff_ne] at hother
    exact hother.1

/-- The retry after a failed write: nothing happens, or a promotion and one
write over the promoted link. -/
theorem failover_spec (session : Session) (failingId : String) (seq : UInt32) (bytes : Bytes)
    (msgType : MessageType) (io : LinkIo) :
    let outcome := session.failover failingId seq bytes msgType io
    RingEffect session seq bytes msgType outcome ∧
      ((session.bestExcluding failingId io.now = none ∧
          outcome.session.events = session.events ∧ outcome.writes = []) ∨
        ∃ source target retried, session.bestExcluding failingId io.now = some target ∧
          outcome.session.events =
              session.events ++ [.switched session.peerId source target .activeFailed] ∧
            outcome.session.active = some target ∧ outcome.writes = [retried] ∧
            retried.linkId = target ∧ retried.bytes = bytes) := by
  cases hbest : session.bestExcluding failingId io.now with
  | none =>
      simp only [failover, promoteOnFailure, hbest]
      exact ⟨⟨by rintro _ ⟨⟩, by rintro _ _; rfl⟩, .inl (by simp)⟩
  | some target =>
      obtain ⟨link, hlink⟩ := (exists_linkById_of_bestExcluding hbest).1
      have hid : link.id = target := id_of_linkById hlink
      have hfound : (emit { session with active := some target }
          (.switched session.peerId (session.active.getD "") target .activeFailed)).linkById
            target = some link := hlink
      cases hwrite : io.write target with
      | ok value =>
          simp only [failover, promoteOnFailure, hbest, hfound, writeLink, hid, hwrite]
          refine ⟨⟨?_, ?_⟩, .inr ⟨_, target, _, rfl, rfl, rfl, rfl, rfl, rfl⟩⟩
          · intro returned hresult
            cases hresult
            exact ⟨rfl, rfl, _, List.mem_singleton_self _, rfl⟩
          · rintro e ⟨⟩
      | error e =>
          simp only [failover, promoteOnFailure, hbest, hfound, writeLink, hid, hwrite]
          refine ⟨⟨?_, ?_⟩, .inr ⟨_, target, _, rfl, rfl, rfl, rfl, rfl, rfl⟩⟩
          · rintro returned ⟨⟩
          · rintro _ _
            rfl

/-- The one place where a transmission is taken apart: its effect on the ring
and its use of the links. -/
theorem transmit_spec (session : Session) (seq : UInt32) (bytes : Bytes)
    (msgType : MessageType) (first retry : LinkIo) :
    let outcome := session.transmit seq bytes msgType first retry
    RingEffect session seq bytes msgType outcome ∧
      LinkUse session bytes first retry outcome := by
  obtain ⟨picked, active, hpick⟩ := currentOrPick_eq session first.now
  cases picked with
  | none =>
      have hnone : session.promotionTarget first retry = none := by
        simp only [promotionTarget, hpick]
      simp only [transmit, hpick]
      exact ⟨⟨by rintro _ ⟨⟩, by rintro _ _; rfl⟩, .direct hnone rfl (by simp) (by simp)⟩
  | some primary =>
      cases hwrite : first.write primary.id with
      | ok value =>
          have hnone : session.promotionTarget first retry = none := by
            simp only [promotionTarget, hpick, hwrite]
          simp only [transmit, hpick, writeLink, hwrite]
          refine ⟨⟨?_, ?_⟩, .direct hnone rfl (by simp) (by simp)⟩
          · intro returned hresult
            cases hresult
            exact ⟨rfl, rfl, _, List.mem_singleton_self _, rfl⟩
          · rintro e ⟨⟩
      | error e =>
          have htarget : session.promotionTarget first retry =
              (afterWrite { session with active } primary.id first).bestExcluding primary.id
                retry.now := by
            simp only [promotionTarget, hpick, hwrite]
          obtain ⟨⟨hrecorded, hrefused⟩, hlinks⟩ := failover_spec
            (afterWrite { session with active } primary.id first) primary.id seq bytes
            msgType retry
          rw [← htarget] at hlinks
          simp only [transmit, hpick, writeLink, hwrite]
          refine ⟨⟨?_, ?_⟩, ?_⟩
          · intro returned hresult
            obtain ⟨hseq, hring, write, hmem, hok⟩ := hrecorded hresult
            exact ⟨hseq, hring, write, List.mem_cons_of_mem _ hmem, hok⟩
          · intro e hresult
            exact hrefused hresult
          · rcases hlinks with ⟨hnone, hquiet, hwrites⟩ |
              ⟨source, target, retried, hsome, hann, hact, hw, hover, hbytes⟩
            · exact .direct hnone hquiet (by simp [hwrites]) (by simp [hwrites])
            · have hother := (exists_linkById_of_bestExcluding (htarget.symm.trans hsome)).2
              exact .promoted source target _ retried hsome hann hact (by rw [hw]) rfl
                hother.symm hover hbytes

/-- Using a session's links leaves its counter and its list of links as they
were. -/
structure KeepsCounter (before after : Session) : Prop where
  sendSeq : after.sendSeq = before.sendSeq
  ids : after.links.map Link.id = before.links.map Link.id

theorem failover_keepsCounter (session : Session) (failingId : String) (seq : UInt32)
    (bytes : Bytes) (msgType : MessageType) (io : LinkIo) :
    KeepsCounter session (session.failover failingId seq bytes msgType io).session := by
  rcases hpromote : session.promoteOnFailure failingId io.now with ⟨promoted, after⟩
  cases promoted with
  | none =>
      rw [promoteOnFailure_eq_none io.now hpromote] at hpromote
      simp only [failover, hpromote]
      exact ⟨rfl, rfl⟩
  | some choice =>
      obtain ⟨source, rfl⟩ := promoteOnFailure_eq_some io.now hpromote
      simp only [failover, hpromote]
      cases hlink : ({ session with
          active := some choice.1,
          events := session.events ++ [.switched session.peerId source choice.1 .activeFailed] }
            : Session).linkById choice.1 with
      | none => exact ⟨rfl, rfl⟩
      | some link =>
          have hids := map_id_updateLinks session.links link.id
            fun other => Link.send_id other io.now (io.write link.id)
          cases hwrite : io.write link.id with
          | ok value =>
              simp only [writeLink, hwrite]
              exact ⟨rfl, hids⟩
          | error e =>
              simp only [writeLink, hwrite]
              exact ⟨rfl, hids⟩

theorem transmit_keepsCounter (session : Session) (seq : UInt32) (bytes : Bytes)
    (msgType : MessageType) (first retry : LinkIo) :
    KeepsCounter session (session.transmit seq bytes msgType first retry).session := by
  obtain ⟨picked, active, hpick⟩ := currentOrPick_eq session first.now
  cases picked with
  | none =>
      simp only [transmit, hpick]
      exact ⟨rfl, rfl⟩
  | some primary =>
      have hids := map_id_updateLinks session.links primary.id
        fun other => Link.send_id other first.now (first.write primary.id)
      cases hwrite : first.write primary.id with
      | ok value =>
          simp only [transmit, hpick, writeLink, hwrite]
          exact ⟨rfl, hids⟩
      | error e =>
          obtain ⟨hseq, hrest⟩ := failover_keepsCounter
            (afterWrite { session with active } primary.id first) primary.id seq bytes msgType
            retry
          simp only [transmit, hpick, writeLink, hwrite]
          exact ⟨hseq, hrest.trans hids⟩

/-- The number a session hands out does not bear on its links. -/
theorem promotionTarget_spendSeq (session : Session) (first retry : LinkIo) :
    session.spendSeq.promotionTarget first retry = session.promotionTarget first retry := by
  have hpick : session.spendSeq.currentOrPick first.now =
      ((session.currentOrPick first.now).1,
        { (session.currentOrPick first.now).2 with sendSeq := session.sendSeq.next.2 }) := by
    have hpin : session.spendSeq.pickAndPin first.now =
        ((session.pickAndPin first.now).1,
          { (session.pickAndPin first.now).2 with sendSeq := session.sendSeq.next.2 }) := by
      have hbest : session.spendSeq.pickBest first.now =
          session.pickBest first.now := rfl
      simp only [pickAndPin, hbest]
      cases session.pickBest first.now <;> rfl
    have hactive : session.spendSeq.active.bind
        session.spendSeq.linkById =
          session.active.bind session.linkById := rfl
    simp only [currentOrPick, hactive, hpin]
    cases session.active.bind session.linkById with
    | none => rfl
    | some link =>
        by_cases healthy : link.isHealthy first.now
        · simp only [healthy, if_true]
          rfl
        · simp [healthy]
  rcases hchosen : session.currentOrPick first.now with ⟨picked, chosen⟩
  rw [hchosen] at hpick
  simp only [promotionTarget, hpick, hchosen]
  cases picked with
  | none => rfl
  | some primary => cases hwrite : first.write primary.id <;> rfl

/-- A send spends one number and either fails to pack, leaving no trace but
that, or transmits the packed frame. -/
theorem send_spec (primitives : Primitives) (session : Session) (msgType : MessageType)
    (payload : Bytes) (key : Option Bytes) (compress : Bool) (first retry : LinkIo) :
    let seq := session.sendSeq.nextSeq
    let outcome := session.send primitives msgType payload key compress first retry
    (∃ e, packFrame primitives msgType payload key compress seq.toUInt16 = .error e ∧
        outcome = ⟨.error e, session.spendSeq, []⟩) ∨
      ∃ bytes, packFrame primitives msgType payload key compress seq.toUInt16 = .ok bytes ∧
        outcome = session.spendSeq.transmit seq bytes msgType first retry := by
  cases hpack : packFrame primitives msgType payload key compress
      session.sendSeq.nextSeq.toUInt16 with
  | error e => exact .inl ⟨e, hpack, by simp [send, SeqGen.next, hpack]⟩
  | ok bytes => exact .inr ⟨bytes, hpack, by simp [send, SeqGen.next, hpack]⟩

/-- However it goes, a send spends one number and keeps the list of links. -/
theorem send_keeps (primitives : Primitives) (session : Session) (msgType : MessageType)
    (payload : Bytes) (key : Option Bytes) (compress : Bool) (first retry : LinkIo) :
    KeepsCounter session.spendSeq
      (session.send primitives msgType payload key compress first retry).session := by
  rcases send_spec primitives session msgType payload key compress first retry with
    ⟨e, _, houtcome⟩ | ⟨bytes, _, houtcome⟩
  · rw [houtcome]
    exact ⟨rfl, rfl⟩
  · rw [houtcome]
    exact transmit_keepsCounter _ _ _ _ _ _

/-- A successful send returns the number it spent and wrote one packed frame,
on each link it tried and at least once. -/
theorem writes_of_send_ok {primitives : Primitives} {sender : Session} {msgType : MessageType}
    {payload : Bytes} {key : Option Bytes} {compress : Bool} {first retry : LinkIo} {seq : UInt32}
    (sent : (sender.send primitives msgType payload key compress first retry).result = .ok seq) :
    seq = sender.sendSeq.nextSeq ∧
      ∃ packed, packBody primitives payload key compress seq.toUInt16 = .ok packed ∧
        packed.body.length ≤ 65535 ∧
        let writes := (sender.send primitives msgType payload key compress first retry).writes
        (∃ write, write ∈ writes) ∧
          ∀ write ∈ writes, write.bytes = encodeFrame (packed.frame msgType seq.toUInt16) := by
  rcases send_spec primitives sender msgType payload key compress first retry with
    ⟨e, _, houtcome⟩ | ⟨bytes, hpack, houtcome⟩
  · rw [houtcome] at sent
    cases sent
  · rw [houtcome] at sent ⊢
    obtain ⟨hring, hlinks⟩ := transmit_spec sender.spendSeq
      sender.sendSeq.nextSeq bytes msgType first retry
    obtain ⟨hseq, _, write, hwrite, _⟩ := hring.recorded sent
    subst hseq
    obtain ⟨packed, hpacked, hfits, hbytes⟩ := packFrame_eq_ok.mp hpack
    refine ⟨rfl, packed, hpacked, hfits, ⟨write, hwrite⟩, ?_⟩
    intro other hother
    rw [← hbytes]
    exact hlinks.bytes_eq hother

end Session

end Mlink.Core
