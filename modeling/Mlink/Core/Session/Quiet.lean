/-
# What reading leaves alone

Reading uses links, moves the window and pays acknowledgement debts, and none
of that attaches or detaches a link or emits an event. Only a failed read does
more.
-/

import Mlink.Core.Session.Reader

namespace Mlink.Core

open Mlink.Protocol

namespace Session

/-- The same ids are attached and nothing was emitted. -/
structure Quiet (before after : Session) : Prop where
  ids : after.links.map Link.id = before.links.map Link.id
  events : after.events = before.events
  peerId : after.peerId = before.peerId

namespace Quiet

theorem refl (session : Session) : Quiet session session := ⟨rfl, rfl, rfl⟩

theorem trans {first second third : Session} (hfirst : Quiet first second)
    (hsecond : Quiet second third) : Quiet first third where
  ids := hsecond.ids.trans hfirst.ids
  events := hsecond.events.trans hfirst.events
  peerId := hsecond.peerId.trans hfirst.peerId

/-- Using a link is quiet. -/
theorem updateLink (session : Session) (id : String) {use : Link → Link}
    (keeps : ∀ link, (use link).id = link.id) : Quiet session (session.updateLink id use) where
  ids := map_id_updateLinks session.links id keeps
  events := rfl
  peerId := rfl

/-- Paying the acknowledgement debt is quiet. -/
theorem flushAckNow (session : Session) (io : LinkIo) :
    Quiet session (session.flushAckNow io).2.1 := by
  by_cases hzero : session.ackPending.count = 0
  · rw [Session.flushAckNow, if_pos hzero]
    exact refl session
  · rw [Session.flushAckNow, if_neg hzero]
    cases hactive : ({ session with ackPending := .default } : Session).activeLink with
    | none =>
        simp only [hactive]
        exact ⟨rfl, rfl, rfl⟩
    | some link =>
        have hids := map_id_updateLinks session.links link.id
          fun other => Link.send_id other io.now (io.write link.id)
        cases hwrite : io.write link.id with
        | ok value =>
            simp only [hactive, writeLink, hwrite]
            exact ⟨hids, rfl, rfl⟩
        | error e =>
            simp only [hactive, writeLink, hwrite]
            exact ⟨hids, rfl, rfl⟩

theorem maybeFlushAck (session : Session) (io : LinkIo) :
    Quiet session (session.maybeFlushAck io).1 := by
  rw [Session.maybeFlushAck]
  split_ifs
  · exact flushAckNow session io
  · exact refl session

/-- Consuming a frame is quiet. -/
theorem consumeMessage (session : Session) (frame : Frame) (io : LinkIo) :
    Quiet session (session.consumeMessage frame io).2.1 := by
  by_cases hshort : frame.payload.length < SESSION_SEQ_HEADER
  · rw [Session.consumeMessage, if_pos hshort]
    exact refl session
  · rcases hobserve : session.dedup.observe (ofBe32 (frame.payload.take SESSION_SEQ_HEADER))
      with ⟨observed, window⟩
    rw [Session.consumeMessage, if_neg hshort]
    simp only [hobserve]
    cases observed with
    | duplicate => exact ⟨rfl, rfl, rfl⟩
    | stale => exact ⟨rfl, rfl, rfl⟩
    | accept =>
        have hrecorded : Quiet session
            { session with dedup := window, ackPending := session.ackPending.record io.now } :=
          ⟨rfl, rfl, rfl⟩
        dsimp only
        split_ifs
        · exact hrecorded.trans (flushAckNow _ io)
        · exact hrecorded

/-- Handling the bytes of a read is quiet. -/
theorem handleBytes (session : Session) (bytes : Bytes) (io : LinkIo) :
    Quiet session (session.handleBytes bytes io).2.1 := by
  cases hdecode : decodeFrame bytes with
  | error e =>
      simp only [Session.handleBytes, hdecode]
      exact refl session
  | ok frame =>
      cases htype : (decodeFlags frame.flags).2.2 with
      | ack =>
          simp only [Session.handleBytes, hdecode, htype]
          cases decodeAck frame.payload with
          | error e => exact refl session
          | ok ack => exact ⟨rfl, rfl, rfl⟩
      | message =>
          have hconsume := consumeMessage session frame io
          rcases hresult : session.consumeMessage frame io with ⟨surfaced, after⟩
          rw [hresult] at hconsume
          simp only [Session.handleBytes, hdecode, htype, hresult]
          cases surfaced with
          | none => exact hconsume
          | some pair => exact hconsume
      | _ =>
          simp only [Session.handleBytes, hdecode, htype]
          exact refl session

end Quiet

/-- A read leaves the same ids attached, whether it succeeds or fails. -/
theorem ids_readAny (session : Session) (wake : Wake) (io : LinkIo) :
    (session.readAny wake io).2.1.links.map Link.id = session.links.map Link.id := by
  cases wake with
  | timer => rfl
  | ready linkId outcome =>
      cases hlink : session.linkById linkId with
      | none => simp only [readAny, hlink]
      | some link =>
          have hused := Quiet.updateLink session linkId
            fun other => Link.recv_id other io.now outcome
          cases outcome with
          | ok bytes =>
              simp only [readAny, hlink]
              exact (hused.trans (Quiet.handleBytes _ bytes io)).ids
          | error e =>
              simp only [readAny, hlink]
              split_ifs
              · exact hused.ids
              · exact hused.ids

theorem ids_recvTurn (session : Session) (turn : Turn) :
    (session.recvTurn turn).2.links.map Link.id = session.links.map Link.id := by
  rw [recvTurn]
  split_ifs
  · rfl
  · have hread := ids_readAny (session.maybeFlushAck turn.flushIo).1 turn.wake turn.io
    rw [(Quiet.maybeFlushAck session turn.flushIo).ids] at hread
    rcases hresult : (session.maybeFlushAck turn.flushIo).1.readAny turn.wake turn.io with
      ⟨outcome, after, writes⟩
    rw [hresult] at hread
    cases outcome with
    | msg seq payload => simpa only [hresult] using hread
    | continueLoop => simpa only [hresult] using hread
    | allLinksGone => simpa only [hresult] using hread

/-- Receiving leaves the same ids attached. -/
theorem ids_recv (session : Session) (turns : List Turn) :
    (session.recv turns).2.links.map Link.id = session.links.map Link.id := by
  induction turns generalizing session with
  | nil => rfl
  | cons turn turns ih =>
      have hturn := ids_recvTurn session turn
      rcases hresult : session.recvTurn turn with ⟨returned, after⟩
      rw [hresult] at hturn
      rw [recv, hresult]
      cases returned with
      | none => exact (ih after).trans hturn
      | some value => exact hturn

/-! ## Reading a frame in a pass -/

end Session

end Mlink.Core
