/-
# What the peer makes of what a session writes

The reader documents that a message frame starts with the 32-bit session
number, in the clear. The writer puts no such prefix: it frames the payload as
it is, or compressed, or encrypted. So a payload comes back only when the
packed body happens to be the number followed by that payload, and a body that
was not compressed never is, since its length is wrong.
-/

import Mlink.Core.Session.Reader

namespace Mlink.Core

open Mlink.Protocol

/-- zstd's output for the payload, sealed when there is a key, is the number
followed by the payload itself. -/
def PrefixedByChance (primitives : Primitives) (payload : Bytes) (key : Option Bytes)
    (seq : UInt32) : Prop :=
  ∃ compressed, compress primitives payload = .ok compressed ∧
    match key with
    | none => compressed = be32 seq ++ payload
    | some key => encrypt primitives compressed key seq.toUInt16 = .ok (be32 seq ++ payload)

/-- The packed body starts with the number exactly when compression made it so:
an uncompressed body is no longer than the payload, or longer by a tag. -/
theorem body_eq_prefixed_iff {primitives : Primitives} (lawful : primitives.Lawful)
    {payload : Bytes} {key : Option Bytes} {compressOn : Bool} {seq : UInt32}
    {packed : PackedBody}
    (hpacked : packBody primitives payload key compressOn seq.toUInt16 = .ok packed) :
    packed.body = be32 seq ++ payload ↔
      (compressOn && shouldCompress payload) = true ∧
        PrefixedByChance primitives payload key seq := by
  cases hlong : compressOn && shouldCompress payload with
  | false =>
      have hlength := packBody_length_of_short lawful hlong hpacked
      simp only [Bool.false_eq_true, false_and, iff_false]
      intro hbody
      rw [hbody, List.length_append, be32_length, Primitives.TAG_LEN] at hlength
      omega
  | true =>
      simp only [true_and]
      cases hcompress : compress primitives payload with
      | error e =>
          simp [packBody, compressBody, hlong, hcompress, bind, Except.bind] at hpacked
      | ok compressed =>
          cases key with
          | none =>
              have hbody : packed = ⟨compressed, true, false⟩ := by
                simpa [packBody, compressBody, encryptBody, hlong, hcompress, bind,
                  Except.bind, pure, Except.pure, eq_comm] using hpacked
              simp [PrefixedByChance, hcompress, hbody]
          | some key =>
              cases hseal : encrypt primitives compressed key seq.toUInt16 with
              | error e =>
                  simp [packBody, compressBody, encryptBody, hlong, hcompress, hseal, bind,
                    Except.bind, pure, Except.pure] at hpacked
              | ok body =>
                  have hbody : packed = ⟨body, true, true⟩ := by
                    simpa [packBody, compressBody, encryptBody, hlong, hcompress, hseal, bind,
                      Except.bind, pure, Except.pure, eq_comm] using hpacked
                  simp [PrefixedByChance, hcompress, hseal, hbody]

namespace Session

section

variable (primitives : Primitives) (sender receiver : Session) (payload : Bytes)
  (key : Option Bytes) (compress : Bool) (first retry : LinkIo)

/-- Every write of a successful send surfaces its message at the receiver. -/
def RoundTrips : Prop :=
  let outcome := sender.send primitives .message payload key compress first retry
  ∀ seq, outcome.result = .ok seq → ∀ write ∈ outcome.writes, ∀ io,
    (receiver.handleBytes write.bytes io).1 = .msg seq payload

variable {primitives sender receiver payload key compress first retry}

/-- Exactly when a sent payload comes back: the receiver's window accepts the
number, and the payload was compressed into the number followed by itself. -/
theorem roundTrips_iff (lawful : primitives.Lawful) {seq : UInt32}
    (sent : (sender.send primitives .message payload key compress first retry).result =
      .ok seq) :
    RoundTrips primitives sender receiver payload key compress first retry ↔
      (receiver.dedup.observe sender.sendSeq.nextSeq).1 = .accept ∧
        (compress && shouldCompress payload) = true ∧
        PrefixedByChance primitives payload key sender.sendSeq.nextSeq := by
  obtain ⟨hseq, packed, hpacked, hfits, ⟨write, hwrite⟩, hbytes⟩ := writes_of_send_ok sent
  subst hseq
  have hbody := body_eq_prefixed_iff lawful hpacked
  have hsurface : ∀ write ∈ (sender.send primitives .message payload key compress
      first retry).writes, ∀ io,
      (receiver.handleBytes write.bytes io).1 = .msg sender.sendSeq.nextSeq payload ↔
        packed.body = be32 sender.sendSeq.nextSeq ++ payload ∧
          (receiver.dedup.observe sender.sendSeq.nextSeq).1 = .accept := by
    intro write hwrite io
    rw [hbytes write hwrite, handleBytes_eq_msg, decodeFrame_of_packFrame _ _ hfits]
    simp [PackedBody.frame]
  constructor
  · intro htrip
    obtain ⟨hprefixed, haccept⟩ :=
      (hsurface write hwrite first).mp (htrip _ sent write hwrite first)
    exact ⟨haccept, hbody.mp hprefixed⟩
  · rintro ⟨haccept, hprefixed⟩ seq hseq other hother io
    rw [sent] at hseq
    cases hseq
    exact (hsurface other hother io).mpr ⟨hbody.mpr hprefixed, haccept⟩

end

/-! ## A five-byte message between two fresh sessions -/

/-- A fresh session over one TCP link. -/
def overTcp : Session :=
  { Session.new "peer" 0 with
    links := [Link.new "tcp:peer:0" 0 .tcp ⟨1000000⟩ 0], active := some "tcp:peer:0" }

/-- Every write succeeds. -/
def openIo : LinkIo := ⟨0, fun _ => .ok ()⟩

/-- "hello" is sent, and its first four bytes are taken for the number. -/
theorem not_roundTrips_hello :
    let outcome := overTcp.send .transparent .message [104, 101, 108, 108, 111] none false
      openIo openIo
    outcome.result = .ok 0 ∧
      outcome.writes.map (fun write => (overTcp.handleBytes write.bytes openIo).1) =
        [.msg 0x68656C6C [111]] ∧
      ¬ RoundTrips .transparent overTcp overTcp [104, 101, 108, 108, 111] none false
        openIo openIo := by
  refine ⟨rfl, rfl, ?_⟩
  intro htrip
  have hmsg := htrip 0 rfl _ (List.mem_singleton_self _) openIo
  exact absurd hmsg (by decide)

/-- The characterization at the same input. -/
theorem roundTrips_iff_hello :
    RoundTrips .transparent overTcp overTcp [104, 101, 108, 108, 111] none false
        openIo openIo ↔
      (overTcp.dedup.observe overTcp.sendSeq.nextSeq).1 = .accept ∧
        (false && shouldCompress [104, 101, 108, 108, 111]) = true ∧
        PrefixedByChance .transparent [104, 101, 108, 108, 111] none
          overTcp.sendSeq.nextSeq :=
  roundTrips_iff Primitives.transparent_lawful
    (show (overTcp.send .transparent .message [104, 101, 108, 108, 111] none false
      openIo openIo).result = .ok 0 from rfl)

end Session

end Mlink.Core
