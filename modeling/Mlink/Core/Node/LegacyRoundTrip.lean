/-
# The single-link path, there and back

What one node writes over the single-link path the other node reads back, as long
as both follow the same encryption setting: the header carries the flags and the
counter, so the reader knows what was done to the payload and under which nonce.
A body that outgrows the length field is not written at all.
-/

import Mlink.Core.Node.Io

namespace Mlink.Core

open Mlink.Protocol

namespace Node

variable {primitives : Primitives}

/-- The two ends of a connection agree on encryption: both encrypt or neither does, and
if they do, what each holds for the other is the same key, or no key at all. -/
structure SharesEncryption (sender : Node) (receiverId : String) (receiver : Node)
    (senderId : String) : Prop where
  encrypt : receiver.encrypt = sender.encrypt
  key : sender.encrypt = true →
    (receiver.peerStates.lookup senderId).bind PeerState.aesKey =
      (sender.peerStates.lookup receiverId).bind PeerState.aesKey

/-- The reader can open what the key in force at the writer seals. -/
theorem SharesEncryption.exists_key {sender receiver : Node} {receiverId senderId : String}
    (shares : SharesEncryption sender receiverId receiver senderId) {peer : PeerState}
    (hpeer : sender.peerStates.lookup receiverId = some peer) {key : Bytes}
    (hkey : sender.activeKey peer = some key) :
    receiver.encrypt = true ∧
      ∃ state, receiver.peerStates.lookup senderId = some state ∧ state.aesKey = some key := by
  rw [activeKey] at hkey
  split_ifs at hkey with hencrypt
  have hsame := shares.key hencrypt
  rw [hpeer, Option.bind_some, hkey] at hsame
  exact ⟨shares.encrypt.trans hencrypt, Option.bind_eq_some_iff.mp hsame⟩

/-- A reader that holds the writer's key makes of a packed body what it was packed from. -/
theorem decodeMessage_of_packed (lawful : primitives.Lawful) {receiver : Node}
    {senderId : String} {payload : Bytes} {key : Option Bytes} {compressOn : Bool}
    {seq : UInt16} {packed : PackedBody} (msgType : MessageType)
    (opens : ∀ used, key = some used → receiver.encrypt = true ∧
      ∃ state, receiver.peerStates.lookup senderId = some state ∧ state.aesKey = some used)
    (hpacked : packBody primitives payload key compressOn seq = .ok packed)
    (fits : packed.body.length ≤ 65535) :
    receiver.decodeMessage primitives senderId (encodeFrame (packed.frame msgType seq)) =
      .ok (msgType, payload) := by
  obtain ⟨body, hbody, hsealed⟩ := packBody_eq_ok.mp hpacked
  have hopen : receiver.openPayload primitives senderId (packed.frame msgType seq)
      packed.encrypted = .ok body := by
    have hsplit := decrypt_of_encryptBody lawful hsealed
    cases key with
    | none =>
        obtain ⟨hplain, hsame⟩ := hsplit
        simp [openPayload, PackedBody.frame, hplain, hsame]
    | some key =>
        obtain ⟨hflag, hdecrypt⟩ := hsplit
        obtain ⟨hencrypt, state, hstate, hkey⟩ := opens key rfl
        simp [openPayload, PackedBody.frame, hflag, hencrypt, hstate, hkey, hdecrypt]
  have hpayload := decompress_of_compressBody lawful hbody
  have hflags : decodeFlags (packed.frame msgType seq).flags =
      (packed.compressed, packed.encrypted, msgType) := decodeFlags_encodeFlags _ _ _
  simp only [decodeMessage, decodeFrame_of_packFrame msgType seq fits, hflags, hopen, bind,
    Except.bind]
  cases hcompressed : packed.compressed with
  | false =>
      rw [hcompressed] at hpayload
      cases hpayload
      rfl
  | true =>
      rw [hcompressed, if_pos rfl] at hpayload
      simp only [hpayload, if_true, pure, Except.pure]

/-- Whatever a heartbeat does to the reader, it returns what it decoded. -/
theorem recvOnce_fst {receiver : Node} {senderId : String} {read : Result Bytes} {now : Instant}
    (connected : (receiver.connections.lookup senderId).isSome) :
    (receiver.recvOnce primitives senderId read now).1 =
      read.bind (receiver.decodeMessage primitives senderId) := by
  obtain ⟨conn, hconn⟩ := Option.isSome_iff_exists.mp connected
  simp only [recvOnce, hconn]
  cases read.bind (receiver.decodeMessage primitives senderId) with
  | error e => rfl
  | ok pair =>
      dsimp only
      split
      · split <;> rfl
      · rfl

/-- If `sendLegacy` succeeds, it wrote one frame, and the other end, under the same
encryption setting, reads the message type and the payload back from it. If the packed
body is longer than the length field can say, nothing is written. -/
theorem recvOnce_of_sendLegacy (lawful : primitives.Lawful) {sender receiver : Node}
    {receiverId senderId : String}
    (shares : SharesEncryption sender receiverId receiver senderId)
    (connected : (receiver.connections.lookup senderId).isSome)
    (msgType : MessageType) (payload : Bytes) (io : NodeIo) :
    ((sender.sendLegacy primitives receiverId msgType payload io).result = .ok () →
      ∃ bytes, (sender.sendLegacy primitives receiverId msgType payload io).written = [bytes] ∧
        ∀ now, (receiver.recvOnce primitives senderId (.ok bytes) now).1 =
          .ok (msgType, payload)) ∧
    ∀ peer packed, sender.peerStates.lookup receiverId = some peer →
      packBody primitives payload (sender.activeKey peer) true peer.seq = .ok packed →
      65535 < packed.body.length →
        (sender.sendLegacy primitives receiverId msgType payload io).result =
            .error (.payloadTooLarge packed.body.length 65535) ∧
          (sender.sendLegacy primitives receiverId msgType payload io).written = [] := by
  constructor
  · intro hsent
    cases hpeer : sender.peerStates.lookup receiverId with
    | none => simp [sendLegacy, hpeer] at hsent
    | some peer =>
        rw [sendLegacy_of_known hpeer] at hsent ⊢
        cases hpack : packFrame primitives msgType payload (sender.activeKey peer) true
            peer.seq with
        | error e => simp [hpack] at hsent
        | ok bytes =>
            cases hconn : sender.connections.lookup receiverId with
            | none => simp [hpack, hconn] at hsent
            | some conn =>
                obtain ⟨packed, hpacked, hfits, hbytes⟩ := packFrame_eq_ok.mp hpack
                refine ⟨bytes, rfl, fun now => ?_⟩
                rw [recvOnce_fst connected, hbytes]
                exact decodeMessage_of_packed lawful msgType
                  (fun key hkey => shares.exists_key hpeer hkey) hpacked hfits
  · intro peer packed hpeer hpacked hlong
    have hpack : packFrame primitives msgType payload (sender.activeKey peer) true peer.seq =
        .error (.payloadTooLarge packed.body.length 65535) := by
      simp [packFrame, hpacked, hlong, bind, Except.bind, throw, throwThe, MonadExceptOf.throw]
    rw [sendLegacy_of_known hpeer, hpack]
    exact ⟨rfl, rfl⟩

/-- A node with a connection to one peer, about to hand out the last number before the
counter wraps. -/
def aboutToWrap (self peer : String) : Node :=
  { Node.new self false [] with
    connections := AList.insert peer 0 ∅
    peerStates := AList.insert peer { PeerState.new with seq := 0xFFFF } ∅ }

/-- A short payload between two nodes that do not encrypt, on the last number. -/
theorem recvOnce_of_sendLegacy_hello :
    ∃ bytes, ((aboutToWrap "a" "b").sendLegacy .transparent "b" .request
        [104, 101, 108, 108, 111] ⟨⟨0, fun _ => .ok ()⟩, ⟨0, fun _ => .ok ()⟩, .ok ()⟩).written =
          [bytes] ∧
      ∀ now, ((aboutToWrap "b" "a").recvOnce .transparent "a" (.ok bytes) now).1 =
        .ok (.request, [104, 101, 108, 108, 111]) :=
  (recvOnce_of_sendLegacy Primitives.transparent_lawful
    (show SharesEncryption (aboutToWrap "a" "b") "b" (aboutToWrap "b" "a") "a" from
      ⟨rfl, fun hencrypt => absurd hencrypt (by decide)⟩) rfl .request [104, 101, 108, 108, 111]
    ⟨⟨0, fun _ => .ok ()⟩, ⟨0, fun _ => .ok ()⟩, .ok ()⟩).1 rfl

end Node

end Mlink.Core
