/-
# Two readers of one connection

`recvRaw` and `recvOnce` decode the same frames. They differ where a frame says that
it is encrypted: the one looks for a key whatever the node's own setting is, the other
only if the node encrypts. And both hand the body on as it is when there is no key. So
they agree, and return nothing that was not decrypted, only as far as the setting and
the key go with what the flags say, or the body is of no use as it is.
-/

import Mlink.Core.Node.LegacyRoundTrip

namespace Mlink.Core

open Mlink.Protocol

namespace Node

variable (primitives : Primitives) (node : Node) (peerId : String)

/-- The frame says that it is compressed. -/
def isCompressed (frame : Frame) : Bool := (decodeFlags frame.flags).1

/-- The frame says that it is encrypted. -/
def isEncrypted (frame : Frame) : Bool := (decodeFlags frame.flags).2.1

/-- Undo the compression that the flags announce. -/
def inflate (frame : Frame) (body : Bytes) : Result Bytes :=
  if isCompressed frame then decompress primitives body else .ok body

/-- `payload` is what the frame holds under the key for the peer. -/
def Unsealed (frame : Frame) (payload : Bytes) : Prop :=
  ∃ peer key body, node.peerStates.lookup peerId = some peer ∧ peer.aesKey = some key ∧
    decrypt primitives frame.payload key frame.seq = .ok body ∧
      inflate primitives frame body = .ok payload

/-- Of a frame that says it is encrypted, only what was decrypted is returned. -/
def FailsClosed (read result : Result Bytes) : Prop :=
  ∀ bytes frame, read = .ok bytes → decodeFrame bytes = .ok frame → isEncrypted frame = true →
    ∀ payload, result = .ok payload → node.Unsealed primitives peerId frame payload

/-- The payload `recvRaw` returns for what was read. -/
def rawPayload (read : Result Bytes) (now : Instant) : Result Bytes :=
  (node.recvRaw primitives peerId read now).1.map Prod.snd

/-- The payload `recvOnce` returns for what was read. -/
def oncePayload (read : Result Bytes) (now : Instant) : Result Bytes :=
  (node.recvOnce primitives peerId read now).1.map Prod.snd

/-- Setting, key and flags go together: the node encrypts, and holds the key of a peer it
knows; or else the body is of no use as it is, or is the same either way. -/
def OpensAlike (frame : Frame) : Prop :=
  match node.peerStates.lookup peerId with
  | none => node.encrypt = true ∨ (inflate primitives frame frame.payload).toOption = none
  | some peer =>
      match peer.aesKey with
      | none => (inflate primitives frame frame.payload).toOption = none
      | some key =>
          node.encrypt = true ∨
            ((decrypt primitives frame.payload key frame.seq).bind
              (inflate primitives frame)).toOption =
                (inflate primitives frame frame.payload).toOption

variable {primitives node peerId}

/-- Whatever a heartbeat does to the node, `recvRaw` returns what it decoded. -/
theorem recvRaw_fst {read : Result Bytes} {now : Instant}
    (connected : (node.connections.lookup peerId).isSome) :
    (node.recvRaw primitives peerId read now).1 = read.bind (node.decodeRaw primitives peerId) := by
  obtain ⟨conn, hconn⟩ := Option.isSome_iff_exists.mp connected
  simp only [recvRaw, hconn]
  cases read.bind (node.decodeRaw primitives peerId) with
  | error e => rfl
  | ok pair =>
      dsimp only
      split
      · split <;> rfl
      · rfl

/-- Both readers keep something beside the payload, and neither lets it decide. -/
theorem map_snd_decompress {α : Type} (kept : α) (compressed : Bool) (body : Bytes) :
    Except.map Prod.snd
        (if compressed = true then
          (decompress primitives body).bind fun payload => .ok (kept, payload)
        else .ok (kept, body)) =
      if compressed = true then decompress primitives body else .ok body := by
  split
  · cases decompress primitives body <;> rfl
  · rfl

/-- The payload of a frame as `recvRaw` decodes it. -/
theorem map_snd_decodeRaw (bytes : Bytes) :
    (node.decodeRaw primitives peerId bytes).map Prod.snd =
      (decodeFrame bytes).bind fun frame =>
        (node.openRaw primitives peerId frame (isEncrypted frame)).bind
          (inflate primitives frame) := by
  rw [decodeRaw]
  cases decodeFrame bytes with
  | error e => rfl
  | ok frame =>
      simp only [bind, Except.bind, isEncrypted, inflate, isCompressed]
      cases node.openRaw primitives peerId frame (decodeFlags frame.flags).2.1 with
      | error e => rfl
      | ok body => exact map_snd_decompress frame (decodeFlags frame.flags).1 body

/-- The payload of a frame as `recvOnce` decodes it. -/
theorem map_snd_decodeMessage (bytes : Bytes) :
    (node.decodeMessage primitives peerId bytes).map Prod.snd =
      (decodeFrame bytes).bind fun frame =>
        (node.openPayload primitives peerId frame (isEncrypted frame)).bind
          (inflate primitives frame) := by
  rw [decodeMessage]
  cases decodeFrame bytes with
  | error e => rfl
  | ok frame =>
      simp only [bind, Except.bind, isEncrypted, inflate, isCompressed]
      cases node.openPayload primitives peerId frame (decodeFlags frame.flags).2.1 with
      | error e => rfl
      | ok body =>
          exact map_snd_decompress (decodeFlags frame.flags).2.2 (decodeFlags frame.flags).1 body

/-- Without a connection neither reader returns anything. -/
theorem payloads_of_unconnected {read : Result Bytes} {now : Instant}
    (unconnected : node.connections.lookup peerId = none) :
    node.rawPayload primitives peerId read now = .error (.peerGone peerId) ∧
      node.oncePayload primitives peerId read now = .error (.peerGone peerId) := by
  simp [rawPayload, oncePayload, recvRaw, recvOnce, unconnected, Except.map]

/-- On a frame that does not say it is encrypted the two readers do the same. -/
theorem openRaw_of_plain (frame : Frame) :
    node.openRaw primitives peerId frame false =
      node.openPayload primitives peerId frame false := by
  simp [openRaw, openPayload]

/-- What opening under the peer's key gives is what the frame holds, and nothing else is. -/
theorem unsealed_iff {frame : Frame} {peer : PeerState} {key payload : Bytes}
    (hpeer : node.peerStates.lookup peerId = some peer) (hkey : peer.aesKey = some key) :
    node.Unsealed primitives peerId frame payload ↔
      (decrypt primitives frame.payload key frame.seq).bind (inflate primitives frame) =
        .ok payload := by
  constructor
  · rintro ⟨known, held, body, hknown, hheld, hbody, hpayload⟩
    rw [hpeer] at hknown
    cases hknown
    rw [hkey] at hheld
    cases hheld
    rw [hbody]
    exact hpayload
  · intro hopened
    cases hbody : decrypt primitives frame.payload key frame.seq with
    | error e => simp [hbody, Except.bind] at hopened
    | ok body =>
        rw [hbody] at hopened
        exact ⟨peer, key, body, hpeer, hkey, hbody, hopened⟩

/-- Without a key for the peer a frame holds nothing. -/
theorem not_unsealed {frame : Frame} {payload : Bytes}
    (keyless : (node.peerStates.lookup peerId).bind PeerState.aesKey = none) :
    ¬ node.Unsealed primitives peerId frame payload := by
  rintro ⟨peer, key, body, hpeer, hkey, -, -⟩
  simp [hpeer, hkey] at keyless

/-- A result with no value promises nothing. -/
theorem forall_ok_of_toOption_none {result : Result Bytes} {P : Bytes → Prop}
    (failed : result.toOption = none) : ∀ payload, result = .ok payload → P payload := by
  intro payload hresult
  rw [hresult] at failed
  cases failed

/-- A result with a value is that value. -/
theorem eq_ok_of_toOption {result : Result Bytes} {payload : Bytes}
    (hvalue : result.toOption = some payload) : result = .ok payload := by
  cases result with
  | error e => cases hvalue
  | ok other =>
      cases hvalue
      rfl

/-- A value that must not be returned is not returned by a result without one only. -/
theorem toOption_eq_none_of_forall {result : Result Bytes} {P : Bytes → Prop}
    (none_holds : ∀ payload, ¬ P payload) (closed : ∀ payload, result = .ok payload → P payload) :
    result.toOption = none := by
  cases result with
  | error e => rfl
  | ok payload => exact absurd (closed payload rfl) (none_holds payload)

/-- On a frame that says it is encrypted both readers return the same, and only what was
decrypted, exactly when setting, key and flags go together. -/
theorem opensAlike_iff (frame : Frame) :
    (((node.openRaw primitives peerId frame true).bind (inflate primitives frame)).toOption =
        ((node.openPayload primitives peerId frame true).bind
          (inflate primitives frame)).toOption ∧
      (∀ payload, (node.openRaw primitives peerId frame true).bind (inflate primitives frame) =
          .ok payload → node.Unsealed primitives peerId frame payload) ∧
      ∀ payload, (node.openPayload primitives peerId frame true).bind
          (inflate primitives frame) = .ok payload →
        node.Unsealed primitives peerId frame payload) ↔
      node.OpensAlike primitives peerId frame := by
  cases hpeer : node.peerStates.lookup peerId with
  | none =>
      have hkeyless : ∀ payload, ¬ node.Unsealed primitives peerId frame payload :=
        fun payload => not_unsealed (by rw [hpeer]; rfl)
      cases hencrypt : node.encrypt with
      | true => simp [OpensAlike, openRaw, openPayload, hpeer, hencrypt, Except.bind]
      | false =>
          have hraw : (node.openRaw primitives peerId frame true).bind
              (inflate primitives frame) = .error (.peerGone peerId) := by
            simp [openRaw, hpeer, Except.bind]
          have honce : (node.openPayload primitives peerId frame true).bind
              (inflate primitives frame) = inflate primitives frame frame.payload := by
            simp [openPayload, hencrypt, Except.bind]
          rw [hraw, honce]
          simp only [OpensAlike, hpeer, hencrypt, Bool.false_eq_true, false_or]
          constructor
          · rintro ⟨-, -, hclosed⟩
            exact toOption_eq_none_of_forall hkeyless hclosed
          · intro hfails
            exact ⟨hfails.symm, forall_ok_of_toOption_none rfl,
              forall_ok_of_toOption_none hfails⟩
  | some peer =>
      cases hkey : peer.aesKey with
      | none =>
          have hkeyless : ∀ payload, ¬ node.Unsealed primitives peerId frame payload :=
            fun payload => not_unsealed (by rw [hpeer]; exact hkey)
          have hraw : (node.openRaw primitives peerId frame true).bind
              (inflate primitives frame) = inflate primitives frame frame.payload := by
            simp [openRaw, hpeer, hkey, Except.bind]
          have honce : (node.openPayload primitives peerId frame true).bind
              (inflate primitives frame) = inflate primitives frame frame.payload := by
            cases hencrypt : node.encrypt <;>
              simp [openPayload, hpeer, hkey, hencrypt, Except.bind]
          rw [hraw, honce]
          simp only [OpensAlike, hpeer, hkey, true_and]
          constructor
          · rintro ⟨hclosed, -⟩
            exact toOption_eq_none_of_forall hkeyless hclosed
          · intro hfails
            exact ⟨forall_ok_of_toOption_none hfails, forall_ok_of_toOption_none hfails⟩
      | some key =>
          have hraw : node.openRaw primitives peerId frame true =
              decrypt primitives frame.payload key frame.seq := by
            simp [openRaw, hpeer, hkey]
          have hunsealed : ∀ payload, node.Unsealed primitives peerId frame payload ↔
              (decrypt primitives frame.payload key frame.seq).bind (inflate primitives frame) =
                .ok payload := fun payload => unsealed_iff hpeer hkey
          cases hencrypt : node.encrypt with
          | true =>
              have honce : node.openPayload primitives peerId frame true =
                  decrypt primitives frame.payload key frame.seq := by
                simp [openPayload, hpeer, hkey, hencrypt]
              simp [OpensAlike, hpeer, hkey, hencrypt, hraw, honce, hunsealed]
          | false =>
              have honce : (node.openPayload primitives peerId frame true).bind
                  (inflate primitives frame) = inflate primitives frame frame.payload := by
                simp [openPayload, hencrypt, Except.bind]
              rw [hraw, honce]
              simp only [OpensAlike, hpeer, hkey, hencrypt, Bool.false_eq_true, false_or,
                hunsealed]
              constructor
              · rintro ⟨hsame, -, -⟩
                exact hsame
              · intro hsame
                refine ⟨hsame, fun _ hpayload => hpayload, fun payload hplain => ?_⟩
                rw [hplain] at hsame
                exact eq_ok_of_toOption hsame

/-- On a connection, what the readers return for an encrypted frame is what they make of
its body. -/
theorem payloads_of_encrypted {bytes : Bytes} {frame : Frame} (now : Instant)
    (connected : (node.connections.lookup peerId).isSome)
    (hframe : decodeFrame bytes = .ok frame) (hflag : isEncrypted frame = true) :
    node.rawPayload primitives peerId (.ok bytes) now =
        (node.openRaw primitives peerId frame true).bind (inflate primitives frame) ∧
      node.oncePayload primitives peerId (.ok bytes) now =
        (node.openPayload primitives peerId frame true).bind (inflate primitives frame) := by
  constructor
  · rw [rawPayload, recvRaw_fst connected, Except.bind, map_snd_decodeRaw, hframe, Except.bind,
      hflag]
  · rw [oncePayload, recvOnce_fst connected, Except.bind, map_snd_decodeMessage, hframe,
      Except.bind, hflag]

/-- Of anything else the readers make the same. -/
theorem payloads_of_plain {read : Result Bytes} (now : Instant)
    (connected : (node.connections.lookup peerId).isSome)
    (plain : ∀ bytes frame, read = .ok bytes → decodeFrame bytes = .ok frame →
      isEncrypted frame = false) :
    node.rawPayload primitives peerId read now = node.oncePayload primitives peerId read now := by
  rw [rawPayload, oncePayload, recvRaw_fst connected, recvOnce_fst connected]
  cases read with
  | error e => rfl
  | ok bytes =>
      rw [Except.bind, Except.bind, map_snd_decodeRaw, map_snd_decodeMessage]
      cases hframe : decodeFrame bytes with
      | error e => rfl
      | ok frame =>
          rw [Except.bind, Except.bind, plain bytes frame rfl hframe, openRaw_of_plain]

/-- The two readers return the same payload or none, and of a frame that says it is
encrypted nothing but what was decrypted. -/
def ReceivesSafely (primitives : Primitives) (node : Node) (peerId : String)
    (read : Result Bytes) (now : Instant) : Prop :=
  (node.rawPayload primitives peerId read now).toOption =
      (node.oncePayload primitives peerId read now).toOption ∧
    node.FailsClosed primitives peerId read (node.rawPayload primitives peerId read now) ∧
      node.FailsClosed primitives peerId read (node.oncePayload primitives peerId read now)

/-- The readers agree and fail closed exactly when, for every frame that says it is
encrypted, setting and key go with what it says, or its body is of no use as it is. -/
theorem receivesSafely_iff (primitives : Primitives) (node : Node) (peerId : String)
    (read : Result Bytes) (now : Instant) :
    node.ReceivesSafely primitives peerId read now ↔
      ∀ bytes frame, (node.connections.lookup peerId).isSome → read = .ok bytes →
        decodeFrame bytes = .ok frame → isEncrypted frame = true →
          node.OpensAlike primitives peerId frame := by
  cases hconn : node.connections.lookup peerId with
  | none =>
      obtain ⟨hraw, honce⟩ :
          node.rawPayload primitives peerId read now = .error (.peerGone peerId) ∧
            node.oncePayload primitives peerId read now = .error (.peerGone peerId) :=
        payloads_of_unconnected hconn
      simp [ReceivesSafely, FailsClosed, hraw, honce]
  | some conn =>
      have hconnected : (node.connections.lookup peerId).isSome := by rw [hconn]; rfl
      constructor
      · rintro ⟨hsame, hraw, honce⟩ bytes frame - rfl hframe hflag
        have hclosed := hraw bytes frame rfl hframe hflag
        have hclosedOnce := honce bytes frame rfl hframe hflag
        obtain ⟨hrawEq, honceEq⟩ :
            node.rawPayload primitives peerId (.ok bytes) now = _ ∧ _ :=
          payloads_of_encrypted now hconnected hframe hflag
        rw [hrawEq] at hsame hclosed
        rw [honceEq] at hsame hclosedOnce
        exact (opensAlike_iff frame).mp ⟨hsame, hclosed, hclosedOnce⟩
      · intro halike
        by_cases hflagged : ∃ bytes frame, read = .ok bytes ∧ decodeFrame bytes = .ok frame ∧
            isEncrypted frame = true
        · obtain ⟨bytes, frame, rfl, hframe, hflag⟩ := hflagged
          obtain ⟨hsame, hclosed, hclosedOnce⟩ :=
            (opensAlike_iff frame).mpr (halike bytes frame rfl rfl hframe hflag)
          obtain ⟨hrawEq, honceEq⟩ :
              node.rawPayload primitives peerId (.ok bytes) now = _ ∧ _ :=
            payloads_of_encrypted now hconnected hframe hflag
          rw [ReceivesSafely, hrawEq, honceEq]
          refine ⟨hsame, ?_, ?_⟩
          · rintro other found hread hfound -
            cases hread
            rw [hframe] at hfound
            cases hfound
            exact hclosed
          · rintro other found hread hfound -
            cases hread
            rw [hframe] at hfound
            cases hfound
            exact hclosedOnce
        · have hplain : ∀ bytes frame, read = .ok bytes → decodeFrame bytes = .ok frame →
              isEncrypted frame = false := by
            intro bytes frame hread hframe
            by_contra hflag
            exact hflagged ⟨bytes, frame, hread, hframe, by simpa using hflag⟩
          refine ⟨congrArg _ (payloads_of_plain now hconnected hplain), ?_, ?_⟩
          · intro bytes frame hread hframe hflag
            exact absurd ⟨bytes, frame, hread, hframe, hflag⟩ hflagged
          · intro bytes frame hread hframe hflag
            exact absurd ⟨bytes, frame, hread, hframe, hflag⟩ hflagged

/-- A node that encrypts, connected to a peer whose key it does not have. -/
def keyless (self peer : String) : Node :=
  { Node.new self true [] with
    connections := AList.insert peer 0 ∅
    peerStates := AList.insert peer PeerState.new ∅ }

/-- Three bytes in a message frame that says they are encrypted. -/
def flaggedFrame : Bytes := [0x4D, 0x4C, 0x01, 0x50, 0, 0, 0, 3, 1, 2, 3]

/-- Both readers hand the three bytes on as they came. -/
theorem not_receivesSafely_keyless :
    (keyless "b" "a").rawPayload .transparent "a" (.ok flaggedFrame) 0 = .ok [1, 2, 3] ∧
      (keyless "b" "a").oncePayload .transparent "a" (.ok flaggedFrame) 0 = .ok [1, 2, 3] ∧
      ¬ (keyless "b" "a").ReceivesSafely .transparent "a" (.ok flaggedFrame) 0 := by
  refine ⟨rfl, rfl, ?_⟩
  rintro ⟨-, hclosed, -⟩
  exact not_unsealed rfl (hclosed flaggedFrame
    ⟨MAGIC, PROTOCOL_VERSION, 0x50, 0, 3, [1, 2, 3]⟩ rfl rfl rfl [1, 2, 3] rfl)

end Node

end Mlink.Core
