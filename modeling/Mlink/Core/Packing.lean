/-
# Packing a payload into a frame

Both writers of the crate turn a payload into a frame the same way: compress it
when asked and long enough, encrypt it when there is a key, and put the result
behind a header whose flags say what was done. `packFrame` is that pipeline,
and `decodeFrame_of_packFrame` is what any reader gets back from it.
-/

import Mlink.Core.Security

namespace Mlink.Core

open Mlink.Protocol

/-- The body of a frame and the flags that describe it. -/
structure PackedBody where
  body : Bytes
  compressed : Bool
  encrypted : Bool
  deriving DecidableEq, Repr

/-- Compress the payload if asked and if it is long enough. -/
def compressBody (primitives : Primitives) (payload : Bytes) (compressOn : Bool) :
    Result (Bytes × Bool) :=
  if compressOn && shouldCompress payload then do
    let body ← compress primitives payload
    pure (body, true)
  else
    pure (payload, false)

/-- Encrypt the body if there is a key. -/
def encryptBody (primitives : Primitives) (body : Bytes) (key : Option Bytes) (seq : UInt16) :
    Result (Bytes × Bool) :=
  match key with
  | some key => do
      let body ← encrypt primitives body key seq
      pure (body, true)
  | none => pure (body, false)

/-- Compress, then encrypt. -/
def packBody (primitives : Primitives) (payload : Bytes) (key : Option Bytes)
    (compressOn : Bool) (seq : UInt16) : Result PackedBody := do
  let (body, compressed) ← compressBody primitives payload compressOn
  let (body, encrypted) ← encryptBody primitives body key seq
  pure { body, compressed, encrypted }

/-- The frame of a packed body. -/
def PackedBody.frame (packed : PackedBody) (msgType : MessageType) (seq : UInt16) : Frame where
  magic := MAGIC
  version := PROTOCOL_VERSION
  flags := encodeFlags packed.compressed packed.encrypted msgType
  seq := seq
  length := UInt16.ofNat packed.body.length
  payload := packed.body

/-- Pack a payload, check that its length fits the header, and serialize. -/
def packFrame (primitives : Primitives) (msgType : MessageType) (payload : Bytes)
    (key : Option Bytes) (compressOn : Bool) (seq : UInt16) : Result Bytes := do
  let packed ← packBody primitives payload key compressOn seq
  if packed.body.length ≤ 65535 then
    pure (encodeFrame (packed.frame msgType seq))
  else
    throw (.payloadTooLarge packed.body.length 65535)

variable {primitives : Primitives} {payload : Bytes} {key : Option Bytes}
  {compressOn : Bool} {seq : UInt16} {packed : PackedBody}

/-- A frame was written exactly when the payload packed into a body that fits. -/
theorem packFrame_eq_ok {msgType : MessageType} {bytes : Bytes} :
    packFrame primitives msgType payload key compressOn seq = .ok bytes ↔
      ∃ packed, packBody primitives payload key compressOn seq = .ok packed ∧
        packed.body.length ≤ 65535 ∧ bytes = encodeFrame (packed.frame msgType seq) := by
  cases hpack : packBody primitives payload key compressOn seq with
  | error e => simp [packFrame, hpack, bind, Except.bind]
  | ok packed =>
      by_cases hfits : packed.body.length ≤ 65535
      · simp [packFrame, hpack, hfits, bind, Except.bind, pure, Except.pure, eq_comm]
      · simp [packFrame, hpack, hfits, bind, Except.bind, throw, throwThe, MonadExceptOf.throw]

/-- A reader decodes exactly the packed body behind its flags. -/
theorem decodeFrame_of_packFrame (msgType : MessageType) (seq : UInt16)
    (fits : packed.body.length ≤ 65535) :
    decodeFrame (encodeFrame (packed.frame msgType seq)) = .ok (packed.frame msgType seq) := by
  have hround := decodeFrame_encodeFrame (packed.frame msgType seq) [] fits
  rw [List.append_nil] at hround
  exact hround

/-- Packing is compressing, then encrypting what came of it. -/
theorem packBody_eq_ok :
    packBody primitives payload key compressOn seq = .ok packed ↔
      ∃ body, compressBody primitives payload compressOn = .ok (body, packed.compressed) ∧
        encryptBody primitives body key seq = .ok (packed.body, packed.encrypted) := by
  cases hcompress : compressBody primitives payload compressOn with
  | error e => simp [packBody, hcompress, bind, Except.bind]
  | ok pair =>
      obtain ⟨body, compressed⟩ := pair
      cases hseal : encryptBody primitives body key seq with
      | error e => simp [packBody, hcompress, hseal, bind, Except.bind]
      | ok pair =>
          simp only [packBody, hcompress, hseal, bind, Except.bind, pure, Except.pure]
          constructor
          · intro hpacked
            cases hpacked
            exact ⟨body, rfl, hseal⟩
          · rintro ⟨other, hother, hpacked⟩
            cases hother
            rw [hseal] at hpacked
            cases hpacked
            rfl

/-- What the compression flag says is how to get the payload back. -/
theorem decompress_of_compressBody (lawful : primitives.Lawful) {body : Bytes}
    {compressed : Bool}
    (hbody : compressBody primitives payload compressOn = .ok (body, compressed)) :
    (if compressed then decompress primitives body else .ok body) = .ok payload := by
  cases hlong : compressOn && shouldCompress payload with
  | false =>
      simp only [compressBody, hlong, Bool.false_eq_true, if_false, pure, Except.pure] at hbody
      cases hbody
      rfl
  | true =>
      cases hcompress : compress primitives payload with
      | error e => simp [compressBody, hlong, hcompress, bind, Except.bind] at hbody
      | ok out =>
          simp only [compressBody, hlong, hcompress, if_true, bind, Except.bind, pure,
            Except.pure] at hbody
          cases hbody
          exact decompress_of_compress lawful hcompress

/-- A body is encrypted when there is a key, and the key opens it again. -/
theorem decrypt_of_encryptBody (lawful : primitives.Lawful) {body out : Bytes}
    {encrypted : Bool} (hout : encryptBody primitives body key seq = .ok (out, encrypted)) :
    match key with
    | some key => encrypted = true ∧ decrypt primitives out key seq = .ok body
    | none => encrypted = false ∧ out = body := by
  cases key with
  | none =>
      cases hout
      exact ⟨rfl, rfl⟩
  | some key =>
      cases hseal : encrypt primitives body key seq with
      | error e => simp [encryptBody, hseal, bind, Except.bind] at hout
      | ok sealed =>
          simp only [encryptBody, hseal, bind, Except.bind, pure, Except.pure] at hout
          cases hout
          exact ⟨rfl, decrypt_of_encrypt lawful hseal⟩

/-- A body that was neither compressed nor encrypted is the payload. -/
theorem packBody_plain (short : (compressOn && shouldCompress payload) = false) :
    packBody primitives payload none compressOn seq = .ok ⟨payload, false, false⟩ := by
  simp [packBody, compressBody, encryptBody, short, bind, Except.bind, pure, Except.pure]

/-- An uncompressed body is the payload, or the payload under a tag. -/
theorem packBody_length_of_short (lawful : primitives.Lawful)
    (short : (compressOn && shouldCompress payload) = false)
    (hpacked : packBody primitives payload key compressOn seq = .ok packed) :
    packed.body.length = payload.length ∨
      packed.body.length = payload.length + Primitives.TAG_LEN := by
  cases key with
  | none =>
      rw [packBody_plain short] at hpacked
      cases hpacked
      exact .inl rfl
  | some key =>
      cases hseal : encrypt primitives payload key seq with
      | error e =>
          simp [packBody, compressBody, encryptBody, short, hseal, bind, Except.bind, pure,
            Except.pure] at hpacked
      | ok body =>
          have hbody : packed = ⟨body, false, true⟩ := by
            simpa [packBody, compressBody, encryptBody, short, hseal, bind, Except.bind, pure,
              Except.pure, eq_comm] using hpacked
          rw [hbody]
          exact .inr (length_of_encrypt lawful hseal)

end Mlink.Core
