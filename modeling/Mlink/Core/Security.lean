/-
# Compression and encryption of a payload

zstd and AES-256-GCM are libraries outside the crate: `Primitives` takes them
as parameters, and `Primitives.Lawful` states what the crate relies on. The
wrappers around them, with the nonce layout and the error texts, are the
crate's own.
-/

import Mlink.Protocol.Frame

namespace Mlink.Core

open Mlink.Protocol

/-- The library calls. A zstd failure carries its text; an AEAD failure does
not say why. -/
structure Primitives where
  zstdEncodeAll : Bytes → Except String Bytes
  zstdDecodeAll : Bytes → Except String Bytes
  /-- Key, nonce and plaintext to ciphertext followed by its tag. -/
  sealInPlaceAppendTag : Bytes → Bytes → Bytes → Option Bytes
  /-- Key, nonce and sealed bytes to plaintext. -/
  openInPlace : Bytes → Bytes → Bytes → Option Bytes

namespace Primitives

/-- The bytes of an AES-256-GCM tag. -/
def TAG_LEN : Nat := 16

/-- What the libraries document: decoding inverts encoding, opening inverts
sealing under the same key and nonce, and sealing appends one tag. -/
structure Lawful (primitives : Primitives) : Prop where
  decode_encode : ∀ {data out}, primitives.zstdEncodeAll data = .ok out →
    primitives.zstdDecodeAll out = .ok data
  open_seal : ∀ {key nonce data out},
    primitives.sealInPlaceAppendTag key nonce data = some out →
      primitives.openInPlace key nonce out = some data
  seal_length : ∀ {key nonce data out},
    primitives.sealInPlaceAppendTag key nonce data = some out →
      out.length = data.length + TAG_LEN

/-- A lawful stand-in for concrete runs: zstd copies, and the tag is zeros. -/
def transparent : Primitives where
  zstdEncodeAll data := .ok data
  zstdDecodeAll data := .ok data
  sealInPlaceAppendTag _ _ data := some (data ++ List.replicate TAG_LEN 0)
  openInPlace _ _ data := some (data.take (data.length - TAG_LEN))

theorem transparent_lawful : transparent.Lawful where
  decode_encode hout := by
    cases hout
    rfl
  open_seal hout := by
    cases hout
    simp [transparent]
  seal_length hout := by
    cases hout
    simp

end Primitives

/-! ## Compression -/

def COMPRESS_THRESHOLD : Nat := 256

def compress (primitives : Primitives) (data : Bytes) : Result Bytes :=
  (primitives.zstdEncodeAll data).mapError .compressError

def decompress (primitives : Primitives) (data : Bytes) : Result Bytes :=
  (primitives.zstdDecodeAll data).mapError .compressError

def shouldCompress (data : Bytes) : Bool := COMPRESS_THRESHOLD ≤ data.length

/-- What was compressed decompresses to itself. -/
theorem decompress_of_compress {primitives : Primitives} (lawful : primitives.Lawful)
    {data out : Bytes} (hout : compress primitives data = .ok out) :
    decompress primitives out = .ok data := by
  cases hzstd : primitives.zstdEncodeAll data with
  | error message => simp [compress, hzstd, Except.mapError] at hout
  | ok encoded =>
      have hencoded : encoded = out := by simpa [compress, hzstd, Except.mapError] using hout
      rw [decompress, ← hencoded, lawful.decode_encode hzstd]
      rfl

/-! ## Encryption -/

/-- Ten zero bytes and the 16-bit counter. -/
def seqNonce (seq : UInt16) : Bytes := List.replicate 10 0 ++ be16 seq

/-- The AEAD accepts keys of 32 bytes only. -/
def aeadKey (key : Bytes) : Result Bytes :=
  if key.length ≠ 32 then
    .error (.securityError s!"aes key must be 32 bytes, got {key.length}")
  else .ok key

def encrypt (primitives : Primitives) (data key : Bytes) (seq : UInt16) : Result Bytes := do
  let sealing ← aeadKey key
  match primitives.sealInPlaceAppendTag sealing (seqNonce seq) data with
  | some out => .ok out
  | none => .error (.securityError "AES-256-GCM encrypt failed")

def decrypt (primitives : Primitives) (data key : Bytes) (seq : UInt16) : Result Bytes := do
  let opening ← aeadKey key
  match primitives.openInPlace opening (seqNonce seq) data with
  | some out => .ok out
  | none => .error (.securityError "AES-256-GCM decrypt failed")

/-- The nonce determines the counter it was built from. -/
theorem seqNonce_inj {first second : UInt16} :
    seqNonce first = seqNonce second ↔ first = second := by
  constructor
  · intro hnonce
    have hbytes : be16 first = be16 second := List.append_cancel_left hnonce
    rw [← ofBe16_be16 first, hbytes, ofBe16_be16]
  · intro hseq
    rw [hseq]

/-- A successful encryption used a key of 32 bytes and the sealed bytes of the
AEAD under the nonce of `seq`. -/
theorem encrypt_eq_ok {primitives : Primitives} {data key out : Bytes} {seq : UInt16} :
    encrypt primitives data key seq = .ok out ↔
      key.length = 32 ∧
        primitives.sealInPlaceAppendTag key (seqNonce seq) data = some out := by
  by_cases hkey : key.length = 32
  · cases hseal : primitives.sealInPlaceAppendTag key (seqNonce seq) data <;>
      simp [encrypt, aeadKey, hkey, hseal, bind, Except.bind]
  · simp [encrypt, aeadKey, hkey, bind, Except.bind]

/-- A successful encryption decrypts under the same key and counter. -/
theorem decrypt_of_encrypt {primitives : Primitives} (lawful : primitives.Lawful)
    {data key out : Bytes} {seq : UInt16}
    (hout : encrypt primitives data key seq = .ok out) :
    decrypt primitives out key seq = .ok data := by
  obtain ⟨hkey, hseal⟩ := encrypt_eq_ok.mp hout
  have hopen := lawful.open_seal hseal
  simp [decrypt, aeadKey, hkey, hopen, bind, Except.bind]

/-- Encryption lengthens a payload by one tag. -/
theorem length_of_encrypt {primitives : Primitives} (lawful : primitives.Lawful)
    {data key out : Bytes} {seq : UInt16}
    (hout : encrypt primitives data key seq = .ok out) :
    out.length = data.length + Primitives.TAG_LEN :=
  lawful.seal_length (encrypt_eq_ok.mp hout).2

end Mlink.Core
