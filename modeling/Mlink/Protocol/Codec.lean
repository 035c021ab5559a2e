/-
# The codec

Records travel as MessagePack. The library that writes and reads it is a parameter
here; what the program relies on is that it reads back what it wrote.
-/

import Mlink.Protocol.Types

namespace Mlink.Protocol

/-- How a library writes records of one type and reads them, or the text of its error. -/
structure Serde (α : Type) where
  toVec : α → Except String Bytes
  fromSlice : Bytes → Except String α

/-- What was written reads back. -/
structure Serde.Lawful {α : Type} (serde : Serde α) : Prop where
  fromSlice_of_toVec : ∀ value bytes, serde.toVec value = .ok bytes →
    serde.fromSlice bytes = .ok value

variable {α : Type} (serde : Serde α)

def encode (value : α) : Result Bytes := (serde.toVec value).mapError .codecError

def decode (data : Bytes) : Result α := (serde.fromSlice data).mapError .codecError

variable {serde}

theorem decode_of_encode (lawful : serde.Lawful) {value : α} {bytes : Bytes}
    (hencode : encode serde value = .ok bytes) : decode serde bytes = .ok value := by
  rw [encode] at hencode
  cases hwritten : serde.toVec value with
  | error e =>
      rw [hwritten] at hencode
      cases hencode
  | ok written =>
      rw [hwritten] at hencode
      cases hencode
      rw [decode, lawful.fromSlice_of_toVec value bytes hwritten]
      rfl

end Mlink.Protocol
