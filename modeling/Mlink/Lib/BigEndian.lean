/-
# Big-endian byte strings

Fixed-width big-endian encoding of natural numbers into bytes and back. The
encoder truncates to its width, as a machine cast does, so the decoder recovers
the number modulo `256 ^ width`; in the other direction every byte string is
the encoding of the number it denotes.
-/

import Mathlib.Algebra.Order.Group.Nat
import Mathlib.Tactic.Positivity
import Mathlib.Tactic.Ring

namespace BigEndian

/-- The `width` low-order bytes of `value`, most significant first. -/
def encode : (width value : Nat) → List UInt8
  | 0, _ => []
  | width + 1, value => UInt8.ofNat (value / 256 ^ width) :: encode width value

/-- The number a byte string denotes, most significant byte first. -/
def decode : List UInt8 → Nat
  | [] => 0
  | byte :: rest => byte.toNat * 256 ^ rest.length + decode rest

@[simp]
theorem encode_length (width value : Nat) : (encode width value).length = width := by
  induction width with
  | zero => rfl
  | succ width ih => simp [encode, ih]

/-- A string of `n` bytes denotes a number below `256 ^ n`. -/
theorem decode_lt (bytes : List UInt8) : decode bytes < 256 ^ bytes.length := by
  induction bytes with
  | nil => simp [decode]
  | cons byte rest ih =>
      have hbyte : byte.toNat + 1 ≤ 256 := byte.toNat_lt
      calc decode (byte :: rest)
          < byte.toNat * 256 ^ rest.length + 256 ^ rest.length := by
            simpa [decode] using ih
        _ = (byte.toNat + 1) * 256 ^ rest.length := by ring
        _ ≤ 256 * 256 ^ rest.length := Nat.mul_le_mul_right _ hbyte
        _ = 256 ^ (byte :: rest).length := by rw [List.length_cons]; ring

/-- Decoding an encoding recovers the number modulo the width. -/
theorem decode_encode (width value : Nat) :
    decode (encode width value) = value % 256 ^ width := by
  induction width with
  | zero => simp [encode, decode, Nat.mod_one]
  | succ width ih =>
      have hsplit : value % 256 ^ (width + 1) =
          value % 256 ^ width + 256 ^ width * (value / 256 ^ width % 256) := by
        rw [pow_succ]
        exact Nat.mod_mul
      have hbyte : (UInt8.ofNat (value / 256 ^ width)).toNat =
          value / 256 ^ width % 256 := UInt8.toNat_ofNat'
      rw [encode, decode, encode_length, ih, hbyte, hsplit]
      ring

/-- A number that fits its width survives the round trip. -/
theorem decode_encode_of_lt {width value : Nat} (fits : value < 256 ^ width) :
    decode (encode width value) = value := by
  rw [decode_encode, Nat.mod_eq_of_lt fits]

/-- Only the low-order part of a number reaches its encoding. -/
theorem encode_add_mul (width value extra : Nat) :
    encode width (extra * 256 ^ width + value) = encode width value := by
  induction width generalizing extra with
  | zero => rfl
  | succ width ih =>
      have hrest : extra * 256 ^ (width + 1) + value =
          (extra * 256) * 256 ^ width + value := by ring
      have hpos : 0 < 256 ^ width := by positivity
      have hhead : UInt8.ofNat (((extra * 256) * 256 ^ width + value) / 256 ^ width) =
          UInt8.ofNat (value / 256 ^ width) := by
        rw [Nat.add_comm, Nat.add_mul_div_right _ _ hpos]
        apply UInt8.toNat_inj.mp
        simp
      rw [hrest, encode, encode, hhead, ih]

/-- Every byte string is the encoding of the number it denotes. -/
theorem encode_decode (bytes : List UInt8) :
    encode bytes.length (decode bytes) = bytes := by
  induction bytes with
  | nil => rfl
  | cons byte rest ih =>
      have hpos : 0 < 256 ^ rest.length := by positivity
      have hhead : decode (byte :: rest) / 256 ^ rest.length = byte.toNat := by
        rw [decode, Nat.mul_comm, Nat.mul_add_div hpos,
          Nat.div_eq_of_lt (decode_lt rest), Nat.add_zero]
      simp only [List.length_cons, encode, hhead, UInt8.ofNat_toNat]
      rw [decode, encode_add_mul, ih]

/-- Two numbers that fit one width have one encoding only if they are equal. -/
theorem encode_inj {width first second : Nat} (hfirst : first < 256 ^ width)
    (hsecond : second < 256 ^ width) (same : encode width first = encode width second) :
    first = second := by
  rw [← decode_encode_of_lt hfirst, same, decode_encode_of_lt hsecond]

end BigEndian
