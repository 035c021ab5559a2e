/-
# Room hashes as hex digits

A peripheral advertises its local name with the room hash behind it, after a `#`, and
a scanner takes the two apart again. Over TCP the hash travels alone. The digits are
written and read by functions of each transport. The readers slice the text by byte
offsets, and a slice that is not there stops them; a reader that returns `None` says
so in another way.

`Transport.BleDiscovery` splits a name character by character. The parser here, with
its offsets, refines that one.
-/

import Mlink.Core.Scanner
import Mlink.Lib.Utf8

namespace Mlink.Transport

open Mlink.Core Mlink.Protocol

/-! ## Writing -/

theorem toNat_shiftRight_four (byte : UInt8) : (byte >>> 4).toNat = byte.toNat / 16 := by
  rw [UInt8.toNat_shiftRight]
  exact Nat.shiftRight_eq_div_pow byte.toNat 4

theorem toNat_and_fifteen (byte : UInt8) : (byte &&& 0x0f).toNat = byte.toNat % 16 := by
  rw [UInt8.toNat_and]
  exact Nat.and_two_pow_sub_one_eq_mod byte.toNat 4

namespace MacPeripheral

def HEX : List.Vector Char 16 := ⟨"0123456789abcdef".toList, rfl⟩

theorem shiftRight_four_lt (byte : UInt8) : (byte >>> 4).toNat < 16 := by
  have hbyte : byte.toNat < 256 := byte.toNat_lt
  rw [toNat_shiftRight_four]
  omega

theorem and_fifteen_lt (byte : UInt8) : (byte &&& 0x0f).toNat < 16 := by
  rw [toNat_and_fifteen]
  exact Nat.mod_lt _ (by decide)

def hexEncode (bytes : Bytes) : String :=
  bytes.foldl
    (fun (out : String) (byte : UInt8) =>
      (out.push (HEX.get ⟨(byte >>> 4).toNat, shiftRight_four_lt byte⟩)).push
        (HEX.get ⟨(byte &&& 0x0f).toNat, and_fifteen_lt byte⟩))
    ""

/-- The name that `start` advertises. -/
def advertisedName (localName : String) (roomHash : Option HashBytes) : String :=
  match roomHash with
  | some hash => localName ++ "#" ++ hexEncode hash.toList
  | none => localName

end MacPeripheral

namespace TcpTransport

/-- A byte as the format `02x` writes it. -/
def lowerHex02 (byte : UInt8) : String :=
  String.ofList ((Nat.toDigits 16 byte.toNat).leftpad 2 '0')

def hexEncode (bytes : Bytes) : String :=
  bytes.foldl (fun out byte => out ++ lowerHex02 byte) ""

end TcpTransport

/-- The two digits of a byte, high half first. -/
def hexPair (byte : UInt8) : List Char :=
  [Nat.digitChar (byte.toNat / 16), Nat.digitChar (byte.toNat % 16)]

/-- What both writers write. -/
def hexText (bytes : Bytes) : String := String.ofList (bytes.flatMap hexPair)

namespace MacPeripheral

theorem get_HEX (digit : Fin 16) : HEX.get digit = Nat.digitChar digit := by
  revert digit
  decide

theorem hexEncode_eq (bytes : Bytes) : hexEncode bytes = hexText bytes := by
  apply String.toList_inj.mp
  rw [hexEncode, hexText, String.toList_ofList, Utf8.toList_foldl hexPair]
  · rfl
  · intro out byte
    rw [String.toList_push, String.toList_push, get_HEX, get_HEX, List.append_assoc]
    simp only [toNat_shiftRight_four, toNat_and_fifteen]
    rfl

end MacPeripheral

namespace TcpTransport

theorem toList_lowerHex02 (byte : UInt8) : (lowerHex02 byte).toList = hexPair byte := by
  have hbyte : byte.toNat < 256 := byte.toNat_lt
  rw [lowerHex02, String.toList_ofList, hexPair]
  by_cases hsmall : byte.toNat < 16
  · -- one digit, and a zero before it
    rw [Nat.toDigits_of_lt_base hsmall, Nat.div_eq_of_lt hsmall, Nat.mod_eq_of_lt hsmall]
    rfl
  · rw [Nat.toDigits_of_base_le (by decide) (by omega), Nat.toDigits_of_lt_base (by omega)]
    rfl

theorem hexEncode_eq (bytes : Bytes) : hexEncode bytes = hexText bytes := by
  apply String.toList_inj.mp
  rw [hexEncode, hexText, String.toList_ofList, Utf8.toList_foldl hexPair]
  · rfl
  · intro out byte
    rw [String.toList_append, toList_lowerHex02]

end TcpTransport

/-! ## Reading -/

/-- Why a reader yields no value: it returned `None`, or it was stopped by a slice. -/
inductive Failure
  | absent
  | panicked
  deriving DecidableEq, Repr

/-- What the source's `?` does with an option, and what it does with a slice. -/
def orFail {α : Type} (failure : Failure) : Option α → Except Failure α
  | some value => .ok value
  | none => .error failure

@[simp]
theorem orFail_some_bind {α β : Type} (failure : Failure) (value : α)
    (next : α → Except Failure β) : orFail failure (some value) >>= next = next value := rfl

/-- The digit that a character stands for in base sixteen. -/
def toDigit (char : Char) : Option Nat :=
  if isAsciiHexdigit char then some (hexValue char).toNat else none

/-- One more digit of a byte, unless the byte overflows. -/
def pushDigit (byte : UInt8) (char : Char) : Option UInt8 :=
  (toDigit char).bind fun digit =>
    if 16 * byte.toNat + digit < 256 then some (16 * byte.toNat + digit).toUInt8 else none

/-- The library's `u8::from_str_radix` in base sixteen: a `+` may stand before the digits,
of which there must be one. -/
def fromStrRadix16 (text : String) : Option UInt8 :=
  match text.toList with
  | [] => none
  | '+' :: first :: rest => (first :: rest).foldlM pushDigit 0
  | chars => chars.foldlM pushDigit 0

/-- The loop over the bytes of a hash: byte `i` is read from `text[i * 2..i * 2 + 2]`. -/
def readBytes (text : String) : (count i : Nat) → Except Failure (List.Vector UInt8 count)
  | 0, _ => .ok .nil
  | count + 1, i => do
      let pair ← orFail .panicked (Utf8.slice text (i * 2) (i * 2 + 2))
      let byte ← orFail .absent (fromStrRadix16 pair)
      let rest ← readBytes text count (i + 1)
      return byte ::ᵥ rest

/-- Eight bytes out of sixteen digits. Both readers have this text. -/
def readHash (text : String) : Except Failure HashBytes :=
  if text.utf8ByteSize ≠ 16 ∨ !text.toList.all isAsciiHexdigit then .error .absent
  else readBytes text 8 0

def TcpTransport.hexDecode8 (text : String) : Except Failure HashBytes := readHash text

/-- The name before the last `#`, and the hash that is spelled after it. -/
def BleTransport.parseRoomHashFromName (name : String) : Except Failure (String × HashBytes) := do
  let hashPos ← orFail .absent (Utf8.rfind '#' name)
  let hexStr ← orFail .panicked (Utf8.slice name (hashPos + 1) name.utf8ByteSize)
  let out ← readHash hexStr
  let base ← orFail .panicked (Utf8.slice name 0 hashPos)
  return (base, out)

/-! ## Digits -/

theorem digitChar_reads :
    ∀ digit < 16, isAsciiHexdigit (Nat.digitChar digit) = true ∧
      (hexValue (Nat.digitChar digit)).toNat = digit := by
  decide

/-- What holds of the digits among the first characters holds of every digit. -/
theorem hexdigit_cases {P : Char → Prop} {char : Char} (hdigit : isAsciiHexdigit char = true)
    (holds : ∀ n < 128, isAsciiHexdigit (Char.ofNat n) = true → P (Char.ofNat n)) : P char := by
  have hrange : (48 ≤ char.toNat ∧ char.toNat ≤ 57 ∨ 97 ≤ char.toNat ∧ char.toNat ≤ 102) ∨
      65 ≤ char.toNat ∧ char.toNat ≤ 70 := by
    simpa [isAsciiHexdigit, Char.isDigit, Char.le_def, UInt32.le_iff_toNat_le] using hdigit
  have hsmall : char.toNat < 128 := by omega
  rw [← Char.ofNat_toNat char] at hdigit ⊢
  exact holds _ hsmall hdigit

/-- A digit is a byte long and no separator or sign, and its value is written as the
digit in lower case. -/
structure Reads (char : Char) : Prop where
  single : char.utf8Size = 1
  ne_hash : char ≠ '#'
  ne_plus : char ≠ '+'
  value_lt : (hexValue char).toNat < 16
  digitChar_value : Nat.digitChar (hexValue char).toNat = char.toLower

instance (char : Char) : Decidable (Reads char) :=
  decidable_of_iff
    (char.utf8Size = 1 ∧ char ≠ '#' ∧ char ≠ '+' ∧ (hexValue char).toNat < 16 ∧
      Nat.digitChar (hexValue char).toNat = char.toLower)
    ⟨fun h => ⟨h.1, h.2.1, h.2.2.1, h.2.2.2.1, h.2.2.2.2⟩, fun h => ⟨h.1, h.2, h.3, h.4, h.5⟩⟩

theorem reads_of_isAsciiHexdigit {char : Char} (hdigit : isAsciiHexdigit char = true) :
    Reads char :=
  hexdigit_cases hdigit (by decide)

/-- Digits are counted alike in bytes and in characters. -/
theorem utf8ByteSize_digits {chars : List Char}
    (digits : ∀ char ∈ chars, isAsciiHexdigit char = true) :
    (String.ofList chars).utf8ByteSize = chars.length :=
  Utf8.utf8ByteSize_ofList fun char hchar => (reads_of_isAsciiHexdigit (digits char hchar)).single

/-- Pairs of digits, one for each byte. -/
structure Pairs (chars : List Char) (count : Nat) : Prop where
  length : chars.length = 2 * count
  digits : ∀ char ∈ chars, isAsciiHexdigit char = true

variable {chars : List Char} {count : Nat}

theorem Pairs.exists_cons (pairs : Pairs chars (count + 1)) :
    ∃ high low rest, chars = high :: low :: rest ∧ isAsciiHexdigit high = true ∧
      isAsciiHexdigit low = true ∧ Pairs rest count := by
  obtain ⟨hlength, hdigits⟩ := pairs
  match chars, hlength with
  | high :: low :: rest, hlength =>
      rw [List.forall_mem_cons, List.forall_mem_cons] at hdigits
      exact ⟨high, low, rest, rfl, hdigits.1, hdigits.2.1, by simpa [Nat.mul_add] using hlength,
        hdigits.2.2⟩

theorem pairs_flatMap_hexPair (bytes : Bytes) : Pairs (bytes.flatMap hexPair) bytes.length := by
  induction bytes with
  | nil => exact ⟨rfl, by simp⟩
  | cons byte rest ih =>
      have hbyte : byte.toNat < 256 := byte.toNat_lt
      have hhigh := (digitChar_reads (byte.toNat / 16) (by omega)).1
      have hlow := (digitChar_reads (byte.toNat % 16) (by omega)).1
      constructor
      · rw [List.flatMap_cons, List.length_append, ih.length, List.length_cons, hexPair]
        simp
        omega
      · rw [List.flatMap_cons, hexPair]
        simpa [hhigh, hlow] using ih.digits

/-- The bytes come back from their digits. -/
theorem hexBytes_flatMap_hexPair (bytes : Bytes) : hexBytes (bytes.flatMap hexPair) = bytes := by
  induction bytes with
  | nil => rfl
  | cons byte rest ih =>
      have hbyte : byte.toNat < 256 := byte.toNat_lt
      have hhigh := (digitChar_reads (byte.toNat / 16) (by omega)).2
      have hlow := (digitChar_reads (byte.toNat % 16) (by omega)).2
      have hvalue : 16 * hexValue (Nat.digitChar (byte.toNat / 16)) +
          hexValue (Nat.digitChar (byte.toNat % 16)) = byte := by
        apply UInt8.toNat_inj.mp
        rw [UInt8.toNat_add, UInt8.toNat_mul, hhigh, hlow]
        simp
        omega
      rw [List.flatMap_cons, hexPair, List.cons_append, List.cons_append, List.nil_append,
        hexBytes, hvalue, ih]

/-- The value of a pair of digits. -/
theorem toNat_pair {high low : Char} (hhigh : isAsciiHexdigit high = true)
    (hlow : isAsciiHexdigit low = true) :
    (16 * hexValue high + hexValue low).toNat =
      16 * (hexValue high).toNat + (hexValue low).toNat := by
  have hhigh := (reads_of_isAsciiHexdigit hhigh).value_lt
  have hlow := (reads_of_isAsciiHexdigit hlow).value_lt
  rw [UInt8.toNat_add, UInt8.toNat_mul]
  simp
  omega

/-- The digits come back from their bytes, in lower case. -/
theorem flatMap_hexPair_hexBytes (pairs : Pairs chars count) :
    (hexBytes chars).flatMap hexPair = chars.map Char.toLower := by
  induction count generalizing chars with
  | zero =>
      rw [List.eq_nil_of_length_eq_zero pairs.length]
      rfl
  | succ count ih =>
      obtain ⟨high, low, rest, rfl, hhigh, hlow, hrest⟩ := pairs.exists_cons
      have hpair : hexPair (16 * hexValue high + hexValue low) = [high.toLower, low.toLower] := by
        have hhigh' := reads_of_isAsciiHexdigit hhigh
        have hlow' := reads_of_isAsciiHexdigit hlow
        have hlt := hlow'.value_lt
        rw [hexPair, toNat_pair hhigh hlow, Nat.mul_add_mod, Nat.mod_eq_of_lt hlt,
          Nat.mul_add_div (by decide), Nat.div_eq_of_lt hlt, Nat.add_zero,
          hhigh'.digitChar_value, hlow'.digitChar_value]
      rw [hexBytes, List.flatMap_cons, hpair, ih hrest]
      rfl

/-! ## What the readers accept -/

theorem pushDigit_eq {byte : UInt8} {char : Char} (hdigit : isAsciiHexdigit char = true)
    (hbyte : byte.toNat < 16) : pushDigit byte char = some (16 * byte + hexValue char) := by
  have hlt := (reads_of_isAsciiHexdigit hdigit).value_lt
  rw [pushDigit, toDigit, if_pos hdigit, Option.bind_some, if_pos (by omega)]
  congr 1
  apply UInt8.toNat_inj.mp
  rw [UInt8.toNat_add, UInt8.toNat_mul]
  simp

theorem fromStrRadix16_pair {high low : Char} (hhigh : isAsciiHexdigit high = true)
    (hlow : isAsciiHexdigit low = true) :
    fromStrRadix16 (String.ofList [high, low]) = some (16 * hexValue high + hexValue low) := by
  have hhigh' := reads_of_isAsciiHexdigit hhigh
  have hfold : fromStrRadix16 (String.ofList [high, low]) = [high, low].foldlM pushDigit 0 := by
    rw [fromStrRadix16, String.toList_ofList]
    split
    · contradiction
    · next heq =>
        -- no sign stands before the digits
        injection heq with hplus
        exact absurd hplus hhigh'.ne_plus
    · rfl
  have hfirst : pushDigit 0 high = some (hexValue high) := by
    rw [pushDigit_eq hhigh (by decide)]
    simp
  rw [hfold, List.foldlM_cons, hfirst, Option.bind_eq_bind, Option.bind_some, List.foldlM_cons,
    pushDigit_eq hlow hhigh'.value_lt]
  rfl

/-- The loop reads one byte out of every pair, whatever text stands before the pairs. -/
theorem readBytes_append (before : String) (i : Nat) (pairs : Pairs chars count)
    (hbefore : before.utf8ByteSize = i * 2) :
    ∃ bytes, readBytes (before ++ String.ofList chars) count i = .ok bytes ∧
      bytes.toList = hexBytes chars := by
  induction count generalizing before i chars with
  | zero =>
      rw [List.eq_nil_of_length_eq_zero pairs.length]
      exact ⟨.nil, rfl, rfl⟩
  | succ count ih =>
      obtain ⟨high, low, rest, rfl, hhigh, hlow, hrest⟩ := pairs.exists_cons
      have hsize : (String.ofList [high, low]).utf8ByteSize = 2 :=
        utf8ByteSize_digits (by simp [hhigh, hlow])
      have htext : before ++ String.ofList (high :: low :: rest) =
          before ++ String.ofList [high, low] ++ String.ofList rest := by
        rw [String.append_assoc, ← String.ofList_append]
        rfl
      have hslice : Utf8.slice (before ++ String.ofList [high, low] ++ String.ofList rest)
          (i * 2) (i * 2 + 2) = some (String.ofList [high, low]) := by
        rw [← hbefore, ← hsize]
        exact Utf8.slice_append before _ _
      have hnext : (before ++ String.ofList [high, low]).utf8ByteSize = (i + 1) * 2 := by
        rw [String.utf8ByteSize_append, hbefore, hsize]
        omega
      obtain ⟨bytes, hbytes, hlist⟩ := ih _ _ hrest hnext
      have hread : readBytes (before ++ String.ofList (high :: low :: rest)) (count + 1) i =
          .ok ((16 * hexValue high + hexValue low) ::ᵥ bytes) := by
        rw [htext, readBytes, hslice, orFail_some_bind, fromStrRadix16_pair hhigh hlow,
          orFail_some_bind, hbytes]
        rfl
      exact ⟨_, hread, by rw [List.Vector.toList_cons, hlist, hexBytes]⟩

/-- The texts that spell eight bytes. -/
structure SpellsHash (text : String) : Prop where
  size : text.utf8ByteSize = 16
  digits : ∀ char ∈ text.toList, isAsciiHexdigit char = true

/-- The check before the loop turns away everything else. -/
theorem turnedAway_iff {text : String} :
    (text.utf8ByteSize ≠ 16 ∨ (!text.toList.all isAsciiHexdigit) = true) ↔ ¬ SpellsHash text := by
  constructor
  · intro hturned spells
    rcases hturned with hsize | hdigits
    · exact hsize spells.size
    · rw [List.all_eq_true.mpr spells.digits] at hdigits
      cases hdigits
  · intro spells
    by_cases hsize : text.utf8ByteSize = 16
    · have hdigits : text.toList.all isAsciiHexdigit = false :=
        Bool.eq_false_iff.mpr fun hall => spells ⟨hsize, List.all_eq_true.mp hall⟩
      exact .inr (congrArg Bool.not hdigits)
    · exact .inl hsize

theorem SpellsHash.pairs {text : String} (spells : SpellsHash text) : Pairs text.toList 8 := by
  have hsize := utf8ByteSize_digits spells.digits
  rw [String.ofList_toList, spells.size] at hsize
  exact ⟨hsize.symm, spells.digits⟩

theorem SpellsHash.hash_not_mem {text : String} (spells : SpellsHash text) :
    '#' ∉ text.toList := fun hmem =>
  (reads_of_isAsciiHexdigit (spells.digits '#' hmem)).ne_hash rfl

theorem spellsHash_hexText (hash : HashBytes) : SpellsHash (hexText hash.toList) := by
  have hpairs := pairs_flatMap_hexPair hash.toList
  have hsize := utf8ByteSize_digits hpairs.digits
  rw [hpairs.length, hash.toList_length] at hsize
  exact ⟨hsize, by rw [hexText, String.toList_ofList]; exact hpairs.digits⟩

theorem readHash_of_spells {text : String} (spells : SpellsHash text) :
    ∃ hash, readHash text = .ok hash ∧ hash.toList = hexBytes text.toList := by
  obtain ⟨hash, hread, hlist⟩ := readBytes_append "" 0 spells.pairs (by simp)
  rw [String.ofList_toList, String.empty_append] at hread
  have hpassed : readHash text = readBytes text 8 0 :=
    if_neg fun hturned => turnedAway_iff.mp hturned spells
  exact ⟨hash, hpassed.trans hread, hlist⟩

theorem readHash_of_not {text : String} (spells : ¬ SpellsHash text) :
    readHash text = .error .absent :=
  if_pos (turnedAway_iff.mpr spells)

theorem hexText_injective : Function.Injective hexText := by
  intro first second same
  rw [← hexBytes_flatMap_hexPair first, ← hexBytes_flatMap_hexPair second,
    String.ofList_injective same]

/-- A text that spells a hash is, up to the case of its letters, what is written for it. -/
theorem hexText_of_readHash {text : String} {hash : HashBytes} (read : readHash text = .ok hash) :
    SpellsHash text ∧ hexText hash.toList = text.toLower := by
  by_cases spells : SpellsHash text
  · obtain ⟨other, hother, hlist⟩ := readHash_of_spells spells
    rw [hother] at read
    cases read
    have hlower : text.toLower.toList = text.toList.map Char.toLower := String.toList_map
    have hchars : (hexText hash.toList).toList = text.toLower.toList := by
      rw [hexText, String.toList_ofList, hlist, flatMap_hexPair_hexBytes spells.pairs, hlower]
    exact ⟨spells, String.toList_inj.mp hchars⟩
  · rw [readHash_of_not spells] at read
    cases read

/-- Nothing else is read as a hash. -/
theorem readHash_eq_ok_iff {text : String} {hash : HashBytes} :
    readHash text = .ok hash ↔ SpellsHash text ∧ hexText hash.toList = text.toLower := by
  constructor
  · exact hexText_of_readHash
  · intro hspelled
    obtain ⟨spells, hlower⟩ := hspelled
    obtain ⟨other, hother, _⟩ := readHash_of_spells spells
    have hsame := hlower.trans (hexText_of_readHash hother).2.symm
    rw [hother, Subtype.ext (hexText_injective hsame)]

theorem readHash_hexText (hash : HashBytes) : readHash (hexText hash.toList) = .ok hash := by
  obtain ⟨other, hother, hlist⟩ := readHash_of_spells (spellsHash_hexText hash)
  rw [hexText, String.toList_ofList, hexBytes_flatMap_hexPair] at hlist
  rw [hother, Subtype.ext hlist]

theorem readHash_ne_panicked (text : String) : readHash text ≠ .error .panicked := by
  by_cases spells : SpellsHash text
  · obtain ⟨hash, hread, _⟩ := readHash_of_spells spells
    rw [hread]
    nofun
  · rw [readHash_of_not spells]
    nofun

/-! ## Names -/

theorem exists_of_map_eq_ok {α β : Type} {result : Except Failure α} {next : α → β} {value : β}
    (mapped : result.map next = .ok value) : ∃ out, result = .ok out ∧ next out = value := by
  cases result with
  | ok out => exact ⟨out, rfl, Except.ok.inj mapped⟩
  | error failure => cases mapped

namespace BleTransport

variable {name base hexStr : String} {hash : HashBytes}

/-- A name is cut at its last `#`, and only what stands behind it is read. -/
theorem parseRoomHashFromName_append (base : String) (hlast : '#' ∉ hexStr.toList) :
    parseRoomHashFromName (base ++ "#" ++ hexStr) =
      (readHash hexStr).map fun out => (base, out) := by
  have hfound : Utf8.rfind '#' (base ++ "#" ++ hexStr) = some base.utf8ByteSize :=
    Utf8.rfind_append base hlast
  have hsuffix : Utf8.slice (base ++ "#" ++ hexStr) (base.utf8ByteSize + 1)
      (base ++ "#" ++ hexStr).utf8ByteSize = some hexStr := by
    have hbefore : (base ++ "#").utf8ByteSize = base.utf8ByteSize + 1 :=
      String.utf8ByteSize_append
    rw [← hbefore]
    exact Utf8.slice_suffix _ _
  have hprefix : Utf8.slice (base ++ "#" ++ hexStr) 0 base.utf8ByteSize = some base := by
    rw [String.append_assoc]
    exact Utf8.slice_prefix _ _
  rw [parseRoomHashFromName, hfound, orFail_some_bind, hsuffix, orFail_some_bind, hprefix]
  rcases readHash hexStr with failure | out <;> rfl

theorem parseRoomHashFromName_of_not_mem (hnone : '#' ∉ name.toList) :
    parseRoomHashFromName name = .error .absent := by
  rw [parseRoomHashFromName, Utf8.rfind_eq_none hnone]
  rfl

theorem parseRoomHashFromName_ne_panicked (name : String) :
    parseRoomHashFromName name ≠ .error .panicked := by
  by_cases hmem : '#' ∈ name.toList
  · obtain ⟨base, hexStr, rfl, hlast⟩ := Utf8.exists_append_of_mem hmem
    have hcut := parseRoomHashFromName_append base hlast
    have hread := readHash_ne_panicked hexStr
    intro hpanicked
    cases hresult : readHash hexStr with
    | ok out =>
        rw [hresult] at hcut
        cases hpanicked.symm.trans hcut
    | error failure =>
        rw [hresult] at hcut hread
        cases hpanicked.symm.trans hcut
        exact hread rfl
  · rw [parseRoomHashFromName_of_not_mem hmem]
    nofun

theorem advertisedName_eq (localName : String) (hash : HashBytes) :
    MacPeripheral.advertisedName localName (some hash) =
      localName ++ "#" ++ hexText hash.toList := by
  rw [MacPeripheral.advertisedName, MacPeripheral.hexEncode_eq]

/-- The digits hold no `#`, so the last one is the one that was written. -/
theorem parseRoomHashFromName_advertised (localName : String) (hash : HashBytes) :
    parseRoomHashFromName (MacPeripheral.advertisedName localName (some hash)) =
      .ok (localName, hash) := by
  rw [advertisedName_eq, parseRoomHashFromName_append _ (spellsHash_hexText hash).hash_not_mem,
    readHash_hexText]
  rfl

/-- The names that are taken apart are those that advertise their parts, in upper or
lower case. -/
theorem parseRoomHashFromName_eq_ok_iff :
    parseRoomHashFromName name = .ok (base, hash) ↔
      ∃ hexStr, SpellsHash hexStr ∧ name = base ++ "#" ++ hexStr ∧
        MacPeripheral.advertisedName base (some hash) = base ++ "#" ++ hexStr.toLower := by
  constructor
  · intro parsed
    by_cases hmem : '#' ∈ name.toList
    · obtain ⟨before, hexStr, hname, hlast⟩ := Utf8.exists_append_of_mem hmem
      have hcut := parseRoomHashFromName_append before hlast
      have hname : name = before ++ "#" ++ hexStr := hname
      rw [← hname, parsed] at hcut
      obtain ⟨out, hread, hparts⟩ := exists_of_map_eq_ok hcut.symm
      cases hparts
      obtain ⟨spells, hlower⟩ := hexText_of_readHash hread
      exact ⟨hexStr, spells, hname, by rw [advertisedName_eq, hlower]⟩
    · rw [parseRoomHashFromName_of_not_mem hmem] at parsed
      cases parsed
  · intro hparts
    obtain ⟨hexStr, spells, rfl, hadvertised⟩ := hparts
    rw [advertisedName_eq] at hadvertised
    have hlower : hexText hash.toList = hexStr.toLower :=
      (String.append_right_inj (base ++ "#")).mp hadvertised
    rw [parseRoomHashFromName_append base spells.hash_not_mem,
      readHash_eq_ok_iff.mpr ⟨spells, hlower⟩]
    rfl

end BleTransport

/-- What a peripheral advertises is taken apart into the name and the hash that went into
it, whatever the name; what is taken apart is the advertisement of its parts but for the
case of its digits; the same goes for the hash that travels over TCP; and no reader
is stopped by a slice. -/
theorem roomHash_codec :
    (∀ (localName : String) (hash : HashBytes),
      BleTransport.parseRoomHashFromName (MacPeripheral.advertisedName localName (some hash)) =
        .ok (localName, hash)) ∧
    (∀ hash : HashBytes, TcpTransport.hexDecode8 (TcpTransport.hexEncode hash.toList) = .ok hash) ∧
    (∀ (name base : String) (hash : HashBytes),
      BleTransport.parseRoomHashFromName name = .ok (base, hash) ↔
        ∃ hexStr, SpellsHash hexStr ∧ name = base ++ "#" ++ hexStr ∧
          MacPeripheral.advertisedName base (some hash) = base ++ "#" ++ hexStr.toLower) ∧
    (∀ (text : String) (hash : HashBytes),
      TcpTransport.hexDecode8 text = .ok hash ↔
        SpellsHash text ∧ TcpTransport.hexEncode hash.toList = text.toLower) ∧
    (∀ bytes : Bytes, MacPeripheral.hexEncode bytes = TcpTransport.hexEncode bytes) ∧
    ∀ text : String, BleTransport.parseRoomHashFromName text ≠ .error .panicked ∧
      TcpTransport.hexDecode8 text ≠ .error .panicked := by
  refine ⟨?_, ?_, ?_, ?_, ?_, ?_⟩
  · exact BleTransport.parseRoomHashFromName_advertised
  · intro hash
    rw [TcpTransport.hexEncode_eq]
    exact readHash_hexText hash
  · intro name base hash
    exact BleTransport.parseRoomHashFromName_eq_ok_iff
  · intro text hash
    rw [TcpTransport.hexEncode_eq]
    exact readHash_eq_ok_iff
  · intro bytes
    rw [MacPeripheral.hexEncode_eq, TcpTransport.hexEncode_eq]
  · intro text
    exact ⟨BleTransport.parseRoomHashFromName_ne_panicked text, readHash_ne_panicked text⟩

/-! ## What a scan makes of the name -/

theorem splitAtLastHash_append (base : String) {hexStr : String} (hlast : '#' ∉ hexStr.toList) :
    splitAtLastHash (base ++ "#" ++ hexStr) = some (base, hexStr) := by
  have hbackwards : (base ++ "#" ++ hexStr).toList.reverse =
      hexStr.toList.reverse ++ '#' :: base.toList.reverse := by simp
  have hsuffix : (hexStr.toList.reverse ++ '#' :: base.toList.reverse).takeWhile
      (fun char => char ≠ '#') = hexStr.toList.reverse := by
    rw [List.takeWhile_append_of_pos]
    · simp
    · intro char hchar
      rw [decide_eq_true_eq]
      intro hhash
      exact hlast (hhash ▸ List.mem_reverse.mp hchar)
  rw [splitAtLastHash, hbackwards, if_pos (by simp), hsuffix]
  simp [List.drop_append]

theorem splitAtLastHash_of_not_mem {name : String} (hnone : '#' ∉ name.toList) :
    splitAtLastHash name = none :=
  if_neg fun hmem => hnone (List.mem_reverse.mp hmem)

/-- Cutting a name by byte offsets comes to the same as going through its characters. -/
theorem toOption_parseRoomHashFromName (name : String) :
    (BleTransport.parseRoomHashFromName name).toOption.map
        (fun parsed => (parsed.1, parsed.2.toList)) =
      parseRoomHashFromName name := by
  by_cases hmem : '#' ∈ name.toList
  · obtain ⟨base, hexStr, hname, hlast⟩ := Utf8.exists_append_of_mem hmem
    have hname : name = base ++ "#" ++ hexStr := hname
    rw [hname, BleTransport.parseRoomHashFromName_append base hlast, parseRoomHashFromName,
      splitAtLastHash_append base hlast]
    by_cases spells : SpellsHash hexStr
    · obtain ⟨hash, hread, hlist⟩ := readHash_of_spells spells
      dsimp only
      rw [if_neg fun hturned => turnedAway_iff.mp hturned spells, hread, ← hlist]
      rfl
    · dsimp only
      rw [if_pos (turnedAway_iff.mpr spells), readHash_of_not spells]
      rfl
  · rw [BleTransport.parseRoomHashFromName_of_not_mem hmem, parseRoomHashFromName,
      splitAtLastHash_of_not_mem hmem]
    rfl

section Advertisers

variable {props : PeripheralProperties} {localName : String} {hash : HashBytes}

/-- A scan finds an advertiser under its own name, and falls back on the hash of its room. -/
theorem discovered_of_advertisedName
    (named : props.localName = some (MacPeripheral.advertisedName localName (some hash))) :
    props.discovered = (localName, props.advertisedIdentity.getD hash.toList) := by
  have hparsed : parseRoomHashFromName props.rawName = some (localName, hash.toList) := by
    rw [PeripheralProperties.rawName, named, ← toOption_parseRoomHashFromName, Option.getD_some,
      BleTransport.parseRoomHashFromName_advertised]
    rfl
  rw [PeripheralProperties.discovered, PeripheralProperties.nameAndFallback, hparsed]
  cases props.advertisedIdentity <;> rfl

/-- Without an identity, an advertiser passes the filter exactly in a joined room. -/
theorem matches_iff_of_advertisedName (hashes : List HashBytes)
    (named : props.localName = some (MacPeripheral.advertisedName localName (some hash)))
    (unidentified : props.advertisedIdentity = none) :
    Scanner.metadataMatchesAnyRoom props.metadata hashes = true ↔ hashes = [] ∨ hash ∈ hashes := by
  have hmetadata : props.metadata = hash.toList := by
    rw [PeripheralProperties.metadata, discovered_of_advertisedName named, unidentified]
    rfl
  have hsome : hash.toList ≠ [] := List.ne_nil_of_length_pos (by rw [hash.toList_length]; decide)
  have hwhole : ∀ joined : HashBytes, joined.toList <:+: hash.toList ↔ joined = hash :=
    fun joined => (isInfix_iff_eq hash.toList_length joined).trans Subtype.ext_iff.symm
  rw [hmetadata, metadataMatchesAnyRoom_iff, or_iff_right hsome]
  simp only [hwhole, exists_eq_right]

end Advertisers

end Mlink.Transport
