/-
# Addresses of sockets as text

An address of version 4 is written as four numbers with dots between them, and a port
follows after a colon. The reader goes from the left, each number as far as its digits
go, and accepts a text only if nothing is left over. It takes an octet of at most three
digits and without leading zeros.
-/

import Mathlib.Data.List.TakeWhile
import Mathlib.Algebra.Ring.Nat

/-! ## Decimal numbers -/

namespace Decimal

/-- A number as it is written, without leading zeros. -/
def text (number : Nat) : List Char := Nat.toDigits 10 number

/-- Read a number below the bound, of at most so many digits. A zero may stand before
other digits only where that is allowed. -/
def read (maxDigits : Option Nat) (allowZeroPrefix : Bool) (bound : Nat) (chars : List Char) :
    Option (Nat × List Char) :=
  let digits := chars.takeWhile Char.isDigit
  let number := Nat.ofDigitChars 10 digits 0
  if digits = [] then none
  else if maxDigits.any fun most => decide (most < digits.length) then none
  else if !allowZeroPrefix && digits.head? = some '0' && 1 < digits.length then none
  else if number < bound then some (number, chars.dropWhile Char.isDigit)
  else none

/-- No digit comes next. -/
def EndsNumber (rest : List Char) : Prop := ∀ char ∈ rest.head?, char.isDigit = false

theorem isDigit_text (number : Nat) : ∀ char ∈ text number, char.isDigit = true :=
  fun _ hchar => Nat.isDigit_of_mem_toDigits (by decide) (by decide) hchar

theorem text_ne_nil (number : Nat) : text number ≠ [] := Nat.toDigits_ne_nil

/-- Only the number zero is written with a zero in front. -/
theorem eq_zero_of_head_text {number : Nat} (hhead : (text number).head? = some '0') :
    number = 0 := by
  induction number using Nat.strongRecOn with
  | ind number ih =>
      by_cases hsmall : number < 10
      · rw [text, Nat.toDigits_of_lt_base hsmall] at hhead
        have hdigit : ∀ digit < 10, [Nat.digitChar digit].head? = some '0' → digit = 0 := by
          decide
        exact hdigit number hsmall hhead
      · have hlarge : 10 ≤ number := Nat.le_of_not_lt hsmall
        have htext : text number = text (number / 10) ++ [Nat.digitChar (number % 10)] :=
          Nat.toDigits_of_base_le (by decide) hlarge
        obtain ⟨first, rest, hfirst⟩ := List.exists_cons_of_ne_nil (text_ne_nil (number / 10))
        rw [htext, hfirst] at hhead
        have hzero : number / 10 = 0 := by
          apply ih (number / 10) (Nat.div_lt_self (by omega) (by decide))
          rw [hfirst]
          exact hhead
        omega

theorem takeWhile_text {number : Nat} {rest : List Char} (ends : EndsNumber rest) :
    (text number ++ rest).takeWhile Char.isDigit = text number := by
  rw [List.takeWhile_append_of_pos (isDigit_text number)]
  cases rest with
  | nil => simp
  | cons first rest => simp [ends first rfl]

theorem dropWhile_text {number : Nat} {rest : List Char} (ends : EndsNumber rest) :
    (text number ++ rest).dropWhile Char.isDigit = rest := by
  rw [List.dropWhile_append_of_pos (isDigit_text number)]
  cases rest with
  | nil => rfl
  | cons first rest => simp [ends first rfl]

/-- A written number is read again, whatever is allowed. -/
theorem read_text {maxDigits : Option Nat} {bound number : Nat} {rest : List Char}
    (short : ∀ most ∈ maxDigits, 0 < most ∧ number < 10 ^ most) (hbound : number < bound)
    (ends : EndsNumber rest) (allowZeroPrefix : Bool) :
    read maxDigits allowZeroPrefix bound (text number ++ rest) = some (number, rest) := by
  have hvalue : Nat.ofDigitChars 10 (text number) 0 = number := Nat.ofDigitChars_ten_toDigits
  have hlength : ¬ (maxDigits.any fun most => decide (most < (text number).length)) = true := by
    rw [Option.any_eq_true]
    rintro ⟨most, hmost, hlong⟩
    obtain ⟨hpos, hnumber⟩ := short most hmost
    have hfits := (Nat.length_toDigits_le_iff (by decide) hpos).mpr hnumber
    exact absurd (of_decide_eq_true hlong) (Nat.not_lt.mpr hfits)
  have hzero : ¬ (!allowZeroPrefix && (text number).head? = some '0' &&
      1 < (text number).length) = true := by
    simp only [Bool.and_eq_true, decide_eq_true_eq]
    rintro ⟨⟨_, hhead⟩, hlong⟩
    rw [eq_zero_of_head_text hhead] at hlong
    exact absurd hlong (by decide)
  simp only [read, takeWhile_text ends, dropWhile_text ends, hvalue]
  rw [if_neg (text_ne_nil number), if_neg hlength, if_neg hzero, if_pos hbound]

end Decimal

/-! ## Addresses -/

structure Ipv4Addr where
  a : UInt8
  b : UInt8
  c : UInt8
  d : UInt8
  deriving DecidableEq, Repr

structure SocketAddrV4 where
  ip : Ipv4Addr
  port : UInt16
  deriving DecidableEq, Repr

/-- The next character, if it is the one that must come. -/
def readGivenChar (char : Char) : List Char → Option (List Char)
  | first :: rest => if first = char then some rest else none
  | [] => none

@[simp]
theorem readGivenChar_cons (char : Char) (rest : List Char) :
    readGivenChar char (char :: rest) = some rest := if_pos rfl

namespace Ipv4Addr

variable (ip : Ipv4Addr)

def text : List Char :=
  Decimal.text ip.a.toNat ++ '.' :: (Decimal.text ip.b.toNat ++ '.' ::
    (Decimal.text ip.c.toNat ++ '.' :: Decimal.text ip.d.toNat))

def readOctet (chars : List Char) : Option (UInt8 × List Char) :=
  (Decimal.read (some 3) false 256 chars).map fun found => (found.1.toUInt8, found.2)

def read (chars : List Char) : Option (Ipv4Addr × List Char) := do
  let (a, rest) ← readOctet chars
  let (b, rest) ← readOctet (← readGivenChar '.' rest)
  let (c, rest) ← readOctet (← readGivenChar '.' rest)
  let (d, rest) ← readOctet (← readGivenChar '.' rest)
  return (⟨a, b, c, d⟩, rest)

theorem readOctet_text (octet : UInt8) {rest : List Char} (ends : Decimal.EndsNumber rest) :
    readOctet (Decimal.text octet.toNat ++ rest) = some (octet, rest) := by
  have hbound : octet.toNat < 256 := octet.toNat_lt
  have short : ∀ most ∈ some 3, 0 < most ∧ octet.toNat < 10 ^ most := by
    rintro _ ⟨⟩
    omega
  rw [readOctet, Decimal.read_text short hbound ends]
  exact congrArg some (Prod.ext octet.ofNat_toNat rfl)

theorem read_text {rest : List Char} (ends : Decimal.EndsNumber rest) :
    read (ip.text ++ rest) = some (ip, rest) := by
  have hdot : ∀ later, Decimal.EndsNumber ('.' :: later) := by
    rintro _ _ ⟨⟩
    rfl
  simp only [read, text, List.append_assoc, List.cons_append, readOctet_text _ (hdot _),
    readOctet_text _ ends, readGivenChar_cons, Option.bind_eq_bind, Option.bind_some]
  rfl

end Ipv4Addr

namespace SocketAddrV4

/-- The address as it is displayed. -/
def display (address : SocketAddrV4) : String :=
  String.ofList (address.ip.text ++ ':' :: Decimal.text address.port.toNat)

/-- The address that a text spells. -/
def parse (text : String) : Option SocketAddrV4 := do
  let (ip, rest) ← Ipv4Addr.read text.toList
  let (port, rest) ← Decimal.read none true 65536 (← readGivenChar ':' rest)
  if rest = [] then some ⟨ip, port.toUInt16⟩ else none

/-- A displayed address is read again. -/
theorem parse_display (address : SocketAddrV4) : parse address.display = some address := by
  have hcolon : ∀ later, Decimal.EndsNumber (':' :: later) := by
    rintro _ _ ⟨⟩
    rfl
  have hend : Decimal.EndsNumber [] := by
    rintro _ ⟨⟩
  have short : ∀ most ∈ (none : Option Nat), 0 < most ∧ address.port.toNat < 10 ^ most := by
    rintro _ ⟨⟩
  have hport := Decimal.read_text short address.port.toNat_lt hend true
  rw [List.append_nil] at hport
  have hsame : address.port.toNat.toUInt16 = address.port := address.port.ofNat_toNat
  simp only [parse, display, String.toList_ofList, Ipv4Addr.read_text _ (hcolon _),
    readGivenChar_cons, Option.bind_eq_bind, Option.bind_some, hport, if_true, hsame]

end SocketAddrV4
