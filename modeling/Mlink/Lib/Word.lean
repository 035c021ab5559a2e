/-
# Machine words

Unsigned arithmetic on words of some width. An operation that overflows wraps, or, where
overflow is checked, does not return.
-/

import Mathlib.Algebra.Order.Group.Nat

/-- A kind of words: how wide they are, and whether overflow is checked. -/
structure Word where
  bits : Nat
  checked : Bool
  deriving DecidableEq, Repr

namespace Word

variable {word : Word} {first second : Nat}

def add (word : Word) (first second : Nat) : Option Nat :=
  if first + second < 2 ^ word.bits then some (first + second)
  else if word.checked then none
  else some (first + second - 2 ^ word.bits)

def sub (word : Word) (first second : Nat) : Option Nat :=
  if second ≤ first then some (first - second)
  else if word.checked then none
  else some (2 ^ word.bits + first - second)

theorem add_of_lt (fits : first + second < 2 ^ word.bits) :
    word.add first second = some (first + second) := if_pos fits

theorem sub_of_le (fits : second ≤ first) : word.sub first second = some (first - second) :=
  if_pos fits

/-- What is checked does not return if it overflows. -/
theorem add_checked_of_le {bits : Nat} (overflows : 2 ^ bits ≤ first + second) :
    add ⟨bits, true⟩ first second = none := by
  rw [add, if_neg (Nat.not_lt.mpr overflows)]
  rfl

end Word
