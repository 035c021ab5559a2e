/-
# Notices that alternate

Something goes on and off, and each change is announced. The announcements are
believable if they alternate, beginning with "on"; the last of them tells the
current state.
-/

import Mathlib.Data.List.Chain

namespace Alternation

variable {notices : List Bool} {notice : Bool}

/-- Starting from "off", each notice differs from the one before it. -/
def Alternates (notices : List Bool) : Prop := (false :: notices).IsChain (· ≠ ·)

instance (notices : List Bool) : Decidable (Alternates notices) :=
  inferInstanceAs (Decidable (List.IsChain _ _))

/-- What the notices tell: the last of them, or "off". -/
def current (notices : List Bool) : Bool := notices.getLast?.getD false

@[simp]
theorem current_concat (notices : List Bool) (notice : Bool) :
    current (notices ++ [notice]) = notice := by
  simp [current]

/-- Notices go on alternating when the next one tells a change. -/
theorem alternates_concat :
    Alternates (notices ++ [notice]) ↔ Alternates notices ∧ current notices ≠ notice := by
  rw [Alternates, ← List.cons_append, List.isChain_append]
  have hlast : (false :: notices).getLast? = some (current notices) := by
    rw [List.getLast?_cons]
    rfl
  constructor
  · rintro ⟨halternates, _, hchange⟩
    exact ⟨halternates, hchange _ hlast _ rfl⟩
  · rintro ⟨halternates, hchange⟩
    refine ⟨halternates, .singleton notice, ?_⟩
    intro last hmem next hnext
    rw [hlast] at hmem
    cases hmem
    cases hnext
    exact hchange

end Alternation
