/-
# A bounded ledger

A ledger remembers every item it ever accepted together with what became of it:
still held, settled, or evicted because a fixed number were held already. It
says what a bounded buffer is for without saying how the buffer keeps it; an
implementation refines it when its buffer is the list of held items.
-/

import Mathlib.Data.List.Basic

namespace Ledger

universe u

/-- What became of an accepted item. -/
inductive Fate
  | held | settled | evicted
  deriving DecidableEq, Repr

/-- An accepted item with its fate. -/
structure Entry (α : Type u) where
  item : α
  fate : Fate
  deriving DecidableEq, Repr

variable {α : Type u}

/-- The items still held, oldest first. -/
def outstanding (ledger : List (Entry α)) : List α :=
  (ledger.filter fun entry => entry.fate = .held).map Entry.item

/-- A ledger that holds the given items. -/
def ofList (items : List α) : List (Entry α) := items.map fun item => ⟨item, .held⟩

/-- Settle every held item that meets `covered`. -/
def settle (covered : α → Bool) (ledger : List (Entry α)) : List (Entry α) :=
  ledger.map fun entry =>
    if entry.fate = .held ∧ covered entry.item then ⟨entry.item, .settled⟩ else entry

/-- Evict the oldest held item. -/
def evictOldest : List (Entry α) → List (Entry α)
  | [] => []
  | entry :: rest =>
      if entry.fate = .held then ⟨entry.item, .evicted⟩ :: rest else entry :: evictOldest rest

/-- Accept an item, evicting the oldest held one if `capacity` are held. -/
def accept (capacity : Nat) (ledger : List (Entry α)) (item : α) : List (Entry α) :=
  (if capacity ≤ (outstanding ledger).length then evictOldest ledger else ledger) ++
    [⟨item, .held⟩]

@[simp]
theorem outstanding_nil : outstanding ([] : List (Entry α)) = [] := rfl

/-- The oldest entry contributes its item while it is held. -/
theorem outstanding_cons (entry : Entry α) (rest : List (Entry α)) :
    outstanding (entry :: rest) =
      if entry.fate = .held then entry.item :: outstanding rest else outstanding rest := by
  by_cases hheld : entry.fate = .held <;> simp [outstanding, hheld]

@[simp]
theorem outstanding_append (first second : List (Entry α)) :
    outstanding (first ++ second) = outstanding first ++ outstanding second := by
  simp [outstanding]

@[simp]
theorem outstanding_ofList (items : List α) : outstanding (ofList items) = items := by
  induction items with
  | nil => rfl
  | cons item rest ih =>
      rw [ofList, List.map_cons, outstanding_cons, if_pos rfl]
      exact congrArg (item :: ·) ih

/-- Settling keeps the uncovered items, in order. -/
theorem outstanding_settle (covered : α → Bool) (ledger : List (Entry α)) :
    outstanding (settle covered ledger) =
      (outstanding ledger).filter fun item => !covered item := by
  induction ledger with
  | nil => rfl
  | cons entry rest ih =>
      rw [settle, List.map_cons, outstanding_cons, outstanding_cons]
      change outstanding (settle covered rest) = _ at ih
      by_cases hheld : entry.fate = .held
      · by_cases hcovered : covered entry.item
        · simp [hheld, hcovered, ← ih, settle]
        · simp [hheld, hcovered, ← ih, settle]
      · simp [hheld, ← ih, settle]

/-- Evicting drops the oldest held item. -/
theorem outstanding_evictOldest (ledger : List (Entry α)) :
    outstanding (evictOldest ledger) = (outstanding ledger).tail := by
  induction ledger with
  | nil => rfl
  | cons entry rest ih =>
      by_cases hheld : entry.fate = .held
      · rw [evictOldest, if_pos hheld, outstanding_cons, outstanding_cons, if_pos hheld]
        simp
      · rw [evictOldest, if_neg hheld, outstanding_cons, outstanding_cons, if_neg hheld,
          if_neg hheld, ih]

/-- Accepting appends, after making room in a full ledger. -/
theorem outstanding_accept (capacity : Nat) (ledger : List (Entry α)) (item : α) :
    outstanding (accept capacity ledger item) =
      (if capacity ≤ (outstanding ledger).length then (outstanding ledger).tail
        else outstanding ledger) ++ [item] := by
  rw [accept, outstanding_append]
  by_cases hfull : capacity ≤ (outstanding ledger).length
  · rw [if_pos hfull, if_pos hfull, outstanding_evictOldest]
    rfl
  · rw [if_neg hfull, if_neg hfull]
    rfl

/-! ## Entry by entry

An entry keeps its place and its item for good, and loses what it is held for at
most once: an item is settled while it is covered, or evicted while it is the
oldest. -/

@[simp]
theorem map_item_settle (covered : α → Bool) (ledger : List (Entry α)) :
    (settle covered ledger).map Entry.item = ledger.map Entry.item := by
  rw [settle, List.map_map]
  apply List.map_congr_left
  intro entry _
  simp only [Function.comp_apply]
  split_ifs <;> rfl

@[simp]
theorem map_item_evictOldest (ledger : List (Entry α)) :
    (evictOldest ledger).map Entry.item = ledger.map Entry.item := by
  induction ledger with
  | nil => rfl
  | cons entry rest ih =>
      rw [evictOldest]
      split_ifs <;> simp [ih]

@[simp]
theorem map_item_accept (capacity : Nat) (ledger : List (Entry α)) (item : α) :
    (accept capacity ledger item).map Entry.item = ledger.map Entry.item ++ [item] := by
  rw [accept]
  split_ifs <;> simp

/-- An entry of a settled ledger is as it was, or was held and is covered. -/
theorem getElem?_settle {covered : α → Bool} {ledger : List (Entry α)} {place : Nat}
    {entry : Entry α} (found : (settle covered ledger)[place]? = some entry) :
    ledger[place]? = some entry ∨
      entry.fate = .settled ∧ ledger[place]? = some ⟨entry.item, .held⟩ ∧
        covered entry.item := by
  rw [settle, List.getElem?_map] at found
  obtain ⟨old, hold, rfl⟩ := Option.map_eq_some_iff.mp found
  by_cases hsettles : old.fate = .held ∧ covered old.item
  · rw [if_pos hsettles]
    refine .inr ⟨rfl, ?_, hsettles.2⟩
    rw [hold, ← hsettles.1]
  · rw [if_neg hsettles]
    exact .inl hold

/-- An entry of a ledger that evicted is as it was, or was the oldest one held. -/
theorem getElem?_evictOldest {ledger : List (Entry α)} {place : Nat} {entry : Entry α}
    (found : (evictOldest ledger)[place]? = some entry) :
    ledger[place]? = some entry ∨
      entry.fate = .evicted ∧ ledger[place]? = some ⟨entry.item, .held⟩ ∧
        (outstanding ledger).head? = some entry.item := by
  induction ledger generalizing place with
  | nil => exact .inl found
  | cons oldest rest ih =>
      rw [evictOldest] at found
      rw [outstanding_cons]
      by_cases hheld : oldest.fate = .held
      · rw [if_pos hheld] at found ⊢
        cases place with
        | zero =>
            simp only [List.getElem?_cons_zero, Option.some.injEq] at found ⊢
            subst found
            exact .inr ⟨rfl, by rw [← hheld], rfl⟩
        | succ place => exact .inl found
      · rw [if_neg hheld] at found ⊢
        cases place with
        | zero => exact .inl found
        | succ place => exact ih found

end Ledger
