/-
# Replacing and adding an entry

A system of many parties keeps them in a list, and a step replaces one of them or
adds one at the end. What is counted over all parties, and what all of them hold
together, changes by what that one party contributes.
-/

import Mathlib.Data.List.Basic

namespace Entries

variable {α β : Type} {entries : List α} {index : Nat} {entry replacement : α}

/-- An entry that counts as the one that it replaces changes no count. -/
theorem countP_set_of_eq (counts : α → Bool) (hentry : entries[index]? = some entry)
    (same : counts replacement = counts entry) :
    (entries.set index replacement).countP counts = entries.countP counts := by
  induction entries generalizing index with
  | nil => rfl
  | cons first rest ih =>
      cases index with
      | zero =>
          cases hentry
          rw [List.set_cons_zero, List.countP_cons, List.countP_cons, same]
      | succ index =>
          rw [List.set_cons_succ, List.countP_cons, List.countP_cons, ih hentry]

/-- An entry that counts only if the one that it replaces did raises no count. -/
theorem countP_set_le (counts : α → Bool) (hentry : entries[index]? = some entry)
    (less : counts replacement = true → counts entry = true) :
    (entries.set index replacement).countP counts ≤ entries.countP counts := by
  induction entries generalizing index with
  | nil => simp
  | cons first rest ih =>
      cases index with
      | zero =>
          cases hentry
          rw [List.set_cons_zero, List.countP_cons, List.countP_cons]
          by_cases hcounts : counts replacement = true
          · apply Nat.le_of_eq
            rw [if_pos hcounts, if_pos (less hcounts)]
          · rw [if_neg hcounts]
            exact Nat.le_add_right _ _
      | succ index =>
          rw [List.set_cons_succ, List.countP_cons, List.countP_cons]
          exact Nat.add_le_add_right (ih hentry) _

/-- What is held apart from one entry is still held when that entry is replaced. -/
theorem mem_set_of_ne {other : α} (hentry : entries[index]? = some entry)
    (hother : other ∈ entries) (hne : other ≠ entry) : other ∈ entries.set index replacement := by
  obtain ⟨place, hplace⟩ := List.mem_iff_getElem?.mp hother
  have hapart : index ≠ place := by
    intro hsame
    rw [hsame, hplace] at hentry
    exact hne (Option.some.inj hentry)
  apply List.mem_of_getElem? (i := place)
  rw [List.getElem?_set_ne hapart, hplace]

/-- Adding an entry leaves the others where they are. -/
theorem getElem?_concat_of_some (hentry : entries[index]? = some entry) (last : α) :
    (entries ++ [last])[index]? = some entry := by
  obtain ⟨hbound, _⟩ := List.getElem?_eq_some_iff.mp hentry
  rw [List.getElem?_append_left hbound, hentry]

/-- What is found with one more entry was there before, or is the new one at its place. -/
theorem getElem?_concat_cases {last : α} (hentry : (entries ++ [last])[index]? = some entry) :
    entries[index]? = some entry ∨ index = entries.length ∧ entry = last := by
  by_cases hold : index < entries.length
  · exact .inl (List.getElem?_append_left hold ▸ hentry)
  · have hbound := (List.getElem?_eq_some_iff.mp hentry).1
    rw [List.length_append, List.length_singleton] at hbound
    have hnew := List.getElem?_append_right (Nat.le_of_not_lt hold) ▸ hentry
    exact .inr ⟨Nat.le_antisymm (Nat.lt_succ_iff.mp hbound) (Nat.le_of_not_lt hold),
      List.mem_singleton.mp (List.mem_of_getElem? hnew)⟩

/-- What is found once an entry is replaced was there before, or is the replacement. -/
theorem getElem?_set_cases {place : Nat} {found : α}
    (hfound : (entries.set index replacement)[place]? = some found) :
    place = index ∧ found = replacement ∨ place ≠ index ∧ entries[place]? = some found := by
  by_cases hplace : place = index
  · subst hplace
    have hbound := (List.getElem?_eq_some_iff.mp hfound).1
    rw [List.length_set] at hbound
    rw [List.getElem?_set_self hbound] at hfound
    exact .inl ⟨rfl, (Option.some.inj hfound).symm⟩
  · rw [List.getElem?_set_ne (Ne.symm hplace)] at hfound
    exact .inr ⟨hplace, hfound⟩

/-- What is found once an entry is changed was there before, or is what became of it. -/
theorem getElem?_modify_eq_some {place : Nat} {change : α → α} {found : α}
    (hfound : (entries.modify index change)[place]? = some found) :
    ∃ before, entries[place]? = some before ∧
      found = if index = place then change before else before := by
  rw [List.getElem?_modify, Option.map_eq_map, Option.map_eq_some_iff] at hfound
  obtain ⟨before, hbefore, hchange⟩ := hfound
  exact ⟨before, hbefore, hchange.symm⟩

theorem getElem?_modify_of_some {place : Nat} {change : α → α}
    (hentry : entries[place]? = some entry) :
    (entries.modify index change)[place]? = some (if index = place then change entry else entry) := by
  rw [List.getElem?_modify, hentry]
  rfl

/-- What holds of all entries, and is kept where one is changed, holds of all of them
after. -/
theorem forall_mem_modify {holds : α → Prop} {change : α → α}
    (all : ∀ entry ∈ entries, holds entry) (kept : ∀ entry, holds entry → holds (change entry)) :
    ∀ entry ∈ entries.modify index change, holds entry := by
  intro entry hentry
  obtain ⟨place, hplace⟩ := List.mem_iff_getElem?.mp hentry
  obtain ⟨before, hbefore, rfl⟩ := getElem?_modify_eq_some hplace
  have hholds := all before (List.mem_of_getElem? hbefore)
  split_ifs
  · exact kept before hholds
  · exact hholds

/-- Replacing an entry exchanges its part of what all of them hold. -/
theorem flatMap_set_perm (holds : α → List β) (hentry : entries[index]? = some entry)
    (replacement : α) :
    (holds entry ++ (entries.set index replacement).flatMap holds).Perm
      (holds replacement ++ entries.flatMap holds) := by
  induction entries generalizing index with
  | nil => cases hentry
  | cons first rest ih =>
      cases index with
      | zero =>
          cases hentry
          rw [List.set_cons_zero, List.flatMap_cons, List.flatMap_cons]
          exact List.perm_append_comm_assoc _ _ _
      | succ index =>
          rw [List.set_cons_succ, List.flatMap_cons, List.flatMap_cons]
          apply (List.perm_append_comm_assoc _ _ _).trans
          apply ((ih hentry).append_left (holds first)).trans
          exact List.perm_append_comm_assoc _ _ _

end Entries
