/-
# Changing many entries of an association list

Tables kept as association lists lose entries in bulk: those whose values fail a
test, or those of a list of keys. Or all their values change at once. What a lookup
finds afterwards is what it found before, as far as that has stayed, and changed as
all of it was.
-/

import Mathlib.Data.List.AList

namespace Lookup

variable {α : Type} {β : Type} [DecidableEq α]

/-- Keep the entries whose values pass a test. -/
def retain (entries : AList fun _ : α => β) (keep : β → Bool) : AList fun _ : α => β :=
  ⟨entries.entries.filter fun entry => keep entry.2,
    (entries.nodupKeys).sublist List.filter_sublist⟩

/-- What passes the test is found as before, and nothing else is. -/
theorem lookup_retain (entries : AList fun _ : α => β) (keep : β → Bool) (key : α) :
    (retain entries keep).lookup key = (entries.lookup key).filter keep := by
  ext value
  have hiff : value ∈ (retain entries keep).lookup key ↔
      value ∈ entries.lookup key ∧ keep value = true := by
    rw [AList.mem_lookup_iff, AList.mem_lookup_iff, retain]
    simp
  rw [← Option.mem_def, hiff]
  simp [Option.filter_eq_some_iff]

variable {γ : Type}

/-- Change every value, and no key. -/
def mapValues (entries : AList fun _ : α => β) (change : β → γ) : AList fun _ : α => γ where
  entries := entries.entries.map fun entry => ⟨entry.1, change entry.2⟩
  nodupKeys := by
    rw [List.NodupKeys, List.keys, List.map_map]
    exact entries.nodupKeys

theorem lookup_mapValues (entries : AList fun _ : α => β) (change : β → γ) (key : α) :
    (mapValues entries change).lookup key = (entries.lookup key).map change := by
  ext value
  rw [← Option.mem_def, AList.mem_lookup_iff, mapValues, List.mem_map, Option.map_eq_some_iff]
  constructor
  · rintro ⟨⟨first, old⟩, hmem, hentry⟩
    cases hentry
    exact ⟨old, AList.mem_lookup_iff.mpr hmem, rfl⟩
  · rintro ⟨old, hold, rfl⟩
    exact ⟨⟨key, old⟩, AList.mem_lookup_iff.mp hold, rfl⟩

/-- Erased keys are not found, and the others are found as before. -/
theorem lookup_foldl_erase (keys : List α) (entries : AList fun _ : α => β) (key : α) :
    (keys.foldl (fun entries key => entries.erase key) entries).lookup key =
      if key ∈ keys then none else entries.lookup key := by
  induction keys generalizing entries with
  | nil => simp
  | cons first rest ih =>
      rw [List.foldl_cons, ih]
      by_cases hfirst : key = first
      · rw [hfirst, AList.lookup_erase]
        simp
      · rw [AList.lookup_erase_ne hfirst]
        simp [hfirst]

/-- Add an entry, unless there is one of its key. -/
def insertNew (entries : AList fun _ : α => β) (added : α × β) : AList fun _ : α => β :=
  if added.1 ∈ entries then entries else entries.insert added.1 added.2

/-- Of several entries under one key the first is found. -/
theorem lookup_foldl_insertNew (added : List (α × β)) (entries : AList fun _ : α => β) (key : α) :
    (added.foldl insertNew entries).lookup key =
      (entries.lookup key).or ((added.find? fun entry => entry.1 = key).map Prod.snd) := by
  induction added generalizing entries with
  | nil => simp
  | cons first rest ih =>
      rw [List.foldl_cons, ih, insertNew]
      by_cases hkey : first.1 = key
      · subst hkey
        split_ifs with hthere
        · obtain ⟨value, hvalue⟩ := Option.isSome_iff_exists.mp (AList.lookup_isSome.mpr hthere)
          simp [hvalue]
        · have hnone : entries.lookup first.1 = none := AList.lookup_eq_none.mpr hthere
          simp [hnone]
      · split_ifs with hthere
        · simp [hkey]
        · rw [AList.lookup_insert_ne (Ne.symm hkey)]
          simp [hkey]

end Lookup
