/-
# Stamps from per-key counters

Each key has its own counter, and each use of a key is stamped with the value
its counter had. Where stamps are told apart only modulo some `modulus`, two
uses collide as soon as two keys are in use, or one key is used more than
`modulus` times; `nodup_residues_iff` says that nothing else makes them collide.
-/

import Mathlib.Data.List.Nodup
import Mathlib.Data.List.Perm.Subperm
import Mathlib.Data.List.Range
import Mathlib.Data.Nat.ModEq

namespace Stamp

universe u

variable {κ : Type u} [DecidableEq κ]

/-- Count one use of a key. -/
def count (used : κ → Nat) (key : κ) : κ → Nat := Function.update used key (used key + 1)

/-- Stamp each use with the number of uses of its key so far. -/
def stamp (used : κ → Nat) : List κ → List (κ × Nat)
  | [] => []
  | key :: rest => (key, used key) :: stamp (count used key) rest

@[simp]
theorem map_fst_stamp (used : κ → Nat) (keys : List κ) :
    (stamp used keys).map Prod.fst = keys := by
  induction keys generalizing used with
  | nil => rfl
  | cons key rest ih => simp [stamp, ih]

@[simp]
theorem length_stamp (used : κ → Nat) (keys : List κ) :
    (stamp used keys).length = keys.length := by
  rw [← List.length_map Prod.fst, map_fst_stamp]

/-- The first use of a key gets the value its counter started from. -/
theorem first_mem_stamp {used : κ → Nat} {keys : List κ} {key : κ} (occurs : key ∈ keys) :
    (key, used key) ∈ stamp used keys := by
  induction keys generalizing used with
  | nil => cases occurs
  | cons head rest ih =>
      rw [stamp]
      by_cases same : key = head
      · rw [same]
        exact List.mem_cons_self
      · have hrest : key ∈ rest := (List.mem_cons.mp occurs).resolve_left same
        have hcount : count used head key = used key := Function.update_of_ne same _ _
        rw [← hcount]
        exact List.mem_cons_of_mem _ (ih hrest)

/-- Uses of one key are stamped consecutively. -/
theorem map_snd_stamp_of_single {used : κ → Nat} {keys : List κ} {key : κ}
    (single : ∀ other ∈ keys, other = key) :
    (stamp used keys).map Prod.snd = List.range' (used key) keys.length := by
  induction keys generalizing used with
  | nil => rfl
  | cons head rest ih =>
      have hhead : head = key := single head List.mem_cons_self
      subst hhead
      have hrest : (stamp (count used head) rest).map Prod.snd =
          List.range' (count used head head) rest.length :=
        ih fun other hother => single other (List.mem_cons_of_mem _ hother)
      have hcount : count used head head = used head + 1 := Function.update_self _ _ _
      rw [hcount] at hrest
      simp [stamp, hrest, List.range'_succ]

/-- Consecutive numbers have distinct residues as long as there are no more of
them than residues. -/
theorem nodup_map_mod_range' {modulus length : Nat} (first : Nat) (short : length ≤ modulus) :
    ((List.range' first length).map (· % modulus)).Nodup := by
  apply List.Nodup.map_on ?_ List.nodup_range'
  intro left hleft right hright same
  rw [List.mem_range'_1] at hleft hright
  have hmod : left ≡ right [MOD modulus] := same
  rcases Nat.le_total left right with hle | hle
  · have hdvd := (Nat.modEq_iff_dvd' hle).mp hmod
    have hzero := Nat.eq_zero_of_dvd_of_lt hdvd (by omega)
    omega
  · have hdvd := (Nat.modEq_iff_dvd' hle).mp hmod.symm
    have hzero := Nat.eq_zero_of_dvd_of_lt hdvd (by omega)
    omega

/-- From counters at zero, the residues of the stamps are distinct exactly when
one key is used throughout, and no more often than there are residues. -/
theorem nodup_residues_iff {modulus : Nat} (positive : 0 < modulus) (keys : List κ) :
    ((stamp (fun _ => 0) keys).map fun use => use.2 % modulus).Nodup ↔
      (∀ first ∈ keys, ∀ second ∈ keys, first = second) ∧ keys.length ≤ modulus := by
  constructor
  · intro distinct
    constructor
    · intro first hfirst second hsecond
      have hinj := List.inj_on_of_nodup_map distinct
      have hsame := hinj (first_mem_stamp hfirst) (first_mem_stamp hsecond) rfl
      exact congrArg Prod.fst hsame
    · have hbound : ∀ residue ∈ (stamp (fun _ => 0) keys).map fun use => use.2 % modulus,
          residue ∈ List.range modulus := by
        intro residue hresidue
        obtain ⟨use, _, rfl⟩ := List.mem_map.mp hresidue
        exact List.mem_range.mpr (Nat.mod_lt _ positive)
      have hlength := (List.subperm_of_subset distinct hbound).length_le
      simpa using hlength
  · rintro ⟨single, short⟩
    cases keys with
    | nil => exact List.nodup_nil
    | cons key rest =>
        have hstamps : (stamp (fun _ => 0) (key :: rest)).map Prod.snd =
            List.range' 0 (key :: rest).length :=
          map_snd_stamp_of_single fun other hother => single other hother key List.mem_cons_self
        have hnodup := nodup_map_mod_range' 0 short
        rw [← hstamps, List.map_map] at hnodup
        exact hnodup

end Stamp
