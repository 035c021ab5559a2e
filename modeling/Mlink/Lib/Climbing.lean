/-
# Lists that climb to a limit

Items carry a rank. A list climbs below a limit when its ranks strictly increase
and all lie below the limit: no item occurs twice, the items are in the order of
their ranks, and an item ranked at the limit may come next.
-/

import Mathlib.Data.List.Sort

namespace Climbing

universe u

variable {α : Type u} {rank : α → Nat}

/-- The ranks strictly increase and stay below `limit`. -/
structure Climbs (rank : α → Nat) (limit : Nat) (items : List α) : Prop where
  increasing : items.Pairwise fun first second => rank first < rank second
  below : ∀ item ∈ items, rank item < limit

namespace Climbs

variable {limit limit' : Nat} {items : List α}

theorem nil (limit : Nat) : Climbs rank limit [] where
  increasing := .nil
  below := by
    intro item hitem
    cases hitem

/-- A higher limit is still a limit. -/
theorem mono (climbs : Climbs rank limit items) (higher : limit ≤ limit') :
    Climbs rank limit' items where
  increasing := climbs.increasing
  below item hitem := Nat.lt_of_lt_of_le (climbs.below item hitem) higher

/-- Leaving items out does no harm. -/
theorem sublist {fewer : List α} (climbs : Climbs rank limit items)
    (sublist : fewer.Sublist items) : Climbs rank limit fewer where
  increasing := climbs.increasing.sublist sublist
  below item hitem := climbs.below item (sublist.subset hitem)

/-- An item that ranks at the old limit or above may come next. -/
theorem snoc {item : α} (climbs : Climbs rank limit items) (next : limit ≤ rank item)
    (below : rank item < limit') : Climbs rank limit' (items ++ [item]) where
  increasing := by
    rw [List.pairwise_append]
    refine ⟨climbs.increasing, List.pairwise_singleton _ _, ?_⟩
    intro earlier hearlier later hlater
    have hbelow := climbs.below earlier hearlier
    rw [List.mem_singleton.mp hlater]
    omega
  below other hother := by
    rcases List.mem_append.mp hother with hold | hnew
    · have hbelow := climbs.below other hold
      omega
    · rw [List.mem_singleton.mp hnew]
      exact below

/-- Two lists one above the other climb together. -/
theorem append {later : List α} (climbs : Climbs rank limit items)
    (hlater : Climbs rank limit later)
    (above : ∀ first ∈ items, ∀ second ∈ later, rank first < rank second) :
    Climbs rank limit (items ++ later) where
  increasing := List.pairwise_append.mpr ⟨climbs.increasing, hlater.increasing, above⟩
  below item hitem := (List.mem_append.mp hitem).elim (climbs.below item) (hlater.below item)

/-- Items that climb too and are all in the list are in it in their order. -/
theorem sublist_of_subset {fewer : List α} (climbs : Climbs rank limit items)
    (increasing : fewer.Pairwise fun first second => rank first < rank second)
    (subset : fewer ⊆ items) : fewer.Sublist items := by
  have hantisymm : Std.Antisymm fun first second : α => rank first < rank second :=
    ⟨fun _ _ hless hgreater => absurd hless hgreater.asymm⟩
  have hnodup : fewer.Nodup := increasing.imp fun hless heq => by
    rw [heq] at hless
    exact Nat.lt_irrefl _ hless
  exact List.sublist_of_subperm_of_pairwise (List.subperm_of_subset hnodup subset) increasing
    climbs.increasing

end Climbs

end Climbing
