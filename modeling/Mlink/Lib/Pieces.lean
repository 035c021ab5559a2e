/-
# A list in pieces

A list is cut into pieces of one length, the last of which may be shorter, and
pieces that arrive in some order are put together again. Whatever the list holds,
it comes back exactly when each piece arrives once and in its place: a piece that
arrives elsewhere is told from the right one by its first entry.
-/

import Mathlib.Data.List.Basic

namespace Pieces

variable {α : Type}

/-! ## Cutting -/

/-- The pieces of a list, of which there are no more than the fuel. -/
def chunksWithin (size : Nat) : Nat → List α → List (List α)
  | 0, _ => []
  | fuel + 1, data =>
      if data = [] then [] else data.take size :: chunksWithin size fuel (data.drop size)

/-- The pieces of a list; each takes an entry at least. -/
def chunks (size : Nat) (data : List α) : List (List α) := chunksWithin size data.length data

/-- The lengths of the pieces depend on the length of the list alone. -/
def chunkLengths (size : Nat) : Nat → Nat → List Nat
  | 0, _ => []
  | fuel + 1, length =>
      if length = 0 then [] else min size length :: chunkLengths size fuel (length - size)

variable {size fuel length : Nat} {data : List α}

theorem map_length_chunksWithin :
    (chunksWithin size fuel data).map List.length = chunkLengths size fuel data.length := by
  induction fuel generalizing data with
  | zero => rfl
  | succ fuel ih =>
      rw [chunksWithin, chunkLengths]
      by_cases hnil : data = []
      · rw [if_pos hnil, if_pos (by rw [hnil]; rfl)]
        rfl
      · have hsome : data.length ≠ 0 := by simpa using hnil
        rw [if_neg hnil, if_neg hsome, List.map_cons, ih, List.length_take, List.length_drop]

/-- Pieces in which there is something are as long as pieces of a list are. -/
theorem pos_of_mem_chunkLengths (hsize : 0 < size) :
    ∀ piece ∈ chunkLengths size fuel length, 0 < piece := by
  induction fuel generalizing length with
  | zero => simp [chunkLengths]
  | succ fuel ih =>
      rw [chunkLengths]
      split_ifs with hlength
      · simp
      · intro piece hpiece
        rcases List.mem_cons.mp hpiece with rfl | hrest
        · omega
        · exact ih piece hrest

theorem flatten_chunksWithin (hsize : 0 < size) (hfuel : data.length ≤ fuel) :
    (chunksWithin size fuel data).flatten = data := by
  induction fuel generalizing data with
  | zero =>
      rw [List.eq_nil_of_length_eq_zero (Nat.le_zero.mp hfuel)]
      rfl
  | succ fuel ih =>
      rw [chunksWithin]
      split_ifs with hnil
      · rw [hnil]
        rfl
      · have hshort : (data.drop size).length ≤ fuel := by
          rw [List.length_drop]
          omega
        rw [List.flatten_cons, ih hshort, List.take_append_drop]

theorem flatten_chunks (hsize : 0 < size) (data : List α) : (chunks size data).flatten = data :=
  flatten_chunksWithin hsize (Nat.le_refl _)

/-- Pieces of the right lengths are the pieces of what they make up. -/
theorem chunksWithin_flatten (hsize : 0 < size) (hfuel : length ≤ fuel) {pieces : List (List α)}
    (hlengths : pieces.map List.length = chunkLengths size fuel length) :
    pieces.flatten.length = length ∧ chunksWithin size fuel pieces.flatten = pieces := by
  induction fuel generalizing length pieces with
  | zero =>
      cases List.map_eq_nil_iff.mp hlengths
      exact ⟨by rw [Nat.le_zero.mp hfuel]; rfl, rfl⟩
  | succ fuel ih =>
      rw [chunkLengths] at hlengths
      split_ifs at hlengths with hlength
      · cases List.map_eq_nil_iff.mp hlengths
        exact ⟨hlength.symm, rfl⟩
      · cases pieces with
        | nil => cases hlengths
        | cons first rest =>
            obtain ⟨hfirst, hrest⟩ := List.cons.inj hlengths
            have hfirst : first.length = min size length := hfirst
            obtain ⟨htotal, hpieces⟩ := ih (by omega : length - size ≤ fuel) hrest
            have hnonempty : (first :: rest).flatten ≠ [] := by
              intro hnil
              rw [List.flatten_cons, List.append_eq_nil_iff] at hnil
              rw [hnil.1, List.length_nil] at hfirst
              omega
            have hcut : (first ++ rest.flatten).take size = first ∧
                (first ++ rest.flatten).drop size = rest.flatten := by
              by_cases hfull : first.length = size
              · rw [← hfull]
                exact ⟨List.take_left, List.drop_left⟩
              · -- the piece is a short one, so it is the last
                have hempty : rest.flatten = [] := List.eq_nil_of_length_eq_zero (by omega)
                have hall : first.length ≤ size := by omega
                rw [hempty, List.append_nil]
                exact ⟨List.take_of_length_le hall, List.drop_eq_nil_of_le hall⟩
            refine ⟨?_, ?_⟩
            · rw [List.flatten_cons, List.length_append, htotal, hfirst]
              omega
            · rw [chunksWithin, if_neg hnonempty, List.flatten_cons, hcut.1, hcut.2, hpieces]

/-- There are as many pieces as a division that rounds up says. -/
theorem length_chunksWithin (hsize : 0 < size) (hfuel : data.length ≤ fuel) :
    (chunksWithin size fuel data).length = (data.length + size - 1) / size := by
  induction fuel generalizing data with
  | zero =>
      have hlength : data.length = 0 := Nat.le_zero.mp hfuel
      rw [hlength, Nat.zero_add, Nat.div_eq_of_lt (Nat.sub_lt hsize Nat.one_pos)]
      rfl
  | succ fuel ih =>
      rw [chunksWithin]
      split_ifs with hnil
      · rw [hnil, List.length_nil, List.length_nil, Nat.zero_add, Nat.div_eq_of_lt (Nat.sub_lt hsize Nat.one_pos)]
      · have hsome : 0 < data.length := List.length_pos_iff.mpr hnil
        have hrest : (data.drop size).length = data.length - size := List.length_drop
        rw [List.length_cons, ih (by omega), hrest]
        by_cases hlast : data.length ≤ size
        · -- the only piece that is left
          have hnone : (data.length - size + size - 1) / size = 0 :=
            Nat.div_eq_of_lt (by omega)
          have hone : data.length + size - 1 = data.length - 1 + size := by omega
          rw [hnone, hone, Nat.add_div_right _ hsize, Nat.div_eq_of_lt (by omega)]
        · have hmore : data.length + size - 1 = data.length - size + size - 1 + size := by omega
          rw [hmore, Nat.add_div_right _ hsize]

theorem length_chunks (hsize : 0 < size) (data : List α) :
    (chunks size data).length = (data.length + size - 1) / size :=
  length_chunksWithin hsize (Nat.le_refl _)

/-- The lengths of the pieces of several lists that are cut one after another. -/
def allLengths (size : Nat) (lengths : List Nat) : List Nat :=
  lengths.flatMap fun length => chunkLengths size length length

theorem map_length_flatMap_chunks (lists : List (List α)) :
    (lists.flatMap (chunks size)).map List.length = allLengths size (lists.map List.length) := by
  induction lists with
  | nil => rfl
  | cons first rest ih =>
      rw [List.flatMap_cons, List.map_append, ih, chunks, map_length_chunksWithin]
      rfl

theorem flatten_flatMap_chunks (hsize : 0 < size) (lists : List (List α)) :
    (lists.flatMap (chunks size)).flatten = lists.flatten := by
  induction lists with
  | nil => rfl
  | cons first rest ih =>
      rw [List.flatMap_cons, List.flatten_append, ih, flatten_chunks hsize, List.flatten_cons]

/-- Any pieces of these lengths are the pieces of some lists. -/
theorem exists_flatMap_chunks (hsize : 0 < size) {lengths : List Nat} {pieces : List (List α)}
    (hpieces : pieces.map List.length = allLengths size lengths) :
    ∃ lists : List (List α), lists.map List.length = lengths ∧
      lists.flatMap (chunks size) = pieces := by
  induction lengths generalizing pieces with
  | nil => exact ⟨[], rfl, (List.map_eq_nil_iff.mp hpieces).symm⟩
  | cons length rest ih =>
      obtain ⟨front, back, rfl, hfront, hback⟩ := List.map_eq_append_iff.mp hpieces
      obtain ⟨lists, hlists, rfl⟩ := ih hback
      obtain ⟨htotal, hchunks⟩ := chunksWithin_flatten hsize (Nat.le_refl length) hfront
      refine ⟨front.flatten :: lists, ?_, ?_⟩
      · rw [List.map_cons, htotal, hlists]
      · rw [List.flatMap_cons, chunks, htotal, hchunks]

theorem pos_of_mem_allLengths (hsize : 0 < size) (lengths : List Nat) :
    ∀ piece ∈ allLengths size lengths, 0 < piece := by
  intro piece hpiece
  obtain ⟨length, _, hmem⟩ := List.mem_flatMap.mp hpiece
  exact pos_of_mem_chunkLengths hsize piece hmem

/-! ## Putting together -/

/-- Pieces of given lengths that begin with `mark` in one place and are `blank`
everywhere else. -/
def marked (mark blank : α) (shape : List Nat) (place : Nat) : List (List α) :=
  shape.mapIdx fun index length =>
    if index = place then mark :: List.replicate (length - 1) blank
    else List.replicate length blank

variable {shape : List Nat} {mark blank : α} {place index : Nat} {pieces : List (List α)}

theorem map_length_marked (hpos : ∀ length ∈ shape, 0 < length) :
    (marked mark blank shape place).map List.length = shape := by
  apply List.ext_getElem
  · simp [marked]
  · intro index hindex hbound
    have hlength := hpos shape[index] (List.getElem_mem hbound)
    simp only [marked, List.getElem_map, List.getElem_mapIdx]
    split_ifs
    · rw [List.length_cons, List.length_replicate]
      omega
    · exact List.length_replicate

/-- The piece in the marked place is the only one that begins with the mark. -/
theorem head?_marked_eq_some_iff (hne : mark ≠ blank) (hpos : ∀ length ∈ shape, 0 < length) :
    ((marked mark blank shape place)[index]?.bind List.head?) = some mark ↔
      index = place ∧ index < shape.length := by
  by_cases hbound : index < shape.length
  · have hlength := hpos shape[index] (List.getElem_mem hbound)
    rw [marked, List.getElem?_mapIdx, List.getElem?_eq_getElem hbound, Option.map_some,
      Option.bind_some]
    by_cases hplace : index = place
    · simp [hplace, hplace ▸ hbound]
    · rw [if_neg hplace, List.head?_replicate, if_neg (by omega)]
      simp [hplace, hne.symm]
  · have hnone : (marked mark blank shape place)[index]? = none := by
      rw [List.getElem?_eq_none_iff, marked, List.length_mapIdx]
      omega
    simp [hnone, hbound]

/-- What pieces make up when they arrive in a given order. -/
def assembled (pieces : List (List α)) (order : List Nat) : List α :=
  order.flatMap fun index => pieces[index]?.getD []

theorem assembled_cons (pieces : List (List α)) (first : Nat) (order : List Nat) :
    assembled pieces (first :: order) = pieces[first]?.getD [] ++ assembled pieces order :=
  List.flatMap_cons

/-- In their own order, from some place on, pieces make up the rest of the list. -/
theorem assembled_range' (pieces : List (List α)) (start : Nat) :
    assembled pieces (List.range' start (pieces.length - start)) = (pieces.drop start).flatten := by
  generalize hcount : pieces.length - start = count
  induction count generalizing start with
  | zero =>
      rw [List.drop_eq_nil_of_le (by omega)]
      rfl
  | succ count ih =>
      have hbound : start < pieces.length := by omega
      rw [List.range'_succ, assembled_cons, ih (start + 1) (by omega),
        List.getElem?_eq_getElem hbound, List.drop_eq_getElem_cons hbound]
      rfl

/-- Marked pieces that arrive make up something that begins with the mark when the
marked one arrives first. -/
theorem head?_assembled_marked_iff (hne : mark ≠ blank) (hpos : ∀ length ∈ shape, 0 < length)
    {first : Nat} {rest : List Nat} (hbound : first < shape.length) :
    (assembled (marked mark blank shape place) (first :: rest)).head? = some mark ↔
      first = place := by
  have hmarked : ((marked mark blank shape place)[first]?.bind List.head?) = some mark ↔
      first = place ∧ first < shape.length := head?_marked_eq_some_iff hne hpos
  have hinside : first < (marked mark blank shape place).length := by
    rw [marked, List.length_mapIdx]
    exact hbound
  have hpiece : (marked mark blank shape place)[first] ≠ [] := by
    intro hnil
    have hshape : (marked mark blank shape place).map List.length = shape :=
      map_length_marked hpos
    have hlength := congrArg (fun lengths => lengths[first]?) hshape
    have hfirst := hpos shape[first] (List.getElem_mem hbound)
    simp only [List.getElem?_map, List.getElem?_eq_getElem hinside, hnil,
      List.getElem?_eq_getElem hbound, Option.map_some, List.length_nil,
      Option.some.injEq] at hlength
    omega
  rw [List.getElem?_eq_getElem hinside, Option.bind_some] at hmarked
  rw [assembled_cons, List.getElem?_eq_getElem hinside, Option.getD_some,
    List.head?_append_of_ne_nil _ hpiece, hmarked]
  simp [hbound]

/-- Only their own order puts every choice of pieces together from some place on. -/
theorem eq_range'_of_assembled [Nontrivial α] (hpos : ∀ length ∈ shape, 0 < length) {start : Nat}
    {order : List Nat} (hvalid : ∀ index ∈ order, index < shape.length)
    (hassembled : ∀ pieces : List (List α), pieces.map List.length = shape →
      assembled pieces order = (pieces.drop start).flatten) :
    order = List.range' start (shape.length - start) := by
  obtain ⟨mark, blank, hne⟩ := exists_pair_ne α
  have hmarked : ∀ place, assembled (marked mark blank shape place) order =
      ((marked mark blank shape place).drop start).flatten :=
    fun place => hassembled _ (map_length_marked hpos)
  have hlength : ∀ place, (marked mark blank shape place).length = shape.length :=
    fun place => List.length_mapIdx
  generalize hcount : shape.length - start = count
  induction count generalizing start order with
  | zero =>
      cases order with
      | nil => rfl
      | cons first rest =>
          have hbegins : (assembled (marked mark blank shape first) (first :: rest)).head? =
              some mark :=
            (head?_assembled_marked_iff hne hpos (hvalid first List.mem_cons_self)).mpr rfl
          rw [hmarked, List.drop_eq_nil_of_le (by rw [hlength]; omega)] at hbegins
          cases hbegins
  | succ count ih =>
      have hstart : start < shape.length := by omega
      have hown : (((marked mark blank shape start).drop start).flatten).head? = some mark := by
        have hinside : start < (marked mark blank shape start).length := by
          rw [hlength]
          exact hstart
        rw [← assembled_range', hlength, hcount, List.range'_succ]
        exact (head?_assembled_marked_iff hne hpos hstart).mpr rfl
      cases order with
      | nil =>
          rw [← hmarked] at hown
          cases hown
      | cons first rest =>
          have hfirst : first = start := by
            rw [← hmarked] at hown
            exact (head?_assembled_marked_iff hne hpos (hvalid first List.mem_cons_self)).mp hown
          have hrest : ∀ pieces : List (List α), pieces.map List.length = shape →
              assembled pieces rest = (pieces.drop (start + 1)).flatten := by
            intro pieces hshape
            have hinside : start < pieces.length := by
              rw [← hshape, List.length_map] at hstart
              exact hstart
            have hall := hassembled pieces hshape
            rw [hfirst, assembled_cons, List.getElem?_eq_getElem hinside, Option.getD_some,
              List.drop_eq_getElem_cons hinside, List.flatten_cons] at hall
            exact List.append_cancel_left hall
          rw [hfirst, List.range'_succ, ih (fun index hindex => hvalid index
            (List.mem_cons_of_mem first hindex)) hrest (fun place => hrest _
              (map_length_marked hpos)) (by omega)]

/-- Pieces put every list together again exactly when they arrive in their order,
each of them once. -/
theorem assembled_iff_range [Nontrivial α] (hpos : ∀ length ∈ shape, 0 < length)
    {order : List Nat} (hvalid : ∀ index ∈ order, index < shape.length) :
    (∀ pieces : List (List α), pieces.map List.length = shape →
        assembled pieces order = pieces.flatten) ↔ order = List.range shape.length := by
  rw [List.range_eq_range']
  constructor
  · intro hassembled
    exact eq_range'_of_assembled hpos hvalid hassembled
  · intro hrange pieces hshape
    have hcount : shape.length = pieces.length := by rw [← hshape, List.length_map]
    rw [hrange, hcount]
    exact assembled_range' pieces 0

end Pieces
