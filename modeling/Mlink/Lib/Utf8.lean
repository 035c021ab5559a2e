/-
# Byte offsets into a text

A text is stored as UTF-8, and a part of it is named by two byte offsets. There is
such a part if the offsets are in order and each of them stands at the end of the text
or where a character starts; a program that asks for any other part is stopped. The
offsets that a search yields are those of characters, so a text may be cut before and
after what was found.
-/

import Mathlib.Data.List.Basic

namespace Utf8

/-! ## Texts -/

/-- A text that is written piece by piece. -/
theorem toList_foldl {α : Type} {write : String → α → String} (piece : α → List Char)
    (hwrite : ∀ out item, (write out item).toList = out.toList ++ piece item)
    (items : List α) (out : String) :
    (items.foldl write out).toList = out.toList ++ items.flatMap piece := by
  induction items generalizing out with
  | nil => exact (List.append_nil _).symm
  | cons item items ih =>
      rw [List.foldl_cons, ih, hwrite, List.flatMap_cons, List.append_assoc]

/-- Where every character takes one byte, bytes and characters are as many. -/
theorem utf8ByteSize_ofList {chars : List Char} (single : ∀ char ∈ chars, char.utf8Size = 1) :
    (String.ofList chars).utf8ByteSize = chars.length := by
  induction chars with
  | nil => rfl
  | cons char rest ih =>
      rw [List.forall_mem_cons] at single
      rw [String.ofList_cons, String.utf8ByteSize_append, String.utf8ByteSize_singleton,
        single.1, ih single.2, List.length_cons, Nat.add_comm]

/-! ## Slices -/

/-- The part of a text between two byte offsets, if these are boundaries. -/
def slice (text : String) (start stop : Nat) : Option String :=
  if h : start ≤ stop ∧ String.Pos.Raw.IsValid text ⟨start⟩ ∧ String.Pos.Raw.IsValid text ⟨stop⟩
  then some (String.extract (text.pos ⟨start⟩ h.2.1) (text.pos ⟨stop⟩ h.2.2))
  else none

/-- What a text is put together from can be cut out of it again. -/
theorem slice_append (before part after : String) :
    slice (before ++ part ++ after) before.utf8ByteSize (before.utf8ByteSize + part.utf8ByteSize) =
      some part := by
  have hstart : String.Pos.Raw.IsValid (before ++ part ++ after) ⟨before.utf8ByteSize⟩ :=
    String.Pos.Raw.isValid_iff_exists_append.mpr
      ⟨before, part ++ after, String.append_assoc, rfl⟩
  have hstop : String.Pos.Raw.IsValid (before ++ part ++ after)
      ⟨before.utf8ByteSize + part.utf8ByteSize⟩ := by
    rw [← String.utf8ByteSize_append]
    exact String.Pos.Raw.isValid_iff_exists_append.mpr ⟨before ++ part, after, rfl, rfl⟩
  rw [slice, dif_pos ⟨Nat.le_add_right _ _, hstart, hstop⟩]
  congr 1
  apply String.toByteArray_inj.mp
  rw [String.toByteArray_extract, String.toByteArray_append, String.toByteArray_append,
    ByteArray.append_assoc]
  -- the offsets count from the start of the part
  calc (before.toByteArray ++ (part.toByteArray ++ after.toByteArray)).extract
        (before.toByteArray.size + 0) (before.toByteArray.size + part.toByteArray.size)
      = (part.toByteArray ++ after.toByteArray).extract 0 part.toByteArray.size :=
        ByteArray.extract_append_size_add
    _ = part.toByteArray := ByteArray.extract_append_eq_left rfl

theorem slice_prefix (before after : String) :
    slice (before ++ after) 0 before.utf8ByteSize = some before := by
  simpa using slice_append "" before after

theorem slice_suffix (before after : String) :
    slice (before ++ after) before.utf8ByteSize (before ++ after).utf8ByteSize = some after := by
  simpa using slice_append before after ""

/-! ## The last occurrence of a character -/

/-- The offset of the last occurrence among the characters that start at an offset. -/
def rfindFrom (target : Char) (offset : Nat) : List Char → Option Nat
  | [] => none
  | char :: rest =>
      match rfindFrom target (offset + char.utf8Size) rest with
      | some found => some found
      | none => if char = target then some offset else none

/-- The byte offset of the last occurrence of a character. -/
def rfind (target : Char) (text : String) : Option Nat := rfindFrom target 0 text.toList

variable {target : Char} {offset : Nat} {chars : List Char}

theorem rfindFrom_eq_none (habsent : target ∉ chars) : rfindFrom target offset chars = none := by
  induction chars generalizing offset with
  | nil => rfl
  | cons char rest ih =>
      rw [List.mem_cons, not_or] at habsent
      rw [rfindFrom, ih habsent.2]
      exact if_neg (Ne.symm habsent.1)

/-- An occurrence after which there is none is the last one. -/
theorem rfindFrom_append (before : List Char) {after : List Char} (habsent : target ∉ after) :
    rfindFrom target offset (before ++ target :: after) =
      some (offset + (String.ofList before).utf8ByteSize) := by
  induction before generalizing offset with
  | nil =>
      rw [List.nil_append, rfindFrom, rfindFrom_eq_none habsent]
      exact if_pos rfl
  | cons char before ih =>
      rw [List.cons_append, rfindFrom, ih, String.ofList_cons, String.utf8ByteSize_append,
        String.utf8ByteSize_singleton, Nat.add_assoc]

theorem rfind_eq_none {text : String} (habsent : target ∉ text.toList) :
    rfind target text = none :=
  rfindFrom_eq_none habsent

theorem rfind_append (before : String) {after : String} (habsent : target ∉ after.toList) :
    rfind target (before ++ String.singleton target ++ after) = some before.utf8ByteSize := by
  have hchars : (before ++ String.singleton target ++ after).toList =
      before.toList ++ target :: after.toList := by simp
  rw [rfind, hchars, rfindFrom_append _ habsent, String.ofList_toList, Nat.zero_add]

/-- A text in which a character occurs is cut in two by its last occurrence. -/
theorem exists_append_of_mem {text : String} (hmem : target ∈ text.toList) :
    ∃ before after, text = before ++ String.singleton target ++ after ∧ target ∉ after.toList := by
  obtain ⟨after, before, hchars, habsent⟩ :=
    List.eq_append_cons_of_mem (List.mem_reverse.mpr hmem)
  have hchars : text.toList = before.reverse ++ target :: after.reverse := by
    rw [← List.reverse_reverse text.toList, hchars]
    simp
  have htext : text = String.ofList before.reverse ++ String.singleton target ++
      String.ofList after.reverse := by
    apply String.toList_inj.mp
    simpa using hchars
  exact ⟨_, _, htext, by simpa using habsent⟩

end Utf8
