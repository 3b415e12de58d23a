/-
Slices of texts at byte positions.

A text is sliced at a number of bytes, which must be the end of one of its characters; a slice at any
other position, or behind the end of the text, does not exist.

Main definitions:

* `Slices.split` — the two parts of a text at a byte position;
* `Slices.sliceTo`, `Slices.sliceFrom` — the text before the position, and behind it.

Main results:

* `Slices.split_eq_some_iff` — **what the parts are**;
* `Slices.isSome_split_iff` — they exist at the positions that are valid in the text;
* `Slices.split_of_ascii` — in a text of characters of one byte, every position is valid.
-/

import Mathlib.Data.String.Basic

set_option relaxedAutoImplicit false
set_option autoImplicit false

namespace Slices

variable {n : ℕ} {text pre post : List Char}

/-- **The two parts of a text at a byte position.** -/
def split : ℕ → List Char → Option (List Char × List Char)
  | 0, text => some ([], text)
  | _ + 1, [] => none
  | n + 1, c :: text =>
    if c.utf8Size ≤ n + 1 then
      (split (n + 1 - c.utf8Size) text).map fun (pre, post) => (c :: pre, post)
    else none

/-- **The first part has the bytes before the position**, and together they are the text. -/
theorem split_eq_some_iff : split n text = some (pre, post) ↔ text = pre ++ post ∧ String.utf8Len pre = n := by
  induction text generalizing n pre with
  | nil =>
      cases n with
      | zero =>
          rw [split]
          constructor
          · rintro ⟨⟩
            exact ⟨rfl, rfl⟩
          · rintro ⟨hnil, -⟩
            obtain ⟨rfl, rfl⟩ := List.nil_eq_append_iff.1 hnil
            rfl
      | succ n =>
          rw [split]
          refine iff_of_false nofun ?_
          rintro ⟨hnil, hlen⟩
          obtain ⟨rfl, rfl⟩ := List.nil_eq_append_iff.1 hnil
          cases hlen
  | cons c text ih =>
      have hpos := c.utf8Size_pos
      cases n with
      | zero =>
          rw [split]
          constructor
          · rintro ⟨⟩
            exact ⟨rfl, rfl⟩
          · rintro ⟨htext, hlen⟩
            cases pre with
            | nil => rw [htext, List.nil_append]
            | cons d pre =>
                have hpos' := d.utf8Size_pos
                rw [String.utf8Len_cons] at hlen
                omega
      | succ n =>
          rw [split]
          split_ifs with hle
          · rw [Option.map_eq_some_iff]
            constructor
            · rintro ⟨⟨pre', post'⟩, hsplit, ⟨⟩⟩
              obtain ⟨rfl, hlen⟩ := ih.1 hsplit
              refine ⟨rfl, ?_⟩
              rw [String.utf8Len_cons]
              omega
            · rintro ⟨htext, hlen⟩
              cases pre with
              | nil => cases hlen
              | cons d pre =>
                  obtain ⟨rfl, rfl⟩ := List.cons.inj htext
                  rw [String.utf8Len_cons] at hlen
                  exact ⟨(pre, post), ih.2 ⟨rfl, by omega⟩, rfl⟩
          · refine iff_of_false nofun ?_
            rintro ⟨htext, hlen⟩
            cases pre with
            | nil => cases hlen
            | cons d pre =>
                obtain ⟨rfl, -⟩ := List.cons.inj htext
                rw [String.utf8Len_cons] at hlen
                omega

/-- **The parts exist at the valid positions of the text.** -/
theorem isSome_split_iff (text : String) :
    (split n text.toList).isSome ↔ (⟨n⟩ : String.Pos.Raw).IsValid text := by
  rw [String.Pos.Raw.isValid_iff_exists_append, Option.isSome_iff_exists]
  constructor
  · rintro ⟨⟨pre, post⟩, hsplit⟩
    obtain ⟨htext, rfl⟩ := split_eq_some_iff.1 hsplit
    refine ⟨String.ofList pre, String.ofList post, ?_, (String.rawEndPos_ofList pre).symm⟩
    rw [← String.ofList_append, ← htext, String.ofList_toList]
  · rintro ⟨s₁, s₂, rfl, hlen⟩
    refine ⟨(s₁.toList, s₂.toList), split_eq_some_iff.2 ⟨String.toList_append, ?_⟩⟩
    rw [← String.utf8ByteSize_ofList, String.ofList_toList]
    exact (congrArg String.Pos.Raw.byteIdx hlen).symm

theorem utf8Len_of_ascii (h : ∀ c ∈ text, c.utf8Size = 1) : String.utf8Len text = text.length := by
  induction text with
  | nil => rfl
  | cons c text ih =>
      rw [List.forall_mem_cons] at h
      rw [String.utf8Len_cons, ih h.2, h.1, List.length_cons]

/-- **In a text of characters of one byte, every position is valid.** -/
theorem split_of_ascii (h : ∀ c ∈ text, c.utf8Size = 1) (hn : n ≤ text.length) :
    split n text = some (text.take n, text.drop n) := by
  refine split_eq_some_iff.2 ⟨(List.take_append_drop n text).symm, ?_⟩
  rw [utf8Len_of_ascii fun c hc => h c (List.mem_of_mem_take hc), List.length_take_of_le hn]

/-- The text before a position, `text[..n]`. -/
def sliceTo (text : String) (n : ℕ) : Option String :=
  (split n text.toList).map fun (pre, _) => String.ofList pre

/-- The text from a position on, `text[n..]`. -/
def sliceFrom (text : String) (n : ℕ) : Option String :=
  (split n text.toList).map fun (_, post) => String.ofList post

theorem isSome_sliceTo_iff {text : String} :
    (sliceTo text n).isSome ↔ (⟨n⟩ : String.Pos.Raw).IsValid text := by
  rw [sliceTo, Option.isSome_map, isSome_split_iff]

theorem isSome_sliceFrom_iff {text : String} :
    (sliceFrom text n).isSome ↔ (⟨n⟩ : String.Pos.Raw).IsValid text := by
  rw [sliceFrom, Option.isSome_map, isSome_split_iff]

end Slices
