/-
Tables with a primary key.

A table is a list of rows, and a row is put in place of the row with its key.  Then no two rows have the
same key, and the row under a key is the one that was put there last.

Main definitions:

* `KeyedTable.replace`, `KeyedTable.lookup` — a row is put in place, and looked up by its key.

Main results:

* `KeyedTable.lookup_replace` — **what is found after a row has been put in place**;
* `KeyedTable.nodup_replace` — the keys stay apart;
* `KeyedTable.exists_replace_iff` — which keys are there.
-/

import Mathlib.Data.List.Nodup

set_option relaxedAutoImplicit false
set_option autoImplicit false

namespace KeyedTable

variable {α κ : Type*} [DecidableEq κ] (key : α → κ)

/-- A row is put in place of the one with its key. -/
def replace (rows : List α) (row : α) : List α := rows.filter (fun r => key r ≠ key row) ++ [row]

/-- The row under a key. -/
def lookup (rows : List α) (k : κ) : Option α := rows.find? fun r => key r = k

/-- **What is found after a row has been put in place**: the row under its key, and the others as
before. -/
theorem lookup_replace (rows : List α) (row : α) (k : κ) :
    lookup key (replace key rows row) k = if key row = k then some row else lookup key rows k := by
  unfold lookup replace
  rw [List.find?_append]
  by_cases hk : key row = k
  · subst hk
    have hnone : (rows.filter fun r => key r ≠ key row).find? (fun r => key r = key row) = none := by
      refine List.find?_eq_none.2 ?_
      intro r hr
      simpa using (List.mem_filter.1 hr).2
    rw [if_pos rfl, hnone]
    simp
  · have hother : (rows.filter fun r => key r ≠ key row).find? (fun r => key r = k) =
        rows.find? fun r => key r = k := by
      rw [List.find?_filter]
      refine congrArg (List.find? · rows) ?_
      funext r
      by_cases hr : key r = k
      · simp [hr, Ne.symm hk]
      · simp [hr]
    rw [if_neg hk, hother]
    simp [hk]

/-- The keys stay apart. -/
theorem nodup_replace {rows : List α} (h : (rows.map key).Nodup) (row : α) :
    ((replace key rows row).map key).Nodup := by
  unfold replace
  rw [List.map_append, List.map_singleton]
  refine List.Nodup.append ?_ (List.nodup_singleton _) ?_
  · exact ((List.filter_sublist).map key).nodup h
  · intro k hk hlast
    obtain rfl := List.mem_singleton.1 hlast
    obtain ⟨r, hr, heq⟩ := List.mem_map.1 hk
    exact of_decide_eq_true (List.mem_filter.1 hr).2 heq

/-- Which keys are there after a row has been put in place. -/
theorem exists_replace_iff (rows : List α) (row : α) (k : κ) :
    (∃ r ∈ replace key rows row, key r = k) ↔ key row = k ∨ ∃ r ∈ rows, key r = k := by
  unfold replace
  constructor
  · rintro ⟨r, hr, rfl⟩
    rcases List.mem_append.1 hr with hmem | hlast
    · exact .inr ⟨r, List.mem_of_mem_filter hmem, rfl⟩
    · rw [List.mem_singleton.1 hlast]
      exact .inl rfl
  · rintro (rfl | ⟨r, hr, rfl⟩)
    · exact ⟨row, List.mem_append_right _ (List.mem_singleton_self row), rfl⟩
    · by_cases hkey : key r = key row
      · exact ⟨row, List.mem_append_right _ (List.mem_singleton_self row), hkey.symm⟩
      · exact ⟨r, List.mem_append_left _ (List.mem_filter.2 ⟨hr, decide_eq_true hkey⟩), rfl⟩

end KeyedTable
