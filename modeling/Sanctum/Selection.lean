/-
Keeping the best of a stream.

Elements arrive one after the other, and after each arrival only the best `n` are kept.  What is kept in
the end is made of the best `n` of all that have arrived, so an element that was dropped early is not
missed later.  How ties are broken does not matter for that; it does matter for the question when the
elements kept are those that have arrived last.  And if one list holds the elements of several keys, and
of each key only the last `n` are kept, then the keys do not get in each other's way.

Main definitions:

* `Selection.IsTop` — a list is made of the best elements of another one;
* `Selection.newest` — the last elements of a list;
* `Selection.enqueue` — an element comes into a list, and the first one of its key makes way.

Main results:

* `Selection.IsTop.push` — **the best of what was kept and of a new element are the best of all**;
* `Selection.isTop_filter` — the first elements of a sorted list are the best;
* `Selection.IsTop.eq_newest`, `Selection.IsTop.of_eq_newest` — the elements kept are the newest when,
  and for a strict order only when, each of the newest is better than each of the others;
* `Selection.filter_foldl_enqueue` — **each key keeps its newest elements**.
-/

import Mathlib.Data.List.Induction
import Mathlib.Data.List.Nodup
import Mathlib.Data.List.Perm.Basic
import Mathlib.Data.List.Pairwise
import Mathlib.Order.Basic

set_option relaxedAutoImplicit false
set_option autoImplicit false

namespace Selection

variable {α : Type*} {r : α → α → Prop} {n : ℕ} {all kept kept' : List α}

/-- **`kept` is made of the best `n` elements of `all`**, where `r a b` says that `a` is as good as
`b`. -/
structure IsTop (r : α → α → Prop) (n : ℕ) (all kept : List α) : Prop where
  sublist : kept.Sublist all
  length : kept.length = min n all.length
  best : ∀ a ∈ kept, ∀ b ∈ all, b ∉ kept → r a b

/-- The last `n` elements of a list. -/
def newest (n : ℕ) (all : List α) : List α := all.drop (all.length - n)

theorem length_newest (n : ℕ) (all : List α) : (newest n all).length = min n all.length := by
  rw [newest, List.length_drop]
  omega

theorem newest_sublist (n : ℕ) (all : List α) : (newest n all).Sublist all := List.drop_sublist _ _

@[simp] theorem newest_nil (n : ℕ) : newest n ([] : List α) = [] := by
  rw [newest, List.drop_nil]

theorem newest_map {β : Type*} (f : α → β) (n : ℕ) (all : List α) :
    newest n (all.map f) = (newest n all).map f := by
  rw [newest, newest, List.length_map, List.map_drop]

/-- A new element pushes the oldest one out when there are enough of them. -/
theorem newest_append_singleton (hn : 0 < n) (all : List α) (x : α) :
    newest n (all ++ [x]) =
      if (newest n all).length < n then newest n all ++ [x] else (newest n all).drop 1 ++ [x] := by
  have hdrop : ∀ k ≤ all.length, (all ++ [x]).drop k = all.drop k ++ [x] := fun k hk =>
    List.drop_append_of_le_length hk
  rw [length_newest]
  unfold newest
  rw [List.length_append, List.length_singleton, hdrop _ (by omega)]
  split
  · next h =>
      have hsub : all.length + 1 - n = all.length - n := by omega
      rw [hsub]
  · next h =>
      have hsub : all.length + 1 - n = all.length - n + 1 := by omega
      rw [hsub, List.drop_drop]

/-- Of two lists without duplicates and of one length, neither is a proper part of the other. -/
theorem exists_not_mem (hkept : kept.Nodup) (hlength : kept'.length ≤ kept.length) {x : α}
    (hx : x ∈ kept') (hx' : x ∉ kept) : ∃ d ∈ kept, d ∉ kept' := by
  by_contra hall
  have hsub : x :: kept ⊆ kept' := by
    refine List.cons_subset.2 ⟨hx, ?_⟩
    intro d hd
    by_contra hd'
    exact hall ⟨d, hd, hd'⟩
  have hle := (List.subperm_of_subset (List.nodup_cons.2 ⟨hx', hkept⟩) hsub).length_le
  rw [List.length_cons] at hle
  omega

namespace IsTop

theorem nil (r : α → α → Prop) (n : ℕ) : IsTop r n [] [] where
  sublist := List.Sublist.slnil
  length := (Nat.min_zero n).symm
  best _ h := absurd h List.not_mem_nil

/-- **The best of what was kept and of a new element are the best of all that has arrived.** -/
theorem push {x : α} (htrans : ∀ a b c, r a b → r b c → r a c) (h : IsTop r n all kept)
    (hx : IsTop r n (kept ++ [x]) kept') (hnodup : (all ++ [x]).Nodup) :
    IsTop r n (all ++ [x]) kept' := by
  have hall : all.Nodup := hnodup.of_append_left
  have hxall : x ∉ all := fun hmem => List.disjoint_of_nodup_append hnodup hmem (List.mem_singleton_self x)
  have hlength := hx.length
  rw [List.length_append, List.length_singleton, h.length] at hlength
  refine ⟨hx.sublist.trans (h.sublist.append_right [x]), ?_, ?_⟩
  · rw [hlength, List.length_append, List.length_singleton]
    omega
  · intro a ha b hb hb'
    by_cases hbx : b ∈ kept ++ [x]
    · exact hx.best a ha b hbx hb'
    · -- The element `b` was dropped before, so there were `n` elements when the new one came.
      obtain ⟨hbkept, hbx⟩ := not_or.1 (mt List.mem_append.2 hbx)
      have hball : b ∈ all := (List.mem_append.1 hb).resolve_right hbx
      have hfull : n ≤ kept.length := by
        by_contra hlt
        have hlength' : kept.length = all.length := by
          have hkept := h.length
          omega
        rw [h.sublist.eq_of_length hlength'] at hbkept
        exact hbkept hball
      rcases List.mem_append.1 (hx.sublist.subset ha) with hakept | hax
      · exact h.best a hakept b hball hbkept
      · obtain rfl := List.mem_singleton.1 hax
        have hakept : a ∉ kept := fun hmem => hxall (h.sublist.subset hmem)
        obtain ⟨d, hd, hd'⟩ := exists_not_mem (h.sublist.nodup hall) (by omega) ha hakept
        exact htrans a d b (hx.best a ha d (List.mem_append_left _ hd) hd')
          (h.best d hd b hball hbkept)

end IsTop

/-- The first elements of a sorted list are the best, in whatever order they are kept. -/
theorem isTop_filter [DecidableEq α] {sorted : List α} (hperm : sorted.Perm all)
    (hsorted : sorted.Pairwise r) (hnodup : all.Nodup) :
    IsTop r n all (all.filter fun a => a ∈ sorted.take n) where
  sublist := List.filter_sublist
  length := by
    have hnodup' : (sorted.take n).Nodup := (List.take_sublist n sorted).nodup (hperm.nodup_iff.2 hnodup)
    have hkept : (all.filter fun a => a ∈ sorted.take n).Perm (sorted.take n) := by
      refine (List.perm_ext_iff_of_nodup (hnodup.filter _) hnodup').2 ?_
      intro a
      rw [List.mem_filter, decide_eq_true_iff, and_iff_right_iff_imp]
      exact fun ha => hperm.subset (List.mem_of_mem_take ha)
    rw [hkept.length_eq, List.length_take, hperm.length_eq]
  best := by
    intro a ha b hb hb'
    have ha := of_decide_eq_true (List.mem_filter.1 ha).2
    have hb'' : b ∈ sorted.drop n := by
      have hbsorted := hperm.symm.subset hb
      rw [← List.take_append_drop n sorted] at hbsorted
      refine (List.mem_append.1 hbsorted).resolve_left ?_
      intro hbtake
      exact hb' (List.mem_filter.2 ⟨hb, decide_eq_true hbtake⟩)
    rw [← List.take_append_drop n sorted, List.pairwise_append] at hsorted
    exact hsorted.2.2 a ha b hb''

namespace IsTop

/-- The elements kept are the newest, when none of the others is as good as one of the newest. -/
theorem eq_newest (h : IsTop r n all kept) (hnodup : all.Nodup)
    (hbest : ∀ a ∈ newest n all, ∀ b ∈ all.take (all.length - n), ¬ r b a) : kept = newest n all := by
  have hdisjoint : ∀ b ∈ kept, b ∉ all.take (all.length - n) := by
    intro b hb hb'
    have hbnewest : b ∉ newest n all := by
      intro hmem
      rw [← List.take_append_drop (all.length - n) all] at hnodup
      exact List.disjoint_of_nodup_append hnodup hb' hmem
    obtain ⟨a, ha, ha'⟩ := exists_not_mem ((newest_sublist n all).nodup hnodup)
      (Nat.le_of_eq (h.length.trans (length_newest n all).symm)) hb hbnewest
    exact hbest a ha b hb' (h.best b hb a ((newest_sublist n all).subset ha) ha')
  have hsublist := h.sublist
  rw [← List.take_append_drop (all.length - n) all, List.sublist_append_iff] at hsublist
  obtain ⟨before, after, rfl, hbefore, hafter⟩ := hsublist
  cases before with
  | nil =>
      refine hafter.eq_of_length ?_
      rw [← List.nil_append after, h.length, ← length_newest]
      rfl
  | cons b before =>
      exact absurd (hbefore.subset List.mem_cons_self) (hdisjoint b List.mem_cons_self)

/-- The newest elements are as good as the others, when they are the ones that are kept. -/
theorem of_eq_newest (h : IsTop r n all (newest n all)) (hnodup : all.Nodup) :
    ∀ a ∈ newest n all, ∀ b ∈ all.take (all.length - n), r a b := by
  intro a ha b hb
  refine h.best a ha b (List.mem_of_mem_take hb) ?_
  intro hmem
  rw [← List.take_append_drop (all.length - n) all] at hnodup
  exact List.disjoint_of_nodup_append hnodup hb hmem

end IsTop

/-! ### One list for several queues -/

section Queues

variable {κ : Type*} [DecidableEq κ] (key : α → κ)

/-- The first element of a key is taken out. -/
def evict (k : κ) (items : List α) : List α := items.eraseP fun a => key a = k

/-- An element comes in, and the first one of its key makes way if there are `n` of them already. -/
def enqueue (n : ℕ) (items : List α) (x : α) : List α :=
  (if n ≤ (items.filter fun a => key a = key x).length then evict key (key x) items else items) ++ [x]

theorem evict_eq (k : κ) (items : List α) :
    evict key k items =
      match items.findIdx? fun a => key a = k with
      | some pos => items.eraseIdx pos
      | none => items := by
  unfold evict
  rw [List.eraseP_eq_eraseIdx]
  cases items.findIdx? fun a => key a = k with
  | none => rfl
  | some pos => rfl

/-- The first element is taken out of the queue of its key. -/
theorem filter_evict_self (k : κ) (items : List α) :
    (evict key k items).filter (fun a => key a = k) = (items.filter fun a => key a = k).drop 1 := by
  induction items with
  | nil => rfl
  | cons a items ih =>
      unfold evict at ih ⊢
      by_cases ha : key a = k
      · simp [ha]
      · simp [ha, ih]

/-- The other queues stay as they are. -/
theorem filter_evict_of_ne {k k' : κ} (hne : k' ≠ k) (items : List α) :
    (evict key k items).filter (fun a => key a = k') = items.filter fun a => key a = k' := by
  induction items with
  | nil => rfl
  | cons a items ih =>
      unfold evict at ih ⊢
      by_cases ha : key a = k
      · simp [ha, Ne.symm hne]
      · simp [ha, List.filter_cons, ih]

/-- **One element comes into the queue of its key.** -/
theorem filter_enqueue (n : ℕ) (items : List α) (x : α) (k : κ) :
    (enqueue key n items x).filter (fun a => key a = k) =
      if key x = k then
        (if n ≤ (items.filter fun a => key a = k).length then (items.filter fun a => key a = k).drop 1
          else items.filter fun a => key a = k) ++ [x]
      else items.filter fun a => key a = k := by
  unfold enqueue
  rw [List.filter_append]
  by_cases hx : key x = k
  · subst hx
    have hlast : [x].filter (fun a => key a = key x) = [x] := by simp
    rw [if_pos rfl, hlast]
    split
    · rw [filter_evict_self]
    · rfl
  · have hlast : [x].filter (fun a => key a = k) = [] := by simp [hx]
    rw [if_neg hx, hlast, List.append_nil]
    split
    · exact filter_evict_of_ne key (Ne.symm hx) items
    · rfl

/-- **Each queue keeps its newest elements**, whatever comes into the others; the last one that has come
in is there even if there is no room for any. -/
theorem filter_foldl_enqueue (n : ℕ) (arrivals : List α) (k : κ) :
    (arrivals.foldl (enqueue key n) []).filter (fun a => key a = k) =
      newest (max n 1) (arrivals.filter fun a => key a = k) := by
  induction arrivals using List.reverseRecOn with
  | nil =>
      rw [List.foldl_nil, List.filter_nil, newest_nil]
  | append_singleton arrivals x ih =>
      rw [List.foldl_append, List.foldl_cons, List.foldl_nil, filter_enqueue, ih, List.filter_append]
      by_cases hx : key x = k
      · have hlast : [x].filter (fun a => key a = k) = [x] := by simp [hx]
        rw [if_pos hx, hlast, newest_append_singleton (by omega)]
        generalize newest (max n 1) (arrivals.filter fun a => key a = k) = kept
        by_cases hfull : n ≤ kept.length
        · rw [if_pos hfull]
          split
          · next hlt =>
              -- only for `n = 0`, and then nothing was kept
              obtain rfl : kept = [] := List.eq_nil_of_length_eq_zero (by omega)
              rfl
          · rfl
        · rw [if_neg hfull, if_pos (by omega)]
      · have hlast : [x].filter (fun a => key a = k) = [] := by simp [hx]
        rw [if_neg hx, hlast, List.append_nil]

end Queues

end Selection
