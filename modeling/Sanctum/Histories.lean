/-
What a history tells.

The meaning of an event often depends on the events before it: a key that enters a line enters what has been
typed until then.  What all events of a history tell is then collected in order, each with the events before
it.

Main definitions:

* `Histories.collect` — **what the events tell**;
* `Histories.since` — the events since the last one of a kind.

Main results:

* `Histories.collect_append_singleton`, `Histories.since_append_singleton` — one more event;
* `Histories.of_mem_collect` — where it is told;
* `Histories.filterMap_collect` — what is made of what they tell;
* `Histories.mem_since_or`, `Histories.sublist_of_mem_since` — what comes before and after an event of a kind.
-/

import Mathlib.Data.List.Basic
import Mathlib.Data.List.Induction
import Mathlib.Data.List.TakeWhile

set_option relaxedAutoImplicit false
set_option autoImplicit false

namespace Histories

variable {α β γ : Type}

/-- **What the events of a history tell**, each with the events before it. -/
def collect (tells : List α → α → Option β) (history : List α) : List β :=
  (List.range history.length).filterMap fun i => history[i]?.bind (tells (history.take i))

/-- The events since the last one of a kind. -/
def since (p : α → Bool) (history : List α) : List α := (history.reverse.takeWhile fun a => !p a).reverse

variable {tells : List α → α → Option β}

@[simp] theorem collect_nil : collect tells [] = [] := rfl

/-- One more event. -/
theorem collect_append_singleton (history : List α) (a : α) :
    collect tells (history ++ [a]) = collect tells history ++ (tells history a).toList := by
  unfold collect
  rw [List.length_append, List.length_singleton, List.range_succ, List.filterMap_append]
  congr 1
  · refine List.filterMap_congr ?_
    intro i hi
    have hlt : i < history.length := List.mem_range.1 hi
    rw [List.getElem?_append_left hlt, List.take_append_of_le_length (Nat.le_of_lt hlt)]
  · rw [List.filterMap_cons, List.getElem?_concat_length, List.take_left, Option.bind_some]
    cases tells history a with
    | none => rfl
    | some b => rfl

/-- What is told is told of an event, after the events before it. -/
theorem of_mem_collect {history : List α} {b : β} (h : b ∈ collect tells history) :
    ∃ i a, history[i]? = some a ∧ tells (history.take i) a = some b := by
  unfold collect at h
  obtain ⟨i, -, htells⟩ := List.mem_filterMap.1 h
  obtain ⟨a, ha, hb⟩ := Option.bind_eq_some_iff.1 htells
  exact ⟨i, a, ha, hb⟩

/-- What is made of what the events tell. -/
theorem filterMap_collect (f : β → Option γ) (history : List α) :
    (collect tells history).filterMap f = collect (fun before a => (tells before a).bind f) history := by
  induction history using List.reverseRecOn with
  | nil => rfl
  | append_singleton history a ih =>
      rw [collect_append_singleton, collect_append_singleton, List.filterMap_append, ih]
      cases tells history a with
      | none => rfl
      | some b =>
          rw [Option.toList_some, Option.bind_some, List.filterMap_cons]
          cases f b with
          | none => rfl
          | some c => rfl

@[simp] theorem since_nil (p : α → Bool) : since p [] = [] := rfl

/-- One more event: nothing since then if it is of the kind, and else one more. -/
theorem since_append_singleton (p : α → Bool) (history : List α) (a : α) :
    since p (history ++ [a]) = if p a then [] else since p history ++ [a] := by
  unfold since
  rw [List.reverse_append, List.reverse_singleton, List.singleton_append, List.takeWhile_cons]
  cases p a with
  | true => rfl
  | false => simp

/-- What is picked from a history ends with its last event, or is picked from the others. -/
theorem sublist_concat {l history : List α} {a b : α} (h : (l ++ [b]).Sublist (history ++ [a])) :
    (l ++ [b]).Sublist history ∨ l.Sublist history ∧ b = a := by
  rw [← List.reverse_sublist, List.reverse_concat, List.reverse_concat] at h
  cases h with
  | cons _ hrest =>
      refine Or.inl (List.reverse_sublist.1 ?_)
      rwa [List.reverse_concat]
  | cons_cons _ hrest => exact Or.inr ⟨List.reverse_sublist.1 hrest, rfl⟩

/-- Only events that are not of the kind have come since the last one that is. -/
theorem eq_false_of_mem_since {p : α → Bool} {history : List α} {a : α} (h : a ∈ since p history) :
    p a = false := by
  unfold since at h
  rw [List.mem_reverse] at h
  simpa using List.mem_takeWhile_imp h

/-- The events since the last one of a kind are the end of the history. -/
theorem since_suffix (p : α → Bool) (history : List α) : since p history <:+ history := by
  unfold since
  have h := (List.takeWhile_prefix (fun a => !p a) (l := history.reverse)).reverse
  rwa [List.reverse_reverse] at h

/-- An event has come since the last one of a kind, or one of the kind has come after it. -/
theorem mem_since_or {p : α → Bool} {history : List α} {a : α} (h : a ∈ history) (ha : p a = false) :
    a ∈ since p history ∨ ∃ b, p b = true ∧ [a, b].Sublist history := by
  induction history using List.reverseRecOn with
  | nil => cases h
  | append_singleton history e ih =>
      rw [since_append_singleton]
      cases he : p e with
      | true =>
          -- nothing has come since `e`, which is of the kind itself and comes after `a`
          have hne : a ≠ e := by
            rintro rfl
            cases ha.symm.trans he
          have hmem : a ∈ history :=
            (List.mem_append.1 h).resolve_right fun h => hne (List.mem_singleton.1 h)
          exact Or.inr ⟨e, he, (List.singleton_sublist.2 hmem).append (List.Sublist.refl [e])⟩
      | false =>
          rw [if_neg Bool.false_ne_true]
          rcases List.mem_append.1 h with hmem | hmem
          · rcases ih hmem with hsince | ⟨b, hb, hsub⟩
            · exact Or.inl (List.mem_append_left _ hsince)
            · exact Or.inr ⟨b, hb, hsub.trans (List.sublist_append_left history [e])⟩
          · exact Or.inl (List.mem_append_right _ hmem)

/-- An event that has come since the last one of a kind has come after any pair that ends with one. -/
theorem sublist_of_mem_since {p : α → Bool} {history : List α} {a b x : α} (h : a ∈ since p history)
    (hb : p b = true) (hsub : [x, b].Sublist history) : [x, b, a].Sublist history := by
  obtain ⟨before, hhistory⟩ := since_suffix p history
  rw [← hhistory] at hsub ⊢
  obtain ⟨l₁, l₂, hsplit, h₁, h₂⟩ := List.sublist_append_iff.1 hsub
  -- no part of the pair reaches into the end, since its second event is of the kind
  have hlast : l₂ = [] := by
    rcases List.eq_nil_or_concat' l₂ with rfl | ⟨l, c, rfl⟩
    · rfl
    · rw [← List.append_assoc] at hsplit
      have hconcat : [x] ++ [b] = l₁ ++ l ++ [c] := hsplit
      obtain ⟨-, hc⟩ := List.append_inj' hconcat rfl
      obtain rfl := List.singleton_inj.1 hc
      have hmem : b ∈ since p history := h₂.subset (List.mem_append_right _ (List.mem_singleton_self b))
      cases hb.symm.trans (eq_false_of_mem_since hmem)
  rw [hlast, List.append_nil] at hsplit
  exact (hsplit ▸ h₁ : [x, b].Sublist before).append (List.singleton_sublist.2 h)

end Histories
