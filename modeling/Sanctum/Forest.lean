/-
**Forests of derived values, and antichains in them.**

A one-way derivation organises its values into a forest: every derived value has the value it was
derived from as its parent, and nothing is derived from itself.  A holder of some nodes can compute
exactly their descendants, so a node stays out of reach as long as none of its ancestors is held.
The way to keep that up while values are used and replaced is to hold an *antichain*: nodes none of
which is an ancestor of another.  Deriving two different children of a held node and dropping the
node keeps the antichain, and so do moving and dropping nodes; a node that has been moved out of
the holder's hands is then never derivable again.

Main definitions:

* `Forest`, `Forest.Anc` — a forest, and its ancestor order;
* `Forest.Antichain` — a family of nodes, indexed by the places that hold them, none of which is an
  ancestor of another;
* `Forest.Frontier` — an antichain of descendants of one node.

Main results:

* `Forest.Anc.total`, `Forest.anc_child_iff` — the order;
* `Forest.Antichain.split`, `Forest.Antichain.drop`, `Forest.Antichain.move` — **the three ways of
  changing a family that keep it an antichain**;
* `Forest.Frontier.split`, `Forest.Frontier.drop`, `Forest.Frontier.move` — the same for an
  antichain below a node.
-/

import Mathlib

set_option relaxedAutoImplicit false
set_option autoImplicit false

/-- A forest: every node has at most one parent, and parents have smaller rank. -/
structure Forest (K : Type*) where
  parent : K → Option K
  rank : K → ℕ
  rank_lt : ∀ {a b : K}, parent b = some a → rank a < rank b

namespace Forest

variable {K ι : Type*} (F : Forest K)

/-! ### Ancestors -/

/-- `F.Anc a b`: the node `a` is `b` or an ancestor of it. -/
def Anc : K → K → Prop := Relation.ReflTransGen fun a b => F.parent b = some a

variable {F}

theorem Anc.refl (a : K) : F.Anc a a := Relation.ReflTransGen.refl

theorem Anc.trans {a b c : K} (h₁ : F.Anc a b) (h₂ : F.Anc b c) : F.Anc a c :=
  Relation.ReflTransGen.trans h₁ h₂

theorem anc_child {a k c : K} (hc : F.parent c = some k) (h : F.Anc a k) : F.Anc a c :=
  Relation.ReflTransGen.tail h hc

/-- The ancestors of a child are the child itself and the ancestors of its parent. -/
theorem anc_child_iff {a k c : K} (hc : F.parent c = some k) : F.Anc a c ↔ a = c ∨ F.Anc a k := by
  constructor
  · intro h
    rcases Relation.ReflTransGen.cases_tail h with h | ⟨p, hp, hpc⟩
    · exact Or.inl h.symm
    · rw [hc, Option.some_inj] at hpc
      exact Or.inr (hpc ▸ hp)
  · rintro (rfl | h)
    · exact Anc.refl a
    · exact anc_child hc h

/-- A root is its own only ancestor. -/
theorem anc_root_iff {a r : K} (hr : F.parent r = none) : F.Anc a r ↔ a = r := by
  constructor
  · intro h
    rcases Relation.ReflTransGen.cases_tail h with h | ⟨p, _, hp⟩
    · exact h.symm
    · rw [hr] at hp
      exact absurd hp (by simp)
  · rintro rfl
    exact Anc.refl a

theorem Anc.rank_le {a b : K} (h : F.Anc a b) : F.rank a ≤ F.rank b := by
  induction h with
  | refl => exact le_rfl
  | tail _ hp ih => exact ih.trans (F.rank_lt hp).le

/-- A child is not an ancestor of its parent. -/
theorem not_anc_parent {k c : K} (hc : F.parent c = some k) : ¬ F.Anc c k := fun h =>
  absurd h.rank_le (F.rank_lt hc).not_ge

/-- The ancestors of a node are linearly ordered. -/
theorem Anc.total {a b c : K} (ha : F.Anc a c) (hb : F.Anc b c) : F.Anc a b ∨ F.Anc b a := by
  -- induction on the path from `a` down to `c`
  induction ha with
  | refl => exact Or.inr hb
  | @tail p c hap hpc ih =>
      rcases (anc_child_iff hpc).1 hb with rfl | hb
      · exact Or.inl (anc_child hpc hap)
      · exact ih hb

/-- A node descends from one root only. -/
theorem Anc.root_unique {a b c : K} (ha : F.parent a = none) (hb : F.parent b = none)
    (hac : F.Anc a c) (hbc : F.Anc b c) : a = b := by
  rcases hac.total hbc with h | h
  · exact (anc_root_iff hb).1 h
  · exact ((anc_root_iff ha).1 h).symm

/-! ### Antichains -/

variable (F) in
/-- **A family of nodes, none of which is an ancestor of another.**  The index `ι` names the places
where nodes may be held. -/
def Antichain (f : ι → Option K) : Prop :=
  ∀ i j a b, f i = some a → f j = some b → i ≠ j → ¬ F.Anc a b

variable {f : ι → Option K}

theorem Antichain.not_anc (hf : F.Antichain f) {i j : ι} {a b : K} (ha : f i = some a)
    (hb : f j = some b) (hij : i ≠ j) : ¬ F.Anc a b := hf i j a b ha hb hij

/-- Different places hold different nodes. -/
theorem Antichain.injective (hf : F.Antichain f) {i j : ι} {a : K} (hi : f i = some a)
    (hj : f j = some a) : i = j := by
  by_contra hij
  exact hf i j a a hi hj hij (Anc.refl a)

/-- A single node is an antichain. -/
theorem antichain_singleton (i₀ : ι) (hf : ∀ i, i ≠ i₀ → f i = none) : F.Antichain f := by
  intro i j a b ha hb hij
  have hi : i = i₀ := by
    by_contra h
    rw [hf i h] at ha
    exact absurd ha (by simp)
  have hj : j = i₀ := by
    by_contra h
    rw [hf j h] at hb
    exact absurd hb (by simp)
  exact absurd (hi.trans hj.symm) hij

section

variable [DecidableEq ι]

/-- Dropping what a place holds. -/
theorem Antichain.drop (hf : F.Antichain f) (i₀ : ι) :
    F.Antichain (Function.update f i₀ none) := by
  have hkeep : ∀ i a, Function.update f i₀ none i = some a → f i = some a := by
    intro i a h
    rw [Function.update_apply] at h
    split at h
    · exact absurd h (by simp)
    · exact h
  intro i j a b ha hb hij
  exact hf i j a b (hkeep i a ha) (hkeep j b hb) hij

/-- What a family holds after a move was held before, at a place that determines the new one. -/
theorem move_cases {i₀ j₀ i : ι} {k a : K}
    (h : Function.update (Function.update f i₀ none) j₀ (some k) i = some a) :
    (i = j₀ ∧ a = k) ∨ (i ≠ j₀ ∧ i ≠ i₀ ∧ f i = some a) := by
  by_cases hij : i = j₀
  · subst hij
    rw [Function.update_self, Option.some_inj] at h
    exact Or.inl ⟨rfl, h.symm⟩
  · rw [Function.update_of_ne hij] at h
    by_cases hi : i = i₀
    · subst hi
      rw [Function.update_self] at h
      exact absurd h (by simp)
    · rw [Function.update_of_ne hi] at h
      exact Or.inr ⟨hij, hi, h⟩

/-- Moving what a place holds to another place, whatever that place held before. -/
theorem Antichain.move (hf : F.Antichain f) (i₀ j₀ : ι) {k : K} (hk : f i₀ = some k) :
    F.Antichain (Function.update (Function.update f i₀ none) j₀ (some k)) := by
  intro i j a b ha hb hij
  rcases move_cases ha with ⟨rfl, rfl⟩ | ⟨-, hi, ha'⟩ <;>
    rcases move_cases hb with ⟨rfl, rfl⟩ | ⟨-, hj, hb'⟩
  · exact absurd rfl hij
  · exact hf.not_anc hk hb' (Ne.symm hj)
  · exact hf.not_anc ha' hk hi
  · exact hf.not_anc ha' hb' hij

/-- What a family holds after a split: the two children, and nodes held before. -/
theorem split_cases {i₀ i₁ i₂ i : ι} {c₁ c₂ a : K}
    (h : Function.update (Function.update (Function.update f i₀ none) i₁ (some c₁)) i₂
      (some c₂) i = some a) :
    (i = i₂ ∧ a = c₂) ∨ (i = i₁ ∧ a = c₁) ∨ (i ≠ i₀ ∧ f i = some a) := by
  by_cases hi₂ : i = i₂
  · subst hi₂
    rw [Function.update_self, Option.some_inj] at h
    exact Or.inl ⟨rfl, h.symm⟩
  · rw [Function.update_of_ne hi₂] at h
    rcases move_cases h with ⟨rfl, rfl⟩ | ⟨-, hi₀, hi⟩
    · exact Or.inr (Or.inl ⟨rfl, rfl⟩)
    · exact Or.inr (Or.inr ⟨hi₀, hi⟩)

/-- **Replacing a node by two of its children.**  The node at `i₀` is derived from twice, the
children are put at `i₁` and `i₂`, and the node is dropped unless its own place is one of these. -/
theorem Antichain.split (hf : F.Antichain f) (i₀ i₁ i₂ : ι) {k c₁ c₂ : K} (hk : f i₀ = some k)
    (h₁ : F.parent c₁ = some k) (h₂ : F.parent c₂ = some k) (hne : c₁ ≠ c₂) :
    F.Antichain (Function.update (Function.update (Function.update f i₀ none) i₁ (some c₁)) i₂
      (some c₂)) := by
  -- the two children are not related
  have hsib : ∀ {c d : K}, F.parent c = some k → F.parent d = some k → c ≠ d → ¬ F.Anc c d := by
    intro c d hc hd hcd h
    rcases (anc_child_iff hd).1 h with h | h
    · exact hcd h
    · exact not_anc_parent hc h
  -- a child is related to no other node of the family, because the parent is not
  have hchild : ∀ {c b : K} {j : ι}, F.parent c = some k → f j = some b → j ≠ i₀ →
      ¬ F.Anc c b ∧ ¬ F.Anc b c := by
    intro c b j hc hb hj
    refine ⟨fun h => hf.not_anc hk hb (Ne.symm hj) ((anc_child hc (Anc.refl k)).trans h), ?_⟩
    intro h
    rcases (anc_child_iff hc).1 h with rfl | h
    · exact hf.not_anc hk hb (Ne.symm hj) (anc_child hc (Anc.refl k))
    · exact hf.not_anc hb hk hj h
  intro i j a b ha hb hij
  rcases split_cases ha with ⟨rfl, rfl⟩ | ⟨rfl, rfl⟩ | ⟨hi₀, ha'⟩ <;>
    rcases split_cases hb with ⟨rfl, rfl⟩ | ⟨rfl, rfl⟩ | ⟨hj₀, hb'⟩
  · exact absurd rfl hij
  · exact hsib h₂ h₁ (Ne.symm hne)
  · exact (hchild h₂ hb' hj₀).1
  · exact hsib h₁ h₂ hne
  · exact absurd rfl hij
  · exact (hchild h₁ hb' hj₀).1
  · exact (hchild h₂ ha' hi₀).2
  · exact (hchild h₁ ha' hi₀).2
  · exact hf.not_anc ha' hb' hij

/-! ### Frontiers -/

variable (F) in
/-- **A frontier below a node**: an antichain of descendants of it. -/
structure Frontier (r : K) (f : ι → Option K) : Prop where
  antichain : F.Antichain f
  below : ∀ i a, f i = some a → F.Anc r a

variable {r : K}

theorem Frontier.drop (hf : F.Frontier r f) (i₀ : ι) :
    F.Frontier r (Function.update f i₀ none) where
  antichain := hf.antichain.drop i₀
  below := by
    intro i a h
    rw [Function.update_apply] at h
    split at h
    · exact absurd h (by simp)
    · exact hf.below i a h

theorem Frontier.move (hf : F.Frontier r f) (i₀ j₀ : ι) {k : K} (hk : f i₀ = some k) :
    F.Frontier r (Function.update (Function.update f i₀ none) j₀ (some k)) where
  antichain := hf.antichain.move i₀ j₀ hk
  below := by
    intro i a h
    rcases move_cases h with ⟨rfl, rfl⟩ | ⟨-, -, ha⟩
    · exact hf.below i₀ _ hk
    · exact hf.below i a ha

theorem Frontier.split (hf : F.Frontier r f) (i₀ i₁ i₂ : ι) {k c₁ c₂ : K} (hk : f i₀ = some k)
    (h₁ : F.parent c₁ = some k) (h₂ : F.parent c₂ = some k) (hne : c₁ ≠ c₂) :
    F.Frontier r (Function.update (Function.update (Function.update f i₀ none) i₁ (some c₁)) i₂
      (some c₂)) where
  antichain := hf.antichain.split i₀ i₁ i₂ hk h₁ h₂ hne
  below := by
    intro i a h
    rcases split_cases h with ⟨rfl, rfl⟩ | ⟨rfl, rfl⟩ | ⟨-, ha⟩
    · exact anc_child h₂ (hf.below i₀ k hk)
    · exact anc_child h₁ (hf.below i₀ k hk)
    · exact hf.below i a ha

end

end Forest
