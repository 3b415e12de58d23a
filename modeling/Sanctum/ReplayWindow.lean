/-
**Sliding replay windows.**

A receiver that must not accept a number twice, of which arbitrarily many may arrive, remembers the
largest number it has accepted and one bit for each of the `w` numbers below it.  A number above
the top is accepted and shifts the bits, a number within the window is accepted when its bit is not
set, and a number below the window is refused.  The window then decides exactly the membership in
the set of accepted numbers, except for those that have fallen out of it.

Main definitions:

* `ReplayWindow`, `ReplayWindow.accept` — the window and its one operation;
* `ReplayWindow.Tracks` — **the window represents a set of accepted numbers**;
* `ReplayWindow.Seen` — the window has been shown a set of numbers, accepted or not.

Main results:

* `ReplayWindow.Tracks.accept_isSome_iff` — which numbers are accepted;
* `ReplayWindow.Tracks.of_accept` — the window goes on to represent the accepted numbers;
* `ReplayWindow.Seen.accept_isSome_iff` — which numbers are accepted after those that were shown.
-/

import Mathlib

set_option relaxedAutoImplicit false
set_option autoImplicit false

/-- A replay window of width `w`: bit `i` stands for the number `top - i`. -/
structure ReplayWindow (w : ℕ) where
  /-- The largest number accepted so far, or 0. -/
  top : ℕ
  bits : BitVec w

namespace ReplayWindow

variable {w : ℕ}

/-- The window before any number has been accepted. -/
def empty (w : ℕ) : ReplayWindow w where
  top := 0
  bits := 0

/-- Admit the number `n`, if the window allows it. -/
def accept (W : ReplayWindow w) (n : ℕ) : Option (ReplayWindow w) :=
  if W.top < n then some { top := n, bits := W.bits <<< (n - W.top) ||| 1#w }
  else if w ≤ W.top - n then none
  else if W.bits.getLsbD (W.top - n) then none
  else some { W with bits := W.bits ||| BitVec.twoPow w (W.top - n) }

/-- **The window represents the set `S` of positive numbers**: its top is the largest of them, and
its bits say which of the numbers in its range are among them. -/
structure Tracks (W : ReplayWindow w) (S : Set ℕ) : Prop where
  pos : ∀ n ∈ S, 0 < n
  top : S = ∅ ∧ W.top = 0 ∨ IsGreatest S W.top
  bit : ∀ i < w, i ≤ W.top → (W.bits.getLsbD i = true ↔ W.top - i ∈ S)

theorem tracks_empty : (empty w).Tracks ∅ where
  pos := fun _ h => absurd h (Set.notMem_empty _)
  top := Or.inl ⟨rfl, rfl⟩
  bit := fun i _ _ => by simp [empty]

namespace Tracks

variable {W W' : ReplayWindow w} {S : Set ℕ} {n : ℕ}

theorem le_top (h : W.Tracks S) (hn : n ∈ S) : n ≤ W.top := by
  rcases h.top with ⟨rfl, -⟩ | hmax
  · exact absurd hn (Set.notMem_empty n)
  · exact hmax.2 hn

/-- The lower end of the window. -/
theorem top_lt_iff (h : W.Tracks S) (hn : 0 < n) (hw : 0 < w) :
    W.top < n + w ↔ ∀ M, IsGreatest S M → M < n + w := by
  rcases h.top with ⟨rfl, htop⟩ | hmax
  · constructor
    · intro _ M hM
      exact absurd hM.1 (Set.notMem_empty M)
    · intro _
      omega
  · constructor
    · intro hlt M hM
      rwa [hM.unique hmax]
    · intro hall
      exact hall _ hmax

/-- **Which numbers are accepted**: those that have not been accepted before and lie above the
lower end of the window. -/
theorem accept_isSome_iff (h : W.Tracks S) (hn : 0 < n) (hw : 0 < w) :
    (W.accept n).isSome ↔ n ∉ S ∧ ∀ M, IsGreatest S M → M < n + w := by
  rw [← h.top_lt_iff hn hw, accept]
  by_cases habove : W.top < n
  · rw [if_pos habove]
    have hnew : n ∉ S := fun hmem => absurd (h.le_top hmem) (Nat.not_le.2 habove)
    exact ⟨fun _ => ⟨hnew, by omega⟩, fun _ => rfl⟩
  · rw [if_neg habove]
    by_cases hold : w ≤ W.top - n
    · rw [if_pos hold]
      constructor
      · intro hsome
        exact absurd hsome (by simp)
      · rintro ⟨-, hlt⟩
        omega
    · rw [if_neg hold]
      have hbit := h.bit (W.top - n) (by omega) (Nat.sub_le _ _)
      rw [Nat.sub_sub_self (Nat.not_lt.1 habove)] at hbit
      by_cases hmem : n ∈ S
      · rw [if_pos (hbit.2 hmem)]
        simp [hmem]
      · rw [if_neg fun hset => hmem (hbit.1 hset)]
        exact ⟨fun _ => ⟨hmem, by omega⟩, fun _ => rfl⟩

/-- Shifting the bits and setting the lowest one, for a number above the top. -/
theorem shift (h : W.Tracks S) (hn : W.top < n) :
    (ReplayWindow.mk n (W.bits <<< (n - W.top) ||| 1#w)).Tracks (insert n S) where
  pos := by
    rintro m (rfl | hm)
    · exact Nat.zero_lt_of_lt hn
    · exact h.pos m hm
  top := by
    refine Or.inr ⟨Set.mem_insert n S, ?_⟩
    rintro m (rfl | hm)
    · exact le_rfl
    · exact (h.le_top hm).trans hn.le
  bit := by
    intro i hi hin
    have hin : i ≤ n := hin
    simp only [BitVec.getLsbD_or, BitVec.getLsbD_shiftLeft, BitVec.getLsbD_one, hi,
      decide_true, Bool.true_and, Bool.or_eq_true, Bool.and_eq_true, Bool.not_eq_true',
      decide_eq_false_iff_not, decide_eq_true_eq, Set.mem_insert_iff]
    by_cases hshift : i < n - W.top
    · -- nothing above the old top has been accepted
      have hnot : n - i ∉ S := fun hmem => absurd (h.le_top hmem) (by omega)
      constructor
      · rintro (⟨hge, -⟩ | ⟨-, rfl⟩)
        · exact absurd hshift hge
        · exact Or.inl rfl
      · rintro (heq | hmem)
        · exact Or.inr ⟨by omega, by omega⟩
        · exact absurd hmem hnot
    · have hold := h.bit (i - (n - W.top)) (by omega) (by omega)
      rw [show W.top - (i - (n - W.top)) = n - i by omega] at hold
      rw [hold]
      constructor
      · rintro (⟨-, hmem⟩ | ⟨-, rfl⟩)
        · exact Or.inr hmem
        · exact Or.inl rfl
      · rintro (heq | hmem)
        · omega
        · exact Or.inl ⟨hshift, hmem⟩

/-- Setting the bit of a number within the window. -/
theorem set (h : W.Tracks S) (hn : 0 < n) (hle : n ≤ W.top) :
    (ReplayWindow.mk W.top (W.bits ||| BitVec.twoPow w (W.top - n))).Tracks (insert n S) where
  pos := by
    rintro m (rfl | hm)
    · exact hn
    · exact h.pos m hm
  top := by
    rcases h.top with ⟨-, htop⟩ | hmax
    · omega
    · refine Or.inr ⟨Set.mem_insert_of_mem n hmax.1, ?_⟩
      rintro m (rfl | hm)
      · exact hle
      · exact hmax.2 hm
  bit := by
    intro i hi hin
    have hin : i ≤ W.top := hin
    simp only [BitVec.getLsbD_or, BitVec.getLsbD_twoPow, Bool.or_eq_true, Bool.and_eq_true,
      decide_eq_true_eq, Set.mem_insert_iff]
    rw [h.bit i hi hin]
    constructor
    · rintro (hmem | ⟨-, heq⟩)
      · exact Or.inr hmem
      · exact Or.inl (by omega)
    · rintro (heq | hmem)
      · exact Or.inr ⟨by omega, by omega⟩
      · exact Or.inl hmem

/-- **The window goes on to represent the accepted numbers.** -/
theorem of_accept (h : W.Tracks S) (hn : 0 < n) (haccept : W.accept n = some W') :
    W'.Tracks (insert n S) := by
  rw [accept] at haccept
  by_cases habove : W.top < n
  · rw [if_pos habove] at haccept
    obtain rfl := Option.some_inj.1 haccept
    exact h.shift habove
  · simp only [if_neg habove, Option.ite_none_left_eq_some] at haccept
    obtain ⟨-, -, hset⟩ := haccept
    obtain rfl := Option.some_inj.1 hset
    exact h.set hn (Nat.not_lt.1 habove)

/-- The top only grows. -/
theorem top_le_of_accept (h : W.Tracks S) (hn : 0 < n) (haccept : W.accept n = some W') :
    W.top ≤ W'.top := by
  rcases h.top with ⟨-, htop⟩ | hmax
  · rw [htop]
    exact Nat.zero_le _
  · exact (h.of_accept hn haccept).le_top (Set.mem_insert_of_mem n hmax.1)

end Tracks

/-! ### Numbers that have been shown -/

/-- **The window has been shown the numbers of `A`**: it has accepted some of them, and the others
have been accepted before or lie below it. -/
def Seen (W : ReplayWindow w) (A : Set ℕ) : Prop :=
  ∃ S ⊆ A, W.Tracks S ∧ ∀ n ∈ A, n ∈ S ∨ n + w ≤ W.top

namespace Seen

variable {W : ReplayWindow w} {A : Set ℕ} {n : ℕ}

theorem of_empty : (empty w).Seen ∅ :=
  ⟨∅, Set.Subset.rfl, tracks_empty, fun n h => absurd h (Set.notMem_empty n)⟩

/-- **Which numbers are accepted**: those that have not been shown before, if nothing that has been
shown is too far above. -/
theorem accept_isSome_iff (h : W.Seen A) (hn : 0 < n) (hw : 0 < w) :
    (W.accept n).isSome ↔ ∀ m ∈ A, m ≠ n ∧ m < n + w := by
  obtain ⟨S, hsub, htracks, hshown⟩ := h
  rw [htracks.accept_isSome_iff hn hw, ← htracks.top_lt_iff hn hw]
  constructor
  · rintro ⟨hnew, htop⟩ m hm
    rcases hshown m hm with hmem | hbelow
    · exact ⟨fun heq => hnew (heq ▸ hmem), (htracks.le_top hmem).trans_lt htop⟩
    · exact ⟨by omega, by omega⟩
  · intro hall
    refine ⟨fun hmem => (hall n (hsub hmem)).1 rfl, ?_⟩
    rcases htracks.top with ⟨-, htop⟩ | hmax
    · omega
    · exact (hall W.top (hsub hmax.1)).2

/-- **The window is shown one more number.** -/
theorem of_accept (h : W.Seen A) (hn : 0 < n) (hw : 0 < w) :
    ((W.accept n).getD W).Seen (insert n A) := by
  obtain ⟨S, hsub, htracks, hshown⟩ := h
  cases haccept : W.accept n with
  | some W' =>
      have htop := htracks.top_le_of_accept hn haccept
      refine ⟨insert n S, Set.insert_subset_insert hsub, htracks.of_accept hn haccept, ?_⟩
      rintro m (rfl | hm)
      · exact Or.inl (Set.mem_insert m S)
      · rcases hshown m hm with hmem | hbelow
        · exact Or.inl (Set.mem_insert_of_mem n hmem)
        · exact Or.inr (hbelow.trans htop)
  | none =>
      refine ⟨S, hsub.trans (Set.subset_insert n A), htracks, ?_⟩
      rintro m (rfl | hm)
      · -- the number has been refused
        by_contra hnot
        push Not at hnot
        have hsome := (htracks.accept_isSome_iff hn hw).2
          ⟨hnot.1, (htracks.top_lt_iff hn hw).1 hnot.2⟩
        rw [haccept] at hsome
        exact absurd hsome (by simp)
      · exact hshown m hm

end Seen

end ReplayWindow
