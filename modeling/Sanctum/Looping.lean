/-
Loops that may run forever.

A loop is a function from states to either the next state or a result.  It is run with fuel, one unit a
round; it halts if some fuel is enough.  A loop that reads its inputs one after the other, and goes on
reading when there are none left, halts exactly if it gets an input on which it leaves.

Main definitions:

* `Looping.run` — the result within some rounds;
* `Looping.Halts` — there is a result;
* `Looping.Reading` — a loop that takes one input a round.

Main results:

* `Looping.not_halts_of_invariant` — a loop that keeps an invariant and does not leave runs forever;
* `Looping.Reading.halts_iff` — when a reading loop halts.
-/

import Mathlib.Data.List.Basic

set_option relaxedAutoImplicit false
set_option autoImplicit false

namespace Looping

variable {σ ρ ι : Type*} {body : σ → σ ⊕ ρ} {s s' : σ} {r : ρ}

/-- The result of a loop, if it is there within some rounds. -/
def run (body : σ → σ ⊕ ρ) : ℕ → σ → Option ρ
  | 0, _ => none
  | fuel + 1, s =>
    match body s with
    | .inl s' => run body fuel s'
    | .inr r => some r

/-- **The loop halts**: some number of rounds is enough. -/
def Halts (body : σ → σ ⊕ ρ) (s : σ) : Prop := ∃ fuel r, run body fuel s = some r

theorem run_succ_of_inl (h : body s = .inl s') (fuel : ℕ) :
    run body (fuel + 1) s = run body fuel s' := by
  rw [run, h]

theorem run_succ_of_inr (h : body s = .inr r) (fuel : ℕ) : run body (fuel + 1) s = some r := by
  rw [run, h]

/-- More fuel does not change a result. -/
theorem run_mono {fuel fuel' : ℕ} (hle : fuel ≤ fuel') (h : run body fuel s = some r) :
    run body fuel' s = some r := by
  induction fuel generalizing fuel' s with
  | zero => cases h
  | succ fuel ih =>
      obtain ⟨fuel', rfl⟩ : ∃ n, fuel' = n + 1 := ⟨fuel' - 1, by omega⟩
      cases hbody : body s with
      | inl s' =>
          rw [run_succ_of_inl hbody] at h ⊢
          exact ih (by omega) h
      | inr r' =>
          rw [run_succ_of_inr hbody] at h ⊢
          exact h

theorem halts_of_inr (h : body s = .inr r) : Halts body s := ⟨1, r, run_succ_of_inr h 0⟩

theorem halts_iff_of_inl (h : body s = .inl s') : Halts body s ↔ Halts body s' := by
  constructor
  · rintro ⟨_ | fuel, r, hrun⟩
    · cases hrun
    · exact ⟨fuel, r, (run_succ_of_inl h fuel).symm.trans hrun⟩
  · rintro ⟨fuel, r, hrun⟩
    exact ⟨fuel + 1, r, (run_succ_of_inl h fuel).trans hrun⟩

/-- **A loop that keeps an invariant under which it does not leave runs forever.** -/
theorem not_halts_of_invariant {Inv : σ → Prop} (hstep : ∀ s, Inv s → ∃ s', body s = .inl s' ∧ Inv s')
    (hs : Inv s) : ¬ Halts body s := by
  rintro ⟨fuel, r, hrun⟩
  induction fuel generalizing s with
  | zero => cases hrun
  | succ fuel ih =>
      obtain ⟨s', hbody, hs'⟩ := hstep s hs
      exact ih hs' ((run_succ_of_inl hbody fuel).symm.trans hrun)

/-- **A loop that takes one input a round**: it leaves on some inputs, and goes on without any. -/
structure Reading (body : σ → σ ⊕ ρ) (inputs : σ → List ι) (Leaves : ι → Prop) : Prop where
  idle : ∀ s, inputs s = [] → ∃ s', body s = .inl s' ∧ inputs s' = []
  leave : ∀ s x xs, inputs s = x :: xs → Leaves x → ∃ r, body s = .inr r
  goOn : ∀ s x xs, inputs s = x :: xs → ¬ Leaves x → ∃ s', body s = .inl s' ∧ inputs s' = xs

/-- **A reading loop halts exactly if it gets an input on which it leaves.** -/
theorem Reading.halts_iff {inputs : σ → List ι} {Leaves : ι → Prop} (h : Reading body inputs Leaves)
    (s : σ) : Halts body s ↔ ∃ x ∈ inputs s, Leaves x := by
  induction hinputs : inputs s generalizing s with
  | nil => exact iff_of_false (not_halts_of_invariant h.idle hinputs) (by simp)
  | cons x xs ih =>
      by_cases hleaves : Leaves x
      · obtain ⟨r, hbody⟩ := h.leave s x xs hinputs hleaves
        exact iff_of_true (halts_of_inr hbody) ⟨x, List.mem_cons_self, hleaves⟩
      · obtain ⟨s', hbody, hinputs'⟩ := h.goOn s x xs hinputs hleaves
        rw [halts_iff_of_inl hbody, ih s' hinputs', List.exists_mem_cons_iff, or_iff_right hleaves]

end Looping
