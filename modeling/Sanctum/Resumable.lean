/-
Calls that can be given up and made again.

A call reads from a source until it has a result, and waits if the source has run out.  A call that waits
may be given up.  If what it has read until then is kept in its state, then the next call goes on where it
has stopped, and it makes no difference how often calls are given up on the way.

Main definitions:

* `Resumable.Call`, `Resumable.calls` — calls, and a number of them one after the other;
* `Resumable.attempts` — calls that are given up after a number of reads;
* `Resumable.Resumes` — **a call goes on where the last one has stopped**.

Main results:

* `Resumable.calls_add` — calls in two parts;
* `Resumable.calls_attempts` — **calls that are given up have no effect on the results**.
-/

import Mathlib.Data.List.Basic

set_option relaxedAutoImplicit false
set_option autoImplicit false

namespace Resumable

variable {σ ρ β : Type}

/-- A call: the result, if there is one, the state, and what is left to be read. -/
abbrev Call (σ ρ β : Type) : Type := σ → List ρ → Option β × σ × List ρ

/-- A number of calls, as long as there are results. -/
def calls (call : Call σ ρ β) : ℕ → σ → List ρ → List β × σ × List ρ
  | 0, s, reads => ([], s, reads)
  | n + 1, s, reads =>
    match call s reads with
    | (none, s, reads) => ([], s, reads)
    | (some result, s, reads) =>
      let results := calls call n s reads
      (result :: results.1, results.2)

/-- A call that is given up if it has no result after `budget` reads. -/
def attempt (call : Call σ ρ β) (budget : ℕ) (s : σ) (reads : List ρ) : Option β × σ × List ρ :=
  let told := call s (reads.take budget)
  (told.1, told.2.1, told.2.2 ++ reads.drop budget)

/-- A sequence of calls, each of which is given up after some reads. -/
def attempts (call : Call σ ρ β) : List ℕ → σ → List ρ → List β × σ × List ρ
  | [], s, reads => ([], s, reads)
  | budget :: budgets, s, reads =>
    match attempt call budget s reads with
    | (none, s, reads) => attempts call budgets s reads
    | (some result, s, reads) =>
      let results := attempts call budgets s reads
      (result :: results.1, results.2)

/-- **A call goes on where the last one has stopped**: what comes later does not change a result, and a call
that waits has read everything and kept it. -/
structure Resumes (call : Call σ ρ β) : Prop where
  found : ∀ {s s' : σ} {reads rest : List ρ} {result : β}, call s reads = (some result, s', rest) →
    ∀ later, call s (reads ++ later) = (some result, s', rest ++ later)
  waits : ∀ {s s' : σ} {reads rest : List ρ}, call s reads = (none, s', rest) →
    rest = [] ∧ ∀ later, call s (reads ++ later) = call s' later

variable {call : Call σ ρ β}

theorem calls_succ_of_none {n : ℕ} {s s' : σ} {reads rest : List ρ}
    (h : call s reads = (none, s', rest)) : calls call (n + 1) s reads = ([], s', rest) := by
  rw [calls, h]

theorem calls_succ_of_some {n : ℕ} {s s' : σ} {reads rest : List ρ} {result : β}
    (h : call s reads = (some result, s', rest)) :
    calls call (n + 1) s reads =
      (result :: (calls call n s' rest).1, (calls call n s' rest).2) := by
  rw [calls, h]

/-- Calls in two parts, if the first ones all have results. -/
theorem calls_add {m : ℕ} {s : σ} {reads : List ρ} (h : (calls call m s reads).1.length = m) (n : ℕ) :
    calls call (m + n) s reads =
      ((calls call m s reads).1 ++
          (calls call n (calls call m s reads).2.1 (calls call m s reads).2.2).1,
        (calls call n (calls call m s reads).2.1 (calls call m s reads).2.2).2) := by
  induction m generalizing s reads with
  | zero =>
      rw [Nat.zero_add]
      rfl
  | succ m ih =>
      rcases hcall : call s reads with ⟨_ | result, s', rest⟩
      · rw [calls_succ_of_none hcall] at h
        exact absurd h (by simp)
      · rw [calls_succ_of_some hcall] at h ⊢
        rw [Nat.add_right_comm, calls_succ_of_some hcall, ih (Nat.succ.inj h)]
        rfl

/-- **Calls that are given up have no effect on the results**: calls that are not given up find the same
results, and then go on in the same way. -/
theorem calls_attempts (h : Resumes call) (budgets : List ℕ) (s : σ) (reads : List ρ) (n : ℕ) :
    calls call ((attempts call budgets s reads).1.length + (n + 1)) s reads =
      ((attempts call budgets s reads).1 ++ (calls call (n + 1) (attempts call budgets s reads).2.1
          (attempts call budgets s reads).2.2).1,
        (calls call (n + 1) (attempts call budgets s reads).2.1
          (attempts call budgets s reads).2.2).2) := by
  induction budgets generalizing s reads with
  | nil =>
      rw [attempts, List.length_nil, Nat.zero_add]
      rfl
  | cons budget budgets ih =>
      rcases hcall : call s (reads.take budget) with ⟨_ | result, s', rest⟩
      · -- the call waits, and the next one reads what is left
        obtain ⟨rfl, hgo⟩ := h.waits hcall
        have hrest := hgo (reads.drop budget)
        rw [List.take_append_drop] at hrest
        have hattempts : attempts call (budget :: budgets) s reads =
            attempts call budgets s' (reads.drop budget) := by
          rw [attempts, attempt, hcall]
          rfl
        have hcalls : ∀ m, calls call (m + 1) s reads = calls call (m + 1) s' (reads.drop budget) := by
          intro m
          rw [calls, calls, hrest]
        rw [hattempts, ← ih, ← Nat.add_assoc, hcalls]
      · have hfound := h.found hcall (reads.drop budget)
        rw [List.take_append_drop] at hfound
        have hattempts : attempts call (budget :: budgets) s reads =
            (result :: (attempts call budgets s' (rest ++ reads.drop budget)).1,
              (attempts call budgets s' (rest ++ reads.drop budget)).2) := by
          rw [attempts, attempt, hcall]
        rw [hattempts, List.length_cons, Nat.add_right_comm, calls_succ_of_some hfound, ih]
        rfl

end Resumable
