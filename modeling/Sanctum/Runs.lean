/-
**Runs of a system that takes one step at a time.**

A system is a partial function that says what a step with a given label leads to; a label that is not
enabled leads nowhere.  A run is a list of labels.  Besides the usual rule for invariants there is
one for properties that need a condition on the steps: a property that a step keeps exactly when the
step meets the condition holds throughout a run exactly when every step of the run meets it.

Main definitions:

* `Runs.run` — the state after a list of labels;
* `Runs.Meets`, `Runs.Throughout` — a condition on every step of a run, and a property of every state
  of it;
* `Runs.Before` — one label comes before another.

Main results:

* `Runs.run_induction`, `Runs.meets_induction`, `Runs.history_induction` — **the rules for
  invariants**;
* `Runs.throughout_iff_meets` — when a property holds throughout a run;
* `Runs.throughout_of_meets` — the same, in one direction, next to an invariant;
* `Runs.run_project` — **the run of a component**.
-/

import Mathlib

set_option relaxedAutoImplicit false
set_option autoImplicit false

namespace Runs

variable {σ α : Type} (step : σ → α → Option σ)

/-- **The state after a run.** -/
def run : σ → List α → Option σ
  | s, [] => some s
  | s, a :: as => (step s a).bind fun s' => run s' as

/-- Every step of the run meets a condition on the state before the step and its label. -/
def Meets (Ok : σ → α → Prop) : σ → List α → Prop
  | _, [] => True
  | s, a :: as => Ok s a ∧ ∀ s', step s a = some s' → Meets Ok s' as

/-- Every state of the run has a property. -/
def Throughout (Q : σ → Prop) : σ → List α → Prop
  | s, [] => Q s
  | s, a :: as => Q s ∧ ∀ s', step s a = some s' → Throughout Q s' as

variable {step}

@[simp] theorem run_nil (s : σ) : run step s [] = some s := rfl

theorem run_cons_eq_some {s s'' : σ} {a : α} {as : List α} :
    run step s (a :: as) = some s'' ↔
      ∃ s', step s a = some s' ∧ run step s' as = some s'' :=
  Option.bind_eq_some_iff

/-- A run in two parts. -/
theorem run_append (s : σ) (as bs : List α) :
    run step s (as ++ bs) = (run step s as).bind fun s' => run step s' bs := by
  induction as generalizing s with
  | nil => rfl
  | cons a as ih =>
      simp only [List.cons_append, run]
      cases step s a with
      | none => rfl
      | some s' => exact ih s'

theorem run_append_eq_some {s s'' : σ} {as bs : List α} :
    run step s (as ++ bs) = some s'' ↔
      ∃ s', run step s as = some s' ∧ run step s' bs = some s'' := by
  rw [run_append]
  exact Option.bind_eq_some_iff

/-- A system in which every label leads somewhere has a run for every list of labels. -/
theorem exists_run (htotal : ∀ s a, ∃ s', step s a = some s') (as : List α) (s : σ) :
    ∃ s'', run step s as = some s'' := by
  induction as generalizing s with
  | nil => exact ⟨s, rfl⟩
  | cons a as ih =>
      obtain ⟨s', ha⟩ := htotal s a
      obtain ⟨s'', has⟩ := ih s'
      exact ⟨s'', run_cons_eq_some.2 ⟨s', ha, has⟩⟩

/-- **The rule for invariants.** -/
theorem run_induction {Inv : σ → Prop}
    (hstep : ∀ s a s', Inv s → step s a = some s' → Inv s') {as : List α} {s s'' : σ}
    (hs : Inv s) (hrun : run step s as = some s'') : Inv s'' := by
  induction as generalizing s with
  | nil =>
      obtain rfl := Option.some_inj.1 hrun
      exact hs
  | cons a as ih =>
      obtain ⟨s', ha, has⟩ := run_cons_eq_some.1 hrun
      exact ih (hstep s a s' hs ha) has

/-- **The rule for invariants of runs whose steps meet a condition.** -/
theorem meets_induction {Ok : σ → α → Prop} {Inv : σ → Prop}
    (hstep : ∀ s a s', Inv s → Ok s a → step s a = some s' → Inv s') {as : List α} {s s'' : σ}
    (hs : Inv s) (hok : Meets step Ok s as) (hrun : run step s as = some s'') : Inv s'' := by
  induction as generalizing s with
  | nil =>
      obtain rfl := Option.some_inj.1 hrun
      exact hs
  | cons a as ih =>
      obtain ⟨s', ha, has⟩ := run_cons_eq_some.1 hrun
      exact ih (hstep s a s' hs hok.1 ha) (hok.2 s' ha) has

/-- A condition that every label meets in every state. -/
theorem meets_of_forall {Ok : σ → α → Prop} {as : List α} {s : σ}
    (h : ∀ a ∈ as, ∀ s, Ok s a) : Meets step Ok s as := by
  induction as generalizing s with
  | nil => trivial
  | cons a as ih =>
      rw [List.forall_mem_cons] at h
      exact ⟨h.1 s, fun s' _ => ih h.2⟩

/-- A condition on a run in two parts. -/
theorem meets_append {Ok : σ → α → Prop} {as bs : List α} {s : σ} :
    Meets step Ok s (as ++ bs) ↔
      Meets step Ok s as ∧ ∀ s', run step s as = some s' → Meets step Ok s' bs := by
  induction as generalizing s with
  | nil => simp [Meets]
  | cons a as ih =>
      simp only [List.cons_append, Meets, ih, run_cons_eq_some]
      constructor
      · rintro ⟨ha, has⟩
        exact ⟨⟨ha, fun s' hs' => (has s' hs').1⟩, fun s' ⟨t, ht, hrun⟩ => (has t ht).2 s' hrun⟩
      · rintro ⟨⟨ha, has⟩, hbs⟩
        exact ⟨ha, fun s' hs' => ⟨has s' hs', fun t hrun => hbs t ⟨s', hs', hrun⟩⟩⟩

/-- A condition on the labels alone. -/
theorem meets_iff_forall_mem {P : α → Prop} {as : List α} {s s'' : σ}
    (hrun : run step s as = some s'') : Meets step (fun _ a => P a) s as ↔ ∀ a ∈ as, P a := by
  induction as generalizing s with
  | nil => simp [Meets]
  | cons a as ih =>
      obtain ⟨s', ha, has⟩ := run_cons_eq_some.1 hrun
      simp only [Meets, List.forall_mem_cons, ha, Option.some_inj, forall_eq', ih has]

/-- **The rule for invariants that speak about the labels so far**, and about the rest of the run. -/
theorem history_induction {Inv : List α → σ → Prop} {as : List α} {s s'' : σ}
    (hstep : ∀ pre t a t' post, as = pre ++ a :: post → step t a = some t' →
      run step t' post = some s'' → Inv pre t → Inv (pre ++ [a]) t')
    (hs : Inv [] s) (hrun : run step s as = some s'') : Inv as s'' := by
  have hsplit : ∀ post pre t, as = pre ++ post → run step t post = some s'' → Inv pre t →
      Inv as s'' := by
    intro post
    induction post with
    | nil =>
        intro pre t has hpost hinv
        obtain rfl := Option.some_inj.1 hpost
        rwa [has, List.append_nil]
    | cons a post ih =>
        intro pre t has hpost hinv
        obtain ⟨t', ha, hpost'⟩ := run_cons_eq_some.1 hpost
        exact ih (pre ++ [a]) t' (by rw [has, List.append_assoc, List.singleton_append]) hpost'
          (hstep pre t a t' post has ha hpost' hinv)
  exact hsplit as [] s rfl hrun hs

theorem Throughout.head {Q : σ → Prop} {s : σ} {as : List α} (h : Throughout step Q s as) :
    Q s := by
  cases as with
  | nil => exact h
  | cons a as => exact h.1

/-- A property that is part of an invariant holds throughout. -/
theorem throughout_of_meets {Ok : σ → α → Prop} {Inv Q : σ → Prop}
    (hstep : ∀ s a s', Inv s → Ok s a → step s a = some s' → Inv s') (hQ : ∀ s, Inv s → Q s)
    {as : List α} {s : σ} (hs : Inv s) (hok : Meets step Ok s as) : Throughout step Q s as := by
  induction as generalizing s with
  | nil => exact hQ s hs
  | cons a as ih =>
      exact ⟨hQ s hs, fun s' ha => ih (hstep s a s' hs hok.1 ha) (hok.2 s' ha)⟩

/-- **When a property holds throughout a run.**  Next to an invariant, the property is kept by
exactly those steps that meet the condition. -/
theorem throughout_iff_meets {Ok : σ → α → Prop} {Inv Q : σ → Prop}
    (hinv : ∀ s a s', Inv s → Q s → step s a = some s' → Q s' → Inv s')
    (hstep : ∀ s a s', Inv s → Q s → step s a = some s' → (Q s' ↔ Ok s a)) {as : List α}
    {s s'' : σ} (hs : Inv s) (hQ : Q s) (hrun : run step s as = some s'') :
    Throughout step Q s as ↔ Meets step Ok s as := by
  induction as generalizing s with
  | nil => exact ⟨fun _ => trivial, fun _ => hQ⟩
  | cons a as ih =>
      obtain ⟨s', ha, has⟩ := run_cons_eq_some.1 hrun
      constructor
      · intro h
        have hQ' := (h.2 s' ha).head
        refine ⟨(hstep s a s' hs hQ ha).1 hQ', fun t ht => ?_⟩
        obtain rfl := Option.some_inj.1 (ha.symm.trans ht)
        exact (ih (hinv s a s' hs hQ ha hQ') hQ' has).1 (h.2 s' ha)
      · intro h
        have hQ' := (hstep s a s' hs hQ ha).2 h.1
        refine ⟨hQ, fun t ht => ?_⟩
        obtain rfl := Option.some_inj.1 (ha.symm.trans ht)
        exact (ih (hinv s a s' hs hQ ha hQ') hQ' has).2 (h.2 s' ha)

/-- Two conditions that say the same of every step from a state with the invariant. -/
theorem meets_congr {Ok Ok' : σ → α → Prop} {Inv : σ → Prop}
    (hinv : ∀ s a s', Inv s → step s a = some s' → Inv s')
    (hiff : ∀ s a, Inv s → (Ok s a ↔ Ok' s a)) {as : List α} {s : σ} (hs : Inv s) :
    Meets step Ok s as ↔ Meets step Ok' s as := by
  induction as generalizing s with
  | nil => exact Iff.rfl
  | cons a as ih =>
      refine and_congr (hiff s a hs) (forall_congr' fun s' => ?_)
      exact imp_congr_right fun ha => ih (hinv s a s' hs ha)

/-- The same for a property that needs no invariant next to it, in a system in which every label
leads somewhere. -/
theorem throughout_iff_meets_of_step {Ok : σ → α → Prop} {Q : σ → Prop}
    (htotal : ∀ s a, ∃ s', step s a = some s')
    (hstep : ∀ s a s', Q s → step s a = some s' → (Q s' ↔ Ok s a)) {as : List α} {s : σ}
    (hQ : Q s) : Throughout step Q s as ↔ Meets step Ok s as := by
  obtain ⟨s'', hrun⟩ := exists_run htotal as s
  have hinv : ∀ s : σ, (fun _ => True) s := fun _ => trivial
  exact throughout_iff_meets (fun _ _ s' _ _ _ _ => hinv s')
    (fun s a s' _ hs ha => hstep s a s' hs ha) (hinv s) hQ hrun

/-! ### Components

A component of a system sees only some of the labels, and of the state only its own part.  If each step of the
system is a step of the component or leaves it alone, then each run of the system is one of the component. -/

/-- **A component goes through a run of its own**, on the labels that it sees. -/
theorem run_project {τ β : Type} {step' : τ → β → Option τ} (view : σ → τ) (sees : α → Option β)
    (h : ∀ s a s', step s a = some s' →
      sees a = none ∧ view s' = view s ∨ ∃ b, sees a = some b ∧ step' (view s) b = some (view s'))
    {as : List α} {s s'' : σ} (hrun : run step s as = some s'') :
    run step' (view s) (as.filterMap sees) = some (view s'') := by
  induction as generalizing s with
  | nil =>
      obtain rfl := Option.some_inj.1 hrun
      rfl
  | cons a as ih =>
      obtain ⟨s', ha, has⟩ := run_cons_eq_some.1 hrun
      rcases h s a s' ha with ⟨hsees, hview⟩ | ⟨b, hsees, hstep⟩
      · rw [List.filterMap_cons_none hsees, ← hview]
        exact ih has
      · rw [List.filterMap_cons_some hsees]
        exact run_cons_eq_some.2 ⟨view s', hstep, ih has⟩

/-- The next entry is taken from a list of which all before it has been taken. -/
theorem isPrefix_concat {xs ys : List α} {a : α} (h : xs <+: ys) (ha : ys[xs.length]? = some a) :
    xs ++ [a] <+: ys := by
  obtain ⟨zs, rfl⟩ := h
  rw [List.getElem?_append_right le_rfl, Nat.sub_self] at ha
  cases zs with
  | nil => cases ha
  | cons b zs =>
      obtain rfl := Option.some_inj.1 ha
      exact ⟨zs, by rw [List.append_assoc, List.singleton_append]⟩

/-! ### The order of labels -/

/-- The label `a` comes before the label `b`. -/
def Before (as : List α) (a b : α) : Prop := [a, b].Sublist as

theorem before_append_singleton {as : List α} {a b c : α} :
    Before (as ++ [c]) a b ↔ Before as a b ∨ a ∈ as ∧ b = c := by
  unfold Before
  constructor
  · intro h
    rcases List.sublist_append_iff.1 h with ⟨l₁, l₂, heq, h₁, h₂⟩
    rcases List.sublist_singleton.1 h₂ with rfl | rfl
    · rw [List.append_nil] at heq
      exact Or.inl (heq ▸ h₁)
    · have hcons : [a] ++ [b] = l₁ ++ [c] := heq
      obtain ⟨rfl, hbc⟩ := List.append_inj' hcons rfl
      exact Or.inr ⟨List.singleton_sublist.1 h₁, List.singleton_inj.1 hbc⟩
  · rintro (h | ⟨hmem, rfl⟩)
    · exact h.trans (List.sublist_append_left as [c])
    · exact (List.singleton_sublist.2 hmem).append (List.Sublist.refl [b])

theorem Before.mem_left {as : List α} {a b : α} (h : Before as a b) : a ∈ as :=
  h.subset (by simp)

theorem Before.mem_right {as : List α} {a b : α} (h : Before as a b) : b ∈ as :=
  h.subset (by simp)

end Runs
