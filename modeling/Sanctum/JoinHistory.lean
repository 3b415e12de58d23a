/-
Joins, and the labels they leave.

A task goes through the moves of its join in a fixed order, each of them once.  As long as everybody
who has registered stays, which moves a task has made can be told from how far it has come, and the
aliases are those of the tasks that have stored one.

Main definitions:

* `Sanctum.HostListener.Joined`, `Sanctum.HostListener.Joining` — everybody has joined, with distinct
  fingerprints; and the states on the way there;
* `Sanctum.HostListener.Marks` — the moves made so far are those that lead to the phases reached;
* `Sanctum.HostListener.Stored` — the aliases are those of the tasks that have stored one.

Main results:

* `Sanctum.HostListener.joining_of_joined` — what holds when everybody has joined holds on the way;
* `Sanctum.HostListener.marks_step`, `Sanctum.HostListener.stored_step` — the steps keep both.
-/

import Sanctum.ListenerTables

set_option relaxedAutoImplicit false
set_option autoImplicit false

namespace Sanctum

open HostListener

namespace Stepped

variable {crates : Crates} {s s' : HostListener} {label : Label}

/-- A phase of the join is left by one move. -/
theorem Advances.unique {p q q' : ℕ} {move move' : Move} (h : Advances p move q)
    (h' : Advances p move' q') (hp : p < 7) : move = move' ∧ q = q' := by
  cases h with
  | leave | pongError => omega
  | removeClient | removeSender | removeAlias => omega
  | _ =>
      cases h'
      exact ⟨rfl, rfl⟩

/-- A join goes on by one phase at a time. -/
theorem Advances.eq_succ {p q : ℕ} {move : Move} (h : Advances p move q) (hq : q ≤ 7) :
    q = p + 1 := by
  cases h with
  | _ => omega

/-- A move of the join leads to its phase. -/
theorem phase_of_advances {c : ConnId} {p : ℕ} {move : Move}
    (h : Stepped crates s (.client c move) s') (hadvance : Advances p move (p + 1)) (hp : 1 ≤ p)
    (hp' : p < 7) :
    (∃ k, s.tasks c = .client k ∧ k.point.phase = p) ∧
      ∃ k', s'.tasks c = .client k' ∧ k'.point.phase = p + 1 := by
  generalize hq : p + 1 = q at hadvance
  cases hadvance with
  | register | leave | pongError | removeClient | removeSender | removeAlias => omega
  | storeAlias =>
      cases h with
      | storeAlias _ k htask hpoint _ =>
          exact ⟨⟨k, htask, by rw [hpoint]; rfl⟩, _, tasks_setClient_self _ _ _, rfl⟩
  | openChannel =>
      cases h with
      | openChannel _ k htask hpoint _ =>
          exact ⟨⟨k, htask, by rw [hpoint]; rfl⟩, _, tasks_setClient_self _ _ _, rfl⟩
  | subscribe =>
      cases h with
      | subscribe _ k htask hpoint =>
          exact ⟨⟨k, htask, by rw [hpoint]; rfl⟩, _, tasks_setClient_self _ _ _, rfl⟩
  | lockAliases =>
      cases h with
      | lockAliases _ k htask hpoint _ =>
          exact ⟨⟨k, htask, by rw [hpoint]; rfl⟩, _, tasks_setClient_self _ _ _, rfl⟩
  | unlockAliases =>
      cases h with
      | unlockAliases _ k htask hpoint =>
          exact ⟨⟨k, htask, by rw [hpoint]; rfl⟩, _, tasks_setClient_self _ _ _, rfl⟩
  | announce =>
      cases h with
      | announce _ k htask hpoint =>
          exact ⟨⟨k, htask, by rw [hpoint]; rfl⟩, _, tasks_setClient_self _ _ _, rfl⟩

end Stepped

namespace HostListener

/-- **Everybody has joined**: the clients are in their message loops, and have distinct fingerprints. -/
structure Joined (s : HostListener) : Prop where
  phase : ∀ c k, s.tasks c = .client k → k.point.phase = 7
  distinct : ∀ c d k kd, s.tasks c = .client k → s.tasks d = .client kd →
    k.fingerprint = kd.fingerprint → c = d

/-- Nobody who has registered has left, and those who have registered have distinct fingerprints. -/
structure Joining (s : HostListener) : Prop where
  phase : ∀ c k, s.tasks c = .client k → k.point.phase ≤ 7
  distinct : ∀ c d k kd, s.tasks c = .client k → 1 ≤ k.point.phase → s.tasks d = .client kd →
    1 ≤ kd.point.phase → k.fingerprint = kd.fingerprint → c = d

/-- **The labels so far say how far each join has come.** -/
def Marks (labels : List Label) (s : HostListener) : Prop :=
  ∀ c p move, 1 ≤ p → p < 7 → Stepped.Advances p move (p + 1) →
    (.client c move ∈ labels ↔ ∃ k, s.tasks c = .client k ∧ p + 1 ≤ k.point.phase)

/-- The aliases are those of the tasks that have stored one. -/
def Stored (s : HostListener) : Prop :=
  ∀ hex, hex ∈ s.aliases ↔
    ∃ c k, s.tasks c = .client k ∧ 2 ≤ k.point.phase ∧ k.fingerprint.hex = hex

variable {crates : Crates} {s s' : HostListener} {label : Label}

/-- A registered client goes on through a run. -/
theorem later_of_run {labels : List Label} {c : ConnId} {k : Client} (hfresh : s.Fresh)
    (htask : s.tasks c = .client k) (hphase : 1 ≤ k.point.phase)
    (hrun : Runs.run (step crates) s labels = some s') :
    ∃ k', s'.tasks c = .client k' ∧ k.Later k' := by
  have hinv : ∀ s label s', (s.Fresh ∧ ∃ k', s.tasks c = .client k' ∧ k.Later k') →
      step crates s label = some s' → s'.Fresh ∧ ∃ k', s'.tasks c = .client k' ∧ k.Later k' := by
    rintro s label s' ⟨hfresh, k', htask', hlater⟩ hstep
    have h := stepped_of_step hstep
    obtain ⟨k'', htask'', hlater'⟩ :=
      h.client_persists hfresh htask' (hphase.trans hlater.phase)
    exact ⟨fresh_step hfresh h, k'', htask'', hlater.trans hlater'⟩
  exact (Runs.run_induction hinv ⟨hfresh, k, htask, .refl k⟩ hrun).2

/-- **What holds when everybody has joined holds on the way there.** -/
theorem joining_of_joined {labels : List Label} (hfresh : s.Fresh)
    (hrun : Runs.run (step crates) s labels = some s') (hj : s'.Joined) : s.Joining where
  phase := by
    intro c k htask
    by_cases hphase : 1 ≤ k.point.phase
    · obtain ⟨k', htask', hlater⟩ := later_of_run hfresh htask hphase hrun
      exact hlater.phase.trans (hj.phase c k' htask').le
    · omega
  distinct := by
    intro c d k kd hc hphase hd hphased hfp
    obtain ⟨k', hc', hlater⟩ := later_of_run hfresh hc hphase hrun
    obtain ⟨kd', hd', hlaterd⟩ := later_of_run hfresh hd hphased hrun
    exact hj.distinct c d k' kd' hc' hd' (by rw [hlater.fingerprint, hlaterd.fingerprint, hfp])

theorem marks_start (room : Room) (hostNoisePubkey : Bytes) :
    Marks [] (start room hostNoisePubkey) := by
  intro c p move _ _ _
  simp [start]

/-- What a client has reached before a step on the way. -/
theorem phase_before (hj : s'.Joining) (h : Stepped crates s label s') {c : ConnId} {k k' : Client}
    (hc : s.tasks c = .client k) (hc' : s'.tasks c = .client k') :
    k'.point.phase = k.point.phase ∨ k'.point.phase = k.point.phase + 1 ∧
      ∃ move, label = .client c move ∧ Stepped.Advances k.point.phase move (k.point.phase + 1) := by
  rcases h.phase_cases hc hc' with hsame | ⟨move, hlabel, hadvance⟩
  · exact Or.inl hsame
  · have hsucc := hadvance.eq_succ (hj.phase c k' hc')
    exact Or.inr ⟨hsucc, move, hlabel, hsucc ▸ hadvance⟩

/-- **The labels go on to say how far each join has come.** -/
theorem marks_step {labels : List Label} (hfresh : s.Fresh) (hm : Marks labels s)
    (hj : s'.Joining) (h : Stepped crates s label s') : Marks (labels ++ [label]) s' := by
  intro c p move hp hp' hadvance
  rw [List.mem_append, List.mem_singleton, hm c p move hp hp' hadvance]
  constructor
  · rintro (⟨k, htask, hphase⟩ | rfl)
    · obtain ⟨k', htask', hlater⟩ := h.client_persists hfresh htask (by omega)
      exact ⟨k', htask', hphase.trans hlater.phase⟩
    · obtain ⟨-, k', htask', hphase⟩ := h.phase_of_advances hadvance hp hp'
      exact ⟨k', htask', hphase.ge⟩
  · rintro ⟨k', htask', hphase'⟩
    rcases h.client_origin hfresh htask' with ⟨k, htask, -⟩ | ⟨-, hregister, -⟩
    · by_cases hphase : p + 1 ≤ k.point.phase
      · exact Or.inl ⟨k, htask, hphase⟩
      · rcases phase_before hj h htask htask' with hsame | ⟨hsucc, move', rfl, hadvance'⟩
        · omega
        · obtain rfl : k.point.phase = p := by omega
          obtain ⟨rfl, -⟩ := hadvance.unique hadvance' hp'
          exact Or.inr rfl
    · rw [hregister] at hphase'
      simp [Point.phase] at hphase'

theorem Marks.mem_iff {labels : List Label} (hm : Marks labels s) {c : ConnId} {p : ℕ}
    {move : Move} (hp : 1 ≤ p) (hp' : p < 7) (hadvance : Stepped.Advances p move (p + 1))
    {k : Client} (htask : s.tasks c = .client k) :
    .client c move ∈ labels ↔ p + 1 ≤ k.point.phase := by
  rw [hm c p move hp hp' hadvance]
  constructor
  · rintro ⟨k', htask', hphase⟩
    obtain rfl := Task.client.inj (htask.symm.trans htask')
    exact hphase
  · exact fun hphase => ⟨k, htask, hphase⟩

theorem stored_start (room : Room) (hostNoisePubkey : Bytes) :
    (start room hostNoisePubkey).Stored := by
  intro hex
  simp only [start, reduceCtorEq, false_and, exists_false, iff_false]
  exact Finmap.notMem_empty

/-- **The aliases go on to be those of the tasks that have stored one.** -/
theorem stored_step (hfresh : s.Fresh) (hs : s.Stored) (hj : s'.Joining)
    (h : Stepped crates s label s') : s'.Stored := by
  -- those who had stored an alias, and at most one more
  have hkeep : ∀ hex, hex ∈ s.aliases →
      ∃ c k, s'.tasks c = .client k ∧ 2 ≤ k.point.phase ∧ k.fingerprint.hex = hex := by
    intro hex hmem
    obtain ⟨c, k, htask, hphase, hhex⟩ := (hs hex).1 hmem
    obtain ⟨k', htask', hlater⟩ := h.client_persists hfresh htask (by omega)
    exact ⟨c, k', htask', hphase.trans hlater.phase, by rw [hlater.fingerprint, hhex]⟩
  have hback : ∀ c k', s'.tasks c = .client k' → 2 ≤ k'.point.phase →
      k'.fingerprint.hex ∈ s.aliases ∨ label = .client c .storeAlias := by
    intro c k' htask' hphase'
    rcases h.client_origin hfresh htask' with ⟨k, htask, hlater⟩ | ⟨-, hregister, -⟩
    · rcases phase_before hj h htask htask' with hsame | ⟨hsucc, move, hlabel, hadvance⟩
      · exact Or.inl ((hs _).2 ⟨c, k, htask, by omega, by rw [hlater.fingerprint]⟩)
      · by_cases hphase : 2 ≤ k.point.phase
        · exact Or.inl ((hs _).2 ⟨c, k, htask, hphase, by rw [hlater.fingerprint]⟩)
        · obtain hone : k.point.phase = 1 := by omega
          rw [hone] at hadvance
          obtain ⟨rfl, -⟩ := hadvance.unique .storeAlias (by omega)
          exact Or.inr hlabel
    · rw [hregister] at hphase'
      simp [Point.phase] at hphase'
  intro hex
  rcases h.aliases_cases with hsame | ⟨c, k, hlabel, -, -, htask', haliases⟩ |
      ⟨c, k, -, -, -, htask', -⟩
  · rw [hsame]
    refine ⟨hkeep hex, ?_⟩
    rintro ⟨c, k', htask', hphase', rfl⟩
    rcases hback c k' htask' hphase' with hmem | rfl
    · exact hmem
    · cases h with
      | storeAlias _ k htask _ _ =>
          rw [Stepped.client_eq_self htask', ← hsame]
          exact Finmap.mem_insert.2 (Or.inl rfl)
  · rw [haliases, Finmap.mem_insert]
    constructor
    · rintro (rfl | hmem)
      · exact ⟨c, _, htask', le_rfl, rfl⟩
      · exact hkeep hex hmem
    · rintro ⟨d, kd', hd', hphase', rfl⟩
      rcases hback d kd' hd' hphase' with hmem | hlabel'
      · exact Or.inr hmem
      · obtain ⟨rfl, -⟩ := Label.client.inj (hlabel.symm.trans hlabel')
        obtain rfl := Task.client.inj (hd'.symm.trans htask')
        exact Or.inl rfl
  · have hphase := hj.phase c _ htask'
    simp [Point.phase] at hphase

end HostListener

end Sanctum
