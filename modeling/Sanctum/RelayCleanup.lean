/-
What a client leaves behind.

A task that leaves the message loop takes its client out of the table of connected clients, its channel
out of the map of channels, and its alias out of the aliases, in this order.  A write of a pong that
fails returns from the task at once instead, and nothing is taken out.  So a run leaves no entry of a
task that has ended exactly if no write of a pong fails in it.

Main definitions:

* `Sanctum.HostListener.NoGhosts` — **nothing refers to a connection whose task has ended**;
* `Sanctum.HostListener.Clean` — an entry belongs to a task that has yet to take it out;
* `Sanctum.HostListener.Opened` — a task has a channel in the map between opening and removing it.

Main results:

* `Sanctum.HostListener.no_ghosts_iff` — **when a run leaves no ghosts**;
* `Sanctum.HostListener.ghost_after_pong` — a client that is gone when its ping is answered.
-/

import Sanctum.RelayOrder

set_option relaxedAutoImplicit false
set_option autoImplicit false

namespace Sanctum

open HostListener

/-- The last phase. -/
theorem Point.phase_eq_ended {point : Point} : point.phase = 11 ↔ point = .ended := by
  cases point <;> simp [Point.phase]

namespace HostListener

/-- **Nothing refers to a connection whose task has ended**, and an alias belongs to a fingerprint
with a connection that is registered and has not ended. -/
structure NoGhosts (s : HostListener) : Prop where
  registered : ∀ c k, s.tasks c = .client k → k.point = .ended →
    ∀ fp client, s.hostService.connectedClients.lookup fp = some client →
      client.connectionId ≠ c
  senders : ∀ c k, s.tasks c = .client k → k.point = .ended → s.clients.lookup c = none
  aliases : ∀ hex ∈ s.aliases, ∃ c k, s.tasks c = .client k ∧ k.fingerprint.hex = hex ∧
    1 ≤ k.point.phase ∧ k.point ≠ .ended

/-- An entry belongs to a task that has yet to take it out. -/
structure Clean (s : HostListener) : Prop where
  registered : ∀ fp client, s.hostService.connectedClients.lookup fp = some client →
    ∃ k, s.tasks client.connectionId = .client k ∧ k.fingerprint = fp ∧ 1 ≤ k.point.phase ∧
      k.point.phase ≤ 8
  senders : ∀ c ∈ s.clients, ∃ k, s.tasks c = .client k ∧ 1 ≤ k.point.phase ∧
    k.point.phase ≤ 9
  aliases : ∀ hex ∈ s.aliases, ∃ c k, s.tasks c = .client k ∧ k.fingerprint.hex = hex ∧
    1 ≤ k.point.phase ∧ k.point.phase ≤ 10

/-- A task has a channel in the map from the time it opens one until it removes it. -/
def Opened (s : HostListener) : Prop :=
  ∀ c k, s.tasks c = .client k → 3 ≤ k.point.phase → k.point.phase ≤ 9 → c ∈ s.clients

/-- The step is not a write of a pong that fails. -/
def PongsWritten (_ : HostListener) (label : Label) : Prop := ∀ c, label ≠ .client c (.pong false)

end HostListener

namespace Stepped

variable {crates : Crates} {s s' : HostListener} {label : Label}

/-- A task stays within a phase of the cleanup until it makes the move that ends it. -/
theorem phase_le (h : Stepped crates s label s') (hpong : s.PongsWritten label) {d : ConnId}
    {kd kd' : Client} (hd : s.tasks d = .client kd) (hd' : s'.tasks d = .client kd') {n : ℕ}
    (hn : 8 ≤ n) (hphase : kd.point.phase ≤ n)
    (hmove : ∀ move p, Advances n move p → label ≠ .client d move) : kd'.point.phase ≤ n := by
  rcases h.phase_cases hd hd' with hsame | ⟨move, hlabel, hadvance⟩
  · rw [hsame]
    exact hphase
  · rcases Nat.lt_or_eq_of_le hphase with hlt | heq
    · generalize kd.point.phase = p, kd'.point.phase = p' at hadvance hlt
      cases hadvance with
      | pongError => exact absurd hlabel (hpong d)
      | _ => omega
    · exact absurd hlabel (hmove move _ (heq ▸ hadvance))

end Stepped

namespace HostListener

variable {crates : Crates} {s s' : HostListener} {label : Label}

/-! ### The cleanup -/

theorem clean_start (room : Room) (hostNoisePubkey : Bytes) :
    (start room hostNoisePubkey).Clean where
  registered := by simp [start, HostService.new]
  senders := fun c hmem => absurd hmem Finmap.notMem_empty
  aliases := fun hex hmem => absurd hmem Finmap.notMem_empty

/-- **The entries go on to belong to tasks that have yet to take them out**, unless the write of a pong
fails. -/
theorem clean_step (ht : s.Tables) (hc : s.Clean) (h : Stepped crates s label s')
    (hpong : s.PongsWritten label) : s'.Clean where
  registered := by
    intro fp client hlook
    have hkeep : s.hostService.connectedClients.lookup fp = some client →
        ∃ k, s'.tasks client.connectionId = .client k ∧ k.fingerprint = fp ∧
          1 ≤ k.point.phase ∧ k.point.phase ≤ 8 := by
      intro hold
      obtain ⟨k, htask, hfp, hlower, hupper⟩ := hc.registered fp client hold
      obtain ⟨k', htask', hlater⟩ := h.client_persists ht.fresh htask hlower
      refine ⟨k', htask', hlater.fingerprint.trans hfp, hlower.trans hlater.phase, ?_⟩
      refine h.phase_le hpong htask htask' le_rfl hupper fun move p hadvance hlabel => ?_
      cases hadvance
      subst hlabel
      cases h with
      | removeClient _ k₀ hk₀ _ _ =>
          obtain rfl := Task.client.inj (htask.symm.trans hk₀)
          have hgone := HostService.lookup_removeClient s.hostService k.fingerprint fp
          rw [if_pos hfp.symm] at hgone
          exact absurd (hlook.symm.trans hgone) (by simp)
    rcases h.connectedClients_cases with ⟨hsame, -⟩ | ⟨c, k, -, -, -, -, htask', -, hlook'⟩ |
        ⟨c, k, -, -, -, -, -, hlook'⟩
    · exact hkeep (hsame ▸ hlook)
    · rw [hlook'] at hlook
      split at hlook
      · next hfp =>
          obtain rfl := Option.some_inj.1 hlook
          exact ⟨_, htask', hfp.symm, le_rfl, by simp [Point.phase]⟩
      · next hfp => exact hkeep hlook
    · rw [hlook'] at hlook
      split at hlook
      · simp at hlook
      · exact hkeep hlook
  senders := by
    intro c hmem
    have hkeep : c ∈ s.clients →
        ∃ k, s'.tasks c = .client k ∧ 1 ≤ k.point.phase ∧ k.point.phase ≤ 9 := by
      intro hold
      obtain ⟨k, htask, hlower, hupper⟩ := hc.senders c hold
      obtain ⟨k', htask', hlater⟩ := h.client_persists ht.fresh htask hlower
      refine ⟨k', htask', hlower.trans hlater.phase, ?_⟩
      refine h.phase_le hpong htask htask' (by omega) hupper fun move p hadvance hlabel => ?_
      cases hadvance
      subst hlabel
      cases h with
      | removeSender _ k₀ hk₀ _ _ => exact Finmap.notMem_erase_self hmem
    rcases h.clients_cases with hsame | ⟨c', k, -, -, -, htask', hclients⟩ |
        ⟨c', k, -, -, -, -, hclients⟩
    · exact hkeep (hsame ▸ hmem)
    · rw [hclients, Finmap.mem_insert] at hmem
      rcases hmem with rfl | hmem
      · exact ⟨_, htask', by simp [Point.phase], by simp [Point.phase]⟩
      · exact hkeep hmem
    · rw [hclients, Finmap.mem_erase] at hmem
      exact hkeep hmem.2
  aliases := by
    intro hex hmem
    have hkeep : hex ∈ s.aliases → ∃ c k, s'.tasks c = .client k ∧ k.fingerprint.hex = hex ∧
        1 ≤ k.point.phase ∧ k.point.phase ≤ 10 := by
      intro hold
      obtain ⟨c, k, htask, hfp, hlower, hupper⟩ := hc.aliases hex hold
      obtain ⟨k', htask', hlater⟩ := h.client_persists ht.fresh htask hlower
      refine ⟨c, k', htask', by rw [hlater.fingerprint, hfp], hlower.trans hlater.phase, ?_⟩
      refine h.phase_le hpong htask htask' (by omega) hupper fun move p hadvance hlabel => ?_
      cases hadvance
      subst hlabel
      cases h with
      | removeAlias _ k₀ hk₀ _ _ =>
          obtain rfl := Task.client.inj (htask.symm.trans hk₀)
          rw [← hfp] at hmem
          exact Finmap.notMem_erase_self hmem
    rcases h.aliases_cases with hsame | ⟨c, k, -, -, -, htask', haliases⟩ |
        ⟨c, k, -, -, -, -, haliases⟩
    · exact hkeep (hsame ▸ hmem)
    · rw [haliases, Finmap.mem_insert] at hmem
      rcases hmem with rfl | hmem
      · exact ⟨c, _, htask', rfl, by simp [Point.phase], by simp [Point.phase]⟩
      · exact hkeep hmem
    · rw [haliases, Finmap.mem_erase] at hmem
      exact hkeep hmem.2

theorem Clean.noGhosts (hc : s.Clean) : s.NoGhosts where
  registered := by
    rintro c k htask hended fp client hlook rfl
    obtain ⟨k', htask', -, -, hphase⟩ := hc.registered fp client hlook
    obtain rfl := Task.client.inj (htask.symm.trans htask')
    rw [hended] at hphase
    simp [Point.phase] at hphase
  senders := by
    intro c k htask hended
    rw [Finmap.lookup_eq_none]
    intro hmem
    obtain ⟨k', htask', -, hphase⟩ := hc.senders c hmem
    obtain rfl := Task.client.inj (htask.symm.trans htask')
    rw [hended] at hphase
    simp [Point.phase] at hphase
  aliases := by
    intro hex hmem
    obtain ⟨c, k, htask, hfp, hlower, hupper⟩ := hc.aliases hex hmem
    refine ⟨c, k, htask, hfp, hlower, fun hended => ?_⟩
    rw [hended] at hupper
    simp [Point.phase] at hupper

/-! ### The channel of a task -/

theorem opened_start (room : Room) (hostNoisePubkey : Bytes) :
    (start room hostNoisePubkey).Opened := by
  intro c k htask
  simp [start] at htask

theorem opened_step (ht : s.Tables) (ho : s.Opened) (h : Stepped crates s label s') :
    s'.Opened := by
  intro c k' htask' hlower hupper
  rcases h.client_origin ht.fresh htask' with ⟨k, htask, -⟩ | ⟨-, hregister, -⟩
  swap
  · rw [hregister] at hlower
    simp [Point.phase] at hlower
  by_cases hopen : label = .client c .openChannel
  · subst hopen
    cases h with
    | openChannel _ k₀ hk₀ _ _ => exact Finmap.mem_insert.2 (Or.inl rfl)
  have hmem : c ∈ s.clients := by
    rcases h.phase_cases htask htask' with hsame | ⟨move, hlabel, hadvance⟩
    · exact ho c k htask (hsame ▸ hlower) (hsame ▸ hupper)
    · generalize hp : k.point.phase = p, k'.point.phase = p' at hadvance hlower hupper
      cases hadvance with
      | openChannel => exact absurd hlabel hopen
      | _ => exact ho c k htask (by omega) (by omega)
  rcases h.clients_cases with hsame | ⟨c', k₀, -, -, -, -, hclients⟩ |
      ⟨c', k₀, -, -, -, hk₀, hclients⟩
  · exact hsame ▸ hmem
  · rw [hclients]
    exact Finmap.mem_insert.2 (Or.inr hmem)
  · rw [hclients]
    refine Finmap.mem_erase.2 ⟨?_, hmem⟩
    rintro rfl
    obtain rfl := Task.client.inj (htask'.symm.trans hk₀)
    simp [Point.phase] at hupper

/-- After a write of a pong that fails, the map of channels refers to a connection whose task has
ended. -/
theorem ghost_of_pongError (ho : s.Opened) (h : Stepped crates s label s')
    (hpong : ¬ s.PongsWritten label) : ¬ s'.NoGhosts := by
  unfold PongsWritten at hpong
  push Not at hpong
  obtain ⟨c, rfl⟩ := hpong
  cases h with
  | pongError _ k htask hpoint =>
      intro hghosts
      have hmem := ho c k htask (by simp [hpoint, Point.phase]) (by simp [hpoint, Point.phase])
      have hnone := hghosts.senders c { k with point := .ended }
        (by rw [tasks_setClient, if_pos rfl]) rfl
      exact Finmap.lookup_eq_none.1 hnone hmem

/-! ### Runs -/

/-- What holds in every state as long as no write of a pong has failed. -/
structure Tidy (s : HostListener) : Prop where
  tables : s.Tables
  clean : s.Clean
  opened : s.Opened

theorem tidy_start (room : Room) (hostNoisePubkey : Bytes) : (start room hostNoisePubkey).Tidy :=
  ⟨tables_start room hostNoisePubkey, clean_start room hostNoisePubkey,
    opened_start room hostNoisePubkey⟩

theorem Tidy.step (hs : s.Tidy) (h : Stepped crates s label s') (hpong : s.PongsWritten label) :
    s'.Tidy :=
  ⟨tables_step hs.tables h, clean_step hs.tables hs.clean h hpong,
    opened_step hs.tables hs.opened h⟩

/-- One step leaves no ghosts exactly if it is not a write of a pong that fails. -/
theorem noGhosts_step (hs : s.Tidy) (h : Stepped crates s label s') :
    s'.NoGhosts ↔ s.PongsWritten label := by
  constructor
  · intro hghosts
    by_contra hpong
    exact ghost_of_pongError hs.opened h hpong hghosts
  · intro hpong
    exact (hs.step h hpong).clean.noGhosts

/-- **When a run leaves no ghosts**: nothing refers to an ended connection in any state of a run exactly
if no write of a pong fails in it. -/
theorem no_ghosts_iff {room : Room} {hostNoisePubkey : Bytes} {labels : List Label}
    (hrun : Runs.run (step crates) (start room hostNoisePubkey) labels = some s) :
    Runs.Throughout (step crates) NoGhosts (start room hostNoisePubkey) labels ↔
      ∀ label ∈ labels, ∀ c, label ≠ .client c (.pong false) := by
  rw [← Runs.meets_iff_forall_mem hrun]
  refine Runs.throughout_iff_meets ?_ ?_ (tidy_start room hostNoisePubkey)
    (clean_start room hostNoisePubkey).noGhosts hrun
  · intro s label s' hs _ hstep hghosts
    have h := stepped_of_step hstep
    exact hs.step h ((noGhosts_step hs h).1 hghosts)
  · exact fun s label s' hs _ hstep => noGhosts_step hs (stepped_of_step hstep)

/-- A member leaves. -/
def testLeave (c : ConnId) : List Label :=
  [.client c .removeClient, .client c .removeSender, .client c .removeAlias]

/-- Both members join, the host is shut down, and they leave. -/
def testShutdown : List Label :=
  testBoth ++ [.cancel, .client 1 .cancelled, .client 2 .cancelled] ++ testLeave 1 ++ testLeave 2

/-- A shutdown leaves nothing behind. -/
theorem no_ghosts_after_shutdown : ∃ s,
    Runs.run (step testCrates) testStart testShutdown = some s ∧
      Runs.Throughout (step testCrates) NoGhosts testStart testShutdown := by
  have heval : (Runs.run (step testCrates) testStart testShutdown).isSome = true := by
    decide +kernel
  obtain ⟨s, hrun⟩ := Option.isSome_iff_exists.1 heval
  refine ⟨s, hrun, (no_ghosts_iff hrun).2 ?_⟩
  simp [testShutdown, testBoth, testArrive, testGreet, testLeave]

/-- A ping. -/
def testPing : Frame where
  messageType := MessageType.ping
  payload := []

/-- The member sends a ping and is gone when it is answered: its task has ended, and all three tables
keep an entry for it. -/
theorem ghost_after_pong : ∃ s k,
    Runs.run (step testCrates) testStart
        (testBoth ++ [.client 2 (.receive testPing), .client 2 (.pong false)]) = some s ∧
      s.tasks 2 = .client k ∧ k.point = .ended ∧
      s.hostService.connectedClients.lookup (HostService.testFp "BB") =
        some ⟨HostService.testFp "BB", 2, true⟩ ∧
      s.clients.lookup 2 = some ⟨2⟩ ∧ (HostService.testFp "BB").hex ∈ s.aliases ∧
      ¬ s.NoGhosts := by
  have heval : ((Runs.run (step testCrates) testStart
      (testBoth ++ [Label.client 2 (.receive testPing), Label.client 2 (.pong false)])).bind fun s =>
        (s.clientPair 1 2).map fun (_, kd) =>
          (kd.point.phase, s.hostService.connectedClients.lookup (HostService.testFp "BB"),
            (s.clients.lookup 2).map Sender.owner,
            decide ((HostService.testFp "BB").hex ∈ s.aliases))) =
      some (11, some ⟨HostService.testFp "BB", 2, true⟩, some 2, true) := by
    decide +kernel
  obtain ⟨s, hrun, hread⟩ := Option.bind_eq_some_iff.1 heval
  obtain ⟨⟨k, kd⟩, hpair, hread⟩ := Option.map_eq_some_iff.1 hread
  obtain ⟨-, hkd⟩ := clientPair_eq_some.1 hpair
  simp only [Prod.mk.injEq, decide_eq_true_eq] at hread
  obtain ⟨hphase, hregistered, hsender, halias⟩ := hread
  have hended := Point.phase_eq_ended.1 hphase
  obtain ⟨⟨owner⟩, hlook, rfl⟩ := Option.map_eq_some_iff.1 hsender
  refine ⟨s, kd, hrun, hkd, hended, hregistered, hlook, halias, fun hghosts => ?_⟩
  exact hghosts.registered 2 kd hkd hended _ _ hregistered rfl

end HostListener

end Sanctum
