/-
The tables of the listener.

The table of connected clients is written by a registration and by the first line of a cleanup, the map
of channels by the task that opens one and by its cleanup, the aliases likewise.  What an entry refers
to is therefore a task that has come far enough to have made it.

Main definitions:

* `Sanctum.HostListener.Tables` — **every entry of a table belongs to a task that made it**.

Main results:

* `Sanctum.Stepped.connectedClients_cases`, `Sanctum.Stepped.clients_cases`,
  `Sanctum.Stepped.aliases_cases` — which steps write a table;
* `Sanctum.HostListener.tables_step` — the entries go on to belong to tasks.
-/

import Sanctum.ListenerTasks

set_option relaxedAutoImplicit false
set_option autoImplicit false

namespace Sanctum

open HostListener

namespace Stepped

variable {crates : Crates} {s s' : HostListener} {label : Label}

/-! ### Which steps write a table -/

/-- **The table of connected clients** is written by a registration and by a cleanup. -/
theorem connectedClients_cases (h : Stepped crates s label s') :
    s'.hostService.connectedClients = s.hostService.connectedClients ∧
        s'.registrations = s.registrations ∨
      (∃ c k, label = .client c .register ∧ s.tasks c = .client k ∧ k.point = .register ∧
        s.hostService.room.isAuthorized k.fingerprint = true ∧
        s'.tasks c = .client { k with point := .storeAlias } ∧
        s'.registrations = (k.fingerprint, c) :: s.registrations ∧
        ∀ fp, s'.hostService.connectedClients.lookup fp =
          if fp = k.fingerprint then some ⟨k.fingerprint, c, true⟩
          else s.hostService.connectedClients.lookup fp) ∨
      ∃ c k, label = .client c .removeClient ∧ s.tasks c = .client k ∧
        k.point = .removeClient ∧ s'.tasks c = .client { k with point := .removeSender } ∧
        s'.registrations = s.registrations ∧
        ∀ fp, s'.hostService.connectedClients.lookup fp =
          if fp = k.fingerprint then none else s.hostService.connectedClients.lookup fp := by
  cases h with
  | register c k svc htask hpoint _ hregister =>
      refine Or.inr (Or.inl ⟨c, k, rfl, htask, hpoint,
        (HostService.registerClient_eq_ok.1 hregister).1, ?_, rfl, fun fp => ?_⟩)
      · rw [tasks_setClient, if_pos rfl]
      · exact HostService.lookup_register_markReady hregister fp
  | removeClient c k htask hpoint _ =>
      refine Or.inr (Or.inr ⟨c, k, rfl, htask, hpoint, ?_, rfl, fun fp => ?_⟩)
      · rw [tasks_setClient, if_pos rfl]
      · exact HostService.lookup_removeClient s.hostService k.fingerprint fp
  | addIfAbsent c _ _ _ fp displayAlias now _ _ =>
      exact Or.inl ⟨HostService.connectedClients_addIfAbsent s.hostService fp displayAlias now, rfl⟩
  | _ => exact Or.inl ⟨rfl, rfl⟩

/-- **The map of channels** is written by the task that opens a channel and by its cleanup. -/
theorem clients_cases (h : Stepped crates s label s') :
    s'.clients = s.clients ∨
      (∃ c k, label = .client c .openChannel ∧ s.tasks c = .client k ∧
        k.point = .openChannel ∧ s'.tasks c = .client { k with point := .subscribe } ∧
        s'.clients = s.clients.insert c ⟨c⟩) ∨
      ∃ c k, label = .client c .removeSender ∧ s.tasks c = .client k ∧
        k.point = .removeSender ∧ s'.tasks c = .client { k with point := .removeAlias } ∧
        s'.clients = s.clients.erase c := by
  cases h with
  | openChannel c k htask hpoint _ =>
      refine Or.inr (Or.inl ⟨c, k, rfl, htask, hpoint, ?_, rfl⟩)
      rw [tasks_setClient, if_pos rfl]
  | removeSender c k htask hpoint _ =>
      refine Or.inr (Or.inr ⟨c, k, rfl, htask, hpoint, ?_, rfl⟩)
      rw [tasks_setClient, if_pos rfl]
  | _ => exact Or.inl rfl

/-- **The aliases** are written by a task on its way in and on its way out. -/
theorem aliases_cases (h : Stepped crates s label s') :
    s'.aliases = s.aliases ∨
      (∃ c k, label = .client c .storeAlias ∧ s.tasks c = .client k ∧
        k.point = .storeAlias ∧ s'.tasks c = .client { k with point := .openChannel } ∧
        s'.aliases = s.aliases.insert k.fingerprint.hex k.displayAlias) ∨
      ∃ c k, label = .client c .removeAlias ∧ s.tasks c = .client k ∧
        k.point = .removeAlias ∧ s'.tasks c = .client { k with point := .ended } ∧
        s'.aliases = s.aliases.erase k.fingerprint.hex := by
  cases h with
  | storeAlias c k htask hpoint _ =>
      refine Or.inr (Or.inl ⟨c, k, rfl, htask, hpoint, ?_, rfl⟩)
      rw [tasks_setClient, if_pos rfl]
  | removeAlias c k htask hpoint _ =>
      refine Or.inr (Or.inr ⟨c, k, rfl, htask, hpoint, ?_, rfl⟩)
      rw [tasks_setClient, if_pos rfl]
  | _ => exact Or.inl rfl

end Stepped

/-! ### What the entries refer to -/

/-- **Every entry of a table belongs to a task that made it.** -/
structure HostListener.Tables (s : HostListener) : Prop where
  fresh : s.Fresh
  registered : ∀ fp client, s.hostService.connectedClients.lookup fp = some client →
    client.fingerprint = fp ∧ client.ready = true ∧
      ∃ k, s.tasks client.connectionId = .client k ∧ k.fingerprint = fp ∧ 1 ≤ k.point.phase
  senders : ∀ c tx, s.clients.lookup c = some tx →
    tx.owner = c ∧ ∃ k, s.tasks c = .client k ∧ 3 ≤ k.point.phase

namespace HostListener

variable {crates : Crates} {s s' : HostListener} {label : Label}

theorem tables_start (room : Room) (hostNoisePubkey : Bytes) :
    (start room hostNoisePubkey).Tables where
  fresh := fun _ _ => rfl
  registered := by simp [start, HostService.new]
  senders := by simp [start]

/-- A step uses up at most the next connection number. -/
theorem fresh_step (hfresh : s.Fresh) (h : Stepped crates s label s') : s'.Fresh := by
  intro d hd
  by_cases haccept : label = .accept
  · subst haccept
    cases h
    have hlt : s.connCounter < d := Nat.lt_of_succ_le hd
    rw [tasks_setTask, if_neg (Nat.ne_of_gt hlt)]
    exact hfresh d (Nat.le_of_lt hlt)
  · have hcounter : s'.connCounter = s.connCounter := by
      cases h with
      | accept => exact absurd rfl haccept
      | _ => rfl
    have hevolves := h.evolves hfresh d
    rw [hfresh d (hcounter ▸ hd)] at hevolves
    generalize s'.tasks d = task at hevolves
    cases hevolves with
    | same => rfl
    | accepted hlabel _ => exact absurd hlabel haccept

/-- **The entries of the tables go on to belong to tasks.** -/
theorem tables_step (ht : s.Tables) (h : Stepped crates s label s') : s'.Tables where
  fresh := fresh_step ht.fresh h
  registered := by
    intro fp client hlook
    have hkeep : ∀ client, s.hostService.connectedClients.lookup fp = some client →
        client.fingerprint = fp ∧ client.ready = true ∧
          ∃ k, s'.tasks client.connectionId = .client k ∧ k.fingerprint = fp ∧
            1 ≤ k.point.phase := by
      intro client hold
      obtain ⟨hfp, hready, k, htask, hkfp, hphase⟩ := ht.registered fp client hold
      obtain ⟨k', htask', hlater⟩ := h.client_persists ht.fresh htask hphase
      exact ⟨hfp, hready, k', htask', hlater.fingerprint.trans hkfp, hphase.trans hlater.phase⟩
    rcases h.connectedClients_cases with ⟨hsame, -⟩ | ⟨c, k, -, -, -, -, htask', -, hlook'⟩ |
        ⟨c, k, -, -, -, -, -, hlook'⟩
    · rw [hsame] at hlook
      exact hkeep client hlook
    · rw [hlook'] at hlook
      split at hlook
      · next hfp =>
          obtain rfl := Option.some_inj.1 hlook
          exact ⟨hfp.symm, rfl, _, htask', hfp.symm, le_rfl⟩
      · exact hkeep client hlook
    · rw [hlook'] at hlook
      split at hlook
      · simp at hlook
      · exact hkeep client hlook
  senders := by
    intro c tx hlook
    have hkeep : s.clients.lookup c = some tx →
        tx.owner = c ∧ ∃ k, s'.tasks c = .client k ∧ 3 ≤ k.point.phase := by
      intro hold
      obtain ⟨howner, k, htask, hphase⟩ := ht.senders c tx hold
      obtain ⟨k', htask', hlater⟩ := h.client_persists ht.fresh htask (by omega)
      exact ⟨howner, k', htask', hphase.trans hlater.phase⟩
    rcases h.clients_cases with hsame | ⟨c', k, -, -, -, htask', hclients⟩ |
        ⟨c', k, -, -, -, -, hclients⟩
    · exact hkeep (hsame ▸ hlook)
    · rw [hclients, lookup_insert_ite] at hlook
      split at hlook
      · next hc =>
          obtain rfl := Option.some_inj.1 hlook
          exact ⟨hc.symm, _, hc ▸ htask', le_rfl⟩
      · exact hkeep hlook
    · rw [hclients, lookup_erase_ite] at hlook
      split at hlook
      · simp at hlook
      · exact hkeep hlook

/-- The connection that a fingerprint is resolved to belongs to a registered client of that
fingerprint. -/
theorem Tables.connectionIdFor (ht : s.Tables) {fp : Fingerprint} {cid : ConnId}
    (h : s.hostService.connectionIdFor fp = some cid) :
    ∃ k, s.tasks cid = .client k ∧ k.fingerprint = fp ∧ 1 ≤ k.point.phase := by
  obtain ⟨client, hlook, rfl⟩ := Option.map_eq_some_iff.1 h
  exact (ht.registered fp client hlook).2.2

end HostListener

end Sanctum
