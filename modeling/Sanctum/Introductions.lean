/-
Under which names the members are introduced.

A client claims a fingerprint and an alias when it authenticates.  The task of the client keeps both, the host
stores the alias under the fingerprint, and everything that it announces comes from there: the notices for a
newcomer, and the broadcast for the others.  So whoever is introduced has authenticated, and under this alias.

Main definitions:

* `Sanctum.Task.claim` — the fingerprint and the alias that a client claims;
* `Sanctum.HostListener.Introduced` — a client that has registered claims them;
* `Sanctum.HostListener.Announced` — **whatever is announced is claimed**.

Main results:

* `Sanctum.HostListener.claim_step` — a claim is read from a response, and kept;
* `Sanctum.HostListener.announced_step` — **every step keeps what is announced to claims**;
* `Sanctum.HostListener.writtenFrom_sublist` — what is written from a connection has been received there,
  in order.
-/

import Sanctum.PresenceNotices

set_option relaxedAutoImplicit false
set_option autoImplicit false

namespace Sanctum

open HostListener

/-! ### Claims -/

/-- The fingerprint and the alias that a client claims, once its response has been read. -/
def Stage.claim : Stage → Option (Fingerprint × String)
  | .handshake => none
  | .readRoomId => none
  | .createChallenge _ => none
  | .awaitResponse _ => none
  | .addMember _ fp displayAlias => some (fp, displayAlias)
  | .readAllowlist _ fp displayAlias => some (fp, displayAlias)
  | .verify _ fp displayAlias _ => some (fp, displayAlias)
  | .sendResult fp displayAlias => some (fp, displayAlias)

/-- **What the client of a task claims.** -/
def Task.claim : Task → Option (Fingerprint × String)
  | .absent => none
  | .authenticating stage => stage.claim
  | .client k => some (k.fingerprint, k.displayAlias)
  | .failed => none

namespace Stepped

variable {crates : Crates} {s s' : HostListener} {label : Label}

/-- A step of a client leaves the tasks that are none. -/
theorem tasks_of_not_client {c d : ConnId} {move : Move} (h : Stepped crates s (.client c move) s')
    (hd : ∀ k, s.tasks d ≠ .client k) : s'.tasks d = s.tasks d := by
  cases h with
  | push _ k frame rest tx kd htask _ howner _ _ =>
      have hdc : d ≠ c := fun hdc => hd k (hdc ▸ htask)
      have hdo : d ≠ tx.owner := fun hdo => hd kd (hdo ▸ howner)
      rw [tasks_enqueue, if_neg hdo, tasks_setClient, if_neg hdc]
  | _ =>
      have htask : ∃ k, s.tasks c = .client k := ⟨_, by assumption⟩
      obtain ⟨k, htask⟩ := htask
      have hdc : d ≠ c := fun hdc => hd k (hdc ▸ htask)
      exact Function.update_of_ne hdc _ _

end Stepped

namespace HostListener

variable {crates : Crates} {s s' : HostListener} {label : Label}

/-- The authentication changes the task of the connection only. -/
theorem tasks_authStep_of_ne {c d : ConnId} {stage : Stage} {move : AuthMove}
    (htask : s.tasks c = .authenticating stage) (h : s.authStep crates c stage move = some s') (hdc : d ≠ c) :
    s'.tasks d = s.tasks d := by
  cases stepped_of_authStep htask h with
  | _ => exact Function.update_of_ne hdc _ _

/-- A claim is read from the response. -/
theorem claim_authStep {c : ConnId} {stage : Stage} {move : AuthMove} {claim : Fingerprint × String}
    (h : s.authStep crates c stage move = some s') (hclaim : (s'.tasks c).claim = some claim) :
    stage.claim = some claim ∨
      ∃ reply, move = .respond (some reply) ∧ readAuthResponse crates.pb reply = .ok claim := by
  unfold authStep at h
  split at h
  · next ok =>
      obtain rfl := Option.some_inj.1 h
      cases ok with
      | true =>
          rw [tasks_setTask, if_pos rfl, if_pos rfl] at hclaim
          cases hclaim
      | false =>
          rw [tasks_setTask, if_pos rfl, if_neg Bool.false_ne_true] at hclaim
          cases hclaim
  · split at h
    · obtain rfl := Option.some_inj.1 h
      rw [tasks_setTask, if_pos rfl] at hclaim
      cases hclaim
    · cases h
  · obtain rfl := Option.some_inj.1 h
    rw [tasks_setTask, if_pos rfl] at hclaim
    cases hclaim
  · next challenge reply =>
      cases reply with
      | none =>
          obtain rfl := Option.some_inj.1 h
          rw [tasks_setTask, if_pos rfl] at hclaim
          cases hclaim
      | some reply =>
          rw [Option.map_some] at h
          rcases hread : readAuthResponse crates.pb reply with e | ⟨fp, displayAlias⟩
          · rw [hread] at h
            obtain rfl := Option.some_inj.1 h
            rw [tasks_setTask, if_pos rfl] at hclaim
            cases hclaim
          · rw [hread] at h
            obtain rfl := Option.some_inj.1 h
            rw [tasks_setTask, if_pos rfl] at hclaim
            exact Or.inr ⟨reply, rfl, congrArg Except.ok (Option.some_inj.1 hclaim) ▸ hread⟩
  · split at h
    · obtain rfl := Option.some_inj.1 h
      rw [tasks_setTask, if_pos rfl] at hclaim
      exact Or.inl hclaim
    · cases h
  · split at h
    · obtain rfl := Option.some_inj.1 h
      rw [tasks_setTask, if_pos rfl] at hclaim
      exact Or.inl hclaim
    · cases h
  · dsimp only at h
    split at h
    · obtain rfl := Option.some_inj.1 h
      rw [tasks_setTask, if_pos rfl] at hclaim
      exact Or.inl hclaim
    · obtain rfl := Option.some_inj.1 h
      rw [tasks_setTask, if_pos rfl] at hclaim
      cases hclaim
  · split at h
    · obtain rfl := Option.some_inj.1 h
      rw [tasks_setClient, if_pos rfl] at hclaim
      exact Or.inl hclaim
    · obtain rfl := Option.some_inj.1 h
      rw [tasks_setTask, if_pos rfl] at hclaim
      cases hclaim
  · cases h

/-- **A claim is read from the response of the client, and kept.** -/
theorem claim_step (hfresh : s.Fresh) (h : step crates s label = some s') {d : ConnId}
    {claim : Fingerprint × String} (hclaim : (s'.tasks d).claim = some claim) :
    (s.tasks d).claim = some claim ∨
      ∃ reply, label = .authenticate d (.respond (some reply)) ∧
        readAuthResponse crates.pb reply = .ok claim := by
  cases label with
  | accept =>
      obtain rfl := Option.some_inj.1 h
      rw [tasks_setTask] at hclaim
      split at hclaim
      · cases hclaim
      · exact Or.inl hclaim
  | cancel =>
      obtain rfl := Option.some_inj.1 h
      exact Or.inl hclaim
  | addMember member =>
      cases stepped_of_step h with
      | _ => exact Or.inl hclaim
  | revokeMember fp =>
      cases stepped_of_step h with
      | _ => exact Or.inl hclaim
  | authenticate c move =>
      unfold step at h
      dsimp only at h
      rcases htask : s.tasks c with _ | stage | k | _
      all_goals rw [htask] at h
      · cases h
      · dsimp only at h
        by_cases hdc : d = c
        · subst hdc
          rw [htask]
          rcases claim_authStep h hclaim with hstage | ⟨reply, rfl, hread⟩
          · exact Or.inl hstage
          · exact Or.inr ⟨reply, rfl, hread⟩
        · rw [tasks_authStep_of_ne htask h hdc] at hclaim
          exact Or.inl hclaim
      · cases h
      · cases h
  | client c move =>
      have hstepped := stepped_of_step h
      by_cases hd : ∃ k, s.tasks d = .client k
      · obtain ⟨k, hk⟩ := hd
        have hevolves := hstepped.evolves hfresh d
        rw [hk] at hevolves ⊢
        generalize s'.tasks d = task at hevolves hclaim
        cases hevolves with
        | same => exact Or.inl hclaim
        | registerError _ _ => cases hclaim
        | later _ k' hlater =>
            have hsame : (Task.client k').claim = (Task.client k).claim := by
              rw [Task.claim, Task.claim, hlater.fingerprint, hlater.displayAlias]
            exact Or.inl (hsame.symm.trans hclaim)
      · rw [hstepped.tasks_of_not_client (not_exists.1 hd)] at hclaim
        exact Or.inl hclaim

/-! ### Announcements -/

/-- **A client that has registered claims the fingerprint and the alias.** -/
def Introduced (s : HostListener) (p : PeerReady) : Prop :=
  ∃ c k, s.tasks c = .client k ∧ 1 ≤ k.point.phase ∧ k.fingerprint.hex = p.fingerprint ∧
    k.displayAlias = p.displayAlias

/-- **Whatever is stored, announced and written is claimed**; only pongs are written besides. -/
structure Announced (pb : ProtoCodec) (s : HostListener) : Prop where
  aliases : ∀ fp a, s.aliases.lookup fp = some a → s.Introduced ⟨fp, a⟩
  greeting : ∀ c k rest, s.tasks c = .client k → k.point = .greet rest →
    ∀ fp a, rest.lookup fp = some a → s.Introduced ⟨fp, a⟩
  broadcast : ∀ routed ∈ s.routeTx, ∃ p, s.Introduced p ∧ routed.frame = pb.peerReadyFrame p
  written : ∀ c k, s.tasks c = .client k → ∀ frame, .own frame ∈ k.sent →
    frame = pongFrame ∨ ∃ p, s.Introduced p ∧ frame = pb.peerReadyFrame p
  unheard : ∀ c k, s.tasks c = .client k → k.point = .register → k.sent = []

theorem announced_start (pb : ProtoCodec) (room : Room) (hostNoisePubkey : Bytes) :
    (start room hostNoisePubkey).Announced pb where
  aliases := by simp [start]
  greeting := by simp [start]
  broadcast := by simp [start]
  written := by simp [start]
  unheard := by simp [start]

/-- Who has been introduced stays so. -/
theorem Introduced.step {p : PeerReady} (h : s.Introduced p) (hfresh : s.Fresh)
    (hstep : Stepped crates s label s') : s'.Introduced p := by
  obtain ⟨c, k, hk, hphase, hfp, ha⟩ := h
  obtain ⟨k', hk', hlater⟩ := hstep.client_persists hfresh hk hphase
  exact ⟨c, k', hk', hphase.trans hlater.phase, hlater.fingerprint ▸ hfp, hlater.displayAlias ▸ ha⟩

/-- What is still to be announced to a newcomer has been before, or comes from the table. -/
theorem greeting_cases {d : ConnId} {kd kd' : Client} (h : kd.StepsTo crates s d label kd')
    {rest : HashMap String String} (hpoint : kd'.point = .greet rest) {fp a : String}
    (hlookup : rest.lookup fp = some a) :
    s.aliases.lookup fp = some a ∨ ∃ rest₀, kd.point = .greet rest₀ ∧ rest₀.lookup fp = some a := by
  have herase : ∀ (rest₀ : HashMap String String) (fp₀ : String), (rest₀.erase fp₀).lookup fp = some a →
      rest₀.lookup fp = some a := by
    intro rest₀ fp₀ h₀
    rw [lookup_erase_ite] at h₀
    split at h₀
    · cases h₀
    · exact h₀
  cases h with
  | idle _ _ => exact Or.inr ⟨rest, hpoint, hlookup⟩
  | delivered _ _ _ _ _ _ _ _ _ _ => exact Or.inr ⟨rest, hpoint, hlookup⟩
  | lockAliases _ =>
      obtain rfl := Point.greet.inj hpoint
      exact Or.inl hlookup
  | greet rest₀ fp₀ _ hpoint₀ _ =>
      obtain rfl := Point.greet.inj hpoint
      exact Or.inr ⟨rest₀, hpoint₀, herase rest₀ fp₀ hlookup⟩
  | greetSkip rest₀ fp₀ _ hpoint₀ _ =>
      obtain rfl := Point.greet.inj hpoint
      exact Or.inr ⟨rest₀, hpoint₀, herase rest₀ fp₀ hlookup⟩
  | receive frame _ =>
      have hphase := congrArg Point.phase hpoint
      rw [Point.phase_afterReceive] at hphase
      cases hphase
  | takeOut _ _ hselect _ => cases hselect.symm.trans hpoint
  | takeRouted _ hselect _ => cases hselect.symm.trans hpoint
  | takeRoutedOwn _ _ hselect _ _ => cases hselect.symm.trans hpoint
  | lagged hselect => cases hselect.symm.trans hpoint
  | _ => cases hpoint

/-- What a task writes of the host's own is a pong, or is announced. -/
theorem written_cases (ha : s.Announced crates.pb) {d : ConnId} {kd kd' : Client}
    (hkd : s.tasks d = .client kd) (h : kd.StepsTo crates s d label kd') {frame : Frame}
    (hmem : .own frame ∈ kd'.sent) :
    .own frame ∈ kd.sent ∨ frame = pongFrame ∨
      ∃ p, s.Introduced p ∧ frame = crates.pb.peerReadyFrame p := by
  have hnew : ∀ f, .own frame ∈ kd.sent ++ [f] → .own frame ∈ kd.sent ∨ f = .own frame := by
    intro f hf
    rcases List.mem_append.1 hf with hf | hf
    · exact Or.inl hf
    · exact Or.inr (List.mem_singleton.1 hf).symm
  cases h with
  | greet rest fp displayAlias hpoint hentry =>
      rcases hnew _ hmem with hold | heq
      · exact Or.inl hold
      · obtain rfl := Sent.own.inj heq
        exact Or.inr (Or.inr ⟨_, ha.greeting d kd rest hkd hpoint fp displayAlias hentry, rfl⟩)
  | takeOut r _ _ _ =>
      rcases hnew _ hmem with hold | heq
      · exact Or.inl hold
      · cases heq
  | takeRouted routed _ hrouted =>
      rcases hnew _ hmem with hold | heq
      · exact Or.inl hold
      · obtain rfl := Sent.own.inj heq
        exact Or.inr (Or.inr (ha.broadcast routed (List.mem_of_getElem? hrouted)))
  | pong _ =>
      rcases hnew _ hmem with hold | heq
      · exact Or.inl hold
      · exact Or.inr (Or.inl (Sent.own.inj heq).symm)
  | _ => exact Or.inl hmem

/-- **Every step keeps what is announced to claims.** -/
theorem announced_step (hfresh : s.Fresh) (ha : s.Announced crates.pb) (h : Stepped crates s label s') :
    s'.Announced crates.pb where
  aliases := by
    intro fp a hlookup
    rcases h.aliases_cases with hsame | ⟨c, k, -, htask, hpoint, htask', hinsert⟩ | ⟨c, k, -, -, -, -, herase⟩
    · rw [hsame] at hlookup
      exact (ha.aliases fp a hlookup).step hfresh h
    · rw [hinsert, lookup_insert_ite] at hlookup
      split at hlookup
      · next hfp =>
          -- the alias is stored by a task that has registered, and is its own
          obtain rfl := Option.some_inj.1 hlookup
          exact ⟨c, _, htask', Nat.le_of_ble_eq_true rfl, hfp.symm, rfl⟩
      · exact (ha.aliases fp a hlookup).step hfresh h
    · rw [herase, lookup_erase_ite] at hlookup
      split at hlookup
      · cases hlookup
      · exact (ha.aliases fp a hlookup).step hfresh h
  greeting := by
    intro d kd' rest hkd' hpoint fp a hlookup
    rcases h.client_origin hfresh hkd' with ⟨kd, hkd, -⟩ | ⟨-, hnew, -⟩
    · rcases greeting_cases (h.stepsTo hkd hkd') hpoint hlookup with htable | ⟨rest₀, hpoint₀, hlookup₀⟩
      · exact (ha.aliases fp a htable).step hfresh h
      · exact (ha.greeting d kd rest₀ hkd hpoint₀ fp a hlookup₀).step hfresh h
    · cases hnew.symm.trans hpoint
  broadcast := by
    intro routed hmem
    have hold : routed ∈ s.routeTx → ∃ p, s'.Introduced p ∧ routed.frame = crates.pb.peerReadyFrame p := by
      intro hmem₀
      obtain ⟨p, hp, hframe⟩ := ha.broadcast routed hmem₀
      exact ⟨p, hp.step hfresh h, hframe⟩
    by_cases hann : ∃ c, label = .client c .announce
    · obtain ⟨c, rfl⟩ := hann
      obtain ⟨k, htask, hpoint, hroute, -⟩ := routeTx_announce h
      rw [hroute, List.mem_append, List.mem_singleton] at hmem
      rcases hmem with hmem | rfl
      · exact hold hmem
      · have hk : s.Introduced ⟨k.fingerprint.hex, k.displayAlias⟩ :=
          ⟨c, k, htask, hpoint ▸ Nat.le_of_ble_eq_true rfl, rfl, rfl⟩
        exact ⟨_, hk.step hfresh h, rfl⟩
    · rw [routeTx_eq h (not_exists.1 hann)] at hmem
      exact hold hmem
  written := by
    intro d kd' hkd' frame hmem
    rcases h.client_origin hfresh hkd' with ⟨kd, hkd, -⟩ | ⟨-, -, -, -, hsent⟩
    · have hwritten : frame = pongFrame ∨ ∃ p, s.Introduced p ∧ frame = crates.pb.peerReadyFrame p := by
        rcases written_cases ha hkd (h.stepsTo hkd hkd') hmem with hold | hnew
        · exact ha.written d kd hkd frame hold
        · exact hnew
      exact hwritten.imp_right fun ⟨p, hp, hframe⟩ => ⟨p, hp.step hfresh h, hframe⟩
    · rw [hsent] at hmem
      cases hmem
  unheard := by
    intro d kd' hkd' hpoint
    rcases h.client_origin hfresh hkd' with ⟨kd, hkd, -⟩ | ⟨-, -, -, -, hsent⟩
    · cases h.stepsTo hkd hkd' with
      | idle _ _ => exact ha.unheard d kd' hkd hpoint
      | delivered _ _ _ _ _ _ _ _ _ _ => exact ha.unheard d kd hkd hpoint
      | receive frame _ =>
          have hphase := congrArg Point.phase hpoint
          rw [Point.phase_afterReceive] at hphase
          cases hphase
      | takeOut _ _ hselect _ => cases hselect.symm.trans hpoint
      | takeRouted _ hselect _ => cases hselect.symm.trans hpoint
      | takeRoutedOwn _ _ hselect _ _ => cases hselect.symm.trans hpoint
      | lagged hselect => cases hselect.symm.trans hpoint
      | _ => cases hpoint
    · exact hsent

/-! ### What is written -/

/-- **What is written from a connection has been received there**, in order and at most once. -/
theorem writtenFrom_sublist (hr : s.Relaying) {c d : ConnId} {k kd : Client} (hc : s.tasks c = .client k)
    (hd : s.tasks d = .client kd) : (kd.writtenFrom c).Sublist k.received := by
  have hincreasing := (hr.order c k d kd hc hd).1
  unfold Client.numbersFrom Client.relayed at hincreasing
  rw [List.filter_append, List.map_append] at hincreasing
  refine sublist_of_increasing (List.pairwise_append.1 hincreasing).1 ?_
  intro r hmem
  obtain ⟨hsent, horigin⟩ := List.mem_filter.1 hmem
  obtain ⟨k₀, hk₀, -, -, hframe, -⟩ := hr.origin d kd hd r (List.mem_append_left _ hsent)
  rw [of_decide_eq_true horigin, hc] at hk₀
  obtain rfl := Task.client.inj hk₀
  exact hframe

end HostListener

end Sanctum
