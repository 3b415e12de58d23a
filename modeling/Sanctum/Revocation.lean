/-
Revocation is final.

The automatic admission in the authentication looks whether the room has an entry for the fingerprint,
revoked or not, and adds none if there is one.  The set of active fingerprints that the response is
checked against may be older than a revocation, so a client may come through its authentication
after it; but the registration asks the room again.  A fingerprint that has been revoked stays revoked,
and no connection registers it any more.

Main results:

* `Sanctum.HostListener.revoked_step` — a revoked fingerprint stays revoked;
* `Sanctum.HostListener.registered_before` — nobody registers a revoked fingerprint;
* `Sanctum.HostListener.revocation_final` — **both, over the runs after a revocation**.
-/

import Sanctum.JoinHistory
import Sanctum.RelayOrder

set_option relaxedAutoImplicit false
set_option autoImplicit false

namespace Sanctum

open HostListener

namespace HostListener

variable {crates : Crates} {s s' : HostListener} {label : Label}

/-- **A revoked fingerprint stays revoked**, whatever is done to the room. -/
theorem revoked_step {fp : Fingerprint} (hrevoked : s.hostService.room.Revoked fp)
    (h : Stepped crates s label s') : s'.hostService.room.Revoked fp := by
  cases h with
  | addMember member room _ hadd => exact hrevoked.addMember hadd
  | revokeMember fp' room _ hrevoke => exact hrevoked.revokeMember hrevoke
  | addIfAbsent c _ _ _ fp' displayAlias now _ _ => exact hrevoked.addIfAbsent fp' displayAlias now
  | register c k svc _ _ _ hregister =>
      show (svc.markClientReady k.fingerprint).room.Revoked fp
      rw [HostService.room_markClientReady, HostService.room_registerClient hregister]
      exact hrevoked
  | _ => exact hrevoked

/-- The registration of a revoked fingerprint fails. -/
theorem registerClient_of_revoked {svc : HostService} {fp : Fingerprint}
    (hrevoked : svc.room.Revoked fp) (c : ConnId) : ∃ e, svc.registerClient fp c = .error e := by
  unfold HostService.registerClient
  rw [hrevoked.not_authorized]
  exact ⟨_, rfl⟩

/-- **Nobody registers a revoked fingerprint**: who has registered it after a step had done so
before. -/
theorem registered_before (hfresh : s.Fresh) {fp : Fingerprint}
    (hrevoked : s.hostService.room.Revoked fp) (h : Stepped crates s label s') {c : ConnId}
    {k' : Client} (hc' : s'.tasks c = .client k') (hfp : k'.fingerprint = fp)
    (hphase : 1 ≤ k'.point.phase) :
    ∃ k, s.tasks c = .client k ∧ k.fingerprint = fp ∧ 1 ≤ k.point.phase := by
  rcases h.client_origin hfresh hc' with ⟨k, hc, hlater⟩ | ⟨-, hregister, -⟩
  · have hkfp : k.fingerprint = fp := hlater.fingerprint.symm.trans hfp
    refine ⟨k, hc, hkfp, ?_⟩
    rcases h.phase_cases hc hc' with hsame | ⟨move, rfl, hadvance⟩
    · exact hsame ▸ hphase
    · by_contra hlt
      have hzero : k.point.phase = 0 := by omega
      rw [hzero] at hadvance
      obtain ⟨rfl, -⟩ := hadvance.unique .register (by omega)
      -- the registration has asked the room
      cases h with
      | register _ k₀ svc hk₀ _ _ hregister =>
          obtain rfl := Task.client.inj (hc.symm.trans hk₀)
          have hauthorized := (HostService.registerClient_eq_ok.1 hregister).1
          rw [hkfp, hrevoked.not_authorized] at hauthorized
          simp at hauthorized
      | registerError _ _ _ _ =>
          rw [tasks_setTask, if_pos rfl] at hc'
          simp at hc'
  · rw [hregister] at hphase
    simp [Point.phase] at hphase

/-- **Revocation is final.**  Once a member has been revoked, in every state of every run that follows
every registration of its fingerprint fails, and whoever has registered it had done so at the time of
the revocation, so that no new connection enters the message loop. -/
theorem revocation_final {room room' : Room} {hostNoisePubkey : Bytes}
    {labels labels' : List Label} {s s' t : HostListener} {fp : Fingerprint}
    (hrun : Runs.run (step crates) (start room hostNoisePubkey) labels = some s)
    (hrevoke : s.hostService.room.revokeMember fp = .ok room')
    (hstep : step crates s (.revokeMember fp) = some s')
    (hrun' : Runs.run (step crates) s' labels' = some t) :
    (∀ c, ∃ e, t.hostService.registerClient fp c = .error e) ∧
      ∀ c k, t.tasks c = .client k → k.fingerprint = fp → 1 ≤ k.point.phase →
        ∃ k₀, s.tasks c = .client k₀ ∧ k₀.fingerprint = fp ∧ 1 ≤ k₀.point.phase := by
  have hs := sound_of_run hrun
  have hafter : s'.hostService.room.Revoked fp ∧ s'.tasks = s.tasks := by
    simp only [step, roomStep, hrevoke] at hstep
    split at hstep
    · obtain rfl := Option.some_inj.1 hstep
      exact ⟨Room.Revoked.of_revokeMember hrevoke, rfl⟩
    · simp at hstep
  have hinv : ∀ u label u', (u.Fresh ∧ u.hostService.room.Revoked fp ∧
      ∀ c k, u.tasks c = .client k → k.fingerprint = fp → 1 ≤ k.point.phase →
        ∃ k₀, s.tasks c = .client k₀ ∧ k₀.fingerprint = fp ∧ 1 ≤ k₀.point.phase) →
      step crates u label = some u' → u'.Fresh ∧ u'.hostService.room.Revoked fp ∧
      ∀ c k, u'.tasks c = .client k → k.fingerprint = fp → 1 ≤ k.point.phase →
        ∃ k₀, s.tasks c = .client k₀ ∧ k₀.fingerprint = fp ∧ 1 ≤ k₀.point.phase := by
    rintro u label u' ⟨hfresh, hrevoked, hbefore⟩ hstep
    have h := stepped_of_step hstep
    refine ⟨fresh_step hfresh h, revoked_step hrevoked h, fun c k hc hfp hphase => ?_⟩
    obtain ⟨k₁, hc₁, hfp₁, hphase₁⟩ := registered_before hfresh hrevoked h hc hfp hphase
    exact hbefore c k₁ hc₁ hfp₁ hphase₁
  obtain ⟨-, hrevoked, hbefore⟩ := Runs.run_induction hinv
    ⟨fresh_step hs.fresh (stepped_of_step hstep), hafter.1, fun c k hc hfp hphase =>
      ⟨k, hafter.2 ▸ hc, hfp, hphase⟩⟩ hrun'
  exact ⟨registerClient_of_revoked hrevoked, hbefore⟩

/-- The member is revoked while a second connection of its fingerprint has come through the
authentication: that one ends at its registration, and the first one goes on. -/
theorem revoked_at_register : ∃ room' s s' t,
    Runs.run (step testCrates) testStart (testBoth ++ (testArrive 3 "BB").take 9) = some s ∧
      s.hostService.room.revokeMember (HostService.testFp "BB") = .ok room' ∧
      step testCrates s (.revokeMember (HostService.testFp "BB")) = some s' ∧
      Runs.run (step testCrates) s' [.client 3 .register] = some t ∧
      (t.clientPair 2 2).isSome ∧ (t.clientPair 3 3).isNone ∧
      (∀ c, ∃ e, t.hostService.registerClient (HostService.testFp "BB") c = .error e) ∧
      ∀ c k, t.tasks c = .client k → k.fingerprint = HostService.testFp "BB" →
        1 ≤ k.point.phase → ∃ k₀, s.tasks c = .client k₀ ∧
          k₀.fingerprint = HostService.testFp "BB" ∧ 1 ≤ k₀.point.phase := by
  have heval : ((Runs.run (step testCrates) testStart
      (testBoth ++ (testArrive 3 "BB").take 9)).bind fun s =>
        (s.hostService.room.revokeMember (HostService.testFp "BB")).toOption.bind fun _ =>
          (step testCrates s (.revokeMember (HostService.testFp "BB"))).bind fun s' =>
            (Runs.run (step testCrates) s' [.client 3 .register]).map fun t =>
              ((t.clientPair 2 2).isSome, (t.clientPair 3 3).isNone)) = some (true, true) := by
    decide +kernel
  obtain ⟨s, hrun, heval⟩ := Option.bind_eq_some_iff.1 heval
  obtain ⟨room', hrevoke, heval⟩ := Option.bind_eq_some_iff.1 heval
  obtain ⟨s', hstep, heval⟩ := Option.bind_eq_some_iff.1 heval
  obtain ⟨t, hrun', hends⟩ := Option.map_eq_some_iff.1 heval
  obtain ⟨hstays, hfails⟩ := Prod.mk.inj hends
  have hok : s.hostService.room.revokeMember (HostService.testFp "BB") = .ok room' := by
    cases hresult : s.hostService.room.revokeMember (HostService.testFp "BB") with
    | ok room₀ =>
        rw [hresult] at hrevoke
        rw [Option.some_inj.1 hrevoke]
    | error e =>
        rw [hresult] at hrevoke
        simp [Except.toOption] at hrevoke
  exact ⟨room', s, s', t, hrun, hok, hstep, hrun', hstays, hfails,
    revocation_final hrun hok hstep hrun'⟩

end HostListener

end Sanctum
