/-
Whom the host remembers.

A registration overwrites the entry of the fingerprint, and a cleanup removes the entry of the
fingerprint, whichever connection made it.  A connection that leaves late therefore takes the entry of
a later connection of its fingerprint with it: the later one stays in its message loop and is
forgotten.

Main definitions:

* `Sanctum.HostListener.latest` — the connection that has registered a fingerprint last;
* `Sanctum.HostListener.Listed` — the entries of the table belong to the latest registrations;
* `Sanctum.HostListener.Kept`, `Sanctum.HostListener.Remembered` — **the latest connection is in the
  table** while it is live, and as long as it is in its message loop;
* `Sanctum.HostListener.InTurn` — a cleanup does not run into a later connection.

Main results:

* `Sanctum.HostListener.kept_iff_meets` — when the live connections stay in the table;
* `Sanctum.HostListener.remembered_of_meets` — **a live client is not forgotten if every cleanup comes
  in turn**;
* `Sanctum.HostListener.forgotten_after_reconnect` — a reconnect before the old connection is noticed
  dead.
-/

import Sanctum.RelayCleanup

set_option relaxedAutoImplicit false
set_option autoImplicit false

namespace Sanctum

open HostListener

/-- The client has registered and has not left its message loop. -/
def Client.Live (k : Client) : Prop := 1 ≤ k.point.phase ∧ k.point.phase ≤ 7

/-- A client that is live later on, and was registered before, was live before. -/
theorem Client.Live.of_later {k k' : Client} (h : k'.Live) (hlater : k.Later k')
    (hphase : 1 ≤ k.point.phase) : k.Live :=
  ⟨hphase, hlater.phase.trans h.2⟩

namespace HostListener

/-- **The connection that has registered a fingerprint last.** -/
def latest (s : HostListener) (fp : Fingerprint) : Option ConnId := s.registrations.lookup fp

/-- The latest registrations belong to clients, and the entries of the table to them. -/
structure Listed (s : HostListener) : Prop where
  client : ∀ fp c, s.latest fp = some c →
    ∃ k, s.tasks c = .client k ∧ k.fingerprint = fp ∧ 1 ≤ k.point.phase
  entry : ∀ fp client, s.hostService.connectedClients.lookup fp = some client →
    s.latest fp = some client.connectionId

/-- The latest connection of a fingerprint is in the table, and ready, while it is live. -/
def Kept (s : HostListener) : Prop :=
  ∀ fp c k, s.latest fp = some c → s.tasks c = .client k → k.Live →
    s.hostService.connectedClients.lookup fp = some ⟨fp, c, true⟩

/-- **The latest connection of a fingerprint is in the table, and ready, while it is in its message
loop**, so that the messages of others for the fingerprint go to it. -/
def Remembered (s : HostListener) : Prop :=
  ∀ fp c k, s.latest fp = some c → s.tasks c = .client k → k.point.phase = 7 →
    s.hostService.connectedClients.lookup fp = some ⟨fp, c, true⟩ ∧
      s.hostService.connectionIdFor fp = some c ∧
      ∀ sender, sender ≠ fp → fp ∈ s.hostService.routeRecipients sender

/-- **The cleanup comes in turn**: when a connection takes the entry of its fingerprint out, no other
connection has registered the fingerprint since and is live. -/
def InTurn (s : HostListener) (label : Label) : Prop :=
  ∀ c k, label = .client c .removeClient → s.tasks c = .client k →
    ∀ d kd, s.latest k.fingerprint = some d → d ≠ c → s.tasks d = .client kd → ¬ kd.Live

variable {crates : Crates} {s s' : HostListener} {label : Label}

theorem latest_of_registrations {s s' : HostListener} (h : s'.registrations = s.registrations)
    (fp : Fingerprint) : s'.latest fp = s.latest fp := by
  unfold latest
  rw [h]

theorem latest_cons {s s' : HostListener} {fp' : Fingerprint} {c : ConnId}
    (h : s'.registrations = (fp', c) :: s.registrations) (fp : Fingerprint) :
    s'.latest fp = if fp = fp' then some c else s.latest fp := by
  unfold latest
  rw [h, List.lookup_cons]
  by_cases hfp : fp = fp'
  · simp [hfp]
  · rw [beq_false_of_ne hfp, if_neg hfp]

/-! ### The latest registration -/

theorem listed_start (room : Room) (hostNoisePubkey : Bytes) :
    (start room hostNoisePubkey).Listed where
  client := by simp [latest, start]
  entry := by simp [start, HostService.new]

theorem listed_step (ht : s.Tables) (hl : s.Listed) (h : Stepped crates s label s') :
    s'.Listed := by
  have hkeep : ∀ fp c, s.latest fp = some c →
      ∃ k, s'.tasks c = .client k ∧ k.fingerprint = fp ∧ 1 ≤ k.point.phase := by
    intro fp c hlatest
    obtain ⟨k, htask, hfp, hphase⟩ := hl.client fp c hlatest
    obtain ⟨k', htask', hlater⟩ := h.client_persists ht.fresh htask hphase
    exact ⟨k', htask', hlater.fingerprint.trans hfp, hphase.trans hlater.phase⟩
  rcases h.connectedClients_cases with ⟨hsame, hreg⟩ | ⟨c, k, -, -, -, -, htask', hreg, hlook'⟩ |
      ⟨c, k, -, -, -, -, hreg, hlook'⟩
  · constructor
    · intro fp c hlatest
      rw [latest_of_registrations hreg] at hlatest
      exact hkeep fp c hlatest
    · intro fp client hlook
      rw [latest_of_registrations hreg]
      exact hl.entry fp client (hsame ▸ hlook)
  · constructor
    · intro fp d hlatest
      rw [latest_cons hreg] at hlatest
      split at hlatest
      · next hfp =>
          obtain rfl := Option.some_inj.1 hlatest
          exact ⟨_, htask', hfp.symm, le_rfl⟩
      · exact hkeep fp d hlatest
    · intro fp client hlook
      rw [hlook'] at hlook
      rw [latest_cons hreg]
      split at hlook
      · next hfp =>
          obtain rfl := Option.some_inj.1 hlook
          rw [if_pos hfp]
      · next hfp =>
          rw [if_neg hfp]
          exact hl.entry fp client hlook
  · constructor
    · intro fp d hlatest
      rw [latest_of_registrations hreg] at hlatest
      exact hkeep fp d hlatest
    · intro fp client hlook
      rw [latest_of_registrations hreg]
      rw [hlook'] at hlook
      split at hlook
      · simp at hlook
      · exact hl.entry fp client hlook

/-- A registered connection that is the latest of its fingerprint after a step was so before. -/
theorem latest_of_step (h : Stepped crates s label s') {fp : Fingerprint} {d : ConnId} {kd : Client}
    (hd : s.tasks d = .client kd) (hphase : 1 ≤ kd.point.phase)
    (hlatest : s'.latest fp = some d) : s.latest fp = some d := by
  rcases h.connectedClients_cases with ⟨-, hreg⟩ | ⟨c, k, -, hk, hpoint, -, -, hreg, -⟩ |
      ⟨c, k, -, -, -, -, hreg, -⟩
  · rwa [latest_of_registrations hreg] at hlatest
  · rw [latest_cons hreg] at hlatest
    split at hlatest
    · obtain rfl := Option.some_inj.1 hlatest
      obtain rfl := Task.client.inj (hd.symm.trans hk)
      rw [hpoint] at hphase
      simp [Point.phase] at hphase
    · exact hlatest
  · rwa [latest_of_registrations hreg] at hlatest

/-! ### The latest connection in the table -/

theorem kept_start (room : Room) (hostNoisePubkey : Bytes) : (start room hostNoisePubkey).Kept := by
  intro fp c k hlatest
  simp [latest, start] at hlatest

/-- A step that neither registers a client nor takes one out. -/
theorem kept_of_same (ht : s.Tables) (hl : s.Listed) (hk : s.Kept)
    (h : Stepped crates s label s')
    (hsame : s'.hostService.connectedClients = s.hostService.connectedClients)
    (hreg : s'.registrations = s.registrations) : s'.Kept := by
  intro fp c k' hlatest htask' hlive
  rw [latest_of_registrations hreg] at hlatest
  obtain ⟨k, htask, -, hphase⟩ := hl.client fp c hlatest
  obtain ⟨k'', htask'', hlater⟩ := h.client_persists ht.fresh htask hphase
  obtain rfl := Task.client.inj (htask'.symm.trans htask'')
  rw [hsame]
  exact hk fp c k hlatest htask (hlive.of_later hlater hphase)

/-- **One step keeps the live connections in the table exactly if it is no cleanup out of turn.** -/
theorem kept_step (ht : s.Tables) (hl : s.Listed) (hk : s.Kept) (h : Stepped crates s label s') :
    s'.Kept ↔ s.InTurn label := by
  rcases h.connectedClients_cases with ⟨hsame, hreg⟩ |
      ⟨c, k, hlabel, htask, -, -, htask', hreg, hlook'⟩ |
      ⟨c, k, hlabel, htask, hpoint, htask', hreg, hlook'⟩
  · refine iff_of_true (kept_of_same ht hl hk h hsame hreg) ?_
    rintro c k rfl htask
    -- a cleanup takes the entry out
    cases h with
    | removeClient _ k₀ hk₀ _ _ =>
        obtain rfl := Task.client.inj (htask.symm.trans hk₀)
        intro d kd hlatest _ hd hlive
        have hentry := hk _ d kd hlatest hd hlive
        rw [← hsame] at hentry
        have hgone := HostService.lookup_removeClient s.hostService k.fingerprint k.fingerprint
        rw [if_pos rfl] at hgone
        exact absurd (hentry.symm.trans hgone) (by simp)
  · refine iff_of_true ?_ fun c' k' hlabel' => ?_
    · intro fp d kd' hlatest hd' hlive
      rw [latest_cons hreg] at hlatest
      rw [hlook']
      split at hlatest
      · next hfp =>
          obtain rfl := Option.some_inj.1 hlatest
          rw [if_pos hfp, hfp]
      · next hfp =>
          rw [if_neg hfp]
          obtain ⟨kd, hd, -, hphase⟩ := hl.client fp d hlatest
          obtain ⟨kd'', hd'', hlater⟩ := h.client_persists ht.fresh hd hphase
          obtain rfl := Task.client.inj (hd'.symm.trans hd'')
          exact hk fp d kd hlatest hd (hlive.of_later hlater hphase)
    · rw [hlabel] at hlabel'
      simp at hlabel'
  · constructor
    · intro hkept c' k' hlabel' hc' d kd hlatest hne hd hlive
      rw [hlabel] at hlabel'
      obtain ⟨rfl, -⟩ := Label.client.inj hlabel'
      obtain rfl := Task.client.inj (htask.symm.trans hc')
      -- the later connection does not notice
      obtain ⟨kd', hd', -⟩ := h.client_persists ht.fresh hd hlive.1
      obtain ⟨out, rfl⟩ := h.idle_client (fun move heq => by
        rw [hlabel] at heq
        exact hne (Label.client.inj heq).1.symm) hd hd'
      have hentry := hkept k.fingerprint d _
        ((latest_of_registrations hreg _).trans hlatest) hd' hlive
      rw [hlook', if_pos rfl] at hentry
      simp at hentry
    · intro hturn fp d kd' hlatest hd' hlive
      rw [latest_of_registrations hreg] at hlatest
      obtain ⟨kd, hd, hkdfp, hphase⟩ := hl.client fp d hlatest
      obtain ⟨kd'', hd'', hlater⟩ := h.client_persists ht.fresh hd hphase
      obtain rfl := Task.client.inj (hd'.symm.trans hd'')
      have hlive₀ := hlive.of_later hlater hphase
      rw [hlook']
      split
      · next hfp =>
          subst hfp
          by_cases hdc : d = c
          · subst hdc
            obtain rfl := Task.client.inj (hd'.symm.trans htask')
            exact absurd hlive.2 (by simp [Point.phase])
          · exact absurd hlive₀ (hturn c k hlabel htask d kd hlatest hdc hd)
      · exact hk fp d kd hlatest hd hlive₀

theorem Kept.remembered (hk : s.Kept) : s.Remembered := by
  intro fp c k hlatest htask hphase
  have hentry := hk fp c k hlatest htask ⟨by omega, by omega⟩
  refine ⟨hentry, ?_, fun sender hne => ?_⟩
  · unfold HostService.connectionIdFor
    rw [hentry]
    rfl
  · exact HostService.mem_routeRecipients.2 ⟨hne.symm, _, hentry, rfl⟩

/-! ### Runs -/

/-- The invariants of the registrations. -/
structure Registered (s : HostListener) : Prop extends Sound s, Listed s

theorem registered_start (room : Room) (hostNoisePubkey : Bytes) :
    (start room hostNoisePubkey).Registered :=
  ⟨sound_start room hostNoisePubkey, listed_start room hostNoisePubkey⟩

theorem registered_step (hs : s.Registered) (h : Stepped crates s label s') : s'.Registered :=
  ⟨sound_step hs.toSound h, listed_step hs.toTables hs.toListed h⟩

theorem registered_of_run {room : Room} {hostNoisePubkey : Bytes} {labels : List Label}
    (hrun : Runs.run (step crates) (start room hostNoisePubkey) labels = some s) :
    s.Registered :=
  Runs.run_induction (fun _ _ _ hs hstep => registered_step hs (stepped_of_step hstep))
    (registered_start room hostNoisePubkey) hrun

/-- When the live connections stay in the table. -/
theorem kept_iff_meets {room : Room} {hostNoisePubkey : Bytes} {labels : List Label}
    (hrun : Runs.run (step crates) (start room hostNoisePubkey) labels = some s) :
    Runs.Throughout (step crates) Kept (start room hostNoisePubkey) labels ↔
      Runs.Meets (step crates) InTurn (start room hostNoisePubkey) labels :=
  Runs.throughout_iff_meets
    (fun _ _ _ hs _ hstep _ => registered_step hs (stepped_of_step hstep))
    (fun _ _ _ hs hk hstep => kept_step hs.toTables hs.toListed hk (stepped_of_step hstep))
    (registered_start room hostNoisePubkey) (kept_start room hostNoisePubkey) hrun

/-- **A live client is not forgotten if every cleanup comes in turn**: in every state of such a run,
the latest connection of a fingerprint is in the table while it is in its message loop. -/
theorem remembered_of_meets {room : Room} {hostNoisePubkey : Bytes} {labels : List Label}
    (hmeets : Runs.Meets (step crates) InTurn (start room hostNoisePubkey) labels) :
    Runs.Throughout (step crates) Remembered (start room hostNoisePubkey) labels := by
  have hinv : ∀ s label s', s.Registered ∧ s.Kept → s.InTurn label →
      step crates s label = some s' → s'.Registered ∧ s'.Kept := by
    rintro s label s' ⟨hs, hk⟩ hturn hstep
    have h := stepped_of_step hstep
    exact ⟨registered_step hs h, (kept_step hs.toTables hs.toListed hk h).2 hturn⟩
  exact Runs.throughout_of_meets hinv (fun _ h => h.2.remembered)
    ⟨registered_start room hostNoisePubkey, kept_start room hostNoisePubkey⟩ hmeets

/-- A step that takes no entry out. -/
theorem inTurn_of_ne (h : ∀ c, label ≠ .client c .removeClient) : s.InTurn label :=
  fun c _ hlabel => absurd hlabel (h c)

/-- The owner joins, loses the connection, and joins again when the first connection is gone. -/
def testRejoin : List Label :=
  testArrive 1 "AA" ++ testGreet 1 ["AA"] ++ [.client 1 .receiveError] ++
    (testLeave 1 ++ testArrive 2 "AA" ++ testGreet 2 ["AA"])

/-- The second connection of the owner is remembered. -/
theorem remembered_after_rejoin :
    Runs.Throughout (step testCrates) Remembered testStart testRejoin := by
  refine remembered_of_meets (Runs.meets_append.2 ⟨?_, fun s hrun => ⟨?_, fun s' _ => ?_⟩⟩)
  · exact Runs.meets_of_forall fun label hmem _ => inTurn_of_ne fun c => by
      rintro rfl
      simp [testArrive, testGreet] at hmem
  · -- nobody else has registered when the first connection is taken out
    have heval : ((Runs.run (step testCrates) testStart (testArrive 1 "AA" ++
        testGreet 1 ["AA"] ++ [.client 1 .receiveError])).bind fun s =>
          (s.clientPair 1 1).map fun pair => s.latest pair.1.fingerprint) = some (some 1) := by
      decide +kernel
    obtain ⟨s₀, hrun₀, hread⟩ := Option.bind_eq_some_iff.1 heval
    obtain rfl := Option.some_inj.1 (hrun.symm.trans hrun₀)
    obtain ⟨⟨k, k'⟩, hpair, hlatest⟩ := Option.map_eq_some_iff.1 hread
    obtain ⟨hk, -⟩ := clientPair_eq_some.1 hpair
    intro c k₀ hlabel hk₀ d kd hd hne
    obtain ⟨rfl, -⟩ := Label.client.inj hlabel
    obtain rfl := Task.client.inj (hk.symm.trans hk₀)
    exact absurd (Option.some_inj.1 (hd.symm.trans hlatest)) hne
  · exact Runs.meets_of_forall fun label hmem _ => inTurn_of_ne fun c => by
      rintro rfl
      simp [testArrive, testGreet] at hmem

/-- The member reconnects before the host has noticed that the old connection is dead.  When it does,
the new connection goes on in its message loop, and no message for the member is routed any more. -/
theorem forgotten_after_reconnect : ∃ s k,
    Runs.run (step testCrates) testStart
        (testArrive 1 "BB" ++ testGreet 1 ["BB"] ++ testArrive 2 "BB" ++ testGreet 2 ["BB"] ++
          [.client 1 .receiveError, .client 1 .removeClient]) = some s ∧
      s.latest (HostService.testFp "BB") = some 2 ∧ s.tasks 2 = .client k ∧
      k.point.phase = 7 ∧
      s.hostService.connectedClients.lookup (HostService.testFp "BB") = none ∧
      HostService.testFp "BB" ∉ s.hostService.routeRecipients (HostService.testFp "AA") ∧
      ¬ s.Remembered := by
  have heval : ((Runs.run (step testCrates) testStart
      (testArrive 1 "BB" ++ testGreet 1 ["BB"] ++ testArrive 2 "BB" ++ testGreet 2 ["BB"] ++
        [.client 1 .receiveError, .client 1 .removeClient])).bind fun s =>
          (s.clientPair 1 2).map fun (_, kd) =>
            (s.latest (HostService.testFp "BB"), kd.point.phase,
              s.hostService.connectedClients.lookup (HostService.testFp "BB"))) =
      some (some 2, 7, none) := by
    decide +kernel
  obtain ⟨s, hrun, hread⟩ := Option.bind_eq_some_iff.1 heval
  obtain ⟨⟨k, kd⟩, hpair, hread⟩ := Option.map_eq_some_iff.1 hread
  obtain ⟨-, hkd⟩ := clientPair_eq_some.1 hpair
  simp only [Prod.mk.injEq] at hread
  obtain ⟨hlatest, hphase, hlook⟩ := hread
  refine ⟨s, kd, hrun, hlatest, hkd, hphase, hlook, fun hmem => ?_, fun hall => ?_⟩
  · obtain ⟨-, client, hentry, -⟩ := HostService.mem_routeRecipients.1 hmem
    exact absurd (hentry.symm.trans hlook) (by simp)
  · exact absurd ((hall _ 2 kd hlatest hkd hphase).1.symm.trans hlook) (by simp)

end HostListener

end Sanctum
