/-
Whom a relayed frame reaches.

The recipients of a frame are computed from the table of connected clients, and served one by one: the
connection of the fingerprint is read from the table again, and then the channel of the connection from
the map of channels.  Both may miss: a late cleanup may have taken the entry out in between, and a client
is in the table, and ready, before its channel is in the map.  Where neither misses, a recipient whose
connection stays gets the frame before the routing loop ends.

Main definitions:

* `Sanctum.Client.Routing`, `Sanctum.Client.Owes` — the task is in its routing loop, and has yet to
  serve a recipient;
* `Sanctum.HostListener.Finds` — **the loop finds the entry and the channel of a recipient**.

Main results:

* `Sanctum.HostListener.owes_step` — a step of the loop serves the recipient or leaves it to be served;
* `Sanctum.HostListener.relay_reaches` — **no frame is lost to a recipient that is found**;
* `Sanctum.HostListener.relay_misses_newcomer` — a frame that is routed before the newcomer has its
  channel.
-/

import Sanctum.Registration

set_option relaxedAutoImplicit false
set_option autoImplicit false

namespace Sanctum

open HostListener

/-- The awaits between the receipt of a room message and the end of its routing loop. -/
def Point.routing : Point → Bool
  | .recipients _ | .route _ _ | .lookup _ _ _ | .push _ _ _ => true
  | _ => false

/-- The room message whose recipients are awaited. -/
def Point.awaiting? : Point → Option Frame
  | .recipients frame => some frame
  | _ => none

theorem Point.awaiting?_eq_some {point : Point} {frame : Frame} :
    point.awaiting? = some frame ↔ point = .recipients frame := by
  cases point <;> simp [Point.awaiting?]

namespace Client

/-- The task is relaying a frame. -/
def Routing (k : Client) : Prop := k.point.routing = true

instance (k : Client) : Decidable k.Routing := inferInstanceAs (Decidable (_ = true))

/-- The loop has yet to serve the fingerprint `fp`, whose connection is `d`. -/
def Owes (k : Client) (d : ConnId) (fp : Fingerprint) : Prop :=
  match k.point with
  | .route _ rest => fp ∈ rest
  | .lookup _ rest cid => fp ∈ rest ∨ cid = d
  | .push _ rest tx => fp ∈ rest ∨ tx.owner = d
  | _ => False

theorem Routing.phase {k : Client} (h : k.Routing) : k.point.phase = 7 := by
  unfold Routing at h
  cases hpoint : k.point with
  | recipients _ | route _ _ | lookup _ _ _ | push _ _ _ => rfl
  | _ =>
      rw [hpoint] at h
      simp [Point.routing] at h

theorem Owes.routing {k : Client} {d : ConnId} {fp : Fingerprint} (h : k.Owes d fp) :
    k.Routing := by
  unfold Owes at h
  unfold Routing
  cases hpoint : k.point with
  | route _ _ | lookup _ _ _ | push _ _ _ => rfl
  | _ =>
      rw [hpoint] at h
      exact h.elim

end Client

namespace HostListener

/-- **The loop of `c` finds the recipient `fp`**: when it turns to the fingerprint, the entry of the
latest connection is still in the table, if that connection is live, and when it looks for the channel,
the connection has opened it. -/
structure Finds (c : ConnId) (fp : Fingerprint) (s : HostListener) (label : Label) : Prop where
  entry : label = .client c (.resolve fp) → ∀ d kd, s.latest fp = some d →
    s.tasks d = .client kd → kd.Live → fp ∈ s.hostService.connectedClients
  channel : label = .client c .lookup → ∀ k frame rest d kd, s.tasks c = .client k →
    k.point = .lookup frame rest d → s.tasks d = .client kd → kd.fingerprint = fp →
    3 ≤ kd.point.phase

end HostListener

/-- A frame that has been put into a channel is there. -/
theorem Task.mem_relayed_enqueue {task : Task} {r : Relayed} {kd : Client}
    (h : task.enqueue r = .client kd) : r ∈ kd.relayed := by
  cases task with
  | client k =>
      obtain rfl := Task.client.inj h
      simp [Client.relayed]
  | absent | authenticating _ | failed => simp [Task.enqueue] at h

namespace Stepped

variable {crates : Crates} {s s' : HostListener} {label : Label}

/-- What has been placed in a channel stays, or has been written, as long as no write fails. -/
theorem relayed_subset (h : Stepped crates s label s') {d : ConnId} {kd kd' : Client}
    (hd : s.tasks d = .client kd) (hd' : s'.tasks d = .client kd')
    (hphase : kd'.point.phase ≤ 7) : kd.relayed ⊆ kd'.relayed := by
  cases h.stepsTo hd hd' with
  | delivered _ _ _ _ _ _ _ _ _ _ | pushOwn _ _ _ _ _ _ =>
      unfold Client.relayed
      rw [← List.append_assoc]
      exact List.subset_append_left _ _
  | takeOut r outRx _ hout => simp [Client.relayed, hout, Sent.relayed?]
  | takeOutError r outRx _ _ => simp [Point.phase] at hphase
  | greet _ _ _ _ _ | takeRouted _ _ _ | pong _ =>
      rw [relayed_sent_own]
      exact List.Subset.refl _
  | lagged _ =>
      unfold Client.relayed
      exact List.Subset.refl _
  | _ => exact List.Subset.refl _

end Stepped

namespace HostListener

variable {crates : Crates} {s s' : HostListener} {label : Label}

/-- **A step of the loop serves the recipient or leaves it to be served**, if the loop finds it and its
connection is live. -/
theorem owes_step (hs : s.Registered) (ho : s.Opened) (h : Stepped crates s label s')
    {c d : ConnId} {fp : Fingerprint} (hfinds : Finds c fp s label) {k kd kd' : Client}
    (hc : s.tasks c = .client k) (howes : k.Owes d fp) {frame : Frame}
    (hframe : k.received.getLast? = some frame) (hd : s.tasks d = .client kd)
    (hd' : s'.tasks d = .client kd') (hlive : kd.Live) (hlatest : s.latest fp = some d) :
    ⟨frame, c, k.received.length - 1⟩ ∈ kd'.relayed ∨
      ∃ k', s'.tasks c = .client k' ∧ k'.received = k.received ∧ k'.Owes d fp := by
  by_cases hidle : ∀ move, label ≠ .client c move
  · obtain ⟨k', hk', -⟩ := h.client_persists hs.fresh hc (by simp [howes.routing.phase])
    obtain ⟨out, rfl⟩ := h.idle_client hidle hc hk'
    exact Or.inr ⟨_, hk', rfl, howes⟩
  · push Not at hidle
    obtain ⟨move, rfl⟩ := hidle
    unfold Client.Owes at howes
    cases h with
    | resolve _ k₀ frame₀ rest fp₀ cid hk₀ hpoint _ _ hconn =>
        obtain rfl := Task.client.inj (hc.symm.trans hk₀)
        rw [hpoint] at howes
        refine Or.inr ⟨_, tasks_setClient_self _ _ _, rfl, ?_⟩
        by_cases hfp : fp = fp₀
        · subst hfp
          obtain ⟨client, hlook, rfl⟩ := Option.map_eq_some_iff.1 hconn
          exact Or.inr (Option.some_inj.1 ((hs.entry fp client hlook).symm.trans hlatest))
        · exact Or.inl (Finset.mem_erase.2 ⟨hfp, howes⟩)
    | resolveNone _ k₀ frame₀ rest fp₀ hk₀ hpoint _ _ hconn =>
        obtain rfl := Task.client.inj (hc.symm.trans hk₀)
        rw [hpoint] at howes
        refine Or.inr ⟨_, tasks_setClient_self _ _ _, rfl, ?_⟩
        by_cases hfp : fp = fp₀
        · subst hfp
          have hmem := hfinds.entry rfl d kd hlatest hd hlive
          rw [← Finmap.lookup_isSome, Option.map_eq_none_iff.1 hconn] at hmem
          simp at hmem
        · exact Finset.mem_erase.2 ⟨hfp, howes⟩
    | routed _ k₀ frame₀ hk₀ hpoint =>
        obtain rfl := Task.client.inj (hc.symm.trans hk₀)
        rw [hpoint] at howes
        exact absurd howes (Finset.notMem_empty fp)
    | lookup _ k₀ frame₀ rest cid tx hk₀ hpoint _ htx =>
        obtain rfl := Task.client.inj (hc.symm.trans hk₀)
        rw [hpoint] at howes
        refine Or.inr ⟨_, tasks_setClient_self _ _ _, rfl, ?_⟩
        exact howes.imp id fun hcid => (hs.senders cid tx htx).1.trans hcid
    | lookupNone _ k₀ frame₀ rest cid hk₀ hpoint _ htx =>
        obtain rfl := Task.client.inj (hc.symm.trans hk₀)
        rw [hpoint] at howes
        rcases howes with hfp | rfl
        · exact Or.inr ⟨_, tasks_setClient_self _ _ _, rfl, hfp⟩
        · -- the connection has opened its channel, and has not removed it
          obtain ⟨kd₀, hkd₀, hkdfp, -⟩ := hs.client fp cid hlatest
          obtain rfl := Task.client.inj (hd.symm.trans hkd₀)
          have hphase := hfinds.channel rfl k frame₀ rest cid kd hc hpoint hd hkdfp
          exact absurd (ho cid kd hd hphase (hlive.2.trans (by omega)))
            (Finmap.lookup_eq_none.1 htx)
    | push _ k₀ frame₀ rest tx kd₀ hk₀ hpoint _ _ _ =>
        obtain rfl := Task.client.inj (hc.symm.trans hk₀)
        rw [hpoint] at howes
        rcases howes with hfp | rfl
        · right
          rw [tasks_enqueue, tasks_setClient, if_pos rfl]
          split
          · exact ⟨_, rfl, rfl, hfp⟩
          · exact ⟨_, rfl, rfl, hfp⟩
        · left
          have hroutes := hs.routes c k hc
          unfold Routes at hroutes
          rw [hpoint] at hroutes
          obtain rfl := Option.some_inj.1 (hframe.symm.trans hroutes.1.1)
          rw [tasks_enqueue, if_pos rfl] at hd'
          exact Task.mem_relayed_enqueue hd'
    | pushClosed _ k₀ frame₀ rest tx hk₀ hpoint hclosed =>
        obtain rfl := Task.client.inj (hc.symm.trans hk₀)
        rw [hpoint] at howes
        rcases howes with hfp | rfl
        · exact Or.inr ⟨_, tasks_setClient_self _ _ _, rfl, hfp⟩
        · have hphase := hlive.2
          rw [hclosed kd hd] at hphase
          exact absurd hphase (by decide)
    | register _ k₀ _ hk₀ hpoint _ _ | registerError _ k₀ hk₀ hpoint
    | storeAlias _ k₀ hk₀ hpoint _ | openChannel _ k₀ hk₀ hpoint _
    | subscribe _ k₀ hk₀ hpoint | lockAliases _ k₀ hk₀ hpoint _
    | greet _ k₀ _ _ _ hk₀ hpoint _ _ | greetSkip _ k₀ _ _ _ _ hk₀ hpoint _ _
    | unlockAliases _ k₀ hk₀ hpoint | announce _ k₀ hk₀ hpoint | cancelled _ k₀ hk₀ hpoint _
    | receive _ k₀ _ hk₀ hpoint | receiveError _ k₀ hk₀ hpoint | takeOut _ k₀ _ _ hk₀ hpoint _
    | takeOutError _ k₀ _ _ hk₀ hpoint _ | takeRouted _ k₀ _ hk₀ hpoint _ _
    | takeRoutedOwn _ k₀ _ _ hk₀ hpoint _ _ | takeRoutedError _ k₀ _ hk₀ hpoint _ _
    | lagged _ k₀ hk₀ hpoint _ | recipients _ k₀ _ hk₀ hpoint _ | pong _ k₀ hk₀ hpoint
    | pongError _ k₀ hk₀ hpoint | removeClient _ k₀ hk₀ hpoint _
    | removeSender _ k₀ hk₀ hpoint _ | removeAlias _ k₀ hk₀ hpoint _ =>
        obtain rfl := Task.client.inj (hc.symm.trans hk₀)
        rw [hpoint] at howes
        exact howes.elim

/-- As long as connection `d` of the fingerprint stays, the frame that `c` has received last is in its
channel, or has been written, or is still to be placed there. -/
structure Awaits (c d : ConnId) (fp : Fingerprint) (frame : Frame) (received : List Frame)
    (s : HostListener) : Prop where
  registered : ∃ kd, s.tasks d = .client kd ∧ 1 ≤ kd.point.phase
  served : ∀ kd, s.tasks d = .client kd → kd.Live → s.latest fp = some d →
    ⟨frame, c, received.length - 1⟩ ∈ kd.relayed ∨
      ∃ k, s.tasks c = .client k ∧ k.received = received ∧ k.Owes d fp

theorem Awaits.step (hs : s.Registered) (ho : s.Opened) {c d : ConnId} {fp : Fingerprint}
    {frame : Frame} {received : List Frame} (hframe : received.getLast? = some frame)
    (ha : Awaits c d fp frame received s) (hfinds : Finds c fp s label)
    (h : Stepped crates s label s') : Awaits c d fp frame received s' := by
  obtain ⟨kd, hd, hphase⟩ := ha.registered
  obtain ⟨kd', hd', hlater⟩ := h.client_persists hs.fresh hd hphase
  refine ⟨⟨kd', hd', hphase.trans hlater.phase⟩, fun kd'' hd'' hlive' hlatest' => ?_⟩
  obtain rfl := Task.client.inj (hd'.symm.trans hd'')
  have hlive := hlive'.of_later hlater hphase
  have hlatest := latest_of_step h hd hphase hlatest'
  rcases ha.served kd hd hlive hlatest with hmem | ⟨k, hc, rfl, howes⟩
  · exact Or.inl (h.relayed_subset hd hd' hlive'.2 hmem)
  · exact owes_step hs ho h hfinds hc howes hframe hd hd' hlive hlatest

theorem opened_of_run {room : Room} {hostNoisePubkey : Bytes} {labels : List Label}
    (hrun : Runs.run (step crates) (start room hostNoisePubkey) labels = some s) : s.Opened := by
  have hinv : ∀ s label s', s.Tables ∧ s.Opened → step crates s label = some s' →
      s'.Tables ∧ s'.Opened := by
    rintro s label s' ⟨ht, ho⟩ hstep
    exact ⟨tables_step ht (stepped_of_step hstep), opened_step ht ho (stepped_of_step hstep)⟩
  exact (Runs.run_induction hinv
    ⟨tables_start room hostNoisePubkey, opened_start room hostNoisePubkey⟩ hrun).2

/-- **No frame is lost to a recipient that is found.**  The task of `c` has received a room message,
and among the recipients that it computes is `fp`, registered by connection `d`.  When it is done with
the frame, and `d` has neither left its message loop nor been replaced, the frame has been placed in the
channel of `d`, provided that the loop found the entry and the channel when it turned to `fp`. -/
theorem relay_reaches {room : Room} {hostNoisePubkey : Bytes} {labels labels' : List Label}
    {s t : HostListener} {c d : ConnId} {k k' kd : Client} {frame : Frame} {fp : Fingerprint}
    (hrun : Runs.run (step crates) (start room hostNoisePubkey) labels = some s)
    (hc : s.tasks c = .client k) (hpoint : k.point = .recipients frame)
    (hfp : fp ∈ s.hostService.routeRecipients k.fingerprint)
    (hconn : s.hostService.connectionIdFor fp = some d)
    (hrun' : Runs.run (step crates) s (.client c .recipients :: labels') = some t)
    (hfinds : Runs.Meets (step crates) (Finds c fp) s (.client c .recipients :: labels'))
    (hc' : t.tasks c = .client k') (hdone : k'.received = k.received → ¬ k'.Routing)
    (hd : t.tasks d = .client kd) (hlive : kd.Live) (hlatest : t.latest fp = some d) :
    ⟨frame, c, k.received.length - 1⟩ ∈ kd.relayed := by
  obtain ⟨s₁, hstep, hrun₁⟩ := Runs.run_cons_eq_some.1 hrun'
  have hs := registered_of_run hrun
  have hfirst := stepped_of_step hstep
  have hframe : k.received.getLast? = some frame := by
    have hroutes := hs.routes c k hc
    unfold Routes at hroutes
    rw [hpoint] at hroutes
    exact hroutes.1
  have hawaits : Awaits c d fp frame k.received s₁ := by
    obtain ⟨kd₀, hkd₀, -, hphase⟩ := hs.toTables.connectionIdFor hconn
    obtain ⟨kd₁, hkd₁, hlater⟩ := hfirst.client_persists hs.fresh hkd₀ hphase
    refine ⟨⟨kd₁, hkd₁, hphase.trans hlater.phase⟩, fun _ _ _ _ => Or.inr ?_⟩
    cases hfirst with
    | recipients _ k₀ frame₀ hk₀ _ _ =>
        obtain rfl := Task.client.inj (hc.symm.trans hk₀)
        exact ⟨_, tasks_setClient_self _ _ _, rfl, hfp⟩
  have hinv : ∀ s label s', s.Registered ∧ s.Opened ∧ Awaits c d fp frame k.received s →
      Finds c fp s label → step crates s label = some s' →
      s'.Registered ∧ s'.Opened ∧ Awaits c d fp frame k.received s' := by
    rintro s label s' ⟨hs, ho, ha⟩ hfinds hstep
    have h := stepped_of_step hstep
    exact ⟨registered_step hs h, opened_step hs.toTables ho h, ha.step hs ho hframe hfinds h⟩
  obtain ⟨-, -, ht⟩ := Runs.meets_induction hinv
    ⟨registered_step hs hfirst, opened_step hs.toTables (opened_of_run hrun) hfirst, hawaits⟩
    (hfinds.2 s₁ hstep) hrun₁
  rcases ht.served kd hd hlive hlatest with hmem | ⟨k₁, hk₁, hreceived, howes⟩
  · exact hmem
  · obtain rfl := Task.client.inj (hc'.symm.trans hk₁)
    exact absurd howes.routing (hdone hreceived)

/-! ### A frame that arrives, and one that does not -/

/-- The loop looks for something else. -/
theorem finds_of_ne {c : ConnId} {fp : Fingerprint}
    (hresolve : label ≠ .client c (.resolve fp)) (hlookup : label ≠ .client c .lookup) :
    Finds c fp s label :=
  ⟨fun heq => absurd heq hresolve, fun heq => absurd heq hlookup⟩

/-- A frame has been received from the owner, and is relayed to the member. -/
def testReceived : List Label := testBoth ++ [.client 1 (.receive testFrame)]

/-- The owner sends a frame while the member is there. -/
theorem relay_reaches_member : ∃ s t k' kd,
    Runs.run (step testCrates) testStart testReceived = some s ∧
      Runs.run (step testCrates) s [.client 1 .recipients,
        .client 1 (.resolve (HostService.testFp "BB")), .client 1 .lookup, .client 1 .push,
        .client 1 .routed] = some t ∧
      t.tasks 1 = .client k' ∧ ¬ k'.Routing ∧ t.tasks 2 = .client kd ∧
      ⟨testFrame, 1, 0⟩ ∈ kd.relayed := by
  have hstart : ((Runs.run (step testCrates) testStart testReceived).bind fun s =>
        (s.clientPair 1 2).map fun (k, _) => (k.point.awaiting?, k.received.length,
          decide (HostService.testFp "BB" ∈ s.hostService.routeRecipients k.fingerprint),
          s.hostService.connectionIdFor (HostService.testFp "BB"))) =
      some (some testFrame, 1, true, some 2) := by
    decide +kernel
  have hresolve : (Runs.run (step testCrates) testStart
      (testReceived ++ [Label.client 1 .recipients])).map (fun s =>
        decide (HostService.testFp "BB" ∈ s.hostService.connectedClients)) = some true := by
    decide +kernel
  have hlookup : ((Runs.run (step testCrates) testStart (testReceived ++ [Label.client 1 .recipients,
      Label.client 1 (.resolve (HostService.testFp "BB"))])).bind fun s =>
        (s.clientPair 1 2).map fun (k, kd) =>
          (match k.point with
            | .lookup _ _ cid => some cid
            | _ => none, decide (3 ≤ kd.point.phase))) = some (some 2, true) := by
    decide +kernel
  have hend : ((Runs.run (step testCrates) testStart (testReceived ++ [Label.client 1 .recipients,
      Label.client 1 (.resolve (HostService.testFp "BB")), Label.client 1 .lookup, Label.client 1 .push,
      Label.client 1 .routed])).bind fun t =>
        (t.clientPair 1 2).map fun (k', kd) => (decide k'.Routing, kd.point.phase,
          t.latest (HostService.testFp "BB"))) = some (false, 7, some 2) := by
    decide +kernel
  obtain ⟨s, hrun, hread⟩ := Option.bind_eq_some_iff.1 hstart
  obtain ⟨⟨k, k₂⟩, hpair, hread⟩ := Option.map_eq_some_iff.1 hread
  simp only [Prod.mk.injEq, decide_eq_true_eq] at hread
  obtain ⟨hpoint, hlength, hfp, hconn⟩ := hread
  obtain ⟨t, hrunt, hread⟩ := Option.bind_eq_some_iff.1 hend
  obtain ⟨⟨k', kd⟩, hpair', hread⟩ := Option.map_eq_some_iff.1 hread
  simp only [Prod.mk.injEq, decide_eq_false_iff_not] at hread
  obtain ⟨hdone, hphase, hlatest⟩ := hread
  obtain ⟨s₀, hrun₀, hrun'⟩ := Runs.run_append_eq_some.1 hrunt
  obtain rfl := Option.some_inj.1 (hrun.symm.trans hrun₀)
  have hc := (clientPair_eq_some.1 hpair).1
  obtain ⟨hc', hd⟩ := clientPair_eq_some.1 hpair'
  refine ⟨s, t, k', kd, hrun, hrun', hc', hdone, hd, ?_⟩
  have hmem := relay_reaches hrun hc (Point.awaiting?_eq_some.1 hpoint) hfp hconn hrun'
    ⟨finds_of_ne (by simp) (by simp), fun s₁ hs₁ => ⟨⟨?_, by simp⟩, fun s₂ hs₂ =>
      ⟨⟨by simp, ?_⟩, fun _ _ => Runs.meets_of_forall fun label hlabel _ => ?_⟩⟩⟩
    hc' (fun _ => hdone) hd ⟨by omega, by omega⟩ hlatest
  · rwa [hlength] at hmem
  · rintro - - - - - -
    have hrun₁ := Runs.run_append_eq_some.2 ⟨s, hrun, Runs.run_cons_eq_some.2
      ⟨s₁, hs₁, Runs.run_nil s₁⟩⟩
    obtain ⟨s₁', hrun₁', hmem⟩ := Option.map_eq_some_iff.1 hresolve
    obtain rfl := Option.some_inj.1 (hrun₁.symm.trans hrun₁')
    exact of_decide_eq_true hmem
  · rintro - k₀ frame rest d kd₀ hk₀ hpoint₀ hkd₀ -
    have hrun₂ := Runs.run_append_eq_some.2 ⟨s, hrun, Runs.run_cons_eq_some.2
      ⟨s₁, hs₁, Runs.run_cons_eq_some.2 ⟨s₂, hs₂, Runs.run_nil s₂⟩⟩⟩
    obtain ⟨s₂', hrun₂', hread⟩ := Option.bind_eq_some_iff.1 hlookup
    obtain rfl := Option.some_inj.1 (hrun₂.symm.trans hrun₂')
    obtain ⟨⟨k₁, kd₁⟩, hpair₁, hread⟩ := Option.map_eq_some_iff.1 hread
    obtain ⟨hk₁, hkd₁⟩ := clientPair_eq_some.1 hpair₁
    obtain rfl := Task.client.inj (hk₀.symm.trans hk₁)
    simp only [hpoint₀, Prod.mk.injEq, Option.some_inj, decide_eq_true_eq] at hread
    obtain ⟨rfl, hphase₀⟩ := hread
    obtain rfl := Task.client.inj (hkd₀.symm.trans hkd₁)
    exact hphase₀
  · refine finds_of_ne ?_ ?_ <;> rintro rfl <;> simp at hlabel

/-- The member has registered, and has yet to open its channel, when the owner's frame is relayed: the
member is among the recipients, goes on to its message loop, and does not get the frame. -/
theorem relay_misses_newcomer : ∃ s t k kd,
    Runs.run (step testCrates) testStart (testArrive 1 "AA" ++ testGreet 1 ["AA"] ++
        (testArrive 2 "BB").take 10 ++ [.client 1 (.receive testFrame)]) = some s ∧
      s.tasks 1 = .client k ∧ k.point = .recipients testFrame ∧ k.received.length = 1 ∧
      HostService.testFp "BB" ∈ s.hostService.routeRecipients k.fingerprint ∧
      s.hostService.connectionIdFor (HostService.testFp "BB") = some 2 ∧
      Runs.run (step testCrates) s ([.client 1 .recipients,
        .client 1 (.resolve (HostService.testFp "BB")), .client 1 .lookup, .client 1 .routed] ++
        (testArrive 2 "BB").drop 10 ++ testGreet 2 ["AA", "BB"]) = some t ∧
      t.tasks 2 = .client kd ∧ kd.Live ∧ t.latest (HostService.testFp "BB") = some 2 ∧
      ⟨testFrame, 1, 0⟩ ∉ kd.relayed := by
  have hstart : ((Runs.run (step testCrates) testStart (testArrive 1 "AA" ++
      testGreet 1 ["AA"] ++ (testArrive 2 "BB").take 10 ++
      [.client 1 (.receive testFrame)])).bind fun s =>
        (s.clientPair 1 2).map fun (k, _) => (k.point.awaiting?, k.received.length,
          decide (HostService.testFp "BB" ∈ s.hostService.routeRecipients k.fingerprint),
          s.hostService.connectionIdFor (HostService.testFp "BB"))) =
      some (some testFrame, 1, true, some 2) := by
    decide +kernel
  have hend : ((Runs.run (step testCrates) testStart ((testArrive 1 "AA" ++
      testGreet 1 ["AA"] ++ (testArrive 2 "BB").take 10 ++ [.client 1 (.receive testFrame)]) ++
      ([Label.client 1 .recipients, Label.client 1 (.resolve (HostService.testFp "BB")),
        Label.client 1 .lookup, Label.client 1 .routed] ++
        (testArrive 2 "BB").drop 10 ++ testGreet 2 ["AA", "BB"]))).bind fun t =>
        (t.clientPair 1 2).map fun (_, kd) => (kd.relayed, kd.point.phase,
          t.latest (HostService.testFp "BB"))) = some ([], 7, some 2) := by
    decide +kernel
  obtain ⟨s, hrun, hread⟩ := Option.bind_eq_some_iff.1 hstart
  obtain ⟨⟨k, k₂⟩, hpair, hread⟩ := Option.map_eq_some_iff.1 hread
  simp only [Prod.mk.injEq, decide_eq_true_eq] at hread
  obtain ⟨hpoint, hlength, hfp, hconn⟩ := hread
  obtain ⟨t, hrunt, hread⟩ := Option.bind_eq_some_iff.1 hend
  obtain ⟨⟨k', kd⟩, hpair', hread⟩ := Option.map_eq_some_iff.1 hread
  simp only [Prod.mk.injEq] at hread
  obtain ⟨hrelayed, hphase, hlatest⟩ := hread
  obtain ⟨s₀, hrun₀, hrun'⟩ := Runs.run_append_eq_some.1 hrunt
  obtain rfl := Option.some_inj.1 (hrun.symm.trans hrun₀)
  refine ⟨s, t, k, kd, hrun, (clientPair_eq_some.1 hpair).1, Point.awaiting?_eq_some.1 hpoint,
    hlength, hfp, hconn, hrun', (clientPair_eq_some.1 hpair').2, ⟨by omega, by omega⟩, hlatest, ?_⟩
  rw [hrelayed]
  exact List.not_mem_nil

end HostListener

end Sanctum
