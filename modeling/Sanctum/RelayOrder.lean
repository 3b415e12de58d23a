/-
The relay delivers in order, at most once, and never back to the sender.

A task that relays a frame goes through the recipients it has computed once, and resolves each of them
to a connection later, when the table may have changed.  A connection it finds then still belongs to the
fingerprint it looked up, so each connection is served at most once for a frame, and its own never.
With the number of the frame attached, what lies in a channel or has been written from it carries
increasing numbers for each connection it came from, all below the number of the frame that is still
to be placed there.

Main definitions:

* `Sanctum.Client.relayed`, `Sanctum.Client.numbersFrom` — what has been placed in a channel, and the
  numbers of what came from one connection;
* `Sanctum.HostListener.Routes` — what holds of a task that relays a frame;
* `Sanctum.Client.Pending` — the task may still place its frame in a channel;
* `Sanctum.HostListener.Relaying` — **the invariant of the relay**.

Main results:

* `Sanctum.HostListener.relaying_step`, `Sanctum.HostListener.sound_of_run` — every run keeps it;
* `Sanctum.HostListener.relay_in_order` — **order, no duplication, never back to the sender**.
-/

import Sanctum.ListenerTables

set_option relaxedAutoImplicit false
set_option autoImplicit false

namespace Sanctum

open HostListener

/-! ### Readings of a task -/

/-- The relayed frame of a written one. -/
def Sent.relayed? : Sent → Option Relayed
  | .own _ => none
  | .relayed r => some r

namespace Client

/-- **What has been placed in the channel of the task**, as far as it has not been lost with a failed
write: first what has been written, then what is waiting. -/
def relayed (k : Client) : List Relayed := k.sent.filterMap Sent.relayed? ++ k.outRx

/-- The numbers of the frames that came from connection `c`. -/
def numbersFrom (k : Client) (c : ConnId) : List ℕ :=
  (k.relayed.filter fun r => r.origin = c).map Relayed.number

/-- The frame in hand: the last one received, a room message. -/
def Handles (k : Client) (frame : Frame) : Prop :=
  k.received.getLast? = some frame ∧ frame.messageType = MessageType.roomMessage

/-- The task may still place its frame in the channel of `d`, a connection of `fp`. -/
def Pending (k : Client) (d : ConnId) (fp : Fingerprint) : Prop :=
  match k.point with
  | .recipients _ => True
  | .route _ rest => fp ∈ rest
  | .lookup _ rest cid => fp ∈ rest ∨ cid = d
  | .push _ rest tx => fp ∈ rest ∨ tx.owner = d
  | _ => False

theorem Handles.getElem? {k : Client} {frame : Frame} (h : k.Handles frame) :
    k.received[k.received.length - 1]? = some frame := by
  rw [← List.getLast?_eq_getElem?]
  exact h.1

theorem Handles.length_pos {k : Client} {frame : Frame} (h : k.Handles frame) :
    0 < k.received.length := by
  refine List.length_pos_iff.2 fun hnil => ?_
  have hlast := h.1
  rw [hnil] at hlast
  simp at hlast

end Client

namespace HostListener

/-- Connection `d` belongs to a client of another fingerprint, one that is not in `rest`. -/
def Target (s : HostListener) (k : Client) (rest : Finset Fingerprint) (d : ConnId) : Prop :=
  ∃ kd, s.tasks d = .client kd ∧ 1 ≤ kd.point.phase ∧ kd.fingerprint ≠ k.fingerprint ∧
    kd.fingerprint ∉ rest

/-- **What holds of a task that relays a frame.** -/
def Routes (s : HostListener) (k : Client) : Prop :=
  match k.point with
  | .recipients frame => k.Handles frame
  | .route frame rest => k.Handles frame ∧ k.fingerprint ∉ rest
  | .lookup frame rest cid => k.Handles frame ∧ k.fingerprint ∉ rest ∧ s.Target k rest cid
  | .push frame rest tx => k.Handles frame ∧ k.fingerprint ∉ rest ∧ s.Target k rest tx.owner
  | _ => True

/-- **The invariant of the relay.** -/
structure Relaying (s : HostListener) : Prop where
  routes : ∀ c k, s.tasks c = .client k → s.Routes k
  origin : ∀ d kd, s.tasks d = .client kd → ∀ r ∈ kd.relayed,
    ∃ k, s.tasks r.origin = .client k ∧ 1 ≤ k.point.phase ∧ k.fingerprint ≠ kd.fingerprint ∧
      k.received[r.number]? = some r.frame ∧ r.frame.messageType = MessageType.roomMessage
  order : ∀ c k d kd, s.tasks c = .client k → s.tasks d = .client kd →
    (kd.numbersFrom c).Pairwise (· < ·) ∧
      ∀ n ∈ kd.numbersFrom c, n < k.received.length ∧
        (k.Pending d kd.fingerprint → n + 1 < k.received.length)

theorem relaying_start (room : Room) (hostNoisePubkey : Bytes) :
    (start room hostNoisePubkey).Relaying where
  routes := by simp [start]
  origin := by simp [start]
  order := by simp [start]

end HostListener

namespace Stepped

variable {crates : Crates} {s s' : HostListener} {label : Label}

/-! ### What a step does to a channel -/

theorem relayed_sent_own (k : Client) (frame : Frame) (point : Point) (routeRx : ℕ) :
    ({ k with point := point, routeRx := routeRx, sent := k.sent ++ [.own frame] } :
      Client).relayed = k.relayed := by
  simp [Client.relayed, Sent.relayed?]

/-- **What a step does to a channel**: a relay appends its frame, and otherwise nothing is added. -/
theorem relayed_cases (h : Stepped crates s label s') {d : ConnId} {kd kd' : Client}
    (hd : s.tasks d = .client kd) (hd' : s'.tasks d = .client kd') :
    kd'.relayed.Sublist kd.relayed ∨
      ∃ c k frame rest tx, label = .client c .push ∧ s.tasks c = .client k ∧
        k.point = .push frame rest tx ∧ tx.owner = d ∧
        (∀ k', s'.tasks c = .client k' → k'.point = .route frame rest ∧
          k'.received = k.received) ∧
        kd'.relayed = kd.relayed ++ [⟨frame, c, k.received.length - 1⟩] := by
  cases h.stepsTo hd hd' with
  | delivered c k frame rest tx _ htask hpoint howner _ =>
      refine Or.inr ⟨c, k, frame, rest, tx, rfl, htask, hpoint, howner, fun k' hk' => ?_, ?_⟩
      · obtain ⟨out, rfl⟩ := h.push_client htask hpoint hk'
        exact ⟨rfl, rfl⟩
      · exact (List.append_assoc _ _ _).symm
  | pushOwn frame rest tx hpoint howner _ =>
      refine Or.inr ⟨d, kd, frame, rest, tx, rfl, hd, hpoint, howner, fun k' hk' => ?_, ?_⟩
      · obtain ⟨out, rfl⟩ := h.push_client hd hpoint hk'
        exact ⟨rfl, rfl⟩
      · exact (List.append_assoc _ _ _).symm
  | takeOut r outRx _ hout =>
      left
      simp [Client.relayed, hout, Sent.relayed?]
  | takeOutError r outRx _ hout =>
      left
      simp [Client.relayed, hout]
  | greet _ _ _ _ _ | takeRouted _ _ _ | pong _ =>
      left
      rw [relayed_sent_own]
  | lagged _ =>
      left
      unfold Client.relayed
      exact List.Sublist.refl _
  | _ => exact Or.inl (List.Sublist.refl _)

end Stepped

namespace HostListener

variable {crates : Crates} {s s' : HostListener} {label : Label}

/-! ### Tasks that relay a frame -/

theorem Target.step {k k' : Client} {rest : Finset Fingerprint} {d : ConnId}
    (h : s.Target k rest d) (hfresh : s.Fresh) (hstep : Stepped crates s label s')
    (hfp : k'.fingerprint = k.fingerprint) : s'.Target k' rest d := by
  obtain ⟨kd, htask, hphase, hne, hrest⟩ := h
  obtain ⟨kd', htask', hlater⟩ := hstep.client_persists hfresh htask hphase
  refine ⟨kd', htask', hphase.trans hlater.phase, ?_, ?_⟩
  · rwa [hlater.fingerprint, hfp]
  · rwa [hlater.fingerprint]

/-- The invariant of a task depends on its point, its fingerprint and the frames it has received. -/
theorem Routes.step {k k' : Client} (h : s.Routes k) (hfresh : s.Fresh)
    (hstep : Stepped crates s label s') (hpoint : k'.point = k.point)
    (hfp : k'.fingerprint = k.fingerprint) (hreceived : k'.received = k.received) :
    s'.Routes k' := by
  unfold Routes Client.Handles at h ⊢
  rw [hpoint, hfp, hreceived]
  split at h
  · exact h
  · exact h
  · exact ⟨h.1, h.2.1, h.2.2.step hfresh hstep hfp⟩
  · exact ⟨h.1, h.2.1, h.2.2.step hfresh hstep hfp⟩
  · trivial

theorem routes_afterReceive (k : Client) (frame : Frame) :
    s.Routes { k with point := .afterReceive frame, received := k.received ++ [frame] } := by
  unfold Routes Point.afterReceive
  by_cases hroom : frame.messageType = MessageType.roomMessage
  · rw [if_pos hroom]
    exact ⟨List.getLast?_concat, hroom⟩
  · rw [if_neg hroom]
    by_cases hping : frame.messageType = MessageType.ping
    · rw [if_pos hping]
      trivial
    · rw [if_neg hping]
      trivial

/-- **A step keeps the invariant of a task that relays a frame.** -/
theorem routes_step (ht : s.Tables) (h : Stepped crates s label s') {c : ConnId} {k k' : Client}
    (hold : s.Routes k) (hc : s.tasks c = .client k) (hc' : s'.tasks c = .client k') :
    s'.Routes k' := by
  unfold Routes at hold
  cases h.stepsTo hc hc' with
  | receive frame _ => exact routes_afterReceive k frame
  | recipients frame hpoint =>
      rw [hpoint] at hold
      exact ⟨hold, fun hmem => (HostService.mem_routeRecipients.1 hmem).1 rfl⟩
  | resolve frame rest fp cid hpoint hfp hconn =>
      rw [hpoint] at hold
      obtain ⟨kd, hkd, hkdfp, hphase⟩ := ht.connectionIdFor hconn
      have htarget : s.Target k (rest.erase fp) cid := by
        refine ⟨kd, hkd, hphase, ?_, ?_⟩
        · rintro heq
          exact hold.2 (heq ▸ hkdfp ▸ hfp)
        · rw [hkdfp]
          exact Finset.notMem_erase fp rest
      exact ⟨hold.1, fun hmem => hold.2 (Finset.mem_of_mem_erase hmem),
        htarget.step ht.fresh h rfl⟩
  | resolveNone frame rest fp hpoint _ =>
      rw [hpoint] at hold
      exact ⟨hold.1, fun hmem => hold.2 (Finset.mem_of_mem_erase hmem)⟩
  | lookup frame rest cid tx hpoint htx =>
      rw [hpoint] at hold
      refine ⟨hold.1, hold.2.1, ?_⟩
      rw [(ht.senders cid tx htx).1]
      exact hold.2.2.step ht.fresh h rfl
  | lookupNone _ _ _ hpoint _ | push _ _ _ hpoint _ | pushOwn _ _ _ hpoint _ _
  | pushClosed _ _ _ hpoint =>
      rw [hpoint] at hold
      exact ⟨hold.1, hold.2.1⟩
  | idle _ _ | delivered _ _ _ _ _ _ _ _ _ _ =>
      exact Routes.step hold ht.fresh h rfl rfl rfl
  | takeOut _ _ hpoint _ | takeRouted _ hpoint _ | takeRoutedOwn _ _ hpoint _ _ | lagged hpoint =>
      unfold Routes
      rw [hpoint]
      trivial
  | _ => trivial

/-! ### The invariant -/

/-- **What a step does to the channels still to be served**: there are no more of them, unless a frame
has been received. -/
theorem pending_cases (ht : s.Tables) (h : Stepped crates s label s') {c : ConnId}
    {k k' : Client} (htask : s.tasks c = .client k) (htask' : s'.tasks c = .client k') :
    (∃ frame, k'.received = k.received ++ [frame]) ∨
      k'.received = k.received ∧ ∀ d kd, s.tasks d = .client kd →
        k'.Pending d kd.fingerprint → k.Pending d kd.fingerprint := by
  cases h.stepsTo htask htask' with
  | receive frame _ => exact Or.inl ⟨frame, rfl⟩
  | idle _ _ | delivered _ _ _ _ _ _ _ _ _ _ =>
      exact Or.inr ⟨rfl, fun _ _ _ hpending => hpending⟩
  | recipients frame hpoint =>
      refine Or.inr ⟨rfl, fun d kd _ _ => ?_⟩
      unfold Client.Pending
      rw [hpoint]
      trivial
  | resolve frame rest fp cid hpoint hfp hconn =>
      refine Or.inr ⟨rfl, fun d kd hd hpending => ?_⟩
      unfold Client.Pending at hpending ⊢
      rw [hpoint]
      rcases hpending with hmem | rfl
      · exact Finset.mem_of_mem_erase hmem
      · obtain ⟨kt, hkt, hktfp, -⟩ := ht.connectionIdFor hconn
        obtain rfl := Task.client.inj (hd.symm.trans hkt)
        exact hktfp ▸ hfp
  | resolveNone frame rest fp hpoint _ =>
      refine Or.inr ⟨rfl, fun d kd _ hpending => ?_⟩
      unfold Client.Pending at hpending ⊢
      rw [hpoint]
      exact Finset.mem_of_mem_erase hpending
  | lookup frame rest cid tx hpoint htx =>
      refine Or.inr ⟨rfl, fun d kd _ hpending => ?_⟩
      have hpush : kd.fingerprint ∈ rest ∨ tx.owner = d := hpending
      rw [(ht.senders cid tx htx).1] at hpush
      unfold Client.Pending
      rw [hpoint]
      exact hpush
  | lookupNone frame rest _ hpoint _ | push frame rest _ hpoint _ | pushOwn frame rest _ hpoint _ _
  | pushClosed frame rest _ hpoint =>
      refine Or.inr ⟨rfl, fun d kd _ hpending => ?_⟩
      unfold Client.Pending at hpending ⊢
      rw [hpoint]
      exact Or.inl hpending
  | takeOut _ _ hpoint _ | takeRouted _ hpoint _ | takeRoutedOwn _ _ hpoint _ _ | lagged hpoint =>
      refine Or.inr ⟨rfl, fun d kd _ hpending => ?_⟩
      unfold Client.Pending at hpending
      rw [hpoint] at hpending
      exact hpending.elim
  | _ => exact Or.inr ⟨rfl, fun d kd _ hpending => hpending.elim⟩

theorem origin_step (ht : s.Tables) (hr : s.Relaying) (h : Stepped crates s label s')
    {d : ConnId} {kd' : Client} (hd' : s'.tasks d = .client kd') {r : Relayed}
    (hmem : r ∈ kd'.relayed) :
    ∃ k, s'.tasks r.origin = .client k ∧ 1 ≤ k.point.phase ∧ k.fingerprint ≠ kd'.fingerprint ∧
      k.received[r.number]? = some r.frame ∧ r.frame.messageType = MessageType.roomMessage := by
  -- the client that received the frame stays, and keeps its frames
  have hkeep : ∀ k, s.tasks r.origin = .client k → 1 ≤ k.point.phase →
      k.fingerprint ≠ kd'.fingerprint → k.received[r.number]? = some r.frame →
      r.frame.messageType = MessageType.roomMessage →
      ∃ k, s'.tasks r.origin = .client k ∧ 1 ≤ k.point.phase ∧
        k.fingerprint ≠ kd'.fingerprint ∧ k.received[r.number]? = some r.frame ∧
        r.frame.messageType = MessageType.roomMessage := by
    intro k htask hphase hne hframe htype
    obtain ⟨k', htask', hlater⟩ := h.client_persists ht.fresh htask hphase
    refine ⟨k', htask', hphase.trans hlater.phase, hlater.fingerprint ▸ hne, ?_, htype⟩
    obtain ⟨more, hmore⟩ := hlater.received
    obtain ⟨hlt, -⟩ := List.getElem?_eq_some_iff.1 hframe
    rw [← hmore, List.getElem?_append_left hlt, hframe]
  rcases h.client_origin ht.fresh hd' with ⟨kd, hd, hlater⟩ | ⟨-, -, hout, -, hsent⟩
  · rcases h.relayed_cases hd hd' with hsub | ⟨c, k, frame, rest, tx, -, htask, hpoint, howner, -,
        hrelayed⟩
    · obtain ⟨k, htask, hphase, hne, hframe, htype⟩ := hr.origin d kd hd r (hsub.subset hmem)
      exact hkeep k htask hphase (hlater.fingerprint ▸ hne) hframe htype
    · rw [hrelayed, List.mem_append, List.mem_singleton] at hmem
      rcases hmem with hmem | rfl
      · obtain ⟨k, htask, hphase, hne, hframe, htype⟩ := hr.origin d kd hd r hmem
        exact hkeep k htask hphase (hlater.fingerprint ▸ hne) hframe htype
      · have hroutes := hr.routes c k htask
        unfold Routes at hroutes
        rw [hpoint] at hroutes
        obtain ⟨hhandles, -, kt, hkt, -, hne, -⟩ := hroutes
        obtain rfl := Task.client.inj (hd.symm.trans (howner ▸ hkt))
        refine hkeep k htask (by simp [hpoint, Point.phase]) ?_ hhandles.getElem? hhandles.2
        rw [hlater.fingerprint]
        exact hne.symm
  · rw [Client.relayed, hout, hsent] at hmem
    simp at hmem

theorem order_step (ht : s.Tables) (hr : s.Relaying) (h : Stepped crates s label s')
    {c d : ConnId} {k' kd' : Client} (hc' : s'.tasks c = .client k')
    (hd' : s'.tasks d = .client kd') :
    (kd'.numbersFrom c).Pairwise (· < ·) ∧
      ∀ n ∈ kd'.numbersFrom c, n < k'.received.length ∧
        (k'.Pending d kd'.fingerprint → n + 1 < k'.received.length) := by
  rcases h.client_origin ht.fresh hd' with ⟨kd, hd, hlater⟩ | ⟨-, -, hout, -, hsent⟩
  swap
  · have hnil : kd'.numbersFrom c = [] := by
      unfold Client.numbersFrom Client.relayed
      rw [hout, hsent]
      rfl
    rw [hnil]
    simp
  rcases h.client_origin ht.fresh hc' with ⟨k, hc, -⟩ | ⟨-, hregister, -, -, -⟩
  swap
  · -- nothing has come from a client that has only just been authenticated
    have hnil : kd'.numbersFrom c = [] := by
      refine List.map_eq_nil_iff.2 (List.filter_eq_nil_iff.2 fun r hmem horigin => ?_)
      obtain ⟨k, htask, hphase, -⟩ := origin_step ht hr h hd' hmem
      rw [of_decide_eq_true horigin, hc'] at htask
      obtain rfl := Task.client.inj htask
      rw [hregister] at hphase
      exact absurd hphase (by decide)
    rw [hnil]
    simp
  obtain ⟨hpairwise, hbound⟩ := hr.order c k d kd hc hd
  -- the bounds for the numbers that were there before the step
  have hold : ∀ n ∈ kd.numbersFrom c, n < k'.received.length ∧
      (k'.Pending d kd'.fingerprint → n + 1 < k'.received.length) := by
    intro n hn
    obtain ⟨hlt, hpending⟩ := hbound n hn
    rcases pending_cases ht h hc hc' with ⟨frame, hreceived⟩ | ⟨hreceived, hstill⟩
    · rw [hreceived, List.length_append, List.length_singleton]
      exact ⟨by omega, fun _ => by omega⟩
    · rw [hreceived, hlater.fingerprint]
      exact ⟨hlt, fun hp => hpending (hstill d kd hd hp)⟩
  rcases h.relayed_cases hd hd' with hsub | ⟨c₀, k₀, frame, rest, tx, -, hc₀, hpoint, howner,
      hafter, hrelayed⟩
  · have hsub' : (kd'.numbersFrom c).Sublist (kd.numbersFrom c) := (hsub.filter _).map _
    exact ⟨hpairwise.sublist hsub', fun n hn => hold n (hsub'.subset hn)⟩
  by_cases horigin : c₀ = c
  swap
  · have hsame : kd'.numbersFrom c = kd.numbersFrom c := by
      unfold Client.numbersFrom
      rw [hrelayed, List.filter_append]
      simp [horigin]
    rw [hsame]
    exact ⟨hpairwise, hold⟩
  subst horigin
  obtain rfl := Task.client.inj (hc.symm.trans hc₀)
  have hroutes := hr.routes c₀ k hc
  unfold Routes at hroutes
  rw [hpoint] at hroutes
  obtain ⟨hhandles, -, kt, hkt, -, -, hrest⟩ := hroutes
  obtain rfl := Task.client.inj (hd.symm.trans (howner ▸ hkt))
  obtain ⟨hpoint', hreceived'⟩ := hafter k' hc'
  have hpos := hhandles.length_pos
  -- before the step the frame in hand was still to be placed here
  have hbelow : ∀ n ∈ kd.numbersFrom c₀, n < k.received.length - 1 := by
    intro n hn
    have hlt := (hbound n hn).2 (by
      unfold Client.Pending
      rw [hpoint]
      exact Or.inr howner)
    omega
  have happend : kd'.numbersFrom c₀ = kd.numbersFrom c₀ ++ [k.received.length - 1] := by
    unfold Client.numbersFrom
    rw [hrelayed, List.filter_append, List.map_append]
    simp
  rw [happend, List.pairwise_append]
  refine ⟨⟨hpairwise, List.pairwise_singleton _ _, fun n hn m hm => ?_⟩, fun n hn => ?_⟩
  · rw [List.mem_singleton.1 hm]
    exact hbelow n hn
  · rcases List.mem_append.1 hn with hn | hn
    · exact hold n hn
    · rw [List.mem_singleton.1 hn, hreceived']
      refine ⟨by omega, fun hp => ?_⟩
      unfold Client.Pending at hp
      rw [hpoint', hlater.fingerprint] at hp
      exact absurd hp hrest

/-- **Every step keeps the invariant of the relay.** -/
theorem relaying_step (ht : s.Tables) (hr : s.Relaying) (h : Stepped crates s label s') :
    s'.Relaying where
  routes := by
    intro c k' hc'
    rcases h.client_origin ht.fresh hc' with ⟨k, hc, -⟩ | ⟨-, hregister, -, -, -⟩
    · exact routes_step ht h (hr.routes c k hc) hc hc'
    · unfold Routes
      rw [hregister]
      trivial
  origin := fun _ _ hd' _ => origin_step ht hr h hd'
  order := fun _ _ _ _ => order_step ht hr h

/-- The invariants together. -/
structure Sound (s : HostListener) : Prop extends Tables s, Relaying s

theorem sound_start (room : Room) (hostNoisePubkey : Bytes) : (start room hostNoisePubkey).Sound :=
  ⟨tables_start room hostNoisePubkey, relaying_start room hostNoisePubkey⟩

theorem sound_step (hs : s.Sound) (h : Stepped crates s label s') : s'.Sound :=
  ⟨tables_step hs.toTables h, relaying_step hs.toTables hs.toRelaying h⟩

/-- **Every run keeps the invariants.** -/
theorem sound_of_run {room : Room} {hostNoisePubkey : Bytes} {labels : List Label}
    (hrun : Runs.run (step crates) (start room hostNoisePubkey) labels = some s) : s.Sound :=
  Runs.run_induction (fun _ _ _ hs hstep => sound_step hs (stepped_of_step hstep))
    (sound_start room hostNoisePubkey) hrun

/-! ### Order and no duplication -/

end HostListener

/-- Entries picked at increasing positions of a list form a sublist. -/
theorem sublist_of_increasing {α β : Type} {xs : List α} {num : β → ℕ} {val : β → α}
    {l : List β} (hl : (l.map num).Pairwise (· < ·))
    (hval : ∀ b ∈ l, xs[num b]? = some (val b)) : (l.map val).Sublist xs := by
  have hdrop : ∀ n, (∀ b ∈ l, n ≤ num b) → (l.map val).Sublist (xs.drop n) := by
    induction l with
    | nil => exact fun n _ => List.nil_sublist _
    | cons b l ih =>
        intro n hn
        rw [List.map_cons, List.pairwise_cons] at hl
        obtain ⟨hlt, hget⟩ := List.getElem?_eq_some_iff.1 (hval b List.mem_cons_self)
        have htail := ih hl.2 (fun b' hb' => hval b' (List.mem_cons_of_mem b hb')) (num b + 1)
          fun b' hb' => hl.1 (num b') (List.mem_map_of_mem hb')
        have hhead : ((b :: l).map val).Sublist (xs.drop (num b)) := by
          rw [List.drop_eq_getElem_cons hlt, hget, List.map_cons]
          exact htail.cons_cons _
        exact hhead.trans (List.drop_sublist_drop_left xs (hn b List.mem_cons_self))
  have hall := hdrop 0 fun b _ => Nat.zero_le _
  rwa [List.drop_zero] at hall

/-- The frames from connection `c` that the task has written to its transport. -/
def Client.writtenFrom (k : Client) (c : ConnId) : List Frame :=
  ((k.sent.filterMap Sent.relayed?).filter fun r => r.origin = c).map Relayed.frame

theorem Client.mem_writtenFrom {k : Client} {c : ConnId} {frame : Frame} :
    frame ∈ k.writtenFrom c ↔ ∃ r, .relayed r ∈ k.sent ∧ r.origin = c ∧ r.frame = frame := by
  unfold writtenFrom
  simp only [List.mem_map, List.mem_filter, List.mem_filterMap, decide_eq_true_eq, and_assoc]
  constructor
  · rintro ⟨r, ⟨f, hf, hrelayed⟩, horigin, rfl⟩
    cases f with
    | own _ => simp [Sent.relayed?] at hrelayed
    | relayed r' =>
        obtain rfl := Option.some_inj.1 hrelayed
        exact ⟨r', hf, horigin, rfl⟩
  · rintro ⟨r, hr, horigin, rfl⟩
    exact ⟨r, ⟨_, hr, rfl⟩, horigin, rfl⟩

namespace HostListener

variable {crates : Crates} {s s' : HostListener} {label : Label}

/-- **Order, no duplication, never back to the sender**: in every state of every run, the frames from
connection `c` that the task of `d` has written form a subsequence of the room messages that the task
of `c` has received, and none goes to a connection of the sender's own fingerprint. -/
theorem relay_in_order {room : Room} {hostNoisePubkey : Bytes} {labels : List Label}
    (hrun : Runs.run (step crates) (start room hostNoisePubkey) labels = some s) {c d : ConnId}
    {k kd : Client} (hc : s.tasks c = .client k) (hd : s.tasks d = .client kd) :
    (kd.writtenFrom c).Sublist
        (k.received.filter fun frame => frame.messageType = MessageType.roomMessage) ∧
      (kd.writtenFrom c ≠ [] → kd.fingerprint ≠ k.fingerprint) := by
  have hr := (sound_of_run hrun).toRelaying
  -- what has been written was in the channel
  have hentry : ∀ r ∈ (kd.sent.filterMap Sent.relayed?).filter (fun r => r.origin = c),
      k.fingerprint ≠ kd.fingerprint ∧ k.received[r.number]? = some r.frame ∧
        r.frame.messageType = MessageType.roomMessage := by
    intro r hmem
    obtain ⟨hsent, horigin⟩ := List.mem_filter.1 hmem
    obtain ⟨k₀, hk₀, -, hne, hframe, htype⟩ :=
      hr.origin d kd hd r (List.mem_append_left _ hsent)
    rw [of_decide_eq_true horigin, hc] at hk₀
    obtain rfl := Task.client.inj hk₀
    exact ⟨hne, hframe, htype⟩
  constructor
  · have hincreasing := (hr.order c k d kd hc hd).1
    unfold Client.numbersFrom Client.relayed at hincreasing
    rw [List.filter_append, List.map_append] at hincreasing
    have hsub : (kd.writtenFrom c).Sublist k.received :=
      sublist_of_increasing (List.pairwise_append.1 hincreasing).1 fun r hmem =>
        (hentry r hmem).2.1
    have hroom : (kd.writtenFrom c).filter
        (fun frame => frame.messageType = MessageType.roomMessage) = kd.writtenFrom c := by
      refine List.filter_eq_self.2 fun frame hframe => ?_
      obtain ⟨r, hmem, rfl⟩ := List.mem_map.1 hframe
      exact decide_eq_true (hentry r hmem).2.2
    rw [← hroom]
    exact hsub.filter _
  · intro hne
    obtain ⟨frame, hframe⟩ := List.exists_mem_of_ne_nil _ hne
    obtain ⟨r, hmem, rfl⟩ := List.mem_map.1 hframe
    exact (hentry r hmem).1.symm

/-! ### Runs to look at -/

/-- The wire format, and a digest that is not looked at. -/
def testCrates : Crates where
  pb := .wire
  sha256 _ := ⟨List.replicate 32 0, length_zeros⟩

/-- The listener of the test room. -/
def testStart : HostListener := start HostService.testRoom []

/-- A join up to the lock of the aliases: connection `c` claims a test fingerprint. -/
def testArrive (c : ConnId) (suffix : String) : List Label :=
  [.accept, .authenticate c (.handshake true), .authenticate c .readRoomId,
    .authenticate c (.createChallenge [UInt8.ofNat c] 1700000000),
    .authenticate c (.respond (some ⟨MessageType.authResponse,
      encodeString 1 (HostService.testFp suffix).hex ++ encodeString 4 suffix⟩)),
    .authenticate c (.addMember 1700000000), .authenticate c .readAllowlist,
    .authenticate c (.verify 1700000000), .authenticate c (.sendResult true),
    .client c .register, .client c .storeAlias, .client c .openChannel, .client c .subscribe]

/-- Phases 3 and 4, with the aliases in the order in which they are announced. -/
def testGreet (c : ConnId) (suffixes : List String) : List Label :=
  [.client c .lockAliases] ++
    suffixes.map (fun suffix => .client c (.greet (HostService.testFp suffix).hex true)) ++
    [.client c .unlockAliases, .client c .announce]

/-- A frame is received and relayed to the test fingerprints. -/
def testRelay (c : ConnId) (frame : Frame) (suffixes : List String) : List Label :=
  [.client c (.receive frame), .client c .recipients] ++
    suffixes.flatMap (fun suffix => [.client c (.resolve (HostService.testFp suffix)),
      .client c .lookup, .client c .push]) ++
    [.client c .routed]

/-- Both members of the test room join. -/
def testBoth : List Label :=
  testArrive 1 "AA" ++ testGreet 1 ["AA"] ++ testArrive 2 "BB" ++ testGreet 2 ["AA", "BB"]

/-- A room message of the tests. -/
def testFrame : Frame where
  messageType := MessageType.roomMessage
  payload := [1]

/-- The clients of two connections. -/
def clientPair (s : HostListener) (c d : ConnId) : Option (Client × Client) :=
  match s.tasks c, s.tasks d with
  | .client k, .client kd => some (k, kd)
  | _, _ => none

theorem clientPair_eq_some {c d : ConnId} {k kd : Client} :
    s.clientPair c d = some (k, kd) ↔ s.tasks c = .client k ∧ s.tasks d = .client kd := by
  unfold clientPair
  cases s.tasks c <;> cases s.tasks d <;> simp

/-- One frame of the owner reaches the member. -/
theorem relay_in_order_once : ∃ s k kd,
    Runs.run (step testCrates) testStart
        (testBoth ++ testRelay 1 testFrame ["BB"] ++ [.client 2 (.takeOut true)]) = some s ∧
      s.tasks 1 = .client k ∧ s.tasks 2 = .client kd ∧ kd.writtenFrom 1 = [testFrame] ∧
      (kd.writtenFrom 1).Sublist
        (k.received.filter fun frame => frame.messageType = MessageType.roomMessage) ∧
      (kd.writtenFrom 1 ≠ [] → kd.fingerprint ≠ k.fingerprint) := by
  have heval : ((Runs.run (step testCrates) testStart
      (testBoth ++ testRelay 1 testFrame ["BB"] ++ [.client 2 (.takeOut true)])).bind fun s =>
        (s.clientPair 1 2).map fun (_, kd) => kd.writtenFrom 1) = some [testFrame] := by
    decide +kernel
  obtain ⟨s, hrun, hwritten⟩ := Option.bind_eq_some_iff.1 heval
  obtain ⟨⟨k, kd⟩, hpair, hwritten⟩ := Option.map_eq_some_iff.1 hwritten
  obtain ⟨hk, hkd⟩ := clientPair_eq_some.1 hpair
  exact ⟨s, k, kd, hrun, hk, hkd, hwritten, relay_in_order hrun hk hkd⟩

end HostListener

end Sanctum
