/-
Notices of presence.

A newcomer is told of the others from a snapshot of the aliases, and the others are told of the newcomer
by a broadcast.  A client that has stored its alias before another takes the snapshot, and makes its
broadcast after the other has subscribed, is announced to the other twice; nobody is ever missed.  The
notices that a client has been sent, is still to be sent from the snapshot, and has not yet taken from
the broadcast, are followed through a run together.

Main definitions:

* `Sanctum.Client.notices`, `Sanctum.HostListener.account` — the notices of a fingerprint that a client
  has been sent, and those on their way to it;
* `Sanctum.HostListener.Balanced` — **the account of a pair of clients, from the labels so far**.

Main results:

* `Sanctum.HostListener.account_act`, `Sanctum.HostListener.account_idle` — what a step does to an account;
* `Sanctum.HostListener.balanced_step` — every step keeps the balance;
* `Sanctum.HostListener.notices_once_iff` — **when everybody is announced to everybody exactly once**;
* `Sanctum.HostListener.noticed_twice` — two joins that overlap.
-/

import Sanctum.JoinHistory
import Sanctum.RelayOrder

set_option relaxedAutoImplicit false
set_option autoImplicit false

namespace Sanctum

open HostListener

/-! ### Notices -/

/-- The frame tells of the fingerprint. -/
def ProtoCodec.announces (pb : ProtoCodec) (fp : Fingerprint) (frame : Frame) : Bool :=
  (pb.readPeerReady frame).any fun p => p.fingerprint = fp.hex

theorem ProtoCodec.announces_peerReadyFrame (pb : ProtoCodec) (fp : Fingerprint) (p : PeerReady) :
    pb.announces fp (pb.peerReadyFrame p) = decide (p.fingerprint = fp.hex) := by
  unfold announces
  rw [pb.readPeerReady_peerReadyFrame]
  rfl

/-- A frame of another type tells of nobody. -/
theorem ProtoCodec.announces_of_ne (pb : ProtoCodec) (fp : Fingerprint) {frame : Frame}
    (h : frame.messageType ≠ MessageType.peerReady) : pb.announces fp frame = false := by
  unfold announces readPeerReady
  rw [if_neg h]
  rfl

theorem Fingerprint.eq_of_hex {fp fp' : Fingerprint} (h : fp.hex = fp'.hex) : fp = fp' := by
  cases fp
  cases fp'
  simpa using h

/-- The frame of a written one. -/
def Sent.frame : Sent → Frame
  | .own frame => frame
  | .relayed r => r.frame

namespace Client

/-- **The notices of a fingerprint that the client has been sent.** -/
def notices (pb : ProtoCodec) (k : Client) (fp : Fingerprint) : ℕ :=
  k.sent.countP fun f => pb.announces fp f.frame

/-- The notices of a fingerprint that are still to be sent from the snapshot. -/
def toGreet (k : Client) (fp : Fingerprint) : ℕ :=
  match k.point with
  | .greet rest => if fp.hex ∈ rest then 1 else 0
  | _ => 0

theorem toGreet_of_phase {k : Client} (h : k.point.phase ≠ 5) (fp : Fingerprint) :
    k.toGreet fp = 0 := by
  unfold toGreet
  split
  · next hpoint =>
      rw [hpoint] at h
      exact absurd rfl h
  · rfl

end Client

namespace HostListener

/-- The notices of a fingerprint that the client has not yet taken from the broadcast. -/
def unread (s : HostListener) (k : Client) (fp : Fingerprint) : ℕ :=
  if 4 ≤ k.point.phase then (s.routeTx.drop k.routeRx).countP fun r => r.sender = fp else 0

/-- **The notices of a fingerprint that a client has been sent, or that are on their way to it.** -/
def account (pb : ProtoCodec) (s : HostListener) (k : Client) (fp : Fingerprint) : ℕ :=
  k.notices pb fp + k.toGreet fp + s.unread k fp

/-- The broadcast carries notices of their senders, and nobody is ahead of it. -/
structure Broadcast (pb : ProtoCodec) (s : HostListener) : Prop where
  position : ∀ c k, s.tasks c = .client k → 4 ≤ k.point.phase → k.routeRx ≤ s.routeTx.length
  frame : ∀ r ∈ s.routeTx, ∃ displayAlias, r.frame = pb.peerReadyFrame ⟨r.sender.hex, displayAlias⟩

/-- The step loses no notice: no write of one fails, and no receiver lags behind. -/
def LosesNone (label : Label) : Prop :=
  ∀ c, label ≠ .client c .lagged ∧ ∀ fp, label ≠ .client c (.greet fp false)

variable {crates : Crates} {s s' : HostListener} {label : Label}

/-! ### The broadcast -/

theorem routeTx_eq (h : Stepped crates s label s') (hne : ∀ c, label ≠ .client c .announce) :
    s'.routeTx = s.routeTx := by
  cases h with
  | announce c _ _ _ => exact absurd rfl (hne c)
  | _ => rfl

theorem routeTx_announce {c : ConnId} (h : Stepped crates s (.client c .announce) s') :
    ∃ k, s.tasks c = .client k ∧ k.point = .announce ∧
      s'.routeTx = s.routeTx ++ [k.joinMessage crates.pb] ∧
      s'.tasks c = .client { k with point := .select } := by
  cases h with
  | announce _ k htask hpoint => exact ⟨k, htask, hpoint, rfl, tasks_setClient_self _ _ _⟩

theorem routeTx_extends (h : Stepped crates s label s') : s.routeTx <+: s'.routeTx := by
  by_cases hann : ∃ c, label = .client c .announce
  · obtain ⟨c, rfl⟩ := hann
    obtain ⟨k, -, -, hroute, -⟩ := routeTx_announce h
    rw [hroute]
    exact List.prefix_append _ _
  · push Not at hann
    rw [routeTx_eq h hann]

/-- The position of a client: it takes the next entry, or goes to the end or close to it. -/
theorem routeRx_cases (h : Stepped crates s label s') {c : ConnId} {k k' : Client}
    (hc : s.tasks c = .client k) (hc' : s'.tasks c = .client k') :
    k'.routeRx = k.routeRx ∨ k'.routeRx ≤ s.routeTx.length := by
  cases h.stepsTo hc hc' with
  | subscribe _ => exact Or.inr le_rfl
  | lagged _ => exact Or.inr (Nat.sub_le _ _)
  | takeRouted routed _ hrouted | takeRoutedOwn routed _ _ hrouted _
  | takeRoutedError routed _ hrouted => exact Or.inr (List.getElem?_eq_some_iff.1 hrouted).1
  | _ => exact Or.inl rfl

theorem broadcast_start (pb : ProtoCodec) (room : Room) (hostNoisePubkey : Bytes) :
    (start room hostNoisePubkey).Broadcast pb where
  position := by simp [start]
  frame := by simp [start]

theorem broadcast_step (hfresh : s.Fresh) (hb : s.Broadcast crates.pb) (hj : s'.Joining)
    (h : Stepped crates s label s') : s'.Broadcast crates.pb where
  position := by
    intro c k' hc' hphase'
    refine le_trans ?_ (routeTx_extends h).length_le
    rcases h.client_origin hfresh hc' with ⟨k, hc, -⟩ | ⟨-, hregister, -⟩
    · by_cases hphase : 4 ≤ k.point.phase
      · rcases routeRx_cases h hc hc' with hsame | hle
        · exact hsame ▸ hb.position c k hc hphase
        · exact hle
      · rcases phase_before hj h hc hc' with hsame | ⟨hsucc, move, rfl, hadvance⟩
        · omega
        · obtain hthree : k.point.phase = 3 := by omega
          rw [hthree] at hadvance
          obtain ⟨rfl, -⟩ := hadvance.unique .subscribe (by omega)
          cases h with
          | subscribe _ _ _ _ => rw [Stepped.client_eq_self hc']
    · rw [hregister] at hphase'
      simp [Point.phase] at hphase'
  frame := by
    intro r hr
    by_cases hann : ∃ c, label = .client c .announce
    · obtain ⟨c, rfl⟩ := hann
      obtain ⟨k, -, -, hroute, -⟩ := routeTx_announce h
      rw [hroute, List.mem_append, List.mem_singleton] at hr
      rcases hr with hr | rfl
      · exact hb.frame r hr
      · exact ⟨k.displayAlias, rfl⟩
    · push Not at hann
      rw [routeTx_eq h hann] at hr
      exact hb.frame r hr

/-! ### What a step does to an account -/

theorem unread_congr {k k' : Client} (hroute : s'.routeTx = s.routeTx)
    (hposition : k'.routeRx = k.routeRx) (hphase : 4 ≤ k'.point.phase ↔ 4 ≤ k.point.phase)
    (fp : Fingerprint) : s'.unread k' fp = s.unread k fp := by
  unfold unread
  rw [hposition, hroute]
  simp only [hphase]

/-- An account depends on what has been sent, the snapshot, the position and the broadcast. -/
theorem account_congr {pb : ProtoCodec} {k k' : Client} {fp : Fingerprint}
    (hroute : s'.routeTx = s.routeTx) (hsent : k'.sent = k.sent)
    (hgreet : k'.toGreet fp = k.toGreet fp) (hposition : k'.routeRx = k.routeRx)
    (hphase : 4 ≤ k'.point.phase ↔ 4 ≤ k.point.phase) :
    account pb s' k' fp = account pb s k fp := by
  unfold account Client.notices
  rw [hsent, hgreet, unread_congr hroute hposition hphase]

theorem notices_append (pb : ProtoCodec) (k : Client) (fp : Fingerprint) (point : Point)
    (outRx : List Relayed) (routeRx : ℕ) (f : Sent) :
    ({ k with point := point, outRx := outRx, routeRx := routeRx, sent := k.sent ++ [f] } :
      Client).notices pb fp = k.notices pb fp + (pb.announces fp f.frame).toNat := by
  unfold Client.notices
  rw [List.countP_append]
  simp only [List.countP_singleton]
  cases pb.announces fp f.frame <;> rfl

/-- What somebody's broadcast does to the account of a client that does not act. -/
theorem unread_announce (k k₀ : Client) (fp : Fingerprint)
    (hroute : s'.routeTx = s.routeTx ++ [k₀.joinMessage crates.pb])
    (hposition : 4 ≤ k.point.phase → k.routeRx ≤ s.routeTx.length) :
    s'.unread k fp =
      s.unread k fp + if 4 ≤ k.point.phase ∧ k₀.fingerprint = fp then 1 else 0 := by
  unfold unread
  by_cases hphase : 4 ≤ k.point.phase
  · rw [if_pos hphase, if_pos hphase, hroute, List.drop_append_of_le_length (hposition hphase),
      List.countP_append, List.countP_singleton]
    by_cases hfp : k₀.fingerprint = fp
    · simp [hphase, Client.joinMessage, hfp]
    · simp [Client.joinMessage, hfp]
  · simp [hphase]

/-- A notice of the snapshot that is sent is one that waits no longer. -/
theorem waits_erase (pb : ProtoCodec) {rest : Finmap fun _ : String => String} {fp₀ displayAlias : String}
    (hentry : rest.lookup fp₀ = some displayAlias) (fp : Fingerprint) :
    (pb.announces fp (pb.peerReadyFrame ⟨fp₀, displayAlias⟩)).toNat +
      (if fp.hex ∈ rest.erase fp₀ then 1 else 0) = if fp.hex ∈ rest then 1 else 0 := by
  rw [ProtoCodec.announces_peerReadyFrame]
  by_cases hfp : fp₀ = fp.hex
  · have hmem : fp.hex ∈ rest := by
      rw [← hfp, ← Finmap.lookup_isSome, hentry]
      rfl
    simp [hfp, hmem]
  · simp [hfp, Finmap.mem_erase, Ne.symm hfp]

/-- A broadcast that is read is one that is unread no longer. -/
theorem countP_drop_succ {routes : List RoutedMessage} {n : ℕ} {routed : RoutedMessage}
    (hrouted : routes[n]? = some routed) (fp : Fingerprint) :
    (routes.drop (n + 1)).countP (fun r => r.sender = fp) + (if routed.sender = fp then 1 else 0) =
      (routes.drop n).countP fun r => r.sender = fp := by
  obtain ⟨hlt, hget⟩ := List.getElem?_eq_some_iff.1 hrouted
  rw [List.drop_eq_getElem_cons hlt, hget, List.countP_cons]
  simp only [decide_eq_true_eq]

/-- A frame that tells of nobody adds nothing to an account. -/
theorem account_sent {pb : ProtoCodec} {k k' : Client} {fp : Fingerprint} {f : Sent}
    (hnone : pb.announces fp f.frame = false) (hsent : k'.sent = k.sent ++ [f])
    (hgreet : k'.toGreet fp = k.toGreet fp) (hposition : k'.routeRx = k.routeRx)
    (hphase : 4 ≤ k'.point.phase ↔ 4 ≤ k.point.phase) :
    account pb s k' fp = account pb s k fp := by
  unfold account Client.notices
  rw [hsent, hgreet, unread_congr rfl hposition hphase, List.countP_append, List.countP_singleton, hnone]
  rfl

/-- What a client does that makes no broadcast: only the snapshot adds to its account. -/
theorem account_stepsTo (hb : s.Broadcast crates.pb) (hr : s.Relaying) {a : ConnId} {move : Move}
    {k k' : Client} (hc : s.tasks a = .client k)
    (hact : k.StepsTo crates s a (.client a move) k') (hann : move ≠ .announce)
    (hloses : LosesNone (.client a move)) (hphase' : k'.point.phase ≤ 7) {fp : Fingerprint}
    (hne : fp ≠ k.fingerprint) :
    account crates.pb s k' fp = account crates.pb s k fp ∧
        (move = .lockAliases → fp.hex ∉ s.aliases) ∨
      move = .lockAliases ∧ fp.hex ∈ s.aliases ∧
        account crates.pb s k' fp = account crates.pb s k fp + 1 := by
  cases hact with
  | idle _ hidle => exact absurd rfl (hidle _)
  | delivered _ _ _ _ _ hother _ _ _ _ => exact absurd rfl hother
  | announce _ => exact absurd rfl hann
  | lagged _ => exact absurd rfl (hloses a).1
  | lockAliases hpoint =>
      by_cases hmem : fp.hex ∈ s.aliases
      · refine Or.inr ⟨rfl, hmem, ?_⟩
        simp [account, Client.notices, Client.toGreet, unread, Point.phase, hpoint, hmem]
        omega
      · refine Or.inl ⟨?_, fun _ => hmem⟩
        simp [account, Client.notices, Client.toGreet, unread, Point.phase, hpoint, hmem]
  | greet rest fp₀ displayAlias hpoint hentry =>
      refine Or.inl ⟨?_, by simp⟩
      -- the notice moves from the snapshot to what has been sent
      have hmove := waits_erase crates.pb hentry fp
      unfold account
      rw [notices_append]
      simp only [Client.toGreet, Sent.frame, unread, hpoint, Point.phase]
      simp only [show 4 ≤ 5 by omega, if_true]
      omega
  | greetSkip rest fp₀ ok hpoint hskip =>
      refine Or.inl ⟨account_congr rfl rfl ?_ rfl (by simp [hpoint, Point.phase]), by simp⟩
      rcases hskip with rfl | rfl
      · have hhex : fp.hex ≠ k.fingerprint.hex := fun heq => hne (Fingerprint.eq_of_hex heq)
        simp [Client.toGreet, hpoint, Finmap.mem_erase, hhex]
      · exact absurd rfl ((hloses a).2 fp₀)
  | subscribe hpoint =>
      refine Or.inl ⟨?_, by simp⟩
      simp [account, Client.notices, Client.toGreet, unread, hpoint, Point.phase]
  | takeRouted routed hpoint hrouted =>
      refine Or.inl ⟨?_, by simp⟩
      -- the notice moves from the broadcast to what has been sent
      obtain ⟨displayAlias, hframe⟩ := hb.frame routed (List.mem_of_getElem? hrouted)
      have htold : (crates.pb.announces fp routed.frame).toNat = if routed.sender = fp then 1 else 0 := by
        rw [hframe, ProtoCodec.announces_peerReadyFrame]
        by_cases hfp : routed.sender = fp
        · simp [hfp]
        · have hhex : routed.sender.hex ≠ fp.hex := fun heq => hfp (Fingerprint.eq_of_hex heq)
          simp [hfp, hhex]
      have hmove := countP_drop_succ hrouted fp
      unfold account
      rw [notices_append]
      simp only [Client.toGreet, Sent.frame, unread, hpoint, Point.phase]
      simp only [show 4 ≤ 7 by omega, if_true]
      omega
  | takeRoutedOwn routed ok hpoint hrouted hsender =>
      refine Or.inl ⟨?_, by simp⟩
      have hskip := countP_drop_succ hrouted fp
      rw [if_neg (hsender ▸ Ne.symm hne), Nat.add_zero] at hskip
      simp [account, Client.notices, Client.toGreet, unread, hpoint, Point.phase, hskip]
  | takeOut r outRx hpoint hout =>
      refine Or.inl ⟨?_, by simp⟩
      have hmem : r ∈ k.relayed := by simp [Client.relayed, hout]
      obtain ⟨-, -, -, -, -, htype⟩ := hr.origin a k hc r hmem
      have hnone : crates.pb.announces fp r.frame = false :=
        crates.pb.announces_of_ne fp (by rw [htype]; decide)
      refine account_sent (f := .relayed r) hnone rfl ?_ rfl ?_
      · simp [Client.toGreet, hpoint]
      · simp [hpoint, Point.phase]
  | pong hpoint =>
      refine Or.inl ⟨?_, by simp⟩
      have hnone : crates.pb.announces fp pongFrame = false :=
        crates.pb.announces_of_ne fp (by decide)
      refine account_sent (f := .own pongFrame) hnone rfl ?_ rfl ?_
      · simp [Client.toGreet, hpoint]
      · simp [hpoint, Point.phase]
  | receive frame hpoint =>
      refine Or.inl ⟨account_congr rfl rfl ?_ rfl ?_, by simp⟩
      · rw [Client.toGreet_of_phase (by simp), Client.toGreet_of_phase (by simp [hpoint, Point.phase])]
      · rw [hpoint]
        exact iff_of_true (by simp) (by decide)
  | register hpoint | storeAlias hpoint | openChannel hpoint | unlockAliases hpoint
  | recipients _ hpoint | resolve _ _ _ _ hpoint _ _ | resolveNone _ _ _ hpoint _
  | routed _ hpoint | lookup _ _ _ _ hpoint _ | lookupNone _ _ _ hpoint _ | push _ _ _ hpoint _
  | pushOwn _ _ _ hpoint _ _ | pushClosed _ _ _ hpoint =>
      refine Or.inl ⟨account_congr rfl rfl ?_ rfl ?_, by simp⟩
      · simp [Client.toGreet, hpoint, Finmap.notMem_empty]
      · simp [hpoint, Point.phase]
  | _ => simp [Point.phase] at hphase'

/-- **The acting task**: only the snapshot adds to its account. -/
theorem account_act (hb : s.Broadcast crates.pb) (hr : s.Relaying) {a : ConnId} {move : Move}
    (h : Stepped crates s (.client a move) s') (hloses : LosesNone (.client a move))
    {k k' : Client} (hc : s.tasks a = .client k) (hc' : s'.tasks a = .client k')
    (hphase' : k'.point.phase ≤ 7) {fp : Fingerprint} (hne : fp ≠ k.fingerprint) :
    account crates.pb s' k' fp = account crates.pb s k fp ∧
        (move = .lockAliases → fp.hex ∉ s.aliases) ∨
      move = .lockAliases ∧ fp.hex ∈ s.aliases ∧
        account crates.pb s' k' fp = account crates.pb s k fp + 1 := by
  by_cases hann : move = .announce
  · subst hann
    obtain ⟨k₀, hk₀, hpoint, hroute, htask'⟩ := routeTx_announce h
    obtain rfl := Task.client.inj (hc.symm.trans hk₀)
    obtain rfl := Task.client.inj (hc'.symm.trans htask')
    refine Or.inl ⟨?_, by simp⟩
    have hphase : 4 ≤ k.point.phase := by simp [hpoint, Point.phase]
    have hunread := unread_announce { k with point := .select } k fp hroute fun _ =>
      hb.position a k hc hphase
    rw [if_neg fun hown => hne hown.2.symm, Nat.add_zero] at hunread
    unfold account
    rw [hunread]
    simp [Client.notices, Client.toGreet, unread, hpoint, Point.phase]
  · have hroute : s'.routeTx = s.routeTx := routeTx_eq h fun c hlabel =>
      hann (Label.client.inj hlabel).2
    rw [account_congr hroute rfl rfl rfl Iff.rfl]
    exact account_stepsTo hb hr hc (h.stepsTo hc hc') hann hloses hphase' hne

/-- A task that does not act: only the broadcast of somebody else adds to its account. -/
theorem account_idle (hb : s.Broadcast crates.pb) (h : Stepped crates s label s') {a : ConnId}
    (hidle : ∀ move, label ≠ .client a move) {k k' : Client} (hc : s.tasks a = .client k)
    (hc' : s'.tasks a = .client k') (fp : Fingerprint) :
    account crates.pb s' k' fp = account crates.pb s k fp ∧
        (∀ b kb, label = .client b .announce → s.tasks b = .client kb → kb.fingerprint = fp →
          k.point.phase < 4) ∨
      ∃ b kb, label = .client b .announce ∧ s.tasks b = .client kb ∧ kb.point = .announce ∧
        kb.fingerprint = fp ∧ 4 ≤ k.point.phase ∧
        account crates.pb s' k' fp = account crates.pb s k fp + 1 := by
  obtain ⟨out, rfl⟩ := h.idle_client hidle hc hc'
  by_cases hann : ∃ b, label = .client b .announce
  · obtain ⟨b, rfl⟩ := hann
    obtain ⟨kb, hkb, hpoint, hroute, -⟩ := routeTx_announce h
    have hunread := unread_announce { k with outRx := k.outRx ++ out } kb fp hroute
      fun hphase => hb.position a k hc hphase
    by_cases hboth : 4 ≤ k.point.phase ∧ kb.fingerprint = fp
    · rw [if_pos hboth] at hunread
      refine Or.inr ⟨b, kb, rfl, hkb, hpoint, hboth.2, hboth.1, ?_⟩
      unfold account
      rw [hunread]
      rfl
    · rw [if_neg hboth, Nat.add_zero] at hunread
      refine Or.inl ⟨?_, ?_⟩
      · unfold account
        rw [hunread]
        rfl
      · rintro b' kb' heq hkb' hfp
        obtain ⟨rfl, -⟩ := Label.client.inj heq
        obtain rfl := Task.client.inj (hkb.symm.trans hkb')
        by_contra hphase
        exact hboth ⟨Nat.le_of_not_lt hphase, hfp⟩
  · push Not at hann
    exact Or.inl ⟨account_congr (routeTx_eq h hann) rfl rfl rfl Iff.rfl,
      fun b _ heq => absurd heq (hann b)⟩

/-- A client that has only just been authenticated. -/
theorem account_new (pb : ProtoCodec) (s : HostListener) {k : Client} (hpoint : k.point = .register)
    (hsent : k.sent = []) (fp : Fingerprint) : account pb s k fp = 0 := by
  simp [account, Client.notices, Client.toGreet, unread, hpoint, hsent, Point.phase]

/-! ### The balance -/

/-- Whoever is told of has stored an alias. -/
def Known (pb : ProtoCodec) (s : HostListener) : Prop :=
  ∀ a ka fp, s.tasks a = .client ka → fp ≠ ka.fingerprint → account pb s ka fp ≠ 0 →
    fp.hex ∈ s.aliases

/-- The alias of `b` was stored before `a` took its snapshot. -/
def InSnapshot (labels : List Label) (a b : ConnId) : Prop :=
  Runs.Before labels (.client b .storeAlias) (.client a .lockAliases)

/-- The subscription of `a` came before the broadcast of `b`. -/
def InBroadcast (labels : List Label) (a b : ConnId) : Prop :=
  Runs.Before labels (.client a .subscribe) (.client b .announce)

open Classical in
/-- **The account of a pair**: `b` is announced to `a` once from the snapshot if it is in it, and once
from the broadcast if it is in that. -/
def Balanced (pb : ProtoCodec) (labels : List Label) (s : HostListener) : Prop :=
  ∀ a b ka kb, s.tasks a = .client ka → s.tasks b = .client kb → 1 ≤ kb.point.phase →
    kb.fingerprint ≠ ka.fingerprint →
    account pb s ka kb.fingerprint =
      (if InSnapshot labels a b then 1 else 0) + if InBroadcast labels a b then 1 else 0

/-- Once both have joined, the one is in the snapshot of the other or in its broadcast. -/
def Met (labels : List Label) (s : HostListener) : Prop :=
  ∀ a b ka kb, a ≠ b → s.tasks a = .client ka → s.tasks b = .client kb → 5 ≤ ka.point.phase →
    7 ≤ kb.point.phase → InSnapshot labels a b ∨ InBroadcast labels a b

theorem inSnapshot_append {labels : List Label} {a b : ConnId} :
    InSnapshot (labels ++ [label]) a b ↔
      InSnapshot labels a b ∨ .client b .storeAlias ∈ labels ∧ .client a .lockAliases = label :=
  Runs.before_append_singleton

theorem inBroadcast_append {labels : List Label} {a b : ConnId} :
    InBroadcast (labels ++ [label]) a b ↔
      InBroadcast labels a b ∨ .client a .subscribe ∈ labels ∧ .client b .announce = label :=
  Runs.before_append_singleton

theorem known_step (hfresh : s.Fresh) (hb : s.Broadcast crates.pb) (hr : s.Relaying)
    (hs : s.Stored) (hs' : s'.Stored) (hj : s'.Joining) (hloses : LosesNone label)
    (hk : s.Known crates.pb) (h : Stepped crates s label s') : s'.Known crates.pb := by
  intro a ka' fp ha' hne haccount
  have hkeep : fp.hex ∈ s.aliases → fp.hex ∈ s'.aliases := by
    intro hmem
    obtain ⟨c, k, hc, hphase, hhex⟩ := (hs fp.hex).1 hmem
    obtain ⟨k', hc', hlater⟩ := h.client_persists hfresh hc (by omega)
    exact (hs' fp.hex).2 ⟨c, k', hc', hphase.trans hlater.phase, by rw [hlater.fingerprint, hhex]⟩
  refine hkeep ?_
  rcases h.client_origin hfresh ha' with ⟨ka, ha, hlater⟩ | ⟨-, hregister, -, -, hsent⟩
  · rw [hlater.fingerprint] at hne
    by_cases hidle : ∀ move, label ≠ .client a move
    · rcases account_idle hb h hidle ha ha' fp with ⟨hsame, -⟩ | ⟨b, kb, -, hkb, hpoint, rfl, -⟩
      · exact hk a ka fp ha hne (hsame ▸ haccount)
      · exact (hs _).2 ⟨b, kb, hkb, by simp [hpoint, Point.phase], rfl⟩
    · push Not at hidle
      obtain ⟨move, rfl⟩ := hidle
      rcases account_act hb hr h hloses ha ha' (hj.phase a ka' ha') hne with
        ⟨hsame, -⟩ | ⟨-, hmem, -⟩
      · exact hk a ka fp ha hne (hsame ▸ haccount)
      · exact hmem
  · exact absurd (account_new crates.pb s' hregister hsent fp) haccount

/-- Only those who have stored an alias are told of. -/
theorem account_eq_zero {pb : ProtoCodec} (hk : s.Known pb) (hs : s.Stored) (hj : s.Joining)
    {a b : ConnId} {ka kb : Client} (ha : s.tasks a = .client ka) (hb : s.tasks b = .client kb)
    (hphase : 1 ≤ kb.point.phase) (hnot : kb.point.phase < 2)
    (hne : kb.fingerprint ≠ ka.fingerprint) : account pb s ka kb.fingerprint = 0 := by
  by_contra haccount
  obtain ⟨c, kc, hc, hstored, hhex⟩ := (hs _).1 (hk a ka _ ha hne haccount)
  obtain rfl := hj.distinct c b kc kb hc (by omega) hb hphase (Fingerprint.eq_of_hex hhex)
  obtain rfl := Task.client.inj (hc.symm.trans hb)
  omega

/-- A client whose alias is stored has stored it. -/
theorem phase_of_mem_aliases (hs : s.Stored) (hj : s.Joining) {b : ConnId} {kb : Client}
    (hb : s.tasks b = .client kb) (hphase : 1 ≤ kb.point.phase) :
    kb.fingerprint.hex ∈ s.aliases ↔ 2 ≤ kb.point.phase := by
  rw [hs]
  constructor
  · rintro ⟨c, kc, hc, hstored, hhex⟩
    obtain rfl := hj.distinct c b kc kb hc (by omega) hb hphase (Fingerprint.eq_of_hex hhex)
    obtain rfl := Task.client.inj (hc.symm.trans hb)
    exact hstored
  · exact fun hstored => ⟨b, kb, hb, hstored, rfl⟩

theorem met_step {labels : List Label} (hfresh : s.Fresh) (hm : Marks labels s) (hj : s'.Joining)
    (hmet : Met labels s) (h : Stepped crates s label s') : Met (labels ++ [label]) s' := by
  intro a b ka' kb' hab ha' hb' hphasea hphaseb
  rw [inSnapshot_append, inBroadcast_append]
  rcases h.client_origin hfresh ha' with ⟨ka, ha, -⟩ | ⟨-, hregister, -⟩
  swap
  · rw [hregister] at hphasea
    simp [Point.phase] at hphasea
  rcases h.client_origin hfresh hb' with ⟨kb, hb, -⟩ | ⟨-, hregister, -⟩
  swap
  · rw [hregister] at hphaseb
    simp [Point.phase] at hphaseb
  have hstored := hm.mem_iff (by omega) (by omega) .storeAlias hb
  have hsubscribed := hm.mem_iff (by omega) (by omega) .subscribe ha
  rcases phase_before hj h ha ha' with hsamea | ⟨hsucca, move, rfl, hadvance⟩
  · rcases phase_before hj h hb hb' with hsameb | ⟨hsuccb, move, rfl, hadvance⟩
    · exact (hmet a b ka kb hab ha hb (by omega) (by omega)).imp Or.inl Or.inl
    · -- `b` makes its broadcast, and `a` has subscribed
      obtain hsix : kb.point.phase = 6 := by
        have hle := hj.phase b kb' hb'
        omega
      rw [hsix] at hadvance
      obtain ⟨rfl, -⟩ := hadvance.unique .announce (by omega)
      exact Or.inr (Or.inr ⟨hsubscribed.2 (by omega), rfl⟩)
  · rcases phase_before hj h hb hb' with hsameb | ⟨-, move', heq, -⟩
    · by_cases hphase : 5 ≤ ka.point.phase
      · exact (hmet a b ka kb hab ha hb hphase (by omega)).imp Or.inl Or.inl
      · -- `a` takes its snapshot, and `b` has stored its alias
        obtain hfour : ka.point.phase = 4 := by omega
        rw [hfour] at hadvance
        obtain ⟨rfl, -⟩ := hadvance.unique .lockAliases (by omega)
        exact Or.inl (Or.inr ⟨hstored.2 (by omega), rfl⟩)
    · exact absurd (Label.client.inj heq).1 hab

/-- **Every step keeps the balance.** -/
theorem balanced_step {labels : List Label} (hfresh : s.Fresh) (hb : s.Broadcast crates.pb)
    (hr : s.Relaying) (hs : s.Stored) (hs' : s'.Stored) (hj : s.Joining) (hj' : s'.Joining)
    (hm : Marks labels s) (hm' : Marks (labels ++ [label]) s') (hk' : s'.Known crates.pb)
    (hloses : LosesNone label) (hbal : s.Balanced crates.pb labels)
    (h : Stepped crates s label s') : s'.Balanced crates.pb (labels ++ [label]) := by
  intro a b ka' kb' ha' hb' hphaseb hne
  -- the labels that have not been there yet
  have hnone : (5 ≤ ka'.point.phase → kb'.point.phase < 2) →
      (4 ≤ ka'.point.phase → kb'.point.phase < 7) →
      ¬ InSnapshot (labels ++ [label]) a b ∧ ¬ InBroadcast (labels ++ [label]) a b := by
    intro hsnapshot hbroadcast
    constructor
    · intro hin
      have hstored := (hm'.mem_iff (by omega) (by omega) .storeAlias hb').1 hin.mem_left
      have hlocked := (hm'.mem_iff (by omega) (by omega) .lockAliases ha').1 hin.mem_right
      omega
    · intro hin
      have hsubscribed := (hm'.mem_iff (by omega) (by omega) .subscribe ha').1 hin.mem_left
      have hannounced := (hm'.mem_iff (by omega) (by omega) .announce hb').1 hin.mem_right
      omega
  by_cases hstored' : kb'.point.phase < 2
  · obtain ⟨hsnapshot, hbroadcast⟩ := hnone (fun _ => hstored') fun _ => by omega
    rw [if_neg hsnapshot, if_neg hbroadcast,
      account_eq_zero hk' hs' hj' ha' hb' hphaseb hstored' hne]
  rcases h.client_origin hfresh hb' with ⟨kb, hbt, hlaterb⟩ | ⟨-, hregister, -⟩
  swap
  · rw [hregister] at hphaseb
    simp [Point.phase] at hphaseb
  rcases h.client_origin hfresh ha' with ⟨ka, hat, hlatera⟩ | ⟨-, hregister, -, -, hsent⟩
  swap
  · obtain ⟨hsnapshot, hbroadcast⟩ := hnone
      (fun hphase => by simp [hregister, Point.phase] at hphase)
      (fun hphase => by simp [hregister, Point.phase] at hphase)
    rw [if_neg hsnapshot, if_neg hbroadcast, account_new crates.pb s' hregister hsent]
  have hphaseb₀ : 1 ≤ kb.point.phase := by
    rcases phase_before hj' h hbt hb' with hsame | ⟨hsucc, -⟩ <;> omega
  rw [hlaterb.fingerprint, hlatera.fingerprint] at hne
  rw [hlaterb.fingerprint]
  have hold := hbal a b ka kb hat hbt hphaseb₀ hne
  have hab : a ≠ b := by
    rintro rfl
    obtain rfl := Task.client.inj (hat.symm.trans hbt)
    exact hne rfl
  have hstored := hm.mem_iff (by omega) (by omega) .storeAlias hbt
  have halias := phase_of_mem_aliases hs hj hbt hphaseb₀
  by_cases hidle : ∀ move, label ≠ .client a move
  · have hsnapshot : InSnapshot (labels ++ [label]) a b ↔ InSnapshot labels a b := by
      rw [inSnapshot_append]
      exact or_iff_left fun hnew => hidle _ hnew.2.symm
    rw [hsnapshot]
    rcases account_idle hb h hidle hat ha' kb.fingerprint with ⟨hsame, hnobody⟩ |
        ⟨b', kb₀, rfl, hb₀, hpoint, hfp, hphase, hmore⟩
    · have hbroadcast : InBroadcast (labels ++ [label]) a b ↔ InBroadcast labels a b := by
        rw [inBroadcast_append]
        refine or_iff_left ?_
        rintro ⟨hmem, rfl⟩
        have hphase := (hm.mem_iff (by omega) (by omega) .subscribe hat).1 hmem
        have hlt := hnobody b kb rfl hbt rfl
        omega
      rw [hbroadcast, hsame, hold]
    · obtain rfl := hj.distinct b' b kb₀ kb hb₀ (by simp [hpoint, Point.phase]) hbt hphaseb₀ hfp
      obtain rfl := Task.client.inj (hbt.symm.trans hb₀)
      have hnot : ¬ InBroadcast labels a b' := fun hin => by
        have hphase' := (hm.mem_iff (by omega) (by omega) .announce hbt).1 hin.mem_right
        simp [hpoint, Point.phase] at hphase'
      have hnew : InBroadcast (labels ++ [.client b' .announce]) a b' := inBroadcast_append.2
        (Or.inr ⟨(hm.mem_iff (by omega) (by omega) .subscribe hat).2 hphase, rfl⟩)
      rw [hmore, hold, if_neg hnot, if_pos hnew]
  · push Not at hidle
    obtain ⟨move, rfl⟩ := hidle
    have hbroadcast : InBroadcast (labels ++ [.client a move]) a b ↔ InBroadcast labels a b := by
      rw [inBroadcast_append]
      exact or_iff_left fun hnew => hab (Label.client.inj hnew.2).1.symm
    rw [hbroadcast]
    rcases account_act hb hr h hloses hat ha' (hj'.phase a ka' ha') hne with
      ⟨hsame, hnot⟩ | ⟨rfl, hmem, hmore⟩
    · have hsnapshot : InSnapshot (labels ++ [.client a move]) a b ↔ InSnapshot labels a b := by
        rw [inSnapshot_append]
        refine or_iff_left ?_
        rintro ⟨hmem, heq⟩
        exact hnot (Label.client.inj heq).2.symm (halias.2 (hstored.1 hmem))
      rw [hsnapshot, hsame, hold]
    · have hnot : ¬ InSnapshot labels a b := fun hin => by
        have hphase' := (hm.mem_iff (by omega) (by omega) .lockAliases hat).1 hin.mem_right
        obtain ⟨⟨k, hk, hphase⟩, -⟩ := h.phase_of_advances .lockAliases (by omega) (by omega)
        obtain rfl := Task.client.inj (hat.symm.trans hk)
        omega
      have hnew : InSnapshot (labels ++ [.client a .lockAliases]) a b :=
        inSnapshot_append.2 (Or.inr ⟨hstored.2 (halias.1 hmem), rfl⟩)
      rw [hmore, hold, if_neg hnot, if_pos hnew]
      omega

/-! ### Runs -/

/-- The invariants of the notices. -/
structure Presence (pb : ProtoCodec) (labels : List Label) (s : HostListener) : Prop where
  sound : s.Sound
  broadcast : s.Broadcast pb
  marks : Marks labels s
  stored : s.Stored
  known : s.Known pb
  balanced : s.Balanced pb labels
  met : Met labels s

theorem presence_start (pb : ProtoCodec) (room : Room) (hostNoisePubkey : Bytes) :
    Presence pb [] (start room hostNoisePubkey) where
  sound := sound_start room hostNoisePubkey
  broadcast := broadcast_start pb room hostNoisePubkey
  marks := marks_start room hostNoisePubkey
  stored := stored_start room hostNoisePubkey
  known := by
    intro a ka fp ha
    simp [start] at ha
  balanced := by
    intro a b ka kb ha
    simp [start] at ha
  met := by
    intro a b ka kb _ ha
    simp [start] at ha

theorem Presence.step {labels : List Label} (hp : Presence crates.pb labels s) (hj : s.Joining)
    (hj' : s'.Joining) (hloses : LosesNone label) (h : Stepped crates s label s') :
    Presence crates.pb (labels ++ [label]) s' := by
  have hfresh := hp.sound.fresh
  have hr := hp.sound.toRelaying
  have hmarks := marks_step hfresh hp.marks hj' h
  have hstored := stored_step hfresh hp.stored hj' h
  have hknown := known_step hfresh hp.broadcast hr hp.stored hstored hj' hloses hp.known h
  exact
    { sound := sound_step hp.sound h
      broadcast := broadcast_step hfresh hp.broadcast hj' h
      marks := hmarks
      stored := hstored
      known := hknown
      balanced := balanced_step hfresh hp.broadcast hr hp.stored hstored hj hj' hp.marks hmarks
        hknown hloses hp.balanced h
      met := met_step hfresh hp.marks hj' hp.met h }

/-- The invariants hold when everybody has joined. -/
theorem presence_of_run {room : Room} {hostNoisePubkey : Bytes} {labels : List Label}
    (hrun : Runs.run (step crates) (start room hostNoisePubkey) labels = some s)
    (hjoined : s.Joined) (hloses : ∀ label ∈ labels, LosesNone label) :
    Presence crates.pb labels s := by
  refine Runs.history_induction ?_ (presence_start crates.pb room hostNoisePubkey) hrun
  intro pre t label t' post hlabels hstep hpost hp
  have h := stepped_of_step hstep
  have hj := joining_of_joined hp.sound.fresh (Runs.run_cons_eq_some.2 ⟨t', hstep, hpost⟩) hjoined
  have hj' := joining_of_joined (fresh_step hp.sound.fresh h) hpost hjoined
  exact hp.step hj hj' (hloses label (by rw [hlabels]; simp)) h

/-- What a client has been sent when everything has been taken. -/
theorem notices_of_drained {pb : ProtoCodec} {k : Client} (hphase : k.point.phase = 7)
    (hdrained : k.routeRx = s.routeTx.length) (fp : Fingerprint) :
    k.notices pb fp = account pb s k fp := by
  unfold account unread
  rw [Client.toGreet_of_phase (by omega), hdrained]
  simp

/-- **When everybody is announced to everybody exactly once**: everybody has joined, with distinct
fingerprints, nothing has been lost, and the broadcast has been taken; then each client has been sent
exactly one notice for every other client exactly if no client had stored its alias before another took
its snapshot and made its broadcast after the other had subscribed. -/
theorem notices_once_iff {room : Room} {hostNoisePubkey : Bytes} {labels : List Label}
    (hrun : Runs.run (step crates) (start room hostNoisePubkey) labels = some s)
    (hjoined : s.Joined) (hloses : ∀ label ∈ labels, LosesNone label)
    (hdrained : ∀ c k, s.tasks c = .client k → k.routeRx = s.routeTx.length) :
    (∀ a b ka kb, a ≠ b → s.tasks a = .client ka → s.tasks b = .client kb →
        ka.notices crates.pb kb.fingerprint = 1) ↔
      ∀ a b, a ≠ b → ¬ (InSnapshot labels a b ∧ InBroadcast labels a b) := by
  have hp := presence_of_run hrun hjoined hloses
  have hnotices : ∀ a b ka kb, a ≠ b → s.tasks a = .client ka → s.tasks b = .client kb →
      (ka.notices crates.pb kb.fingerprint = 1 ↔
        ¬ (InSnapshot labels a b ∧ InBroadcast labels a b)) := by
    intro a b ka kb hab ha hb
    have hphasea := hjoined.phase a ka ha
    have hphaseb := hjoined.phase b kb hb
    have hne : kb.fingerprint ≠ ka.fingerprint := fun heq =>
      hab (hjoined.distinct a b ka kb ha hb heq.symm)
    have hmet := hp.met a b ka kb hab ha hb (by omega) (by omega)
    rw [notices_of_drained hphasea (hdrained a ka ha), hp.balanced a b ka kb ha hb (by omega) hne]
    by_cases hsnapshot : InSnapshot labels a b
    · by_cases hbroadcast : InBroadcast labels a b
      · simp [hsnapshot, hbroadcast]
      · simp [hsnapshot, hbroadcast]
    · have hbroadcast := hmet.resolve_left hsnapshot
      simp [hsnapshot, hbroadcast]
  constructor
  · rintro hall a b hab ⟨hsnapshot, hbroadcast⟩
    obtain ⟨ka, ha, -⟩ := (hp.marks a 4 _ (by omega) (by omega) .lockAliases).1 hsnapshot.mem_right
    obtain ⟨kb, hb, -⟩ := (hp.marks b 1 _ (by omega) (by omega) .storeAlias).1 hsnapshot.mem_left
    exact (hnotices a b ka kb hab ha hb).1 (hall a b ka kb hab ha hb) ⟨hsnapshot, hbroadcast⟩
  · intro hnot a b ka kb hab ha hb
    exact (hnotices a b ka kb hab ha hb).2 (hnot a b hab)

/-! ### Two joins -/

/-- The host has accepted two connections, whose clients are in their message loops, with distinct
fingerprints, and have taken the broadcast. -/
def pairJoined (s : HostListener) : Bool :=
  s.connCounter = 3 &&
    (match s.tasks 0, s.tasks 1, s.tasks 2 with
      | .absent, .client k, .client kd =>
        k.point.phase = 7 && kd.point.phase = 7 && k.fingerprint ≠ kd.fingerprint &&
          k.routeRx = s.routeTx.length && kd.routeRx = s.routeTx.length
      | _, _, _ => false)

theorem joined_of_pairJoined (hfresh : s.Fresh) (h : s.pairJoined = true) :
    ∃ k kd, s.tasks 1 = .client k ∧ s.tasks 2 = .client kd ∧ s.Joined ∧
      (∀ c k, s.tasks c = .client k → k.routeRx = s.routeTx.length) ∧
      ∀ c k, s.tasks c = .client k → c = 1 ∨ c = 2 := by
  unfold pairJoined at h
  rw [Bool.and_eq_true, decide_eq_true_eq] at h
  obtain ⟨hcounter, hpair⟩ := h
  split at hpair
  · next k kd h0 h1 h2 =>
      simp only [Bool.and_eq_true, decide_eq_true_eq] at hpair
      obtain ⟨⟨⟨⟨hphase, hphased⟩, hne⟩, hroute⟩, hrouted⟩ := hpair
      have hsmall : ∀ c : ℕ, c < 3 → c = 0 ∨ c = 1 ∨ c = 2 := by omega
      have hcases : ∀ c k, s.tasks c = .client k → c = 1 ∨ c = 2 := by
        intro c k' hc
        by_cases hlt : c < 3
        · rcases hsmall c hlt with rfl | hother
          · rw [h0] at hc
            simp at hc
          · exact hother
        · rw [hfresh c (hcounter ▸ Nat.le_of_not_lt hlt)] at hc
          simp at hc
      refine ⟨k, kd, h1, h2, ⟨?_, ?_⟩, ?_, hcases⟩
      · intro c k' hc
        rcases hcases c k' hc with rfl | rfl
        · rwa [← Task.client.inj (h1.symm.trans hc)]
        · rwa [← Task.client.inj (h2.symm.trans hc)]
      · intro c d k' kd' hc hd hfp
        rcases hcases c k' hc with rfl | rfl
        · rcases hcases d kd' hd with rfl | rfl
          · rfl
          · rw [← Task.client.inj (h1.symm.trans hc), ← Task.client.inj (h2.symm.trans hd)] at hfp
            exact absurd hfp hne
        · rcases hcases d kd' hd with rfl | rfl
          · rw [← Task.client.inj (h2.symm.trans hc), ← Task.client.inj (h1.symm.trans hd)] at hfp
            exact absurd hfp.symm hne
          · rfl
      · intro c k' hc
        rcases hcases c k' hc with rfl | rfl
        · rwa [← Task.client.inj (h1.symm.trans hc)]
        · rwa [← Task.client.inj (h2.symm.trans hc)]
  · simp at hpair

/-- The owner joins and then the member, and they take the broadcast. -/
def testJoins : List Label :=
  testBoth ++ [.client 1 (.takeRouted true), .client 1 (.takeRouted true),
    .client 2 (.takeRouted true)]

/-- One after the other: each is told of the other once, so no two of the moves cross. -/
theorem noticed_once : ∃ s,
    Runs.run (step testCrates) testStart testJoins = some s ∧ s.Joined ∧
      ∀ a b, a ≠ b → ¬ (InSnapshot testJoins a b ∧ InBroadcast testJoins a b) := by
  have heval : ((Runs.run (step testCrates) testStart testJoins).bind fun s =>
      (s.clientPair 1 2).map fun (k, kd) => (s.pairJoined,
        k.notices testCrates.pb kd.fingerprint, kd.notices testCrates.pb k.fingerprint)) =
      some (true, 1, 1) := by
    decide +kernel
  obtain ⟨s, hrun, hread⟩ := Option.bind_eq_some_iff.1 heval
  obtain ⟨⟨k, kd⟩, hpair, hread⟩ := Option.map_eq_some_iff.1 hread
  simp only [Prod.mk.injEq] at hread
  obtain ⟨hjoined, honce, honced⟩ := hread
  obtain ⟨-, -, -, -, hall, hdrained, hcases⟩ :=
    joined_of_pairJoined (sound_of_run hrun).fresh hjoined
  obtain ⟨hk, hkd⟩ := clientPair_eq_some.1 hpair
  refine ⟨s, hrun, hall, (notices_once_iff hrun hall ?_ hdrained).1 ?_⟩
  · simp [testJoins, testBoth, testArrive, testGreet, LosesNone]
  · intro a b ka kb hab ha hb
    rcases hcases a ka ha with rfl | rfl
    · rcases hcases b kb hb with rfl | rfl
      · exact absurd rfl hab
      · rwa [← Task.client.inj (hk.symm.trans ha), ← Task.client.inj (hkd.symm.trans hb)]
    · rcases hcases b kb hb with rfl | rfl
      · rwa [← Task.client.inj (hkd.symm.trans ha), ← Task.client.inj (hk.symm.trans hb)]
      · exact absurd rfl hab

/-- Two joins that overlap: both subscribe and store their aliases before either takes its snapshot. -/
def testCrossing : List Label :=
  testArrive 1 "AA" ++ testArrive 2 "BB" ++ testGreet 1 ["AA", "BB"] ++ testGreet 2 ["AA", "BB"] ++
    [.client 1 (.takeRouted true), .client 1 (.takeRouted true), .client 2 (.takeRouted true),
      .client 2 (.takeRouted true)]

/-- Each is told of the other twice, from the snapshot and from the broadcast. -/
theorem noticed_twice : ∃ s k kd,
    Runs.run (step testCrates) testStart testCrossing = some s ∧ s.Joined ∧
      (∀ label ∈ testCrossing, LosesNone label) ∧
      (∀ c k, s.tasks c = .client k → k.routeRx = s.routeTx.length) ∧
      s.tasks 1 = .client k ∧ s.tasks 2 = .client kd ∧
      k.notices testCrates.pb kd.fingerprint = 2 ∧ kd.notices testCrates.pb k.fingerprint = 2 := by
  have heval : ((Runs.run (step testCrates) testStart testCrossing).bind fun s =>
      (s.clientPair 1 2).map fun (k, kd) => (s.pairJoined,
        k.notices testCrates.pb kd.fingerprint, kd.notices testCrates.pb k.fingerprint)) =
      some (true, 2, 2) := by
    decide +kernel
  obtain ⟨s, hrun, hread⟩ := Option.bind_eq_some_iff.1 heval
  obtain ⟨⟨k, kd⟩, hpair, hread⟩ := Option.map_eq_some_iff.1 hread
  simp only [Prod.mk.injEq] at hread
  obtain ⟨hjoined, htwice, htwiced⟩ := hread
  obtain ⟨-, -, -, -, hall, hdrained, -⟩ :=
    joined_of_pairJoined (sound_of_run hrun).fresh hjoined
  obtain ⟨hk, hkd⟩ := clientPair_eq_some.1 hpair
  refine ⟨s, k, kd, hrun, hall, ?_, hdrained, hk, hkd, htwice, htwiced⟩
  simp [testCrossing, testArrive, testGreet, LosesNone]

end HostListener

end Sanctum
