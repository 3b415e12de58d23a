/-
What a step makes of a task.

A client either acts or is left alone, but for a frame that another task puts into its channel.  Here
the cases of a step are sorted once by what they make of one client; what is proved later about a
client looks at these cases, and at those among them in which something happens to it.

Main definitions:

* `Sanctum.Client.StepsTo` — **what a step makes of a client**;
* `Sanctum.Stepped.Advances` — how far a move takes a task.

Main results:

* `Sanctum.Stepped.client_persists`, `Sanctum.Stepped.client_origin` — clients stay, and come from an
  authentication;
* `Sanctum.Stepped.stepsTo` — every step makes of a client what it says;
* `Sanctum.Stepped.idle_client`, `Sanctum.Stepped.phase_cases` — a task that does not act, and how far
  one gets that does.
-/

import Sanctum.ListenerSteps

set_option relaxedAutoImplicit false
set_option autoImplicit false

namespace Sanctum

open HostListener

/-- **What a step makes of a client** that stays one: it acts, or it is left alone, but for a frame
that another task puts into its channel. -/
inductive Client.StepsTo (crates : Crates) (s : HostListener) (d : ConnId) (k : Client) :
    Label → Client → Prop
  | idle (label : Label) (hidle : ∀ move, label ≠ .client d move) : StepsTo crates s d k label k
  | delivered (c : ConnId) (kc : Client) (frame : Frame) (rest : Finset Fingerprint) (tx : Sender)
      (hne : c ≠ d) (htask : s.tasks c = .client kc) (hpoint : kc.point = .push frame rest tx)
      (howner : tx.owner = d) (hroom : k.outRx.length < outCapacity) :
      StepsTo crates s d k (.client c .push)
        { k with outRx := k.outRx ++ [⟨frame, c, kc.received.length - 1⟩] }
  | register (hpoint : k.point = .register) :
      StepsTo crates s d k (.client d .register) { k with point := .storeAlias }
  | storeAlias (hpoint : k.point = .storeAlias) :
      StepsTo crates s d k (.client d .storeAlias) { k with point := .openChannel }
  | openChannel (hpoint : k.point = .openChannel) :
      StepsTo crates s d k (.client d .openChannel) { k with point := .subscribe }
  | subscribe (hpoint : k.point = .subscribe) :
      StepsTo crates s d k (.client d .subscribe)
        { k with point := .lockAliases, routeRx := s.routeTx.length }
  | lockAliases (hpoint : k.point = .lockAliases) :
      StepsTo crates s d k (.client d .lockAliases) { k with point := .greet s.aliases }
  | greet (rest : HashMap String String) (fp displayAlias : String)
      (hpoint : k.point = .greet rest) (hentry : rest.lookup fp = some displayAlias) :
      StepsTo crates s d k (.client d (.greet fp true))
        { k with
          point := .greet (rest.erase fp)
          sent := k.sent ++ [.own (crates.pb.peerReadyFrame ⟨fp, displayAlias⟩)] }
  | greetSkip (rest : HashMap String String) (fp : String) (ok : Bool)
      (hpoint : k.point = .greet rest) (hskip : fp = k.fingerprint.hex ∨ ok = false) :
      StepsTo crates s d k (.client d (.greet fp ok)) { k with point := .greet (rest.erase fp) }
  | unlockAliases (hpoint : k.point = .greet ∅) :
      StepsTo crates s d k (.client d .unlockAliases) { k with point := .announce }
  | announce (hpoint : k.point = .announce) :
      StepsTo crates s d k (.client d .announce) { k with point := .select }
  | cancelled (hpoint : k.point = .select) :
      StepsTo crates s d k (.client d .cancelled) { k with point := .removeClient }
  | receive (frame : Frame) (hpoint : k.point = .select) :
      StepsTo crates s d k (.client d (.receive frame))
        { k with point := .afterReceive frame, received := k.received ++ [frame] }
  | receiveError (hpoint : k.point = .select) :
      StepsTo crates s d k (.client d .receiveError) { k with point := .removeClient }
  | takeOut (r : Relayed) (outRx : List Relayed) (hpoint : k.point = .select)
      (hout : k.outRx = r :: outRx) :
      StepsTo crates s d k (.client d (.takeOut true))
        { k with outRx := outRx, sent := k.sent ++ [.relayed r] }
  | takeOutError (r : Relayed) (outRx : List Relayed) (hpoint : k.point = .select)
      (hout : k.outRx = r :: outRx) :
      StepsTo crates s d k (.client d (.takeOut false))
        { k with outRx := outRx, point := .removeClient }
  | takeRouted (routed : RoutedMessage) (hpoint : k.point = .select)
      (hrouted : s.routeTx[k.routeRx]? = some routed) :
      StepsTo crates s d k (.client d (.takeRouted true))
        { k with routeRx := k.routeRx + 1, sent := k.sent ++ [.own routed.frame] }
  | takeRoutedOwn (routed : RoutedMessage) (ok : Bool) (hpoint : k.point = .select)
      (hrouted : s.routeTx[k.routeRx]? = some routed) (heq : routed.sender = k.fingerprint) :
      StepsTo crates s d k (.client d (.takeRouted ok)) { k with routeRx := k.routeRx + 1 }
  | takeRoutedError (routed : RoutedMessage) (hpoint : k.point = .select)
      (hrouted : s.routeTx[k.routeRx]? = some routed) :
      StepsTo crates s d k (.client d (.takeRouted false))
        { k with routeRx := k.routeRx + 1, point := .removeClient }
  | lagged (hpoint : k.point = .select) :
      StepsTo crates s d k (.client d .lagged)
        { k with routeRx := s.routeTx.length - routeCapacity }
  | recipients (frame : Frame) (hpoint : k.point = .recipients frame) :
      StepsTo crates s d k (.client d .recipients)
        { k with point := .route frame (s.hostService.routeRecipients k.fingerprint) }
  | resolve (frame : Frame) (rest : Finset Fingerprint) (fp : Fingerprint) (cid : ConnId)
      (hpoint : k.point = .route frame rest) (hfp : fp ∈ rest)
      (hconn : s.hostService.connectionIdFor fp = some cid) :
      StepsTo crates s d k (.client d (.resolve fp))
        { k with point := .lookup frame (rest.erase fp) cid }
  | resolveNone (frame : Frame) (rest : Finset Fingerprint) (fp : Fingerprint)
      (hpoint : k.point = .route frame rest) (hconn : s.hostService.connectionIdFor fp = none) :
      StepsTo crates s d k (.client d (.resolve fp)) { k with point := .route frame (rest.erase fp) }
  | routed (frame : Frame) (hpoint : k.point = .route frame ∅) :
      StepsTo crates s d k (.client d .routed) { k with point := .select }
  | lookup (frame : Frame) (rest : Finset Fingerprint) (cid : ConnId) (tx : Sender)
      (hpoint : k.point = .lookup frame rest cid) (htx : s.clients.lookup cid = some tx) :
      StepsTo crates s d k (.client d .lookup) { k with point := .push frame rest tx }
  | lookupNone (frame : Frame) (rest : Finset Fingerprint) (cid : ConnId)
      (hpoint : k.point = .lookup frame rest cid) (htx : s.clients.lookup cid = none) :
      StepsTo crates s d k (.client d .lookup) { k with point := .route frame rest }
  | push (frame : Frame) (rest : Finset Fingerprint) (tx : Sender)
      (hpoint : k.point = .push frame rest tx) (hne : tx.owner ≠ d) :
      StepsTo crates s d k (.client d .push) { k with point := .route frame rest }
  /-- The channel of the task itself. -/
  | pushOwn (frame : Frame) (rest : Finset Fingerprint) (tx : Sender)
      (hpoint : k.point = .push frame rest tx) (howner : tx.owner = d)
      (hroom : k.outRx.length < outCapacity) :
      StepsTo crates s d k (.client d .push)
        { k with
          point := .route frame rest
          outRx := k.outRx ++ [⟨frame, d, k.received.length - 1⟩] }
  | pushClosed (frame : Frame) (rest : Finset Fingerprint) (tx : Sender)
      (hpoint : k.point = .push frame rest tx) :
      StepsTo crates s d k (.client d .push) { k with point := .route frame rest }
  | pong (hpoint : k.point = .pong) :
      StepsTo crates s d k (.client d (.pong true))
        { k with point := .select, sent := k.sent ++ [.own pongFrame] }
  | pongError (hpoint : k.point = .pong) :
      StepsTo crates s d k (.client d (.pong false)) { k with point := .ended }
  | removeClient (hpoint : k.point = .removeClient) :
      StepsTo crates s d k (.client d .removeClient) { k with point := .removeSender }
  | removeSender (hpoint : k.point = .removeSender) :
      StepsTo crates s d k (.client d .removeSender) { k with point := .removeAlias }
  | removeAlias (hpoint : k.point = .removeAlias) :
      StepsTo crates s d k (.client d .removeAlias) { k with point := .ended }

namespace Stepped

variable {crates : Crates} {s s' : HostListener} {label : Label}

/-! ### The tasks -/

/-- A registered client stays. -/
theorem client_persists (h : Stepped crates s label s') (hfresh : s.Fresh) {d : ConnId}
    {k : Client} (htask : s.tasks d = .client k) (hphase : 1 ≤ k.point.phase) :
    ∃ k', s'.tasks d = .client k' ∧ k.Later k' := by
  have hevolves := h.evolves hfresh d
  rw [htask] at hevolves
  generalize s'.tasks d = task at hevolves
  cases hevolves with
  | same => exact ⟨k, rfl, .refl k⟩
  | later _ k' hlater => exact ⟨k', rfl, hlater⟩
  | registerError _ hpoint =>
      rw [hpoint] at hphase
      simp [Point.phase] at hphase

/-- A client was one before, or has just been authenticated. -/
theorem client_origin (h : Stepped crates s label s') (hfresh : s.Fresh) {d : ConnId}
    {k' : Client} (htask : s'.tasks d = .client k') :
    (∃ k, s.tasks d = .client k ∧ k.Later k') ∨
      (∀ k, s.tasks d ≠ .client k) ∧ k'.point = .register ∧ k'.outRx = [] ∧ k'.received = [] ∧
        k'.sent = [] := by
  have hevolves := h.evolves hfresh d
  rw [htask] at hevolves
  generalize s.tasks d = task at hevolves
  cases hevolves with
  | same => exact Or.inl ⟨k', rfl, .refl k'⟩
  | later k _ hlater => exact Or.inl ⟨k, rfl, hlater⟩
  | authenticated stage _ hpoint hout hreceived hsent =>
      exact Or.inr ⟨fun k => by simp, hpoint, hout, hreceived, hsent⟩

/-- A task that is not a client before or after the step is not the one looked at. -/
theorem client_unchanged {c d : ConnId} {task : Task} {kd kd' : Client}
    (hne : (∀ k, s.tasks c ≠ .client k) ∨ ∀ k, task ≠ .client k) (hd : s.tasks d = .client kd)
    (hd' : Function.update s.tasks c task d = .client kd') : kd' = kd := by
  rw [Function.update_apply] at hd'
  split at hd'
  · next hdc =>
      rcases hne with hne | hne
      · exact absurd (hdc ▸ hd) (hne kd)
      · exact absurd hd' (hne kd')
  · exact Task.client.inj (hd'.symm.trans hd)

theorem client_eq_of_ne {c d : ConnId} {task : Task} {kd kd' : Client} (hdc : d ≠ c)
    (hd : s.tasks d = .client kd) (hd' : Function.update s.tasks c task d = .client kd') :
    kd' = kd := by
  rw [Function.update_of_ne hdc] at hd'
  exact Task.client.inj (hd'.symm.trans hd)

theorem client_eq_self {c : ConnId} {k k' : Client}
    (h : Function.update s.tasks c (.client k) c = .client k') : k' = k := by
  rw [Function.update_self] at h
  exact (Task.client.inj h).symm

/-- A step that changes the task of one client. -/
theorem stepsTo_update {c d : ConnId} {k k' kd kd' : Client} {move : Move}
    (hk : s.tasks c = .client k) (hact : k.StepsTo crates s c (.client c move) k')
    (hd : s.tasks d = .client kd)
    (hd' : Function.update s.tasks c (.client k') d = .client kd') :
    kd.StepsTo crates s d (.client c move) kd' := by
  by_cases hdc : d = c
  · subst hdc
    obtain rfl := Task.client.inj (hd.symm.trans hk)
    rw [client_eq_self hd']
    exact hact
  · rw [client_eq_of_ne hdc hd hd']
    exact .idle _ fun move' hlabel => hdc (Label.client.inj hlabel).1.symm

/-- **Every step makes of a client what it says.** -/
theorem stepsTo (h : Stepped crates s label s') {d : ConnId} {kd kd' : Client}
    (hd : s.tasks d = .client kd) (hd' : s'.tasks d = .client kd') :
    kd.StepsTo crates s d label kd' := by
  cases h with
  | accept | authenticate _ _ _ _ _ _ | addIfAbsent _ _ _ _ _ _ _ _ _ | authError _ _ _ _ _ =>
      rw [client_unchanged (Or.inr fun k => by simp) hd hd']
      exact .idle _ (by simp)
  | authenticated c _ stage _ _ htask =>
      rw [client_unchanged (Or.inl fun k => by simp [htask]) hd hd']
      exact .idle _ (by simp)
  | cancel | addMember _ _ _ _ | addMemberError _ | revokeMember _ _ _ _ | revokeMemberError _ =>
      rw [Task.client.inj (hd'.symm.trans hd)]
      exact .idle _ (by simp)
  | registerError c k htask _ =>
      rw [client_unchanged (Or.inr fun k => by simp) hd hd']
      refine .idle _ fun move hlabel => ?_
      obtain ⟨rfl, -⟩ := Label.client.inj hlabel
      rw [tasks_setTask, if_pos rfl] at hd'
      simp at hd'
  | push c k frame rest tx ko htask hpoint howner _ hroom =>
      rw [tasks_enqueue] at hd'
      by_cases hdo : d = tx.owner
      · subst hdo
        obtain rfl := Task.client.inj (hd.symm.trans howner)
        rw [if_pos rfl, tasks_setClient] at hd'
        by_cases hdc : tx.owner = c
        · rw [if_pos hdc] at hd'
          obtain rfl := Task.client.inj hd'
          obtain rfl := Task.client.inj (htask.symm.trans (hdc ▸ hd))
          subst hdc
          exact .pushOwn frame rest tx hpoint rfl hroom
        · rw [if_neg hdc] at hd'
          obtain rfl : { kd with outRx := kd.outRx ++ [⟨frame, c, k.received.length - 1⟩] } = kd' :=
            Task.client.inj (by rw [← hd', hd]; rfl)
          exact .delivered c k frame rest tx (Ne.symm hdc) htask hpoint rfl hroom
      · rw [if_neg hdo] at hd'
        by_cases hdc : d = c
        · subst hdc
          exact stepsTo_update htask (.push frame rest tx hpoint (Ne.symm hdo)) hd hd'
        · rw [client_eq_of_ne hdc hd hd']
          exact .idle _ fun move hlabel => hdc (Label.client.inj hlabel).1.symm
  | register c k _ hk hpoint _ _ => exact stepsTo_update hk (.register hpoint) hd hd'
  | storeAlias c k hk hpoint _ => exact stepsTo_update hk (.storeAlias hpoint) hd hd'
  | openChannel c k hk hpoint _ => exact stepsTo_update hk (.openChannel hpoint) hd hd'
  | subscribe c k hk hpoint => exact stepsTo_update hk (.subscribe hpoint) hd hd'
  | lockAliases c k hk hpoint _ => exact stepsTo_update hk (.lockAliases hpoint) hd hd'
  | greet c k rest fp displayAlias hk hpoint hentry _ =>
      exact stepsTo_update hk (.greet rest fp displayAlias hpoint hentry) hd hd'
  | greetSkip c k rest fp _ ok hk hpoint _ hskip =>
      exact stepsTo_update hk (.greetSkip rest fp ok hpoint hskip) hd hd'
  | unlockAliases c k hk hpoint => exact stepsTo_update hk (.unlockAliases hpoint) hd hd'
  | announce c k hk hpoint => exact stepsTo_update hk (.announce hpoint) hd hd'
  | cancelled c k hk hpoint _ => exact stepsTo_update hk (.cancelled hpoint) hd hd'
  | receive c k frame hk hpoint => exact stepsTo_update hk (.receive frame hpoint) hd hd'
  | receiveError c k hk hpoint => exact stepsTo_update hk (.receiveError hpoint) hd hd'
  | takeOut c k r outRx hk hpoint hout =>
      exact stepsTo_update hk (.takeOut r outRx hpoint hout) hd hd'
  | takeOutError c k r outRx hk hpoint hout =>
      exact stepsTo_update hk (.takeOutError r outRx hpoint hout) hd hd'
  | takeRouted c k routed hk hpoint hrouted _ =>
      exact stepsTo_update hk (.takeRouted routed hpoint hrouted) hd hd'
  | takeRoutedOwn c k routed ok hk hpoint hrouted heq =>
      exact stepsTo_update hk (.takeRoutedOwn routed ok hpoint hrouted heq) hd hd'
  | takeRoutedError c k routed hk hpoint hrouted _ =>
      exact stepsTo_update hk (.takeRoutedError routed hpoint hrouted) hd hd'
  | lagged c k hk hpoint _ => exact stepsTo_update hk (.lagged hpoint) hd hd'
  | recipients c k frame hk hpoint _ => exact stepsTo_update hk (.recipients frame hpoint) hd hd'
  | resolve c k frame rest fp cid hk hpoint hfp _ hconn =>
      exact stepsTo_update hk (.resolve frame rest fp cid hpoint hfp hconn) hd hd'
  | resolveNone c k frame rest fp hk hpoint _ _ hconn =>
      exact stepsTo_update hk (.resolveNone frame rest fp hpoint hconn) hd hd'
  | routed c k frame hk hpoint => exact stepsTo_update hk (.routed frame hpoint) hd hd'
  | lookup c k frame rest cid tx hk hpoint _ htx =>
      exact stepsTo_update hk (.lookup frame rest cid tx hpoint htx) hd hd'
  | lookupNone c k frame rest cid hk hpoint _ htx =>
      exact stepsTo_update hk (.lookupNone frame rest cid hpoint htx) hd hd'
  | pushClosed c k frame rest tx hk hpoint _ =>
      exact stepsTo_update hk (.pushClosed frame rest tx hpoint) hd hd'
  | pong c k hk hpoint => exact stepsTo_update hk (.pong hpoint) hd hd'
  | pongError c k hk hpoint => exact stepsTo_update hk (.pongError hpoint) hd hd'
  | removeClient c k hk hpoint _ => exact stepsTo_update hk (.removeClient hpoint) hd hd'
  | removeSender c k hk hpoint _ => exact stepsTo_update hk (.removeSender hpoint) hd hd'
  | removeAlias c k hk hpoint _ => exact stepsTo_update hk (.removeAlias hpoint) hd hd'

/-- **A task that does not act** gets at most another frame into its channel. -/
theorem idle_client (h : Stepped crates s label s') {d : ConnId} {kd kd' : Client}
    (hidle : ∀ move, label ≠ .client d move) (hd : s.tasks d = .client kd)
    (hd' : s'.tasks d = .client kd') : ∃ out, kd' = { kd with outRx := kd.outRx ++ out } := by
  cases h.stepsTo hd hd' with
  | idle _ _ =>
      refine ⟨[], ?_⟩
      rw [List.append_nil]
  | delivered c kc frame _ _ _ _ _ _ _ => exact ⟨_, rfl⟩
  | _ => exact absurd rfl (hidle _)

/-- **A task that has put its frame into a channel** goes on with the recipients that are left. -/
theorem push_client {c : ConnId} {k k' : Client} {frame : Frame} {rest : Finset Fingerprint}
    {tx : Sender} (h : Stepped crates s (.client c .push) s') (hk : s.tasks c = .client k)
    (hpoint : k.point = .push frame rest tx) (hk' : s'.tasks c = .client k') :
    ∃ out, k' = { k with point := .route frame rest, outRx := k.outRx ++ out } := by
  cases h.stepsTo hk hk' with
  | idle _ hidle => exact absurd rfl (hidle _)
  | delivered _ _ _ _ _ hne _ _ _ _ => exact absurd rfl hne
  | push frame' rest' tx' hpoint' _ | pushClosed frame' rest' tx' hpoint' =>
      obtain ⟨rfl, rfl, rfl⟩ := Point.push.inj (hpoint.symm.trans hpoint')
      refine ⟨[], ?_⟩
      rw [List.append_nil]
  | pushOwn frame' rest' tx' hpoint' _ _ =>
      obtain ⟨rfl, rfl, rfl⟩ := Point.push.inj (hpoint.symm.trans hpoint')
      exact ⟨_, rfl⟩

/-- What a move does to the phase of the task that makes it. -/
inductive Advances : ℕ → Move → ℕ → Prop
  | register : Advances 0 .register 1
  | storeAlias : Advances 1 .storeAlias 2
  | openChannel : Advances 2 .openChannel 3
  | subscribe : Advances 3 .subscribe 4
  | lockAliases : Advances 4 .lockAliases 5
  | unlockAliases : Advances 5 .unlockAliases 6
  | announce : Advances 6 .announce 7
  | leave (move : Move) : Advances 7 move 8
  | pongError : Advances 7 (.pong false) 11
  | removeClient : Advances 8 .removeClient 9
  | removeSender : Advances 9 .removeSender 10
  | removeAlias : Advances 10 .removeAlias 11

/-- **What a step does to the phase of a task.** -/
theorem phase_cases (h : Stepped crates s label s') {d : ConnId} {kd kd' : Client}
    (hd : s.tasks d = .client kd) (hd' : s'.tasks d = .client kd') :
    kd'.point.phase = kd.point.phase ∨
      ∃ move, label = .client d move ∧ Advances kd.point.phase move kd'.point.phase := by
  cases h.stepsTo hd hd' with
  | idle _ _ | delivered _ _ _ _ _ _ _ _ _ _ | takeOut _ _ _ _ | takeRouted _ _ _
  | takeRoutedOwn _ _ _ _ _ | lagged _ => exact Or.inl rfl
  | receive _ hpoint =>
      left
      rw [hpoint, Point.phase_afterReceive]
      rfl
  | greet _ _ _ hpoint _ | greetSkip _ _ _ hpoint _ | recipients _ hpoint
  | resolve _ _ _ _ hpoint _ _ | resolveNone _ _ _ hpoint _ | routed _ hpoint
  | lookup _ _ _ _ hpoint _ | lookupNone _ _ _ hpoint _ | push _ _ _ hpoint _
  | pushOwn _ _ _ hpoint _ _ | pushClosed _ _ _ hpoint | pong hpoint =>
      left
      rw [hpoint]
      rfl
  | register hpoint | storeAlias hpoint | openChannel hpoint | subscribe hpoint
  | lockAliases hpoint | unlockAliases hpoint | announce hpoint | cancelled hpoint
  | receiveError hpoint | takeOutError _ _ hpoint _ | takeRoutedError _ hpoint _
  | pongError hpoint | removeClient hpoint | removeSender hpoint | removeAlias hpoint =>
      refine Or.inr ⟨_, rfl, ?_⟩
      rw [hpoint]
      constructor

end Stepped

end Sanctum
