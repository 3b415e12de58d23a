/-
What a step of the listener can do.

The steps are taken apart once, into the cases in which their effects differ; everything that is proved
about runs goes through these cases.  A case names what the step required, guards included, and the
state it leads to.  What an authentication reads and computes before it hands over a client is not kept
apart further, except that it may add a member to the room.

Main definitions:

* `Sanctum.Stepped` — **the cases of a step**;
* `Sanctum.Point.phase` — how far a task has come.

Main results:

* `Sanctum.HostListener.stepped_of_step` — every step is one of the cases;
* `Sanctum.Stepped.evolves` — what a step does to a task.
-/

import Sanctum.HostListener

set_option relaxedAutoImplicit false
set_option autoImplicit false

namespace Sanctum

open HostListener

/-! ### Reading the state after a step -/

namespace HostListener

theorem tasks_setTask (s : HostListener) (c : ConnId) (task : Task) (d : ConnId) :
    (s.setTask c task).tasks d = if d = c then task else s.tasks d :=
  Function.update_apply ..

theorem tasks_setClient (s : HostListener) (c : ConnId) (k : Client) (d : ConnId) :
    (s.setClient c k).tasks d = if d = c then .client k else s.tasks d :=
  Function.update_apply ..

theorem tasks_setClient_self (s : HostListener) (c : ConnId) (k : Client) :
    (s.setClient c k).tasks c = .client k :=
  Function.update_self ..

@[simp] theorem routeTx_setClient (s : HostListener) (c : ConnId) (k : Client) :
    (s.setClient c k).routeTx = s.routeTx := rfl

theorem tasks_enqueue (s : HostListener) (c : ConnId) (r : Relayed) (d : ConnId) :
    (s.enqueue c r).tasks d = if d = c then (s.tasks d).enqueue r else s.tasks d := by
  unfold enqueue
  rw [tasks_setTask]
  split
  · next h => rw [h]
  · rfl

end HostListener

/-! ### The cases -/

/-- **The cases of a step.** -/
inductive Stepped (crates : Crates) (s : HostListener) : Label → HostListener → Prop
  | accept : Stepped crates s .accept
      ({ s with connCounter := s.connCounter + 1 }.setTask s.connCounter
        (.authenticating .handshake))
  | cancel : Stepped crates s .cancel { s with shutdown := true }
  | addMember (member : Member) (room : Room) (hfree : s.hostLock = none)
      (hadd : s.hostService.room.addMember member = .ok room) :
      Stepped crates s (.addMember member) { s with hostService := s.hostService.setRoom room }
  | addMemberError (member : Member) : Stepped crates s (.addMember member) s
  | revokeMember (fp : Fingerprint) (room : Room) (hfree : s.hostLock = none)
      (hrevoke : s.hostService.room.revokeMember fp = .ok room) :
      Stepped crates s (.revokeMember fp) { s with hostService := s.hostService.setRoom room }
  | revokeMemberError (fp : Fingerprint) : Stepped crates s (.revokeMember fp) s
  | authenticate (c : ConnId) (move : AuthMove) (stage stage' : Stage) (auth : AuthService)
      (htask : s.tasks c = .authenticating stage) :
      Stepped crates s (.authenticate c move)
        ({ s with authService := auth }.setTask c (.authenticating stage'))
  | addIfAbsent (c : ConnId) (move : AuthMove) (stage stage' : Stage) (fp : Fingerprint)
      (displayAlias : String) (now : UInt64) (htask : s.tasks c = .authenticating stage)
      (hfree : s.hostLock = none) :
      Stepped crates s (.authenticate c move)
        ({ s with hostService := s.hostService.addIfAbsent fp displayAlias now }.setTask c
          (.authenticating stage'))
  | authError (c : ConnId) (move : AuthMove) (stage : Stage) (auth : AuthService)
      (htask : s.tasks c = .authenticating stage) :
      Stepped crates s (.authenticate c move) ({ s with authService := auth }.setTask c .failed)
  | authenticated (c : ConnId) (move : AuthMove) (stage : Stage) (fp : Fingerprint)
      (displayAlias : String) (htask : s.tasks c = .authenticating stage) :
      Stepped crates s (.authenticate c move) (s.setClient c {
        fingerprint := fp
        displayAlias := displayAlias
        point := .register
        outRx := []
        routeRx := 0
        received := []
        sent := [] })
  | register (c : ConnId) (k : Client) (svc : HostService) (htask : s.tasks c = .client k)
      (hpoint : k.point = .register) (hfree : s.hostLock = none)
      (hregister : s.hostService.registerClient k.fingerprint c = .ok svc) :
      Stepped crates s (.client c .register)
        ({ s with
          hostService := svc.markClientReady k.fingerprint
          registrations := (k.fingerprint, c) :: s.registrations }.setClient c
            { k with point := .storeAlias })
  | registerError (c : ConnId) (k : Client) (htask : s.tasks c = .client k)
      (hpoint : k.point = .register) :
      Stepped crates s (.client c .register) (s.setTask c .failed)
  | storeAlias (c : ConnId) (k : Client) (htask : s.tasks c = .client k)
      (hpoint : k.point = .storeAlias) (hfree : s.aliasesLock = none) :
      Stepped crates s (.client c .storeAlias)
        ({ s with aliases := s.aliases.insert k.fingerprint.hex k.displayAlias }.setClient c
          { k with point := .openChannel })
  | openChannel (c : ConnId) (k : Client) (htask : s.tasks c = .client k)
      (hpoint : k.point = .openChannel) (hfree : s.clientsLock = none) :
      Stepped crates s (.client c .openChannel)
        ({ s with clients := s.clients.insert c ⟨c⟩ }.setClient c { k with point := .subscribe })
  | subscribe (c : ConnId) (k : Client) (htask : s.tasks c = .client k)
      (hpoint : k.point = .subscribe) :
      Stepped crates s (.client c .subscribe)
        (s.setClient c { k with point := .lockAliases, routeRx := s.routeTx.length })
  | lockAliases (c : ConnId) (k : Client) (htask : s.tasks c = .client k)
      (hpoint : k.point = .lockAliases) (hfree : s.aliasesLock = none) :
      Stepped crates s (.client c .lockAliases)
        ({ s with aliasesLock := some c }.setClient c { k with point := .greet s.aliases })
  | greet (c : ConnId) (k : Client) (rest : HashMap String String) (fp displayAlias : String)
      (htask : s.tasks c = .client k) (hpoint : k.point = .greet rest)
      (hentry : rest.lookup fp = some displayAlias) (hne : fp ≠ k.fingerprint.hex) :
      Stepped crates s (.client c (.greet fp true))
        (s.setClient c { k with
          point := .greet (rest.erase fp)
          sent := k.sent ++ [.own (crates.pb.peerReadyFrame ⟨fp, displayAlias⟩)] })
  | greetSkip (c : ConnId) (k : Client) (rest : HashMap String String) (fp displayAlias : String)
      (ok : Bool) (htask : s.tasks c = .client k) (hpoint : k.point = .greet rest)
      (hentry : rest.lookup fp = some displayAlias)
      (hskip : fp = k.fingerprint.hex ∨ ok = false) :
      Stepped crates s (.client c (.greet fp ok))
        (s.setClient c { k with point := .greet (rest.erase fp) })
  | unlockAliases (c : ConnId) (k : Client) (htask : s.tasks c = .client k)
      (hpoint : k.point = .greet ∅) :
      Stepped crates s (.client c .unlockAliases)
        ({ s with aliasesLock := none }.setClient c { k with point := .announce })
  | announce (c : ConnId) (k : Client) (htask : s.tasks c = .client k)
      (hpoint : k.point = .announce) :
      Stepped crates s (.client c .announce)
        ({ s with routeTx := s.routeTx ++ [k.joinMessage crates.pb] }.setClient c
          { k with point := .select })
  | cancelled (c : ConnId) (k : Client) (htask : s.tasks c = .client k)
      (hpoint : k.point = .select) (hshutdown : s.shutdown = true) :
      Stepped crates s (.client c .cancelled) (s.setClient c { k with point := .removeClient })
  | receive (c : ConnId) (k : Client) (frame : Frame) (htask : s.tasks c = .client k)
      (hpoint : k.point = .select) :
      Stepped crates s (.client c (.receive frame))
        (s.setClient c
          { k with point := .afterReceive frame, received := k.received ++ [frame] })
  | receiveError (c : ConnId) (k : Client) (htask : s.tasks c = .client k)
      (hpoint : k.point = .select) :
      Stepped crates s (.client c .receiveError) (s.setClient c { k with point := .removeClient })
  | takeOut (c : ConnId) (k : Client) (r : Relayed) (outRx : List Relayed)
      (htask : s.tasks c = .client k) (hpoint : k.point = .select) (hout : k.outRx = r :: outRx) :
      Stepped crates s (.client c (.takeOut true))
        (s.setClient c { k with outRx := outRx, sent := k.sent ++ [.relayed r] })
  | takeOutError (c : ConnId) (k : Client) (r : Relayed) (outRx : List Relayed)
      (htask : s.tasks c = .client k) (hpoint : k.point = .select) (hout : k.outRx = r :: outRx) :
      Stepped crates s (.client c (.takeOut false))
        (s.setClient c { k with outRx := outRx, point := .removeClient })
  | takeRouted (c : ConnId) (k : Client) (routed : RoutedMessage) (htask : s.tasks c = .client k)
      (hpoint : k.point = .select) (hrouted : s.routeTx[k.routeRx]? = some routed)
      (hne : routed.sender ≠ k.fingerprint) :
      Stepped crates s (.client c (.takeRouted true))
        (s.setClient c
          { k with routeRx := k.routeRx + 1, sent := k.sent ++ [.own routed.frame] })
  | takeRoutedOwn (c : ConnId) (k : Client) (routed : RoutedMessage) (ok : Bool)
      (htask : s.tasks c = .client k) (hpoint : k.point = .select)
      (hrouted : s.routeTx[k.routeRx]? = some routed) (heq : routed.sender = k.fingerprint) :
      Stepped crates s (.client c (.takeRouted ok))
        (s.setClient c { k with routeRx := k.routeRx + 1 })
  | takeRoutedError (c : ConnId) (k : Client) (routed : RoutedMessage)
      (htask : s.tasks c = .client k) (hpoint : k.point = .select)
      (hrouted : s.routeTx[k.routeRx]? = some routed) (hne : routed.sender ≠ k.fingerprint) :
      Stepped crates s (.client c (.takeRouted false))
        (s.setClient c { k with routeRx := k.routeRx + 1, point := .removeClient })
  | lagged (c : ConnId) (k : Client) (htask : s.tasks c = .client k) (hpoint : k.point = .select)
      (hlag : s.routeTx.length - k.routeRx > routeCapacity) :
      Stepped crates s (.client c .lagged)
        (s.setClient c { k with routeRx := s.routeTx.length - routeCapacity })
  | recipients (c : ConnId) (k : Client) (frame : Frame) (htask : s.tasks c = .client k)
      (hpoint : k.point = .recipients frame) (hfree : s.hostLock = none) :
      Stepped crates s (.client c .recipients)
        (s.setClient c
          { k with point := .route frame (s.hostService.routeRecipients k.fingerprint) })
  | resolve (c : ConnId) (k : Client) (frame : Frame) (rest : Finset Fingerprint)
      (fp : Fingerprint) (cid : ConnId) (htask : s.tasks c = .client k)
      (hpoint : k.point = .route frame rest) (hfp : fp ∈ rest) (hfree : s.hostLock = none)
      (hconn : s.hostService.connectionIdFor fp = some cid) :
      Stepped crates s (.client c (.resolve fp))
        ({ s with hostLock := some c }.setClient c
          { k with point := .lookup frame (rest.erase fp) cid })
  | resolveNone (c : ConnId) (k : Client) (frame : Frame) (rest : Finset Fingerprint)
      (fp : Fingerprint) (htask : s.tasks c = .client k) (hpoint : k.point = .route frame rest)
      (hfp : fp ∈ rest) (hfree : s.hostLock = none)
      (hconn : s.hostService.connectionIdFor fp = none) :
      Stepped crates s (.client c (.resolve fp))
        (s.setClient c { k with point := .route frame (rest.erase fp) })
  | routed (c : ConnId) (k : Client) (frame : Frame) (htask : s.tasks c = .client k)
      (hpoint : k.point = .route frame ∅) :
      Stepped crates s (.client c .routed) (s.setClient c { k with point := .select })
  | lookup (c : ConnId) (k : Client) (frame : Frame) (rest : Finset Fingerprint) (cid : ConnId)
      (tx : Sender) (htask : s.tasks c = .client k) (hpoint : k.point = .lookup frame rest cid)
      (hfree : s.clientsLock = none) (htx : s.clients.lookup cid = some tx) :
      Stepped crates s (.client c .lookup)
        ({ s with clientsLock := some c }.setClient c { k with point := .push frame rest tx })
  | lookupNone (c : ConnId) (k : Client) (frame : Frame) (rest : Finset Fingerprint)
      (cid : ConnId) (htask : s.tasks c = .client k) (hpoint : k.point = .lookup frame rest cid)
      (hfree : s.clientsLock = none) (htx : s.clients.lookup cid = none) :
      Stepped crates s (.client c .lookup)
        ({ s with hostLock := none }.setClient c { k with point := .route frame rest })
  | push (c : ConnId) (k : Client) (frame : Frame) (rest : Finset Fingerprint) (tx : Sender)
      (kd : Client) (htask : s.tasks c = .client k) (hpoint : k.point = .push frame rest tx)
      (howner : s.tasks tx.owner = .client kd) (hopen : kd.point ≠ .ended)
      (hroom : kd.outRx.length < outCapacity) :
      Stepped crates s (.client c .push)
        (({ s with hostLock := none, clientsLock := none }.setClient c
          { k with point := .route frame rest }).enqueue tx.owner
            ⟨frame, c, k.received.length - 1⟩)
  | pushClosed (c : ConnId) (k : Client) (frame : Frame) (rest : Finset Fingerprint)
      (tx : Sender) (htask : s.tasks c = .client k) (hpoint : k.point = .push frame rest tx)
      (hclosed : ∀ kd, s.tasks tx.owner = .client kd → kd.point = .ended) :
      Stepped crates s (.client c .push)
        ({ s with hostLock := none, clientsLock := none }.setClient c
          { k with point := .route frame rest })
  | pong (c : ConnId) (k : Client) (htask : s.tasks c = .client k) (hpoint : k.point = .pong) :
      Stepped crates s (.client c (.pong true))
        (s.setClient c { k with point := .select, sent := k.sent ++ [.own pongFrame] })
  | pongError (c : ConnId) (k : Client) (htask : s.tasks c = .client k)
      (hpoint : k.point = .pong) :
      Stepped crates s (.client c (.pong false)) (s.setClient c { k with point := .ended })
  | removeClient (c : ConnId) (k : Client) (htask : s.tasks c = .client k)
      (hpoint : k.point = .removeClient) (hfree : s.hostLock = none) :
      Stepped crates s (.client c .removeClient)
        ({ s with hostService := s.hostService.removeClient k.fingerprint }.setClient c
          { k with point := .removeSender })
  | removeSender (c : ConnId) (k : Client) (htask : s.tasks c = .client k)
      (hpoint : k.point = .removeSender) (hfree : s.clientsLock = none) :
      Stepped crates s (.client c .removeSender)
        ({ s with clients := s.clients.erase c }.setClient c { k with point := .removeAlias })
  | removeAlias (c : ConnId) (k : Client) (htask : s.tasks c = .client k)
      (hpoint : k.point = .removeAlias) (hfree : s.aliasesLock = none) :
      Stepped crates s (.client c .removeAlias)
        ({ s with aliases := s.aliases.erase k.fingerprint.hex }.setClient c
          { k with point := .ended })

/-! ### Every step is one of the cases -/

namespace HostListener

variable {crates : Crates} {s s' : HostListener}

theorem stepped_of_authStep {c : ConnId} {stage : Stage} {move : AuthMove}
    (htask : s.tasks c = .authenticating stage)
    (h : s.authStep crates c stage move = some s') :
    Stepped crates s (.authenticate c move) s' := by
  unfold authStep at h
  split at h
  · next ok =>
      obtain rfl := Option.some_inj.1 h
      cases ok with
      | true => exact .authenticate c _ _ _ s.authService htask
      | false => exact .authError c _ _ s.authService htask
  · split at h
    · obtain rfl := Option.some_inj.1 h
      exact .authenticate c _ _ _ s.authService htask
    · simp at h
  · obtain rfl := Option.some_inj.1 h
    exact .authenticate c _ _ _ s.authService htask
  · split at h
    · obtain rfl := Option.some_inj.1 h
      exact .authenticate c _ _ _ s.authService htask
    · obtain rfl := Option.some_inj.1 h
      exact .authError c _ _ s.authService htask
  · split at h
    · next hfree =>
        obtain rfl := Option.some_inj.1 h
        exact .addIfAbsent c _ _ _ _ _ _ htask hfree
    · simp at h
  · split at h
    · obtain rfl := Option.some_inj.1 h
      exact .authenticate c _ _ _ s.authService htask
    · simp at h
  · dsimp only at h
    split at h
    · next auth _ =>
        obtain rfl := Option.some_inj.1 h
        exact .authenticate c _ _ _ auth htask
    · next auth _ =>
        obtain rfl := Option.some_inj.1 h
        exact .authError c _ _ auth htask
  · split at h
    · obtain rfl := Option.some_inj.1 h
      exact .authenticated c _ _ _ _ htask
    · obtain rfl := Option.some_inj.1 h
      exact .authError c _ _ s.authService htask
  · simp at h

theorem stepped_of_joinStep {c : ConnId} {k : Client} {move : Move}
    (htask : s.tasks c = .client k) (h : s.joinStep crates c k move = some s') :
    Stepped crates s (.client c move) s' := by
  unfold joinStep at h
  split at h
  · next hpoint =>
      unfold registerStep at h
      split at h
      · next hfree =>
          split at h
          · next svc hregister =>
              obtain rfl := Option.some_inj.1 h
              exact .register c k svc htask hpoint hfree hregister
          · obtain rfl := Option.some_inj.1 h
            exact .registerError c k htask hpoint
      · simp at h
  · next hpoint =>
      split at h
      · next hfree =>
          obtain rfl := Option.some_inj.1 h
          exact .storeAlias c k htask hpoint hfree
      · simp at h
  · next hpoint =>
      split at h
      · next hfree =>
          obtain rfl := Option.some_inj.1 h
          exact .openChannel c k htask hpoint hfree
      · simp at h
  · next hpoint =>
      obtain rfl := Option.some_inj.1 h
      exact .subscribe c k htask hpoint
  · next hpoint =>
      split at h
      · next hfree =>
          obtain rfl := Option.some_inj.1 h
          exact .lockAliases c k htask hpoint hfree
      · simp at h
  · next rest fp ok hpoint =>
      split at h
      · next displayAlias hentry =>
          obtain rfl := Option.some_inj.1 h
          by_cases hne : fp ≠ k.fingerprint.hex ∧ ok
          · obtain ⟨hne, rfl⟩ := hne
            simp only [hne, ne_eq, not_false_eq_true, and_self, if_true]
            exact .greet c k rest fp displayAlias htask hpoint hentry hne
          · simp only [if_neg hne]
            refine .greetSkip c k rest fp displayAlias ok htask hpoint hentry ?_
            by_contra hor
            exact hne ⟨fun heq => hor (Or.inl heq), by simpa using fun hok => hor (Or.inr hok)⟩
      · simp at h
  · next rest hpoint =>
      split at h
      · next hrest =>
          subst hrest
          obtain rfl := Option.some_inj.1 h
          exact .unlockAliases c k htask hpoint
      · simp at h
  · next hpoint =>
      obtain rfl := Option.some_inj.1 h
      exact .announce c k htask hpoint
  · simp at h

theorem stepped_of_takeRoutedStep {c : ConnId} {k : Client} {ok : Bool}
    (htask : s.tasks c = .client k) (hpoint : k.point = .select)
    (h : s.takeRoutedStep c k ok = some s') :
    Stepped crates s (.client c (.takeRouted ok)) s' := by
  unfold takeRoutedStep at h
  split at h
  · split at h
    · next routed hrouted =>
        dsimp only at h
        split at h
        · next heq =>
            obtain rfl := Option.some_inj.1 h
            exact .takeRoutedOwn c k routed ok htask hpoint hrouted heq
        · next hne =>
            cases ok with
            | true =>
                obtain rfl := Option.some_inj.1 h
                exact .takeRouted c k routed htask hpoint hrouted hne
            | false =>
                obtain rfl := Option.some_inj.1 h
                exact .takeRoutedError c k routed htask hpoint hrouted hne
    · simp at h
  · simp at h

theorem stepped_of_selectStep {c : ConnId} {k : Client} {move : Move}
    (htask : s.tasks c = .client k) (hpoint : k.point = .select)
    (h : s.selectStep c k move = some s') : Stepped crates s (.client c move) s' := by
  unfold selectStep at h
  split at h
  · split at h
    · next hshutdown =>
        obtain rfl := Option.some_inj.1 h
        exact .cancelled c k htask hpoint hshutdown
    · simp at h
  · next frame =>
      obtain rfl := Option.some_inj.1 h
      exact .receive c k frame htask hpoint
  · obtain rfl := Option.some_inj.1 h
    exact .receiveError c k htask hpoint
  · next ok =>
      split at h
      · next r outRx hout =>
          cases ok with
          | true =>
              obtain rfl := Option.some_inj.1 h
              exact .takeOut c k r outRx htask hpoint hout
          | false =>
              obtain rfl := Option.some_inj.1 h
              exact .takeOutError c k r outRx htask hpoint hout
      · simp at h
  · exact stepped_of_takeRoutedStep htask hpoint h
  · split at h
    · next hlag =>
        obtain rfl := Option.some_inj.1 h
        exact .lagged c k htask hpoint hlag
    · simp at h
  · simp at h

theorem stepped_of_pushStep {c : ConnId} {k : Client} {frame : Frame}
    {rest : Finset Fingerprint} {tx : Sender} (htask : s.tasks c = .client k)
    (hpoint : k.point = .push frame rest tx) (h : s.pushStep c k frame rest tx = some s') :
    Stepped crates s (.client c .push) s' := by
  unfold pushStep at h
  dsimp only at h
  split at h
  · next kd howner =>
      split at h
      · next hended =>
          obtain rfl := Option.some_inj.1 h
          refine .pushClosed c k frame rest tx htask hpoint fun kd' hkd' => ?_
          obtain rfl := Task.client.inj (howner.symm.trans hkd')
          exact hended
      · next hopen =>
          split at h
          · next hroom =>
              obtain rfl := Option.some_inj.1 h
              exact .push c k frame rest tx kd htask hpoint howner hopen hroom
          · simp at h
  · next hnone =>
      obtain rfl := Option.some_inj.1 h
      exact .pushClosed c k frame rest tx htask hpoint fun kd hkd => absurd hkd (hnone kd)

theorem stepped_of_routeStep {c : ConnId} {k : Client} {move : Move}
    (htask : s.tasks c = .client k) (h : s.routeStep c k move = some s') :
    Stepped crates s (.client c move) s' := by
  unfold routeStep at h
  split at h
  · next frame hpoint =>
      split at h
      · next hfree =>
          obtain rfl := Option.some_inj.1 h
          exact .recipients c k frame htask hpoint hfree
      · simp at h
  · next frame rest fp hpoint =>
      split at h
      · next hguard =>
          split at h
          · next cid hconn =>
              obtain rfl := Option.some_inj.1 h
              exact .resolve c k frame rest fp cid htask hpoint hguard.1 hguard.2 hconn
          · next hconn =>
              obtain rfl := Option.some_inj.1 h
              exact .resolveNone c k frame rest fp htask hpoint hguard.1 hguard.2 hconn
      · simp at h
  · next frame rest hpoint =>
      split at h
      · next hrest =>
          subst hrest
          obtain rfl := Option.some_inj.1 h
          exact .routed c k frame htask hpoint
      · simp at h
  · next frame rest cid hpoint =>
      split at h
      · next hfree =>
          split at h
          · next tx htx =>
              obtain rfl := Option.some_inj.1 h
              exact .lookup c k frame rest cid tx htask hpoint hfree htx
          · next htx =>
              obtain rfl := Option.some_inj.1 h
              exact .lookupNone c k frame rest cid htask hpoint hfree htx
      · simp at h
  · next frame rest tx hpoint => exact stepped_of_pushStep htask hpoint h
  · next ok hpoint =>
      cases ok with
      | true =>
          obtain rfl := Option.some_inj.1 h
          exact .pong c k htask hpoint
      | false =>
          obtain rfl := Option.some_inj.1 h
          exact .pongError c k htask hpoint
  · simp at h

theorem stepped_of_cleanupStep {c : ConnId} {k : Client} {move : Move}
    (htask : s.tasks c = .client k) (h : s.cleanupStep c k move = some s') :
    Stepped crates s (.client c move) s' := by
  unfold cleanupStep at h
  split at h
  · next hpoint =>
      split at h
      · next hfree =>
          obtain rfl := Option.some_inj.1 h
          exact .removeClient c k htask hpoint hfree
      · simp at h
  · next hpoint =>
      split at h
      · next hfree =>
          obtain rfl := Option.some_inj.1 h
          exact .removeSender c k htask hpoint hfree
      · simp at h
  · next hpoint =>
      split at h
      · next hfree =>
          obtain rfl := Option.some_inj.1 h
          exact .removeAlias c k htask hpoint hfree
      · simp at h
  · simp at h

theorem stepped_of_clientStep {c : ConnId} {k : Client} {move : Move}
    (htask : s.tasks c = .client k) (h : s.clientStep crates c k move = some s') :
    Stepped crates s (.client c move) s' := by
  unfold clientStep at h
  cases hpoint : k.point with
  | register | storeAlias | openChannel | subscribe | lockAliases | greet _ | announce =>
      rw [hpoint] at h
      exact stepped_of_joinStep htask h
  | select =>
      rw [hpoint] at h
      exact stepped_of_selectStep htask hpoint h
  | recipients _ | route _ _ | lookup _ _ _ | push _ _ _ | pong =>
      rw [hpoint] at h
      exact stepped_of_routeStep htask h
  | removeClient | removeSender | removeAlias =>
      rw [hpoint] at h
      exact stepped_of_cleanupStep htask h
  | ended =>
      rw [hpoint] at h
      simp at h

/-- **Every step is one of the cases.** -/
theorem stepped_of_step {label : Label} (h : s.step crates label = some s') :
    Stepped crates s label s' := by
  unfold step at h
  cases label with
  | accept =>
      obtain rfl := Option.some_inj.1 h
      exact .accept
  | cancel =>
      obtain rfl := Option.some_inj.1 h
      exact .cancel
  | addMember member =>
      simp only [roomStep] at h
      split at h
      · next hfree =>
          split at h
          · next room hadd =>
              obtain rfl := Option.some_inj.1 h
              exact .addMember member room hfree hadd
          · obtain rfl := Option.some_inj.1 h
            exact .addMemberError member
      · simp at h
  | revokeMember fp =>
      simp only [roomStep] at h
      split at h
      · next hfree =>
          split at h
          · next room hrevoke =>
              obtain rfl := Option.some_inj.1 h
              exact .revokeMember fp room hfree hrevoke
          · obtain rfl := Option.some_inj.1 h
            exact .revokeMemberError fp
      · simp at h
  | authenticate c move =>
      simp only at h
      split at h
      · next stage htask => exact stepped_of_authStep htask h
      · simp at h
  | client c move =>
      simp only at h
      split at h
      · next k htask => exact stepped_of_clientStep htask h
      · simp at h

end HostListener

/-! ### How far a task has come -/

/-- **How far a task has come**: from 1 on it has registered, from 3 on it has opened its channel, at 7
it is in the message loop, and from 8 on it is on its way out. -/
def Point.phase : Point → ℕ
  | .register => 0
  | .storeAlias => 1
  | .openChannel => 2
  | .subscribe => 3
  | .lockAliases => 4
  | .greet _ => 5
  | .announce => 6
  | .select | .recipients _ | .route _ _ | .lookup _ _ _ | .push _ _ _ | .pong => 7
  | .removeClient => 8
  | .removeSender => 9
  | .removeAlias => 10
  | .ended => 11

@[simp] theorem Point.phase_afterReceive (frame : Frame) : (afterReceive frame).phase = 7 := by
  unfold afterReceive
  split
  · rfl
  · split <;> rfl

/-- A client, later on. -/
structure Client.Later (k k' : Client) : Prop where
  fingerprint : k'.fingerprint = k.fingerprint
  displayAlias : k'.displayAlias = k.displayAlias
  phase : k.point.phase ≤ k'.point.phase
  received : k.received <+: k'.received

theorem Client.Later.refl (k : Client) : k.Later k := ⟨rfl, rfl, le_rfl, List.prefix_rfl⟩

theorem Client.Later.trans {k k' k'' : Client} (h : k.Later k') (h' : k'.Later k'') :
    k.Later k'' where
  fingerprint := h'.fingerprint.trans h.fingerprint
  displayAlias := h'.displayAlias.trans h.displayAlias
  phase := h.phase.trans h'.phase
  received := h.received.trans h'.received

/-- What becomes of a task in a step. -/
inductive Task.Evolves (label : Label) : Task → Task → Prop
  | same (task : Task) : Evolves label task task
  | accepted (hlabel : label = .accept) (stage : Stage) :
      Evolves label .absent (.authenticating stage)
  | stage (stage stage' : Stage) : Evolves label (.authenticating stage) (.authenticating stage')
  | authError (stage : Stage) : Evolves label (.authenticating stage) .failed
  | authenticated (stage : Stage) (k : Client) (hpoint : k.point = .register)
      (hout : k.outRx = []) (hreceived : k.received = []) (hsent : k.sent = []) :
      Evolves label (.authenticating stage) (.client k)
  | registerError (k : Client) (hpoint : k.point = .register) : Evolves label (.client k) .failed
  | later (k k' : Client) (h : k.Later k') : Evolves label (.client k) (.client k')

namespace HostListener

/-- The connection numbers from the counter on have not been given out. -/
def Fresh (s : HostListener) : Prop := ∀ c, s.connCounter ≤ c → s.tasks c = .absent

end HostListener

namespace Stepped

variable {crates : Crates} {s s' : HostListener} {label : Label}

theorem evolves_update {tasks : ConnId → Task} {c : ConnId} {task : Task}
    (h : (tasks c).Evolves label task) (d : ConnId) :
    (tasks d).Evolves label (Function.update tasks c task d) := by
  rw [Function.update_apply]
  split
  · next hd => rwa [hd]
  · exact .same _

/-- A step of a client that goes on. -/
theorem evolves_client {tasks : ConnId → Task} {c : ConnId} {k k' : Client}
    (htask : tasks c = .client k) (h : k.Later k') (d : ConnId) :
    (tasks d).Evolves label (Function.update tasks c (.client k') d) :=
  evolves_update (htask ▸ .later k k' h) d

/-- **What becomes of a task in a step.** -/
theorem evolves (h : Stepped crates s label s') (hfresh : s.Fresh) (d : ConnId) :
    (s.tasks d).Evolves label (s'.tasks d) := by
  cases h with
  | accept => exact evolves_update (hfresh _ le_rfl ▸ .accepted rfl _) d
  | cancel | addMember _ _ _ _ | addMemberError _ | revokeMember _ _ _ _ | revokeMemberError _ =>
      exact .same _
  | authenticate c _ stage stage' _ htask | addIfAbsent c _ stage stage' _ _ _ htask _ =>
      exact evolves_update (htask ▸ .stage stage stage') d
  | authError c _ stage _ htask => exact evolves_update (htask ▸ .authError stage) d
  | authenticated c _ stage fp displayAlias htask =>
      exact evolves_update (htask ▸ .authenticated stage _ rfl rfl rfl rfl) d
  | registerError c k htask hpoint => exact evolves_update (htask ▸ .registerError k hpoint) d
  | receive c k frame htask hpoint =>
      refine evolves_client htask ?_ d
      refine ⟨rfl, rfl, ?_, List.prefix_append _ _⟩
      rw [hpoint, Point.phase_afterReceive]
      exact le_rfl
  | takeOut c k _ _ htask _ _ | takeRouted c k _ htask _ _ _ | takeRoutedOwn c k _ _ htask _ _ _
  | lagged c k htask _ _ =>
      refine evolves_client htask ?_ d
      exact ⟨rfl, rfl, le_rfl, List.prefix_rfl⟩
  | push c k frame rest tx kd htask hpoint howner _ _ =>
      rw [tasks_enqueue, tasks_setClient]
      have hroute : k.Later { k with point := .route frame rest } :=
        ⟨rfl, rfl, by rw [hpoint]; exact le_rfl, List.prefix_rfl⟩
      by_cases hd : d = c
      · subst hd
        rw [if_pos rfl, htask]
        split
        · exact .later _ _ (hroute.trans ⟨rfl, rfl, le_rfl, List.prefix_rfl⟩)
        · exact .later _ _ hroute
      · rw [if_neg hd]
        split
        · next htx =>
            rw [htx, howner]
            exact .later _ _ ⟨rfl, rfl, le_rfl, List.prefix_rfl⟩
        · exact .same _
  | register c k _ htask hpoint _ _ | storeAlias c k htask hpoint _
  | openChannel c k htask hpoint _ | subscribe c k htask hpoint | lockAliases c k htask hpoint _
  | greet c k _ _ _ htask hpoint _ _ | greetSkip c k _ _ _ _ htask hpoint _ _
  | unlockAliases c k htask hpoint | announce c k htask hpoint | cancelled c k htask hpoint _
  | receiveError c k htask hpoint | takeOutError c k _ _ htask hpoint _
  | takeRoutedError c k _ htask hpoint _ _ | recipients c k _ htask hpoint _
  | resolve c k _ _ _ _ htask hpoint _ _ _ | resolveNone c k _ _ _ htask hpoint _ _ _
  | routed c k _ htask hpoint | lookup c k _ _ _ _ htask hpoint _ _
  | lookupNone c k _ _ _ htask hpoint _ _ | pushClosed c k _ _ _ htask hpoint _
  | pong c k htask hpoint | pongError c k htask hpoint | removeClient c k htask hpoint _
  | removeSender c k htask hpoint _ | removeAlias c k htask hpoint _ =>
      refine evolves_client htask ?_ d
      refine ⟨rfl, rfl, ?_, List.prefix_rfl⟩
      rw [hpoint]
      simp [Point.phase]

end Stepped

end Sanctum
