/-
The host listener: one task for each connection, and the tables they share.

A task runs from one await to the next, and the tasks of all connections are interleaved at the
awaits.  A section under a mutex that does not await is one step, which needs the mutex to be free; the
mutexes that are held across an await, `host_svc` and `clients` while a frame is relayed and `aliases`
while a newcomer is greeted, are part of the state.  What the outside decides (what a peer sends,
whether a write succeeds, the clock, a random nonce) is part of the label of the step.

Two components of the state are there to speak about runs and are read by no step: each relayed frame
carries the connection it came from and its number among the frames received there, and the listener
records the registrations, the latest first.

Main definitions:

* `Sanctum.Stage`, `Sanctum.Point` — the awaits of `authenticate_client` and `handle_client`;
* `Sanctum.Client`, `Sanctum.Task`, `Sanctum.HostListener` — the state;
* `Sanctum.Label`, `Sanctum.HostListener.step` — **the steps**.
-/

import Sanctum.AuthService

set_option relaxedAutoImplicit false
set_option autoImplicit false

namespace Sanctum

/-! ### The state -/

/-- The capacity of the broadcast channel. -/
def routeCapacity : ℕ := 1024

/-- The capacity of an outbound channel. -/
def outCapacity : ℕ := 256

/-- A message on the broadcast channel. -/
structure RoutedMessage where
  sender : Fingerprint
  frame : Frame

/-- An `mpsc::Sender<Frame>`, named by the task that holds the receiver. -/
structure Sender where
  owner : ConnId

/-- A frame in an outbound channel, with the connection it came from and its number among the
frames received there. -/
structure Relayed where
  frame : Frame
  origin : ConnId
  number : ℕ
deriving DecidableEq

/-- A frame that a task has written to its transport: one of the host's own, or a relayed one. -/
inductive Sent
  | own (frame : Frame)
  | relayed (r : Relayed)
deriving DecidableEq

/-- The awaits of the handshake and of `authenticate_client`, with the variables that are still
needed. -/
inductive Stage
  | handshake
  | readRoomId
  | createChallenge (roomId : RoomId)
  | awaitResponse (challenge : AuthChallenge)
  | addMember (challenge : AuthChallenge) (fp : Fingerprint) (displayAlias : String)
  | readAllowlist (challenge : AuthChallenge) (fp : Fingerprint) (displayAlias : String)
  | verify (challenge : AuthChallenge) (fp : Fingerprint) (displayAlias : String)
      (authorizedFps : Finset Fingerprint)
  | sendResult (fp : Fingerprint) (displayAlias : String)

/-- The awaits of `handle_client` after the authentication. -/
inductive Point
  | register
  | storeAlias
  | openChannel
  | subscribe
  | lockAliases
  /-- Phase 3, with the aliases still to be announced to the newcomer; holds `aliases`. -/
  | greet (rest : HashMap String String)
  | announce
  /-- The `select!` of the message loop. -/
  | select
  /-- A room message has been received and `host_svc` is awaited. -/
  | recipients (frame : Frame)
  /-- The head of the routing loop, with the recipients still to be served. -/
  | route (frame : Frame) (rest : Finset Fingerprint)
  /-- The connection is known and `clients` is awaited; holds `host_svc`. -/
  | lookup (frame : Frame) (rest : Finset Fingerprint) (cid : ConnId)
  /-- `tx.send`; holds `host_svc` and `clients`. -/
  | push (frame : Frame) (rest : Finset Fingerprint) (tx : Sender)
  | pong
  | removeClient
  | removeSender
  | removeAlias
  /-- `handle_client` has returned. -/
  | ended

/-- The local state of a task after the authentication. -/
structure Client where
  fingerprint : Fingerprint
  displayAlias : String
  point : Point
  /-- The outbound channel, oldest frame first. -/
  outRx : List Relayed
  /-- The position in the broadcast channel. -/
  routeRx : ℕ
  /-- The frames that `recv_frame` has returned in the message loop. -/
  received : List Frame
  /-- The frames that `send_frame` has taken, the authentication aside. -/
  sent : List Sent

/-- A task; `failed` is one that ended before it registered a client. -/
inductive Task
  | absent
  | authenticating (stage : Stage)
  | client (k : Client)
  | failed

/-- What the listener calls of other crates. -/
structure Crates where
  pb : ProtoCodec
  sha256 : Bytes → Bytes32

/-- **The listener and its tasks.** -/
structure HostListener where
  hostService : HostService
  authService : AuthService
  hostNoisePubkey : Bytes
  clients : HashMap ConnId Sender
  aliases : HashMap String String
  /-- Everything that has been sent on the broadcast channel. -/
  routeTx : List RoutedMessage
  shutdown : Bool
  connCounter : ConnId
  /-- The task that holds `host_svc` across an await. -/
  hostLock : Option ConnId
  clientsLock : Option ConnId
  aliasesLock : Option ConnId
  tasks : ConnId → Task
  /-- The registrations, the latest first. -/
  registrations : List (Fingerprint × ConnId)

/-- What happens in the authentication of a client. -/
inductive AuthMove
  | handshake (ok : Bool)
  | readRoomId
  | createChallenge (nonce : Bytes) (now : UInt64)
  /-- The challenge is sent and a frame is received, unless one of the two fails. -/
  | respond (reply : Option Frame)
  | addMember (now : UInt64)
  | readAllowlist
  | verify (now : UInt64)
  | sendResult (ok : Bool)

/-- What happens in the task of a client.  The flags say whether a write succeeds. -/
inductive Move
  | register
  | storeAlias
  | openChannel
  | subscribe
  | lockAliases
  | greet (fp : String) (ok : Bool)
  | unlockAliases
  | announce
  | cancelled
  | receive (frame : Frame)
  | receiveError
  | takeOut (ok : Bool)
  | takeRouted (ok : Bool)
  | lagged
  | recipients
  | resolve (fp : Fingerprint)
  | lookup
  | push
  | routed
  | pong (ok : Bool)
  | removeClient
  | removeSender
  | removeAlias

/-- A step of the listener. -/
inductive Label
  | accept
  | cancel
  | addMember (member : Member)
  | revokeMember (fp : Fingerprint)
  | authenticate (c : ConnId) (move : AuthMove)
  | client (c : ConnId) (move : Move)

/-! ### The steps -/

/-- The `match` on the type of a received frame. -/
def Point.afterReceive (frame : Frame) : Point :=
  if frame.messageType = MessageType.roomMessage then .recipients frame
  else if frame.messageType = MessageType.ping then .pong
  else .select

/-- Append a frame to the outbound channel. -/
def Task.enqueue (r : Relayed) : Task → Task
  | .client k => .client { k with outRx := k.outRx ++ [r] }
  | task => task

/-- The broadcast of phase 4. -/
def Client.joinMessage (pb : ProtoCodec) (k : Client) : RoutedMessage where
  sender := k.fingerprint
  frame := pb.peerReadyFrame ⟨k.fingerprint.hex, k.displayAlias⟩

namespace HostListener

/-- The listener of a room, with the connection counter as `run` starts it. -/
def start (room : Room) (hostNoisePubkey : Bytes) : HostListener where
  hostService := HostService.new room
  authService := AuthService.new
  hostNoisePubkey := hostNoisePubkey
  clients := ∅
  aliases := ∅
  routeTx := []
  shutdown := false
  connCounter := 1
  hostLock := none
  clientsLock := none
  aliasesLock := none
  tasks := fun _ => .absent
  registrations := []

def setTask (s : HostListener) (c : ConnId) (task : Task) : HostListener :=
  { s with tasks := Function.update s.tasks c task }

def setClient (s : HostListener) (c : ConnId) (k : Client) : HostListener :=
  s.setTask c (.client k)

/-- Append a frame to the outbound channel of task `d`. -/
def enqueue (s : HostListener) (d : ConnId) (r : Relayed) : HostListener :=
  s.setTask d ((s.tasks d).enqueue r)

variable (crates : Crates)

/-- A step of `host_handshake` and `authenticate_client` in task `c`. -/
def authStep (s : HostListener) (c : ConnId) (stage : Stage) (move : AuthMove) :
    Option HostListener :=
  match stage, move with
  | .handshake, .handshake ok =>
    some (s.setTask c (if ok then .authenticating .readRoomId else .failed))
  | .readRoomId, .readRoomId =>
    if s.hostLock = none then
      some (s.setTask c (.authenticating (.createChallenge s.hostService.room.id)))
    else none
  | .createChallenge roomId, .createChallenge nonce now =>
    let challenge :=
      AuthService.createChallenge crates.sha256 roomId s.hostNoisePubkey nonce now
    some (s.setTask c (.authenticating (.awaitResponse challenge)))
  | .awaitResponse challenge, .respond reply =>
    match reply.map (readAuthResponse crates.pb) with
    | some (.ok (fp, displayAlias)) =>
      some (s.setTask c (.authenticating (.addMember challenge fp displayAlias)))
    | _ => some (s.setTask c .failed)
  | .addMember challenge fp displayAlias, .addMember now =>
    if s.hostLock = none then
      some ({ s with
        hostService := s.hostService.addIfAbsent fp displayAlias now }.setTask c
          (.authenticating (.readAllowlist challenge fp displayAlias)))
    else none
  | .readAllowlist challenge fp displayAlias, .readAllowlist =>
    if s.hostLock = none then
      some (s.setTask c (.authenticating
        (.verify challenge fp displayAlias s.hostService.room.activeFingerprints)))
    else none
  | .verify challenge fp displayAlias authorizedFps, .verify now =>
    let response : AuthResponse :=
      { fingerprint := fp, signature := [], pgpPublicKey := [], displayAlias := displayAlias }
    match s.authService.verifyResponse challenge response authorizedFps now with
    | (.ok (), auth) =>
      some ({ s with authService := auth }.setTask c
        (.authenticating (.sendResult fp displayAlias)))
    | (.error _, auth) => some ({ s with authService := auth }.setTask c .failed)
  | .sendResult fp displayAlias, .sendResult ok =>
    if ok then
      some (s.setClient c {
        fingerprint := fp
        displayAlias := displayAlias
        point := .register
        outRx := []
        routeRx := 0
        received := []
        sent := [] })
    else some (s.setTask c .failed)
  | _, _ => none

/-- The registration, under `host_svc`. -/
def registerStep (s : HostListener) (c : ConnId) (k : Client) : Option HostListener :=
  if s.hostLock = none then
    match s.hostService.registerClient k.fingerprint c with
    | .ok svc =>
      some ({ s with
        hostService := svc.markClientReady k.fingerprint
        registrations := (k.fingerprint, c) :: s.registrations }.setClient c
          { k with point := .storeAlias })
    | .error _ => some (s.setTask c .failed)
  else none

/-- The steps of phases 3 and 4 and before. -/
def joinStep (s : HostListener) (c : ConnId) (k : Client) (move : Move) : Option HostListener :=
  match k.point, move with
  | .register, .register => s.registerStep c k
  | .storeAlias, .storeAlias =>
    if s.aliasesLock = none then
      some ({ s with aliases := s.aliases.insert k.fingerprint.hex k.displayAlias }.setClient c
        { k with point := .openChannel })
    else none
  | .openChannel, .openChannel =>
    if s.clientsLock = none then
      some ({ s with clients := s.clients.insert c ⟨c⟩ }.setClient c { k with point := .subscribe })
    else none
  | .subscribe, .subscribe =>
    some (s.setClient c { k with point := .lockAliases, routeRx := s.routeTx.length })
  | .lockAliases, .lockAliases =>
    if s.aliasesLock = none then
      some ({ s with aliasesLock := some c }.setClient c { k with point := .greet s.aliases })
    else none
  | .greet rest, .greet fp ok =>
    match rest.lookup fp with
    | some displayAlias =>
      let frame := crates.pb.peerReadyFrame ⟨fp, displayAlias⟩
      let sent := if fp ≠ k.fingerprint.hex ∧ ok then k.sent ++ [.own frame] else k.sent
      some (s.setClient c { k with point := .greet (rest.erase fp), sent := sent })
    | none => none
  | .greet rest, .unlockAliases =>
    if rest = ∅ then
      some ({ s with aliasesLock := none }.setClient c { k with point := .announce })
    else none
  | .announce, .announce =>
    some ({ s with routeTx := s.routeTx ++ [k.joinMessage crates.pb] }.setClient c
      { k with point := .select })
  | _, _ => none

/-- A notice from the broadcast channel, unless the task has fallen behind by more than the
capacity. -/
def takeRoutedStep (s : HostListener) (c : ConnId) (k : Client) (ok : Bool) :
    Option HostListener :=
  if s.routeTx.length - k.routeRx ≤ routeCapacity then
    match s.routeTx[k.routeRx]? with
    | some routed =>
      let k := { k with routeRx := k.routeRx + 1 }
      if routed.sender = k.fingerprint then some (s.setClient c k)
      else if ok then some (s.setClient c { k with sent := k.sent ++ [.own routed.frame] })
      else some (s.setClient c { k with point := .removeClient })
    | none => none
  else none

/-- The branches of the `select!`. -/
def selectStep (s : HostListener) (c : ConnId) (k : Client) (move : Move) : Option HostListener :=
  match move with
  | .cancelled =>
    if s.shutdown then some (s.setClient c { k with point := .removeClient }) else none
  | .receive frame =>
    some (s.setClient c
      { k with point := .afterReceive frame, received := k.received ++ [frame] })
  | .receiveError => some (s.setClient c { k with point := .removeClient })
  | .takeOut ok =>
    match k.outRx with
    | r :: outRx =>
      if ok then some (s.setClient c { k with outRx := outRx, sent := k.sent ++ [.relayed r] })
      else some (s.setClient c { k with outRx := outRx, point := .removeClient })
    | [] => none
  | .takeRouted ok => s.takeRoutedStep c k ok
  | .lagged =>
    if s.routeTx.length - k.routeRx > routeCapacity then
      some (s.setClient c { k with routeRx := s.routeTx.length - routeCapacity })
    else none
  | _ => none

/-- `tx.send(frame.clone()).await`, which fails when the receiver is gone and waits while the channel
is full.  Both mutexes are released afterwards. -/
def pushStep (s : HostListener) (c : ConnId) (k : Client) (frame : Frame)
    (rest : Finset Fingerprint) (tx : Sender) : Option HostListener :=
  let s' : HostListener := { s with hostLock := none, clientsLock := none }.setClient c
    { k with point := .route frame rest }
  match s.tasks tx.owner with
  | .client kd =>
    match kd.point with
    | .ended => some s'
    | _ =>
      if kd.outRx.length < outCapacity then
        some (s'.enqueue tx.owner ⟨frame, c, k.received.length - 1⟩)
      else none
  | _ => some s'

/-- The handling of a frame in the message loop. -/
def routeStep (s : HostListener) (c : ConnId) (k : Client) (move : Move) : Option HostListener :=
  match k.point, move with
  | .recipients frame, .recipients =>
    if s.hostLock = none then
      some (s.setClient c
        { k with point := .route frame (s.hostService.routeRecipients k.fingerprint) })
    else none
  | .route frame rest, .resolve fp =>
    if fp ∈ rest ∧ s.hostLock = none then
      match s.hostService.connectionIdFor fp with
      | some cid =>
        some ({ s with hostLock := some c }.setClient c
          { k with point := .lookup frame (rest.erase fp) cid })
      | none => some (s.setClient c { k with point := .route frame (rest.erase fp) })
    else none
  | .route _ rest, .routed =>
    if rest = ∅ then some (s.setClient c { k with point := .select }) else none
  | .lookup frame rest cid, .lookup =>
    if s.clientsLock = none then
      match s.clients.lookup cid with
      | some tx =>
        some ({ s with clientsLock := some c }.setClient c { k with point := .push frame rest tx })
      | none =>
        some ({ s with hostLock := none }.setClient c { k with point := .route frame rest })
    else none
  | .push frame rest tx, .push => s.pushStep c k frame rest tx
  | .pong, .pong ok =>
    -- a failed write returns from the task at once, past the cleanup
    if ok then
      some (s.setClient c { k with point := .select, sent := k.sent ++ [.own pongFrame] })
    else some (s.setClient c { k with point := .ended })
  | _, _ => none

/-- The cleanup. -/
def cleanupStep (s : HostListener) (c : ConnId) (k : Client) (move : Move) : Option HostListener :=
  match k.point, move with
  | .removeClient, .removeClient =>
    if s.hostLock = none then
      some ({ s with hostService := s.hostService.removeClient k.fingerprint }.setClient c
        { k with point := .removeSender })
    else none
  | .removeSender, .removeSender =>
    if s.clientsLock = none then
      some ({ s with clients := s.clients.erase c }.setClient c { k with point := .removeAlias })
    else none
  | .removeAlias, .removeAlias =>
    if s.aliasesLock = none then
      some ({ s with aliases := s.aliases.erase k.fingerprint.hex }.setClient c
        { k with point := .ended })
    else none
  | _, _ => none

/-- A step of `handle_client` in task `c`, after the authentication. -/
def clientStep (s : HostListener) (c : ConnId) (k : Client) (move : Move) : Option HostListener :=
  match k.point with
  | .register | .storeAlias | .openChannel | .subscribe | .lockAliases | .greet _ | .announce =>
    s.joinStep crates c k move
  | .select => s.selectStep c k move
  | .recipients _ | .route _ _ | .lookup _ _ _ | .push _ _ _ | .pong => s.routeStep c k move
  | .removeClient | .removeSender | .removeAlias => s.cleanupStep c k move
  | .ended => none

/-- A change of the room, under `host_svc`; a failed one changes nothing. -/
def roomStep (s : HostListener) (result : Except SanctumError Room) : Option HostListener :=
  if s.hostLock = none then
    match result with
    | .ok room => some { s with hostService := s.hostService.setRoom room }
    | .error _ => some s
  else none

/-- **A step of the listener.** -/
def step (s : HostListener) (label : Label) : Option HostListener :=
  match label with
  | .accept =>
    some ({ s with connCounter := s.connCounter + 1 }.setTask s.connCounter
      (.authenticating .handshake))
  | .cancel => some { s with shutdown := true }
  | .addMember member => s.roomStep (s.hostService.room.addMember member)
  | .revokeMember fp => s.roomStep (s.hostService.room.revokeMember fp)
  | .authenticate c move =>
    match s.tasks c with
    | .authenticating stage => s.authStep crates c stage move
    | _ => none
  | .client c move =>
    match s.tasks c with
    | .client k => s.clientStep crates c k move
    | _ => none

end HostListener

end Sanctum
