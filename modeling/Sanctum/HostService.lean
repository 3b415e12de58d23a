/-
The host service: who is connected, and who gets a message.

The service holds the room and a table of the connected clients by fingerprint.  Registering
overwrites the entry of the fingerprint and asks the room for authorization; nothing asks it again.
A change of the room through `room_mut` does not reach the table, so a fingerprint that is revoked
while it is connected and ready goes on to be a recipient.

Main definitions:

* `Sanctum.ConnectedClient`, `Sanctum.HostService` — the data and the operations;
* `Sanctum.HostCall`, `Sanctum.HostService.step` — sequences of calls;
* `Sanctum.HostService.AllAuthorized` — every recipient of every sender is authorized;
* `Sanctum.HostService.InTime` — the call leaves no unauthorized client ready.

Main results:

* `Sanctum.HostService.mem_routeRecipients` — who gets a message;
* `Sanctum.HostService.recipients_authorized_iff` — **when every recipient is authorized**;
* `Sanctum.HostService.revoked_recipient` — a member revoked while ready is still a recipient.
-/

import Sanctum.Room
import Sanctum.Runs

set_option relaxedAutoImplicit false
set_option autoImplicit false

namespace Sanctum

/-- A connection identifier.  The listener counts a `u64` up for each connection, so a number here stands for
the identifier as long as there have been fewer than `2 ^ 64` connections. -/
abbrev ConnId : Type := ℕ

/-- A connected client. -/
structure ConnectedClient where
  fingerprint : Fingerprint
  connectionId : ConnId
  ready : Bool
deriving DecidableEq

/-- The events that the service emits. -/
inductive SanctumEvent
  | clientConnected (fingerprint : Fingerprint)
  | clientDisconnected (fingerprint : Fingerprint)
deriving DecidableEq

/-- **The host service.** -/
structure HostService where
  room : Room
  connectedClients : HashMap Fingerprint ConnectedClient
  /-- What has been sent on `event_tx`; whether anybody listens makes no difference. -/
  events : List SanctumEvent

namespace HostService

/-! ### The operations -/

def new (room : Room) : HostService where
  room := room
  connectedClients := ∅
  events := []

/-- Register a new authenticated client. -/
def registerClient (svc : HostService) (fp : Fingerprint) (connectionId : ConnId) :
    Except SanctumError HostService :=
  if !svc.room.isAuthorized fp then
    .error (.authFailed (fp.display ++ " not authorized in room"))
  else
    let client : ConnectedClient :=
      { fingerprint := fp, connectionId := connectionId, ready := false }
    .ok { svc with
      connectedClients := svc.connectedClients.insert fp client
      events := svc.events ++ [.clientConnected fp] }

/-- Mark a client as ready. -/
def markClientReady (svc : HostService) (fp : Fingerprint) : HostService :=
  match svc.connectedClients.lookup fp with
  | some client =>
    { svc with connectedClients := svc.connectedClients.insert fp { client with ready := true } }
  | none => svc

/-- Remove a disconnected client. -/
def removeClient (svc : HostService) (fp : Fingerprint) : HostService :=
  { svc with
    connectedClients := svc.connectedClients.erase fp
    events := svc.events ++ [.clientDisconnected fp] }

/-- The connected, ready clients except the sender.  The vector that the code builds has the
order of the table, which is not specified. -/
def routeRecipients (svc : HostService) (sender : Fingerprint) : Finset Fingerprint :=
  svc.connectedClients.keys.filter fun fp =>
    fp ≠ sender ∧ (svc.connectedClients.lookup fp).any ConnectedClient.ready

def isConnected (svc : HostService) (fp : Fingerprint) : Bool := fp ∈ svc.connectedClients

/-- The connection of a fingerprint. -/
def connectionIdFor (svc : HostService) (fp : Fingerprint) : Option ConnId :=
  (svc.connectedClients.lookup fp).map ConnectedClient.connectionId

/-! ### What the operations do to the table -/

theorem mem_routeRecipients {svc : HostService} {sender fp : Fingerprint} :
    fp ∈ svc.routeRecipients sender ↔
      fp ≠ sender ∧ ∃ client, svc.connectedClients.lookup fp = some client ∧
        client.ready = true := by
  unfold routeRecipients
  rw [Finset.mem_filter, Finmap.mem_keys, Option.any_eq_true, ← Finmap.lookup_isSome]
  constructor
  · rintro ⟨-, hne, client, hlook, hready⟩
    exact ⟨hne, client, hlook, hready⟩
  · rintro ⟨hne, client, hlook, hready⟩
    exact ⟨by rw [hlook]; rfl, hne, client, hlook, hready⟩

theorem registerClient_eq_ok {svc svc' : HostService} {fp : Fingerprint} {cid : ConnId} :
    svc.registerClient fp cid = .ok svc' ↔
      svc.room.isAuthorized fp = true ∧
        svc' = { svc with
          connectedClients := svc.connectedClients.insert fp ⟨fp, cid, false⟩
          events := svc.events ++ [.clientConnected fp] } := by
  unfold registerClient
  cases svc.room.isAuthorized fp
  · simp
  · simp [eq_comm]

theorem lookup_markClientReady (svc : HostService) (fp fp' : Fingerprint) :
    (svc.markClientReady fp).connectedClients.lookup fp' =
      (svc.connectedClients.lookup fp').map fun client =>
        if fp' = fp then { client with ready := true } else client := by
  unfold markClientReady
  cases hlook : svc.connectedClients.lookup fp with
  | none =>
      by_cases hfp : fp' = fp
      · subst hfp
        simp [hlook]
      · simp [hfp]
  | some client =>
      simp only [lookup_insert_ite]
      by_cases hfp : fp' = fp
      · subst hfp
        simp [hlook]
      · simp [hfp]

@[simp] theorem room_markClientReady (svc : HostService) (fp : Fingerprint) :
    (svc.markClientReady fp).room = svc.room := by
  unfold markClientReady
  split <;> rfl

@[simp] theorem room_removeClient (svc : HostService) (fp : Fingerprint) :
    (svc.removeClient fp).room = svc.room := rfl

theorem lookup_removeClient (svc : HostService) (fp fp' : Fingerprint) :
    (svc.removeClient fp).connectedClients.lookup fp' =
      if fp' = fp then none else svc.connectedClients.lookup fp' :=
  lookup_erase_ite svc.connectedClients fp fp'

/-- Registering and then marking as ready, as the listener does under one lock. -/
theorem lookup_register_markReady {svc svc' : HostService} {fp : Fingerprint} {cid : ConnId}
    (h : svc.registerClient fp cid = .ok svc') (fp' : Fingerprint) :
    (svc'.markClientReady fp).connectedClients.lookup fp' =
      if fp' = fp then some ⟨fp, cid, true⟩ else svc.connectedClients.lookup fp' := by
  obtain ⟨-, rfl⟩ := registerClient_eq_ok.1 h
  rw [lookup_markClientReady, lookup_insert_ite]
  by_cases hfp : fp' = fp
  · simp [hfp]
  · simp [hfp]

theorem room_registerClient {svc svc' : HostService} {fp : Fingerprint} {cid : ConnId}
    (h : svc.registerClient fp cid = .ok svc') : svc'.room = svc.room := by
  obtain ⟨-, rfl⟩ := registerClient_eq_ok.1 h
  rfl

end HostService

/-! ### Sequences of calls -/

/-- A call of the service, or a change of its room through `room_mut`. -/
inductive HostCall
  | registerClient (fp : Fingerprint) (connectionId : ConnId)
  | markClientReady (fp : Fingerprint)
  | removeClient (fp : Fingerprint)
  | addMember (member : Member)
  | revokeMember (fp : Fingerprint)

namespace HostService

/-- The service with another room. -/
def setRoom (svc : HostService) (room : Room) : HostService := { svc with room := room }

/-- The service after a call.  A failed call leaves the service as it was. -/
def apply (svc : HostService) : HostCall → HostService
  | .registerClient fp cid =>
    match svc.registerClient fp cid with
    | .ok svc => svc
    | .error _ => svc
  | .markClientReady fp => svc.markClientReady fp
  | .removeClient fp => svc.removeClient fp
  | .addMember member =>
    match svc.room.addMember member with
    | .ok room => svc.setRoom room
    | .error _ => svc
  | .revokeMember fp =>
    match svc.room.revokeMember fp with
    | .ok room => svc.setRoom room
    | .error _ => svc

/-- Every call leads somewhere. -/
def step (svc : HostService) (call : HostCall) : Option HostService := some (svc.apply call)

/-- **Every recipient of every sender is authorized.** -/
def AllAuthorized (svc : HostService) : Prop :=
  ∀ sender, ∀ fp ∈ svc.routeRecipients sender, svc.room.isAuthorized fp = true

/-- **The call comes in time**: a member is revoked only while it is not both connected and ready,
and a connected client is marked as ready only while it is authorized. -/
def InTime (svc : HostService) : HostCall → Prop
  | .revokeMember fp => (∃ room, svc.room.revokeMember fp = .ok room) →
      ∀ client, svc.connectedClients.lookup fp = some client → client.ready = false
  | .markClientReady fp => svc.isConnected fp = true → svc.room.isAuthorized fp = true
  | _ => True

/-- For every fingerprint there is another one. -/
theorem exists_sender_ne (fp : Fingerprint) : ∃ sender : Fingerprint, fp ≠ sender := by
  by_cases h : fp = ⟨""⟩
  · exact ⟨⟨"A"⟩, by rw [h]; decide⟩
  · exact ⟨⟨""⟩, h⟩

/-- The senders do not matter: what counts is who is ready. -/
theorem allAuthorized_iff {svc : HostService} :
    svc.AllAuthorized ↔ ∀ fp client, svc.connectedClients.lookup fp = some client →
      client.ready = true → svc.room.isAuthorized fp = true := by
  constructor
  · intro h fp client hlook hready
    obtain ⟨sender, hne⟩ := exists_sender_ne fp
    exact h sender fp (mem_routeRecipients.2 ⟨hne, client, hlook, hready⟩)
  · intro h sender fp hfp
    obtain ⟨-, client, hlook, hready⟩ := mem_routeRecipients.1 hfp
    exact h fp client hlook hready

theorem allAuthorized_registerClient {svc svc' : HostService} (h : svc.AllAuthorized)
    {fp : Fingerprint} {cid : ConnId} (hreg : svc.registerClient fp cid = .ok svc') :
    svc'.AllAuthorized := by
  obtain ⟨-, rfl⟩ := registerClient_eq_ok.1 hreg
  rw [allAuthorized_iff] at h ⊢
  intro fp' client hlook hready
  rw [lookup_insert_ite] at hlook
  split at hlook
  · obtain rfl := Option.some_inj.1 hlook
    simp at hready
  · exact h fp' client hlook hready

theorem allAuthorized_markClientReady {svc : HostService} (h : svc.AllAuthorized)
    (fp : Fingerprint) : (svc.markClientReady fp).AllAuthorized ↔
      (svc.isConnected fp = true → svc.room.isAuthorized fp = true) := by
  unfold isConnected
  rw [allAuthorized_iff] at h ⊢
  simp only [room_markClientReady, lookup_markClientReady, decide_eq_true_eq]
  rw [← Finmap.lookup_isSome, Option.isSome_iff_exists]
  constructor
  · rintro hall ⟨client, hlook⟩
    exact hall fp { client with ready := true } (by rw [hlook]; simp) rfl
  · intro hfp fp' client hlook hready
    obtain ⟨client', hlook', heq⟩ := Option.map_eq_some_iff.1 hlook
    split at heq
    · next hsame =>
        subst hsame
        exact hfp ⟨client', hlook'⟩
    · subst heq
      exact h fp' client' hlook' hready

theorem allAuthorized_removeClient {svc : HostService} (h : svc.AllAuthorized)
    (fp : Fingerprint) : (svc.removeClient fp).AllAuthorized := by
  rw [allAuthorized_iff] at h ⊢
  intro fp' client hlook hready
  rw [lookup_removeClient] at hlook
  split at hlook
  · simp at hlook
  · exact h fp' client hlook hready

theorem allAuthorized_addMember {svc : HostService} (h : svc.AllAuthorized) {member : Member}
    {room : Room} (hadd : svc.room.addMember member = .ok room) :
    (svc.setRoom room).AllAuthorized := by
  rw [allAuthorized_iff] at h ⊢
  intro fp client hlook hready
  exact Room.isAuthorized_of_addMember hadd (h fp client hlook hready)

theorem allAuthorized_revokeMember {svc : HostService} (h : svc.AllAuthorized)
    {fp : Fingerprint} {room : Room} (hrev : svc.room.revokeMember fp = .ok room) :
    (svc.setRoom room).AllAuthorized ↔
      ∀ client, svc.connectedClients.lookup fp = some client → client.ready = false := by
  rw [allAuthorized_iff] at h ⊢
  constructor
  · intro hall client hlook
    by_contra hready
    have hauth := hall fp client hlook (by simpa using hready)
    exact ((Room.isAuthorized_of_revokeMember hrev fp).1 hauth).1 rfl
  · intro hfp fp' client hlook hready
    refine (Room.isAuthorized_of_revokeMember hrev fp').2 ⟨?_, h fp' client hlook hready⟩
    rintro rfl
    have hnot := hfp client hlook
    rw [hready] at hnot
    simp at hnot

/-- One call: the recipients stay authorized exactly if it comes in time. -/
theorem allAuthorized_step {svc svc' : HostService} {call : HostCall} (h : svc.AllAuthorized)
    (hstep : svc.step call = some svc') : svc'.AllAuthorized ↔ svc.InTime call := by
  obtain rfl := Option.some_inj.1 hstep
  cases call with
  | registerClient fp cid =>
      simp only [apply, InTime, iff_true]
      split
      · next hreg => exact allAuthorized_registerClient h hreg
      · exact h
  | markClientReady fp => exact allAuthorized_markClientReady h fp
  | removeClient fp => exact iff_of_true (allAuthorized_removeClient h fp) trivial
  | addMember member =>
      simp only [apply, InTime, iff_true]
      split
      · next hadd => exact allAuthorized_addMember h hadd
      · exact h
  | revokeMember fp =>
      simp only [apply, InTime]
      split
      · next room hrev =>
          rw [allAuthorized_revokeMember h hrev]
          exact ⟨fun hnot _ => hnot, fun hnot => hnot ⟨room, hrev⟩⟩
      · next hrev =>
          refine iff_of_true h ?_
          rintro ⟨room, hroom⟩
          rw [hrev] at hroom
          simp at hroom

/-- **When every recipient is authorized**: in the states of a sequence of calls on a new service,
all recipients of all senders are authorized exactly if every call comes in time. -/
theorem recipients_authorized_iff (room : Room) (calls : List HostCall) :
    Runs.Throughout step AllAuthorized (new room) calls ↔
      Runs.Meets step InTime (new room) calls := by
  have htotal : ∀ (svc : HostService) (call : HostCall), ∃ svc', svc.step call = some svc' :=
    fun svc call => ⟨svc.apply call, rfl⟩
  refine Runs.throughout_iff_meets_of_step htotal
    (fun _ _ _ h hstep => allAuthorized_step h hstep) ?_
  rw [allAuthorized_iff]
  intro fp client hlook
  simp [new] at hlook

/-! ### A member revoked while connected -/

/-- The fingerprints of the tests: a suffix, filled up with zeros. -/
def testFp (suffix : String) : Fingerprint :=
  ⟨String.ofList (List.replicate (40 - suffix.length) '0' ++ suffix.toList)⟩

/-- A member of the tests. -/
def testMember (suffix text : String) (role : Role) : Member :=
  Member.new (testFp suffix) (List.replicate 32 0) ⟨text⟩ role 1700000000

/-- The room of the tests: an owner and a member. -/
def testRoom : Room :=
  { Room.new ⟨0⟩ "test" .ephemeral .default (testMember "AA" "owner" .owner) with
    members := [testMember "AA" "owner" .owner, testMember "BB" "bob" .member] }

/-- The member is revoked while connected and ready, and is still a recipient of the owner. -/
theorem revoked_recipient :
    ∃ svc, Runs.run step (new testRoom)
        [.registerClient (testFp "BB") 1, .markClientReady (testFp "BB"),
          .revokeMember (testFp "BB")] = some svc ∧
      testFp "BB" ∈ svc.routeRecipients (testFp "AA") ∧
      svc.room.isAuthorized (testFp "BB") = false :=
  ⟨_, rfl, by decide, by decide⟩

end HostService

end Sanctum
