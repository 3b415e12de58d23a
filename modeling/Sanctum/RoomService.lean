/-
The room service: who may change a room.

A call of the service names its caller.  What decides is the role in the first entry of the caller,
whatever its status, so an admin goes on to invite and revoke after a revocation; and the role to be
granted is compared with nothing, so an admin may make an owner.  Neither reaches the founding owner,
whose entry is the first of the room and is the one that lookups of its fingerprint find.

Main definitions:

* `Sanctum.RoomService` and its operations, `Sanctum.InviteToken` — the data and the code;
* `Sanctum.RoomCall`, `Sanctum.RoomService.call` — the calls, and what each returns;
* `Sanctum.RoomService.Taken` — the room takes the change that the call asks for;
* `Sanctum.RoomService.Empowered`, `Sanctum.RoomService.Confined` — a successful call is made by an
  authorized caller, and grants no more than the role of its caller.

Main results:

* `Sanctum.RoomService.call_cases` — **what a successful call is**;
* `Sanctum.RoomService.empowered_iff` — **when only authorized callers succeed**;
* `Sanctum.RoomService.confined_iff` — **when nobody grants more than he has**, and every owner is
  introduced by an owner;
* `Sanctum.RoomService.owner_and_capacity` — **the founding owner stays, and the room is never
  overfull**.
-/

import Sanctum.RoomHistory

set_option relaxedAutoImplicit false
set_option autoImplicit false

namespace Sanctum

/-- A signed invite token. -/
structure InviteToken where
  roomId : RoomId
  onionAddress : String
  port : UInt16
  hostNoisePubkey : Bytes
  inviterFingerprint : Fingerprint
  invitedFingerprint : Fingerprint
  role : Role
  expiresAt : UInt64
  signature : Bytes
deriving DecidableEq

/-- **The room service.** -/
structure RoomService where
  room : Option Room
deriving DecidableEq

/-- The arguments of `create_room`, with the identifier of the new room and the clock. -/
structure RoomCreation where
  id : RoomId
  name : String
  mode : RoomMode
  config : RoomConfig
  ownerFingerprint : Fingerprint
  ownerIdentityKey : Bytes
  ownerAlias : DisplayAlias
  now : UInt64

/-- The founding owner. -/
def RoomCreation.owner (c : RoomCreation) : Member :=
  Member.new c.ownerFingerprint c.ownerIdentityKey c.ownerAlias .owner c.now

/-- The arguments of `add_member`, with the clock. -/
structure Addition where
  caller : Fingerprint
  fingerprint : Fingerprint
  identityKey : Bytes
  displayAlias : DisplayAlias
  role : Role
  now : UInt64

def Addition.member (a : Addition) : Member :=
  Member.new a.fingerprint a.identityKey a.displayAlias a.role a.now

/-- The arguments of `generate_invite`, with the clock. -/
structure Invitation where
  inviter : Fingerprint
  invited : Fingerprint
  role : Role
  onionAddress : String
  port : UInt16
  hostNoisePubkey : Bytes
  ttlSecs : UInt64
  now : UInt64

/-- The token of an invitation; it is signed by the caller of the service. -/
def Invitation.token (i : Invitation) (roomId : RoomId) : InviteToken where
  roomId := roomId
  onionAddress := i.onionAddress
  port := i.port
  hostNoisePubkey := i.hostNoisePubkey
  inviterFingerprint := i.inviter
  invitedFingerprint := i.invited
  role := i.role
  expiresAt := i.now + i.ttlSecs
  signature := []

namespace RoomService

/-! ### The operations -/

def new : RoomService where
  room := none

/-- Create a new room with the given owner. -/
def createRoom (_ : RoomService) (c : RoomCreation) : RoomService where
  room := some (Room.new c.id c.name c.mode c.config.validate c.owner)

/-- The current room, `room` and `room_mut`.  The identifier in the error is a random one. -/
def roomMut (svc : RoomService) (fresh : RoomId) : Except SanctumError Room :=
  match svc.room with
  | some room => .ok room
  | none => .error (.roomNotFound fresh)

/-- Check caller permissions. -/
def checkPermissions (room : Room) (caller : Fingerprint) (can : Role → Bool) :
    Except SanctumError Unit :=
  match room.findMember caller with
  | none => .error (.memberNotFound caller)
  | some m =>
    if !can m.role then .error (.insufficientPermissions "Admin" m.role.display) else .ok ()

/-- Add a member to the room.  Requires the caller to have invite permissions. -/
def addMember (svc : RoomService) (a : Addition) (fresh : RoomId) :
    Except SanctumError RoomService := do
  let room ← svc.roomMut fresh
  checkPermissions room a.caller Role.canInvite
  let room ← room.addMember a.member
  return { room := some room }

/-- Revoke a member.  Requires the caller to have kick permissions. -/
def revokeMember (svc : RoomService) (caller target : Fingerprint) (fresh : RoomId) :
    Except SanctumError RoomService := do
  let room ← svc.roomMut fresh
  checkPermissions room caller Role.canKick
  let room ← room.revokeMember target
  return { room := some room }

/-- Generate an invite token.  Requires the inviter to have invite permissions. -/
def generateInvite (svc : RoomService) (i : Invitation) (fresh : RoomId) :
    Except SanctumError InviteToken := do
  let room ← svc.roomMut fresh
  checkPermissions room i.inviter Role.canInvite
  return i.token room.id

end RoomService

/-! ### Calls -/

/-- A call of the service, with the random identifier of its error. -/
inductive RoomCall
  | createRoom (c : RoomCreation)
  | addMember (a : Addition) (fresh : RoomId)
  | revokeMember (caller target : Fingerprint) (fresh : RoomId)
  | generateInvite (i : Invitation) (fresh : RoomId)

namespace RoomCall

/-- Who makes the call. -/
def caller : RoomCall → Option Fingerprint
  | .createRoom _ => none
  | .addMember a _ => some a.caller
  | .revokeMember caller _ _ => some caller
  | .generateInvite i _ => some i.inviter

/-- The role that the call is to grant. -/
def grants : RoomCall → Option Role
  | .createRoom _ | .revokeMember _ _ _ => none
  | .addMember a _ => some a.role
  | .generateInvite i _ => some i.role

/-- **The room takes the change** that the call asks for. -/
def Taken (room : Room) : RoomCall → Prop
  | .createRoom _ | .generateInvite _ _ => True
  | .addMember a _ => room.isFull = false ∧ room.isAuthorized a.fingerprint = false
  | .revokeMember _ target _ => ∃ m, room.findMember target = some m ∧ m.role ≠ .owner

end RoomCall

namespace RoomService

/-- The service after a call, and the token that the call returns. -/
def call (svc : RoomService) : RoomCall → Except SanctumError (RoomService × Option InviteToken)
  | .createRoom c => .ok (svc.createRoom c, none)
  | .addMember a fresh => (svc.addMember a fresh).map fun svc' => (svc', none)
  | .revokeMember caller target fresh =>
    (svc.revokeMember caller target fresh).map fun svc' => (svc', none)
  | .generateInvite i fresh => (svc.generateInvite i fresh).map fun token => (svc, some token)

/-- The service after a call; one that fails leaves it as it was. -/
def apply (svc : RoomService) (roomCall : RoomCall) : RoomService :=
  match svc.call roomCall with
  | .ok (svc', _) => svc'
  | .error _ => svc

/-- Every call leads somewhere. -/
def step (svc : RoomService) (roomCall : RoomCall) : Option RoomService :=
  some (svc.apply roomCall)

theorem exists_step (svc : RoomService) (roomCall : RoomCall) :
    ∃ svc', svc.step roomCall = some svc' := ⟨svc.apply roomCall, rfl⟩

/-! ### What a successful call is -/

theorem roomMut_eq_ok {svc : RoomService} {fresh : RoomId} {room : Room} :
    svc.roomMut fresh = .ok room ↔ svc.room = some room := by
  unfold roomMut
  cases svc.room <;> simp

theorem checkPermissions_eq_ok {room : Room} {caller : Fingerprint} {can : Role → Bool} :
    checkPermissions room caller can = .ok () ↔
      ∃ m, room.findMember caller = some m ∧ can m.role = true := by
  unfold checkPermissions
  cases room.findMember caller with
  | none => simp
  | some m => cases can m.role <;> simp

/-- An operation that needs a room and a caller with permissions. -/
theorem permitted_eq_ok {β : Type} {svc : RoomService} {fresh : RoomId} {caller : Fingerprint}
    {can : Role → Bool} {f : Room → Except SanctumError β} {b : β} :
    ((svc.roomMut fresh).bind fun room =>
        (checkPermissions room caller can).bind fun _ => f room) = .ok b ↔
      ∃ room m, svc.room = some room ∧ room.findMember caller = some m ∧ can m.role = true ∧
        f room = .ok b := by
  rw [bind_eq_ok]
  constructor
  · intro h
    obtain ⟨room, hroom, h⟩ := h
    obtain ⟨⟨⟩, hcan, h⟩ := bind_eq_ok.1 h
    obtain ⟨m, hm, hrole⟩ := checkPermissions_eq_ok.1 hcan
    exact ⟨room, m, roomMut_eq_ok.1 hroom, hm, hrole, h⟩
  · intro h
    obtain ⟨room, m, hroom, hm, hrole, h⟩ := h
    have hcan := checkPermissions_eq_ok.2 ⟨m, hm, hrole⟩
    exact ⟨room, roomMut_eq_ok.2 hroom, bind_eq_ok.2 ⟨(), hcan, h⟩⟩

theorem addMember_eq_ok {svc svc' : RoomService} {a : Addition} {fresh : RoomId} :
    svc.addMember a fresh = .ok svc' ↔ ∃ room m room', svc.room = some room ∧
      room.findMember a.caller = some m ∧ m.role.canInvite = true ∧
        room.addMember a.member = .ok room' ∧ svc' = { room := some room' } := by
  constructor
  · intro h
    obtain ⟨room, m, hroom, hm, hrole, h⟩ := permitted_eq_ok.1 h
    obtain ⟨room', hadd, h⟩ := bind_eq_ok.1 h
    exact ⟨room, m, room', hroom, hm, hrole, hadd, (Except.ok.inj h).symm⟩
  · intro h
    obtain ⟨room, m, room', hroom, hm, hrole, hadd, rfl⟩ := h
    refine permitted_eq_ok.2 ⟨room, m, hroom, hm, hrole, ?_⟩
    exact bind_eq_ok.2 ⟨room', hadd, rfl⟩

theorem revokeMember_eq_ok {svc svc' : RoomService} {caller target : Fingerprint}
    {fresh : RoomId} :
    svc.revokeMember caller target fresh = .ok svc' ↔ ∃ room m room', svc.room = some room ∧
      room.findMember caller = some m ∧ m.role.canKick = true ∧
        room.revokeMember target = .ok room' ∧ svc' = { room := some room' } := by
  constructor
  · intro h
    obtain ⟨room, m, hroom, hm, hrole, h⟩ := permitted_eq_ok.1 h
    obtain ⟨room', hrev, h⟩ := bind_eq_ok.1 h
    exact ⟨room, m, room', hroom, hm, hrole, hrev, (Except.ok.inj h).symm⟩
  · intro h
    obtain ⟨room, m, room', hroom, hm, hrole, hrev, rfl⟩ := h
    refine permitted_eq_ok.2 ⟨room, m, hroom, hm, hrole, ?_⟩
    exact bind_eq_ok.2 ⟨room', hrev, rfl⟩

theorem generateInvite_eq_ok {svc : RoomService} {i : Invitation} {fresh : RoomId}
    {token : InviteToken} :
    svc.generateInvite i fresh = .ok token ↔ ∃ room m, svc.room = some room ∧
      room.findMember i.inviter = some m ∧ m.role.canInvite = true ∧ token = i.token room.id := by
  constructor
  · intro h
    obtain ⟨room, m, hroom, hm, hrole, h⟩ := permitted_eq_ok.1 h
    exact ⟨room, m, hroom, hm, hrole, (Except.ok.inj h).symm⟩
  · intro h
    obtain ⟨room, m, hroom, hm, hrole, rfl⟩ := h
    exact permitted_eq_ok.2 ⟨room, m, hroom, hm, hrole, rfl⟩

/-- What a successful call is: the caller has an entry with a role that may make it. -/
inductive Succeeds (svc : RoomService) : RoomCall → RoomService → Option InviteToken → Prop
  | createRoom (c : RoomCreation) : Succeeds svc (.createRoom c) (svc.createRoom c) none
  | addMember (a : Addition) (fresh : RoomId) (room room' : Room) (m : Member)
      (hroom : svc.room = some room) (hm : room.findMember a.caller = some m)
      (hrole : m.role.canInvite = true) (hadd : room.addMember a.member = .ok room') :
      Succeeds svc (.addMember a fresh) { room := some room' } none
  | revokeMember (caller target : Fingerprint) (fresh : RoomId) (room room' : Room) (m : Member)
      (hroom : svc.room = some room) (hm : room.findMember caller = some m)
      (hrole : m.role.canInvite = true) (hrev : room.revokeMember target = .ok room') :
      Succeeds svc (.revokeMember caller target fresh) { room := some room' } none
  | generateInvite (i : Invitation) (fresh : RoomId) (room : Room) (m : Member)
      (hroom : svc.room = some room) (hm : room.findMember i.inviter = some m)
      (hrole : m.role.canInvite = true) :
      Succeeds svc (.generateInvite i fresh) svc (some (i.token room.id))

/-- **What a successful call is.** -/
theorem call_cases {svc svc' : RoomService} {roomCall : RoomCall} {invite : Option InviteToken} :
    svc.call roomCall = .ok (svc', invite) ↔ svc.Succeeds roomCall svc' invite := by
  constructor
  · intro h
    cases roomCall with
    | createRoom c =>
        obtain ⟨rfl, rfl⟩ := Prod.mk.inj (Except.ok.inj h)
        exact .createRoom c
    | addMember a fresh =>
        obtain ⟨svc'', hok, heq⟩ := map_eq_ok.1 h
        obtain ⟨rfl, rfl⟩ := Prod.mk.inj heq
        obtain ⟨room, m, room', hroom, hm, hrole, hadd, rfl⟩ := addMember_eq_ok.1 hok
        exact .addMember a fresh room room' m hroom hm hrole hadd
    | revokeMember caller target fresh =>
        obtain ⟨svc'', hok, heq⟩ := map_eq_ok.1 h
        obtain ⟨rfl, rfl⟩ := Prod.mk.inj heq
        obtain ⟨room, m, room', hroom, hm, hrole, hrev, rfl⟩ := revokeMember_eq_ok.1 hok
        exact .revokeMember caller target fresh room room' m hroom hm hrole hrev
    | generateInvite i fresh =>
        obtain ⟨token, hok, heq⟩ := map_eq_ok.1 h
        obtain ⟨rfl, rfl⟩ := Prod.mk.inj heq
        obtain ⟨room, m, hroom, hm, hrole, rfl⟩ := generateInvite_eq_ok.1 hok
        exact .generateInvite i fresh room m hroom hm hrole
  · intro h
    cases h with
    | createRoom c => rfl
    | addMember a fresh room room' m hroom hm hrole hadd =>
        exact map_eq_ok.2 ⟨_, addMember_eq_ok.2 ⟨room, m, room', hroom, hm, hrole, hadd, rfl⟩, rfl⟩
    | revokeMember caller target fresh room room' m hroom hm hrole hrev =>
        exact map_eq_ok.2
          ⟨_, revokeMember_eq_ok.2 ⟨room, m, room', hroom, hm, hrole, hrev, rfl⟩, rfl⟩
    | generateInvite i fresh room m hroom hm hrole =>
        exact map_eq_ok.2 ⟨_, generateInvite_eq_ok.2 ⟨room, m, hroom, hm, hrole, rfl⟩, rfl⟩

/-- **When a call succeeds**: its caller has an entry with a role that may make it, and the room
takes the change. -/
theorem succeeds_iff_taken {svc : RoomService} {roomCall : RoomCall} {caller : Fingerprint}
    (hcaller : roomCall.caller = some caller) :
    (∃ svc' invite, svc.Succeeds roomCall svc' invite) ↔
      ∃ room m, svc.room = some room ∧ room.findMember caller = some m ∧
        m.role.canInvite = true ∧ roomCall.Taken room := by
  constructor
  · intro h
    obtain ⟨svc', invite, h⟩ := h
    cases h with
    | createRoom c => simp [RoomCall.caller] at hcaller
    | addMember a fresh room room' m hroom hm hrole hadd =>
        obtain rfl := Option.some_inj.1 hcaller
        obtain ⟨hfull, hauth, -⟩ := Room.addMember_eq_ok.1 hadd
        exact ⟨room, m, hroom, hm, hrole, hfull, hauth⟩
    | revokeMember c target fresh room room' m hroom hm hrole hrev =>
        obtain rfl := Option.some_inj.1 hcaller
        exact ⟨room, m, hroom, hm, hrole, (Room.revokeMember_eq_ok.1 hrev).1⟩
    | generateInvite i fresh room m hroom hm hrole =>
        obtain rfl := Option.some_inj.1 hcaller
        exact ⟨room, m, hroom, hm, hrole, trivial⟩
  · intro h
    obtain ⟨room, m, hroom, hm, hrole, htaken⟩ := h
    cases roomCall with
    | createRoom c => simp [RoomCall.caller] at hcaller
    | addMember a fresh =>
        obtain rfl := Option.some_inj.1 hcaller
        have hadd : room.addMember a.member = .ok _ :=
          Room.addMember_eq_ok.2 ⟨htaken.1, htaken.2, rfl⟩
        exact ⟨_, _, .addMember a fresh room _ m hroom hm hrole hadd⟩
    | revokeMember c target fresh =>
        obtain rfl := Option.some_inj.1 hcaller
        have hrev := Room.revokeMember_eq_ok.2 ⟨htaken, rfl⟩
        exact ⟨_, _, .revokeMember c target fresh room _ m hroom hm hrole hrev⟩
    | generateInvite i fresh =>
        obtain rfl := Option.some_inj.1 hcaller
        exact ⟨_, _, .generateInvite i fresh room m hroom hm hrole⟩

/-- What a call does to the room: one that fails does nothing. -/
theorem apply_cases (svc : RoomService) (roomCall : RoomCall) :
    svc.apply roomCall = svc ∨
      ∃ invite, svc.Succeeds roomCall (svc.apply roomCall) invite := by
  unfold apply
  cases hcall : svc.call roomCall with
  | ok result => exact Or.inr ⟨result.2, call_cases.1 hcall⟩
  | error e => exact Or.inl rfl

/-! ### Revoked callers -/

/-- **A successful call is made by an authorized caller.** -/
def Empowered (svc : RoomService) (roomCall : RoomCall) : Prop :=
  ∀ svc' invite, svc.call roomCall = .ok (svc', invite) →
    ∀ caller, roomCall.caller = some caller →
      ∃ room, svc.room = some room ∧ room.isAuthorized caller = true

/-- **The call is made by an admin who has been revoked**, and the room takes it. -/
def ByRevokedAdmin (svc : RoomService) (roomCall : RoomCall) : Prop :=
  ∃ room caller m, svc.room = some room ∧ roomCall.caller = some caller ∧
    room.findMember caller = some m ∧ m.status = .revoked ∧ m.role = .admin ∧
      roomCall.Taken room

/-- No owner has been revoked. -/
def OwnersActive (svc : RoomService) : Prop :=
  ∀ room, svc.room = some room → ∀ m ∈ room.members, m.role = .owner → m.status = .active

theorem ownersActive_step {svc svc' : RoomService} {roomCall : RoomCall} (h : svc.OwnersActive)
    (hstep : svc.step roomCall = some svc') : svc'.OwnersActive := by
  obtain rfl := Option.some_inj.1 hstep
  rcases svc.apply_cases roomCall with heq | ⟨invite, hsucceeds⟩
  · rwa [heq]
  generalize svc.apply roomCall = svc' at hsucceeds
  intro room hroom m hm howner
  cases hsucceeds with
  | createRoom c =>
      obtain rfl := Option.some_inj.1 hroom
      obtain rfl := List.mem_singleton.1 hm
      rfl
  | addMember a fresh room₀ room' k hroom₀ hk hrole hadd =>
      obtain rfl := Option.some_inj.1 hroom
      obtain ⟨-, -, rfl⟩ := Room.addMember_eq_ok.1 hadd
      rcases List.mem_append.1 hm with hm | hm
      · exact h room₀ hroom₀ m hm howner
      · obtain rfl := List.mem_singleton.1 hm
        rfl
  | revokeMember caller target fresh room₀ room' k hroom₀ hk hrole hrev =>
      obtain rfl := Option.some_inj.1 hroom
      obtain ⟨⟨m₀, hfind, hnot⟩, rfl⟩ := Room.revokeMember_eq_ok.1 hrev
      rcases Room.mem_revokeFirst hm with hm | ⟨m₁, hm₁, rfl⟩
      · exact h room₀ hroom₀ m hm howner
      · obtain rfl := Option.some_inj.1 (hfind.symm.trans hm₁)
        exact absurd howner hnot
  | generateInvite i fresh room₀ k hroom₀ hk hrole => exact h room hroom m hm howner

/-- One call: its caller is authorized, unless it is made by a revoked admin. -/
theorem empowered_iff_of_ownersActive {svc : RoomService} (h : svc.OwnersActive)
    (roomCall : RoomCall) : svc.Empowered roomCall ↔ ¬ svc.ByRevokedAdmin roomCall := by
  constructor
  · intro hempowered hrevoked
    obtain ⟨room, caller, m, hroom, hcaller, hm, hstatus, hrole, htaken⟩ := hrevoked
    obtain ⟨svc', invite, hsucceeds⟩ := (succeeds_iff_taken hcaller).2
      ⟨room, m, hroom, hm, by rw [hrole]; rfl, htaken⟩
    obtain ⟨room', hroom', hauth⟩ :=
      hempowered svc' invite (call_cases.2 hsucceeds) caller hcaller
    obtain rfl := Option.some_inj.1 (hroom.symm.trans hroom')
    obtain ⟨m', hm', hactive⟩ := (room.isAuthorized_iff caller).1 hauth
    obtain rfl := Option.some_inj.1 (hm.symm.trans hm')
    exact absurd (hstatus.symm.trans hactive) (by simp)
  · intro hnot svc' invite hcall caller hcaller
    obtain ⟨room, m, hroom, hm, hrole, htaken⟩ :=
      (succeeds_iff_taken hcaller).1 ⟨svc', invite, call_cases.1 hcall⟩
    refine ⟨room, hroom, (room.isAuthorized_iff caller).2 ⟨m, hm, ?_⟩⟩
    cases hstatus : m.status with
    | active => rfl
    | revoked =>
        have hmem : m ∈ room.members := List.mem_of_find?_eq_some hm
        refine absurd ⟨room, caller, m, hroom, hcaller, hm, hstatus, ?_, htaken⟩ hnot
        cases hm' : m.role with
        | admin => rfl
        | member => simp [hm', Role.canInvite] at hrole
        | owner => exact absurd ((h room hroom m hmem hm').symm.trans hstatus) (by simp)

/-- **When only authorized callers succeed**: every successful call of a sequence of calls on a new
service is made by an authorized caller exactly if no call that the room takes is made by an admin
who has been revoked. -/
theorem empowered_iff (calls : List RoomCall) :
    Runs.Meets step Empowered new calls ↔
      Runs.Meets step (fun svc roomCall => ¬ svc.ByRevokedAdmin roomCall) new calls := by
  refine Runs.meets_congr (fun _ _ _ h hstep => ownersActive_step h hstep)
    (fun _ roomCall h => empowered_iff_of_ownersActive h roomCall) ?_
  intro room hroom
  simp [new] at hroom

/-- The room of the tests, created by its owner. -/
def testCreation : RoomCreation where
  id := ⟨0⟩
  name := "test"
  mode := .ephemeral
  config := .default
  ownerFingerprint := HostService.testFp "AA"
  ownerIdentityKey := List.replicate 32 0
  ownerAlias := ⟨"owner"⟩
  now := 1700000000

/-- Someone adds a member in the tests. -/
def testAddition (caller suffix : String) (role : Role) : RoomCall :=
  .addMember
    { caller := HostService.testFp caller
      fingerprint := HostService.testFp suffix
      identityKey := List.replicate 32 0
      displayAlias := ⟨"user"⟩
      role := role
      now := 1700000000 } ⟨0⟩

/-- An admin is revoked, and adds a member: the call succeeds. -/
theorem revoked_admin_adds :
    ¬ Runs.Meets step Empowered new [.createRoom testCreation, testAddition "AA" "BB" .admin,
      .revokeMember (HostService.testFp "AA") (HostService.testFp "BB") ⟨0⟩,
      testAddition "BB" "CC" .member] := by
  intro h
  have hlast := (((h.2 _ rfl).2 _ rfl).2 _ rfl).1
  obtain ⟨room, hroom, hauth⟩ := hlast _ _ rfl (HostService.testFp "BB") rfl
  obtain rfl := Option.some_inj.1 hroom
  exact absurd hauth (by decide)

/-! ### Granted roles -/

/-- **The call grants no more than the role of its caller**: neither the entries that it appends to
the room nor the token that it returns. -/
def Confined (svc : RoomService) (roomCall : RoomCall) : Prop :=
  ∀ svc' invite, svc.call roomCall = .ok (svc', invite) →
    ∀ caller room m, roomCall.caller = some caller → svc.room = some room →
      room.findMember caller = some m →
        (∀ room', svc'.room = some room' →
          ∀ m' ∈ room'.members.drop room.members.length, m'.role ≤ m.role) ∧
        ∀ token, invite = some token → token.role ≤ m.role

/-- **The call is made by an admin and grants the role of an owner**, and the room takes it. -/
def GrantsOwner (svc : RoomService) (roomCall : RoomCall) : Prop :=
  ∃ room caller m, svc.room = some room ∧ roomCall.caller = some caller ∧
    room.findMember caller = some m ∧ m.role = .admin ∧ roomCall.grants = some .owner ∧
      roomCall.Taken room

theorem role_le_of_canInvite {granted held : Role} (hcan : held.canInvite = true)
    (h : held = .admin → granted ≠ .owner) : granted ≤ held := by
  cases held with
  | member => simp [Role.canInvite] at hcan
  | owner => cases granted <;> decide
  | admin =>
      cases granted with
      | member | admin => decide
      | owner => exact absurd rfl (h rfl)

/-- One call: it grants no more than its caller has, unless an admin makes an owner. -/
theorem confined_iff_of_call (svc : RoomService) (roomCall : RoomCall) :
    svc.Confined roomCall ↔ ¬ svc.GrantsOwner roomCall := by
  constructor
  · intro hconfined hgrants
    obtain ⟨room, caller, m, hroom, hcaller, hm, hadmin, howner, htaken⟩ := hgrants
    obtain ⟨svc', invite, hsucceeds⟩ := (succeeds_iff_taken hcaller).2
      ⟨room, m, hroom, hm, by rw [hadmin]; rfl, htaken⟩
    obtain ⟨hmembers, htoken⟩ :=
      hconfined svc' invite (call_cases.2 hsucceeds) caller room m hcaller hroom hm
    rw [hadmin] at hmembers htoken
    cases hsucceeds with
    | createRoom c => simp [RoomCall.caller] at hcaller
    | revokeMember _ _ _ _ _ _ _ _ _ _ => simp [RoomCall.grants] at howner
    | addMember a fresh room₀ room' k hroom₀ hk hrole hadd =>
        obtain rfl := Option.some_inj.1 (hroom.symm.trans hroom₀)
        obtain ⟨-, -, rfl⟩ := Room.addMember_eq_ok.1 hadd
        have hle := hmembers _ rfl a.member (by simp)
        have hrole : a.member.role = .owner := Option.some_inj.1 howner
        rw [hrole] at hle
        exact absurd hle (by decide)
    | generateInvite i fresh room₀ k hroom₀ hk hrole =>
        have hle := htoken _ rfl
        have hrole : (i.token room₀.id).role = .owner := Option.some_inj.1 howner
        rw [hrole] at hle
        exact absurd hle (by decide)
  · intro hnot svc' invite hcall caller room m hcaller hroom hm
    obtain ⟨room₀, m₀, hroom₀, hm₀, hcan, htaken⟩ :=
      (succeeds_iff_taken hcaller).1 ⟨svc', invite, call_cases.1 hcall⟩
    obtain rfl := Option.some_inj.1 (hroom.symm.trans hroom₀)
    obtain rfl := Option.some_inj.1 (hm.symm.trans hm₀)
    have hle : ∀ granted, roomCall.grants = some granted → granted ≤ m.role := by
      intro granted hgrants
      refine role_le_of_canInvite hcan fun hadmin howner => hnot ?_
      exact ⟨room, caller, m, hroom, hcaller, hm, hadmin, howner ▸ hgrants, htaken⟩
    cases call_cases.1 hcall with
    | createRoom c => simp [RoomCall.caller] at hcaller
    | addMember a fresh room₁ room' k hroom₁ hk hrole hadd =>
        obtain rfl := Option.some_inj.1 (hroom.symm.trans hroom₁)
        obtain ⟨-, -, rfl⟩ := Room.addMember_eq_ok.1 hadd
        refine ⟨fun room' hroom' m' hm' => ?_, fun token htoken => by simp at htoken⟩
        obtain rfl := Option.some_inj.1 hroom'
        rw [List.drop_left] at hm'
        obtain rfl := List.mem_singleton.1 hm'
        exact hle a.role rfl
    | revokeMember c target fresh room₁ room' k hroom₁ hk hrole hrev =>
        obtain rfl := Option.some_inj.1 (hroom.symm.trans hroom₁)
        obtain ⟨-, rfl⟩ := Room.revokeMember_eq_ok.1 hrev
        refine ⟨fun room' hroom' m' hm' => ?_, fun token htoken => by simp at htoken⟩
        obtain rfl := Option.some_inj.1 hroom'
        have hlength := congrArg List.length (Room.map_fingerprint_revokeFirst target room.members)
        rw [List.length_map, List.length_map] at hlength
        rw [List.drop_of_length_le (le_of_eq hlength)] at hm'
        simp at hm'
    | generateInvite i fresh room₁ k hroom₁ hk hrole =>
        refine ⟨fun room' hroom' m' hm' => ?_, fun token htoken => ?_⟩
        · obtain rfl := Option.some_inj.1 (hroom.symm.trans hroom')
          rw [List.drop_length] at hm'
          simp at hm'
        · obtain rfl := Option.some_inj.1 htoken
          exact hle i.role rfl

/-- **The member has been put into the room by an owner**: it founds the room, or a caller whose role
is that of an owner has added it. -/
inductive IntroducedByOwner (calls : List RoomCall) : Member → Prop
  | founded (c : RoomCreation) (hmem : .createRoom c ∈ calls) : IntroducedByOwner calls c.owner
  | added (pre post : List RoomCall) (a : Addition) (fresh : RoomId) (svc : RoomService)
      (room : Room) (k : Member) (hcalls : calls = pre ++ .addMember a fresh :: post)
      (hrun : Runs.run step new pre = some svc) (hroom : svc.room = some room)
      (hk : room.findMember a.caller = some k) (howner : k.role = .owner) :
      IntroducedByOwner calls a.member

theorem IntroducedByOwner.append {calls : List RoomCall} {m : Member}
    (h : IntroducedByOwner calls m) (later : List RoomCall) :
    IntroducedByOwner (calls ++ later) m := by
  cases h with
  | founded c hmem => exact .founded c (List.mem_append_left later hmem)
  | added pre post a fresh svc room k hcalls hrun hroom hk howner =>
      refine .added pre (post ++ later) a fresh svc room k ?_ hrun hroom hk howner
      rw [hcalls, List.append_assoc, List.cons_append]

/-- **No privilege escalation**: no call grants more than the role of its caller, and every member
that is an owner in a state of the sequence has been put into the room by an owner. -/
def NoEscalation (calls : List RoomCall) : Prop :=
  Runs.Meets step Confined new calls ∧
    ∀ pre svc room m, pre <+: calls → Runs.run step new pre = some svc → svc.room = some room →
      m ∈ room.members → m.role = .owner → IntroducedByOwner pre m

/-- The calls so far have led to the service, and its owners have been put there by owners. -/
def OwnersIntroduced (calls : List RoomCall) (svc : RoomService) : Prop :=
  Runs.run step new calls = some svc ∧
    ∀ room, svc.room = some room → ∀ m ∈ room.members, m.role = .owner →
      IntroducedByOwner calls m

theorem ownersIntroduced_step {calls : List RoomCall} {svc svc' : RoomService}
    {roomCall : RoomCall} (h : OwnersIntroduced calls svc) (hconfined : svc.Confined roomCall)
    (hstep : svc.step roomCall = some svc') : OwnersIntroduced (calls ++ [roomCall]) svc' := by
  have hrun : Runs.run step new (calls ++ [roomCall]) = some svc' :=
    Runs.run_append_eq_some.2 ⟨svc, h.1, Runs.run_cons_eq_some.2 ⟨svc', hstep, rfl⟩⟩
  refine ⟨hrun, ?_⟩
  obtain rfl := Option.some_inj.1 hstep
  rcases svc.apply_cases roomCall with heq | ⟨invite, hsucceeds⟩
  · rw [heq]
    intro room hroom m hm howner
    exact (h.2 room hroom m hm howner).append _
  generalize svc.apply roomCall = svc' at hsucceeds
  intro room hroom m hm howner
  have hcall := call_cases.2 hsucceeds
  cases hsucceeds with
  | createRoom c =>
      obtain rfl := Option.some_inj.1 hroom
      obtain rfl := List.mem_singleton.1 hm
      exact .founded c (by simp)
  | addMember a fresh room₀ room' k hroom₀ hk hrole hadd =>
      obtain rfl := Option.some_inj.1 hroom
      have hle := (hconfined _ _ hcall a.caller room₀ k rfl hroom₀ hk).1 _ rfl
      obtain ⟨-, -, rfl⟩ := Room.addMember_eq_ok.1 hadd
      rcases List.mem_append.1 hm with hm | hm
      · exact (h.2 room₀ hroom₀ m hm howner).append _
      · obtain rfl := List.mem_singleton.1 hm
        refine .added calls [] a fresh svc room₀ k rfl h.1 hroom₀ hk ?_
        have hle' := hle a.member (by simp)
        rw [howner] at hle'
        cases hk' : k.role with
        | owner => rfl
        | admin | member =>
            rw [hk'] at hle'
            exact absurd hle' (by decide)
  | revokeMember caller target fresh room₀ room' k hroom₀ hk hrole hrev =>
      obtain rfl := Option.some_inj.1 hroom
      obtain ⟨⟨m₀, hfind, hnot⟩, rfl⟩ := Room.revokeMember_eq_ok.1 hrev
      rcases Room.mem_revokeFirst hm with hm | ⟨m₁, hm₁, rfl⟩
      · exact (h.2 room₀ hroom₀ m hm howner).append _
      · obtain rfl := Option.some_inj.1 (hfind.symm.trans hm₁)
        exact absurd howner hnot
  | generateInvite i fresh room₀ k hroom₀ hk hrole =>
      exact (h.2 room hroom m hm howner).append _

/-- If no call grants more than its caller has, every owner has been put there by an owner. -/
theorem owners_introduced {calls : List RoomCall} {svc : RoomService}
    (hmeets : Runs.Meets step Confined new calls) (hrun : Runs.run step new calls = some svc) :
    OwnersIntroduced calls svc := by
  refine Runs.history_induction (fun pre t roomCall t' post hcalls hstep _ hpre => ?_) ?_ hrun
  · rw [hcalls] at hmeets
    exact ownersIntroduced_step hpre ((Runs.meets_append.1 hmeets).2 t hpre.1).1 hstep
  · refine ⟨rfl, fun room hroom => ?_⟩
    simp [new] at hroom

/-- **When there is no privilege escalation**: exactly if no call that the room takes is made by an
admin and grants the role of an owner. -/
theorem confined_iff (calls : List RoomCall) :
    NoEscalation calls ↔
      Runs.Meets step (fun svc roomCall => ¬ svc.GrantsOwner roomCall) new calls := by
  have hiff : Runs.Meets step Confined new calls ↔
      Runs.Meets step (fun svc roomCall => ¬ svc.GrantsOwner roomCall) new calls := by
    have hinv : ∀ svc : RoomService, (fun _ => True) svc := fun _ => trivial
    exact Runs.meets_congr (fun _ _ svc' _ _ => hinv svc')
      (fun svc roomCall _ => svc.confined_iff_of_call roomCall) (hinv new)
  constructor
  · intro h
    exact hiff.1 h.1
  · intro h
    refine ⟨hiff.2 h, fun pre svc room m hpre hrun hroom hm howner => ?_⟩
    obtain ⟨post, hcalls⟩ := hpre
    have hmeets := hiff.2 h
    rw [← hcalls] at hmeets
    exact (owners_introduced (Runs.meets_append.1 hmeets).1 hrun).2 room hroom m hm howner

/-- An admin adds an owner. -/
theorem admin_adds_owner :
    ¬ NoEscalation [.createRoom testCreation, testAddition "AA" "BB" .admin,
      testAddition "BB" "CC" .owner] := by
  intro h
  have hlast := ((h.1.2 _ rfl).2 _ rfl).1
  have hrole := (hlast _ _ rfl (HostService.testFp "BB") _ _ rfl rfl rfl).1 _ rfl _
    List.mem_cons_self
  exact absurd hrole (by decide)

/-! ### The founding owner and the capacity -/

/-- **The room has its founding owner first, and is not overfull.** -/
def Founded (c : RoomCreation) (svc : RoomService) : Prop :=
  ∃ room, svc.room = some room ∧ room.config = c.config.validate ∧
    room.members.head? = some c.owner ∧ room.activeMemberCount ≤ room.config.maxMembers.toNat

theorem founded_createRoom (svc : RoomService) (c : RoomCreation) :
    Founded c (svc.createRoom c) := by
  refine ⟨_, rfl, rfl, rfl, ?_⟩
  have hcount : (Room.new c.id c.name c.mode c.config.validate c.owner).activeMemberCount = 1 := rfl
  rw [hcount]
  -- the configuration is clamped to at least two members
  have hclamp : 2 ≤ (clamp c.config.maxMembers 2 50).toNat := by
    unfold clamp
    split
    · decide
    · next hnot =>
        split
        · decide
        · exact UInt16.le_iff_toNat_le.1 (UInt16.not_lt.1 hnot)
  exact le_trans (by decide) hclamp

theorem founded_step {c : RoomCreation} {svc svc' : RoomService} {roomCall : RoomCall}
    (h : Founded c svc) (hnot : ∀ c', roomCall ≠ .createRoom c')
    (hstep : svc.step roomCall = some svc') : Founded c svc' := by
  obtain rfl := Option.some_inj.1 hstep
  rcases svc.apply_cases roomCall with heq | ⟨invite, hsucceeds⟩
  · rwa [heq]
  generalize svc.apply roomCall = svc' at hsucceeds
  obtain ⟨room, hroom, hconfig, hhead, hcount⟩ := h
  cases hsucceeds with
  | createRoom c' => exact absurd rfl (hnot c')
  | addMember a fresh room₀ room' k hroom₀ hk hrole hadd =>
      obtain rfl := Option.some_inj.1 (hroom.symm.trans hroom₀)
      obtain ⟨hfull, -, rfl⟩ := Room.addMember_eq_ok.1 hadd
      refine ⟨_, rfl, hconfig, ?_, ?_⟩
      · rw [List.head?_append, hhead]
        rfl
      · have hspace : room.activeMemberCount < room.config.maxMembers.toNat := by
          simpa [Room.isFull] using hfull
        change ((room.members ++ [a.member]).filter Member.isActive).length ≤
          room.config.maxMembers.toNat
        unfold Room.activeMemberCount at hspace
        rw [List.filter_append, List.length_append]
        have hone := List.length_filter_le Member.isActive [a.member]
        rw [List.length_singleton] at hone
        omega
  | revokeMember caller target fresh room₀ room' k hroom₀ hk hrole hrev =>
      obtain rfl := Option.some_inj.1 (hroom.symm.trans hroom₀)
      obtain ⟨⟨m₀, hfind, howner⟩, rfl⟩ := Room.revokeMember_eq_ok.1 hrev
      refine ⟨_, rfl, hconfig, ?_, ?_⟩
      · exact Room.head?_revokeFirst hhead hfind fun heq => howner (heq ▸ rfl)
      · have hle := (Room.activeEntries_revokeFirst target room.members).length_le
        rw [List.length_map, List.length_map] at hle
        exact hle.trans hcount
  | generateInvite i fresh room₀ k hroom₀ hk hrole => exact ⟨room, hroom, hconfig, hhead, hcount⟩

/-- Nobody revokes the founding owner. -/
theorem Founded.revokeMember_owner {c : RoomCreation} {svc : RoomService} (h : Founded c svc)
    (caller : Fingerprint) (fresh : RoomId) :
    ∃ e, svc.revokeMember caller c.ownerFingerprint fresh = .error e := by
  cases hrev : svc.revokeMember caller c.ownerFingerprint fresh with
  | error e => exact ⟨e, rfl⟩
  | ok svc' =>
      obtain ⟨room, hroom, -, hhead, -⟩ := h
      obtain ⟨room₀, k, room', hroom₀, hk, hrole, hrev', hsvc⟩ := revokeMember_eq_ok.1 hrev
      obtain rfl := Option.some_inj.1 (hroom.symm.trans hroom₀)
      obtain ⟨⟨m, hfind, howner⟩, -⟩ := Room.revokeMember_eq_ok.1 hrev'
      have hfirst := Room.findMember_of_head? hhead
      obtain rfl := Option.some_inj.1 (hfind.symm.trans hfirst)
      exact absurd rfl howner

/-- **The founding owner stays, and the room is never overfull**: after any sequence of calls that
creates no other room, the first entry of the room is the founding owner, active and with the role of
an owner, nobody can revoke it, and there are at most as many active members as the configuration
allows. -/
theorem owner_and_capacity {svc svc' : RoomService} {c : RoomCreation} {calls : List RoomCall}
    (hcalls : ∀ roomCall ∈ calls, ∀ c', roomCall ≠ .createRoom c')
    (hrun : Runs.run step svc (.createRoom c :: calls) = some svc') :
    ∃ room, svc'.room = some room ∧ room.config = c.config.validate ∧
      room.members.head? = some c.owner ∧
      (∃ m ∈ room.members, m.isActive = true ∧ m.role = .owner) ∧
      (∀ caller fresh, ∃ e, svc'.revokeMember caller c.ownerFingerprint fresh = .error e) ∧
      room.activeMemberCount ≤ room.config.maxMembers.toNat := by
  obtain ⟨start, hstart, hrest⟩ := Runs.run_cons_eq_some.1 hrun
  obtain rfl := Option.some_inj.1 hstart
  have hfounded : Founded c svc' := Runs.meets_induction
    (fun _ _ _ h hnot hstep => founded_step h hnot hstep) (svc.founded_createRoom c)
    (Runs.meets_of_forall fun roomCall hmem _ => hcalls roomCall hmem) hrest
  have hrevoke := hfounded.revokeMember_owner
  obtain ⟨room, hroom, hconfig, hhead, hcount⟩ := hfounded
  have hmem : c.owner ∈ room.members := List.mem_of_mem_head? hhead
  exact ⟨room, hroom, hconfig, hhead, ⟨c.owner, hmem, rfl, rfl⟩, hrevoke, hcount⟩

/-- The owner adds a member, revokes it, tries to have itself revoked by it, and adds it again. -/
theorem owner_and_capacity_readded : ∃ svc' room,
    Runs.run step new [.createRoom testCreation, testAddition "AA" "BB" .admin,
        .revokeMember (HostService.testFp "AA") (HostService.testFp "BB") ⟨0⟩,
        .revokeMember (HostService.testFp "BB") (HostService.testFp "AA") ⟨0⟩,
        testAddition "AA" "BB" .admin] = some svc' ∧
      svc'.room = some room ∧ room.config = testCreation.config.validate ∧
      room.members.head? = some testCreation.owner ∧
      (∃ m ∈ room.members, m.isActive = true ∧ m.role = .owner) ∧
      (∀ caller fresh, ∃ e,
        svc'.revokeMember caller testCreation.ownerFingerprint fresh = .error e) ∧
      room.activeMemberCount ≤ room.config.maxMembers.toNat := by
  obtain ⟨svc', hrun⟩ := Runs.exists_run exists_step
    [.createRoom testCreation, testAddition "AA" "BB" .admin,
      .revokeMember (HostService.testFp "AA") (HostService.testFp "BB") ⟨0⟩,
      .revokeMember (HostService.testFp "BB") (HostService.testFp "AA") ⟨0⟩,
      testAddition "AA" "BB" .admin] new
  obtain ⟨room, hroom⟩ := owner_and_capacity (by simp [testAddition]) hrun
  exact ⟨svc', room, hrun, hroom⟩

end RoomService

end Sanctum
