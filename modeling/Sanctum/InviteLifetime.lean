/-
How long an invite is valid.

The host adds the lifetime that the user asks for to the clock, and the invitee compares the sum with
his own clock.  Both validators make the same two tests, in different orders.  A sum that is too large
for 64 bits stops a program with overflow checks, and wraps around to a time long past in one without.

Main definitions:

* `Sanctum.RoomService.validateInvite` — the validator of the service;
* `Sanctum.RoomService.generateInviteChecked` — `generate_invite`, in a build with overflow checks or
  without;
* `Sanctum.Invitation.LivesAsLong` — **a token is valid for its lifetime, and for its invitee**.

Main results:

* `Sanctum.accepts_iff`, `Sanctum.refuses_iff` — what the validators decide;
* `Sanctum.RoomService.lifetime_iff` — **when an invite lives as long as it is to live**.
-/

import Sanctum.Join

set_option relaxedAutoImplicit false
set_option autoImplicit false

namespace Sanctum

namespace RoomService

/-! ### The operations -/

/-- Validate an incoming invite token.  The clock is an argument; the room is not looked at. -/
def validateInvite (_ : RoomService) (token : InviteToken) (localFingerprint : Fingerprint)
    (now : UInt64) : Except SanctumError Unit :=
  if !token.isFor localFingerprint then
    .error (.invalidInviteToken "token is not for this fingerprint")
  else if token.isExpired now then .error .inviteTokenExpired
  else .ok ()

/-- `generate_invite`, with overflow checks or without them: `none` where the sum stops the program. -/
def generateInviteChecked (checks : Bool) (svc : RoomService) (i : Invitation) (fresh : RoomId) :
    Option (Except SanctumError InviteToken) :=
  match svc.roomMut fresh with
  | .error e => some (.error e)
  | .ok room =>
    match checkPermissions room i.inviter Role.canInvite with
    | .error e => some (.error e)
    | .ok () =>
      if checks ∧ 2 ^ 64 ≤ i.now.toNat + i.ttlSecs.toNat then none else some (.ok (i.token room.id))

/-- Without an overflow it is `generate_invite`. -/
theorem generateInviteChecked_eq {checks : Bool} {svc : RoomService} {i : Invitation} {fresh : RoomId}
    (h : ¬ (checks ∧ 2 ^ 64 ≤ i.now.toNat + i.ttlSecs.toNat)) :
    svc.generateInviteChecked checks i fresh = some (svc.generateInvite i fresh) := by
  unfold generateInviteChecked generateInvite
  cases svc.roomMut fresh with
  | error e => rfl
  | ok room =>
      dsimp only
      cases hcan : checkPermissions room i.inviter Role.canInvite with
      | error e =>
          show _ = some (Except.bind (checkPermissions _ _ _) _)
          rw [hcan]
          rfl
      | ok u =>
          show _ = some (Except.bind (checkPermissions _ _ _) _)
          rw [hcan]
          exact if_neg h

end RoomService

/-! ### The validators -/

/-- Both validators accept. -/
def Accepts (svc : RoomService) (token : InviteToken) (fp : Fingerprint) (now : UInt64) : Prop :=
  svc.validateInvite token fp now = .ok () ∧ InviteCodec.validateInvite token fp now = .ok ()

/-- Both validators refuse. -/
def Refuses (svc : RoomService) (token : InviteToken) (fp : Fingerprint) (now : UInt64) : Prop :=
  (∃ e, svc.validateInvite token fp now = .error e) ∧
    ∃ e, InviteCodec.validateInvite token fp now = .error e

variable {svc : RoomService} {token : InviteToken} {fp : Fingerprint} {now : UInt64}

theorem RoomService.validateInvite_eq_ok_iff : svc.validateInvite token fp now = .ok () ↔
    token.invitedFingerprint = fp ∧ now ≤ token.expiresAt := by
  unfold validateInvite InviteToken.isFor InviteToken.isExpired
  by_cases hfor : token.invitedFingerprint = fp <;> by_cases hexp : token.expiresAt < now <;>
    simp [hfor, hexp, ← UInt64.not_lt]

theorem InviteCodec.validateInvite_eq_ok_iff : InviteCodec.validateInvite token fp now = .ok () ↔
    token.invitedFingerprint = fp ∧ now ≤ token.expiresAt := by
  unfold validateInvite InviteToken.isFor InviteToken.isExpired
  by_cases hfor : token.invitedFingerprint = fp <;> by_cases hexp : token.expiresAt < now <;>
    simp [hfor, hexp, ← UInt64.not_lt]

theorem accepts_iff :
    Accepts svc token fp now ↔ token.invitedFingerprint = fp ∧ now ≤ token.expiresAt := by
  rw [Accepts, RoomService.validateInvite_eq_ok_iff, InviteCodec.validateInvite_eq_ok_iff, and_self]

/-- What is not accepted is refused with an error. -/
theorem exists_error_iff {ε : Type} {x : Except ε Unit} : (∃ e, x = .error e) ↔ x ≠ .ok () := by
  cases x <;> simp

theorem refuses_iff :
    Refuses svc token fp now ↔ ¬ (token.invitedFingerprint = fp ∧ now ≤ token.expiresAt) := by
  rw [Refuses, exists_error_iff, exists_error_iff, Ne, Ne, RoomService.validateInvite_eq_ok_iff,
    InviteCodec.validateInvite_eq_ok_iff, and_self]

/-! ### The lifetime -/

/-- **A token is valid for its lifetime, and for its invitee.** -/
structure Invitation.LivesAsLong (i : Invitation) (token : InviteToken) : Prop where
  accepted : ∀ svc now, i.now ≤ now → now.toNat ≤ i.now.toNat + i.ttlSecs.toNat →
    Accepts svc token i.invited now
  late : ∀ svc now, i.now.toNat + i.ttlSecs.toNat < now.toNat → Refuses svc token i.invited now
  others : ∀ svc fp now, fp ≠ i.invited → Refuses svc token fp now

/-- The token lives as long as it is to live exactly if its lifetime ends within 64 bits. -/
theorem Invitation.livesAsLong_token_iff (i : Invitation) (roomId : RoomId) :
    i.LivesAsLong (i.token roomId) ↔ i.now.toNat + i.ttlSecs.toNat < 2 ^ 64 := by
  have hsum : (i.token roomId).expiresAt.toNat = (i.now.toNat + i.ttlSecs.toNat) % 2 ^ 64 :=
    UInt64.toNat_add i.now i.ttlSecs
  have hnow := i.now.toNat_lt
  have httl := i.ttlSecs.toNat_lt
  constructor
  · intro h
    by_contra hlarge
    have hfirst := (accepts_iff.1 (h.accepted .new i.now (UInt64.le_refl _) (Nat.le_add_right _ _))).2
    rw [UInt64.le_iff_toNat_le, hsum] at hfirst
    omega
  · intro hsmall
    rw [Nat.mod_eq_of_lt hsmall] at hsum
    refine ⟨fun svc now _ hle => ?_, fun svc now hlt => ?_, fun svc fp now hne => ?_⟩
    · exact accepts_iff.2 ⟨rfl, UInt64.le_iff_toNat_le.2 (hsum.symm ▸ hle)⟩
    · rw [refuses_iff, UInt64.le_iff_toNat_le, hsum]
      exact fun h => absurd h.2 (Nat.not_le.2 hlt)
    · exact refuses_iff.2 fun h => hne h.1.symm

namespace RoomService

/-- An invite is generated, and lives as long as it is to live. -/
def KeepsLifetime (checks : Bool) (svc : RoomService) (i : Invitation) (fresh : RoomId) : Prop :=
  ∃ token, svc.generateInviteChecked checks i fresh = some (.ok token) ∧ i.LivesAsLong token

/-- **When an invite of a permitted inviter lives as long as it is to live.** -/
theorem lifetime_iff (checks : Bool) {svc : RoomService} {i : Invitation} {room : Room} {m : Member}
    (hroom : svc.room = some room) (hm : room.findMember i.inviter = some m)
    (hcan : m.role.canInvite = true) (fresh : RoomId) :
    (svc.KeepsLifetime checks i fresh ∧ ∀ svc' token fp now,
        RoomService.validateInvite svc' token fp now = .ok () ↔
          InviteCodec.validateInvite token fp now = .ok ()) ↔
      i.now.toNat + i.ttlSecs.toNat < 2 ^ 64 := by
  have hagree : ∀ svc' token fp now, RoomService.validateInvite svc' token fp now = .ok () ↔
      InviteCodec.validateInvite token fp now = .ok () := fun svc' token fp now =>
    validateInvite_eq_ok_iff.trans InviteCodec.validateInvite_eq_ok_iff.symm
  have hpermitted := checkPermissions_eq_ok.2 ⟨m, hm, hcan⟩
  have hgenerate : svc.generateInviteChecked checks i fresh =
      if checks ∧ 2 ^ 64 ≤ i.now.toNat + i.ttlSecs.toNat then none
      else some (.ok (i.token room.id)) := by
    simp only [generateInviteChecked, roomMut, hroom, hpermitted]
  rw [and_iff_left hagree]
  constructor
  · rintro ⟨token, htoken, hlives⟩
    rw [hgenerate] at htoken
    split_ifs at htoken
    obtain rfl := Except.ok.inj (Option.some_inj.1 htoken)
    exact (i.livesAsLong_token_iff room.id).1 hlives
  · intro hsmall
    rw [if_neg fun h => absurd h.2 (Nat.not_le.2 hsmall)] at hgenerate
    exact ⟨i.token room.id, hgenerate, (i.livesAsLong_token_iff room.id).2 hsmall⟩

/-- An invite of the owner, with this lifetime. -/
def testInvitation (ttlSecs : UInt64) : Invitation where
  inviter := HostService.testFp "AA"
  invited := HostService.testFp "BB"
  role := .member
  onionAddress := "localhost"
  port := 9738
  hostNoisePubkey := []
  ttlSecs := ttlSecs
  now := 1700000000

/-- The invite with the longest lifetime has expired when it is made, or is not made. -/
theorem longest_invite_expired :
    ¬ (new.createRoom testCreation).KeepsLifetime false (testInvitation 18446744073709551615) ⟨0⟩ ∧
      ¬ (new.createRoom testCreation).KeepsLifetime true (testInvitation 18446744073709551615) ⟨0⟩ ∧
      new.validateInvite ((testInvitation 18446744073709551615).token ⟨1⟩) (HostService.testFp "BB")
        1700000000 = .error .inviteTokenExpired := by
  refine ⟨?_, ?_, by decide⟩
  · rintro ⟨token, htoken, hlives⟩
    obtain rfl := Except.ok.inj (Option.some_inj.1 htoken)
    exact absurd ((Invitation.livesAsLong_token_iff _ _).1 hlives) (by decide)
  · rintro ⟨token, htoken, -⟩
    cases htoken

/-- An invite for one hour. -/
theorem lifetime_of_hour :
    (new.createRoom testCreation).KeepsLifetime true (testInvitation 3600) ⟨0⟩ ∧
      ∀ svc' token fp now, RoomService.validateInvite svc' token fp now = .ok () ↔
        InviteCodec.validateInvite token fp now = .ok () :=
  (lifetime_iff true (i := testInvitation 3600) (m := testCreation.owner) rfl rfl rfl ⟨0⟩).2 (by decide)

end RoomService

end Sanctum
