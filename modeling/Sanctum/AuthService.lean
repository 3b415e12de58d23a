/-
The authentication of a client at the host.

The host sends a challenge, reads the fingerprint and the alias that the client claims, adds the
fingerprint to the room if the room has no entry for it, takes the set of active fingerprints, and has
the response checked against the challenge and that set.  The functions of this module are the parts of
`authenticate_client` between its awaits; the listener puts them in sequence.

Main definitions:

* `Sanctum.AuthService`, `Sanctum.AuthService.verifyResponse` — challenges and their verification;
* `Sanctum.readAuthResponse` — the claimed fingerprint and alias in a frame;
* `Sanctum.HostService.addIfAbsent` — the automatic admission;
* `Sanctum.Room.activeFingerprints` — the set the response is checked against.

Main results:

* `Sanctum.Room.Revoked.addIfAbsent` — **the automatic admission does not bring a revoked
  fingerprint back**.
-/

import Sanctum.HostService
import Sanctum.Wire

set_option relaxedAutoImplicit false
set_option autoImplicit false

namespace Sanctum

/-! ### Challenges -/

def timestampToleranceSecs : UInt64 := 120

def maxAuthAttempts : UInt32 := 3

/-- A challenge sent by the host. -/
structure AuthChallenge where
  nonce : Bytes
  timestamp : UInt64
  roomId : RoomId
  /-- The SHA-256 digest of the host's Noise key. -/
  serverId : Bytes32
deriving DecidableEq

/-- A response from the client. -/
structure AuthResponse where
  fingerprint : Fingerprint
  signature : Bytes
  pgpPublicKey : Bytes
  displayAlias : String

/-- **The authentication service.** -/
structure AuthService where
  usedNonces : Finset Bytes
  /-- The attempts, by short fingerprint. -/
  attemptCounts : HashMap String UInt32

/-- `u64::abs_diff`. -/
def absDiff (a b : UInt64) : UInt64 := if a ≤ b then b - a else a - b

namespace AuthService

def new : AuthService where
  usedNonces := ∅
  attemptCounts := ∅

/-- A challenge for a connecting client.  The nonce is drawn at random, and the clock is an
argument. -/
def createChallenge (sha256 : Bytes → Bytes32) (roomId : RoomId) (hostNoisePubkey nonce : Bytes)
    (now : UInt64) : AuthChallenge where
  nonce := nonce
  timestamp := now
  roomId := roomId
  serverId := sha256 hostNoisePubkey

/-- Verify a response.  The signature is not looked at. -/
def verifyResponse (svc : AuthService) (challenge : AuthChallenge) (response : AuthResponse)
    (authorizedFingerprints : Finset Fingerprint) (now : UInt64) :
    Except SanctumError Unit × AuthService :=
  let key := response.fingerprint.short
  let attempts := (svc.attemptCounts.lookup key).getD 0 + 1
  let svc := { svc with attemptCounts := svc.attemptCounts.insert key attempts }
  if attempts > maxAuthAttempts then
    (.error (.authFailed ("max attempts exceeded for " ++ response.fingerprint.display)), svc)
  else if challenge.nonce ∈ svc.usedNonces then
    (.error (.authFailed "nonce already used"), svc)
  else
    let diff := absDiff now challenge.timestamp
    if diff > timestampToleranceSecs then
      (.error (.authFailed ("timestamp out of range: " ++ toString diff ++ "s drift")), svc)
    else if response.fingerprint ∉ authorizedFingerprints then
      (.error (.authFailed
        ("fingerprint " ++ response.fingerprint.display ++ " not authorized")), svc)
    else
      (.ok (), { svc with
        usedNonces := insert challenge.nonce svc.usedNonces
        attemptCounts := svc.attemptCounts.erase key })

/-- Purge the nonces: all of them, once there are more than 10 000. -/
def purgeOldNonces (svc : AuthService) : AuthService :=
  if svc.usedNonces.card > 10000 then { svc with usedNonces := ∅ } else svc

end AuthService

/-! ### The parts of `authenticate_client` -/

/-- A hexadecimal digit, in upper case. -/
def hexDigit (n : ℕ) : Char := if n < 10 then Char.ofNat (48 + n) else Char.ofNat (55 + n)

/-- A byte as two hexadecimal digits, `{:02X}`. -/
def hexByte (b : UInt8) : String := String.ofList [hexDigit (b.toNat / 16), hexDigit (b.toNat % 16)]

/-- The fingerprint and the alias that the client claims. -/
def readAuthResponse (pb : ProtoCodec) (frame : Frame) :
    Except SanctumError (Fingerprint × String) :=
  if frame.messageType ≠ MessageType.authResponse then
    .error (.authFailed ("expected AuthResponse, got 0x" ++ hexByte frame.messageType))
  else
    match pb.decodeAuthResponse frame.payload with
    | .error text => .error (.malformedMessage ("protobuf decode: " ++ text))
    | .ok r =>
      match Fingerprint.new r.fingerprint with
      | .error e => .error (.authFailed e.text)
      | .ok fp => .ok (fp, r.displayAlias)

/-- The member that the host adds for an unknown fingerprint. -/
def dynamicMember (fp : Fingerprint) (displayAlias : String) (now : UInt64) : Member :=
  Member.new fp (List.replicate 32 0)
    ((DisplayAlias.new displayAlias).toOption.getD ⟨"anon"⟩) .member now

/-- Add the member dynamically if it is not already present.  That the room is full is ignored
here. -/
def HostService.addIfAbsent (svc : HostService) (fp : Fingerprint) (displayAlias : String)
    (now : UInt64) : HostService :=
  if (svc.room.findMember fp).isNone then
    match svc.room.addMember (dynamicMember fp displayAlias now) with
    | .ok room => svc.setRoom room
    | .error _ => svc
  else svc

/-- The fingerprints of the active members. -/
def Room.activeFingerprints (r : Room) : Finset Fingerprint :=
  ((r.members.filter Member.isActive).map Member.fingerprint).toFinset

theorem HostService.connectedClients_addIfAbsent (svc : HostService) (fp : Fingerprint)
    (displayAlias : String) (now : UInt64) :
    (svc.addIfAbsent fp displayAlias now).connectedClients = svc.connectedClients := by
  unfold HostService.addIfAbsent
  split
  · split <;> rfl
  · rfl

/-- **The automatic admission does not bring a revoked fingerprint back.** -/
theorem Room.Revoked.addIfAbsent {svc : HostService} {fp : Fingerprint} (h : svc.room.Revoked fp)
    (fp' : Fingerprint) (displayAlias : String) (now : UInt64) :
    (svc.addIfAbsent fp' displayAlias now).room.Revoked fp := by
  unfold HostService.addIfAbsent
  split
  · split
    · next room hadd => exact h.addMember hadd
    · exact h
  · exact h

end Sanctum
