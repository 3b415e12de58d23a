/-
The end-to-end session between two peers: X3DH for the first secret, the Double Ratchet from then
on.

Main definitions:

* `Sanctum.PeerPrivateKeys`, `Sanctum.PeerPublicKeys` — the keys of a peer;
* `Sanctum.InitialMessage` — what the initiator sends;
* `Sanctum.E2eSession` — an established session, with `Sanctum.E2eSession.initiate` and
  `Sanctum.E2eSession.respond`, `Sanctum.E2eSession.encrypt` and `Sanctum.E2eSession.decrypt`.

Main results:

* `Sanctum.E2eSession.initiate_eq`, `Sanctum.E2eSession.respond_eq` — the two initial sessions;
* `Sanctum.E2eSession.respond_initiate` — **both peers start from one shared secret**.
-/

import Sanctum.RatchetSpec
import Sanctum.X3dh

set_option relaxedAutoImplicit false
set_option autoImplicit false

namespace Sanctum

variable {Sec Grp Key Nonce Plain Cipher : Type}

/-- The initial message sent from Alice to Bob to establish a session. -/
structure InitialMessage (Grp : Type) where
  aliceIdentityPub : Grp
  aliceEphemeralPub : Grp
  /-- The index of the one-time pre-key Alice used, if there was one. -/
  opkIndex : Option UInt32
  ciphertext : Bytes
  header : Option (Header Grp)
deriving DecidableEq

/-- The keys that a peer publishes for others to initiate X3DH. -/
structure PeerPublicKeys (Grp : Type) where
  identityPub : Grp
  signedPrekeyPub : Grp
  oneTimePrekeys : List Grp

/-- The keys that a peer keeps private. -/
structure PeerPrivateKeys (P : Primitives Sec Grp Key Nonce Plain Cipher) where
  identity : X25519Keypair P
  signedPrekey : X25519Keypair P
  oneTimePrekeys : List (X25519Keypair P)

/-- The public keys of a peer. -/
def PeerPrivateKeys.publicKeys {P : Primitives Sec Grp Key Nonce Plain Cipher}
    (keys : PeerPrivateKeys P) : PeerPublicKeys Grp where
  identityPub := keys.identity.publicKey
  signedPrekeyPub := keys.signedPrekey.publicKey
  oneTimePrekeys := keys.oneTimePrekeys.map X25519Keypair.publicKey

/-- **An established session with one peer.** -/
structure E2eSession (Sec Grp Key : Type) where
  ratchet : RatchetState Sec Grp Key
  peerIdentityPub : Grp

namespace E2eSession

variable {P : Primitives Sec Grp Key Nonce Plain Cipher}

/-- Alice initiates a session with Bob; `rng` is her ephemeral secret and `rng'` the secret of her
first ratchet key. -/
def initiate (aliceKeys : PeerPrivateKeys P) (bobPublic : PeerPublicKeys Grp) (rng rng' : Sec) :
    Except SanctumError (E2eSession Sec Grp Key × InitialMessage Grp) := do
  let opk := bobPublic.oneTimePrekeys.head?
  let opkIndex : Option UInt32 := if opk.isSome then some 0 else none
  let x3dhResult ← P.x3dhInitiate aliceKeys.identity bobPublic.identityPub
    bobPublic.signedPrekeyPub opk rng
  let ratchet ← P.initAlice x3dhResult.sharedSecret bobPublic.signedPrekeyPub rng'
  pure (
    { ratchet := ratchet, peerIdentityPub := bobPublic.identityPub },
    { aliceIdentityPub := aliceKeys.identity.publicKey
      aliceEphemeralPub := x3dhResult.ephemeralPublic
      opkIndex := opkIndex
      ciphertext := []
      header := none })

/-- Bob responds to Alice's initial message. -/
def respond (bobKeys : PeerPrivateKeys P) (initialMsg : InitialMessage Grp) :
    Except SanctumError (E2eSession Sec Grp Key) := do
  let opk := initialMsg.opkIndex.bind fun idx => bobKeys.oneTimePrekeys[idx.toNat]?
  let x3dhResult ← P.x3dhRespond bobKeys.identity bobKeys.signedPrekey opk
    initialMsg.aliceIdentityPub initialMsg.aliceEphemeralPub
  pure {
    ratchet := RatchetState.initBob x3dhResult.sharedSecret bobKeys.signedPrekey.secret
      bobKeys.signedPrekey.publicKey
    peerIdentityPub := initialMsg.aliceIdentityPub }

variable (P)

/-- Encrypt a plaintext message. -/
def encrypt (s : E2eSession Sec Grp Key) (plaintext : Plain) :
    Except SanctumError (Header Grp × Cipher) × E2eSession Sec Grp Key :=
  match P.encrypt s.ratchet plaintext with
  | (result, ratchet) => (result, { s with ratchet := ratchet })

/-- Decrypt a received message. -/
def decrypt [DecidableEq Grp] (s : E2eSession Sec Grp Key) (header : Header Grp)
    (ciphertext : Cipher) (rng : Sec) : Except SanctumError Plain × E2eSession Sec Grp Key :=
  match P.decrypt s.ratchet header ciphertext rng with
  | (result, ratchet) => (result, { s with ratchet := ratchet })

variable {P}

/-! ### The initial sessions -/

theorem initiate_eq (aliceKeys : PeerPrivateKeys P) (bobPublic : PeerPublicKeys Grp)
    (rng rng' : Sec) :
    initiate aliceKeys bobPublic rng rng' = .ok (
      { ratchet := P.aliceStart (P.x3dhSecret (P.initiateDhs aliceKeys.identity rng
          bobPublic.identityPub bobPublic.signedPrekeyPub bobPublic.oneTimePrekeys.head?))
          bobPublic.signedPrekeyPub rng'
        peerIdentityPub := bobPublic.identityPub },
      { aliceIdentityPub := aliceKeys.identity.publicKey
        aliceEphemeralPub := P.publicKey rng
        opkIndex := if bobPublic.oneTimePrekeys.head?.isSome then some 0 else none
        ciphertext := []
        header := none }) := by
  simp only [initiate, P.x3dhInitiate_eq, P.initAlice_eq]
  rfl

theorem respond_eq (bobKeys : PeerPrivateKeys P) (initialMsg : InitialMessage Grp) :
    respond bobKeys initialMsg = .ok
      { ratchet := RatchetState.initBob (P.x3dhSecret (P.respondDhs bobKeys.identity
          bobKeys.signedPrekey
          (initialMsg.opkIndex.bind fun idx => bobKeys.oneTimePrekeys[idx.toNat]?)
          initialMsg.aliceIdentityPub initialMsg.aliceEphemeralPub)) bobKeys.signedPrekey.secret
          bobKeys.signedPrekey.publicKey
        peerIdentityPub := initialMsg.aliceIdentityPub } := by
  simp only [respond, P.x3dhRespond_eq]
  rfl

/-- **Both peers start from one shared secret**, whatever the pool of one-time pre-keys. -/
theorem respond_initiate (hcomm : P.DhCommutes) {aliceKeys bobKeys : PeerPrivateKeys P}
    {rng rng' : Sec} {alice : E2eSession Sec Grp Key} {initialMsg : InitialMessage Grp}
    (h : initiate aliceKeys bobKeys.publicKeys rng rng' = .ok (alice, initialMsg)) :
    ∃ sk, alice.ratchet = P.aliceStart sk (P.publicKey bobKeys.signedPrekey.secret) rng' ∧
      ∃ bob, respond bobKeys initialMsg = .ok bob ∧
        bob.ratchet = RatchetState.initBob sk bobKeys.signedPrekey.secret
          (P.publicKey bobKeys.signedPrekey.secret) := by
  rw [initiate_eq] at h
  obtain ⟨rfl, rfl⟩ := Prod.mk.inj (Except.ok.inj h)
  refine ⟨_, by rw [← bobKeys.signedPrekey.publicKey_eq]; rfl, _, respond_eq _ _, ?_⟩
  -- Bob looks up the one-time pre-key that Alice has picked
  have hopk : ((if (bobKeys.publicKeys.oneTimePrekeys.head?).isSome then some (0 : UInt32)
      else none).bind fun idx => bobKeys.oneTimePrekeys[idx.toNat]?) =
        bobKeys.oneTimePrekeys.head? := by
    cases hpool : bobKeys.oneTimePrekeys with
    | nil => simp [PeerPrivateKeys.publicKeys, hpool]
    | cons k ks => simp [PeerPrivateKeys.publicKeys, hpool]
  have hhead : bobKeys.publicKeys.oneTimePrekeys.head? =
      bobKeys.oneTimePrekeys.head?.map X25519Keypair.publicKey := List.head?_map
  simp only [hopk]
  rw [Primitives.respondDhs_eq hcomm, ← hhead, ← bobKeys.signedPrekey.publicKey_eq]
  rfl

end E2eSession

end Sanctum
