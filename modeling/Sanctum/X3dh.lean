/-
The X3DH key agreement.

One peer publishes a bundle of public keys, the other one derives a shared secret from it with a
fresh ephemeral key, and the first derives the same secret from the ephemeral public key.  The
ephemeral secret that `initiate` draws from the operating system is an argument.

Main definitions:

* `Sanctum.X25519Keypair` — a secret with its public key;
* `Sanctum.Primitives.x3dhInitiate`, `Sanctum.Primitives.x3dhRespond` — the two sides.

Main results:

* `Sanctum.Primitives.respondDhs_eq` — **both sides concatenate the same shared elements**;
* `Sanctum.Primitives.initiateDhs_inj` — the shared elements determine the one-time pre-key.
-/

import Sanctum.Kdf

set_option relaxedAutoImplicit false
set_option autoImplicit false

namespace Sanctum

variable {Sec Grp Key Nonce Plain Cipher : Type}

/-- An X25519 keypair, static or semi-ephemeral. -/
structure X25519Keypair (P : Primitives Sec Grp Key Nonce Plain Cipher) where
  secret : Sec
  publicKey : Grp
  publicKey_eq : publicKey = P.publicKey secret

/-- The keypair of the secret `rng`. -/
def X25519Keypair.generate (P : Primitives Sec Grp Key Nonce Plain Cipher) (rng : Sec) :
    X25519Keypair P where
  secret := rng
  publicKey := P.publicKey rng
  publicKey_eq := rfl

/-- Alice's output after initiating X3DH. -/
structure X3dhInitResult (Grp Key : Type) where
  sharedSecret : Key
  ephemeralPublic : Grp

/-- Bob's output after responding to X3DH. -/
structure X3dhRespondResult (Key : Type) where
  sharedSecret : Key

namespace Primitives

variable (P : Primitives Sec Grp Key Nonce Plain Cipher)

/-- The shared elements on Alice's side. -/
def initiateDhs (aliceIdentity : X25519Keypair P) (ephemeral : Sec)
    (bobIdentityPub bobSignedPrekeyPub : Grp) (bobOneTimePrekeyPub : Option Grp) : List Grp :=
  -- Alice_IK × Bob_SPK, Alice_EK × Bob_IK, Alice_EK × Bob_SPK
  [P.diffieHellman aliceIdentity.secret bobSignedPrekeyPub,
    P.diffieHellman ephemeral bobIdentityPub,
    P.diffieHellman ephemeral bobSignedPrekeyPub] ++
  -- Alice_EK × Bob_OPK
  (bobOneTimePrekeyPub.map fun opk => P.diffieHellman ephemeral opk).toList

/-- Alice initiates X3DH with Bob's bundle. -/
def x3dhInitiate (aliceIdentity : X25519Keypair P) (bobIdentityPub bobSignedPrekeyPub : Grp)
    (bobOneTimePrekeyPub : Option Grp) (rng : Sec) :
    Except SanctumError (X3dhInitResult Grp Key) := do
  let dhConcat :=
    P.initiateDhs aliceIdentity rng bobIdentityPub bobSignedPrekeyPub bobOneTimePrekeyPub
  let derived ← P.deriveSubkey (.concat dhConcat) none "X3DH_shared_secret" 32
  pure { sharedSecret := derived 0, ephemeralPublic := P.publicKey rng }

/-- The shared elements on Bob's side. -/
def respondDhs (bobIdentity bobSignedPrekey : X25519Keypair P)
    (bobOneTimePrekey : Option (X25519Keypair P)) (aliceIdentityPub aliceEphemeralPub : Grp) :
    List Grp :=
  -- Bob_SPK × Alice_IK, Bob_IK × Alice_EK, Bob_SPK × Alice_EK
  [P.diffieHellman bobSignedPrekey.secret aliceIdentityPub,
    P.diffieHellman bobIdentity.secret aliceEphemeralPub,
    P.diffieHellman bobSignedPrekey.secret aliceEphemeralPub] ++
  -- Bob_OPK × Alice_EK
  (bobOneTimePrekey.map fun opk => P.diffieHellman opk.secret aliceEphemeralPub).toList

/-- Bob responds to X3DH with Alice's ephemeral public key. -/
def x3dhRespond (bobIdentity bobSignedPrekey : X25519Keypair P)
    (bobOneTimePrekey : Option (X25519Keypair P)) (aliceIdentityPub aliceEphemeralPub : Grp) :
    Except SanctumError (X3dhRespondResult Key) := do
  let dhConcat :=
    P.respondDhs bobIdentity bobSignedPrekey bobOneTimePrekey aliceIdentityPub aliceEphemeralPub
  let derived ← P.deriveSubkey (.concat dhConcat) none "X3DH_shared_secret" 32
  pure { sharedSecret := derived 0 }

/-! ### Agreement -/

/-- The secret derived from the shared elements. -/
def x3dhSecret (dhs : List Grp) : Key := P.hkdf (.concat dhs) none "X3DH_shared_secret" 0

theorem x3dhInitiate_eq (aliceIdentity : X25519Keypair P) (bobIdentityPub bobSignedPrekeyPub : Grp)
    (bobOneTimePrekeyPub : Option Grp) (rng : Sec) :
    P.x3dhInitiate aliceIdentity bobIdentityPub bobSignedPrekeyPub bobOneTimePrekeyPub rng =
      .ok ⟨P.x3dhSecret (P.initiateDhs aliceIdentity rng bobIdentityPub bobSignedPrekeyPub
        bobOneTimePrekeyPub), P.publicKey rng⟩ := by
  rw [x3dhInitiate, P.deriveSubkey_of_le (by norm_num)]
  rfl

theorem x3dhRespond_eq (bobIdentity bobSignedPrekey : X25519Keypair P)
    (bobOneTimePrekey : Option (X25519Keypair P)) (aliceIdentityPub aliceEphemeralPub : Grp) :
    P.x3dhRespond bobIdentity bobSignedPrekey bobOneTimePrekey aliceIdentityPub
        aliceEphemeralPub =
      .ok ⟨P.x3dhSecret (P.respondDhs bobIdentity bobSignedPrekey bobOneTimePrekey
        aliceIdentityPub aliceEphemeralPub)⟩ := by
  rw [x3dhRespond, P.deriveSubkey_of_le (by norm_num)]
  rfl

/-- HKDF does not make one secret of two lists of shared elements. -/
def SecretsDiffer (dhs dhs' : List Grp) : Prop := P.x3dhSecret dhs = P.x3dhSecret dhs' → dhs = dhs'

variable {P}

/-- **Both sides concatenate the same shared elements**, when they use the same keys. -/
theorem respondDhs_eq (hcomm : P.DhCommutes) (alice bobIdentity bobSignedPrekey : X25519Keypair P)
    (opk : Option (X25519Keypair P)) (ephemeral : Sec) :
    P.respondDhs bobIdentity bobSignedPrekey opk alice.publicKey (P.publicKey ephemeral) =
      P.initiateDhs alice ephemeral bobIdentity.publicKey bobSignedPrekey.publicKey
        (opk.map X25519Keypair.publicKey) := by
  have hstep : ∀ k : X25519Keypair P,
      P.diffieHellman k.secret (P.publicKey ephemeral) =
        P.diffieHellman ephemeral k.publicKey := by
    intro k
    rw [k.publicKey_eq, hcomm]
  rw [respondDhs, initiateDhs, hstep, hstep, alice.publicKey_eq, bobSignedPrekey.publicKey_eq,
    hcomm bobSignedPrekey.secret alice.secret]
  cases opk with
  | none => rfl
  | some k => simp only [Option.map_some, hstep]

/-- **The shared elements determine the one-time pre-key.** -/
theorem initiateDhs_inj (hdh : P.DhDetermines) (alice : X25519Keypair P) (ephemeral : Sec)
    (bobIdentityPub bobSignedPrekeyPub : Grp) (opk opk' : Option (X25519Keypair P)) :
    P.initiateDhs alice ephemeral bobIdentityPub bobSignedPrekeyPub
          (opk.map X25519Keypair.publicKey) =
        P.initiateDhs alice ephemeral bobIdentityPub bobSignedPrekeyPub
          (opk'.map X25519Keypair.publicKey) ↔
      opk.map X25519Keypair.publicKey = opk'.map X25519Keypair.publicKey := by
  constructor
  · intro h
    have hlast := List.append_cancel_left h
    cases opk with
    | none =>
        cases opk' with
        | none => rfl
        | some k' => cases hlast
    | some k =>
        cases opk' with
        | none => cases hlast
        | some k' =>
            have hshared := List.head_eq_of_cons_eq hlast
            rw [k.publicKey_eq, k'.publicKey_eq] at hshared
            rw [Option.map_some, Option.map_some, k.publicKey_eq, k'.publicKey_eq,
              hdh _ _ _ hshared]
  · intro h
    rw [h]

end Primitives

end Sanctum
