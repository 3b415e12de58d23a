/-
Key derivation and authenticated encryption, over the primitives of the third-party crates.

The code keys everything with 32-byte strings: X25519 secrets and group elements, HKDF outputs and
ChaCha20-Poly1305 keys.  The crates that compute on them (`x25519_dalek`, `hkdf`,
`chacha20poly1305`) are not part of the repository, so they enter as the fields of
`Sanctum.Primitives`; what a result needs of them is one of the named properties below.

Main definitions:

* `Sanctum.Primitives` — the operations of the crates, with a type for each kind of byte string;
* `Sanctum.Primitives.deriveSubkey` — HKDF expansion, delivered as its 32-byte blocks;
* `Sanctum.Primitives.aeadEncrypt`, `Sanctum.Primitives.aeadDecrypt` — the ChaCha20-Poly1305 arm
  of the AEAD wrapper;
* `Sanctum.Primitives.DhCommutes`, `Sanctum.Primitives.AeadInverts` — what X25519 and the AEAD are
  relied on for when two honest parties talk;
* `Sanctum.Primitives.SameShared`, `Sanctum.Primitives.DhUniform` — public keys that X25519 does not tell
  apart, and what it is relied on for when keys are altered on the way;
* `Sanctum.Primitives.DhDetermines` — it tells the keys of honest peers apart.
-/

import Sanctum.Domain

set_option relaxedAutoImplicit false
set_option autoImplicit false

namespace Sanctum

/-- Input keying material of HKDF: one 32-byte key, or the concatenated Diffie–Hellman outputs of
a key agreement. -/
inductive Ikm (Grp Key : Type)
  | key (k : Key)
  | concat (dhs : List Grp)
deriving DecidableEq

/-- **The primitives of the third-party crates.**  `Sec` are X25519 secrets, `Grp` the 32-byte
group elements (public keys and shared secrets alike), `Key` the 32-byte symmetric keys, `Plain` the
plaintexts within the length limit of the AEAD. -/
structure Primitives (Sec Grp Key Nonce Plain Cipher : Type) where
  /-- `PublicKey::from(&secret)`. -/
  publicKey : Sec → Grp
  /-- `StaticSecret::diffie_hellman`. -/
  diffieHellman : Sec → Grp → Grp
  /-- HKDF-SHA256 of keying material, salt (`none` is the empty salt) and info string: the block
  with the given number of the expansion. -/
  hkdf : Ikm Grp Key → Option Grp → String → ℕ → Key
  /-- The first 12 bytes of a block. -/
  first12 : Key → Nonce
  /-- ChaCha20-Poly1305 encryption under a key and a nonce, with associated data. -/
  aeadSeal : Key → Nonce → Plain → List UInt8 → Option Cipher
  /-- ChaCha20-Poly1305 decryption. -/
  aeadOpen : Key → Nonce → Cipher → List UInt8 → Option Plain

namespace Primitives

variable {Sec Grp Key Nonce Plain Cipher : Type}
variable (P : Primitives Sec Grp Key Nonce Plain Cipher)

/-- Both sides of a Diffie–Hellman exchange compute the same element. -/
def DhCommutes : Prop :=
  ∀ a b, P.diffieHellman a (P.publicKey b) = P.diffieHellman b (P.publicKey a)

/-- **Two public keys share the same element with every secret.** -/
def SameShared (e e' : Grp) : Prop := ∀ a, P.diffieHellman a e = P.diffieHellman a e'

/-- Whether two public keys share the same element does not depend on the secret.  X25519 ignores the highest
bit, reduces the rest, and takes a multiple that is prime to the order of the group but kills the elements of
small order; what it does not tell apart with one secret it tells apart with none. -/
def DhUniform : Prop :=
  ∀ a e e', P.diffieHellman a e = P.diffieHellman a e' → P.SameShared e e'

/-- A shared element of two honest peers determines the public key of the other one. -/
def DhDetermines : Prop :=
  ∀ a b c, P.diffieHellman a (P.publicKey b) = P.diffieHellman a (P.publicKey c) →
    P.publicKey b = P.publicKey c

/-- Decryption inverts encryption under the same key, nonce and associated data; within the length
limit encryption does not fail. -/
def AeadInverts : Prop :=
  ∀ k n m aad, ∃ c, P.aeadSeal k n m aad = some c ∧ P.aeadOpen k n c aad = some m

/-! ### Key derivation -/

/-- HKDF refuses to expand beyond 255 blocks of 32 bytes; the output is given block by block. -/
def deriveSubkey (masterKey : Ikm Grp Key) (salt : Option Grp) (info : String) (outputLen : ℕ) :
    Except SanctumError (ℕ → Key) :=
  if outputLen ≤ 255 * 32 then .ok (P.hkdf masterKey salt info)
  else .error (.malformedMessage "HKDF expand failed")

theorem deriveSubkey_of_le {outputLen : ℕ} (h : outputLen ≤ 255 * 32) (ikm : Ikm Grp Key)
    (salt : Option Grp) (info : String) :
    P.deriveSubkey ikm salt info outputLen = .ok (P.hkdf ikm salt info) := if_pos h

/-! ### Authenticated encryption -/

/-- The ChaCha20-Poly1305 arm of `aead::encrypt`; the checks on the lengths of the key and of the
nonce are discharged by their types. -/
def aeadEncrypt (key : Key) (nonce : Nonce) (plaintext : Plain) (aad : List UInt8) :
    Except SanctumError Cipher :=
  match P.aeadSeal key nonce plaintext aad with
  | some c => .ok c
  | none => .error .decryptionFailed

/-- The ChaCha20-Poly1305 arm of `aead::decrypt`. -/
def aeadDecrypt (key : Key) (nonce : Nonce) (ciphertext : Cipher) (aad : List UInt8) :
    Except SanctumError Plain :=
  match P.aeadOpen key nonce ciphertext aad with
  | some m => .ok m
  | none => .error .decryptionFailed

end Primitives

end Sanctum
