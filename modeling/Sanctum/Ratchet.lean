/-
The Double Ratchet of one peer, as the crypto crate computes it.

A call of the source takes `&mut self` and returns a `Result`; here it returns the result together
with the state after the call, so that what an early return leaves behind is visible.  The fresh
keypair that `dh_ratchet` draws from the operating system is an argument.  Counters are `u32` and
wrap around as they do in a release build.

Main definitions:

* `Sanctum.Header`, `Sanctum.RatchetState` — the header of a message and the state of a peer;
* `Sanctum.Primitives.kdfRk`, `Sanctum.Primitives.kdfCk` — the steps of the root chain and of a
  message chain;
* `Sanctum.Primitives.initAlice`, `Sanctum.RatchetState.initBob` — the two initial states;
* `Sanctum.Primitives.encrypt`, `Sanctum.Primitives.decrypt` — sending and receiving, with
  `Sanctum.Primitives.skipMessages` and `Sanctum.Primitives.dhRatchet` underneath.
-/

import Sanctum.Kdf

set_option relaxedAutoImplicit false
set_option autoImplicit false

namespace Sanctum

/-- The limit of one jump over messages that have not arrived. -/
def MAX_SKIP : UInt32 := 256

/-- The ratchet header sent with each message. -/
structure Header (Grp : Type) where
  /-- The sender's current ratchet public key. -/
  dhPublic : Grp
  /-- The number of messages in the previous sending chain. -/
  prevChainLen : UInt32
  /-- The message number in the current sending chain. -/
  msgNum : UInt32
deriving DecidableEq

/-- **The ratchet state of one peer.** -/
structure RatchetState (Sec Grp Key : Type) where
  /-- Our current ratchet private key. -/
  dhSelfSecret : Sec
  /-- Our current ratchet public key. -/
  dhSelfPublic : Grp
  /-- Their current ratchet public key. -/
  dhRemote : Option Grp
  /-- The root key, which evolves at each DH ratchet step. -/
  rootKey : Key
  /-- The sending chain. -/
  chainKeySend : Option Key
  msgNumSend : UInt32
  /-- The receiving chain. -/
  chainKeyRecv : Option Key
  msgNumRecv : UInt32
  prevChainLen : UInt32
  /-- The skipped message keys, for out-of-order delivery. -/
  skippedKeys : HashMap (Grp × UInt32) Key

/-- The initial state of the party that receives the first message, whose signed pre-key is the
first ratchet key. -/
def RatchetState.initBob {Sec Grp Key : Type} (sharedSecret : Key) (bobSpkSecret : Sec)
    (bobSpkPublic : Grp) : RatchetState Sec Grp Key where
  dhSelfSecret := bobSpkSecret
  dhSelfPublic := bobSpkPublic
  dhRemote := none
  rootKey := sharedSecret
  chainKeySend := none
  msgNumSend := 0
  chainKeyRecv := none
  msgNumRecv := 0
  prevChainLen := 0
  skippedKeys := ∅

namespace Primitives

variable {Sec Grp Key Nonce Plain Cipher : Type}
variable (P : Primitives Sec Grp Key Nonce Plain Cipher)

/-! ### Derivation steps -/

/-- The keypair made from the random secret `rng`. -/
def generateRatchetKeypair (rng : Sec) : Sec × Grp := (rng, P.publicKey rng)

/-- The root chain: root key and DH output give the new root key and a chain key. -/
def kdfRk (rootKey : Key) (dhOutput : Grp) : Except SanctumError (Key × Key) := do
  let derived ← P.deriveSubkey (.key rootKey) (some dhOutput) "ratchet_root" 64
  pure (derived 0, derived 1)

/-- The message chain: a chain key gives the next chain key and a message key. -/
def kdfCk (chainKey : Key) : Except SanctumError (Key × Key) := do
  let newCk ← P.deriveSubkey (.key chainKey) none "chain_next" 32
  let mk ← P.deriveSubkey (.key chainKey) none "message_key" 32
  pure (newCk 0, mk 0)

/-- The nonce of a message, derived from its key. -/
def msgNonce (msgKey : Key) : Except SanctumError Nonce := do
  let nonceBytes ← P.deriveSubkey (.key msgKey) none "nonce" 12
  pure (P.first12 (nonceBytes 0))

/-- The end of `encrypt`: encryption under a message key, with no associated data. -/
def encryptWith (msgKey : Key) (plaintext : Plain) : Except SanctumError Cipher := do
  let nonce ← P.msgNonce msgKey
  P.aeadEncrypt msgKey nonce plaintext []

/-- The end of both paths of `decrypt`: decryption under a message key, with no associated
data. -/
def decryptWith (msgKey : Key) (ciphertext : Cipher) : Except SanctumError Plain := do
  let nonce ← P.msgNonce msgKey
  P.aeadDecrypt msgKey nonce ciphertext []

/-- The initial state of the party that sent the first message, who knows the other's ratchet
public key. -/
def initAlice (sharedSecret : Key) (bobRatchetPub : Grp) (rng : Sec) :
    Except SanctumError (RatchetState Sec Grp Key) := do
  let (dhSecret, dhPublic) := P.generateRatchetKeypair rng
  let dhOutput := P.diffieHellman dhSecret bobRatchetPub
  let (rootKey, chainKeySend) ← P.kdfRk sharedSecret dhOutput
  pure {
    dhSelfSecret := dhSecret
    dhSelfPublic := dhPublic
    dhRemote := some bobRatchetPub
    rootKey := rootKey
    chainKeySend := some chainKeySend
    msgNumSend := 0
    chainKeyRecv := none
    msgNumRecv := 0
    prevChainLen := 0
    skippedKeys := ∅ }

/-! ### Sending -/

/-- Encrypt a message.  The chain has moved on by the time the AEAD can fail. -/
def encrypt (s : RatchetState Sec Grp Key) (plaintext : Plain) :
    Except SanctumError (Header Grp × Cipher) × RatchetState Sec Grp Key :=
  match s.chainKeySend with
  | none => (.error (.malformedMessage "no send chain"), s)
  | some ck =>
    match P.kdfCk ck with
    | .error e => (.error e, s)
    | .ok (newCk, msgKey) =>
      let header : Header Grp :=
        { dhPublic := s.dhSelfPublic, prevChainLen := s.prevChainLen, msgNum := s.msgNumSend }
      let s := { s with chainKeySend := some newCk, msgNumSend := s.msgNumSend + 1 }
      match P.encryptWith msgKey plaintext with
      | .error e => (.error e, s)
      | .ok ct => (.ok (header, ct), s)

/-! ### Receiving -/

section

variable [DecidableEq Grp]

/-- The loop of `skip_messages`, which stores the keys of the messages up to `until`.  The loop
runs while `msgNumRecv < until`, so the difference of the two is enough fuel. -/
def skipLoop (remote : Grp) (until' : UInt32) : ℕ → Key → RatchetState Sec Grp Key →
    Except SanctumError Key × RatchetState Sec Grp Key
  | 0, currentCk, s => (.ok currentCk, s)
  | fuel + 1, currentCk, s =>
    if s.msgNumRecv < until' then
      match P.kdfCk currentCk with
      | .error e => (.error e, s)
      | .ok (newCk, msgKey) =>
        skipLoop remote until' fuel newCk
          { s with
            skippedKeys := s.skippedKeys.insert (remote, s.msgNumRecv) msgKey
            msgNumRecv := s.msgNumRecv + 1 }
    else (.ok currentCk, s)

/-- Store the keys of the messages skipped on the way to `until'`. -/
def skipMessages (s : RatchetState Sec Grp Key) (until' : UInt32) :
    Except SanctumError Unit × RatchetState Sec Grp Key :=
  match s.chainKeyRecv with
  | none => (.ok (), s)
  | some ck =>
    if s.msgNumRecv + MAX_SKIP < until' then
      (.error (.malformedMessage "too many skipped messages"), s)
    else
      match s.dhRemote with
      | none => (.ok (), s)
      | some remote =>
        match P.skipLoop remote until' (until'.toNat - s.msgNumRecv.toNat) ck s with
        | (.error e, s) => (.error e, s)
        | (.ok currentCk, s) => (.ok (), { s with chainKeyRecv := some currentCk })

omit [DecidableEq Grp] in
/-- A DH ratchet step with a new remote public key. -/
def dhRatchet (s : RatchetState Sec Grp Key) (newRemotePub : Grp) (rng : Sec) :
    Except SanctumError Unit × RatchetState Sec Grp Key :=
  let s := { s with
    prevChainLen := s.msgNumSend, msgNumSend := 0, msgNumRecv := 0, dhRemote := some newRemotePub }
  -- receiving chain
  let dhRecv := P.diffieHellman s.dhSelfSecret newRemotePub
  match P.kdfRk s.rootKey dhRecv with
  | .error e => (.error e, s)
  | .ok (rk, ckRecv) =>
    let s := { s with rootKey := rk, chainKeyRecv := some ckRecv }
    -- new keypair for sending
    let (newSecret, newPublic) := P.generateRatchetKeypair rng
    let s := { s with dhSelfSecret := newSecret, dhSelfPublic := newPublic }
    -- sending chain
    let dhSend := P.diffieHellman s.dhSelfSecret newRemotePub
    match P.kdfRk s.rootKey dhSend with
    | .error e => (.error e, s)
    | .ok (rk, ckSend) => (.ok (), { s with rootKey := rk, chainKeySend := some ckSend })

/-- The second half of `decrypt`: the message is on the receiving chain. -/
def decryptOnChain (s : RatchetState Sec Grp Key) (msgNum : UInt32) (ciphertext : Cipher) :
    Except SanctumError Plain × RatchetState Sec Grp Key :=
  match P.skipMessages s msgNum with
  | (.error e, s) => (.error e, s)
  | (.ok (), s) =>
    match s.chainKeyRecv with
    | none => (.error (.malformedMessage "no recv chain"), s)
    | some ck =>
      match P.kdfCk ck with
      | .error e => (.error e, s)
      | .ok (newCk, msgKey) =>
        let s := { s with chainKeyRecv := some newCk, msgNumRecv := s.msgNumRecv + 1 }
        (P.decryptWith msgKey ciphertext, s)

/-- Decrypt a received message. -/
def decrypt (s : RatchetState Sec Grp Key) (header : Header Grp) (ciphertext : Cipher)
    (rng : Sec) : Except SanctumError Plain × RatchetState Sec Grp Key :=
  -- skipped keys first (out-of-order message)
  match s.skippedKeys.lookup (header.dhPublic, header.msgNum) with
  | some msgKey =>
    let s := { s with skippedKeys := s.skippedKeys.erase (header.dhPublic, header.msgNum) }
    (P.decryptWith msgKey ciphertext, s)
  | none =>
    -- a DH ratchet step when the sender has a new ratchet key
    if s.dhRemote ≠ some header.dhPublic then
      match P.skipMessages s header.prevChainLen with
      | (.error e, s) => (.error e, s)
      | (.ok (), s) =>
        match P.dhRatchet s header.dhPublic rng with
        | (.error e, s) => (.error e, s)
        | (.ok (), s) => P.decryptOnChain s header.msgNum ciphertext
    else P.decryptOnChain s header.msgNum ciphertext

end

end Primitives

end Sanctum
