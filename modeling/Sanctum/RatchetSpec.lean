/-
What one call of the ratchet does.

`Sanctum.Primitives.decrypt` threads a state through four helpers, any of which may return early.
This module computes each helper once, as a function of the state, so that no later proof unfolds
the source: the derivation steps never fail, skipping is `skipTo` whenever the jump is within the
limit, the DH ratchet is `ratcheted`, and a whole call of `decrypt` is `takeKey` — which key the
header selects and the state that is left — followed by one AEAD decryption under that key.  In
particular **the state after `decrypt` does not depend on the ciphertext**.

Main definitions:

* `Sanctum.RatchetState.TooFar`, `Sanctum.RatchetState.skipCount` — the test of the skipping limit
  and the length of a jump;
* `Sanctum.RatchetState.Draws` — the inputs on which `decrypt` draws a fresh keypair;
* `Sanctum.Primitives.rootStep`, `Sanctum.Primitives.chainStep`, `Sanctum.Primitives.nextCk`,
  `Sanctum.Primitives.msgKey` — the values of the derivation steps;
* `Sanctum.Primitives.chainAt` — the chain key after a number of messages;
* `Sanctum.Primitives.storeKeys` — the table after a run of the skipping loop;
* `Sanctum.Primitives.skipTo`, `Sanctum.Primitives.ratcheted`, `Sanctum.Primitives.stepRecv` —
  the state changes of the receiving side;
* `Sanctum.Primitives.takeKey` — the key a header selects, and the state after the call;
* `Sanctum.Primitives.keyAt` — the key at a place in a chain.

Main results:

* `Sanctum.Primitives.skipLoop_eq`, `Sanctum.Primitives.skipLoop_exit` — the loop, and that its
  fuel suffices;
* `Sanctum.Primitives.lookup_storeKeys` — what the loop has stored;
* `Sanctum.Primitives.takeKey_eq_ok_iff` — which key a header selects;
* `Sanctum.Primitives.encrypt_eq`, `Sanctum.Primitives.decrypt_eq` — the two entry points.
-/

import Sanctum.Ratchet

set_option relaxedAutoImplicit false
set_option autoImplicit false

namespace Sanctum

/-! ### Reading a state -/

namespace RatchetState

variable {Sec Grp Key : Type}

/-- The header of the next message. -/
def nextHeader (s : RatchetState Sec Grp Key) : Header Grp where
  dhPublic := s.dhSelfPublic
  prevChainLen := s.prevChainLen
  msgNum := s.msgNumSend

/-- The jump to `until'` is refused. -/
def TooFar (s : RatchetState Sec Grp Key) (until' : UInt32) : Prop :=
  s.chainKeyRecv.isSome ∧ s.msgNumRecv + MAX_SKIP < until'

instance (s : RatchetState Sec Grp Key) (until' : UInt32) : Decidable (TooFar s until') :=
  inferInstanceAs (Decidable (_ ∧ _))

/-- The number of messages skipped on the way to `until'`. -/
def skipCount (s : RatchetState Sec Grp Key) (until' : UInt32) : ℕ :=
  until'.toNat - s.msgNumRecv.toNat

/-- A jump that is not refused skips at most 256 messages: near the end of the counter's range
the sum in the test wraps around and refuses every jump forward. -/
theorem skipCount_le {s : RatchetState Sec Grp Key} {until' : UInt32}
    (h : ¬ s.msgNumRecv + MAX_SKIP < until') : skipCount s until' ≤ 256 := by
  have hu := until'.toNat_lt
  have hr := s.msgNumRecv.toNat_lt
  have hmax : MAX_SKIP.toNat = 256 := rfl
  rw [UInt32.lt_iff_toNat_lt, UInt32.toNat_add, hmax] at h
  rw [skipCount]
  omega

/-- Skipping moves the counter forward to `until'`, or leaves it. -/
theorem toNat_add_skipCount (s : RatchetState Sec Grp Key) (until' : UInt32) :
    (s.msgNumRecv + UInt32.ofNat (s.skipCount until')).toNat =
      max s.msgNumRecv.toNat until'.toNat := by
  have hu := until'.toNat_lt
  have hr := s.msgNumRecv.toNat_lt
  rw [UInt32.toNat_add, UInt32.toNat_ofNat', skipCount]
  omega

/-- On this input `decrypt` comes as far as the DH ratchet and draws a fresh keypair. -/
def Draws [DecidableEq Grp] (s : RatchetState Sec Grp Key) (h : Header Grp) : Prop :=
  s.skippedKeys.lookup (h.dhPublic, h.msgNum) = none ∧ s.dhRemote ≠ some h.dhPublic ∧
    ¬ s.TooFar h.prevChainLen

instance [DecidableEq Grp] (s : RatchetState Sec Grp Key) (h : Header Grp) :
    Decidable (s.Draws h) :=
  inferInstanceAs (Decidable (_ ∧ _ ∧ _))

/-- The state after the stored key of a skipped message has been taken. -/
def forget [DecidableEq Grp] (s : RatchetState Sec Grp Key) (h : Header Grp) :
    RatchetState Sec Grp Key :=
  { s with skippedKeys := s.skippedKeys.erase (h.dhPublic, h.msgNum) }

end RatchetState

namespace Primitives

open RatchetState

variable {Sec Grp Key Nonce Plain Cipher : Type}
variable (P : Primitives Sec Grp Key Nonce Plain Cipher)

/-! ### The derivation steps -/

/-- The root key after a step of the root chain. -/
def rootStep (rk : Key) (d : Grp) : Key := P.hkdf (.key rk) (some d) "ratchet_root" 0

/-- The chain key that a step of the root chain starts. -/
def chainStep (rk : Key) (d : Grp) : Key := P.hkdf (.key rk) (some d) "ratchet_root" 1

/-- The chain key after one message. -/
def nextCk (ck : Key) : Key := P.hkdf (.key ck) none "chain_next" 0

/-- The message key of a chain key. -/
def msgKey (ck : Key) : Key := P.hkdf (.key ck) none "message_key" 0

/-- The nonce used with a message key. -/
def nonceOf (mk : Key) : Nonce := P.first12 (P.hkdf (.key mk) none "nonce" 0)

/-- **The chain key after `n` messages.** -/
def chainAt (ck : Key) (n : ℕ) : Key := P.nextCk^[n] ck

@[simp] theorem chainAt_zero (ck : Key) : P.chainAt ck 0 = ck := rfl

theorem chainAt_succ (ck : Key) (n : ℕ) : P.chainAt ck (n + 1) = P.nextCk (P.chainAt ck n) :=
  Function.iterate_succ_apply' ..

theorem chainAt_succ' (ck : Key) (n : ℕ) : P.chainAt ck (n + 1) = P.chainAt (P.nextCk ck) n :=
  Function.iterate_succ_apply ..

theorem chainAt_add (ck : Key) (m n : ℕ) : P.chainAt (P.chainAt ck m) n = P.chainAt ck (m + n) := by
  rw [chainAt, chainAt, chainAt, Nat.add_comm m n, Function.iterate_add_apply]

@[simp] theorem kdfRk_eq (rk : Key) (d : Grp) :
    P.kdfRk rk d = .ok (P.rootStep rk d, P.chainStep rk d) := by
  rw [kdfRk, P.deriveSubkey_of_le (by norm_num)]
  rfl

@[simp] theorem kdfCk_eq (ck : Key) : P.kdfCk ck = .ok (P.nextCk ck, P.msgKey ck) := by
  rw [kdfCk, P.deriveSubkey_of_le (by norm_num), P.deriveSubkey_of_le (by norm_num)]
  rfl

@[simp] theorem msgNonce_eq (mk : Key) : P.msgNonce mk = .ok (P.nonceOf mk) := by
  rw [msgNonce, P.deriveSubkey_of_le (by norm_num)]
  rfl

theorem encryptWith_eq (mk : Key) (m : Plain) :
    P.encryptWith mk m = P.aeadEncrypt mk (P.nonceOf mk) m [] := by
  rw [encryptWith, msgNonce_eq]
  rfl

theorem decryptWith_eq (mk : Key) (c : Cipher) :
    P.decryptWith mk c = P.aeadDecrypt mk (P.nonceOf mk) c [] := by
  rw [decryptWith, msgNonce_eq]
  rfl

/-- Decryption succeeds exactly when the AEAD opens the ciphertext. -/
theorem decryptWith_eq_ok_iff {mk : Key} {c : Cipher} {m : Plain} :
    P.decryptWith mk c = .ok m ↔ P.aeadOpen mk (P.nonceOf mk) c [] = some m := by
  rw [decryptWith_eq, aeadDecrypt]
  cases P.aeadOpen mk (P.nonceOf mk) c [] <;> simp

/-- Encryption succeeds exactly when the AEAD seals the plaintext. -/
theorem encryptWith_eq_ok_iff {mk : Key} {c : Cipher} {m : Plain} :
    P.encryptWith mk m = .ok c ↔ P.aeadSeal mk (P.nonceOf mk) m [] = some c := by
  rw [encryptWith_eq, aeadEncrypt]
  cases P.aeadSeal mk (P.nonceOf mk) m [] <;> simp

/-! ### The initial states -/

/-- The initial state of the initiator. -/
def aliceStart (sk : Key) (bobPub : Grp) (rng : Sec) : RatchetState Sec Grp Key where
  dhSelfSecret := rng
  dhSelfPublic := P.publicKey rng
  dhRemote := some bobPub
  rootKey := P.rootStep sk (P.diffieHellman rng bobPub)
  chainKeySend := some (P.chainStep sk (P.diffieHellman rng bobPub))
  msgNumSend := 0
  chainKeyRecv := none
  msgNumRecv := 0
  prevChainLen := 0
  skippedKeys := ∅

theorem initAlice_eq (sk : Key) (bobPub : Grp) (rng : Sec) :
    P.initAlice sk bobPub rng = .ok (P.aliceStart sk bobPub rng) := by
  simp only [initAlice, generateRatchetKeypair, kdfRk_eq]
  rfl

/-! ### Sending -/

/-- The state after one message has been numbered and its key derived. -/
def stepSend (s : RatchetState Sec Grp Key) (ck : Key) : RatchetState Sec Grp Key :=
  { s with chainKeySend := some (P.nextCk ck), msgNumSend := s.msgNumSend + 1 }

theorem encrypt_of_none {s : RatchetState Sec Grp Key} (h : s.chainKeySend = none) (m : Plain) :
    P.encrypt s m = (.error (.malformedMessage "no send chain"), s) := by
  simp only [encrypt, h]

/-- **Sending on an existing chain**: the next number and the next key, whatever the AEAD says. -/
theorem encrypt_eq {s : RatchetState Sec Grp Key} {ck : Key} (h : s.chainKeySend = some ck)
    (m : Plain) :
    P.encrypt s m =
      ((P.encryptWith (P.msgKey ck) m).map fun c => (nextHeader s, c), P.stepSend s ck) := by
  simp only [encrypt, h, kdfCk_eq, stepSend, nextHeader]
  cases P.encryptWith (P.msgKey ck) m <;> rfl

/-! ### Skipping -/

section

variable [DecidableEq Grp]

/-- The table after the keys of `n` messages of a chain, the first of them numbered `start`, have
been stored under `remote`. -/
def storeKeys (remote : Grp) : ℕ → Key → UInt32 → HashMap (Grp × UInt32) Key →
    HashMap (Grp × UInt32) Key
  | 0, _, _, table => table
  | n + 1, ck, start, table =>
    storeKeys remote n (P.nextCk ck) (start + 1) (table.insert (remote, start) (P.msgKey ck))

/-- The state after skipping to `until'`: nothing happens before both a receiving chain and a
remote key are there. -/
def skipTo (s : RatchetState Sec Grp Key) (until' : UInt32) : RatchetState Sec Grp Key :=
  match s.chainKeyRecv, s.dhRemote with
  | some ck, some remote =>
    { s with
      chainKeyRecv := some (P.chainAt ck (skipCount s until'))
      msgNumRecv := s.msgNumRecv + UInt32.ofNat (skipCount s until')
      skippedKeys := P.storeKeys remote (skipCount s until') ck s.msgNumRecv s.skippedKeys }
  | _, _ => s

omit [DecidableEq Grp] in
/-- The successor of a counter that is below another does not wrap around. -/
theorem toNat_succ_of_lt {a b : UInt32} (h : a < b) : (a + 1).toNat = a.toNat + 1 := by
  have hb := b.toNat_lt
  rw [UInt32.lt_iff_toNat_lt] at h
  rw [UInt32.toNat_add, UInt32.toNat_one, Nat.mod_eq_of_lt (by omega)]

omit [DecidableEq Grp] in
theorem succ_add_ofNat (a : UInt32) (n : ℕ) :
    a + 1 + UInt32.ofNat n = a + UInt32.ofNat (n + 1) := by
  rw [UInt32.ofNat_add, UInt32.add_assoc, UInt32.add_comm 1]
  rfl

/-- **The skipping loop**, with the fuel `skip_messages` gives it: it stores one key for each
number from `msgNumRecv` on and moves the chain by as many steps. -/
theorem skipLoop_eq (remote : Grp) (until' : UInt32) :
    ∀ (n : ℕ) (ck : Key) (s : RatchetState Sec Grp Key), n = skipCount s until' →
      P.skipLoop remote until' n ck s = (.ok (P.chainAt ck n),
        { s with
          msgNumRecv := s.msgNumRecv + UInt32.ofNat n
          skippedKeys := P.storeKeys remote n ck s.msgNumRecv s.skippedKeys }) := by
  intro n
  induction n with
  | zero => intro ck s _; simp [skipLoop, storeKeys]
  | succ n ih =>
      intro ck s hn
      rw [skipCount] at hn
      have hlt : s.msgNumRecv < until' := by rw [UInt32.lt_iff_toNat_lt]; omega
      have hstep := toNat_succ_of_lt hlt
      rw [skipLoop, if_pos hlt, kdfCk_eq]
      simp only
      rw [ih _ _ (by simp only [skipCount]; omega), chainAt_succ', storeKeys]
      simp only [succ_add_ofNat]

/-- **The fuel of the loop suffices**: the loop stops because its own test fails. -/
theorem skipLoop_exit (remote : Grp) (until' : UInt32) (ck : Key) (s : RatchetState Sec Grp Key) :
    ¬ (P.skipLoop remote until' (skipCount s until') ck s).2.msgNumRecv < until' := by
  have hu := until'.toNat_lt
  have hr := s.msgNumRecv.toNat_lt
  rw [P.skipLoop_eq remote until' _ ck s rfl, UInt32.lt_iff_toNat_lt]
  simp only [UInt32.toNat_add, UInt32.toNat_ofNat', skipCount]
  omega

theorem skipTo_of_chain_none {s : RatchetState Sec Grp Key} (h : s.chainKeyRecv = none)
    (until' : UInt32) : P.skipTo s until' = s := by
  simp only [skipTo, h]

theorem skipTo_of_remote_none {s : RatchetState Sec Grp Key} (h : s.dhRemote = none)
    (until' : UInt32) : P.skipTo s until' = s := by
  cases hck : s.chainKeyRecv <;> simp only [skipTo, h, hck]

theorem skipTo_of_some {s : RatchetState Sec Grp Key} {ck : Key} {remote : Grp}
    (hck : s.chainKeyRecv = some ck) (hrem : s.dhRemote = some remote) (until' : UInt32) :
    P.skipTo s until' =
      { s with
        chainKeyRecv := some (P.chainAt ck (skipCount s until'))
        msgNumRecv := s.msgNumRecv + UInt32.ofNat (skipCount s until')
        skippedKeys := P.storeKeys remote (skipCount s until') ck s.msgNumRecv s.skippedKeys } := by
  simp only [skipTo, hck, hrem]

@[simp] theorem skipTo_dhRemote (s : RatchetState Sec Grp Key) (until' : UInt32) :
    (P.skipTo s until').dhRemote = s.dhRemote := by
  cases hck : s.chainKeyRecv with
  | none => rw [P.skipTo_of_chain_none hck]
  | some ck =>
      cases hrem : s.dhRemote with
      | none => rw [P.skipTo_of_remote_none hrem, hrem]
      | some remote => rw [P.skipTo_of_some hck hrem, hrem]

/-- Skipping is refused beyond the limit, before anything is stored. -/
theorem skipMessages_of_tooFar {s : RatchetState Sec Grp Key} {until' : UInt32}
    (h : TooFar s until') :
    P.skipMessages s until' = (.error (.malformedMessage "too many skipped messages"), s) := by
  obtain ⟨ck, hck⟩ := Option.isSome_iff_exists.1 h.1
  simp only [skipMessages, hck, if_pos h.2]

/-- **Skipping** within the limit is `skipTo`. -/
theorem skipMessages_of_not_tooFar {s : RatchetState Sec Grp Key} {until' : UInt32}
    (h : ¬ TooFar s until') : P.skipMessages s until' = (.ok (), P.skipTo s until') := by
  cases hck : s.chainKeyRecv with
  | none => simp only [skipMessages, hck, P.skipTo_of_chain_none hck]
  | some ck =>
      have hnear : ¬ s.msgNumRecv + MAX_SKIP < until' := fun hfar => h ⟨by simp [hck], hfar⟩
      cases hrem : s.dhRemote with
      | none => simp only [skipMessages, hck, hrem, if_neg hnear, P.skipTo_of_remote_none hrem]
      | some remote =>
          have hloop := P.skipLoop_eq remote until' (skipCount s until') ck s rfl
          rw [skipCount] at hloop
          simp only [skipMessages, hck, hrem, if_neg hnear, hloop, P.skipTo_of_some hck hrem]
          rfl

/-! ### The table of skipped keys -/

/-- **What the loop has stored**: the keys of the `n` messages from `start` on, under `remote`. -/
theorem lookup_storeKeys (remote : Grp) :
    ∀ (n : ℕ) (ck : Key) (start : UInt32) (table : HashMap (Grp × UInt32) Key),
      start.toNat + n < 2 ^ 32 → ∀ (pk : Grp) (m : UInt32),
      (P.storeKeys remote n ck start table).lookup (pk, m) =
        if pk = remote ∧ start.toNat ≤ m.toNat ∧ m.toNat < start.toNat + n then
          some (P.msgKey (P.chainAt ck (m.toNat - start.toNat)))
        else table.lookup (pk, m) := by
  intro n
  induction n with
  | zero =>
      intro ck start table _ pk m
      rw [storeKeys, if_neg (by rintro ⟨-, h₁, h₂⟩; omega)]
  | succ n ih =>
      intro ck start table hlt pk m
      have hstep : (start + 1).toNat = start.toNat + 1 := by
        rw [UInt32.toNat_add, UInt32.toNat_one, Nat.mod_eq_of_lt (by omega)]
      rw [storeKeys, ih _ _ _ (by omega), hstep]
      by_cases hm : pk = remote ∧ m = start
      · obtain ⟨rfl, rfl⟩ := hm
        rw [if_neg (by rintro ⟨-, h, -⟩; omega), if_pos ⟨rfl, le_rfl, by omega⟩,
          Finmap.lookup_insert, Nat.sub_self, chainAt_zero]
      · have hne : (pk, m) ≠ (remote, start) := by simpa using hm
        rw [Finmap.lookup_insert_of_ne _ hne]
        by_cases hpk : pk = remote
        · have hmn : m.toNat ≠ start.toNat := fun h => hm ⟨hpk, UInt32.toNat_inj.1 h⟩
          by_cases hin : start.toNat + 1 ≤ m.toNat ∧ m.toNat < start.toNat + 1 + n
          · rw [if_pos ⟨hpk, hin⟩, if_pos ⟨hpk, by omega, by omega⟩, ← chainAt_succ']
            congr 3
            omega
          · rw [if_neg fun h => hin h.2, if_neg fun h => hin ⟨by omega, by omega⟩]
        · rw [if_neg fun h => hpk h.1, if_neg fun h => hpk h.1]

/-! ### The DH ratchet -/

omit [DecidableEq Grp] in
/-- The state after a DH ratchet step with the remote key `e` and the fresh secret `rng`. -/
def ratcheted (s : RatchetState Sec Grp Key) (e : Grp) (rng : Sec) : RatchetState Sec Grp Key :=
  { s with
    dhSelfSecret := rng
    dhSelfPublic := P.publicKey rng
    dhRemote := some e
    rootKey :=
      P.rootStep (P.rootStep s.rootKey (P.diffieHellman s.dhSelfSecret e)) (P.diffieHellman rng e)
    chainKeySend := some
      (P.chainStep (P.rootStep s.rootKey (P.diffieHellman s.dhSelfSecret e))
        (P.diffieHellman rng e))
    msgNumSend := 0
    chainKeyRecv := some (P.chainStep s.rootKey (P.diffieHellman s.dhSelfSecret e))
    msgNumRecv := 0
    prevChainLen := s.msgNumSend }

omit [DecidableEq Grp] in
theorem dhRatchet_eq (s : RatchetState Sec Grp Key) (e : Grp) (rng : Sec) :
    P.dhRatchet s e rng = (.ok (), P.ratcheted s e rng) := by
  simp only [dhRatchet, generateRatchetKeypair, kdfRk_eq, ratcheted]

omit [DecidableEq Grp] in
/-- The limit on the chain that a DH ratchet step has started. -/
theorem ratcheted_tooFar_iff (s : RatchetState Sec Grp Key) (e : Grp) (rng : Sec) (n : UInt32) :
    (P.ratcheted s e rng).TooFar n ↔ MAX_SKIP < n := by
  have hzero : (0 : UInt32) + MAX_SKIP = MAX_SKIP := rfl
  simp only [TooFar, ratcheted, Option.isSome_some, hzero, true_and]

/-! ### Receiving -/

omit [DecidableEq Grp] in
/-- The state after the next key of the receiving chain has been taken. -/
def stepRecv (s : RatchetState Sec Grp Key) (ck : Key) : RatchetState Sec Grp Key :=
  { s with chainKeyRecv := some (P.nextCk ck), msgNumRecv := s.msgNumRecv + 1 }

/-- Taking the key number `n` of the receiving chain. -/
def takeOnChain (s : RatchetState Sec Grp Key) (n : UInt32) :
    Except SanctumError Key × RatchetState Sec Grp Key :=
  if TooFar s n then (.error (.malformedMessage "too many skipped messages"), s)
  else
    match (P.skipTo s n).chainKeyRecv with
    | none => (.error (.malformedMessage "no recv chain"), P.skipTo s n)
    | some ck => (.ok (P.msgKey ck), P.stepRecv (P.skipTo s n) ck)

/-- **The key a header selects**, and the state that is left: a stored key if there is one, else
the key at the announced place of the current or of a new receiving chain. -/
def takeKey (s : RatchetState Sec Grp Key) (h : Header Grp) (rng : Sec) :
    Except SanctumError Key × RatchetState Sec Grp Key :=
  match s.skippedKeys.lookup (h.dhPublic, h.msgNum) with
  | some k => (.ok k, forget s h)
  | none =>
    if s.dhRemote = some h.dhPublic then P.takeOnChain s h.msgNum
    else if TooFar s h.prevChainLen then
      (.error (.malformedMessage "too many skipped messages"), s)
    else P.takeOnChain (P.ratcheted (P.skipTo s h.prevChainLen) h.dhPublic rng) h.msgNum

/-- The message has been skipped before. -/
theorem takeKey_of_stored {s : RatchetState Sec Grp Key} {h : Header Grp} {k : Key}
    (hlook : s.skippedKeys.lookup (h.dhPublic, h.msgNum) = some k) (rng : Sec) :
    P.takeKey s h rng = (.ok k, forget s h) := by
  simp only [takeKey, hlook]

/-- The message is on the current chain. -/
theorem takeKey_of_current {s : RatchetState Sec Grp Key} {h : Header Grp}
    (hlook : s.skippedKeys.lookup (h.dhPublic, h.msgNum) = none)
    (hrem : s.dhRemote = some h.dhPublic) (rng : Sec) :
    P.takeKey s h rng = P.takeOnChain s h.msgNum := by
  simp only [takeKey, hlook, if_pos hrem]

/-- The message is on a new chain. -/
theorem takeKey_of_draws {s : RatchetState Sec Grp Key} {h : Header Grp} (hd : Draws s h)
    (rng : Sec) : P.takeKey s h rng =
      P.takeOnChain (P.ratcheted (P.skipTo s h.prevChainLen) h.dhPublic rng) h.msgNum := by
  simp only [takeKey, hd.1, if_neg hd.2.1, if_neg hd.2.2]

@[simp] theorem takeOnChain_dhRemote (s : RatchetState Sec Grp Key) (n : UInt32) :
    (P.takeOnChain s n).2.dhRemote = s.dhRemote := by
  rw [takeOnChain]
  split
  · rfl
  · split
    · exact P.skipTo_dhRemote s n
    · exact P.skipTo_dhRemote s n

/-- The key of message number `n` of the chain that a header with the ratchet key `e` refers to:
the current receiving chain, or the one that the DH ratchet would start. -/
def keyAt (s : RatchetState Sec Grp Key) (e : Grp) (n : UInt32) : Option Key :=
  if s.dhRemote = some e then
    s.chainKeyRecv.map fun ck => P.msgKey (P.chainAt ck (s.skipCount n))
  else some (P.msgKey
    (P.chainAt (P.chainStep s.rootKey (P.diffieHellman s.dhSelfSecret e)) n.toNat))

/-- Which key of the receiving chain is taken. -/
theorem takeOnChain_eq_ok_iff {s : RatchetState Sec Grp Key} {e : Grp}
    (hrem : s.dhRemote = some e) {n : UInt32} {k : Key} :
    (P.takeOnChain s n).1 = .ok k ↔
      ¬ s.TooFar n ∧ s.chainKeyRecv.map (fun ck => P.msgKey (P.chainAt ck (s.skipCount n))) =
        some k := by
  rw [takeOnChain]
  by_cases hfar : s.TooFar n
  · simp [hfar]
  · rw [if_neg hfar]
    cases hck : s.chainKeyRecv with
    | none => simp [P.skipTo_of_chain_none hck, hck]
    | some ck =>
        have hsome : (P.skipTo s n).chainKeyRecv = some (P.chainAt ck (s.skipCount n)) := by
          rw [P.skipTo_of_some hck hrem]
        simp [hsome, hfar]

/-- **Which key a header selects**: the stored one, or else the one at its place in its chain,
unless a limit on skipping stands in the way. -/
theorem takeKey_eq_ok_iff {s : RatchetState Sec Grp Key} {h : Header Grp} {rng : Sec} {k : Key} :
    (P.takeKey s h rng).1 = .ok k ↔
      match s.skippedKeys.lookup (h.dhPublic, h.msgNum) with
      | some k' => k' = k
      | none => P.keyAt s h.dhPublic h.msgNum = some k ∧
        if s.dhRemote = some h.dhPublic then ¬ s.TooFar h.msgNum
        else ¬ s.TooFar h.prevChainLen ∧ h.msgNum ≤ MAX_SKIP := by
  rw [takeKey]
  cases hlook : s.skippedKeys.lookup (h.dhPublic, h.msgNum) with
  | some k' => simp
  | none =>
      by_cases hrem : s.dhRemote = some h.dhPublic
      · simp only [keyAt, if_pos hrem]
        rw [P.takeOnChain_eq_ok_iff hrem, and_comm]
      · by_cases hfar : s.TooFar h.prevChainLen
        · simp [hrem, hfar]
        · have hsame : (P.skipTo s h.prevChainLen).rootKey = s.rootKey ∧
              (P.skipTo s h.prevChainLen).dhSelfSecret = s.dhSelfSecret := by
            rw [skipTo]
            split <;> exact ⟨rfl, rfl⟩
          simp only [keyAt, if_neg hrem, if_neg hfar]
          rw [P.takeOnChain_eq_ok_iff rfl, P.ratcheted_tooFar_iff, UInt32.not_lt, and_comm]
          simp only [ratcheted, hsame, Option.map_some, skipCount, UInt32.toNat_zero, Nat.sub_zero,
            not_false_eq_true, true_and, hfar]

theorem decryptOnChain_eq (s : RatchetState Sec Grp Key) (n : UInt32) (c : Cipher) :
    P.decryptOnChain s n c =
      ((P.takeOnChain s n).1.bind fun k => P.decryptWith k c, (P.takeOnChain s n).2) := by
  rw [decryptOnChain, takeOnChain]
  by_cases hfar : TooFar s n
  · rw [P.skipMessages_of_tooFar hfar, if_pos hfar]
    rfl
  · rw [P.skipMessages_of_not_tooFar hfar, if_neg hfar]
    cases hck : (P.skipTo s n).chainKeyRecv with
    | none => simp only [hck]; rfl
    | some ck => simp only [hck, kdfCk_eq, stepRecv]; rfl

/-- **Receiving**: the header selects a key, and the ciphertext is opened under it.  The state
after the call is the same whether the AEAD accepts or not. -/
theorem decrypt_eq (s : RatchetState Sec Grp Key) (h : Header Grp) (c : Cipher) (rng : Sec) :
    P.decrypt s h c rng =
      ((P.takeKey s h rng).1.bind fun k => P.decryptWith k c, (P.takeKey s h rng).2) := by
  rw [decrypt, takeKey]
  cases hlook : s.skippedKeys.lookup (h.dhPublic, h.msgNum) with
  | some k => rfl
  | none =>
      by_cases hrem : s.dhRemote = some h.dhPublic
      · simp only [hrem, ne_eq, not_true_eq_false, if_false, if_true, decryptOnChain_eq]
      · simp only [hrem, ne_eq, not_false_eq_true, if_true, if_false]
        by_cases hfar : TooFar s h.prevChainLen
        · simp only [P.skipMessages_of_tooFar hfar, if_pos hfar]
          rfl
        · simp only [P.skipMessages_of_not_tooFar hfar, if_neg hfar, dhRatchet_eq,
            decryptOnChain_eq]

/-- `decrypt` returns a plaintext exactly when the header selects a key that opens the
ciphertext. -/
theorem decrypt_eq_ok_iff {s : RatchetState Sec Grp Key} {h : Header Grp} {c : Cipher} {rng : Sec}
    {m : Plain} :
    (P.decrypt s h c rng).1 = .ok m ↔
      ∃ k, (P.takeKey s h rng).1 = .ok k ∧ P.aeadOpen k (P.nonceOf k) c [] = some m := by
  rw [decrypt_eq]
  cases hk : (P.takeKey s h rng).1 with
  | error e => simp [Except.bind]
  | ok k => simp [Except.bind, decryptWith_eq_ok_iff]

end

end Primitives

end Sanctum
