/-
Rejected messages.

`decrypt` works on the state it is given: by the time the AEAD can refuse a ciphertext, the key the
header selected has been taken, and possibly a DH ratchet step has been made with a public key that
nobody has authenticated.  So a rejected message usually does change the ratchet.  This module
settles exactly when it does not: when the call is turned away *before* a key is taken, by the
limit on skipping or because there is no receiving chain yet.

Main definitions:

* `Sanctum.RatchetState.TurnedAway` — the call returns before anything is touched;
* `Sanctum.Primitives.Reachable` — the states of a ratchet under any calls.

Main results:

* `Sanctum.Primitives.decrypt_error_unchanged_iff` — **a rejected message leaves the state alone
  exactly when it was turned away**;
* `Sanctum.replay_changes_state` — replaying one message to its receiver costs the next one.
-/

import Sanctum.Symbolic

set_option relaxedAutoImplicit false
set_option autoImplicit false

namespace Sanctum

/-! ### The states of a ratchet -/

/-- A call of the two entry points, with the randomness it may draw. -/
inductive Call (Sec Grp Plain Cipher : Type)
  | encrypt (m : Plain)
  | decrypt (h : Header Grp) (c : Cipher) (rng : Sec)

namespace Primitives

open RatchetState

variable {Sec Grp Key Nonce Plain Cipher : Type} [DecidableEq Grp]
variable (P : Primitives Sec Grp Key Nonce Plain Cipher)

/-- The state after a call. -/
def apply (s : RatchetState Sec Grp Key) : Call Sec Grp Plain Cipher → RatchetState Sec Grp Key
  | .encrypt m => (P.encrypt s m).2
  | .decrypt h c rng => (P.decrypt s h c rng).2

/-- The state after a sequence of calls. -/
def run (s : RatchetState Sec Grp Key) (calls : List (Call Sec Grp Plain Cipher)) :
    RatchetState Sec Grp Key :=
  calls.foldl P.apply s

/-- The states `init_alice` and `init_bob` return. -/
inductive Initial : RatchetState Sec Grp Key → Prop
  | alice {sk : Key} {bobPub : Grp} {rng : Sec} {s : RatchetState Sec Grp Key} :
      P.initAlice sk bobPub rng = .ok s → Initial s
  | bob (sk : Key) (spk : Sec) (spkPub : Grp) : Initial (initBob sk spk spkPub)

/-- **The states a ratchet reaches** by any sequence of calls. -/
def Reachable (s : RatchetState Sec Grp Key) : Prop :=
  ∃ s₀ calls, P.Initial s₀ ∧ s = P.run s₀ calls

end Primitives

/-! ### Calls that are turned away -/

/-- **The call returns before it takes a key**: no stored key matches the header, and either the
header continues the current chain, which is not there yet or is too far behind, or it starts a new
chain and the current one is too far behind its announced length. -/
def RatchetState.TurnedAway {Sec Grp Key : Type} [DecidableEq Grp]
    (s : RatchetState Sec Grp Key) (h : Header Grp) : Prop :=
  s.skippedKeys.lookup (h.dhPublic, h.msgNum) = none ∧
    if s.dhRemote = some h.dhPublic then s.chainKeyRecv = none ∨ s.TooFar h.msgNum
    else s.TooFar h.prevChainLen

namespace Primitives

open RatchetState

variable {Sec Grp Key Nonce Plain Cipher : Type} [DecidableEq Grp]
variable (P : Primitives Sec Grp Key Nonce Plain Cipher)

/-- Taking a stored key changes the table. -/
theorem forget_ne {s : RatchetState Sec Grp Key} {h : Header Grp} {k : Key}
    (hk : s.skippedKeys.lookup (h.dhPublic, h.msgNum) = some k) : s.forget h ≠ s := by
  intro heq
  have hgone : (s.forget h).skippedKeys.lookup (h.dhPublic, h.msgNum) = none :=
    Finmap.lookup_erase ..
  rw [heq, hk] at hgone
  exact absurd hgone (by simp)

/-- Taking a key of the receiving chain moves the counter, by less than its range. -/
theorem stepRecv_skipTo_ne {s : RatchetState Sec Grp Key} {ck ck' : Key} {remote : Grp}
    {n : UInt32} (hck : s.chainKeyRecv = some ck) (hrem : s.dhRemote = some remote)
    (hfar : ¬ s.TooFar n) : P.stepRecv (P.skipTo s n) ck' ≠ s := by
  have hcount : s.skipCount n ≤ 256 := skipCount_le fun h => hfar ⟨by simp [hck], h⟩
  intro heq
  have hnum := congrArg (fun t => t.msgNumRecv.toNat) heq
  have hr := s.msgNumRecv.toNat_lt
  simp only [stepRecv, P.skipTo_of_some hck hrem, UInt32.toNat_add, UInt32.toNat_ofNat',
    UInt32.toNat_one] at hnum
  omega

/-- The state after taking a key on the receiving chain is the old one exactly when there was no
key to take. -/
theorem takeOnChain_unchanged_iff {s : RatchetState Sec Grp Key} {remote : Grp}
    (hrem : s.dhRemote = some remote) (n : UInt32) :
    (P.takeOnChain s n).2 = s ↔ s.chainKeyRecv = none ∨ s.TooFar n := by
  rw [takeOnChain]
  by_cases hfar : s.TooFar n
  · simp [hfar]
  · rw [if_neg hfar]
    cases hck : s.chainKeyRecv with
    | none => simp [P.skipTo_of_chain_none hck, hck]
    | some ck =>
        have hsome : (P.skipTo s n).chainKeyRecv = some (P.chainAt ck (s.skipCount n)) := by
          rw [P.skipTo_of_some hck hrem]
        simp only [hsome, reduceCtorEq, hfar, or_self, iff_false]
        exact P.stepRecv_skipTo_ne hck hrem hfar

/-- **A rejected message leaves the ratchet as it was exactly when it was turned away** before a
key was taken. -/
theorem decrypt_error_unchanged_iff (s : RatchetState Sec Grp Key) (h : Header Grp) (c : Cipher)
    (rng : Sec) (e : SanctumError) (_herr : (P.decrypt s h c rng).1 = .error e) :
    (P.decrypt s h c rng).2 = s ↔ s.TurnedAway h := by
  rw [decrypt_eq, TurnedAway]
  simp only [takeKey]
  cases hlook : s.skippedKeys.lookup (h.dhPublic, h.msgNum) with
  | some k => simp [forget_ne hlook]
  | none =>
      by_cases hrem : s.dhRemote = some h.dhPublic
      · simp only [hrem, if_true, true_and]
        exact P.takeOnChain_unchanged_iff hrem h.msgNum
      · by_cases hfar : s.TooFar h.prevChainLen
        · simp [hrem, hfar]
        · simp only [hrem, hfar, if_false, and_false, iff_false]
          -- the DH ratchet has replaced the remote key
          intro heq
          have hnew := P.takeOnChain_dhRemote
            (P.ratcheted (P.skipTo s h.prevChainLen) h.dhPublic rng) h.msgNum
          rw [heq] at hnew
          exact hrem hnew

end Primitives

/-! ### A replayed message -/

namespace Replay

/-- Alice's first chain key, when the secrets of Bob's pre-key and of her ratchet key are 0
and 1. -/
def chainKey : SymKey (Multiset ℕ) :=
  (expSymbolic ℕ).chainStep .secret (expDh 1 (expPublic 0))

/-- The header of Alice's message number `n`. -/
def header (n : UInt32) : Header (Multiset ℕ) :=
  { dhPublic := expPublic 1, prevChainLen := 0, msgNum := n }

/-- Alice's ciphertext number `n`, with text `m`. -/
def sent (n m : ℕ) : SymCipher (Multiset ℕ) ℕ :=
  let mk := (expSymbolic ℕ).msgKey ((expSymbolic ℕ).chainAt chainKey n)
  .sealed mk ((expSymbolic ℕ).nonceOf mk) [] m

/-- Bob, after he has received Alice's first message. -/
def received : RatchetState ℕ (Multiset ℕ) (SymKey (Multiset ℕ)) :=
  (expSymbolic ℕ).run (RatchetState.initBob .secret 0 (expPublic 0))
    [.decrypt (header 0) (sent 0 10) 2]

end Replay

open Replay Primitives in
/-- The replay is not turned away, so it changes the state. -/
theorem replay_unchanged_iff :
    ((expSymbolic ℕ).decrypt received (header 0) (sent 0 10) 2).2 = received ↔
      received.TurnedAway (header 0) :=
  (expSymbolic ℕ).decrypt_error_unchanged_iff received (header 0) (sent 0 10) 2
    .decryptionFailed rfl

open Replay Primitives in
/-- **Replaying a message to its receiver costs the next one.**  The replay is rejected, but takes
a key of the receiving chain, and the genuine second message no longer decrypts. -/
theorem replay_changes_state :
    (expSymbolic ℕ).Reachable received ∧
      ((expSymbolic ℕ).decrypt received (header 0) (sent 0 10) 2).1 = .error .decryptionFailed ∧
      ((expSymbolic ℕ).decrypt received (header 0) (sent 0 10) 2).2 ≠ received ∧
      ((expSymbolic ℕ).decrypt received (header 1) (sent 1 20) 2).1 = .ok 20 ∧
      ((expSymbolic ℕ).decrypt ((expSymbolic ℕ).decrypt received (header 0) (sent 0 10) 2).2
        (header 1) (sent 1 20) 2).1 = .error .decryptionFailed := by
  refine ⟨⟨_, _, .bob .secret 0 (expPublic 0), rfl⟩, rfl, ?_, rfl, rfl⟩
  intro h
  have hnum := congrArg RatchetState.msgNumRecv h
  exact absurd hnum (by decide)

end Sanctum
