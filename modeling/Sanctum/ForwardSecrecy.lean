/-
Forward secrecy.

A party that is compromised gives away its ratchet state, and with it everything that can be
derived from it.  The keys of the messages it has already sent and received are not among that:
the state holds no ancestor of them, since the keys held and the keys used form an antichain, and
the only other source of keys, the outputs of key agreements, are not ancestors of a key of the
session either.

Main definitions:

* `Sanctum.RatchetState.contents` — the secrets in a state;
* `Sanctum.publicData` — everything that is not a symmetric key.

Main results:

* `Sanctum.Net.forward_secrecy` — **the key of a message that a party has sent or received is not
  derivable from its state**, at any later moment of any run.
-/

import Sanctum.KeyUse

set_option relaxedAutoImplicit false
set_option autoImplicit false

namespace Sanctum

open SymKey

variable {Sec Grp Plain : Type} [DecidableEq Grp]

/-- **The secrets in a ratchet state**: its private key, its root key, both chain keys and all
skipped message keys. -/
def RatchetState.contents (s : RatchetState Sec Grp (SymKey Grp)) : Set (Msg Sec Grp Plain) :=
  {msg | msg = .sec s.dhSelfSecret ∨ msg = .key s.rootKey ∨
    (∃ ck, s.chainKeySend = some ck ∧ msg = .key ck) ∨
    (∃ ck, s.chainKeyRecv = some ck ∧ msg = .key ck) ∨
    ∃ entry k, s.skippedKeys.lookup entry = some k ∧ msg = .key k}

/-- Everything that is not a symmetric key: all headers and ciphertexts, and beyond what an
observer sees even all plaintexts and all Diffie–Hellman secrets. -/
def publicData (Sec Grp Plain : Type) : Set (Msg Sec Grp Plain) := {msg | ∀ k, msg ≠ .key k}

/-- The keys in a state are those it holds in a slot other than the used ones. -/
theorem RatchetState.exists_slot_of_mem_contents {s : RatchetState Sec Grp (SymKey Grp)}
    {k : SymKey Grp} (used : List (SymKey Grp))
    (h : (.key k : Msg Sec Grp Plain) ∈ s.contents) :
    ∃ slot, (∀ i, slot ≠ .used i) ∧ s.held used slot = some k := by
  rcases h with h | h | ⟨ck, hck, h⟩ | ⟨ck, hck, h⟩ | ⟨entry, k', hk, h⟩
  · exact absurd h (by simp)
  · cases h
    exact ⟨.root, nofun, rfl⟩
  · cases h
    exact ⟨.send, nofun, hck⟩
  · cases h
    exact ⟨.recv, nofun, hck⟩
  · cases h
    exact ⟨.skipped entry, nofun, hk⟩

variable {pub : Sec → Grp} {dh : Sec → Grp → Grp}

/-- The ratchet level: a used key of a frontier below the shared secret is out of reach. -/
theorem not_derivable_used {s : RatchetState Sec Grp (SymKey Grp)} {used : List (SymKey Grp)}
    (hfront : forest.Frontier .secret (s.held used)) {k : SymKey Grp} (hk : k ∈ used) :
    ¬ Derivable pub dh (s.contents ∪ publicData Sec Grp Plain) (.key k) := by
  obtain ⟨i, hi⟩ := List.getElem?_of_mem hk
  have hslot : s.held used (.used i) = some k := hi
  intro hder
  obtain ⟨k₀, hanc, hmem | ⟨d, salt, info, block, rfl⟩⟩ := hder.key_anc
  · rcases hmem with hmem | hmem
    · -- a key in the state is not an ancestor of a used one
      obtain ⟨slot, hne, hheld⟩ := RatchetState.exists_slot_of_mem_contents used hmem
      exact hfront.antichain.not_anc hheld hslot (hne i) hanc
    · exact hmem k₀ rfl
  · -- the shared secret of the session is not the output of a key agreement
    have hroot := hfront.below (.used i) k hslot
    exact absurd (Forest.Anc.root_unique rfl rfl hroot hanc) (by simp)

namespace Net

/-- **Forward secrecy.**  In every run, whatever the network delivers, the key of a message that a
party has successfully encrypted or decrypted is not derivable from the state of that party at any
later moment, together with everything that is not a symmetric key. -/
theorem forward_secrecy {allowed : Inputs Sec Grp (SymKey Grp) Plain (SymCipher Grp Plain)}
    {spk rng : Sec} {w : SymNet Sec Grp Plain}
    (hw : Reaches (symbolic Plain pub dh) allowed .secret spk rng w) {p : Party} {k : SymKey Grp}
    {h : Header Grp} {c : SymCipher Grp Plain} {m : Plain}
    (he : .encrypted p k h c m ∈ w.log ∨ .decrypted p k h c m ∈ w.log) :
    ¬ Derivable pub dh ((w.peer p).contents ∪ publicData Sec Grp Plain) (.key k) := by
  refine not_derivable_used (hw.keysKept.frontier p) ?_
  rcases he with he | he
  · exact mem_usedKeys_of_encrypted he
  · exact mem_usedKeys_of_decrypted he

end Net

/-- In the short run, Bob's state after his answer does not give away Alice's message. -/
theorem exchange_forward_secrecy :
    ¬ Derivable expPublic expDh
      ((Exchange.answered.peer .bob).contents ∪ publicData ℕ (Multiset ℕ) ℕ)
      (.key ((expSymbolic ℕ).msgKey
        ((expSymbolic ℕ).chainStep .secret (expDh 0 (expPublic 1))))) := by
  have hreach : Net.Reaches (expSymbolic ℕ) Net.Anything .secret 0 1 Exchange.answered :=
    Exchange.reaches trivial
  exact Net.forward_secrecy (h := Replay.header 0) (c := Replay.sent 0 10) (m := 10) hreach
    (Or.inr (List.mem_of_getElem? (i := 1) rfl))

end Sanctum
