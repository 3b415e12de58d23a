/-
The symbolic model of the cryptography, and what an attacker can derive in it.

Keys are terms: HKDF is a free constructor, so that its outputs are injective in all its inputs and
independent for different info strings and blocks, and a ciphertext is the sealed message itself,
which opens under the very key, nonce and associated data it was sealed with and under no other.
The Diffie–Hellman group is left open, since most results hold whatever the attacker can do in it;
`Sanctum.expPublic` and `Sanctum.expDh` are the usual group of exponents, in which an element is
the multiset of the secrets it has been raised to.

Main definitions:

* `Sanctum.SymKey`, `Sanctum.SymCipher`, `Sanctum.symbolic` — terms, and the primitives on them;
* `Sanctum.SymKey.forest` — **the forest of derived keys**;
* `Sanctum.SymKey.turn` — the number of root chain steps behind a key;
* `Sanctum.Msg`, `Sanctum.Derivable` — the messages of the model, and the closure of a set of
  messages under the operations an attacker has.

Main results:

* `Sanctum.Derivable.key_anc` — a derivable key descends from a known key or from an output of a
  key agreement;
* `Sanctum.Derivable.sealed_cases` — a derivable ciphertext is known, or its key is derivable.
-/

import Sanctum.Forest
import Sanctum.RatchetSpec

set_option relaxedAutoImplicit false
set_option autoImplicit false

namespace Sanctum

/-! ### Terms -/

/-- **Symbolic 32-byte keys.**  `secret` is the shared secret of the session under study, `atom`
any other random key, and the two remaining constructors are the blocks of HKDF outputs. -/
inductive SymKey (Grp : Type)
  | secret
  | atom (n : ℕ)
  | agreed (dhs : List Grp) (salt : Option Grp) (info : String) (block : ℕ)
  | expand (ikm : SymKey Grp) (salt : Option Grp) (info : String) (block : ℕ)

namespace SymKey

variable {Grp : Type}

/-- Equality of terms is decidable, by comparing them constructor by constructor. -/
def decEq [DecidableEq Grp] : (a b : SymKey Grp) → Decidable (a = b)
  | secret, secret => isTrue rfl
  | atom m, atom n => decidable_of_iff (m = n) (by simp)
  | agreed d s i b, agreed d' s' i' b' =>
    decidable_of_iff (d = d' ∧ s = s' ∧ i = i' ∧ b = b') (by simp)
  | expand k s i b, expand k' s' i' b' =>
    haveI := decEq k k'
    decidable_of_iff (k = k' ∧ s = s' ∧ i = i' ∧ b = b') (by simp)
  | secret, atom _ => isFalse nofun
  | secret, agreed .. => isFalse nofun
  | secret, expand .. => isFalse nofun
  | atom _, secret => isFalse nofun
  | atom _, agreed .. => isFalse nofun
  | atom _, expand .. => isFalse nofun
  | agreed .., secret => isFalse nofun
  | agreed .., atom _ => isFalse nofun
  | agreed .., expand .. => isFalse nofun
  | expand .., secret => isFalse nofun
  | expand .., atom _ => isFalse nofun
  | expand .., agreed .. => isFalse nofun

instance [DecidableEq Grp] : DecidableEq (SymKey Grp) := decEq

/-- The key a key is expanded from. -/
def parent : SymKey Grp → Option (SymKey Grp)
  | expand k _ _ _ => some k
  | _ => none

/-- The number of expansions in a key. -/
def depth : SymKey Grp → ℕ
  | expand k _ _ _ => depth k + 1
  | _ => 0

/-- **The forest of derived keys.** -/
def forest : Forest (SymKey Grp) where
  parent := parent
  rank := depth
  rank_lt := by
    intro a b h
    cases b with
    | expand k s i n =>
        obtain rfl : k = a := Option.some_inj.1 h
        exact Nat.lt_succ_self _
    | _ => exact absurd h (by simp [parent])

theorem parent_expand (k : SymKey Grp) (s : Option Grp) (i : String) (n : ℕ) :
    forest.parent (expand k s i n) = some k := rfl

/-- The number of root chain steps behind a key. -/
def turn : SymKey Grp → ℕ
  | expand k _ i _ => turn k + if i = "ratchet_root" then 1 else 0
  | _ => 0

/-- Deriving never undoes a root chain step. -/
theorem turn_le_of_anc {a b : SymKey Grp} (h : forest.Anc a b) : turn a ≤ turn b := by
  induction h with
  | refl => exact le_rfl
  | @tail p b _ hb ih =>
      cases b with
      | expand k s i n =>
          obtain rfl : k = p := Option.some_inj.1 hb
          exact ih.trans (Nat.le_add_right _ _)
      | _ => exact absurd hb (by simp [forest, parent])

end SymKey

/-- Symbolic ciphertexts: a sealed message, or bytes that nobody sealed. -/
inductive SymCipher (Grp Plain : Type)
  | sealed (key nonce : SymKey Grp) (aad : List UInt8) (m : Plain)
  | junk (n : ℕ)

/-! ### The primitives -/

variable {Sec Grp Plain : Type} [DecidableEq Grp]

variable (Plain) in
/-- **The symbolic primitives**, over a Diffie–Hellman group.  The 12 bytes of a nonce stand for
the block they are taken from. -/
def symbolic (pub : Sec → Grp) (dh : Sec → Grp → Grp) :
    Primitives Sec Grp (SymKey Grp) (SymKey Grp) Plain (SymCipher Grp Plain) where
  publicKey := pub
  diffieHellman := dh
  hkdf ikm salt info block :=
    match ikm with
    | .key k => .expand k salt info block
    | .concat dhs => .agreed dhs salt info block
  first12 := id
  aeadSeal key nonce m aad := some (.sealed key nonce aad m)
  aeadOpen key nonce c aad :=
    match c with
    | .sealed key' nonce' aad' m =>
      if key' = key ∧ nonce' = nonce ∧ aad' = aad then some m else none
    | .junk _ => none

variable (pub : Sec → Grp) (dh : Sec → Grp → Grp)

/-- The AEAD opens nothing but what was sealed under the same key, nonce and data. -/
theorem symbolic_open_iff {k n : SymKey Grp} {c : SymCipher Grp Plain} {aad : List UInt8}
    {m : Plain} :
    (symbolic Plain pub dh).aeadOpen k n c aad = some m ↔ c = .sealed k n aad m := by
  cases c with
  | junk i => simp [symbolic]
  | sealed k' n' aad' m' =>
      simp only [symbolic, Option.ite_none_right_eq_some, Option.some.injEq, SymCipher.sealed.injEq]
      tauto

theorem symbolic_aeadInverts : (symbolic Plain pub dh).AeadInverts := fun k n m aad =>
  ⟨.sealed k n aad m, rfl, (symbolic_open_iff pub dh).2 rfl⟩

/-! ### The group of exponents -/

/-- A public key is the base point raised to the secret. -/
def expPublic (s : ℕ) : Multiset ℕ := {s}

/-- A shared secret is an element raised to one more secret. -/
def expDh (s : ℕ) (e : Multiset ℕ) : Multiset ℕ := s ::ₘ e

theorem expDh_comm (a b : ℕ) : expDh a (expPublic b) = expDh b (expPublic a) :=
  Multiset.cons_swap a b 0

theorem expDh_injective (a : ℕ) : Function.Injective (expDh a) := fun _ _ h =>
  (Multiset.cons_inj_right a).1 h

/-- The symbolic primitives over the group of exponents. -/
def expSymbolic (Plain : Type) :
    Primitives ℕ (Multiset ℕ) (SymKey (Multiset ℕ)) (SymKey (Multiset ℕ)) Plain
      (SymCipher (Multiset ℕ) Plain) :=
  symbolic Plain expPublic expDh

theorem expSymbolic_dhCommutes (Plain : Type) : (expSymbolic Plain).DhCommutes := expDh_comm

theorem expSymbolic_dhDetermines (Plain : Type) : (expSymbolic Plain).DhDetermines :=
  fun a _ _ hshared => expDh_injective a hshared

/-! ### What an attacker can derive -/

/-- The messages of the symbolic model. -/
inductive Msg (Sec Grp Plain : Type)
  | sec (s : Sec)
  | grp (e : Grp)
  | key (k : SymKey Grp)
  | cipher (c : SymCipher Grp Plain)
  | data (m : Plain)

/-- **Derivability** from a set of known messages: the closure under public keys, Diffie–Hellman,
`derive_subkey` (which covers `kdf_rk`, `kdf_ck`, the nonce and the key agreement), sealing and
opening. -/
inductive Derivable (known : Set (Msg Sec Grp Plain)) : Msg Sec Grp Plain → Prop
  | known {m : Msg Sec Grp Plain} : m ∈ known → Derivable known m
  | publicKey {s : Sec} : Derivable known (.sec s) → Derivable known (.grp (pub s))
  | diffieHellman {s : Sec} {e : Grp} : Derivable known (.sec s) → Derivable known (.grp e) →
      Derivable known (.grp (dh s e))
  | expand {k : SymKey Grp} {salt : Option Grp} (info : String) (block : ℕ) :
      Derivable known (.key k) → (∀ e ∈ salt, Derivable known (.grp e)) →
      Derivable known (.key (.expand k salt info block))
  | agreed {dhs : List Grp} {salt : Option Grp} (info : String) (block : ℕ) :
      (∀ e ∈ dhs, Derivable known (.grp e)) → (∀ e ∈ salt, Derivable known (.grp e)) →
      Derivable known (.key (.agreed dhs salt info block))
  | seal' {k : SymKey Grp} {m : Plain} (nonce : SymKey Grp) (aad : List UInt8) :
      Derivable known (.key k) → Derivable known (.data m) →
      Derivable known (.cipher (.sealed k nonce aad m))
  | open' {k nonce : SymKey Grp} {aad : List UInt8} {m : Plain} : Derivable known (.key k) →
      Derivable known (.cipher (.sealed k nonce aad m)) → Derivable known (.data m)
  | junk (n : ℕ) : Derivable known (.cipher (.junk n))

variable {pub dh} {known : Set (Msg Sec Grp Plain)}

open SymKey in
omit [DecidableEq Grp] in
/-- **A derivable key descends from a known key**, or from the output of a key agreement. -/
theorem Derivable.key_anc {k : SymKey Grp} (h : Derivable pub dh known (.key k)) :
    ∃ k₀, forest.Anc k₀ k ∧ (.key k₀ ∈ known ∨ ∃ d s i b, k₀ = .agreed d s i b) := by
  suffices haux : ∀ m, Derivable pub dh known m → ∀ k, m = .key k → ∃ k₀, forest.Anc k₀ k ∧
      (.key k₀ ∈ known ∨ ∃ d s i b, k₀ = .agreed d s i b) from haux _ h k rfl
  intro m hm
  induction hm with
  | known hm => rintro k rfl; exact ⟨k, Forest.Anc.refl k, Or.inl hm⟩
  | expand info block _ _ ih _ =>
      rintro k' ⟨⟩
      obtain ⟨k₀, hanc, hk₀⟩ := ih _ rfl
      exact ⟨k₀, Forest.anc_child (parent_expand ..) hanc, hk₀⟩
  | agreed info block _ _ _ _ =>
      rintro k ⟨⟩
      exact ⟨_, Forest.Anc.refl _, Or.inr ⟨_, _, _, _, rfl⟩⟩
  | _ => rintro k ⟨⟩

omit [DecidableEq Grp] in
/-- A derivable sealed message is known, or its key is derivable. -/
theorem Derivable.sealed_cases {k n : SymKey Grp} {aad : List UInt8} {m : Plain}
    (h : Derivable pub dh known (.cipher (.sealed k n aad m))) :
    .cipher (.sealed k n aad m) ∈ known ∨ Derivable pub dh known (.key k) := by
  cases h with
  | known hm => exact Or.inl hm
  | seal' _ _ hk _ => exact Or.inr hk

end Sanctum
