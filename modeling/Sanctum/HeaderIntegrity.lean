/-
Altered headers.

The AEAD is called with no associated data, so a header is bound to its message only through the key
it selects.  That binds the ratchet key as far as the group tells keys apart: a key has one place in the root
chain, and parties that agree on it share the same elements.  It binds the message number, except that a number
the receiving chain has passed and not stored stands for the next one.  It does not bind the length of
the previous chain, which selects no key and is only compared with the limit on skipping, when the
header starts a new chain.

Main definitions:

* `Sanctum.Net.OnTraces` — the ratchets of a run sit on traces, and so do the messages sent;
* `Sanctum.Primitives.Tolerates` — **the headers that lead a state to a genuine message**.

Main results:

* `Sanctum.Net.OnTraces.sameShared` — an accepted header has a ratchet key that the group does not tell from
  that of the message;
* `Sanctum.Net.header_integrity_iff` — **an altered header is rejected exactly when it is not one of
  these**;
* `Sanctum.altered_header_accepted` — a message whose header has been altered is accepted.
-/

import Sanctum.KeyUse
import Sanctum.RootTrace

set_option relaxedAutoImplicit false
set_option autoImplicit false

namespace Sanctum

open Primitives

variable {Sec Grp Plain : Type} [DecidableEq Grp]
variable {pub : Sec → Grp} {dh : Sec → Grp → Grp}

namespace Net

/-! ### Runs and their traces -/

variable (pub dh) in
/-- **The ratchets of a run sit on traces**, and every message sent on the trace of its sender, under
the public key of the secret of its chain. -/
structure OnTraces (spk : Sec) (w : SymNet Sec Grp Plain)
    (trace : Party → List (Sec × Grp)) : Prop where
  state : ∀ p, (symbolic Plain pub dh).Traced .secret spk p (trace p) (w.peer p)
  sent : ∀ p k h c m, .encrypted p k h c m ∈ w.log →
    c = .sealed k ((symbolic Plain pub dh).nonceOf k) [] m ∧
    ∃ x e u i, (x, e) :: u <:+ trace p ∧ h.dhPublic = pub x ∧ h.msgNum = UInt32.ofNat i ∧
      k = (symbolic Plain pub dh).msgKey
        ((symbolic Plain pub dh).chainAt ((symbolic Plain pub dh).chainOf .secret x e u) i)

theorem onTraces_start {spk rng : Sec} {w : SymNet Sec Grp Plain}
    (hw : start (symbolic Plain pub dh) .secret spk rng = .ok w) :
    ∃ trace, w.OnTraces pub dh spk trace := by
  obtain ⟨ha, hb, -, hlog⟩ := (start_eq_ok_iff _).1 hw
  refine ⟨fun p => if p = .alice then [(rng, pub spk)] else [], ?_, by simp [hlog]⟩
  intro p
  cases p with
  | alice => exact ha ▸ traced_aliceStart _ spk rng
  | bob => exact hb ▸ traced_initBob _ spk

theorem OnTraces.encrypt {spk : Sec} {w : SymNet Sec Grp Plain}
    {trace : Party → List (Sec × Grp)} (h : w.OnTraces pub dh spk trace) (p : Party) (m : Plain) :
    (w.encrypt (symbolic Plain pub dh) p m).OnTraces pub dh spk trace := by
  cases hck : (w.peer p).chainKeySend with
  | none => rwa [encrypt_of_none hck]
  | some ck =>
      rw [encrypt_symbolic w p m hck]
      refine ⟨?_, ?_⟩
      · exact forall_update_peer
          (motive := fun q t => (symbolic Plain pub dh).Traced .secret spk q (trace q) t)
          (traced_stepSend hck (h.state p)) fun q _ => h.state q
      · intro q k hd c m' he
        rcases List.mem_append.1 he with he | he
        · exact h.sent q k hd c m' he
        · cases List.mem_singleton.1 he
          -- the new message is at the end of the sending chain
          have hs := h.state p
          obtain ⟨x, e, u, i, ht, hi, rfl⟩ := hs.send ck hck
          refine ⟨rfl, x, e, u, i, ht ▸ List.suffix_refl _, ?_, hi, rfl⟩
          have hself : (w.peer p).dhSelfPublic = pub (w.peer p).dhSelfSecret := hs.pub
          rw [RatchetState.nextHeader, hself, hs.secret, ht]
          rfl

theorem OnTraces.decrypt {spk : Sec} {w : SymNet Sec Grp Plain}
    {trace : Party → List (Sec × Grp)} (h : w.OnTraces pub dh spk trace) (p : Party)
    (hd : Header Grp) (c : SymCipher Grp Plain) (rng : Sec) :
    ∃ trace', (w.decrypt (symbolic Plain pub dh) p hd c rng).OnTraces pub dh spk trace' := by
  obtain ⟨hpeer, -⟩ := decrypt_cases (P := symbolic Plain pub dh) w p hd c rng
  obtain ⟨t, ht, htraced⟩ := traced_takeKey hd rng (h.state p)
  have hgrow : ∀ q, trace q <:+ Function.update trace p t q := by
    intro q
    by_cases hq : q = p
    · subst hq
      rwa [Function.update_self]
    · rw [Function.update_of_ne hq]
  refine ⟨Function.update trace p t, ?_, ?_⟩
  · intro q
    rw [hpeer]
    by_cases hq : q = p
    · subst hq
      rwa [Function.update_self, Function.update_self]
    · rw [Function.update_of_ne hq, Function.update_of_ne hq]
      exact h.state q
  · intro q k h' c' m' he
    obtain ⟨hc, x, e, u, i, hu, hplace⟩ := h.sent q k h' c' m' (encrypted_of_mem_decrypt he)
    exact ⟨hc, x, e, u, i, hu.trans (hgrow q), hplace⟩

/-- Every run has traces, whatever the network delivers. -/
theorem Reaches.onTraces {allowed : Inputs Sec Grp (SymKey Grp) Plain (SymCipher Grp Plain)}
    {spk rng : Sec} {w : SymNet Sec Grp Plain}
    (hw : Reaches (symbolic Plain pub dh) allowed .secret spk rng w) :
    ∃ trace, w.OnTraces pub dh spk trace :=
  hw.induction (fun _ => onTraces_start) (fun _ p m ⟨trace, h⟩ => ⟨trace, h.encrypt p m⟩)
    fun _ p hd c r _ ⟨_, h⟩ => h.decrypt p hd c r

end Net

/-! ### Tolerated headers -/

namespace Primitives

variable {Key Nonce Cipher : Type} (P : Primitives Sec Grp Key Nonce Plain Cipher)

/-- **The headers that lead a state to the message** with key `k` and header `h`.  Either a key is stored under
the ratchet key and the number, and it is the key of the message, whose number is kept as well; or none is, and
the chain of the ratchet key, the current one or the one that its element with the secret of the state starts,
has the key of the message at its number, and the header gets there without exceeding a limit on skipping.  On
the current chain any number that has been passed leads to the next message. -/
def Tolerates (s : RatchetState Sec Grp Key) (k : Key) (h h' : Header Grp) : Prop :=
  match s.skippedKeys.lookup (h'.dhPublic, h'.msgNum) with
  | some k' => k' = k ∧ h'.msgNum = h.msgNum
  | none => P.keyAt s h'.dhPublic h.msgNum = some k ∧
    if s.dhRemote = some h'.dhPublic then
      max s.msgNumRecv.toNat h'.msgNum.toNat = h.msgNum.toNat ∧ ¬ s.TooFar h'.msgNum
    else h'.msgNum = h.msgNum ∧ ¬ s.TooFar h'.prevChainLen ∧ h'.msgNum ≤ MAX_SKIP

variable {P}

/-- The keys at numbers that are as far ahead on the current chain are the same. -/
theorem keyAt_congr {s : RatchetState Sec Grp Key} {e : Grp} {n n' : UInt32} (hrem : s.dhRemote = some e)
    (hcount : s.skipCount n = s.skipCount n') : P.keyAt s e n = P.keyAt s e n' := by
  rw [keyAt, keyAt, if_pos hrem, if_pos hrem, hcount]

/-- A header that is tolerated selects the key of the message. -/
theorem takeKey_of_tolerates {s : RatchetState Sec Grp Key} {k : Key} {h h' : Header Grp}
    (fresh : Sec) (htol : P.Tolerates s k h h') : (P.takeKey s h' fresh).1 = .ok k := by
  rw [P.takeKey_eq_ok_iff]
  unfold Tolerates at htol
  cases hlook : s.skippedKeys.lookup (h'.dhPublic, h'.msgNum) with
  | some k' =>
      rw [hlook] at htol
      exact htol.1
  | none =>
      rw [hlook] at htol
      obtain ⟨hkey, hlimit⟩ := htol
      by_cases hrem : s.dhRemote = some h'.dhPublic
      · simp only [if_pos hrem] at hlimit ⊢
        obtain ⟨hmax, hnear⟩ := hlimit
        have hcount : s.skipCount h'.msgNum = s.skipCount h.msgNum := by
          simp only [RatchetState.skipCount]
          omega
        exact ⟨(keyAt_congr hrem hcount).trans hkey, hnear⟩
      · simp only [if_neg hrem] at hlimit ⊢
        obtain ⟨hnum, hnear⟩ := hlimit
        exact ⟨hnum ▸ hkey, hnear⟩

/-- The number of the message that a header leads to: the one it names, but on the current chain the next one for
a number that has been passed. -/
def numberAt (s : RatchetState Sec Grp Key) (h : Header Grp) : UInt32 :=
  match s.skippedKeys.lookup (h.dhPublic, h.msgNum) with
  | some _ => h.msgNum
  | none =>
    if s.dhRemote = some h.dhPublic then s.msgNumRecv + UInt32.ofNat (s.skipCount h.msgNum) else h.msgNum

/-- **The key that a header selects sits on a trace**, under its ratchet key and the number it leads to.  For a
new chain the trace is the one that the first half of the DH ratchet makes. -/
theorem Traced.place_of_takeKey {sk : Key} {spk : Sec} {p : Party} {t : List (Sec × Grp)}
    {s : RatchetState Sec Grp Key} (hs : P.Traced sk spk p t s) {h : Header Grp} {fresh : Sec} {k : Key}
    (hk : (P.takeKey s h fresh).1 = .ok k) :
    ∃ t' ck, P.Linked spk p t' ∧ P.Place sk t' h.dhPublic (numberAt s h) ck ∧ k = P.msgKey ck := by
  rw [takeKey_eq_ok_iff] at hk
  unfold numberAt
  cases hlook : s.skippedKeys.lookup (h.dhPublic, h.msgNum) with
  | some k' =>
      rw [hlook] at hk
      obtain rfl := hk
      obtain ⟨ck, hplace, hmk⟩ := hs.skipped _ _ _ hlook
      exact ⟨t, ck, hs.linked, hplace, hmk⟩
  | none =>
      rw [hlook] at hk
      obtain ⟨hkey, -⟩ := hk
      by_cases hrem : s.dhRemote = some h.dhPublic
      · rw [keyAt, if_pos hrem] at hkey
        obtain ⟨ck, hck, hmk⟩ := Option.map_eq_some_iff.1 hkey
        obtain ⟨e, he, hplace⟩ := hs.recv ck hck
        obtain rfl := Option.some_inj.1 (hrem.symm.trans he)
        refine ⟨t, _, hs.linked, ?_, hmk.symm⟩
        simp only [if_pos hrem]
        exact hplace.chainAt _
      · rw [keyAt, if_neg hrem] at hkey
        -- the turn is the other party's, so the first half of the DH ratchet uses the secret of the last step
        refine ⟨(s.dhSelfSecret, h.dhPublic) :: t, _, ⟨?_, hs.linked⟩, ?_, (Option.some_inj.1 hkey).symm⟩
        · rw [if_neg (by have := hs.turn; omega)]
          exact hs.secret
        · simp only [if_neg hrem]
          refine ⟨_, _, h.msgNum.toNat, List.suffix_refl _, UInt32.ofNat_toNat.symm, ?_⟩
          rw [chainOf, hs.root]

end Primitives

namespace Net

section Header

variable {spk : Sec} {w : SymNet Sec Grp Plain} {trace : Party → List (Sec × Grp)} {p : Party}
  {k : SymKey Grp} {h h' : Header Grp} {c : SymCipher Grp Plain} {m : Plain} {fresh : Sec}

/-- A header that selects the key of a message of the other party leads to its number. -/
theorem OnTraces.numberAt_eq (ht : w.OnTraces pub dh spk trace) (he : .encrypted p.other k h c m ∈ w.log)
    (hk : ((symbolic Plain pub dh).takeKey (w.peer p) h' fresh).1 = .ok k) :
    numberAt (w.peer p) h' = h.msgNum := by
  obtain ⟨-, x, f, u, i, -, -, hnum, rfl⟩ := ht.sent _ _ _ _ _ he
  obtain ⟨t', ck, -, hplace, hmk⟩ := (ht.state p).place_of_takeKey hk
  obtain ⟨rfl, -, -, -⟩ := SymKey.expand.inj hmk
  rw [hnum]
  exact hplace.msgNum_eq

/-- **It has a ratchet key that the group does not tell from that of the message.** -/
theorem OnTraces.sameShared (hcomm : (symbolic Plain pub dh).DhCommutes)
    (huniform : (symbolic Plain pub dh).DhUniform) (ht : w.OnTraces pub dh spk trace)
    (he : .encrypted p.other k h c m ∈ w.log)
    (hk : ((symbolic Plain pub dh).takeKey (w.peer p) h' fresh).1 = .ok k) :
    (symbolic Plain pub dh).SameShared h'.dhPublic h.dhPublic := by
  obtain ⟨-, x, f, u, i, hu, hdh, -, rfl⟩ := ht.sent _ _ _ _ _ he
  obtain ⟨t', ck, hlinked, hplace, hmk⟩ := (ht.state p).place_of_takeKey hk
  obtain ⟨rfl, -, -, -⟩ := SymKey.expand.inj hmk
  rw [hdh]
  exact hplace.sameShared hcomm huniform hlinked (ht.state p.other).linked hu

/-- **It is tolerated.** -/
theorem OnTraces.tolerates (ht : w.OnTraces pub dh spk trace) (he : .encrypted p.other k h c m ∈ w.log)
    (hk : ((symbolic Plain pub dh).takeKey (w.peer p) h' fresh).1 = .ok k) :
    (symbolic Plain pub dh).Tolerates (w.peer p) k h h' := by
  have hnum := ht.numberAt_eq he hk
  rw [takeKey_eq_ok_iff] at hk
  unfold numberAt at hnum
  unfold Tolerates
  cases hlook : (w.peer p).skippedKeys.lookup (h'.dhPublic, h'.msgNum) with
  | some k' =>
      rw [hlook] at hk hnum
      exact ⟨hk, hnum⟩
  | none =>
      rw [hlook] at hk hnum
      obtain ⟨hkey, hlimit⟩ := hk
      by_cases hrem : (w.peer p).dhRemote = some h'.dhPublic
      · simp only [if_pos hrem] at hlimit hnum ⊢
        -- the number that the chain gets to is the larger one of its next number and the one named
        have hmax := (w.peer p).toNat_add_skipCount h'.msgNum
        rw [hnum] at hmax
        have hcount : (w.peer p).skipCount h.msgNum = (w.peer p).skipCount h'.msgNum := by
          simp only [RatchetState.skipCount]
          omega
        exact ⟨(keyAt_congr hrem hcount).trans hkey, hmax.symm, hlimit⟩
      · simp only [if_neg hrem] at hlimit hnum ⊢
        exact ⟨hnum ▸ hkey, hnum, hlimit⟩

end Header

/-- **Header integrity, as far as it goes.**  In every reachable state of a receiver, a genuine
message of the other party with an altered header is rejected exactly when the altered header is not
one of those that lead the state to the message.  Those have a ratchet key that shares the same elements as the
one of the message, if whether two keys do so does not depend on the secret. -/
theorem header_integrity_iff {allowed : Inputs Sec Grp (SymKey Grp) Plain (SymCipher Grp Plain)}
    {spk rng : Sec} {w : SymNet Sec Grp Plain}
    (hw : Reaches (symbolic Plain pub dh) allowed .secret spk rng w)
    {p : Party} {k : SymKey Grp} {h : Header Grp} {c : SymCipher Grp Plain} {m : Plain}
    (he : .encrypted p.other k h c m ∈ w.log) (h' : Header Grp) (fresh : Sec) :
    ((∀ m', ((symbolic Plain pub dh).decrypt (w.peer p) h' c fresh).1 = .ok m' → h' = h) ↔
      h' = h ∨ ¬ (symbolic Plain pub dh).Tolerates (w.peer p) k h h') ∧
    ((symbolic Plain pub dh).DhCommutes → (symbolic Plain pub dh).DhUniform →
      (symbolic Plain pub dh).Tolerates (w.peer p) k h h' →
      (symbolic Plain pub dh).SameShared h'.dhPublic h.dhPublic) := by
  obtain ⟨trace, ht⟩ := hw.onTraces
  obtain ⟨rfl, -⟩ := ht.sent _ _ _ _ _ he
  refine ⟨⟨?_, ?_⟩, ?_⟩
  · intro hbound
    by_contra hslack
    obtain ⟨hne, htol⟩ := not_or.1 hslack
    refine hne (hbound m ((symbolic Plain pub dh).decrypt_eq_ok_iff.2 ?_))
    exact ⟨k, takeKey_of_tolerates fresh (not_not.1 htol), (symbolic_open_iff pub dh).2 rfl⟩
  · intro hbound m' hok
    obtain ⟨k', hk', hopen⟩ := (symbolic Plain pub dh).decrypt_eq_ok_iff.1 hok
    obtain ⟨rfl, -, -, -⟩ := SymCipher.sealed.inj ((symbolic_open_iff pub dh).1 hopen)
    exact hbound.resolve_right (not_not.2 (ht.tolerates he hk'))
  · intro hcomm huniform htol
    exact ht.sameShared hcomm huniform he (takeKey_of_tolerates fresh htol)

end Net

/-! ### An altered header -/

namespace Exchange

/-- The header of Alice's message, with another length of the previous chain. -/
def altered : Header (Multiset ℕ) := { Replay.header 0 with prevChainLen := 5 }

end Exchange

/-! ### A group that ignores a bit -/

namespace Masked

/-- Public keys with one bit more, which is ignored as X25519 ignores the highest one. -/
def publicKey (s : ℕ) : Multiset ℕ × Bool := (expPublic s, false)

def diffieHellman (s : ℕ) (e : Multiset ℕ × Bool) : Multiset ℕ × Bool := (expDh s e.1, false)

/-- The symbolic primitives over this group. -/
def primitives : Primitives ℕ (Multiset ℕ × Bool) (SymKey (Multiset ℕ × Bool))
    (SymKey (Multiset ℕ × Bool)) ℕ (SymCipher (Multiset ℕ × Bool) ℕ) := symbolic ℕ publicKey diffieHellman

theorem dhCommutes : primitives.DhCommutes := fun a b => congrArg (·, false) (expDh_comm a b)

theorem dhUniform : primitives.DhUniform := by
  intro a e e' h b
  have hsame : e.1 = e'.1 := expDh_injective a (congrArg Prod.fst h)
  exact congrArg (fun d => (expDh b d, false)) hsame

/-- The start of a session, with Bob's pre-key 0 and Alice's ratchet key 1. -/
def start : Net.SymNet ℕ (Multiset ℕ × Bool) ℕ where
  peer := fun
    | .alice => primitives.aliceStart .secret (publicKey 0) 1
    | .bob => RatchetState.initBob .secret 0 (publicKey 0)
  generated := [(.alice, publicKey 1), (.bob, publicKey 0)]
  log := []

/-- Alice has sent a message. -/
def sent : Net.SymNet ℕ (Multiset ℕ × Bool) ℕ := start.encrypt primitives .alice 10

/-- The header of the message. -/
def header : Header (Multiset ℕ × Bool) := { dhPublic := publicKey 1, prevChainLen := 0, msgNum := 0 }

/-- The header with the ignored bit set, and another length of the previous chain. -/
def altered : Header (Multiset ℕ × Bool) :=
  { dhPublic := (expPublic 1, true), prevChainLen := 5, msgNum := 0 }

/-- The key of the message. -/
def key : SymKey (Multiset ℕ × Bool) :=
  primitives.msgKey (primitives.chainStep .secret (diffieHellman 1 (publicKey 0)))

/-- The ciphertext of the message. -/
def cipher : SymCipher (Multiset ℕ × Bool) ℕ := .sealed key (primitives.nonceOf key) [] 10

end Masked

/-- Both sides for a header whose ratchet key differs in the ignored bit, while Alice's message is on its way: it
is tolerated, the message is accepted, and the two ratchet keys share the same elements. -/
theorem altered_header_iff :
    Masked.primitives.Tolerates (Masked.sent.peer .bob) Masked.key Masked.header Masked.altered ∧
      ¬ (∀ m', (Masked.primitives.decrypt (Masked.sent.peer .bob) Masked.altered Masked.cipher 2).1 =
        .ok m' → Masked.altered = Masked.header) ∧
      Masked.primitives.SameShared Masked.altered.dhPublic Masked.header.dhPublic := by
  have hreach : Net.Reaches Masked.primitives Net.Anything .secret 0 1 Masked.sent :=
    ⟨Masked.start, (Net.start_eq_ok_iff _).2 ⟨rfl, rfl, rfl, rfl⟩, .single (.encrypt Masked.start .alice 10)⟩
  have hmem : .encrypted Party.bob.other Masked.key Masked.header Masked.cipher 10 ∈ Masked.sent.log :=
    List.mem_singleton_self _
  have hne : Masked.altered ≠ Masked.header := by decide
  have htol : Masked.primitives.Tolerates (Masked.sent.peer .bob) Masked.key Masked.header Masked.altered := by
    refine ⟨?_, rfl, ?_, ?_⟩
    · decide
    · decide
    · decide
  obtain ⟨hiff, hshared⟩ := Net.header_integrity_iff hreach hmem Masked.altered 2
  refine ⟨htol, ?_, hshared Masked.dhCommutes Masked.dhUniform htol⟩
  intro hbound
  exact (hiff.1 hbound).elim hne fun h => h htol

/-- **A message whose header has been altered is accepted**: Bob decrypts Alice's first message
although the length of her previous chain is not the one she sent. -/
theorem altered_header_accepted :
    Net.Reaches (expSymbolic ℕ) Net.Anything .secret 0 1 Exchange.sent ∧
      ((expSymbolic ℕ).encrypt (Exchange.start.peer .alice) 10).1 =
        .ok (Replay.header 0, Replay.sent 0 10) ∧
      ((expSymbolic ℕ).decrypt (Exchange.sent.peer .bob) Exchange.altered (Replay.sent 0 10)
        2).1 = .ok 10 ∧
      Exchange.altered ≠ Replay.header 0 :=
  ⟨⟨Exchange.start, (Net.start_eq_ok_iff _).2 ⟨rfl, rfl, rfl, rfl⟩,
    .single (.encrypt Exchange.start .alice 10)⟩, rfl, rfl, by decide⟩

end Sanctum
