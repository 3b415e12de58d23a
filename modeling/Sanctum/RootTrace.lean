/-
The root steps behind a ratchet.

Each party's keys are determined by the steps of its root chain: the secret and the remote key of
each.  Receiving halves of a DH ratchet step use the party's current secret with a key it has been
handed, sending halves a fresh secret with the remote key it already has.  Every chain key and
every stored key of a party sits at a place of such a trace.  When the two parties have come to the
same root key, the remote keys of each share the same elements as the public keys of the other, whatever
they have been handed on the way there.

Main definitions:

* `Sanctum.Primitives.rootOf`, `Sanctum.Primitives.chainOf` — the keys of a trace;
* `Sanctum.Primitives.Linked` — the rules about the secrets and remote keys of a trace;
* `Sanctum.Primitives.Traced` — **the keys of a ratchet sit on a trace**.

Main results:

* `Sanctum.Primitives.traced_stepSend`, `Sanctum.Primitives.traced_takeKey` — the calls of the
  ratchet extend the trace;
* `Sanctum.chainAt_chainOf_inj` — a chain key has one place;
* `Sanctum.remote_sameShared` — **parties that agree on the root key have each other's public keys**, as far
  as the group tells keys apart;
* `Sanctum.Primitives.Place.msgNum_eq`, `Sanctum.Primitives.Place.sameShared` — a party holds a key of the
  other one under the number of its message, and under such a public key.
-/

import Sanctum.KeySlots
import Sanctum.Network

set_option relaxedAutoImplicit false
set_option autoImplicit false

namespace Sanctum

namespace Primitives

variable {Sec Grp Key Nonce Plain Cipher : Type}
variable (P : Primitives Sec Grp Key Nonce Plain Cipher)

/-! ### Traces -/

/-- The root key after the steps of a trace, the newest of which comes first. -/
def rootOf (sk : Key) : List (Sec × Grp) → Key
  | [] => sk
  | (x, e) :: t => P.rootStep (rootOf sk t) (P.diffieHellman x e)

/-- The chain key that the step with the secret `x` and the remote key `e` starts after `t`. -/
def chainOf (sk : Key) (x : Sec) (e : Grp) (t : List (Sec × Grp)) : Key :=
  P.chainStep (P.rootOf sk t) (P.diffieHellman x e)

/-- The secret of the last step; before the first one it is the pre-key. -/
def lastSecret (spk : Sec) : List (Sec × Grp) → Sec
  | [] => spk
  | (x, _) :: _ => x

/-- The remote key of the last step; before the first one it is the public pre-key. -/
def lastRemote (spk : Sec) : List (Sec × Grp) → Grp
  | [] => P.publicKey spk
  | (_, e) :: _ => e

/-- **The rules of a trace** of party `p`: in its own turns it uses the remote key of the step
before, in the turns of the other party the secret of the step before. -/
def Linked (spk : Sec) (p : Party) : List (Sec × Grp) → Prop
  | [] => True
  | (x, e) :: t =>
    (if (t.length + 1) % 2 = p.turnParity then e = P.lastRemote spk t else x = lastSecret spk t) ∧
      Linked spk p t

theorem Linked.suffix {spk : Sec} {p : Party} {t u : List (Sec × Grp)} (h : P.Linked spk p t)
    (hu : u <:+ t) : P.Linked spk p u := by
  induction t with
  | nil => rwa [List.suffix_nil.1 hu]
  | cons step t ih =>
      rcases List.suffix_cons_iff.1 hu with rfl | hu
      · exact h
      · exact ih h.2 hu

/-- `ck` is the chain key number `n` of a chain in the trace whose remote key is `e`. -/
def Place (sk : Key) (t : List (Sec × Grp)) (e : Grp) (n : UInt32) (ck : Key) : Prop :=
  ∃ x u i, (x, e) :: u <:+ t ∧ n = UInt32.ofNat i ∧ ck = P.chainAt (P.chainOf sk x e u) i

variable {P}

theorem Place.mono {sk : Key} {t t' : List (Sec × Grp)} {e : Grp} {n : UInt32} {ck : Key}
    (h : P.Place sk t e n ck) (ht : t <:+ t') : P.Place sk t' e n ck := by
  obtain ⟨x, u, i, hu, hn, hck⟩ := h
  exact ⟨x, u, i, hu.trans ht, hn, hck⟩

theorem Place.next {sk : Key} {t : List (Sec × Grp)} {e : Grp} {n : UInt32} {ck : Key}
    (h : P.Place sk t e n ck) : P.Place sk t e (n + 1) (P.nextCk ck) := by
  obtain ⟨x, u, i, hu, rfl, rfl⟩ := h
  exact ⟨x, u, i + 1, hu, (UInt32.ofNat_add i 1).symm, (P.chainAt_succ _ i).symm⟩

/-- A chain key some steps further on. -/
theorem Place.chainAt {sk : Key} {t : List (Sec × Grp)} {e : Grp} {n : UInt32} {ck : Key}
    (h : P.Place sk t e n ck) (m : ℕ) :
    P.Place sk t e (n + UInt32.ofNat m) (P.chainAt ck m) := by
  obtain ⟨x, u, i, hu, rfl, rfl⟩ := h
  exact ⟨x, u, i + m, hu, (UInt32.ofNat_add i m).symm, P.chainAt_add _ i m⟩

/-! ### Traced ratchets -/

variable (P) [DecidableEq Grp]

/-- **The keys of a ratchet sit on a trace.** -/
structure Traced (sk : Key) (spk : Sec) (p : Party) (t : List (Sec × Grp))
    (s : RatchetState Sec Grp Key) : Prop where
  linked : P.Linked spk p t
  turn : t.length % 2 = p.turnParity
  secret : s.dhSelfSecret = lastSecret spk t
  pub : s.dhSelfPublic = P.publicKey s.dhSelfSecret
  root : s.rootKey = P.rootOf sk t
  send : ∀ ck, s.chainKeySend = some ck →
    ∃ x e u i, t = (x, e) :: u ∧ s.msgNumSend = UInt32.ofNat i ∧
      ck = P.chainAt (P.chainOf sk x e u) i
  recv : ∀ ck, s.chainKeyRecv = some ck →
    ∃ e, s.dhRemote = some e ∧ P.Place sk t e s.msgNumRecv ck
  skipped : ∀ e n k, s.skippedKeys.lookup (e, n) = some k →
    ∃ ck, P.Place sk t e n ck ∧ k = P.msgKey ck

variable {P} {sk : Key} {spk : Sec} {p : Party} {t : List (Sec × Grp)}
variable {s : RatchetState Sec Grp Key}

/-- Alice starts with the step of `init_alice`. -/
theorem traced_aliceStart (sk : Key) (spk rng : Sec) :
    P.Traced sk spk .alice [(rng, P.publicKey spk)] (P.aliceStart sk (P.publicKey spk) rng) where
  linked := ⟨if_pos rfl ▸ rfl, trivial⟩
  turn := rfl
  secret := rfl
  pub := rfl
  root := rfl
  send := by
    rintro _ ⟨⟩
    exact ⟨rng, _, [], 0, rfl, rfl, rfl⟩
  recv := nofun
  skipped := by
    rintro e n k ⟨⟩

/-- Bob starts without a step. -/
theorem traced_initBob (sk : Key) (spk : Sec) :
    P.Traced sk spk .bob [] (RatchetState.initBob sk spk (P.publicKey spk)) where
  linked := trivial
  turn := rfl
  secret := rfl
  pub := rfl
  root := rfl
  send := nofun
  recv := nofun
  skipped := by
    rintro e n k ⟨⟩

theorem traced_stepSend {ck : Key} (hck : s.chainKeySend = some ck) (h : P.Traced sk spk p t s) :
    P.Traced sk spk p t (P.stepSend s ck) := by
  refine ⟨h.linked, h.turn, h.secret, h.pub, h.root, ?_, h.recv, h.skipped⟩
  rintro _ ⟨⟩
  obtain ⟨x, e, u, i, ht, hi, rfl⟩ := h.send ck hck
  refine ⟨x, e, u, i + 1, ht, ?_, (P.chainAt_succ _ i).symm⟩
  rw [UInt32.ofNat_add, ← hi]
  rfl

/-- A move extends the trace by two steps, if it is the DH ratchet, and else not at all. -/
theorem traced_move {s' : RatchetState Sec Grp Key} {used used' : List Key}
    (hmove : P.Move (s, used) (s', used')) (h : P.Traced sk spk p t s) :
    ∃ t', t <:+ t' ∧ P.Traced sk spk p t' s' := by
  cases hmove with
  | @store _ _ ck remote hck hrem =>
      obtain ⟨e, he, hplace⟩ := h.recv ck hck
      obtain rfl : remote = e := Option.some_inj.1 (hrem.symm.trans he)
      refine ⟨t, List.suffix_refl t, h.linked, h.turn, h.secret, h.pub, h.root, h.send, ?_, ?_⟩
      · rintro _ ⟨⟩
        exact ⟨remote, hrem, hplace.next⟩
      · intro e n k hk
        rw [lookup_insert_ite] at hk
        split at hk
        · next heq =>
            cases heq
            cases hk
            exact ⟨ck, hplace, rfl⟩
        · exact h.skipped e n k hk
  | ratchet e rng =>
      have hother : ¬ (t.length + 1) % 2 = p.turnParity := by
        have := h.turn
        omega
      have hown : (t.length + 1 + 1) % 2 = p.turnParity := by
        have := h.turn
        omega
      have hsuffix : t <:+ (rng, e) :: (s.dhSelfSecret, e) :: t :=
        (List.suffix_cons _ t).trans (List.suffix_cons _ _)
      refine ⟨(rng, e) :: (s.dhSelfSecret, e) :: t, hsuffix, ?_, hown, rfl, rfl, ?_, ?_, ?_, ?_⟩
      · refine ⟨?_, ?_, h.linked⟩
        · rw [List.length_cons, if_pos hown]
          rfl
        · rw [if_neg hother]
          exact h.secret
      · simp only [ratcheted, rootOf, h.root]
      · rintro _ ⟨⟩
        refine ⟨rng, e, _, 0, rfl, rfl, ?_⟩
        simp only [chainAt_zero, chainOf, rootOf, h.root]
      · rintro _ ⟨⟩
        refine ⟨e, rfl, s.dhSelfSecret, t, 0, List.suffix_cons _ _, rfl, ?_⟩
        simp only [chainAt_zero, chainOf, h.root]
      · intro e' n k hk
        obtain ⟨ck, hplace, hck⟩ := h.skipped e' n k hk
        exact ⟨ck, hplace.mono hsuffix, hck⟩
  | @recv _ _ ck hck =>
      obtain ⟨e, he, hplace⟩ := h.recv ck hck
      refine ⟨t, List.suffix_refl t, h.linked, h.turn, h.secret, h.pub, h.root, h.send, ?_,
        h.skipped⟩
      rintro _ ⟨⟩
      exact ⟨e, he, hplace.next⟩
  | @stored _ _ hd k hk =>
      refine ⟨t, List.suffix_refl t, h.linked, h.turn, h.secret, h.pub, h.root, h.send, h.recv, ?_⟩
      intro e n k' hk'
      rw [RatchetState.forget, lookup_erase_ite, Option.ite_none_left_eq_some] at hk'
      exact h.skipped e n k' hk'.2

/-- **A call of `decrypt` extends the trace.** -/
theorem traced_takeKey (hd : Header Grp) (rng : Sec) (h : P.Traced sk spk p t s) :
    ∃ t', t <:+ t' ∧ P.Traced sk spk p t' (P.takeKey s hd rng).2 := by
  refine (P.takeKey_moves s [] hd rng).induction
    (motive := fun s' _ => ∃ t', t <:+ t' ∧ P.Traced sk spk p t' s') ?_
    ⟨t, List.suffix_refl t, h⟩
  rintro s₁ used₁ s₂ used₂ hmove ⟨t₁, ht₁, h₁⟩
  obtain ⟨t₂, ht₂, h₂⟩ := traced_move hmove h₁
  exact ⟨t₂, ht₁.trans ht₂, h₂⟩

end Primitives

/-! ### Traces that meet -/

open Primitives

variable {Sec Grp : Type} [DecidableEq Grp] (Plain : Type)
variable (pub : Sec → Grp) (dh : Sec → Grp → Grp)

/-- **A chain key has one place**: it determines its number and the steps of the root chain behind
it. -/
theorem chainAt_chainOf_inj {x y : Sec} {e f : Grp} {t u : List (Sec × Grp)} :
    ∀ {i j : ℕ},
      (symbolic Plain pub dh).chainAt ((symbolic Plain pub dh).chainOf .secret x e t) i =
        (symbolic Plain pub dh).chainAt ((symbolic Plain pub dh).chainOf .secret y f u) j →
      i = j ∧ (symbolic Plain pub dh).rootOf .secret ((x, e) :: t) =
        (symbolic Plain pub dh).rootOf .secret ((y, f) :: u) := by
  intro i
  induction i with
  | zero =>
      intro j heq
      cases j with
      | zero =>
          obtain ⟨hroot, hdh, -, -⟩ := SymKey.expand.inj heq
          refine ⟨rfl, ?_⟩
          simp only [rootOf, hroot, Option.some_inj.1 hdh]
      | succ j =>
          rw [chainAt_succ] at heq
          obtain ⟨-, hsalt, -, -⟩ := SymKey.expand.inj heq
          exact absurd hsalt (by simp)
  | succ i ih =>
      intro j heq
      rw [chainAt_succ] at heq
      cases j with
      | zero =>
          obtain ⟨-, hsalt, -, -⟩ := SymKey.expand.inj heq
          exact absurd hsalt (by simp)
      | succ j =>
          rw [chainAt_succ] at heq
          obtain ⟨hprev, -, -, -⟩ := SymKey.expand.inj heq
          obtain ⟨hij, hroot⟩ := ih hprev
          exact ⟨congrArg (· + 1) hij, hroot⟩

variable {Plain pub dh}

/-- **Parties that agree on the root key have each other's public keys**, as far as the group tells keys
apart, whatever each of them has been handed on the way there: a shared element that both have computed is
that of their own keys. -/
theorem remote_sameShared (hcomm : (symbolic Plain pub dh).DhCommutes)
    (huniform : (symbolic Plain pub dh).DhUniform) {spk : Sec} {p : Party} :
    ∀ {t u : List (Sec × Grp)}, (symbolic Plain pub dh).Linked spk p t →
      (symbolic Plain pub dh).Linked spk p.other u →
      (symbolic Plain pub dh).rootOf .secret t = (symbolic Plain pub dh).rootOf .secret u →
      t.length = u.length ∧
        (symbolic Plain pub dh).SameShared ((symbolic Plain pub dh).lastRemote spk t)
          (pub (lastSecret spk u)) ∧
        (symbolic Plain pub dh).SameShared ((symbolic Plain pub dh).lastRemote spk u)
          (pub (lastSecret spk t)) := by
  intro t
  induction t with
  | nil =>
      intro u _ _ heq
      cases u with
      | nil => exact ⟨rfl, fun _ => rfl, fun _ => rfl⟩
      | cons step u => exact absurd heq (by simp [rootOf, rootStep, symbolic])
  | cons step t ih =>
      intro u ht hu heq
      cases u with
      | nil => exact absurd heq (by simp [rootOf, rootStep, symbolic])
      | cons step' u =>
          obtain ⟨x, e⟩ := step
          obtain ⟨y, f⟩ := step'
          obtain ⟨hroot, hdh, -, -⟩ := SymKey.expand.inj heq
          have hvalue : dh x e = dh y f := Option.some_inj.1 hdh
          obtain ⟨hlen, hremote, hremote'⟩ := ih ht.2 hu.2 hroot
          have hlink := ht.1
          have hlink' := hu.1
          have hother := p.turnParity_other (u.length + 1)
          rw [← hlen] at hlink' hother
          refine ⟨congrArg (· + 1) hlen, ?_⟩
          by_cases hown : (t.length + 1) % 2 = p.turnParity
          · -- the party sends: it has used the remote key it had, and the other one its old secret
            rw [if_pos hown] at hlink
            rw [if_neg fun h => hother.1 h hown] at hlink'
            have he : (symbolic Plain pub dh).SameShared e (pub y) := by
              rw [hlink, hlink']
              exact hremote
            have hf : dh y f = dh y (pub x) := by
              calc dh y f = dh x e := hvalue.symm
                _ = dh x (pub y) := he x
                _ = dh y (pub x) := hcomm x y
            exact ⟨he, huniform y f (pub x) hf⟩
          · rw [if_neg hown] at hlink
            rw [if_pos (hother.2 hown)] at hlink'
            have hf : (symbolic Plain pub dh).SameShared f (pub x) := by
              rw [hlink, hlink']
              exact hremote'
            have he : dh x e = dh x (pub y) := by
              calc dh x e = dh y f := hvalue
                _ = dh y (pub x) := hf y
                _ = dh x (pub y) := hcomm y x
            exact ⟨huniform x e (pub y) he, hf⟩

section Places

variable {t u v : List (Sec × Grp)} {x : Sec} {e f : Grp} {n : UInt32} {i : ℕ}

/-- **A key has one number**: where a party holds the chain key number `i` of a chain, it holds it under this
number. -/
theorem Primitives.Place.msgNum_eq
    (h : (symbolic Plain pub dh).Place .secret t e n
      ((symbolic Plain pub dh).chainAt ((symbolic Plain pub dh).chainOf .secret x f v) i)) :
    n = UInt32.ofNat i := by
  obtain ⟨y, w, j, -, rfl, hck⟩ := h
  obtain ⟨rfl, -⟩ := chainAt_chainOf_inj Plain pub dh hck
  rfl

/-- **A key has one ratchet key**, as far as the group tells keys apart: where a party holds a key of the other
one's chain with secret `x`, it holds it under a public key that shares the elements of that of `x`. -/
theorem Primitives.Place.sameShared (hcomm : (symbolic Plain pub dh).DhCommutes)
    (huniform : (symbolic Plain pub dh).DhUniform) {spk : Sec} {p : Party}
    (ht : (symbolic Plain pub dh).Linked spk p t) (hu : (symbolic Plain pub dh).Linked spk p.other u)
    (hv : (x, f) :: v <:+ u)
    (h : (symbolic Plain pub dh).Place .secret t e n
      ((symbolic Plain pub dh).chainAt ((symbolic Plain pub dh).chainOf .secret x f v) i)) :
    (symbolic Plain pub dh).SameShared e (pub x) := by
  obtain ⟨y, w, j, hw, rfl, hck⟩ := h
  obtain ⟨-, hroot⟩ := chainAt_chainOf_inj Plain pub dh hck
  exact (remote_sameShared hcomm huniform (ht.suffix _ hw) (hu.suffix _ hv) hroot.symm).2.1

end Places

end Sanctum
