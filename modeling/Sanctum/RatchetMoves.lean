/-
The moves of a ratchet.

Sending is one elementary change of a ratchet, `stepSend`.  Receiving is many: whatever input
`decrypt` is given, it changes the ratchet by a sequence of four elementary moves, in which a key of
the receiving chain is stored, the DH ratchet turns, a key of the receiving chain is taken or a
stored key is taken.  This module decomposes `decrypt` into such moves, once; an invariant of the
ratchet is then four small cases.  A move also records the message keys that have been taken out of
the state.

Main definitions:

* `Sanctum.Primitives.Move`, `Sanctum.Primitives.Moves` — the moves of a state and of the list of
  the keys taken from it;
* `Sanctum.Primitives.SameSender` — the sending side has not changed.

Main results:

* `Sanctum.Primitives.takeKey_moves` — **every call of `decrypt` is a sequence of moves**;
* `Sanctum.Primitives.Moves.induction` — an invariant of the moves is an invariant of a call;
* `Sanctum.Primitives.takeKey_sameSender` — what a call of `decrypt` does to the sending side.
-/

import Sanctum.RatchetSpec

set_option relaxedAutoImplicit false
set_option autoImplicit false

namespace Sanctum

namespace Primitives

open RatchetState

variable {Sec Grp Key Nonce Plain Cipher : Type} [DecidableEq Grp]
variable (P : Primitives Sec Grp Key Nonce Plain Cipher)

/-- **One move** of a ratchet that receives, with the list of the keys taken from it. -/
inductive Move : RatchetState Sec Grp Key × List Key → RatchetState Sec Grp Key × List Key → Prop
  | store {s : RatchetState Sec Grp Key} {used : List Key} {ck : Key} {remote : Grp} :
      s.chainKeyRecv = some ck → s.dhRemote = some remote →
      Move (s, used) ({ s with
        chainKeyRecv := some (P.nextCk ck)
        msgNumRecv := s.msgNumRecv + 1
        skippedKeys := s.skippedKeys.insert (remote, s.msgNumRecv) (P.msgKey ck) }, used)
  | ratchet {s : RatchetState Sec Grp Key} {used : List Key} (e : Grp) (rng : Sec) :
      Move (s, used) (P.ratcheted s e rng, used)
  | recv {s : RatchetState Sec Grp Key} {used : List Key} {ck : Key} :
      s.chainKeyRecv = some ck → Move (s, used) (P.stepRecv s ck, used ++ [P.msgKey ck])
  | stored {s : RatchetState Sec Grp Key} {used : List Key} {h : Header Grp} {k : Key} :
      s.skippedKeys.lookup (h.dhPublic, h.msgNum) = some k →
      Move (s, used) (s.forget h, used ++ [k])

/-- A sequence of moves. -/
abbrev Moves : RatchetState Sec Grp Key × List Key → RatchetState Sec Grp Key × List Key → Prop :=
  Relation.ReflTransGen P.Move

variable {P}

/-- An invariant of the moves is an invariant of their sequences. -/
theorem Moves.induction {motive : RatchetState Sec Grp Key → List Key → Prop}
    {s s' : RatchetState Sec Grp Key} {used used' : List Key}
    (h : P.Moves (s, used) (s', used'))
    (move : ∀ s used s' used', P.Move (s, used) (s', used') → motive s used → motive s' used')
    (start : motive s used) : motive s' used' := by
  suffices haux : ∀ x, P.Moves (s, used) x → motive x.1 x.2 from haux _ h
  intro x hx
  induction hx with
  | refl => exact start
  | @tail y z _ hstep ih => exact move _ _ _ _ hstep ih

variable (P)

/-- The loop of `skip_messages` stores key after key. -/
theorem storeKeys_moves {remote : Grp} (used : List Key) :
    ∀ (n : ℕ) (ck : Key) (s : RatchetState Sec Grp Key), s.chainKeyRecv = some ck →
      s.dhRemote = some remote →
      P.Moves (s, used) ({ s with
        chainKeyRecv := some (P.chainAt ck n)
        msgNumRecv := s.msgNumRecv + UInt32.ofNat n
        skippedKeys := P.storeKeys remote n ck s.msgNumRecv s.skippedKeys }, used) := by
  intro n
  induction n with
  | zero =>
      intro ck s hck _
      obtain ⟨_, _, _, _, _, _, ckRecv, _, _, _⟩ := s
      obtain rfl : ckRecv = some ck := hck
      have hzero : UInt32.ofNat 0 = 0 := rfl
      simp only [chainAt_zero, storeKeys, hzero, UInt32.add_zero]
      exact Relation.ReflTransGen.refl
  | succ n ih =>
      intro ck s hck hrem
      refine Relation.ReflTransGen.head (.store hck hrem) ?_
      have hrest := ih (P.nextCk ck) { s with
        chainKeyRecv := some (P.nextCk ck)
        msgNumRecv := s.msgNumRecv + 1
        skippedKeys := s.skippedKeys.insert (remote, s.msgNumRecv) (P.msgKey ck) } rfl hrem
      simp only [← chainAt_succ', succ_add_ofNat] at hrest
      exact hrest

theorem skipTo_moves (s : RatchetState Sec Grp Key) (used : List Key) (until' : UInt32) :
    P.Moves (s, used) (P.skipTo s until', used) := by
  cases hck : s.chainKeyRecv with
  | none => rw [P.skipTo_of_chain_none hck]
  | some ck =>
      cases hrem : s.dhRemote with
      | none => rw [P.skipTo_of_remote_none hrem]
      | some remote =>
          rw [P.skipTo_of_some hck hrem]
          exact P.storeKeys_moves used _ ck s hck hrem

/-- The keys taken by a call: the one it returns, if it returns one. -/
def takenKeys (r : Except SanctumError Key) : List Key :=
  match r with
  | .ok k => [k]
  | .error _ => []

theorem takeOnChain_moves (s : RatchetState Sec Grp Key) (used : List Key) (n : UInt32) :
    P.Moves (s, used) ((P.takeOnChain s n).2, used ++ takenKeys (P.takeOnChain s n).1) := by
  rw [takeOnChain]
  by_cases hfar : s.TooFar n
  · rw [if_pos hfar, takenKeys, List.append_nil]
  · rw [if_neg hfar]
    have hskip := P.skipTo_moves s used n
    cases hck : (P.skipTo s n).chainKeyRecv with
    | none =>
        rw [takenKeys, List.append_nil]
        exact hskip
    | some ck => exact hskip.tail (.recv hck)

/-- **Taking a key** is a sequence of moves, which end with the key if there is one. -/
theorem takeKey_moves (s : RatchetState Sec Grp Key) (used : List Key) (h : Header Grp)
    (rng : Sec) :
    P.Moves (s, used) ((P.takeKey s h rng).2, used ++ takenKeys (P.takeKey s h rng).1) := by
  rw [takeKey]
  cases hlook : s.skippedKeys.lookup (h.dhPublic, h.msgNum) with
  | some k => exact Relation.ReflTransGen.single (.stored hlook)
  | none =>
      by_cases hrem : s.dhRemote = some h.dhPublic
      · simp only [if_pos hrem]
        exact P.takeOnChain_moves s used h.msgNum
      · by_cases hfar : s.TooFar h.prevChainLen
        · simp only [if_neg hrem, if_pos hfar, takenKeys, List.append_nil]
          exact Relation.ReflTransGen.refl
        · simp only [if_neg hrem, if_neg hfar]
          have hskip := P.skipTo_moves s used h.prevChainLen
          exact (hskip.tail (.ratchet h.dhPublic rng)).trans (P.takeOnChain_moves _ used h.msgNum)

/-! ### The sending side under `decrypt` -/

/-- The part of a state that only sending and the DH ratchet touch is the same. -/
structure SameSender (s t : RatchetState Sec Grp Key) : Prop where
  secret : t.dhSelfSecret = s.dhSelfSecret
  pub : t.dhSelfPublic = s.dhSelfPublic
  root : t.rootKey = s.rootKey
  chain : t.chainKeySend = s.chainKeySend
  num : t.msgNumSend = s.msgNumSend
  prev : t.prevChainLen = s.prevChainLen

omit [DecidableEq Grp] in
theorem SameSender.refl (s : RatchetState Sec Grp Key) : SameSender s s :=
  ⟨rfl, rfl, rfl, rfl, rfl, rfl⟩

omit [DecidableEq Grp] in
theorem SameSender.trans {s t u : RatchetState Sec Grp Key} (h₁ : SameSender s t)
    (h₂ : SameSender t u) : SameSender s u :=
  ⟨h₂.secret.trans h₁.secret, h₂.pub.trans h₁.pub, h₂.root.trans h₁.root,
    h₂.chain.trans h₁.chain, h₂.num.trans h₁.num, h₂.prev.trans h₁.prev⟩

theorem skipTo_sameSender (s : RatchetState Sec Grp Key) (until' : UInt32) :
    SameSender s (P.skipTo s until') := by
  cases hck : s.chainKeyRecv with
  | none =>
      rw [P.skipTo_of_chain_none hck]
      exact .refl s
  | some ck =>
      cases hrem : s.dhRemote with
      | none =>
          rw [P.skipTo_of_remote_none hrem]
          exact .refl s
      | some remote =>
          rw [P.skipTo_of_some hck hrem]
          exact ⟨rfl, rfl, rfl, rfl, rfl, rfl⟩

theorem takeOnChain_sameSender (s : RatchetState Sec Grp Key) (n : UInt32) :
    SameSender s (P.takeOnChain s n).2 := by
  have hskip := P.skipTo_sameSender s n
  rw [takeOnChain]
  split
  · exact .refl s
  · split
    · exact hskip
    · exact hskip.trans ⟨rfl, rfl, rfl, rfl, rfl, rfl⟩

/-- **The sending side under `decrypt`**: it changes only where a fresh keypair is drawn, and there
it is what the DH ratchet makes of it. -/
theorem takeKey_sameSender (s : RatchetState Sec Grp Key) (h : Header Grp) (rng : Sec) :
    (¬ s.Draws h → SameSender s (P.takeKey s h rng).2) ∧
      (s.Draws h → SameSender (P.ratcheted s h.dhPublic rng) (P.takeKey s h rng).2) := by
  rw [takeKey, Draws]
  cases hlook : s.skippedKeys.lookup (h.dhPublic, h.msgNum) with
  | some k => exact ⟨fun _ => ⟨rfl, rfl, rfl, rfl, rfl, rfl⟩, fun hd => absurd hd.1 (by simp)⟩
  | none =>
      by_cases hrem : s.dhRemote = some h.dhPublic
      · simp only [if_pos hrem]
        exact ⟨fun _ => P.takeOnChain_sameSender s h.msgNum, fun hd => absurd hrem hd.2.1⟩
      · by_cases hfar : s.TooFar h.prevChainLen
        · simp only [if_neg hrem, if_pos hfar]
          exact ⟨fun _ => .refl s, fun hd => absurd hfar hd.2.2⟩
        · simp only [if_neg hrem, if_neg hfar]
          refine ⟨fun hd => (hd ⟨trivial, hrem, hfar⟩).elim, fun _ => ?_⟩
          have hskip := P.skipTo_sameSender s h.prevChainLen
          have hturn : SameSender (P.ratcheted s h.dhPublic rng)
              (P.ratcheted (P.skipTo s h.prevChainLen) h.dhPublic rng) := by
            constructor <;> simp only [ratcheted, hskip.secret, hskip.root, hskip.num]
          exact hturn.trans (P.takeOnChain_sameSender _ h.msgNum)

end Primitives

end Sanctum
