/-
The keys of a ratchet as a frontier in the forest of derived keys.

A ratchet holds its root key, its two chain keys and its stored message keys; the message keys it
has taken out are remembered on the side.  Every move replaces a held key by two different
derivations from it, or hands a key on, so that the keys held and taken stay an antichain below the
shared secret.  That single fact says that no key is ever held twice, that a taken key is not
derivable from what is held, and that no two messages get the same key.  A second invariant
separates the two directions: the number of root chain steps behind a key is even on one side and
odd on the other.

Main definitions:

* `Sanctum.Slot`, `Sanctum.RatchetState.held` — the places that hold keys, and what they hold;
* `Sanctum.Party.turnParity`, `Sanctum.RatchetState.InTurn` — the parity of the keys of a state.

Main results:

* `Sanctum.frontier_stepSend`, `Sanctum.frontier_takeKey` — **the held and the taken keys stay a
  frontier below the shared secret**;
* `Sanctum.inTurn_stepSend`, `Sanctum.inTurn_takeKey` — the parity is kept.
-/

import Sanctum.RatchetMoves
import Sanctum.Symbolic
import Sanctum.Network

set_option relaxedAutoImplicit false
set_option autoImplicit false

namespace Sanctum

open SymKey Primitives

/-! ### Slots -/

/-- The places that hold the keys of a ratchet; `used i` is the key taken `i`-th. -/
inductive Slot (Grp : Type)
  | root
  | send
  | recv
  | skipped (entry : Grp × UInt32)
  | used (i : ℕ)
deriving DecidableEq

/-- **What the slots hold**, in a state from which the keys `used` have been taken. -/
def RatchetState.held {Sec Grp Key : Type} [DecidableEq Grp] (s : RatchetState Sec Grp Key)
    (used : List Key) : Slot Grp → Option Key
  | .root => some s.rootKey
  | .send => s.chainKeySend
  | .recv => s.chainKeyRecv
  | .skipped entry => s.skippedKeys.lookup entry
  | .used i => used[i]?

variable {Sec Grp : Type} [DecidableEq Grp] (Plain : Type)
variable (pub : Sec → Grp) (dh : Sec → Grp → Grp)

/-- The keys a state holds are one more when a key has been taken. -/
theorem held_append_used {Key : Type} (s : RatchetState Sec Grp Key) (used : List Key) (k : Key)
    (i : ℕ) :
    s.held (used ++ [k]) (.used i) = if i = used.length then some k else s.held used (.used i) := by
  simp only [RatchetState.held]
  rcases Nat.lt_trichotomy i used.length with hi | hi | hi
  · rw [if_neg hi.ne, List.getElem?_append_left hi]
  · rw [if_pos hi, hi, List.getElem?_concat_length]
  · rw [if_neg hi.ne', List.getElem?_eq_none (by simp; omega), List.getElem?_eq_none hi.le]

/-! ### The moves of the frontier -/

/-- The two keys derived from a chain key are different. -/
theorem nextCk_ne_msgKey (ck : SymKey Grp) :
    (symbolic Plain pub dh).nextCk ck ≠ (symbolic Plain pub dh).msgKey ck :=
  fun h => absurd (SymKey.expand.inj h).2.2.1 (by decide)

/-- The two keys derived from a root key are different. -/
theorem rootStep_ne_chainStep (rk : SymKey Grp) (d : Grp) :
    (symbolic Plain pub dh).rootStep rk d ≠
      (symbolic Plain pub dh).chainStep rk d :=
  fun h => absurd (SymKey.expand.inj h).2.2.2 (by decide)

/-- Sending replaces the sending chain key by its successor and the key of the message. -/
theorem frontier_stepSend {r : SymKey Grp} {s : RatchetState Sec Grp (SymKey Grp)}
    {used : List (SymKey Grp)} {ck : SymKey Grp} (hck : s.chainKeySend = some ck)
    (h : forest.Frontier r (s.held used)) :
    forest.Frontier r (((symbolic Plain pub dh).stepSend s ck).held
      (used ++ [(symbolic Plain pub dh).msgKey ck])) := by
  have hsplit := h.split .send .send (.used used.length) hck
    (parent_expand ck none "chain_next" 0) (parent_expand ck none "message_key" 0)
    (nextCk_ne_msgKey Plain pub dh ck)
  convert hsplit using 1
  funext slot
  cases slot with
  | used i =>
      rw [held_append_used, Function.update_apply]
      simp only [Slot.used.injEq]
      split
      · rfl
      · rw [Function.update_of_ne (by simp), Function.update_of_ne (by simp)]
        rfl
  | _ => rfl

/-- The four moves of the receiving side. -/
theorem frontier_move {r : SymKey Grp} {s s' : RatchetState Sec Grp (SymKey Grp)}
    {used used' : List (SymKey Grp)}
    (hmove : (symbolic Plain pub dh).Move (s, used) (s', used'))
    (h : forest.Frontier r (s.held used)) : forest.Frontier r (s'.held used') := by
  cases hmove with
  | @store _ _ ck remote hck hrem =>
      -- the receiving chain key becomes its successor and an entry of the table
      have hsplit := h.split .recv .recv (.skipped (remote, s.msgNumRecv))
        hck (parent_expand ck none "chain_next" 0) (parent_expand ck none "message_key" 0)
        (nextCk_ne_msgKey Plain pub dh ck)
      convert hsplit using 1
      funext slot
      cases slot with
      | skipped entry =>
          rw [Function.update_apply]
          simp only [Slot.skipped.injEq, RatchetState.held, lookup_insert_ite]
          split
          · rfl
          · rw [Function.update_of_ne (by simp), Function.update_of_ne (by simp)]
            rfl
      | _ => rfl
  | ratchet e rng =>
      -- the root key gives the receiving chain, and its successor the sending chain
      have hfirst := h.split .root .root .recv rfl
        (parent_expand s.rootKey (some (dh s.dhSelfSecret e)) "ratchet_root" 0)
        (parent_expand s.rootKey (some (dh s.dhSelfSecret e)) "ratchet_root" 1)
        (rootStep_ne_chainStep Plain pub dh s.rootKey _)
      have hsecond := hfirst.split .root .root .send rfl
        (parent_expand _ (some (dh rng e)) "ratchet_root" 0)
        (parent_expand _ (some (dh rng e)) "ratchet_root" 1)
        (rootStep_ne_chainStep Plain pub dh _ _)
      convert hsecond using 1
      funext slot
      cases slot <;> rfl
  | @recv _ _ ck hck =>
      have hsplit := h.split .recv .recv (.used used.length) hck
        (parent_expand ck none "chain_next" 0) (parent_expand ck none "message_key" 0)
        (nextCk_ne_msgKey Plain pub dh ck)
      convert hsplit using 1
      funext slot
      cases slot with
      | used i =>
          rw [held_append_used, Function.update_apply]
          simp only [Slot.used.injEq]
          split
          · rfl
          · rw [Function.update_of_ne (by simp), Function.update_of_ne (by simp)]
            rfl
      | _ => rfl
  | @stored _ _ hd k hk =>
      have hmoved := h.move (.skipped (hd.dhPublic, hd.msgNum)) (.used used.length) hk
      convert hmoved using 1
      funext slot
      cases slot with
      | used i =>
          rw [held_append_used, Function.update_apply]
          simp only [Slot.used.injEq]
          split
          · rfl
          · rw [Function.update_of_ne (by simp)]
            rfl
      | skipped entry =>
          rw [Function.update_of_ne (by simp), Function.update_apply]
          simp only [Slot.skipped.injEq, RatchetState.held, RatchetState.forget, lookup_erase_ite]
      | _ => rfl

/-- **A call of `decrypt` keeps the frontier**, with the key it takes. -/
theorem frontier_takeKey {r : SymKey Grp} {s : RatchetState Sec Grp (SymKey Grp)}
    {used : List (SymKey Grp)} (hd : Header Grp) (rng : Sec)
    (h : forest.Frontier r (s.held used)) :
    forest.Frontier r (((symbolic Plain pub dh).takeKey s hd rng).2.held
      (used ++ takenKeys ((symbolic Plain pub dh).takeKey s hd rng).1)) :=
  ((symbolic Plain pub dh).takeKey_moves s used hd rng).induction
    (fun _ _ _ _ hmove => frontier_move Plain pub dh hmove) h

/-- A frontier remains when the taken keys are forgotten again. -/
theorem frontier_of_append {r : SymKey Grp} {s : RatchetState Sec Grp (SymKey Grp)}
    {used : List (SymKey Grp)} {taken : Except SanctumError (SymKey Grp)}
    (h : forest.Frontier r (s.held (used ++ takenKeys taken))) :
    forest.Frontier r (s.held used) := by
  cases taken with
  | error e => rwa [takenKeys, List.append_nil] at h
  | ok k =>
      have hdrop := h.drop (.used used.length)
      convert hdrop using 1
      funext slot
      cases slot with
      | used i =>
          rw [Function.update_apply, takenKeys, held_append_used]
          simp only [Slot.used.injEq]
          split
          · next hi => simp [RatchetState.held, hi]
          · rfl
      | _ => rfl

/-! ### Turns -/

@[simp] theorem turn_rootStep (rk : SymKey Grp) (d : Grp) :
    turn ((symbolic Plain pub dh).rootStep rk d) = turn rk + 1 := rfl

@[simp] theorem turn_chainStep (rk : SymKey Grp) (d : Grp) :
    turn ((symbolic Plain pub dh).chainStep rk d) = turn rk + 1 := rfl

/-- The parity of the turns in which a party sends: Alice makes the first turn. -/
def Party.turnParity : Party → ℕ
  | .alice => 1
  | .bob => 0

/-- Exactly one of the parties makes the turn number `n`. -/
theorem Party.turnParity_other (p : Party) (n : ℕ) :
    n % 2 = p.other.turnParity ↔ ¬ n % 2 = p.turnParity := by
  cases p <;> simp only [Party.other, Party.turnParity] <;> omega

/-- A turn has one party. -/
theorem Party.eq_of_turnParity {p q : Party} {n : ℕ} (hp : n % 2 = p.turnParity)
    (hq : n % 2 = q.turnParity) : q = p := by
  by_contra hne
  rw [Party.eq_other_of_ne hne] at hq
  exact (p.turnParity_other n).1 hq hp

/-- A turn has one listener. -/
theorem Party.eq_of_turnParity_other {p q : Party} {n : ℕ} (hp : n % 2 = p.other.turnParity)
    (hq : n % 2 = q.other.turnParity) : q = p := by
  have hsame := congrArg Party.other (Party.eq_of_turnParity hp hq)
  rwa [Party.other_other, Party.other_other] at hsame

/-- The parties take turns. -/
theorem Party.turnParity_succ (p : Party) (n : ℕ) :
    (n + 1) % 2 = p.turnParity ↔ n % 2 = p.other.turnParity := by
  rw [turnParity_other]
  cases p <;> simp only [Party.turnParity] <;> omega

/-- **The keys of a state are in turn**: those of the sending side have parity `b`, those of the
receiving side the other one. -/
structure RatchetState.InTurn (b : ℕ) (s : RatchetState Sec Grp (SymKey Grp)) : Prop where
  root : turn s.rootKey % 2 = b
  send : ∀ ck, s.chainKeySend = some ck → turn ck % 2 = b
  recv : ∀ ck, s.chainKeyRecv = some ck → (turn ck + 1) % 2 = b
  skipped : ∀ entry k, s.skippedKeys.lookup entry = some k → (turn k + 1) % 2 = b

variable {b : ℕ} {s : RatchetState Sec Grp (SymKey Grp)}

omit [DecidableEq Grp] in
theorem inTurn_stepSend [DecidableEq Grp] {ck : SymKey Grp} (hck : s.chainKeySend = some ck)
    (h : s.InTurn b) : ((symbolic Plain pub dh).stepSend s ck).InTurn b where
  root := h.root
  send := by
    rintro _ ⟨⟩
    exact h.send ck hck
  recv := h.recv
  skipped := h.skipped

theorem inTurn_move {s' : RatchetState Sec Grp (SymKey Grp)} {used used' : List (SymKey Grp)}
    (hmove : (symbolic Plain pub dh).Move (s, used) (s', used'))
    (h : s.InTurn b ∧ ∀ k ∈ used, (turn k + 1) % 2 = b) :
    s'.InTurn b ∧ ∀ k ∈ used', (turn k + 1) % 2 = b := by
  obtain ⟨hs, hused⟩ := h
  cases hmove with
  | @store _ _ ck remote hck hrem =>
      refine ⟨⟨hs.root, hs.send, ?_, ?_⟩, hused⟩
      · rintro _ ⟨⟩
        exact hs.recv ck hck
      · intro entry k hk
        rw [lookup_insert_ite] at hk
        split at hk
        · cases hk
          exact hs.recv ck hck
        · exact hs.skipped entry k hk
  | ratchet e rng =>
      have hroot := hs.root
      refine ⟨⟨?_, ?_, ?_, hs.skipped⟩, hused⟩
      · simp only [ratcheted, turn_rootStep]
        omega
      · rintro _ ⟨⟩
        simp only [turn_chainStep, turn_rootStep]
        omega
      · rintro _ ⟨⟩
        simp only [turn_chainStep]
        omega
  | @recv _ _ ck hck =>
      refine ⟨⟨hs.root, hs.send, ?_, hs.skipped⟩, ?_⟩
      · rintro _ ⟨⟩
        exact hs.recv ck hck
      · intro k hk
        rcases List.mem_append.1 hk with hk | hk
        · exact hused k hk
        · rw [List.mem_singleton.1 hk]
          exact hs.recv ck hck
  | @stored _ _ hd k hk =>
      refine ⟨⟨hs.root, hs.send, hs.recv, ?_⟩, ?_⟩
      · intro entry k' hk'
        rw [RatchetState.forget, lookup_erase_ite, Option.ite_none_left_eq_some] at hk'
        exact hs.skipped entry k' hk'.2
      · intro k' hk'
        rcases List.mem_append.1 hk' with hk' | hk'
        · exact hused k' hk'
        · rw [List.mem_singleton.1 hk']
          exact hs.skipped _ k hk

/-- **A call of `decrypt` keeps the turns**, and takes a key of the other party's turn. -/
theorem inTurn_takeKey (hd : Header Grp) (rng : Sec) (h : s.InTurn b) :
    ((symbolic Plain pub dh).takeKey s hd rng).2.InTurn b ∧
      ∀ k, ((symbolic Plain pub dh).takeKey s hd rng).1 = .ok k →
        (turn k + 1) % 2 = b := by
  obtain ⟨hs, hused⟩ := ((symbolic Plain pub dh).takeKey_moves s [] hd rng).induction
    (motive := fun s used => s.InTurn b ∧ ∀ k ∈ used, (turn k + 1) % 2 = b)
    (fun _ _ _ _ hmove => inTurn_move Plain pub dh hmove) ⟨h, by simp⟩
  refine ⟨hs, fun k hk => hused k ?_⟩
  rw [hk]
  exact List.mem_singleton_self k

end Sanctum
