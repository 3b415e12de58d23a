/-
Skipping on all counters.

`skip_messages` compares the number of the next message plus 256 with the number it is to skip to.  Where
that sum is too large for 32 bits it stops a program with overflow checks, and wraps around to a small
limit in one without, so that near the end of the counter a message that is not far ahead is refused.

Main definitions:

* `Sanctum.RatchetState.gap` — how far ahead a number is, as an integer;
* `Sanctum.Primitives.Skipped` — the keys up to a number have been stored, and nothing else has changed;
* `Sanctum.Primitives.SkipsExactly` — what `skip_messages` is to do.

Main results:

* `Sanctum.Primitives.skipped_skipTo` — the keys that skipping stores;
* `Sanctum.Primitives.skipsExactly_iff` — when it does so in a build with overflow checks, or without;
* `Sanctum.Primitives.skipsExactly_all_iff` — **when it does so in both, without an overflow**.
-/

import Sanctum.RatchetChecks
import Sanctum.Symbolic

set_option relaxedAutoImplicit false
set_option autoImplicit false

namespace Sanctum

/-- How far the number `until'` is ahead of the next message. -/
def RatchetState.gap {Sec Grp Key : Type} (s : RatchetState Sec Grp Key) (until' : UInt32) : ℤ :=
  (until'.toNat : ℤ) - s.msgNumRecv.toNat

namespace Primitives

open RatchetState

variable {Sec Grp Key Nonce Plain Cipher : Type} [DecidableEq Grp]
variable (P : Primitives Sec Grp Key Nonce Plain Cipher)

/-- **The keys up to the number `until'` have been stored**, in the chain `ck` of the remote key. -/
structure Skipped (s s' : RatchetState Sec Grp Key) (ck : Key) (remote : Grp) (until' : UInt32) : Prop where
  keys : ∀ pk m, s'.skippedKeys.lookup (pk, m) =
    if pk = remote ∧ s.msgNumRecv.toNat ≤ m.toNat ∧ m.toNat < until'.toNat then
      some (P.msgKey (P.chainAt ck (m.toNat - s.msgNumRecv.toNat)))
    else s.skippedKeys.lookup (pk, m)
  number : s'.msgNumRecv.toNat = max s.msgNumRecv.toNat until'.toNat
  chain : s'.chainKeyRecv = some (P.chainAt ck (until'.toNat - s.msgNumRecv.toNat))
  frame : s' = { s with
    skippedKeys := s'.skippedKeys, msgNumRecv := s'.msgNumRecv, chainKeyRecv := s'.chainKeyRecv }

/-- **`skip_messages` is exact**: it comes to an end without an overflow, refuses what is more than 256
messages ahead and nothing else, and else stores the keys. -/
def SkipsExactly (checks : Bool) (s : RatchetState Sec Grp Key) (ck : Key) (remote : Grp)
    (until' : UInt32) : Prop :=
  ∃ result s', P.skipMessagesChecked checks s until' = some (result, s') ∧
    ((∃ e, result = .error e) ∧ s' = s ↔ 256 < s.gap until') ∧
    (s.gap until' ≤ 256 → result = .ok () ∧ P.Skipped s s' ck remote until')

variable {s : RatchetState Sec Grp Key} {ck : Key} {remote : Grp}

theorem skipped_skipTo (hck : s.chainKeyRecv = some ck) (hrem : s.dhRemote = some remote)
    (until' : UInt32) : P.Skipped s (P.skipTo s until') ck remote until' := by
  have hu := until'.toNat_lt
  have hr := s.msgNumRecv.toNat_lt
  have hcount : s.skipCount until' = until'.toNat - s.msgNumRecv.toNat := rfl
  rw [P.skipTo_of_some hck hrem]
  refine ⟨fun pk m => ?_, s.toNat_add_skipCount until', rfl, rfl⟩
  rw [P.lookup_storeKeys _ _ _ _ _ (by omega)]
  refine if_congr (and_congr_right fun _ => and_congr_right fun _ => ?_) rfl rfl
  omega

omit [DecidableEq Grp] in
/-- Away from the end of the counter the test is exact. -/
theorem tooFar_iff_gap (hck : s.chainKeyRecv = some ck) (hsmall : s.msgNumRecv.toNat + 256 < 2 ^ 32)
    (until' : UInt32) : s.TooFar until' ↔ 256 < s.gap until' := by
  have hmax : MAX_SKIP.toNat = 256 := rfl
  rw [TooFar, hck, UInt32.lt_iff_toNat_lt, UInt32.toNat_add, hmax, Nat.mod_eq_of_lt hsmall, gap]
  simp only [Option.isSome_some, true_and]
  omega

omit [DecidableEq Grp] in
/-- Near the end of the counter the limit is a small number. -/
theorem tooFar_iff_wrapped (hck : s.chainKeyRecv = some ck) (hlarge : 2 ^ 32 ≤ s.msgNumRecv.toNat + 256)
    (until' : UInt32) : s.TooFar until' ↔ s.msgNumRecv.toNat + 256 < until'.toNat + 2 ^ 32 := by
  have hr := s.msgNumRecv.toNat_lt
  have hmax : MAX_SKIP.toNat = 256 := rfl
  rw [TooFar, hck, UInt32.lt_iff_toNat_lt, UInt32.toNat_add, hmax]
  simp only [Option.isSome_some, true_and]
  omega

/-- **When `skip_messages` is exact** in a build with overflow checks, or in one without. -/
theorem skipsExactly_iff (checks : Bool) (hck : s.chainKeyRecv = some ck)
    (hrem : s.dhRemote = some remote) (until' : UInt32) : P.SkipsExactly checks s ck remote until' ↔
      s.msgNumRecv.toNat + 256 < 2 ^ 32 ∨
        checks = false ∧ until'.toNat + 2 ^ 32 ≤ s.msgNumRecv.toNat + 256 := by
  have hu := until'.toNat_lt
  have hlimit : s.LimitOverflows ↔ 2 ^ 32 ≤ s.msgNumRecv.toNat + 256 := and_iff_right (by rw [hck]; rfl)
  rcases Nat.lt_or_ge (s.msgNumRecv.toNat + 256) (2 ^ 32) with hsmall | hlarge
  · refine iff_of_true ?_ (Or.inl hsmall)
    have heq := P.skipMessagesChecked_eq checks s until'
    rw [if_neg fun h => absurd (hlimit.1 h.2) (Nat.not_le.2 hsmall)] at heq
    by_cases hfar : s.TooFar until'
    · have hgap := (tooFar_iff_gap hck hsmall until').1 hfar
      rw [P.skipMessages_of_tooFar hfar] at heq
      exact ⟨_, _, heq, iff_of_true ⟨⟨_, rfl⟩, rfl⟩ hgap, fun hle => absurd hle (not_le.2 hgap)⟩
    · have hgap := mt (tooFar_iff_gap hck hsmall until').2 hfar
      rw [P.skipMessages_of_not_tooFar hfar] at heq
      exact ⟨_, _, heq, iff_of_false (by rintro ⟨⟨e, ⟨⟩⟩, -⟩) hgap,
        fun _ => ⟨rfl, P.skipped_skipTo hck hrem until'⟩⟩
  · rw [or_iff_right (Nat.not_lt.2 hlarge)]
    have hgap : s.gap until' ≤ 256 := by
      rw [gap]
      omega
    cases checks with
    | true =>
        refine iff_of_false ?_ (by rintro ⟨⟨⟩, -⟩)
        rintro ⟨result, s', heq, -⟩
        rw [P.skipMessagesChecked_eq, if_pos ⟨rfl, hlimit.2 hlarge⟩] at heq
        cases heq
    | false =>
        have heq := P.skipMessagesChecked_eq false s until'
        rw [if_neg fun h => absurd h.1 Bool.false_ne_true] at heq
        rw [eq_self, true_and, ← not_lt, ← tooFar_iff_wrapped hck hlarge until']
        constructor
        · rintro ⟨result, s', heq', -, hok⟩ hfar
          rw [heq, P.skipMessages_of_tooFar hfar] at heq'
          obtain ⟨hresult, -⟩ := hok hgap
          obtain ⟨rfl, -⟩ := Prod.mk.inj (Option.some_inj.1 heq')
          cases hresult
        · intro hfar
          rw [P.skipMessages_of_not_tooFar hfar] at heq
          exact ⟨_, _, heq, iff_of_false (by rintro ⟨⟨e, ⟨⟩⟩, -⟩) (not_lt.2 hgap),
            fun _ => ⟨rfl, P.skipped_skipTo hck hrem until'⟩⟩

/-- **When `skip_messages` is exact, without an overflow**: away from the last 256 numbers. -/
theorem skipsExactly_all_iff (hck : s.chainKeyRecv = some ck) (hrem : s.dhRemote = some remote)
    (until' : UInt32) : (∀ checks, P.SkipsExactly checks s ck remote until') ↔
      s.msgNumRecv.toNat + 256 < 2 ^ 32 := by
  constructor
  · intro h
    rcases (P.skipsExactly_iff true hck hrem until').1 (h true) with hsmall | ⟨⟨⟩, -⟩
    exact hsmall
  · exact fun hsmall checks => (P.skipsExactly_iff checks hck hrem until').2 (Or.inl hsmall)

/-- A receiver whose next message has this number. -/
def receiver (msgNumRecv : UInt32) : RatchetState ℕ (Multiset ℕ) (SymKey (Multiset ℕ)) where
  dhSelfSecret := 0
  dhSelfPublic := expPublic 0
  dhRemote := some (expPublic 1)
  rootKey := .secret
  chainKeySend := none
  msgNumSend := 0
  chainKeyRecv := some (.atom 0)
  msgNumRecv := msgNumRecv
  prevChainLen := 0
  skippedKeys := ∅

/-- At the last number the next message itself is refused, or stops the program. -/
theorem last_number_refused :
    ¬ (expSymbolic ℕ).SkipsExactly true (receiver 4294967295) (.atom 0) (expPublic 1) 4294967295 ∧
      ¬ (expSymbolic ℕ).SkipsExactly false (receiver 4294967295) (.atom 0) (expPublic 1) 4294967295 ∧
      (receiver 4294967295).gap 4294967295 = 0 := by
  refine ⟨?_, ?_, rfl⟩
  · rw [skipsExactly_iff _ _ rfl rfl]
    decide
  · rw [skipsExactly_iff _ _ rfl rfl]
    decide

/-- A message that is 200 ahead. -/
theorem skipsExactly_all_near :
    (expSymbolic ℕ).SkipsExactly true (receiver 100) (.atom 0) (expPublic 1) 300 ∧
      (expSymbolic ℕ).SkipsExactly false (receiver 100) (.atom 0) (expPublic 1) 300 := by
  have h := (skipsExactly_all_iff (s := receiver 100) (expSymbolic ℕ) rfl rfl 300).2 (by decide)
  exact ⟨h true, h false⟩

end Primitives

end Sanctum
