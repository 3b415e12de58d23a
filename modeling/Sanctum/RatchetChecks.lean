/-
The ratchet in a build with overflow checks.

Where overflow checks are on, an addition whose sum is too large stops the program; where they are off,
it wraps around.  `decrypt` adds 256 to the number of the next message before it compares it with an
announced number, and adds one for each message; so it can only overflow near the end of the counter.

Main definitions:

* `Sanctum.addChecked` — an addition with or without checks;
* `Sanctum.Primitives.skipMessagesChecked`, `Sanctum.Primitives.decryptChecked` — the operations, with
  `none` where the program stops;
* `Sanctum.RatchetState.Overflows` — the inputs on which it does.

Main results:

* `Sanctum.Primitives.skipMessagesChecked_eq` — when `skip_messages` stops;
* `Sanctum.Primitives.decryptChecked_eq` — **when `decrypt` stops**, and that it is as before else.
-/

import Sanctum.RatchetSpec

set_option relaxedAutoImplicit false
set_option autoImplicit false

namespace Sanctum

/-- An addition of numbers of 32 bits, with overflow checks or without them. -/
def addChecked (checks : Bool) (a b : UInt32) : Option UInt32 :=
  if checks ∧ 2 ^ 32 ≤ a.toNat + b.toNat then none else some (a + b)

theorem addChecked_of_lt {checks : Bool} {a b : UInt32} (h : a.toNat + b.toNat < 2 ^ 32) :
    addChecked checks a b = some (a + b) :=
  if_neg fun hover => absurd hover.2 (Nat.not_le.2 h)

namespace Primitives

open RatchetState

variable {Sec Grp Key Nonce Plain Cipher : Type} [DecidableEq Grp]
variable (P : Primitives Sec Grp Key Nonce Plain Cipher) (checks : Bool)

/-! ### The operations -/

/-- The loop of `skip_messages`. -/
def skipLoopChecked (remote : Grp) (until' : UInt32) : ℕ → Key → RatchetState Sec Grp Key →
    Option (Except SanctumError Key × RatchetState Sec Grp Key)
  | 0, currentCk, s => some (.ok currentCk, s)
  | fuel + 1, currentCk, s =>
    if s.msgNumRecv < until' then
      match P.kdfCk currentCk with
      | .error e => some (.error e, s)
      | .ok (newCk, msgKey) =>
        match addChecked checks s.msgNumRecv 1 with
        | none => none
        | some next =>
          skipLoopChecked remote until' fuel newCk
            { s with
              skippedKeys := s.skippedKeys.insert (remote, s.msgNumRecv) msgKey
              msgNumRecv := next }
    else some (.ok currentCk, s)

/-- `skip_messages`. -/
def skipMessagesChecked (s : RatchetState Sec Grp Key) (until' : UInt32) :
    Option (Except SanctumError Unit × RatchetState Sec Grp Key) :=
  match s.chainKeyRecv with
  | none => some (.ok (), s)
  | some ck =>
    match addChecked checks s.msgNumRecv MAX_SKIP with
    | none => none
    | some limit =>
      if limit < until' then some (.error (.malformedMessage "too many skipped messages"), s)
      else
        match s.dhRemote with
        | none => some (.ok (), s)
        | some remote =>
          match P.skipLoopChecked checks remote until' (until'.toNat - s.msgNumRecv.toNat) ck s with
          | none => none
          | some (.error e, s) => some (.error e, s)
          | some (.ok currentCk, s) => some (.ok (), { s with chainKeyRecv := some currentCk })

/-- The second half of `decrypt`. -/
def decryptOnChainChecked (s : RatchetState Sec Grp Key) (msgNum : UInt32) (ciphertext : Cipher) :
    Option (Except SanctumError Plain × RatchetState Sec Grp Key) :=
  match P.skipMessagesChecked checks s msgNum with
  | none => none
  | some (.error e, s) => some (.error e, s)
  | some (.ok (), s) =>
    match s.chainKeyRecv with
    | none => some (.error (.malformedMessage "no recv chain"), s)
    | some ck =>
      match P.kdfCk ck with
      | .error e => some (.error e, s)
      | .ok (newCk, msgKey) =>
        match addChecked checks s.msgNumRecv 1 with
        | none => none
        | some next =>
          some (P.decryptWith msgKey ciphertext, { s with chainKeyRecv := some newCk, msgNumRecv := next })

/-- `decrypt`. -/
def decryptChecked (s : RatchetState Sec Grp Key) (header : Header Grp) (ciphertext : Cipher)
    (rng : Sec) : Option (Except SanctumError Plain × RatchetState Sec Grp Key) :=
  match s.skippedKeys.lookup (header.dhPublic, header.msgNum) with
  | some msgKey =>
    let s := { s with skippedKeys := s.skippedKeys.erase (header.dhPublic, header.msgNum) }
    some (P.decryptWith msgKey ciphertext, s)
  | none =>
    if s.dhRemote ≠ some header.dhPublic then
      match P.skipMessagesChecked checks s header.prevChainLen with
      | none => none
      | some (.error e, s) => some (.error e, s)
      | some (.ok (), s) =>
        match P.dhRatchet s header.dhPublic rng with
        | (.error e, s) => some (.error e, s)
        | (.ok (), s) => P.decryptOnChainChecked checks s header.msgNum ciphertext
    else P.decryptOnChainChecked checks s header.msgNum ciphertext

end Primitives

/-! ### The inputs on which they stop -/

namespace RatchetState

variable {Sec Grp Key : Type}

/-- The sum in the test of `skip_messages` is too large. -/
def LimitOverflows (s : RatchetState Sec Grp Key) : Prop :=
  s.chainKeyRecv.isSome ∧ 2 ^ 32 ≤ s.msgNumRecv.toNat + 256

instance (s : RatchetState Sec Grp Key) : Decidable s.LimitOverflows :=
  inferInstanceAs (Decidable (_ ∧ _))

/-- The message is the last one that the counter has a number for, and is reached. -/
def LastNumber (s : RatchetState Sec Grp Key) (pk : Grp) (msgNum : UInt32) : Prop :=
  s.chainKeyRecv.isSome ∧ s.dhRemote = some pk ∧ s.msgNumRecv.toNat + 257 = 2 ^ 32 ∧
    msgNum.toNat + 1 = 2 ^ 32

instance [DecidableEq Grp] (s : RatchetState Sec Grp Key) (pk : Grp) (msgNum : UInt32) :
    Decidable (s.LastNumber pk msgNum) :=
  inferInstanceAs (Decidable (_ ∧ _ ∧ _ ∧ _))

/-- **`decrypt` overflows**: no key is stored for the message, and the test overflows or the counter
does. -/
def Overflows [DecidableEq Grp] (s : RatchetState Sec Grp Key) (h : Header Grp) : Prop :=
  s.skippedKeys.lookup (h.dhPublic, h.msgNum) = none ∧
    (s.LimitOverflows ∨ s.LastNumber h.dhPublic h.msgNum)

instance [DecidableEq Grp] (s : RatchetState Sec Grp Key) (h : Header Grp) : Decidable (s.Overflows h) :=
  inferInstanceAs (Decidable (_ ∧ _))

end RatchetState

namespace Primitives

open RatchetState

variable {Sec Grp Key Nonce Plain Cipher : Type} [DecidableEq Grp]
variable (P : Primitives Sec Grp Key Nonce Plain Cipher) (checks : Bool)

/-- The loop of `skip_messages` does not overflow: it counts up to a number that there is. -/
theorem skipLoopChecked_eq (remote : Grp) (until' : UInt32) (fuel : ℕ) (ck : Key)
    (s : RatchetState Sec Grp Key) : P.skipLoopChecked checks remote until' fuel ck s =
      some (P.skipLoop remote until' fuel ck s) := by
  induction fuel generalizing ck s with
  | zero => rfl
  | succ fuel ih =>
      rw [skipLoopChecked, skipLoop]
      split_ifs with hlt
      · have hadd : addChecked checks s.msgNumRecv 1 = some (s.msgNumRecv + 1) := by
          refine addChecked_of_lt ?_
          have hu := until'.toNat_lt
          rw [UInt32.lt_iff_toNat_lt] at hlt
          rw [UInt32.toNat_one]
          omega
        rw [kdfCk_eq]
        dsimp only
        rw [hadd]
        exact ih _ _
      · rfl

/-- **When `skip_messages` stops.** -/
theorem skipMessagesChecked_eq (s : RatchetState Sec Grp Key) (until' : UInt32) :
    P.skipMessagesChecked checks s until' =
      if checks ∧ s.LimitOverflows then none else some (P.skipMessages s until') := by
  cases hck : s.chainKeyRecv with
  | none =>
      have hnot : ¬ (checks ∧ s.LimitOverflows) := by
        rintro ⟨-, hsome, -⟩
        rw [hck] at hsome
        cases hsome
      rw [if_neg hnot]
      simp only [skipMessagesChecked, skipMessages, hck]
  | some ck =>
      have hlimit : s.LimitOverflows ↔ 2 ^ 32 ≤ s.msgNumRecv.toNat + MAX_SKIP.toNat :=
        and_iff_right (by rw [hck]; rfl)
      by_cases hover : checks ∧ s.LimitOverflows
      · have hadd : addChecked checks s.msgNumRecv MAX_SKIP = none := if_pos ⟨hover.1, hlimit.1 hover.2⟩
        rw [if_pos hover]
        simp only [skipMessagesChecked, hck, hadd]
      · have hadd : addChecked checks s.msgNumRecv MAX_SKIP = some (s.msgNumRecv + MAX_SKIP) :=
          if_neg fun h => hover ⟨h.1, hlimit.2 h.2⟩
        rw [if_neg hover]
        simp only [skipMessagesChecked, skipMessages, hck, hadd]
        split_ifs
        · rfl
        · cases s.dhRemote with
          | none => rfl
          | some remote =>
              dsimp only
              rw [P.skipLoopChecked_eq]
              rcases P.skipLoop remote until' (until'.toNat - s.msgNumRecv.toNat) ck s with ⟨e | ck', s'⟩
              · rfl
              · rfl

omit [DecidableEq Grp] in
/-- The last number is not refused by the test. -/
theorem not_tooFar_of_lastNumber {s : RatchetState Sec Grp Key} {pk : Grp} {msgNum : UInt32}
    (h : s.LastNumber pk msgNum) : ¬ s.TooFar msgNum := by
  obtain ⟨-, -, hrecv, hnum⟩ := h
  rintro ⟨-, hfar⟩
  have hmax : MAX_SKIP.toNat = 256 := rfl
  rw [UInt32.lt_iff_toNat_lt, UInt32.toNat_add, hmax] at hfar
  omega

/-- **Counting the message that has been reached**: the counter overflows at the last number only. -/
theorem addChecked_skipTo {s : RatchetState Sec Grp Key} {pk : Grp} {msgNum : UInt32}
    (hck : s.chainKeyRecv.isSome) (hrem : s.dhRemote = some pk)
    (hlimit : ¬ (checks ∧ s.LimitOverflows)) (hfar : ¬ s.TooFar msgNum) :
    addChecked checks (P.skipTo s msgNum).msgNumRecv 1 =
      if checks ∧ s.LastNumber pk msgNum then none else some ((P.skipTo s msgNum).msgNumRecv + 1) := by
  obtain ⟨ck, hsome⟩ := Option.isSome_iff_exists.1 hck
  have hreached : (P.skipTo s msgNum).msgNumRecv.toNat = max s.msgNumRecv.toNat msgNum.toNat := by
    rw [P.skipTo_of_some hsome hrem]
    exact s.toNat_add_skipCount msgNum
  have hnum := msgNum.toNat_lt
  have hmax : MAX_SKIP.toNat = 256 := rfl
  cases checks with
  | false =>
      have hnot : ∀ p : Prop, ¬ (false = true ∧ p) := fun p h => absurd h.1 Bool.false_ne_true
      exact (if_neg (hnot _)).trans (if_neg (hnot _)).symm
  | true =>
      have hsmall : s.msgNumRecv.toNat + 256 < 2 ^ 32 := by
        by_contra hge
        exact hlimit ⟨rfl, hck, Nat.le_of_not_lt hge⟩
      have hnear : msgNum.toNat ≤ s.msgNumRecv.toNat + 256 := by
        by_contra hgt
        refine hfar ⟨hck, ?_⟩
        rw [UInt32.lt_iff_toNat_lt, UInt32.toNat_add, hmax]
        omega
      by_cases hlast : s.LastNumber pk msgNum
      · refine (if_pos ⟨rfl, ?_⟩).trans (if_pos ⟨rfl, hlast⟩).symm
        rw [hreached, UInt32.toNat_one]
        have := hlast.2.2.2
        omega
      · rw [if_neg fun h => hlast h.2]
        refine addChecked_of_lt ?_
        rw [hreached, UInt32.toNat_one]
        by_contra hge
        exact hlast ⟨hck, hrem, by omega, by omega⟩

/-- When the second half of `decrypt` stops. -/
theorem decryptOnChainChecked_eq {s : RatchetState Sec Grp Key} {pk : Grp} (hrem : s.dhRemote = some pk)
    (msgNum : UInt32) (c : Cipher) : P.decryptOnChainChecked checks s msgNum c =
      if checks ∧ (s.LimitOverflows ∨ s.LastNumber pk msgNum) then none
      else some (P.decryptOnChain s msgNum c) := by
  unfold decryptOnChainChecked decryptOnChain
  rw [P.skipMessagesChecked_eq]
  by_cases hlimit : checks ∧ s.LimitOverflows
  · rw [if_pos hlimit, if_pos ⟨hlimit.1, Or.inl hlimit.2⟩]
  · rw [if_neg hlimit]
    have hiff : (checks ∧ (s.LimitOverflows ∨ s.LastNumber pk msgNum)) ↔
        checks ∧ s.LastNumber pk msgNum :=
      ⟨fun h => ⟨h.1, h.2.resolve_left fun hl => hlimit ⟨h.1, hl⟩⟩, fun h => ⟨h.1, Or.inr h.2⟩⟩
    by_cases hfar : s.TooFar msgNum
    · have hnot : ¬ (checks ∧ (s.LimitOverflows ∨ s.LastNumber pk msgNum)) :=
        fun h => not_tooFar_of_lastNumber (hiff.1 h).2 hfar
      rw [if_neg hnot, P.skipMessages_of_tooFar hfar]
    · rw [P.skipMessages_of_not_tooFar hfar]
      cases hck : s.chainKeyRecv with
      | none =>
          have hnot : ¬ (checks ∧ (s.LimitOverflows ∨ s.LastNumber pk msgNum)) := by
            intro h
            have hsome := (hiff.1 h).2.1
            rw [hck] at hsome
            cases hsome
          rw [if_neg hnot, P.skipTo_of_chain_none hck]
          simp only [hck]
      | some ck =>
          have hadd := P.addChecked_skipTo checks (by rw [hck]; rfl) hrem hlimit hfar
          have hsome : (P.skipTo s msgNum).chainKeyRecv = some (P.chainAt ck (s.skipCount msgNum)) := by
            rw [P.skipTo_of_some hck hrem]
          simp only [hsome, kdfCk_eq, hadd]
          by_cases hlast : checks ∧ s.LastNumber pk msgNum
          · rw [if_pos hlast, if_pos (hiff.2 hlast)]
          · rw [if_neg hlast, if_neg (hlast ∘ hiff.1)]

/-- **When `decrypt` stops.** -/
theorem decryptChecked_eq (s : RatchetState Sec Grp Key) (h : Header Grp) (c : Cipher) (rng : Sec) :
    P.decryptChecked checks s h c rng =
      if checks ∧ s.Overflows h then none else some (P.decrypt s h c rng) := by
  unfold decryptChecked decrypt
  cases hlook : s.skippedKeys.lookup (h.dhPublic, h.msgNum) with
  | some k =>
      have hnot : ¬ (checks ∧ s.Overflows h) := by
        rintro ⟨-, hnone, -⟩
        rw [hlook] at hnone
        cases hnone
      rw [if_neg hnot]
  | none =>
      by_cases hrem : s.dhRemote = some h.dhPublic
      · have hiff : (checks ∧ s.Overflows h) ↔
            checks ∧ (s.LimitOverflows ∨ s.LastNumber h.dhPublic h.msgNum) :=
          and_congr_right' (and_iff_right hlook)
        simp only [hrem, ne_eq, not_true_eq_false, if_false, P.decryptOnChainChecked_eq checks hrem]
        exact if_congr hiff.symm rfl rfl
      · have hiff : (checks ∧ s.Overflows h) ↔ checks ∧ s.LimitOverflows := by
          refine and_congr_right' ((and_iff_right hlook).trans (or_iff_left ?_))
          rintro ⟨-, hrem', -⟩
          exact hrem hrem'
        simp only [ne_eq, hrem, not_false_eq_true, if_true]
        rw [P.skipMessagesChecked_eq]
        by_cases hlimit : checks ∧ s.LimitOverflows
        · rw [if_pos hlimit, if_pos (hiff.2 hlimit)]
        · rw [if_neg hlimit, if_neg (hlimit ∘ hiff.1)]
          by_cases hfar : s.TooFar h.prevChainLen
          · simp only [P.skipMessages_of_tooFar hfar]
          · -- the new chain begins at 0, far from the end of the counter
            have hzero : (P.ratcheted (P.skipTo s h.prevChainLen) h.dhPublic rng).msgNumRecv.toNat = 0 := rfl
            have hnot : ¬ (checks ∧
                ((P.ratcheted (P.skipTo s h.prevChainLen) h.dhPublic rng).LimitOverflows ∨
                  (P.ratcheted (P.skipTo s h.prevChainLen) h.dhPublic rng).LastNumber
                    h.dhPublic h.msgNum)) := by
              rintro ⟨-, ⟨-, hover⟩ | ⟨-, -, hover, -⟩⟩
              · rw [hzero] at hover
                omega
              · rw [hzero] at hover
                omega
            simp only [P.skipMessages_of_not_tooFar hfar, dhRatchet_eq]
            rw [P.decryptOnChainChecked_eq checks rfl, if_neg hnot]

end Primitives

end Sanctum
