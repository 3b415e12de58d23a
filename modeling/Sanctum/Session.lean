/-
The metadata of a pairwise session, and its replay check.

`check_replay` keeps a `u64` bitmap under the largest sequence number received.  Shifts of 64 and
more are cut off by hand, since the shift of a machine word takes its amount modulo 64; with that
the bitmap is a replay window of width 64, which the second half of this module shows.

Main definitions:

* `Sanctum.Session`, `Sanctum.Session.checkReplay` — the metadata, and the check;
* `Sanctum.Session.window` — the window that a session's two words represent.

Main results:

* `Sanctum.Session.checkReplay_eq` — **the check is admission to the window**.
-/

import Sanctum.Domain
import Sanctum.ReplayWindow

set_option relaxedAutoImplicit false
set_option autoImplicit false

namespace Sanctum

/-- **Session metadata** for a pairwise Double Ratchet session. -/
structure Session where
  peerFingerprint : Fingerprint
  lastSentSequence : UInt64
  lastReceivedSequence : UInt64
  /-- The 64-bit sliding window anti-replay bitmap. -/
  replayBitmap : UInt64
  established : Bool
deriving DecidableEq

namespace Session

/-! ### The code -/

/-- A new unestablished session. -/
def new (peerFingerprint : Fingerprint) : Session where
  peerFingerprint := peerFingerprint
  lastSentSequence := 0
  lastReceivedSequence := 0
  replayBitmap := 0
  established := false

def markEstablished (s : Session) : Session := { s with established := true }

/-- The next send sequence number, and the session after it. -/
def nextSendSequence (s : Session) : UInt64 × Session :=
  let s := { s with lastSentSequence := s.lastSentSequence + 1 }
  (s.lastSentSequence, s)

/-- Check a received sequence number: `true` if it is accepted, `false` if it is a replay or too
old. -/
def checkReplay (s : Session) (seq : UInt64) : Bool × Session :=
  if seq = 0 then (false, s)
  else if seq > s.lastReceivedSequence then
    let shift := seq - s.lastReceivedSequence
    let bitmap := if shift ≥ 64 then 0 else s.replayBitmap <<< shift
    (true, { s with replayBitmap := bitmap ||| 1, lastReceivedSequence := seq })
  else
    let age := s.lastReceivedSequence - seq
    if age ≥ 64 then (false, s)
    else
      let bit := 1 <<< age
      if s.replayBitmap &&& bit ≠ 0 then (false, s)
      else (true, { s with replayBitmap := s.replayBitmap ||| bit })

/-! ### The window of a session -/

/-- **The replay window of a session.** -/
def window (s : Session) : ReplayWindow 64 where
  top := s.lastReceivedSequence.toNat
  bits := s.replayBitmap.toBitVec

@[simp] theorem window_markEstablished (s : Session) : s.markEstablished.window = s.window := rfl

@[simp] theorem window_nextSendSequence (s : Session) : s.nextSendSequence.2.window = s.window :=
  rfl

/-- The replay check leaves the send counter alone. -/
@[simp] theorem lastSentSequence_checkReplay (s : Session) (seq : UInt64) :
    (s.checkReplay seq).2.lastSentSequence = s.lastSentSequence := by
  unfold checkReplay
  split
  · rfl
  · split
    · rfl
    · dsimp only
      split
      · rfl
      · split <;> rfl

/-- The bitmap after a jump forward: the word shift, with the case of 64 and more cut off, is the
shift of the bits. -/
theorem toBitVec_shifted (bitmap shift : UInt64) :
    ((if shift ≥ 64 then 0 else bitmap <<< shift) ||| 1).toBitVec =
      bitmap.toBitVec <<< shift.toNat ||| 1#64 := by
  rw [UInt64.toBitVec_or]
  congr 1
  by_cases h : shift ≥ 64
  · rw [if_pos h]
    have h64 : 64 ≤ shift.toNat := UInt64.le_iff_toNat_le.1 h
    exact (BitVec.shiftLeft_eq_zero h64).symm
  · rw [if_neg h]
    have h64 : shift.toNat < 64 := UInt64.lt_iff_toNat_lt.1 (UInt64.not_le.1 h)
    rw [UInt64.toBitVec_shiftLeft, BitVec.shiftLeft_eq', BitVec.toNat_umod]
    congr 1
    exact Nat.mod_eq_of_lt h64

/-- The mask of one bit. -/
theorem toBitVec_bit {age : UInt64} (h : age.toNat < 64) :
    ((1 : UInt64) <<< age).toBitVec = BitVec.twoPow 64 age.toNat := by
  rw [UInt64.toBitVec_shiftLeft, BitVec.shiftLeft_eq', BitVec.toNat_umod, BitVec.twoPow]
  congr 1
  exact Nat.mod_eq_of_lt h

/-- Testing a bit with its mask. -/
theorem and_bit_ne_zero_iff (bitmap : UInt64) {age : UInt64} (h : age.toNat < 64) :
    bitmap &&& 1 <<< age ≠ 0 ↔ bitmap.toBitVec.getLsbD age.toNat = true := by
  rw [ne_eq, ← UInt64.toBitVec_inj, UInt64.toBitVec_and, toBitVec_bit h, BitVec.and_twoPow]
  cases bitmap.toBitVec.getLsbD age.toNat
  · simp
  · simp only [if_true, iff_true]
    intro hzero
    have hbit := congrArg (fun b => b.getLsbD age.toNat) hzero
    simp [h] at hbit

/-- **The replay check is admission to the window**: a number other than 0 is accepted exactly when
the window accepts it, and a refused number leaves the session as it is. -/
theorem checkReplay_eq (s : Session) {seq : UInt64} (hseq : seq ≠ 0) :
    (s.checkReplay seq).1 = (s.window.accept seq.toNat).isSome ∧
      (s.checkReplay seq).2.window = (s.window.accept seq.toNat).getD s.window ∧
      ((s.checkReplay seq).1 = false → (s.checkReplay seq).2 = s) := by
  rw [checkReplay, if_neg hseq, ReplayWindow.accept]
  by_cases habove : s.lastReceivedSequence < seq
  · have hlt : s.window.top < seq.toNat := UInt64.lt_iff_toNat_lt.1 habove
    have hshift : (seq - s.lastReceivedSequence).toNat = seq.toNat - s.window.top :=
      UInt64.toNat_sub_of_le _ _ (UInt64.le_of_lt habove)
    rw [if_pos habove, if_pos hlt]
    refine ⟨rfl, ?_, fun h => absurd h (by simp)⟩
    simp only [window, toBitVec_shifted, Option.getD_some, hshift]
  · have hle : ¬ s.window.top < seq.toNat := fun h => habove (UInt64.lt_iff_toNat_lt.2 h)
    have hage : (s.lastReceivedSequence - seq).toNat = s.window.top - seq.toNat :=
      UInt64.toNat_sub_of_le _ _ (UInt64.not_lt.1 habove)
    rw [if_neg habove, if_neg hle]
    by_cases hold : s.lastReceivedSequence - seq ≥ 64
    · have h64 : 64 ≤ s.window.top - seq.toNat := hage ▸ UInt64.le_iff_toNat_le.1 hold
      simp [if_pos hold, if_pos h64]
    · have hnear := UInt64.lt_iff_toNat_lt.1 (UInt64.not_le.1 hold)
      have h64 : ¬ 64 ≤ s.window.top - seq.toNat := hage ▸ Nat.not_le.2 hnear
      have htest : s.replayBitmap &&& 1 <<< (s.lastReceivedSequence - seq) ≠ 0 ↔
          s.window.bits.getLsbD (s.window.top - seq.toNat) = true :=
        hage ▸ and_bit_ne_zero_iff s.replayBitmap hnear
      have hmask := toBitVec_bit hnear
      rw [hage] at hmask
      simp only [if_neg hold, if_neg h64]
      by_cases hset : s.replayBitmap &&& 1 <<< (s.lastReceivedSequence - seq) ≠ 0
      · rw [if_pos hset, if_pos (htest.1 hset)]
        exact ⟨rfl, rfl, fun _ => rfl⟩
      · rw [if_neg hset, if_neg fun h => hset (htest.2 h)]
        refine ⟨rfl, ?_, fun h => absurd h (by simp)⟩
        simp only [window, UInt64.toBitVec_or, hmask, Option.getD_some]

end Session

end Sanctum
