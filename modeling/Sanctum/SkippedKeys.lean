/-
The store of skipped message keys.

The limit of 256 that the documents state for each chain is tested for one jump only.  A jump adds
exactly the numbers it passes over to what the store holds for its chain, nothing bounds the sum,
and a call whose message is rejected adds its jumps all the same.  So the store outgrows the limit
with the second jump, and it keeps within the limit exactly in the runs whose jumps fit into what
is left.

Main definitions:

* `Sanctum.RatchetState.storedFor`, `Sanctum.RatchetState.Bounded` — the entries for one ratchet
  public key, and the documented bound on them;
* `Sanctum.RatchetState.Fits` — the numbers a call of `decrypt` skips fit into the bound.

Main results:

* `Sanctum.Primitives.storedFor_skipTo` — what a jump adds;
* `Sanctum.Primitives.decrypt_bounded_iff` — the effect of one call;
* `Sanctum.Primitives.run_bounded_iff` — **the store is bounded throughout a run exactly when every
  jump of the run fits**;
* `Sanctum.two_jumps_overflow` — two jumps of 256.
-/

import Sanctum.RatchetReject

set_option relaxedAutoImplicit false
set_option autoImplicit false

namespace Sanctum

namespace RatchetState

variable {Sec Grp Key : Type} [DecidableEq Grp]

/-- The entries of the store for one ratchet public key. -/
def storedFor (s : RatchetState Sec Grp Key) (pk : Grp) : Finset (Grp × UInt32) :=
  s.skippedKeys.keys.filter fun entry => entry.1 = pk

/-- **The documented bound**: at most 256 skipped messages for each chain. -/
def Bounded (s : RatchetState Sec Grp Key) : Prop :=
  ∀ pk, (s.storedFor pk).card ≤ MAX_SKIP.toNat

/-- The entries of `n` messages of the chain of `pk`, the first of them numbered `start`. -/
def passedOver (pk : Grp) (start : UInt32) (n : ℕ) : Finset (Grp × UInt32) :=
  (Finset.range n).image fun i => (pk, start + UInt32.ofNat i)

/-- A jump to `until'` on the current chain fits: what is stored for the chain and what the jump
passes over are together within the bound. -/
def JumpFits (s : RatchetState Sec Grp Key) (until' : UInt32) : Prop :=
  ∀ remote, s.dhRemote = some remote → s.chainKeyRecv.isSome →
    (s.storedFor remote ∪ passedOver remote s.msgNumRecv (s.skipCount until')).card
      ≤ MAX_SKIP.toNat

/-- **The jumps of a call of `decrypt` fit**: the one on the current chain, to the message or, when
the header starts a new chain, to the announced end of the current one, and then the one on the new
chain, to the message. -/
def Fits (s : RatchetState Sec Grp Key) (h : Header Grp) : Prop :=
  s.skippedKeys.lookup (h.dhPublic, h.msgNum) = none →
    if s.dhRemote = some h.dhPublic then ¬ s.TooFar h.msgNum → s.JumpFits h.msgNum
    else ¬ s.TooFar h.prevChainLen → s.JumpFits h.prevChainLen ∧
      (h.msgNum ≤ MAX_SKIP →
        (s.storedFor h.dhPublic ∪ passedOver h.dhPublic 0 h.msgNum.toNat).card ≤ MAX_SKIP.toNat)

theorem bounded_of_subset {s t : RatchetState Sec Grp Key} (hs : s.Bounded)
    (h : ∀ pk, t.storedFor pk ⊆ s.storedFor pk) : t.Bounded := fun pk =>
  (Finset.card_le_card (h pk)).trans (hs pk)

theorem storedFor_congr {s t : RatchetState Sec Grp Key} (h : s.skippedKeys = t.skippedKeys)
    (pk : Grp) : s.storedFor pk = t.storedFor pk := by
  rw [storedFor, storedFor, h]

theorem bounded_congr {s t : RatchetState Sec Grp Key} (h : s.skippedKeys = t.skippedKeys) :
    s.Bounded ↔ t.Bounded :=
  ⟨fun hs => bounded_of_subset hs fun pk => (storedFor_congr h pk).ge,
    fun ht => bounded_of_subset ht fun pk => (storedFor_congr h pk).le⟩

/-- Taking a stored key only shrinks the store. -/
theorem bounded_forget {s : RatchetState Sec Grp Key} (hs : s.Bounded) (h : Header Grp) :
    (s.forget h).Bounded := by
  refine bounded_of_subset hs fun pk entry hentry => ?_
  rw [storedFor, Finset.mem_filter, forget, Finmap.keys_erase, Finset.mem_erase] at hentry
  exact Finset.mem_filter.2 ⟨hentry.1.2, hentry.2⟩

/-- A jump passes over as many entries as its length says. -/
theorem card_passedOver (pk : Grp) (start : UInt32) {n : ℕ} (hn : n ≤ 2 ^ 32) :
    (passedOver pk start n).card = n := by
  rw [passedOver, Finset.card_image_of_injOn, Finset.card_range]
  intro i hi j hj h
  simp only [Finset.coe_range, Set.mem_Iio] at hi hj
  have hnum := congrArg UInt32.toNat (UInt32.add_right_inj start |>.1 (congrArg Prod.snd h))
  simp only [UInt32.toNat_ofNat'] at hnum
  omega

theorem mem_passedOver {pk : Grp} {start : UInt32} {n : ℕ} (hn : start.toNat + n ≤ 2 ^ 32)
    {m : UInt32} :
    (pk, m) ∈ passedOver pk start n ↔ start.toNat ≤ m.toNat ∧ m.toNat < start.toNat + n := by
  have hm := m.toNat_lt
  simp only [passedOver, Finset.mem_image, Finset.mem_range, Prod.mk.injEq, true_and]
  constructor
  · rintro ⟨i, hi, rfl⟩
    rw [UInt32.toNat_add, UInt32.toNat_ofNat']
    omega
  · rintro ⟨h₁, h₂⟩
    refine ⟨m.toNat - start.toNat, by omega, UInt32.toNat_inj.1 ?_⟩
    rw [UInt32.toNat_add, UInt32.toNat_ofNat']
    omega

end RatchetState

namespace Primitives

open RatchetState

variable {Sec Grp Key Nonce Plain Cipher : Type} [DecidableEq Grp]
variable (P : Primitives Sec Grp Key Nonce Plain Cipher)

/-! ### What a jump adds -/

/-- The entries after a run of the skipping loop. -/
theorem keys_storeKeys (remote : Grp) :
    ∀ (n : ℕ) (ck : Key) (start : UInt32) (table : HashMap (Grp × UInt32) Key),
      (P.storeKeys remote n ck start table).keys = table.keys ∪ passedOver remote start n := by
  intro n
  induction n with
  | zero => intro ck start table; simp [storeKeys, passedOver]
  | succ n ih =>
      intro ck start table
      -- the first message, then the rest
      have hrange : passedOver remote start (n + 1) =
          insert (remote, start) (passedOver remote (start + 1) n) := by
        ext entry
        simp only [passedOver, Finset.mem_image, Finset.mem_range, Finset.mem_insert]
        constructor
        · rintro ⟨i, hi, rfl⟩
          cases i with
          | zero => exact Or.inl (by simp)
          | succ i => exact Or.inr ⟨i, by omega, by rw [succ_add_ofNat]⟩
        · rintro (rfl | ⟨i, hi, rfl⟩)
          · exact ⟨0, by omega, by simp⟩
          · exact ⟨i + 1, by omega, by rw [succ_add_ofNat]⟩
      rw [storeKeys, ih, hrange]
      ext entry
      simp only [Finset.mem_union, Finset.mem_insert, Finmap.mem_keys, Finmap.mem_insert]
      tauto

/-- **What a jump adds**: the numbers it passes over, to the entries of its own chain. -/
theorem storedFor_skipTo {s : RatchetState Sec Grp Key} {ck : Key} {remote : Grp}
    (hck : s.chainKeyRecv = some ck) (hrem : s.dhRemote = some remote) (until' : UInt32)
    (pk : Grp) :
    (P.skipTo s until').storedFor pk = s.storedFor pk ∪
      if pk = remote then passedOver remote s.msgNumRecv (s.skipCount until') else ∅ := by
  have hfst : ∀ entry ∈ passedOver remote s.msgNumRecv (s.skipCount until'),
      entry.1 = remote := by
    intro entry hentry
    obtain ⟨i, -, rfl⟩ := Finset.mem_image.1 hentry
    rfl
  rw [P.skipTo_of_some hck hrem, storedFor, P.keys_storeKeys, Finset.filter_union]
  congr 1
  split
  · next hpk =>
      rw [Finset.filter_eq_self]
      exact fun entry hentry => hpk ▸ hfst entry hentry
  · next hpk =>
      rw [Finset.filter_eq_empty_iff]
      exact fun entry hentry heq => hpk (heq ▸ hfst entry hentry)

theorem storedFor_subset_skipTo (s : RatchetState Sec Grp Key) (until' : UInt32) (pk : Grp) :
    s.storedFor pk ⊆ (P.skipTo s until').storedFor pk := by
  cases hck : s.chainKeyRecv with
  | none => rw [P.skipTo_of_chain_none hck]
  | some ck =>
      cases hrem : s.dhRemote with
      | none => rw [P.skipTo_of_remote_none hrem]
      | some remote =>
          rw [P.storedFor_skipTo hck hrem]
          exact Finset.subset_union_left

/-- A jump keeps the bound exactly when it fits. -/
theorem bounded_skipTo_iff {s : RatchetState Sec Grp Key} (hs : s.Bounded) (until' : UInt32) :
    (P.skipTo s until').Bounded ↔ s.JumpFits until' := by
  cases hck : s.chainKeyRecv with
  | none => simp [P.skipTo_of_chain_none hck, hs, JumpFits, hck]
  | some ck =>
      cases hrem : s.dhRemote with
      | none => simp [P.skipTo_of_remote_none hrem, hs, JumpFits, hrem]
      | some remote =>
          constructor
          · rintro hb r hr -
            obtain rfl : remote = r := Option.some_inj.1 (hrem.symm.trans hr)
            have := hb remote
            rwa [P.storedFor_skipTo hck hrem, if_pos rfl] at this
          · intro hfits pk
            rw [P.storedFor_skipTo hck hrem]
            by_cases hpk : pk = remote
            · rw [if_pos hpk, hpk]
              exact hfits remote hrem (by simp [hck])
            · rw [if_neg hpk, Finset.union_empty]
              exact hs pk

/-! ### What a call does -/

/-- Taking a key on the receiving chain keeps the bound exactly when the jump fits. -/
theorem bounded_takeOnChain_iff {s : RatchetState Sec Grp Key} (hs : s.Bounded) (n : UInt32) :
    (P.takeOnChain s n).2.Bounded ↔ (¬ s.TooFar n → s.JumpFits n) := by
  rw [takeOnChain]
  by_cases hfar : s.TooFar n
  · simp [hfar, hs]
  · rw [if_neg hfar, ← P.bounded_skipTo_iff hs n]
    simp only [hfar, not_false_eq_true, true_imp_iff]
    cases (P.skipTo s n).chainKeyRecv with
    | none => exact Iff.rfl
    | some ck => exact bounded_congr rfl

theorem storedFor_subset_takeOnChain (s : RatchetState Sec Grp Key) (n : UInt32) (pk : Grp) :
    s.storedFor pk ⊆ (P.takeOnChain s n).2.storedFor pk := by
  rw [takeOnChain]
  split
  · exact subset_rfl
  · split
    · exact P.storedFor_subset_skipTo s n pk
    · exact P.storedFor_subset_skipTo s n pk

/-- The first jump on the chain that a DH ratchet step starts. -/
theorem ratcheted_fits_iff (s : RatchetState Sec Grp Key) (pk : Grp) (rng : Sec) (n : UInt32) :
    (¬ (P.ratcheted s pk rng).TooFar n → (P.ratcheted s pk rng).JumpFits n) ↔
      (n ≤ MAX_SKIP →
        (s.storedFor pk ∪ passedOver pk 0 n.toNat).card ≤ MAX_SKIP.toNat) := by
  have hfar : ¬ (P.ratcheted s pk rng).TooFar n ↔ n ≤ MAX_SKIP := by
    rw [P.ratcheted_tooFar_iff, UInt32.not_lt]
  have hcount : (P.ratcheted s pk rng).skipCount n = n.toNat := Nat.sub_zero _
  have hfits : (P.ratcheted s pk rng).JumpFits n ↔
      (s.storedFor pk ∪ passedOver pk 0 n.toNat).card ≤ MAX_SKIP.toNat := by
    constructor
    · intro h
      have hcard := h pk rfl rfl
      rwa [hcount] at hcard
    · rintro h r hr -
      obtain rfl : pk = r := Option.some_inj.1 hr
      rw [hcount]
      exact h
  rw [hfar, hfits]

/-- **One call of `decrypt` keeps the bound exactly when its jumps fit**, accepted or not. -/
theorem decrypt_bounded_iff {s : RatchetState Sec Grp Key} (hs : s.Bounded) (h : Header Grp)
    (c : Cipher) (rng : Sec) : (P.decrypt s h c rng).2.Bounded ↔ s.Fits h := by
  rw [decrypt_eq, Fits]
  simp only [takeKey]
  cases hlook : s.skippedKeys.lookup (h.dhPublic, h.msgNum) with
  | some k => simp [bounded_forget hs h]
  | none =>
      by_cases hrem : s.dhRemote = some h.dhPublic
      · simp only [hrem, if_true, true_imp_iff]
        exact P.bounded_takeOnChain_iff hs h.msgNum
      · by_cases hfar : s.TooFar h.prevChainLen
        · simp [hrem, hfar, hs]
        · simp only [hrem, hfar, if_false, not_false_eq_true, true_imp_iff]
          have hsame : (P.skipTo s h.prevChainLen).storedFor h.dhPublic =
              s.storedFor h.dhPublic := by
            cases hck : s.chainKeyRecv with
            | none => rw [P.skipTo_of_chain_none hck]
            | some ck =>
                cases hr : s.dhRemote with
                | none => rw [P.skipTo_of_remote_none hr]
                | some remote =>
                    have hne : h.dhPublic ≠ remote := fun heq => hrem (by rw [hr, heq])
                    rw [P.storedFor_skipTo hck hr, if_neg hne, Finset.union_empty]
          have hjump := P.bounded_skipTo_iff hs h.prevChainLen
          have hnew := P.ratcheted_fits_iff (P.skipTo s h.prevChainLen) h.dhPublic rng h.msgNum
          rw [hsame] at hnew
          constructor
          · intro hb
            -- the second jump leaves what the first has stored
            have hfirst : (P.skipTo s h.prevChainLen).Bounded :=
              bounded_of_subset hb fun pk => P.storedFor_subset_takeOnChain
                (P.ratcheted (P.skipTo s h.prevChainLen) h.dhPublic rng) h.msgNum pk
            have hmid : (P.ratcheted (P.skipTo s h.prevChainLen) h.dhPublic rng).Bounded := hfirst
            exact ⟨hjump.1 hfirst, hnew.1 ((P.bounded_takeOnChain_iff hmid h.msgNum).1 hb)⟩
          · rintro ⟨h₁, h₂⟩
            have hmid : (P.ratcheted (P.skipTo s h.prevChainLen) h.dhPublic rng).Bounded :=
              hjump.2 h₁
            exact (P.bounded_takeOnChain_iff hmid h.msgNum).2 (hnew.2 h₂)

omit [DecidableEq Grp] in
/-- Encrypting does not touch the store. -/
theorem encrypt_skippedKeys (s : RatchetState Sec Grp Key) (m : Plain) :
    (P.encrypt s m).2.skippedKeys = s.skippedKeys := by
  cases hck : s.chainKeySend with
  | none => rw [P.encrypt_of_none hck]
  | some ck => rw [P.encrypt_eq hck]; rfl

theorem Initial.bounded {s : RatchetState Sec Grp Key} (h : P.Initial s) : s.Bounded := by
  have hempty : ∀ t : RatchetState Sec Grp Key, t.skippedKeys = ∅ → t.Bounded := by
    intro t ht pk
    rw [storedFor, ht, Finmap.keys_empty, Finset.filter_empty, Finset.card_empty]
    exact Nat.zero_le _
  cases h with
  | alice hok =>
      rw [P.initAlice_eq] at hok
      cases hok
      exact hempty _ rfl
  | bob => exact hempty _ rfl

/-! ### Two jumps -/

/-- **A header ahead on the current chain**, within the limit and not stored: the numbers it passes
over are stored and the chain goes on behind it, whatever the ciphertext. -/
theorem decrypt_ahead {s : RatchetState Sec Grp Key} {pk : Grp} {n : UInt32}
    (hck : s.chainKeyRecv.isSome) (hrem : s.dhRemote = some pk) (hnew : (pk, n) ∉ s.storedFor pk)
    (hle : s.msgNumRecv ≤ n) (hnear : n ≤ s.msgNumRecv + MAX_SKIP)
    (prev : UInt32) (c : Cipher) (rng : Sec) :
    (P.decrypt s ⟨pk, prev, n⟩ c rng).2.chainKeyRecv.isSome ∧
      (P.decrypt s ⟨pk, prev, n⟩ c rng).2.dhRemote = some pk ∧
      (P.decrypt s ⟨pk, prev, n⟩ c rng).2.msgNumRecv = n + 1 ∧
      (P.decrypt s ⟨pk, prev, n⟩ c rng).2.storedFor pk =
        s.storedFor pk ∪ passedOver pk s.msgNumRecv (n.toNat - s.msgNumRecv.toNat) := by
  obtain ⟨ck, hck⟩ := Option.isSome_iff_exists.1 hck
  have hlook : s.skippedKeys.lookup (pk, n) = none := by
    rw [Finmap.lookup_eq_none, ← Finmap.mem_keys]
    exact fun hmem => hnew (Finset.mem_filter.2 ⟨hmem, rfl⟩)
  have hfar : ¬ s.TooFar n := fun h => absurd hnear (UInt32.not_le.2 h.2)
  have hnum : s.msgNumRecv + UInt32.ofNat (s.skipCount n) = n := by
    have hn := n.toNat_lt
    rw [UInt32.le_iff_toNat_le] at hle
    apply UInt32.toNat_inj.1
    rw [UInt32.toNat_add, UInt32.toNat_ofNat', skipCount]
    omega
  have hstate : (P.decrypt s ⟨pk, prev, n⟩ c rng).2 =
      P.stepRecv (P.skipTo s n) (P.chainAt ck (s.skipCount n)) := by
    have hsome : (P.skipTo s n).chainKeyRecv = some (P.chainAt ck (s.skipCount n)) := by
      rw [P.skipTo_of_some hck hrem]
    simp only [decrypt_eq, takeKey, hlook, hrem, if_true, takeOnChain, if_neg hfar, hsome]
  rw [hstate]
  refine ⟨rfl, (P.skipTo_dhRemote s n).trans hrem, ?_, ?_⟩
  · rw [P.skipTo_of_some hck hrem]
    exact congrArg (· + 1) hnum
  · have hjump := P.storedFor_skipTo hck hrem n pk
    rw [if_pos rfl] at hjump
    exact (storedFor_congr rfl pk).trans hjump

/-- Two jumps of 256 at the start of a chain leave 512 entries. -/
theorem card_storedFor_two_jumps {s : RatchetState Sec Grp Key} {pk : Grp}
    (hck : s.chainKeyRecv.isSome) (hrem : s.dhRemote = some pk) (hnum : s.msgNumRecv = 1)
    (hnone : s.storedFor pk = ∅) (prev : UInt32) (c : Cipher) (rng : Sec) :
    ((P.run s [.decrypt ⟨pk, prev, 257⟩ c rng, .decrypt ⟨pk, prev, 514⟩ c rng]).storedFor pk).card
      = 512 := by
  obtain ⟨hck₂, hrem₂, hnum₂, hstored₂⟩ := P.decrypt_ahead (n := 257) hck hrem
    (by rw [hnone]; exact Finset.notMem_empty _) (by rw [hnum]; decide) (by rw [hnum]; decide)
    prev c rng
  rw [hnum, hnone, Finset.empty_union] at hstored₂
  have hnew : (pk, 514) ∉ (P.decrypt s ⟨pk, prev, 257⟩ c rng).2.storedFor pk := by
    rw [hstored₂, mem_passedOver (by decide)]
    decide
  obtain ⟨-, -, -, hstored₃⟩ := P.decrypt_ahead (n := 514) hck₂ hrem₂ hnew
    (by rw [hnum₂]; decide) (by rw [hnum₂]; decide) prev c rng
  have hdisj : Disjoint (passedOver pk 1 256) (passedOver pk 258 256) := by
    rw [Finset.disjoint_left]
    rintro ⟨pk', m⟩ h₁ h₂
    obtain ⟨i, -, ⟨⟩⟩ := Finset.mem_image.1 h₁
    rw [mem_passedOver (by decide)] at h₁ h₂
    exact absurd (h₂.1.trans_lt h₁.2) (by decide)
  have hall : (P.run s [.decrypt ⟨pk, prev, 257⟩ c rng, .decrypt ⟨pk, prev, 514⟩ c rng]).storedFor
      pk = passedOver pk 1 256 ∪ passedOver pk 258 256 := by
    rw [hstored₂, hnum₂] at hstored₃
    exact hstored₃
  rw [hall, Finset.card_union_of_disjoint hdisj, card_passedOver _ _ (by norm_num),
    card_passedOver _ _ (by norm_num)]

/-! ### Whole runs -/

/-- The calls run one after the other. -/
theorem run_cons (s : RatchetState Sec Grp Key) (call : Call Sec Grp Plain Cipher)
    (calls : List (Call Sec Grp Plain Cipher)) :
    P.run s (call :: calls) = P.run (P.apply s call) calls := rfl

/-- Along the calls of a run, from a state within the bound. -/
theorem run_bounded_iff_of_bounded :
    ∀ (calls : List (Call Sec Grp Plain Cipher)) (s : RatchetState Sec Grp Key), s.Bounded →
      ((∀ pre, pre <+: calls → (P.run s pre).Bounded) ↔
        ∀ pre h c rng, pre ++ [.decrypt h c rng] <+: calls → (P.run s pre).Fits h) := by
  intro calls
  induction calls with
  | nil =>
      intro s hs
      constructor
      · intro _ pre h c rng hpre
        exact absurd (List.prefix_nil.1 hpre) (by simp)
      · intro _ pre hpre
        rw [List.prefix_nil.1 hpre]
        exact hs
  | cons call calls ih =>
      intro s hs
      have hcall : (P.apply s call).Bounded ↔ ∀ h c rng, call = .decrypt h c rng → s.Fits h := by
        cases call with
        | encrypt m =>
            have hb : (P.encrypt s m).2.Bounded :=
              (bounded_congr (P.encrypt_skippedKeys s m)).2 hs
            simpa [apply] using hb
        | decrypt h c rng =>
            rw [apply, P.decrypt_bounded_iff hs]
            constructor
            · rintro hfits _ _ _ ⟨⟩
              exact hfits
            · intro hfits
              exact hfits h c rng rfl
      constructor
      · intro hall pre h c rng hpre
        have hnext : (P.apply s call).Bounded := hall [call] (by simp)
        cases pre with
        | nil => exact hcall.1 hnext h c rng (List.cons_prefix_cons.1 hpre).1.symm
        | cons call' pre =>
            obtain ⟨rfl, hpre'⟩ := List.cons_prefix_cons.1 hpre
            refine (ih _ hnext).1 (fun pre₂ hpre₂ => ?_) pre h c rng hpre'
            exact hall (call' :: pre₂) (List.cons_prefix_cons.2 ⟨rfl, hpre₂⟩)
      · intro hall pre hpre
        cases pre with
        | nil => exact hs
        | cons call' pre =>
            obtain ⟨rfl, hpre'⟩ := List.cons_prefix_cons.1 hpre
            have hnext : (P.apply s call').Bounded := hcall.2 fun h c rng heq =>
              hall [] h c rng (by simp [heq])
            refine (ih _ hnext).2 (fun pre₂ h c rng hpre₂ => ?_) pre hpre'
            exact hall (call' :: pre₂) h c rng (List.cons_prefix_cons.2 ⟨rfl, hpre₂⟩)

/-- **The store is within the documented bound throughout a run exactly when the jumps of every
call of `decrypt` fit.** -/
theorem run_bounded_iff {s : RatchetState Sec Grp Key} (hs : P.Initial s)
    (calls : List (Call Sec Grp Plain Cipher)) :
    (∀ pre, pre <+: calls → (P.run s pre).Bounded) ↔
      ∀ pre h c rng, pre ++ [.decrypt h c rng] <+: calls → (P.run s pre).Fits h :=
  P.run_bounded_iff_of_bounded calls s hs.bounded

end Primitives

/-- A forged message that announces the number `n` of a chain of the public key 1. -/
def forged (n : UInt32) : Call ℕ (Multiset ℕ) ℕ (SymCipher (Multiset ℕ) ℕ) :=
  .decrypt ⟨expPublic 1, 0, n⟩ (.junk 0) 2

/-- The state after the first of them, which starts the chain. -/
theorem forged_started :
    let s := (expSymbolic ℕ).run (RatchetState.initBob .secret 0 (expPublic 0)) [forged 0]
    s.chainKeyRecv.isSome ∧ s.dhRemote = some (expPublic 1) ∧ s.msgNumRecv = 1 ∧
      s.storedFor (expPublic 1) = ∅ :=
  ⟨rfl, rfl, rfl, rfl⟩

/-- A second message jumps over 199 numbers. -/
theorem forged_run_bounded_iff :
    (∀ pre, pre <+: [forged 0, forged 200] →
        ((expSymbolic ℕ).run (RatchetState.initBob .secret 0 (expPublic 0)) pre).Bounded) ∧
      (((expSymbolic ℕ).run (RatchetState.initBob .secret 0 (expPublic 0))
        [forged 0, forged 200]).storedFor (expPublic 1)).card = 199 := by
  obtain ⟨hck, hrem, hnum, hnone⟩ := forged_started
  have hstored : ((expSymbolic ℕ).run (RatchetState.initBob .secret 0 (expPublic 0))
      [forged 0, forged 200]).storedFor (expPublic 1) = RatchetState.passedOver (expPublic 1) 1 199 := by
    obtain ⟨-, -, -, hjump⟩ := (expSymbolic ℕ).decrypt_ahead (n := 200) hck hrem
      (by rw [hnone]; exact Finset.notMem_empty _) (by rw [hnum]; decide) (by rw [hnum]; decide) 0 (.junk 0) 2
    rw [hnum, hnone, Finset.empty_union] at hjump
    exact hjump
  refine ⟨((expSymbolic ℕ).run_bounded_iff (.bob SymKey.secret 0 (expPublic 0))
    [forged 0, forged 200]).2 ?_, ?_⟩
  · intro pre h c rng hpre
    match pre with
    | [] =>
        -- the chain starts, and nothing is passed over
        cases (List.cons_prefix_cons.1 hpre).1
        exact fun _ _ => ⟨fun _ hremote => (nomatch hremote), fun _ => Nat.zero_le _⟩
    | [call] =>
        obtain ⟨rfl, hlast⟩ := List.cons_prefix_cons.1 hpre
        cases (List.cons_prefix_cons.1 hlast).1
        intro _
        rw [if_pos hrem]
        rintro - remote hremote -
        obtain rfl : expPublic 1 = remote := Option.some_inj.1 (hrem.symm.trans hremote)
        rw [hnone, Finset.empty_union, hnum, RatchetState.card_passedOver _ _ (by decide)]
        decide
    | _ :: _ :: _ =>
        have hlength := hpre.length_le
        simp at hlength
  · rw [hstored, RatchetState.card_passedOver _ _ (by norm_num)]

/-- **Two jumps overflow the store**: three forged messages, none of which decrypts, leave 512
entries for one chain. -/
theorem two_jumps_overflow :
    (expSymbolic ℕ).Initial (RatchetState.initBob .secret 0 (expPublic 0)) ∧
      (((expSymbolic ℕ).run (RatchetState.initBob .secret 0 (expPublic 0))
        [forged 0, forged 257, forged 514]).storedFor (expPublic 1)).card = 512 := by
  refine ⟨Primitives.Initial.bob SymKey.secret 0 (expPublic 0), ?_⟩
  -- the first message starts the chain, the other two jump over 256 numbers each
  rw [Primitives.run_cons]
  exact (expSymbolic ℕ).card_storedFor_two_jumps rfl rfl rfl rfl 0 (.junk 0) 2

end Sanctum
