/-
The ratchets of a dialogue.

A dialogue, with the list of the messages that have reached a party, determines the ratchet of that
party: the root key and the chain keys are derived turn by turn from the shared secret, the counters
are lengths and marks, and the stored keys are those of the missing messages.  Each call of the
ratchet changes the ratchet as one change of the dialogue does.

Main definitions:

* `Sanctum.Dialogue.header`, `Sanctum.Dialogue.keyAt` — the messages of a dialogue;
* `Sanctum.Dialogue.state` — the ratchet that a dialogue determines, up to its stored keys;
* `Sanctum.Dialogue.Stored`, `Sanctum.Dialogue.Matches` — **the stored keys are those of the missing
  messages**, and the ratchet is that of the dialogue.

Main results:

* `Sanctum.Dialogue.aliceStart_eq`, `Sanctum.Dialogue.initBob_eq` — the initial ratchets;
* `Sanctum.Dialogue.matches_stepSend` — sending;
* `Sanctum.Dialogue.takeKey_stored`, `Sanctum.Dialogue.takeKey_current`,
  `Sanctum.Dialogue.takeKey_next` — **receiving takes the key of the message**, from the table, from
  the turn that is being read, or from a new one.
-/

import Sanctum.Dialogue
import Sanctum.Network

set_option relaxedAutoImplicit false
set_option autoImplicit false

namespace Sanctum

namespace Dialogue

variable {Sec Grp Key Nonce Plain Cipher : Type} {d : Dialogue Sec}

/-! ### The keys of a dialogue -/

section

variable (P : Primitives Sec Grp Key Nonce Plain Cipher) (sk : Key)

/-- The root key of each turn. -/
def rootAt (sec : ℕ → Sec) : ℕ → Key
  | 0 => sk
  | c + 1 => P.rootStep (rootAt sec c) (P.diffieHellman (sec (c + 1)) (P.publicKey (sec c)))

/-- The chain key that each turn starts with. -/
def chainOfTurn (sec : ℕ → Sec) : ℕ → Key
  | 0 => sk
  | c + 1 => P.chainStep (rootAt P sk sec c) (P.diffieHellman (sec (c + 1)) (P.publicKey (sec c)))

/-- The key of message number `n` of turn `c`. -/
def keyAt (d : Dialogue Sec) (c n : ℕ) : Key := P.msgKey (P.chainAt (chainOfTurn P sk d.sec c) n)

/-- The header of message number `n` of turn `c`. -/
def header (d : Dialogue Sec) (c n : ℕ) : Header Grp where
  dhPublic := P.publicKey (d.sec c)
  prevChainLen := UInt32.ofNat (d.len (c - 2))
  msgNum := UInt32.ofNat n

/-- **The ratchet of the party whose latest turn is `c`**, up to its stored keys. -/
def state (d : Dialogue Sec) (c : ℕ) (table : HashMap (Grp × UInt32) Key) :
    RatchetState Sec Grp Key where
  dhSelfSecret := d.sec c
  dhSelfPublic := P.publicKey (d.sec c)
  dhRemote :=
    match c with
    | 0 => none
    | c + 1 => some (P.publicKey (d.sec c))
  rootKey := rootAt P sk d.sec c
  chainKeySend :=
    match c with
    | 0 => none
    | c + 1 => some (P.chainAt (chainOfTurn P sk d.sec (c + 1)) (d.len (c + 1)))
  msgNumSend := UInt32.ofNat (d.len c)
  chainKeyRecv :=
    match c with
    | c + 2 => some (P.chainAt (chainOfTurn P sk d.sec (c + 1)) (d.mark (c + 1)))
    | _ => none
  msgNumRecv := UInt32.ofNat (d.mark (c - 1))
  prevChainLen := UInt32.ofNat (d.len (c - 2))
  skippedKeys := table

variable {P sk}

theorem rootAt_congr {sec sec' : ℕ → Sec} :
    ∀ {c : ℕ}, (∀ i ≤ c, sec' i = sec i) → rootAt P sk sec' c = rootAt P sk sec c := by
  intro c
  induction c with
  | zero => exact fun _ => rfl
  | succ c ih =>
      intro h
      rw [rootAt, rootAt, h (c + 1) le_rfl, h c (Nat.le_succ c), ih fun i hi => h i (by omega)]

theorem chainOfTurn_congr {sec sec' : ℕ → Sec} {c : ℕ} (h : ∀ i ≤ c, sec' i = sec i) :
    chainOfTurn P sk sec' c = chainOfTurn P sk sec c := by
  cases c with
  | zero => rfl
  | succ c =>
      rw [chainOfTurn, chainOfTurn, h (c + 1) le_rfl, h c (Nat.le_succ c),
        rootAt_congr fun i hi => h i (by omega)]

theorem keyAt_congr {d d' : Dialogue Sec} {c : ℕ} (h : ∀ i ≤ c, d'.sec i = d.sec i) (n : ℕ) :
    d'.keyAt P sk c n = d.keyAt P sk c n := by
  rw [keyAt, keyAt, chainOfTurn_congr h]

theorem header_msgNum (d : Dialogue Sec) (c : ℕ) {n : ℕ} (hn : n < 2 ^ 32) :
    (d.header P c n).msgNum.toNat = n := UInt32.toNat_ofNat_of_lt' hn

/-- The messages of a turn that has begun remain as they are. -/
theorem Continues.header_eq {d' : Dialogue Sec} (h : d.Continues d') {p : Party} {c : ℕ}
    (hc : c ≤ d.turn p) (n : ℕ) : d'.header P c n = d.header P c n := by
  rw [header, header, h.sec p c hc, h.prev p c hc]

theorem Continues.keyAt_eq {d' : Dialogue Sec} (h : d.Continues d') {p : Party} {c : ℕ}
    (hc : c ≤ d.turn p) (n : ℕ) : d'.keyAt P sk c n = d.keyAt P sk c n :=
  keyAt_congr (fun i hi => h.sec p i (hi.trans hc)) n

/-- A state depends on the turns up to its own. -/
theorem state_congr {d d' : Dialogue Sec} {c : ℕ} (hsec : ∀ i ≤ c, d'.sec i = d.sec i)
    (hlen : d'.len c = d.len c) (hprev : d'.len (c - 2) = d.len (c - 2))
    (hmark : d'.mark (c - 1) = d.mark (c - 1)) (table : HashMap (Grp × UInt32) Key) :
    d'.state P sk c table = d.state P sk c table := by
  rcases c with - | - | c
  · simp only [state, hsec 0 le_rfl, hlen, hmark, rootAt]
  · have h₀ : d'.sec 0 = d.sec 0 := hsec 0 (by omega)
    have h₁ : d'.sec 1 = d.sec 1 := hsec 1 le_rfl
    simp only [state, h₀, h₁, hlen, hprev, hmark, rootAt_congr hsec, chainOfTurn_congr hsec]
  · have h₁ : d'.sec (c + 1) = d.sec (c + 1) := hsec _ (by omega)
    have h₂ : d'.sec (c + 2) = d.sec (c + 2) := hsec _ le_rfl
    have hmark' : d'.mark (c + 1) = d.mark (c + 1) := hmark
    simp only [state, h₁, h₂, hlen, hprev, hmark, hmark', rootAt_congr hsec,
      chainOfTurn_congr hsec, chainOfTurn_congr fun i (hi : i ≤ c + 1) => hsec i (by omega)]

end

/-! ### The steps of the ratchet -/

section

variable {P : Primitives Sec Grp Key Nonce Plain Cipher} {sk : Key}
variable {table : HashMap (Grp × UInt32) Key}

/-- Alice's initial state. -/
theorem aliceStart_eq (spk rng : Sec) :
    P.aliceStart sk (P.publicKey spk) rng = (start spk rng).state P sk 1 ∅ := rfl

/-- Bob's initial state. -/
theorem initBob_eq (spk rng : Sec) :
    RatchetState.initBob sk spk (P.publicKey spk) = (start spk rng).state P sk 0 ∅ := rfl

/-- Sending moves the chain of the latest turn. -/
theorem stepSend_state (d : Dialogue Sec) {p : Party} {c : ℕ} (hc : d.turn p = c + 1) :
    P.stepSend (d.state P sk (c + 1) table)
        (P.chainAt (chainOfTurn P sk d.sec (c + 1)) (d.len (c + 1))) =
      (d.send p).state P sk (c + 1) table := by
  have hlen : (d.send p).len (c + 1) = d.len (c + 1) + 1 := by rw [len_send, if_pos hc.symm]
  have hprev : (d.send p).len (c + 1 - 2) = d.len (c + 1 - 2) := by
    rw [len_send, if_neg (by omega)]
  have hnext : UInt32.ofNat (d.len (c + 1)) + 1 = UInt32.ofNat (d.len (c + 1) + 1) :=
    (UInt32.ofNat_add _ 1).symm
  simp only [Primitives.stepSend, state, hlen, hprev, hnext, ← Primitives.chainAt_succ]
  cases c <;> rfl

variable [DecidableEq Grp]

variable (sk table) in
/-- Skipping makes the keys of the turn that is being read. -/
theorem skipTo_state (d : Dialogue Sec) {c t : ℕ} (hmark : d.mark (c + 1) ≤ t) (ht : t < 2 ^ 32) :
    P.skipTo (d.state P sk (c + 2) table) (UInt32.ofNat t) =
      (d.skip (c + 1) t).state P sk (c + 2) (P.storeKeys (P.publicKey (d.sec (c + 1)))
        (t - d.mark (c + 1)) (P.chainAt (chainOfTurn P sk d.sec (c + 1)) (d.mark (c + 1)))
        (UInt32.ofNat (d.mark (c + 1))) table) := by
  have hcount : (d.state P sk (c + 2) table).skipCount (UInt32.ofNat t) = t - d.mark (c + 1) := by
    simp only [RatchetState.skipCount, state, Nat.add_one_sub_one, UInt32.toNat_ofNat']
    rw [Nat.mod_eq_of_lt ht, Nat.mod_eq_of_lt (by omega)]
  have hmark' : (d.skip (c + 1) t).mark (c + 1) = t := by rw [mark_skip, if_pos rfl]
  have hchain : P.chainAt (P.chainAt (chainOfTurn P sk d.sec (c + 1)) (d.mark (c + 1)))
      (t - d.mark (c + 1)) = P.chainAt (chainOfTurn P sk d.sec (c + 1)) t := by
    rw [P.chainAt_add, Nat.add_sub_cancel' hmark]
  have hnum : UInt32.ofNat (d.mark (c + 1)) + UInt32.ofNat (t - d.mark (c + 1)) =
      UInt32.ofNat t := by
    rw [← UInt32.ofNat_add, Nat.add_sub_cancel' hmark]
  rw [P.skipTo_of_some rfl rfl, hcount]
  simp only [state, Nat.add_one_sub_one, hmark', hchain]
  rw [hnum]
  rfl

omit [DecidableEq Grp] in
/-- The DH ratchet begins the next turn: its first half computes the chain of the turn that the
other party has begun, by the symmetry of the Diffie–Hellman exchange. -/
theorem ratcheted_state (hcomm : P.DhCommutes) (d : Dialogue Sec) {p : Party} {c : ℕ}
    (hc : d.turn p = c) (x : Sec) (hmark : d.mark (c + 1) = 0) (hlen : d.len (c + 2) = 0) :
    P.ratcheted (d.state P sk c table) (P.publicKey (d.sec (c + 1))) x =
      (d.advance p x).state P sk (c + 2) table := by
  subst hc
  have hsec : ∀ i ≤ d.turn p + 1, (d.advance p x).sec i = d.sec i := fun i hi =>
    sec_advance_of_lt x (by omega)
  have hroot : rootAt P sk (d.advance p x).sec (d.turn p) = rootAt P sk d.sec (d.turn p) :=
    rootAt_congr fun i hi => hsec i (by omega)
  have hlen' : (d.advance p x).len (d.turn p + 2) = 0 := hlen
  have hmark' : (d.advance p x).mark (d.turn p + 1) = 0 := hmark
  simp only [Primitives.ratcheted, state, rootAt, chainOfTurn, hroot, hlen', hmark',
    d.sec_advance_self, hsec _ le_rfl, hsec (d.turn p) (Nat.le_succ _), Primitives.chainAt_zero,
    Nat.add_sub_cancel]
  rw [hcomm (d.sec (d.turn p)), show d.turn p + 2 - 1 = d.turn p + 1 from rfl, hmark']
  rfl

omit [DecidableEq Grp] in
variable (sk table) in
/-- Taking the next key moves the chain of the turn that is being read. -/
theorem stepRecv_state (d : Dialogue Sec) (c : ℕ) :
    P.stepRecv (d.state P sk (c + 2) table)
        (P.chainAt (chainOfTurn P sk d.sec (c + 1)) (d.mark (c + 1))) =
      (d.skip (c + 1) (d.mark (c + 1) + 1)).state P sk (c + 2) table := by
  have hmark : (d.skip (c + 1) (d.mark (c + 1) + 1)).mark (c + 1) = d.mark (c + 1) + 1 := by
    rw [mark_skip, if_pos rfl]
  have hnext : UInt32.ofNat (d.mark (c + 1)) + 1 = UInt32.ofNat (d.mark (c + 1) + 1) :=
    (UInt32.ofNat_add _ 1).symm
  simp only [Primitives.stepRecv, state, Nat.add_one_sub_one, hmark, hnext,
    ← Primitives.chainAt_succ]
  rfl

/-! ### The stored keys -/

variable (P sk) in
/-- **The stored keys are those of the missing messages**: the ones of the other party whose keys
have been made and that have not arrived. -/
def Stored (d : Dialogue Sec) (p : Party) (received : List (Header Grp))
    (table : HashMap (Grp × UInt32) Key) : Prop :=
  ∀ e n k, table.lookup (e, n) = some k ↔
    ∃ c, c % 2 = p.other.turnParity ∧ e = P.publicKey (d.sec c) ∧ n.toNat < d.mark c ∧
      d.header P c n.toNat ∉ received ∧ k = d.keyAt P sk c n.toNat

variable (P) in
/-- The ratchet keys of the turns are pairwise different. -/
def Distinct (d : Dialogue Sec) : Prop :=
  ∀ p q i j, i ≤ d.turn p → j ≤ d.turn q → P.publicKey (d.sec i) = P.publicKey (d.sec j) → i = j

/-- Only turns that have begun to be read have marks. -/
theorem Sound.lt_of_mark (h : d.Sound) {p : Party} {c n : ℕ} (hc : c % 2 = p.other.turnParity)
    (hn : n < d.mark c) : c < d.turn p := by
  by_contra hle
  rw [h.unread p c hc (not_lt.1 hle)] at hn
  omega

/-- The stored keys depend on the turns that have been read. -/
theorem Stored.congr {d' : Dialogue Sec} {p : Party} {received : List (Header Grp)}
    (hsound : d.Sound) (hsec : ∀ i < d.turn p, d'.sec i = d.sec i)
    (hlen : ∀ c < d.turn p, d'.len (c - 2) = d.len (c - 2))
    (hmark : ∀ c, c % 2 = p.other.turnParity → d'.mark c = d.mark c)
    (h : d.Stored P sk p received table) : d'.Stored P sk p received table := by
  intro e n k
  rw [h e n k]
  refine exists_congr fun c => and_congr_right fun hc => ?_
  rw [hmark c hc]
  by_cases hn : n.toNat < d.mark c
  · have hlt := hsound.lt_of_mark hc hn
    rw [header, header, hsec c hlt, hlen c hlt, keyAt_congr fun i hi => hsec i (by omega)]
  · simp [hn]

omit [DecidableEq Grp] in
/-- Two headers of turns that have begun are those of one message. -/
theorem Distinct.header_inj (h : d.Distinct P) {p q : Party} {c c' n n' : ℕ}
    (hc : c ≤ d.turn p) (hc' : c' ≤ d.turn q) (hn : n < 2 ^ 32) (hn' : n' < 2 ^ 32)
    (heq : d.header P c n = d.header P c' n') : c = c' ∧ n = n' := by
  obtain ⟨hdh, -, hnum⟩ := Header.mk.inj heq
  have hnum' := congrArg UInt32.toNat hnum
  rw [UInt32.toNat_ofNat_of_lt' hn, UInt32.toNat_ofNat_of_lt' hn'] at hnum'
  exact ⟨h p q c c' hc hc' hdh, hnum'⟩

/-- Skipping stores the keys up to the new mark. -/
theorem Stored.skip (hsound : d.Sound) (hdist : d.Distinct P) {p : Party}
    {received : List (Header Grp)} {c t : ℕ} (hc : c + 1 = d.turn p) (hmark : d.mark c ≤ t)
    (ht : t < 2 ^ 32) (hnew : ∀ n, d.mark c ≤ n → n < t → d.header P c n ∉ received)
    (h : d.Stored P sk p received table) :
    (d.skip c t).Stored P sk p received (P.storeKeys (P.publicKey (d.sec c)) (t - d.mark c)
      (P.chainAt (chainOfTurn P sk d.sec c) (d.mark c)) (UInt32.ofNat (d.mark c)) table) := by
  have hstart : (UInt32.ofNat (d.mark c)).toNat = d.mark c :=
    UInt32.toNat_ofNat_of_lt' (hmark.trans_lt ht)
  have hpar := hsound.parity_pred hc
  intro e n k
  rw [P.lookup_storeKeys _ _ _ _ _ (by omega), hstart, P.chainAt_add]
  have hmark' : (d.skip c t).mark c = t := by rw [mark_skip, if_pos rfl]
  by_cases hin : e = P.publicKey (d.sec c) ∧ d.mark c ≤ n.toNat ∧ n.toNat < t
  · obtain ⟨he, hle, hlt⟩ := hin
    rw [if_pos ⟨he, hle, by omega⟩, Nat.add_sub_cancel' hle, Option.some_inj]
    constructor
    · rintro rfl
      exact ⟨c, hpar, he, hmark'.symm ▸ hlt, hnew _ hle hlt, rfl⟩
    · rintro ⟨c', hc', he', hn, -, rfl⟩
      -- the entry is one of the turn that has been skipped in
      obtain rfl : c' = c := by
        by_contra hne
        rw [mark_skip, if_neg hne] at hn
        have hlt' := hsound.lt_of_mark hc' hn
        exact hne (hdist p p c' c hlt'.le (by omega) (he'.symm.trans he))
      rfl
  · rw [if_neg fun hcond => hin ⟨hcond.1, hcond.2.1, by omega⟩, h e n k]
    refine exists_congr fun c' => and_congr_right fun _ => and_congr_right fun he => ?_
    by_cases hcc : c' = c
    · subst hcc
      have hiff : n.toNat < d.mark c' ↔ n.toNat < (d.skip c' t).mark c' := by
        rw [hmark']
        constructor
        · omega
        · intro hlt
          by_contra hle
          exact hin ⟨he, by omega, hlt⟩
      rw [hiff]
      rfl
    · rw [mark_skip, if_neg hcc]
      rfl

/-- Taking the next key leaves nothing to store. -/
theorem Stored.recv (hsound : d.Sound) (hdist : d.Distinct P) {p : Party}
    {received : List (Header Grp)} {c : ℕ} (hc : c + 1 = d.turn p) (hmark : d.mark c < 2 ^ 32)
    (h : d.Stored P sk p received table) :
    (d.skip c (d.mark c + 1)).Stored P sk p (received ++ [d.header P c (d.mark c)]) table := by
  intro e n k
  rw [h e n k]
  refine exists_congr fun c' => and_congr_right fun hc' => and_congr_right fun _ => ?_
  rw [mark_skip]
  by_cases hcc : c' = c
  · subst hcc
    rw [if_pos rfl]
    constructor
    · rintro ⟨hn, hnot, hk⟩
      refine ⟨by omega, ?_, hk⟩
      intro hmem
      rcases List.mem_append.1 hmem with hmem | hmem
      · exact hnot hmem
      · have heq := (hdist.header_inj (p := p) (q := p) (by omega) (by omega) n.toNat_lt hmark
          (List.mem_singleton.1 hmem)).2
        omega
    · rintro ⟨hn, hnot, hk⟩
      have hne : n.toNat ≠ d.mark c' := by
        intro heq
        refine hnot (List.mem_append_right _ (List.mem_singleton.2 ?_))
        rw [heq]
        rfl
      exact ⟨by omega, fun hmem => hnot (List.mem_append_left _ hmem), hk⟩
  · rw [if_neg hcc]
    refine and_congr_right fun hn => and_congr_left fun _ => not_congr ?_
    refine ⟨fun hmem => List.mem_append_left _ hmem, fun hmem => ?_⟩
    rcases List.mem_append.1 hmem with hmem | hmem
    · exact hmem
    · have hlt := hsound.lt_of_mark hc' hn
      exact absurd (hdist.header_inj (p := p) (q := p) hlt.le (by omega) n.toNat_lt hmark
        (List.mem_singleton.1 hmem)).1 hcc

/-- Taking a stored key removes it. -/
theorem Stored.forget (hsound : d.Sound) (hdist : d.Distinct P) {p : Party}
    {received : List (Header Grp)} {c n : ℕ} (hc : c % 2 = p.other.turnParity)
    (hn : n < d.mark c) (hlt : n < 2 ^ 32) (h : d.Stored P sk p received table) :
    d.Stored P sk p (received ++ [d.header P c n])
      (table.erase (P.publicKey (d.sec c), UInt32.ofNat n)) := by
  have hturn := hsound.lt_of_mark hc hn
  intro e m k
  rw [lookup_erase_ite, Option.ite_none_left_eq_some, h e m k]
  constructor
  · rintro ⟨hne, c', hc', he, hm, hnot, hk⟩
    refine ⟨c', hc', he, hm, ?_, hk⟩
    intro hmem
    rcases List.mem_append.1 hmem with hmem | hmem
    · exact hnot hmem
    · obtain ⟨hdh, -, hnum⟩ := Header.mk.inj (List.mem_singleton.1 hmem)
      rw [UInt32.ofNat_toNat] at hnum
      exact hne (by rw [he, hdh, hnum])
  · rintro ⟨c', hc', he, hm, hnot, hk⟩
    refine ⟨?_, c', hc', he, hm, fun hmem => hnot (List.mem_append_left _ hmem), hk⟩
    rintro ⟨⟩
    have hturn' := hsound.lt_of_mark hc' hm
    obtain rfl : c = c' := hdist p p c c' hturn.le hturn'.le he
    refine hnot (List.mem_append_right _ (List.mem_singleton.2 ?_))
    rw [UInt32.toNat_ofNat_of_lt' hlt]

/-! ### The ratchet of a dialogue -/

variable (P sk) in
/-- **The ratchet of party `p` is that of the dialogue.** -/
def Matches (d : Dialogue Sec) (p : Party) (received : List (Header Grp))
    (s : RatchetState Sec Grp Key) : Prop :=
  ∃ table, s = d.state P sk (d.turn p) table ∧ d.Stored P sk p received table

/-- What the other party does changes nothing. -/
theorem Matches.congr {d' : Dialogue Sec} {p : Party} {received : List (Header Grp)}
    {s : RatchetState Sec Grp Key} (hsound : d.Sound) (hturn : d'.turn p = d.turn p)
    (hsec : ∀ i ≤ d.turn p, d'.sec i = d.sec i) (hlen : d'.len (d.turn p) = d.len (d.turn p))
    (hprev : ∀ c ≤ d.turn p, d'.len (c - 2) = d.len (c - 2))
    (hmark : ∀ c, c % 2 = p.other.turnParity → d'.mark c = d.mark c)
    (hstart : d'.mark 0 = d.mark 0) (h : d.Matches P sk p received s) :
    d'.Matches P sk p received s := by
  obtain ⟨table, rfl, hstored⟩ := h
  refine ⟨table, ?_, hstored.congr hsound (fun i hi => hsec i hi.le) (fun c hc => hprev c hc.le)
    hmark⟩
  rw [hturn]
  refine (state_congr hsec hlen (hprev _ le_rfl) ?_ table).symm
  rcases Nat.eq_zero_or_pos (d.turn p) with hzero | hpos
  · rw [hzero]
    exact hstart
  · refine hmark _ ((p.turnParity_succ _).1 ?_)
    rw [Nat.sub_add_cancel hpos]
    exact hsound.parity p

/-- Sending. -/
theorem matches_stepSend {p : Party} {received : List (Header Grp)}
    {s : RatchetState Sec Grp Key} (hsound : d.Sound) (h : d.Matches P sk p received s) {ck : Key}
    (hck : s.chainKeySend = some ck) :
    0 < d.turn p ∧ P.msgKey ck = d.keyAt P sk (d.turn p) (d.len (d.turn p)) ∧
      s.nextHeader = d.header P (d.turn p) (d.len (d.turn p)) ∧
      (d.send p).Matches P sk p received (P.stepSend s ck) := by
  obtain ⟨table, rfl, hstored⟩ := h
  cases hturn : d.turn p with
  | zero =>
      rw [hturn] at hck
      exact absurd hck (by simp [state])
  | succ c =>
      rw [hturn] at hck
      obtain rfl := Option.some_inj.1 hck
      refine ⟨Nat.succ_pos c, rfl, rfl, table, ?_, ?_⟩
      · rw [stepSend_state d hturn]
        exact congrArg (fun c => (d.send p).state P sk c table) hturn.symm
      · refine hstored.congr hsound (fun _ _ => rfl) (fun c' hc' => ?_) fun _ _ => rfl
        rw [len_send, if_neg (by omega)]

/-- Taking a stored key. -/
theorem takeKey_stored {p : Party} {received : List (Header Grp)} {s : RatchetState Sec Grp Key}
    (hsound : d.Sound) (hdist : d.Distinct P) (h : d.Matches P sk p received s) {c n : ℕ}
    (hc : c % 2 = p.other.turnParity) (hn : n < d.mark c) (hlt : n < 2 ^ 32)
    (hnot : d.header P c n ∉ received) (rng : Sec) :
    (P.takeKey s (d.header P c n) rng).1 = .ok (d.keyAt P sk c n) ∧
      d.Matches P sk p (received ++ [d.header P c n]) (P.takeKey s (d.header P c n) rng).2 := by
  obtain ⟨table, rfl, hstored⟩ := h
  have hnum : (UInt32.ofNat n).toNat = n := UInt32.toNat_ofNat_of_lt' hlt
  have hlook : table.lookup (P.publicKey (d.sec c), UInt32.ofNat n) = some (d.keyAt P sk c n) :=
    (hstored _ _ _).2 ⟨c, hc, rfl, hnum.symm ▸ hn, hnum.symm ▸ hnot, by rw [hnum]⟩
  rw [P.takeKey_of_stored hlook]
  exact ⟨rfl, _, rfl, hstored.forget hsound hdist hc hn hlt⟩

omit [DecidableEq Grp] in
/-- A jump of at most 256 is within the limit, away from the end of the counter's range. -/
theorem not_tooFar_state {c t : ℕ} (hmark : d.mark (c + 1) < 2 ^ 32 - 256)
    (hgap : t ≤ d.mark (c + 1) + 256) :
    ¬ (d.state P sk (c + 2) table).TooFar (UInt32.ofNat t) := by
  rintro ⟨-, hfar⟩
  have hmax : MAX_SKIP.toNat = 256 := rfl
  rw [UInt32.lt_iff_toNat_lt, UInt32.toNat_add, hmax] at hfar
  simp only [state, Nat.add_one_sub_one, UInt32.toNat_ofNat'] at hfar
  omega

/-- Taking a key of the turn that is being read, at most 256 numbers ahead. -/
theorem takeOnChain_state {p : Party} {received : List (Header Grp)} (hsound : d.Sound)
    (hdist : d.Distinct P) {c n : ℕ} (hc : d.turn p = c + 2) (hlen : d.len (c + 1) < 2 ^ 32 - 256)
    (hmark : d.mark (c + 1) ≤ n) (hn : n < d.len (c + 1)) (hgap : n ≤ d.mark (c + 1) + 256)
    (hnew : ∀ m, d.mark (c + 1) ≤ m → m < n → d.header P (c + 1) m ∉ received)
    (hstored : d.Stored P sk p received table) :
    (P.takeOnChain (d.state P sk (c + 2) table) (UInt32.ofNat n)).1 =
        .ok (d.keyAt P sk (c + 1) n) ∧
      (d.skip (c + 1) (n + 1)).Matches P sk p (received ++ [d.header P (c + 1) n])
        (P.takeOnChain (d.state P sk (c + 2) table) (UInt32.ofNat n)).2 := by
  have hnear : ¬ (d.state P sk (c + 2) table).TooFar (UInt32.ofNat n) :=
    not_tooFar_state (by omega) hgap
  have hskip := skipTo_state (P := P) sk table d hmark (by omega : n < 2 ^ 32)
  have hmark' : (d.skip (c + 1) n).mark (c + 1) = n := by rw [mark_skip, if_pos rfl]
  have hsound' : (d.skip (c + 1) n).Sound := hsound.skip hc.symm hn.le
  have hstored' := hstored.skip hsound hdist hc.symm hmark (by omega) hnew
  have hidem : (d.skip (c + 1) n).skip (c + 1) (n + 1) = d.skip (c + 1) (n + 1) := by
    simp only [skip, Function.update_idem]
  have hck : (P.skipTo (d.state P sk (c + 2) table) (UInt32.ofNat n)).chainKeyRecv =
      some (P.chainAt (chainOfTurn P sk d.sec (c + 1)) n) := by
    rw [hskip]
    simp only [state, hmark']
    rfl
  have hrecv := hstored'.recv hsound' hdist hc.symm (hmark'.symm ▸ by omega)
  rw [hmark', hidem] at hrecv
  have hstate := stepRecv_state (P := P) sk (P.storeKeys (P.publicKey (d.sec (c + 1)))
    (n - d.mark (c + 1)) (P.chainAt (chainOfTurn P sk d.sec (c + 1)) (d.mark (c + 1)))
    (UInt32.ofNat (d.mark (c + 1))) table) (d.skip (c + 1) n) c
  rw [hmark', hidem] at hstate
  rw [Primitives.takeOnChain, if_neg hnear]
  simp only [hck]
  refine ⟨rfl, _, ?_, hrecv⟩
  rw [hskip]
  exact hstate.trans (congrArg (fun i => state P sk (d.skip (c + 1) (n + 1)) i _) hc.symm)

/-- No key is stored from the mark on. -/
theorem Stored.lookup_eq_none {p q : Party} {received : List (Header Grp)} (hsound : d.Sound)
    (hdist : d.Distinct P) (h : d.Stored P sk p received table) {c n : ℕ} (hc : c ≤ d.turn q)
    (hlt : n < 2 ^ 32) (hn : d.mark c ≤ n) :
    table.lookup (P.publicKey (d.sec c), UInt32.ofNat n) = none := by
  cases hlook : table.lookup (P.publicKey (d.sec c), UInt32.ofNat n) with
  | none => rfl
  | some k =>
      obtain ⟨c', hc', he, hm, -⟩ := (h _ _ _).1 hlook
      rw [UInt32.toNat_ofNat_of_lt' hlt] at hm
      have hturn := hsound.lt_of_mark hc' hm
      obtain rfl := hdist q p c c' hc hturn.le he
      omega

/-- Taking a key of the turn that is being read. -/
theorem takeKey_current {p : Party} {received : List (Header Grp)} {s : RatchetState Sec Grp Key}
    (hsound : d.Sound) (hdist : d.Distinct P) (h : d.Matches P sk p received s) {c n : ℕ}
    (hc : d.turn p = c + 2) (hlen : d.len (c + 1) < 2 ^ 32 - 256) (hmark : d.mark (c + 1) ≤ n)
    (hn : n < d.len (c + 1)) (hgap : n ≤ d.mark (c + 1) + 256)
    (hnew : ∀ m, d.mark (c + 1) ≤ m → m < n → d.header P (c + 1) m ∉ received) (rng : Sec) :
    (P.takeKey s (d.header P (c + 1) n) rng).1 = .ok (d.keyAt P sk (c + 1) n) ∧
      (d.skip (c + 1) (n + 1)).Matches P sk p (received ++ [d.header P (c + 1) n])
        (P.takeKey s (d.header P (c + 1) n) rng).2 := by
  obtain ⟨table, rfl, hstored⟩ := h
  rw [hc]
  have hlook := hstored.lookup_eq_none (q := p) hsound hdist (by omega : c + 1 ≤ d.turn p)
    (by omega) hmark
  have htake := P.takeKey_of_current (s := d.state P sk (c + 2) table)
    (h := d.header P (c + 1) n) hlook rfl rng
  rw [htake]
  exact takeOnChain_state hsound hdist hc hlen hmark hn hgap hnew hstored

/-- Making the remaining keys of the turn that is being read, if they are at most 256. -/
theorem skipTo_finish {p : Party} {received : List (Header Grp)} {s : RatchetState Sec Grp Key}
    (hsound : d.Sound) (hdist : d.Distinct P) (h : d.Matches P sk p received s)
    (hlen : ∀ c, d.len c < 2 ^ 32 - 256)
    (hgap : ∀ c, c + 1 = d.turn p → d.len c ≤ d.mark c + 256)
    (hnew : ∀ c m, c + 1 = d.turn p → d.mark c ≤ m → m < d.len c → d.header P c m ∉ received) :
    ¬ s.TooFar (UInt32.ofNat (d.len (d.turn p - 1))) ∧
      (d.finish p).Matches P sk p received
        (P.skipTo s (UInt32.ofNat (d.len (d.turn p - 1)))) := by
  obtain ⟨table, rfl, hstored⟩ := h
  rcases Nat.lt_or_ge 1 (d.turn p) with hlt | hle
  · obtain ⟨c, hc⟩ := Nat.exists_eq_add_of_le' hlt
    have hsize := hlen (c + 1)
    have hnear := hgap (c + 1) hc.symm
    have hmark := hsound.mark_le (c + 1)
    rw [finish_of_turn hc, hc, show c + 2 - 1 = c + 1 from rfl]
    constructor
    · exact not_tooFar_state (by omega) hnear
    · rw [skipTo_state sk table d hmark (by omega)]
      refine ⟨_, congrArg (fun i => state P sk (d.skip (c + 1) (d.len (c + 1))) i _) hc.symm, ?_⟩
      exact hstored.skip hsound hdist hc.symm hmark (by omega) fun m => hnew (c + 1) m hc.symm
  · -- nothing is being read yet
    have hnone : (d.state P sk (d.turn p) table).chainKeyRecv = none := by
      rcases Nat.le_one_iff_eq_zero_or_eq_one.1 hle with hc | hc <;> rw [hc] <;> rfl
    rw [finish_of_le hle, P.skipTo_of_chain_none hnone]
    refine ⟨fun hfar => ?_, table, rfl, hstored⟩
    rw [RatchetState.TooFar, hnone] at hfar
    exact absurd hfar.1 (by simp)

omit [DecidableEq Grp] in
/-- Answering with a new key keeps the keys different. -/
theorem Distinct.reply (h : d.Distinct P) (hsound : d.Sound) {p : Party} {x : Sec} {n : ℕ}
    (hother : d.turn p.other = d.turn p + 1)
    (hfresh : ∀ q i, i ≤ d.turn q → P.publicKey (d.sec i) ≠ P.publicKey x) :
    (d.reply p x n).Distinct P := by
  have hnew := d.reply_sec_self p x n
  have hold : ∀ i, i ≤ d.turn p.other → (d.reply p x n).sec i = d.sec i :=
    fun i hi => (continues_reply hsound p x n).sec p.other i hi
  intro q r i j hi hj heq
  rcases le_reply_turn hother hi with rfl | hi <;> rcases le_reply_turn hother hj with rfl | hj
  · rfl
  · rw [hnew, hold j hj] at heq
    exact absurd heq.symm (hfresh _ _ hj)
  · rw [hnew, hold i hi] at heq
    exact absurd heq (hfresh _ _ hi)
  · rw [hold i hi, hold j hj] at heq
    exact h _ _ i j hi hj heq

/-- The first message of a new turn makes its receiver draw a key. -/
theorem draws_next {p : Party} {received : List (Header Grp)} {s : RatchetState Sec Grp Key}
    (hsound : d.Sound) (hdist : d.Distinct P) (h : d.Matches P sk p received s)
    (hother : d.turn p.other = d.turn p + 1) {n : ℕ} (hn : n < 2 ^ 32)
    (hnear : ¬ s.TooFar (UInt32.ofNat (d.len (d.turn p - 1)))) :
    s.Draws (d.header P (d.turn p + 1) n) := by
  obtain ⟨table, rfl, hstored⟩ := h
  have hprev : d.turn p + 1 - 2 = d.turn p - 1 := by omega
  refine ⟨hstored.lookup_eq_none (q := p.other) hsound hdist hother.ge hn ?_, ?_, ?_⟩
  · rw [hsound.unread p _ (hsound.parity_succ p) (Nat.le_succ _)]
    exact Nat.zero_le n
  · cases hc : d.turn p with
    | zero => simp [state]
    | succ c =>
        intro heq
        have hsame := hdist p p.other c (c + 2) (by omega) (by omega) (Option.some_inj.1 heq)
        omega
  · rw [header, hprev]
    exact hnear

/-- Taking a key of the turn that the DH ratchet has begun to read. -/
theorem takeOnChain_ratcheted (hcomm : P.DhCommutes) {p : Party} {received : List (Header Grp)}
    {x : Sec} (hsound : d.Sound) (hread : ∀ c, c + 1 = d.turn p → d.mark c = d.len c)
    (hdist : (d.advance p x).Distinct P) (hother : d.turn p.other = d.turn p + 1) {n : ℕ}
    (hlen : d.len (d.turn p + 1) < 2 ^ 32 - 256) (hn : n < d.len (d.turn p + 1)) (hlimit : n ≤ 256)
    (hfirst : ∀ m, d.header P (d.turn p + 1) m ∉ received)
    (hstored : d.Stored P sk p received table) :
    (P.takeOnChain (P.ratcheted (d.state P sk (d.turn p) table)
        (P.publicKey (d.sec (d.turn p + 1))) x) (UInt32.ofNat n)).1 =
        .ok (d.keyAt P sk (d.turn p + 1) n) ∧
      ((d.advance p x).skip (d.turn p + 1) (n + 1)).Matches P sk p
        (received ++ [d.header P (d.turn p + 1) n])
        (P.takeOnChain (P.ratcheted (d.state P sk (d.turn p) table)
          (P.publicKey (d.sec (d.turn p + 1))) x) (UInt32.ofNat n)).2 := by
  have hmark : d.mark (d.turn p + 1) = 0 := hsound.unread p _ (hsound.parity_succ p) (Nat.le_succ _)
  have hmark' : (d.advance p x).mark (d.turn p + 1) = 0 := hmark
  have hempty : d.len (d.turn p + 2) = 0 :=
    hsound.future p _ (hsound.parity_next p) (by omega)
  have hsec : ∀ i ≤ d.turn p + 1, (d.advance p x).sec i = d.sec i := fun i hi =>
    sec_advance_of_lt x (by omega)
  have hheader : ∀ m, (d.advance p x).header P (d.turn p + 1) m =
      d.header P (d.turn p + 1) m := fun m => by
    rw [header, header, hsec _ le_rfl]
    rfl
  have hstored' : (d.advance p x).Stored P sk p received table :=
    hstored.congr hsound (fun i hi => hsec i (by omega)) (fun _ _ => rfl) fun _ _ => rfl
  have htake := takeOnChain_state (c := d.turn p) (n := n) (hsound.advance x hother hread) hdist
    (turn_advance_self d p x) hlen (hmark'.symm ▸ Nat.zero_le n) hn (by omega)
    (fun m _ _ => hheader m ▸ hfirst m) hstored'
  rw [ratcheted_state hcomm d rfl x hmark hempty, ← hheader, ← keyAt_congr hsec]
  exact htake

/-- Taking a key of a new turn, with the key `x` drawn for the answer. -/
theorem takeKey_next (hcomm : P.DhCommutes) {p : Party} {received : List (Header Grp)}
    {s : RatchetState Sec Grp Key} {x : Sec} (hsound : d.Sound) (hdist : d.Distinct P)
    (h : d.Matches P sk p received s) (hother : d.turn p.other = d.turn p + 1) {n : ℕ}
    (hlen : ∀ c, d.len c < 2 ^ 32 - 256) (hn : n < d.len (d.turn p + 1)) (hlimit : n ≤ 256)
    (hgap : ∀ c, c + 1 = d.turn p → d.len c ≤ d.mark c + 256)
    (hnew : ∀ c m, c + 1 = d.turn p → d.mark c ≤ m → m < d.len c → d.header P c m ∉ received)
    (hfirst : ∀ m, d.header P (d.turn p + 1) m ∉ received)
    (hfresh : ∀ q i, i ≤ d.turn q → P.publicKey (d.sec i) ≠ P.publicKey x) :
    (P.takeKey s (d.header P (d.turn p + 1) n) x).1 = .ok (d.keyAt P sk (d.turn p + 1) n) ∧
      (d.reply p x n).Matches P sk p (received ++ [d.header P (d.turn p + 1) n])
        (P.takeKey s (d.header P (d.turn p + 1) n) x).2 := by
  -- first the receiver skips to the end of the turn it was reading
  obtain ⟨hnear, table, hskip, hstored⟩ := skipTo_finish hsound hdist h hlen hgap hnew
  have hdraws := draws_next (n := n) hsound hdist h hother (by omega) hnear
  have hprev : (d.header P (d.turn p + 1) n).prevChainLen = UInt32.ofNat (d.len (d.turn p - 1)) :=
    congrArg (fun i => UInt32.ofNat (d.len i)) (by omega)
  obtain ⟨hsec, hlen', hturn, -⟩ := d.finish_fields p
  obtain ⟨hsound', hread⟩ := hsound.finish p
  have hheader : ∀ m, (d.finish p).header P (d.turn p + 1) m = d.header P (d.turn p + 1) m :=
    fun m => by rw [header, header, hsec, hlen']
  have hkey : (d.finish p).keyAt P sk (d.turn p + 1) n = d.keyAt P sk (d.turn p + 1) n :=
    keyAt_congr (fun i _ => congrFun hsec i) n
  have hdist' : ((d.finish p).advance p x).Distinct P := hdist.reply (n := n) hsound hother hfresh
  have hread' : ∀ c, c + 1 = (d.finish p).turn p → (d.finish p).mark c = (d.finish p).len c := by
    intro c hc
    rw [hlen', hread c (hturn ▸ hc)]
  -- then it begins its own turn, and takes the key
  have htake := takeOnChain_ratcheted (n := n) hcomm hsound' hread' hdist'
    (by rw [hturn, hother]) (by rw [hlen', hturn]; exact hlen _) (by rw [hlen', hturn]; exact hn)
    hlimit (fun m => by rw [hturn, hheader]; exact hfirst m) hstored
  rw [hturn, hsec, hheader, hkey] at htake
  rw [P.takeKey_of_draws hdraws, hprev, hskip, hturn]
  exact htake

end

end Dialogue

end Sanctum
