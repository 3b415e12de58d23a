/-
The stored keys of an honest run.

A receiver stores keys at three places: up to the end of the chain that it has been reading, when a new
one begins, and up to the message that it is to read; and it takes a key out when the message comes.
What is stored at any time is what the log says is missing: the messages below the watermark of each
chain that have not been decrypted.  The watermark of the current chain is the number of the next message;
that of an earlier one is what the first message of the next chain has announced.

Main definitions:

* `Sanctum.chainHeads`, `Sanctum.announcedEnd` — the first message of each chain that has arrived, and
  what it announces about the chain before;
* `Sanctum.Net.watermark` — the watermark of a chain;
* `Sanctum.Net.MissingStored` — **the stored keys are those of the missing messages**.

Main results:

* `Sanctum.Net.InStep.watermark_eq` — the watermarks are the marks of the dialogue;
* `Sanctum.Net.recorded_of_run` — the log of an honest run records the dialogue;
* `Sanctum.Net.InStep.lookup_eq_some_iff` — what is stored;
* `Sanctum.Net.missing_stored` — **the stored keys are those of the missing messages** throughout.
-/

import Sanctum.Delivery

set_option relaxedAutoImplicit false
set_option autoImplicit false

namespace Sanctum

/-! ### The chains that have arrived -/

section

variable {Grp : Type} [DecidableEq Grp] {received heads : List (Header Grp)} {h : Header Grp} {e : Grp}

/-- A message that arrives begins a chain unless one of its chain has arrived. -/
def newChain (heads : List (Header Grp)) (h : Header Grp) : List (Header Grp) :=
  if h.dhPublic ∈ heads.map Header.dhPublic then heads else heads ++ [h]

/-- **The first message of each chain**, in the order in which they arrived. -/
def chainHeads (received : List (Header Grp)) : List (Header Grp) := received.foldl newChain []

/-- The length of a chain that the first message of the next one announces. -/
def announcedEnd (e : Grp) : List (Header Grp) → ℕ
  | h :: h' :: heads => if h.dhPublic = e then h'.prevChainLen.toNat else announcedEnd e (h' :: heads)
  | _ => 0

theorem chainHeads_append (received : List (Header Grp)) (h : Header Grp) :
    chainHeads (received ++ [h]) = newChain (chainHeads received) h := by
  rw [chainHeads, List.foldl_append]
  rfl

theorem mem_of_mem_chainHeads (hmem : h ∈ chainHeads received) : h ∈ received := by
  induction received using List.reverseRecOn with
  | nil => exact hmem
  | append_singleton received h' ih =>
      rw [chainHeads_append, newChain] at hmem
      split at hmem
      · exact List.mem_append_left _ (ih hmem)
      · rcases List.mem_append.1 hmem with hmem | hmem
        · exact List.mem_append_left _ (ih hmem)
        · exact List.mem_append_right _ hmem

theorem mem_map_newChain : e ∈ (newChain heads h).map Header.dhPublic ↔
    e ∈ heads.map Header.dhPublic ∨ e = h.dhPublic := by
  rw [newChain]
  split_ifs with hseen
  · exact (or_iff_left_of_imp fun he => he ▸ hseen).symm
  · rw [List.map_append, List.mem_append, List.map_singleton, List.mem_singleton]

/-- The chains of the heads are those of which something has arrived. -/
theorem mem_map_chainHeads :
    e ∈ (chainHeads received).map Header.dhPublic ↔ e ∈ received.map Header.dhPublic := by
  induction received using List.reverseRecOn with
  | nil => exact Iff.rfl
  | append_singleton received h ih =>
      rw [chainHeads_append, mem_map_newChain, ih, List.map_append, List.mem_append, List.map_singleton,
        List.mem_singleton]

theorem chainHeads_append_of_mem (hmem : h.dhPublic ∈ received.map Header.dhPublic) :
    chainHeads (received ++ [h]) = chainHeads received := by
  rw [chainHeads_append, newChain, if_pos (mem_map_chainHeads.2 hmem)]

theorem chainHeads_append_of_notMem (hmem : h.dhPublic ∉ received.map Header.dhPublic) :
    chainHeads (received ++ [h]) = chainHeads received ++ [h] := by
  rw [chainHeads_append, newChain, if_neg (mem_map_chainHeads.not.2 hmem)]

/-- **What is announced about a chain** is announced by the head after its own. -/
theorem announcedEnd_eq {ι : Type} {f : ι → Grp} {pre post : List ι} {i j : ι}
    (hheads : heads.map Header.dhPublic = (pre ++ i :: j :: post).map f)
    (hnew : ∀ k ∈ pre, f k ≠ f i) :
    ∃ h ∈ heads, h.dhPublic = f j ∧ announcedEnd (f i) heads = h.prevChainLen.toNat := by
  induction pre generalizing heads with
  | nil =>
      obtain ⟨h, heads, rfl, hi, hheads⟩ := List.map_eq_cons_iff.1 hheads
      obtain ⟨h', heads, rfl, hj, -⟩ := List.map_eq_cons_iff.1 hheads
      exact ⟨h', List.mem_cons_of_mem _ List.mem_cons_self, hj, if_pos hi⟩
  | cons k pre ih =>
      obtain ⟨h, heads, rfl, hk, hheads⟩ := List.map_eq_cons_iff.1 hheads
      obtain ⟨h', hmem, hj, hend⟩ := ih hheads fun k' hk' => hnew k' (List.mem_cons_of_mem _ hk')
      refine ⟨h', List.mem_cons_of_mem _ hmem, hj, ?_⟩
      cases heads with
      | nil => cases hmem
      | cons h₂ heads =>
          rw [announcedEnd, if_neg fun he => hnew k List.mem_cons_self (hk.symm.trans he)]
          exact hend

end

namespace Dialogue

/-- The turns of the other party that a party has begun to read before its own turn `t`. -/
def readTurns : ℕ → List ℕ
  | 0 => []
  | 1 => []
  | t + 2 => readTurns t ++ [t + 1]

theorem mem_readTurns {t c : ℕ} : c ∈ readTurns t ↔ 0 < c ∧ c < t ∧ c % 2 ≠ t % 2 := by
  induction t using readTurns.induct with
  | case1 => simp [readTurns]
  | case2 =>
      simp only [readTurns, List.not_mem_nil, false_iff]
      omega
  | case3 t ih =>
      rw [readTurns, List.mem_append, List.mem_singleton, ih]
      omega

/-- Two turns that follow each other. -/
theorem readTurns_split {t c : ℕ} (hc : c ∈ readTurns t) (hlt : c + 1 < t) :
    ∃ pre post, readTurns t = pre ++ c :: (c + 2) :: post ∧ c ∉ pre := by
  induction t using readTurns.induct with
  | case1 => cases hc
  | case2 => cases hc
  | case3 t ih =>
      rw [mem_readTurns] at hc
      by_cases hlast : c + 1 = t
      · subst hlast
        obtain ⟨c, rfl⟩ : ∃ n, c = n + 1 := ⟨c - 1, by omega⟩
        refine ⟨readTurns c, [], by simp [readTurns], fun hmem => ?_⟩
        have := (mem_readTurns.1 hmem).2.1
        omega
      · obtain ⟨pre, post, heq, hpre⟩ := ih (mem_readTurns.2 (by omega)) (by omega)
        exact ⟨pre, post ++ [t + 1], by simp [readTurns, heq], hpre⟩

end Dialogue

namespace Net

variable {Sec Grp Key Nonce Plain Cipher : Type} [DecidableEq Grp]

/-! ### What the log says -/

/-- Party `p` has seen a message of this chain. -/
def SeenChain (w : Net Sec Grp Key Plain Cipher) (p : Party) (e : Grp) : Prop :=
  e ∈ (receivedBy p w.log).map Header.dhPublic

/-- **The watermark of a chain**: the number of the next message of the current one, and the announced
length of an earlier one. -/
def watermark (w : Net Sec Grp Key Plain Cipher) (p : Party) (e : Grp) : ℕ :=
  if (w.peer p).dhRemote = some e then (w.peer p).msgNumRecv.toNat
  else announcedEnd e (chainHeads (receivedBy p w.log))

/-- Party `p` has decrypted message number `n` of this chain. -/
def HasDecrypted (w : Net Sec Grp Key Plain Cipher) (p : Party) (e : Grp) (n : UInt32) : Prop :=
  ∃ k h c m, .decrypted p k h c m ∈ w.log ∧ h.dhPublic = e ∧ h.msgNum = n

/-- Party `p` has used this key, and no other, for message number `n` of this chain. -/
structure SentUnder (w : Net Sec Grp Key Plain Cipher) (p : Party) (e : Grp) (n : UInt32) (k : Key) :
    Prop where
  sent : ∃ h c m, .encrypted p k h c m ∈ w.log ∧ h.dhPublic = e ∧ h.msgNum = n
  only : ∀ k' h c m, .encrypted p k' h c m ∈ w.log → h.dhPublic = e → h.msgNum = n → k' = k

/-- **The stored keys are those of the missing messages.** -/
structure MissingStored (w : Net Sec Grp Key Plain Cipher) (p : Party) : Prop where
  stored_iff : ∀ e, w.SeenChain p e → ∀ n, ((w.peer p).skippedKeys.lookup (e, n)).isSome ↔
    n.toNat < w.watermark p e ∧ ¬ w.HasDecrypted p e n
  key : ∀ e n k, (w.peer p).skippedKeys.lookup (e, n) = some k → w.SentUnder p.other e n k
  seen : ∀ e n k, (w.peer p).skippedKeys.lookup (e, n) = some k → w.SeenChain p e

variable (P : Primitives Sec Grp Key Nonce Plain Cipher)

/-- **The log records the dialogue.** -/
structure Recorded (d : Dialogue Sec) (w : Net Sec Grp Key Plain Cipher) : Prop where
  heads : ∀ p, (chainHeads (receivedBy p w.log)).map Header.dhPublic =
    (Dialogue.readTurns (d.turn p)).map fun c => P.publicKey (d.sec c)
  received : ∀ p h, h ∈ receivedBy p w.log →
    (∃ k c m, .encrypted p.other k h c m ∈ w.log) ∧ ∃ k c m, .decrypted p k h c m ∈ w.log
  sent : ∀ p i n, i % 2 = p.turnParity → i ≤ d.turn p → n < d.len i →
    ∃ k c m, .encrypted p k (d.header P i n) c m ∈ w.log

variable {P} {sk : Key} {d : Dialogue Sec} {w : Net Sec Grp Key Plain Cipher}

theorem recorded_start {spk rng : Sec} (hw : start P sk spk rng = .ok w) :
    Recorded P (Dialogue.start spk rng) w := by
  obtain ⟨-, -, -, hlog⟩ := (start_eq_ok_iff P).1 hw
  have hnone : ∀ p, receivedBy p w.log = [] := fun p => by rw [hlog]; rfl
  refine ⟨fun p => ?_, fun p h hmem => ?_, fun p i n _ _ hn => absurd hn (Nat.not_lt_zero n)⟩
  · rw [hnone]
    cases p <;> rfl
  · rw [hnone] at hmem
    cases hmem

/-- The chains that have been read depend on the turns before. -/
theorem Recorded.heads_congr (hr : Recorded P d w) {d' : Dialogue Sec} {p : Party}
    (hturn : d'.turn p = d.turn p) (hsec : ∀ c ≤ d.turn p, d'.sec c = d.sec c) :
    (chainHeads (receivedBy p w.log)).map Header.dhPublic =
      (Dialogue.readTurns (d'.turn p)).map fun c => P.publicKey (d'.sec c) := by
  rw [hr.heads, hturn]
  refine List.map_congr_left fun c hc => ?_
  rw [hsec c (Dialogue.mem_readTurns.1 hc).2.1.le]

/-- Sending is recorded. -/
theorem Recorded.send (haead : P.AeadInverts) (h : w.InStep P sk d) (hr : Recorded P d w) {p : Party}
    {ck : Key} (hck : (w.peer p).chainKeySend = some ck) (m : Plain) :
    Recorded P (d.send p) (w.encrypt P p m) := by
  obtain ⟨-, hpos, k, c, hlog⟩ := h.send haead hck m
  have hcont := Dialogue.continues_send h.sound hpos
  have hreceived : ∀ q, receivedBy q (w.encrypt P p m).log = receivedBy q w.log := fun q => by
    rw [hlog, receivedBy_append_encrypted]
  have hsub : w.log ⊆ (w.encrypt P p m).log := by
    rw [hlog]
    exact List.subset_append_left _ _
  refine ⟨fun q => ?_, fun q hd hmem => ?_, fun q i n hpar hle hn => ?_⟩
  · rw [hreceived]
    exact hr.heads q
  · rw [hreceived] at hmem
    obtain ⟨⟨k, c, m, he⟩, k', c', m', hd⟩ := hr.received q hd hmem
    exact ⟨⟨k, c, m, hsub he⟩, k', c', m', hsub hd⟩
  · have hle : i ≤ d.turn q := hle
    rw [hcont.header_eq hle]
    by_cases hold : n < d.len i
    · obtain ⟨k, c, m, he⟩ := hr.sent q i n hpar hle hold
      exact ⟨k, c, m, hsub he⟩
    · -- the message is the one that is being sent
      rw [Dialogue.len_send] at hn
      split_ifs at hn with hi
      · subst hi
        obtain rfl := Party.eq_of_turnParity (h.sound.parity p) hpar
        obtain rfl : n = d.len (d.turn q) := by omega
        refine ⟨k, c, m, ?_⟩
        rw [hlog]
        exact List.mem_append_right _ List.mem_cons_self
      · exact absurd hn hold

/-- The chain of a turn has been seen if the turn has begun to be read. -/
theorem Recorded.seenChain_iff (h : w.InStep P sk d) (hr : Recorded P d w) {p : Party} {i : ℕ}
    (hpar : i % 2 = p.other.turnParity) (hpos : 0 < i) (hle : i ≤ d.turn p.other) :
    w.SeenChain p (P.publicKey (d.sec i)) ↔ i < d.turn p := by
  have hother := (p.turnParity_other i).1 hpar
  rw [SeenChain, ← mem_map_chainHeads, hr.heads, List.mem_map]
  constructor
  · rintro ⟨c, hc, heq⟩
    rw [Dialogue.mem_readTurns] at hc
    obtain rfl := h.distinct p p.other c i hc.2.1.le hle heq
    exact hc.2.1
  · intro hlt
    rw [← h.sound.parity p] at hother
    exact ⟨i, Dialogue.mem_readTurns.2 ⟨hpos, hlt, hother⟩, rfl⟩

/-- The head of a chain is recorded when its first message arrives. -/
theorem Recorded.heads_receive (h : w.InStep P sk d) (hr : Recorded P d w) {p : Party} (rng : Sec)
    {i n : ℕ} (hpar : i % 2 = p.other.turnParity) (hpos : 0 < i) (hle : i ≤ d.turn p.other) :
    (chainHeads (receivedBy p w.log ++ [d.header P i n])).map Header.dhPublic =
      (Dialogue.readTurns ((d.receive p rng i n).turn p)).map fun c =>
        P.publicKey ((d.receive p rng i n).sec c) := by
  have hcont := Dialogue.continues_receive h.sound p rng i n
  have hseen : (d.header P i n).dhPublic ∈ (receivedBy p w.log).map Header.dhPublic ↔ i < d.turn p :=
    hr.seenChain_iff h hpar hpos hle
  rcases Nat.lt_or_ge i (d.turn p) with hlt | hge
  · -- the chain has been seen
    rw [chainHeads_append_of_mem (hseen.2 hlt), Dialogue.receive_of_lt hlt]
    exact hr.heads p
  · -- the chain is new, and its turn is the next one to be read
    have hclose := h.sound.close p.other
    have hparP := h.sound.parity p
    have hne := (p.turnParity_other i).1 hpar
    rw [Party.other_other] at hclose
    obtain rfl : i = d.turn p + 1 := by
      have : i ≠ d.turn p := fun heq => hne (heq ▸ hparP)
      omega
    rw [Dialogue.receive_of_le hge] at hcont ⊢
    rw [chainHeads_append_of_notMem (hseen.not.2 (Nat.not_lt.2 hge)), List.map_append, hr.heads,
      Dialogue.reply_turn, if_pos rfl, Dialogue.readTurns, List.map_append, List.map_singleton,
      List.map_singleton, hcont.sec p.other _ hle]
    congr 1
    refine List.map_congr_left fun c hc => ?_
    rw [hcont.sec p c (Dialogue.mem_readTurns.1 hc).2.1.le]

/-- Receiving is recorded. -/
theorem Recorded.receive (hcomm : P.DhCommutes) (haead : P.AeadInverts) (h : w.InStep P sk d)
    (hr : Recorded P d w) (hfull : ∀ pk, sentInChain pk w.log < 2 ^ 32 - 256) {p : Party} {c : Cipher}
    {rng : Sec} {i n : ℕ} (hpar : i % 2 = p.other.turnParity) (hle : i ≤ d.turn p.other)
    (hn : n < d.len i) (hin : Orderly P w p (d.header P i n) c rng) :
    Recorded P (d.receive p rng i n) (w.decrypt P p (d.header P i n) c rng) := by
  have hcont := Dialogue.continues_receive h.sound p rng i n
  obtain ⟨k, m, he⟩ := hin.sent
  obtain ⟨k', hkey, -⟩ := P.decrypt_eq_ok_iff.1 (h.decrypt_eq_ok hcomm haead hfull hin he)
  have hlog : (w.decrypt P p (d.header P i n) c rng).log =
      w.log ++ [.decrypted p k' (d.header P i n) c m] := by
    simp only [decrypt, h.decrypt_eq_ok hcomm haead hfull hin he, hkey]
  have hsub : w.log ⊆ (w.decrypt P p (d.header P i n) c rng).log := by
    rw [hlog]
    exact List.subset_append_left _ _
  refine ⟨fun q => ?heads, fun q hd hmem => ?received, fun q j n' hparq hleq hn' => ?sent⟩
  case heads =>
    rw [receivedBy_decrypt]
    by_cases hq : p = q
    · subst hq
      rw [if_pos rfl]
      exact hr.heads_receive h rng hpar (h.sound.pos_of_lt hn) hle
    · rw [if_neg hq]
      refine hr.heads_congr ?_ (hcont.sec q)
      rw [Dialogue.receive]
      split
      · rfl
      · rw [Dialogue.reply_turn, if_neg (Ne.symm hq)]
  case received =>
    rw [receivedBy_decrypt] at hmem
    by_cases hnew : p = q ∧ hd = d.header P i n
    · obtain ⟨rfl, rfl⟩ := hnew
      refine ⟨⟨k, c, m, hsub he⟩, k', c, m, ?_⟩
      rw [hlog]
      exact List.mem_append_right _ List.mem_cons_self
    · have hold : hd ∈ receivedBy q w.log := by
        split_ifs at hmem with hq
        · rcases List.mem_append.1 hmem with hmem | hmem
          · exact hmem
          · exact absurd ⟨hq, List.mem_singleton.1 hmem⟩ hnew
        · exact hmem
      obtain ⟨⟨k, c, m, he⟩, k', c', m', hd⟩ := hr.received q hd hold
      exact ⟨⟨k, c, m, hsub he⟩, k', c', m', hsub hd⟩
  case sent =>
    rw [Dialogue.receive_len] at hn'
    have hleq : j ≤ d.turn q := by
      by_contra hlt
      rw [h.sound.future q j hparq (not_le.1 hlt)] at hn'
      omega
    obtain ⟨k, c, m, he⟩ := hr.sent q j n' hparq hleq hn'
    rw [hcont.header_eq hleq]
    exact ⟨k, c, m, hsub he⟩

/-- **The log of an honest run records the dialogue**, as long as no chain is full. -/
theorem recorded_of_run (hcomm : P.DhCommutes) (haead : P.AeadInverts)
    {w₀ : Net Sec Grp Key Plain Cipher} (h : w₀.InStep P sk d) (hr : Recorded P d w₀)
    (hrun : Relation.ReflTransGen (Step P (Orderly P)) w₀ w)
    (hfull : ∀ pk, sentInChain pk w.log < 2 ^ 32 - 256) : ∃ d', w.InStep P sk d' ∧ Recorded P d' w := by
  refine InStep.run_induction hcomm haead ?send ?receive h hr hrun hfull
  case send => exact fun d w p ck m h hr hck => hr.send haead h hck m
  case receive =>
    exact fun d w p i n c rng h hr hfull hpar hle hn hin =>
      hr.receive hcomm haead h hfull hpar hle hn hin

/-! ### The stored keys -/

/-- What has arrived is a message of a turn that has begun to be read. -/
theorem Recorded.received_header (h : w.InStep P sk d) (hr : Recorded P d w) {p : Party}
    {hd : Header Grp} (hmem : hd ∈ receivedBy p w.log) : ∃ i n, i % 2 = p.other.turnParity ∧
      i < d.turn p ∧ n < d.len i ∧ hd = d.header P i n := by
  obtain ⟨⟨k, c, m, he⟩, -⟩ := hr.received p hd hmem
  obtain ⟨i, n, hpar, hle, hn, rfl, -⟩ := h.sent _ _ _ _ _ he
  refine ⟨i, n, hpar, ?_, hn, rfl⟩
  exact (hr.seenChain_iff h hpar (h.sound.pos_of_lt hn) hle).1 (List.mem_map_of_mem hmem)

/-- **The watermarks are the marks of the dialogue.** -/
theorem InStep.watermark_eq (h : w.InStep P sk d) (hr : Recorded P d w)
    (hfull : ∀ pk, sentInChain pk w.log < 2 ^ 32 - 256) {p : Party} {i : ℕ}
    (hpar : i % 2 = p.other.turnParity) (hpos : 0 < i) (hlt : i < d.turn p) :
    w.watermark p (P.publicKey (d.sec i)) = d.mark i := by
  have hlen := h.len_lt hfull i
  have hmark := h.sound.mark_le i
  have hother := (p.turnParity_other i).1 hpar
  have hparP := h.sound.parity p
  obtain ⟨table, hstate, -⟩ := h.peers p
  obtain ⟨t, ht⟩ : ∃ t, d.turn p = t + 1 := ⟨d.turn p - 1, by omega⟩
  have hremote : (w.peer p).dhRemote = some (P.publicKey (d.sec t)) := by rw [hstate, ht]; rfl
  have hnum : (w.peer p).msgNumRecv = UInt32.ofNat (d.mark t) := by rw [hstate, ht]; rfl
  rw [watermark]
  by_cases hcurrent : i = t
  · have hsmall : d.mark i < 2 ^ 32 := by omega
    rw [hcurrent, if_pos hremote, hnum, ← hcurrent]
    exact UInt32.toNat_ofNat_of_lt' hsmall
  · -- the chain after this one has announced its length
    have hne : (w.peer p).dhRemote ≠ some (P.publicKey (d.sec i)) := by
      rw [hremote]
      intro heq
      exact hcurrent (h.distinct p p t i (by omega) (by omega) (Option.some_inj.1 heq)).symm
    have hread : i ∈ Dialogue.readTurns (d.turn p) :=
      Dialogue.mem_readTurns.2 ⟨hpos, hlt, hparP ▸ hother⟩
    obtain ⟨pre, post, hsplit, hpre⟩ := Dialogue.readTurns_split hread (by omega)
    have hheads := hr.heads p
    rw [hsplit] at hheads
    obtain ⟨hd, hmem, hdh, hend⟩ := announcedEnd_eq hheads fun k hk heq => by
      have hk' : k ∈ Dialogue.readTurns (d.turn p) := hsplit ▸ List.mem_append_left _ hk
      exact hpre (h.distinct p p k i (Dialogue.mem_readTurns.1 hk').2.1.le hlt.le heq ▸ hk)
    obtain ⟨j, n, hparJ, hltJ, -, rfl⟩ := hr.received_header h (mem_of_mem_chainHeads hmem)
    have hnext : i + 2 ∈ Dialogue.readTurns (d.turn p) := by simp [hsplit]
    obtain rfl := h.distinct p p j (i + 2) hltJ.le (Dialogue.mem_readTurns.1 hnext).2.1.le hdh
    rw [if_neg hne, hend]
    have hsmall : d.len i < 2 ^ 32 := by omega
    exact (UInt32.toNat_ofNat_of_lt' hsmall).trans (h.sound.read p i hpar (by omega)).symm

/-- A message has been decrypted if it has arrived. -/
theorem Recorded.hasDecrypted_iff (h : w.InStep P sk d) (hr : Recorded P d w)
    (hfull : ∀ pk, sentInChain pk w.log < 2 ^ 32 - 256) {p : Party} {i : ℕ} (hlt : i < d.turn p)
    {n : UInt32} :
    w.HasDecrypted p (P.publicKey (d.sec i)) n ↔ d.header P i n.toNat ∈ receivedBy p w.log := by
  constructor
  · rintro ⟨k, hd, c, m, he, hdh, rfl⟩
    have hmem : hd ∈ receivedBy p w.log := List.mem_filterMap.2 ⟨_, he, if_pos rfl⟩
    obtain ⟨j, n, -, hltJ, hn, rfl⟩ := hr.received_header h hmem
    obtain rfl := h.distinct p p j i hltJ.le hlt.le hdh
    have hlen := h.len_lt hfull j
    rw [d.header_msgNum j (by omega)]
    exact hmem
  · intro hmem
    obtain ⟨-, k, c, m, he⟩ := hr.received p _ hmem
    exact ⟨k, _, c, m, he, rfl, UInt32.ofNat_toNat⟩

/-- The key of a message of the dialogue is the one it was sent under. -/
theorem Recorded.sentUnder (h : w.InStep P sk d) (hr : Recorded P d w)
    (hfull : ∀ pk, sentInChain pk w.log < 2 ^ 32 - 256) {p : Party} {i : ℕ}
    (hpar : i % 2 = p.turnParity) (hle : i ≤ d.turn p) {n : UInt32} (hn : n.toNat < d.len i) :
    w.SentUnder p (P.publicKey (d.sec i)) n (d.keyAt P sk i n.toNat) := by
  obtain ⟨k, c, m, he⟩ := hr.sent p i n.toNat hpar hle hn
  have hsame : ∀ k' hd c' m', .encrypted p k' hd c' m' ∈ w.log →
      hd.dhPublic = P.publicKey (d.sec i) → hd.msgNum = n → k' = d.keyAt P sk i n.toNat := by
    intro k' hd c' m' he' hdh hnum
    obtain ⟨j, n', -, hleJ, hn', rfl, rfl, -⟩ := h.sent _ _ _ _ _ he'
    obtain rfl := h.distinct p p j i hleJ hle hdh
    have hlen := h.len_lt hfull j
    rw [← hnum, d.header_msgNum j (by omega)]
  have hnum : (d.header P i n.toNat).msgNum = n := UInt32.ofNat_toNat
  obtain rfl := hsame k _ c m he rfl hnum
  exact ⟨⟨_, c, m, he, rfl, hnum⟩, hsame⟩

/-- **What is stored**: the keys of the messages below the marks that have not arrived. -/
theorem InStep.lookup_eq_some_iff (h : w.InStep P sk d) (p : Party) (e : Grp) (n : UInt32) (k : Key) :
    (w.peer p).skippedKeys.lookup (e, n) = some k ↔
      ∃ i, i % 2 = p.other.turnParity ∧ 0 < i ∧ i < d.turn p ∧ e = P.publicKey (d.sec i) ∧
        n.toNat < d.mark i ∧ d.header P i n.toNat ∉ receivedBy p w.log ∧ k = d.keyAt P sk i n.toNat := by
  obtain ⟨table, hstate, hstored⟩ := h.peers p
  have htable : (w.peer p).skippedKeys = table := by rw [hstate]; rfl
  rw [htable, hstored e n k]
  constructor
  · rintro ⟨i, hpar, he, hn, hrest⟩
    exact ⟨i, hpar, h.sound.pos_of_lt (hn.trans_le (h.sound.mark_le i)), h.sound.lt_of_mark hpar hn, he,
      hn, hrest⟩
  · rintro ⟨i, hpar, -, -, he, hn, hrest⟩
    exact ⟨i, hpar, he, hn, hrest⟩

/-- In a run of a dialogue the stored keys are those of the missing messages. -/
theorem InStep.missingStored (h : w.InStep P sk d) (hr : Recorded P d w)
    (hfull : ∀ pk, sentInChain pk w.log < 2 ^ 32 - 256) (p : Party) : w.MissingStored p := by
  have hclose := h.sound.close p
  refine ⟨fun e hseen n => ?_, fun e n k hlook => ?_, fun e n k hlook => ?_⟩
  · obtain ⟨hd, hmem, rfl⟩ := List.mem_map.1 hseen
    obtain ⟨i, m, hpar, hlt, hm, rfl⟩ := hr.received_header h hmem
    have hpos := h.sound.pos_of_lt hm
    have hdh : (d.header P i m).dhPublic = P.publicKey (d.sec i) := rfl
    rw [hdh, h.watermark_eq hr hfull hpar hpos hlt, hr.hasDecrypted_iff h hfull hlt,
      Option.isSome_iff_exists]
    constructor
    · rintro ⟨k, hlook⟩
      obtain ⟨j, -, -, hltJ, heq, hn, hnot, -⟩ := (h.lookup_eq_some_iff _ _ _ _).1 hlook
      obtain rfl := h.distinct p p i j hlt.le hltJ.le heq
      exact ⟨hn, hnot⟩
    · rintro ⟨hn, hnot⟩
      exact ⟨_, (h.lookup_eq_some_iff _ _ _ _).2 ⟨i, hpar, hpos, hlt, rfl, hn, hnot, rfl⟩⟩
  · obtain ⟨i, hpar, -, hlt, rfl, hn, -, rfl⟩ := (h.lookup_eq_some_iff _ _ _ _).1 hlook
    exact hr.sentUnder h hfull hpar (by omega) (hn.trans_le (h.sound.mark_le i))
  · obtain ⟨i, hpar, hpos, hlt, rfl, -⟩ := (h.lookup_eq_some_iff _ _ _ _).1 hlook
    exact (hr.seenChain_iff h hpar hpos (by omega)).2 hlt

/-- **In an honest run the stored keys are those of the missing messages**, after every move. -/
theorem missing_stored (hcomm : P.DhCommutes) (haead : P.AeadInverts) {spk rng : Sec}
    (hne : P.publicKey rng ≠ P.publicKey spk) (hw : Reaches P (Orderly P) sk spk rng w)
    (hfull : ∀ pk, sentInChain pk w.log < 2 ^ 32 - 256) (p : Party) : w.MissingStored p := by
  obtain ⟨w₀, hstart, hrun⟩ := hw
  obtain ⟨d, h, hr⟩ :=
    recorded_of_run hcomm haead (inStep_start hne hstart) (recorded_start hstart) hrun hfull
  exact h.missingStored hr hfull p

end Net

namespace Exchange

/-- Alice has sent two messages, and Bob has received the second. -/
def overtaken : Net.SymNet ℕ (Multiset ℕ) ℕ :=
  (sent.encrypt (expSymbolic ℕ) .alice 20).decrypt (expSymbolic ℕ) .bob (Replay.header 1)
    (Replay.sent 1 20) 2

end Exchange

/-- The key of a message that is overtaken is stored. -/
theorem overtaken_stored : Exchange.overtaken.MissingStored .bob := by
  have hreach : Net.Reaches (expSymbolic ℕ) (Net.Orderly (expSymbolic ℕ)) .secret 0 1
      Exchange.overtaken := by
    refine ⟨Exchange.start, (Net.start_eq_ok_iff _).2 ⟨rfl, rfl, rfl, rfl⟩, ?_⟩
    refine ((Relation.ReflTransGen.single (.encrypt _ .alice 10)).tail
      (.encrypt Exchange.sent .alice 20)).tail (.decrypt _ .bob _ _ 2
        ⟨⟨(expSymbolic ℕ).msgKey ((expSymbolic ℕ).nextCk Replay.chainKey), 20, ?_⟩, ?_, ?_, ?_, ?_⟩)
    · exact List.mem_of_getElem? (i := 1) rfl
    · exact List.not_mem_nil
    · exact Nat.le_add_left 1 255
    · intro _ pk hmem hne
      rcases List.mem_cons.1 hmem with hmem | hmem
      · exact absurd (congrArg Prod.snd hmem) hne
      · cases List.mem_singleton.1 hmem
    · intro _ q
      cases q <;> decide
  refine Net.missing_stored (expSymbolic_dhCommutes ℕ) (symbolic_aeadInverts expPublic expDh)
    (by decide) hreach ?_ .bob
  intro pk
  exact lt_of_le_of_lt List.countP_le_length (by decide)

end Sanctum
