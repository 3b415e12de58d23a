/-
Honest runs.

The network may lose and reorder messages, but it hands a party only what the other one has sent,
each message once, and it keeps within the limits on skipping: no message is more than 256 ahead of
the next expected one of its chain, and when the first message of a chain arrives no more than 256
messages are missing at the end of the chains before it.  Throughout such a run the two ratchets are
those of one dialogue, so that every message meets its own key.

Main definitions:

* `Sanctum.receivedBy`, `Sanctum.nextExpected` — what the log says about the messages that have
  arrived;
* `Sanctum.Net.Orderly` — **the inputs of an honest network**;
* `Sanctum.Net.InStep` — the invariant: the run is that of a dialogue.

Main results:

* `Sanctum.Net.InStep.send`, `Sanctum.Net.InStep.receive` — what a move does to the dialogue;
* `Sanctum.Net.InStep.deliver` — **a message meets the key it was sent under**;
* `Sanctum.Net.InStep.run_induction` — **the rule for honest runs**;
* `Sanctum.Net.inStep_of_run` — an honest run is that of a dialogue.
-/

import Sanctum.DialogueRatchet
import Sanctum.KeyUse

set_option relaxedAutoImplicit false
set_option autoImplicit false

namespace Sanctum

open Primitives

/-! ### Reading the log -/

section

variable {Grp Key Plain Cipher : Type}

/-- The header that has reached party `p`, whether `decrypt` accepted it or not. -/
def Event.arrived (p : Party) : Event Grp Key Plain Cipher → Option (Header Grp)
  | .encrypted .. => none
  | .decrypted q _ h _ _ => if q = p then some h else none
  | .refused q h _ => if q = p then some h else none

/-- **The headers that have reached a party**, in order. -/
def receivedBy (p : Party) (log : List (Event Grp Key Plain Cipher)) : List (Header Grp) :=
  log.filterMap (Event.arrived p)

variable [DecidableEq Grp]

/-- **The next expected number** in the chain of a ratchet key: one more than the highest that has
arrived. -/
def nextExpected (p : Party) (pk : Grp) (log : List (Event Grp Key Plain Cipher)) : ℕ :=
  (receivedBy p log).foldl
    (fun n h => if h.dhPublic = pk then max n (h.msgNum.toNat + 1) else n) 0

omit [DecidableEq Grp] in
theorem receivedBy_append_encrypted (log : List (Event Grp Key Plain Cipher)) (p q : Party)
    (k : Key) (h : Header Grp) (c : Cipher) (m : Plain) :
    receivedBy p (log ++ [.encrypted q k h c m]) = receivedBy p log := by
  rw [receivedBy, List.filterMap_append]
  exact List.append_nil _

/-- What has arrived is below the next expected number. -/
theorem lt_nextExpected {p : Party} {log : List (Event Grp Key Plain Cipher)} {h : Header Grp}
    (hmem : h ∈ receivedBy p log) : h.msgNum.toNat < nextExpected p h.dhPublic log := by
  rw [nextExpected]
  generalize receivedBy p log = arrived at hmem ⊢
  induction arrived using List.reverseRecOn with
  | nil => exact absurd hmem List.not_mem_nil
  | append_singleton arrived h' ih =>
      rw [List.foldl_append, List.foldl_cons, List.foldl_nil]
      rcases List.mem_append.1 hmem with hmem | hmem
      · refine (ih hmem).trans_le ?_
        split
        · exact le_max_left _ _
        · exact le_rfl
      · obtain rfl := List.mem_singleton.1 hmem
        rw [if_pos rfl]
        exact Nat.lt_of_lt_of_le (Nat.lt_succ_self _) (le_max_right _ _)

/-- Nothing is expected in a chain of which nothing has arrived. -/
theorem nextExpected_eq_zero {p : Party} {pk : Grp} {log : List (Event Grp Key Plain Cipher)}
    (hne : ∀ h ∈ receivedBy p log, h.dhPublic ≠ pk) : nextExpected p pk log = 0 := by
  rw [nextExpected]
  generalize receivedBy p log = arrived at hne
  induction arrived with
  | nil => rfl
  | cons h arrived ih =>
      rw [List.foldl_cons, if_neg (hne h List.mem_cons_self)]
      exact ih fun h' hmem => hne h' (List.mem_cons_of_mem _ hmem)

variable {Sec Nonce : Type} (P : Primitives Sec Grp Key Nonce Plain Cipher)

/-- A call of `decrypt` receives its header. -/
theorem receivedBy_decrypt (w : Net Sec Grp Key Plain Cipher) (p : Party) (h : Header Grp)
    (c : Cipher) (rng : Sec) (q : Party) :
    receivedBy q (w.decrypt P p h c rng).log =
      if p = q then receivedBy q w.log ++ [h] else receivedBy q w.log := by
  rcases (w.decrypt_cases (P := P) p h c rng).2 with ⟨k, m, -, -, hlog⟩ | hlog <;>
    rw [hlog, receivedBy, List.filterMap_append] <;> split
  · next hq => simp [Event.arrived, hq, receivedBy]
  · next hq => simp [Event.arrived, hq, receivedBy]
  · next hq => simp [Event.arrived, hq, receivedBy]
  · next hq => simp [Event.arrived, hq, receivedBy]

theorem nextExpected_decrypt (w : Net Sec Grp Key Plain Cipher) (p : Party) (h : Header Grp)
    (c : Cipher) (rng : Sec) (q : Party) (pk : Grp) :
    nextExpected q pk (w.decrypt P p h c rng).log =
      if p = q ∧ h.dhPublic = pk then max (nextExpected q pk w.log) (h.msgNum.toNat + 1)
      else nextExpected q pk w.log := by
  rw [nextExpected, receivedBy_decrypt]
  by_cases hq : p = q
  · rw [if_pos hq, List.foldl_append, List.foldl_cons, List.foldl_nil]
    simp only [hq, true_and]
    rfl
  · rw [if_neg hq, if_neg fun hcond => hq hcond.1]
    rfl

end

namespace Net

variable {Sec Grp Key Nonce Plain Cipher : Type} [DecidableEq Grp]
variable (P : Primitives Sec Grp Key Nonce Plain Cipher)

/-- **The inputs of an honest network**: a message of the other party that has not been delivered
before, within the limits on skipping.  A keypair that `decrypt` draws is a new one. -/
structure Orderly (w : Net Sec Grp Key Plain Cipher) (p : Party) (h : Header Grp) (c : Cipher)
    (rng : Sec) : Prop where
  sent : ∃ k m, .encrypted p.other k h c m ∈ w.log
  once : h ∉ receivedBy p w.log
  ahead : h.msgNum.toNat ≤ nextExpected p h.dhPublic w.log + 256
  /-- If the message is the first of its chain, few messages are missing at the ends of others. -/
  trailing : nextExpected p h.dhPublic w.log = 0 →
    ∀ pk, (p.other, pk) ∈ w.generated → pk ≠ h.dhPublic →
      sentInChain pk w.log ≤ nextExpected p pk w.log + 256
  fresh : FreshKeys P w p h c rng

/-- **The run is that of the dialogue `d`.** -/
structure InStep (sk : Key) (d : Dialogue Sec) (w : Net Sec Grp Key Plain Cipher) : Prop where
  sound : d.Sound
  distinct : d.Distinct P
  peers : ∀ p, d.Matches P sk p (receivedBy p w.log) (w.peer p)
  generated : ∀ p i, i % 2 = p.turnParity → i ≤ d.turn p → (p, P.publicKey (d.sec i)) ∈ w.generated
  sent : ∀ p k h c m, .encrypted p k h c m ∈ w.log →
    ∃ i n, i % 2 = p.turnParity ∧ i ≤ d.turn p ∧ n < d.len i ∧ h = d.header P i n ∧
      k = d.keyAt P sk i n ∧ P.aeadSeal k (P.nonceOf k) m [] = some c
  count : ∀ p i, i ≤ d.turn p → sentInChain (P.publicKey (d.sec i)) w.log = d.len i
  known : ∀ p h, h ∈ receivedBy p w.log → (p.other, h.dhPublic) ∈ w.generated
  expected : ∀ p i, i % 2 = p.other.turnParity → d.turn p ≤ i + 1 → i ≤ d.turn p.other →
    nextExpected p (P.publicKey (d.sec i)) w.log = d.mark i

variable {P} {sk : Key} {d : Dialogue Sec} {w : Net Sec Grp Key Plain Cipher}

/-- At the start the parties are in the dialogue that begins with their keys. -/
theorem inStep_start {spk rng : Sec} (hne : P.publicKey rng ≠ P.publicKey spk)
    (hw : start P sk spk rng = .ok w) : w.InStep P sk (Dialogue.start spk rng) := by
  obtain ⟨ha, hb, hgen, hlog⟩ := (start_eq_ok_iff P).1 hw
  have hempty : ∀ p, (Dialogue.start spk rng).Stored P sk p [] ∅ := by
    intro p e n k
    simp [Dialogue.start]
  refine ⟨Dialogue.sound_start spk rng, ?_, ?_, ?_, ?_, ?_, ?_, ?_⟩
  · have hle : ∀ q i, i ≤ (Dialogue.start spk rng).turn q → i = 0 ∨ i = 1 := by
      intro q i hi
      cases q
      · exact Nat.le_one_iff_eq_zero_or_eq_one.1 hi
      · exact Or.inl (Nat.le_zero.1 hi)
    intro p q i j hi hj heq
    rcases hle p i hi with rfl | rfl <;> rcases hle q j hj with rfl | rfl
    · rfl
    · exact absurd heq.symm hne
    · exact absurd heq hne
    · rfl
  · intro p
    rw [hlog]
    cases p with
    | alice => exact ⟨∅, ha.trans (Dialogue.aliceStart_eq spk rng), hempty _⟩
    | bob => exact ⟨∅, hb.trans (Dialogue.initBob_eq spk rng), hempty _⟩
  · intro p i hi hle
    rw [hgen]
    cases p with
    | alice =>
        obtain rfl : i = 1 := by
          have hle' : i ≤ 1 := hle
          have hpar : i % 2 = 1 := hi
          omega
        exact List.mem_cons_self
    | bob =>
        obtain rfl := Nat.le_zero.1 hle
        exact List.mem_cons_of_mem _ List.mem_cons_self
  · rw [hlog]
    exact fun _ _ _ _ _ he => absurd he List.not_mem_nil
  · intro p i _
    rw [hlog]
    rfl
  · rw [hlog]
    exact fun _ _ he => absurd he List.not_mem_nil
  · intro p i _ _ _
    rw [hlog]
    rfl

/-- A turn that has begun is owned by the party whose turn it is. -/
theorem InStep.owner (h : w.InStep P sk d) {q : Party} {i : ℕ} (hi : i ≤ d.turn q) :
    ∃ p, i % 2 = p.turnParity ∧ i ≤ d.turn p ∧ (p, P.publicKey (d.sec i)) ∈ w.generated := by
  by_cases hpar : i % 2 = q.turnParity
  · exact ⟨q, hpar, hi, h.generated q i hpar hi⟩
  · have hpar' := (q.turnParity_other i).2 hpar
    have hne : i ≠ d.turn q := fun heq => hpar (heq ▸ h.sound.parity q)
    have hclose := h.sound.close q
    have hle : i ≤ d.turn q.other := by omega
    exact ⟨q.other, hpar', hle, h.generated q.other i hpar' hle⟩

/-- No chain of the dialogue is full. -/
theorem InStep.len_lt (h : w.InStep P sk d) (hfull : ∀ pk, sentInChain pk w.log < 2 ^ 32 - 256)
    (i : ℕ) : d.len i < 2 ^ 32 - 256 := by
  by_cases hi : ∃ p, i ≤ d.turn p
  · obtain ⟨p, hi⟩ := hi
    rw [← h.count p i hi]
    exact hfull _
  · rcases Nat.mod_two_eq_zero_or_one i with hpar | hpar
    · rw [h.sound.future .bob i hpar (not_le.1 fun hle => hi ⟨_, hle⟩)]
      norm_num
    · rw [h.sound.future .alice i hpar (not_le.1 fun hle => hi ⟨_, hle⟩)]
      norm_num

/-- The messages sent so far are messages of every later dialogue. -/
theorem InStep.sent_continues (h : w.InStep P sk d) {d' : Dialogue Sec} (hcont : d.Continues d')
    {p : Party} {k : Key} {hd : Header Grp} {c : Cipher} {m : Plain}
    (he : .encrypted p k hd c m ∈ w.log) :
    ∃ i n, i % 2 = p.turnParity ∧ i ≤ d'.turn p ∧ n < d'.len i ∧ hd = d'.header P i n ∧
      k = d'.keyAt P sk i n ∧ P.aeadSeal k (P.nonceOf k) m [] = some c := by
  obtain ⟨i, n, hpar, hle, hn, hhd, hk, hseal⟩ := h.sent p k hd c m he
  exact ⟨i, n, hpar, hle.trans (hcont.turn p), hn.trans_le (hcont.len i),
    hhd.trans (hcont.header_eq hle n).symm, hk.trans (hcont.keyAt_eq hle n).symm, hseal⟩

/-- With a sending chain, sending is what the dialogue does. -/
theorem InStep.send (haead : P.AeadInverts) (h : w.InStep P sk d) {p : Party} {ck : Key}
    (hck : (w.peer p).chainKeySend = some ck) (m : Plain) :
    (w.encrypt P p m).InStep P sk (d.send p) ∧ 0 < d.turn p ∧ ∃ k c, (w.encrypt P p m).log =
      w.log ++ [.encrypted p k (d.header P (d.turn p) (d.len (d.turn p))) c m] := by
  obtain ⟨c, hseal, -⟩ := haead (P.msgKey ck) (P.nonceOf (P.msgKey ck)) m []
  obtain ⟨hpos, hkey, hheader, hmatches⟩ := Dialogue.matches_stepSend h.sound (h.peers p) hck
  have hcont := Dialogue.continues_send h.sound hpos
  rw [encrypt_of_some hck hseal]
  refine ⟨?_, hpos, _, c, by rw [hheader]⟩
  refine ⟨h.sound.send hpos, h.distinct, ?_, h.generated, ?_, ?_, ?_, ?_⟩
  · refine forall_update_peer (motive := fun q s => (d.send p).Matches P sk q
      (receivedBy q (w.log ++ [_])) s) ?_ fun q hq => ?_
    · rw [receivedBy_append_encrypted]
      exact hmatches
    · rw [receivedBy_append_encrypted]
      have hne : d.turn q ≠ d.turn p := fun heq =>
        hq (Party.eq_of_turnParity (h.sound.parity p) (heq ▸ h.sound.parity q))
      refine (h.peers q).congr h.sound rfl (fun _ _ => rfl) ?_ (hcont.prev q) (fun _ _ => rfl)
        rfl
      rw [Dialogue.len_send, if_neg hne]
  · intro q k hd c' m' he
    rcases List.mem_append.1 he with he | he
    · exact h.sent_continues hcont he
    · cases List.mem_singleton.1 he
      refine ⟨d.turn p, d.len (d.turn p), h.sound.parity p, le_rfl, ?_, ?_, ?_, hseal⟩
      · rw [Dialogue.len_send, if_pos rfl]
        exact Nat.lt_succ_self _
      · rw [hheader, hcont.header_eq le_rfl]
      · rw [hkey, hcont.keyAt_eq le_rfl]
  · intro q i hi
    rw [sentInChain_append_encrypted, hheader, Dialogue.len_send]
    have hsame : (d.header P (d.turn p) (d.len (d.turn p))).dhPublic =
        P.publicKey ((d.send p).sec i) ↔ i = d.turn p :=
      ⟨fun heq => h.distinct q p i (d.turn p) hi le_rfl heq.symm, fun heq => heq ▸ rfl⟩
    have hcount : sentInChain (P.publicKey ((d.send p).sec i)) w.log = d.len i :=
      h.count q i hi
    rw [hcount]
    simp only [hsame]
    split <;> rfl
  · intro q hd hmem
    rw [receivedBy_append_encrypted] at hmem
    exact h.known q hd hmem
  · intro q i hpar hge hle
    rw [nextExpected, receivedBy_append_encrypted]
    exact h.expected q i hpar hge hle

/-- A call of `decrypt` forgets no key. -/
theorem generated_subset_decrypt (w : Net Sec Grp Key Plain Cipher) (p : Party) (hd : Header Grp)
    (c : Cipher) (rng : Sec) : w.generated ⊆ (w.decrypt P p hd c rng).generated := by
  rw [decrypt]
  split
  · exact List.subset_cons_self _ _
  · exact List.Subset.refl _

/-- Receiving is a step of the dialogue when it changes nothing but marks, adds a turn of the
receiver at most, and leaves both ratchets those of the dialogue. -/
theorem InStep.received (h : w.InStep P sk d) {d' : Dialogue Sec} {p : Party} {hd : Header Grp}
    {c : Cipher} {rng : Sec} (hcont : d.Continues d') (hlen : d'.len = d.len) (hsound : d'.Sound)
    (hdist : d'.Distinct P) (hknown : (p.other, hd.dhPublic) ∈ w.generated)
    (hp : d'.Matches P sk p (receivedBy p w.log ++ [hd]) (P.takeKey (w.peer p) hd rng).2)
    (hq : d'.Matches P sk p.other (receivedBy p.other w.log) (w.peer p.other))
    (hgen : ∀ q i, i % 2 = q.turnParity → i ≤ d'.turn q →
      (q, P.publicKey (d'.sec i)) ∈ (w.decrypt P p hd c rng).generated)
    (hcount : ∀ q i, i ≤ d'.turn q → sentInChain (P.publicKey (d'.sec i)) w.log = d.len i)
    (hexp : ∀ q i, i % 2 = q.other.turnParity → d'.turn q ≤ i + 1 → i ≤ d'.turn q.other →
      nextExpected q (P.publicKey (d'.sec i)) (w.decrypt P p hd c rng).log = d'.mark i) :
    (w.decrypt P p hd c rng).InStep P sk d' := by
  refine ⟨hsound, hdist, ?_, hgen, ?_, ?_, ?_, hexp⟩
  · rw [(w.decrypt_cases (P := P) p hd c rng).1]
    refine forall_update_peer (motive := fun q s => d'.Matches P sk q
      (receivedBy q (w.decrypt P p hd c rng).log) s) ?_ fun q hne => ?_
    · rw [receivedBy_decrypt, if_pos rfl]
      exact hp
    · rw [receivedBy_decrypt, if_neg (Ne.symm hne), Party.eq_other_of_ne hne]
      exact hq
  · exact fun q k hd' c' m he => h.sent_continues hcont (encrypted_of_mem_decrypt he)
  · intro q i hi
    rw [sentInChain, sentPlaces_decrypt, hlen]
    exact hcount q i hi
  · intro q hd' hmem
    refine generated_subset_decrypt w p hd c rng ?_
    rw [receivedBy_decrypt] at hmem
    split at hmem
    · next hpq =>
        subst hpq
        rcases List.mem_append.1 hmem with hmem | hmem
        · exact h.known p hd' hmem
        · rw [List.mem_singleton.1 hmem]
          exact hknown
    · exact h.known q hd' hmem

/-- Receiving message number `n` of a turn that has been read so far is a step of the dialogue. -/
theorem InStep.received_skip (h : w.InStep P sk d) {p : Party} {c : Cipher} {rng : Sec}
    {i n : ℕ} (hpar : i % 2 = p.other.turnParity) (hpos : 0 < i) (hle : i ≤ d.turn p.other)
    (hn : n < 2 ^ 32) (hsound : (d.skip i (max (d.mark i) (n + 1))).Sound)
    (hp : (d.skip i (max (d.mark i) (n + 1))).Matches P sk p
      (receivedBy p w.log ++ [d.header P i n]) (P.takeKey (w.peer p) (d.header P i n) rng).2) :
    (w.decrypt P p (d.header P i n) c rng).InStep P sk (d.skip i (max (d.mark i) (n + 1))) := by
  have hmark : ∀ j, j % 2 = p.turnParity →
      (d.skip i (max (d.mark i) (n + 1))).mark j = d.mark j := by
    intro j hj
    rw [Dialogue.mark_skip, if_neg]
    rintro rfl
    exact (p.turnParity_other j).1 hpar hj
  refine h.received (d.continues_skip _ _) rfl hsound h.distinct (h.generated _ i hpar hle) hp ?_
    (fun q j hj hjle => generated_subset_decrypt w _ _ _ _ (h.generated q j hj hjle)) h.count ?_
  · refine (h.peers p.other).congr h.sound rfl (fun _ _ => rfl) rfl (fun _ _ => rfl) ?_ ?_
    · rw [Party.other_other]
      exact hmark
    · rw [Dialogue.mark_skip, if_neg hpos.ne]
  · intro q j hj hge hjle
    have hold := h.expected q j hj hge hjle
    by_cases hij : i = j
    · subst hij
      obtain rfl := Party.eq_of_turnParity_other hpar hj
      rw [nextExpected_decrypt, if_pos ⟨rfl, rfl⟩, d.header_msgNum i hn,
        Dialogue.mark_skip, if_pos rfl]
      exact congrArg (max · (n + 1)) hold
    · rw [nextExpected_decrypt, if_neg, Dialogue.mark_skip, if_neg (Ne.symm hij)]
      · exact hold
      · exact fun hcond => hij (h.distinct p.other q.other i j hle hjle hcond.2)

/-- A message that has been skipped meets its key. -/
theorem InStep.stored (h : w.InStep P sk d) {p : Party} {i n : ℕ}
    (hpar : i % 2 = p.other.turnParity) (hpos : 0 < i) (hle : i ≤ d.turn p.other)
    (hlt : n < 2 ^ 32) (hn : n < d.mark i) (hnot : d.header P i n ∉ receivedBy p w.log)
    (c : Cipher) (rng : Sec) :
    (P.takeKey (w.peer p) (d.header P i n) rng).1 = .ok (d.keyAt P sk i n) ∧
      (w.decrypt P p (d.header P i n) c rng).InStep P sk (d.skip i (max (d.mark i) (n + 1))) := by
  obtain ⟨hkey, hmatches⟩ :=
    Dialogue.takeKey_stored h.sound h.distinct (h.peers p) hpar hn hlt hnot rng
  have hmax : max (d.mark i) (n + 1) = d.mark i := max_eq_left hn
  have hsame : d.skip i (max (d.mark i) (n + 1)) = d := by
    rw [hmax, d.skip_mark]
  exact ⟨hkey, h.received_skip hpar hpos hle hlt (hsame.symm ▸ h.sound) (hsame.symm ▸ hmatches)⟩

/-- A message of the turn that is being read meets its key. -/
theorem InStep.current (h : w.InStep P sk d) {p : Party} {i n : ℕ} (hturn : d.turn p = i + 2)
    (hlen : d.len (i + 1) < 2 ^ 32 - 256) (hmark : d.mark (i + 1) ≤ n) (hn : n < d.len (i + 1))
    (hgap : n ≤ d.mark (i + 1) + 256)
    (hnew : ∀ m, d.mark (i + 1) ≤ m → m < n → d.header P (i + 1) m ∉ receivedBy p w.log)
    (c : Cipher) (rng : Sec) :
    (P.takeKey (w.peer p) (d.header P (i + 1) n) rng).1 = .ok (d.keyAt P sk (i + 1) n) ∧
      (w.decrypt P p (d.header P (i + 1) n) c rng).InStep P sk
        (d.skip (i + 1) (max (d.mark (i + 1)) (n + 1))) := by
  obtain ⟨hkey, hmatches⟩ := Dialogue.takeKey_current h.sound h.distinct (h.peers p) hturn hlen
    hmark hn hgap hnew rng
  have hpar := h.sound.parity_pred hturn.symm
  have hclose := h.sound.close p
  have hmax : max (d.mark (i + 1)) (n + 1) = n + 1 := max_eq_right (by omega)
  refine ⟨hkey, h.received_skip hpar (Nat.succ_pos i) (by omega) (by omega) ?_ ?_⟩
  · rw [hmax]
    exact h.sound.skip hturn.symm hn
  · rw [hmax]
    exact hmatches

/-- A new key is not that of a turn that has begun. -/
theorem InStep.ne_publicKey (h : w.InStep P sk d) {x : Sec}
    (hnew : ∀ q, (q, P.publicKey x) ∉ w.generated) {q : Party} {i : ℕ} (hi : i ≤ d.turn q) :
    P.publicKey (d.sec i) ≠ P.publicKey x := by
  intro heq
  obtain ⟨r, -, -, hmem⟩ := h.owner hi
  exact hnew r (heq ▸ hmem)

/-- When a party answers, the other one is where it was. -/
theorem InStep.peers_reply (h : w.InStep P sk d) (p : Party) (x : Sec) (n : ℕ) :
    (d.reply p x n).Matches P sk p.other (receivedBy p.other w.log) (w.peer p.other) := by
  have hcont := Dialogue.continues_reply h.sound p x n
  refine (h.peers p.other).congr h.sound ?_ (hcont.sec _) (by rw [d.reply_len]) (hcont.prev _)
    (fun i hi => ?_) (Dialogue.reply_mark_of_ne x n (fun _ => rfl) (Nat.succ_ne_zero _).symm)
  · rw [Dialogue.reply_turn, if_neg p.other_ne]
  · rw [Party.other_other] at hi
    have hp := h.sound.parity p
    exact Dialogue.reply_mark_of_ne x n (by omega) (by omega)

/-- Nothing has been sent in the turn of an answer. -/
theorem InStep.count_reply (h : w.InStep P sk d) {p : Party} {x : Sec} {n : ℕ}
    (hother : d.turn p.other = d.turn p + 1) (hnew : ∀ q, (q, P.publicKey x) ∉ w.generated)
    {q : Party} {i : ℕ} (hi : i ≤ (d.reply p x n).turn q) :
    sentInChain (P.publicKey ((d.reply p x n).sec i)) w.log = d.len i := by
  rcases Dialogue.le_reply_turn hother hi with rfl | hle
  · rw [d.reply_sec_self, h.sound.future p _ (h.sound.parity_next p) (by omega), sentInChain,
      List.countP_eq_zero]
    intro e he heq
    obtain ⟨r, k, hd, c', m, hmem, rfl⟩ := mem_sentPlaces.1 he
    obtain ⟨j, n', -, hj, -, rfl, -⟩ := h.sent r k hd c' m hmem
    exact h.ne_publicKey hnew hj (of_decide_eq_true heq)
  · rw [(Dialogue.continues_reply h.sound p x n).sec _ i hle]
    exact h.count _ i hle

/-- After an answer the receiver expects the next message of the turn it has begun to read, and the
other party the first one of the answer. -/
theorem InStep.expected_reply (h : w.InStep P sk d) {p : Party} {x : Sec} {n : ℕ} {c : Cipher}
    (hother : d.turn p.other = d.turn p + 1) (hn : n < 2 ^ 32)
    (hnew : ∀ q, (q, P.publicKey x) ∉ w.generated) {q : Party} {i : ℕ}
    (hi : i % 2 = q.other.turnParity) (hge : (d.reply p x n).turn q ≤ i + 1)
    (hle : i ≤ (d.reply p x n).turn q.other) :
    nextExpected q (P.publicKey ((d.reply p x n).sec i))
      (w.decrypt P p (d.header P (d.turn p + 1) n) c x).log = (d.reply p x n).mark i := by
  have hcont := Dialogue.continues_reply h.sound p x n
  have hp := h.sound.parity p
  rw [Dialogue.reply_turn] at hge hle
  rw [nextExpected_decrypt, d.header_msgNum _ hn]
  by_cases hqp : q = p
  · -- the receiver reads the new turn
    subst hqp
    rw [if_pos rfl] at hge
    rw [if_neg q.other_ne] at hle
    obtain rfl : i = d.turn q + 1 := by omega
    have hzero := h.expected q _ hi (by omega) hle
    rw [h.sound.unread q _ hi (Nat.le_succ _)] at hzero
    rw [hcont.sec _ _ hle, if_pos ⟨rfl, rfl⟩, hzero, d.reply_mark, if_pos rfl]
    exact Nat.zero_max _
  · -- the other party has read nothing of the answer
    obtain rfl := Party.eq_other_of_ne hqp
    have hi' := hi
    rw [Party.other_other] at hi' hle
    rw [if_neg hqp] at hge
    rw [if_pos rfl] at hle
    rw [if_neg fun hcond => hqp hcond.1.symm, Dialogue.reply_mark_of_ne x n (by omega) (by omega)]
    rcases Nat.lt_or_ge (d.turn p) i with hlt | hle'
    · obtain rfl : i = d.turn p + 2 := by omega
      rw [d.reply_sec_self, h.sound.unread p.other _ hi (by omega)]
      refine nextExpected_eq_zero fun hd hmem heq => ?_
      exact hnew _ (heq ▸ h.known _ hd hmem)
    · rw [hcont.sec p i hle']
      refine h.expected p.other i hi (by omega) ?_
      rw [Party.other_other]
      exact hle'

/-- The first message of a turn meets its key. -/
theorem InStep.next (hcomm : P.DhCommutes) (h : w.InStep P sk d) {p : Party} {n : ℕ} {x : Sec}
    (hother : d.turn p.other = d.turn p + 1) (hlen : ∀ i, d.len i < 2 ^ 32 - 256)
    (hn : n < d.len (d.turn p + 1)) (hlimit : n ≤ 256)
    (hgap : ∀ i, i + 1 = d.turn p → d.len i ≤ d.mark i + 256)
    (hmissing : ∀ i m, i + 1 = d.turn p → d.mark i ≤ m → m < d.len i →
      d.header P i m ∉ receivedBy p w.log)
    (hfirst : ∀ m, d.header P (d.turn p + 1) m ∉ receivedBy p w.log) {c : Cipher}
    (hfresh : FreshKeys P w p (d.header P (d.turn p + 1) n) c x) :
    (P.takeKey (w.peer p) (d.header P (d.turn p + 1) n) x).1 =
        .ok (d.keyAt P sk (d.turn p + 1) n) ∧
      (w.decrypt P p (d.header P (d.turn p + 1) n) c x).InStep P sk (d.reply p x n) := by
  have hdraws := Dialogue.draws_next (n := n) h.sound h.distinct (h.peers p) hother (by omega)
    (Dialogue.skipTo_finish h.sound h.distinct (h.peers p) hlen hgap hmissing).1
  have hnew := hfresh hdraws
  have hdiffer : ∀ q i, i ≤ d.turn q → P.publicKey (d.sec i) ≠ P.publicKey x := fun _ _ hi =>
    h.ne_publicKey hnew hi
  obtain ⟨hkey, hmatches⟩ := Dialogue.takeKey_next hcomm h.sound h.distinct (h.peers p) hother hlen
    hn hlimit hgap hmissing hfirst hdiffer
  have hcont := Dialogue.continues_reply h.sound p x n
  refine ⟨hkey, h.received hcont (d.reply_len p x n) (h.sound.reply x hother hn)
    (h.distinct.reply h.sound hother hdiffer)
    (h.generated _ _ (h.sound.parity_succ p) hother.ge) hmatches (h.peers_reply p x n) ?_
    (fun _ _ => h.count_reply hother hnew)
    fun _ _ => h.expected_reply hother (by omega) hnew⟩
  -- the new key is recorded
  intro q i hi hle
  have hgen : (w.decrypt P p (d.header P (d.turn p + 1) n) c x).generated =
      (p, P.publicKey x) :: w.generated := if_pos hdraws
  rw [hgen]
  rcases Dialogue.le_reply_turn hother hle with rfl | hle'
  · obtain rfl : q = p := Party.eq_of_turnParity (h.sound.parity_next p) hi
    rw [d.reply_sec_self]
    exact List.mem_cons_self
  · obtain ⟨r, hr, -, hmem⟩ := h.owner hle'
    obtain rfl : q = r := Party.eq_of_turnParity hr hi
    rw [hcont.sec _ i hle']
    exact List.mem_cons_of_mem _ hmem

/-- From the mark of a turn on, nothing has arrived. -/
theorem InStep.notMem_receivedBy (h : w.InStep P sk d) {p : Party} {i n : ℕ}
    (hpar : i % 2 = p.other.turnParity) (hge : d.turn p ≤ i + 1) (hle : i ≤ d.turn p.other)
    (hlt : n < 2 ^ 32) (hmark : d.mark i ≤ n) : d.header P i n ∉ receivedBy p w.log := by
  intro hmem
  have hbelow := lt_nextExpected hmem
  have hexp : nextExpected p (d.header P i n).dhPublic w.log = d.mark i :=
    h.expected p i hpar hge hle
  rw [d.header_msgNum i hlt] at hbelow
  omega

/-- A message of the dialogue meets its key, and receiving it is what the dialogue does. -/
theorem InStep.receive (hcomm : P.DhCommutes) (h : w.InStep P sk d)
    (hfull : ∀ pk, sentInChain pk w.log < 2 ^ 32 - 256) {p : Party} {c : Cipher}
    {rng : Sec} {i n : ℕ} (hpar : i % 2 = p.other.turnParity) (hle : i ≤ d.turn p.other)
    (hn : n < d.len i) (hin : Orderly P w p (d.header P i n) c rng) :
    (P.takeKey (w.peer p) (d.header P i n) rng).1 = .ok (d.keyAt P sk i n) ∧
      (w.decrypt P p (d.header P i n) c rng).InStep P sk (d.receive p rng i n) := by
  have hlen := h.len_lt hfull
  have hlenI := hlen i
  have hpos := h.sound.pos_of_lt hn
  have hclose := h.sound.close p.other
  rw [Party.other_other] at hclose
  rcases Nat.lt_or_ge n (d.mark i) with hmark | hmark
  · rw [Dialogue.receive_of_lt (h.sound.lt_of_mark hpar hmark)]
    exact h.stored hpar hpos hle (by omega) hmark hin.once c rng
  · -- the turn has not been read to its end
    have hge : d.turn p ≤ i + 1 := by
      by_contra hlt
      have hread := h.sound.read p i hpar (by omega)
      omega
    have hexp : nextExpected p (d.header P i n).dhPublic w.log = d.mark i :=
      h.expected p i hpar hge hle
    have hparP := h.sound.parity p
    have hparO := (p.turnParity_succ i).2 hpar
    rcases Nat.lt_or_ge (d.turn p) (i + 1) with hlt | hge'
    · -- the message is the first of its turn that arrives
      obtain rfl : i = d.turn p + 1 := by omega
      have hzero := h.sound.unread p _ hpar (Nat.le_succ _)
      have hahead := hin.ahead
      rw [hexp, d.header_msgNum _ (by omega)] at hahead
      have hother : d.turn p.other = d.turn p + 1 := by omega
      rw [Dialogue.receive_of_le (Nat.le_succ _)]
      refine h.next hcomm hother hlen hn (by omega) ?_ ?_ ?_ hin.fresh
      · intro j hj
        have htrail := hin.trailing (hexp.trans hzero) (P.publicKey (d.sec j))
          (h.generated p.other j (h.sound.parity_pred hj) (by omega)) fun heq =>
            absurd (h.distinct p.other p.other j (d.turn p + 1) (by omega) hle heq) (by omega)
        rwa [h.count p j (by omega),
          h.expected p j (h.sound.parity_pred hj) hj.ge (by omega)] at htrail
      · intro j n' hj hm hn'
        have hlenJ := hlen j
        exact h.notMem_receivedBy (h.sound.parity_pred hj) hj.ge (by omega) (by omega) hm
      · intro n' hmem
        have hlt' := lt_nextExpected hmem
        have hexp' : nextExpected p (d.header P (d.turn p + 1) n').dhPublic w.log = 0 :=
          hexp.trans hzero
        omega
    · -- the message is in the turn that is being read
      obtain ⟨j, rfl⟩ : ∃ j, i = j + 1 := ⟨i - 1, by omega⟩
      have hahead := hin.ahead
      rw [hexp, d.header_msgNum _ (by omega)] at hahead
      rw [Dialogue.receive_of_lt (by omega : j + 1 < d.turn p)]
      exact h.current (by omega) hlenI hmark hn hahead
        (fun n' hm hn' => h.notMem_receivedBy hpar hge hle (by omega) hm) c rng

/-- **A message meets the key it was sent under**, and receiving it is a step of the dialogue. -/
theorem InStep.deliver (hcomm : P.DhCommutes) (h : w.InStep P sk d)
    (hfull : ∀ pk, sentInChain pk w.log < 2 ^ 32 - 256) {p : Party} {hd : Header Grp} {c : Cipher}
    {rng : Sec} (hin : Orderly P w p hd c rng) {k : Key} {m : Plain}
    (he : .encrypted p.other k hd c m ∈ w.log) :
    (P.takeKey (w.peer p) hd rng).1 = .ok k ∧
      ∃ d', (w.decrypt P p hd c rng).InStep P sk d' := by
  obtain ⟨i, n, hpar, hle, hn, rfl, rfl, -⟩ := h.sent _ _ _ _ _ he
  obtain ⟨hkey, hstep⟩ := h.receive hcomm hfull hpar hle hn hin
  exact ⟨hkey, _, hstep⟩

/-- **The rule for honest runs**, as long as no chain is full: a run is that of a dialogue, and what
sending and receiving keep holds next to it. -/
theorem InStep.run_induction {motive : Dialogue Sec → Net Sec Grp Key Plain Cipher → Prop}
    (hcomm : P.DhCommutes) (haead : P.AeadInverts)
    (send : ∀ d w p ck m, w.InStep P sk d → motive d w → (w.peer p).chainKeySend = some ck →
      motive (d.send p) (w.encrypt P p m))
    (receive : ∀ d w p i n c rng, w.InStep P sk d → motive d w →
      (∀ pk, sentInChain pk w.log < 2 ^ 32 - 256) → i % 2 = p.other.turnParity →
        i ≤ d.turn p.other → n < d.len i → Orderly P w p (d.header P i n) c rng →
          motive (d.receive p rng i n) (w.decrypt P p (d.header P i n) c rng))
    {w₀ : Net Sec Grp Key Plain Cipher} (h : w₀.InStep P sk d) (hm : motive d w₀)
    (hrun : Relation.ReflTransGen (Step P (Orderly P)) w₀ w)
    (hfull : ∀ pk, sentInChain pk w.log < 2 ^ 32 - 256) : ∃ d', w.InStep P sk d' ∧ motive d' w := by
  induction hrun with
  | refl => exact ⟨d, h, hm⟩
  | @tail w₁ w₂ _ hstep ih =>
      cases hstep with
      | encrypt p m =>
          obtain ⟨d', h', hm'⟩ := ih fun pk =>
            (sentInChain_le_append pk w₁.log _).trans_lt (hfull pk)
          cases hck : (w₁.peer p).chainKeySend with
          | none =>
              rw [encrypt_of_none hck]
              exact ⟨d', h', hm'⟩
          | some ck => exact ⟨d'.send p, (h'.send haead hck m).1, send d' w₁ p ck m h' hm' hck⟩
      | decrypt p hd c rng hin =>
          have hsame : ∀ pk, sentInChain pk (w₁.decrypt P p hd c rng).log =
              sentInChain pk w₁.log := fun pk => by
            rw [sentInChain, sentPlaces_decrypt, sentInChain]
          have hfull₁ : ∀ pk, sentInChain pk w₁.log < 2 ^ 32 - 256 := fun pk =>
            hsame pk ▸ hfull pk
          obtain ⟨d', h', hm'⟩ := ih hfull₁
          obtain ⟨k, m, he⟩ := hin.sent
          obtain ⟨i, n, hpar, hle, hn, rfl, -⟩ := h'.sent _ _ _ _ _ he
          exact ⟨d'.receive p rng i n, (h'.receive hcomm hfull₁ hpar hle hn hin).2,
            receive d' w₁ p i n c rng h' hm' hfull₁ hpar hle hn hin⟩

/-- **An honest run is that of a dialogue**, as long as no chain is full. -/
theorem inStep_of_run (hcomm : P.DhCommutes) (haead : P.AeadInverts)
    {w₀ : Net Sec Grp Key Plain Cipher} (h : w₀.InStep P sk d)
    (hrun : Relation.ReflTransGen (Step P (Orderly P)) w₀ w)
    (hfull : ∀ pk, sentInChain pk w.log < 2 ^ 32 - 256) : ∃ d', w.InStep P sk d' := by
  obtain ⟨d', h', -⟩ := InStep.run_induction (motive := fun _ _ => True) hcomm haead
    (fun _ _ _ _ _ _ _ _ => trivial) (fun _ _ _ _ _ _ _ _ _ _ _ _ _ _ => trivial) h trivial hrun hfull
  exact ⟨d', h'⟩

end Net

end Sanctum
