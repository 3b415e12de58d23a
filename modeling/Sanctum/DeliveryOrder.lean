/-
The order of delivery.

The network may hand a party the messages that are on their way to it in any order that stays within
the limits on skipping.  The order leaves no trace: two orders of the same messages decrypt each of
them to the same plaintext under the same key, and leave the same ratchet, with the same keys stored.
For a dialogue this is because any two deliveries commute, the one that begins a turn included.

Main definitions:

* `Sanctum.Net.deliverAll`, `Sanctum.Net.OrderlyAll` — a batch of messages reaches a party, one after
  the other, each as an honest network may hand it over;
* `Sanctum.Dialogue.Awaits` — a place of a dialogue that may reach a party.

Main results:

* `Sanctum.foldl_eq_of_perm` — steps that commute while an invariant holds may be taken in any order;
* `Sanctum.Dialogue.receive_comm` — **two deliveries commute**;
* `Sanctum.Net.InStep.deliverAll` — a batch is delivered as the dialogue receives its places;
* `Sanctum.Net.delivery_order` — **the order of delivery leaves no trace**.
-/

import Sanctum.Delivery
import Mathlib.Data.List.Perm.Basic

set_option relaxedAutoImplicit false
set_option autoImplicit false

namespace Sanctum

/-! ### Steps in any order -/

/-- **Steps that commute while an invariant holds** may be taken in any order. -/
theorem foldl_eq_of_perm {State Input : Type} {step : State → Input → State}
    {Inv : State → Prop} {Valid : Input → Prop}
    (hstep : ∀ s a, Inv s → Valid a → Inv (step s a))
    (hcomm : ∀ s a b, Inv s → Valid a → Valid b → step (step s a) b = step (step s b) a)
    {l l' : List Input} (hperm : l.Perm l') :
    ∀ {s : State}, Inv s → (∀ a ∈ l, Valid a) → l'.foldl step s = l.foldl step s := by
  induction hperm with
  | nil => exact fun _ _ => rfl
  | cons a _ ih =>
      intro s hs hvalid
      rw [List.foldl_cons, List.foldl_cons]
      exact ih (hstep s a hs (hvalid a List.mem_cons_self)) fun b hb =>
        hvalid b (List.mem_cons_of_mem _ hb)
  | swap a b l =>
      intro s hs hvalid
      have hb := hvalid b List.mem_cons_self
      have ha := hvalid a (List.mem_cons_of_mem _ List.mem_cons_self)
      rw [List.foldl_cons, List.foldl_cons, List.foldl_cons, List.foldl_cons, hcomm s a b hs ha hb]
  | trans h₁ _ ih₁ ih₂ =>
      intro s hs hvalid
      rw [ih₂ hs fun a ha => hvalid a (h₁.mem_iff.2 ha), ih₁ hs hvalid]

namespace Dialogue

variable {Sec : Type} {d : Dialogue Sec}

/-! ### Deliveries of a dialogue -/

@[ext] theorem ext' {d d' : Dialogue Sec} (hsec : d.sec = d'.sec) (hlen : d.len = d'.len)
    (hmark : ∀ c, d.mark c = d'.mark c) (hturn : d.turn = d'.turn) : d = d' := by
  obtain ⟨sec, len, mark, turn⟩ := d
  obtain ⟨sec', len', mark', turn'⟩ := d'
  obtain rfl : mark = mark' := funext hmark
  obtain rfl : sec = sec' := hsec
  obtain rfl : len = len' := hlen
  obtain rfl : turn = turn' := hturn
  rfl

/-- A place of the dialogue that may reach party `p`. -/
structure Awaits (d : Dialogue Sec) (p : Party) (place : ℕ × ℕ) : Prop where
  parity : place.1 % 2 = p.other.turnParity
  begun : place.1 ≤ d.turn p.other
  sent : place.2 < d.len place.1

/-- An awaited place is in a turn that has begun to be read, or in the next one. -/
theorem Awaits.cases {p : Party} {c n : ℕ} (h : d.Sound) (ha : d.Awaits p (c, n)) :
    c < d.turn p ∨ c = d.turn p + 1 ∧ d.turn p.other = d.turn p + 1 := by
  have hbegun : c ≤ d.turn p.other := ha.begun
  have hclose := h.close p.other
  rw [Party.other_other] at hclose
  have hne : c ≠ d.turn p := by
    rintro rfl
    exact (p.turnParity_other _).1 ha.parity (h.parity p)
  omega

theorem receive_turn_other (d : Dialogue Sec) (p : Party) (x : Sec) (c n : ℕ) :
    (d.receive p x c n).turn p.other = d.turn p.other := by
  rcases Nat.lt_or_ge c (d.turn p) with hlt | hge
  · rw [receive_of_lt hlt]
    rfl
  · rw [receive_of_le hge, reply_turn, if_neg p.other_ne]

/-- What is awaited stays so, whatever else is delivered. -/
theorem awaits_receive {p : Party} {x : Sec} {c n : ℕ} {place : ℕ × ℕ} :
    (d.receive p x c n).Awaits p place ↔ d.Awaits p place := by
  constructor
  · rintro ⟨hparity, hbegun, hsent⟩
    rw [receive_turn_other] at hbegun
    rw [receive_len] at hsent
    exact ⟨hparity, hbegun, hsent⟩
  · rintro ⟨hparity, hbegun, hsent⟩
    refine ⟨hparity, ?_, ?_⟩
    · rwa [receive_turn_other]
    · rwa [receive_len]

/-- In a turn that has been read to its end there is nothing to make. -/
theorem Sound.skip_read (h : d.Sound) {p : Party} {c n : ℕ} (ha : d.Awaits p (c, n))
    (hc : c + 1 < d.turn p) : d.skip c (max (d.mark c) (n + 1)) = d := by
  have hsent : n < d.len c := ha.sent
  rw [max_eq_left (by rw [h.read p c ha.parity hc]; omega), skip_mark]

/-- Delivery keeps a dialogue sound. -/
theorem Sound.receive (h : d.Sound) {p : Party} (x : Sec) {c n : ℕ} (ha : d.Awaits p (c, n)) :
    (d.receive p x c n).Sound := by
  have hsent : n < d.len c := ha.sent
  rcases ha.cases h with hlt | ⟨rfl, hother⟩
  · rw [receive_of_lt hlt]
    rcases Nat.lt_or_ge (c + 1) (d.turn p) with hread | hge
    · rwa [h.skip_read ha hread]
    · exact h.skip (p := p) (by omega) (max_le (h.mark_le c) hsent)
  · rw [receive_of_le (Nat.le_succ _)]
    exact h.reply x hother hsent

/-- A mark after a delivery in a turn that has begun to be read. -/
theorem mark_receive_of_lt {p : Party} {c : ℕ} (hc : c < d.turn p) (x : Sec) (n c' : ℕ) :
    (d.receive p x c n).mark c' = if c' = c then max (d.mark c) (n + 1) else d.mark c' := by
  rw [receive_of_lt hc, mark_skip]

/-- The marks after the delivery that begins a turn. -/
theorem Sound.mark_reply (h : d.Sound) (p : Party) (x : Sec) (n c : ℕ) :
    (d.reply p x n).mark c =
      if c = d.turn p + 1 then n + 1 else if c + 1 = d.turn p then d.len c else d.mark c := by
  rw [reply_mark]
  split
  · rfl
  · split
    · next hc => exact (h.finish p).2 c hc
    · next hc => exact (d.finish_fields p).2.2.2 c fun hcond => absurd hcond hc

theorem sec_reply (d : Dialogue Sec) (p : Party) (x : Sec) (n : ℕ) :
    (d.reply p x n).sec = Function.update d.sec (d.turn p + 2) x := by
  obtain ⟨hsec, -, hturn, -⟩ := d.finish_fields p
  rw [← hsec, ← hturn]
  rfl

theorem turn_reply (d : Dialogue Sec) (p : Party) (x : Sec) (n : ℕ) :
    (d.reply p x n).turn = Function.update d.turn p (d.turn p + 2) := by
  obtain ⟨-, -, hturn, -⟩ := d.finish_fields p
  rw [← hturn]
  rfl

/-- Two deliveries in turns that have begun to be read commute. -/
theorem receive_comm_of_lt {p : Party} (x : Sec) {c c' : ℕ} (n n' : ℕ) (hc : c < d.turn p)
    (hc' : c' < d.turn p) :
    (d.receive p x c n).receive p x c' n' = (d.receive p x c' n').receive p x c n := by
  have hturn : (d.receive p x c n).turn p = d.turn p := by rw [receive_of_lt hc]; rfl
  have hturn' : (d.receive p x c' n').turn p = d.turn p := by rw [receive_of_lt hc']; rfl
  have hlt : c' < (d.receive p x c n).turn p := hturn ▸ hc'
  have hlt' : c < (d.receive p x c' n').turn p := hturn' ▸ hc
  refine ext' ?_ (by simp only [receive_len]) (fun i => ?_) ?_
  · rw [receive_of_lt hlt, receive_of_lt hlt', receive_of_lt hc, receive_of_lt hc']
    rfl
  · rw [mark_receive_of_lt hlt, mark_receive_of_lt hlt', mark_receive_of_lt hc,
      mark_receive_of_lt hc', mark_receive_of_lt hc', mark_receive_of_lt hc]
    by_cases hcc : c = c'
    · subst hcc
      simp only [if_true]
      split
      · rw [max_assoc, max_assoc, max_comm (n + 1)]
      · rfl
    · by_cases hi : i = c <;> by_cases hi' : i = c' <;> simp_all
  · rw [receive_of_lt hlt, receive_of_lt hlt', receive_of_lt hc, receive_of_lt hc']
    rfl

/-- A delivery in a turn that has begun to be read commutes with the one that begins the next turn:
what the first would make, the second makes as well. -/
theorem Sound.receive_reply_comm (h : d.Sound) {p : Party} (x : Sec) {c n : ℕ} (n' : ℕ)
    (ha : d.Awaits p (c, n)) (hc : c < d.turn p) :
    (d.receive p x c n).reply p x n' = (d.reply p x n').receive p x c n := by
  have hsent : n < d.len c := ha.sent
  have hturn : (d.receive p x c n).turn = d.turn := by rw [receive_of_lt hc]; rfl
  have hlt : c < (d.reply p x n').turn p := by
    rw [reply_turn, if_pos rfl]
    omega
  refine ext' ?_ ?_ (fun i => ?_) ?_
  · rw [sec_reply, hturn, receive_of_lt hc, receive_of_lt hlt]
    exact (sec_reply d p x n').symm
  · rw [reply_len, receive_len, receive_len, reply_len]
  · rw [(h.receive x ha).mark_reply, mark_receive_of_lt hlt, h.mark_reply, h.mark_reply, hturn,
      receive_len, mark_receive_of_lt hc]
    by_cases hic : i = c
    · subst hic
      have hnew : i ≠ d.turn p + 1 := by omega
      simp only [if_true, if_neg hnew]
      split
      · rw [max_eq_left (Nat.succ_le_of_lt hsent)]
      · rfl
    · rw [if_neg hic, if_neg hic]
  · rw [turn_reply, hturn, receive_of_lt hlt]
    exact (turn_reply d p x n').symm

/-- **Two deliveries commute.** -/
theorem Sound.receive_comm (h : d.Sound) {p : Party} (x : Sec) {a b : ℕ × ℕ}
    (ha : d.Awaits p a) (hb : d.Awaits p b) :
    (d.receive p x a.1 a.2).receive p x b.1 b.2 = (d.receive p x b.1 b.2).receive p x a.1 a.2 := by
  obtain ⟨c, n⟩ := a
  obtain ⟨c', n'⟩ := b
  rcases ha.cases h with hc | ⟨rfl, -⟩ <;> rcases hb.cases h with hc' | ⟨rfl, -⟩
  · exact receive_comm_of_lt x n n' hc hc'
  · have hturn : (d.receive p x c n).turn p = d.turn p := by rw [receive_of_lt hc]; rfl
    rw [receive_of_le (hturn.trans_le (Nat.le_succ _)), receive_of_le (Nat.le_succ _)]
    exact h.receive_reply_comm x n' ha hc
  · have hturn : (d.receive p x c' n').turn p = d.turn p := by rw [receive_of_lt hc']; rfl
    rw [receive_of_le (Nat.le_succ _), receive_of_le (hturn.trans_le (Nat.le_succ _))]
    exact (h.receive_reply_comm x n hb hc').symm
  · -- the first of the two begins the turn, and the other one is in it
    have hlt : ∀ m, d.turn p + 1 < (d.reply p x m).turn p := fun m => by
      rw [reply_turn, if_pos rfl]
      omega
    simp only [receive_of_le (Nat.le_succ (d.turn p))]
    refine ext' ?_ (by simp only [receive_len, reply_len]) (fun i => ?_) ?_
    · rw [receive_of_lt (hlt n), receive_of_lt (hlt n')]
      exact (sec_reply d p x n).trans (sec_reply d p x n').symm
    · rw [mark_receive_of_lt (hlt n), mark_receive_of_lt (hlt n'), h.mark_reply, h.mark_reply,
        h.mark_reply, h.mark_reply]
      split
      · rw [if_pos rfl, if_pos rfl, max_comm]
      · rfl
    · rw [receive_of_lt (hlt n), receive_of_lt (hlt n')]
      exact (turn_reply d p x n).trans (turn_reply d p x n').symm

variable {Grp Key Nonce Plain Cipher : Type} [DecidableEq Grp]
variable {P : Primitives Sec Grp Key Nonce Plain Cipher} {sk : Key}

/-- The ratchet of a party depends on the dialogue and on which messages have arrived. -/
theorem Matches.unique {p : Party} {received received' : List (Header Grp)}
    {s s' : RatchetState Sec Grp Key} (hsame : ∀ hd, hd ∈ received' ↔ hd ∈ received)
    (h : d.Matches P sk p received s) (h' : d.Matches P sk p received' s') : s' = s := by
  obtain ⟨table, rfl, hstored⟩ := h
  obtain ⟨table', rfl, hstored'⟩ := h'
  have htable : table' = table := by
    refine Finmap.ext_lookup fun place => Option.ext fun k => ?_
    obtain ⟨e, n⟩ := place
    simp only [hstored e n k, hstored' e n k, hsame]
  rw [htable]

end Dialogue

namespace Net

variable {Sec Grp Key Nonce Plain Cipher : Type} [DecidableEq Grp]
variable (P : Primitives Sec Grp Key Nonce Plain Cipher)

/-! ### A batch of messages -/

/-- A batch of messages reaches party `p`, one after the other.  At most one of them begins a turn,
for which the party draws the secret `x`. -/
def deliverAll (w : Net Sec Grp Key Plain Cipher) (p : Party) (x : Sec)
    (batch : List (Header Grp × Cipher)) : Net Sec Grp Key Plain Cipher :=
  batch.foldl (fun w m => w.decrypt P p m.1 m.2 x) w

/-- Each message of the batch is one that an honest network may hand over at its time. -/
def OrderlyAll (w : Net Sec Grp Key Plain Cipher) (p : Party) (x : Sec) :
    List (Header Grp × Cipher) → Prop
  | [] => True
  | m :: batch => Orderly P w p m.1 m.2 x ∧ OrderlyAll (w.decrypt P p m.1 m.2 x) p x batch

variable {P} {sk : Key} {d : Dialogue Sec} {w : Net Sec Grp Key Plain Cipher}

/-- The other party keeps its ratchet while a batch is delivered. -/
theorem peer_deliverAll_of_ne {p q : Party} (x : Sec) (batch : List (Header Grp × Cipher))
    (hq : q ≠ p) : (w.deliverAll P p x batch).peer q = w.peer q := by
  induction batch generalizing w with
  | nil => rfl
  | cons m batch ih =>
      have hpeer : (w.decrypt P p m.1 m.2 x).peer q = w.peer q := Function.update_of_ne hq ..
      exact ih.trans hpeer

/-- What a batch contains has been sent before the batch is delivered. -/
theorem OrderlyAll.sent {p : Party} {x : Sec} {batch : List (Header Grp × Cipher)}
    (h : OrderlyAll P w p x batch) {m : Header Grp × Cipher} (hm : m ∈ batch) :
    ∃ k text, .encrypted p.other k m.1 m.2 text ∈ w.log := by
  induction batch generalizing w with
  | nil => exact absurd hm List.not_mem_nil
  | cons m' batch ih =>
      rcases List.mem_cons.1 hm with rfl | hm
      · exact h.1.sent
      · obtain ⟨k, text, he⟩ := ih h.2 hm
        exact ⟨k, text, encrypted_of_mem_decrypt he⟩

/-- A delivery of an honest run is recorded as a success, under the key of its place. -/
theorem InStep.log_decrypt (hcomm : P.DhCommutes) (haead : P.AeadInverts) (h : w.InStep P sk d)
    (hfull : ∀ pk, sentInChain pk w.log < 2 ^ 32 - 256) {p : Party} {hd : Header Grp} {c : Cipher}
    {x : Sec} (hin : Orderly P w p hd c x) {k : Key} {text : Plain}
    (he : .encrypted p.other k hd c text ∈ w.log) :
    (w.decrypt P p hd c x).log = w.log ++ [.decrypted p k hd c text] := by
  have hres := h.decrypt_eq_ok hcomm haead hfull hin he
  have hkey := (h.deliver hcomm hfull hin he).1
  simp only [decrypt, hres, hkey]

/-- **A batch is delivered as the dialogue receives its places**, and every message of it is
decrypted. -/
theorem InStep.deliverAll (hcomm : P.DhCommutes) (haead : P.AeadInverts) {p : Party} {x : Sec}
    {place : Header Grp × Cipher → ℕ × ℕ} {key : Header Grp × Cipher → Key}
    {text : Header Grp × Cipher → Plain} {batch : List (Header Grp × Cipher)}
    (h : w.InStep P sk d) (hfull : ∀ pk, sentInChain pk w.log < 2 ^ 32 - 256)
    (hin : OrderlyAll P w p x batch)
    (hplace : ∀ m ∈ batch, d.Awaits p (place m) ∧ m.1 = d.header P (place m).1 (place m).2)
    (hsent : ∀ m ∈ batch, .encrypted p.other (key m) m.1 m.2 (text m) ∈ w.log) :
    (w.deliverAll P p x batch).InStep P sk
        (batch.foldl (fun d m => d.receive p x (place m).1 (place m).2) d) ∧
      (w.deliverAll P p x batch).log =
        w.log ++ batch.map fun m => .decrypted p (key m) m.1 m.2 (text m) := by
  induction batch generalizing w d with
  | nil => exact ⟨h, (List.append_nil _).symm⟩
  | cons m batch ih =>
      obtain ⟨ha, hheader⟩ := hplace m List.mem_cons_self
      have he := hsent m List.mem_cons_self
      have hin₁ : Orderly P w p (d.header P (place m).1 (place m).2) m.2 x := hheader ▸ hin.1
      have hstep := (h.receive hcomm hfull ha.parity ha.begun ha.sent hin₁).2
      rw [← hheader] at hstep
      have hlog := h.log_decrypt hcomm haead hfull hin.1 he
      have hcont := Dialogue.continues_receive h.sound p x (place m).1 (place m).2
      obtain ⟨hstep', hlog'⟩ := ih hstep
        (fun pk => by
          rw [sentInChain, sentPlaces_decrypt]
          exact hfull pk)
        hin.2
        (fun m' hm' => by
          obtain ⟨ha', hheader'⟩ := hplace m' (List.mem_cons_of_mem _ hm')
          exact ⟨Dialogue.awaits_receive.2 ha',
            hheader'.trans (hcont.header_eq ha'.begun _).symm⟩)
        (fun m' hm' => by
          rw [hlog]
          exact List.mem_append_left _ (hsent m' (List.mem_cons_of_mem _ hm')))
      refine ⟨hstep', hlog'.trans ?_⟩
      rw [hlog, List.append_assoc]
      rfl

/-- **The order of delivery leaves no trace.**  In an honest run, a batch of messages that a party
may receive in two orders leaves the same two ratchets in both, and either order decrypts every
message of it, under the key and to the plaintext it was encrypted with. -/
theorem delivery_order (hcomm : P.DhCommutes) (haead : P.AeadInverts) {spk rng : Sec}
    (hne : P.publicKey rng ≠ P.publicKey spk) (hw : Reaches P (Orderly P) sk spk rng w)
    (hfull : ∀ pk, sentInChain pk w.log < 2 ^ 32 - 256) {p : Party} {x : Sec}
    {batch batch' : List (Header Grp × Cipher)} (hperm : batch.Perm batch')
    (hin : OrderlyAll P w p x batch) (hin' : OrderlyAll P w p x batch') :
    (w.deliverAll P p x batch').peer = (w.deliverAll P p x batch).peer ∧
      ∃ log, (w.deliverAll P p x batch).log = w.log ++ log ∧
        (∃ log', (w.deliverAll P p x batch').log = w.log ++ log' ∧ log.Perm log') ∧
        List.Forall₂ (fun m e => ∃ k text, .encrypted p.other k m.1 m.2 text ∈ w.log ∧
          e = .decrypted p k m.1 m.2 text) batch log := by
  rcases eq_or_ne batch [] with rfl | hbatch
  · obtain rfl := hperm.nil_eq
    exact ⟨rfl, [], (List.append_nil _).symm, ⟨[], (List.append_nil _).symm, .nil⟩, .nil⟩
  obtain ⟨m₀, hm₀⟩ := List.exists_mem_of_ne_nil _ hbatch
  obtain ⟨k₀, text₀, -⟩ := hin.sent hm₀
  have : Nonempty Key := ⟨k₀⟩
  have : Nonempty Plain := ⟨text₀⟩
  obtain ⟨w₀, hstart, hrun⟩ := hw
  obtain ⟨d, h⟩ := inStep_of_run hcomm haead (inStep_start hne hstart) hrun hfull
  -- where the messages are in the dialogue, and what they say
  have hplace : ∀ m ∈ batch, ∃ place k text, d.Awaits p place ∧
      m.1 = d.header P place.1 place.2 ∧ .encrypted p.other k m.1 m.2 text ∈ w.log := by
    intro m hm
    obtain ⟨k, text, he⟩ := hin.sent hm
    obtain ⟨i, n, hpar, hle, hn, hheader, -, -⟩ := h.sent _ _ _ _ _ he
    exact ⟨(i, n), k, text, ⟨hpar, hle, hn⟩, hheader, he⟩
  choose! place key text hawaits hheader hsent using hplace
  have hmem : ∀ m ∈ batch', m ∈ batch := fun m hm => hperm.mem_iff.2 hm
  obtain ⟨hstep, hlog⟩ := h.deliverAll hcomm haead hfull hin
    (fun m hm => ⟨hawaits m hm, hheader m hm⟩) hsent
  obtain ⟨hstep', hlog'⟩ := h.deliverAll hcomm haead hfull hin'
    (fun m hm => ⟨hawaits m (hmem m hm), hheader m (hmem m hm)⟩) fun m hm => hsent m (hmem m hm)
  -- the dialogue is sound and awaits the whole batch at any time, so the order does not matter
  have hsame := @foldl_eq_of_perm (Dialogue Sec) _
    (fun d' m => d'.receive p x (place m).1 (place m).2)
    (fun d' => d'.Sound ∧ ∀ m ∈ batch, d'.Awaits p (place m)) (· ∈ batch)
    (fun d' m hd hm => ⟨hd.1.receive x (hd.2 m hm), fun m' hm' =>
      Dialogue.awaits_receive.2 (hd.2 m' hm')⟩)
    (fun d' m m' hd hm hm' => hd.1.receive_comm x (hd.2 m hm) (hd.2 m' hm'))
    _ _ hperm _ ⟨h.sound, hawaits⟩ fun _ hm => hm
  rw [hsame] at hstep'
  have hevents := hperm.map fun m =>
    (Event.decrypted p (key m) m.1 m.2 (text m) : Event Grp Key Plain Cipher)
  refine ⟨funext fun q => ?_, _, hlog, ⟨_, hlog', hevents⟩, ?_⟩
  · by_cases hq : q = p
    · subst hq
      refine (hstep.peers q).unique (fun hd => ?_) (hstep'.peers q)
      rw [hlog, hlog', receivedBy, receivedBy]
      exact ((hevents.append_left w.log).filterMap _).mem_iff.symm
    · rw [peer_deliverAll_of_ne x _ hq, peer_deliverAll_of_ne x _ hq]
  · rw [List.forall₂_map_right_iff]
    exact List.forall₂_same.2 fun m hm => ⟨_, _, hsent m hm, rfl⟩

end Net

namespace Exchange

/-- Alice has sent two messages, and neither has arrived. -/
def sentTwice : Net.SymNet ℕ (Multiset ℕ) ℕ := sent.encrypt (expSymbolic ℕ) .alice 20

/-- The two messages. -/
def both : List (Header (Multiset ℕ) × SymCipher (Multiset ℕ) ℕ) :=
  [(Replay.header 0, Replay.sent 0 10), (Replay.header 1, Replay.sent 1 20)]

/-- Either of them may be the first to arrive. -/
theorem orderly_first {n : UInt32} {k : SymKey (Multiset ℕ)} {c : SymCipher (Multiset ℕ) ℕ} {text : ℕ}
    (hn : n.toNat ≤ 1) (he : .encrypted .alice k (Replay.header n) c text ∈ sentTwice.log) :
    sentTwice.Orderly (expSymbolic ℕ) .bob (Replay.header n) c 2 := by
  refine ⟨⟨k, text, he⟩, List.not_mem_nil, hn.trans (by omega), ?_, ?_⟩
  · intro _ pk hmem hne
    rcases List.mem_cons.1 hmem with hmem | hmem
    · exact absurd (congrArg Prod.snd hmem) hne
    · cases List.mem_singleton.1 hmem
  · intro _ q
    cases q <;> decide

/-- The other one may arrive after it. -/
theorem orderly_second {n n' : UInt32} {k : SymKey (Multiset ℕ)}
    {c c' : SymCipher (Multiset ℕ) ℕ} {text : ℕ} (hne : n ≠ n') (hn : n.toNat ≤ 1)
    (he : .encrypted .alice k (Replay.header n) c text ∈ sentTwice.log)
    (hremote : ((sentTwice.decrypt (expSymbolic ℕ) .bob (Replay.header n') c' 2).peer
      .bob).dhRemote = some (expPublic 1)) :
    (sentTwice.decrypt (expSymbolic ℕ) .bob (Replay.header n') c' 2).Orderly (expSymbolic ℕ) .bob
      (Replay.header n) c 2 := by
  obtain ⟨e, hlog, -⟩ := Net.decrypt_log (expSymbolic ℕ) sentTwice .bob (Replay.header n') c' 2
  refine ⟨⟨k, text, hlog ▸ List.mem_append_left _ he⟩, ?_, hn.trans (by omega), ?_, ?_⟩
  · rw [receivedBy_decrypt, if_pos rfl]
    intro hmem
    exact hne (congrArg Header.msgNum (List.mem_singleton.1 hmem))
  · intro hzero
    rw [nextExpected_decrypt, if_pos ⟨rfl, rfl⟩] at hzero
    omega
  · intro hdraws
    exact absurd hremote hdraws.2.1

/-- The two messages arrive in either order. -/
theorem orderlyAll_both :
    sentTwice.OrderlyAll (expSymbolic ℕ) .bob 2 both ∧
      sentTwice.OrderlyAll (expSymbolic ℕ) .bob 2 both.reverse := by
  have hfirst : .encrypted .alice ((expSymbolic ℕ).msgKey Replay.chainKey) (Replay.header 0)
      (Replay.sent 0 10) 10 ∈ sentTwice.log := List.mem_of_getElem? (i := 0) rfl
  have hsecond : .encrypted .alice ((expSymbolic ℕ).msgKey ((expSymbolic ℕ).nextCk Replay.chainKey))
      (Replay.header 1) (Replay.sent 1 20) 20 ∈ sentTwice.log := List.mem_of_getElem? (i := 1) rfl
  refine ⟨⟨orderly_first (by decide) hfirst, ?_, trivial⟩,
    ⟨orderly_first (by decide) hsecond, ?_, trivial⟩⟩
  · exact orderly_second (by decide) (by decide) hsecond rfl
  · exact orderly_second (by decide) (by decide) hfirst rfl

end Exchange

/-- Two messages that arrive in either order leave the same ratchets. -/
theorem delivery_order_both :
    (Exchange.sentTwice.deliverAll (expSymbolic ℕ) .bob 2 Exchange.both.reverse).peer =
      (Exchange.sentTwice.deliverAll (expSymbolic ℕ) .bob 2 Exchange.both).peer := by
  have hreach : Net.Reaches (expSymbolic ℕ) (Net.Orderly (expSymbolic ℕ)) .secret 0 1
      Exchange.sentTwice :=
    ⟨Exchange.start, (Net.start_eq_ok_iff _).2 ⟨rfl, rfl, rfl, rfl⟩,
      (Relation.ReflTransGen.single (.encrypt _ .alice 10)).tail (.encrypt Exchange.sent .alice 20)⟩
  refine (Net.delivery_order (expSymbolic_dhCommutes ℕ) (symbolic_aeadInverts expPublic expDh)
    (by decide) hreach (fun pk => ?_) (List.reverse_perm _).symm Exchange.orderlyAll_both.1
    Exchange.orderlyAll_both.2).1
  exact lt_of_le_of_lt List.countP_le_length (by decide)

end Sanctum
