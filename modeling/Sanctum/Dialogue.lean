/-
What two ratchets are for: a dialogue in turns.

The parties send in turns, Bob in the even ones and Alice in the odd ones; turn 0 is the pre-key,
in which nothing is sent.  A party begins its next turn when the first message of the other one's
latest turn reaches it.  A dialogue records the secret of each turn, how many messages have been
sent in it, and up to which number the receiver has made its keys.

Main definitions:

* `Sanctum.Dialogue` — **the abstract state**, and its changes `Sanctum.Dialogue.send`,
  `Sanctum.Dialogue.skip`, `Sanctum.Dialogue.advance`, `Sanctum.Dialogue.reply` and
  `Sanctum.Dialogue.receive`;
* `Sanctum.Dialogue.Sound` — what holds of every dialogue;
* `Sanctum.Dialogue.Continues` — what the changes leave as it was.

Main results:

* `Sanctum.Dialogue.Sound.send`, `Sanctum.Dialogue.Sound.skip`, `Sanctum.Dialogue.Sound.reply` —
  the changes of a dialogue are sound;
* `Sanctum.Dialogue.continues_send`, `Sanctum.Dialogue.continues_skip`,
  `Sanctum.Dialogue.continues_reply` — and continue it.
-/

import Sanctum.KeySlots

set_option relaxedAutoImplicit false
set_option autoImplicit false

namespace Sanctum

/-- **A dialogue.** -/
structure Dialogue (Sec : Type) where
  /-- The ratchet secret of each turn. -/
  sec : ℕ → Sec
  /-- The number of messages sent in each turn. -/
  len : ℕ → ℕ
  /-- The number of messages of each turn that the receiver has made the keys of. -/
  mark : ℕ → ℕ
  /-- The latest turn of each party. -/
  turn : Party → ℕ

namespace Dialogue

variable {Sec : Type}

/-! ### Changes of a dialogue -/

/-- The parties begin with the pre-key and with Alice's first key. -/
def start (spk rng : Sec) : Dialogue Sec where
  sec c := if c = 0 then spk else rng
  len _ := 0
  mark _ := 0
  turn
    | .alice => 1
    | .bob => 0

/-- Party `p` sends a message. -/
def send (d : Dialogue Sec) (p : Party) : Dialogue Sec :=
  { d with len := Function.update d.len (d.turn p) (d.len (d.turn p) + 1) }

/-- The receiver makes the keys of turn `c` up to number `t`. -/
def skip (d : Dialogue Sec) (c t : ℕ) : Dialogue Sec :=
  { d with mark := Function.update d.mark c t }

/-- Party `p` begins its next turn, with the secret `x`. -/
def advance (d : Dialogue Sec) (p : Party) (x : Sec) : Dialogue Sec :=
  { d with
    sec := Function.update d.sec (d.turn p + 2) x
    turn := Function.update d.turn p (d.turn p + 2) }

/-- Party `p` makes the remaining keys of the turn it is reading. -/
def finish (d : Dialogue Sec) (p : Party) : Dialogue Sec :=
  match d.turn p with
  | c + 2 => d.skip (c + 1) (d.len (c + 1))
  | _ => d

/-- Message number `n` of a new turn of the other party reaches `p`, which begins its own next turn
with the secret `x`. -/
def reply (d : Dialogue Sec) (p : Party) (x : Sec) (n : ℕ) : Dialogue Sec :=
  ((d.finish p).advance p x).skip (d.turn p + 1) (n + 1)

/-- Message number `n` of turn `c` reaches `p`: a turn that has begun to be read is read on, and a new
one is answered. -/
def receive (d : Dialogue Sec) (p : Party) (x : Sec) (c n : ℕ) : Dialogue Sec :=
  if c < d.turn p then d.skip c (max (d.mark c) (n + 1)) else d.reply p x n

theorem receive_of_lt {d : Dialogue Sec} {p : Party} {c : ℕ} (hc : c < d.turn p) (x : Sec) (n : ℕ) :
    d.receive p x c n = d.skip c (max (d.mark c) (n + 1)) := if_pos hc

theorem receive_of_le {d : Dialogue Sec} {p : Party} {c : ℕ} (hc : d.turn p ≤ c) (x : Sec) (n : ℕ) :
    d.receive p x c n = d.reply p x n := if_neg (Nat.not_lt.2 hc)

theorem len_send (d : Dialogue Sec) (p : Party) (c : ℕ) :
    (d.send p).len c = if c = d.turn p then d.len c + 1 else d.len c := by
  simp only [send, Function.update_apply]
  split
  · next h => rw [h]
  · rfl

theorem mark_skip (d : Dialogue Sec) (c t c' : ℕ) :
    (d.skip c t).mark c' = if c' = c then t else d.mark c' := Function.update_apply ..

theorem skip_mark (d : Dialogue Sec) (c : ℕ) : d.skip c (d.mark c) = d := by
  rw [skip, Function.update_eq_self]

theorem finish_of_turn {d : Dialogue Sec} {p : Party} {c : ℕ} (hc : d.turn p = c + 2) :
    d.finish p = d.skip (c + 1) (d.len (c + 1)) := by
  rw [finish, hc]

theorem finish_of_le {d : Dialogue Sec} {p : Party} (hle : d.turn p ≤ 1) : d.finish p = d := by
  rcases Nat.le_one_iff_eq_zero_or_eq_one.1 hle with hc | hc <;> rw [finish, hc]

/-- Making the remaining keys touches nothing but a mark. -/
theorem finish_fields (d : Dialogue Sec) (p : Party) :
    (d.finish p).sec = d.sec ∧ (d.finish p).len = d.len ∧ (d.finish p).turn = d.turn ∧
      ∀ c, (c + 1 = d.turn p → c = 0) → (d.finish p).mark c = d.mark c := by
  rcases Nat.lt_or_ge 1 (d.turn p) with hlt | hle
  · obtain ⟨c, hc⟩ := Nat.exists_eq_add_of_le' hlt
    rw [finish_of_turn hc]
    refine ⟨rfl, rfl, rfl, fun c' hzero => ?_⟩
    rw [mark_skip, if_neg]
    intro heq
    have hc' := hzero (by omega)
    omega
  · rw [finish_of_le hle]
    exact ⟨rfl, rfl, rfl, fun _ _ => rfl⟩

theorem sec_advance_of_lt {d : Dialogue Sec} {p : Party} {c : ℕ} (x : Sec) (hc : c < d.turn p + 2) :
    (d.advance p x).sec c = d.sec c := Function.update_of_ne (Nat.ne_of_lt hc) ..

theorem sec_advance_self (d : Dialogue Sec) (p : Party) (x : Sec) :
    (d.advance p x).sec (d.turn p + 2) = x := Function.update_self ..

theorem turn_advance_self (d : Dialogue Sec) (p : Party) (x : Sec) :
    (d.advance p x).turn p = d.turn p + 2 := Function.update_self ..

theorem turn_advance_of_ne (d : Dialogue Sec) {p q : Party} (x : Sec) (hq : q ≠ p) :
    (d.advance p x).turn q = d.turn q := Function.update_of_ne hq ..

theorem reply_turn (d : Dialogue Sec) (p : Party) (x : Sec) (n : ℕ) (q : Party) :
    (d.reply p x n).turn q = if q = p then d.turn p + 2 else d.turn q := by
  obtain ⟨-, -, hturn, -⟩ := d.finish_fields p
  have hupdate : (d.reply p x n).turn q =
      Function.update (d.finish p).turn p ((d.finish p).turn p + 2) q := rfl
  rw [hupdate, hturn, Function.update_apply]

theorem reply_len (d : Dialogue Sec) (p : Party) (x : Sec) (n : ℕ) :
    (d.reply p x n).len = d.len := (d.finish_fields p).2.1

theorem reply_mark (d : Dialogue Sec) (p : Party) (x : Sec) (n c : ℕ) :
    (d.reply p x n).mark c = if c = d.turn p + 1 then n + 1 else (d.finish p).mark c :=
  mark_skip ..

/-- An answer touches no mark of the other party. -/
theorem reply_mark_of_ne {d : Dialogue Sec} {p : Party} (x : Sec) (n : ℕ) {c : ℕ}
    (hread : c + 1 = d.turn p → c = 0) (hnew : c ≠ d.turn p + 1) :
    (d.reply p x n).mark c = d.mark c := by
  rw [reply_mark, if_neg hnew]
  exact (d.finish_fields p).2.2.2 c hread

/-- A turn that has begun after an answer is the new one, or had begun before. -/
theorem le_reply_turn {d : Dialogue Sec} {p q : Party} {x : Sec} {n i : ℕ}
    (hother : d.turn p.other = d.turn p + 1) (hi : i ≤ (d.reply p x n).turn q) :
    i = d.turn p + 2 ∨ i ≤ d.turn p.other := by
  rw [reply_turn] at hi
  split at hi
  · omega
  · next hq => exact Or.inr (Party.eq_other_of_ne hq ▸ hi)

theorem reply_sec_self (d : Dialogue Sec) (p : Party) (x : Sec) (n : ℕ) :
    (d.reply p x n).sec (d.turn p + 2) = x := by
  obtain ⟨-, -, hturn, -⟩ := d.finish_fields p
  rw [← hturn]
  exact sec_advance_self (d.finish p) p x

/-- **What holds of every dialogue.** -/
structure Sound (d : Dialogue Sec) : Prop where
  parity : ∀ p, d.turn p % 2 = p.turnParity
  close : ∀ p, d.turn p ≤ d.turn p.other + 1
  start : d.len 0 = 0
  future : ∀ p c, c % 2 = p.turnParity → d.turn p < c → d.len c = 0
  mark_le : ∀ c, d.mark c ≤ d.len c
  unread : ∀ p c, c % 2 = p.other.turnParity → d.turn p ≤ c → d.mark c = 0
  read : ∀ p c, c % 2 = p.other.turnParity → c + 1 < d.turn p → d.mark c = d.len c

theorem sound_start (spk rng : Sec) : (start spk rng).Sound where
  parity p := by cases p <;> rfl
  close p := by cases p <;> simp [Dialogue.start, Party.other]
  start := rfl
  future _ _ _ _ := rfl
  mark_le _ := le_rfl
  unread _ _ _ _ := rfl
  read _ _ _ _ := rfl

variable {d : Dialogue Sec}

/-- A message that has been sent has a turn that has begun. -/
theorem Sound.pos_of_lt (h : d.Sound) {c n : ℕ} (hn : n < d.len c) : 0 < c := by
  rcases Nat.eq_zero_or_pos c with rfl | hc
  · rw [h.start] at hn
    omega
  · exact hc

/-- The turns around the latest turn of a party are those of the other one. -/
theorem Sound.parity_pred (h : d.Sound) {p : Party} {c : ℕ} (hc : c + 1 = d.turn p) :
    c % 2 = p.other.turnParity := (p.turnParity_succ c).1 (hc ▸ h.parity p)

theorem Sound.parity_succ (h : d.Sound) (p : Party) : (d.turn p + 1) % 2 = p.other.turnParity := by
  rw [Party.turnParity_succ, Party.other_other]
  exact h.parity p

theorem Sound.parity_next (h : d.Sound) (p : Party) : (d.turn p + 2) % 2 = p.turnParity := by
  rw [Nat.add_mod_right]
  exact h.parity p

/-- Sending keeps a dialogue sound. -/
theorem Sound.send (h : d.Sound) {p : Party} (hp : 0 < d.turn p) : (d.send p).Sound := by
  refine ⟨h.parity, h.close, ?_, ?_, ?_, h.unread, ?_⟩
  · rw [len_send, if_neg (by omega)]
    exact h.start
  · intro q c hc hlt
    have hne : c ≠ d.turn p := by
      rintro rfl
      obtain rfl := Party.eq_of_turnParity (h.parity p) hc
      exact absurd hlt (lt_irrefl _)
    rw [len_send, if_neg hne]
    exact h.future q c hc hlt
  · intro c
    refine (h.mark_le c).trans ?_
    rw [len_send]
    split
    · exact Nat.le_succ _
    · exact le_rfl
  · intro q c hc (hlt : c + 1 < d.turn q)
    have hne : c ≠ d.turn p := by
      rintro rfl
      have hq := Party.eq_of_turnParity (h.parity p) hc
      have hclose := h.close q
      rw [hq] at hclose
      omega
    rw [len_send, if_neg hne]
    exact h.read q c hc hlt

/-- Making keys of the turn that is being read keeps a dialogue sound. -/
theorem Sound.skip (h : d.Sound) {p : Party} {c t : ℕ} (hc : c + 1 = d.turn p)
    (ht : t ≤ d.len c) : (d.skip c t).Sound := by
  have hpar := h.parity_pred hc
  refine ⟨h.parity, h.close, h.start, h.future, ?_, ?_, ?_⟩
  · intro c'
    rw [mark_skip]
    split
    · next heq => rw [heq]; exact ht
    · exact h.mark_le c'
  · intro q c' hc' (hle : d.turn q ≤ c')
    have hne : c' ≠ c := by
      rintro rfl
      rw [Party.eq_of_turnParity_other hpar hc'] at hle
      omega
    rw [mark_skip, if_neg hne]
    exact h.unread q c' hc' hle
  · intro q c' hc' (hlt : c' + 1 < d.turn q)
    have hne : c' ≠ c := by
      rintro rfl
      rw [Party.eq_of_turnParity_other hpar hc'] at hlt
      omega
    rw [mark_skip, if_neg hne]
    exact h.read q c' hc' hlt

/-- Beginning a turn keeps a dialogue sound, once the turn before has been read. -/
theorem Sound.advance (h : d.Sound) {p : Party} (x : Sec) (hother : d.turn p.other = d.turn p + 1)
    (hread : ∀ c, c + 1 = d.turn p → d.mark c = d.len c) : (d.advance p x).Sound := by
  have hp := d.turn_advance_self p x
  have hq : ∀ q, q ≠ p → (d.advance p x).turn q = d.turn q := fun q hq => d.turn_advance_of_ne x hq
  have hle : ∀ q, d.turn q ≤ (d.advance p x).turn q := by
    intro q
    by_cases hqp : q = p
    · rw [hqp, hp]
      omega
    · rw [hq q hqp]
  refine ⟨?_, ?_, h.start, fun q c hc hlt => h.future q c hc ((hle q).trans_lt hlt), h.mark_le,
    fun q c hc hlt => h.unread q c hc ((hle q).trans hlt), ?_⟩
  · intro q
    have hpar := h.parity q
    by_cases hqp : q = p
    · rw [hqp, hp]
      rw [hqp] at hpar
      omega
    · rw [hq q hqp]
      exact hpar
  · intro q
    by_cases hqp : q = p
    · rw [hqp, hp, hq _ p.other_ne]
      omega
    · obtain rfl := Party.eq_other_of_ne hqp
      rw [Party.other_other, hp, hq _ hqp]
      omega
  · intro q c hc hlt
    by_cases hqp : q = p
    · subst hqp
      rw [hp] at hlt
      have hne : c ≠ d.turn q := by
        rintro rfl
        exact (q.turnParity_other _).1 hc (h.parity q)
      rcases Nat.lt_trichotomy (c + 1) (d.turn q) with hlt' | heq | hgt
      · exact h.read q c hc hlt'
      · exact hread c heq
      · omega
    · rw [hq q hqp] at hlt
      exact h.read q c hc hlt

/-- Making the remaining keys of a turn keeps a dialogue sound, and reads the turn. -/
theorem Sound.finish (h : d.Sound) (p : Party) :
    (d.finish p).Sound ∧ ∀ c, c + 1 = d.turn p → (d.finish p).mark c = d.len c := by
  rcases Nat.lt_or_ge 1 (d.turn p) with hlt | hle
  · obtain ⟨c, hc⟩ := Nat.exists_eq_add_of_le' hlt
    rw [finish_of_turn hc]
    refine ⟨h.skip hc.symm le_rfl, fun c' hc' => ?_⟩
    obtain rfl : c' = c + 1 := by omega
    rw [mark_skip, if_pos rfl]
  · rw [finish_of_le hle]
    refine ⟨h, fun c hc => ?_⟩
    obtain rfl : c = 0 := by omega
    have hzero := h.mark_le 0
    rw [h.start] at hzero ⊢
    omega

/-- Answering keeps a dialogue sound. -/
theorem Sound.reply (h : d.Sound) {p : Party} (x : Sec) {n : ℕ}
    (hother : d.turn p.other = d.turn p + 1) (hn : n < d.len (d.turn p + 1)) :
    (d.reply p x n).Sound := by
  obtain ⟨-, hlen, hturn, -⟩ := d.finish_fields p
  obtain ⟨hsound, hread⟩ := h.finish p
  have hadvance : ((d.finish p).advance p x).Sound := by
    refine hsound.advance x (by rw [hturn, hother]) fun c hc => ?_
    rw [hlen]
    exact hread c (hturn ▸ hc)
  refine hadvance.skip (p := p) ?_ ?_
  · rw [turn_advance_self, hturn]
  · exact hlen.symm ▸ hn

/-! ### What the changes leave as it was -/

/-- **A later state of a dialogue**: the turns that have begun keep their secrets, and those before
them their lengths. -/
structure Continues (d d' : Dialogue Sec) : Prop where
  turn : ∀ p, d.turn p ≤ d'.turn p
  len : ∀ c, d.len c ≤ d'.len c
  sec : ∀ p c, c ≤ d.turn p → d'.sec c = d.sec c
  prev : ∀ p c, c ≤ d.turn p → d'.len (c - 2) = d.len (c - 2)

theorem Continues.trans {d' d'' : Dialogue Sec} (h : d.Continues d') (h' : d'.Continues d'') :
    d.Continues d'' where
  turn p := (h.turn p).trans (h'.turn p)
  len c := (h.len c).trans (h'.len c)
  sec p c hc := (h'.sec p c (hc.trans (h.turn p))).trans (h.sec p c hc)
  prev p c hc := (h'.prev p c (hc.trans (h.turn p))).trans (h.prev p c hc)

theorem continues_send (h : d.Sound) {p : Party} (hp : 0 < d.turn p) :
    d.Continues (d.send p) where
  turn _ := le_rfl
  len c := by
    rw [len_send]
    split
    · exact Nat.le_succ _
    · exact le_rfl
  sec _ _ _ := rfl
  prev q c hc := by
    rw [len_send, if_neg]
    have hclose := h.close q
    by_cases hq : q = p
    · rw [hq] at hc
      omega
    · rw [Party.eq_other_of_ne hq, Party.other_other] at hclose
      rw [Party.eq_other_of_ne hq] at hc
      omega

theorem continues_skip (d : Dialogue Sec) (c t : ℕ) : d.Continues (d.skip c t) where
  turn _ := le_rfl
  len _ := le_rfl
  sec _ _ _ := rfl
  prev _ _ _ := rfl

theorem continues_advance (h : d.Sound) (p : Party) (x : Sec) :
    d.Continues (d.advance p x) where
  turn q := by
    by_cases hq : q = p
    · rw [hq, turn_advance_self]
      exact Nat.le_add_right _ _
    · rw [turn_advance_of_ne d x hq]
  len _ := le_rfl
  sec q c hc := by
    refine sec_advance_of_lt x ?_
    have hclose := h.close q
    by_cases hq : q = p
    · rw [hq] at hc
      omega
    · rw [Party.eq_other_of_ne hq, Party.other_other] at hclose
      rw [Party.eq_other_of_ne hq] at hc
      omega
  prev _ _ _ := rfl

theorem continues_reply (h : d.Sound) (p : Party) (x : Sec) (n : ℕ) :
    d.Continues (d.reply p x n) := by
  have hfinish : d.Continues (d.finish p) := by
    rw [finish]
    split
    · exact continues_skip _ _ _
    · exact ⟨fun _ => le_rfl, fun _ => le_rfl, fun _ _ _ => rfl, fun _ _ _ => rfl⟩
  exact (hfinish.trans (continues_advance (h.finish p).1 p x)).trans (continues_skip _ _ _)

theorem continues_receive (h : d.Sound) (p : Party) (x : Sec) (c n : ℕ) :
    d.Continues (d.receive p x c n) := by
  unfold receive
  split
  · exact continues_skip _ _ _
  · exact continues_reply h p x n

theorem receive_len (d : Dialogue Sec) (p : Party) (x : Sec) (c n : ℕ) :
    (d.receive p x c n).len = d.len := by
  unfold receive
  split
  · rfl
  · exact d.reply_len p x n

end Dialogue

end Sanctum
