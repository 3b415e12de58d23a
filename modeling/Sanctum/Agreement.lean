/-
Injective agreement under an active network.

The attacker sees every header and every ciphertext, builds its own from what it knows, and feeds
them to either party in any order.  It cannot derive a key that descends from the shared secret of
the session, so a ciphertext that opens under such a key is one that some party has made; it was the
other party, because the keys a party sends under belong to its own turns; and since no party takes
a key twice, different messages that are accepted come from different messages sent.

Main definitions:

* `Sanctum.Net.attackerKnows`, `Sanctum.Net.Active` — what the attacker knows, and the inputs it
  can build;
* `Sanctum.Net.Agreed` — the records of a run agree.

Main results:

* `Sanctum.Net.not_derivable_session_key` — the keys of the session are secret;
* `Sanctum.Net.injective_agreement` — **the accepted messages of one party map injectively to
  earlier messages of the other**, with the same ciphertext and plaintext.
-/

import Sanctum.KeyUse

set_option relaxedAutoImplicit false
set_option autoImplicit false

namespace Sanctum

open SymKey

variable {Sec Grp Plain : Type} [DecidableEq Grp]
variable (pub : Sec → Grp) (dh : Sec → Grp → Grp)

namespace Net

/-! ### The attacker -/

/-- **What the attacker knows**: the ciphertexts sent so far, and every group element, every
plaintext, every random key of its own and, which is more than an attacker on the network has, every
Diffie–Hellman secret. -/
def attackerKnows (w : SymNet Sec Grp Plain) : Set (Msg Sec Grp Plain) :=
  {msg | match msg with
    | .cipher c => ∃ p k h m, .encrypted p k h c m ∈ w.log
    | .key k => ∃ n, k = .atom n
    | _ => True}

/-- The inputs the attacker can build. -/
def Active : Inputs Sec Grp (SymKey Grp) Plain (SymCipher Grp Plain) := fun w _ h c _ =>
  Derivable pub dh (attackerKnows w) (.grp h.dhPublic) ∧
    Derivable pub dh (attackerKnows w) (.cipher c)

variable {pub dh}

omit [DecidableEq Grp] in
/-- **The keys of the session are secret.** -/
theorem not_derivable_session_key (w : SymNet Sec Grp Plain) {k : SymKey Grp}
    (hk : forest.Anc .secret k) : ¬ Derivable pub dh (attackerKnows w) (.key k) := by
  intro hder
  obtain ⟨k₀, hanc, ⟨n, rfl⟩ | ⟨d, salt, info, block, rfl⟩⟩ := hder.key_anc
  · exact absurd (Forest.Anc.root_unique rfl rfl hk hanc) (by simp)
  · exact absurd (Forest.Anc.root_unique rfl rfl hk hanc) (by simp)

/-! ### The records of a run -/

/-- **The records of a run agree**: a ciphertext that was sent is sealed under its key, and a
ciphertext that was accepted was sent before by the other party, under the same key and with the
same plaintext. -/
structure Agreed (w : SymNet Sec Grp Plain) : Prop where
  shape : ∀ p k h c m, .encrypted p k h c m ∈ w.log →
    ∃ nonce, c = .sealed k nonce [] m
  origin : ∀ (i : ℕ) p k h c m, w.log[i]? = some (Event.decrypted p k h c m) →
    ∃ j < i, ∃ h', w.log[j]? = some (Event.encrypted p.other k h' c m)

omit [DecidableEq Grp] in
/-- A record that is no acceptance, or one whose origin is in the log. -/
theorem Agreed.append {w w' : SymNet Sec Grp Plain} (h : Agreed w)
    {e : Event Grp (SymKey Grp) Plain (SymCipher Grp Plain)} (hlog : w'.log = w.log ++ [e])
    (hshape : ∀ p k hd c m, e = .encrypted p k hd c m →
      ∃ nonce, c = .sealed k nonce [] m)
    (horigin : ∀ p k hd c m, e = .decrypted p k hd c m →
      ∃ h', .encrypted p.other k h' c m ∈ w.log) : Agreed w' := by
  refine ⟨?_, ?_⟩
  · rw [hlog]
    intro p k hd c m he
    rcases List.mem_append.1 he with he | he
    · exact h.shape p k hd c m he
    · exact hshape p k hd c m (List.mem_singleton.1 he).symm
  · rw [hlog]
    intro i p k hd c m hi
    rcases Nat.lt_or_ge i w.log.length with hlt | hge
    · rw [List.getElem?_append_left hlt] at hi
      obtain ⟨j, hj, h', hsent⟩ := h.origin i p k hd c m hi
      exact ⟨j, hj, h', by rw [List.getElem?_append_left (hj.trans hlt), hsent]⟩
    · -- the new record is the last one
      rw [List.getElem?_append_right hge, List.getElem?_singleton] at hi
      split at hi
      · obtain ⟨h', hmem⟩ := horigin p k hd c m (Option.some_inj.1 hi)
        obtain ⟨j, hj⟩ := List.getElem?_of_mem hmem
        have hjlt : j < w.log.length := (List.getElem?_eq_some_iff.1 hj).1
        exact ⟨j, hjlt.trans_le hge, h', by rw [List.getElem?_append_left hjlt, hj]⟩
      · exact absurd hi (by simp)

/-- Under an active network, what a party accepts was sent by the other one. -/
theorem Agreed.decrypt {w : SymNet Sec Grp Plain} (h : Agreed w)
    (hkeys : w.KeysKept) (p : Party) (hd : Header Grp) (c : SymCipher Grp Plain) (rng : Sec)
    (hin : Active pub dh w p hd c rng) :
    Agreed (w.decrypt (symbolic Plain pub dh) p hd c rng) := by
  have hnext : (w.decrypt (symbolic Plain pub dh) p hd c rng).KeysKept := hkeys.decrypt p hd c rng
  rcases (decrypt_cases (P := symbolic Plain pub dh) w p hd c rng).2 with
    ⟨k, m, -, hopen, hlog⟩ | hlog
  · refine h.append hlog (by rintro _ _ _ _ _ ⟨⟩) ?_
    rintro _ _ _ _ _ ⟨⟩
    have hc := (symbolic_open_iff pub dh).1 hopen
    have hmem : .decrypted p k hd c m ∈ (w.decrypt (symbolic Plain pub dh) p hd c rng).log := by
      rw [hlog]
      simp
    -- the key descends from the shared secret, so the attacker has not made the ciphertext
    have hsecret : forest.Anc .secret k := by
      obtain ⟨i, hi⟩ := List.getElem?_of_mem (mem_usedKeys_of_decrypted hmem)
      exact (hnext.frontier p).below (.used i) k hi
    obtain ⟨q, k', h', m', hsent⟩ : .cipher c ∈ attackerKnows w := by
      have hder := hin.2
      rw [hc] at hder ⊢
      exact hder.sealed_cases.resolve_right (not_derivable_session_key w hsecret)
    obtain ⟨nonce, hshape⟩ := h.shape q k' h' c m' hsent
    obtain ⟨rfl, -, -, rfl⟩ := SymCipher.sealed.inj (hshape.symm.trans hc)
    -- the party that has made it is the other one, by the turn of the key
    have hturn : (turn k' + 1) % 2 = p.turnParity := hnext.events _ hmem
    have hturn' : turn k' % 2 = q.turnParity := hkeys.events _ hsent
    obtain rfl : q = p.other := by
      refine Party.eq_other_of_ne ?_
      rintro rfl
      omega
    exact ⟨h', hsent⟩
  · exact h.append hlog (by rintro _ _ _ _ _ ⟨⟩) (by rintro _ _ _ _ _ ⟨⟩)

/-- **The records of a run agree**, under an active network. -/
theorem Reaches.agreed {spk rng : Sec} {w : SymNet Sec Grp Plain}
    (hw : Reaches (symbolic Plain pub dh) (Active pub dh) .secret spk rng w) :
    Agreed w := by
  refine (hw.induction (motive := fun w => w.KeysKept ∧ Agreed w)
    ?_ ?_ ?_).2
  · intro w hw
    refine ⟨keysKept_start hw, ?_, ?_⟩
    · simp [((start_eq_ok_iff _).1 hw).2.2.2]
    · simp [((start_eq_ok_iff _).1 hw).2.2.2]
  · rintro w p m ⟨hkeys, h⟩
    refine ⟨hkeys.encrypt p m, ?_⟩
    cases hck : (w.peer p).chainKeySend with
    | none => rwa [encrypt_of_none hck]
    | some ck =>
        rw [encrypt_symbolic w p m hck]
        exact h.append rfl (by rintro _ _ _ _ _ ⟨⟩; exact ⟨_, rfl⟩) (by rintro _ _ _ _ _ ⟨⟩)
  · rintro w p hd c r hin ⟨hkeys, h⟩
    exact ⟨hkeys.decrypt p hd c r, h.decrypt hkeys p hd c r hin⟩

omit [DecidableEq Grp] in
/-- A key that a party uses once stands in one record of that party. -/
theorem index_unique {p : Party} {log : List (Event Grp (SymKey Grp) Plain (SymCipher Grp Plain))}
    (h : (usedKeys p log).Nodup) {i j : ℕ}
    {e e' : Event Grp (SymKey Grp) Plain (SymCipher Grp Plain)} {k : SymKey Grp}
    (hi : log[i]? = some e) (hj : log[j]? = some e') (he : e.keyOf p = some k)
    (he' : e'.keyOf p = some k) : i = j := by
  obtain ⟨hilt, rfl⟩ := List.getElem?_eq_some_iff.1 hi
  obtain ⟨hjlt, rfl⟩ := List.getElem?_eq_some_iff.1 hj
  have hpair := List.pairwise_iff_getElem.1 (List.pairwise_filterMap.1 h)
  rcases Nat.lt_trichotomy i j with hlt | heq | hgt
  · exact absurd rfl (hpair i j hilt hjlt hlt k he k he')
  · exact heq
  · exact absurd rfl (hpair j i hjlt hilt hgt k he' k he)

/-- **Injective agreement.**  In every run in which an active attacker feeds the parties whatever it
can build, the successful `decrypt` calls of one party map injectively to earlier `encrypt` calls of
the other party with the same ciphertext and the same plaintext. -/
theorem injective_agreement {spk rng : Sec} {w : SymNet Sec Grp Plain}
    (hw : Reaches (symbolic Plain pub dh) (Active pub dh) .secret spk rng w) (p : Party) :
    ∃ f : ℕ → ℕ,
      Set.InjOn f {i : ℕ | ∃ k h c m, w.log[i]? = some (Event.decrypted p k h c m)} ∧
      ∀ (i : ℕ) k h c m, w.log[i]? = some (Event.decrypted p k h c m) →
        f i < i ∧ ∃ k' h', w.log[f i]? = some (Event.encrypted p.other k' h' c m) := by
  have hagreed := hw.agreed
  have hex : ∀ i : ℕ, ∃ j : ℕ, ∀ k h c m, w.log[i]? = some (Event.decrypted p k h c m) →
      j < i ∧ ∃ h', w.log[j]? = some (Event.encrypted p.other k h' c m) := by
    intro i
    by_cases hi : ∃ k h c m, w.log[i]? = some (Event.decrypted p k h c m)
    · obtain ⟨k, h, c, m, hi⟩ := hi
      obtain ⟨j, hj, h', hsent⟩ := hagreed.origin i p k h c m hi
      refine ⟨j, fun k₁ h₁ c₁ m₁ hi₁ => ?_⟩
      obtain ⟨-, rfl, rfl, rfl, rfl⟩ := Event.decrypted.inj (Option.some_inj.1 (hi.symm.trans hi₁))
      exact ⟨hj, h', hsent⟩
    · exact ⟨0, fun k h c m hi₁ => absurd ⟨k, h, c, m, hi₁⟩ hi⟩
  choose f hf using hex
  refine ⟨f, ?_, ?_⟩
  · rintro i ⟨k, h, c, m, hi⟩ j ⟨k₁, h₁, c₁, m₁, hj⟩ hij
    -- both were made by one call, hence under one key, which the party has used only once
    obtain ⟨-, h', hsent⟩ := hf i k h c m hi
    obtain ⟨-, h₁', hsent₁⟩ := hf j k₁ h₁ c₁ m₁ hj
    rw [hij] at hsent
    obtain ⟨-, rfl, -, -, -⟩ :=
      Event.encrypted.inj (Option.some_inj.1 (hsent.symm.trans hsent₁))
    exact index_unique (nodup_of_frontier (hw.keysKept.frontier p)) hi hj (if_pos rfl) (if_pos rfl)
  · intro i k h c m hi
    obtain ⟨hlt, h', hsent⟩ := hf i k h c m hi
    exact ⟨hlt, k, h', hsent⟩

end Net

/-- In the short run, Bob's acceptance agrees with Alice's message. -/
theorem exchange_agreement :
    ∃ f : ℕ → ℕ,
      Set.InjOn f {i : ℕ | ∃ k h c m,
        Exchange.answered.log[i]? = some (Event.decrypted .bob k h c m)} ∧
      ∀ (i : ℕ) k h c m, Exchange.answered.log[i]? = some (Event.decrypted .bob k h c m) →
        f i < i ∧ ∃ k' h', Exchange.answered.log[f i]? = some (Event.encrypted .alice k' h' c m) := by
  have hreach : Net.Reaches (expSymbolic ℕ) (Net.Active expPublic expDh) .secret 0 1
      Exchange.answered :=
    Exchange.reaches ⟨.known trivial,
      .known ⟨.alice, _, _, _, List.mem_of_getElem? (i := 0) rfl⟩⟩
  exact Net.injective_agreement hreach .bob

end Sanctum
