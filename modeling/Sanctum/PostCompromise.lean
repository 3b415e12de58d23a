/-
Recovery from a compromise.

When the whole state of a party leaks, the receiving half of its next DH ratchet step is still
computable from the leak.  The second half mixes in a Diffie–Hellman value of two secrets the
attacker does not have, the fresh one and the peer's, so the root key and the sending chain key it
installs are out of reach, and so is everything derived from them later.  In the group of exponents
the value is recognised by what it is made of: whatever the attacker can build contains at most one
secret that is unknown to it.

Main definitions:

* `Sanctum.RatchetState.Descends` — a later state of a ratchet derives from an earlier one;
* `Sanctum.Net.Honest`, `Sanctum.Net.observed` — honest delivery, and what a passive attacker sees.

Main results:

* `Sanctum.not_derivable_below` — the secrecy argument, for any set of known messages;
* `Sanctum.Net.post_compromise` — **after the DH ratchet step of a compromised party, the keys it
  installs and all keys derived from them are secret again**.
-/

import Sanctum.ForwardSecrecy

set_option relaxedAutoImplicit false
set_option autoImplicit false

namespace Sanctum

open SymKey Primitives

/-! ### The secrecy argument -/

/-- **Keys below a root chain step stay secret** when its Diffie–Hellman value contains two secrets
that are unknown, no known element contains more than one, and no known key is below the step. -/
theorem not_derivable_below {Plain : Type} {unknown : ℕ → Prop} [DecidablePred unknown]
    {known : Set (Msg ℕ (Multiset ℕ) Plain)} {mid : SymKey (Multiset ℕ)} {d : Multiset ℕ}
    (hd : 2 ≤ (d.filter unknown).card)
    (hsec : ∀ x, .sec x ∈ known → ¬ unknown x)
    (hgrp : ∀ e, .grp e ∈ known → (e.filter unknown).card ≤ 1)
    (hkey : ∀ k, .key k ∈ known →
      ∀ block, ¬ forest.Anc (.expand mid (some d) "ratchet_root" block) k)
    {k : SymKey (Multiset ℕ)} {block : ℕ}
    (hk : forest.Anc (.expand mid (some d) "ratchet_root" block) k) :
    ¬ Derivable expPublic expDh known (.key k) := by
  -- what is derivable: known secrets, elements with at most one unknown, keys not below the step
  let motive : Msg ℕ (Multiset ℕ) Plain → Prop := fun msg =>
    match msg with
    | .sec x => ¬ unknown x
    | .grp e => (e.filter unknown).card ≤ 1
    | .key k => ∀ block, ¬ forest.Anc (.expand mid (some d) "ratchet_root" block) k
    | _ => True
  suffices haux : ∀ msg, Derivable expPublic expDh known msg → motive msg from
    fun hder => haux _ hder block hk
  intro msg hder
  induction hder with
  | @known msg hmem =>
      cases msg with
      | sec x => exact hsec x hmem
      | grp e => exact hgrp e hmem
      | key k => exact hkey k hmem
      | cipher c => trivial
      | data m => trivial
  | @publicKey x _ ih =>
      have hx : ¬ unknown x := ih
      change ((expPublic x).filter unknown).card ≤ 1
      rw [expPublic, Multiset.filter_singleton, if_neg hx]
      exact Nat.zero_le 1
  | @diffieHellman x e _ _ ihx ihe =>
      have hx : ¬ unknown x := ihx
      change ((expDh x e).filter unknown).card ≤ 1
      rw [expDh, Multiset.filter_cons_of_neg _ hx]
      exact ihe
  | @expand k₀ salt info b _ _ ihk ihsalt =>
      intro block hanc
      rcases (Forest.anc_child_iff (parent_expand k₀ salt info b)).1 hanc with heq | hanc
      · -- the step itself would need its Diffie–Hellman value
        obtain ⟨-, hsalt, -, -⟩ := SymKey.expand.inj heq
        have hle : (d.filter unknown).card ≤ 1 := ihsalt d (by rw [← hsalt]; rfl)
        omega
      · exact ihk block hanc
  | agreed info b _ _ _ _ =>
      intro block hanc
      exact absurd ((Forest.anc_root_iff rfl).1 hanc) (by simp)
  | seal' _ _ _ _ _ _ => trivial
  | open' _ _ _ _ => trivial
  | junk n => trivial

/-! ### Later states -/

variable {Sec Grp Plain : Type}

/-- **A later state of a ratchet**: its root key descends from the earlier root key, and its sending
chain key from the earlier one or from the earlier root key. -/
structure RatchetState.Descends (s t : RatchetState Sec Grp (SymKey Grp)) : Prop where
  root : forest.Anc s.rootKey t.rootKey
  send : ∀ ck, t.chainKeySend = some ck →
    (∃ ck₀, s.chainKeySend = some ck₀ ∧ forest.Anc ck₀ ck) ∨ forest.Anc s.rootKey ck

theorem RatchetState.Descends.refl (s : RatchetState Sec Grp (SymKey Grp)) : s.Descends s :=
  ⟨Forest.Anc.refl _, fun ck hck => Or.inl ⟨ck, hck, Forest.Anc.refl ck⟩⟩

theorem RatchetState.Descends.trans {s t u : RatchetState Sec Grp (SymKey Grp)}
    (h₁ : s.Descends t) (h₂ : t.Descends u) : s.Descends u := by
  refine ⟨h₁.root.trans h₂.root, fun ck hck => ?_⟩
  rcases h₂.send ck hck with ⟨ck₁, hck₁, hanc⟩ | hanc
  · rcases h₁.send ck₁ hck₁ with ⟨ck₀, hck₀, hanc₀⟩ | hanc₀
    · exact Or.inl ⟨ck₀, hck₀, hanc₀.trans hanc⟩
    · exact Or.inr (hanc₀.trans hanc)
  · exact Or.inr (h₁.root.trans hanc)

variable [DecidableEq Grp] {pub : Sec → Grp} {dh : Sec → Grp → Grp}
variable {s : RatchetState Sec Grp (SymKey Grp)}

theorem descends_stepSend {ck : SymKey Grp} (hck : s.chainKeySend = some ck) :
    s.Descends ((symbolic Plain pub dh).stepSend s ck) := by
  refine ⟨Forest.Anc.refl _, ?_⟩
  rintro _ ⟨⟩
  exact Or.inl ⟨ck, hck, Forest.anc_child (parent_expand ck none "chain_next" 0)
    (Forest.Anc.refl ck)⟩

theorem descends_ratcheted (e : Grp) (rng : Sec) :
    s.Descends ((symbolic Plain pub dh).ratcheted s e rng) := by
  have hmid : forest.Anc s.rootKey
      ((symbolic Plain pub dh).rootStep s.rootKey (dh s.dhSelfSecret e)) :=
    Forest.anc_child (parent_expand ..) (Forest.Anc.refl _)
  refine ⟨Forest.anc_child (parent_expand ..) hmid, ?_⟩
  rintro _ ⟨⟩
  exact Or.inr (Forest.anc_child (parent_expand ..) hmid)

theorem descends_takeKey (hd : Header Grp) (rng : Sec) :
    s.Descends ((symbolic Plain pub dh).takeKey s hd rng).2 := by
  refine ((symbolic Plain pub dh).takeKey_moves s [] hd rng).induction
    (motive := fun t _ => s.Descends t) ?_ (.refl s)
  intro t used t' used' hmove h
  refine h.trans ?_
  cases hmove with
  | ratchet e rng => exact descends_ratcheted e rng
  | _ => exact ⟨Forest.Anc.refl _, fun ck hck => Or.inl ⟨ck, hck, Forest.Anc.refl ck⟩⟩

/-! ### The root key is the latest -/

/-- No key of a state is of a later turn than its root key. -/
structure RatchetState.RootLatest (s : RatchetState Sec Grp (SymKey Grp)) : Prop where
  send : ∀ ck, s.chainKeySend = some ck → turn ck ≤ turn s.rootKey
  recv : ∀ ck, s.chainKeyRecv = some ck → turn ck ≤ turn s.rootKey
  skipped : ∀ entry k, s.skippedKeys.lookup entry = some k → turn k ≤ turn s.rootKey

theorem rootLatest_stepSend {ck : SymKey Grp} (hck : s.chainKeySend = some ck)
    (h : s.RootLatest) : ((symbolic Plain pub dh).stepSend s ck).RootLatest := by
  refine ⟨?_, h.recv, h.skipped⟩
  rintro _ ⟨⟩
  exact h.send ck hck

theorem rootLatest_takeKey (hd : Header Grp) (rng : Sec) (h : s.RootLatest) :
    ((symbolic Plain pub dh).takeKey s hd rng).2.RootLatest := by
  refine ((symbolic Plain pub dh).takeKey_moves s [] hd rng).induction
    (motive := fun t _ => t.RootLatest) ?_ h
  intro t used t' used' hmove ht
  cases hmove with
  | @store _ _ ck remote hck hrem =>
      refine ⟨ht.send, ?_, ?_⟩
      · rintro _ ⟨⟩
        exact ht.recv ck hck
      · intro entry k hk
        rw [lookup_insert_ite] at hk
        split at hk
        · cases hk
          exact ht.recv ck hck
        · exact ht.skipped entry k hk
  | ratchet e rng =>
      refine ⟨?_, ?_, ?_⟩
      · rintro _ ⟨⟩
        exact le_rfl
      · rintro _ ⟨⟩
        simp only [ratcheted, turn_rootStep, turn_chainStep]
        omega
      · intro entry k hk
        have hle := ht.skipped entry k hk
        simp only [ratcheted, turn_rootStep]
        omega
  | @recv _ _ ck hck =>
      refine ⟨ht.send, ?_, ht.skipped⟩
      rintro _ ⟨⟩
      exact ht.recv ck hck
  | @stored _ _ hd k hk =>
      refine ⟨ht.send, ht.recv, fun entry k' hk' => ?_⟩
      rw [RatchetState.forget, lookup_erase_ite, Option.ite_none_left_eq_some] at hk'
      exact ht.skipped entry k' hk'.2

namespace Net

/-- Every state of a run has a latest root key. -/
theorem Reaches.rootLatest {allowed : Inputs Sec Grp (SymKey Grp) Plain (SymCipher Grp Plain)}
    {spk rng : Sec} {w : SymNet Sec Grp Plain}
    (hw : Reaches (symbolic Plain pub dh) allowed .secret spk rng w) (p : Party) :
    (w.peer p).RootLatest := by
  refine hw.induction (motive := fun w => ∀ p, (w.peer p).RootLatest) ?_ ?_ ?_ p
  · intro w hw p
    obtain ⟨ha, hb, -, -⟩ := (start_eq_ok_iff _).1 hw
    cases p with
    | alice =>
        rw [ha]
        refine ⟨?_, nofun, nofun⟩
        rintro _ ⟨⟩
        exact le_rfl
    | bob =>
        rw [hb]
        exact ⟨nofun, nofun, nofun⟩
  · intro w p m h
    cases hck : (w.peer p).chainKeySend with
    | none => rwa [encrypt_of_none hck]
    | some ck =>
        rw [encrypt_symbolic w p m hck]
        exact forall_update_peer (motive := fun _ t => t.RootLatest)
          (rootLatest_stepSend hck (h p)) fun q _ => h q
  · intro w p hd c r _ h
    rw [(decrypt_cases (P := symbolic Plain pub dh) w p hd c r).1]
    exact forall_update_peer (motive := fun _ t => t.RootLatest)
      (rootLatest_takeKey hd r (h p)) fun q _ => h q

/-! ### Later states of a run -/

/-- What a run looks like some steps later, seen from one party: its ratchet descends from the
earlier one, the generated keys are still there, and the messages it has sent in between are under
keys of the earlier sending chain or below the earlier root key. -/
structure Later (p : Party) (w w' : SymNet Sec Grp Plain) : Prop where
  descends : (w.peer p).Descends (w'.peer p)
  generated : ∀ x ∈ w.generated, x ∈ w'.generated
  log : ∃ l, w'.log = w.log ++ l ∧ ∀ k h c m, .encrypted p k h c m ∈ l →
    (∃ ck, (w.peer p).chainKeySend = some ck ∧ forest.Anc ck k) ∨ forest.Anc (w.peer p).rootKey k

omit [DecidableEq Grp] in
theorem Later.refl (p : Party) (w : SymNet Sec Grp Plain) : Later p w w :=
  ⟨.refl _, fun _ hx => hx, [], (List.append_nil _).symm, by simp⟩

/-- One more step. -/
theorem Later.step {allowed : Inputs Sec Grp (SymKey Grp) Plain (SymCipher Grp Plain)} {p : Party}
    {w w₁ w₂ : SymNet Sec Grp Plain} (h : Later p w w₁)
    (hstep : Step (symbolic Plain pub dh) allowed w₁ w₂) : Later p w w₂ := by
  obtain ⟨l, hl, hsent⟩ := h.log
  cases hstep with
  | encrypt q m =>
      cases hck : (w₁.peer q).chainKeySend with
      | none => rwa [encrypt_of_none hck]
      | some ck =>
          rw [encrypt_symbolic w₁ q m hck]
          refine ⟨?_, h.generated, l ++ [_],
            (congrArg (· ++ _) hl).trans (List.append_assoc ..), ?_⟩
          · by_cases hp : p = q
            · subst hp
              simp only [Function.update_self]
              exact h.descends.trans (descends_stepSend hck)
            · simp only [Function.update_of_ne hp]
              exact h.descends
          · intro k hd c m' he
            rcases List.mem_append.1 he with he | he
            · exact hsent k hd c m' he
            · cases List.mem_singleton.1 he
              -- the key of the message is derived from the sending chain key
              have hkey : forest.Anc ck ((symbolic Plain pub dh).msgKey ck) :=
                Forest.anc_child (parent_expand ck none "message_key" 0) (Forest.Anc.refl ck)
              rcases h.descends.send ck hck with ⟨ck₀, hck₀, hanc⟩ | hanc
              · exact Or.inl ⟨ck₀, hck₀, hanc.trans hkey⟩
              · exact Or.inr (hanc.trans hkey)
  | decrypt q hd c r _ =>
      obtain ⟨hpeer, -⟩ := decrypt_cases (P := symbolic Plain pub dh) w₁ q hd c r
      refine ⟨?_, ?_, ?_⟩
      · rw [hpeer]
        by_cases hp : p = q
        · subst hp
          rw [Function.update_self]
          exact h.descends.trans (descends_takeKey hd r)
        · rw [Function.update_of_ne hp]
          exact h.descends
      · intro x hx
        simp only [Net.decrypt]
        split
        · exact List.mem_cons_of_mem _ (h.generated x hx)
        · exact h.generated x hx
      · obtain ⟨e, hlog, hne⟩ := decrypt_log (symbolic Plain pub dh) w₁ q hd c r
        refine ⟨l ++ [e], by rw [hlog, hl, List.append_assoc], ?_⟩
        intro k' hd' c' m' he
        rcases List.mem_append.1 he with he | he
        · exact hsent k' hd' c' m' he
        · exact absurd (List.mem_singleton.1 he).symm (hne _ _ _ _ _)

theorem later_of_run {allowed : Inputs Sec Grp (SymKey Grp) Plain (SymCipher Grp Plain)}
    (p : Party) {w w' : SymNet Sec Grp Plain}
    (h : Relation.ReflTransGen (Step (symbolic Plain pub dh) allowed) w w') : Later p w w' := by
  induction h with
  | refl => exact Later.refl p w
  | tail _ hstep ih => exact ih.step hstep

/-! ### The theorem -/

/-- **Honest delivery**: a party is handed messages that the other one has sent, in any order and
any number of times, and draws fresh ratchet keys. -/
def Honest (Plain : Type) :
    Inputs ℕ (Multiset ℕ) (SymKey (Multiset ℕ)) Plain (SymCipher (Multiset ℕ) Plain) :=
  fun w p h c rng =>
    (∃ k m, .encrypted p.other k h c m ∈ w.log) ∧ FreshKeys (expSymbolic Plain) w p h c rng

/-- **What a passive attacker sees**: all ratchet public keys, and with them all headers, and all
ciphertexts.  It also has the plaintexts, random keys, and secrets of its own, which are not those
of the parties. -/
def observed {Plain : Type} (w : SymNet ℕ (Multiset ℕ) Plain) : Set (Msg ℕ (Multiset ℕ) Plain) :=
  {msg | match msg with
    | .sec x => ∀ p, (p, expPublic x) ∉ w.generated
    | .grp e => ∃ p, (p, e) ∈ w.generated
    | .key k => ∃ n, k = .atom n
    | .cipher c => ∃ p k h m, .encrypted p k h c m ∈ w.log
    | .data _ => True}

/-- The Diffie–Hellman value of a fresh secret and the peer's key contains two secrets that neither
the leak nor the traffic gives away. -/
theorem card_unknown {Plain : Type} {w₀ w₁ w : SymNet ℕ (Multiset ℕ) Plain} {p : Party}
    {e : Multiset ℕ} {fresh : ℕ} (h₀ : w₀.OwnKeys (expSymbolic Plain))
    (h₁ : w₁.OwnKeys (expSymbolic Plain))
    (hle : ∀ x ∈ w₀.generated, x ∈ w₁.generated) (hle' : ∀ x ∈ w₁.generated, x ∈ w.generated)
    (he : (p.other, e) ∈ w₁.generated) (hnew : ∀ q, (q, expPublic fresh) ∉ w₁.generated)
    (hgen : (p, expPublic fresh) ∈ w.generated) [DecidablePred fun x =>
      (∃ q, (q, expPublic x) ∈ w.generated) ∧ x ≠ (w₀.peer p).dhSelfSecret] :
    2 ≤ ((expDh fresh e).filter fun x =>
      (∃ q, (q, expPublic x) ∈ w.generated) ∧ x ≠ (w₀.peer p).dhSelfSecret).card := by
  have hleak : (p, expPublic (w₀.peer p).dhSelfSecret) ∈ w₁.generated := by
    have hself : (w₀.peer p).dhSelfPublic = expPublic (w₀.peer p).dhSelfSecret := h₀.self p
    exact hself ▸ hle _ (h₀.own p)
  obtain ⟨r, hr⟩ : ∃ r, e = expPublic r := h₁.made _ e he
  have hfresh : fresh ≠ (w₀.peer p).dhSelfSecret := by
    intro heq
    exact hnew p (heq ▸ hleak)
  have hpeer : r ≠ (w₀.peer p).dhSelfSecret := by
    intro heq
    exact Party.other_ne p (h₁.unique he (hr ▸ heq ▸ hleak))
  rw [hr, expDh, Multiset.filter_cons_of_pos _ ⟨⟨p, hgen⟩, hfresh⟩, expPublic,
    Multiset.filter_singleton, if_pos ⟨⟨p.other, hle' _ (hr ▸ he)⟩, hpeer⟩]
  exact le_rfl

/-- The leaked keys are of turns that were over by the step. -/
theorem Later.turn_le_of_leaked {Plain : Type} {w₀ w₁ : SymNet ℕ (Multiset ℕ) Plain} {p : Party}
    (hlater : Later p w₀ w₁) (hlatest : (w₀.peer p).RootLatest) {k : SymKey (Multiset ℕ)}
    (hk : (.key k : Msg ℕ (Multiset ℕ) Plain) ∈ (w₀.peer p).contents) :
    turn k ≤ turn (w₁.peer p).rootKey := by
  have hmono := turn_le_of_anc hlater.descends.root
  rcases hk with hk | hk | ⟨ck, hck, hk⟩ | ⟨ck, hck, hk⟩ | ⟨entry, k', hk', hk⟩
  · exact absurd hk (by simp)
  · cases hk
    exact hmono
  · cases hk
    exact (hlatest.send k hck).trans hmono
  · cases hk
    exact (hlatest.recv k hck).trans hmono
  · cases hk
    exact (hlatest.skipped entry k hk').trans hmono

/-- Below the keys that the second half of a DH ratchet step installs, nothing is derivable from a
leak of earlier turns and the traffic, when the exchanged value has two unknown secrets. -/
theorem not_derivable_ratcheted {Plain : Type} {w₀ w : SymNet ℕ (Multiset ℕ) Plain} {p : Party}
    (hown : w.OwnKeys (expSymbolic Plain)) {e e' : Multiset ℕ} {rk k : SymKey (Multiset ℕ)}
    {block : ℕ} [DecidablePred fun x =>
      (∃ q, (q, expPublic x) ∈ w.generated) ∧ x ≠ (w₀.peer p).dhSelfSecret]
    (hcard : 2 ≤ (e.filter fun x =>
      (∃ q, (q, expPublic x) ∈ w.generated) ∧ x ≠ (w₀.peer p).dhSelfSecret).card)
    (hleak : ∀ {k}, (.key k : Msg ℕ (Multiset ℕ) Plain) ∈ (w₀.peer p).contents →
      turn k ≤ turn rk)
    (hk : forest.Anc (.expand ((expSymbolic Plain).rootStep rk e') (some e) "ratchet_root" block)
      k) :
    ¬ Derivable expPublic expDh ((w₀.peer p).contents ∪ observed w) (.key k) := by
  refine not_derivable_below hcard ?_ ?_ ?_ hk
  · rintro x (hx | hx) ⟨⟨q, hq⟩, hx'⟩
    · rcases hx with hx | hx | ⟨ck, -, hx⟩ | ⟨ck, -, hx⟩ | ⟨entry, k', -, hx⟩
      · cases hx
        exact hx' rfl
      all_goals exact absurd hx (by simp)
    · exact hx q hq
  · rintro e (he | ⟨q, hq⟩)
    · rcases he with he | he | ⟨ck, -, he⟩ | ⟨ck, -, he⟩ | ⟨entry, k', -, he⟩
      all_goals exact absurd he (by simp)
    · obtain ⟨x, rfl⟩ := hown.made q e hq
      exact Multiset.card_le_card (Multiset.filter_le _ _)
  · rintro k' (hk' | ⟨n, rfl⟩) block' hanc
    · have hle := turn_le_of_anc hanc
      have hlt := hleak hk'
      have hturn : turn rk + 1 + 1 ≤ turn k' := hle
      omega
    · exact absurd ((Forest.anc_root_iff rfl).1 hanc) (by simp)

/-- **Recovery from a compromise.**  In an honest run the attacker learns the whole state of a party
(in `w₀`) and from then on sees the traffic.  When that party later makes a DH ratchet step (in
`w₁`), then no key that descends from the root key or from the sending chain key it installs is
derivable from the leak and all traffic, however long the run goes on; among these keys are those of
all messages the party sends from then on. -/
theorem post_compromise {Plain : Type} {spk rng fresh : ℕ}
    {w₀ w₁ w : SymNet ℕ (Multiset ℕ) Plain} {p : Party} {h : Header (Multiset ℕ)}
    {c : SymCipher (Multiset ℕ) Plain} (hne : rng ≠ spk)
    (hstart : Reaches (expSymbolic Plain) (Honest Plain) .secret spk rng w₀)
    (hrun : Relation.ReflTransGen (Step (expSymbolic Plain) (Honest Plain)) w₀ w₁)
    (hin : Honest Plain w₁ p h c fresh) (hturn : (w₁.peer p).Draws h)
    (hafter : Relation.ReflTransGen (Step (expSymbolic Plain) (Honest Plain))
      (w₁.decrypt (expSymbolic Plain) p h c fresh) w) :
    (∀ k, (forest.Anc ((w₁.decrypt (expSymbolic Plain) p h c fresh).peer p).rootKey k ∨
        ∃ ck, ((w₁.decrypt (expSymbolic Plain) p h c fresh).peer p).chainKeySend = some ck ∧
          forest.Anc ck k) →
      ¬ Derivable expPublic expDh ((w₀.peer p).contents ∪ observed w) (.key k)) ∧
    ∀ i k h' c' m, (w₁.decrypt (expSymbolic Plain) p h c fresh).log.length ≤ i →
      w.log[i]? = some (Event.encrypted p k h' c' m) →
      ¬ Derivable expPublic expDh ((w₀.peer p).contents ∪ observed w) (.key k) := by
  classical
  -- the step is the DH ratchet, as far as the sending side goes
  have hpeer : (w₁.decrypt (expSymbolic Plain) p h c fresh).peer p =
      ((expSymbolic Plain).takeKey (w₁.peer p) h fresh).2 := by
    rw [(decrypt_cases (P := expSymbolic Plain) w₁ p h c fresh).1, Function.update_self]
  have hs := ((expSymbolic Plain).takeKey_sameSender (w₁.peer p) h fresh).2 hturn
  rw [← hpeer] at hs
  -- who owns which ratchet key, before and at the step
  have hFresh : ∀ w q h c r, Honest Plain w q h c r → FreshKeys (expSymbolic Plain) w q h c r :=
    fun _ _ _ _ _ hin => hin.2
  have hpub : (expSymbolic Plain).publicKey rng ≠ (expSymbolic Plain).publicKey spk := fun heq =>
    hne (Multiset.singleton_inj.1 heq)
  have hown₀ := hstart.ownKeys hpub hFresh
  have hstart₁ : Reaches (expSymbolic Plain) (Honest Plain) .secret spk rng w₁ := by
    obtain ⟨w', hw', hrun'⟩ := hstart
    exact ⟨w', hw', hrun'.trans hrun⟩
  have hown₁ := hstart₁.ownKeys hpub hFresh
  have hlater := later_of_run p hrun
  have hlater' := later_of_run p hafter
  have hown : w.OwnKeys (expSymbolic Plain) := by
    obtain ⟨w', hw', hrun'⟩ := hstart₁.tail (.decrypt _ _ _ _ _ hin)
    exact Reaches.ownKeys hpub hFresh ⟨w', hw', hrun'.trans hafter⟩
  obtain ⟨⟨k₁, m₁, hsent⟩, hnew⟩ := hin
  have hgen : (w₁.decrypt (expSymbolic Plain) p h c fresh).generated =
      (p, expPublic fresh) :: w₁.generated := if_pos hturn
  -- two unknown secrets in the value of the second half of the step
  have hcard := card_unknown (w := w) hown₀ hown₁ hlater.generated
    (fun x hx => hlater'.generated x (hgen ▸ List.mem_cons_of_mem _ hx))
    (hown₁.owner _ _ _ _ _ hsent) (hnew hturn)
    (hlater'.generated _ (hgen ▸ List.mem_cons_self))
  have hlatest := hstart.rootLatest p
  have hfirst : ∀ k, (forest.Anc ((w₁.decrypt (expSymbolic Plain) p h c fresh).peer p).rootKey k ∨
        ∃ ck, ((w₁.decrypt (expSymbolic Plain) p h c fresh).peer p).chainKeySend = some ck ∧
          forest.Anc ck k) →
      ¬ Derivable expPublic expDh ((w₀.peer p).contents ∪ observed w) (.key k) := by
    rintro k (hk | ⟨ck, hck, hk⟩)
    · rw [hs.root] at hk
      exact not_derivable_ratcheted hown hcard (hlater.turn_le_of_leaked hlatest) hk
    · rw [hs.chain] at hck
      cases hck
      exact not_derivable_ratcheted hown hcard (hlater.turn_le_of_leaked hlatest) hk
  refine ⟨hfirst, ?_⟩
  intro i k h' c' m hi hget
  obtain ⟨l, hl, hsent'⟩ := hlater'.log
  have hmem : .encrypted p k h' c' m ∈ l := by
    rw [hl, List.getElem?_append_right hi] at hget
    exact List.mem_of_getElem? hget
  exact hfirst k (hsent' k h' c' m hmem).symm

end Net

/-- In the short run, Bob's state leaks at the start; his DH ratchet step is driven by Alice's
message, and neither the keys it installs nor the key of his answer are given away. -/
theorem exchange_post_compromise :
    (∀ k, (forest.Anc (Exchange.received.peer .bob).rootKey k ∨
        ∃ ck, (Exchange.received.peer .bob).chainKeySend = some ck ∧ forest.Anc ck k) →
      ¬ Derivable expPublic expDh
        ((Exchange.start.peer .bob).contents ∪ Net.observed Exchange.answered) (.key k)) ∧
    ∀ i k h' c' m, Exchange.received.log.length ≤ i →
      Exchange.answered.log[i]? = some (Event.encrypted .bob k h' c' m) →
      ¬ Derivable expPublic expDh
        ((Exchange.start.peer .bob).contents ∪ Net.observed Exchange.answered) (.key k) := by
  have hstart : Net.Reaches (expSymbolic ℕ) (Net.Honest ℕ) .secret 0 1 Exchange.start :=
    ⟨Exchange.start, (Net.start_eq_ok_iff _).2 ⟨rfl, rfl, rfl, rfl⟩, .refl⟩
  have hin : Net.Honest ℕ Exchange.sent .bob (Replay.header 0) (Replay.sent 0 10) 2 := by
    refine ⟨⟨_, 10, List.mem_of_getElem? (i := 0) rfl⟩, fun _ q => ?_⟩
    cases q <;> decide
  exact Net.post_compromise (by decide) hstart (.single (.encrypt Exchange.start .alice 10)) hin
    (by decide) (.single (.encrypt Exchange.received .bob 20))

end Sanctum
