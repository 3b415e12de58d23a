/-
The message keys of a session.

Along a run of two ratchets, whatever the network delivers, the keys that a party holds and the
keys it has used stay a frontier below the shared secret, and the keys of the two directions differ
in the parity of their turn.  So no two encryptions ever use one key, and since the nonce is a
function of the key, no pair of key and nonce is used twice.  The numbers in the headers repeat no
more than the keys do, as long as no counter wraps around and the ratchet keys are fresh.

Main definitions:

* `Sanctum.usedKeys`, `Sanctum.sentKeys`, `Sanctum.sentPlaces` — what the log says about keys and
  headers;
* `Sanctum.Net.KeysKept`, `Sanctum.Net.PlacesKept` — the invariants of a run.

Main results:

* `Sanctum.Net.Reaches.keysKept` — the keys of a run, under any network;
* `Sanctum.Net.Reaches.placesKept` — the headers of a run, with fresh ratchet keys;
* `Sanctum.Net.no_message_key_reuse` — **no message key and no place in a chain is used twice**.
-/

import Sanctum.KeySlots
import Sanctum.Ownership
import Sanctum.RatchetReject

set_option relaxedAutoImplicit false
set_option autoImplicit false

namespace Sanctum

open SymKey Primitives

/-! ### Reading the log -/

section

variable {Grp Key Plain Cipher : Type}

/-- The message key that a successful call of a party used. -/
def Event.keyOf (p : Party) : Event Grp Key Plain Cipher → Option Key
  | .encrypted q k _ _ _ => if q = p then some k else none
  | .decrypted q k _ _ _ => if q = p then some k else none
  | .refused .. => none

/-- **The keys a party has used**, in order. -/
def usedKeys (p : Party) (log : List (Event Grp Key Plain Cipher)) : List Key :=
  log.filterMap (Event.keyOf p)

/-- **The keys used by `encrypt` calls**, of either party. -/
def sentKeys (log : List (Event Grp Key Plain Cipher)) : List Key :=
  log.filterMap fun
    | .encrypted _ k _ _ _ => some k
    | _ => none

/-- **The places named by the headers of `encrypt` calls**: ratchet key and number. -/
def sentPlaces (log : List (Event Grp Key Plain Cipher)) : List (Grp × UInt32) :=
  log.filterMap fun
    | .encrypted _ _ h _ _ => some (h.dhPublic, h.msgNum)
    | _ => none

theorem usedKeys_append (p : Party) (log : List (Event Grp Key Plain Cipher))
    (e : Event Grp Key Plain Cipher) :
    usedKeys p (log ++ [e]) = usedKeys p log ++ (e.keyOf p).toList := by
  rw [usedKeys, List.filterMap_append, List.filterMap_cons]
  cases e.keyOf p <;> rfl

theorem mem_sentKeys {log : List (Event Grp Key Plain Cipher)} {k : Key} :
    k ∈ sentKeys log ↔ ∃ p h c m, .encrypted p k h c m ∈ log := by
  rw [sentKeys, List.mem_filterMap]
  constructor
  · rintro ⟨e, he, hk⟩
    cases e with
    | encrypted p k' h c m =>
        obtain rfl := Option.some_inj.1 hk
        exact ⟨p, h, c, m, he⟩
    | _ => exact absurd hk (by simp)
  · rintro ⟨p, h, c, m, he⟩
    exact ⟨_, he, rfl⟩

theorem mem_sentPlaces {log : List (Event Grp Key Plain Cipher)} {x : Grp × UInt32} :
    x ∈ sentPlaces log ↔
      ∃ p k h c m, .encrypted p k h c m ∈ log ∧ (h.dhPublic, h.msgNum) = x := by
  rw [sentPlaces, List.mem_filterMap]
  constructor
  · rintro ⟨e, he, hx⟩
    cases e with
    | encrypted p k h c m => exact ⟨p, k, h, c, m, he, Option.some_inj.1 hx⟩
    | _ => exact absurd hx (by simp)
  · rintro ⟨p, k, h, c, m, he, hx⟩
    exact ⟨_, he, congrArg some hx⟩

/-- The number of messages sent in the chain of a ratchet key. -/
def sentInChain [DecidableEq Grp] (pk : Grp) (log : List (Event Grp Key Plain Cipher)) : ℕ :=
  (sentPlaces log).countP fun x => x.1 = pk

theorem sentPlaces_append_encrypted (log : List (Event Grp Key Plain Cipher)) (p : Party) (k : Key)
    (h : Header Grp) (c : Cipher) (m : Plain) :
    sentPlaces (log ++ [.encrypted p k h c m]) = sentPlaces log ++ [(h.dhPublic, h.msgNum)] := by
  rw [sentPlaces, List.filterMap_append]
  rfl

theorem sentInChain_append_encrypted [DecidableEq Grp] (pk : Grp)
    (log : List (Event Grp Key Plain Cipher)) (p : Party) (k : Key) (h : Header Grp) (c : Cipher)
    (m : Plain) :
    sentInChain pk (log ++ [.encrypted p k h c m]) =
      sentInChain pk log + if h.dhPublic = pk then 1 else 0 := by
  rw [sentInChain, sentPlaces_append_encrypted, List.countP_append, List.countP_singleton,
    sentInChain]
  simp only [decide_eq_true_eq]

theorem sentInChain_le_append [DecidableEq Grp] (pk : Grp)
    (log log' : List (Event Grp Key Plain Cipher)) :
    sentInChain pk log ≤ sentInChain pk (log ++ log') := by
  rw [sentInChain, sentInChain, sentPlaces, sentPlaces, List.filterMap_append, List.countP_append]
  exact Nat.le_add_right _ _

/-- A call of `decrypt` sends nothing. -/
theorem sentPlaces_decrypt {Sec Nonce : Type} [DecidableEq Grp]
    (P : Primitives Sec Grp Key Nonce Plain Cipher) (w : Net Sec Grp Key Plain Cipher) (p : Party)
    (h : Header Grp) (c : Cipher) (rng : Sec) :
    sentPlaces (w.decrypt P p h c rng).log = sentPlaces w.log := by
  obtain ⟨e, hlog, hne⟩ := Net.decrypt_log P w p h c rng
  rw [hlog, sentPlaces, List.filterMap_append]
  cases e with
  | encrypted q k h' c' m => exact absurd rfl (hne q k h' c' m)
  | _ => exact List.append_nil _

theorem mem_usedKeys_of_encrypted {log : List (Event Grp Key Plain Cipher)} {p : Party} {k : Key}
    {h : Header Grp} {c : Cipher} {m : Plain} (he : .encrypted p k h c m ∈ log) :
    k ∈ usedKeys p log :=
  List.mem_filterMap.2 ⟨_, he, if_pos rfl⟩

theorem mem_usedKeys_of_decrypted {log : List (Event Grp Key Plain Cipher)} {p : Party} {k : Key}
    {h : Header Grp} {c : Cipher} {m : Plain} (he : .decrypted p k h c m ∈ log) :
    k ∈ usedKeys p log :=
  List.mem_filterMap.2 ⟨_, he, if_pos rfl⟩

end

variable {Sec Grp Plain : Type} [DecidableEq Grp]
variable (pub : Sec → Grp) (dh : Sec → Grp → Grp)

/-- The used keys of a frontier are pairwise different. -/
theorem nodup_of_frontier {r : SymKey Grp} {s : RatchetState Sec Grp (SymKey Grp)}
    {used : List (SymKey Grp)} (h : forest.Frontier r (s.held used)) : used.Nodup := by
  rw [List.nodup_iff_injective_getElem]
  intro i j hij
  have hi : s.held used (.used i) = some used[i] := List.getElem?_eq_getElem i.2
  have hj : s.held used (.used j) = some used[i] :=
    (List.getElem?_eq_getElem j.2).trans (congrArg some hij.symm)
  exact Fin.ext (Slot.used.inj (h.antichain.injective hi hj))

/-! ### The keys of a run -/

namespace Net

variable {pub dh}

/-- A run of the symbolic model. -/
abbrev SymNet (Sec Grp Plain : Type) : Type :=
  Net Sec Grp (SymKey Grp) Plain (SymCipher Grp Plain)

/-- The key of a record belongs to the turn of the party that sent the message. -/
def EventInTurn : Event Grp (SymKey Grp) Plain (SymCipher Grp Plain) → Prop
  | .encrypted p k _ _ _ => turn k % 2 = p.turnParity
  | .decrypted p k _ _ _ => (turn k + 1) % 2 = p.turnParity
  | .refused .. => True

/-- **The keys of a run**: for each party a frontier of held and used keys, in turn, and the turns
of the records. -/
structure KeysKept (w : SymNet Sec Grp Plain) : Prop where
  frontier : ∀ p, forest.Frontier .secret ((w.peer p).held (usedKeys p w.log))
  inTurn : ∀ p, (w.peer p).InTurn p.turnParity
  events : ∀ e ∈ w.log, EventInTurn e

/-- Sending appends one record, with a ciphertext sealed under the key of the record. -/
theorem encrypt_symbolic (w : SymNet Sec Grp Plain) (p : Party) (m : Plain) {ck : SymKey Grp}
    (hck : (w.peer p).chainKeySend = some ck) :
    w.encrypt (symbolic Plain pub dh) p m =
      { w with
        peer := Function.update w.peer p ((symbolic Plain pub dh).stepSend (w.peer p) ck)
        log := w.log ++ [.encrypted p ((symbolic Plain pub dh).msgKey ck)
          ((w.peer p).nextHeader)
          (.sealed ((symbolic Plain pub dh).msgKey ck)
            ((symbolic Plain pub dh).nonceOf
              ((symbolic Plain pub dh).msgKey ck)) [] m) m] } :=
  encrypt_of_some hck rfl

/-- At the start each party holds the shared secret or keys split off from it. -/
theorem keysKept_start {spk rng : Sec} {w : SymNet Sec Grp Plain}
    (hw : start (symbolic Plain pub dh) .secret spk rng = .ok w) : w.KeysKept := by
  obtain ⟨ha, hb, -, hlog⟩ := (start_eq_ok_iff _).1 hw
  have hroot : forest.Frontier .secret
      ((RatchetState.initBob (SymKey.secret : SymKey Grp) spk (pub spk)).held []) := by
    refine ⟨Forest.antichain_singleton .root ?_, ?_⟩
    · intro slot hslot
      cases slot with
      | root => exact absurd rfl hslot
      | used i => exact List.getElem?_nil
      | _ => rfl
    · intro slot k hk
      cases slot with
      | root =>
          obtain rfl := Option.some_inj.1 hk
          exact Forest.Anc.refl _
      | used i => exact absurd hk (by simp [RatchetState.held])
      | _ => exact absurd hk (by simp [RatchetState.held, RatchetState.initBob])
  have hsplit := hroot.split .root .root .send rfl
    (parent_expand .secret (some (dh rng (pub spk))) "ratchet_root" 0)
    (parent_expand .secret (some (dh rng (pub spk))) "ratchet_root" 1)
    (rootStep_ne_chainStep Plain pub dh .secret _)
  refine ⟨?_, ?_, by simp [hlog]⟩
  · intro p
    rw [hlog]
    cases p with
    | alice =>
        rw [ha]
        convert hsplit using 1
        funext slot
        cases slot <;> rfl
    | bob =>
        rw [hb]
        exact hroot
  · intro p
    cases p with
    | alice =>
        rw [ha]
        refine ⟨rfl, ?_, ?_, ?_⟩
        · rintro _ ⟨⟩
          rfl
        · rintro _ ⟨⟩
        · rintro _ _ ⟨⟩
    | bob =>
        rw [hb]
        refine ⟨rfl, ?_, ?_, ?_⟩
        · rintro _ ⟨⟩
        · rintro _ ⟨⟩
        · rintro _ _ ⟨⟩

/-- A new record extends the invariant: the party it is about has taken the key it names, and the
other party is as before. -/
theorem KeysKept.append {w w' : SymNet Sec Grp Plain} (h : w.KeysKept) {p : Party}
    {s : RatchetState Sec Grp (SymKey Grp)}
    {e : Event Grp (SymKey Grp) Plain (SymCipher Grp Plain)}
    (hpeer : w'.peer = Function.update w.peer p s) (hlog : w'.log = w.log ++ [e])
    (hother : ∀ q, q ≠ p → e.keyOf q = none) (hturn : s.InTurn p.turnParity) (he : EventInTurn e)
    (hfront : forest.Frontier .secret (s.held (usedKeys p w.log ++ (e.keyOf p).toList))) :
    w'.KeysKept := by
  refine ⟨?_, ?_, ?_⟩
  · rw [hpeer, hlog]
    refine forall_update_peer
      (motive := fun q t => forest.Frontier .secret (t.held (usedKeys q (w.log ++ [e]))))
      ?_ fun q hq => ?_
    · rw [usedKeys_append]
      exact hfront
    · rw [usedKeys_append, hother q hq, Option.toList_none, List.append_nil]
      exact h.frontier q
  · rw [hpeer]
    exact forall_update_peer (motive := fun q t => t.InTurn q.turnParity) hturn
      fun q _ => h.inTurn q
  · rw [hlog]
    exact List.forall_mem_append.2 ⟨h.events, List.forall_mem_singleton.2 he⟩

/-- Sending keeps the invariant. -/
theorem KeysKept.encrypt {w : SymNet Sec Grp Plain} (h : w.KeysKept) (p : Party) (m : Plain) :
    (w.encrypt (symbolic Plain pub dh) p m).KeysKept := by
  cases hck : (w.peer p).chainKeySend with
  | none => rwa [encrypt_of_none hck]
  | some ck =>
      rw [encrypt_symbolic w p m hck]
      refine h.append rfl rfl (fun q hq => if_neg (Ne.symm hq))
        (inTurn_stepSend Plain pub dh hck (h.inTurn p)) ((h.inTurn p).send ck hck) ?_
      rw [Event.keyOf, if_pos rfl]
      exact frontier_stepSend Plain pub dh hck (h.frontier p)

/-- Receiving keeps the invariant, whatever is received. -/
theorem KeysKept.decrypt {w : SymNet Sec Grp Plain} (h : w.KeysKept) (p : Party)
    (hd : Header Grp) (c : SymCipher Grp Plain) (rng : Sec) :
    (w.decrypt (symbolic Plain pub dh) p hd c rng).KeysKept := by
  obtain ⟨hpeer, hlog⟩ := decrypt_cases (P := symbolic Plain pub dh) w p hd c rng
  have hfront := frontier_takeKey Plain pub dh hd rng (h.frontier p)
  obtain ⟨hturn, hkey⟩ := inTurn_takeKey Plain pub dh hd rng (h.inTurn p)
  rcases hlog with ⟨k, m, hk, -, hlog⟩ | hlog
  · refine h.append hpeer hlog (fun q hq => if_neg (Ne.symm hq)) hturn (hkey k hk) ?_
    rw [Event.keyOf, if_pos rfl]
    rw [hk] at hfront
    exact hfront
  · refine h.append hpeer hlog (fun q _ => rfl) hturn trivial ?_
    rw [Event.keyOf, Option.toList_none, List.append_nil]
    exact frontier_of_append hfront

/-- **The keys of a run**, under any network. -/
theorem Reaches.keysKept {allowed : Inputs Sec Grp (SymKey Grp) Plain (SymCipher Grp Plain)}
    {spk rng : Sec} {w : SymNet Sec Grp Plain}
    (hw : Reaches (symbolic Plain pub dh) allowed .secret spk rng w) : w.KeysKept :=
  hw.induction (fun _ => keysKept_start) (fun _ p m h => h.encrypt p m)
    (fun _ p hd c r _ h => h.decrypt p hd c r)

/-- The key of the last record, if it is an encryption, has not been used for one before. -/
theorem KeysKept.key_notMem_sentKeys {w : SymNet Sec Grp Plain} (h : w.KeysKept) {p : Party}
    {k : SymKey Grp} {hd : Header Grp} {c : SymCipher Grp Plain} {m : Plain}
    {log : List (Event Grp (SymKey Grp) Plain (SymCipher Grp Plain))}
    (hlog : w.log = log ++ [.encrypted p k hd c m]) : k ∉ sentKeys log := by
  intro hmem
  obtain ⟨q, hd', c', m', he⟩ := mem_sentKeys.1 hmem
  have hnew : turn k % 2 = p.turnParity := h.events (.encrypted p k hd c m) (by simp [hlog])
  have hold : turn k % 2 = q.turnParity := h.events (.encrypted q k hd' c' m') (by simp [hlog, he])
  obtain rfl : q = p := by
    rw [hold] at hnew
    cases p <;> cases q <;> first | rfl | exact absurd hnew (by decide)
  -- the key would occur twice among the keys the party has used
  have hnodup := nodup_of_frontier (h.frontier q)
  rw [hlog, usedKeys_append, Event.keyOf, if_pos rfl] at hnodup
  exact (List.nodup_append.1 hnodup).2.2 k (mem_usedKeys_of_encrypted he) k
    (List.mem_singleton_self k) rfl

/-! ### The headers of a run -/

/-- **The headers of a run**: the number in a header sent under the key still in use is below the
counter, the counter counts the messages of the current chain, and no place repeats. -/
structure PlacesKept (w : SymNet Sec Grp Plain) : Prop where
  below : ∀ p k h c m, .encrypted p k h c m ∈ w.log → h.dhPublic = (w.peer p).dhSelfPublic →
    h.msgNum < (w.peer p).msgNumSend
  count : ∀ p, (w.peer p).msgNumSend.toNat = sentInChain (w.peer p).dhSelfPublic w.log
  nodup : (sentPlaces w.log).Nodup

theorem placesKept_start {spk rng : Sec} {w : SymNet Sec Grp Plain}
    (hw : start (symbolic Plain pub dh) .secret spk rng = .ok w) : w.PlacesKept := by
  obtain ⟨ha, hb, -, hlog⟩ := (start_eq_ok_iff _).1 hw
  refine ⟨by simp [hlog], ?_, ?_⟩
  · intro p
    rw [hlog]
    cases p with
    | alice => rw [ha]; rfl
    | bob => rw [hb]; rfl
  · rw [hlog]
    exact List.nodup_nil

/-- Sending keeps the invariant, as long as the chain is not full. -/
theorem PlacesKept.encrypt {w : SymNet Sec Grp Plain} (h : w.PlacesKept)
    (hown : w.OwnKeys (symbolic Plain pub dh)) (p : Party) (m : Plain)
    (hfull : ∀ pk, sentInChain pk (w.encrypt (symbolic Plain pub dh) p m).log < 2 ^ 32) :
    (w.encrypt (symbolic Plain pub dh) p m).PlacesKept := by
  cases hck : (w.peer p).chainKeySend with
  | none => rwa [encrypt_of_none hck]
  | some ck =>
      rw [encrypt_symbolic w p m hck] at hfull ⊢
      have hself : (w.peer p).nextHeader.dhPublic = (w.peer p).dhSelfPublic := rfl
      -- the counter does not wrap around
      have hsucc : ((w.peer p).msgNumSend + 1).toNat = (w.peer p).msgNumSend.toNat + 1 := by
        have hlt := hfull (w.peer p).dhSelfPublic
        rw [sentInChain_append_encrypted, if_pos hself, ← h.count p] at hlt
        rw [UInt32.toNat_add, UInt32.toNat_one, Nat.mod_eq_of_lt hlt]
      refine ⟨?_, ?_, ?_⟩
      · intro q k hd c m' hx
        rcases List.mem_append.1 hx with he | he
        · by_cases hq : q = p
          · subst hq
            simp only [Function.update_self, stepSend, UInt32.lt_iff_toNat_lt, hsucc]
            intro hself
            exact Nat.lt_succ_of_lt (UInt32.lt_iff_toNat_lt.1 (h.below q k hd c m' he hself))
          · simp only [Function.update_of_ne hq]
            exact h.below q k hd c m' he
        · cases List.mem_singleton.1 he
          intro _
          simp only [Function.update_self, stepSend, RatchetState.nextHeader,
            UInt32.lt_iff_toNat_lt, hsucc]
          exact Nat.lt_succ_self _
      · intro q
        rw [sentInChain_append_encrypted, hself]
        by_cases hq : q = p
        · subst hq
          simp only [Function.update_self, stepSend, hsucc, if_true]
          rw [h.count q]
        · have hne : (w.peer p).dhSelfPublic ≠ (w.peer q).dhSelfPublic := fun heq =>
            hq (hown.unique (hown.own q) (heq ▸ hown.own p))
          simp only [Function.update_of_ne hq, if_neg hne, Nat.add_zero]
          exact h.count q
      · rw [sentPlaces_append_encrypted]
        refine List.nodup_append.2 ⟨h.nodup, List.nodup_singleton _, ?_⟩
        rintro x hx y hy rfl
        obtain ⟨q, k, hd, c, m', he, hxe⟩ := mem_sentPlaces.1 hx
        obtain ⟨hdh, hnum⟩ := Prod.mk.inj (hxe.trans (List.mem_singleton.1 hy))
        obtain rfl := hown.unique (hdh ▸ hown.owner q k hd c m' he) (hown.own p)
        exact absurd (h.below q k hd c m' he hdh) (hnum ▸ UInt32.lt_irrefl _)

/-- Receiving keeps the invariant, when the keypair it may draw is a new one. -/
theorem PlacesKept.decrypt {w : SymNet Sec Grp Plain} (h : w.PlacesKept)
    (hown : w.OwnKeys (symbolic Plain pub dh)) (p : Party) (hd : Header Grp)
    (c : SymCipher Grp Plain) (rng : Sec)
    (hfresh : FreshKeys (symbolic Plain pub dh) w p hd c rng) :
    (w.decrypt (symbolic Plain pub dh) p hd c rng).PlacesKept := by
  obtain ⟨hpeer, -⟩ := decrypt_cases (P := symbolic Plain pub dh) w p hd c rng
  have hplaces := sentPlaces_decrypt (symbolic Plain pub dh) w p hd c rng
  -- the receiver's counter and key are as before, or there is a new key
  obtain ⟨hbelow, hnum⟩ : (∀ k h' c' m', .encrypted p k h' c' m' ∈ w.log →
        h'.dhPublic = ((symbolic Plain pub dh).takeKey (w.peer p) hd rng).2.dhSelfPublic →
        h'.msgNum < ((symbolic Plain pub dh).takeKey (w.peer p) hd rng).2.msgNumSend) ∧
      ((symbolic Plain pub dh).takeKey (w.peer p) hd rng).2.msgNumSend.toNat =
        sentInChain ((symbolic Plain pub dh).takeKey (w.peer p) hd rng).2.dhSelfPublic
          w.log := by
    obtain ⟨hsame, hdraws⟩ :=
      (symbolic Plain pub dh).takeKey_sameSender (w.peer p) hd rng
    by_cases hD : (w.peer p).Draws hd
    · have hs := hdraws hD
      have hnew : ∀ q, (q, pub rng) ∉ w.generated := hfresh hD
      rw [hs.pub, hs.num]
      refine ⟨fun k h' c' m' hx hself => ?_, Eq.symm ?_⟩
      · have hdh : h'.dhPublic = pub rng := hself
        exact absurd (hdh ▸ hown.owner p k h' c' m' hx) (hnew p)
      · refine List.countP_eq_zero.2 fun x hx heq => ?_
        obtain ⟨q, k, h', c', m', hx', rfl⟩ := mem_sentPlaces.1 hx
        have hdh : h'.dhPublic = pub rng := of_decide_eq_true heq
        exact hnew q (hdh ▸ hown.owner q k h' c' m' hx')
    · have hs := hsame hD
      rw [hs.pub, hs.num]
      exact ⟨h.below p, h.count p⟩
  refine ⟨?_, ?_, ?_⟩
  · rw [hpeer]
    intro q k h' c' m' hx
    have hx' := encrypted_of_mem_decrypt hx
    by_cases hq : q = p
    · subst hq
      rw [Function.update_self]
      exact hbelow k h' c' m' hx'
    · rw [Function.update_of_ne hq]
      exact h.below q k h' c' m' hx'
  · rw [hpeer]
    refine forall_update_peer (motive := fun q t => t.msgNumSend.toNat =
      sentInChain t.dhSelfPublic (w.decrypt (symbolic Plain pub dh) p hd c rng).log) ?_
      fun q _ => ?_
    · rw [sentInChain, hplaces]
      exact hnum
    · rw [sentInChain, hplaces]
      exact h.count q
  · rw [hplaces]
    exact h.nodup

/-- **The headers of a run** with fresh ratchet keys, in which no chain is full. -/
theorem Reaches.placesKept {spk rng : Sec} {w : SymNet Sec Grp Plain} (hne : pub rng ≠ pub spk)
    (hw : Reaches (symbolic Plain pub dh) (FreshKeys (symbolic Plain pub dh)) .secret spk rng w)
    (hfull : ∀ pk, sentInChain pk w.log < 2 ^ 32) : w.PlacesKept := by
  refine (hw.induction (motive := fun w => w.OwnKeys (symbolic Plain pub dh) ∧
    ((∀ pk, sentInChain pk w.log < 2 ^ 32) → w.PlacesKept)) ?_ ?_ ?_).2 hfull
  · exact fun w hw => ⟨ownKeys_start hne hw, fun _ => placesKept_start hw⟩
  · rintro w p m ⟨hown, ih⟩
    refine ⟨hown.encrypt p m, fun hfull => (ih fun pk => ?_).encrypt hown p m hfull⟩
    exact lt_of_le_of_lt (sentInChain_le_append pk w.log _) (hfull pk)
  · rintro w p hd c r hfresh ⟨hown, ih⟩
    refine ⟨hown.decrypt p hd c r hfresh,
      fun hfull => (ih fun pk => ?_).decrypt hown p hd c r hfresh⟩
    exact lt_of_le_of_lt (sentInChain_le_append pk w.log _) (hfull pk)

/-- The keys used for encryption in a run, under any network. -/
theorem Reaches.nodup_sentKeys
    {allowed : Inputs Sec Grp (SymKey Grp) Plain (SymCipher Grp Plain)} {spk rng : Sec}
    {w : SymNet Sec Grp Plain} (hw : Reaches (symbolic Plain pub dh) allowed .secret spk rng w) :
    (sentKeys w.log).Nodup := by
  refine (hw.induction (motive := fun w => w.KeysKept ∧ (sentKeys w.log).Nodup) ?_ ?_ ?_).2
  · intro w hw
    rw [((start_eq_ok_iff _).1 hw).2.2.2]
    exact ⟨keysKept_start hw, List.nodup_nil⟩
  · rintro w p m ⟨hkeys, hnodup⟩
    have hnext : (w.encrypt (symbolic Plain pub dh) p m).KeysKept := hkeys.encrypt p m
    refine ⟨hnext, ?_⟩
    cases hck : (w.peer p).chainKeySend with
    | none => rwa [encrypt_of_none hck]
    | some ck =>
        rw [encrypt_symbolic w p m hck] at hnext ⊢
        rw [sentKeys, List.filterMap_append]
        refine List.nodup_append.2 ⟨hnodup, List.nodup_singleton _, ?_⟩
        rintro k hk k' hk' rfl
        obtain rfl := List.mem_singleton.1 hk'
        exact hnext.key_notMem_sentKeys rfl hk
  · rintro w p hd c r - ⟨hkeys, hnodup⟩
    refine ⟨hkeys.decrypt p hd c r, ?_⟩
    rcases (decrypt_cases (P := symbolic Plain pub dh) w p hd c r).2 with ⟨k, m, -, -, hlog⟩ | hlog
    · rw [hlog, sentKeys, List.filterMap_append]
      exact (List.append_nil _).symm ▸ hnodup
    · rw [hlog, sentKeys, List.filterMap_append]
      exact (List.append_nil _).symm ▸ hnodup

/-- **No message key and no place in a chain is used twice.**  In every run with fresh ratchet keys
in which no chain carries 2^32 messages, whatever the network delivers, the message keys of all
`encrypt` calls of both parties are pairwise different, and so are the pairs of ratchet key and
message number in the headers they return. -/
theorem no_message_key_reuse {spk rng : Sec} {w : SymNet Sec Grp Plain} (hne : pub rng ≠ pub spk)
    (hw : Reaches (symbolic Plain pub dh) (FreshKeys (symbolic Plain pub dh)) .secret spk rng w)
    (hfull : ∀ pk, sentInChain pk w.log < 2 ^ 32) :
    (sentKeys w.log).Nodup ∧ (sentPlaces w.log).Nodup :=
  ⟨hw.nodup_sentKeys, (hw.placesKept hne hfull).nodup⟩

end Net

/-! ### A short run -/

namespace Exchange

/-- The start of a session, with Bob's pre-key 0 and Alice's ratchet key 1. -/
def start : Net.SymNet ℕ (Multiset ℕ) ℕ where
  peer := fun
    | .alice => (expSymbolic ℕ).aliceStart .secret (expPublic 0) 1
    | .bob => RatchetState.initBob .secret 0 (expPublic 0)
  generated := [(.alice, expPublic 1), (.bob, expPublic 0)]
  log := []

/-- Alice has sent a message. -/
def sent : Net.SymNet ℕ (Multiset ℕ) ℕ := start.encrypt (expSymbolic ℕ) .alice 10

/-- Bob has received it, and drawn the ratchet key 2. -/
def received : Net.SymNet ℕ (Multiset ℕ) ℕ :=
  sent.decrypt (expSymbolic ℕ) .bob (Replay.header 0) (Replay.sent 0 10) 2

/-- Bob has answered. -/
def answered : Net.SymNet ℕ (Multiset ℕ) ℕ := received.encrypt (expSymbolic ℕ) .bob 20

/-- The run is one of any network that delivers Alice's message. -/
theorem reaches {allowed : Net.Inputs ℕ (Multiset ℕ) (SymKey (Multiset ℕ)) ℕ
    (SymCipher (Multiset ℕ) ℕ)}
    (h : allowed sent .bob (Replay.header 0) (Replay.sent 0 10) 2) :
    Net.Reaches (expSymbolic ℕ) allowed .secret 0 1 answered := by
  refine ⟨start, (Net.start_eq_ok_iff _).2 ⟨rfl, rfl, rfl, rfl⟩, ?_⟩
  exact ((Relation.ReflTransGen.single (.encrypt start .alice 10)).tail
    (.decrypt sent .bob _ _ 2 h)).tail (.encrypt received .bob 20)

end Exchange

/-- The short run repeats no key and no place. -/
theorem exchange_no_reuse :
    (sentKeys Exchange.answered.log).Nodup ∧ (sentPlaces Exchange.answered.log).Nodup := by
  have hreach : Net.Reaches (expSymbolic ℕ) (Net.FreshKeys (expSymbolic ℕ)) .secret 0 1
      Exchange.answered := by
    refine Exchange.reaches fun _ q => ?_
    cases q <;> decide
  refine Net.no_message_key_reuse (by decide) hreach ?_
  · intro pk
    exact lt_of_le_of_lt List.countP_le_length (by decide)

end Sanctum
