/-
Whose ratchet keys are whose.

Every ratchet public key in use, and every one that has been put into a header, was generated by the
party it belongs to, and as long as the keys drawn are fresh no key is generated twice.  None of
this depends on what the network delivers.

Main definitions:

* `Sanctum.Net.OwnKeys` — the generated keys of a run and their owners.

Main results:

* `Sanctum.Net.OwnKeys.unique` — a key has one owner;
* `Sanctum.Net.Reaches.ownKeys` — **the keys are owned throughout every run with fresh keys**.
-/

import Sanctum.Network
import Sanctum.RatchetMoves

set_option relaxedAutoImplicit false
set_option autoImplicit false

namespace Sanctum

namespace Net

variable {Sec Grp Key Nonce Plain Cipher : Type}
variable {P : Primitives Sec Grp Key Nonce Plain Cipher}

variable (P) in
/-- **The generated ratchet keys of a run**: they are public keys, pairwise different, and include
for each party the key in use and the keys in the headers it has sent. -/
structure OwnKeys (w : Net Sec Grp Key Plain Cipher) : Prop where
  distinct : (w.generated.map Prod.snd).Nodup
  made : ∀ p e, (p, e) ∈ w.generated → ∃ x, e = P.publicKey x
  own : ∀ p, (p, (w.peer p).dhSelfPublic) ∈ w.generated
  self : ∀ p, (w.peer p).dhSelfPublic = P.publicKey (w.peer p).dhSelfSecret
  owner : ∀ p k h c m, .encrypted p k h c m ∈ w.log → (p, h.dhPublic) ∈ w.generated

/-- A generated ratchet key has one owner. -/
theorem OwnKeys.unique {w : Net Sec Grp Key Plain Cipher} (h : w.OwnKeys P) {p q : Party}
    {pk : Grp} (hp : (p, pk) ∈ w.generated) (hq : (q, pk) ∈ w.generated) : p = q :=
  congrArg Prod.fst (List.inj_on_of_nodup_map h.distinct hp hq rfl)

theorem ownKeys_start {sk : Key} {spk rng : Sec} {w : Net Sec Grp Key Plain Cipher}
    (hne : P.publicKey rng ≠ P.publicKey spk) (hw : start P sk spk rng = .ok w) : w.OwnKeys P := by
  obtain ⟨ha, hb, hgen, hlog⟩ := (start_eq_ok_iff P).1 hw
  refine ⟨?_, ?_, ?_, ?_, by simp [hlog]⟩
  · rw [hgen]
    exact List.nodup_cons.2 ⟨fun h => hne (List.mem_singleton.1 h), List.nodup_singleton _⟩
  · intro p e he
    rw [hgen] at he
    rcases List.mem_cons.1 he with he | he
    · exact ⟨rng, congrArg Prod.snd he⟩
    · exact ⟨spk, congrArg Prod.snd (List.mem_singleton.1 he)⟩
  · intro p
    rw [hgen]
    cases p with
    | alice => rw [ha]; exact List.mem_cons_self
    | bob => rw [hb]; exact List.mem_cons_of_mem _ List.mem_cons_self
  · intro p
    cases p with
    | alice => rw [ha]; rfl
    | bob => rw [hb]; rfl

theorem OwnKeys.encrypt {w : Net Sec Grp Key Plain Cipher} (h : w.OwnKeys P) (p : Party)
    (m : Plain) : (w.encrypt P p m).OwnKeys P := by
  cases hck : (w.peer p).chainKeySend with
  | none => rwa [encrypt_of_none hck]
  | some ck =>
      have hstate : (P.encrypt (w.peer p) m).2 = P.stepSend (w.peer p) ck := by
        rw [P.encrypt_eq hck]
      refine ⟨h.distinct, h.made, ?_, ?_, ?_⟩
      · refine forall_update_peer (motive := fun q t => (q, t.dhSelfPublic) ∈ w.generated) ?_
          fun q _ => h.own q
        rw [hstate]
        exact h.own p
      · refine forall_update_peer (motive := fun _ t =>
          t.dhSelfPublic = P.publicKey t.dhSelfSecret) ?_ fun q _ => h.self q
        rw [hstate]
        exact h.self p
      · intro q k hd c m' he
        rcases List.mem_append.1 he with he | he
        · exact h.owner q k hd c m' he
        · -- the new record, if there is one, carries the current key
          rw [P.encrypt_eq hck, hck] at he
          cases hct : P.encryptWith (P.msgKey ck) m with
          | error e =>
              rw [hct] at he
              exact absurd he (by simp [Except.map])
          | ok ct =>
              rw [hct] at he
              cases List.mem_singleton.1 he
              exact h.own p

variable [DecidableEq Grp]

theorem OwnKeys.decrypt {w : Net Sec Grp Key Plain Cipher} (h : w.OwnKeys P) (p : Party)
    (hd : Header Grp) (c : Cipher) (rng : Sec) (hfresh : FreshKeys P w p hd c rng) :
    (w.decrypt P p hd c rng).OwnKeys P := by
  obtain ⟨hpeer, -⟩ := decrypt_cases (P := P) w p hd c rng
  obtain ⟨hsame, hdraws⟩ := P.takeKey_sameSender (w.peer p) hd rng
  by_cases hD : (w.peer p).Draws hd
  · have hs := hdraws hD
    have hnew := hfresh hD
    have hgen : (w.decrypt P p hd c rng).generated = (p, P.publicKey rng) :: w.generated :=
      if_pos hD
    refine ⟨?_, ?_, ?_, ?_, ?_⟩
    · rw [hgen, List.map_cons]
      refine List.nodup_cons.2 ⟨?_, h.distinct⟩
      intro hx
      obtain ⟨⟨q, e⟩, hq, rfl⟩ := List.mem_map.1 hx
      exact hnew q hq
    · rw [hgen]
      intro q e he
      rcases List.mem_cons.1 he with he | he
      · exact ⟨rng, congrArg Prod.snd he⟩
      · exact h.made q e he
    · rw [hpeer, hgen]
      refine forall_update_peer (motive := fun q t => (q, t.dhSelfPublic) ∈ (p, P.publicKey rng) ::
        w.generated) ?_ fun q _ => List.mem_cons_of_mem _ (h.own q)
      rw [hs.pub]
      exact List.mem_cons_self
    · rw [hpeer]
      refine forall_update_peer (motive := fun _ t =>
        t.dhSelfPublic = P.publicKey t.dhSelfSecret) ?_ fun q _ => h.self q
      rw [hs.pub, hs.secret]
      rfl
    · rw [hgen]
      exact fun q k h' c' m' hx => List.mem_cons_of_mem _
        (h.owner q k h' c' m' (encrypted_of_mem_decrypt hx))
  · have hs := hsame hD
    have hgen : (w.decrypt P p hd c rng).generated = w.generated := if_neg hD
    refine ⟨?_, ?_, ?_, ?_, ?_⟩
    · rw [hgen]
      exact h.distinct
    · rw [hgen]
      exact h.made
    · rw [hpeer, hgen]
      exact forall_update_peer (motive := fun q t => (q, t.dhSelfPublic) ∈ w.generated)
        (hs.pub ▸ h.own p) fun q _ => h.own q
    · rw [hpeer]
      refine forall_update_peer (motive := fun _ t =>
        t.dhSelfPublic = P.publicKey t.dhSelfSecret) ?_ fun q _ => h.self q
      rw [hs.pub, hs.secret]
      exact h.self p
    · rw [hgen]
      exact fun q k h' c' m' hx => h.owner q k h' c' m' (encrypted_of_mem_decrypt hx)

/-- **The keys are owned throughout every run** with fresh ratchet keys. -/
theorem Reaches.ownKeys {allowed : Inputs Sec Grp Key Plain Cipher} {sk : Key} {spk rng : Sec}
    {w : Net Sec Grp Key Plain Cipher} (hne : P.publicKey rng ≠ P.publicKey spk)
    (hfresh : ∀ w p h c r, allowed w p h c r → FreshKeys P w p h c r)
    (hw : Reaches P allowed sk spk rng w) : w.OwnKeys P :=
  hw.induction (fun _ hw => ownKeys_start hne hw) (fun _ p m h => h.encrypt p m)
    fun w p hd c r hin h => h.decrypt p hd c r (hfresh w p hd c r hin)

end Net

end Sanctum
