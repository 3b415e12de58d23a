/-
Secrecy of the key agreement.

The attacker sees all public keys and all traffic, and has the secrets of a set `S`.  In the group of
exponents it can build an element exactly if at most one of the secrets in it is unknown to it, so
that a shared element is out of its reach as long as both secrets of the exchange are.  This decides
when the secret of an agreement leaks, when Bob can be made to share a secret with someone who is not
Alice, and when the messages that Alice sends before she has heard from Bob can be read.

Main definitions:

* `Sanctum.Overhears` — what an attacker with the secrets `S` knows;
* `Sanctum.X3dhExposed` — the compromises that expose the secret of an agreement;
* `Sanctum.Net.overheard` — the public keys, the traffic of a run and the secrets in `S`.

Main results:

* `Sanctum.Overhears.derivable_grp_iff` — the group elements that the attacker can build;
* `Sanctum.x3dh_secrecy` — **when the secret of an agreement is exposed**;
* `Sanctum.impersonation_iff` — **when Alice can be impersonated**;
* `Sanctum.Net.first_flight` — **when the messages of the first flight can be read**.
-/

import Sanctum.Delivery
import Sanctum.PostCompromise

set_option relaxedAutoImplicit false
set_option autoImplicit false

namespace Sanctum

open SymKey Primitives

variable {Plain : Type}

/-! ### What the attacker can build -/

/-- **What an attacker with the secrets `S` knows**: all public keys, random keys of its own, and
ciphertexts and plaintexts of any kind. -/
structure Overhears (S : Set ℕ) (known : Set (Msg ℕ (Multiset ℕ) Plain)) : Prop where
  sec : ∀ x, .sec x ∈ known ↔ x ∈ S
  grp : ∀ e, .grp e ∈ known ↔ ∃ x, e = expPublic x
  key : ∀ k, .key k ∈ known → ∃ n, k = .atom n

variable {S : Set ℕ} {known : Set (Msg ℕ (Multiset ℕ) Plain)}

namespace Overhears

theorem derivable_sec_iff (h : Overhears S known) {x : ℕ} :
    Derivable expPublic expDh known (.sec x) ↔ x ∈ S := by
  constructor
  · intro hx
    cases hx with
    | known hmem => exact (h.sec x).1 hmem
  · exact fun hx => .known ((h.sec x).2 hx)

theorem derivable_publicKey (h : Overhears S known) (x : ℕ) :
    Derivable expPublic expDh known (.grp (expPublic x)) :=
  .known ((h.grp _).2 ⟨x, rfl⟩)

/-- Known secrets can be mixed into an element. -/
theorem derivable_add (h : Overhears S known) {e f : Multiset ℕ} (hf : ∀ x ∈ f, x ∈ S)
    (he : Derivable expPublic expDh known (.grp e)) :
    Derivable expPublic expDh known (.grp (f + e)) := by
  induction f using Multiset.induction with
  | empty => rwa [Multiset.zero_add]
  | cons x f ih =>
      rw [Multiset.cons_add]
      exact .diffieHellman (h.derivable_sec_iff.2 (hf x (Multiset.mem_cons_self x f)))
        (ih fun y hy => hf y (Multiset.mem_cons_of_mem hy))

/-- Whatever element the attacker builds has at most one unknown secret. -/
theorem card_le_one (h : Overhears S known) [DecidablePred (· ∉ S)] {e : Multiset ℕ}
    (he : Derivable expPublic expDh known (.grp e)) :
    e ≠ 0 ∧ (e.filter (· ∉ S)).card ≤ 1 := by
  suffices haux : ∀ msg, Derivable expPublic expDh known msg → ∀ e, msg = .grp e →
      e ≠ 0 ∧ (e.filter (· ∉ S)).card ≤ 1 from haux _ he e rfl
  intro msg hder
  induction hder with
  | known hmem =>
      rintro e rfl
      obtain ⟨x, rfl⟩ := (h.grp e).1 hmem
      exact ⟨Multiset.singleton_ne_zero x, Multiset.card_le_card (Multiset.filter_le _ _)⟩
  | @publicKey x _ _ =>
      rintro e ⟨⟩
      exact ⟨Multiset.singleton_ne_zero x, Multiset.card_le_card (Multiset.filter_le _ _)⟩
  | @diffieHellman x e hx _ _ ih =>
      rintro e' ⟨⟩
      have hknown : x ∈ S := h.derivable_sec_iff.1 hx
      refine ⟨Multiset.cons_ne_zero, ?_⟩
      rw [expDh, Multiset.filter_cons_of_neg (p := (· ∉ S)) _ (not_not.2 hknown)]
      exact (ih e rfl).2
  | _ => rintro e ⟨⟩

/-- **The elements that the attacker can build** are those with at most one unknown secret. -/
theorem derivable_grp_iff (h : Overhears S known) [DecidablePred (· ∈ S)] {e : Multiset ℕ} :
    Derivable expPublic expDh known (.grp e) ↔ e ≠ 0 ∧ (e.filter (· ∉ S)).card ≤ 1 := by
  refine ⟨h.card_le_one, fun ⟨hne, hcard⟩ => ?_⟩
  have hsplit := Multiset.filter_add_not (· ∈ S) e
  have hknown : ∀ x ∈ e.filter (· ∈ S), x ∈ S := fun x hx => (Multiset.mem_filter.1 hx).2
  rcases Nat.le_one_iff_eq_zero_or_eq_one.1 hcard with hzero | hone
  · -- all of it is known: any of its secrets is the one to begin with
    rw [Multiset.card_eq_zero.1 hzero, add_zero] at hsplit
    obtain ⟨x, hx⟩ := Multiset.exists_mem_of_ne_zero hne
    obtain ⟨f, rfl⟩ := Multiset.exists_cons_of_mem hx
    rw [hsplit] at hknown
    rw [← Multiset.singleton_add, add_comm]
    exact h.derivable_add (fun y hy => hknown y (Multiset.mem_cons_of_mem hy))
      (h.derivable_publicKey x)
  · obtain ⟨x, hx⟩ := Multiset.card_eq_one.1 hone
    rw [← hsplit, hx]
    exact h.derivable_add hknown (h.derivable_publicKey x)

/-- A shared element needs one of its two secrets. -/
theorem derivable_shared_iff (h : Overhears S known) {a b : ℕ} :
    Derivable expPublic expDh known (.grp (expDh a (expPublic b))) ↔ a ∈ S ∨ b ∈ S := by
  classical
  rw [h.derivable_grp_iff, expDh, expPublic]
  by_cases ha : a ∈ S
  · rw [Multiset.filter_cons_of_neg (p := (· ∉ S)) _ (not_not.2 ha)]
    exact ⟨fun _ => Or.inl ha, fun _ => ⟨Multiset.cons_ne_zero,
      Multiset.card_le_card (Multiset.filter_le _ _)⟩⟩
  · rw [Multiset.filter_cons_of_pos (p := (· ∉ S)) _ ha, Multiset.card_cons, Multiset.filter_singleton]
    by_cases hb : b ∈ S
    · rw [if_neg (not_not.2 hb)]
      exact ⟨fun _ => Or.inr hb, fun _ => ⟨Multiset.cons_ne_zero, le_rfl⟩⟩
    · rw [if_pos hb]
      exact ⟨fun hcard => absurd hcard.2 (by simp), fun hor => (hor.elim ha hb).elim⟩

/-- The output of an agreement needs all of its shared elements. -/
theorem derivable_agreed_iff (h : Overhears S known) {dhs : List (Multiset ℕ)} {info : String}
    {block : ℕ} :
    Derivable expPublic expDh known (.key (.agreed dhs none info block)) ↔
      ∀ e ∈ dhs, Derivable expPublic expDh known (.grp e) := by
  constructor
  · intro hder
    cases hder with
    | known hmem =>
        obtain ⟨n, hn⟩ := h.key _ hmem
        exact absurd hn (by simp)
    | agreed _ _ hdhs _ => exact hdhs
  · intro hdhs
    exact .agreed info block hdhs (by simp)

/-- An expansion needs its key and its salt. -/
theorem derivable_expand_iff (h : Overhears S known) {k : SymKey (Multiset ℕ)}
    {salt : Option (Multiset ℕ)} {info : String} {block : ℕ} :
    Derivable expPublic expDh known (.key (.expand k salt info block)) ↔
      Derivable expPublic expDh known (.key k) ∧
        ∀ e ∈ salt, Derivable expPublic expDh known (.grp e) := by
  constructor
  · intro hder
    cases hder with
    | known hmem =>
        obtain ⟨n, hn⟩ := h.key _ hmem
        exact absurd hn (by simp)
    | expand _ _ hk hsalt => exact ⟨hk, hsalt⟩
  · rintro ⟨hk, hsalt⟩
    exact .expand info block hk hsalt

/-- The keys of a chain are exposed with the key that it starts with. -/
theorem derivable_msgKey_iff (h : Overhears S known) {ck : SymKey (Multiset ℕ)} (n : ℕ) :
    Derivable expPublic expDh known
        (.key ((expSymbolic Plain).msgKey ((expSymbolic Plain).chainAt ck n))) ↔
      Derivable expPublic expDh known (.key ck) := by
  have hsalt : ∀ {k info block},
      Derivable expPublic expDh known (.key (.expand k none info block)) ↔
        Derivable expPublic expDh known (.key k) := fun {k info block} =>
    h.derivable_expand_iff.trans (and_iff_left (by simp))
  refine hsalt.trans ?_
  induction n with
  | zero => rfl
  | succ n ih =>
      rw [chainAt_succ]
      exact hsalt.trans ih

end Overhears

namespace Net

/-- **What the attacker overhears in a run**: all public keys and all ciphertexts.  It has the secrets
in `S` and random keys of its own. -/
def overheard (S : Set ℕ) (w : SymNet ℕ (Multiset ℕ) Plain) : Set (Msg ℕ (Multiset ℕ) Plain) :=
  {msg | match msg with
    | .sec x => x ∈ S
    | .grp e => ∃ x, e = expPublic x
    | .key k => ∃ n, k = .atom n
    | .cipher c => ∃ p k h m, .encrypted p k h c m ∈ w.log
    | .data _ => False}

theorem overhears_overheard (S : Set ℕ) (w : SymNet ℕ (Multiset ℕ) Plain) :
    Overhears S (overheard S w) where
  sec _ := Iff.rfl
  grp _ := Iff.rfl
  key _ hk := hk

end Net

/-! ### The secret of an agreement -/

/-- **The compromises that expose the secret of an agreement**, of the identity `a` and the ephemeral
secret `x` of the initiator, and the identity `i`, the signed pre-key `s` and the one-time pre-key `o`
of the responder. -/
def X3dhExposed (S : Set ℕ) (a x i s : ℕ) (o : Option ℕ) : Prop :=
  (a ∈ S ∨ s ∈ S) ∧ (x ∈ S ∨ i ∈ S) ∧ (x ∈ S ∨ s ∈ S) ∧ ∀ k ∈ o, x ∈ S ∨ k ∈ S

/-- The shared elements of an agreement, in exponents. -/
theorem initiateDhs_expSymbolic (alice bobIdentity bobSignedPrekey : X25519Keypair (expSymbolic Plain))
    (opk : Option (X25519Keypair (expSymbolic Plain))) (rng : ℕ) :
    (expSymbolic Plain).initiateDhs alice rng bobIdentity.publicKey bobSignedPrekey.publicKey
        (opk.map X25519Keypair.publicKey) =
      [expDh alice.secret (expPublic bobSignedPrekey.secret),
        expDh rng (expPublic bobIdentity.secret), expDh rng (expPublic bobSignedPrekey.secret)] ++
      (opk.map fun k => expDh rng (expPublic k.secret)).toList := by
  rw [initiateDhs, bobSignedPrekey.publicKey_eq, bobIdentity.publicKey_eq]
  cases opk with
  | none => rfl
  | some k =>
      simp only [Option.map_some, k.publicKey_eq]
      rfl

/-- The attacker has the secret of an agreement when it can build the shared elements. -/
theorem Overhears.derivable_x3dhSecret_iff (h : Overhears S known)
    (alice bobIdentity bobSignedPrekey : X25519Keypair (expSymbolic Plain))
    (opk : Option (X25519Keypair (expSymbolic Plain))) (rng : ℕ) :
    Derivable expPublic expDh known (.key ((expSymbolic Plain).x3dhSecret
        ((expSymbolic Plain).initiateDhs alice rng bobIdentity.publicKey bobSignedPrekey.publicKey
          (opk.map X25519Keypair.publicKey)))) ↔
      X3dhExposed S alice.secret rng bobIdentity.secret bobSignedPrekey.secret
        (opk.map X25519Keypair.secret) := by
  rw [initiateDhs_expSymbolic]
  refine h.derivable_agreed_iff.trans ?_
  rw [X3dhExposed]
  simp only [List.forall_mem_append, List.forall_mem_cons, List.not_mem_nil, IsEmpty.forall_iff,
    implies_true, and_true, h.derivable_shared_iff, and_assoc]
  cases opk with
  | none => simp
  | some k => simp [h.derivable_shared_iff]

/-- **When the secret of an agreement is exposed.**  Both parties compute it, and an attacker who sees
all public keys and has the secrets in `S` has it exactly if, for every one of the shared elements, it
has one of the two secrets.  The two secrets of the initiator are enough, and so are the identity
and the signed pre-key of the responder, unless a one-time pre-key was used that the attacker does not
have. -/
theorem x3dh_secrecy (h : Overhears S known)
    (alice bobIdentity bobSignedPrekey : X25519Keypair (expSymbolic Plain))
    (opk : Option (X25519Keypair (expSymbolic Plain))) (rng : ℕ) :
    ∃ sk, (expSymbolic Plain).x3dhInitiate alice bobIdentity.publicKey bobSignedPrekey.publicKey
          (opk.map X25519Keypair.publicKey) rng = .ok ⟨sk, expPublic rng⟩ ∧
        (expSymbolic Plain).x3dhRespond bobIdentity bobSignedPrekey opk alice.publicKey
          (expPublic rng) = .ok ⟨sk⟩ ∧
        (Derivable expPublic expDh known (.key sk) ↔
          X3dhExposed S alice.secret rng bobIdentity.secret bobSignedPrekey.secret
            (opk.map X25519Keypair.secret)) := by
  refine ⟨_, (expSymbolic Plain).x3dhInitiate_eq .., ?_,
    h.derivable_x3dhSecret_iff alice bobIdentity bobSignedPrekey opk rng⟩
  have hrespond := (expSymbolic Plain).x3dhRespond_eq bobIdentity bobSignedPrekey opk alice.publicKey
    (expPublic rng)
  have hsame := respondDhs_eq (expSymbolic_dhCommutes Plain) alice bobIdentity bobSignedPrekey opk rng
  exact hrespond.trans (congrArg (fun dhs => Except.ok (X3dhRespondResult.mk
    ((expSymbolic Plain).x3dhSecret dhs))) hsame)

/-- With the responder's identity and signed pre-key, but not with the one-time pre-key, the secret
stays out of reach. -/
theorem x3dh_secrecy_oneTime :
    ∃ sk, (expSymbolic ℕ).x3dhInitiate Peers.aliceKeys.identity Peers.bobKeys.identity.publicKey
          Peers.bobKeys.signedPrekey.publicKey (some (expPublic 6)) 7 = .ok ⟨sk, expPublic 7⟩ ∧
        ¬ Derivable expPublic expDh (Net.overheard {5, 0} (Exchange.sent)) (.key sk) := by
  obtain ⟨sk, hinit, -, hiff⟩ := x3dh_secrecy (Net.overhears_overheard {5, 0} Exchange.sent)
    Peers.aliceKeys.identity Peers.bobKeys.identity Peers.bobKeys.signedPrekey
    (some (.generate _ 6)) 7
  refine ⟨sk, hinit, fun hder => ?_⟩
  have hopk := (hiff.1 hder).2.2.2 6 rfl
  exact absurd hopk (by decide)

/-! ### Impersonation -/

/-- The shared elements that the responder computes, in exponents. -/
theorem respondDhs_expSymbolic (bobIdentity bobSignedPrekey alice : X25519Keypair (expSymbolic Plain))
    (opk : Option (X25519Keypair (expSymbolic Plain))) (e : Multiset ℕ) :
    (expSymbolic Plain).respondDhs bobIdentity bobSignedPrekey opk alice.publicKey e =
      [expDh bobSignedPrekey.secret (expPublic alice.secret), expDh bobIdentity.secret e,
        expDh bobSignedPrekey.secret e] ++ (opk.map fun k => expDh k.secret e).toList := by
  rw [respondDhs, alice.publicKey_eq]
  rfl

/-- **When Alice can be impersonated.**  An attacker can hand Bob an initial message that names Alice's
identity, with an ephemeral key of its own making, and come to share the root key of the session that
Bob sets up from it, exactly if it has the identity secret of Alice or the signed pre-key of Bob.  The
identity secret of Bob and his one-time pre-keys do not help. -/
theorem impersonation_iff (h : Overhears S known) (bobKeys : PeerPrivateKeys (expSymbolic Plain))
    (alice : X25519Keypair (expSymbolic Plain)) :
    (∃ initialMsg bob, initialMsg.aliceIdentityPub = alice.publicKey ∧
        Derivable expPublic expDh known (.grp initialMsg.aliceEphemeralPub) ∧
        E2eSession.respond bobKeys initialMsg = .ok bob ∧
        Derivable expPublic expDh known (.key bob.ratchet.rootKey)) ↔
      alice.secret ∈ S ∨ bobKeys.signedPrekey.secret ∈ S := by
  constructor
  · rintro ⟨initialMsg, bob, hidentity, -, hresp, hder⟩
    obtain rfl := Except.ok.inj ((E2eSession.respond_eq bobKeys initialMsg).symm.trans hresp)
    -- the first shared element does not depend on the ephemeral key
    have hdhs := h.derivable_agreed_iff.1 hder
    rw [hidentity, respondDhs_expSymbolic] at hdhs
    exact (h.derivable_shared_iff.1 (hdhs _ List.mem_cons_self)).symm
  · intro hor
    obtain ⟨y, hy⟩ : ∃ y, y ∈ S := hor.elim (⟨_, ·⟩) (⟨_, ·⟩)
    have hmix : ∀ k, Derivable expPublic expDh known (.grp (expDh k (expPublic y))) := fun k =>
      h.derivable_shared_iff.2 (Or.inr hy)
    refine ⟨⟨alice.publicKey, expPublic y, none, [], none⟩, _, rfl, h.derivable_publicKey y,
      E2eSession.respond_eq .., h.derivable_agreed_iff.2 ?_⟩
    rw [respondDhs_expSymbolic]
    intro e he
    rcases List.mem_append.1 he with he | he
    · rcases List.mem_cons.1 he with rfl | he
      · exact h.derivable_shared_iff.2 hor.symm
      · rcases List.mem_cons.1 he with rfl | he
        · exact hmix _
        · rw [List.mem_singleton.1 he]
          exact hmix _
    · exact absurd he List.not_mem_nil

/-- With Bob's identity secret alone, Alice cannot be impersonated. -/
theorem impersonation_identity :
    ¬ ∃ initialMsg bob, initialMsg.aliceIdentityPub = Peers.aliceKeys.identity.publicKey ∧
        Derivable expPublic expDh (Net.overheard {5} Exchange.sent)
          (.grp initialMsg.aliceEphemeralPub) ∧
        E2eSession.respond Peers.bobKeys initialMsg = .ok bob ∧
        Derivable expPublic expDh (Net.overheard {5} Exchange.sent) (.key bob.ratchet.rootKey) := by
  rw [impersonation_iff (Net.overhears_overheard {5} Exchange.sent) Peers.bobKeys
    Peers.aliceKeys.identity]
  rintro (h | h) <;> exact absurd h (by decide)

/-! ### The first flight -/

namespace Net

/-- **The state of a run in which Alice has not heard from Bob**: her messages are under the keys of
the chain that starts with `ck`. -/
structure FirstFlight (ck : SymKey (Multiset ℕ)) (w : SymNet ℕ (Multiset ℕ) Plain) : Prop where
  chain : ∃ n, (w.peer .alice).chainKeySend = some ((expSymbolic Plain).chainAt ck n)
  sent : ∀ k h c m, .encrypted .alice k h c m ∈ w.log →
    ∃ n, k = (expSymbolic Plain).msgKey ((expSymbolic Plain).chainAt ck n)
  sealed : ∀ p k h c m, .encrypted p k h c m ∈ w.log → ∃ nonce, c = .sealed k nonce [] m

variable {w w₀ : SymNet ℕ (Multiset ℕ) Plain} {ck : SymKey (Multiset ℕ)}

/-- Sending goes on with the chain. -/
theorem FirstFlight.encrypt (h : w.FirstFlight ck) (p : Party) (m : Plain) :
    (w.encrypt (expSymbolic Plain) p m).FirstFlight ck := by
  cases hck : (w.peer p).chainKeySend with
  | none => rwa [encrypt_of_none hck]
  | some ck' =>
      rw [expSymbolic, encrypt_symbolic w p m hck]
      refine ⟨?_, ?_, ?_⟩
      · obtain ⟨n, hn⟩ := h.chain
        cases p with
        | alice =>
            obtain rfl := Option.some_inj.1 (hck.symm.trans hn)
            exact ⟨n + 1, congrArg some ((expSymbolic Plain).chainAt_succ ck n).symm⟩
        | bob => exact ⟨n, hn⟩
      · intro k hd c m' he
        rcases List.mem_append.1 he with he | he
        · exact h.sent k hd c m' he
        · obtain ⟨n, hn⟩ := h.chain
          cases List.mem_singleton.1 he
          obtain rfl := Option.some_inj.1 (hck.symm.trans hn)
          exact ⟨n, rfl⟩
      · intro q k hd c m' he
        rcases List.mem_append.1 he with he | he
        · exact h.sealed q k hd c m' he
        · cases List.mem_singleton.1 he
          exact ⟨_, rfl⟩

/-- What Bob receives leaves the first flight as it is. -/
theorem FirstFlight.decrypt_bob (h : w.FirstFlight ck) (hd : Header (Multiset ℕ))
    (c : SymCipher (Multiset ℕ) Plain) (rng : ℕ) :
    (w.decrypt (expSymbolic Plain) .bob hd c rng).FirstFlight ck :=
  ⟨h.chain, fun k hd' c' m he => h.sent k hd' c' m (encrypted_of_mem_decrypt he),
    fun q k hd' c' m he => h.sealed q k hd' c' m (encrypted_of_mem_decrypt he)⟩

/-- Until Alice has received something, a run is in its first flight. -/
theorem FirstFlight.of_run {allowed : Inputs ℕ (Multiset ℕ) (SymKey (Multiset ℕ)) Plain
      (SymCipher (Multiset ℕ) Plain)} (h : w₀.FirstFlight ck)
    (hrun : Relation.ReflTransGen (Step (expSymbolic Plain) allowed) w₀ w)
    (hnone : receivedBy .alice w.log = []) : w.FirstFlight ck := by
  induction hrun with
  | refl => exact h
  | @tail w₁ w₂ _ hstep ih =>
      cases hstep with
      | encrypt p m =>
          refine (ih ?_).encrypt p m
          obtain ⟨l, hl⟩ : ∃ l, (w₁.encrypt (expSymbolic Plain) p m).log = w₁.log ++ l := ⟨_, rfl⟩
          rw [hl, receivedBy, List.filterMap_append] at hnone
          exact (List.append_eq_nil_iff.1 hnone).1
      | decrypt p hd c rng _ =>
          rw [receivedBy_decrypt] at hnone
          cases p with
          | alice => exact absurd hnone (by simp)
          | bob => exact (ih hnone).decrypt_bob hd c rng

/-- **What the attacker can read**: what was sent under a key that it can derive. -/
theorem derivable_data_iff
    (hsealed : ∀ p k h c m, .encrypted p k h c m ∈ w.log → ∃ nonce, c = .sealed k nonce [] m)
    {m : Plain} :
    Derivable expPublic expDh (overheard S w) (.data m) ↔
      ∃ p k h c, .encrypted p k h c m ∈ w.log ∧
        Derivable expPublic expDh (overheard S w) (.key k) := by
  constructor
  · intro hm
    -- a ciphertext under a derivable key contains something that was sent under a derivable key
    let motive : Msg ℕ (Multiset ℕ) Plain → Prop := fun msg =>
      match msg with
      | .data m => ∃ p k h c, .encrypted p k h c m ∈ w.log ∧
          Derivable expPublic expDh (overheard S w) (.key k)
      | .cipher (.sealed k _ _ m) => Derivable expPublic expDh (overheard S w) (.key k) →
          ∃ p k' h c, .encrypted p k' h c m ∈ w.log ∧
            Derivable expPublic expDh (overheard S w) (.key k')
      | _ => True
    suffices haux : ∀ msg, Derivable expPublic expDh (overheard S w) msg → motive msg from
      haux _ hm
    intro msg hder
    induction hder with
    | @known msg hmem =>
        cases msg with
        | cipher c =>
            obtain ⟨p, k, h, m', he⟩ := hmem
            obtain ⟨nonce, rfl⟩ := hsealed p k h c m' he
            exact fun hk => ⟨p, k, h, _, he, hk⟩
        | data m' => exact absurd hmem id
        | sec x => trivial
        | grp e => trivial
        | key k => trivial
    | seal' nonce aad _ _ _ ihm => exact fun _ => ihm
    | open' hk _ _ ihc => exact ihc hk
    | publicKey _ _ => trivial
    | diffieHellman _ _ _ _ => trivial
    | expand info block _ _ _ _ => trivial
    | agreed info block _ _ _ _ => trivial
    | junk n => trivial
  · rintro ⟨p, k, h, c, he, hk⟩
    obtain ⟨nonce, rfl⟩ := hsealed p k h c m he
    exact .open' hk (.known ⟨p, k, h, m, he⟩)

/-- In the first flight a message of Alice's can be read with the key that her chain starts with. -/
theorem FirstFlight.derivable_data_iff (hstart : w.FirstFlight ck)
    (hbob : ∀ k h c m, .encrypted .bob k h c m ∉ w.log) {k : SymKey (Multiset ℕ)}
    {h : Header (Multiset ℕ)} {c : SymCipher (Multiset ℕ) Plain} {m : Plain}
    (he : .encrypted .alice k h c m ∈ w.log) :
    Derivable expPublic expDh (overheard S w) (.data m) ↔
      Derivable expPublic expDh (overheard S w) (.key ck) := by
  have hover := overhears_overheard S w
  rw [Net.derivable_data_iff hstart.sealed]
  constructor
  · rintro ⟨p, k', h', c', he', hk⟩
    cases p with
    | alice =>
        obtain ⟨n, rfl⟩ := hstart.sent k' h' c' m he'
        exact (hover.derivable_msgKey_iff n).1 hk
    | bob => exact absurd he' (hbob k' h' c' m)
  · intro hck
    obtain ⟨n, rfl⟩ := hstart.sent k h c m he
    exact ⟨.alice, _, h, c, he, (hover.derivable_msgKey_iff n).2 hck⟩

/-- **When the first flight can be read.**  Alice sets up a session from Bob's published keys and goes
on to send messages, and Bob has not answered yet.  An attacker who sees all traffic, whatever it
hands to Bob, can read a message of hers exactly if the secret of the agreement is exposed and so is
the first step of the root chain, of which the secrets are Alice's first ratchet key and Bob's signed
pre-key. -/
theorem first_flight {allowed : Inputs ℕ (Multiset ℕ) (SymKey (Multiset ℕ)) Plain
      (SymCipher (Multiset ℕ) Plain)} (aliceKeys bobKeys : PeerPrivateKeys (expSymbolic Plain))
    (rng rng' : ℕ) (S : Set ℕ) :
    ∃ alice initialMsg bob,
      E2eSession.initiate aliceKeys bobKeys.publicKeys rng rng' = .ok (alice, initialMsg) ∧
      E2eSession.respond bobKeys initialMsg = .ok bob ∧
      ∀ w, Relation.ReflTransGen (Step (expSymbolic Plain) allowed) (ofSessions alice bob) w →
        receivedBy .alice w.log = [] → (∀ k h c m, .encrypted .bob k h c m ∉ w.log) →
        ∀ k h c m, .encrypted .alice k h c m ∈ w.log →
          (Derivable expPublic expDh (overheard S w) (.data m) ↔
            X3dhExposed S aliceKeys.identity.secret rng bobKeys.identity.secret
                bobKeys.signedPrekey.secret (bobKeys.oneTimePrekeys.head?.map X25519Keypair.secret) ∧
              (rng' ∈ S ∨ bobKeys.signedPrekey.secret ∈ S)) := by
  refine ⟨_, _, _, E2eSession.initiate_eq .., E2eSession.respond_eq .., ?_⟩
  intro w hrun hnone hbob k h c m he
  have hhead : bobKeys.publicKeys.oneTimePrekeys.head? =
      bobKeys.oneTimePrekeys.head?.map X25519Keypair.publicKey := List.head?_map
  rw [hhead] at hrun
  have hstart := FirstFlight.of_run
    ⟨⟨0, rfl⟩, fun _ _ _ _ he => absurd he List.not_mem_nil,
      fun _ _ _ _ _ he => absurd he List.not_mem_nil⟩ hrun hnone
  have hover := overhears_overheard S w
  refine (hstart.derivable_data_iff hbob he).trans
    (hover.derivable_expand_iff.trans (and_congr ?_ ?_))
  · exact hover.derivable_x3dhSecret_iff aliceKeys.identity bobKeys.identity bobKeys.signedPrekey _ rng
  · have hpub : bobKeys.publicKeys.signedPrekeyPub = expPublic bobKeys.signedPrekey.secret :=
      bobKeys.signedPrekey.publicKey_eq
    rw [hpub]
    constructor
    · intro hall
      exact hover.derivable_shared_iff.1 (hall _ rfl)
    · rintro hor _ ⟨⟩
      exact hover.derivable_shared_iff.2 hor

end Net

/-- Without a secret of the parties, the first of two messages cannot be read. -/
theorem first_flight_unread :
    ∃ alice initialMsg bob,
      E2eSession.initiate Peers.aliceKeys Peers.bobKeys.publicKeys 7 1 = .ok (alice, initialMsg) ∧
      E2eSession.respond Peers.bobKeys initialMsg = .ok bob ∧
      ¬ Derivable expPublic expDh (Net.overheard {8} (Peers.sentTwice alice bob)) (.data 10) := by
  have hflight := @Net.first_flight ℕ Net.Anything Peers.aliceKeys Peers.bobKeys 7 1 {8}
  obtain ⟨alice, initialMsg, bob, hinit, hresp, hsecret⟩ := hflight
  refine ⟨alice, initialMsg, bob, hinit, hresp, ?_⟩
  have hrun : Relation.ReflTransGen (Net.Step (expSymbolic ℕ) Net.Anything)
      (Net.ofSessions alice bob) (Peers.sentTwice alice bob) :=
    (Relation.ReflTransGen.single (.encrypt _ .alice 10)).tail (.encrypt _ .alice 20)
  have hread := hsecret _ hrun
  have halice := (E2eSession.initiate_eq ..).symm.trans hinit
  obtain ⟨rfl, rfl⟩ := Prod.mk.inj (Except.ok.inj halice)
  rw [hread rfl ?bob ((expSymbolic ℕ).msgKey Peers.chainKey) _ _ 10 ?sent]
  case sent => exact List.mem_of_getElem? (i := 0) rfl
  case bob =>
    intro k h c m he
    rcases List.mem_cons.1 he with he | he
    · cases he
    · cases List.mem_singleton.1 he
  · rintro ⟨⟨h | h, -⟩, -⟩ <;> exact absurd h (by decide)

end Sanctum
