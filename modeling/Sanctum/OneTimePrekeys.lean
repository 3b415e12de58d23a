/-
The one-time pre-keys of a peer.

A peer answers initial messages with `respond`, which reads the private keys and does not change them: a
one-time pre-key that has been used stays in the pool under its number.  So an initial message that is
sent again makes the same session once more, and every initiator that takes the first key of the
published pool takes the same one.  A peer whose pool has changed in the meantime makes a session too,
and only the first key of the pool decides whether the two sides share a secret.

Main definitions:

* `Sanctum.PeerPrivateKeys.namedPrekey` — the one-time pre-key that an initial message names;
* `Sanctum.Responder`, `Sanctum.Responder.step` — a peer that answers initial messages;
* `Sanctum.Responder.UsedOnce` — each one-time pre-key has contributed to at most one session.

Main results:

* `Sanctum.Responder.respond_again` — an initial message always makes the same session;
* `Sanctum.Responder.used_once_iff` — **when one-time pre-keys are used once**;
* `Sanctum.Responder.respond_agrees_iff` — **when a session starts from an agreed secret**.
-/

import Sanctum.E2eSession
import Sanctum.Runs
import Sanctum.Symbolic

set_option relaxedAutoImplicit false
set_option autoImplicit false

namespace Sanctum

variable {Sec Grp Key Nonce Plain Cipher : Type} {P : Primitives Sec Grp Key Nonce Plain Cipher}

/-- The one-time pre-key that an initial message names: the number may be missing, or too large for the
pool, and then the session is made without one. -/
def PeerPrivateKeys.namedPrekey (keys : PeerPrivateKeys P) (msg : InitialMessage Grp) :
    Option (X25519Keypair P) :=
  msg.opkIndex.bind fun idx => keys.oneTimePrekeys[idx.toNat]?

/-- A session that has been made in answer to an initial message. -/
structure Answered (P : Primitives Sec Grp Key Nonce Plain Cipher) where
  msg : InitialMessage Grp
  session : E2eSession Sec Grp Key

/-- **A peer that answers initial messages**, with the sessions made so far, oldest first. -/
structure Responder (P : Primitives Sec Grp Key Nonce Plain Cipher) where
  keys : PeerPrivateKeys P
  answered : List (Answered P)

namespace Responder

def new (keys : PeerPrivateKeys P) : Responder P where
  keys := keys
  answered := []

/-- A call of `respond`, which borrows the keys. -/
def answer (r : Responder P) (msg : InitialMessage Grp) : Responder P :=
  match E2eSession.respond r.keys msg with
  | .ok session => { r with answered := r.answered ++ [⟨msg, session⟩] }
  | .error _ => r

/-- Every call leads somewhere. -/
def step (r : Responder P) (msg : InitialMessage Grp) : Option (Responder P) := some (r.answer msg)

/-- **One-time pre-keys are used once.** -/
structure UsedOnce (r : Responder P) : Prop where
  /-- A key contributes to one session. -/
  once : r.answered.Pairwise fun a b => ∀ opk, r.keys.namedPrekey a.msg = some opk →
    r.keys.namedPrekey b.msg ≠ some opk
  /-- An initial message that names a key makes no second session with the same shared secret. -/
  replay : r.answered.Pairwise fun a b => a.msg = b.msg → r.keys.namedPrekey a.msg ≠ none →
    a.session.ratchet.rootKey ≠ b.session.ratchet.rootKey

/-- The one-time pre-key that the initial message names has not been named before. -/
def Unnamed (r : Responder P) (msg : InitialMessage Grp) : Prop :=
  ∀ a ∈ r.answered, ∀ opk, r.keys.namedPrekey a.msg = some opk → r.keys.namedPrekey msg ≠ some opk

/-- Every call makes a session: HKDF does not fail for 32 bytes. -/
theorem exists_answer (r : Responder P) (msg : InitialMessage Grp) :
    ∃ session, E2eSession.respond r.keys msg = .ok session ∧
      r.answer msg = { r with answered := r.answered ++ [⟨msg, session⟩] } := by
  refine ⟨_, E2eSession.respond_eq r.keys msg, ?_⟩
  unfold answer
  rw [E2eSession.respond_eq]

/-- The shared secret of a session is derived with the key that the initial message names. -/
theorem rootKey_respond {keys : PeerPrivateKeys P} {msg : InitialMessage Grp}
    {session : E2eSession Sec Grp Key} (h : E2eSession.respond keys msg = .ok session) :
    session.ratchet.rootKey = P.x3dhSecret (P.respondDhs keys.identity keys.signedPrekey
      (keys.namedPrekey msg) msg.aliceIdentityPub msg.aliceEphemeralPub) := by
  rw [E2eSession.respond_eq] at h
  obtain rfl := Except.ok.inj h
  rfl

theorem exists_step (r : Responder P) (msg : InitialMessage Grp) : ∃ r', r.step msg = some r' :=
  ⟨r.answer msg, rfl⟩

theorem usedOnce_step {r r' : Responder P} {msg : InitialMessage Grp} (hr : r.UsedOnce)
    (hstep : r.step msg = some r') : r'.UsedOnce ↔ r.Unnamed msg := by
  obtain rfl := Option.some_inj.1 hstep
  obtain ⟨session, -, hanswer⟩ := r.exists_answer msg
  rw [hanswer]
  constructor
  · rintro ⟨honce, -⟩ a ha
    exact (List.pairwise_append.1 honce).2.2 a ha ⟨msg, session⟩ List.mem_cons_self
  · intro hunnamed
    refine ⟨?_, ?_⟩
    · refine List.pairwise_append.2 ⟨hr.once, List.pairwise_singleton _ _, ?_⟩
      intro a ha b hb
      obtain rfl := List.mem_singleton.1 hb
      exact hunnamed a ha
    · refine List.pairwise_append.2 ⟨hr.replay, List.pairwise_singleton _ _, ?_⟩
      intro a ha b hb heq hnamed
      obtain rfl := List.mem_singleton.1 hb
      -- the same message names the same key
      obtain ⟨opk, hopk⟩ := Option.ne_none_iff_exists'.1 hnamed
      have hsame : r.keys.namedPrekey msg = some opk := by
        rw [← hopk, show a.msg = msg from heq]
      exact absurd hsame (hunnamed a ha opk hopk)

/-- **When one-time pre-keys are used once**: throughout a sequence of calls of `respond`, each one-time
pre-key contributes to at most one session, and no replay makes a session with the same secret, exactly
if no initial message names a key of the pool that an earlier one has named. -/
theorem used_once_iff (keys : PeerPrivateKeys P) (msgs : List (InitialMessage Grp)) :
    Runs.Throughout step UsedOnce (new keys) msgs ↔ Runs.Meets step Unnamed (new keys) msgs := by
  have hnew : (new keys).UsedOnce := ⟨.nil, .nil⟩
  refine Runs.throughout_iff_meets_of_step exists_step ?_ hnew
  intro r msg r' hr hstep
  exact usedOnce_step hr hstep

theorem keys_run {r r' : Responder P} {msgs : List (InitialMessage Grp)}
    (hrun : Runs.run step r msgs = some r') : r'.keys = r.keys := by
  have hstep : ∀ (t : Responder P) (msg : InitialMessage Grp) (t' : Responder P),
      t.keys = r.keys → t.step msg = some t' → t'.keys = r.keys := by
    intro t msg t' ht hstep
    obtain rfl := Option.some_inj.1 hstep
    obtain ⟨session, -, hanswer⟩ := t.exists_answer msg
    rw [hanswer]
    exact ht
  exact Runs.run_induction hstep rfl hrun

/-- **A replayed initial message makes the same session again**, at any later time, so that everything
the first session decrypts is decrypted by the second one. -/
theorem respond_again {r r' : Responder P} {msgs : List (InitialMessage Grp)}
    (hrun : Runs.run step r msgs = some r') (msg : InitialMessage Grp) :
    E2eSession.respond r'.keys msg = E2eSession.respond r.keys msg := by
  rw [keys_run hrun]

/-- The peer with the pre-keys. -/
def testKeys : PeerPrivateKeys (expSymbolic ℕ) where
  identity := .generate _ 5
  signedPrekey := .generate _ 0
  oneTimePrekeys := [.generate _ 6, .generate _ 8]

/-- The keys of an initiator. -/
def testInitiator (identity : ℕ) : PeerPrivateKeys (expSymbolic ℕ) where
  identity := .generate _ identity
  signedPrekey := .generate _ 4
  oneTimePrekeys := []

/-- **A one-time pre-key is used three times**: two initiators take the first key of the published pool,
and the initial message of the first one is replayed. -/
theorem prekey_used_again : ∃ alice msg carol msg' bob bob' r,
    E2eSession.initiate (testInitiator 3) testKeys.publicKeys 7 1 = .ok (alice, msg) ∧
      E2eSession.initiate (testInitiator 9) testKeys.publicKeys 10 11 = .ok (carol, msg') ∧
      Runs.run step (new testKeys) [msg, msg', msg] = some r ∧
      r.answered = [⟨msg, bob⟩, ⟨msg', bob'⟩, ⟨msg, bob⟩] ∧
      testKeys.namedPrekey msg = some (.generate _ 6) ∧
      testKeys.namedPrekey msg' = some (.generate _ 6) ∧ ¬ r.UsedOnce := by
  refine ⟨_, _, _, _, _, _, _, E2eSession.initiate_eq _ _ _ _, E2eSession.initiate_eq _ _ _ _, rfl, rfl,
    rfl, rfl, ?_⟩
  rintro ⟨honce, -⟩
  exact (List.pairwise_cons.1 honce).1 _ List.mem_cons_self _ rfl rfl

/-! ### Pools that change -/

section Pools

variable {aliceKeys bobKeys : PeerPrivateKeys P} {rng rng' : Sec} {alice : E2eSession Sec Grp Key}
variable {msg : InitialMessage Grp}

/-- The one-time pre-key that an initial message names in a later pool: the first one, if there was one
when the message was made. -/
theorem namedPrekey_initiate
    (h : E2eSession.initiate aliceKeys bobKeys.publicKeys rng rng' = .ok (alice, msg))
    (keys : PeerPrivateKeys P) :
    keys.namedPrekey msg =
      if bobKeys.oneTimePrekeys = [] then none else keys.oneTimePrekeys.head? := by
  rw [E2eSession.initiate_eq] at h
  obtain ⟨-, rfl⟩ := Prod.mk.inj (Except.ok.inj h)
  unfold PeerPrivateKeys.namedPrekey PeerPrivateKeys.publicKeys
  cases bobKeys.oneTimePrekeys with
  | nil => rfl
  | cons opk opks =>
      rw [if_neg (List.cons_ne_nil _ _)]
      exact List.head?_eq_getElem?.symm

/-- The shared secret that Bob makes of an initial message: it is derived with the key that he finds. -/
theorem rootKey_respond_initiate (hcomm : P.DhCommutes)
    (h : E2eSession.initiate aliceKeys bobKeys.publicKeys rng rng' = .ok (alice, msg))
    {pool : List (X25519Keypair P)} {bob : E2eSession Sec Grp Key}
    (hbob : E2eSession.respond { bobKeys with oneTimePrekeys := pool } msg = .ok bob) :
    bob.ratchet.rootKey = P.x3dhSecret (P.initiateDhs aliceKeys.identity rng
      bobKeys.identity.publicKey bobKeys.signedPrekey.publicKey
      ((if bobKeys.oneTimePrekeys = [] then none else pool.head?).map X25519Keypair.publicKey)) := by
  rw [rootKey_respond hbob, namedPrekey_initiate h]
  rw [E2eSession.initiate_eq] at h
  obtain ⟨-, rfl⟩ := Prod.mk.inj (Except.ok.inj h)
  rw [Primitives.respondDhs_eq hcomm]

/-- **When a session starts from an agreed secret.**  Alice initiates a session with Bob, whose pool of
one-time pre-keys is another one when the initial message arrives.  What he makes of it has Alice's
shared secret exactly if his pool was empty, or if its first key is still the first one: he does not
notice that the key has gone. -/
theorem respond_agrees_iff (hcomm : P.DhCommutes) (hdh : P.DhDetermines)
    (h : E2eSession.initiate aliceKeys bobKeys.publicKeys rng rng' = .ok (alice, msg))
    (pool : List (X25519Keypair P))
    (hhkdf : P.SecretsDiffer
      (P.initiateDhs aliceKeys.identity rng bobKeys.identity.publicKey bobKeys.signedPrekey.publicKey
        (pool.head?.map X25519Keypair.publicKey))
      (P.initiateDhs aliceKeys.identity rng bobKeys.identity.publicKey bobKeys.signedPrekey.publicKey
        (bobKeys.oneTimePrekeys.head?.map X25519Keypair.publicKey))) :
    ∃ sk, P.x3dhInitiate aliceKeys.identity bobKeys.publicKeys.identityPub
          bobKeys.publicKeys.signedPrekeyPub bobKeys.publicKeys.oneTimePrekeys.head? rng =
        .ok ⟨sk, msg.aliceEphemeralPub⟩ ∧
      alice.ratchet = P.aliceStart sk bobKeys.publicKeys.signedPrekeyPub rng' ∧
      ((∀ bob, E2eSession.respond { bobKeys with oneTimePrekeys := pool } msg = .ok bob →
          bob.ratchet.rootKey = sk) ↔
        bobKeys.oneTimePrekeys = [] ∨ pool.head?.map X25519Keypair.publicKey =
          bobKeys.oneTimePrekeys.head?.map X25519Keypair.publicKey) := by
  have hhead : bobKeys.publicKeys.oneTimePrekeys.head? =
      bobKeys.oneTimePrekeys.head?.map X25519Keypair.publicKey := List.head?_map
  have hinit := h
  rw [E2eSession.initiate_eq] at hinit
  obtain ⟨rfl, hmsg⟩ := Prod.mk.inj (Except.ok.inj hinit)
  have hephemeral : msg.aliceEphemeralPub = P.publicKey rng := by rw [← hmsg]
  refine ⟨_, hephemeral ▸ P.x3dhInitiate_eq _ _ _ _ _, rfl, ?_⟩
  rw [hhead]
  constructor
  · intro hagree
    have heq := hagree _ (E2eSession.respond_eq _ _)
    rw [rootKey_respond_initiate hcomm h (E2eSession.respond_eq _ _)] at heq
    by_cases hempty : bobKeys.oneTimePrekeys = []
    · exact Or.inl hempty
    · rw [if_neg hempty] at heq
      exact Or.inr ((Primitives.initiateDhs_inj hdh _ _ _ _ _ _).1 (hhkdf heq))
  · intro hsame bob hbob
    rw [rootKey_respond_initiate hcomm h hbob]
    by_cases hempty : bobKeys.oneTimePrekeys = []
    · rw [if_pos hempty, hempty]
      rfl
    · rw [if_neg hempty, hsame.resolve_left hempty]
      rfl

end Pools

/-- The agreement holds if the first key of the pool is still the first one, whatever follows it. -/
theorem respond_agrees_testKeys : ∃ alice msg sk,
    E2eSession.initiate (testInitiator 3) testKeys.publicKeys 7 1 = .ok (alice, msg) ∧
      (expSymbolic ℕ).x3dhInitiate (testInitiator 3).identity testKeys.publicKeys.identityPub
          testKeys.publicKeys.signedPrekeyPub testKeys.publicKeys.oneTimePrekeys.head? 7 =
        .ok ⟨sk, msg.aliceEphemeralPub⟩ ∧
      ∀ bob, E2eSession.respond { testKeys with oneTimePrekeys := [.generate _ 6, .generate _ 12] } msg =
          .ok bob → bob.ratchet.rootKey = sk := by
  have h := E2eSession.initiate_eq (testInitiator 3) testKeys.publicKeys 7 1
  obtain ⟨sk, hsk, -, hiff⟩ := respond_agrees_iff (expSymbolic_dhCommutes ℕ)
    (expSymbolic_dhDetermines ℕ) h [.generate _ 6, .generate _ 12]
    (fun hsecret => (SymKey.agreed.inj hsecret).1)
  exact ⟨_, _, sk, h, hsk, hiff.2 (Or.inr rfl)⟩

/-- **Bob makes a session with another secret** when the pre-key that Alice has used is gone, whether
there is another one in its place or none. -/
theorem prekey_gone : ∃ alice msg sk bob bob',
    E2eSession.initiate (testInitiator 3) testKeys.publicKeys 7 1 = .ok (alice, msg) ∧
      (expSymbolic ℕ).x3dhInitiate (testInitiator 3).identity testKeys.publicKeys.identityPub
          testKeys.publicKeys.signedPrekeyPub testKeys.publicKeys.oneTimePrekeys.head? 7 =
        .ok ⟨sk, msg.aliceEphemeralPub⟩ ∧
      E2eSession.respond { testKeys with oneTimePrekeys := [.generate _ 8] } msg = .ok bob ∧
      bob.ratchet.rootKey ≠ sk ∧
      E2eSession.respond { testKeys with oneTimePrekeys := [] } msg = .ok bob' ∧
      bob'.ratchet.rootKey ≠ sk := by
  refine ⟨_, _, _, _, _, E2eSession.initiate_eq _ _ _ _, Primitives.x3dhInitiate_eq _ _ _ _ _ _,
    E2eSession.respond_eq _ _, ?_, E2eSession.respond_eq _ _, ?_⟩
  · decide
  · decide

end Responder

end Sanctum
