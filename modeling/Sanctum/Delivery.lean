/-
Delivery: what one peer has encrypted, the other one decrypts.

The two sessions are those that `initiate` and `respond` make from the keys of two peers.  From then
on either peer encrypts, and an honest network delivers what it likes of the messages in any order.

Main definitions:

* `Sanctum.Net.ofSessions`, `Sanctum.Net.session` — the run that begins with two sessions, and the
  sessions along it.

Main results:

* `Sanctum.Net.session_encrypt`, `Sanctum.Net.session_decrypt` — the moves of a run are the calls of
  the sessions;
* `Sanctum.delivery_correct` — **every delivered message is decrypted to its plaintext**.
-/

import Sanctum.E2eSession
import Sanctum.HonestRun

set_option relaxedAutoImplicit false
set_option autoImplicit false

namespace Sanctum

variable {Sec Grp Key Nonce Plain Cipher : Type}
variable {P : Primitives Sec Grp Key Nonce Plain Cipher}

namespace Net

/-- The run of two sessions in which nothing has happened. -/
def ofSessions (alice bob : E2eSession Sec Grp Key) : Net Sec Grp Key Plain Cipher where
  peer
    | .alice => alice.ratchet
    | .bob => bob.ratchet
  generated := [(.alice, alice.ratchet.dhSelfPublic), (.bob, bob.ratchet.dhSelfPublic)]
  log := []

/-- **The session of a party**, in a run that began with `alice` and `bob`. -/
def session (alice bob : E2eSession Sec Grp Key) (w : Net Sec Grp Key Plain Cipher) :
    Party → E2eSession Sec Grp Key
  | .alice => { alice with ratchet := w.peer .alice }
  | .bob => { bob with ratchet := w.peer .bob }

variable {alice bob : E2eSession Sec Grp Key}

@[simp] theorem session_ratchet (w : Net Sec Grp Key Plain Cipher) (p : Party) :
    (session alice bob w p).ratchet = w.peer p := by
  cases p <;> rfl

/-- Sessions that share a secret begin a run as `start` does. -/
theorem start_eq_ofSessions {sk : Key} {spk rng : Sec}
    (halice : alice.ratchet = P.aliceStart sk (P.publicKey spk) rng)
    (hbob : bob.ratchet = RatchetState.initBob sk spk (P.publicKey spk)) :
    start P sk spk rng = .ok (ofSessions alice bob) := by
  refine (start_eq_ok_iff P).2 ⟨halice, hbob, ?_, rfl⟩
  rw [ofSessions, halice, hbob]
  rfl

/-- A session depends on the ratchet of its party. -/
theorem session_eq {w w' : Net Sec Grp Key Plain Cipher} {p : Party} {s : RatchetState Sec Grp Key}
    (h : w'.peer p = s) :
    session alice bob w' p = { session alice bob w p with ratchet := s } := by
  subst h
  cases p <;> rfl

/-- The move of a party that encrypts is the call of its session. -/
theorem session_encrypt (w : Net Sec Grp Key Plain Cipher) (p : Party) (m : Plain) :
    (session alice bob w p).encrypt P m =
      ((P.encrypt (w.peer p) m).1, session alice bob (w.encrypt P p m) p) := by
  have hpeer : (w.encrypt P p m).peer p = (P.encrypt (w.peer p) m).2 := Function.update_self ..
  rw [session_eq hpeer, E2eSession.encrypt, session_ratchet]

/-- The move of a party that is handed a message is the call of its session. -/
theorem session_decrypt [DecidableEq Grp] (w : Net Sec Grp Key Plain Cipher) (p : Party)
    (h : Header Grp) (c : Cipher) (rng : Sec) :
    (session alice bob w p).decrypt P h c rng =
      ((P.decrypt (w.peer p) h c rng).1, session alice bob (w.decrypt P p h c rng) p) := by
  have hpeer : (w.decrypt P p h c rng).peer p = (P.decrypt (w.peer p) h c rng).2 :=
    Function.update_self ..
  rw [session_eq hpeer, E2eSession.decrypt, session_ratchet]

variable [DecidableEq Grp]

/-- **In an honest run every delivery succeeds**, with the plaintext of the message. -/
theorem InStep.decrypt_eq_ok (hcomm : P.DhCommutes) (haead : P.AeadInverts) {sk : Key}
    {d : Dialogue Sec} {w : Net Sec Grp Key Plain Cipher} (h : w.InStep P sk d)
    (hfull : ∀ pk, sentInChain pk w.log < 2 ^ 32 - 256) {p : Party} {hd : Header Grp} {c : Cipher}
    {rng : Sec} (hin : Orderly P w p hd c rng) {k : Key} {m : Plain}
    (he : .encrypted p.other k hd c m ∈ w.log) : (P.decrypt (w.peer p) hd c rng).1 = .ok m := by
  obtain ⟨-, -, -, -, -, -, -, hseal⟩ := h.sent _ _ _ _ _ he
  obtain ⟨c', hseal', hopen⟩ := haead k (P.nonceOf k) m []
  obtain rfl := Option.some_inj.1 (hseal.symm.trans hseal')
  exact P.decrypt_eq_ok_iff.2 ⟨k, (h.deliver hcomm hfull hin he).1, hopen⟩

end Net

/-- **Delivery correctness of the end-to-end stack.**  Two peers set up their sessions, and then
either one encrypts while the network delivers messages in any order, each at most once and within
the limits on skipping; then every message that is delivered is decrypted by its receiver to the
plaintext it was made from. -/
theorem delivery_correct [DecidableEq Grp] (hcomm : P.DhCommutes) (haead : P.AeadInverts)
    (aliceKeys bobKeys : PeerPrivateKeys P) (rng rng' : Sec)
    (hne : P.publicKey rng' ≠ bobKeys.signedPrekey.publicKey) :
    ∃ alice initialMsg bob,
      E2eSession.initiate aliceKeys bobKeys.publicKeys rng rng' = .ok (alice, initialMsg) ∧
      E2eSession.respond bobKeys initialMsg = .ok bob ∧
      ∀ w, Relation.ReflTransGen (Net.Step P (Net.Orderly P)) (Net.ofSessions alice bob) w →
        (∀ pk, sentInChain pk w.log < 2 ^ 32 - 256) →
        ∀ p h c fresh k m, Net.Orderly P w p h c fresh → .encrypted p.other k h c m ∈ w.log →
          ((Net.session alice bob w p).decrypt P h c fresh).1 = .ok m := by
  obtain ⟨⟨alice, initialMsg⟩, hinit⟩ : ∃ result,
      E2eSession.initiate aliceKeys bobKeys.publicKeys rng rng' = .ok result :=
    ⟨_, E2eSession.initiate_eq ..⟩
  obtain ⟨sk, halice, bob, hresp, hbob⟩ := E2eSession.respond_initiate hcomm hinit
  refine ⟨alice, initialMsg, bob, hinit, hresp, ?_⟩
  intro w hrun hfull p h c fresh k m hin he
  rw [bobKeys.signedPrekey.publicKey_eq] at hne
  have hstart := Net.start_eq_ofSessions halice hbob
  obtain ⟨d, hd⟩ := Net.inStep_of_run hcomm haead (Net.inStep_start hne hstart) hrun hfull
  rw [Net.session_decrypt]
  exact hd.decrypt_eq_ok hcomm haead hfull hin he

namespace Peers

/-- The keys of Alice. -/
def aliceKeys : PeerPrivateKeys (expSymbolic ℕ) where
  identity := .generate _ 3
  signedPrekey := .generate _ 4
  oneTimePrekeys := []

/-- The keys of Bob, with one one-time pre-key. -/
def bobKeys : PeerPrivateKeys (expSymbolic ℕ) where
  identity := .generate _ 5
  signedPrekey := .generate _ 0
  oneTimePrekeys := [.generate _ 6]

/-- The sending chain of Alice. -/
def chainKey : SymKey (Multiset ℕ) :=
  (expSymbolic ℕ).chainStep ((expSymbolic ℕ).x3dhSecret ((expSymbolic ℕ).initiateDhs
    aliceKeys.identity 7 (expPublic 5) (expPublic 0) (some (expPublic 6)))) (expDh 1 (expPublic 0))

/-- The key of her second message. -/
def secondKey : SymKey (Multiset ℕ) := (expSymbolic ℕ).msgKey ((expSymbolic ℕ).nextCk chainKey)

/-- The ciphertext of her second message. -/
def second : SymCipher (Multiset ℕ) ℕ :=
  .sealed secondKey ((expSymbolic ℕ).nonceOf secondKey) [] 20

/-- Alice has sent two messages. -/
def sentTwice (alice bob : E2eSession ℕ (Multiset ℕ) (SymKey (Multiset ℕ))) :
    Net.SymNet ℕ (Multiset ℕ) ℕ :=
  ((Net.ofSessions alice bob).encrypt (expSymbolic ℕ) .alice 10).encrypt (expSymbolic ℕ) .alice 20

end Peers

/-- The second of two messages arrives first, and is decrypted. -/
theorem delivery_of_second :
    ∃ alice initialMsg bob,
      E2eSession.initiate Peers.aliceKeys Peers.bobKeys.publicKeys 7 1 = .ok (alice, initialMsg) ∧
      E2eSession.respond Peers.bobKeys initialMsg = .ok bob ∧
      ((Net.session alice bob (Peers.sentTwice alice bob) .bob).decrypt (expSymbolic ℕ)
        ⟨expPublic 1, 0, 1⟩ Peers.second 2).1 = .ok 20 := by
  obtain ⟨alice, initialMsg, bob, hinit, hresp, hdeliver⟩ :=
    delivery_correct (expSymbolic_dhCommutes ℕ) (symbolic_aeadInverts expPublic expDh)
      Peers.aliceKeys Peers.bobKeys 7 1 (by decide)
  refine ⟨alice, initialMsg, bob, hinit, hresp, ?_⟩
  have halice := (E2eSession.initiate_eq ..).symm.trans hinit
  obtain ⟨rfl, rfl⟩ := Prod.mk.inj (Except.ok.inj halice)
  have hbob := (E2eSession.respond_eq ..).symm.trans hresp
  obtain rfl := Except.ok.inj hbob
  refine hdeliver (Peers.sentTwice _ _) ?_ ?_ .bob _ _ 2 Peers.secondKey 20
    ⟨⟨_, _, ?sent⟩, ?_, ?_, ?_, ?_⟩ ?sent
  case sent => exact List.mem_of_getElem? (i := 1) rfl
  · exact (Relation.ReflTransGen.single (.encrypt _ .alice 10)).tail (.encrypt _ .alice 20)
  · intro pk
    exact lt_of_le_of_lt List.countP_le_length (by decide)
  · exact List.not_mem_nil
  · exact Nat.le_add_left 1 255
  · intro _ pk hmem hne
    rcases List.mem_cons.1 hmem with hmem | hmem
    · exact absurd (congrArg Prod.snd hmem) hne
    · cases List.mem_singleton.1 hmem
  · intro _ q
    cases q <;> decide

end Sanctum
