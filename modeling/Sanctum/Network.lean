/-
Two ratchets and a network between them.

The two parties start from one shared secret, as the key agreement leaves them, and from then on
anything may happen: either party encrypts, and either party is handed any header and any
ciphertext.  The log records every call that concerns a message, with the message key it used;
which inputs the network may deliver is the parameter `allowed` of a step, so that the same runs
serve an honest network and an active attacker.

Main definitions:

* `Sanctum.Party`, `Sanctum.Event`, `Sanctum.Net` — the parties, the log and the state of a run;
* `Sanctum.Net.start`, `Sanctum.Net.encrypt`, `Sanctum.Net.decrypt` — the start and the two moves;
* `Sanctum.Net.Step`, `Sanctum.Net.Reaches` — runs.

Main results:

* `Sanctum.Net.encrypt_of_some`, `Sanctum.Net.decrypt_cases` — what a move does to the run;
* `Sanctum.Net.Reaches.induction` — invariants hold throughout a run.
-/

import Sanctum.RatchetSpec

set_option relaxedAutoImplicit false
set_option autoImplicit false

namespace Sanctum

/-- The two parties of a session. -/
inductive Party
  | alice
  | bob
deriving DecidableEq

/-- The peer of a party. -/
def Party.other : Party → Party
  | .alice => .bob
  | .bob => .alice

@[simp] theorem Party.other_ne (p : Party) : p.other ≠ p := by cases p <;> decide

@[simp] theorem Party.other_other (p : Party) : p.other.other = p := by cases p <;> rfl

theorem Party.eq_other_of_ne {p q : Party} (h : q ≠ p) : q = p.other := by
  cases p <;> cases q <;> first | rfl | exact absurd rfl h

/-- A property of both ratchets, after one of them has changed. -/
theorem forall_update_peer {Sec Grp Key : Type}
    {motive : Party → RatchetState Sec Grp Key → Prop} {peer : Party → RatchetState Sec Grp Key}
    {p : Party} {s : RatchetState Sec Grp Key} (hp : motive p s)
    (hother : ∀ q, q ≠ p → motive q (peer q)) (q : Party) :
    motive q (Function.update peer p s q) :=
  (Function.forall_update_iff peer motive).2 ⟨hp, hother⟩ q

/-- What happened in a run.  `decrypted` is a successful call of `decrypt`, `refused` a failed
one; `encrypted` and `decrypted` carry the message key the call used. -/
inductive Event (Grp Key Plain Cipher : Type)
  | encrypted (party : Party) (key : Key) (header : Header Grp) (ciphertext : Cipher)
      (plaintext : Plain)
  | decrypted (party : Party) (key : Key) (header : Header Grp) (ciphertext : Cipher)
      (plaintext : Plain)
  | refused (party : Party) (header : Header Grp) (ciphertext : Cipher)

/-- **The state of a run**: the two ratchets, the ratchet public keys generated so far with their
owners, and the log. -/
structure Net (Sec Grp Key Plain Cipher : Type) where
  peer : Party → RatchetState Sec Grp Key
  generated : List (Party × Grp)
  log : List (Event Grp Key Plain Cipher)

namespace Net

variable {Sec Grp Key Nonce Plain Cipher : Type} [DecidableEq Grp]
variable (P : Primitives Sec Grp Key Nonce Plain Cipher)

/-! ### The moves -/

omit [DecidableEq Grp] in
/-- The start of a session with shared secret `sk`: Bob's signed pre-key is his first ratchet key,
and Alice draws hers. -/
def start (sk : Key) (spk rng : Sec) : Except SanctumError (Net Sec Grp Key Plain Cipher) := do
  let alice ← P.initAlice sk (P.publicKey spk) rng
  pure {
    peer := fun
      | .alice => alice
      | .bob => RatchetState.initBob sk spk (P.publicKey spk)
    generated := [(.alice, P.publicKey rng), (.bob, P.publicKey spk)]
    log := [] }

omit [DecidableEq Grp] in
/-- Party `p` encrypts. -/
def encrypt (w : Net Sec Grp Key Plain Cipher) (p : Party) (m : Plain) :
    Net Sec Grp Key Plain Cipher where
  peer := Function.update w.peer p (P.encrypt (w.peer p) m).2
  generated := w.generated
  log := w.log ++
    match (P.encrypt (w.peer p) m).1, (w.peer p).chainKeySend with
    | .ok (h, c), some ck => [.encrypted p (P.msgKey ck) h c m]
    | _, _ => []

/-- Party `p` is handed a header and a ciphertext. -/
def decrypt (w : Net Sec Grp Key Plain Cipher) (p : Party) (h : Header Grp) (c : Cipher)
    (rng : Sec) : Net Sec Grp Key Plain Cipher where
  peer := Function.update w.peer p (P.decrypt (w.peer p) h c rng).2
  generated :=
    if (w.peer p).Draws h then (p, P.publicKey rng) :: w.generated else w.generated
  log := w.log ++
    match (P.decrypt (w.peer p) h c rng).1, (P.takeKey (w.peer p) h rng).1 with
    | .ok m, .ok k => [.decrypted p k h c m]
    | _, _ => [.refused p h c]

/-! ### What a move does -/

omit [DecidableEq Grp] in
/-- The run at the start. -/
theorem start_eq_ok_iff {sk : Key} {spk rng : Sec} {w : Net Sec Grp Key Plain Cipher} :
    start P sk spk rng = .ok w ↔
      w.peer .alice = P.aliceStart sk (P.publicKey spk) rng ∧
      w.peer .bob = RatchetState.initBob sk spk (P.publicKey spk) ∧
      w.generated = [(.alice, P.publicKey rng), (.bob, P.publicKey spk)] ∧ w.log = [] := by
  rw [start, P.initAlice_eq]
  constructor
  · rintro ⟨⟩
    exact ⟨rfl, rfl, rfl, rfl⟩
  · obtain ⟨peer, generated, log⟩ := w
    rintro ⟨ha, hb, rfl, rfl⟩
    have hpeer : peer = fun
        | .alice => P.aliceStart sk (P.publicKey spk) rng
        | .bob => RatchetState.initBob sk spk (P.publicKey spk) := by
      funext p
      cases p
      · exact ha
      · exact hb
    rw [hpeer]
    rfl

variable {P}

omit [DecidableEq Grp] in
/-- Without a sending chain nothing happens. -/
theorem encrypt_of_none {w : Net Sec Grp Key Plain Cipher} {p : Party}
    (h : (w.peer p).chainKeySend = none) (m : Plain) : w.encrypt P p m = w := by
  simp only [encrypt, P.encrypt_of_none h, Function.update_eq_self, List.append_nil]

omit [DecidableEq Grp] in
/-- With a sending chain, the next message is numbered and recorded. -/
theorem encrypt_of_some {w : Net Sec Grp Key Plain Cipher} {p : Party} {ck : Key}
    (h : (w.peer p).chainKeySend = some ck) {m : Plain} {c : Cipher}
    (hc : P.aeadSeal (P.msgKey ck) (P.nonceOf (P.msgKey ck)) m [] = some c) :
    w.encrypt P p m =
      { w with
        peer := Function.update w.peer p (P.stepSend (w.peer p) ck)
        log := w.log ++ [.encrypted p (P.msgKey ck) ((w.peer p).nextHeader) c m] } := by
  have hct : P.encryptWith (P.msgKey ck) m = .ok c := P.encryptWith_eq_ok_iff.2 hc
  simp only [encrypt, P.encrypt_eq h, h, hct, Except.map]

/-- **A call of `decrypt`** leaves the state `takeKey` leaves; it is recorded as a success exactly
when a key was taken that opens the ciphertext. -/
theorem decrypt_cases (w : Net Sec Grp Key Plain Cipher) (p : Party) (h : Header Grp)
    (c : Cipher) (rng : Sec) :
    (w.decrypt P p h c rng).peer =
        Function.update w.peer p (P.takeKey (w.peer p) h rng).2 ∧
      ((∃ k m, (P.takeKey (w.peer p) h rng).1 = .ok k ∧
          P.aeadOpen k (P.nonceOf k) c [] = some m ∧
          (w.decrypt P p h c rng).log = w.log ++ [.decrypted p k h c m]) ∨
        (w.decrypt P p h c rng).log = w.log ++ [.refused p h c]) := by
  refine ⟨by simp only [decrypt, P.decrypt_eq], ?_⟩
  cases hres : (P.decrypt (w.peer p) h c rng).1 with
  | error e => right; simp only [decrypt, hres]
  | ok m =>
      obtain ⟨k, hk, hopen⟩ := P.decrypt_eq_ok_iff.1 hres
      exact Or.inl ⟨k, m, hk, hopen, by simp only [decrypt, hres, hk]⟩

variable (P) in
/-- A call of `decrypt` adds one record, and not one of an encryption. -/
theorem decrypt_log (w : Net Sec Grp Key Plain Cipher) (p : Party) (h : Header Grp) (c : Cipher)
    (rng : Sec) :
    ∃ e, (w.decrypt P p h c rng).log = w.log ++ [e] ∧
      ∀ q k h' c' m, e ≠ .encrypted q k h' c' m := by
  rcases (w.decrypt_cases (P := P) p h c rng).2 with ⟨k, m, -, -, hlog⟩ | hlog
  · exact ⟨_, hlog, fun _ _ _ _ _ heq => by cases heq⟩
  · exact ⟨_, hlog, fun _ _ _ _ _ heq => by cases heq⟩

theorem encrypted_of_mem_decrypt {w : Net Sec Grp Key Plain Cipher} {p q : Party}
    {h h' : Header Grp} {c c' : Cipher} {rng : Sec} {k : Key} {m : Plain}
    (hmem : .encrypted q k h' c' m ∈ (w.decrypt P p h c rng).log) :
    .encrypted q k h' c' m ∈ w.log := by
  obtain ⟨e, hlog, hne⟩ := decrypt_log P w p h c rng
  rw [hlog] at hmem
  rcases List.mem_append.1 hmem with hmem | hmem
  · exact hmem
  · exact absurd (List.mem_singleton.1 hmem).symm (hne _ _ _ _ _)

/-! ### Runs -/

variable (P)

/-- The inputs a network may hand to a party, with the randomness `decrypt` may draw. -/
abbrev Inputs (Sec Grp Key Plain Cipher : Type) : Type :=
  Net Sec Grp Key Plain Cipher → Party → Header Grp → Cipher → Sec → Prop

/-- Any input at all. -/
def Anything : Inputs Sec Grp Key Plain Cipher := fun _ _ _ _ _ => True

/-- Any input, but a keypair that `decrypt` draws is a new one. -/
def FreshKeys : Inputs Sec Grp Key Plain Cipher := fun w p h _ rng =>
  (w.peer p).Draws h → ∀ q, (q, P.publicKey rng) ∉ w.generated

/-- **One move of a run.** -/
inductive Step (allowed : Inputs Sec Grp Key Plain Cipher) :
    Net Sec Grp Key Plain Cipher → Net Sec Grp Key Plain Cipher → Prop
  | encrypt (w : Net Sec Grp Key Plain Cipher) (p : Party) (m : Plain) :
      Step allowed w (w.encrypt P p m)
  | decrypt (w : Net Sec Grp Key Plain Cipher) (p : Party) (h : Header Grp) (c : Cipher)
      (rng : Sec) : allowed w p h c rng → Step allowed w (w.decrypt P p h c rng)

/-- **The states a run reaches** from the start of a session. -/
def Reaches (allowed : Inputs Sec Grp Key Plain Cipher) (sk : Key) (spk rng : Sec)
    (w : Net Sec Grp Key Plain Cipher) : Prop :=
  ∃ w₀, start P sk spk rng = .ok w₀ ∧ Relation.ReflTransGen (Step P allowed) w₀ w

variable {P} {allowed : Inputs Sec Grp Key Plain Cipher} {sk : Key} {spk rng : Sec}

/-- An invariant that holds at the start and is kept by every move holds throughout a run. -/
theorem Reaches.induction {motive : Net Sec Grp Key Plain Cipher → Prop}
    {w : Net Sec Grp Key Plain Cipher} (hw : Reaches P allowed sk spk rng w)
    (start : ∀ w, start P sk spk rng = .ok w → motive w)
    (encrypt : ∀ w p m, motive w → motive (w.encrypt P p m))
    (decrypt : ∀ w p h c r, allowed w p h c r → motive w → motive (w.decrypt P p h c r)) :
    motive w := by
  obtain ⟨w₀, hw₀, hrun⟩ := hw
  induction hrun with
  | refl => exact start _ hw₀
  | tail _ hstep ih =>
      cases hstep with
      | encrypt p m => exact encrypt _ p m ih
      | decrypt p h c r hin => exact decrypt _ p h c r hin ih

theorem Reaches.tail {w w' : Net Sec Grp Key Plain Cipher} (hw : Reaches P allowed sk spk rng w)
    (hstep : Step P allowed w w') : Reaches P allowed sk spk rng w' := by
  obtain ⟨w₀, hw₀, hrun⟩ := hw
  exact ⟨w₀, hw₀, hrun.tail hstep⟩

end Net

end Sanctum
