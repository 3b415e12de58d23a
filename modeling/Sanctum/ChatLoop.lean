/-
The crypto helpers of the chat loop.

The loop starts without a session and gets one from the first frame that parses as an initial
message.  From then on `try_decrypt` refuses frames without a ratchet header, but `encrypt_msg`
falls back to the typed bytes whenever the session cannot encrypt.  A session that was made by
`respond` cannot, until a frame with a ratchet header has arrived; any such frame will do, since the
DH ratchet step comes before authentication.  Which phase the loop is in can be read off the frames
alone.

Main definitions:

* `Sanctum.fromUtf8Lossy` — `String::from_utf8_lossy`;
* `Sanctum.encryptMsg`, `Sanctum.tryDecrypt` — the helpers;
* `Sanctum.ChatCall`, `Sanctum.sessionAfter` — sequences of calls of the helpers;
* `Sanctum.Phase`, `Sanctum.phaseAfter` — the phases, read off the calls;
* `Sanctum.Protected` — a line that was encrypted.

Main results:

* `Sanctum.inPhase_run` — the session is that of the phase;
* `Sanctum.no_cleartext_iff` — **when every line is encrypted**;
* `Sanctum.cleartext_after_respond` — a line typed before the first ratchet frame goes out in
  clear.
-/

import Sanctum.E2eSession
import Sanctum.RatchetMoves
import Sanctum.Symbolic

set_option relaxedAutoImplicit false
set_option autoImplicit false

namespace Sanctum

/-! ### Text -/

/-- The number of continuation bytes that a leading byte announces, and the range of the first of
them. -/
def utf8Lead (n : ℕ) : Option (ℕ × ℕ × ℕ) :=
  if 0xC2 ≤ n ∧ n ≤ 0xDF then some (1, 0x80, 0xBF)
  else if n = 0xE0 then some (2, 0xA0, 0xBF)
  else if n = 0xED then some (2, 0x80, 0x9F)
  else if 0xE1 ≤ n ∧ n ≤ 0xEF then some (2, 0x80, 0xBF)
  else if n = 0xF0 then some (3, 0x90, 0xBF)
  else if 0xF1 ≤ n ∧ n ≤ 0xF3 then some (3, 0x80, 0xBF)
  else if n = 0xF4 then some (3, 0x80, 0x8F)
  else none

/-- Read the continuation bytes; the result is the character, or the replacement character for an
incomplete sequence, and the number of bytes read. -/
def utf8Continue : ℕ → ℕ → ℕ → ℕ → ℕ → Bytes → Char × ℕ
  | 0, _, _, value, taken, _ => (Char.ofNat value, taken)
  | _ + 1, _, _, _, taken, [] => ('\uFFFD', taken)
  | n + 1, lo, hi, value, taken, b :: rest =>
    if lo ≤ b.toNat ∧ b.toNat ≤ hi then
      utf8Continue n 0x80 0xBF (value * 64 + b.toNat % 64) (taken + 1) rest
    else ('\uFFFD', taken)

/-- The first character of `b :: rest`, and the number of bytes of `rest` that belong to it. -/
def utf8Head (b : UInt8) (rest : Bytes) : Char × ℕ :=
  if b.toNat < 0x80 then (Char.ofNat b.toNat, 0)
  else
    match utf8Lead b.toNat with
    | none => ('\uFFFD', 0)
    | some (n, lo, hi) => utf8Continue n lo hi (b.toNat % 2 ^ (6 - n)) 0 rest

/-- The characters of a byte string; every character takes at least one byte, so the length is
enough fuel. -/
def utf8Chars : ℕ → Bytes → List Char
  | 0, _ => []
  | _, [] => []
  | fuel + 1, b :: rest =>
    let (c, taken) := utf8Head b rest
    c :: utf8Chars fuel (rest.drop taken)

/-- `String::from_utf8_lossy`. -/
def fromUtf8Lossy (bytes : Bytes) : String := String.ofList (utf8Chars bytes.length bytes)

example : fromUtf8Lossy [0x68, 0xC3, 0xA9, 0xE2, 0x82, 0x21, 0xFF] = "hé\uFFFD!\uFFFD" := by decide

/-! ### The helpers -/

/-- A room message on the wire. -/
structure RoomMessage where
  senderFingerprint : String
  sequenceNumber : UInt64
  ratchetHeader : Option RatchetHeader
  ciphertext : Bytes
  nonce : Bytes
  timestamp : UInt64

variable {Sec Key Nonce : Type} (P : Primitives Sec Bytes32 Key Nonce Bytes Bytes)

/-- Encrypt a typed line: the ciphertext and the ratchet header of the frame. -/
def encryptMsg (text : String) (e2e : Option (E2eSession Sec Bytes32 Key)) :
    (Bytes × Option RatchetHeader) × Option (E2eSession Sec Bytes32 Key) :=
  match e2e with
  | some s =>
    match s.encrypt P (asBytes text) with
    | (.ok (h, ct), s) =>
      ((ct, some
        { dhPublic := h.dhPublic.val
          previousChainLength := h.prevChainLen
          messageNumber := h.msgNum }), some s)
    | (.error _, s) => ((asBytes text, none), some s)
  | none => ((asBytes text, none), none)

variable {P} in
/-- Decrypt a received frame, or establish the session from it.  `parse` reads an initial message
from its JSON text. -/
def tryDecrypt (parse : Bytes → Option (InitialMessage Bytes32)) (m : RoomMessage)
    (e2e : Option (E2eSession Sec Bytes32 Key)) (keys : Option (PeerPrivateKeys P)) (rng : Sec) :
    Option String × Option (E2eSession Sec Bytes32 Key) :=
  match e2e with
  | some s =>
    match m.ratchetHeader with
    | some rh =>
      if hlen : rh.dhPublic.length = 32 then
        let hdr : Header Bytes32 :=
          { dhPublic := ⟨rh.dhPublic, hlen⟩
            prevChainLen := rh.previousChainLength
            msgNum := rh.messageNumber }
        match s.decrypt P hdr m.ciphertext rng with
        | (.ok pt, s) => (some (fromUtf8Lossy pt), some s)
        | (.error _, s) => (none, some s)
      else (none, some s)
    | none => (none, some s)
  | none =>
    match parse m.ciphertext with
    | some init =>
      match keys with
      | some k =>
        match E2eSession.respond k init with
        | .ok session => (none, some session)
        | .error _ => (none, none)
      | none => (none, none)
    | none => (some (fromUtf8Lossy m.ciphertext), none)

/-! ### Runs -/

/-- A typed line, or a received frame with the randomness its decryption may draw. -/
inductive ChatCall (Sec : Type)
  | line (text : String)
  | frame (m : RoomMessage) (rng : Sec)

variable {P} (parse : Bytes → Option (InitialMessage Bytes32)) (keys : Option (PeerPrivateKeys P))

/-- The session after a call. -/
def sessionStep (e2e : Option (E2eSession Sec Bytes32 Key)) :
    ChatCall Sec → Option (E2eSession Sec Bytes32 Key)
  | .line text => (encryptMsg P text e2e).2
  | .frame m rng => (tryDecrypt parse m e2e keys rng).2

/-- **The session after a sequence of calls**; the loop starts without one. -/
def sessionAfter (calls : List (ChatCall Sec)) : Option (E2eSession Sec Bytes32 Key) :=
  calls.foldl (sessionStep parse keys) none

/-- The phases of the loop: no session yet, a session that has not received a ratchet header, and
a session that has. -/
inductive Phase
  | noSession
  | waiting
  | ready
deriving DecidableEq

/-- The frame has a ratchet header with a key of the right length. -/
def RoomMessage.HasHeader (m : RoomMessage) : Prop :=
  ∃ rh, m.ratchetHeader = some rh ∧ rh.dhPublic.length = 32

instance (m : RoomMessage) : Decidable m.HasHeader :=
  decidable_of_iff (∃ rh ∈ m.ratchetHeader, rh.dhPublic.length = 32) Iff.rfl

/-- The next phase. -/
def Phase.step : Phase → ChatCall Sec → Phase
  | .noSession, .frame m _ =>
    if keys.isSome ∧ (parse m.ciphertext).isSome then .waiting else .noSession
  | .waiting, .frame m _ => if m.HasHeader then .ready else .waiting
  | phase, _ => phase

/-- **The phase after a sequence of calls.** -/
def phaseAfter (calls : List (ChatCall Sec)) : Phase :=
  calls.foldl (Phase.step parse keys) .noSession

/-! ### The session of a phase -/

/-- **The session is that of the phase**: there is none; or it is in the state that `init_bob`
leaves; or its ratchet has a sending chain. -/
def InPhase (e2e : Option (E2eSession Sec Bytes32 Key)) : Phase → Prop
  | .noSession => e2e = none
  | .waiting => ∃ s sk spk spkPub, e2e = some s ∧ s.ratchet = RatchetState.initBob sk spk spkPub
  | .ready => ∃ s ck, e2e = some s ∧ s.ratchet.chainKeySend = some ck

/-- A typed line leaves the phase as it is. -/
theorem inPhase_line {e2e : Option (E2eSession Sec Bytes32 Key)} {phase : Phase}
    (h : InPhase e2e phase) (text : String) : InPhase (encryptMsg P text e2e).2 phase := by
  cases phase with
  | noSession =>
      obtain rfl := h
      rfl
  | waiting =>
      obtain ⟨s, sk, spk, spkPub, rfl, hs⟩ := h
      have hnone : s.ratchet.chainKeySend = none := by rw [hs]; rfl
      refine ⟨s, sk, spk, spkPub, ?_, hs⟩
      simp only [encryptMsg, E2eSession.encrypt, P.encrypt_of_none hnone]
  | ready =>
      obtain ⟨s, ck, rfl, hck⟩ := h
      simp only [encryptMsg, E2eSession.encrypt, P.encrypt_eq hck]
      cases P.encryptWith (P.msgKey ck) (asBytes text) with
      | error e => exact ⟨_, _, rfl, rfl⟩
      | ok ct => exact ⟨_, _, rfl, rfl⟩

/-- The ratchet of a session that is handed a frame is left alone, or decrypts its header. -/
theorem tryDecrypt_some (m : RoomMessage) (s : E2eSession Sec Bytes32 Key) (rng : Sec) :
    (¬ m.HasHeader → (tryDecrypt parse m (some s) keys rng).2 = some s) ∧
      (m.HasHeader → ∃ hd s', (tryDecrypt parse m (some s) keys rng).2 = some s' ∧
        s'.ratchet = (P.takeKey s.ratchet hd rng).2) := by
  cases hrh : m.ratchetHeader with
  | none =>
      refine ⟨fun _ => by simp only [tryDecrypt, hrh], ?_⟩
      rintro ⟨rh, hsome, -⟩
      exact absurd (hrh.symm.trans hsome) (by simp)
  | some rh =>
      by_cases hlen : rh.dhPublic.length = 32
      · refine ⟨fun hno => absurd ⟨rh, hrh, hlen⟩ hno, fun _ => ?_⟩
        have hstate := congrArg Prod.snd (P.decrypt_eq s.ratchet
          ⟨⟨rh.dhPublic, hlen⟩, rh.previousChainLength, rh.messageNumber⟩ m.ciphertext rng)
        simp only [tryDecrypt, hrh, dif_pos hlen, E2eSession.decrypt]
        generalize P.decrypt s.ratchet _ m.ciphertext rng = r at hstate ⊢
        obtain ⟨result, ratchet⟩ := r
        refine ⟨_, { s with ratchet := ratchet }, ?_, hstate⟩
        cases result <;> rfl
      · refine ⟨fun _ => by simp only [tryDecrypt, hrh, dif_neg hlen], ?_⟩
        rintro ⟨rh', hsome, hlen'⟩
        obtain rfl := Option.some_inj.1 (hrh.symm.trans hsome)
        exact absurd hlen' hlen

/-- A received frame leads to the next phase. -/
theorem inPhase_frame {e2e : Option (E2eSession Sec Bytes32 Key)} {phase : Phase}
    (h : InPhase e2e phase) (m : RoomMessage) (rng : Sec) :
    InPhase (tryDecrypt parse m e2e keys rng).2 (phase.step parse keys (.frame m rng)) := by
  cases phase with
  | noSession =>
      obtain rfl := h
      cases hinit : parse m.ciphertext with
      | none => simp [tryDecrypt, Phase.step, InPhase, hinit]
      | some init =>
          cases keys with
          | none => simp [tryDecrypt, Phase.step, InPhase, hinit]
          | some k =>
              simp only [tryDecrypt, Phase.step, hinit, E2eSession.respond_eq, Option.isSome_some,
                and_self, if_true]
              exact ⟨_, _, _, _, rfl, rfl⟩
  | waiting =>
      obtain ⟨s, sk, spk, spkPub, rfl, hs⟩ := h
      obtain ⟨hno, hyes⟩ := tryDecrypt_some parse keys m s rng
      by_cases hm : m.HasHeader
      · obtain ⟨hd, s', heq, hs'⟩ := hyes hm
        rw [heq, Phase.step, if_pos hm]
        -- whatever the header says, the first one makes the DH ratchet
        have hdraws : s.ratchet.Draws hd := by
          rw [hs]
          exact ⟨rfl, nofun, fun hfar => absurd hfar.1 (by simp [RatchetState.initBob])⟩
        exact ⟨s', _, rfl, (hs' ▸ (P.takeKey_sameSender s.ratchet hd rng).2 hdraws).chain⟩
      · rw [hno hm, Phase.step, if_neg hm]
        exact ⟨s, sk, spk, spkPub, rfl, hs⟩
  | ready =>
      obtain ⟨s, ck, rfl, hck⟩ := h
      obtain ⟨hno, hyes⟩ := tryDecrypt_some parse keys m s rng
      change InPhase _ .ready
      by_cases hm : m.HasHeader
      · obtain ⟨hd, s', heq, hs'⟩ := hyes hm
        obtain ⟨hsame, hdraws⟩ := P.takeKey_sameSender s.ratchet hd rng
        rw [heq]
        by_cases hD : s.ratchet.Draws hd
        · exact ⟨s', _, rfl, (hs' ▸ hdraws hD).chain⟩
        · exact ⟨s', ck, rfl, (hs' ▸ hsame hD).chain.trans hck⟩
      · rw [hno hm]
        exact ⟨s, ck, rfl, hck⟩

/-- **The phases of a run.** -/
theorem inPhase_run {calls : List (ChatCall Sec)} {phase : Phase}
    (hphase : phaseAfter parse keys calls = phase) :
    InPhase (sessionAfter parse keys calls) phase := by
  suffices haux : ∀ (calls : List (ChatCall Sec)) e2e phase, InPhase e2e phase →
      InPhase (calls.foldl (sessionStep parse keys) e2e)
        (calls.foldl (Phase.step parse keys) phase) from hphase ▸ haux calls none .noSession rfl
  intro calls
  induction calls with
  | nil => exact fun _ _ h => h
  | cons call calls ih =>
      intro e2e phase h
      refine ih _ _ ?_
      cases call with
      | line text =>
          have hstep : phase.step parse keys (.line text) = phase := by cases phase <;> rfl
          rw [hstep]
          exact inPhase_line h text
      | frame m rng => exact inPhase_frame parse keys h m rng

/-! ### Cleartext -/

/-- **ChaCha20-Poly1305 on byte strings**: plaintexts up to a limit are sealed, with a tag of 16
bytes, and longer ones are refused. -/
structure Primitives.AeadOnBytes (P : Primitives Sec Bytes32 Key Nonce Bytes Bytes)
    (limit : ℕ) : Prop where
  seals : ∀ k n m aad, m.length ≤ limit →
    ∃ c, P.aeadSeal k n m aad = some c ∧ c.length = m.length + 16
  refuses : ∀ k n m aad, limit < m.length → P.aeadSeal k n m aad = none

variable (P) in
/-- **A line was encrypted**: what goes out is a ratchet header and a ciphertext that
`E2eSession::encrypt` has returned, and the ciphertext is not what was typed. -/
def Protected (s : E2eSession Sec Bytes32 Key) (text : String) (out : Bytes × Option RatchetHeader) :
    Prop :=
  ∃ h ct, (s.encrypt P (asBytes text)).1 = .ok (h, ct) ∧ ct ≠ asBytes text ∧
    out = (ct, some
      { dhPublic := h.dhPublic.val
        previousChainLength := h.prevChainLen
        messageNumber := h.msgNum })

/-- A line is encrypted exactly when the session has a sending chain and the line is within the
limit of the AEAD. -/
theorem protected_iff {limit : ℕ} (haead : P.AeadOnBytes limit) (s : E2eSession Sec Bytes32 Key)
    (text : String) :
    Protected P s text (encryptMsg P text (some s)).1 ↔
      s.ratchet.chainKeySend.isSome ∧ (asBytes text).length ≤ limit := by
  cases hck : s.ratchet.chainKeySend with
  | none =>
      have herr := P.encrypt_of_none hck (asBytes text)
      simp [Protected, encryptMsg, E2eSession.encrypt, herr]
  | some ck =>
      have henc := P.encrypt_eq hck (asBytes text)
      by_cases hlen : (asBytes text).length ≤ limit
      · obtain ⟨c, hc, htag⟩ :=
          haead.seals (P.msgKey ck) (P.nonceOf (P.msgKey ck)) (asBytes text) [] hlen
        have hseal : P.encryptWith (P.msgKey ck) (asBytes text) = .ok c :=
          P.encryptWith_eq_ok_iff.2 hc
        rw [hseal] at henc
        refine iff_of_true ⟨s.ratchet.nextHeader, c, ?_, ?_, ?_⟩ ⟨rfl, hlen⟩
        · rw [E2eSession.encrypt, henc]
          rfl
        · intro heq
          rw [heq] at htag
          omega
        · simp only [encryptMsg, E2eSession.encrypt, henc]
          rfl
      · have hnone := haead.refuses (P.msgKey ck) (P.nonceOf (P.msgKey ck)) (asBytes text) []
          (by omega)
        refine iff_of_false ?_ fun h => hlen h.2
        rintro ⟨h, ct, hok, -⟩
        rw [E2eSession.encrypt, henc] at hok
        cases hres : P.encryptWith (P.msgKey ck) (asBytes text) with
        | error e =>
            rw [hres] at hok
            exact absurd hok (by simp [Except.map])
        | ok c =>
            have hsome := P.encryptWith_eq_ok_iff.1 hres
            exact absurd (hnone.symm.trans hsome) (by simp)

/-- **When every line is encrypted.**  In a run of the helpers, every line typed while a session
exists is encrypted if and only if each of them is typed after a frame with a ratchet header has
arrived on the session, and is within the limit of the AEAD. -/
theorem no_cleartext_iff {limit : ℕ} (haead : P.AeadOnBytes limit) (calls : List (ChatCall Sec)) :
    (∀ pre text post, calls = pre ++ .line text :: post →
      ∀ s, sessionAfter parse keys pre = some s →
        Protected P s text (encryptMsg P text (some s)).1) ↔
    ∀ pre text post, calls = pre ++ .line text :: post →
      phaseAfter parse keys pre ≠ .noSession →
        phaseAfter parse keys pre = .ready ∧ (asBytes text).length ≤ limit := by
  have hline : ∀ pre text,
      (∀ s, sessionAfter parse keys pre = some s →
        Protected P s text (encryptMsg P text (some s)).1) ↔
      (phaseAfter parse keys pre ≠ .noSession →
        phaseAfter parse keys pre = .ready ∧ (asBytes text).length ≤ limit) := by
    intro pre text
    cases hphase : phaseAfter parse keys pre with
    | noSession =>
        have hnone : sessionAfter parse keys pre = none := inPhase_run parse keys hphase
        simp [hnone]
    | waiting =>
        obtain ⟨s, sk, spk, spkPub, hs, hratchet⟩ := inPhase_run parse keys hphase
        simp [hs, protected_iff haead, hratchet, RatchetState.initBob]
    | ready =>
        obtain ⟨s, ck, hs, hck⟩ := inPhase_run parse keys hphase
        simp [hs, protected_iff haead, hck]
  exact ⟨fun h pre text post heq => (hline pre text).1 (h pre text post heq),
    fun h pre text post heq => (hline pre text).2 (h pre text post heq)⟩

/-! ### A line typed too early -/

namespace EarlyLine

/-- A key of 32 equal bytes. -/
def key32 (b : UInt8) : Bytes32 := ⟨List.replicate 32 b, List.length_replicate⟩

/-- Symbolic keys over 32-byte group elements, with an AEAD that appends its tag. -/
def primitives : Primitives Bytes32 Bytes32 (SymKey Bytes32) (SymKey Bytes32) Bytes Bytes where
  publicKey := id
  diffieHellman a b :=
    ⟨List.zipWith (· ^^^ ·) a.val b.val, by rw [List.length_zipWith, a.2, b.2, Nat.min_self]⟩
  hkdf ikm salt info block :=
    match ikm with
    | .key k => .expand k salt info block
    | .concat dhs => .agreed dhs salt info block
  first12 := id
  aeadSeal _ _ m _ := if m.length ≤ 2 ^ 38 - 64 then some (m ++ List.replicate 16 0) else none
  aeadOpen _ _ c _ := if 16 ≤ c.length then some (c.take (c.length - 16)) else none

theorem aeadOnBytes : primitives.AeadOnBytes (2 ^ 38 - 64) where
  seals k n m aad hm := ⟨m ++ List.replicate 16 0, if_pos hm, by simp⟩
  refuses k n m aad hm := if_neg (by omega)

/-- The keys of the client. -/
def clientKeys : PeerPrivateKeys primitives where
  identity := .generate primitives (key32 1)
  signedPrekey := .generate primitives (key32 2)
  oneTimePrekeys := []

/-- The initial message of a peer. -/
def initialMessage : InitialMessage Bytes32 where
  aliceIdentityPub := key32 3
  aliceEphemeralPub := key32 4
  opkIndex := none
  ciphertext := []
  header := none

/-- The JSON text of a key of 32 equal bytes. -/
def jsonKey (digit : String) : String := "[" ++ ",".intercalate (List.replicate 32 digit) ++ "]"

/-- The JSON text of the initial message. -/
def initJson : Bytes :=
  asBytes ("\x7b\"alice_identity_pub\":" ++ jsonKey "3" ++
    ",\"alice_ephemeral_pub\":" ++ jsonKey "4" ++
    ",\"opk_index\":null,\"ciphertext\":[],\"header\":null\x7d")

/-- The JSON parser, on this text. -/
def parseInit (text : Bytes) : Option (InitialMessage Bytes32) :=
  if text = initJson then some initialMessage else none

/-- The frame that carries the initial message. -/
def frame : RoomMessage where
  senderFingerprint := "0123456789ABCDEF0123456789ABCDEF01234567"
  sequenceNumber := 1
  ratchetHeader := none
  ciphertext := initJson
  nonce := List.replicate 12 0
  timestamp := 0

theorem phaseAfter_frame :
    phaseAfter parseInit (some clientKeys) [.frame frame (key32 0)] = .waiting := by
  have hparse : parseInit frame.ciphertext = some initialMessage := by
    rw [parseInit, frame, if_pos rfl]
  simp only [phaseAfter, List.foldl_cons, List.foldl_nil, Phase.step, hparse, Option.isSome_some,
    and_self, if_true]

end EarlyLine

open EarlyLine in
/-- The condition for a run with one frame and one line. -/
theorem early_line_iff :
    (∀ pre text post, [.frame frame (key32 0), .line "hello"] = pre ++ .line text :: post →
      ∀ s, sessionAfter parseInit (some clientKeys) pre = some s →
        Protected primitives s text (encryptMsg primitives text (some s)).1) ↔
    ∀ pre text post,
      [ChatCall.frame frame (key32 0), .line "hello"] = pre ++ .line text :: post →
      phaseAfter parseInit (some clientKeys) pre ≠ .noSession →
        phaseAfter parseInit (some clientKeys) pre = .ready ∧ (asBytes text).length ≤ 2 ^ 38 - 64 :=
  no_cleartext_iff parseInit (some clientKeys) aeadOnBytes _

open EarlyLine in
/-- **A line typed before the first ratchet frame goes out in clear**: the frame has established a
session, and the typed bytes are the ciphertext of what is sent, without a header. -/
theorem cleartext_after_respond :
    ∃ s, sessionAfter parseInit (some clientKeys) [.frame frame (key32 0)] = some s ∧
      (encryptMsg primitives "hello" (some s)).1 = (asBytes "hello", none) ∧
      ¬ Protected primitives s "hello" (encryptMsg primitives "hello" (some s)).1 := by
  obtain ⟨s, sk, spk, spkPub, hs, hratchet⟩ :=
    inPhase_run parseInit (some clientKeys) phaseAfter_frame
  have hnone : s.ratchet.chainKeySend = none := by rw [hratchet]; rfl
  refine ⟨s, hs, ?_, ?_⟩
  · simp only [encryptMsg, E2eSession.encrypt, primitives.encrypt_of_none hnone]
  · rw [protected_iff aeadOnBytes, hnone]
    exact fun h => absurd h.1 (by simp)

end Sanctum
