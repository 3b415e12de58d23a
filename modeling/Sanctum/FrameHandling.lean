/-
How the chat loop handles a frame.

A message is shown under the alias of its sender, or, for a sender without one, under the first eight
bytes of what it says is the fingerprint of the sender; a peer that has joined without an alias gets such
a name, too.  The text is cut at a byte position, which stops the program if a character goes across it;
in builds with overflow checks, some additions stop it as well.

Main definitions:

* `Sanctum.short`, `Sanctum.aliasFor` — the name of a sender, with `none` where the program stops;
* `Sanctum.ChatLoop.handleFrame` — the handling of a frame;
* `Sanctum.ChatLoop.Harmless` — the frames that do not stop the program.

Main results:

* `Sanctum.isSome_short_iff` — when a name can be cut;
* `Sanctum.tryDecryptChecked_eq` — when `try_decrypt` stops;
* `Sanctum.ChatLoop.isSome_handleFrame_iff` — **which frames are harmless**.
-/

import Sanctum.ChatLoop
import Sanctum.RatchetChecks
import Sanctum.Slices
import Sanctum.WireMessage

set_option relaxedAutoImplicit false
set_option autoImplicit false

namespace Sanctum

/-! ### Names -/

/-- The first eight bytes of a text, or the whole text. -/
def short (fp : String) : Option String :=
  if fp.utf8ByteSize ≥ 8 then Slices.sliceTo fp 8 else some fp

def aliasFor (fp : String) (map : HashMap String String) : Option String :=
  match map.lookup fp with
  | some displayAlias => some displayAlias
  | none => short fp

/-- **The text has fewer than eight bytes, or a character ends at the eighth.** -/
def CanShorten (fp : String) : Prop := fp.utf8ByteSize < 8 ∨ (⟨8⟩ : String.Pos.Raw).IsValid fp

theorem isSome_short_iff (fp : String) : (short fp).isSome ↔ CanShorten fp := by
  unfold short CanShorten
  split_ifs with hlen
  · rw [Slices.isSome_sliceTo_iff, or_iff_right (Nat.not_lt.2 hlen)]
  · exact iff_of_true rfl (Or.inl (Nat.lt_of_not_le hlen))

theorem isSome_aliasFor_iff (fp : String) (map : HashMap String String) :
    (aliasFor fp map).isSome ↔ (map.lookup fp = none → CanShorten fp) := by
  unfold aliasFor
  cases map.lookup fp with
  | some displayAlias => exact iff_of_true rfl nofun
  | none =>
      exact (isSome_short_iff fp).trans (imp_iff_right rfl).symm

/-! ### Decryption -/

variable {Sec Key Nonce : Type} {P : Primitives Sec Bytes32 Key Nonce Bytes Bytes} (checks : Bool)

/-- The ratchet header of a message, if its key has the right length. -/
def RoomMessage.header (m : RoomMessage) : Option (Header Bytes32) :=
  m.ratchetHeader.bind fun rh =>
    if hlen : rh.dhPublic.length = 32 then
      some
        { dhPublic := ⟨rh.dhPublic, hlen⟩
          prevChainLen := rh.previousChainLength
          msgNum := rh.messageNumber }
    else none

variable (P) in
/-- `E2eSession::decrypt`. -/
def E2eSession.decryptChecked (s : E2eSession Sec Bytes32 Key) (header : Header Bytes32)
    (ciphertext : Bytes) (rng : Sec) :
    Option (Except SanctumError Bytes × E2eSession Sec Bytes32 Key) :=
  (P.decryptChecked checks s.ratchet header ciphertext rng).map fun (result, ratchet) =>
    (result, { s with ratchet := ratchet })

/-- `try_decrypt`. -/
def tryDecryptChecked (parse : Bytes → Option (InitialMessage Bytes32)) (m : RoomMessage)
    (e2e : Option (E2eSession Sec Bytes32 Key)) (keys : Option (PeerPrivateKeys P)) (rng : Sec) :
    Option (Option String × Option (E2eSession Sec Bytes32 Key)) :=
  match e2e with
  | some s =>
    match m.ratchetHeader with
    | some rh =>
      if hlen : rh.dhPublic.length = 32 then
        let hdr : Header Bytes32 :=
          { dhPublic := ⟨rh.dhPublic, hlen⟩
            prevChainLen := rh.previousChainLength
            msgNum := rh.messageNumber }
        match s.decryptChecked P checks hdr m.ciphertext rng with
        | none => none
        | some (.ok pt, s) => some (some (fromUtf8Lossy pt), some s)
        | some (.error _, s) => some (none, some s)
      else some (none, some s)
    | none => some (none, some s)
  | none =>
    match parse m.ciphertext with
    | some init =>
      match keys with
      | some k =>
        match E2eSession.respond k init with
        | .ok session => some (none, some session)
        | .error _ => some (none, none)
      | none => some (none, none)
    | none => some (some (fromUtf8Lossy m.ciphertext), none)

/-- Decrypting the message in the session overflows. -/
def RoomMessage.Overflows (m : RoomMessage) (e2e : Option (E2eSession Sec Bytes32 Key)) : Prop :=
  ∃ s ∈ e2e, ∃ h ∈ m.header, s.ratchet.Overflows h

instance (m : RoomMessage) (e2e : Option (E2eSession Sec Bytes32 Key)) : Decidable (m.Overflows e2e) :=
  inferInstanceAs (Decidable (∃ s ∈ e2e, ∃ h ∈ m.header, s.ratchet.Overflows h))

theorem RoomMessage.overflows_iff {m : RoomMessage} {s : E2eSession Sec Bytes32 Key} {h : Header Bytes32}
    (hheader : m.header = some h) : m.Overflows (some s) ↔ s.ratchet.Overflows h := by
  unfold RoomMessage.Overflows
  rw [hheader]
  simp

theorem RoomMessage.not_overflows {m : RoomMessage} {e2e : Option (E2eSession Sec Bytes32 Key)}
    (h : e2e = none ∨ m.header = none) : ¬ m.Overflows e2e := by
  rintro ⟨s, hs, hd, hhd, -⟩
  rcases h with rfl | hheader
  · cases hs
  · rw [hheader] at hhd
    cases hhd

theorem E2eSession.decryptChecked_eq (s : E2eSession Sec Bytes32 Key) (h : Header Bytes32) (c : Bytes)
    (rng : Sec) : s.decryptChecked P checks h c rng =
      if checks ∧ s.ratchet.Overflows h then none else some (s.decrypt P h c rng) := by
  rw [decryptChecked, P.decryptChecked_eq]
  split_ifs <;> rfl

/-- **When `try_decrypt` stops**, and that it is as before else. -/
theorem tryDecryptChecked_eq (parse : Bytes → Option (InitialMessage Bytes32)) (m : RoomMessage)
    (e2e : Option (E2eSession Sec Bytes32 Key)) (keys : Option (PeerPrivateKeys P)) (rng : Sec) :
    tryDecryptChecked checks parse m e2e keys rng =
      if checks ∧ m.Overflows e2e then none else some (tryDecrypt parse m e2e keys rng) := by
  unfold tryDecryptChecked tryDecrypt
  cases e2e with
  | none =>
      rw [if_neg fun h => RoomMessage.not_overflows (Or.inl rfl) h.2]
      cases parse m.ciphertext with
      | none => rfl
      | some init =>
          cases keys with
          | none => rfl
          | some k =>
              dsimp only
              cases E2eSession.respond k init with
              | error e => rfl
              | ok session => rfl
  | some s =>
      cases hrh : m.ratchetHeader with
      | none =>
          have hheader : m.header = none := by
            rw [RoomMessage.header, hrh]
            rfl
          rw [if_neg fun h => RoomMessage.not_overflows (Or.inr hheader) h.2]
      | some rh =>
          dsimp only
          by_cases hlen : rh.dhPublic.length = 32
          · have hheader : m.header =
                some ⟨⟨rh.dhPublic, hlen⟩, rh.previousChainLength, rh.messageNumber⟩ := by
              rw [RoomMessage.header, hrh]
              exact dif_pos hlen
            rw [dif_pos hlen, dif_pos hlen, E2eSession.decryptChecked_eq]
            simp only [RoomMessage.overflows_iff hheader]
            split_ifs
            · rfl
            · rcases s.decrypt P ⟨⟨rh.dhPublic, hlen⟩, rh.previousChainLength, rh.messageNumber⟩
                m.ciphertext rng with ⟨e | pt, s'⟩
              · rfl
              · rfl
          · have hheader : m.header = none := by
              rw [RoomMessage.header, hrh]
              exact dif_neg hlen
            rw [if_neg fun h => RoomMessage.not_overflows (Or.inr hheader) h.2, dif_neg hlen, dif_neg hlen]

/-! ### The loop -/

structure ChatConfig where
  roomName : String
  roomMode : String
  torConnected : Bool
deriving DecidableEq

/-- What the loop draws. -/
inductive Draw
  | gotoMsg
  | writeMsg (h min : UInt64) (sender content : String) (isOwn : Bool)
  | writeSys (text : String)
  | drawStatus (room mode : String) (peers : UInt32) (tor e2e : Bool)
  | drawPrompt (input : String)
deriving DecidableEq

/-- The variables of the loop that frames change or show. -/
structure ChatState (Sec Key : Type) where
  aliases : HashMap String String
  e2eSession : Option (E2eSession Sec Bytes32 Key)
  peerCount : UInt32
  inputBuf : String

/-- What does not change while the loop runs, and the crates. -/
structure ChatLoop (P : Primitives Sec Bytes32 Key Nonce Bytes Bytes) where
  fpStr : String
  e2eKeys : Option (PeerPrivateKeys P)
  cfg : ChatConfig
  rawOk : Bool
  prost : Prost
  parse : Bytes → Option (InitialMessage Bytes32)

namespace ChatLoop

variable (loop : ChatLoop P)

/-- Draw between the cursor movements of raw mode. -/
def drawn (draws draws' : List Draw) : List Draw :=
  (if loop.rawOk then [.gotoMsg] else []) ++ draws ++ if loop.rawOk then draws' else []

/-- A message is shown if it can be read. -/
def handleRoomMessage (m : RoomMessage) (rng : Sec) (st : ChatState Sec Key) :
    Option (ChatState Sec Key × List Draw) :=
  let isOwn := m.senderFingerprint = loop.fpStr
  match tryDecryptChecked checks loop.parse m st.e2eSession loop.e2eKeys rng with
  | none => none
  | some (none, e2e) => some ({ st with e2eSession := e2e }, [])
  | some (some content, e2e) =>
    let ts := m.timestamp % 86400
    let h := ts / 3600
    let min := ts % 3600 / 60
    match aliasFor m.senderFingerprint st.aliases with
    | none => none
    | some sender =>
      some ({ st with e2eSession := e2e },
        loop.drawn [.writeMsg h min sender content isOwn] [.drawPrompt st.inputBuf])

/-- A peer that has joined gets its alias, or a name. -/
def handlePeerReady (p : PeerReady) (st : ChatState Sec Key) :
    Option (ChatState Sec Key × List Draw) :=
  match if p.displayAlias = "" then short p.fingerprint else some p.displayAlias with
  | none => none
  | some a =>
    match addChecked checks st.peerCount 1 with
    | none => none
    | some peerCount =>
      let status := Draw.drawStatus loop.cfg.roomName loop.cfg.roomMode peerCount loop.cfg.torConnected
        st.e2eSession.isSome
      some ({ st with aliases := st.aliases.insert p.fingerprint a, peerCount := peerCount },
        loop.drawn [.writeSys ("── " ++ a ++ " a rejoint la room ──")] [status, .drawPrompt st.inputBuf])

/-- **The handling of a frame**: the state after it and what is drawn, or `none` where it stops the
program. -/
def handleFrame (frame : Frame) (rng : Sec) (st : ChatState Sec Key) :
    Option (ChatState Sec Key × List Draw) :=
  match frame.messageType with
  | MessageType.roomMessage =>
    match WireMessage.protoDecode loop.prost frame with
    | .ok (.roomMessage m) => loop.handleRoomMessage checks m rng st
    | _ => some (st, [])
  | MessageType.peerReady =>
    match WireMessage.protoDecode loop.prost frame with
    | .ok (.peerReady p) => loop.handlePeerReady checks p st
    | _ => some (st, [])
  | _ => some (st, [])

end ChatLoop

/-! ### Harmless frames -/

variable (P) in
/-- **The message can be read**: there is no session and it is no initial message, or it has a header and
decrypts in the session. -/
def RoomMessage.Readable (m : RoomMessage) (parse : Bytes → Option (InitialMessage Bytes32))
    (e2e : Option (E2eSession Sec Bytes32 Key)) (rng : Sec) : Prop :=
  match e2e with
  | none => parse m.ciphertext = none
  | some s => ∃ h pt, m.header = some h ∧ (s.decrypt P h m.ciphertext rng).1 = .ok pt

theorem isSome_tryDecrypt_iff (parse : Bytes → Option (InitialMessage Bytes32)) (m : RoomMessage)
    (e2e : Option (E2eSession Sec Bytes32 Key)) (keys : Option (PeerPrivateKeys P)) (rng : Sec) :
    (tryDecrypt parse m e2e keys rng).1.isSome ↔ m.Readable P parse e2e rng := by
  unfold tryDecrypt RoomMessage.Readable RoomMessage.header
  cases e2e with
  | none =>
      cases parse m.ciphertext with
      | none => exact iff_of_true rfl rfl
      | some init =>
          refine iff_of_false ?_ nofun
          cases keys with
          | none => exact Bool.false_ne_true
          | some k =>
              dsimp only
              cases E2eSession.respond k init with
              | error e => exact Bool.false_ne_true
              | ok session => exact Bool.false_ne_true
  | some s =>
      cases m.ratchetHeader with
      | none => exact iff_of_false Bool.false_ne_true (by rintro ⟨h, pt, ⟨⟩, -⟩)
      | some rh =>
          dsimp only
          by_cases hlen : rh.dhPublic.length = 32
          · rw [dif_pos hlen, Option.bind_some, dif_pos hlen]
            rcases hdecrypt : s.decrypt P ⟨⟨rh.dhPublic, hlen⟩, rh.previousChainLength, rh.messageNumber⟩
              m.ciphertext rng with ⟨e | pt, s'⟩
            · refine iff_of_false Bool.false_ne_true ?_
              rintro ⟨h, pt, ⟨⟩, hpt⟩
              rw [hdecrypt] at hpt
              cases hpt
            · exact iff_of_true rfl ⟨_, pt, rfl, by rw [hdecrypt]⟩
          · rw [dif_neg hlen, Option.bind_some, dif_neg hlen]
            exact iff_of_false Bool.false_ne_true (by rintro ⟨h, pt, ⟨⟩, -⟩)

namespace ChatLoop

variable (loop : ChatLoop P)

/-- **A frame that does not stop the program**: a message that can be read comes from a sender with an
alias or with a name that can be cut, a peer that has joined has an alias or such a name, and, in builds
with overflow checks, no addition overflows. -/
structure Harmless (frame : Frame) (rng : Sec) (st : ChatState Sec Key) : Prop where
  message : ∀ m, WireMessage.protoDecode loop.prost frame = .ok (.roomMessage m) →
    ¬ (checks ∧ m.Overflows st.e2eSession) ∧
      (m.Readable P loop.parse st.e2eSession rng → st.aliases.lookup m.senderFingerprint = none →
        CanShorten m.senderFingerprint)
  peer : ∀ p, WireMessage.protoDecode loop.prost frame = .ok (.peerReady p) →
    (p.displayAlias = "" → CanShorten p.fingerprint) ∧ ¬ (checks ∧ st.peerCount.toNat + 1 = 2 ^ 32)

theorem isSome_handleRoomMessage_iff (m : RoomMessage) (rng : Sec) (st : ChatState Sec Key) :
    (loop.handleRoomMessage checks m rng st).isSome ↔ ¬ (checks ∧ m.Overflows st.e2eSession) ∧
      (m.Readable P loop.parse st.e2eSession rng → st.aliases.lookup m.senderFingerprint = none →
        CanShorten m.senderFingerprint) := by
  rw [← isSome_tryDecrypt_iff loop.parse m st.e2eSession loop.e2eKeys rng, ← isSome_aliasFor_iff]
  unfold handleRoomMessage
  dsimp only
  rw [tryDecryptChecked_eq]
  by_cases hover : checks ∧ m.Overflows st.e2eSession
  · rw [if_pos hover]
    exact iff_of_false Bool.false_ne_true fun h => h.1 hover
  · rw [if_neg hover, and_iff_right hover]
    rcases tryDecrypt loop.parse m st.e2eSession loop.e2eKeys rng with ⟨_ | content, e2e⟩
    · exact iff_of_true rfl nofun
    · dsimp only
      cases aliasFor m.senderFingerprint st.aliases with
      | none => exact iff_of_false Bool.false_ne_true fun h => absurd (h rfl) Bool.false_ne_true
      | some sender => exact iff_of_true rfl fun _ => rfl

theorem isSome_addChecked_iff {a : UInt32} :
    (addChecked checks a 1).isSome ↔ ¬ (checks ∧ a.toNat + 1 = 2 ^ 32) := by
  have ha := a.toNat_lt
  unfold addChecked
  rw [UInt32.toNat_one]
  split_ifs with hover
  · exact iff_of_false Bool.false_ne_true fun h => h ⟨hover.1, by omega⟩
  · exact iff_of_true rfl fun h => hover ⟨h.1, h.2.ge⟩

theorem isSome_handlePeerReady_iff (p : PeerReady) (st : ChatState Sec Key) :
    (loop.handlePeerReady checks p st).isSome ↔
      (p.displayAlias = "" → CanShorten p.fingerprint) ∧
        ¬ (checks ∧ st.peerCount.toNat + 1 = 2 ^ 32) := by
  rw [← isSome_addChecked_iff, ← isSome_short_iff]
  have hname : (if p.displayAlias = "" then short p.fingerprint else some p.displayAlias).isSome ↔
      (p.displayAlias = "" → (short p.fingerprint).isSome) := by
    split_ifs with halias
    · exact (imp_iff_right halias).symm
    · exact iff_of_true rfl fun h => absurd h halias
  rw [← hname]
  unfold handlePeerReady
  cases if p.displayAlias = "" then short p.fingerprint else some p.displayAlias with
  | none => exact iff_of_false Bool.false_ne_true fun h => absurd h.1 Bool.false_ne_true
  | some a =>
      dsimp only
      cases addChecked checks st.peerCount 1 with
      | none => exact iff_of_false Bool.false_ne_true fun h => absurd h.2 Bool.false_ne_true
      | some peerCount => exact iff_of_true rfl ⟨rfl, rfl⟩

theorem handleFrame_of_roomMessage {frame : Frame} {m : RoomMessage}
    (h : WireMessage.protoDecode loop.prost frame = .ok (.roomMessage m)) (rng : Sec)
    (st : ChatState Sec Key) :
    loop.handleFrame checks frame rng st = loop.handleRoomMessage checks m rng st := by
  have htype := WireMessage.messageType_of_protoDecode loop.prost h
  unfold handleFrame
  rw [htype, h]
  rfl

theorem handleFrame_of_peerReady {frame : Frame} {p : PeerReady}
    (h : WireMessage.protoDecode loop.prost frame = .ok (.peerReady p)) (rng : Sec)
    (st : ChatState Sec Key) :
    loop.handleFrame checks frame rng st = loop.handlePeerReady checks p st := by
  have htype := WireMessage.messageType_of_protoDecode loop.prost h
  unfold handleFrame
  rw [htype, h]
  rfl

/-- A frame that is neither a message nor a peer that has joined changes nothing. -/
theorem handleFrame_of_other {frame : Frame}
    (hmessage : ∀ m, WireMessage.protoDecode loop.prost frame ≠ .ok (.roomMessage m))
    (hpeer : ∀ p, WireMessage.protoDecode loop.prost frame ≠ .ok (.peerReady p)) (rng : Sec)
    (st : ChatState Sec Key) : loop.handleFrame checks frame rng st = some (st, []) := by
  unfold handleFrame
  split
  · split
    · next m h => exact absurd h (hmessage m)
    · rfl
  · split
    · next p h => exact absurd h (hpeer p)
    · rfl
  · rfl

/-- **Which frames are harmless**: they are all that do not stop the program. -/
theorem isSome_handleFrame_iff (frame : Frame) (rng : Sec) (st : ChatState Sec Key) :
    (loop.handleFrame checks frame rng st).isSome ↔ loop.Harmless checks frame rng st := by
  by_cases hmessage : ∃ m, WireMessage.protoDecode loop.prost frame = .ok (.roomMessage m)
  · obtain ⟨m, hm⟩ := hmessage
    rw [loop.handleFrame_of_roomMessage checks hm, isSome_handleRoomMessage_iff]
    constructor
    · intro h
      refine ⟨?_, ?_⟩
      · intro m' hm'
        cases hm.symm.trans hm'
        exact h
      · intro p hp
        cases hm.symm.trans hp
    · intro h
      exact h.message m hm
  · by_cases hpeer : ∃ p, WireMessage.protoDecode loop.prost frame = .ok (.peerReady p)
    · obtain ⟨p, hp⟩ := hpeer
      rw [loop.handleFrame_of_peerReady checks hp, isSome_handlePeerReady_iff]
      constructor
      · intro h
        refine ⟨?_, ?_⟩
        · intro m hm
          exact absurd ⟨m, hm⟩ hmessage
        · intro p' hp'
          cases hp.symm.trans hp'
          exact h
      · intro h
        exact h.peer p hp
    · rw [loop.handleFrame_of_other checks (not_exists.1 hmessage) (not_exists.1 hpeer)]
      refine iff_of_true rfl ⟨?_, ?_⟩
      · intro m hm
        exact absurd ⟨m, hm⟩ hmessage
      · intro p hp
        exact absurd ⟨p, hp⟩ hpeer

/-! ### A frame that stops the program -/

/-- A loop with nobody else in the room. -/
def testLoop : ChatLoop EarlyLine.primitives where
  fpStr := "0123456789ABCDEF0123456789ABCDEF01234567"
  e2eKeys := some EarlyLine.clientKeys
  cfg := { roomName := "room", roomMode := "ephemeral", torConnected := false }
  rawOk := true
  prost := .wire
  parse := EarlyLine.parseInit

def testState : ChatState Bytes32 (SymKey Bytes32) where
  aliases := (∅ : HashMap String String).insert "0123456789ABCDEF0123456789ABCDEF01234567" "alice"
  e2eSession := none
  peerCount := 1
  inputBuf := ""

/-- A message whose sender has a name with a character across the eighth byte. -/
def testMessage : RoomMessage where
  senderFingerprint := "ABCDEFG€"
  sequenceNumber := 1
  ratchetHeader := none
  ciphertext := asBytes "hello"
  nonce := []
  timestamp := 1700000000

/-- **One message stops the program**, in every build. -/
theorem frame_stops : ∃ frame, WireMessage.protoEncode .wire (.roomMessage testMessage) = .ok frame ∧
    frame.payload.length ≤ 65535 ∧
      ∀ checks, testLoop.handleFrame checks frame (EarlyLine.key32 0) testState = none := by
  refine ⟨_, rfl, by decide, ?_⟩
  intro checks
  have hdecode := WireMessage.protoDecode_protoEncode .wire (.roomMessage testMessage) rfl
  rw [testLoop.handleFrame_of_roomMessage checks hdecode, ← Option.not_isSome_iff_eq_none,
    isSome_handleRoomMessage_iff]
  rintro ⟨-, hname⟩
  have hread : EarlyLine.parseInit testMessage.ciphertext = none := by
    refine if_neg ?_
    intro h
    exact absurd (congrArg List.head? h) (by decide)
  have halias : testState.aliases.lookup testMessage.senderFingerprint = none := by decide
  have hshort : ¬ CanShorten testMessage.senderFingerprint := by
    rw [← isSome_short_iff]
    decide
  exact hshort (hname hread halias)

end ChatLoop

end Sanctum
