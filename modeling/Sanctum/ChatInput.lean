/-
The rounds of the chat loop.

In each round the loop takes what comes first: the shutdown, a frame, or a key.  The keys edit a line, and
a line that is entered goes out as a message with the next number, encrypted if there is a session.  The
frames change the session and the screen, and leave the line alone.

Main definitions:

* `Sanctum.KeyEvent`, `Sanctum.LoopEvent` — the keys, and what a round takes;
* `Sanctum.ChatLoop.step` — **a round of the loop**;
* `Sanctum.entered` — the texts that keys enter;
* `Sanctum.Screen` — the prompt and the status bar.

Main results:

* `Sanctum.ChatLoop.sent_run` — **what is sent**: the lines, numbered from 1, each encrypted as the calls of
  the helpers until then say;
* `Sanctum.ChatLoop.screen_run` — **what is on the screen** between two rounds.
-/

import Sanctum.FrameHandling
import Sanctum.Histories
import Sanctum.Join
import Sanctum.Runs

set_option relaxedAutoImplicit false
set_option autoImplicit false

namespace Sanctum

/-! ### Sending with overflow checks -/

/-- An addition of numbers of 64 bits, with overflow checks or without them. -/
def addChecked64 (checks : Bool) (a b : UInt64) : Option UInt64 :=
  if checks ∧ 2 ^ 64 ≤ a.toNat + b.toNat then none else some (a + b)

theorem addChecked64_eq_some {checks : Bool} {a b c : UInt64} (h : addChecked64 checks a b = some c) :
    c = a + b := by
  unfold addChecked64 at h
  split at h
  · cases h
  · exact (Option.some_inj.1 h).symm

section

variable {Sec Grp Key Nonce Plain Cipher : Type} (P : Primitives Sec Grp Key Nonce Plain Cipher)
  (checks : Bool)

/-- `encrypt`, with `none` where the number of the next message is too large. -/
def Primitives.encryptChecked (s : RatchetState Sec Grp Key) (plaintext : Plain) :
    Option (Except SanctumError (Header Grp × Cipher) × RatchetState Sec Grp Key) :=
  match s.chainKeySend with
  | none => some (.error (.malformedMessage "no send chain"), s)
  | some ck =>
    match P.kdfCk ck with
    | .error e => some (.error e, s)
    | .ok (newCk, msgKey) =>
      let header : Header Grp :=
        { dhPublic := s.dhSelfPublic, prevChainLen := s.prevChainLen, msgNum := s.msgNumSend }
      match addChecked checks s.msgNumSend 1 with
      | none => none
      | some next =>
        let s := { s with chainKeySend := some newCk, msgNumSend := next }
        match P.encryptWith msgKey plaintext with
        | .error e => some (.error e, s)
        | .ok ct => some (.ok (header, ct), s)

variable {P checks}

theorem Primitives.encryptChecked_eq_some {s : RatchetState Sec Grp Key} {plaintext : Plain}
    {out : Except SanctumError (Header Grp × Cipher) × RatchetState Sec Grp Key}
    (h : P.encryptChecked checks s plaintext = some out) : out = P.encrypt s plaintext := by
  unfold encryptChecked at h
  unfold encrypt
  cases hck : s.chainKeySend with
  | none =>
      rw [hck] at h
      exact (Option.some_inj.1 h).symm
  | some ck =>
      rw [hck] at h
      dsimp only at h ⊢
      rcases hkdf : P.kdfCk ck with e | ⟨newCk, msgKey⟩
      · rw [hkdf] at h
        exact (Option.some_inj.1 h).symm
      · rw [hkdf] at h
        dsimp only at h ⊢
        unfold addChecked at h
        split_ifs at h
        dsimp only at h
        rcases hencrypt : P.encryptWith msgKey plaintext with e | ct
        · rw [hencrypt] at h
          exact (Option.some_inj.1 h).symm
        · rw [hencrypt] at h
          exact (Option.some_inj.1 h).symm

end

variable {Sec Key Nonce : Type} {P : Primitives Sec Bytes32 Key Nonce Bytes Bytes} (checks : Bool)

variable (P) in
/-- `encrypt_msg`. -/
def encryptMsgChecked (text : String) (e2e : Option (E2eSession Sec Bytes32 Key)) :
    Option ((Bytes × Option RatchetHeader) × Option (E2eSession Sec Bytes32 Key)) :=
  match e2e with
  | some s =>
    match P.encryptChecked checks s.ratchet (asBytes text) with
    | none => none
    | some (.ok (h, ct), ratchet) =>
      some ((ct, some
        { dhPublic := h.dhPublic.val
          previousChainLength := h.prevChainLen
          messageNumber := h.msgNum }), some { s with ratchet := ratchet })
    | some (.error _, ratchet) => some ((asBytes text, none), some { s with ratchet := ratchet })
  | none => some ((asBytes text, none), none)

variable {checks} in
theorem encryptMsgChecked_eq_some {text : String} {e2e : Option (E2eSession Sec Bytes32 Key)}
    {out : (Bytes × Option RatchetHeader) × Option (E2eSession Sec Bytes32 Key)}
    (h : encryptMsgChecked P checks text e2e = some out) : out = encryptMsg P text e2e := by
  unfold encryptMsgChecked at h
  unfold encryptMsg
  cases e2e with
  | none => exact (Option.some_inj.1 h).symm
  | some s =>
      dsimp only at h ⊢
      unfold E2eSession.encrypt
      rcases hencrypt : P.encryptChecked checks s.ratchet (asBytes text) with _ | ⟨e | ⟨header, ct⟩, ratchet⟩
      · rw [hencrypt] at h
        cases h
      · rw [← Primitives.encryptChecked_eq_some hencrypt]
        rw [hencrypt] at h
        exact (Option.some_inj.1 h).symm
      · rw [← Primitives.encryptChecked_eq_some hencrypt]
        rw [hencrypt] at h
        exact (Option.some_inj.1 h).symm

/-! ### The rounds -/

/-- The keys that the loop hears of. -/
inductive KeyEvent
  | char (c : Char)
  | backspace
  | enter
  | line (text : String)
  | quit
deriving DecidableEq

/-- **What a round takes**: the shutdown, what `recv_frame` returns, with the text of its error, or what
comes from the keyboard.  A line that is entered is sent at a time, and `send_frame` may fail. -/
inductive LoopEvent (Sec : Type)
  | shutdown
  | received (result : Except String Frame) (rng : Sec)
  | key (event : Option KeyEvent) (now : UInt64) (sending : Except String Unit)

/-- The loop between two rounds: its variables, and what it has sent and drawn so far. -/
structure LoopState (Sec Key : Type) where
  chat : ChatState Sec Key
  seq : UInt64
  running : Bool
  /-- The messages that have been passed to `send_frame`, with their frames. -/
  sent : List (RoomMessage × Frame)
  draws : List Draw

/-- `String::pop`. -/
def popChar (text : String) : String := String.ofList text.toList.dropLast

/-- The words that end the loop. -/
def IsExit (text : String) : Prop := text = "/exit" ∨ text = "/quit" ∨ text = "/q"

instance : DecidablePred IsExit := fun _ => inferInstanceAs (Decidable (_ ∨ _))

namespace ChatLoop

variable (loop : ChatLoop P)

/-- The loop before its first round. -/
def start (localAlias : String) : LoopState Sec Key where
  chat :=
    { aliases := (∅ : HashMap String String).insert loop.fpStr localAlias
      e2eSession := none
      peerCount := 1
      inputBuf := "" }
  seq := 1
  running := true
  sent := []
  draws :=
    if loop.rawOk then
      [.drawStatus loop.cfg.roomName loop.cfg.roomMode 1 loop.cfg.torConnected false, .drawPrompt ""]
    else []

/-- Draw the prompt, in raw mode. -/
def prompted (s : LoopState Sec Key) : LoopState Sec Key :=
  { s with draws := s.draws ++ if loop.rawOk then [.drawPrompt s.chat.inputBuf] else [] }

/-- The message for a line that is sent. -/
def messageFor (seq now : UInt64) (content : Bytes × Option RatchetHeader) : RoomMessage where
  senderFingerprint := loop.fpStr
  sequenceNumber := seq
  ratchetHeader := content.2
  ciphertext := content.1
  nonce := List.replicate 12 0
  timestamp := now

/-- A line is entered. -/
def submit (text : String) (now : UInt64) (sending : Except String Unit) (s : LoopState Sec Key) :
    Option (LoopState Sec Key) :=
  if text = "" then some (loop.prompted s)
  else if IsExit text then some { s with running := false }
  else
    match encryptMsgChecked P checks text s.chat.e2eSession with
    | none => none
    | some (content, e2e) =>
      let m := loop.messageFor s.seq now content
      match WireMessage.protoEncode loop.prost (.roomMessage m) with
      | .error _ => none
      | .ok frame =>
        let s := { s with chat := { s.chat with e2eSession := e2e }, sent := s.sent ++ [(m, frame)] }
        match sending with
        | .error e => some { s with running := false, draws := s.draws ++ [.writeSys ("send: " ++ e)] }
        | .ok () =>
          match addChecked64 checks s.seq 1 with
          | none => none
          | some seq => some (loop.prompted { s with seq := seq })

/-- **A round of the loop**, or `none` if there is none any more, or if it stops the program. -/
def step (s : LoopState Sec Key) (event : LoopEvent Sec) : Option (LoopState Sec Key) :=
  if s.running then
    match event with
    | .shutdown => some { s with running := false }
    | .received (.ok frame) rng =>
      match loop.handleFrame checks frame rng s.chat with
      | none => none
      | some (chat, draws) => some { s with chat := chat, draws := s.draws ++ draws }
    | .received (.error e) _ => some
      { s with
        running := false
        draws := s.draws ++ loop.drawn [.writeSys ("connexion perdue: " ++ e)] [] }
    | .key (some (.char c)) _ _ =>
      some (loop.prompted
        { s with chat := { s.chat with inputBuf := s.chat.inputBuf ++ String.ofList [c] } })
    | .key (some .backspace) _ _ =>
      some (loop.prompted { s with chat := { s.chat with inputBuf := popChar s.chat.inputBuf } })
    | .key (some .enter) now sending =>
      loop.submit checks (trim s.chat.inputBuf) now sending
        { s with chat := { s.chat with inputBuf := "" } }
    | .key (some (.line text)) now sending => loop.submit checks text now sending s
    | .key (some .quit) _ _ => some { s with running := false }
    | .key none _ _ => some { s with running := false }
  else none

end ChatLoop

/-! ### What the keys enter -/

/-- A key edits the line. -/
def KeyEvent.edit (text : String) : KeyEvent → String
  | .char c => text ++ String.ofList [c]
  | .backspace => popChar text
  | _ => text

/-- The line that is being typed: what the keys since the last enter key have made of it. -/
def typed (keys : List KeyEvent) : String :=
  (Histories.since (fun key => key = .enter) keys).foldl KeyEvent.edit ""

/-- What a key enters, after the keys before it. -/
def enteredBy (before : List KeyEvent) : KeyEvent → Option String
  | .enter => some (trim (typed before))
  | .line text => some text
  | _ => none

/-- **The texts that are entered.** -/
def entered (keys : List KeyEvent) : List String := Histories.collect enteredBy keys

example : entered [.char ' ', .char 'h', .char 'x', .backspace, .char 'i', .enter, .line "q", .enter] =
    ["hi", "q", ""] := by decide

/-- The key of an event. -/
def LoopEvent.keyEvent : LoopEvent Sec → Option KeyEvent
  | .shutdown => none
  | .received _ _ => none
  | .key event _ _ => event

/-- The keys of some events. -/
def keysOf (events : List (LoopEvent Sec)) : List KeyEvent := events.filterMap LoopEvent.keyEvent

/-- A text that is sent when it is entered. -/
def IsMessage (text : String) : Prop := text ≠ "" ∧ ¬ IsExit text

instance : DecidablePred IsMessage := fun _ => inferInstanceAs (Decidable (_ ∧ _))

theorem typed_append_enter (keys : List KeyEvent) : typed (keys ++ [.enter]) = "" := by
  unfold typed
  rw [Histories.since_append_singleton]
  rfl

/-- A key that is not the enter key edits the line. -/
theorem typed_append {key : KeyEvent} (h : key ≠ .enter) (keys : List KeyEvent) :
    typed (keys ++ [key]) = key.edit (typed keys) := by
  unfold typed
  rw [Histories.since_append_singleton, if_neg (by simpa using h), List.foldl_append]
  rfl

/-- The text of a line. -/
def ChatCall.text : ChatCall Sec → Option String
  | .line text => some text
  | .frame _ _ => none

/-! ### What a round does -/

namespace ChatLoop

variable {loop : ChatLoop P} {checks : Bool} {s s' : LoopState Sec Key} {event : LoopEvent Sec}

variable (loop) in
/-- The message in a frame, if there is one. -/
def readMessage (frame : Frame) : Option RoomMessage :=
  match WireMessage.protoDecode loop.prost frame with
  | .ok (.roomMessage m) => some m
  | _ => none

theorem readMessage_eq_none {frame : Frame}
    (h : ∀ m, WireMessage.protoDecode loop.prost frame ≠ .ok (.roomMessage m)) :
    loop.readMessage frame = none := by
  unfold readMessage
  split
  · next m hm => exact absurd hm (h m)
  · rfl

/-- A message changes nothing but the session; it is drawn, with the prompt, if it can be read. -/
theorem handleRoomMessage_cases {m : RoomMessage} {rng : Sec} {chat chat' : ChatState Sec Key}
    {draws : List Draw} (h : loop.handleRoomMessage checks m rng chat = some (chat', draws)) :
    chat' = { chat with e2eSession := (tryDecrypt loop.parse m chat.e2eSession loop.e2eKeys rng).2 } ∧
      (draws = [] ∨ ∃ h min sender content isOwn,
        draws = loop.drawn [.writeMsg h min sender content isOwn] [.drawPrompt chat.inputBuf]) := by
  unfold handleRoomMessage at h
  dsimp only at h
  rw [tryDecryptChecked_eq] at h
  split_ifs at h
  rcases hdecrypt : tryDecrypt loop.parse m chat.e2eSession loop.e2eKeys rng with ⟨_ | content, e2e⟩
  · rw [hdecrypt] at h
    cases h
    exact ⟨rfl, Or.inl rfl⟩
  · rw [hdecrypt] at h
    dsimp only at h
    rcases hsender : aliasFor m.senderFingerprint chat.aliases with _ | sender
    · rw [hsender] at h
      cases h
    · rw [hsender] at h
      cases h
      exact ⟨rfl, Or.inr ⟨_, _, _, _, _, rfl⟩⟩

/-- A peer that has joined changes the names and their number, which the status bar shows. -/
theorem handlePeerReady_cases {p : PeerReady} {chat chat' : ChatState Sec Key} {draws : List Draw}
    (h : loop.handlePeerReady checks p chat = some (chat', draws)) :
    chat'.e2eSession = chat.e2eSession ∧ chat'.inputBuf = chat.inputBuf ∧
      chat'.peerCount = chat.peerCount + 1 ∧ ∃ text, draws = loop.drawn [.writeSys text]
        [.drawStatus loop.cfg.roomName loop.cfg.roomMode chat'.peerCount loop.cfg.torConnected
          chat.e2eSession.isSome, .drawPrompt chat.inputBuf] := by
  unfold handlePeerReady at h
  generalize (if p.displayAlias = "" then short p.fingerprint else some p.displayAlias) = name at h
  cases name with
  | none => cases h
  | some a =>
    dsimp only at h
    unfold addChecked at h
    split_ifs at h
    cases h
    exact ⟨rfl, rfl, rfl, _, rfl⟩

variable (loop) in
/-- The notice of a peer that has joined in a frame, if there is one. -/
def readPeer (frame : Frame) : Option PeerReady := loop.prost.protoCodec.readPeerReady frame

/-- **What a frame does**: it is a message, a notice, or nothing to the loop. -/
theorem handleFrame_cases {frame : Frame} {rng : Sec} {chat chat' : ChatState Sec Key} {draws : List Draw}
    (h : loop.handleFrame checks frame rng chat = some (chat', draws)) :
    (∃ m, loop.readMessage frame = some m ∧ loop.readPeer frame = none ∧
      loop.handleRoomMessage checks m rng chat = some (chat', draws)) ∨
    (∃ p, loop.readMessage frame = none ∧ loop.readPeer frame = some p ∧
      loop.handlePeerReady checks p chat = some (chat', draws)) ∨
    (loop.readMessage frame = none ∧ loop.readPeer frame = none ∧ chat' = chat ∧ draws = []) := by
  have hpeer : ∀ p, loop.readPeer frame = some p ↔
      WireMessage.protoDecode loop.prost frame = .ok (.peerReady p) :=
    fun p => WireMessage.readPeerReady_eq_some_iff loop.prost
  by_cases hmessage : ∃ m, WireMessage.protoDecode loop.prost frame = .ok (.roomMessage m)
  · obtain ⟨m, hm⟩ := hmessage
    rw [loop.handleFrame_of_roomMessage checks hm] at h
    refine Or.inl ⟨m, ?_, ?_, h⟩
    · unfold readMessage
      rw [hm]
    · refine Option.eq_none_iff_forall_ne_some.2 ?_
      intro p hp
      cases hm.symm.trans ((hpeer p).1 hp)
  · have hnone := readMessage_eq_none (not_exists.1 hmessage)
    by_cases hnotice : ∃ p, WireMessage.protoDecode loop.prost frame = .ok (.peerReady p)
    · obtain ⟨p, hp⟩ := hnotice
      rw [loop.handleFrame_of_peerReady checks hp] at h
      exact Or.inr (Or.inl ⟨p, hnone, (hpeer p).2 hp, h⟩)
    · rw [loop.handleFrame_of_other checks (not_exists.1 hmessage) (not_exists.1 hnotice)] at h
      cases h
      refine Or.inr (Or.inr ⟨hnone, ?_, rfl, rfl⟩)
      refine Option.eq_none_iff_forall_ne_some.2 ?_
      intro p hp
      exact hnotice ⟨p, (hpeer p).1 hp⟩

/-- **A line that is entered** is sent if it is a message, with the next number, and the loop goes on unless
`send_frame` fails; other lines are not sent. -/
theorem submit_cases {text : String} {now : UInt64} {sending : Except String Unit}
    (h : loop.submit checks text now sending s = some s') :
    (¬ IsMessage text ∧ (s' = loop.prompted s ∨ s' = { s with running := false })) ∨
      IsMessage text ∧ ∃ frame,
        let out := encryptMsg P text s.chat.e2eSession
        let m := loop.messageFor s.seq now out.1
        let after := { s with chat := { s.chat with e2eSession := out.2 }, sent := s.sent ++ [(m, frame)] }
        WireMessage.protoEncode loop.prost (.roomMessage m) = .ok frame ∧
          ((∃ e, s' = { after with running := false, draws := s.draws ++ [.writeSys ("send: " ++ e)] }) ∨
            s' = loop.prompted { after with seq := s.seq + 1 }) := by
  unfold submit at h
  split_ifs at h with hempty hexit
  · exact Or.inl ⟨fun hmessage => hmessage.1 hempty, Or.inl (Option.some_inj.1 h).symm⟩
  · exact Or.inl ⟨fun hmessage => hmessage.2 hexit, Or.inr (Option.some_inj.1 h).symm⟩
  · refine Or.inr ⟨⟨hempty, hexit⟩, ?_⟩
    rcases hencrypt : encryptMsgChecked P checks text s.chat.e2eSession with _ | ⟨content, e2e⟩
    · rw [hencrypt] at h
      cases h
    · rw [hencrypt] at h
      rw [← encryptMsgChecked_eq_some hencrypt]
      dsimp only at h ⊢
      rcases hframe : WireMessage.protoEncode loop.prost
        (.roomMessage (loop.messageFor s.seq now content)) with e | frame
      · rw [hframe] at h
        cases h
      · rw [hframe] at h
        refine ⟨frame, rfl, ?_⟩
        cases sending with
        | error e => exact Or.inl ⟨e, (Option.some_inj.1 h).symm⟩
        | ok sent =>
            dsimp only at h
            rcases hseq : addChecked64 checks s.seq 1 with _ | seq
            · rw [hseq] at h
              cases h
            · rw [hseq] at h
              rw [← addChecked64_eq_some hseq]
              exact Or.inr (Option.some_inj.1 h).symm

/-! ### What is sent -/

variable (loop) in
/-- The helper that an event calls: `encrypt_msg` for a text that is sent, and `try_decrypt` for a message
that is received. -/
def callOf (before : List (LoopEvent Sec)) : LoopEvent Sec → Option (ChatCall Sec)
  | .received (.ok frame) rng => (loop.readMessage frame).map fun m => .frame m rng
  | .key (some key) _ _ => ((enteredBy (keysOf before) key).filter fun text => IsMessage text).map .line
  | _ => none

variable (loop) in
/-- **The calls of the helpers**, for some events. -/
def callsOf (events : List (LoopEvent Sec)) : List (ChatCall Sec) :=
  Histories.collect loop.callOf events

variable (loop) in
/-- The content of the message that a call makes, after the calls before it. -/
def contentAfter (before : List (ChatCall Sec)) : ChatCall Sec → Option (Bytes × Option RatchetHeader)
  | .line text => some (encryptMsg P text (sessionAfter loop.parse loop.e2eKeys before)).1
  | .frame _ _ => none

variable (loop) in
/-- **The contents of the messages** that some calls make. -/
def contentsOf (calls : List (ChatCall Sec)) : List (Bytes × Option RatchetHeader) :=
  Histories.collect loop.contentAfter calls

/-- The content of a message. -/
def content (m : RoomMessage) : Bytes × Option RatchetHeader := (m.ciphertext, m.ratchetHeader)

variable (loop) in
/-- **The loop after some events.** -/
structure Progress (events : List (LoopEvent Sec)) (s : LoopState Sec Key) : Prop where
  inputBuf : s.chat.inputBuf = typed (keysOf events)
  session : s.chat.e2eSession = sessionAfter loop.parse loop.e2eKeys (loop.callsOf events)
  contents : s.sent.map (fun out => content out.1) = loop.contentsOf (loop.callsOf events)
  numbers : s.sent.map (fun out => out.1.sequenceNumber) =
    (List.range s.sent.length).map fun i => UInt64.ofNat (i + 1)
  next : s.running = true → s.seq = UInt64.ofNat (s.sent.length + 1)
  frames : ∀ out ∈ s.sent, out.1.senderFingerprint = loop.fpStr ∧
    WireMessage.protoEncode loop.prost (.roomMessage out.1) = .ok out.2

variable {events : List (LoopEvent Sec)}

theorem progress_start (localAlias : String) : loop.Progress [] (loop.start localAlias) where
  inputBuf := rfl
  session := rfl
  contents := rfl
  numbers := rfl
  next _ := rfl
  frames _ hmem := absurd hmem List.not_mem_nil

theorem callsOf_of_none (h : loop.callOf events event = none) :
    loop.callsOf (events ++ [event]) = loop.callsOf events := by
  unfold callsOf
  rw [Histories.collect_append_singleton, h]
  exact List.append_nil _

theorem callsOf_of_some {call : ChatCall Sec} (h : loop.callOf events event = some call) :
    loop.callsOf (events ++ [event]) = loop.callsOf events ++ [call] := by
  unfold callsOf
  rw [Histories.collect_append_singleton, h]
  rfl

theorem sessionAfter_append (calls : List (ChatCall Sec)) (call : ChatCall Sec) :
    sessionAfter loop.parse loop.e2eKeys (calls ++ [call]) =
      sessionStep loop.parse loop.e2eKeys (sessionAfter loop.parse loop.e2eKeys calls) call := by
  unfold sessionAfter
  rw [List.foldl_append]
  rfl

/-- A round that calls no helper. -/
theorem Progress.quiet (h : loop.Progress events s) (hcall : loop.callOf events event = none)
    (hinput : s'.chat.inputBuf = typed (keysOf (events ++ [event])))
    (hsession : s'.chat.e2eSession = s.chat.e2eSession) (hsent : s'.sent = s.sent)
    (hseq : s'.seq = s.seq) (hrunning : s.running = true) :
    loop.Progress (events ++ [event]) s' where
  inputBuf := hinput
  session := by rw [hsession, h.session, callsOf_of_none hcall]
  contents := by rw [hsent, h.contents, callsOf_of_none hcall]
  numbers := by rw [hsent, h.numbers]
  next _ := by rw [hseq, hsent, h.next hrunning]
  frames := by
    rw [hsent]
    exact h.frames

/-- A round that decrypts a message. -/
theorem Progress.frame {m : RoomMessage} {rng : Sec} (h : loop.Progress events s)
    (hcall : loop.callOf events event = some (.frame m rng))
    (hinput : s'.chat.inputBuf = typed (keysOf (events ++ [event])))
    (hsession : s'.chat.e2eSession =
      (tryDecrypt loop.parse m s.chat.e2eSession loop.e2eKeys rng).2)
    (hsent : s'.sent = s.sent) (hseq : s'.seq = s.seq) (hrunning : s.running = true) :
    loop.Progress (events ++ [event]) s' where
  inputBuf := hinput
  session := by
    rw [hsession, callsOf_of_some hcall, sessionAfter_append, h.session]
    rfl
  contents := by
    rw [hsent, h.contents, callsOf_of_some hcall]
    unfold contentsOf
    rw [Histories.collect_append_singleton]
    exact (List.append_nil _).symm
  numbers := by rw [hsent, h.numbers]
  next _ := by rw [hseq, hsent, h.next hrunning]
  frames := by
    rw [hsent]
    exact h.frames

/-- A round that sends a line. -/
theorem Progress.line {text : String} {now : UInt64} {frame : Frame} (h : loop.Progress events s)
    (hcall : loop.callOf events event = some (.line text))
    (hinput : s'.chat.inputBuf = typed (keysOf (events ++ [event])))
    (hsession : s'.chat.e2eSession = (encryptMsg P text s.chat.e2eSession).2)
    (hsent : s'.sent = s.sent ++
      [(loop.messageFor s.seq now (encryptMsg P text s.chat.e2eSession).1, frame)])
    (hframe : WireMessage.protoEncode loop.prost (.roomMessage
      (loop.messageFor s.seq now (encryptMsg P text s.chat.e2eSession).1)) = .ok frame)
    (hseq : s'.running = true → s'.seq = s.seq + 1) (hrunning : s.running = true) :
    loop.Progress (events ++ [event]) s' where
  inputBuf := hinput
  session := by
    rw [hsession, callsOf_of_some hcall, sessionAfter_append, h.session]
    rfl
  contents := by
    rw [hsent, List.map_append, h.contents, callsOf_of_some hcall, h.session]
    unfold contentsOf
    rw [Histories.collect_append_singleton]
    rfl
  numbers := by
    rw [hsent, List.map_append, h.numbers, List.length_append, List.length_singleton, List.range_succ,
      List.map_append]
    congr 1
    exact congrArg (fun n => [n]) (h.next hrunning)
  next hrunning' := by
    rw [hseq hrunning', h.next hrunning, hsent, List.length_append, List.length_singleton]
    rw [UInt64.ofNat_add (s.sent.length + 1) 1]
    rfl
  frames := by
    rw [hsent]
    intro out hout
    rcases List.mem_append.1 hout with hout | hout
    · exact h.frames out hout
    · obtain rfl := List.mem_singleton.1 hout
      exact ⟨rfl, hframe⟩

theorem keysOf_append (events : List (LoopEvent Sec)) (event : LoopEvent Sec) :
    keysOf (events ++ [event]) = keysOf events ++ event.keyEvent.toList := by
  unfold keysOf
  rw [List.filterMap_append, List.filterMap_cons]
  cases event.keyEvent with
  | none => rfl
  | some key => rfl

/-- A round in which a line is entered; `s` is the loop with the line taken out of the buffer. -/
theorem Progress.submit {text : String} {now : UInt64} {sending : Except String Unit}
    {before : LoopState Sec Key} (h : loop.Progress events before)
    (hcall : loop.callOf events event = ((some text).filter fun text => IsMessage text).map .line)
    (hinput : s.chat.inputBuf = typed (keysOf (events ++ [event])))
    (hs : s = { before with chat := { before.chat with inputBuf := s.chat.inputBuf } })
    (hrunning : before.running = true) (hsubmit : loop.submit checks text now sending s = some s') :
    loop.Progress (events ++ [event]) s' := by
  have hsession : s.chat.e2eSession = before.chat.e2eSession := by rw [hs]
  have hsent : s.sent = before.sent := by rw [hs]
  have hseq : s.seq = before.seq := by rw [hs]
  rcases submit_cases hsubmit with ⟨hmessage, rfl | rfl⟩ | ⟨hmessage, frame, hframe, hs'⟩
  · have hnone : loop.callOf events event = none := by rw [hcall, Option.filter_some, if_neg (by simpa)]; rfl
    exact h.quiet hnone hinput hsession hsent hseq hrunning
  · have hnone : loop.callOf events event = none := by rw [hcall, Option.filter_some, if_neg (by simpa)]; rfl
    exact h.quiet hnone hinput hsession hsent hseq hrunning
  · have hsome : loop.callOf events event = some (.line text) := by
      rw [hcall, Option.filter_some, if_pos (by simpa)]
      rfl
    rw [hsession, hseq] at hframe
    rcases hs' with ⟨e, rfl⟩ | rfl
    · refine h.line hsome hinput (by rw [← hsession]) ?_ hframe (fun hno => absurd hno Bool.false_ne_true)
        hrunning
      rw [← hsession, ← hseq, ← hsent]
    · refine h.line hsome hinput (by rw [← hsession]; rfl) ?_ hframe (fun _ => by rw [← hseq]; rfl)
        hrunning
      rw [← hsession, ← hseq, ← hsent]
      rfl

/-- **A round keeps the loop as the events say.** -/
theorem Progress.step (h : loop.Progress events s) (hstep : loop.step checks s event = some s') :
    loop.Progress (events ++ [event]) s' := by
  unfold ChatLoop.step at hstep
  split_ifs at hstep with hrunning
  have hinput := h.inputBuf
  cases event with
  | shutdown =>
      cases hstep
      refine h.quiet rfl ?_ rfl rfl rfl hrunning
      rw [keysOf_append]
      exact hinput.trans (congrArg typed (List.append_nil _).symm)
  | received result rng =>
      have hkeys : typed (keysOf (events ++ [.received result rng])) = typed (keysOf events) := by
        rw [keysOf_append]
        exact congrArg typed (List.append_nil _)
      cases result with
      | error e =>
          cases hstep
          exact h.quiet rfl (hinput.trans hkeys.symm) rfl rfl rfl hrunning
      | ok frame =>
          dsimp only at hstep
          rcases hhandle : loop.handleFrame checks frame rng s.chat with _ | ⟨chat, draws⟩
          · rw [hhandle] at hstep
            cases hstep
          · rw [hhandle] at hstep
            cases hstep
            have hcall : loop.callOf events (.received (.ok frame) rng) =
                (loop.readMessage frame).map fun m => .frame m rng := rfl
            rcases handleFrame_cases hhandle with
              ⟨m, hread, -, hm⟩ | ⟨p, hread, -, hp⟩ | ⟨hread, -, rfl, -⟩
            · obtain ⟨rfl, -⟩ := handleRoomMessage_cases hm
              rw [hread] at hcall
              exact h.frame hcall (hinput.trans hkeys.symm) rfl rfl rfl hrunning
            · obtain ⟨hsession, hbuf, -⟩ := handlePeerReady_cases hp
              rw [hread] at hcall
              exact h.quiet hcall ((hbuf.trans hinput).trans hkeys.symm) hsession rfl rfl hrunning
            · rw [hread] at hcall
              exact h.quiet hcall (hinput.trans hkeys.symm) rfl rfl rfl hrunning
  | key key now sending =>
      have hkeys : keysOf (events ++ [.key key now sending]) = keysOf events ++ key.toList :=
        keysOf_append events _
      cases key with
      | none =>
          cases hstep
          refine h.quiet rfl ?_ rfl rfl rfl hrunning
          rw [hkeys]
          exact hinput.trans (congrArg typed (List.append_nil _).symm)
      | some key =>
          have hedit : key ≠ .enter → typed (keysOf (events ++ [.key (some key) now sending])) =
              key.edit s.chat.inputBuf := by
            intro hne
            rw [hkeys, Option.toList_some, typed_append hne, hinput]
          cases key with
          | char c =>
              cases hstep
              exact h.quiet rfl (hedit (by simp)).symm rfl rfl rfl hrunning
          | backspace =>
              cases hstep
              exact h.quiet rfl (hedit (by simp)).symm rfl rfl rfl hrunning
          | quit =>
              cases hstep
              exact h.quiet rfl (hedit (by simp)).symm rfl rfl rfl hrunning
          | enter =>
              refine h.submit ?_ ?_ rfl hrunning hstep
              · rw [hinput]
                rfl
              · rw [hkeys, Option.toList_some, typed_append_enter]
          | line text => exact h.submit rfl (hedit (by simp)).symm rfl hrunning hstep

/-- An event calls `encrypt_msg` for the message that its key enters. -/
theorem text_callOf (before : List (LoopEvent Sec)) (event : LoopEvent Sec) :
    (loop.callOf before event).bind ChatCall.text =
      (event.keyEvent.bind (enteredBy (keysOf before))).filter fun text => IsMessage text := by
  cases event with
  | shutdown => rfl
  | received result rng =>
      cases result with
      | error e => rfl
      | ok frame =>
          rw [callOf]
          cases loop.readMessage frame with
          | none => rfl
          | some m => rfl
  | key key now sending =>
      cases key with
      | none => rfl
      | some key =>
          rw [callOf, LoopEvent.keyEvent, Option.bind_some]
          cases (enteredBy (keysOf before) key).filter fun text => IsMessage text with
          | none => rfl
          | some text => rfl

/-- **The lines of the calls** are the texts that are entered, without those that are no messages. -/
theorem lines_callsOf (events : List (LoopEvent Sec)) :
    (loop.callsOf events).filterMap ChatCall.text =
      (entered (keysOf events)).filter fun text => IsMessage text := by
  unfold callsOf entered
  rw [Histories.filterMap_collect]
  induction events using List.reverseRecOn with
  | nil => rfl
  | append_singleton events event ih =>
      rw [Histories.collect_append_singleton, ih, text_callOf, keysOf_append]
      cases event.keyEvent with
      | none => simp
      | some key =>
          rw [Option.toList_some, Histories.collect_append_singleton, List.filter_append, Option.bind_some,
            Option.toList_filter]

variable {localAlias : String}

theorem progress_run (hrun : Runs.run (loop.step checks) (loop.start localAlias) events = some s) :
    loop.Progress events s :=
  Runs.history_induction (fun _ _ _ _ _ _ hstep _ h => h.step hstep) (progress_start localAlias) hrun

/-- **What the loop sends**: one message for each text that is entered and is one, in order, whatever frames
come between the keys.  The messages have the numbers from 1 on and the fingerprint of the client, and their
contents and the session are what the calls of the helpers make, one for each of these lines and for each
message that has been received. -/
theorem sent_run (hrun : Runs.run (loop.step checks) (loop.start localAlias) events = some s) :
    (loop.callsOf events).filterMap ChatCall.text =
        ((entered (keysOf events)).filter fun text => IsMessage text) ∧
      s.sent.map (fun out => content out.1) = loop.contentsOf (loop.callsOf events) ∧
      s.sent.map (fun out => out.1.sequenceNumber) =
        ((List.range s.sent.length).map fun i => UInt64.ofNat (i + 1)) ∧
      (∀ out ∈ s.sent, out.1.senderFingerprint = loop.fpStr ∧
        WireMessage.protoEncode loop.prost (.roomMessage out.1) = .ok out.2) ∧
      s.chat.e2eSession = sessionAfter loop.parse loop.e2eKeys (loop.callsOf events) := by
  have h := progress_run hrun
  exact ⟨lines_callsOf events, h.contents, h.numbers, h.frames, h.session⟩

/-- A message of a peer, not encrypted. -/
def testHeard : RoomMessage :=
  { testLoop.messageFor 1 5 ([111, 107], none) with
    senderFingerprint := "FEDCBA9876543210FEDCBA9876543210FEDCBA98" }

/-- A line is typed, corrected and entered, and the loop is left.  A message of a peer comes between the keys. -/
def testEvents : List (LoopEvent Bytes32) :=
  [.key (some (.char 'h')) 0 (.ok ()), .key (some (.char 'u')) 0 (.ok ()),
    .received (.ok ⟨MessageType.roomMessage, Prost.wire.roomMessage.encode testHeard⟩) (EarlyLine.key32 0),
    .key (some .backspace) 0 (.ok ()), .key (some (.char 'i')) 0 (.ok ()), .key (some .enter) 7 (.ok ()),
    .key (some .quit) 0 (.ok ())]

theorem sent_testEvents : ((Runs.run (testLoop.step true) (testLoop.start "alice") testEvents).map fun s =>
    s.sent.map fun out => content out.1) = some [([104, 105], none)] := by
  decide +kernel

/-- Two calls of the helpers, for the message and for the line, and one message that is sent. -/
theorem sent_run_testEvents : ∃ s, Runs.run (testLoop.step true) (testLoop.start "alice") testEvents = some s ∧
    (testLoop.callsOf testEvents).length = 2 ∧
    testLoop.contentsOf (testLoop.callsOf testEvents) = [([104, 105], none)] := by
  obtain ⟨s, hrun, hsent⟩ := Option.map_eq_some_iff.1 sent_testEvents
  have hcalls : (testLoop.callsOf testEvents).length = 2 := by decide +kernel
  exact ⟨s, hrun, hcalls, (sent_run hrun).2.1.symm.trans hsent⟩

/-! ### What is on the screen -/

/-- The text of a prompt. -/
def promptOf : Draw → Option String
  | .drawPrompt input => some input
  | _ => none

/-- What a status bar shows: the room, its mode, the number of peers, and whether there are Tor and a
session. -/
def statusOf : Draw → Option (String × String × UInt32 × Bool × Bool)
  | .drawStatus room mode peers tor e2e => some (room, mode, peers, tor, e2e)
  | _ => none

/-- The prompt on the screen. -/
def promptShown (draws : List Draw) : Option String := (draws.filterMap promptOf).getLast?

/-- The status bar on the screen. -/
def statusShown (draws : List Draw) : Option (String × String × UInt32 × Bool × Bool) :=
  (draws.filterMap statusOf).getLast?

variable (loop) in
/-- The notice of a peer that has joined, in an event. -/
def peerOf : LoopEvent Sec → Option PeerReady
  | .received (.ok frame) _ => loop.readPeer frame
  | _ => none

variable (loop) in
/-- **The screen after some events**, in raw mode. -/
structure Shown (events : List (LoopEvent Sec)) (s : LoopState Sec Key) : Prop where
  prompt : s.running = true → promptShown s.draws = some s.chat.inputBuf
  status : ∃ e2e, statusShown s.draws =
      some (loop.cfg.roomName, loop.cfg.roomMode, s.chat.peerCount, loop.cfg.torConnected, e2e) ∧
    (e2e = true → s.chat.e2eSession.isSome = true)
  peers : s.chat.peerCount = UInt32.ofNat (1 + (events.filterMap loop.peerOf).length)

theorem promptShown_append (draws draws' : List Draw) :
    promptShown (draws ++ draws') = (promptShown draws').or (promptShown draws) := by
  unfold promptShown
  rw [List.filterMap_append, List.getLast?_append]

theorem statusShown_append (draws draws' : List Draw) :
    statusShown (draws ++ draws') = (statusShown draws').or (statusShown draws) := by
  unfold statusShown
  rw [List.filterMap_append, List.getLast?_append]

theorem shown_start (hraw : loop.rawOk = true) (localAlias : String) :
    loop.Shown [] (loop.start localAlias) := by
  have hdraws : (loop.start localAlias).draws =
      [.drawStatus loop.cfg.roomName loop.cfg.roomMode 1 loop.cfg.torConnected false, .drawPrompt ""] :=
    if_pos hraw
  refine ⟨?_, ⟨false, ?_, nofun⟩, rfl⟩
  · intro _
    rw [hdraws]
    rfl
  · rw [hdraws]
    rfl

/-- A session is never given up. -/
theorem isSome_tryDecrypt {m : RoomMessage} {e2e : Option (E2eSession Sec Bytes32 Key)} {rng : Sec}
    (h : e2e.isSome = true) :
    (tryDecrypt loop.parse m e2e loop.e2eKeys rng).2.isSome = true := by
  obtain ⟨session, rfl⟩ := Option.isSome_iff_exists.1 h
  by_cases hheader : m.HasHeader
  · obtain ⟨hd, s', hs', -⟩ := (tryDecrypt_some loop.parse loop.e2eKeys m session rng).2 hheader
    rw [hs']
    rfl
  · rw [(tryDecrypt_some loop.parse loop.e2eKeys m session rng).1 hheader]
    rfl

theorem isSome_encryptMsg {text : String} {e2e : Option (E2eSession Sec Bytes32 Key)}
    (h : e2e.isSome = true) : (encryptMsg P text e2e).2.isSome = true := by
  obtain ⟨session, rfl⟩ := Option.isSome_iff_exists.1 h
  unfold encryptMsg
  dsimp only
  split
  · rfl
  · rfl

/-- A round that draws no status bar, and the prompt if it has changed the line. -/
theorem Shown.drawn {draws : List Draw} (h : loop.Shown events s) (hrunning : s.running = true)
    (hdraws : s'.draws = s.draws ++ draws) (hstatus : statusShown draws = none)
    (hprompt : s'.running = true → promptShown draws = some s'.chat.inputBuf ∨
      promptShown draws = none ∧ s'.chat.inputBuf = s.chat.inputBuf)
    (hcount : s'.chat.peerCount = s.chat.peerCount)
    (hsession : s.chat.e2eSession.isSome = true → s'.chat.e2eSession.isSome = true)
    (hpeer : loop.peerOf event = none) : loop.Shown (events ++ [event]) s' where
  prompt hrunning' := by
    rw [hdraws, promptShown_append]
    rcases hprompt hrunning' with hshown | ⟨hnone, hsame⟩
    · rw [hshown]
      rfl
    · rw [hnone, hsame]
      exact h.prompt hrunning
  status := by
    obtain ⟨e2e, hshown, himp⟩ := h.status
    refine ⟨e2e, ?_, fun he => hsession (himp he)⟩
    rw [hdraws, statusShown_append, hstatus, hcount]
    exact hshown
  peers := by
    rw [hcount, List.filterMap_append, List.filterMap_cons, hpeer]
    exact h.peers.trans (congrArg _ (congrArg _ (congrArg _ (List.append_nil _).symm)))

/-- A round in which a line is entered; `s` is the loop with the line taken out of the buffer. -/
theorem Shown.submit {text : String} {now : UInt64} {sending : Except String Unit}
    {before : LoopState Sec Key} (hraw : loop.rawOk = true) (h : loop.Shown events before)
    (hrunning : before.running = true) (hpeer : loop.peerOf event = none)
    (hs : s = { before with chat := { before.chat with inputBuf := s.chat.inputBuf } })
    (hsubmit : loop.submit checks text now sending s = some s') : loop.Shown (events ++ [event]) s' := by
  have hdraws : s.draws = before.draws := by rw [hs]
  have hcount : s.chat.peerCount = before.chat.peerCount := by rw [hs]
  have hsession : s.chat.e2eSession = before.chat.e2eSession := by rw [hs]
  have hprompted : ∀ after : LoopState Sec Key, (loop.prompted after).draws =
      after.draws ++ [.drawPrompt after.chat.inputBuf] := by
    intro after
    unfold prompted
    rw [if_pos hraw]
  rcases submit_cases hsubmit with ⟨-, rfl | rfl⟩ | ⟨-, frame, -, ⟨e, rfl⟩ | rfl⟩
  · exact h.drawn hrunning (by rw [hprompted, hdraws]) rfl (fun _ => Or.inl rfl) hcount
      (fun hsome => hsession ▸ hsome) hpeer
  · exact h.drawn hrunning (by rw [← hdraws]; exact (List.append_nil _).symm) rfl
      (fun hno => absurd hno Bool.false_ne_true) hcount (fun hsome => hsession ▸ hsome) hpeer
  · exact h.drawn hrunning (by rw [← hdraws]) rfl (fun hno => absurd hno Bool.false_ne_true) hcount
      (fun hsome => isSome_encryptMsg (hsession ▸ hsome)) hpeer
  · exact h.drawn hrunning (by rw [hprompted, ← hdraws]) rfl (fun _ => Or.inl rfl) hcount
      (fun hsome => isSome_encryptMsg (hsession ▸ hsome)) hpeer

/-- **A round keeps the screen as it should be.** -/
theorem Shown.step (hraw : loop.rawOk = true) (h : loop.Shown events s)
    (hstep : loop.step checks s event = some s') : loop.Shown (events ++ [event]) s' := by
  have hprompted : ∀ after : LoopState Sec Key, (loop.prompted after).draws =
      after.draws ++ [.drawPrompt after.chat.inputBuf] := by
    intro after
    unfold prompted
    rw [if_pos hraw]
  have hdrawn : ∀ draws draws', loop.drawn draws draws' = [.gotoMsg] ++ draws ++ draws' := by
    intro draws draws'
    unfold ChatLoop.drawn
    rw [if_pos hraw, if_pos hraw]
  unfold ChatLoop.step at hstep
  split_ifs at hstep with hrunning
  -- a round that only ends the loop
  have hstop : ∀ event', loop.peerOf event' = none →
      loop.Shown (events ++ [event']) { s with running := false } := by
    intro event' hpeer
    exact h.drawn hrunning (List.append_nil _).symm rfl (fun hno => absurd hno Bool.false_ne_true) rfl id hpeer
  cases event with
  | shutdown =>
      cases hstep
      exact hstop _ rfl
  | received result rng =>
      cases result with
      | error e =>
          cases hstep
          exact h.drawn hrunning (congrArg _ (hdrawn _ _)) rfl (fun hno => absurd hno Bool.false_ne_true)
            rfl id rfl
      | ok frame =>
          dsimp only at hstep
          rcases hhandle : loop.handleFrame checks frame rng s.chat with _ | ⟨chat, draws⟩
          · rw [hhandle] at hstep
            cases hstep
          · rw [hhandle] at hstep
            cases hstep
            rcases handleFrame_cases hhandle with
              ⟨m, -, hpeer, hm⟩ | ⟨p, -, hpeer, hp⟩ | ⟨-, hpeer, rfl, rfl⟩
            · obtain ⟨rfl, rfl | ⟨_, _, _, _, _, rfl⟩⟩ := handleRoomMessage_cases hm
              · exact h.drawn hrunning rfl rfl (fun _ => Or.inr ⟨rfl, rfl⟩) rfl isSome_tryDecrypt hpeer
              · exact h.drawn hrunning (congrArg _ (hdrawn _ _)) rfl (fun _ => Or.inl rfl) rfl
                  isSome_tryDecrypt hpeer
            · obtain ⟨hsession, hbuf, hcount, text, rfl⟩ := handlePeerReady_cases hp
              rw [hdrawn]
              refine ⟨fun _ => ?_, ⟨s.chat.e2eSession.isSome, ?_, ?_⟩, ?_⟩
              · rw [promptShown_append, hbuf]
                rfl
              · rw [statusShown_append]
                rfl
              · rw [hsession]
                exact id
              · rw [hcount, h.peers, List.filterMap_append, List.length_append]
                have hone : ([.received (.ok frame) rng] : List (LoopEvent Sec)).filterMap loop.peerOf = [p] := by
                  rw [List.filterMap_cons, peerOf, hpeer]
                  rfl
                rw [hone, List.length_singleton, ← Nat.add_assoc,
                  UInt32.ofNat_add (1 + (events.filterMap loop.peerOf).length) 1]
                rfl
            · exact h.drawn hrunning rfl rfl (fun _ => Or.inr ⟨rfl, rfl⟩) rfl id hpeer
  | key key now sending =>
      cases key with
      | none =>
          cases hstep
          exact hstop _ rfl
      | some key =>
          cases key with
          | char c =>
              cases hstep
              exact h.drawn hrunning (hprompted _) rfl (fun _ => Or.inl rfl) rfl id rfl
          | backspace =>
              cases hstep
              exact h.drawn hrunning (hprompted _) rfl (fun _ => Or.inl rfl) rfl id rfl
          | quit =>
              cases hstep
              exact hstop _ rfl
          | enter => exact h.submit hraw hrunning rfl rfl hstep
          | line text => exact h.submit hraw hrunning rfl rfl hstep

/-- **What is on the screen** between two rounds in raw mode: the prompt shows the line that is being typed, and
the status bar the room and the number of the notices, with the user.  It shows a session only if there is
one. -/
theorem screen_run (hraw : loop.rawOk = true)
    (hrun : Runs.run (loop.step checks) (loop.start localAlias) events = some s) :
    (s.running = true → promptShown s.draws = some (typed (keysOf events))) ∧
      ∃ e2e, statusShown s.draws = some (loop.cfg.roomName, loop.cfg.roomMode,
          UInt32.ofNat (1 + (events.filterMap loop.peerOf).length), loop.cfg.torConnected, e2e) ∧
        (e2e = true → s.chat.e2eSession.isSome = true) := by
  have h : loop.Shown events s :=
    Runs.history_induction (fun _ _ _ _ _ _ hstep _ h => h.step hraw hstep) (shown_start hraw localAlias) hrun
  have hinput := (progress_run hrun).inputBuf
  refine ⟨fun hrunning => (h.prompt hrunning).trans (congrArg some hinput), ?_⟩
  rw [← h.peers]
  exact h.status

/-- Two keys, and a peer that joins between them. -/
def testJoining : List (LoopEvent Bytes32) :=
  [.key (some (.char 'h')) 0 (.ok ()),
    .received (.ok ⟨MessageType.peerReady, Prost.wire.peerReady.encode ⟨testLoop.fpStr, "bob"⟩⟩) (EarlyLine.key32 0),
    .key (some (.char 'i')) 0 (.ok ())]

theorem running_testJoining : ((Runs.run (testLoop.step true) (testLoop.start "alice") testJoining).map fun s =>
    s.running) = some true := by
  decide +kernel

theorem screen_run_testJoining : ∃ s,
    Runs.run (testLoop.step true) (testLoop.start "alice") testJoining = some s ∧
      promptShown s.draws = some "hi" ∧
      ∃ e2e, statusShown s.draws = some ("room", "ephemeral", 2, false, e2e) := by
  obtain ⟨s, hrun, hrunning⟩ := Option.map_eq_some_iff.1 running_testJoining
  obtain ⟨hprompt, e2e, hstatus, -⟩ := screen_run rfl hrun
  have htyped : typed (keysOf testJoining) = "hi" := by decide +kernel
  have hpeers : (testJoining.filterMap testLoop.peerOf).length = 1 := by decide +kernel
  rw [htyped] at hprompt
  rw [hpeers] at hstatus
  exact ⟨s, hrun, hprompt hrunning, e2e, hstatus⟩

end ChatLoop

end Sanctum
