/-
Texts from one chat loop to another.

Where there is no session, a line goes out as its bytes in UTF-8, and `from_utf8_lossy` makes a text of them
again.  The decoder never meets a replacement character in what an encoder has made, so the peer sees what
has been typed, character for character.

Main definitions:

* `Sanctum.ChatLoop.shown`, `Sanctum.ChatLoop.textsOf` — the texts that a loop shows, and those of its calls.

Main results:

* `Sanctum.fromUtf8Lossy_asBytes` — **a text is read back from its bytes**;
* `Sanctum.ChatLoop.shown_run` — **what a loop shows**;
* `Sanctum.ChatLoop.lines_shown` — **a peer shows the lines that are typed**.
-/

import Sanctum.ChatInput
import Sanctum.Text

set_option relaxedAutoImplicit false
set_option autoImplicit false

namespace Sanctum

/-! ### UTF-8 -/

theorem toNat_ofNat_of_lt_size {n : ℕ} (h : n < 256) : (UInt8.ofNat n).toNat = n :=
  UInt8.toNat_ofNat_of_lt' h

/-- A continuation byte in its range is read. -/
theorem utf8Continue_succ {n lo hi value taken k : ℕ} (hk : k < 256) (hlo : lo ≤ k) (hhi : k ≤ hi)
    (rest : Bytes) :
    utf8Continue (n + 1) lo hi value taken (UInt8.ofNat k :: rest) =
      utf8Continue n 0x80 0xBF (value * 64 + k % 64) (taken + 1) rest := by
  rw [utf8Continue, toNat_ofNat_of_lt_size hk, if_pos ⟨hlo, hhi⟩]

/-- The last six bits of a number are a continuation byte. -/
theorem utf8Continue_low {n value taken : ℕ} (k : ℕ) (rest : Bytes) :
    utf8Continue (n + 1) 0x80 0xBF value taken (UInt8.ofNat (k % 0x40 + 0x80) :: rest) =
      utf8Continue n 0x80 0xBF (value * 64 + k % 64) (taken + 1) rest := by
  rw [utf8Continue_succ (by omega) (by omega) (by omega)]
  congr 1
  omega

/-- A leading byte is read, with the range of the next one. -/
theorem utf8Head_lead {n k lo hi : ℕ} (hk : k < 256) (hlead : 0x80 ≤ k)
    (h : utf8Lead k = some (n, lo, hi)) (rest : Bytes) :
    utf8Head (UInt8.ofNat k) rest = utf8Continue n lo hi (k % 2 ^ (6 - n)) 0 rest := by
  unfold utf8Head
  rw [toNat_ofNat_of_lt_size hk, if_neg (by omega), h]

/-- The leading byte of two. -/
theorem utf8Lead_two {k : ℕ} (hlo : 0xC2 ≤ k) (hhi : k ≤ 0xDF) : utf8Lead k = some (1, 0x80, 0xBF) :=
  if_pos ⟨hlo, hhi⟩

/-- The leading byte of three, and a byte that may follow it: the number has more than eleven bits, and is no
surrogate. -/
theorem utf8Lead_three {v : ℕ} (hlo : 0x800 ≤ v) (hhi : v ≤ 0xFFFF) (hvalid : v < 0xD800 ∨ 0xDFFF < v) :
    ∃ lo hi, utf8Lead (v / 4096 + 0xE0) = some (2, lo, hi) ∧
      lo ≤ v / 64 % 0x40 + 0x80 ∧ v / 64 % 0x40 + 0x80 ≤ hi := by
  unfold utf8Lead
  split_ifs
  · omega
  · exact ⟨_, _, rfl, by omega, by omega⟩
  · exact ⟨_, _, rfl, by omega, by omega⟩
  · exact ⟨_, _, rfl, by omega, by omega⟩
  all_goals omega

/-- The leading byte of four, and a byte that may follow it: the number has more than sixteen bits, and is not too
large. -/
theorem utf8Lead_four {v : ℕ} (hlo : 0xFFFF < v) (hhi : v < 0x110000) :
    ∃ lo hi, utf8Lead (v / 262144 + 0xF0) = some (3, lo, hi) ∧
      lo ≤ v / 4096 % 0x40 + 0x80 ∧ v / 4096 % 0x40 + 0x80 ≤ hi := by
  unfold utf8Lead
  split_ifs
  · omega
  · omega
  · omega
  · omega
  · exact ⟨_, _, rfl, by omega, by omega⟩
  · exact ⟨_, _, rfl, by omega, by omega⟩
  · exact ⟨_, _, rfl, by omega, by omega⟩
  · omega

/-- **The first character is read**, and the bytes of the others are left. -/
theorem utf8Head_encode (c : Char) (rest : Bytes) : ∃ b tail,
    String.utf8EncodeChar c = b :: tail ∧ utf8Head b (tail ++ rest) = (c, tail.length) := by
  have hvalid : c.val.toNat < 0xD800 ∨ 0xDFFF < c.val.toNat ∧ c.val.toNat < 0x110000 := c.valid
  have hchar : ∀ n, n = c.val.toNat → Char.ofNat n = c := by
    rintro n rfl
    exact Char.ofNat_toNat c
  unfold String.utf8EncodeChar
  generalize c.val.toNat = v at hvalid hchar
  dsimp only
  split_ifs with hone htwo hthree
  · refine ⟨_, _, rfl, ?_⟩
    unfold utf8Head
    rw [toNat_ofNat_of_lt_size (by omega), if_pos (by omega), hchar v rfl]
    rfl
  · refine ⟨_, _, rfl, ?_⟩
    rw [utf8Head_lead (by omega) (by omega) (utf8Lead_two (by omega) (by omega)), List.cons_append,
      utf8Continue_low, utf8Continue, hchar _ (by omega)]
    rfl
  · obtain ⟨lo, hi, hlead, hlo, hhi⟩ := utf8Lead_three (by omega) hthree (by omega)
    refine ⟨_, _, rfl, ?_⟩
    have hfirst : v / 4096 % 0x10 + 0xe0 = v / 4096 + 0xE0 := by omega
    rw [hfirst, utf8Head_lead (by omega) (by omega) hlead, List.cons_append, List.cons_append,
      utf8Continue_succ (by omega) hlo hhi, utf8Continue_low, utf8Continue, hchar _ (by omega)]
    rfl
  · obtain ⟨lo, hi, hlead, hlo, hhi⟩ := utf8Lead_four (v := v) (by omega) (by omega)
    refine ⟨_, _, rfl, ?_⟩
    have hfirst : v / 262144 % 0x08 + 0xf0 = v / 262144 + 0xF0 := by omega
    rw [hfirst, utf8Head_lead (by omega) (by omega) hlead, List.cons_append, List.cons_append,
      List.cons_append, utf8Continue_succ (by omega) hlo hhi, utf8Continue_low, utf8Continue_low,
      utf8Continue, hchar _ (by omega)]
    rfl

/-- The characters are read one after the other. -/
theorem utf8Chars_encode {chars : List Char} {fuel : ℕ}
    (h : (chars.flatMap String.utf8EncodeChar).length ≤ fuel) :
    utf8Chars fuel (chars.flatMap String.utf8EncodeChar) = chars := by
  induction chars generalizing fuel with
  | nil =>
      cases fuel with
      | zero => rfl
      | succ fuel => rfl
  | cons c chars ih =>
      obtain ⟨b, tail, hencode, hhead⟩ := utf8Head_encode c (chars.flatMap String.utf8EncodeChar)
      rw [List.flatMap_cons, hencode, List.cons_append] at h ⊢
      rw [List.length_cons, List.length_append] at h
      cases fuel with
      | zero => omega
      | succ fuel =>
          rw [utf8Chars, hhead]
          dsimp only
          rw [List.drop_left, ih (by omega)]

/-- **A text is read back from its bytes.** -/
theorem fromUtf8Lossy_asBytes (text : String) : fromUtf8Lossy (asBytes text) = text := by
  have hbytes : asBytes text = text.toList.flatMap String.utf8EncodeChar := by
    rw [← asBytes_ofList, String.ofList_toList]
  unfold fromUtf8Lossy
  rw [hbytes, utf8Chars_encode le_rfl, String.ofList_toList]

variable {Sec Key Nonce : Type} {P : Primitives Sec Bytes32 Key Nonce Bytes Bytes} {checks : Bool}

/-- The message of a call. -/
def ChatCall.message : ChatCall Sec → Option RoomMessage
  | .line _ => none
  | .frame m _ => some m

namespace ChatLoop

variable {loop : ChatLoop P} {s s' : LoopState Sec Key} {event : LoopEvent Sec}
  {events : List (LoopEvent Sec)} {localAlias : String}

/-! ### The lines that go out -/

/-- A session that there is not was never there. -/
theorem sessionAfter_eq_none {calls : List (ChatCall Sec)} {call : ChatCall Sec}
    (h : sessionAfter loop.parse loop.e2eKeys (calls ++ [call]) = none) :
    sessionAfter loop.parse loop.e2eKeys calls = none := by
  rw [sessionAfter_append] at h
  by_contra hsome
  have hsome' := Option.isSome_iff_ne_none.2 hsome
  cases call with
  | line text => exact absurd h (Option.isSome_iff_ne_none.1 (isSome_encryptMsg hsome'))
  | frame m rng => exact absurd h (Option.isSome_iff_ne_none.1 (isSome_tryDecrypt hsome'))

/-- Without a session, a line goes out as its bytes. -/
theorem contentsOf_of_none {calls : List (ChatCall Sec)}
    (h : sessionAfter loop.parse loop.e2eKeys calls = none) :
    loop.contentsOf calls = (calls.filterMap ChatCall.text).map fun text => (asBytes text, none) := by
  induction calls using List.reverseRecOn with
  | nil => rfl
  | append_singleton calls call ih =>
      have hbefore := sessionAfter_eq_none h
      unfold contentsOf at ih ⊢
      rw [Histories.collect_append_singleton, ih hbefore, List.filterMap_append, List.map_append]
      congr 1
      cases call with
      | line text =>
          rw [contentAfter, hbefore]
          rfl
      | frame m rng => rfl

/-! ### What is shown -/

/-- The text of a message that is drawn. -/
def contentOf : Draw → Option String
  | .writeMsg _ _ _ content _ => some content
  | _ => none

/-- **The texts that are shown.** -/
def shown (draws : List Draw) : List String := draws.filterMap contentOf

/-- The frame of an event. -/
def frameOf : LoopEvent Sec → Option Frame
  | .received (.ok frame) _ => some frame
  | _ => none

variable (loop) in
/-- The messages that the loop receives. -/
def heard (events : List (LoopEvent Sec)) : List RoomMessage :=
  (events.filterMap frameOf).filterMap loop.readMessage

/-- The text of a message that is not encrypted. -/
def clearText (m : RoomMessage) : String := fromUtf8Lossy m.ciphertext

variable (loop) in
/-- The text that a call shows, after the calls before it. -/
def textAfter (before : List (ChatCall Sec)) : ChatCall Sec → Option String
  | .line _ => none
  | .frame m rng =>
    (tryDecrypt loop.parse m (sessionAfter loop.parse loop.e2eKeys before) loop.e2eKeys rng).1

variable (loop) in
/-- **The texts that some calls show.** -/
def textsOf (calls : List (ChatCall Sec)) : List String := Histories.collect loop.textAfter calls

theorem shown_append (draws draws' : List Draw) : shown (draws ++ draws') = shown draws ++ shown draws' :=
  List.filterMap_append

theorem shown_drawn (draws : List Draw) (draws' : List Draw) (h : shown draws' = []) :
    shown (loop.drawn draws draws') = shown draws := by
  unfold ChatLoop.drawn
  rw [shown_append, shown_append]
  cases loop.rawOk with
  | true => rw [if_pos rfl, if_pos rfl, h, List.append_nil]; rfl
  | false => rw [if_neg (by simp), if_neg (by simp)]; simp [shown]

theorem shown_prompted (s : LoopState Sec Key) : shown (loop.prompted s).draws = shown s.draws := by
  unfold prompted
  rw [shown_append]
  cases loop.rawOk with
  | true => exact List.append_nil _
  | false => exact List.append_nil _

/-- A message is drawn with its text, if it can be read. -/
theorem shown_handleRoomMessage {m : RoomMessage} {rng : Sec} {chat chat' : ChatState Sec Key}
    {draws : List Draw} (h : loop.handleRoomMessage checks m rng chat = some (chat', draws)) :
    shown draws = (tryDecrypt loop.parse m chat.e2eSession loop.e2eKeys rng).1.toList := by
  unfold handleRoomMessage at h
  dsimp only at h
  rw [tryDecryptChecked_eq] at h
  split_ifs at h
  rcases hdecrypt : tryDecrypt loop.parse m chat.e2eSession loop.e2eKeys rng with ⟨_ | content, e2e⟩
  · rw [hdecrypt] at h
    cases h
    rfl
  · rw [hdecrypt] at h
    dsimp only at h
    rcases hsender : aliasFor m.senderFingerprint chat.aliases with _ | sender
    · rw [hsender] at h
      cases h
    · rw [hsender] at h
      cases h
      exact shown_drawn _ _ rfl

/-- A line that is entered shows no message. -/
theorem shown_submit {text : String} {now : UInt64} {sending : Except String Unit}
    (hsubmit : loop.submit checks text now sending s = some s') : shown s'.draws = shown s.draws := by
  rcases submit_cases hsubmit with ⟨-, rfl | rfl⟩ | ⟨-, frame, -, ⟨e, rfl⟩ | rfl⟩
  · exact shown_prompted s
  · rfl
  · rw [shown_append]
    exact List.append_nil _
  · exact shown_prompted _

theorem textAfter_line (before : List (ChatCall Sec)) (text : Option String) :
    (text.map ChatCall.line).bind (loop.textAfter before) = none := by
  cases text with
  | none => rfl
  | some text => rfl

/-- **What a round shows** is the text of its call. -/
theorem shown_step (h : loop.Progress events s) (hstep : loop.step checks s event = some s') :
    shown s'.draws = shown s.draws ++
      ((loop.callOf events event).bind (loop.textAfter (loop.callsOf events))).toList := by
  unfold ChatLoop.step at hstep
  split_ifs at hstep
  cases event with
  | shutdown =>
      cases hstep
      exact (List.append_nil _).symm
  | received result rng =>
      cases result with
      | error e =>
          cases hstep
          rw [shown_append, shown_drawn _ _ rfl]
          rfl
      | ok frame =>
          dsimp only at hstep
          rcases hhandle : loop.handleFrame checks frame rng s.chat with _ | ⟨chat, draws⟩
          · rw [hhandle] at hstep
            cases hstep
          · rw [hhandle] at hstep
            cases hstep
            rw [shown_append, callOf]
            congr 1
            rcases handleFrame_cases hhandle with
              ⟨m, hread, -, hm⟩ | ⟨p, hread, -, hp⟩ | ⟨hread, -, rfl, rfl⟩
            · rw [shown_handleRoomMessage hm, hread, h.session]
              rfl
            · obtain ⟨-, -, -, text, rfl⟩ := handlePeerReady_cases hp
              rw [hread, shown_drawn _ _ rfl]
              rfl
            · rw [hread]
              rfl
  | key key now sending =>
      cases key with
      | none =>
          cases hstep
          exact (List.append_nil _).symm
      | some key =>
          rw [callOf, textAfter_line, Option.toList_none, List.append_nil]
          cases key with
          | char c =>
              cases hstep
              exact shown_prompted _
          | backspace =>
              cases hstep
              exact shown_prompted _
          | quit =>
              cases hstep
              rfl
          | enter =>
              have hshown := shown_submit hstep
              exact hshown
          | line text => exact shown_submit hstep

variable (loop) in
/-- **The loop after some events**, and what it has shown. -/
structure Shows (events : List (LoopEvent Sec)) (s : LoopState Sec Key) : Prop where
  progress : loop.Progress events s
  texts : shown s.draws = loop.textsOf (loop.callsOf events)

theorem shows_start (localAlias : String) : loop.Shows [] (loop.start localAlias) := by
  refine ⟨progress_start localAlias, ?_⟩
  unfold ChatLoop.start
  cases loop.rawOk with
  | true => rfl
  | false => rfl

theorem Shows.step (h : loop.Shows events s) (hstep : loop.step checks s event = some s') :
    loop.Shows (events ++ [event]) s' := by
  refine ⟨h.progress.step hstep, ?_⟩
  rw [shown_step h.progress hstep, h.texts]
  cases hcall : loop.callOf events event with
  | none =>
      rw [callsOf_of_none hcall]
      exact List.append_nil _
  | some call =>
      rw [callsOf_of_some hcall]
      exact (Histories.collect_append_singleton _ _).symm

/-- **What the loop shows**: the texts of the messages that can be read, in order. -/
theorem shown_run (hrun : Runs.run (loop.step checks) (loop.start localAlias) events = some s) :
    loop.Shows events s :=
  Runs.history_induction (fun _ _ _ _ _ _ hstep _ h => h.step hstep) (shows_start localAlias) hrun

/-- The messages of the calls are those that are received. -/
theorem messages_callsOf (events : List (LoopEvent Sec)) :
    (loop.callsOf events).filterMap ChatCall.message = loop.heard events := by
  unfold callsOf
  rw [Histories.filterMap_collect]
  induction events using List.reverseRecOn with
  | nil => rfl
  | append_singleton events event ih =>
      unfold heard
      rw [Histories.collect_append_singleton, ih, List.filterMap_append, List.filterMap_append]
      congr 1
      cases event with
      | shutdown => rfl
      | received result rng =>
          cases result with
          | error e => rfl
          | ok frame =>
              rw [callOf, List.filterMap_cons, frameOf, List.filterMap_nil, List.filterMap_cons]
              cases loop.readMessage frame with
              | none => rfl
              | some m => rfl
      | key key now sending =>
          cases key with
          | none => rfl
          | some key =>
              rw [callOf]
              cases (enteredBy (keysOf events) key).filter fun text => IsMessage text with
              | none => rfl
              | some text => rfl

/-- **Without an initial message there is no session**, and the messages are shown as they are. -/
theorem clear_of_parse {calls : List (ChatCall Sec)}
    (hparse : ∀ m ∈ calls.filterMap ChatCall.message, loop.parse m.ciphertext = none) :
    sessionAfter loop.parse loop.e2eKeys calls = none ∧
      loop.textsOf calls = (calls.filterMap ChatCall.message).map clearText := by
  induction calls using List.reverseRecOn with
  | nil => exact ⟨rfl, rfl⟩
  | append_singleton calls call ih =>
      rw [List.filterMap_append] at hparse ⊢
      obtain ⟨hsession, htexts⟩ := ih fun m hm => hparse m (List.mem_append_left _ hm)
      unfold textsOf at htexts ⊢
      rw [sessionAfter_append, Histories.collect_append_singleton, hsession, htexts, List.map_append]
      cases call with
      | line text => exact ⟨rfl, rfl⟩
      | frame m rng =>
          have hm : loop.parse m.ciphertext = none := hparse m (List.mem_append_right _ (List.mem_singleton_self m))
          unfold textAfter sessionStep tryDecrypt
          rw [hsession]
          dsimp only
          rw [hm]
          exact ⟨rfl, rfl⟩

/-! ### From one loop to another -/

variable (loop) in
/-- The frames that the loop receives with a message of this sender. -/
def framesFrom (fingerprint : String) (events : List (LoopEvent Sec)) : List Frame :=
  (events.filterMap frameOf).filter fun frame =>
    (loop.readMessage frame).any fun m => m.senderFingerprint = fingerprint

/-- The messages of a sender are those in its frames. -/
theorem heard_filter (fingerprint : String) (events : List (LoopEvent Sec)) :
    ((loop.heard events).filter fun m => m.senderFingerprint = fingerprint) =
      (loop.framesFrom fingerprint events).filterMap loop.readMessage := by
  unfold heard framesFrom
  rw [List.filter_filterMap, List.filterMap_filter]
  refine List.filterMap_congr ?_
  intro frame _
  cases loop.readMessage frame with
  | none => rfl
  | some m =>
      rw [Option.filter_some, Option.any_some]

/-- The message in a frame that has been made of it. -/
theorem readMessage_protoEncode {m : RoomMessage} {frame : Frame}
    (h : WireMessage.protoEncode loop.prost (.roomMessage m) = .ok frame) :
    loop.readMessage frame = some m := by
  unfold readMessage
  rw [WireMessage.protoDecode_protoEncode loop.prost (.roomMessage m) h]

variable {alice bob : ChatLoop P} {checks' : Bool} {localAlias' : String}
  {events' : List (LoopEvent Sec)} {t : LoopState Sec Key}

/-- The texts of the frames that a loop without a session has sent are the lines. -/
theorem texts_of_sent (hrun : Runs.run (alice.step checks) (alice.start localAlias) events = some s)
    (hclear : s.chat.e2eSession = none) (hprost : bob.prost = alice.prost) (k : ℕ) :
    (((s.sent.map fun out => out.2).take k).filterMap bob.readMessage).map clearText =
      ((entered (keysOf events)).filter fun text => IsMessage text).take k := by
  have h := progress_run hrun
  have hcontents := h.contents
  rw [contentsOf_of_none (h.session.symm.trans hclear), lines_callsOf] at hcontents
  have hread : ∀ out ∈ s.sent, bob.readMessage out.2 = some out.1 := by
    intro out hout
    refine readMessage_protoEncode ?_
    rw [hprost]
    exact (h.frames out hout).2
  have htexts : (s.sent.map fun out => clearText out.1) =
      (entered (keysOf events)).filter fun text => IsMessage text := by
    have hmap := congrArg (List.map fun out : Bytes × Option RatchetHeader => fromUtf8Lossy out.1) hcontents
    rw [List.map_map, List.map_map] at hmap
    refine hmap.trans ?_
    refine (List.map_congr_left ?_).trans (List.map_id _)
    intro text _
    exact fromUtf8Lossy_asBytes text
  have hmessages : (s.sent.take k).filterMap (bob.readMessage ∘ fun out => out.2) =
      (s.sent.take k).map fun out => out.1 := by
    rw [← List.filterMap_eq_map]
    refine List.filterMap_congr ?_
    intro out hout
    exact hread out (List.mem_of_mem_take hout)
  rw [← htexts, ← List.map_take, ← List.map_take, List.filterMap_map, hmessages, List.map_map]
  rfl

/-- **A peer shows the lines that are typed.**  Where neither end has a session, and no message that comes is
taken for an initial message, a loop that receives some of the frames of another one, in order and between any
other events, shows the messages that it receives, and those from the other one are the lines that have been
entered there, character for character. -/
theorem lines_shown (hrun : Runs.run (alice.step checks) (alice.start localAlias) events = some s)
    (hclear : s.chat.e2eSession = none)
    (hrun' : Runs.run (bob.step checks') (bob.start localAlias') events' = some t)
    (hparse : ∀ m ∈ bob.heard events', bob.parse m.ciphertext = none) (hprost : bob.prost = alice.prost)
    (hwire : bob.framesFrom alice.fpStr events' <+: s.sent.map fun out => out.2) :
    shown t.draws = (bob.heard events').map clearText ∧
      (((bob.heard events').filter fun m => m.senderFingerprint = alice.fpStr).map clearText) =
        ((entered (keysOf events)).filter fun text => IsMessage text).take
          (bob.framesFrom alice.fpStr events').length := by
  rw [← messages_callsOf] at hparse
  refine ⟨?_, ?_⟩
  · rw [(shown_run hrun').texts, (clear_of_parse hparse).2, messages_callsOf]
  · rw [heard_filter, ← texts_of_sent hrun hclear hprost, ← List.prefix_iff_eq_take.1 hwire]

/-- A peer that receives a line. -/
def testPeer : ChatLoop EarlyLine.primitives :=
  { testLoop with fpStr := "FEDCBA9876543210FEDCBA9876543210FEDCBA98" }

/-- The message of the line that is typed in the test of the keys. -/
def testLine : RoomMessage := testLoop.messageFor 1 7 ([104, 105], none)

def testFrame : Frame := ⟨MessageType.roomMessage, Prost.wire.roomMessage.encode testLine⟩

def testReceived : List (LoopEvent Bytes32) := [.received (.ok testFrame) (EarlyLine.key32 0)]

theorem sent_testFrame : ((Runs.run (testLoop.step true) (testLoop.start "alice") testEvents).map fun s =>
    (s.sent.map fun out => out.2, s.chat.e2eSession.isNone)) = some ([testFrame], true) := by
  decide +kernel

theorem run_testReceived :
    (Runs.run (testPeer.step true) (testPeer.start "bob") testReceived).isSome = true := by
  decide +kernel

theorem readMessage_testFrame : testPeer.readMessage testFrame = some testLine :=
  @readMessage_protoEncode _ _ _ _ testPeer testLine testFrame rfl

theorem heard_testReceived : testPeer.heard testReceived = [testLine] := by
  unfold heard testReceived
  rw [List.filterMap_cons, frameOf, List.filterMap_nil, List.filterMap_cons, readMessage_testFrame,
    List.filterMap_nil]

theorem framesFrom_testReceived : testPeer.framesFrom testLoop.fpStr testReceived = [testFrame] := by
  unfold framesFrom testReceived
  rw [List.filterMap_cons, frameOf, List.filterMap_nil, List.filter_cons, readMessage_testFrame]
  rfl

theorem lines_shown_testFrame : ∃ t,
    Runs.run (testPeer.step true) (testPeer.start "bob") testReceived = some t ∧
      shown t.draws = [clearText testLine] ∧ [clearText testLine] = ["hi"] := by
  obtain ⟨s, hrun, hsent⟩ := Option.map_eq_some_iff.1 sent_testFrame
  obtain ⟨t, hrun'⟩ := Option.isSome_iff_exists.1 run_testReceived
  have hframes : (s.sent.map fun out => out.2) = [testFrame] := congrArg Prod.fst hsent
  have hclear : s.chat.e2eSession.isNone = true := congrArg Prod.snd hsent
  have hparse : ∀ m ∈ testPeer.heard testReceived, testPeer.parse m.ciphertext = none := by
    rw [heard_testReceived]
    intro m hm
    obtain rfl := List.mem_singleton.1 hm
    decide
  have hwire : testPeer.framesFrom testLoop.fpStr testReceived <+: s.sent.map fun out => out.2 := by
    rw [framesFrom_testReceived, hframes]
  obtain ⟨hshown, hlines⟩ := lines_shown hrun (Option.isNone_iff_eq_none.1 hclear) hrun' hparse rfl hwire
  have hentered : (entered (keysOf testEvents)).filter (fun text => IsMessage text) = ["hi"] := by
    decide +kernel
  rw [heard_testReceived] at hshown hlines
  rw [hentered, framesFrom_testReceived] at hlines
  exact ⟨t, hrun', hshown, hlines⟩

end ChatLoop

end Sanctum
