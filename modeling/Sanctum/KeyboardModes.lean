/-
The two modes of the keyboard.

In raw mode the keyboard task passes the keys on, and the loop keeps the line that is being typed.  Where raw
mode is not available, the terminal keeps the line, and the keyboard task passes it on when it is entered,
without the white space around it; the words that end the loop are recognised there.

Main definitions:

* `Sanctum.TerminalKey`, `Sanctum.cookedKeys` — what the keyboard task makes of a key and of a line;
* `Sanctum.KeyboardInput` — **what the user and the network do**, and the events that the loop takes in each
  mode;
* `Sanctum.ChatLoop.SameTalk` — two loops that differ in what is drawn around the messages only.

Main results:

* `Sanctum.trim_newline` — the newline of a line does not matter;
* `Sanctum.ChatLoop.modes_agree` — **both modes send and show the same**.
-/

import Sanctum.ChatInput

set_option relaxedAutoImplicit false
set_option autoImplicit false

namespace Sanctum

/-! ### The keyboard task -/

/-- A key of the terminal, as far as the keyboard task tells the keys apart. -/
inductive TerminalKey
  | enter
  | ctrlC
  | esc
  | char (c : Char)
  | backspace
  | other
deriving DecidableEq

/-- What the keyboard task sends for a key in raw mode. -/
def TerminalKey.event : TerminalKey → Option KeyEvent
  | .enter => some .enter
  | .ctrlC => some .quit
  | .esc => some .quit
  | .char c => some (.char c)
  | .backspace => some .backspace
  | .other => none

/-- A key that neither enters the line nor leaves the loop. -/
def TerminalKey.edits : TerminalKey → Bool
  | .char _ => true
  | .backspace => true
  | .other => true
  | _ => false

/-- What the keyboard task sends for a line that `read_line` has read, where there is no raw mode. -/
def cookedKeys (line : String) : List KeyEvent :=
  if IsExit (trim line) then [.quit] else if trim line = "" then [] else [.line (trim line)]

/-- The line that some keys make. -/
def editedLine (keys : List TerminalKey) : String :=
  (keys.filterMap TerminalKey.event).foldl KeyEvent.edit ""

/-- **The newline of a line does not matter.** -/
theorem trim_newline (line : String) : trim (line ++ "\n") = trim line := by
  have hnewline : isWhitespace '\n' = true := by decide
  have htoList : (line ++ "\n").toList = line.toList ++ ['\n'] := by rw [String.toList_append]; rfl
  unfold trim
  rw [htoList, List.dropWhile_append]
  split_ifs with hblank
  · rw [List.isEmpty_iff.1 hblank, List.dropWhile_cons_of_pos hnewline, List.dropWhile_nil]
  · rw [List.reverse_append, List.reverse_singleton, List.singleton_append,
      List.dropWhile_cons_of_pos hnewline]

/-! ### What the user and the network do -/

variable {Sec Key Nonce : Type} {P : Primitives Sec Bytes32 Key Nonce Bytes Bytes}

/-- **What the user and the network do**: the user makes a line with some keys and enters it, or something
happens that is no key. -/
inductive KeyboardInput (Sec : Type)
  | line (keys : List TerminalKey) (edits : ∀ key ∈ keys, key.edits) (now : UInt64)
      (sending : Except String Unit)
  | other (event : LoopEvent Sec) (quiet : event.keyEvent = none)

/-- The events of the loop in raw mode: the keys, and then the enter key. -/
def KeyboardInput.rawEvents : KeyboardInput Sec → List (LoopEvent Sec)
  | .line keys _ now sending =>
    (keys.filterMap TerminalKey.event ++ [KeyEvent.enter]).map fun key => .key (some key) now sending
  | .other event _ => [event]

/-- The events of the loop without raw mode: the line, if there is something in it. -/
def KeyboardInput.cookedEvents : KeyboardInput Sec → List (LoopEvent Sec)
  | .line keys _ now sending => (cookedKeys (editedLine keys ++ "\n")).map fun key => .key (some key) now sending
  | .other event _ => [event]

namespace ChatLoop

variable {loop : ChatLoop P} {checks : Bool} {s s' t : LoopState Sec Key}

/-- The loop with raw mode, or without it. -/
def withRaw (loop : ChatLoop P) (rawOk : Bool) : ChatLoop P := { loop with rawOk := rawOk }

/-- A message or a notice. -/
def isPrinted : Draw → Bool
  | .writeMsg .. => true
  | .writeSys _ => true
  | _ => false

/-- **The messages and the notices** among what is drawn. -/
def printed (draws : List Draw) : List Draw := draws.filter isPrinted

theorem printed_append (draws draws' : List Draw) : printed (draws ++ draws') = printed draws ++ printed draws' :=
  List.filter_append ..

theorem printed_drawn (draws : List Draw) {draws' : List Draw} (h : printed draws' = []) :
    printed (loop.drawn draws draws') = printed draws := by
  unfold ChatLoop.drawn
  rw [printed_append, printed_append]
  cases loop.rawOk with
  | true => rw [if_pos rfl, if_pos rfl, h, List.append_nil]; rfl
  | false => rw [if_neg (by simp), if_neg (by simp)]; exact List.append_nil _

theorem printed_prompted (s : LoopState Sec Key) : printed (loop.prompted s).draws = printed s.draws := by
  unfold prompted
  rw [printed_append]
  cases loop.rawOk with
  | true => exact List.append_nil _
  | false => exact List.append_nil _

/-- **Two loops that differ in what is drawn around the messages and notices only.** -/
structure SameTalk (s t : LoopState Sec Key) : Prop where
  same : t = { s with draws := t.draws }
  printed : printed t.draws = printed s.draws

variable {frame : Frame} {rng : Sec} {chat chat' : ChatState Sec Key} {draws : List Draw} {raw cooked : Bool}

/-- A message does the same in both modes. -/
theorem handleRoomMessage_withRaw {m : RoomMessage}
    (h : (loop.withRaw raw).handleRoomMessage checks m rng chat = some (chat', draws)) :
    ∃ draws', (loop.withRaw cooked).handleRoomMessage checks m rng chat = some (chat', draws') ∧
      printed draws' = printed draws := by
  unfold handleRoomMessage at h ⊢
  dsimp only [withRaw] at h ⊢
  rcases hdecrypt : tryDecryptChecked checks loop.parse m chat.e2eSession loop.e2eKeys rng with
    _ | ⟨_ | content, e2e⟩
  · rw [hdecrypt] at h
    cases h
  · rw [hdecrypt] at h
    cases h
    exact ⟨[], rfl, rfl⟩
  · rw [hdecrypt] at h
    dsimp only at h ⊢
    rcases hsender : aliasFor m.senderFingerprint chat.aliases with _ | sender
    · rw [hsender] at h
      cases h
    · rw [hsender] at h
      cases h
      exact ⟨_, rfl, (printed_drawn _ rfl).trans (printed_drawn _ rfl).symm⟩

/-- A peer that has joined does the same in both modes. -/
theorem handlePeerReady_withRaw {p : PeerReady}
    (h : (loop.withRaw raw).handlePeerReady checks p chat = some (chat', draws)) :
    ∃ draws', (loop.withRaw cooked).handlePeerReady checks p chat = some (chat', draws') ∧
      printed draws' = printed draws := by
  unfold handlePeerReady at h ⊢
  generalize (if p.displayAlias = "" then short p.fingerprint else some p.displayAlias) = name at h ⊢
  cases name with
  | none => cases h
  | some a =>
      dsimp only at h ⊢
      rcases hcount : addChecked checks chat.peerCount 1 with _ | peerCount
      · rw [hcount] at h
        cases h
      · rw [hcount] at h
        cases h
        exact ⟨_, rfl, (printed_drawn _ rfl).trans (printed_drawn _ rfl).symm⟩

/-- **A frame does the same in both modes.** -/
theorem handleFrame_withRaw (h : (loop.withRaw raw).handleFrame checks frame rng chat = some (chat', draws)) :
    ∃ draws', (loop.withRaw cooked).handleFrame checks frame rng chat = some (chat', draws') ∧
      printed draws' = printed draws := by
  by_cases hmessage : ∃ m, WireMessage.protoDecode loop.prost frame = .ok (.roomMessage m)
  · obtain ⟨m, hm⟩ := hmessage
    rw [(loop.withRaw raw).handleFrame_of_roomMessage checks hm] at h
    rw [(loop.withRaw cooked).handleFrame_of_roomMessage checks hm]
    exact handleRoomMessage_withRaw h
  · by_cases hpeer : ∃ p, WireMessage.protoDecode loop.prost frame = .ok (.peerReady p)
    · obtain ⟨p, hp⟩ := hpeer
      rw [(loop.withRaw raw).handleFrame_of_peerReady checks hp] at h
      rw [(loop.withRaw cooked).handleFrame_of_peerReady checks hp]
      exact handlePeerReady_withRaw h
    · rw [(loop.withRaw raw).handleFrame_of_other checks (not_exists.1 hmessage) (not_exists.1 hpeer)] at h
      rw [(loop.withRaw cooked).handleFrame_of_other checks (not_exists.1 hmessage) (not_exists.1 hpeer)]
      cases h
      exact ⟨[], rfl, rfl⟩

/-! ### What is entered -/

/-- **A line that is entered does the same in both modes.** -/
theorem submit_withRaw {text : String} {now : UInt64} {sending : Except String Unit} (h : SameTalk s t)
    (hsubmit : (loop.withRaw raw).submit checks text now sending s = some s') :
    ∃ t', (loop.withRaw cooked).submit checks text now sending t = some t' ∧ SameTalk s' t' ∧
      s'.chat.inputBuf = s.chat.inputBuf := by
  obtain ⟨hsame, hprinted⟩ := h
  unfold submit at hsubmit ⊢
  rw [hsame]
  split_ifs at hsubmit ⊢
  · cases hsubmit
    exact ⟨_, rfl, ⟨rfl, by rw [printed_prompted, printed_prompted, hprinted]⟩, rfl⟩
  · cases hsubmit
    exact ⟨_, rfl, ⟨rfl, hprinted⟩, rfl⟩
  · rcases hencrypt : encryptMsgChecked P checks text s.chat.e2eSession with _ | ⟨content, e2e⟩
    · rw [hencrypt] at hsubmit
      cases hsubmit
    · rw [hencrypt] at hsubmit
      dsimp only at hsubmit ⊢
      have hmessage : ∀ rawOk, (loop.withRaw rawOk).messageFor s.seq now content =
        loop.messageFor s.seq now content := fun _ => rfl
      have hprost : ∀ rawOk, (loop.withRaw rawOk).prost = loop.prost := fun _ => rfl
      rw [hmessage, hprost] at hsubmit ⊢
      rcases hframe : WireMessage.protoEncode loop.prost (.roomMessage (loop.messageFor s.seq now content)) with
        e | frame
      · rw [hframe] at hsubmit
        cases hsubmit
      · rw [hframe] at hsubmit
        cases sending with
        | error e =>
            cases hsubmit
            exact ⟨_, rfl, ⟨rfl, by rw [printed_append, printed_append, hprinted]⟩, rfl⟩
        | ok sent =>
            dsimp only at hsubmit ⊢
            rcases hseq : addChecked64 checks s.seq 1 with _ | seq
            · rw [hseq] at hsubmit
              cases hsubmit
            · rw [hseq] at hsubmit
              cases hsubmit
              exact ⟨_, rfl, ⟨rfl, by rw [printed_prompted, printed_prompted, hprinted]⟩, rfl⟩

/-! ### Runs in both modes -/

variable {events : List (LoopEvent Sec)}

/-- A loop that takes an event has been running. -/
theorem running_of_run (hrun : Runs.run (loop.step checks) s events = some s') (hne : events ≠ []) :
    s.running = true := by
  cases events with
  | nil => exact absurd rfl hne
  | cons event events =>
      obtain ⟨t, hstep, -⟩ := Runs.run_cons_eq_some.1 hrun
      unfold ChatLoop.step at hstep
      split_ifs at hstep with hrunning
      exact hrunning

/-- **Keys that edit make the line**, and nothing else but prompts. -/
theorem run_edits {keys : List TerminalKey} (hkeys : ∀ key ∈ keys, key.edits) (hrunning : s.running = true)
    (now : UInt64) (sending : Except String Unit) : ∃ draws, printed draws = printed s.draws ∧
      Runs.run (loop.step checks) s ((keys.filterMap TerminalKey.event).map fun key => .key (some key) now sending) =
        some { s with
          chat := { s.chat with
            inputBuf := (keys.filterMap TerminalKey.event).foldl KeyEvent.edit s.chat.inputBuf }
          draws := draws } := by
  induction keys generalizing s with
  | nil => exact ⟨s.draws, rfl, rfl⟩
  | cons key keys ih =>
      rw [List.forall_mem_cons] at hkeys
      cases key with
      | enter => exact absurd hkeys.1 Bool.false_ne_true
      | ctrlC => exact absurd hkeys.1 Bool.false_ne_true
      | esc => exact absurd hkeys.1 Bool.false_ne_true
      | other => exact ih hkeys.2 hrunning
      | char c =>
          have hstep : loop.step checks s (.key (some (.char c)) now sending) = some (loop.prompted
              { s with chat := { s.chat with inputBuf := s.chat.inputBuf ++ String.ofList [c] } }) := if_pos hrunning
          obtain ⟨draws, hdraws, hrun⟩ := @ih (loop.prompted
            { s with chat := { s.chat with inputBuf := s.chat.inputBuf ++ String.ofList [c] } }) hkeys.2 hrunning
          refine ⟨draws, hdraws.trans (printed_prompted _), Runs.run_cons_eq_some.2 ⟨_, hstep, hrun⟩⟩
      | backspace =>
          have hstep : loop.step checks s (.key (some .backspace) now sending) = some (loop.prompted
              { s with chat := { s.chat with inputBuf := popChar s.chat.inputBuf } }) := if_pos hrunning
          obtain ⟨draws, hdraws, hrun⟩ := @ih (loop.prompted
            { s with chat := { s.chat with inputBuf := popChar s.chat.inputBuf } }) hkeys.2 hrunning
          refine ⟨draws, hdraws.trans (printed_prompted _), Runs.run_cons_eq_some.2 ⟨_, hstep, hrun⟩⟩

/-- A frame leaves the line alone. -/
theorem inputBuf_handleFrame (h : loop.handleFrame checks frame rng chat = some (chat', draws)) :
    chat'.inputBuf = chat.inputBuf := by
  rcases handleFrame_cases h with ⟨m, -, -, hm⟩ | ⟨p, -, -, hp⟩ | ⟨-, -, rfl, -⟩
  · rw [(handleRoomMessage_cases hm).1]
  · exact (handlePeerReady_cases hp).2.1
  · rfl

/-- **What is no key does the same in both modes.** -/
theorem other_withRaw {event : LoopEvent Sec} (hquiet : event.keyEvent = none) (h : SameTalk s t)
    (hstep : (loop.withRaw raw).step checks s event = some s') :
    ∃ t', (loop.withRaw cooked).step checks t event = some t' ∧ SameTalk s' t' ∧
      s'.chat.inputBuf = s.chat.inputBuf := by
  obtain ⟨hsame, hprinted⟩ := h
  unfold ChatLoop.step at hstep ⊢
  rw [hsame]
  split_ifs at hstep ⊢ with hrunning
  cases event with
  | shutdown =>
      cases hstep
      exact ⟨_, rfl, ⟨rfl, hprinted⟩, rfl⟩
  | received result rng =>
      cases result with
      | error e =>
          cases hstep
          refine ⟨_, rfl, ⟨rfl, ?_⟩, rfl⟩
          rw [printed_append, printed_append, hprinted]
          exact congrArg _ ((printed_drawn _ rfl).trans (printed_drawn _ rfl).symm)
      | ok frame =>
          dsimp only at hstep ⊢
          rcases hhandle : (loop.withRaw raw).handleFrame checks frame rng s.chat with _ | ⟨chat, draws⟩
          · rw [hhandle] at hstep
            cases hstep
          · rw [hhandle] at hstep
            cases hstep
            obtain ⟨draws', hhandle', hdraws⟩ : ∃ draws',
                (loop.withRaw cooked).handleFrame checks frame rng s.chat = some (chat, draws') ∧
                  printed draws' = printed draws := handleFrame_withRaw hhandle
            rw [hhandle']
            exact ⟨_, rfl, ⟨rfl, by rw [printed_append, printed_append, hprinted, hdraws]⟩,
              inputBuf_handleFrame hhandle⟩
  | key key now sending =>
      obtain rfl : key = none := hquiet
      cases hstep
      exact ⟨_, rfl, ⟨rfl, hprinted⟩, rfl⟩

/-- **A line does the same in both modes**, whether its keys are passed on or the line as a whole. -/
theorem line_withRaw {keys : List TerminalKey} (hkeys : ∀ key ∈ keys, key.edits) {now : UInt64}
    {sending : Except String Unit} (h : SameTalk s t) (hempty : s.chat.inputBuf = "")
    (hrun : Runs.run ((loop.withRaw true).step checks) s
      (KeyboardInput.rawEvents (.line keys hkeys now sending)) = some s') :
    ∃ t', Runs.run ((loop.withRaw false).step checks) t
      (KeyboardInput.cookedEvents (.line keys hkeys now sending)) = some t' ∧ SameTalk s' t' ∧
        s'.chat.inputBuf = "" := by
  have hrunning : s.running = true := running_of_run hrun (by simp [KeyboardInput.rawEvents])
  have htrunning : t.running = true := by rw [h.same]; exact hrunning
  obtain ⟨draws, hdraws, hedits⟩ := @run_edits _ _ _ _ (loop.withRaw true) checks s keys hkeys hrunning now sending
  rw [KeyboardInput.rawEvents, List.map_append, Runs.run_append, hedits, Option.bind_some, hempty] at hrun
  obtain ⟨s₁, hstep, hs₁⟩ := Runs.run_cons_eq_some.1 hrun
  obtain rfl := Option.some_inj.1 hs₁
  -- the line is taken out of the buffer, and entered
  have henter : (loop.withRaw true).submit checks (trim (editedLine keys)) now sending
      { s with chat := { s.chat with inputBuf := "" }, draws := draws } = some s₁ := by
    unfold ChatLoop.step at hstep
    rwa [if_pos hrunning] at hstep
  have hsame : SameTalk { s with chat := { s.chat with inputBuf := "" }, draws := draws } t := by
    refine ⟨h.same.trans ?_, h.printed.trans hdraws.symm⟩
    rw [← hempty]
  rw [KeyboardInput.cookedEvents, cookedKeys, trim_newline]
  split_ifs with hexit hblank
  · unfold submit at henter
    rw [if_neg (by rintro hno; rw [hno] at hexit; revert hexit; decide), if_pos hexit] at henter
    cases henter
    have hquit : (loop.withRaw false).step checks t (.key (some .quit) now sending) =
      some { t with running := false } := if_pos htrunning
    refine ⟨_, Runs.run_cons_eq_some.2 ⟨_, hquit, rfl⟩, ⟨?_, hsame.printed⟩, rfl⟩
    exact congrArg (fun t : LoopState Sec Key => { t with running := false }) hsame.same
  · unfold submit at henter
    rw [if_pos hblank] at henter
    cases henter
    exact ⟨t, rfl, ⟨hsame.same, hsame.printed.trans (printed_prompted _).symm⟩, rfl⟩
  · obtain ⟨t', hsubmit, htalk, hbuf⟩ : ∃ t', (loop.withRaw false).submit checks (trim (editedLine keys)) now
        sending t = some t' ∧ SameTalk s₁ t' ∧ s₁.chat.inputBuf = "" := submit_withRaw hsame henter
    have hline : (loop.withRaw false).step checks t (.key (some (.line (trim (editedLine keys)))) now sending) =
      some t' := (if_pos htrunning).trans hsubmit
    exact ⟨t', Runs.run_cons_eq_some.2 ⟨t', hline, rfl⟩, htalk, hbuf⟩

/-- **Both modes do the same**, from two loops that are alike. -/
theorem run_withRaw {inputs : List (KeyboardInput Sec)} (h : SameTalk s t) (hempty : s.chat.inputBuf = "")
    (hrun : Runs.run ((loop.withRaw true).step checks) s (inputs.flatMap KeyboardInput.rawEvents) = some s') :
    ∃ t', Runs.run ((loop.withRaw false).step checks) t (inputs.flatMap KeyboardInput.cookedEvents) = some t' ∧
      SameTalk s' t' := by
  induction inputs generalizing s t with
  | nil =>
      obtain rfl := Option.some_inj.1 hrun
      exact ⟨t, rfl, h⟩
  | cons input inputs ih =>
      rw [List.flatMap_cons] at hrun ⊢
      obtain ⟨s₁, hfirst, hrest⟩ := Runs.run_append_eq_some.1 hrun
      have hinput : ∃ t₁, Runs.run ((loop.withRaw false).step checks) t input.cookedEvents = some t₁ ∧
          SameTalk s₁ t₁ ∧ s₁.chat.inputBuf = "" := by
        cases input with
        | line keys edits now sending => exact line_withRaw edits h hempty hfirst
        | other event quiet =>
            obtain ⟨s₂, hstep, hs₂⟩ := Runs.run_cons_eq_some.1 hfirst
            obtain rfl := Option.some_inj.1 hs₂
            obtain ⟨t₁, hstep', htalk, hbuf⟩ : ∃ t₁, (loop.withRaw false).step checks t event = some t₁ ∧
              SameTalk s₂ t₁ ∧ s₂.chat.inputBuf = s.chat.inputBuf := other_withRaw quiet h hstep
            exact ⟨t₁, Runs.run_cons_eq_some.2 ⟨t₁, hstep', rfl⟩, htalk, hbuf.trans hempty⟩
      obtain ⟨t₁, hcooked, htalk, hbuf⟩ := hinput
      obtain ⟨t', hrest', htalk'⟩ := ih htalk hbuf hrest
      exact ⟨t', Runs.run_append_eq_some.2 ⟨t₁, hcooked, hrest'⟩, htalk'⟩

/-- **Both modes send and show the same.**  Whatever lines are typed, corrected and entered, and whatever happens
between them, the loop without raw mode, which is handed the lines, sends the messages, keeps the session and
writes the messages and notices that the loop in raw mode does, which is handed the keys; and it ends where
that one ends. -/
theorem modes_agree {localAlias : String} {inputs : List (KeyboardInput Sec)}
    (hrun : Runs.run ((loop.withRaw true).step checks) ((loop.withRaw true).start localAlias)
      (inputs.flatMap KeyboardInput.rawEvents) = some s) :
    ∃ t, Runs.run ((loop.withRaw false).step checks) ((loop.withRaw false).start localAlias)
        (inputs.flatMap KeyboardInput.cookedEvents) = some t ∧
      t.sent = s.sent ∧ t.chat.e2eSession = s.chat.e2eSession ∧ t.running = s.running ∧
        printed t.draws = printed s.draws := by
  have hstart : SameTalk ((loop.withRaw true).start localAlias) ((loop.withRaw false).start localAlias) := ⟨rfl, rfl⟩
  obtain ⟨t, ht, hsame, hprinted⟩ := run_withRaw hstart rfl hrun
  refine ⟨t, ht, ?_, ?_, ?_, hprinted⟩
  · rw [hsame]
  · rw [hsame]
  · rw [hsame]

/-- A line is typed with a correction, and the loop is left with a word. -/
def testInputs : List (KeyboardInput Bytes32) :=
  [.line [.char 'h', .char 'o', .backspace, .other, .char 'i', .char ' '] (List.all_eq_true.1 rfl) 7 (.ok ()),
    .line [.char '/', .char 'q'] (List.all_eq_true.1 rfl) 8 (.ok ())]

theorem sent_testInputs : ((Runs.run ((testLoop.withRaw true).step true) ((testLoop.withRaw true).start "alice")
    (testInputs.flatMap KeyboardInput.rawEvents)).map fun s => s.sent.map fun out => content out.1) =
      some [([104, 105], none)] := by
  decide +kernel

theorem modes_agree_testInputs : ∃ t,
    Runs.run ((testLoop.withRaw false).step true) ((testLoop.withRaw false).start "alice")
      (testInputs.flatMap KeyboardInput.cookedEvents) = some t ∧
    (t.sent.map fun out => content out.1) = [([104, 105], none)] := by
  obtain ⟨s, hrun, hsent⟩ := Option.map_eq_some_iff.1 sent_testInputs
  obtain ⟨t, ht, hsame, -⟩ := modes_agree hrun
  exact ⟨t, ht, by rw [hsame]; exact hsent⟩

end ChatLoop

end Sanctum
