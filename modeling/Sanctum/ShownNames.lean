/-
The names on the screen.

A loop shows a message under the name of its sender: the one in the last notice of that fingerprint, if there
has been one, and else the beginning of the fingerprint.  With the text, which is that of the message if it can
be read, this is all that a loop shows of the others.

Main definitions:

* `Sanctum.ChatLoop.entries` — the names and the texts on the screen;
* `Sanctum.ChatLoop.nameGiven` — the name that a fingerprint has been given;
* `Sanctum.ChatLoop.entryAfter` — what is shown for an event, after the events before it.

Main results:

* `Sanctum.ChatLoop.entries_run` — **what a loop shows, and under which names**;
* `Sanctum.ChatLoop.Names.entry` — without a session, each text is that of a message.
-/

import Sanctum.TypedText

set_option relaxedAutoImplicit false
set_option autoImplicit false

namespace Sanctum

namespace ChatLoop

variable {Sec Key Nonce : Type} {P : Primitives Sec Bytes32 Key Nonce Bytes Bytes} {checks : Bool}
  {loop : ChatLoop P} {s s' : LoopState Sec Key} {event : LoopEvent Sec} {events : List (LoopEvent Sec)}
  {localAlias : String}

/-! ### What is written -/

/-- The name and the text of a message that is drawn. -/
def entryOf : Draw → Option (String × String)
  | .writeMsg _ _ sender content _ => some (sender, content)
  | _ => none

/-- **The names and the texts of the messages** on the screen. -/
def entries (draws : List Draw) : List (String × String) := draws.filterMap entryOf

theorem entries_append (draws draws' : List Draw) :
    entries (draws ++ draws') = entries draws ++ entries draws' :=
  List.filterMap_append

theorem entries_drawn (draws draws' : List Draw) (h : entries draws' = []) :
    entries (loop.drawn draws draws') = entries draws := by
  unfold ChatLoop.drawn
  rw [entries_append, entries_append]
  cases loop.rawOk with
  | true => rw [if_pos rfl, if_pos rfl, h, List.append_nil]; rfl
  | false => rw [if_neg Bool.false_ne_true, if_neg Bool.false_ne_true]; exact List.append_nil _

theorem entries_prompted (s : LoopState Sec Key) : entries (loop.prompted s).draws = entries s.draws := by
  unfold prompted
  rw [entries_append]
  cases loop.rawOk with
  | true => exact List.append_nil _
  | false => exact List.append_nil _

/-- The texts are those that are shown. -/
theorem entries_map_snd (draws : List Draw) : (entries draws).map Prod.snd = shown draws := by
  unfold entries shown
  rw [List.map_filterMap]
  refine List.filterMap_congr ?_
  intro draw _
  cases draw with
  | _ => rfl

/-- A message is drawn with the name of its sender and its text, if it can be read. -/
theorem entries_handleRoomMessage {m : RoomMessage} {rng : Sec} {chat chat' : ChatState Sec Key}
    {draws : List Draw} (h : loop.handleRoomMessage checks m rng chat = some (chat', draws)) :
    entries draws = ((tryDecrypt loop.parse m chat.e2eSession loop.e2eKeys rng).1.bind fun text =>
      (aliasFor m.senderFingerprint chat.aliases).map fun name => (name, text)).toList := by
  unfold handleRoomMessage at h
  dsimp only at h
  rw [tryDecryptChecked_eq] at h
  split_ifs at h
  rcases hdecrypt : tryDecrypt loop.parse m chat.e2eSession loop.e2eKeys rng with ⟨_ | content, e2e⟩
  · rw [hdecrypt] at h
    cases h
    rfl
  · rw [hdecrypt] at h
    dsimp only at h
    rcases hsender : aliasFor m.senderFingerprint chat.aliases with _ | sender
    · rw [hsender] at h
      cases h
    · rw [hsender] at h
      cases h
      exact entries_drawn _ _ rfl

/-- A line that is entered writes no message. -/
theorem entries_submit {text : String} {now : UInt64} {sending : Except String Unit}
    (hsubmit : loop.submit checks text now sending s = some s') : entries s'.draws = entries s.draws := by
  rcases submit_cases hsubmit with ⟨-, rfl | rfl⟩ | ⟨-, frame, -, ⟨e, rfl⟩ | rfl⟩
  · exact entries_prompted s
  · rfl
  · rw [entries_append]
    exact List.append_nil _
  · exact entries_prompted _

/-! ### The names -/

/-- The name in a notice. -/
def noticeName (p : PeerReady) : Option String :=
  if p.displayAlias = "" then short p.fingerprint else some p.displayAlias

variable (loop localAlias) in
/-- **The name that a fingerprint has been given**: in the last notice of it, or by the user. -/
def nameGiven (events : List (LoopEvent Sec)) (fp : String) : Option String :=
  match ((events.filterMap loop.peerOf).filter fun p => p.fingerprint = fp).getLast? with
  | some p => noticeName p
  | none => if fp = loop.fpStr then some localAlias else none

variable (loop localAlias) in
/-- The name under which the messages of a sender are shown. -/
def nameShown (events : List (LoopEvent Sec)) (fp : String) : Option String :=
  (loop.nameGiven localAlias events fp).or (short fp)

variable (loop localAlias) in
/-- **What is shown for an event**, after the events before it: the text of a message that can be read. -/
def entryAfter (before : List (LoopEvent Sec)) : LoopEvent Sec → Option (String × String)
  | .received (.ok frame) rng => (loop.readMessage frame).bind fun m =>
      (loop.textAfter (loop.callsOf before) (.frame m rng)).bind fun text =>
        (loop.nameShown localAlias before m.senderFingerprint).map fun name => (name, text)
  | _ => none

/-- A notice gives its fingerprint a name, and leaves the others theirs. -/
theorem nameGiven_append (events : List (LoopEvent Sec)) (event : LoopEvent Sec) (fp : String) :
    loop.nameGiven localAlias (events ++ [event]) fp =
      match loop.peerOf event with
      | some p => if fp = p.fingerprint then noticeName p else loop.nameGiven localAlias events fp
      | none => loop.nameGiven localAlias events fp := by
  unfold nameGiven
  rw [List.filterMap_append, List.filter_append, List.filterMap_cons, List.filterMap_nil]
  cases loop.peerOf event with
  | none => rw [List.filter_nil, List.append_nil]
  | some p =>
      dsimp only
      by_cases hfp : fp = p.fingerprint
      · rw [if_pos hfp, List.filter_cons, if_pos (decide_eq_true hfp.symm), List.filter_nil,
          List.getLast?_concat]
      · rw [if_neg hfp, List.filter_cons, if_neg fun h => hfp (of_decide_eq_true h).symm, List.filter_nil,
          List.append_nil]

/-- A peer that has joined is called by the name in its notice. -/
theorem aliases_handlePeerReady {p : PeerReady} {chat chat' : ChatState Sec Key} {draws : List Draw}
    (h : loop.handlePeerReady checks p chat = some (chat', draws)) :
    ∃ a, noticeName p = some a ∧ chat'.aliases = chat.aliases.insert p.fingerprint a := by
  unfold handlePeerReady at h
  unfold noticeName
  generalize (if p.displayAlias = "" then short p.fingerprint else some p.displayAlias) = name at h ⊢
  cases name with
  | none => cases h
  | some a =>
      dsimp only at h
      unfold addChecked at h
      split_ifs at h
      cases h
      exact ⟨a, rfl, rfl⟩

theorem aliasFor_eq {aliases : HashMap String String} {fp : String} {name : Option String}
    (h : aliases.lookup fp = name) : aliasFor fp aliases = name.or (short fp) := by
  unfold aliasFor
  rw [h]
  cases name with
  | none => rfl
  | some a => rfl

variable (loop localAlias) in
/-- **The loop after some events**, with the names that it knows and what it has shown. -/
structure Names (events : List (LoopEvent Sec)) (s : LoopState Sec Key) : Prop where
  progress : loop.Progress events s
  aliases : ∀ fp, s.chat.aliases.lookup fp = loop.nameGiven localAlias events fp
  entries : entries s.draws = Histories.collect (loop.entryAfter localAlias) events

theorem names_start : loop.Names localAlias [] (loop.start localAlias) := by
  refine ⟨progress_start localAlias, ?_, ?_⟩
  · intro fp
    exact (lookup_insert_ite ∅ loop.fpStr fp localAlias).trans rfl
  · unfold ChatLoop.start
    cases loop.rawOk with
    | true => rfl
    | false => rfl

/-- A round that is about no frame leaves the names and what is shown. -/
theorem Names.quiet (h : loop.Names localAlias events s) (hprogress : loop.Progress (events ++ [event]) s')
    (hpeer : loop.peerOf event = none) (hentry : loop.entryAfter localAlias events event = none)
    (haliases : s'.chat.aliases = s.chat.aliases)
    (hentries : ChatLoop.entries s'.draws = ChatLoop.entries s.draws) :
    loop.Names localAlias (events ++ [event]) s' := by
  refine ⟨hprogress, ?_, ?_⟩
  · intro fp
    rw [haliases, nameGiven_append, hpeer]
    exact h.aliases fp
  · rw [hentries, h.entries, Histories.collect_append_singleton, hentry]
    exact (List.append_nil _).symm

theorem aliases_submit {text : String} {now : UInt64} {sending : Except String Unit}
    (hsubmit : loop.submit checks text now sending s = some s') : s'.chat.aliases = s.chat.aliases := by
  rcases submit_cases hsubmit with ⟨-, rfl | rfl⟩ | ⟨-, frame, -, ⟨e, rfl⟩ | rfl⟩
  · rfl
  · rfl
  · rfl
  · rfl

/-- **A frame** shows its message under the name of the sender, or gives a name. -/
theorem Names.frame {frame : Frame} {rng : Sec} {chat : ChatState Sec Key} {draws : List Draw}
    (h : loop.Names localAlias events s)
    (hprogress : loop.Progress (events ++ [.received (.ok frame) rng])
      { s with chat := chat, draws := s.draws ++ draws })
    (hhandle : loop.handleFrame checks frame rng s.chat = some (chat, draws)) :
    loop.Names localAlias (events ++ [.received (.ok frame) rng])
      { s with chat := chat, draws := s.draws ++ draws } := by
  rcases handleFrame_cases hhandle with
    ⟨m, hread, hpeer, hm⟩ | ⟨p, hread, hpeer, hp⟩ | ⟨hread, hpeer, rfl, rfl⟩
  · -- a message gives nobody a name
    have hchat := (handleRoomMessage_cases hm).1
    refine ⟨hprogress, ?_, ?_⟩
    · intro fp
      rw [nameGiven_append, ChatLoop.peerOf, hpeer, hchat]
      exact h.aliases fp
    · rw [entries_append, h.entries, Histories.collect_append_singleton, entries_handleRoomMessage hm,
        entryAfter, hread, aliasFor_eq (h.aliases m.senderFingerprint), h.progress.session]
      rfl
  · obtain ⟨a, hname, haliases⟩ := aliases_handlePeerReady hp
    obtain ⟨-, -, -, text, rfl⟩ := handlePeerReady_cases hp
    refine ⟨hprogress, ?_, ?_⟩
    · intro fp
      rw [nameGiven_append, ChatLoop.peerOf, hpeer, haliases, lookup_insert_ite, h.aliases fp]
      dsimp only
      rw [hname]
    · rw [entries_append, h.entries, Histories.collect_append_singleton, entryAfter, hread,
        entries_drawn _ _ rfl]
      rfl
  · refine h.quiet hprogress hpeer ?_ rfl ?_
    · rw [entryAfter, hread]
      rfl
    · rw [List.append_nil]

theorem Names.step (h : loop.Names localAlias events s) (hstep : loop.step checks s event = some s') :
    loop.Names localAlias (events ++ [event]) s' := by
  have hprogress := h.progress.step hstep
  unfold ChatLoop.step at hstep
  split_ifs at hstep
  cases event with
  | shutdown =>
      cases hstep
      exact h.quiet hprogress rfl rfl rfl rfl
  | received result rng =>
      cases result with
      | error e =>
          cases hstep
          refine h.quiet hprogress rfl rfl rfl ?_
          rw [entries_append, entries_drawn _ _ rfl]
          exact List.append_nil _
      | ok frame =>
          dsimp only at hstep
          rcases hhandle : loop.handleFrame checks frame rng s.chat with _ | ⟨chat, draws⟩
          · rw [hhandle] at hstep
            cases hstep
          · rw [hhandle] at hstep
            cases hstep
            exact h.frame hprogress hhandle
  | key key now sending =>
      cases key with
      | none =>
          cases hstep
          exact h.quiet hprogress rfl rfl rfl rfl
      | some key =>
          cases key with
          | char c =>
              cases hstep
              exact h.quiet hprogress rfl rfl rfl (entries_prompted _)
          | backspace =>
              cases hstep
              exact h.quiet hprogress rfl rfl rfl (entries_prompted _)
          | quit =>
              cases hstep
              exact h.quiet hprogress rfl rfl rfl rfl
          | enter =>
              have haliases := aliases_submit hstep
              have hentries := entries_submit hstep
              exact h.quiet hprogress rfl rfl haliases hentries
          | line text =>
              have haliases := aliases_submit hstep
              have hentries := entries_submit hstep
              exact h.quiet hprogress rfl rfl haliases hentries

/-- **What a loop shows, and under which names**: the messages that can be read, in order, each with its text
under the name that its sender has been given last. -/
theorem entries_run (hrun : Runs.run (loop.step checks) (loop.start localAlias) events = some s) :
    loop.Names localAlias events s :=
  Runs.history_induction (fun _ _ _ _ _ _ hstep _ h => h.step hstep) names_start hrun

/-! ### Messages in the clear -/

/-- A name is the beginning of the fingerprint, or has been given. -/
theorem nameShown_cases {fp name : String} (h : loop.nameShown localAlias events fp = some name) :
    short fp = some name ∨ fp = loop.fpStr ∨
      ∃ p ∈ events.filterMap loop.peerOf, p.fingerprint = fp ∧ p.displayAlias = name := by
  unfold nameShown at h
  rcases Option.or_eq_some_iff.1 h with hgiven | ⟨-, hshort⟩
  · unfold nameGiven at hgiven
    split at hgiven
    · next p hlast =>
        obtain ⟨hp, hfp⟩ := List.mem_filter.1 (List.mem_of_getLast? hlast)
        obtain rfl := of_decide_eq_true hfp
        unfold noticeName at hgiven
        split_ifs at hgiven
        · exact Or.inl hgiven
        · exact Or.inr (Or.inr ⟨p, hp, rfl, Option.some_inj.1 hgiven⟩)
    · split_ifs at hgiven with hfp
      exact Or.inr (Or.inl hfp)
  · exact Or.inl hshort

/-- Without a session, a message that is no initial one is shown as it is. -/
theorem textAfter_clear {calls : List (ChatCall Sec)} {m : RoomMessage} {rng : Sec}
    (hsession : sessionAfter loop.parse loop.e2eKeys calls = none) (hm : loop.parse m.ciphertext = none) :
    loop.textAfter calls (.frame m rng) = some (clearText m) := by
  unfold textAfter tryDecrypt
  rw [hsession]
  dsimp only
  rw [hm]
  rfl

/-- **Where no initial message has been received**, each text on the screen is that of a message, and stands
under the beginning of the fingerprint of its sender or a name that this has been given. -/
theorem Names.entry (h : loop.Names localAlias events s)
    (hparse : ∀ m ∈ loop.heard events, loop.parse m.ciphertext = none) {name text : String}
    (hentry : (name, text) ∈ ChatLoop.entries s.draws) :
    ∃ m ∈ loop.heard events, clearText m = text ∧
      (short m.senderFingerprint = some name ∨ m.senderFingerprint = loop.fpStr ∨
        ∃ p ∈ events.filterMap loop.peerOf, p.fingerprint = m.senderFingerprint ∧ p.displayAlias = name) := by
  rw [h.entries] at hentry
  obtain ⟨i, event, hevent, htells⟩ := Histories.of_mem_collect hentry
  have hbefore : (events.take i).Sublist events := List.take_sublist i events
  unfold entryAfter at htells
  split at htells
  · next frame rng =>
      obtain ⟨m, hread, htells⟩ := Option.bind_eq_some_iff.1 htells
      obtain ⟨text', htext, htells⟩ := Option.bind_eq_some_iff.1 htells
      obtain ⟨name', hname, hpair⟩ := Option.map_eq_some_iff.1 htells
      obtain ⟨rfl, rfl⟩ := Prod.mk.inj hpair
      have hm : m ∈ loop.heard events :=
        List.mem_filterMap.2 ⟨frame, List.mem_filterMap.2 ⟨_, List.mem_of_getElem? hevent, rfl⟩, hread⟩
      have hclear : ∀ m' ∈ (loop.callsOf (events.take i)).filterMap ChatCall.message,
          loop.parse m'.ciphertext = none := by
        rw [messages_callsOf]
        intro m' hm'
        exact hparse m' (((hbefore.filterMap frameOf).filterMap loop.readMessage).subset hm')
      rw [textAfter_clear (clear_of_parse hclear).1 (hparse m hm)] at htext
      refine ⟨m, hm, Option.some_inj.1 htext, ?_⟩
      rcases nameShown_cases hname with hshort | hown | ⟨p, hp, hfp, halias⟩
      · exact Or.inl hshort
      · exact Or.inr (Or.inl hown)
      · exact Or.inr (Or.inr ⟨p, (hbefore.filterMap loop.peerOf).subset hp, hfp, halias⟩)
  · cases htells

end ChatLoop

end Sanctum
