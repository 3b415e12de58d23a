/-
The sender of a relayed message.

The host relays the frame of a room message as it has received it and never looks at the sender named
in it.  Every room message that a client is sent has come through the relay, for what the host writes
on its own are notices and pongs; so whom it names is up to the connection it came from.  As long as
everybody names the fingerprint they have been authenticated as, everything is attributed to the one it
comes from, and one frame in another name is enough to be shown in that name.

Main definitions:

* `Sanctum.readRoomMessage` — the room message in a frame;
* `Sanctum.HostListener.Source` — where a task gets the frames that it writes;
* `Sanctum.HostListener.Authentic` — **every room message names the one it comes from**;
* `Sanctum.HostListener.NamesItself` — the step receives no message in another name.

Main results:

* `Sanctum.Stepped.transport_cases` — what a step reads from a transport and writes to it;
* `Sanctum.HostListener.sender_authentic` — **the runs in which everybody names themselves**.
-/

import Sanctum.ChatLoop
import Sanctum.PresenceNotices

set_option relaxedAutoImplicit false
set_option autoImplicit false

namespace Sanctum

open HostListener

/-- **The room message in a frame**; `decode` is the decoder of the protobuf library. -/
def readRoomMessage (decode : Bytes → Option RoomMessage) (frame : Frame) : Option RoomMessage :=
  if frame.messageType = MessageType.roomMessage then decode frame.payload else none

variable {decode : Bytes → Option RoomMessage}

theorem messageType_of_readRoomMessage {frame : Frame} {m : RoomMessage}
    (h : readRoomMessage decode frame = some m) : frame.messageType = MessageType.roomMessage := by
  unfold readRoomMessage at h
  split at h
  · next htype => exact htype
  · simp at h

namespace HostListener

/-- **Where a task gets the frames that it writes**: its channel, the aliases, the broadcast, or a ping
to be answered. -/
inductive Source (pb : ProtoCodec) (s : HostListener) (k : Client) : Sent → Prop
  | relay (r : Relayed) (h : r ∈ k.outRx) : Source pb s k (.relayed r)
  | greet (p : PeerReady) : Source pb s k (.own (pb.peerReadyFrame p))
  | notice (routed : RoutedMessage) (h : routed ∈ s.routeTx) : Source pb s k (.own routed.frame)
  | pong : Source pb s k (.own pongFrame)

/-- **Every room message that a client has been sent names the one it comes from**: it has come through
the relay, and carries the fingerprint of the client that has sent it. -/
def Authentic (decode : Bytes → Option RoomMessage) (s : HostListener) : Prop :=
  ∀ d kd, s.tasks d = .client kd → ∀ f ∈ kd.sent, ∀ m, readRoomMessage decode f.frame = some m →
    ∃ r k, f = .relayed r ∧ s.tasks r.origin = .client k ∧
      m.senderFingerprint = k.fingerprint.hex

/-- The step receives no room message in another name than that of the connection. -/
def NamesItself (decode : Bytes → Option RoomMessage) (s : HostListener) (label : Label) : Prop :=
  ∀ c k frame m, label = .client c (.receive frame) → s.tasks c = .client k →
    readRoomMessage decode frame = some m → m.senderFingerprint = k.fingerprint.hex

/-- Room messages are received from those they name, and the host writes none of its own. -/
structure Vouched (decode : Bytes → Option RoomMessage) (s : HostListener) : Prop where
  received : ∀ c k, s.tasks c = .client k → ∀ frame ∈ k.received, ∀ m,
    readRoomMessage decode frame = some m → m.senderFingerprint = k.fingerprint.hex
  notices : ∀ routed ∈ s.routeTx, routed.frame.messageType = MessageType.peerReady
  own : ∀ d kd, s.tasks d = .client kd → ∀ frame, .own frame ∈ kd.sent →
    frame.messageType ≠ MessageType.roomMessage

end HostListener

namespace Stepped

variable {crates : Crates} {s s' : HostListener} {label : Label}

/-- **What a step reads from the transport of a task and writes to it.** -/
theorem transport_cases (h : Stepped crates s label s') {d : ConnId} {kd kd' : Client}
    (hd : s.tasks d = .client kd) (hd' : s'.tasks d = .client kd') :
    kd'.received = kd.received ∧ kd'.sent = kd.sent ∨
      (∃ frame, label = .client d (.receive frame) ∧ kd'.received = kd.received ++ [frame] ∧
        kd'.sent = kd.sent) ∨
      ∃ f, s.Source crates.pb kd f ∧ kd'.received = kd.received ∧ kd'.sent = kd.sent ++ [f] := by
  cases h.stepsTo hd hd' with
  | receive frame _ => exact Or.inr (Or.inl ⟨frame, rfl, rfl, rfl⟩)
  | greet _ fp displayAlias _ _ => exact Or.inr (Or.inr ⟨_, .greet ⟨fp, displayAlias⟩, rfl, rfl⟩)
  | takeOut r _ _ hout =>
      exact Or.inr (Or.inr ⟨_, .relay r (hout ▸ List.mem_cons_self), rfl, rfl⟩)
  | takeRouted routed _ hrouted =>
      exact Or.inr (Or.inr ⟨_, .notice routed (List.mem_of_getElem? hrouted), rfl, rfl⟩)
  | pong _ => exact Or.inr (Or.inr ⟨_, .pong, rfl, rfl⟩)
  | _ => exact Or.inl ⟨rfl, rfl⟩

end Stepped

namespace HostListener

variable {crates : Crates} {s s' : HostListener} {label : Label}

/-- What the host writes on its own is no room message. -/
theorem Source.messageType_own {k : Client} {frame : Frame}
    (hnotices : ∀ routed ∈ s.routeTx, routed.frame.messageType = MessageType.peerReady)
    (h : s.Source crates.pb k (.own frame)) : frame.messageType ≠ MessageType.roomMessage := by
  cases h with
  | greet p =>
      show MessageType.peerReady ≠ MessageType.roomMessage
      decide
  | notice routed hmem =>
      rw [hnotices routed hmem]
      decide
  | pong => decide

theorem vouched_start (room : Room) (hostNoisePubkey : Bytes) :
    (start room hostNoisePubkey).Vouched decode where
  received := by simp [start]
  notices := by simp [start]
  own := by simp [start]

/-- **A step that receives no message in another name keeps the invariant.** -/
theorem vouched_step (hfresh : s.Fresh) (hv : s.Vouched decode) (hok : NamesItself decode s label)
    (h : Stepped crates s label s') : s'.Vouched decode where
  received := by
    intro c k' hc' frame hframe m hread
    rcases h.client_origin hfresh hc' with ⟨k, hc, hlater⟩ | ⟨-, -, -, hreceived, -⟩
    · rw [hlater.fingerprint]
      rcases h.transport_cases hc hc' with ⟨hreceived, -⟩ | ⟨frame', hlabel, hreceived, -⟩ |
          ⟨f, -, hreceived, -⟩
      · exact hv.received c k hc frame (hreceived ▸ hframe) m hread
      · rw [hreceived, List.mem_append, List.mem_singleton] at hframe
        rcases hframe with hframe | rfl
        · exact hv.received c k hc frame hframe m hread
        · exact hok c k frame m hlabel hc hread
      · exact hv.received c k hc frame (hreceived ▸ hframe) m hread
    · rw [hreceived] at hframe
      simp at hframe
  notices := by
    intro routed hmem
    by_cases hann : ∃ c, label = .client c .announce
    · obtain ⟨c, rfl⟩ := hann
      obtain ⟨k, -, -, hroute, -⟩ := routeTx_announce h
      rw [hroute, List.mem_append, List.mem_singleton] at hmem
      rcases hmem with hmem | rfl
      · exact hv.notices routed hmem
      · rfl
    · push Not at hann
      rw [routeTx_eq h hann] at hmem
      exact hv.notices routed hmem
  own := by
    intro d kd' hd' frame hmem
    rcases h.client_origin hfresh hd' with ⟨kd, hd, -⟩ | ⟨-, -, -, -, hsent⟩
    · rcases h.transport_cases hd hd' with ⟨-, hsent⟩ | ⟨-, -, -, hsent⟩ | ⟨f, hsource, -, hsent⟩
      · exact hv.own d kd hd frame (hsent ▸ hmem)
      · exact hv.own d kd hd frame (hsent ▸ hmem)
      · rw [hsent, List.mem_append, List.mem_singleton] at hmem
        rcases hmem with hmem | rfl
        · exact hv.own d kd hd frame hmem
        · exact hsource.messageType_own hv.notices
    · rw [hsent] at hmem
      simp at hmem

/-- What is relayed is what has been received. -/
theorem Vouched.authentic (hv : s.Vouched decode) (hr : s.Relaying) : s.Authentic decode := by
  intro d kd hd f hmem m hread
  cases f with
  | own frame => exact absurd (messageType_of_readRoomMessage hread) (hv.own d kd hd frame hmem)
  | relayed r =>
      have hrelayed : r ∈ kd.relayed :=
        List.mem_append_left _ (List.mem_filterMap.2 ⟨_, hmem, rfl⟩)
      obtain ⟨k, hk, -, -, hframe, -⟩ := hr.origin d kd hd r hrelayed
      exact ⟨r, k, rfl, hk, hv.received r.origin k hk r.frame (List.mem_of_getElem? hframe) m hread⟩

/-- **Sender authenticity through the relay**: in every run in which the host receives no room message
in another name than that of the connection, every room message that a client has been sent names the
one it comes from, in every state. -/
theorem sender_authentic {room : Room} {hostNoisePubkey : Bytes} {labels : List Label}
    (hok : Runs.Meets (step crates) (NamesItself decode) (start room hostNoisePubkey) labels) :
    Runs.Throughout (step crates) (Authentic decode) (start room hostNoisePubkey) labels := by
  have hstep : ∀ s label s', s.Sound ∧ s.Vouched decode → NamesItself decode s label →
      step crates s label = some s' → s'.Sound ∧ s'.Vouched decode := by
    rintro s label s' ⟨hs, hv⟩ hok hstep
    have h := stepped_of_step hstep
    exact ⟨sound_step hs h, vouched_step hs.fresh hv hok h⟩
  exact Runs.throughout_of_meets hstep (fun s hs => hs.2.authentic hs.1.toRelaying)
    ⟨sound_start room hostNoisePubkey, vouched_start room hostNoisePubkey⟩ hok

/-! ### A message in one's own name, and one in another -/

/-- The wire format of a room message of which only the sender is set. -/
def testDecode (bytes : Bytes) : Option RoomMessage :=
  (readString 1 bytes).bind fun (senderFingerprint, rest) =>
    if rest = [] then some ⟨senderFingerprint, 0, none, [], [], 0⟩ else none

/-- A room message in the name of a test fingerprint. -/
def testNamed (suffix : String) : Frame where
  messageType := MessageType.roomMessage
  payload := encodeString 1 (HostService.testFp suffix).hex

/-- The member writes to the owner and to a third one, and that one is sent what it wrote. -/
def testNamedRun (suffix : String) : List Label :=
  testBoth ++ testArrive 3 "CC" ++ testGreet 3 ["AA", "BB", "CC"] ++
    testRelay 2 (testNamed suffix) ["AA", "CC"] ++ [.client 3 (.takeOut true)]

theorem readRoomMessage_testNamed (suffix : String) :
    readRoomMessage testDecode (testNamed suffix) =
      some ⟨(HostService.testFp suffix).hex, 0, none, [], [], 0⟩ := by
  have hread : readString 1 (encodeString 1 (HostService.testFp suffix).hex) =
      some ((HostService.testFp suffix).hex, []) := by
    rw [← List.append_nil (encodeString 1 (HostService.testFp suffix).hex)]
    exact readString_encodeString 1 (HostService.testFp suffix).hex (by simp)
  unfold readRoomMessage testDecode testNamed
  rw [if_pos rfl, hread, Option.bind_some]
  exact if_pos rfl

/-- A step that receives nothing. -/
theorem namesItself_of_ne (h : ∀ c frame, label ≠ .client c (.receive frame)) :
    NamesItself decode s label := fun c _ frame _ hlabel => absurd hlabel (h c frame)

/-- A message in the name of the one it is received from. -/
theorem namesItself_receive {c : ConnId} {frame : Frame} {m : RoomMessage}
    (hread : readRoomMessage decode frame = some m)
    (hfp : ∀ k, s.tasks c = .client k → k.fingerprint.hex = m.senderFingerprint) :
    NamesItself decode s (.client c (.receive frame)) := by
  intro c' k frame' m' hlabel hk hread'
  obtain ⟨rfl, hmove⟩ := Label.client.inj hlabel
  obtain rfl := Move.receive.inj hmove
  obtain rfl := Option.some_inj.1 (hread.symm.trans hread')
  exact (hfp k hk).symm

/-- The member writes in its own name. -/
theorem sender_authentic_named :
    Runs.Throughout (step testCrates) (Authentic testDecode) testStart (testNamedRun "BB") := by
  refine sender_authentic (Runs.meets_append.2 ⟨Runs.meets_append.2
    ⟨?_, fun s hrun => ⟨?_, fun s' _ => ?_⟩⟩, fun s _ => ?_⟩)
  · exact Runs.meets_of_forall fun label hmem _ => namesItself_of_ne fun c frame => by
      rintro rfl
      simp [testBoth, testArrive, testGreet] at hmem
  · have heval : ((Runs.run (step testCrates) testStart
        (testBoth ++ testArrive 3 "CC" ++ testGreet 3 ["AA", "BB", "CC"])).bind fun s =>
          (s.clientPair 2 2).map fun pair => pair.1.fingerprint.hex) =
        some (HostService.testFp "BB").hex := by
      decide +kernel
    obtain ⟨s₀, hrun₀, hread⟩ := Option.bind_eq_some_iff.1 heval
    obtain rfl := Option.some_inj.1 (hrun.symm.trans hrun₀)
    obtain ⟨⟨k, k'⟩, hpair, hfp⟩ := Option.map_eq_some_iff.1 hread
    refine namesItself_receive (readRoomMessage_testNamed "BB") fun k₀ hk₀ => ?_
    obtain rfl := Task.client.inj ((clientPair_eq_some.1 hpair).1.symm.trans hk₀)
    exact hfp
  · exact Runs.meets_of_forall fun label hmem _ => namesItself_of_ne fun c frame => by
      rintro rfl
      simp at hmem
  · exact Runs.meets_of_forall fun label hmem _ => namesItself_of_ne fun c frame => by
      rintro rfl
      simp at hmem

/-- **A message in another's name**: the member names the owner as the sender, and the third one is
sent a room message of the owner's. -/
theorem forged_sender : ∃ s k kd r m,
    Runs.run (step testCrates) testStart (testNamedRun "AA") = some s ∧
      s.tasks 2 = .client k ∧ k.fingerprint = HostService.testFp "BB" ∧
      s.tasks 3 = .client kd ∧ .relayed r ∈ kd.sent ∧ r.origin = 2 ∧
      readRoomMessage testDecode r.frame = some m ∧
      m.senderFingerprint = (HostService.testFp "AA").hex ∧ ¬ s.Authentic testDecode := by
  have heval : ((Runs.run (step testCrates) testStart (testNamedRun "AA")).bind fun s =>
      (s.clientPair 2 3).map fun (k, kd) =>
        (k.fingerprint.hex, kd.writtenFrom 2)) =
      some ((HostService.testFp "BB").hex, [testNamed "AA"]) := by
    decide +kernel
  obtain ⟨s, hrun, hread⟩ := Option.bind_eq_some_iff.1 heval
  obtain ⟨⟨k, kd⟩, hpair, hread⟩ := Option.map_eq_some_iff.1 hread
  obtain ⟨hk, hkd⟩ := clientPair_eq_some.1 hpair
  obtain ⟨hfp, hwritten⟩ := Prod.mk.inj hread
  -- the entry that has been written
  have hmem : testNamed "AA" ∈ kd.writtenFrom 2 := by
    rw [hwritten]
    exact List.mem_singleton_self _
  obtain ⟨r, hsent, horigin, hframe⟩ := Client.mem_writtenFrom.1 hmem
  have hm : readRoomMessage testDecode r.frame =
      some ⟨(HostService.testFp "AA").hex, 0, none, [], [], 0⟩ := by
    rw [hframe]
    exact readRoomMessage_testNamed "AA"
  refine ⟨s, k, kd, r, _, hrun, hk, Fingerprint.eq_of_hex hfp, hkd, hsent, horigin, hm, rfl,
    fun hauthentic => ?_⟩
  -- the name would have to be that of the member
  obtain ⟨r', k', hr', hk', hname⟩ := hauthentic 3 kd hkd _ hsent _ hm
  obtain rfl := Sent.relayed.inj hr'
  rw [horigin] at hk'
  obtain rfl := Task.client.inj (hk.symm.trans hk')
  exact absurd (hname.trans hfp) (by decide)

end HostListener

end Sanctum
