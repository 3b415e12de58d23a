/-
A room in which everybody runs the program.

Each member authenticates with its own fingerprint and alias, and then runs the chat loop; the host relays
what it receives.  Here the loops and the host take their steps in any order.  A connection keeps the order
of what is sent on it, in both directions, and there is nothing else between them: what the host receives from
a member is what its loop has sent, and what a loop receives is what the host has written to it.

Main definitions:

* `Sanctum.Participant` — a member with the program that it runs;
* `Sanctum.ChatRoom.step` — **a step of the room**;
* `Sanctum.ChatRoom.Coupled` — what is received at one end of a connection has been sent at the other.

Main results:

* `Sanctum.ChatRoom.host_run`, `Sanctum.ChatRoom.member_run` — the host and each loop go through runs of
  their own;
* `Sanctum.ChatRoom.coupled_run` — every run keeps the ends together;
* `Sanctum.ChatRoom.clear_run` — where no line is taken for an initial message, nobody receives one;
* `Sanctum.ChatRoom.lines_attributed` — **what is on a screen has been entered by the one it is attributed
  to**.
-/

import Sanctum.AuthDialogue
import Sanctum.Introductions
import Sanctum.SenderAuthenticity
import Sanctum.RelayOrder
import Sanctum.ShownNames

set_option relaxedAutoImplicit false
set_option autoImplicit false

namespace Sanctum

open HostListener

variable {Sec Key Nonce : Type} {P : Primitives Sec Bytes32 Key Nonce Bytes Bytes} {prost : Prost}

/-! ### The members -/

variable (P prost) in
/-- **A member, with the program that it runs.**  The loop has the fingerprint that the authentication had. -/
structure Participant where
  fingerprint : Fingerprint
  displayAlias : String
  loop : ChatLoop P
  wellFormed : fingerprint.WellFormed
  named : loop.fpStr = fingerprint.hex
  codec : loop.prost = prost

namespace Participant

/-- The response to a challenge. -/
def response (m : Participant P prost) : Frame where
  messageType := MessageType.authResponse
  payload := prost.authResponse.encode {
    fingerprint := m.fingerprint.hex
    signature := []
    pgpPublicKey := []
    displayAlias := m.displayAlias }

/-- The texts of one sender, among the messages that a member has received. -/
def textsFrom (m : Participant P prost) (fp : Fingerprint) (events : List (LoopEvent Sec)) : List String :=
  ((m.loop.heard events).filter fun message => message.senderFingerprint = fp.hex).map ChatLoop.clearText

/-- The program answers a challenge with nothing else. -/
theorem eq_response (m : Participant P prost) {sha256 : Bytes → Bytes32} {hostNoisePubkey : Bytes}
    {challengeFrame reply : Frame}
    (h : answerChallenge prost sha256 m.fingerprint m.displayAlias hostNoisePubkey challengeFrame =
      .ok reply) :
    reply = m.response := by
  unfold answerChallenge at h
  split_ifs at h
  split at h
  · cases h
  · split_ifs at h
    exact (Except.ok.inj h).symm
  · cases h

/-- The host reads the claim of the member in its response. -/
theorem readAuthResponse_response (m : Participant P prost) :
    readAuthResponse prost.protoCodec m.response = .ok (m.fingerprint, m.displayAlias) := by
  have hdecode : prost.protoCodec.decodeAuthResponse m.response.payload =
      .ok ⟨m.fingerprint.hex, m.displayAlias⟩ := by
    unfold Prost.protoCodec response
    dsimp only
    rw [prost.authResponse.decode_encode]
    rfl
  have htype : m.response.messageType = MessageType.authResponse := rfl
  unfold readAuthResponse
  rw [if_neg (not_not_intro htype), hdecode]
  dsimp only
  rw [Fingerprint.new_hex m.wellFormed]

end Participant

/-! ### The room -/

/-- The frames that the task of a connection has received in its message loop. -/
def HostListener.received (s : HostListener) (c : ConnId) : List Frame :=
  match s.tasks c with
  | .client k => k.received
  | _ => []

/-- The frames that the task of a connection has written. -/
def HostListener.written (s : HostListener) (c : ConnId) : List Frame :=
  match s.tasks c with
  | .client k => k.sent.map Sent.frame
  | _ => []

/-- **The host and the loops of the members**, with the number of frames that each loop has received. -/
structure ChatRoom (Sec Key : Type) where
  host : HostListener
  loops : ConnId → LoopState Sec Key
  taken : ConnId → ℕ

/-- A step of the host, or a round of the loop of a member. -/
inductive RoomEvent (Sec : Type)
  | host (label : Label)
  | member (c : ConnId) (event : LoopEvent Sec)

namespace ChatRoom

/-- The label of the host. -/
def hostLabel : RoomEvent Sec → Option Label
  | .host label => some label
  | .member _ _ => none

/-- The event of a member. -/
def eventOf (c : ConnId) : RoomEvent Sec → Option (LoopEvent Sec)
  | .host _ => none
  | .member d event => if d = c then some event else none

/-- The events of a member, in a run. -/
def eventsOf (c : ConnId) (events : List (RoomEvent Sec)) : List (LoopEvent Sec) :=
  events.filterMap (eventOf c)

/-- The member has been admitted. -/
def Present (r : ChatRoom Sec Key) (c : ConnId) : Prop := ∃ k, r.host.tasks c = .client k

/-- The frames that the loop of a member has sent. -/
def sentBy (r : ChatRoom Sec Key) (c : ConnId) : List Frame := (r.loops c).sent.map Prod.snd

section

variable (sha256 : Bytes → Bytes32) (members : ConnId → Participant P prost) (checks : Bool)

/-- The room before anybody has come. -/
def start (room : Room) (hostNoisePubkey : Bytes) : ChatRoom Sec Key where
  host := HostListener.start room hostNoisePubkey
  loops c := (members c).loop.start (members c).displayAlias
  taken _ := 0

/-- A step of the host. -/
def hostStep (prost : Prost) (r : ChatRoom Sec Key) (label : Label) : Option (ChatRoom Sec Key) :=
  (HostListener.step ⟨prost.protoCodec, sha256⟩ r.host label).map fun host => { r with host := host }

/-- A round of the loop of a member. -/
def memberStep (r : ChatRoom Sec Key) (c : ConnId) (event : LoopEvent Sec) (taken : ℕ) :
    Option (ChatRoom Sec Key) :=
  ((members c).loop.step checks (r.loops c) event).map fun l =>
    { r with loops := Function.update r.loops c l, taken := Function.update r.taken c taken }

/-- **A step of the room.**  The host is answered by the program of the member, which has one answer only
(`Participant.eq_response`), and receives the next frame that its loop has sent; the loop receives the next
frame that the host has written. -/
def step (r : ChatRoom Sec Key) : RoomEvent Sec → Option (ChatRoom Sec Key)
  | .host (.authenticate c (.respond (some reply))) =>
    if reply = (members c).response then
      r.hostStep sha256 prost (.authenticate c (.respond (some reply)))
    else none
  | .host (.client c (.receive frame)) =>
    if (r.sentBy c)[(r.host.received c).length]? = some frame then
      r.hostStep sha256 prost (.client c (.receive frame))
    else none
  | .host label => r.hostStep sha256 prost label
  | .member c (.received (.ok frame) rng) =>
    if (r.host.written c)[r.taken c]? = some frame then
      r.memberStep members checks c (.received (.ok frame) rng) (r.taken c + 1)
    else none
  | .member c event => r.memberStep members checks c event (r.taken c)

/-- **The cases of a step.** -/
inductive Steps (r : ChatRoom Sec Key) : RoomEvent Sec → ChatRoom Sec Key → Prop
  | host (label : Label) (host : HostListener)
      (hstep : HostListener.step ⟨prost.protoCodec, sha256⟩ r.host label = some host)
      (hreply : ∀ c reply, label = .authenticate c (.respond (some reply)) → reply = (members c).response)
      (hreceive : ∀ c frame, label = .client c (.receive frame) →
        (r.sentBy c)[(r.host.received c).length]? = some frame) :
      Steps r (.host label) { r with host := host }
  | member (c : ConnId) (event : LoopEvent Sec) (l : LoopState Sec Key)
      (hstep : (members c).loop.step checks (r.loops c) event = some l)
      (htake : ∀ frame, ChatLoop.frameOf event = some frame → (r.host.written c)[r.taken c]? = some frame) :
      Steps r (.member c event)
        { r with
          loops := Function.update r.loops c l
          taken := Function.update r.taken c (r.taken c + (ChatLoop.frameOf event).toList.length) }

end

variable {sha256 : Bytes → Bytes32} {members : ConnId → Participant P prost} {checks : Bool}
  {r r' : ChatRoom Sec Key} {event : RoomEvent Sec} {events : List (RoomEvent Sec)}
  {room : Room} {hostNoisePubkey : Bytes}

theorem hostStep_eq_some {label : Label} (h : r.hostStep sha256 prost label = some r') :
    ∃ host, HostListener.step ⟨prost.protoCodec, sha256⟩ r.host label = some host ∧
      r' = { r with host := host } := by
  obtain ⟨host, hstep, hr⟩ := Option.map_eq_some_iff.1 h
  exact ⟨host, hstep, hr.symm⟩

theorem memberStep_eq_some {c : ConnId} {event : LoopEvent Sec} {taken : ℕ}
    (h : r.memberStep members checks c event taken = some r') :
    ∃ l, (members c).loop.step checks (r.loops c) event = some l ∧ r' =
      { r with loops := Function.update r.loops c l, taken := Function.update r.taken c taken } := by
  obtain ⟨l, hstep, hr⟩ := Option.map_eq_some_iff.1 h
  exact ⟨l, hstep, hr.symm⟩

/-- **Every step is one of the cases.** -/
theorem steps_of_step (h : r.step sha256 members checks event = some r') :
    Steps sha256 members checks r event r' := by
  unfold step at h
  split at h
  · next c reply =>
      split_ifs at h with hreply
      obtain ⟨host, hstep, rfl⟩ := hostStep_eq_some h
      refine .host _ host hstep ?_ ?_
      · intro c' reply' hlabel
        cases hlabel
        exact hreply
      · intro c' frame hlabel
        cases hlabel
  · next c frame =>
      split_ifs at h with hreceive
      obtain ⟨host, hstep, rfl⟩ := hostStep_eq_some h
      refine .host _ host hstep ?_ ?_
      · intro c' reply hlabel
        cases hlabel
      · intro c' frame' hlabel
        cases hlabel
        exact hreceive
  · next label hrespond hreceive =>
      obtain ⟨host, hstep, rfl⟩ := hostStep_eq_some h
      refine .host _ host hstep ?_ ?_
      · intro c reply hlabel
        exact absurd hlabel (hrespond c reply)
      · intro c frame hlabel
        exact absurd hlabel (hreceive c frame)
  · next c frame rng =>
      split_ifs at h with htake
      obtain ⟨l, hstep, rfl⟩ := memberStep_eq_some h
      refine .member c _ l hstep ?_
      intro frame' hframe
      cases hframe
      exact htake
  · next c event hother =>
      obtain ⟨l, hstep, rfl⟩ := memberStep_eq_some h
      have hnone : ChatLoop.frameOf event = none := by
        cases event with
        | shutdown => rfl
        | received result rng =>
            cases result with
            | error e => rfl
            | ok frame => exact absurd rfl (hother frame rng)
        | key key now sending => rfl
      have htaken : r.taken c + (ChatLoop.frameOf event).toList.length = r.taken c := by
        rw [hnone]
        rfl
      have htake : ∀ frame, ChatLoop.frameOf event = some frame →
          (r.host.written c)[r.taken c]? = some frame := by
        intro frame hframe
        cases hnone.symm.trans hframe
      have hsteps : Steps sha256 members checks r (.member c event) _ := .member c event l hstep htake
      rw [htaken] at hsteps
      exact hsteps

/-! ### The components -/

/-- **The host goes through a run of its own.** -/
theorem host_run
    (hrun : Runs.run (step sha256 members checks) (start members room hostNoisePubkey) events = some r) :
    Runs.run (HostListener.step ⟨prost.protoCodec, sha256⟩) (HostListener.start room hostNoisePubkey)
      (events.filterMap hostLabel) = some r.host := by
  refine Runs.run_project ChatRoom.host hostLabel ?_ hrun
  intro r₀ event r₁ hstep
  cases steps_of_step hstep with
  | host label host hhost _ _ => exact Or.inr ⟨label, rfl, hhost⟩
  | member c event l _ _ => exact Or.inl ⟨rfl, rfl⟩

/-- **The loop of each member goes through a run of its own.** -/
theorem member_run
    (hrun : Runs.run (step sha256 members checks) (start members room hostNoisePubkey) events = some r)
    (c : ConnId) : Runs.run ((members c).loop.step checks) ((members c).loop.start (members c).displayAlias)
      (eventsOf c events) = some (r.loops c) := by
  refine Runs.run_project (fun r => r.loops c) (eventOf c) ?_ hrun
  intro r₀ event r₁ hstep
  cases steps_of_step hstep with
  | host label host _ _ _ => exact Or.inl ⟨rfl, rfl⟩
  | member d event l hloop _ =>
      by_cases hdc : d = c
      · subst hdc
        refine Or.inr ⟨event, if_pos rfl, ?_⟩
        rw [hloop]
        exact congrArg some (Function.update_self d l r₀.loops).symm
      · exact Or.inl ⟨if_neg hdc, Function.update_of_ne (Ne.symm hdc) l r₀.loops⟩

end ChatRoom

/-! ### The ends of a connection -/

namespace HostListener

variable {crates : Crates} {s s' : HostListener} {label : Label}

theorem received_of_client {c : ConnId} {k : Client} (h : s.tasks c = .client k) :
    s.received c = k.received := by
  unfold received
  rw [h]

theorem written_of_client {c : ConnId} {k : Client} (h : s.tasks c = .client k) :
    s.written c = k.sent.map Sent.frame := by
  unfold written
  rw [h]

theorem received_of_not_client {c : ConnId} (h : ∀ k, s.tasks c ≠ .client k) : s.received c = [] := by
  unfold received
  split
  · next k hk => exact absurd hk (h k)
  · rfl

theorem written_of_not_client {c : ConnId} (h : ∀ k, s.tasks c ≠ .client k) : s.written c = [] := by
  unfold written
  split
  · next k hk => exact absurd hk (h k)
  · rfl

/-- A step receives at most one frame on a connection. -/
theorem received_cases (hfresh : s.Fresh) (h : Stepped crates s label s') (c : ConnId) :
    s'.received c <+: s.received c ∨
      ∃ frame, label = .client c (.receive frame) ∧ s'.received c = s.received c ++ [frame] := by
  by_cases hclient : ∃ k', s'.tasks c = .client k'
  · obtain ⟨k', hk'⟩ := hclient
    rw [received_of_client hk']
    rcases h.client_origin hfresh hk' with ⟨k, hk, -⟩ | ⟨-, -, -, hreceived, -⟩
    · rw [received_of_client hk]
      rcases h.transport_cases hk hk' with ⟨hsame, -⟩ | ⟨frame, hlabel, hnext, -⟩ | ⟨f, -, hsame, -⟩
      · exact Or.inl (hsame ▸ List.prefix_rfl)
      · exact Or.inr ⟨frame, hlabel, hnext⟩
      · exact Or.inl (hsame ▸ List.prefix_rfl)
    · rw [hreceived]
      exact Or.inl List.nil_prefix
  · rw [received_of_not_client (not_exists.1 hclient)]
    exact Or.inl List.nil_prefix

/-- What has been written stays. -/
theorem written_grows (hfresh : s.Fresh) (ha : s.Announced crates.pb) (h : Stepped crates s label s')
    (c : ConnId) : s.written c <+: s'.written c := by
  by_cases hclient : ∃ k, s.tasks c = .client k
  · obtain ⟨k, hk⟩ := hclient
    rw [written_of_client hk]
    by_cases hphase : 1 ≤ k.point.phase
    · obtain ⟨k', hk', -⟩ := h.client_persists hfresh hk hphase
      rw [written_of_client hk']
      rcases h.transport_cases hk hk' with ⟨-, hsame⟩ | ⟨frame, -, -, hsame⟩ | ⟨f, -, -, hnext⟩
      · rw [hsame]
      · rw [hsame]
      · rw [hnext, List.map_append]
        exact List.prefix_append _ _
    · -- the task may still fail here, but it has written nothing yet
      have hregister : k.point = .register := by
        cases hpoint : k.point with
        | register => rfl
        | _ =>
            rw [hpoint] at hphase
            exact absurd (Nat.le_of_ble_eq_true rfl) hphase
      rw [ha.unheard c k hk hregister]
      exact List.nil_prefix
  · rw [written_of_not_client (not_exists.1 hclient)]
    exact List.nil_prefix

end HostListener

/-- What a loop has sent stays. -/
theorem ChatLoop.sent_grows {loop : ChatLoop P} {checks : Bool} {s s' : LoopState Sec Key}
    {event : LoopEvent Sec} (h : loop.step checks s event = some s') : s.sent <+: s'.sent := by
  have hsubmit : ∀ {text : String} {now : UInt64} {sending : Except String Unit} {s₀ : LoopState Sec Key},
      loop.submit checks text now sending s₀ = some s' → s₀.sent <+: s'.sent := by
    intro text now sending s₀ h₀
    rcases submit_cases h₀ with ⟨-, rfl | rfl⟩ | ⟨-, frame, -, ⟨e, rfl⟩ | rfl⟩
    · exact List.prefix_rfl
    · exact List.prefix_rfl
    · exact List.prefix_append _ _
    · exact List.prefix_append _ _
  unfold ChatLoop.step at h
  split_ifs at h
  cases event with
  | shutdown =>
      cases h
      exact List.prefix_rfl
  | received result rng =>
      cases result with
      | error e =>
          cases h
          exact List.prefix_rfl
      | ok frame =>
          dsimp only at h
          rcases hhandle : loop.handleFrame checks frame rng s.chat with _ | ⟨chat, draws⟩
          · rw [hhandle] at h
            cases h
          · rw [hhandle] at h
            cases h
            exact List.prefix_rfl
  | key key now sending =>
      cases key with
      | none =>
          cases h
          exact List.prefix_rfl
      | some key =>
          cases key with
          | enter =>
              have hgrows := hsubmit h
              exact hgrows
          | line text =>
              have hgrows := hsubmit h
              exact hgrows
          | _ =>
              cases h
              exact List.prefix_rfl

namespace ChatRoom

variable {sha256 : Bytes → Bytes32} {members : ConnId → Participant P prost} {checks : Bool}
  {r r' : ChatRoom Sec Key} {event : RoomEvent Sec} {events : List (RoomEvent Sec)}
  {room : Room} {hostNoisePubkey : Bytes}

variable (members) in
/-- **What is received at one end of a connection has been sent at the other**, in order from the first one on,
and the host takes the members for who they are. -/
structure Coupled (events : List (RoomEvent Sec)) (r : ChatRoom Sec Key) : Prop where
  fresh : r.host.Fresh
  announced : r.host.Announced prost.protoCodec
  claims : ∀ c claim, (r.host.tasks c).claim = some claim →
    claim = ((members c).fingerprint, (members c).displayAlias)
  uplink : ∀ c, r.host.received c <+: r.sentBy c
  downlink : ∀ c, (eventsOf c events).filterMap ChatLoop.frameOf <+: r.host.written c
  taken : ∀ c, r.taken c = ((eventsOf c events).filterMap ChatLoop.frameOf).length

theorem coupled_start : Coupled members [] (start members room hostNoisePubkey) where
  fresh := fun _ _ => rfl
  announced := announced_start prost.protoCodec room hostNoisePubkey
  claims := by
    intro c claim h
    cases h
  uplink := fun _ => List.nil_prefix
  downlink := fun _ => List.nil_prefix
  taken := fun _ => rfl

theorem eventsOf_append (c : ConnId) (events : List (RoomEvent Sec)) (event : RoomEvent Sec) :
    eventsOf c (events ++ [event]) = eventsOf c events ++ (eventOf c event).toList := by
  unfold eventsOf
  rw [List.filterMap_append]
  cases h : eventOf c event with
  | none => rw [List.filterMap_cons_none h]; rfl
  | some event' => rw [List.filterMap_cons_some h]; rfl

/-- A step of the host keeps the ends together. -/
theorem Coupled.host {label : Label} {host : HostListener} (hr : Coupled members events r)
    (hstep : HostListener.step ⟨prost.protoCodec, sha256⟩ r.host label = some host)
    (hreply : ∀ c reply, label = .authenticate c (.respond (some reply)) → reply = (members c).response)
    (hreceive : ∀ c frame, label = .client c (.receive frame) →
      (r.sentBy c)[(r.host.received c).length]? = some frame) :
    Coupled members (events ++ [.host label]) { r with host := host } := by
  have h := stepped_of_step hstep
  have hevents : ∀ c, eventsOf c (events ++ [RoomEvent.host label]) = eventsOf c events := by
    intro c
    rw [eventsOf_append]
    exact List.append_nil _
  refine ⟨fresh_step hr.fresh h, announced_step hr.fresh hr.announced h, ?_, ?_, ?_, ?_⟩
  · intro c claim hclaim
    rcases claim_step hr.fresh hstep hclaim with hold | ⟨reply, hlabel, hread⟩
    · exact hr.claims c claim hold
    · -- a new claim is the one in the member's own response
      rw [hreply c reply hlabel, (members c).readAuthResponse_response] at hread
      exact (Except.ok.inj hread).symm
  · intro c
    rcases received_cases hr.fresh h c with hold | ⟨frame, hlabel, hnext⟩
    · exact hold.trans (hr.uplink c)
    · show host.received c <+: r.sentBy c
      rw [hnext]
      exact Runs.isPrefix_concat (hr.uplink c) (hreceive c frame hlabel)
  · intro c
    rw [hevents]
    exact (hr.downlink c).trans (written_grows hr.fresh hr.announced h c)
  · intro c
    rw [hevents]
    exact hr.taken c

/-- A round of a loop keeps the ends together. -/
theorem Coupled.member {c : ConnId} {event : LoopEvent Sec} {l : LoopState Sec Key}
    (hr : Coupled members events r) (hstep : (members c).loop.step checks (r.loops c) event = some l)
    (htake : ∀ frame, ChatLoop.frameOf event = some frame → (r.host.written c)[r.taken c]? = some frame) :
    Coupled members (events ++ [.member c event])
      { r with
        loops := Function.update r.loops c l
        taken := Function.update r.taken c (r.taken c + (ChatLoop.frameOf event).toList.length) } := by
  have hself : eventsOf c (events ++ [RoomEvent.member c event]) = eventsOf c events ++ [event] := by
    rw [eventsOf_append, eventOf, if_pos rfl, Option.toList_some]
  have hother : ∀ d, d ≠ c → eventsOf d (events ++ [RoomEvent.member c event]) = eventsOf d events := by
    intro d hdc
    rw [eventsOf_append, eventOf, if_neg (Ne.symm hdc)]
    exact List.append_nil _
  have hframes : (eventsOf c events ++ [event]).filterMap ChatLoop.frameOf =
      (eventsOf c events).filterMap ChatLoop.frameOf ++ (ChatLoop.frameOf event).toList := by
    rw [List.filterMap_append]
    cases hframe : ChatLoop.frameOf event with
    | none => rw [List.filterMap_cons_none hframe]; rfl
    | some frame => rw [List.filterMap_cons_some hframe]; rfl
  refine ⟨hr.fresh, hr.announced, hr.claims, ?_, ?_, ?_⟩
  · intro d
    unfold sentBy
    dsimp only
    by_cases hdc : d = c
    · subst hdc
      rw [Function.update_self]
      exact (hr.uplink d).trans ((ChatLoop.sent_grows hstep).map Prod.snd)
    · rw [Function.update_of_ne hdc]
      exact hr.uplink d
  · intro d
    by_cases hdc : d = c
    · subst hdc
      rw [hself, hframes]
      cases hframe : ChatLoop.frameOf event with
      | none =>
          rw [Option.toList_none, List.append_nil]
          exact hr.downlink d
      | some frame =>
          refine Runs.isPrefix_concat (hr.downlink d) ?_
          rw [← hr.taken d]
          exact htake frame hframe
    · rw [hother d hdc]
      exact hr.downlink d
  · intro d
    dsimp only
    by_cases hdc : d = c
    · subst hdc
      rw [Function.update_self, hself, hframes, List.length_append, hr.taken d]
    · rw [Function.update_of_ne hdc, hother d hdc]
      exact hr.taken d

/-- **Every run keeps the ends together.** -/
theorem coupled_run
    (hrun : Runs.run (step sha256 members checks) (start members room hostNoisePubkey) events = some r) :
    Coupled members events r := by
  refine Runs.history_induction ?_ coupled_start hrun
  intro before r₀ event r₁ after _ hstep _ hr
  cases steps_of_step hstep with
  | host label host hhost hreply hreceive => exact hr.host hhost hreply hreceive
  | member c event l hloop htake => exact hr.member hloop htake

/-! ### Where the frames come from -/

theorem Coupled.client (hr : Coupled members events r) {c : ConnId} {k : Client}
    (hc : r.host.tasks c = .client k) :
    k.fingerprint = (members c).fingerprint ∧ k.displayAlias = (members c).displayAlias := by
  have hclaim : (r.host.tasks c).claim = some (k.fingerprint, k.displayAlias) := by
    rw [hc]
    rfl
  exact Prod.mk.inj (hr.claims c _ hclaim)

/-- A frame that a loop has received has been written by the task of its connection. -/
theorem Coupled.mem_sent (hr : Coupled members events r) {d : ConnId} {frame : Frame}
    (hframe : frame ∈ (eventsOf d events).filterMap ChatLoop.frameOf) :
    ∃ kd, r.host.tasks d = .client kd ∧ ∃ f ∈ kd.sent, f.frame = frame := by
  have hwritten := (hr.downlink d).subset hframe
  by_cases hclient : ∃ kd, r.host.tasks d = .client kd
  · obtain ⟨kd, hkd⟩ := hclient
    rw [written_of_client hkd] at hwritten
    exact ⟨kd, hkd, List.mem_map.1 hwritten⟩
  · rw [written_of_not_client (not_exists.1 hclient)] at hwritten
    cases hwritten

end ChatRoom

/-- The frame of a message has its type. -/
theorem ChatLoop.messageType_of_readMessage {loop : ChatLoop P} {frame : Frame} {m : RoomMessage}
    (h : loop.readMessage frame = some m) : frame.messageType = MessageType.roomMessage := by
  unfold readMessage at h
  split at h
  · next hdecode => exact WireMessage.messageType_of_protoDecode loop.prost hdecode
  · cases h

/-- The frame of a notice has its type. -/
theorem ChatLoop.messageType_of_readPeer {loop : ChatLoop P} {frame : Frame} {p : PeerReady}
    (h : loop.readPeer frame = some p) : frame.messageType = MessageType.peerReady := by
  unfold readPeer ProtoCodec.readPeerReady at h
  split at h
  · next htype => exact htype
  · cases h

namespace ChatRoom

variable {sha256 : Bytes → Bytes32} {members : ConnId → Participant P prost} {checks : Bool}
  {r r' : ChatRoom Sec Key} {event : RoomEvent Sec} {events : List (RoomEvent Sec)}
  {room : Room} {hostNoisePubkey : Bytes}

/-- What the host writes of its own is no message. -/
theorem Coupled.relayed_of_message (hr : Coupled members events r) {d : ConnId} {kd : Client}
    (hd : r.host.tasks d = .client kd) {f : Sent} (hf : f ∈ kd.sent)
    (htype : f.frame.messageType = MessageType.roomMessage) : ∃ relayed, f = .relayed relayed := by
  cases f with
  | relayed r => exact ⟨r, rfl⟩
  | own frame =>
      rcases hr.announced.written d kd hd frame hf with rfl | ⟨p, -, rfl⟩
      · exact absurd htype (by decide)
      · have hne : MessageType.peerReady ≠ MessageType.roomMessage := by decide
        exact absurd htype hne

/-- **A frame that has been relayed** is one that a member of another fingerprint has sent. -/
theorem Coupled.sent_of_relayed (hr : Coupled members events r) (hrelaying : r.host.Relaying) {d : ConnId}
    {kd : Client} (hd : r.host.tasks d = .client kd) {relayed : Relayed} (hf : .relayed relayed ∈ kd.sent) :
    ∃ k, r.host.tasks relayed.origin = .client k ∧
      (members relayed.origin).fingerprint ≠ (members d).fingerprint ∧
      relayed.frame ∈ r.sentBy relayed.origin ∧ relayed.frame.messageType = MessageType.roomMessage := by
  have hmem : relayed ∈ kd.relayed := List.mem_append_left _ (List.mem_filterMap.2 ⟨_, hf, rfl⟩)
  obtain ⟨k, hk, -, hne, hreceived, htype⟩ := hrelaying.origin d kd hd relayed hmem
  have huplink := hr.uplink relayed.origin
  rw [received_of_client hk] at huplink
  refine ⟨k, hk, ?_, huplink.subset (List.mem_of_getElem? hreceived), htype⟩
  rwa [← (hr.client hk).1, ← (hr.client hd).1]

/-- What a loop has sent is read by the others. -/
theorem readMessage_sent {c d : ConnId} {events : List (LoopEvent Sec)} {s : LoopState Sec Key}
    (hprogress : (members c).loop.Progress events s) {out : RoomMessage × Frame} (hout : out ∈ s.sent) :
    (members d).loop.readMessage out.2 = some out.1 := by
  refine ChatLoop.readMessage_protoEncode ?_
  rw [(members d).codec, ← (members c).codec]
  exact (hprogress.frames out hout).2

/-- **A message that has been relayed** has been sent by a member of another fingerprint. -/
theorem Coupled.message_of_relayed (hr : Coupled members events r) (hrelaying : r.host.Relaying)
    (hprogress : ∀ c, (members c).loop.Progress (eventsOf c events) (r.loops c)) {d : ConnId} {kd : Client}
    (hd : r.host.tasks d = .client kd) {relayed : Relayed} (hf : .relayed relayed ∈ kd.sent) {m : RoomMessage}
    (hread : (members d).loop.readMessage relayed.frame = some m) :
    r.Present relayed.origin ∧ (members relayed.origin).fingerprint ≠ (members d).fingerprint ∧
      ∃ out ∈ (r.loops relayed.origin).sent, out.1 = m := by
  obtain ⟨k, hk, hne, hsent, -⟩ := hr.sent_of_relayed hrelaying hd hf
  obtain ⟨out, hout, hout'⟩ := List.mem_map.1 hsent
  have hread' := readMessage_sent (d := d) (hprogress relayed.origin) hout
  rw [hout'] at hread'
  exact ⟨⟨k, hk⟩, hne, out, hout, Option.some_inj.1 (hread'.symm.trans hread)⟩

/-- **A message that is heard** has been sent by a member of another fingerprint. -/
theorem Coupled.sent_of_heard (hr : Coupled members events r) (hrelaying : r.host.Relaying)
    (hprogress : ∀ c, (members c).loop.Progress (eventsOf c events) (r.loops c)) {d : ConnId}
    {m : RoomMessage} (hm : m ∈ (members d).loop.heard (eventsOf d events)) :
    ∃ c, r.Present c ∧ (members c).fingerprint ≠ (members d).fingerprint ∧
      ∃ out ∈ (r.loops c).sent, out.1 = m := by
  obtain ⟨frame, hframe, hread⟩ := List.mem_filterMap.1 hm
  obtain ⟨kd, hkd, f, hf, rfl⟩ := hr.mem_sent hframe
  obtain ⟨relayed, rfl⟩ := hr.relayed_of_message hkd hf (ChatLoop.messageType_of_readMessage hread)
  exact ⟨relayed.origin, hr.message_of_relayed hrelaying hprogress hkd hf hread⟩

/-- **Whoever is announced to a loop is a member**, under its own alias. -/
theorem Coupled.member_of_peer (hr : Coupled members events r) (hrelaying : r.host.Relaying) {d : ConnId}
    {p : PeerReady} (hp : p ∈ (eventsOf d events).filterMap (members d).loop.peerOf) :
    ∃ c, r.Present c ∧ (members c).fingerprint.hex = p.fingerprint ∧
      (members c).displayAlias = p.displayAlias := by
  obtain ⟨event, hevent, hpeer⟩ := List.mem_filterMap.1 hp
  have hreceived : ∃ frame, ChatLoop.frameOf event = some frame ∧
      (members d).loop.readPeer frame = some p := by
    cases event with
    | received result rng =>
        cases result with
        | error e => cases hpeer
        | ok frame => exact ⟨frame, rfl, hpeer⟩
    | _ => cases hpeer
  obtain ⟨frame, hframe, hread⟩ := hreceived
  obtain ⟨kd, hkd, f, hf, rfl⟩ := hr.mem_sent (List.mem_filterMap.2 ⟨event, hevent, hframe⟩)
  have htype := ChatLoop.messageType_of_readPeer hread
  cases f with
  | relayed relayed =>
      -- the host relays messages only, so no member can send a notice to another
      obtain ⟨k, -, -, -, hroom⟩ := hr.sent_of_relayed hrelaying hkd hf
      cases hroom.symm.trans htype
  | own frame =>
      rcases hr.announced.written d kd hkd frame hf with rfl | ⟨p', hp', rfl⟩
      · exact absurd htype (by decide)
      · have hsame : (members d).loop.readPeer (prost.protoCodec.peerReadyFrame p') = some p' := by
          unfold ChatLoop.readPeer
          rw [(members d).codec]
          exact ProtoCodec.readPeerReady_peerReadyFrame _ p'
        obtain rfl := Option.some_inj.1 (hsame.symm.trans hread)
        obtain ⟨c, k, hk, -, hfp, halias⟩ := hp'
        rw [(hr.client hk).1] at hfp
        rw [(hr.client hk).2] at halias
        exact ⟨c, ⟨k, hk⟩, hfp, halias⟩

/-! ### Lines in the clear -/

/-- The lines that a member has entered. -/
def lines (c : ConnId) (events : List (RoomEvent Sec)) : List String :=
  (entered (keysOf (eventsOf c events))).filter fun text => IsMessage text

/-- What has been entered stays. -/
theorem lines_append_subset (c : ConnId) (events : List (RoomEvent Sec)) (event : RoomEvent Sec) :
    lines c events ⊆ lines c (events ++ [event]) := by
  intro text htext
  unfold lines at htext ⊢
  rw [eventsOf_append]
  cases heventOf : eventOf c event with
  | none => rwa [Option.toList_none, List.append_nil]
  | some event' =>
      rw [Option.toList_some, ChatLoop.keysOf_append]
      cases event'.keyEvent with
      | none => rwa [Option.toList_none, List.append_nil]
      | some key =>
          unfold entered at htext ⊢
          rw [Option.toList_some, Histories.collect_append_singleton, List.filter_append]
          exact List.mem_append_left _ htext

variable (members) in
/-- **No line of anybody is taken for an initial message.** -/
def Plain (events : List (RoomEvent Sec)) : Prop :=
  ∀ c, ∀ text ∈ lines c events, ∀ d, (members d).loop.parse (asBytes text) = none

variable (members) in
/-- No member has received an initial message. -/
def Clear (events : List (RoomEvent Sec)) : Prop :=
  ∀ d, ∀ m ∈ (members d).loop.heard (eventsOf d events), (members d).loop.parse m.ciphertext = none

/-- **In a room without initial messages**, nobody has a session, and the messages are shown as they are. -/
theorem Clear.calls (h : Clear members events) (c : ConnId) :
    sessionAfter (members c).loop.parse (members c).loop.e2eKeys
        ((members c).loop.callsOf (eventsOf c events)) = none ∧
      (members c).loop.textsOf ((members c).loop.callsOf (eventsOf c events)) =
        ((members c).loop.heard (eventsOf c events)).map ChatLoop.clearText := by
  have hparse := h c
  rw [← ChatLoop.messages_callsOf] at hparse ⊢
  exact ChatLoop.clear_of_parse hparse

/-- A member has sent its lines as they are. -/
theorem Clear.contents {c : ConnId} {s : LoopState Sec Key} (h : Clear members events)
    (hprogress : (members c).loop.Progress (eventsOf c events) s) :
    s.sent.map (fun out => ChatLoop.content out.1) =
      (lines c events).map fun text => (asBytes text, none) := by
  rw [hprogress.contents, ChatLoop.contentsOf_of_none (h.calls c).1, ChatLoop.lines_callsOf]
  rfl

/-- What a member has sent is one of its lines. -/
theorem Clear.line {c : ConnId} {s : LoopState Sec Key} (h : Clear members events)
    (hprogress : (members c).loop.Progress (eventsOf c events) s) {out : RoomMessage × Frame}
    (hout : out ∈ s.sent) : ∃ text ∈ lines c events, out.1.ciphertext = asBytes text := by
  have hmem : ChatLoop.content out.1 ∈
      (lines c events).map fun text => (asBytes text, (none : Option RatchetHeader)) :=
    h.contents hprogress ▸ List.mem_map_of_mem hout
  obtain ⟨text, htext, hcontent⟩ := List.mem_map.1 hmem
  exact ⟨text, htext, (congrArg Prod.fst hcontent).symm⟩

/-- A loop hears something new in a round of its own only. -/
theorem heard_eventsOf_append (d : ConnId) (events : List (RoomEvent Sec)) (event : RoomEvent Sec)
    {m : RoomMessage} (hm : m ∈ (members d).loop.heard (eventsOf d (events ++ [event]))) :
    m ∈ (members d).loop.heard (eventsOf d events) ∨ ∃ event', event = .member d event' := by
  by_cases hevent : ∃ event', event = .member d event'
  · exact Or.inr hevent
  · have hnone : eventOf d event = none := by
      cases event with
      | host label => rfl
      | member c event' =>
          refine if_neg ?_
          rintro rfl
          exact hevent ⟨event', rfl⟩
    rw [eventsOf_append, hnone, Option.toList_none, List.append_nil] at hm
    exact Or.inl hm

theorem progress_member
    (hrun : Runs.run (step sha256 members checks) (start members room hostNoisePubkey) events = some r)
    (c : ConnId) : (members c).loop.Progress (eventsOf c events) (r.loops c) :=
  ChatLoop.progress_run (member_run hrun c)

theorem relaying_host
    (hrun : Runs.run (step sha256 members checks) (start members room hostNoisePubkey) events = some r) :
    r.host.Relaying :=
  (sound_of_run (host_run hrun)).toRelaying

/-- **Where no line is taken for an initial message, nobody receives one.** -/
theorem clear_run
    (hrun : Runs.run (step sha256 members checks) (start members room hostNoisePubkey) events = some r)
    (hplain : Plain members events) : Clear members events := by
  induction events using List.reverseRecOn generalizing r with
  | nil =>
      intro d m hm
      cases hm
  | append_singleton before event ih =>
      obtain ⟨r₀, hbefore, -⟩ := Runs.run_append_eq_some.1 hrun
      have hclear : Clear members before :=
        ih hbefore fun c text htext => hplain c text (lines_append_subset c before event htext)
      intro d m hm
      rcases heard_eventsOf_append d before event hm with hold | ⟨event', rfl⟩
      · exact hclear d m hold
      · -- the sender is another member, whose loop is where it was
        obtain ⟨c, -, hne, out, hout, rfl⟩ :=
          (coupled_run hrun).sent_of_heard (relaying_host hrun) (progress_member hrun) hm
        have hdc : d ≠ c := fun hdc => hne (hdc ▸ rfl)
        have hevents : eventsOf c (before ++ [RoomEvent.member d event']) = eventsOf c before := by
          rw [eventsOf_append, eventOf, if_neg hdc]
          exact List.append_nil _
        have hprogress := progress_member hrun c
        rw [hevents] at hprogress
        obtain ⟨text, htext, hcipher⟩ := hclear.line hprogress hout
        rw [hcipher]
        exact hplain c text (lines_append_subset c before _ htext) d

/-! ### Who has said what -/

variable (members) in
/-- **The names under which a member may be shown**: the beginning of its fingerprint, and the aliases that are
claimed with it. -/
def MayBeNamed (r : ChatRoom Sec Key) (c : ConnId) (name : String) : Prop :=
  short (members c).fingerprint.hex = some name ∨
    ∃ c', r.Present c' ∧ (members c').fingerprint = (members c).fingerprint ∧
      (members c').displayAlias = name

/-- **An entry on a screen** is a line of another member, under a name of this member. -/
theorem entry_attributed
    (hrun : Runs.run (step sha256 members checks) (start members room hostNoisePubkey) events = some r)
    (hclear : Clear members events) {d : ConnId} {name text : String}
    (hentry : (name, text) ∈ ChatLoop.entries (r.loops d).draws) :
    ∃ c, r.Present c ∧ (members c).fingerprint ≠ (members d).fingerprint ∧ text ∈ lines c events ∧
      MayBeNamed members r c name := by
  have hr := coupled_run hrun
  have hrelaying := relaying_host hrun
  obtain ⟨m, hm, rfl, hname⟩ := (ChatLoop.entries_run (member_run hrun d)).entry (hclear d) hentry
  obtain ⟨c, hc, hne, out, hout, rfl⟩ := hr.sent_of_heard hrelaying (progress_member hrun) hm
  obtain ⟨text, htext, hcipher⟩ := hclear.line (progress_member hrun c) hout
  have hsender : out.1.senderFingerprint = (members c).fingerprint.hex :=
    ((progress_member hrun c).frames out hout).1.trans (members c).named
  have htext' : ChatLoop.clearText out.1 = text := by
    unfold ChatLoop.clearText
    rw [hcipher, fromUtf8Lossy_asBytes]
  refine ⟨c, hc, hne, htext' ▸ htext, ?_⟩
  rw [hsender] at hname
  rcases hname with hshort | hown | ⟨p, hp, hfp, halias⟩
  · exact Or.inl hshort
  · exact absurd (Fingerprint.eq_of_hex (hown.trans (members d).named)) hne
  · obtain ⟨c', hc', hhex, halias'⟩ := hr.member_of_peer hrelaying hp
    exact Or.inr ⟨c', hc', Fingerprint.eq_of_hex (hhex.trans hfp), halias'.trans halias⟩

end ChatRoom

/-- The frames of a kind are among those from a connection, if all of the kind have been relayed from there. -/
theorem Client.filter_sublist_writtenFrom {k : Client} {c : ConnId} {p : Frame → Bool}
    (h : ∀ f ∈ k.sent, p f.frame = true → ∃ relayed, f = .relayed relayed ∧ relayed.origin = c) :
    ((k.sent.map Sent.frame).filter p).Sublist (k.writtenFrom c) := by
  unfold writtenFrom
  generalize k.sent = sent at h ⊢
  induction sent with
  | nil => exact List.Sublist.refl _
  | cons f sent ih =>
      have htail := ih fun f' hf' => h f' (List.mem_cons_of_mem f hf')
      rw [List.map_cons]
      by_cases hp : p f.frame = true
      · obtain ⟨relayed, rfl, horigin⟩ := h f List.mem_cons_self hp
        have hrelayed : Sent.relayed? (.relayed relayed) = some relayed := rfl
        rw [List.filter_cons_of_pos hp, List.filterMap_cons_some hrelayed, List.filter_cons,
          if_pos (decide_eq_true horigin), List.map_cons]
        exact htail.cons_cons _
      · rw [List.filter_cons_of_neg hp]
        refine htail.trans ?_
        exact (((List.sublist_cons_self f sent).filterMap Sent.relayed?).filter _).map Relayed.frame

namespace ChatRoom

variable {sha256 : Bytes → Bytes32} {members : ConnId → Participant P prost} {checks : Bool}
  {r r' : ChatRoom Sec Key} {event : RoomEvent Sec} {events : List (RoomEvent Sec)}
  {room : Room} {hostNoisePubkey : Bytes}

/-- **The frames with the messages of a member** are among those that its loop has sent, in order, if nobody
else has its fingerprint. -/
theorem framesFrom_sublist
    (hrun : Runs.run (step sha256 members checks) (start members room hostNoisePubkey) events = some r)
    {c : ConnId} (hc : r.Present c)
    (halone : ∀ c', r.Present c' → (members c').fingerprint = (members c).fingerprint → c' = c) (d : ConnId) :
    ((members d).loop.framesFrom (members c).fingerprint.hex (eventsOf d events)).Sublist (r.sentBy c) := by
  have hr := coupled_run hrun
  have hrelaying := relaying_host hrun
  obtain ⟨k, hk⟩ := hc
  have hframes := (hr.downlink d).sublist
  by_cases hclient : ∃ kd, r.host.tasks d = .client kd
  · obtain ⟨kd, hkd⟩ := hclient
    rw [written_of_client hkd] at hframes
    have huplink := (hr.uplink c).sublist
    rw [received_of_client hk] at huplink
    refine (hframes.filter _).trans
      ((Client.filter_sublist_writtenFrom ?_).trans ((writtenFrom_sublist hrelaying hk hkd).trans huplink))
    intro f hf hkind
    obtain ⟨m, hread, hfp⟩ := (Option.any_eq_true _ _).1 hkind
    obtain ⟨relayed, rfl⟩ := hr.relayed_of_message hkd hf (ChatLoop.messageType_of_readMessage hread)
    obtain ⟨horigin, -, out, hout, rfl⟩ :=
      hr.message_of_relayed hrelaying (progress_member hrun) hkd hf hread
    have hsender : out.1.senderFingerprint = (members relayed.origin).fingerprint.hex :=
      ((progress_member hrun relayed.origin).frames out hout).1.trans (members relayed.origin).named
    -- the message names the fingerprint of the connection that it has come from
    have hsame := Fingerprint.eq_of_hex (hsender.symm.trans (of_decide_eq_true hfp))
    exact ⟨relayed, rfl, halone relayed.origin horigin hsame⟩
  · rw [written_of_not_client (not_exists.1 hclient), List.sublist_nil] at hframes
    unfold ChatLoop.framesFrom
    rw [hframes]
    exact List.nil_sublist _

/-- **What is on a screen has been entered by the one it is attributed to.**  Everybody runs the program, and
no line is taken for an initial message.  Then each entry on the screen of a member is a line of another one,
under the beginning of the fingerprint of this one or an alias that has been claimed with it.  The texts are
those of the messages that are received, each of them; and those of a fingerprint that only one connection has
are lines that have been entered there, in this order and each once. -/
theorem lines_attributed
    (hrun : Runs.run (step sha256 members checks) (start members room hostNoisePubkey) events = some r)
    (hplain : Plain members events) (d : ConnId) :
    (∀ name text, (name, text) ∈ ChatLoop.entries (r.loops d).draws →
      ∃ c, r.Present c ∧ (members c).fingerprint ≠ (members d).fingerprint ∧ text ∈ lines c events ∧
        MayBeNamed members r c name) ∧
      (ChatLoop.entries (r.loops d).draws).map Prod.snd =
        ((members d).loop.heard (eventsOf d events)).map ChatLoop.clearText ∧
      ∀ c, r.Present c →
        (∀ c', r.Present c' → (members c').fingerprint = (members c).fingerprint → c' = c) →
        ((members d).textsFrom (members c).fingerprint (eventsOf d events)).Sublist (lines c events) := by
  have hclear := clear_run hrun hplain
  refine ⟨?_, ?_, ?_⟩
  · intro name text hentry
    exact entry_attributed hrun hclear hentry
  · rw [ChatLoop.entries_map_snd, (ChatLoop.shown_run (member_run hrun d)).texts, (hclear.calls d).2]
  · intro c hc halone
    have hframes := framesFrom_sublist hrun hc halone d
    have hsession : (r.loops c).chat.e2eSession = none :=
      (progress_member hrun c).session.trans (hclear.calls c).1
    have hcodec : (members d).loop.prost = (members c).loop.prost :=
      (members d).codec.trans (members c).codec.symm
    have htexts := ChatLoop.texts_of_sent (member_run hrun c) hsession hcodec (r.loops c).sent.length
    rw [List.take_of_length_le (List.length_map _).le] at htexts
    unfold Participant.textsFrom
    rw [ChatLoop.heard_filter]
    refine ((hframes.filterMap (members d).loop.readMessage).map ChatLoop.clearText).trans ?_
    exact htexts ▸ List.take_sublist _ (lines c events)

/-- A member of the test room that calls itself by the end of its fingerprint. -/
def testNamed (suffix : String)
    (h : Fingerprint.new (HostService.testFp suffix).hex = .ok (HostService.testFp suffix)) :
    Participant EarlyLine.primitives .wire where
  fingerprint := HostService.testFp suffix
  displayAlias := suffix
  loop := { ChatLoop.testLoop with fpStr := (HostService.testFp suffix).hex }
  wellFormed := Fingerprint.wellFormed_of_new h
  named := rfl
  codec := rfl

def testMembers (c : ConnId) : Participant EarlyLine.primitives .wire :=
  if c = 1 then testNamed "AA" (by decide) else testNamed "BB" (by decide)

/-- The frame of the line that the first member enters. -/
def testSpoken : Frame where
  messageType := MessageType.roomMessage
  payload := Prost.wire.roomMessage.encode ((testMembers 1).loop.messageFor 1 7 (asBytes "hi", none))

/-- Both join, the first one enters a line, and the second one is told of the first one and receives it. -/
def testSaid : List (RoomEvent Bytes32) :=
  testBoth.map RoomEvent.host ++ [.member 1 (.key (some (.line "hi")) 7 (.ok ()))] ++
    (testRelay 1 testSpoken ["BB"] ++ [Label.client 2 (.takeOut true)]).map RoomEvent.host ++
    [.member 2 (.received (.ok (Prost.wire.protoCodec.peerReadyFrame ⟨(testMembers 1).fingerprint.hex, "AA"⟩))
        (EarlyLine.key32 0)),
      .member 2 (.received (.ok testSpoken) (EarlyLine.key32 0))]

theorem eventsOf_map_host (c : ConnId) (labels : List Label) :
    eventsOf c (labels.map (RoomEvent.host : Label → RoomEvent Bytes32)) = [] := by
  unfold eventsOf
  rw [List.filterMap_map, List.filterMap_eq_nil_iff]
  intro label _
  rfl

/-- Nothing else is entered. -/
theorem lines_testSaid (c : ConnId) : lines c testSaid ⊆ ["hi"] := by
  have hevents : keysOf (eventsOf c testSaid) = if c = 1 then [.line "hi"] else [] := by
    have happend : ∀ xs ys : List (RoomEvent Bytes32),
        eventsOf c (xs ++ ys) = eventsOf c xs ++ eventsOf c ys :=
      fun xs ys => List.filterMap_append
    unfold testSaid
    rw [happend, happend, happend, eventsOf_map_host, eventsOf_map_host]
    by_cases h1 : c = 1
    · subst h1
      rfl
    · by_cases h2 : c = 2
      · subst h2
        rfl
      · simp [eventsOf, eventOf, keysOf, h1, Ne.symm h1, Ne.symm h2]
  unfold lines
  rw [hevents]
  split_ifs
  · decide
  · decide

theorem lines_attributed_testSaid : ∃ r,
    Runs.run (step testCrates.sha256 testMembers true) (start testMembers HostService.testRoom [])
        testSaid = some r ∧
      ChatLoop.entries (r.loops 2).draws = [("AA", "hi")] ∧
      ∃ c, r.Present c ∧ (testMembers c).fingerprint ≠ (testMembers 2).fingerprint ∧
        "hi" ∈ lines c testSaid ∧ MayBeNamed testMembers r c "AA" := by
  have heval : ((Runs.run (step testCrates.sha256 testMembers true)
      (start testMembers HostService.testRoom []) testSaid).map fun r => ChatLoop.entries (r.loops 2).draws) =
        some [("AA", "hi")] := by
    decide +kernel
  obtain ⟨r, hrun, hentries⟩ := Option.map_eq_some_iff.1 heval
  have hplain : Plain testMembers testSaid := by
    intro c text htext d
    obtain rfl := List.mem_singleton.1 (lines_testSaid c htext)
    unfold testMembers
    split_ifs
    · decide
    · decide
  have hentry : ("AA", "hi") ∈ ChatLoop.entries (r.loops 2).draws :=
    hentries ▸ List.mem_singleton_self _
  exact ⟨r, hrun, hentries, (lines_attributed hrun hplain 2).1 "AA" "hi" hentry⟩

end ChatRoom

end Sanctum
