/-
The render loop of a chat session.

Any task that has the event sender may emit events at any time; the loop takes them from a broadcast channel
and passes them on to the user interface.  The channel is a parameter, and what every such channel does is all
that is used of it.  If the loop falls behind, it says how many events it has skipped.  So after any run the
interface has been told of all events up to the place of the loop, in order, each one either shown, or left
out by its kind, or counted in a line about skipped events.

Main definitions:

* `Sanctum.ChatEvent`, `Sanctum.UiCall` — events, and the calls of the user interface;
* `Sanctum.SessionConfig.handleChatEvent` — **the call for an event**;
* `Sanctum.ChatSession`, `Sanctum.ChatSession.step` — the session, step by step.

Main results:

* `Sanctum.ChatSession.Accounted.step` — a step keeps the account of the events;
* `Sanctum.ChatSession.render_accounts` — **no event is missed in silence**, and none at all as long as the
  loop keeps up.
-/

import Sanctum.Broadcast
import Sanctum.HostService
import Sanctum.Runs

set_option relaxedAutoImplicit false
set_option autoImplicit false

namespace Sanctum

open Broadcast (Outcome Accounts Channel)

/-! ### Events and calls -/

/-- Interactive chat session events. -/
inductive ChatEvent
  | incomingMessage (sender : Fingerprint) (senderDisplay content : String) (timestamp seq : UInt64)
  | outgoingMessage (content : String) (timestamp : UInt64)
  | peerJoining (fingerprint : Fingerprint) (display : String)
  | peerReady (fingerprint : Fingerprint) (display : String)
  | peerLeft (fingerprint : Fingerprint) (display : String)
  | peerRevoked (fingerprint : Fingerprint) (display : String)
  | connected (roomId : RoomId) (role : Role) (peerCount : ℕ)
  | disconnected (reason : String)
  | backlogStart (count : UInt32)
  | backlogEnd
  | ratchetReKeyed (peer : Fingerprint)
  | backlogPurged (count : UInt64)
  | torStatusChanged (connected : Bool)
  | protocolError (message : String)

/-- A call of the user interface. -/
inductive UiCall
  | printMessage (role sender content : String) (timestamp : UInt64)
  | printOwnMessage (role displayAlias content : String) (timestamp : UInt64)
  | printSystem (text : String)
  | printBacklogStart (count : UInt32)
  | printBacklogEnd
deriving DecidableEq

/-- What the loop uses of the configuration. -/
structure SessionConfig where
  roomName : String
  localAlias : String

namespace SessionConfig

variable (config : SessionConfig)

/-- **The call for an event**; some kinds of events are not shown. -/
def handleChatEvent : ChatEvent → Option UiCall
  | .incomingMessage _ senderDisplay content timestamp _ =>
    some (.printMessage "" senderDisplay content timestamp)
  | .outgoingMessage content timestamp =>
    some (.printOwnMessage "" config.localAlias content timestamp)
  | .peerJoining _ display => some (.printSystem ("── " ++ display ++ " joining (synchronizing...) ──"))
  | .peerReady _ display => some (.printSystem ("── " ++ display ++ " ready ──"))
  | .peerLeft _ display => some (.printSystem ("── " ++ display ++ " left ──"))
  | .peerRevoked _ display => some (.printSystem ("── " ++ display ++ " was revoked ──"))
  | .connected _ _ peerCount =>
    some (.printSystem ("Connected to " ++ config.roomName ++ " (" ++ toString peerCount ++ " peers)"))
  | .disconnected reason => some (.printSystem ("Disconnected: " ++ reason))
  | .backlogStart count => some (.printBacklogStart count)
  | .backlogEnd => some .printBacklogEnd
  | .protocolError message => some (.printSystem ("Protocol error: " ++ message))
  | .ratchetReKeyed _ => none
  | .backlogPurged _ => none
  | .torStatusChanged _ => none

/-- The call for what the receiver is told.  The channel is never closed, since the session has a sender
itself. -/
def render : Outcome ChatEvent → Option UiCall
  | .ok evt => config.handleChatEvent evt
  | .lagged n => some (.printSystem ("⚠ Skipped " ++ toString n ++ " events"))

end SessionConfig

/-! ### The session -/

/-- Where the render loop is: it has not been started, or it has come to `next` from the place `first` at
which it subscribed, and may have ended there. -/
inductive RenderLoop
  | idle
  | running (first next : ℕ)
  | ended (first next : ℕ)

/-- The places of a loop that has been started. -/
def RenderLoop.places : RenderLoop → Option (ℕ × ℕ)
  | .idle => none
  | .running first next => some (first, next)
  | .ended first next => some (first, next)

/-- **A chat session**, with everything that has been sent on its channel and every call of the interface,
oldest first. -/
structure ChatSession where
  config : SessionConfig
  channel : Channel ChatEvent
  sent : List ChatEvent
  shutdown : Bool
  loop : RenderLoop
  ui : List UiCall

namespace ChatSession

/-- A step: an event is emitted, a shutdown is requested, or the loop is started, takes what the receiver
is told, or sees the shutdown. -/
inductive Label
  | emit (event : ChatEvent)
  | requestShutdown
  | renderLoop
  | event
  | cancelled

/-- Create a new chat session, with its channel. -/
def new (config : SessionConfig) (channel : Channel ChatEvent) : ChatSession where
  config := config
  channel := channel
  sent := []
  shutdown := false
  loop := .idle
  ui := []

/-- **A step of the session.**  When both branches of the loop are ready, either may be taken. -/
def step (s : ChatSession) : Label → Option ChatSession
  | .emit event => some { s with sent := s.sent ++ [event] }
  | .requestShutdown => some { s with shutdown := true }
  | .renderLoop =>
    match s.loop with
    | .idle => some { s with loop := .running s.sent.length s.sent.length }
    | _ => none
  | .event =>
    match s.loop with
    | .running first next =>
      (s.channel.recv s.sent next).map fun told =>
        { s with
          loop := .running first told.2
          ui := s.ui ++ (s.config.render told.1).toList }
    | _ => none
  | .cancelled =>
    match s.loop with
    | .running first next => if s.shutdown then some { s with loop := .ended first next } else none
    | _ => none

/-- The events since the loop has been started, up to its place. -/
def events (s : ChatSession) (places : ℕ × ℕ) : List ChatEvent :=
  (s.sent.drop places.1).take (places.2 - places.1)

/-- **What the interface has been told accounts for the events**, and the loop has been told nothing but
what is allowed. -/
structure Rendered (Allowed : Outcome ChatEvent → Prop) (s : ChatSession) (places : ℕ × ℕ) : Prop where
  first : places.1 ≤ places.2
  next : places.2 ≤ s.sent.length
  accounts : ∃ outcomes, (∀ outcome ∈ outcomes, Allowed outcome) ∧
    s.ui = outcomes.filterMap s.config.render ∧ Accounts outcomes (s.events places)

/-- The events up to a place stay when more are sent. -/
theorem events_append {s : ChatSession} {places : ℕ × ℕ} (hfirst : places.1 ≤ places.2)
    (hnext : places.2 ≤ s.sent.length) (event : ChatEvent) :
    events { s with sent := s.sent ++ [event] } places = s.events places := by
  unfold events
  dsimp only
  rw [List.drop_append_of_le_length (hfirst.trans hnext), List.take_append_of_le_length]
  rw [List.length_drop]
  omega

variable {Allowed : Outcome ChatEvent → Prop} {s s' : ChatSession} {label : Label}

/-- What the loop takes accounts for the events up to its new place. -/
theorem Rendered.event {first next next' : ℕ} {outcome : Outcome ChatEvent}
    (h : s.Rendered Allowed (first, next)) (hallowed : Allowed outcome)
    (hrecv : s.channel.recv s.sent next = some (outcome, next')) :
    Rendered Allowed { s with
      loop := .running first next'
      ui := s.ui ++ (s.config.render outcome).toList } (first, next') := by
  obtain ⟨hfirst, hnext, outcomes, hall, hui, haccounts⟩ := h
  have hmono : next < next' := Channel.lt_of_recv hrecv
  refine ⟨hfirst.trans hmono.le, Channel.le_length_of_recv hrecv, outcomes ++ [outcome],
    List.forall_mem_append.2 ⟨hall, List.forall_mem_singleton.2 hallowed⟩, ?_, ?_⟩
  · rw [List.filterMap_append, hui]
    cases hrender : s.config.render outcome <;> simp [hrender]
  · -- the events up to the new place are those up to the old one and those between the two
    have hfirst' : first ≤ next := hfirst
    have hsplit : (s.sent.drop first).take (next' - first) =
        (s.sent.drop first).take (next - first) ++ (s.sent.drop next).take (next' - next) := by
      have hlength : next' - first = (next - first) + (next' - next) := by omega
      rw [hlength, List.take_add, List.drop_drop, Nat.add_sub_cancel' hfirst']
    unfold events at haccounts ⊢
    dsimp only at haccounts ⊢
    rw [hsplit]
    exact Channel.accounts haccounts hrecv

/-! ### Runs -/

/-- **What a step does.** -/
theorem step_cases (h : s.step label = some s') :
    (∃ event, s' = { s with sent := s.sent ++ [event] }) ∨
    s' = { s with shutdown := true } ∨
    (s.loop = .idle ∧ s' = { s with loop := .running s.sent.length s.sent.length }) ∨
    (∃ first next outcome next', s.loop = .running first next ∧
      s.channel.recv s.sent next = some (outcome, next') ∧ s' = { s with
        loop := .running first next'
        ui := s.ui ++ (s.config.render outcome).toList }) ∨
    (∃ first next, s.loop = .running first next ∧ s' = { s with loop := .ended first next }) := by
  cases label with
  | emit event => exact .inl ⟨event, (Option.some_inj.1 h).symm⟩
  | requestShutdown => exact .inr (.inl (Option.some_inj.1 h).symm)
  | renderLoop =>
      simp only [step] at h
      split at h
      · next hloop => exact .inr (.inr (.inl ⟨hloop, (Option.some_inj.1 h).symm⟩))
      · cases h
  | event =>
      simp only [step] at h
      split at h
      · next first next hloop =>
          obtain ⟨⟨outcome, next'⟩, hrecv, hs'⟩ := Option.map_eq_some_iff.1 h
          exact .inr (.inr (.inr (.inl ⟨first, next, outcome, next', hloop, hrecv, hs'.symm⟩)))
      · cases h
  | cancelled =>
      simp only [step] at h
      split at h
      · next first next hloop =>
          split at h
          · exact .inr (.inr (.inr (.inr ⟨first, next, hloop, (Option.some_inj.1 h).symm⟩)))
          · cases h
      · cases h

/-- The loop has not been started, and the interface has not been called; or the loop is at a place, and
the interface has been told of the events up to it. -/
structure Accounted (Allowed : Outcome ChatEvent → Prop) (s : ChatSession) : Prop where
  idle : s.loop.places = none → s.ui = []
  rendered : ∀ places, s.loop.places = some places → s.Rendered Allowed places

/-- The loop is told nothing but what is allowed. -/
def Hears (Allowed : Outcome ChatEvent → Prop) (s : ChatSession) : Prop :=
  ∀ first next told, s.loop = .running first next → s.channel.recv s.sent next = some told →
    Allowed told.1

/-- **A step keeps the account.** -/
theorem Accounted.step (h : s.Accounted Allowed) (hhears : s.Hears Allowed)
    (hs : s.step label = some s') : s'.Accounted Allowed := by
  rcases step_cases hs with ⟨event, rfl⟩ | rfl | ⟨hidle, rfl⟩ |
    ⟨first, next, outcome, next', hloop, hrecv, rfl⟩ | ⟨first, next, hloop, rfl⟩
  · refine ⟨h.idle, fun places hplaces => ?_⟩
    obtain ⟨hfirst, hnext, outcomes, hall, hui, haccounts⟩ := h.rendered places hplaces
    refine ⟨hfirst, ?_, outcomes, hall, hui, ?_⟩
    · exact hnext.trans (by simp)
    · rw [events_append hfirst hnext]
      exact haccounts
  · exact ⟨h.idle, fun places hplaces => ⟨(h.rendered places hplaces).first,
      (h.rendered places hplaces).next, (h.rendered places hplaces).accounts⟩⟩
  · refine ⟨fun hnone => absurd hnone (by simp [RenderLoop.places]), fun places hplaces => ?_⟩
    obtain rfl := Option.some_inj.1 hplaces
    refine ⟨le_rfl, le_rfl, [], fun _ h => absurd h List.not_mem_nil, ?_, ?_⟩
    · exact h.idle (by rw [hidle]; rfl)
    · unfold events
      rw [Nat.sub_self, List.take_zero]
      exact .nil
  · refine ⟨fun hnone => absurd hnone (by simp [RenderLoop.places]), fun places hplaces => ?_⟩
    obtain rfl := Option.some_inj.1 hplaces
    exact (h.rendered (first, next) (by rw [hloop]; rfl)).event (hhears first next _ hloop hrecv) hrecv
  · refine ⟨fun hnone => absurd hnone (by simp [RenderLoop.places]), fun places hplaces => ?_⟩
    obtain rfl := Option.some_inj.1 hplaces
    have hrendered := h.rendered (first, next) (by rw [hloop]; rfl)
    exact ⟨hrendered.first, hrendered.next, hrendered.accounts⟩

/-- The account after a run. -/
theorem accounted_run {labels : List Label} {Ok : ChatSession → Prop}
    (hok : ∀ t : ChatSession, Ok t → t.Hears Allowed) (hs : s.Accounted Allowed)
    (hmeets : Runs.Meets step (fun t _ => Ok t) s labels)
    (hrun : Runs.run step s labels = some s') : s'.Accounted Allowed :=
  Runs.meets_induction (fun _ _ _ h ht hs => h.step (hok _ ht) hs) hs hmeets hrun

theorem accounted_new (config : SessionConfig) (channel : Channel ChatEvent) :
    (new config channel).Accounted Allowed :=
  ⟨fun _ => rfl, fun _ h => absurd h (by simp [new, RenderLoop.places])⟩

/-- The loop is not further behind than the channel is long. -/
def KeepsUp (s : ChatSession) : Prop :=
  ∀ first next, s.loop = .running first next → s.sent.length ≤ next + s.channel.capacity

/-- A loop that keeps up hears of no event that has been lost. -/
theorem KeepsUp.hears (h : s.KeepsUp) : s.Hears fun outcome => ∃ a, outcome = .ok a := by
  intro first next told hloop hrecv
  exact Channel.ok_of_near (h first next hloop) hrecv

/-- **No event is missed in silence.**  In every run and at every place of the loop, what the interface has
been told is what was made of outcomes that account, in order, for all events since the loop was started:
an event is passed on, or counted among those skipped.  The loop waits only if there are no more events;
and if it is never further behind than the channel is long, then every event is passed on. -/
theorem render_accounts (config : SessionConfig) (channel : Channel ChatEvent)
    {labels : List Label} {s : ChatSession}
    (hrun : Runs.run step (new config channel) labels = some s) {places : ℕ × ℕ}
    (hplaces : s.loop.places = some places) :
    (∃ outcomes, s.ui = outcomes.filterMap s.config.render ∧ Accounts outcomes (s.events places)) ∧
    (s.loop = .running places.1 places.2 → (s.step .event = none ↔ places.2 = s.sent.length)) ∧
    (Runs.Meets step (fun t _ => t.KeepsUp) (new config channel) labels →
      s.ui = (s.events places).filterMap s.config.handleChatEvent) := by
  have haccounted : s.Accounted fun _ => True :=
    accounted_run (fun _ _ _ _ _ _ _ => trivial) (accounted_new config channel)
      (Runs.meets_of_forall fun _ _ _ => trivial) hrun
  refine ⟨?_, ?_, ?_⟩
  · obtain ⟨outcomes, -, hui, haccounts⟩ := (haccounted.rendered places hplaces).accounts
    exact ⟨outcomes, hui, haccounts⟩
  · intro hloop
    have hle := (haccounted.rendered places hplaces).next
    simp only [step, hloop, Option.map_eq_none_iff, s.channel.recv_eq_none_iff]
    exact ⟨fun hge => le_antisymm hle hge, fun heq => heq.ge⟩
  · intro hkeeps
    have haccounted := accounted_run (fun _ ht => ht.hears) (accounted_new config channel) hkeeps hrun
    obtain ⟨outcomes, hok, hui, haccounts⟩ := (haccounted.rendered places hplaces).accounts
    rw [hui, haccounts.eq_map_ok hok, List.filterMap_map]
    rfl

/-! ### A loop that falls behind -/

def testConfig : SessionConfig where
  roomName := "test-room"
  localAlias := "alice"

/-- A channel with room for one event. -/
def testChannel : Channel ChatEvent := .ring 1 Nat.one_pos

/-- Two events come before the loop takes one. -/
def testLabels : List Label :=
  [.renderLoop, .emit (.outgoingMessage "hello" 1700000000), .emit (.disconnected "bye"), .event, .event]

/-- The loop says that it has skipped an event, and shows the other one. -/
theorem render_accounts_testLabels : ∃ s, Runs.run step (new testConfig testChannel) testLabels = some s ∧
    s.ui = [.printSystem "⚠ Skipped 1 events", .printSystem "Disconnected: bye"] ∧
    ∃ outcomes, s.ui = outcomes.filterMap s.config.render ∧ Accounts outcomes (s.events (0, 2)) := by
  have hrun : Runs.run step (new testConfig testChannel) testLabels = some {
      config := testConfig
      channel := testChannel
      sent := [.outgoingMessage "hello" 1700000000, .disconnected "bye"]
      shutdown := false
      loop := .running 0 2
      ui := [.printSystem "⚠ Skipped 1 events", .printSystem "Disconnected: bye"] } := rfl
  exact ⟨_, hrun, rfl, (render_accounts testConfig testChannel hrun rfl).1⟩

end ChatSession

end Sanctum
