/-
Hidden services, at the controller and at Tor.

The controller remembers the service that `create_hidden_service` has returned, until it is destroyed.
Tor runs services of its own accord: it sees the bytes that are written to its control port, starts
a service for a whole `ADD_ONION`, and stops one for a whole `DEL_ONION` if it answers that it has.
The controller forgets the service before it writes `DEL_ONION`, and an answer other than 250 is only
logged; so a command that is cut off, or refused, leaves a service that runs and that nobody remembers.

Main definitions:

* `Sanctum.TorSession.serve` — what Tor runs after a call;
* `Sanctum.TorSession.step` — a call of the controller, with the connection and Tor around it;
* `Sanctum.TorSession.Remembered` — a created service that still runs is remembered;
* `Sanctum.TorSession.Acknowledged` — a call that takes down a running service gets through.

Main results:

* `Sanctum.TorSession.remembered_step_iff` — which calls keep the services remembered;
* `Sanctum.TorSession.remembered_iff` — **running services are remembered throughout exactly in the
  runs in which every `DEL_ONION` gets through and is acknowledged**.
-/

import Sanctum.Runs
import Sanctum.TorControl

set_option relaxedAutoImplicit false
set_option autoImplicit false

namespace Sanctum

namespace ControlStream

@[simp] theorem writeCmd_written (reader : ControlStream) (cmd : String) :
    (reader.writeCmd cmd).2.written = reader.written ++
      (asBytes cmd).take ((reader.writes.headD .ok).takes (asBytes cmd).length) := by
  unfold writeCmd
  dsimp only
  split
  · rfl
  · split <;> rfl

@[simp] theorem readResponse_written (reader : ControlStream) :
    reader.readResponse.2.written = reader.written := by
  unfold readResponse
  split <;> rfl

/-- Reading the answer writes nothing. -/
theorem ask_written (reader : ControlStream) (cmd : String) :
    (reader.ask cmd).2.written = reader.written ++
      (asBytes cmd).take ((reader.writes.headD .ok).takes (asBytes cmd).length) := by
  rw [← writeCmd_written, ask]
  rcases reader.writeCmd cmd with ⟨_ | _, reader'⟩
  · rfl
  · exact reader'.readResponse_written

end ControlStream

namespace TorController

/-! ### What the operations leave behind -/

/-- The command of `destroy_hidden_service`. -/
def delOnionCmd (serviceId : String) : String := "DEL_ONION " ++ serviceId ++ "\r\n"

/-- A controller that talks to a control port. -/
structure Connected (tor : TorController) : Prop where
  real : tor.mock = false
  stream : tor.controlStream.isSome

/-- What has been written to the control port. -/
def written (tor : TorController) : Bytes := (tor.controlStream.map ControlStream.written).getD []

variable {tor tor' : TorController}

/-- A controller stays connected, and `create_hidden_service` forgets nothing. -/
theorem createHiddenService_keeps {random : Bytes} {fuel : ℕ}
    {result : Except SanctumError HiddenService} (h : tor.Connected)
    (hcreate : createHiddenService random tor fuel = some (result, tor')) :
    tor'.Connected ∧ ∀ e, result = .error e → tor'.activeService = tor.activeService := by
  obtain ⟨reader, hreader⟩ := Option.isSome_iff_exists.1 h.stream
  unfold createHiddenService at hcreate
  split_ifs at hcreate with hactive hmock
  · cases hcreate
    exact ⟨h, fun _ _ => rfl⟩
  · exact absurd (hmock.symm.trans h.real) (by decide)
  · rw [hreader] at hcreate
    obtain ⟨⟨e | serviceId, reader'⟩, -, hfinish⟩ := Option.map_eq_some_iff.1 hcreate
    · cases hfinish
      exact ⟨⟨h.real, rfl⟩, fun _ _ => rfl⟩
    · unfold finishCreate at hfinish
      dsimp only at hfinish
      split_ifs at hfinish
      · cases hfinish
        exact ⟨⟨h.real, rfl⟩, fun _ _ => rfl⟩
      · cases hfinish
        exact ⟨⟨h.real, rfl⟩, nofun⟩

theorem destroyHiddenService_of_none (h : tor.activeService = none) :
    (destroyHiddenService tor).2 = tor := by
  unfold destroyHiddenService
  rw [h]

/-- **`destroy_hidden_service` forgets the service**, whatever comes of the command. -/
theorem destroyHiddenService_of_some {reader : ControlStream} {hs : HiddenService}
    (hreal : tor.mock = false) (hreader : tor.controlStream = some reader)
    (hactive : tor.activeService = some hs) :
    (destroyHiddenService tor).2 =
      { tor with
        activeService := none
        controlStream := some (reader.ask (delOnionCmd hs.serviceId)).2 } := by
  unfold destroyHiddenService delOnionCmd
  simp only [hactive, hreal, hreader, Bool.false_eq_true, if_false]
  rcases reader.ask ("DEL_ONION " ++ hs.serviceId ++ "\r\n") with ⟨_ | _, reader'⟩ <;> rfl

end TorController

/-! ### Tor -/

open TorController

/-- The identifier in a line of the answer to `ADD_ONION`. -/
def serviceIdOf (line : String) : Option String :=
  if startsWith (trimEnd line) "250-ServiceID=" then (addOnionLine "" (trimEnd line)).getLeft? else none

/-- The services that an answer says are new. -/
def newServices (answer : List String) : List String := answer.filterMap serviceIdOf

/-- An answer says that the request has been met. -/
def saysDone (answer : List String) : Bool := answer.head?.any fun line => startsWith line "250"

/-- An operation of the controller. -/
inductive TorOperation
  | create
  | destroy
deriving DecidableEq

/-- The operation, if it comes back within so many lines: the service that it returns, and the controller
afterwards. -/
def TorOperation.perform (tor : TorController) (fuel : ℕ) :
    TorOperation → Option (Option HiddenService × TorController)
  | .create => (createHiddenService [] tor fuel).map fun (result, tor) => (result.toOption, tor)
  | .destroy => some (none, (destroyHiddenService tor).2)

/-- **A call**, and what it meets: what the connection does with the command, what Tor answers, and the
lines that have come by then, which may be late, cut off or missing. -/
structure TorCall where
  operation : TorOperation
  write : Write
  flush : Except String Unit
  answer : List String
  arrives : List (Except String String)
  fuel : ℕ

/-- The controller as the call finds it. -/
def TorCall.meet (c : TorCall) (tor : TorController) : TorController :=
  { tor with
    controlStream := tor.controlStream.map fun reader =>
      { reader with lines := reader.lines ++ c.arrives, writes := [c.write], flushes := [c.flush] } }

/-- **A controller and the Tor behind its control port**: the services that Tor runs, and those that
`create_hidden_service` has returned. -/
structure TorSession where
  tor : TorController
  running : List String
  created : List HiddenService

namespace TorSession

/-- A controller that has just connected to a Tor that runs some services. -/
def connected (config : TorConfig) (reader : ControlStream) (running : List String) : TorSession where
  tor := { config := config, activeService := none, controlStream := some reader, mock := false }
  running := running
  created := []

/-- **What Tor runs after a call.**  It starts and stops services for whole commands only, and goes by
its own answer. -/
def serve (running : List String) (before after : TorController) (answer : List String) : List String :=
  let gets (cmd : String) : Bool := after.written = before.written ++ asBytes cmd
  let kept := running.filter fun id => !(gets (delOnionCmd id) && saysDone answer)
  if gets (addOnionCmd before.config) then kept ++ newServices answer else kept

/-- **A call**, if it comes back.  A new service has a new key, so its identifier is not one that has
been returned before. -/
def step (s : TorSession) (c : TorCall) : Option TorSession :=
  if ∀ id ∈ newServices c.answer, id ∉ s.created.map HiddenService.serviceId then
    let tor := c.meet s.tor
    (c.operation.perform tor c.fuel).map fun (returned, tor') =>
      { tor := tor'
        running := serve s.running tor tor' c.answer
        created := s.created ++ returned.toList }
  else none

/-- **A created service that still runs is remembered.** -/
def Remembered (s : TorSession) : Prop :=
  ∀ hs ∈ s.created, hs.serviceId ∈ s.running → s.tor.activeService = some hs

/-- **A call gets through**: if it is to take down a service that runs, the whole command is taken, and
Tor answers that the service is gone. -/
def Acknowledged (s : TorSession) (c : TorCall) : Prop :=
  c.operation = .destroy → ∀ hs, s.tor.activeService = some hs → hs.serviceId ∈ s.running →
    c.write.takes (asBytes (delOnionCmd hs.serviceId)).length =
      (asBytes (delOnionCmd hs.serviceId)).length ∧ saysDone c.answer

/-- The controller is connected, and remembers only what it has returned. -/
structure Regular (s : TorSession) : Prop where
  connected : s.tor.Connected
  returned : ∀ hs, s.tor.activeService = some hs → hs ∈ s.created

variable {s s' : TorSession} {c : TorCall}

theorem meet_connected {tor : TorController} (h : tor.Connected) (c : TorCall) :
    (c.meet tor).Connected :=
  ⟨h.real, by rw [TorCall.meet, Option.isSome_map]; exact h.stream⟩

/-- A service that was there before runs on unless Tor gets the command to stop it and does so. -/
theorem mem_serve {running answer : List String} {before after : TorController} {id : String}
    (hid : id ∉ newServices answer) :
    id ∈ serve running before after answer ↔
      id ∈ running ∧
        ¬ (after.written = before.written ++ asBytes (delOnionCmd id) ∧ saysDone answer) := by
  have hkept : id ∈ running.filter (fun id => !(decide (after.written =
      before.written ++ asBytes (delOnionCmd id)) && saysDone answer)) ↔
      id ∈ running ∧
        ¬ (after.written = before.written ++ asBytes (delOnionCmd id) ∧ saysDone answer) := by
    simp only [List.mem_filter, Bool.not_eq_true', Bool.and_eq_false_iff, decide_eq_false_iff_not,
      not_and_or, Bool.not_eq_true]
  unfold serve
  dsimp only
  split_ifs
  · rw [List.mem_append, or_iff_left hid, hkept]
  · exact hkept

/-- The parts of a call. -/
theorem step_eq_some (h : s.step c = some s') :
    (∀ hs ∈ s.created, hs.serviceId ∉ newServices c.answer) ∧
      ∃ returned, c.operation.perform (c.meet s.tor) c.fuel = some (returned, s'.tor) ∧
        s'.running = serve s.running (c.meet s.tor) s'.tor c.answer ∧
        s'.created = s.created ++ returned.toList := by
  unfold step at h
  split_ifs at h with hnew
  obtain ⟨⟨returned, tor'⟩, hperform, rfl⟩ := Option.map_eq_some_iff.1 h
  exact ⟨fun hs hmem hid => hnew _ hid (List.mem_map_of_mem hmem), returned, hperform, rfl, rfl⟩

/-- A call that creates a service, or fails to. -/
theorem perform_create {tor tor' : TorController} {fuel : ℕ} {returned : Option HiddenService}
    (h : tor.Connected) (hcreate : TorOperation.create.perform tor fuel = some (returned, tor')) :
    tor'.Connected ∧ (returned = none ∧ tor'.activeService = tor.activeService ∨
      ∃ hs, returned = some hs ∧ tor.activeService = none ∧ tor'.activeService = some hs) := by
  obtain ⟨⟨result, tor''⟩, hresult, heq⟩ := Option.map_eq_some_iff.1 hcreate
  obtain ⟨rfl, rfl⟩ := Prod.mk.inj heq
  obtain ⟨hconn, herror⟩ := createHiddenService_keeps h hresult
  refine ⟨hconn, ?_⟩
  cases result with
  | error e => exact Or.inl ⟨rfl, herror e rfl⟩
  | ok hs =>
      obtain ⟨hnone, hsome, -⟩ := createHiddenService_ok hresult
      exact Or.inr ⟨hs, rfl, hnone, hsome⟩

/-- A call that destroys a service forgets it. -/
theorem destroy_forgets {tor : TorController} (h : tor.Connected) :
    (destroyHiddenService tor).2.Connected ∧ (destroyHiddenService tor).2.activeService = none := by
  obtain ⟨reader, hreader⟩ := Option.isSome_iff_exists.1 h.stream
  cases hactive : tor.activeService with
  | none =>
      rw [destroyHiddenService_of_none hactive]
      exact ⟨h, hactive⟩
  | some hs =>
      rw [destroyHiddenService_of_some h.real hreader hactive]
      exact ⟨⟨h.real, rfl⟩, rfl⟩

/-- Tor gets the command if the connection takes all of it. -/
theorem destroy_gets_iff {tor : TorController} {hs : HiddenService} (h : tor.Connected)
    (hactive : tor.activeService = some hs) :
    (destroyHiddenService (c.meet tor)).2.written =
        (c.meet tor).written ++ asBytes (delOnionCmd hs.serviceId) ↔
      c.write.takes (asBytes (delOnionCmd hs.serviceId)).length =
        (asBytes (delOnionCmd hs.serviceId)).length := by
  obtain ⟨reader, hreader⟩ := Option.isSome_iff_exists.1 (meet_connected h c).stream
  have hwrites : reader.writes = [c.write] := by
    obtain ⟨reader₀, -, rfl⟩ := Option.map_eq_some_iff.1 hreader
    rfl
  have hbefore : (c.meet tor).written = reader.written := by rw [written, hreader]; rfl
  have hle := c.write.takes_le (asBytes (delOnionCmd hs.serviceId)).length
  rw [destroyHiddenService_of_some (meet_connected h c).real hreader hactive, hbefore, written,
    Option.map_some, Option.getD_some, ControlStream.ask_written, List.append_cancel_left_eq,
    List.take_eq_self_iff, hwrites, List.headD_cons]
  exact ⟨hle.antisymm, Eq.ge⟩

/-- A call keeps a session regular. -/
theorem Regular.step (h : s.Regular) (hstep : s.step c = some s') : s'.Regular := by
  obtain ⟨-, returned, hperform, -, hcreated⟩ := step_eq_some hstep
  have hmeet := meet_connected h.connected c
  cases hop : c.operation with
  | create =>
      rw [hop] at hperform
      obtain ⟨hconn, ⟨rfl, hactive⟩ | ⟨hs, rfl, -, hactive⟩⟩ := perform_create hmeet hperform
      · refine ⟨hconn, fun hs hs' => ?_⟩
        rw [hcreated, Option.toList_none, List.append_nil]
        exact h.returned hs (hactive ▸ hs')
      · refine ⟨hconn, fun hs' hs'' => ?_⟩
        obtain rfl := Option.some_inj.1 (hactive.symm.trans hs'')
        rw [hcreated]
        exact List.mem_append_right _ (List.mem_singleton_self hs)
  | destroy =>
      rw [hop] at hperform
      obtain ⟨-, htor⟩ := Prod.mk.inj (Option.some_inj.1 hperform)
      obtain ⟨hconn, hnone⟩ := destroy_forgets hmeet
      rw [htor] at hconn hnone
      exact ⟨hconn, fun hs hs' => absurd (hnone.symm.trans hs') nofun⟩

/-- A call that creates a service, or fails to, keeps the services remembered. -/
theorem Remembered.create (h : s.Regular) (hr : s.Remembered) (hop : c.operation = .create)
    (hstep : s.step c = some s') : s'.Remembered := by
  obtain ⟨hnew, returned, hperform, hrunning, hcreated⟩ := step_eq_some hstep
  have hold : ∀ hs ∈ s.created, hs.serviceId ∈ s'.running → s.tor.activeService = some hs := by
    intro hs hmem hrun
    rw [hrunning, mem_serve (hnew hs hmem)] at hrun
    exact hr hs hmem hrun.1
  rw [hop] at hperform
  intro hs hmem hrun
  rw [hcreated, List.mem_append, Option.mem_toList] at hmem
  obtain ⟨-, ⟨rfl, hactive⟩ | ⟨hs', rfl, hnone, hactive⟩⟩ :=
    perform_create (meet_connected h.connected c) hperform
  · exact hactive.trans (hold hs (hmem.resolve_right nofun) hrun)
  · rcases hmem with hmem | hmem
    · exact absurd (hnone.symm.trans (hold hs hmem hrun)) nofun
    · rw [hactive, Option.mem_some.1 hmem]

/-- A call that takes down the service keeps the services remembered if it gets through. -/
theorem remembered_destroy_iff (h : s.Regular) (hr : s.Remembered) (hop : c.operation = .destroy)
    (hstep : s.step c = some s') : s'.Remembered ↔ s.Acknowledged c := by
  obtain ⟨hnew, returned, hperform, hrunning, hcreated⟩ := step_eq_some hstep
  rw [hop] at hperform
  obtain ⟨rfl, htor⟩ := Prod.mk.inj (Option.some_inj.1 hperform)
  have hnone := (destroy_forgets (meet_connected h.connected c)).2
  rw [Option.toList_none, List.append_nil] at hcreated
  rw [htor] at hnone
  constructor
  · -- the service must be gone, for it is forgotten
    intro hr' _ hs hactive hrun
    have hmem := h.returned hs hactive
    have hgone : hs.serviceId ∉ s'.running := fun hrun' =>
      absurd (hnone.symm.trans (hr' hs (hcreated ▸ hmem) hrun')) nofun
    rw [hrunning, mem_serve (hnew hs hmem), ← htor, destroy_gets_iff h.connected hactive] at hgone
    exact not_not.1 fun hnot => hgone ⟨hrun, hnot⟩
  · intro hack hs hmem hrun'
    rw [hcreated] at hmem
    rw [hrunning, mem_serve (hnew hs hmem)] at hrun'
    obtain ⟨hrun, hnot⟩ := hrun'
    have hactive := hr hs hmem hrun
    rw [← htor, destroy_gets_iff h.connected hactive] at hnot
    exact absurd (hack hop hs hactive hrun) hnot

/-- **Which calls keep the services remembered**: those that get through. -/
theorem remembered_step_iff (h : s.Regular) (hr : s.Remembered) (hstep : s.step c = some s') :
    s'.Remembered ↔ s.Acknowledged c := by
  cases hop : c.operation with
  | create => exact iff_of_true (hr.create h hop hstep) fun hop' => absurd (hop.symm.trans hop') nofun
  | destroy => exact remembered_destroy_iff h hr hop hstep

/-- At the start, nothing has been created. -/
theorem regular_connected (config : TorConfig) (reader : ControlStream) (running : List String) :
    (connected config reader running).Regular := by
  refine ⟨⟨rfl, rfl⟩, fun hs hactive => ?_⟩
  cases hactive

theorem remembered_connected (config : TorConfig) (reader : ControlStream) (running : List String) :
    (connected config reader running).Remembered := by
  intro hs hmem
  cases hmem

/-- **Running services are remembered throughout exactly in the runs in which every call gets
through.** -/
theorem remembered_iff (config : TorConfig) (reader : ControlStream) (running : List String)
    {calls : List TorCall} {s' : TorSession}
    (hrun : Runs.run step (connected config reader running) calls = some s') :
    Runs.Throughout step Remembered (connected config reader running) calls ↔
      Runs.Meets step Acknowledged (connected config reader running) calls := by
  have hinv : ∀ s c s', Regular s → Remembered s → step s c = some s' → Remembered s' → Regular s' :=
    fun s c s' h _ hstep _ => h.step hstep
  have hkeeps : ∀ s c s', Regular s → Remembered s → step s c = some s' →
      (Remembered s' ↔ Acknowledged s c) := fun s c s' h hr hstep => remembered_step_iff h hr hstep
  exact Runs.throughout_iff_meets hinv hkeeps (regular_connected config reader running)
    (remembered_connected config reader running) hrun

/-- A call whose command is taken, and whose answer arrives. -/
def answered (operation : TorOperation) (answer : List String) : TorCall where
  operation := operation
  write := .ok
  flush := .ok ()
  answer := answer
  arrives := answer.map .ok
  fuel := answer.length

/-- A service is created. -/
def creates : TorCall := answered .create ["250-ServiceID=abc\r\n", "250 OK\r\n"]

/-- Tor has stopped a service. -/
def stops : TorCall := answered .destroy ["250 OK\r\n"]

/-- Tor fails to stop a service. -/
def refuses : TorCall := answered .destroy ["551 Internal error\r\n"]

/-- A session on a new connection. -/
def first : TorSession := connected .default (TorController.closedStream []) []

/-- A service that is created and stopped is remembered as long as it runs. -/
theorem stopped_remembered : Runs.Throughout step Remembered first [creates, stops] := by
  obtain ⟨s, hrun⟩ : ∃ s, Runs.run step first [creates, stops] = some s := ⟨_, rfl⟩
  refine (remembered_iff .default (TorController.closedStream []) [] hrun).2 ?_
  refine ⟨nofun, fun s₁ _ => ⟨?_, fun _ _ => trivial⟩⟩
  exact fun _ hs _ _ => ⟨rfl, rfl⟩

/-- **A service that Tor fails to stop is forgotten.** -/
theorem refused_forgotten :
    ∃ s, Runs.run step first [creates, refuses] = some s ∧ s.tor.activeService = none ∧
      s.running = ["abc"] ∧ s.created.map HiddenService.serviceId = ["abc"] ∧ ¬ s.Remembered := by
  refine ⟨_, rfl, rfl, ?_, ?_, ?_⟩
  · decide
  · decide
  · intro hr
    have hactive := hr ⟨"abc.onion", 9738, "abc"⟩ (by decide) (by decide)
    cases hactive

end TorSession

end Sanctum
