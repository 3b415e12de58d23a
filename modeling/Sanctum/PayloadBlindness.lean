/-
The host is blind to payloads.

The relay reads the type of a frame and the tables of the listener, and never the payload of a room
message.  So whoever exchanges the payloads of the room messages in a run, consistently or not, gets the
same run with the payloads exchanged: the same steps are enabled, the same connections are served in
the same order, and the room, the tables and the notices are the very same.

Main definitions:

* `Sanctum.Frame.mapPayload` — another payload for a room message;
* `Sanctum.HostListener.mapPayload`, `Sanctum.Label.mapPayload` — the same for all room messages that
  are held by the listener, or that a step receives;
* `Sanctum.HostListener.SameRouting` — two states that differ in payloads of room messages only.

Main results:

* `Sanctum.HostListener.step_mapPayload` — **a step commutes with the exchange**;
* `Sanctum.HostListener.payload_blind` — **and so does every run**;
* `Sanctum.HostListener.same_routing` — two runs that receive the same but for payloads.
-/

import Sanctum.HostListener
import Sanctum.Runs

set_option relaxedAutoImplicit false
set_option autoImplicit false

/-! ### Runs of a system with a symmetry -/

namespace Runs

variable {σ α : Type} {step : σ → α → Option σ}

/-- **A symmetry of the steps is one of the runs.** -/
theorem run_map {f : σ → σ} {g : α → α} (hstep : ∀ s a, step (f s) (g a) = (step s a).map f)
    (s : σ) (as : List α) : run step (f s) (as.map g) = (run step s as).map f := by
  induction as generalizing s with
  | nil => rfl
  | cons a as ih =>
      rw [List.map_cons, run, run, hstep]
      cases step s a with
      | none => rfl
      | some s' => exact ih s'

end Runs

namespace Sanctum

/-! ### Other payloads -/

variable (f : Bytes → Bytes)

/-- Another payload for a room message. -/
def Frame.mapPayload (frame : Frame) : Frame :=
  if frame.messageType = MessageType.roomMessage then { frame with payload := f frame.payload }
  else frame

def Relayed.mapPayload (r : Relayed) : Relayed := { r with frame := r.frame.mapPayload f }

/-- The frames of the host's own stay as they are. -/
def Sent.mapPayload : Sent → Sent
  | .own frame => .own frame
  | .relayed r => .relayed (r.mapPayload f)

def Point.mapPayload : Point → Point
  | .recipients frame => .recipients (frame.mapPayload f)
  | .route frame rest => .route (frame.mapPayload f) rest
  | .lookup frame rest cid => .lookup (frame.mapPayload f) rest cid
  | .push frame rest tx => .push (frame.mapPayload f) rest tx
  | point => point

def Client.mapPayload (k : Client) : Client :=
  { k with
    point := k.point.mapPayload f
    outRx := k.outRx.map (Relayed.mapPayload f)
    received := k.received.map (Frame.mapPayload f)
    sent := k.sent.map (Sent.mapPayload f) }

def Task.mapPayload : Task → Task
  | .client k => .client (k.mapPayload f)
  | task => task

/-- **Other payloads for all room messages** in the listener. -/
def HostListener.mapPayload (s : HostListener) : HostListener :=
  { s with tasks := fun c => (s.tasks c).mapPayload f }

def Move.mapPayload : Move → Move
  | .receive frame => .receive (frame.mapPayload f)
  | move => move

def AuthMove.mapPayload : AuthMove → AuthMove
  | .respond reply => .respond (reply.map (Frame.mapPayload f))
  | move => move

/-- **Other payloads for the room messages** that a step receives. -/
def Label.mapPayload : Label → Label
  | .authenticate c move => .authenticate c (move.mapPayload f)
  | .client c move => .client c (move.mapPayload f)
  | label => label

variable {f}

@[simp] theorem Frame.messageType_mapPayload (frame : Frame) :
    (frame.mapPayload f).messageType = frame.messageType := by
  unfold mapPayload
  split
  · rfl
  · rfl

/-- An authentication response is no room message. -/
theorem readAuthResponse_mapPayload (pb : ProtoCodec) (frame : Frame) :
    readAuthResponse pb (frame.mapPayload f) = readAuthResponse pb frame := by
  unfold Frame.mapPayload
  split
  · next hroom =>
      have hne : frame.messageType ≠ MessageType.authResponse := by
        rw [hroom]
        decide
      rw [readAuthResponse, readAuthResponse, if_pos hne, if_pos hne]
  · rfl

@[simp] theorem Point.afterReceive_mapPayload (frame : Frame) :
    Point.afterReceive (frame.mapPayload f) = (Point.afterReceive frame).mapPayload f := by
  unfold Point.afterReceive
  rw [Frame.messageType_mapPayload]
  split
  · rfl
  · split
    · rfl
    · rfl

theorem Task.enqueue_mapPayload (r : Relayed) (task : Task) :
    (task.enqueue r).mapPayload f = (task.mapPayload f).enqueue (r.mapPayload f) := by
  cases task with
  | client k => simp [Task.enqueue, Task.mapPayload, Client.mapPayload]
  | _ => rfl

namespace HostListener

variable {crates : Crates} {s : HostListener}

/-! ### The exchange and the writes to the state -/

theorem mapPayload_setTask (s : HostListener) (c : ConnId) (task : Task) :
    (s.setTask c task).mapPayload f = (s.mapPayload f).setTask c (task.mapPayload f) := by
  have htasks : (fun d => (Function.update s.tasks c task d).mapPayload f) =
      Function.update (fun d => (s.tasks d).mapPayload f) c (task.mapPayload f) :=
    Function.comp_update (Task.mapPayload f) s.tasks c task
  exact congrArg (fun tasks => { s with tasks := tasks }) htasks

/-- A step that leads to the exchanged state, with the exchanged task. -/
theorem setTask_mapped {s t : HostListener} {task task' : Task} (c : ConnId)
    (hs : s.mapPayload f = t) (htask : task.mapPayload f = task') :
    some (t.setTask c task') = (some (s.setTask c task)).map (mapPayload f) := by
  subst hs htask
  exact congrArg some (mapPayload_setTask s c task).symm

/-- The same for the task of a client. -/
theorem setClient_mapped {s t : HostListener} {k k' : Client} (c : ConnId)
    (hs : s.mapPayload f = t) (hk : k.mapPayload f = k') :
    some (t.setClient c k') = (some (s.setClient c k)).map (mapPayload f) := by
  subst hs hk
  exact setTask_mapped c rfl rfl

theorem mapPayload_enqueue (s : HostListener) (d : ConnId) (r : Relayed) :
    (s.enqueue d r).mapPayload f = (s.mapPayload f).enqueue d (r.mapPayload f) := by
  rw [enqueue, mapPayload_setTask, Task.enqueue_mapPayload]
  rfl

/-- A step with a guard that the exchange leaves as it is. -/
theorem if_mapped {p : Prop} [Decidable p] {t s : Option HostListener}
    (h : t = s.map (mapPayload f)) :
    (if p then t else none) = (if p then s else none).map (mapPayload f) := by
  split
  · exact h
  · rfl

/-! ### The exchange and the steps -/

/-- An authentication does not look at room messages. -/
theorem authStep_mapPayload (s : HostListener) (c : ConnId) (stage : Stage) (move : AuthMove) :
    (s.mapPayload f).authStep crates c stage (move.mapPayload f) =
      (s.authStep crates c stage move).map (mapPayload f) := by
  cases stage with
  | handshake =>
      cases move with
      | handshake ok => cases ok <;> exact setTask_mapped c rfl rfl
      | _ => rfl
  | readRoomId =>
      cases move with
      | readRoomId => exact if_mapped (setTask_mapped c rfl rfl)
      | _ => rfl
  | createChallenge roomId =>
      cases move with
      | createChallenge nonce now => exact setTask_mapped c rfl rfl
      | _ => rfl
  | awaitResponse challenge =>
      cases move with
      | respond reply =>
          have hread : (reply.map (Frame.mapPayload f)).map (readAuthResponse crates.pb) =
              reply.map (readAuthResponse crates.pb) := by
            rw [Option.map_map]
            exact Option.map_congr fun frame _ => readAuthResponse_mapPayload crates.pb frame
          simp only [authStep, AuthMove.mapPayload, hread]
          split <;> exact setTask_mapped c rfl rfl
      | _ => rfl
  | addMember challenge fp displayAlias =>
      cases move with
      | addMember now => exact if_mapped (setTask_mapped c rfl rfl)
      | _ => rfl
  | readAllowlist challenge fp displayAlias =>
      cases move with
      | readAllowlist => exact if_mapped (setTask_mapped c rfl rfl)
      | _ => rfl
  | verify challenge fp displayAlias authorizedFps =>
      cases move with
      | verify now =>
          have hauth : (s.mapPayload f).authService = s.authService := rfl
          simp only [authStep, AuthMove.mapPayload, hauth]
          split <;> exact setTask_mapped c rfl rfl
      | _ => rfl
  | sendResult fp displayAlias =>
      cases move with
      | sendResult ok =>
          cases ok
          · exact setTask_mapped c rfl rfl
          · exact setClient_mapped c rfl rfl
      | _ => rfl

/-- Neither do the phases before the message loop. -/
theorem joinStep_mapPayload (s : HostListener) (c : ConnId) (k : Client) (move : Move) :
    (s.mapPayload f).joinStep crates c (k.mapPayload f) (move.mapPayload f) =
      (s.joinStep crates c k move).map (mapPayload f) := by
  obtain ⟨fp, displayAlias, point, outRx, routeRx, received, sent⟩ := k
  cases point with
  | register =>
      cases move with
      | register =>
          refine if_mapped ?_
          have hservice : (s.mapPayload f).hostService = s.hostService := rfl
          simp only [hservice, Client.mapPayload]
          split
          · exact setClient_mapped c rfl rfl
          · exact setTask_mapped c rfl rfl
      | _ => rfl
  | storeAlias =>
      cases move with
      | storeAlias => exact if_mapped (setClient_mapped c rfl rfl)
      | _ => rfl
  | openChannel =>
      cases move with
      | openChannel => exact if_mapped (setClient_mapped c rfl rfl)
      | _ => rfl
  | subscribe =>
      cases move with
      | subscribe => exact setClient_mapped c rfl rfl
      | _ => rfl
  | lockAliases =>
      cases move with
      | lockAliases => exact if_mapped (setClient_mapped c rfl rfl)
      | _ => rfl
  | greet rest =>
      cases move with
      | greet name ok =>
          simp only [joinStep, Client.mapPayload, Point.mapPayload, Move.mapPayload]
          cases rest.lookup name with
          | none => rfl
          | some newcomer =>
              refine setClient_mapped c rfl ?_
              by_cases hsend : name ≠ fp.hex ∧ ok = true
              · obtain ⟨hne, rfl⟩ := hsend
                simp [Client.mapPayload, Point.mapPayload, Sent.mapPayload, hne]
              · simp only [Client.mapPayload, Point.mapPayload, hsend, if_false]
      | unlockAliases => exact if_mapped (setClient_mapped c rfl rfl)
      | _ => rfl
  | announce =>
      cases move with
      | announce => exact setClient_mapped c rfl rfl
      | _ => rfl
  | _ => cases move <;> rfl

/-- The branches of the `select!` look at the type of a frame only. -/
theorem selectStep_mapPayload (s : HostListener) (c : ConnId) (k : Client) (move : Move) :
    (s.mapPayload f).selectStep c (k.mapPayload f) (move.mapPayload f) =
      (s.selectStep c k move).map (mapPayload f) := by
  cases move with
  | cancelled => exact if_mapped (setClient_mapped c rfl rfl)
  | receive frame =>
      refine setClient_mapped c rfl ?_
      simp [Client.mapPayload]
  | receiveError => exact setClient_mapped c rfl rfl
  | takeOut ok =>
      obtain ⟨fp, displayAlias, point, outRx, routeRx, received, sent⟩ := k
      cases outRx with
      | nil => rfl
      | cons r outRx =>
          cases ok
          · exact setClient_mapped c rfl rfl
          · refine setClient_mapped c rfl ?_
            simp [Client.mapPayload, Sent.mapPayload]
  | takeRouted ok =>
      refine if_mapped ?_
      have hroute : (s.mapPayload f).routeTx[(k.mapPayload f).routeRx]? = s.routeTx[k.routeRx]? := rfl
      rw [hroute]
      cases s.routeTx[k.routeRx]? with
      | none => rfl
      | some routed =>
          by_cases hown : routed.sender = k.fingerprint
          · simp only [Client.mapPayload, hown, if_true]
            exact setClient_mapped c rfl rfl
          · simp only [Client.mapPayload, hown, if_false]
            cases ok
            · exact setClient_mapped c rfl rfl
            · refine setClient_mapped c rfl ?_
              simp [Client.mapPayload, Sent.mapPayload]
  | lagged => exact if_mapped (setClient_mapped c rfl rfl)
  | _ => rfl

/-- A frame is placed in a channel as it is. -/
theorem pushStep_mapPayload (s : HostListener) (c : ConnId) (k : Client) (frame : Frame)
    (rest : Finset Fingerprint) (tx : Sender) :
    (s.mapPayload f).pushStep c (k.mapPayload f) (frame.mapPayload f) rest tx =
      (s.pushStep c k frame rest tx).map (mapPayload f) := by
  have hlength : (k.mapPayload f).received.length = k.received.length := List.length_map ..
  have hclosed : some (({ s.mapPayload f with hostLock := none, clientsLock := none } :
        HostListener).setClient c { k.mapPayload f with point := .route (frame.mapPayload f) rest }) =
      (some (({ s with hostLock := none, clientsLock := none } : HostListener).setClient c
        { k with point := .route frame rest })).map (mapPayload f) := setClient_mapped c rfl rfl
  have htask : (s.mapPayload f).tasks tx.owner = (s.tasks tx.owner).mapPayload f := rfl
  unfold pushStep
  rw [htask, hlength]
  cases s.tasks tx.owner with
  | client kd =>
      obtain ⟨fp, displayAlias, point, outRx, routeRx, received, sent⟩ := kd
      have hopen : (if (outRx.map (Relayed.mapPayload f)).length < outCapacity then
          some ((({ s.mapPayload f with hostLock := none, clientsLock := none } :
            HostListener).setClient c { k.mapPayload f with
              point := .route (frame.mapPayload f) rest }).enqueue tx.owner
                ⟨frame.mapPayload f, c, k.received.length - 1⟩) else none) =
          (if outRx.length < outCapacity then
            some ((({ s with hostLock := none, clientsLock := none } : HostListener).setClient c
              { k with point := .route frame rest }).enqueue tx.owner
                ⟨frame, c, k.received.length - 1⟩) else none).map (mapPayload f) := by
        rw [List.length_map]
        refine if_mapped ?_
        rw [Option.map_some, mapPayload_enqueue, ← Option.some_inj.1 hclosed]
        rfl
      cases point with
      | ended => exact hclosed
      | _ => exact hopen
  | _ => exact hclosed

/-- The relay passes a frame on as it is. -/
theorem routeStep_mapPayload (s : HostListener) (c : ConnId) (k : Client) (move : Move) :
    (s.mapPayload f).routeStep c (k.mapPayload f) (move.mapPayload f) =
      (s.routeStep c k move).map (mapPayload f) := by
  obtain ⟨fp, displayAlias, point, outRx, routeRx, received, sent⟩ := k
  cases point with
  | recipients frame =>
      cases move with
      | recipients => exact if_mapped (setClient_mapped c rfl rfl)
      | _ => rfl
  | route frame rest =>
      cases move with
      | resolve name =>
          refine if_mapped ?_
          have hservice : (s.mapPayload f).hostService = s.hostService := rfl
          simp only [hservice, Client.mapPayload]
          cases s.hostService.connectionIdFor name with
          | none => exact setClient_mapped c rfl rfl
          | some cid => exact setClient_mapped c rfl rfl
      | routed => exact if_mapped (setClient_mapped c rfl rfl)
      | _ => rfl
  | lookup frame rest cid =>
      cases move with
      | lookup =>
          refine if_mapped ?_
          have hclients : (s.mapPayload f).clients = s.clients := rfl
          simp only [hclients, Client.mapPayload]
          cases s.clients.lookup cid with
          | none => exact setClient_mapped c rfl rfl
          | some tx => exact setClient_mapped c rfl rfl
      | _ => rfl
  | push frame rest tx =>
      cases move with
      | push =>
          exact pushStep_mapPayload s c
            ⟨fp, displayAlias, .push frame rest tx, outRx, routeRx, received, sent⟩ frame rest tx
      | _ => rfl
  | pong =>
      cases move with
      | pong ok =>
          cases ok
          · exact setClient_mapped c rfl rfl
          · refine setClient_mapped c rfl ?_
            simp [Client.mapPayload, Sent.mapPayload, Point.mapPayload]
      | _ => rfl
  | _ => cases move <;> rfl

theorem cleanupStep_mapPayload (s : HostListener) (c : ConnId) (k : Client) (move : Move) :
    (s.mapPayload f).cleanupStep c (k.mapPayload f) (move.mapPayload f) =
      (s.cleanupStep c k move).map (mapPayload f) := by
  obtain ⟨fp, displayAlias, point, outRx, routeRx, received, sent⟩ := k
  cases point with
  | removeClient =>
      cases move with
      | removeClient => exact if_mapped (setClient_mapped c rfl rfl)
      | _ => rfl
  | removeSender =>
      cases move with
      | removeSender => exact if_mapped (setClient_mapped c rfl rfl)
      | _ => rfl
  | removeAlias =>
      cases move with
      | removeAlias => exact if_mapped (setClient_mapped c rfl rfl)
      | _ => rfl
  | _ => cases move <;> rfl

theorem clientStep_mapPayload (s : HostListener) (c : ConnId) (k : Client) (move : Move) :
    (s.mapPayload f).clientStep crates c (k.mapPayload f) (move.mapPayload f) =
      (s.clientStep crates c k move).map (mapPayload f) := by
  have hpoint : (k.mapPayload f).point = k.point.mapPayload f := rfl
  unfold clientStep
  rw [hpoint]
  cases k.point with
  | register | storeAlias | openChannel | subscribe | lockAliases | greet _ | announce =>
      exact joinStep_mapPayload s c k move
  | select => exact selectStep_mapPayload s c k move
  | recipients _ | route _ _ | lookup _ _ _ | push _ _ _ | pong =>
      exact routeStep_mapPayload s c k move
  | removeClient | removeSender | removeAlias => exact cleanupStep_mapPayload s c k move
  | ended => rfl

/-- A change of the room has nothing to do with payloads. -/
theorem roomStep_mapPayload (s : HostListener) (result : Except SanctumError Room) :
    (s.mapPayload f).roomStep result = (s.roomStep result).map (mapPayload f) := by
  refine if_mapped ?_
  cases result with
  | ok room => rfl
  | error e => rfl

/-- **A step commutes with the exchange of payloads.** -/
theorem step_mapPayload (s : HostListener) (label : Label) :
    (s.mapPayload f).step crates (label.mapPayload f) =
      (s.step crates label).map (mapPayload f) := by
  cases label with
  | accept => exact setTask_mapped s.connCounter rfl rfl
  | cancel => rfl
  | addMember member => exact roomStep_mapPayload s _
  | revokeMember fp => exact roomStep_mapPayload s _
  | authenticate c move =>
      have htask : (s.mapPayload f).tasks c = (s.tasks c).mapPayload f := rfl
      simp only [step, Label.mapPayload, htask]
      cases s.tasks c with
      | authenticating stage => exact authStep_mapPayload s c stage move
      | _ => rfl
  | client c move =>
      have htask : (s.mapPayload f).tasks c = (s.tasks c).mapPayload f := rfl
      simp only [step, Label.mapPayload, htask]
      cases s.tasks c with
      | client k => exact clientStep_mapPayload s c k move
      | _ => rfl

/-- **The host is blind to the payloads of room messages.**  Whatever other payloads the room messages
of a run are given, the run is possible exactly if it was before, and leads to the same state with the
payloads exchanged: the room, the tables, the locks, the notices and the positions of all tasks are the
same, and the frames in each channel and those written to each client are the same ones. -/
theorem payload_blind (f : Bytes → Bytes) (room : Room) (hostNoisePubkey : Bytes)
    (labels : List Label) :
    Runs.run (step crates) (start room hostNoisePubkey) (labels.map (Label.mapPayload f)) =
      (Runs.run (step crates) (start room hostNoisePubkey) labels).map (mapPayload f) :=
  Runs.run_map step_mapPayload (start room hostNoisePubkey) labels

/-! ### Two runs that differ in payloads -/

/-- Two states that differ in the payloads of room messages only. -/
def SameRouting (s s' : HostListener) : Prop :=
  s.mapPayload (fun _ => []) = s'.mapPayload (fun _ => [])

/-- **Runs that receive the same but for payloads route the same.** -/
theorem same_routing {labels labels' : List Label} {s s₁ s₂ : HostListener}
    (hsame : labels.map (Label.mapPayload fun _ => []) = labels'.map (Label.mapPayload fun _ => []))
    (h₁ : Runs.run (step crates) s labels = some s₁)
    (h₂ : Runs.run (step crates) s labels' = some s₂) : SameRouting s₁ s₂ := by
  have hstep : ∀ (t : HostListener) (label : Label),
      (t.mapPayload fun _ => []).step crates (label.mapPayload fun _ => []) =
        (t.step crates label).map (mapPayload fun _ => []) := fun t label => step_mapPayload t label
  have hrun := Runs.run_map hstep s labels
  rw [hsame, Runs.run_map step_mapPayload, h₁, h₂] at hrun
  exact (Option.some_inj.1 hrun).symm

end HostListener

end Sanctum
