/-
Broadcast channels.

A channel keeps the newest values, at least as many as its capacity says, and a receiver takes them one after
the other.  A receiver that is further behind than the channel reaches has lost the oldest values; it is told
how many, and goes on after them.  So what a receiver is told accounts for every value: a value is received,
or counted among those that have been lost, and never both.

Main definitions:

* `Broadcast.Outcome`, `Broadcast.Channel` — what a receiver is told, and **what a channel is relied on for**;
* `Broadcast.Accounts` — **the outcomes account for the values**;
* `Broadcast.Channel.ring` — a channel that keeps exactly as many values as its capacity says.

Main results:

* `Broadcast.Channel.lt_of_recv`, `Broadcast.Channel.le_length_of_recv` — a receiver goes on, within the values;
* `Broadcast.Channel.accounts` — what a receiver is told next accounts for the values up to its new position;
* `Broadcast.Accounts.eq_map_ok` — nothing is lost if no outcome says so.
-/

import Mathlib.Data.List.Basic

set_option relaxedAutoImplicit false
set_option autoImplicit false

namespace Broadcast

variable {α : Type*}

/-- **What a receiver is told**: a value, or how many have been lost. -/
inductive Outcome (α : Type*)
  | ok (a : α)
  | lagged (n : ℕ)

/-- **A broadcast channel**, as a receiver sees it: what it is told at a position, after some values have been
sent, oldest first, and where it stands then.  It waits only if there are no more values; a value that it is
told is the next one; it goes on after the values that it has lost; and it loses none as long as it is not
further behind than the capacity. -/
structure Channel (α : Type*) where
  capacity : ℕ
  recv : List α → ℕ → Option (Outcome α × ℕ)
  recv_eq_none_iff : ∀ {sent : List α} {next : ℕ}, recv sent next = none ↔ sent.length ≤ next
  of_recv_ok : ∀ {sent : List α} {next next' : ℕ} {a : α}, recv sent next = some (.ok a, next') →
    sent[next]? = some a ∧ next' = next + 1
  of_recv_lagged : ∀ {sent : List α} {next next' n : ℕ}, recv sent next = some (.lagged n, next') →
    n ≠ 0 ∧ next' = next + n ∧ next' ≤ sent.length ∧ next + capacity < sent.length

/-- **The outcomes account for the values**, in order: each outcome is the next value, or the number of the
next values, which is not zero. -/
inductive Accounts : List (Outcome α) → List α → Prop
  | nil : Accounts [] []
  | ok {outcomes : List (Outcome α)} {values : List α} (a : α) (h : Accounts outcomes values) :
      Accounts (outcomes ++ [.ok a]) (values ++ [a])
  | lagged {outcomes : List (Outcome α)} {values lost : List α} (hlost : lost ≠ [])
      (h : Accounts outcomes values) :
      Accounts (outcomes ++ [.lagged lost.length]) (values ++ lost)

variable {channel : Channel α} {next next' : ℕ} {sent : List α} {outcome : Outcome α}
  {outcomes : List (Outcome α)} {values : List α}

namespace Channel

/-- A receiver does not go back. -/
theorem lt_of_recv (h : channel.recv sent next = some (outcome, next')) : next < next' := by
  cases outcome with
  | ok a =>
      obtain ⟨-, rfl⟩ := channel.of_recv_ok h
      exact Nat.lt_succ_self next
  | lagged n =>
      obtain ⟨hn, rfl, -, -⟩ := channel.of_recv_lagged h
      omega

/-- A receiver stays within what has been sent. -/
theorem le_length_of_recv (h : channel.recv sent next = some (outcome, next')) : next' ≤ sent.length := by
  cases outcome with
  | ok a =>
      obtain ⟨ha, rfl⟩ := channel.of_recv_ok h
      exact (List.getElem?_eq_some_iff.1 ha).1
  | lagged n => exact (channel.of_recv_lagged h).2.2.1

/-- A receiver that is near enough gets the next value. -/
theorem ok_of_near (hnear : sent.length ≤ next + channel.capacity)
    (h : channel.recv sent next = some (outcome, next')) : ∃ a, outcome = .ok a := by
  cases outcome with
  | ok a => exact ⟨a, rfl⟩
  | lagged n =>
      have hfar := (channel.of_recv_lagged h).2.2.2
      omega

/-- **What a receiver is told next** accounts for the values up to its new position. -/
theorem accounts (haccounts : Accounts outcomes values)
    (h : channel.recv sent next = some (outcome, next')) :
    Accounts (outcomes ++ [outcome]) (values ++ (sent.drop next).take (next' - next)) := by
  cases outcome with
  | ok a =>
      obtain ⟨ha, rfl⟩ := channel.of_recv_ok h
      have htold : (sent.drop next).take (next + 1 - next) = [a] := by
        rw [Nat.add_sub_cancel_left, List.take_one, List.head?_drop, ha]
        rfl
      rw [htold]
      exact haccounts.ok a
  | lagged n =>
      obtain ⟨hn, rfl, hle, -⟩ := channel.of_recv_lagged h
      rw [Nat.add_sub_cancel_left]
      -- what has been lost are the values between the two positions
      have hlength : ((sent.drop next).take n).length = n := by
        rw [List.length_take, List.length_drop]
        omega
      have hlost : (sent.drop next).take n ≠ [] := by
        intro hnil
        rw [hnil, List.length_nil] at hlength
        exact hn hlength.symm
      have hlagged := haccounts.lagged hlost
      rwa [hlength] at hlagged

/-- **A channel that keeps exactly as many values as its capacity says.**  A receiver that is further behind
goes on with the oldest value that is left. -/
def ring (capacity : ℕ) (hcapacity : 0 < capacity) : Channel α where
  capacity := capacity
  recv sent next :=
    let oldest := sent.length - capacity
    if next < oldest then some (.lagged (oldest - next), oldest)
    else sent[next]?.map fun a => (.ok a, next + 1)
  recv_eq_none_iff := by
    intro sent next
    dsimp only
    split
    · exact iff_of_false (by simp) (by omega)
    · rw [Option.map_eq_none_iff, List.getElem?_eq_none_iff]
  of_recv_ok := by
    intro sent next next' a h
    dsimp only at h
    split at h
    · cases h
    · obtain ⟨a', ha', hpair⟩ := Option.map_eq_some_iff.1 h
      cases hpair
      exact ⟨ha', rfl⟩
  of_recv_lagged := by
    intro sent next next' n h
    dsimp only at h
    split at h
    · cases h
      omega
    · obtain ⟨a', -, hpair⟩ := Option.map_eq_some_iff.1 h
      cases hpair

end Channel

/-- Nothing is lost if no outcome says so. -/
theorem Accounts.eq_map_ok (h : Accounts outcomes values)
    (hok : ∀ outcome ∈ outcomes, ∃ a, outcome = .ok a) : outcomes = values.map .ok := by
  induction h with
  | nil => rfl
  | ok a _ ih =>
      rw [List.forall_mem_append] at hok
      rw [List.map_append, ih hok.1]
      rfl
  | lagged _ _ _ =>
      obtain ⟨a, ha⟩ := hok _ (List.mem_append_right _ (List.mem_singleton_self _))
      cases ha

end Broadcast
