/-
The storage in memory over whole runs.

Rooms are stored and deleted, messages come in, and a purge drops those that have become too old.  A purge
and a limit may drop a message at any time, and what one of them has dropped leaves room for the other; but
if the clock does not run backwards, the order of the calls does not matter.  What is kept for a room are its
newest messages since it has been deleted last, except those that some purge of the run finds too old.  A
limit of zero still keeps one message, since the oldest is dropped before the new one is pushed.

Main definitions:

* `Sanctum.MemoryAdapter` — the rooms and the backlog, and their operations;
* `Sanctum.MemoryCall`, `Sanctum.MemoryAdapter.run` — sequences of calls;
* `Sanctum.MemoryCall.logged` — the messages of a room since it has been deleted last.

Main results:

* `Selection.newest_filter_append_singleton` — the newest elements that pass a filter, one by one;
* `Sanctum.MemoryAdapter.filter_run` — **what is kept for a room**;
* `Sanctum.MemoryAdapter.fetch_run` — **what a fetch answers after any run**, and which rooms are there.
-/

import Sanctum.Retention

set_option relaxedAutoImplicit false
set_option autoImplicit false

namespace Selection

variable {α : Type*} {n : ℕ}

/-- **The newest elements that pass a filter, one by one**, if whatever comes after an element that passes
passes as well. -/
theorem newest_filter_append_singleton (hn : 0 < n) {p : α → Bool} {all : List α} {x : α}
    (hall : all.Pairwise fun a b => p a → p b) (hx : p x) :
    (newest n (all ++ [x])).filter p =
      (if n ≤ ((newest n all).filter p).length then ((newest n all).filter p).drop 1
        else (newest n all).filter p) ++ [x] := by
  have hkept : (newest n all).Pairwise fun a b => p a → p b := hall.sublist (newest_sublist n all)
  have hlength : (newest n all).length ≤ n := by
    rw [length_newest]
    exact Nat.min_le_left _ _
  have hlast : [x].filter p = [x] := by simp [hx]
  rw [newest_append_singleton hn]
  generalize newest n all = kept at hkept hlength ⊢
  split
  · next hlt =>
      have hle := List.length_filter_le p kept
      rw [List.filter_append, hlast, if_neg (by omega)]
  · next hfull =>
      cases kept with
      | nil => exact absurd hn hfull
      | cons a kept =>
          rw [List.pairwise_cons] at hkept
          rw [List.drop_one, List.tail_cons, List.filter_append, hlast]
          by_cases ha : p a = true
          · -- then all of them pass, and the first one makes way
            have hpass : kept.filter p = kept := List.filter_eq_self.2 fun b hb => hkept.1 b hb ha
            rw [List.filter_cons_of_pos ha, hpass, if_pos (by omega), List.drop_one, List.tail_cons]
          · have hle := List.length_filter_le p kept
            rw [List.length_cons] at hlength
            rw [List.filter_cons_of_neg ha, if_neg (by omega)]

end Selection

namespace Sanctum

open Selection

/-! ### The adapter -/

/-- `u64::saturating_sub`. -/
def saturatingSub (a b : UInt64) : UInt64 := if a < b then 0 else a - b

theorem saturatingSub_le (a b : UInt64) : saturatingSub a b ≤ a := by
  unfold saturatingSub
  rw [UInt64.le_iff_toNat_le]
  split
  · exact Nat.zero_le _
  · next h =>
      have hle : b.toNat ≤ a.toNat := by
        rw [UInt64.lt_iff_toNat_lt] at h
        omega
      rw [UInt64.toNat_sub_of_le _ _ (UInt64.le_iff_toNat_le.2 hle)]
      omega

/-- **The adapter in memory**: its rooms, and the backlog of all of them. -/
structure MemoryAdapter where
  rooms : HashMap String Room
  backlog : MemoryStorageAdapter

namespace MemoryAdapter

/-- Create a new in-memory storage. -/
def new (maxMessagesPerRoom : UInt32) : MemoryAdapter where
  rooms := ∅
  backlog := .new maxMessagesPerRoom

/-- Store a room. -/
def storeRoom (s : MemoryAdapter) (room : Room) : MemoryAdapter :=
  { s with rooms := s.rooms.insert room.id.asStr room }

/-- Load a room by ID. -/
def loadRoom (s : MemoryAdapter) (id : RoomId) : Option Room := s.rooms.lookup id.asStr

/-- Delete a room and its messages. -/
def deleteRoom (s : MemoryAdapter) (id : RoomId) : MemoryAdapter :=
  let idStr := id.asStr
  { rooms := s.rooms.erase idStr
    backlog := { s.backlog with
      messages := s.backlog.messages.filter fun m => m.envelope.roomId.asStr ≠ idStr } }

/-- Store a message in the backlog for a specific recipient. -/
def storeMessage (s : MemoryAdapter) (recipient : Fingerprint) (envelope : MessageEnvelope)
    (now : UInt64) : MemoryAdapter :=
  { s with backlog := s.backlog.storeMessage recipient envelope now }

/-- Fetch backlog messages for a recipient in a room, since a sequence number. -/
def fetchBacklog (s : MemoryAdapter) (roomId : RoomId) (recipient : Fingerprint)
    (sinceSeq : UInt64) : List MessageEnvelope :=
  s.backlog.fetchBacklog roomId recipient sinceSeq

/-- Purge messages older than `maxAgeSecs`: their number, and what is left. -/
def purgeExpired (s : MemoryAdapter) (maxAgeSecs now : UInt64) : UInt64 × MemoryAdapter :=
  let cutoff := saturatingSub now maxAgeSecs
  let before := s.backlog.messages.length
  let messages := s.backlog.messages.filter fun m => cutoff ≤ m.storedAt
  (UInt64.ofNat (before - messages.length), { s with backlog := { s.backlog with messages := messages } })

end MemoryAdapter

/-! ### Calls -/

/-- A call that changes the adapter, with the clock that it reads. -/
inductive MemoryCall
  | storeRoom (room : Room)
  | deleteRoom (id : RoomId)
  | storeMessage (recipient : Fingerprint) (envelope : MessageEnvelope) (now : UInt64)
  | purgeExpired (maxAgeSecs now : UInt64)

namespace MemoryCall

/-- The clock that a call reads. -/
def clock : MemoryCall → Option UInt64
  | .storeRoom _ => none
  | .deleteRoom _ => none
  | .storeMessage _ _ now => some now
  | .purgeExpired _ now => some now

/-- A purge finds a message too old. -/
def expires (m : StoredMessage) : MemoryCall → Bool
  | .storeRoom _ => false
  | .deleteRoom _ => false
  | .storeMessage _ _ _ => false
  | .purgeExpired maxAgeSecs now => m.storedAt < saturatingSub now maxAgeSecs

/-- No purge of a run finds a message too old, whether it comes before the message or after it. -/
def survives (calls : List MemoryCall) (m : StoredMessage) : Bool := calls.all fun call => !call.expires m

/-- The messages of a room since it has been deleted last, after one more call. -/
def log (roomId : RoomId) (messages : List StoredMessage) : MemoryCall → List StoredMessage
  | .storeRoom _ => messages
  | .deleteRoom id => if id = roomId then [] else messages
  | .storeMessage recipient envelope now =>
    if envelope.roomId = roomId then messages ++ [⟨envelope, recipient, now⟩] else messages
  | .purgeExpired _ _ => messages

/-- **The messages of a room since it has been deleted last.** -/
def logged (roomId : RoomId) (calls : List MemoryCall) : List StoredMessage := calls.foldl (log roomId) []

/-- The room under an identifier, after one more call. -/
def place (roomId : RoomId) (room : Option Room) : MemoryCall → Option Room
  | .storeRoom room' => if room'.id = roomId then some room' else room
  | .deleteRoom id => if id = roomId then none else room
  | .storeMessage _ _ _ => room
  | .purgeExpired _ _ => room

/-- The room that has been stored last under an identifier, unless it has been deleted after that. -/
def placed (roomId : RoomId) (calls : List MemoryCall) : Option Room := calls.foldl (place roomId) none

end MemoryCall

namespace MemoryAdapter

/-- The adapter after a call. -/
def call (s : MemoryAdapter) : MemoryCall → MemoryAdapter
  | .storeRoom room => s.storeRoom room
  | .deleteRoom id => s.deleteRoom id
  | .storeMessage recipient envelope now => s.storeMessage recipient envelope now
  | .purgeExpired maxAgeSecs now => (s.purgeExpired maxAgeSecs now).2

/-- The adapter after a sequence of calls. -/
def run (maxMessagesPerRoom : UInt32) (calls : List MemoryCall) : MemoryAdapter :=
  calls.foldl call (new maxMessagesPerRoom)

end MemoryAdapter

/-! ### Clocks that do not run backwards -/

namespace MemoryCall

/-- The clock does not run backwards. -/
def InOrder (calls : List MemoryCall) : Prop := (calls.filterMap clock).Pairwise (· ≤ ·)

variable {calls : List MemoryCall} {c : MemoryCall} {m m' : StoredMessage} {roomId : RoomId}

theorem logged_append_singleton (roomId : RoomId) (calls : List MemoryCall) (c : MemoryCall) :
    logged roomId (calls ++ [c]) = c.log roomId (logged roomId calls) := List.foldl_append

theorem placed_append_singleton (roomId : RoomId) (calls : List MemoryCall) (c : MemoryCall) :
    placed roomId (calls ++ [c]) = c.place roomId (placed roomId calls) := List.foldl_append

theorem survives_append_singleton (calls : List MemoryCall) (c : MemoryCall) (m : StoredMessage) :
    survives (calls ++ [c]) m = (survives calls m && !c.expires m) := by
  simp [survives]

/-- Only a purge makes a difference. -/
theorem survives_append_of_spares (calls : List MemoryCall) (hc : ∀ m, c.expires m = false) :
    survives (calls ++ [c]) = survives calls := by
  funext m
  rw [survives_append_singleton, hc m, Bool.not_false, Bool.and_true]

theorem InOrder.init (h : InOrder (calls ++ [c])) : InOrder calls := by
  rw [InOrder, List.filterMap_append, List.pairwise_append] at h
  exact h.1

/-- The last clock is not before any other one. -/
theorem InOrder.le_last (h : InOrder (calls ++ [c])) {now t : UInt64} (hnow : c.clock = some now)
    {c' : MemoryCall} (hc' : c' ∈ calls) (ht : c'.clock = some t) : t ≤ now := by
  rw [InOrder, List.filterMap_append, List.pairwise_append] at h
  refine h.2.2 t (List.mem_filterMap.2 ⟨c', hc', ht⟩) now ?_
  exact List.mem_filterMap.2 ⟨c, List.mem_singleton_self c, hnow⟩

/-- A message of a room has been stored at the clock of a call. -/
theorem exists_clock_of_mem_logged (hm : m ∈ logged roomId calls) :
    ∃ c ∈ calls, c.clock = some m.storedAt := by
  induction calls using List.reverseRecOn with
  | nil => exact absurd hm List.not_mem_nil
  | append_singleton calls c ih =>
      have hstay : m ∈ logged roomId calls → ∃ c' ∈ calls ++ [c], c'.clock = some m.storedAt := by
        intro hmem
        obtain ⟨c', hc', hclock⟩ := ih hmem
        exact ⟨c', List.mem_append_left _ hc', hclock⟩
      rw [logged_append_singleton] at hm
      cases c with
      | storeRoom room => exact hstay hm
      | purgeExpired maxAgeSecs now => exact hstay hm
      | deleteRoom id =>
          simp only [log] at hm
          split at hm
          · exact absurd hm List.not_mem_nil
          · exact hstay hm
      | storeMessage recipient envelope now =>
          simp only [log] at hm
          split at hm
          · rcases List.mem_append.1 hm with hmem | hlast
            · exact hstay hmem
            · obtain rfl := List.mem_singleton.1 hlast
              exact ⟨_, List.mem_append_right _ (List.mem_singleton_self _), rfl⟩
          · exact hstay hm

/-- The messages of a room are in the order of their clocks. -/
theorem sorted_logged (h : InOrder calls) :
    (logged roomId calls).Pairwise fun a b => a.storedAt ≤ b.storedAt := by
  induction calls using List.reverseRecOn with
  | nil => exact List.Pairwise.nil
  | append_singleton calls c ih =>
      have hsorted := ih h.init
      rw [logged_append_singleton]
      cases c with
      | storeRoom room => exact hsorted
      | purgeExpired maxAgeSecs now => exact hsorted
      | deleteRoom id =>
          simp only [log]
          split
          · exact List.Pairwise.nil
          · exact hsorted
      | storeMessage recipient envelope now =>
          simp only [log]
          split
          · refine List.pairwise_append.2 ⟨hsorted, List.pairwise_singleton _ _, ?_⟩
            intro a ha b hb
            obtain rfl := List.mem_singleton.1 hb
            obtain ⟨c', hc', hclock⟩ := exists_clock_of_mem_logged ha
            exact h.le_last rfl hc' hclock
          · exact hsorted

/-- A purge that spares a message spares the later ones. -/
theorem survives_mono (hle : m.storedAt ≤ m'.storedAt) (h : survives calls m) :
    survives calls m' := by
  unfold survives at h ⊢
  rw [List.all_eq_true] at h ⊢
  intro c hc
  have hspared := h c hc
  cases c with
  | storeRoom room => rfl
  | deleteRoom id => rfl
  | storeMessage recipient envelope now => rfl
  | purgeExpired maxAgeSecs now =>
      simp only [expires, Bool.not_eq_true', decide_eq_false_iff_not, UInt64.lt_iff_toNat_lt] at hspared ⊢
      rw [UInt64.le_iff_toNat_le] at hle
      omega

/-- No purge has found a message too old before it comes in. -/
theorem survives_of_last {recipient : Fingerprint} {envelope : MessageEnvelope} {now : UInt64}
    (h : InOrder (calls ++ [.storeMessage recipient envelope now])) :
    survives calls ⟨envelope, recipient, now⟩ := by
  unfold survives
  rw [List.all_eq_true]
  intro c hc
  cases c with
  | storeRoom room => rfl
  | deleteRoom id => rfl
  | storeMessage recipient envelope now => rfl
  | purgeExpired maxAgeSecs t =>
      have hle : t ≤ now := h.le_last rfl hc rfl
      have hcutoff := saturatingSub_le t maxAgeSecs
      rw [UInt64.le_iff_toNat_le] at hle hcutoff
      simp only [expires, Bool.not_eq_true', decide_eq_false_iff_not, UInt64.lt_iff_toNat_lt]
      omega

end MemoryCall

/-! ### Runs -/

namespace MemoryAdapter

open MemoryCall
open Retention (roomKey storeMessage_eq)

variable {maxMessages : UInt32} {calls : List MemoryCall} {roomId : RoomId}

theorem run_append_singleton (maxMessages : UInt32) (calls : List MemoryCall) (c : MemoryCall) :
    run maxMessages (calls ++ [c]) = (run maxMessages calls).call c := List.foldl_append

theorem maxMessagesPerRoom_run (maxMessages : UInt32) (calls : List MemoryCall) :
    (run maxMessages calls).backlog.maxMessagesPerRoom = maxMessages := by
  induction calls using List.reverseRecOn with
  | nil => rfl
  | append_singleton calls c ih =>
      rw [run_append_singleton]
      refine Eq.trans ?_ ih
      cases c <;> rfl

/-- The messages kept for a room. -/
def kept (s : MemoryAdapter) (roomId : RoomId) : List StoredMessage :=
  s.backlog.messages.filter fun m => roomKey m = roomId.asStr

theorem kept_deleteRoom (s : MemoryAdapter) (id roomId : RoomId) :
    (s.deleteRoom id).kept roomId = if id = roomId then [] else s.kept roomId := by
  unfold kept deleteRoom
  rw [List.filter_filter]
  split
  · next heq =>
      subst heq
      refine List.filter_eq_nil_iff.2 ?_
      intro m _ hm
      rw [Bool.and_eq_true] at hm
      exact of_decide_eq_true hm.2 (of_decide_eq_true hm.1)
  · next hne =>
      refine List.filter_congr ?_
      intro m _
      by_cases hm : roomKey m = roomId.asStr
      · have hother : m.envelope.roomId.asStr ≠ id.asStr := by
          intro heq
          exact hne (RoomId.asStr_injective (heq.symm.trans hm))
        simp [hm, hother]
      · simp [hm]

theorem kept_storeMessage (s : MemoryAdapter) (recipient : Fingerprint) (envelope : MessageEnvelope)
    (now : UInt64) (roomId : RoomId) :
    (s.storeMessage recipient envelope now).kept roomId =
      if envelope.roomId = roomId then
        (if s.backlog.maxMessagesPerRoom.toNat ≤ (s.kept roomId).length then (s.kept roomId).drop 1
          else s.kept roomId) ++ [⟨envelope, recipient, now⟩]
      else s.kept roomId := by
  have hstore := storeMessage_eq s.backlog ⟨recipient, envelope, now⟩
  have hkey : roomKey (Arrival.stored ⟨recipient, envelope, now⟩) = roomId.asStr ↔
      envelope.roomId = roomId := RoomId.asStr_injective.eq_iff
  unfold kept storeMessage
  dsimp only at hstore ⊢
  rw [hstore, filter_enqueue]
  simp only [hkey]
  rfl

theorem kept_purgeExpired (s : MemoryAdapter) (maxAgeSecs now : UInt64) (roomId : RoomId) :
    (s.purgeExpired maxAgeSecs now).2.kept roomId =
      (s.kept roomId).filter fun m => !(MemoryCall.purgeExpired maxAgeSecs now).expires m := by
  unfold kept purgeExpired
  rw [List.filter_filter, List.filter_filter]
  refine List.filter_congr ?_
  intro m _
  rw [Bool.and_comm]
  refine congrArg (· && _) ?_
  simp only [expires, UInt64.le_iff_toNat_le, UInt64.lt_iff_toNat_lt, ← decide_not, Nat.not_lt]

/-- **What is kept for a room**: its newest messages since it has been deleted last, except those that a
purge finds too old. -/
theorem kept_run (h : InOrder calls) (roomId : RoomId) :
    (run maxMessages calls).kept roomId =
      (newest (max maxMessages.toNat 1) (logged roomId calls)).filter (survives calls) := by
  induction calls using List.reverseRecOn with
  | nil =>
      rw [logged, List.foldl_nil, newest_nil]
      rfl
  | append_singleton calls c ih =>
      have hkept := ih h.init
      rw [run_append_singleton, logged_append_singleton]
      cases c with
      | storeRoom room =>
          rw [survives_append_of_spares calls fun _ => rfl]
          exact hkept
      | deleteRoom id =>
          rw [survives_append_of_spares calls fun _ => rfl]
          simp only [call, kept_deleteRoom, log, hkept]
          split
          · rw [newest_nil, List.filter_nil]
          · rfl
      | storeMessage recipient envelope now =>
          rw [survives_append_of_spares calls fun _ => rfl]
          simp only [call, kept_storeMessage, log, hkept, maxMessagesPerRoom_run]
          split
          · have hmono : (logged roomId calls).Pairwise fun a b =>
                survives calls a → survives calls b :=
              (sorted_logged h.init).imp fun hle => survives_mono hle
            rw [newest_filter_append_singleton (by omega) hmono (survives_of_last h)]
            generalize (newest (max maxMessages.toNat 1) (logged roomId calls)).filter
              (survives calls) = kept
            by_cases hfull : maxMessages.toNat ≤ kept.length
            · rw [if_pos hfull]
              split
              · rfl
              · next hlt =>
                  -- only at the limit 0, and then nothing was kept
                  obtain rfl : kept = [] := List.eq_nil_of_length_eq_zero (by omega)
                  rfl
            · rw [if_neg hfull, if_neg (by omega)]
          · rfl
      | purgeExpired maxAgeSecs now =>
          simp only [call, kept_purgeExpired, log, hkept, List.filter_filter]
          refine List.filter_congr fun m _ => ?_
          rw [survives_append_singleton, Bool.and_comm]

theorem loadRoom_run (maxMessages : UInt32) (calls : List MemoryCall) (roomId : RoomId) :
    (run maxMessages calls).loadRoom roomId = placed roomId calls := by
  induction calls using List.reverseRecOn with
  | nil => rfl
  | append_singleton calls c ih =>
      rw [run_append_singleton, placed_append_singleton, ← ih]
      cases c with
      | storeRoom room =>
          refine (lookup_insert_ite _ _ _ _).trans (if_congr ?_ rfl rfl)
          rw [RoomId.asStr_injective.eq_iff, eq_comm]
      | deleteRoom id =>
          refine (lookup_erase_ite _ _ _).trans (if_congr ?_ rfl rfl)
          rw [RoomId.asStr_injective.eq_iff, eq_comm]
      | storeMessage recipient envelope now => rfl
      | purgeExpired maxAgeSecs now => rfl

/-- **What a fetch answers after any run** in which the clock does not run backwards: of the newest
messages of the room since it has been deleted last, as many as the limit says but one at least, those that
no purge finds too old, that are for the recipient and above the number, in the order in which they were
stored.  With a limit of zero, one message is kept.  The room itself is the one that was stored last, unless
it has been deleted after that. -/
theorem fetch_run (maxMessages : UInt32) {calls : List MemoryCall} (h : InOrder calls)
    (roomId : RoomId) :
    (∀ recipient sinceSeq, (run maxMessages calls).fetchBacklog roomId recipient sinceSeq =
      (((newest (max maxMessages.toNat 1) (logged roomId calls)).filter (survives calls)).filter fun m =>
        m.recipientFingerprint = recipient && sinceSeq < m.envelope.sequenceNumber).map
          StoredMessage.envelope) ∧
    (run maxMessages calls).loadRoom roomId = placed roomId calls := by
  refine ⟨fun recipient sinceSeq => ?_, loadRoom_run maxMessages calls roomId⟩
  rw [← kept_run h roomId]
  unfold fetchBacklog MemoryStorageAdapter.fetchBacklog kept
  rw [List.filter_filter]
  refine congrArg (List.map _) (List.filter_congr fun m _ => ?_)
  rw [Bool.and_assoc, Bool.and_comm]
  rfl

/-- Three messages of a room with a limit of two, and a purge before the last one. -/
def testCalls : List MemoryCall :=
  [.storeMessage StorageAgreement.testBob
      (StorageAgreement.testEnvelope StorageAgreement.testAlice 1) 1000,
    .storeMessage StorageAgreement.testBob
      (StorageAgreement.testEnvelope StorageAgreement.testAlice 2) 1010,
    .purgeExpired 5 1012,
    .storeMessage StorageAgreement.testBob
      (StorageAgreement.testEnvelope StorageAgreement.testAlice 3) 1013]

theorem inOrder_testCalls : InOrder testCalls := by
  unfold InOrder
  decide

/-- The first message is gone, the others are answered. -/
theorem fetch_run_testCalls : (run 2 testCalls).fetchBacklog ⟨1⟩ StorageAgreement.testBob 0 =
    [StorageAgreement.testEnvelope StorageAgreement.testAlice 2,
      StorageAgreement.testEnvelope StorageAgreement.testAlice 3] :=
  (fetch_run 2 inOrder_testCalls ⟨1⟩).1 StorageAgreement.testBob 0

end MemoryAdapter

end Sanctum
