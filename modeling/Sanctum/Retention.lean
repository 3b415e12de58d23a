/-
What is kept.

The adapter in memory makes room for a message by dropping the oldest one of its room; the messages of all
rooms are in one list, and at the limit 0 there is nothing to drop when a message comes in.  The purge in SQLite
keeps the messages with the highest sequence numbers, as signed numbers, and among messages with one number
those that the engine sorts first.  What SQLite keeps after each message are therefore the messages with the
highest numbers of all, and these are the newest ones only if the numbers ascend.

Main definitions:

* `Sanctum.SqliteStorageAdapter.storeAndPurge` — a purge after each message;
* `Sanctum.Retention.KeepNewest` — both adapters keep the newest messages, and the same ones;
* `Sanctum.Retention.NewestHighest` — the newest messages have the highest numbers.

Main results:

* `Sanctum.Retention.filter_storeAll`, `Sanctum.Retention.messages_storeAll` — **the adapter in memory
  keeps the newest messages**, of each room;
* `Sanctum.Retention.rooms_keep_newest_iff` — **when it keeps no more than the limit**;
* `Sanctum.Retention.storeAndPurge_isTop` — **SQLite keeps messages with the highest numbers**;
* `Sanctum.Retention.keepNewest_iff` — **when the two adapters keep the same messages**.
-/

import Sanctum.StorageAgreement
import Sanctum.Selection

set_option relaxedAutoImplicit false
set_option autoImplicit false

namespace Sanctum

open Selection

/-! ### Rows -/

/-- What was given to the adapter. -/
def StoredMessage.arrival (m : StoredMessage) : Arrival where
  recipient := m.recipientFingerprint
  envelope := m.envelope
  storedAt := m.storedAt

namespace Arrival

variable (sha256 : Bytes → Bytes32) (encrypt : MessageEnvelope → Bytes)

theorem rows_map_id (lastId : ℕ) (arrivals : List Arrival) :
    (rows sha256 encrypt lastId arrivals).map MessageRow.id =
      List.range' (lastId + 1) arrivals.length := by
  induction arrivals generalizing lastId with
  | nil => rfl
  | cons a arrivals ih => rw [rows, List.map_cons, ih, List.length_cons, List.range'_succ]; rfl

theorem rows_map_sequenceNumber (lastId : ℕ) (arrivals : List Arrival) :
    (rows sha256 encrypt lastId arrivals).map MessageRow.sequenceNumber =
      arrivals.map fun a => a.envelope.sequenceNumber.toInt64 :=
  rows_map sha256 encrypt _ _ (fun _ _ => rfl) lastId arrivals

theorem rows_nodup (lastId : ℕ) (arrivals : List Arrival) :
    (rows sha256 encrypt lastId arrivals).Nodup := by
  refine List.Nodup.of_map MessageRow.id ?_
  rw [rows_map_id]
  exact List.nodup_range'

theorem roomId_of_mem_rows (lastId : ℕ) {arrivals : List Arrival} {roomId : RoomId}
    (h : ∀ a ∈ arrivals, a.envelope.roomId = roomId) :
    ∀ row ∈ rows sha256 encrypt lastId arrivals, row.roomId = roomId.asStr := by
  have hmap := rows_map sha256 encrypt MessageRow.roomId (fun a => a.envelope.roomId.asStr)
    (fun _ _ => rfl) lastId arrivals
  intro row hrow
  have hmem : row.roomId ∈ arrivals.map fun a => a.envelope.roomId.asStr :=
    hmap ▸ List.mem_map_of_mem hrow
  obtain ⟨a, ha, heq⟩ := List.mem_map.1 hmem
  rw [← heq, h a ha]

end Arrival

/-! ### A purge after each message -/

namespace SqliteStorageAdapter

variable (sha256 : Bytes → Bytes32) (sql : Sql) (encrypt : MessageEnvelope → Bytes)

/-- Store a sequence of messages, and purge the excess of the room after each of them. -/
def storeAndPurge (s : SqliteStorageAdapter) (roomId : RoomId) (maxMessages : UInt32)
    (arrivals : List Arrival) : Except SanctumError SqliteStorageAdapter :=
  arrivals.foldlM (fun s a =>
    (s.storeMessage sha256 a.envelope.roomId a.recipient a.envelope.sequenceNumber
      (encrypt a.envelope) a.storedAt).map fun s => (s.purgeExcess sql roomId maxMessages).2) s

theorem storeAndPurge_append_singleton {s s' : SqliteStorageAdapter} {roomId : RoomId}
    {maxMessages : UInt32} {arrivals : List Arrival}
    (h : s.storeAndPurge sha256 sql encrypt roomId maxMessages arrivals = .ok s') (a : Arrival) :
    s.storeAndPurge sha256 sql encrypt roomId maxMessages (arrivals ++ [a]) =
      (s'.storeMessage sha256 a.envelope.roomId a.recipient a.envelope.sequenceNumber
        (encrypt a.envelope) a.storedAt).map fun s => (s.purgeExcess sql roomId maxMessages).2 := by
  rw [storeAndPurge, List.foldlM_append, ← storeAndPurge, h]
  exact bind_pure ((s'.storeMessage sha256 a.envelope.roomId a.recipient a.envelope.sequenceNumber
    (encrypt a.envelope) a.storedAt).map fun s => (s.purgeExcess sql roomId maxMessages).2)

/-- A purge keeps the rows that the engine sorts first. -/
theorem purgeExcess_isTop {r : MessageRow → MessageRow → Prop}
    (hsorted : ∀ rows, (sql.descending rows).Pairwise r) {s : SqliteStorageAdapter} {roomId : RoomId}
    (hroom : ∀ row ∈ s.messages, row.roomId = roomId.asStr)
    (hids : (s.messages.map MessageRow.id).Nodup) (maxMessages : UInt32) :
    IsTop r maxMessages.toNat s.messages (s.purgeExcess sql roomId maxMessages).2.messages := by
  have hall : s.messages.filter (fun row => row.roomId = roomId.asStr) = s.messages :=
    List.filter_eq_self.2 fun row hrow => decide_eq_true (hroom row hrow)
  have hkept : (s.purgeExcess sql roomId maxMessages).2.messages =
      s.messages.filter fun row => row ∈ (sql.descending s.messages).take maxMessages.toNat := by
    unfold purgeExcess
    dsimp only
    rw [hall]
    refine List.filter_congr ?_
    intro row hrow
    have hselected : row.id ∈ ((sql.descending s.messages).take maxMessages.toNat).map MessageRow.id ↔
        row ∈ (sql.descending s.messages).take maxMessages.toNat := by
      refine ⟨fun hid => ?_, List.mem_map_of_mem⟩
      obtain ⟨row', hrow', heq⟩ := List.mem_map.1 hid
      have hmem' := (sql.descending_perm s.messages).subset (List.mem_of_mem_take hrow')
      obtain rfl := List.inj_on_of_nodup_map hids hmem' hrow heq
      exact hrow'
    rw [hroom row hrow, decide_eq_true rfl, Bool.true_and, ← decide_not]
    exact decide_eq_decide.2 (not_not.trans hselected)
  rw [hkept]
  exact isTop_filter (sql.descending_perm s.messages) (hsorted s.messages) (List.Nodup.of_map _ hids)

end SqliteStorageAdapter

namespace Retention

variable {sha256 : Bytes → Bytes32} {sql : Sql} {encrypt : MessageEnvelope → Bytes}
  {maxMessages : UInt32} {db : SqliteStorageAdapter} {roomId : RoomId} {arrivals : List Arrival}

/-- One message and one purge: the rows that the engine sorts first are kept. -/
theorem storeMessage_isTop {r : MessageRow → MessageRow → Prop}
    (hsorted : ∀ rows, (sql.descending rows).Pairwise r) (maxMessages : UInt32) {a : Arrival}
    (hhas : db.hasRoom a.envelope.roomId)
    (hroom : ∀ row ∈ db.messages ++ [a.row sha256 encrypt (db.lastId + 1)], row.roomId = roomId.asStr)
    (hids : ((db.messages ++ [a.row sha256 encrypt (db.lastId + 1)]).map MessageRow.id).Nodup) :
    ∃ db', (db.storeMessage sha256 a.envelope.roomId a.recipient a.envelope.sequenceNumber
        (encrypt a.envelope) a.storedAt).map (fun s => (s.purgeExcess sql roomId maxMessages).2) =
          .ok db' ∧
      db'.rooms = db.rooms ∧ db'.lastId = db.lastId + 1 ∧
      IsTop r maxMessages.toNat (db.messages ++ [a.row sha256 encrypt (db.lastId + 1)])
        db'.messages := by
  have hstore : db.storeMessage sha256 a.envelope.roomId a.recipient a.envelope.sequenceNumber
      (encrypt a.envelope) a.storedAt = .ok { db with
        messages := db.messages ++ [a.row sha256 encrypt (db.lastId + 1)]
        lastId := db.lastId + 1 } := if_pos hhas
  rw [hstore]
  refine ⟨_, rfl, rfl, rfl, ?_⟩
  exact SqliteStorageAdapter.purgeExcess_isTop sql hsorted (s := { db with
    messages := db.messages ++ [a.row sha256 encrypt (db.lastId + 1)]
    lastId := db.lastId + 1 }) hroom hids maxMessages

/-- **SQLite keeps messages with the highest numbers**, and among equal numbers those that the engine
sorts first. -/
theorem storeAndPurge_isTop (sha256 : Bytes → Bytes32) (sql : Sql) (encrypt : MessageEnvelope → Bytes)
    (maxMessages : UInt32) {r : MessageRow → MessageRow → Prop}
    (hsorted : ∀ rows, (sql.descending rows).Pairwise r) (htrans : ∀ a b c, r a b → r b c → r a c)
    (hhosts : db.Hosts arrivals) (hroom : ∀ a ∈ arrivals, a.envelope.roomId = roomId) :
    ∃ db', db.storeAndPurge sha256 sql encrypt roomId maxMessages arrivals = .ok db' ∧
      db'.rooms = db.rooms ∧ db'.lastId = db.lastId + arrivals.length ∧
      IsTop r maxMessages.toNat (Arrival.rows sha256 encrypt db.lastId arrivals) db'.messages := by
  induction arrivals using List.reverseRecOn with
  | nil =>
      refine ⟨db, rfl, rfl, rfl, ?_⟩
      rw [hhosts.empty]
      exact IsTop.nil r _
  | append_singleton arrivals a ih =>
      obtain ⟨hempty, hrooms⟩ := hhosts
      have hinroom := Arrival.roomId_of_mem_rows sha256 encrypt db.lastId hroom
      rw [List.forall_mem_append] at hrooms hroom
      obtain ⟨db', hstore, hrooms', hlast, htop⟩ := ih ⟨hempty, hrooms.1⟩ hroom.1
      have hrows := Arrival.rows_append sha256 encrypt db.lastId arrivals [a]
      rw [← hlast] at hrows
      -- What was kept, and the new row, are rows of the sequence.
      have hsublist : (db'.messages ++ [a.row sha256 encrypt (db'.lastId + 1)]).Sublist
          (Arrival.rows sha256 encrypt db.lastId (arrivals ++ [a])) := by
        rw [hrows]
        exact htop.sublist.append_right _
      have hids : ((db'.messages ++ [a.row sha256 encrypt (db'.lastId + 1)]).map
          MessageRow.id).Nodup := by
        refine (hsublist.map MessageRow.id).nodup ?_
        rw [Arrival.rows_map_id]
        exact List.nodup_range'
      have hhas : db'.hasRoom a.envelope.roomId := by
        have hroom' := hrooms.2 a (List.mem_singleton_self a)
        rwa [SqliteStorageAdapter.hasRoom, hrooms']
      obtain ⟨db'', hstep, hrooms'', hlast', htop'⟩ := storeMessage_isTop hsorted
        maxMessages hhas (fun row hrow => hinroom row (hsublist.subset hrow)) hids
      refine ⟨db'', ?_, hrooms''.trans hrooms', ?_, ?_⟩
      · rw [SqliteStorageAdapter.storeAndPurge_append_singleton sha256 sql encrypt hstore, hstep]
      · rw [hlast', hlast, List.length_append, List.length_singleton]
        rfl
      · have hnodup := Arrival.rows_nodup sha256 encrypt db.lastId (arrivals ++ [a])
        rw [hrows] at hnodup ⊢
        exact htop.push htrans htop' hnodup

/-! ### In memory -/

/-- The key of a message is its room. -/
def roomKey (m : StoredMessage) : String := m.envelope.roomId.asStr

/-- A message is stored as an element that comes into the queue of its room. -/
theorem storeMessage_eq (s : MemoryStorageAdapter) (a : Arrival) :
    s.storeMessage a.recipient a.envelope a.storedAt =
      { s with messages := enqueue roomKey s.maxMessagesPerRoom.toNat s.messages a.stored } := by
  unfold MemoryStorageAdapter.storeMessage enqueue
  rw [evict_eq]
  rfl

/-- The adapter is one list for the queues of the rooms. -/
theorem storeAll_eq_enqueue (maxMessages : UInt32) (arrivals : List Arrival) :
    (MemoryStorageAdapter.new maxMessages).storeAll arrivals =
      { messages := (arrivals.map Arrival.stored).foldl (enqueue roomKey maxMessages.toNat) []
        maxMessagesPerRoom := maxMessages } := by
  induction arrivals using List.reverseRecOn with
  | nil => rfl
  | append_singleton arrivals a ih =>
      rw [MemoryStorageAdapter.storeAll_append, ih, List.map_append, List.foldl_append]
      exact storeMessage_eq _ a

/-- **For each room the adapter keeps the newest messages**, and at least the last one. -/
theorem filter_storeAll (maxMessages : UInt32) (arrivals : List Arrival) (roomId : RoomId) :
    ((MemoryStorageAdapter.new maxMessages).storeAll arrivals).messages.filter
        (fun m => m.envelope.roomId = roomId) =
      newest (max maxMessages.toNat 1)
        ((arrivals.filter fun a => a.envelope.roomId = roomId).map Arrival.stored) := by
  have hkey : ∀ m : StoredMessage, m.envelope.roomId = roomId ↔ roomKey m = roomId.asStr := fun m =>
    RoomId.asStr_injective.eq_iff.symm
  have hkey' : ∀ a : Arrival, a.envelope.roomId = roomId ↔ roomKey a.stored = roomId.asStr := fun a =>
    hkey a.stored
  simp only [hkey, hkey', storeAll_eq_enqueue]
  rw [filter_foldl_enqueue, List.filter_map]
  rfl

/-- **The adapter in memory keeps the newest messages.** -/
theorem messages_storeAll (hmax : 0 < maxMessages.toNat)
    (hroom : ∀ a ∈ arrivals, a.envelope.roomId = roomId) :
    ((MemoryStorageAdapter.new maxMessages).storeAll arrivals) =
      { messages := newest maxMessages.toNat (arrivals.map Arrival.stored)
        maxMessagesPerRoom := maxMessages } := by
  have hall : ∀ m ∈ ((MemoryStorageAdapter.new maxMessages).storeAll arrivals).messages,
      m.envelope.roomId = roomId := by
    intro m hm
    have hqueue : m ∈ ((MemoryStorageAdapter.new maxMessages).storeAll arrivals).messages.filter
        (fun m' => m'.envelope.roomId = m.envelope.roomId) :=
      List.mem_filter.2 ⟨hm, decide_eq_true rfl⟩
    rw [filter_storeAll] at hqueue
    obtain ⟨a, ha, rfl⟩ := List.mem_map.1 ((newest_sublist _ _).subset hqueue)
    exact hroom a (List.mem_filter.1 ha).1
  have hkept := filter_storeAll maxMessages arrivals roomId
  have harrivals : (arrivals.filter fun a => a.envelope.roomId = roomId) = arrivals :=
    List.filter_eq_self.2 fun a ha => decide_eq_true (hroom a ha)
  rw [List.filter_eq_self.2 fun m hm => decide_eq_true (hall m hm), harrivals,
    Nat.max_eq_left hmax] at hkept
  rw [← hkept, storeAll_eq_enqueue]

/-- **When each room keeps its newest messages**, and no more than the limit: whenever there is room for
one.  With the limit 0 the last message of a room is kept all the same. -/
theorem rooms_keep_newest_iff (maxMessages : UInt32) (arrivals : List Arrival) :
    (∀ roomId : RoomId,
      ((MemoryStorageAdapter.new maxMessages).storeAll arrivals).messages.filter
          (fun m => m.envelope.roomId = roomId) =
        newest maxMessages.toNat
          ((arrivals.filter fun a => a.envelope.roomId = roomId).map Arrival.stored) ∧
      (((MemoryStorageAdapter.new maxMessages).storeAll arrivals).messages.filter
          (fun m => m.envelope.roomId = roomId)).length ≤ maxMessages.toNat) ↔
      0 < maxMessages.toNat ∨ arrivals = [] := by
  simp only [filter_storeAll, length_newest]
  constructor
  · intro h
    cases arrivals with
    | nil => exact Or.inr rfl
    | cons a arrivals =>
        have hlength := (h a.envelope.roomId).2
        rw [List.filter_cons, if_pos (decide_eq_true rfl), List.map_cons, List.length_cons] at hlength
        exact Or.inl (by omega)
  · rintro (hmax | rfl) roomId
    · rw [Nat.max_eq_left hmax]
      exact ⟨rfl, Nat.min_le_left _ _⟩
    · rw [List.filter_nil, List.map_nil, newest_nil, newest_nil, List.length_nil, Nat.min_zero]
      exact ⟨rfl, Nat.zero_le _⟩

/-- **A message is kept at the limit 0**, which the configuration of a room allows. -/
theorem message_kept_at_limit_zero :
    ({ RoomConfig.default with backlogMaxMessages := 0 } : RoomConfig).validate.backlogMaxMessages = 0 ∧
      (((MemoryStorageAdapter.new 0).storeAll
          [StorageAgreement.testArrival StorageAgreement.testAlice StorageAgreement.testBob 1]).messages.filter
        fun m => m.envelope.roomId = ⟨1⟩).length = 1 := by
  constructor
  · decide
  · decide

/-! ### The two adapters -/

/-- **Both adapters keep the newest messages, and the same ones**, whatever the engine does with messages of
one number.  The rows kept are compared with their identifiers, and without them with the messages in
memory. -/
def KeepNewest (sha256 : Bytes → Bytes32) (encrypt : MessageEnvelope → Bytes) (db : SqliteStorageAdapter)
    (roomId : RoomId) (maxMessages : UInt32) (arrivals : List Arrival) : Prop :=
  ∀ sql : Sql, ∃ db', db.storeAndPurge sha256 sql encrypt roomId maxMessages arrivals = .ok db' ∧
    let memory := (MemoryStorageAdapter.new maxMessages).storeAll arrivals
    memory.messages = newest maxMessages.toNat (arrivals.map Arrival.stored) ∧
      db'.messages = newest maxMessages.toNat (Arrival.rows sha256 encrypt db.lastId arrivals) ∧
      db'.messages.map (fun row => { row with id := 0 }) =
        memory.messages.map fun m => m.arrival.row sha256 encrypt 0

/-- Each of the newest messages has a higher number, as a signed number, than each of the others. -/
def NewestHighest (maxMessages : UInt32) (arrivals : List Arrival) : Prop :=
  ∀ a ∈ newest maxMessages.toNat arrivals,
    ∀ b ∈ arrivals.take (arrivals.length - maxMessages.toNat),
      b.envelope.sequenceNumber.toInt64 < a.envelope.sequenceNumber.toInt64

theorem newestHighest_iff_rows (sha256 : Bytes → Bytes32) (encrypt : MessageEnvelope → Bytes)
    (lastId : ℕ) : NewestHighest maxMessages arrivals ↔
      ∀ row ∈ newest maxMessages.toNat (Arrival.rows sha256 encrypt lastId arrivals),
        ∀ row' ∈ (Arrival.rows sha256 encrypt lastId arrivals).take
            ((Arrival.rows sha256 encrypt lastId arrivals).length - maxMessages.toNat),
          row'.sequenceNumber < row.sequenceNumber := by
  have hmap := Arrival.rows_map_sequenceNumber sha256 encrypt lastId arrivals
  have hnewest := congrArg (newest maxMessages.toNat) hmap
  have htake := congrArg (List.take (arrivals.length - maxMessages.toNat)) hmap
  rw [newest_map, newest_map] at hnewest
  rw [← List.map_take, ← List.map_take] at htake
  have hiff : (∀ n ∈ (newest maxMessages.toNat arrivals).map fun a =>
        a.envelope.sequenceNumber.toInt64,
      ∀ m ∈ (arrivals.take (arrivals.length - maxMessages.toNat)).map fun a =>
        a.envelope.sequenceNumber.toInt64, m < n) ↔ NewestHighest maxMessages arrivals := by
    simp only [List.forall_mem_map, NewestHighest]
  rw [← hiff, ← hnewest, ← htake, Arrival.length_rows]
  simp only [List.forall_mem_map]

/-- The rows of the newest messages have greater identifiers than the others. -/
theorem id_lt_of_newest {lastId : ℕ} {row row' : MessageRow}
    (h : row ∈ newest maxMessages.toNat (Arrival.rows sha256 encrypt lastId arrivals))
    (h' : row' ∈ (Arrival.rows sha256 encrypt lastId arrivals).take
      ((Arrival.rows sha256 encrypt lastId arrivals).length - maxMessages.toNat)) :
    row'.id < row.id := by
  have hids : (Arrival.rows sha256 encrypt lastId arrivals).Pairwise fun a b => a.id < b.id := by
    rw [← List.pairwise_map, Arrival.rows_map_id]
    exact List.pairwise_lt_range'
  rw [← List.take_append_drop ((Arrival.rows sha256 encrypt lastId arrivals).length -
    maxMessages.toNat) (Arrival.rows sha256 encrypt lastId arrivals), List.pairwise_append] at hids
  exact hids.2.2 row' h' row h

/-- If the newest messages are kept, they have the highest numbers: the engine that prefers the older
message would keep it, if its number were as high. -/
theorem newestHighest_of_keepNewest (hhosts : db.Hosts arrivals)
    (hroom : ∀ a ∈ arrivals, a.envelope.roomId = roomId)
    (h : KeepNewest sha256 encrypt db roomId maxMessages arrivals) :
    NewestHighest maxMessages arrivals := by
  rw [newestHighest_iff_rows sha256 encrypt db.lastId]
  intro row hrow row' hrow'
  have htrans : ∀ a b c, Sql.descendingLe a b = true → Sql.descendingLe b c = true →
      Sql.descendingLe a c = true := by
    intro a b c hab hbc
    rw [Sql.descendingLe_iff] at hab hbc ⊢
    omega
  obtain ⟨db', hstore, -, hnewest, -⟩ := h .oldestFirst
  obtain ⟨db'', hstore', -, -, htop⟩ := storeAndPurge_isTop sha256 .oldestFirst encrypt maxMessages
    Sql.descendingLe_sorted htrans hhosts hroom
  obtain rfl := Except.ok.inj (hstore.symm.trans hstore')
  rw [hnewest] at htop
  have hnodup := Arrival.rows_nodup sha256 encrypt db.lastId arrivals
  have hbetter := Sql.descendingLe_iff.1 (htop.of_eq_newest hnodup row hrow row' hrow')
  have hid := id_lt_of_newest hrow hrow'
  rw [Int64.lt_iff_toInt_lt]
  omega

/-- If the newest messages have the highest numbers, every engine keeps them. -/
theorem keepNewest_of_newestHighest (hmax : 0 < maxMessages.toNat) (hhosts : db.Hosts arrivals)
    (hroom : ∀ a ∈ arrivals, a.envelope.roomId = roomId) (h : NewestHighest maxMessages arrivals) :
    KeepNewest sha256 encrypt db roomId maxMessages arrivals := by
  rw [newestHighest_iff_rows sha256 encrypt db.lastId] at h
  intro sql
  have htrans : ∀ a b c : MessageRow, b.sequenceNumber ≤ a.sequenceNumber →
      c.sequenceNumber ≤ b.sequenceNumber → c.sequenceNumber ≤ a.sequenceNumber := by
    intro a b c hab hbc
    rw [Int64.le_iff_toInt_le] at hab hbc ⊢
    omega
  have hnot : ∀ {a b : MessageRow}, b.sequenceNumber < a.sequenceNumber →
      ¬ a.sequenceNumber ≤ b.sequenceNumber := by
    intro a b hlt hle
    rw [Int64.lt_iff_toInt_lt] at hlt
    rw [Int64.le_iff_toInt_le] at hle
    omega
  obtain ⟨db', hstore, -, -, htop⟩ := storeAndPurge_isTop sha256 sql encrypt maxMessages
    sql.descending_sorted htrans hhosts hroom
  have hnodup := Arrival.rows_nodup sha256 encrypt db.lastId arrivals
  have hnewest := htop.eq_newest hnodup fun row hrow row' hrow' => hnot (h row hrow row' hrow')
  refine ⟨db', hstore, ?_⟩
  dsimp only
  rw [messages_storeAll hmax hroom, hnewest]
  refine ⟨rfl, rfl, ?_⟩
  rw [← newest_map, ← newest_map, List.map_map,
    Arrival.rows_map sha256 encrypt _ (fun a => a.row sha256 encrypt 0) (fun _ _ => rfl)]
  rfl

/-- **The two adapters keep the same messages, the newest, exactly when** each of the newest messages has
a higher number than each of the others. -/
theorem keepNewest_iff (hmax : 0 < maxMessages.toNat) (hhosts : db.Hosts arrivals)
    (hroom : ∀ a ∈ arrivals, a.envelope.roomId = roomId) :
    KeepNewest sha256 encrypt db roomId maxMessages arrivals ↔ NewestHighest maxMessages arrivals :=
  ⟨newestHighest_of_keepNewest hhosts hroom, keepNewest_of_newestHighest hmax hhosts hroom⟩

/-- **The newest message is purged**: it is the first one of its sender, and the other message is the second
one of another sender. -/
theorem newest_purged : ¬ KeepNewest StorageAgreement.testSha256 MessageEnvelope.ciphertext
    StorageAgreement.testDb ⟨1⟩ 1 StorageAgreement.testDescending := by
  intro h
  have hhighest := newestHighest_of_keepNewest (StorageAgreement.hosts_testDb (by decide)) (by decide) h
  revert hhighest
  unfold NewestHighest
  decide

/-- The messages of one sender are kept alike. -/
theorem keepNewest_ascending : KeepNewest StorageAgreement.testSha256 MessageEnvelope.ciphertext
    StorageAgreement.testDb ⟨1⟩ 2 StorageAgreement.testFirst := by
  refine (keepNewest_iff (by decide) (StorageAgreement.hosts_testDb (by decide)) (by decide)).2 ?_
  unfold NewestHighest
  decide

end Retention

end Sanctum
