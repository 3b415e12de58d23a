/-
The two adapters side by side.

Both adapters get the same messages and the same purges.  Below the limit of the one in memory they keep the
same messages, as long as the clocks can be stored as signed numbers: a purge deletes as many messages in
the one as in the other, and a fetch answers the same messages, though perhaps in another order.

Main definitions:

* `Sanctum.BacklogCall` — a message or a purge, for both adapters;
* `Sanctum.ExpiryAgreement.Alike` — **the rows are the messages in memory**.

Main results:

* `Sanctum.ExpiryAgreement.Alike.store`, `Sanctum.ExpiryAgreement.Alike.purge` — each call keeps the
  adapters alike;
* `Sanctum.ExpiryAgreement.adapters_agree` — **they are alike after any run**, so that the next purge and
  the next fetch have the same results.
-/

import Sanctum.SqliteHistory

set_option relaxedAutoImplicit false
set_option autoImplicit false

namespace Sanctum

/-- A call for both adapters. -/
inductive BacklogCall
  | store (a : Arrival)
  | purge (maxAgeSecs now : UInt64)

namespace BacklogCall

/-- The clock of a call. -/
def clock : BacklogCall → UInt64
  | .store a => a.storedAt
  | .purge _ now => now

/-- The call of the adapter in memory. -/
def inMemory : BacklogCall → MemoryCall
  | .store a => .storeMessage a.recipient a.envelope a.storedAt
  | .purge maxAgeSecs now => .purgeExpired maxAgeSecs now

/-- The call of the database. -/
def inSqlite (encrypt : MessageEnvelope → Bytes) : BacklogCall → SqliteCall
  | .store a => .storeMessage a.envelope.roomId a.recipient a.envelope.sequenceNumber
      (encrypt a.envelope) a.storedAt
  | .purge maxAgeSecs now => .purgeExpired maxAgeSecs now

/-- The messages of a sequence of calls. -/
def arrivals : List BacklogCall → List Arrival
  | [] => []
  | .store a :: calls => a :: arrivals calls
  | .purge _ _ :: calls => arrivals calls

theorem arrivals_append (calls calls' : List BacklogCall) :
    arrivals (calls ++ calls') = arrivals calls ++ arrivals calls' := by
  induction calls with
  | nil => rfl
  | cons c calls ih =>
      cases c with
      | store a => exact congrArg (a :: ·) ih
      | purge maxAgeSecs now => exact ih

end BacklogCall

namespace ExpiryAgreement

open Retention (roomKey storeMessage_eq)

/-- A row without its identifier. -/
def contents (row : MessageRow) : MessageRow := { row with id := 0 }

/-- The row of a message in memory, without an identifier. -/
def rowOf (sha256 : Bytes → Bytes32) (encrypt : MessageEnvelope → Bytes) (m : StoredMessage) : MessageRow :=
  Arrival.row sha256 encrypt 0 ⟨m.recipientFingerprint, m.envelope, m.storedAt⟩

/-- **The rows are the messages in memory**, in the same order, and both are among what has been stored. -/
structure Alike (sha256 : Bytes → Bytes32) (encrypt : MessageEnvelope → Bytes) (stored : List Arrival)
    (mem : MemoryAdapter) (db : SqliteDatabase) : Prop where
  sublist : mem.backlog.messages.Sublist (stored.map Arrival.stored)
  rows : db.store.messages.map contents = mem.backlog.messages.map (rowOf sha256 encrypt)

variable {sha256 : Bytes → Bytes32} {sql : Sql} {encrypt : MessageEnvelope → Bytes}
  {stored : List Arrival} {mem : MemoryAdapter} {db : SqliteDatabase}

/-- Messages that are chosen in the same way. -/
theorem Alike.filter (h : Alike sha256 encrypt stored mem db) {p : StoredMessage → Bool}
    {q : MessageRow → Bool} (hcontents : ∀ row, q row = q (contents row))
    (hpq : ∀ m ∈ mem.backlog.messages, p m = q (rowOf sha256 encrypt m)) :
    (db.store.messages.filter q).map contents =
      (mem.backlog.messages.filter p).map (rowOf sha256 encrypt) := by
  have hrows : (db.store.messages.filter q).map contents =
      (db.store.messages.map contents).filter q := by
    rw [List.filter_map]
    exact congrArg _ (List.filter_congr fun row _ => hcontents row)
  rw [hrows, h.rows, List.filter_map]
  exact congrArg _ (List.filter_congr fun m hm => (hpq m hm).symm)

/-- Below the limit a message comes in at the end. -/
theorem messages_store (h : Alike sha256 encrypt stored mem db) {a : Arrival}
    (hfits : (stored.filter fun b => b.envelope.roomId = a.envelope.roomId).length <
      mem.backlog.maxMessagesPerRoom.toNat) :
    (mem.storeMessage a.recipient a.envelope a.storedAt).backlog.messages =
      mem.backlog.messages ++ [a.stored] := by
  have hcount : (mem.backlog.messages.filter fun m => roomKey m = roomKey a.stored).length ≤
      (stored.filter fun b => b.envelope.roomId = a.envelope.roomId).length := by
    refine ((h.sublist.filter _).length_le).trans (le_of_eq ?_)
    rw [List.filter_map, List.length_map]
    refine congrArg List.length (List.filter_congr fun b _ => ?_)
    exact decide_eq_decide.2 RoomId.asStr_injective.eq_iff
  unfold MemoryAdapter.storeMessage
  rw [storeMessage_eq mem.backlog a]
  unfold Selection.enqueue
  rw [if_neg (by omega)]

/-- A message comes in, if there is room for it and its room is stored. -/
theorem Alike.store (h : Alike sha256 encrypt stored mem db) {a : Arrival}
    (hroom : db.store.hasRoom a.envelope.roomId)
    (hfits : (stored.filter fun b => b.envelope.roomId = a.envelope.roomId).length <
      mem.backlog.maxMessagesPerRoom.toNat) :
    Alike sha256 encrypt (stored ++ [a]) (mem.call (BacklogCall.store a).inMemory)
      (db.call sha256 sql ((BacklogCall.store a).inSqlite encrypt)) where
  sublist := by
    simp only [MemoryAdapter.call, BacklogCall.inMemory, messages_store h hfits, List.map_append]
    exact h.sublist.append (List.Sublist.refl _)
  rows := by
    have hstore : (db.call sha256 sql ((BacklogCall.store a).inSqlite encrypt)).store.messages =
        db.store.messages ++ [a.row sha256 encrypt (db.store.lastId + 1)] := by
      simp only [SqliteDatabase.call, BacklogCall.inSqlite, SqliteDatabase.storeMessage,
        SqliteStorageAdapter.storeMessage, hroom, if_true]
      rfl
    rw [hstore, List.map_append, h.rows]
    simp only [MemoryAdapter.call, BacklogCall.inMemory, messages_store h hfits, List.map_append]
    rfl

/-- A purge finds the same messages too old. -/
theorem Alike.purge (h : Alike sha256 encrypt stored mem db) (maxAgeSecs : UInt64) {now : UInt64}
    (hnow : now.toNat < 2 ^ 63) (hclock : ∀ a ∈ stored, a.storedAt.toNat < 2 ^ 63) :
    (mem.purgeExpired maxAgeSecs now).1 = (db.purgeExpired maxAgeSecs now).1 ∧
      Alike sha256 encrypt stored (mem.purgeExpired maxAgeSecs now).2
        (db.purgeExpired maxAgeSecs now).2 := by
  have hcutoff : (saturatingSub now maxAgeSecs).toNat < 2 ^ 63 := by
    have hle := UInt64.le_iff_toNat_le.1 (saturatingSub_le now maxAgeSecs)
    omega
  have hkept := h.filter (p := fun m => saturatingSub now maxAgeSecs ≤ m.storedAt)
    (q := fun row => !(row.storedAt < (saturatingSub now maxAgeSecs).toInt64)) (fun row => rfl) (by
      intro m hm
      obtain ⟨a, ha, rfl⟩ := List.mem_map.1 (h.sublist.subset hm)
      have hsigned := lt_iff_toInt64_lt.2 (iff_of_true hcutoff (hclock a ha))
      show decide _ = !decide (a.storedAt.toInt64 < (saturatingSub now maxAgeSecs).toInt64)
      rw [← decide_eq_decide.2 hsigned, ← decide_not]
      refine decide_eq_decide.2 ?_
      rw [UInt64.le_iff_toNat_le, UInt64.lt_iff_toNat_lt, Nat.not_lt]
      rfl)
  have hlength := congrArg List.length hkept
  have hlength' := congrArg List.length h.rows
  rw [List.length_map, List.length_map] at hlength hlength'
  refine ⟨?_, List.filter_sublist.trans h.sublist, hkept⟩
  simp only [MemoryAdapter.purgeExpired, SqliteDatabase.purgeExpired, hlength, hlength']

/-- The database after a sequence of calls. -/
def sqliteRun (sha256 : Bytes → Bytes32) (sql : Sql) (encrypt : MessageEnvelope → Bytes)
    (db : SqliteDatabase) (calls : List BacklogCall) : SqliteDatabase :=
  (calls.map (BacklogCall.inSqlite encrypt)).foldl (SqliteDatabase.call sha256 sql) db

/-- The adapter in memory after a sequence of calls. -/
def memoryRun (maxMessages : UInt32) (calls : List BacklogCall) : MemoryAdapter :=
  MemoryAdapter.run maxMessages (calls.map BacklogCall.inMemory)

theorem sqliteRun_append_singleton (db : SqliteDatabase) (calls : List BacklogCall) (c : BacklogCall) :
    sqliteRun sha256 sql encrypt db (calls ++ [c]) =
      (sqliteRun sha256 sql encrypt db calls).call sha256 sql (c.inSqlite encrypt) := by
  unfold sqliteRun
  rw [List.map_append, List.foldl_append]
  rfl

theorem memoryRun_append_singleton (maxMessages : UInt32) (calls : List BacklogCall) (c : BacklogCall) :
    memoryRun maxMessages (calls ++ [c]) = (memoryRun maxMessages calls).call c.inMemory := by
  unfold memoryRun
  rw [List.map_append]
  exact MemoryAdapter.run_append_singleton maxMessages _ _

/-- The rooms stay. -/
theorem hasRoom_sqliteRun {roomId : RoomId} (hroom : db.store.hasRoom roomId)
    (calls : List BacklogCall) : (sqliteRun sha256 sql encrypt db calls).store.hasRoom roomId := by
  induction calls using List.reverseRecOn with
  | nil => exact hroom
  | append_singleton calls c ih =>
      rw [sqliteRun_append_singleton]
      exact SqliteDatabase.hasRoom_iff.2
        ((SqliteDatabase.hosted_call _ _ _).2 (.inl (SqliteDatabase.hasRoom_iff.1 ih)))

/-- **The adapters are alike after any run** below the limit, with clocks below 2^63. -/
theorem alike_run (sha256 : Bytes → Bytes32) (sql : Sql) (encrypt : MessageEnvelope → Bytes)
    {maxMessages : UInt32} {calls : List BacklogCall} (hempty : db.store.messages = [])
    (hrooms : ∀ a ∈ BacklogCall.arrivals calls, db.store.hasRoom a.envelope.roomId)
    (hfits : MemoryStorageAdapter.Fits maxMessages (BacklogCall.arrivals calls))
    (hclock : ∀ c ∈ calls, c.clock.toNat < 2 ^ 63) :
    (∀ a ∈ BacklogCall.arrivals calls, a.storedAt.toNat < 2 ^ 63) ∧
      Alike sha256 encrypt (BacklogCall.arrivals calls) (memoryRun maxMessages calls)
        (sqliteRun sha256 sql encrypt db calls) := by
  induction calls using List.reverseRecOn with
  | nil =>
      refine ⟨fun a ha => absurd ha List.not_mem_nil, List.Sublist.refl _, ?_⟩
      unfold sqliteRun
      rw [List.map_nil, List.foldl_nil, hempty]
      rfl
  | append_singleton calls c ih =>
      rw [BacklogCall.arrivals_append] at hrooms hfits
      rw [List.forall_mem_append] at hrooms
      rw [List.forall_mem_append, List.forall_mem_singleton] at hclock
      obtain ⟨hstored, halike⟩ := ih hrooms.1 hfits.of_append hclock.1
      rw [memoryRun_append_singleton, sqliteRun_append_singleton, BacklogCall.arrivals_append]
      cases c with
      | purge maxAgeSecs now =>
          rw [show BacklogCall.arrivals [.purge maxAgeSecs now] = [] from rfl, List.append_nil]
          exact ⟨hstored, (halike.purge maxAgeSecs hclock.2 hstored).2⟩
      | store a =>
          rw [show BacklogCall.arrivals [.store a] = [a] from rfl] at hrooms hfits ⊢
          refine ⟨List.forall_mem_append.2 ⟨hstored, List.forall_mem_singleton.2 hclock.2⟩, ?_⟩
          refine halike.store (hasRoom_sqliteRun (hrooms.2 a (List.mem_singleton_self a)) calls) ?_
          have hroom := hfits a.envelope.roomId
          rw [List.filter_append, List.filter_singleton, decide_eq_true rfl, List.length_append] at hroom
          unfold memoryRun
          rw [MemoryAdapter.maxMessagesPerRoom_run]
          exact hroom

/-- Both adapters choose a message, or neither does. -/
theorem chosen_iff {roomId : RoomId} {recipient : Fingerprint} {sinceSeq : UInt64}
    (hhash : SqliteStorageAdapter.HashOnly sha256 recipient stored)
    (hside : ∀ n ∈ Arrival.numbers roomId recipient stored, n.toNat < 2 ^ 63 ↔ sinceSeq.toNat < 2 ^ 63)
    {a : Arrival} (ha : a ∈ stored) :
    (a.envelope.roomId.asStr = roomId.asStr && a.recipient = recipient &&
      sinceSeq < a.envelope.sequenceNumber : Bool) =
    (a.envelope.roomId.asStr = roomId.asStr &&
      hashFingerprint sha256 a.recipient = hashFingerprint sha256 recipient &&
      sinceSeq.toInt64 < a.envelope.sequenceNumber.toInt64 : Bool) := by
  have hrecipient : hashFingerprint sha256 a.recipient = hashFingerprint sha256 recipient ↔
      a.recipient = recipient := ⟨hhash a ha, fun heq => by rw [heq]⟩
  simp only [RoomId.asStr_injective.eq_iff, hrecipient]
  by_cases haddressed : (a.envelope.roomId = roomId && a.recipient = recipient : Bool) = true
  · have hmem : a.envelope.sequenceNumber ∈ Arrival.numbers roomId recipient stored :=
      List.mem_map_of_mem (List.mem_filter.2 ⟨ha, haddressed⟩)
    have hsigned := lt_iff_toInt64_lt.2 (hside _ hmem)
    rw [haddressed, decide_eq_decide.2 hsigned]
  · rw [Bool.not_eq_true] at haddressed
    rw [haddressed, Bool.false_and, Bool.false_and]

/-- A fetch of the database answers what one in memory answers, in another order, if the recipient has a
hash of its own and the numbers are on one side of 2^63. -/
theorem Alike.fetch (h : Alike sha256 encrypt stored mem db) (roomId : RoomId)
    {recipient : Fingerprint} (hhash : SqliteStorageAdapter.HashOnly sha256 recipient stored)
    {sinceSeq : UInt64} (hside : ∀ n ∈ Arrival.numbers roomId recipient stored,
      n.toNat < 2 ^ 63 ↔ sinceSeq.toNat < 2 ^ 63) :
    (db.store.fetchBacklog sha256 sql roomId recipient sinceSeq).Perm
      ((mem.fetchBacklog roomId recipient sinceSeq).map fun e => (e.sequenceNumber, encrypt e)) := by
  have hkept := h.filter (p := fun m => m.envelope.roomId.asStr = roomId.asStr &&
      m.recipientFingerprint = recipient && sinceSeq < m.envelope.sequenceNumber)
    (q := fun row => row.roomId = roomId.asStr && row.recipientHash = hashFingerprint sha256 recipient &&
      sinceSeq.toInt64 < row.sequenceNumber) (fun row => rfl) (by
      intro m hm
      obtain ⟨a, ha, rfl⟩ := List.mem_map.1 (h.sublist.subset hm)
      exact chosen_iff hhash hside ha)
  have hread : ∀ rows : List MessageRow,
      rows.map (fun row => (row.sequenceNumber.toUInt64, row.data)) =
        (rows.map contents).map fun row => (row.sequenceNumber.toUInt64, row.data) := by
    intro rows
    rw [List.map_map]
    rfl
  refine ((sql.ascending_perm _).map _).trans (List.Perm.of_eq ?_)
  rw [hread, hkept, List.map_map]
  unfold MemoryAdapter.fetchBacklog MemoryStorageAdapter.fetchBacklog
  rw [List.map_map]
  refine List.map_congr_left fun m _ => ?_
  simp only [Function.comp_apply, rowOf, Arrival.row, UInt64.toUInt64_toInt64]

/-- **The two adapters agree over whole runs** of messages and purges.  If the rooms are stored, no room
gets more messages than the limit, and the clocks are below 2^63, then the next purge deletes as many
messages in the one as in the other, and the next fetch answers the same messages, for every recipient
whose hash is not the hash of another one and every number on the side of 2^63 on which the numbers
stored for it are. -/
theorem adapters_agree (sha256 : Bytes → Bytes32) (sql : Sql) (encrypt : MessageEnvelope → Bytes)
    {maxMessages : UInt32} {db : SqliteDatabase} {calls : List BacklogCall}
    (hempty : db.store.messages = [])
    (hrooms : ∀ a ∈ BacklogCall.arrivals calls, db.store.hasRoom a.envelope.roomId)
    (hfits : MemoryStorageAdapter.Fits maxMessages (BacklogCall.arrivals calls))
    (hclock : ∀ c ∈ calls, c.clock.toNat < 2 ^ 63) :
    (∀ maxAgeSecs now : UInt64, now.toNat < 2 ^ 63 →
      ((memoryRun maxMessages calls).purgeExpired maxAgeSecs now).1 =
        ((sqliteRun sha256 sql encrypt db calls).purgeExpired maxAgeSecs now).1) ∧
    (∀ roomId recipient,
      SqliteStorageAdapter.HashOnly sha256 recipient (BacklogCall.arrivals calls) →
      ∀ sinceSeq : UInt64, (∀ n ∈ Arrival.numbers roomId recipient (BacklogCall.arrivals calls),
        n.toNat < 2 ^ 63 ↔ sinceSeq.toNat < 2 ^ 63) →
      ((sqliteRun sha256 sql encrypt db calls).store.fetchBacklog sha256 sql roomId recipient
        sinceSeq).Perm (((memoryRun maxMessages calls).fetchBacklog roomId recipient sinceSeq).map
          fun e => (e.sequenceNumber, encrypt e))) := by
  obtain ⟨hstored, halike⟩ := alike_run sha256 sql encrypt hempty hrooms hfits hclock
  refine ⟨fun maxAgeSecs now hnow => (halike.purge maxAgeSecs hnow hstored).1, ?_⟩
  intro roomId recipient hhash sinceSeq hside
  exact halike.fetch roomId hhash hside

/-! ### A purge between two batches -/

open StorageAgreement (testSha256 testBob testFirst testLater fits_test hashOnly_test)

/-- Three messages of the test room, a purge, and two more messages. -/
def testCalls : List BacklogCall :=
  testFirst.map .store ++ .purge 100 1200 :: testLater.map .store

/-- The database with the test room. -/
def testDatabase : SqliteDatabase := SqliteDatabase.openInMemory.storeRoom ⟨1⟩ [114] 0

/-- Both adapters answer what has been stored after the purge. -/
theorem adapters_agree_testCalls :
    ((memoryRun 500 testCalls).purgeExpired 50 1200).1 =
        ((sqliteRun testSha256 .oldestFirst MessageEnvelope.ciphertext testDatabase
          testCalls).purgeExpired 50 1200).1 ∧
      ((sqliteRun testSha256 .oldestFirst MessageEnvelope.ciphertext testDatabase
        testCalls).store.fetchBacklog testSha256 .oldestFirst ⟨1⟩ testBob 0).Perm [(1, [7])] := by
  have harrivals : BacklogCall.arrivals testCalls = testFirst ++ testLater := rfl
  have hrooms : ∀ a ∈ BacklogCall.arrivals testCalls,
      testDatabase.store.hasRoom a.envelope.roomId := by
    have hall : ∀ a ∈ testFirst ++ testLater, a.envelope.roomId = ⟨1⟩ := by decide
    intro a ha
    rw [harrivals] at ha
    rw [hall a ha]
    decide
  have hclock : ∀ c ∈ testCalls, c.clock.toNat < 2 ^ 63 := by
    simp [testCalls, testFirst, testLater, StorageAgreement.testArrival, BacklogCall.clock]
  have hagree := @adapters_agree testSha256 .oldestFirst MessageEnvelope.ciphertext 500 testDatabase
    testCalls rfl hrooms (harrivals ▸ fits_test) hclock
  obtain ⟨hpurge, hfetch⟩ := hagree
  refine ⟨hpurge 50 1200 (by decide), ?_⟩
  have hnumbers : Arrival.numbers ⟨1⟩ testBob (BacklogCall.arrivals testCalls) = [1, 2, 3, 1] := by
    decide
  refine hfetch ⟨1⟩ testBob (harrivals ▸ hashOnly_test) 0 ?_
  rw [hnumbers]
  simp

end ExpiryAgreement

end Sanctum
