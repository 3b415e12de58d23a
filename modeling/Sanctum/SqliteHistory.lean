/-
The database over whole runs.

Rooms, members and keys are rows under primary keys, and a row replaces the one that was stored under its
key; members and messages refer to rooms.  Nothing deletes a room, so a member or a message is accepted
exactly if its room has been stored at some time before, and what is loaded is what was stored last.
Opening the database again changes nothing.

Main definitions:

* `Sanctum.SqliteDatabase` — all tables, and their operations;
* `Sanctum.SqliteCall`, `Sanctum.SqliteDatabase.run` — sequences of calls;
* `Sanctum.SqliteDatabase.Consistent` — **what holds of the tables at any time**.

Main results:

* `Sanctum.SqliteDatabase.Consistent.call` — every call keeps the tables consistent;
* `Sanctum.SqliteDatabase.integrity_run` — **they are consistent after any run**, and a member or a
  message is accepted exactly if its room is there;
* `Sanctum.SqliteDatabase.loads_run` — **what is loaded is what was stored last**.
-/

import Sanctum.KeyedTable
import Sanctum.BacklogExpiry

set_option relaxedAutoImplicit false
set_option autoImplicit false

namespace Sanctum

/-! ### The tables -/

/-- A row of the table `members`. -/
structure MemberRow where
  roomId : String
  fingerprintHash : String
  data : Bytes

/-- A row of the table `keys`. -/
structure KeyRow where
  keyType : String
  keyId : String
  data : Bytes
  createdAt : Int64
  expiresAt : Option Int64

/-- A row of the table `metadata`. -/
structure MetadataRow where
  key : String
  value : String

/-- The primary key of a member. -/
def MemberRow.key (row : MemberRow) : String × String := (row.roomId, row.fingerprintHash)

/-- The primary key of a key. -/
def KeyRow.key (row : KeyRow) : String × String := (row.keyType, row.keyId)

/-- **All tables of the database.** -/
structure SqliteDatabase where
  /-- The tables `rooms` and `messages`. -/
  store : SqliteStorageAdapter
  members : List MemberRow
  keys : List KeyRow
  metadata : List MetadataRow

namespace SqliteDatabase

/-- Schema version. -/
def schemaVersionText : String := "1"

/-- Run schema migrations: the tables are there, and the version is set if it is not present. -/
def runMigrations (db : SqliteDatabase) : SqliteDatabase :=
  if db.metadata.any fun row => row.key = "schema_version" then db
  else { db with metadata := db.metadata ++ [⟨"schema_version", schemaVersionText⟩] }

/-- Open an in-memory database. -/
def openInMemory : SqliteDatabase :=
  runMigrations { store := .openInMemory, members := [], keys := [], metadata := [] }

/-- Get schema version. -/
def schemaVersion (db : SqliteDatabase) : Except SanctumError String :=
  match db.metadata.find? fun row => row.key = "schema_version" with
  | some row => .ok row.value
  | none => .error (.storageError "Query returned no rows")

/-- Store a room (data should be encrypted by caller). -/
def storeRoom (db : SqliteDatabase) (roomId : RoomId) (encryptedData : Bytes) (createdAt : UInt64) :
    SqliteDatabase := { db with store := db.store.storeRoom roomId encryptedData createdAt }

/-- Load a room's encrypted data. -/
def loadRoom (db : SqliteDatabase) (roomId : RoomId) : Option Bytes :=
  (db.store.rooms.find? fun row => row.id = roomId.asStr).map RoomRow.data

/-- Store a key (encrypted by caller). -/
def storeKey (db : SqliteDatabase) (keyType keyId : String) (encryptedData : Bytes)
    (createdAt : UInt64) (expiresAt : Option UInt64) : SqliteDatabase :=
  { db with keys := KeyedTable.replace KeyRow.key db.keys {
      keyType := keyType
      keyId := keyId
      data := encryptedData
      createdAt := createdAt.toInt64
      expiresAt := expiresAt.map UInt64.toInt64 } }

/-- Load a key. -/
def loadKey (db : SqliteDatabase) (keyType keyId : String) : Option Bytes :=
  (db.keys.find? fun row => row.key = (keyType, keyId)).map KeyRow.data

/-- Purge messages older than `maxAgeSecs`: the number of deleted rows, and the database. -/
def purgeExpired (db : SqliteDatabase) (maxAgeSecs now : UInt64) : UInt64 × SqliteDatabase :=
  let cutoff := (saturatingSub now maxAgeSecs).toInt64
  let messages := db.store.messages.filter fun row => !(row.storedAt < cutoff)
  (UInt64.ofNat (db.store.messages.length - messages.length),
    { db with store := { db.store with messages := messages } })

variable (sha256 : Bytes → Bytes32) (sql : Sql)

/-- Store a member (data encrypted by caller). -/
def storeMember (db : SqliteDatabase) (roomId : RoomId) (fingerprint : Fingerprint)
    (encryptedData : Bytes) : Except SanctumError SqliteDatabase :=
  if db.store.hasRoom roomId then .ok { db with
    members := KeyedTable.replace MemberRow.key db.members {
      roomId := roomId.asStr
      fingerprintHash := hashFingerprint sha256 fingerprint
      data := encryptedData } }
  else .error (.storageError "FOREIGN KEY constraint failed")

/-- Store a backlog message. -/
def storeMessage (db : SqliteDatabase) (roomId : RoomId) (recipient : Fingerprint)
    (sequenceNumber : UInt64) (encryptedData : Bytes) (storedAt : UInt64) :
    Except SanctumError SqliteDatabase :=
  (db.store.storeMessage sha256 roomId recipient sequenceNumber encryptedData storedAt).map fun store =>
    { db with store := store }

/-- Purge excess messages per room (keep newest N). -/
def purgeExcess (db : SqliteDatabase) (roomId : RoomId) (maxMessages : UInt32) :
    UInt64 × SqliteDatabase :=
  let (deleted, store) := db.store.purgeExcess sql roomId maxMessages
  (deleted, { db with store := store })

end SqliteDatabase

/-! ### Calls -/

/-- A call that may change the database, with the clock that it reads. -/
inductive SqliteCall
  /-- The database is closed and opened again. -/
  | reopen
  | storeRoom (roomId : RoomId) (encryptedData : Bytes) (createdAt : UInt64)
  | storeMember (roomId : RoomId) (fingerprint : Fingerprint) (encryptedData : Bytes)
  | storeMessage (roomId : RoomId) (recipient : Fingerprint) (sequenceNumber : UInt64)
      (encryptedData : Bytes) (storedAt : UInt64)
  | purgeExpired (maxAgeSecs now : UInt64)
  | purgeExcess (roomId : RoomId) (maxMessages : UInt32)
  | storeKey (keyType keyId : String) (encryptedData : Bytes) (createdAt : UInt64)
      (expiresAt : Option UInt64)

namespace SqliteDatabase

variable (sha256 : Bytes → Bytes32) (sql : Sql)

/-- The database after a call; a call that returns an error has changed nothing. -/
def call (db : SqliteDatabase) : SqliteCall → SqliteDatabase
  | .reopen => db.runMigrations
  | .storeRoom roomId encryptedData createdAt => db.storeRoom roomId encryptedData createdAt
  | .storeMember roomId fingerprint encryptedData =>
    (db.storeMember sha256 roomId fingerprint encryptedData).toOption.getD db
  | .storeMessage roomId recipient sequenceNumber encryptedData storedAt =>
    (db.storeMessage sha256 roomId recipient sequenceNumber encryptedData storedAt).toOption.getD db
  | .purgeExpired maxAgeSecs now => (db.purgeExpired maxAgeSecs now).2
  | .purgeExcess roomId maxMessages => (db.purgeExcess sql roomId maxMessages).2
  | .storeKey keyType keyId encryptedData createdAt expiresAt =>
    db.storeKey keyType keyId encryptedData createdAt expiresAt

/-- The database after a sequence of calls. -/
def run (calls : List SqliteCall) : SqliteDatabase := calls.foldl (call sha256 sql) openInMemory

/-! ### Consistency -/

/-- A room is stored under an identifier. -/
def Hosted (db : SqliteDatabase) (id : String) : Prop := ∃ room ∈ db.store.rooms, room.id = id

/-- **What holds of the tables at any time**: no two rows have a primary key in common, the identifiers of
the messages ascend and are not used again, and whatever refers to a room refers to one that is stored. -/
structure Consistent (db : SqliteDatabase) : Prop where
  rooms : (db.store.rooms.map RoomRow.id).Nodup
  members : (db.members.map MemberRow.key).Nodup
  keys : (db.keys.map KeyRow.key).Nodup
  messages : db.store.messages.Pairwise fun a b => a.id < b.id
  lastId : ∀ row ∈ db.store.messages, row.id ≤ db.store.lastId
  memberRooms : ∀ row ∈ db.members, db.Hosted row.roomId
  messageRooms : ∀ row ∈ db.store.messages, db.Hosted row.roomId
  version : db.metadata = [⟨"schema_version", schemaVersionText⟩]

variable {sha256 sql} {db : SqliteDatabase}

theorem hasRoom_iff {roomId : RoomId} : db.store.hasRoom roomId = true ↔ db.Hosted roomId.asStr := by
  simp [SqliteStorageAdapter.hasRoom, Hosted]

theorem hosted_storeRoom (db : SqliteDatabase) (roomId : RoomId) (encryptedData : Bytes)
    (createdAt : UInt64) (id : String) :
    (db.storeRoom roomId encryptedData createdAt).Hosted id ↔ roomId.asStr = id ∨ db.Hosted id :=
  KeyedTable.exists_replace_iff RoomRow.id db.store.rooms
    ⟨roomId.asStr, encryptedData, createdAt.toInt64⟩ id

namespace Consistent

theorem storeRoom (h : db.Consistent) (roomId : RoomId) (encryptedData : Bytes) (createdAt : UInt64) :
    (db.storeRoom roomId encryptedData createdAt).Consistent where
  rooms := KeyedTable.nodup_replace RoomRow.id h.rooms ⟨roomId.asStr, encryptedData, createdAt.toInt64⟩
  members := h.members
  keys := h.keys
  messages := h.messages
  lastId := h.lastId
  memberRooms row hrow := (hosted_storeRoom db roomId encryptedData createdAt _).2
    (.inr (h.memberRooms row hrow))
  messageRooms row hrow := (hosted_storeRoom db roomId encryptedData createdAt _).2
    (.inr (h.messageRooms row hrow))
  version := h.version

/-- A member comes in under the identifier of a room that is stored. -/
theorem storeMember (h : db.Consistent) {row : MemberRow} (hrow : db.Hosted row.roomId) :
    Consistent { db with members := KeyedTable.replace MemberRow.key db.members row } where
  rooms := h.rooms
  members := KeyedTable.nodup_replace MemberRow.key h.members row
  keys := h.keys
  messages := h.messages
  lastId := h.lastId
  memberRooms row' hrow' := by
    rcases List.mem_append.1 hrow' with hold | hnew
    · exact h.memberRooms row' (List.mem_of_mem_filter hold)
    · rw [List.mem_singleton.1 hnew]
      exact hrow
  messageRooms := h.messageRooms
  version := h.version

/-- A message comes in under the next identifier. -/
theorem storeMessage (h : db.Consistent) {row : MessageRow} (hid : row.id = db.store.lastId + 1)
    (hrow : db.Hosted row.roomId) :
    Consistent { db with store := { db.store with
      messages := db.store.messages ++ [row]
      lastId := db.store.lastId + 1 } } where
  rooms := h.rooms
  members := h.members
  keys := h.keys
  messages := by
    refine List.pairwise_append.2 ⟨h.messages, List.pairwise_singleton _ _, ?_⟩
    intro a ha b hb
    rw [List.mem_singleton.1 hb, hid]
    exact Nat.lt_succ_of_le (h.lastId a ha)
  lastId row' hrow' := by
    rcases List.mem_append.1 hrow' with hold | hnew
    · exact Nat.le_succ_of_le (h.lastId row' hold)
    · rw [List.mem_singleton.1 hnew]
      exact hid.le
  memberRooms := h.memberRooms
  messageRooms row' hrow' := by
    rcases List.mem_append.1 hrow' with hold | hnew
    · exact h.messageRooms row' hold
    · rw [List.mem_singleton.1 hnew]
      exact hrow
  version := h.version

/-- A purge only takes messages out. -/
theorem sublist (h : db.Consistent) {messages : List MessageRow}
    (hsub : messages.Sublist db.store.messages) :
    Consistent { db with store := { db.store with messages := messages } } where
  rooms := h.rooms
  members := h.members
  keys := h.keys
  messages := h.messages.sublist hsub
  lastId row hrow := h.lastId row (hsub.subset hrow)
  memberRooms := h.memberRooms
  messageRooms row hrow := h.messageRooms row (hsub.subset hrow)
  version := h.version

theorem storeKey (h : db.Consistent) (row : KeyRow) :
    Consistent { db with keys := KeyedTable.replace KeyRow.key db.keys row } where
  rooms := h.rooms
  members := h.members
  keys := KeyedTable.nodup_replace KeyRow.key h.keys row
  messages := h.messages
  lastId := h.lastId
  memberRooms := h.memberRooms
  messageRooms := h.messageRooms
  version := h.version

/-- Opening the database again changes nothing. -/
theorem runMigrations_eq (h : db.Consistent) : db.runMigrations = db := by
  unfold runMigrations
  rw [h.version]
  rfl

/-- **Every call keeps the tables consistent.** -/
theorem call (h : db.Consistent) (c : SqliteCall) : (db.call sha256 sql c).Consistent := by
  cases c with
  | reopen =>
      simp only [SqliteDatabase.call, h.runMigrations_eq]
      exact h
  | storeRoom roomId encryptedData createdAt => exact h.storeRoom roomId encryptedData createdAt
  | storeMember roomId fingerprint encryptedData =>
      simp only [SqliteDatabase.call, SqliteDatabase.storeMember]
      split
      · next hroom => exact h.storeMember (hasRoom_iff.1 hroom)
      · exact h
  | storeMessage roomId recipient sequenceNumber encryptedData storedAt =>
      simp only [SqliteDatabase.call, SqliteDatabase.storeMessage, SqliteStorageAdapter.storeMessage]
      split
      · next hroom => exact h.storeMessage rfl (hasRoom_iff.1 hroom)
      · exact h
  | purgeExpired maxAgeSecs now => exact h.sublist List.filter_sublist
  | purgeExcess roomId maxMessages => exact h.sublist List.filter_sublist
  | storeKey keyType keyId encryptedData createdAt expiresAt => exact h.storeKey _

end Consistent

theorem consistent_openInMemory : openInMemory.Consistent where
  rooms := List.nodup_nil
  members := List.nodup_nil
  keys := List.nodup_nil
  messages := List.Pairwise.nil
  lastId _ h := absurd h List.not_mem_nil
  memberRooms _ h := absurd h List.not_mem_nil
  messageRooms _ h := absurd h List.not_mem_nil
  version := rfl

theorem run_append_singleton (sha256 : Bytes → Bytes32) (sql : Sql) (calls : List SqliteCall)
    (c : SqliteCall) : run sha256 sql (calls ++ [c]) = (run sha256 sql calls).call sha256 sql c :=
  List.foldl_append

/-- **The tables are consistent after any run.** -/
theorem consistent_run (sha256 : Bytes → Bytes32) (sql : Sql) (calls : List SqliteCall) :
    (run sha256 sql calls).Consistent := by
  induction calls using List.reverseRecOn with
  | nil => exact consistent_openInMemory
  | append_singleton calls c ih =>
      rw [run_append_singleton]
      exact ih.call c

/-! ### What refers to a room -/

/-- A call puts a room there, or leaves the rooms as they are. -/
theorem hosted_call (db : SqliteDatabase) (c : SqliteCall) (id : String) :
    (db.call sha256 sql c).Hosted id ↔
      db.Hosted id ∨ ∃ roomId encryptedData createdAt,
        c = .storeRoom roomId encryptedData createdAt ∧ roomId.asStr = id := by
  have hsame : ∀ {db' : SqliteDatabase}, db'.store.rooms = db.store.rooms →
      (∀ roomId encryptedData createdAt, c ≠ .storeRoom roomId encryptedData createdAt) →
      (db'.Hosted id ↔ db.Hosted id ∨ ∃ roomId encryptedData createdAt,
        c = .storeRoom roomId encryptedData createdAt ∧ roomId.asStr = id) := by
    intro db' hrooms hne
    unfold Hosted
    rw [hrooms]
    refine (or_iff_left ?_).symm
    rintro ⟨roomId, encryptedData, createdAt, hc, -⟩
    exact hne roomId encryptedData createdAt hc
  cases c with
  | storeRoom roomId encryptedData createdAt =>
      simp only [call, hosted_storeRoom, SqliteCall.storeRoom.injEq]
      constructor
      · rintro (heq | hold)
        · exact .inr ⟨roomId, encryptedData, createdAt, ⟨rfl, rfl, rfl⟩, heq⟩
        · exact .inl hold
      · rintro (hold | ⟨_, _, _, ⟨rfl, -, -⟩, heq⟩)
        · exact .inr hold
        · exact .inl heq
  | reopen =>
      refine hsame ?_ (by simp)
      simp only [call, runMigrations]
      split <;> rfl
  | storeMember roomId fingerprint encryptedData =>
      refine hsame ?_ (by simp)
      simp only [call, storeMember]
      split <;> rfl
  | storeMessage roomId recipient sequenceNumber encryptedData storedAt =>
      refine hsame ?_ (by simp)
      simp only [call, storeMessage, SqliteStorageAdapter.storeMessage]
      split <;> rfl
  | purgeExpired maxAgeSecs now => exact hsame rfl (by simp)
  | purgeExcess roomId maxMessages => exact hsame rfl (by simp)
  | storeKey keyType keyId encryptedData createdAt expiresAt => exact hsame rfl (by simp)

/-- A room is stored if it has been stored at some time. -/
theorem hosted_run (sha256 : Bytes → Bytes32) (sql : Sql) (calls : List SqliteCall) (roomId : RoomId) :
    (run sha256 sql calls).Hosted roomId.asStr ↔
      ∃ encryptedData createdAt, SqliteCall.storeRoom roomId encryptedData createdAt ∈ calls := by
  induction calls using List.reverseRecOn with
  | nil => simp [run, openInMemory, runMigrations, SqliteStorageAdapter.openInMemory, Hosted]
  | append_singleton calls c ih =>
      rw [run_append_singleton, hosted_call, ih]
      constructor
      · rintro (⟨encryptedData, createdAt, hmem⟩ | ⟨roomId', encryptedData, createdAt, rfl, heq⟩)
        · exact ⟨encryptedData, createdAt, List.mem_append_left _ hmem⟩
        · obtain rfl := RoomId.asStr_injective heq
          exact ⟨encryptedData, createdAt, List.mem_append_right _ (List.mem_singleton_self _)⟩
      · rintro ⟨encryptedData, createdAt, hmem⟩
        rcases List.mem_append.1 hmem with hold | hlast
        · exact .inl ⟨encryptedData, createdAt, hold⟩
        · exact .inr ⟨roomId, encryptedData, createdAt, (List.mem_singleton.1 hlast).symm, rfl⟩

/-- **The tables stay consistent, and refer to rooms that are there.**  After any run, no two rows have a
primary key in common, the identifiers of the messages ascend, and every member and every message is of
a room that is stored; a member or a message is accepted exactly if its room has been stored at some
time before. -/
theorem integrity_run (sha256 : Bytes → Bytes32) (sql : Sql) (calls : List SqliteCall) :
    (run sha256 sql calls).Consistent ∧
    (∀ roomId fingerprint encryptedData,
      (∃ db, (run sha256 sql calls).storeMember sha256 roomId fingerprint encryptedData = .ok db) ↔
        ∃ encryptedData' createdAt, SqliteCall.storeRoom roomId encryptedData' createdAt ∈ calls) ∧
    (∀ roomId recipient sequenceNumber encryptedData storedAt,
      (∃ db, (run sha256 sql calls).storeMessage sha256 roomId recipient sequenceNumber encryptedData
        storedAt = .ok db) ↔
        ∃ encryptedData' createdAt, SqliteCall.storeRoom roomId encryptedData' createdAt ∈ calls) := by
  refine ⟨consistent_run sha256 sql calls, ?_, ?_⟩
  · intro roomId fingerprint encryptedData
    rw [← hosted_run sha256 sql, ← hasRoom_iff]
    unfold storeMember
    split
    · next hroom => exact iff_of_true ⟨_, rfl⟩ hroom
    · next hroom => exact iff_of_false (by simp) hroom
  · intro roomId recipient sequenceNumber encryptedData storedAt
    rw [← hosted_run sha256 sql, ← hasRoom_iff]
    unfold storeMessage SqliteStorageAdapter.storeMessage
    split
    · next hroom => exact iff_of_true ⟨_, rfl⟩ hroom
    · next hroom => exact iff_of_false (by simp [Except.map]) hroom

/-! ### What is loaded -/

/-- What is stored under a room, after one more call. -/
def roomAfter (roomId : RoomId) (data : Option Bytes) : SqliteCall → Option Bytes
  | .storeRoom roomId' data' _ => if roomId' = roomId then some data' else data
  | _ => data

/-- What is stored under a key, after one more call. -/
def keyAfter (keyType keyId : String) (data : Option Bytes) : SqliteCall → Option Bytes
  | .storeKey keyType' keyId' data' _ _ =>
    if keyType' = keyType ∧ keyId' = keyId then some data' else data
  | _ => data

/-- What has been stored last under a room. -/
def lastRoom (roomId : RoomId) (calls : List SqliteCall) : Option Bytes :=
  calls.foldl (roomAfter roomId) none

/-- What has been stored last under a key. -/
def lastKey (keyType keyId : String) (calls : List SqliteCall) : Option Bytes :=
  calls.foldl (keyAfter keyType keyId) none

theorem loadRoom_call (h : db.Consistent) (c : SqliteCall) (roomId : RoomId) :
    (db.call sha256 sql c).loadRoom roomId = roomAfter roomId (db.loadRoom roomId) c := by
  cases c with
  | reopen =>
      simp only [call, h.runMigrations_eq]
      rfl
  | storeRoom roomId' encryptedData createdAt =>
      have hlookup := KeyedTable.lookup_replace RoomRow.id db.store.rooms
        ⟨roomId'.asStr, encryptedData, createdAt.toInt64⟩ roomId.asStr
      refine (congrArg (Option.map RoomRow.data) hlookup).trans ?_
      simp only [RoomId.asStr_injective.eq_iff, roomAfter]
      split <;> rfl
  | storeMember roomId' fingerprint encryptedData =>
      simp only [call, storeMember]
      split <;> rfl
  | storeMessage roomId' recipient sequenceNumber encryptedData storedAt =>
      simp only [call, storeMessage, SqliteStorageAdapter.storeMessage]
      split <;> rfl
  | purgeExpired maxAgeSecs now => rfl
  | purgeExcess roomId' maxMessages => rfl
  | storeKey keyType keyId encryptedData createdAt expiresAt => rfl

theorem loadKey_call (h : db.Consistent) (c : SqliteCall) (keyType keyId : String) :
    (db.call sha256 sql c).loadKey keyType keyId = keyAfter keyType keyId (db.loadKey keyType keyId) c := by
  cases c with
  | reopen =>
      simp only [call, h.runMigrations_eq]
      rfl
  | storeRoom roomId encryptedData createdAt => rfl
  | storeMember roomId fingerprint encryptedData =>
      simp only [call, storeMember]
      split <;> rfl
  | storeMessage roomId recipient sequenceNumber encryptedData storedAt =>
      simp only [call, storeMessage, SqliteStorageAdapter.storeMessage]
      split <;> rfl
  | purgeExpired maxAgeSecs now => rfl
  | purgeExcess roomId maxMessages => rfl
  | storeKey keyType' keyId' encryptedData createdAt expiresAt =>
      have hlookup := KeyedTable.lookup_replace KeyRow.key db.keys
        ⟨keyType', keyId', encryptedData, createdAt.toInt64, expiresAt.map UInt64.toInt64⟩ (keyType, keyId)
      refine (congrArg (Option.map KeyRow.data) hlookup).trans ?_
      simp only [KeyRow.key, Prod.mk.injEq, keyAfter]
      split <;> rfl

/-- **What is loaded is what was stored last** under the room or the key, whatever else has been stored,
purged or refused, and however often the database has been opened again. -/
theorem loads_run (sha256 : Bytes → Bytes32) (sql : Sql) (calls : List SqliteCall) :
    (∀ roomId, (run sha256 sql calls).loadRoom roomId = lastRoom roomId calls) ∧
    (∀ keyType keyId, (run sha256 sql calls).loadKey keyType keyId = lastKey keyType keyId calls) ∧
    (run sha256 sql calls).schemaVersion = .ok schemaVersionText := by
  refine ⟨?_, ?_, ?_⟩
  · intro roomId
    induction calls using List.reverseRecOn with
    | nil => rfl
    | append_singleton calls c ih =>
        rw [run_append_singleton, loadRoom_call (consistent_run sha256 sql calls), ih]
        unfold lastRoom
        rw [List.foldl_append]
        rfl
  · intro keyType keyId
    induction calls using List.reverseRecOn with
    | nil => rfl
    | append_singleton calls c ih =>
        rw [run_append_singleton, loadKey_call (consistent_run sha256 sql calls), ih]
        unfold lastKey
        rw [List.foldl_append]
        rfl
  · unfold schemaVersion
    rw [(consistent_run sha256 sql calls).version]
    rfl

end SqliteDatabase

end Sanctum
