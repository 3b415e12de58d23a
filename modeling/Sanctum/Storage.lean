/-
The storage of the host: the backlog in memory and in SQLite.

In memory the messages of all rooms stand in one list in the order in which they were stored, and sequence
numbers are compared as unsigned numbers.  In SQLite a message is a row with the hash of its recipient, and
its sequence number is stored as a signed number of 64 bits, so numbers from 2^63 on are negative there.
What the engine does with `ORDER BY` is a parameter: it may put rows with equal numbers in any order.

Main definitions:

* `Sanctum.MemoryStorageAdapter`, `Sanctum.SqliteStorageAdapter` — the two adapters and their operations;
* `Sanctum.Sql` — an engine that sorts rows, and `Sanctum.Sql.oldestFirst` — one that breaks ties by age;
* `Sanctum.Arrival` — a message given to an adapter, and the operations for a sequence of them.

Main results:

* `Sanctum.MemoryStorageAdapter.storeAll_of_fits` — nothing is evicted below the limit;
* `Sanctum.SqliteStorageAdapter.storeAll_eq` — the rows for a sequence of messages;
* `Sanctum.toInt_toInt64` — the signed value of a sequence number.
-/

import Sanctum.Text

set_option relaxedAutoImplicit false
set_option autoImplicit false

namespace Sanctum

/-! ### Signed numbers -/

/-- The value of `n as i64`. -/
theorem toInt_toInt64 (n : UInt64) :
    n.toInt64.toInt = if n.toNat < 2 ^ 63 then (n.toNat : ℤ) else n.toNat - 2 ^ 64 := by
  rw [← Int64.toInt_toBitVec, BitVec.toInt_eq_toNat_cond]
  show (if 2 * n.toNat < 2 ^ 64 then (n.toNat : ℤ) else n.toNat - 2 ^ 64) = _
  split <;> split <;> first | rfl | omega

/-- Signed and unsigned comparison agree exactly on the same side of 2^63. -/
theorem lt_iff_toInt64_lt {n m : UInt64} :
    (n < m ↔ n.toInt64 < m.toInt64) ↔ (m.toNat < 2 ^ 63 ↔ n.toNat < 2 ^ 63) := by
  have hn := n.toNat_lt
  have hm := m.toNat_lt
  rw [Int64.lt_iff_toInt_lt, toInt_toInt64, toInt_toInt64, UInt64.lt_iff_toNat_lt]
  split <;> split <;> omega

theorem toInt64_le_iff {n m : UInt64} (h : n.toNat < 2 ^ 63 ↔ m.toNat < 2 ^ 63) :
    n.toInt64 ≤ m.toInt64 ↔ n ≤ m := by
  rw [Int64.le_iff_toInt_le, toInt_toInt64, toInt_toInt64, UInt64.le_iff_toNat_le]
  split <;> split <;> omega

/-! ### The storage in memory -/

/-- Message stored in the in-memory backlog. -/
structure StoredMessage where
  envelope : MessageEnvelope
  recipientFingerprint : Fingerprint
  storedAt : UInt64

/-- In-memory storage adapter. -/
structure MemoryStorageAdapter where
  messages : List StoredMessage
  maxMessagesPerRoom : UInt32

namespace MemoryStorageAdapter

/-- Create a new in-memory storage. -/
def new (maxMessagesPerRoom : UInt32) : MemoryStorageAdapter where
  messages := []
  maxMessagesPerRoom := maxMessagesPerRoom

/-- Store a message in the backlog for a specific recipient.  The clock is an argument. -/
def storeMessage (s : MemoryStorageAdapter) (recipient : Fingerprint) (envelope : MessageEnvelope)
    (now : UInt64) : MemoryStorageAdapter :=
  let roomIdStr := envelope.roomId.asStr
  let count := (s.messages.filter fun m => m.envelope.roomId.asStr = roomIdStr).length
  let messages :=
    if count ≥ s.maxMessagesPerRoom.toNat then
      -- The oldest message of this room makes way.
      match s.messages.findIdx? fun m => m.envelope.roomId.asStr = roomIdStr with
      | some pos => s.messages.eraseIdx pos
      | none => s.messages
    else s.messages
  { s with messages := messages ++
      [{ envelope := envelope, recipientFingerprint := recipient, storedAt := now }] }

/-- Fetch backlog messages for a recipient in a room, since a sequence number. -/
def fetchBacklog (s : MemoryStorageAdapter) (roomId : RoomId) (recipient : Fingerprint)
    (sinceSeq : UInt64) : List MessageEnvelope :=
  (s.messages.filter fun m =>
    m.envelope.roomId.asStr = roomId.asStr && m.recipientFingerprint = recipient &&
      sinceSeq < m.envelope.sequenceNumber).map StoredMessage.envelope

end MemoryStorageAdapter

/-! ### The storage in SQLite -/

/-- A row of the table `rooms`. -/
structure RoomRow where
  id : String
  data : Bytes
  createdAt : Int64

/-- A row of the table `messages`. -/
structure MessageRow where
  id : ℕ
  roomId : String
  recipientHash : String
  sequenceNumber : Int64
  data : Bytes
  storedAt : Int64
deriving DecidableEq

/-- What the engine does with `ORDER BY sequence_number`, in both directions. -/
structure Sql where
  ascending : List MessageRow → List MessageRow
  descending : List MessageRow → List MessageRow
  ascending_perm (rows : List MessageRow) : (ascending rows).Perm rows
  ascending_sorted (rows : List MessageRow) :
    (ascending rows).Pairwise fun a b => a.sequenceNumber ≤ b.sequenceNumber
  descending_perm (rows : List MessageRow) : (descending rows).Perm rows
  descending_sorted (rows : List MessageRow) :
    (descending rows).Pairwise fun a b => b.sequenceNumber ≤ a.sequenceNumber

/-- Tiny hex encoding. -/
def hexEncode (bytes : Bytes) : String :=
  String.ofList (bytes.flatMap fun b => [lowerHexDigit (b.toNat / 16), lowerHexDigit (b.toNat % 16)])

/-- The hash of a recipient, in hexadecimal digits. -/
def hashFingerprint (sha256 : Bytes → Bytes32) (fp : Fingerprint) : String :=
  hexEncode (sha256 (asBytes fp.hex)).val

/-- SQLite storage adapter: the tables `rooms` and `messages`, and the last identifier given to a
message. -/
structure SqliteStorageAdapter where
  rooms : List RoomRow
  messages : List MessageRow
  lastId : ℕ

namespace SqliteStorageAdapter

/-- Open an in-memory database. -/
def openInMemory : SqliteStorageAdapter where
  rooms := []
  messages := []
  lastId := 0

/-- Store a room (data should be encrypted by caller). -/
def storeRoom (s : SqliteStorageAdapter) (roomId : RoomId) (encryptedData : Bytes)
    (createdAt : UInt64) : SqliteStorageAdapter :=
  { s with rooms := (s.rooms.filter fun row => row.id ≠ roomId.asStr) ++
      [{ id := roomId.asStr, data := encryptedData, createdAt := createdAt.toInt64 }] }

/-- The foreign key of a message is satisfied. -/
def hasRoom (s : SqliteStorageAdapter) (roomId : RoomId) : Bool :=
  s.rooms.any fun row => row.id = roomId.asStr

variable (sha256 : Bytes → Bytes32) (sql : Sql)

/-- Store a backlog message. -/
def storeMessage (s : SqliteStorageAdapter) (roomId : RoomId) (recipient : Fingerprint)
    (sequenceNumber : UInt64) (encryptedData : Bytes) (storedAt : UInt64) :
    Except SanctumError SqliteStorageAdapter :=
  if s.hasRoom roomId then .ok { s with
    messages := s.messages ++ [{
      id := s.lastId + 1
      roomId := roomId.asStr
      recipientHash := hashFingerprint sha256 recipient
      sequenceNumber := sequenceNumber.toInt64
      data := encryptedData
      storedAt := storedAt.toInt64 }]
    lastId := s.lastId + 1 }
  else .error (.storageError "FOREIGN KEY constraint failed")

/-- Fetch backlog messages for a recipient. -/
def fetchBacklog (s : SqliteStorageAdapter) (roomId : RoomId) (recipient : Fingerprint)
    (sinceSeq : UInt64) : List (UInt64 × Bytes) :=
  (sql.ascending (s.messages.filter fun row =>
    row.roomId = roomId.asStr && row.recipientHash = hashFingerprint sha256 recipient &&
      sinceSeq.toInt64 < row.sequenceNumber)).map fun row => (row.sequenceNumber.toUInt64, row.data)

/-- Purge excess messages per room (keep newest N): the number of deleted rows, and the database. -/
def purgeExcess (s : SqliteStorageAdapter) (roomId : RoomId) (maxMessages : UInt32) :
    UInt64 × SqliteStorageAdapter :=
  let selected := ((sql.descending (s.messages.filter fun row => row.roomId = roomId.asStr)).take
    maxMessages.toNat).map MessageRow.id
  let messages := s.messages.filter fun row => !(row.roomId = roomId.asStr && row.id ∉ selected)
  (UInt64.ofNat (s.messages.length - messages.length), { s with messages := messages })

end SqliteStorageAdapter

/-! ### An engine -/

namespace Sql

/-- Rows in ascending order, the older one first among rows with equal numbers. -/
def ascendingLe (a b : MessageRow) : Bool :=
  a.sequenceNumber < b.sequenceNumber || (a.sequenceNumber = b.sequenceNumber && a.id ≤ b.id)

/-- Rows in descending order, the older one first among rows with equal numbers. -/
def descendingLe (a b : MessageRow) : Bool :=
  b.sequenceNumber < a.sequenceNumber || (a.sequenceNumber = b.sequenceNumber && a.id ≤ b.id)

theorem ascendingLe_iff {a b : MessageRow} : ascendingLe a b = true ↔
    a.sequenceNumber.toInt < b.sequenceNumber.toInt ∨
      a.sequenceNumber.toInt = b.sequenceNumber.toInt ∧ a.id ≤ b.id := by
  simp [ascendingLe, Int64.lt_iff_toInt_lt, Int64.toInt_inj]

theorem descendingLe_iff {a b : MessageRow} : descendingLe a b = true ↔
    b.sequenceNumber.toInt < a.sequenceNumber.toInt ∨
      a.sequenceNumber.toInt = b.sequenceNumber.toInt ∧ a.id ≤ b.id := by
  simp [descendingLe, Int64.lt_iff_toInt_lt, Int64.toInt_inj]

theorem ascendingLe_sorted (rows : List MessageRow) :
    (rows.mergeSort ascendingLe).Pairwise fun a b => ascendingLe a b := by
  refine List.pairwise_mergeSort ?_ ?_ rows
  · intro a b c hab hbc
    rw [ascendingLe_iff] at hab hbc ⊢
    omega
  · intro a b
    rw [Bool.or_eq_true, ascendingLe_iff, ascendingLe_iff]
    omega

theorem descendingLe_sorted (rows : List MessageRow) :
    (rows.mergeSort descendingLe).Pairwise fun a b => descendingLe a b := by
  refine List.pairwise_mergeSort ?_ ?_ rows
  · intro a b c hab hbc
    rw [descendingLe_iff] at hab hbc ⊢
    omega
  · intro a b
    rw [Bool.or_eq_true, descendingLe_iff, descendingLe_iff]
    omega

/-- **An engine that puts the older one first among rows with equal numbers.** -/
def oldestFirst : Sql where
  ascending rows := rows.mergeSort ascendingLe
  descending rows := rows.mergeSort descendingLe
  ascending_perm rows := rows.mergeSort_perm _
  ascending_sorted rows := by
    refine (ascendingLe_sorted rows).imp ?_
    intro a b h
    rw [ascendingLe_iff] at h
    rw [Int64.le_iff_toInt_le]
    omega
  descending_perm rows := rows.mergeSort_perm _
  descending_sorted rows := by
    refine (descendingLe_sorted rows).imp ?_
    intro a b h
    rw [descendingLe_iff] at h
    rw [Int64.le_iff_toInt_le]
    omega

end Sql

/-! ### Sequences of messages -/

/-- **A message given to an adapter**, with its recipient and the time at which it is stored. -/
structure Arrival where
  recipient : Fingerprint
  envelope : MessageEnvelope
  storedAt : UInt64

namespace Arrival

/-- The messages for a recipient in a room. -/
def addressed (roomId : RoomId) (recipient : Fingerprint) (arrivals : List Arrival) : List Arrival :=
  arrivals.filter fun a => a.envelope.roomId = roomId && a.recipient = recipient

/-- The message in memory. -/
def stored (a : Arrival) : StoredMessage where
  envelope := a.envelope
  recipientFingerprint := a.recipient
  storedAt := a.storedAt

variable (sha256 : Bytes → Bytes32) (encrypt : MessageEnvelope → Bytes)

/-- The row of the message; the caller encrypts the envelope. -/
def row (id : ℕ) (a : Arrival) : MessageRow where
  id := id
  roomId := a.envelope.roomId.asStr
  recipientHash := hashFingerprint sha256 a.recipient
  sequenceNumber := a.envelope.sequenceNumber.toInt64
  data := encrypt a.envelope
  storedAt := a.storedAt.toInt64

/-- The rows of a sequence of messages, numbered from the last identifier on. -/
def rows (lastId : ℕ) : List Arrival → List MessageRow
  | [] => []
  | a :: arrivals => a.row sha256 encrypt (lastId + 1) :: rows (lastId + 1) arrivals

@[simp] theorem length_rows (lastId : ℕ) (arrivals : List Arrival) :
    (rows sha256 encrypt lastId arrivals).length = arrivals.length := by
  induction arrivals generalizing lastId with
  | nil => rfl
  | cons a arrivals ih => exact congrArg Nat.succ (ih (lastId + 1))

theorem rows_append (lastId : ℕ) (arrivals arrivals' : List Arrival) :
    rows sha256 encrypt lastId (arrivals ++ arrivals') =
      rows sha256 encrypt lastId arrivals ++ rows sha256 encrypt (lastId + arrivals.length) arrivals' := by
  induction arrivals generalizing lastId with
  | nil => rfl
  | cons a arrivals ih =>
      have hlast : lastId + 1 + arrivals.length = lastId + (a :: arrivals).length := by
        rw [List.length_cons]
        omega
      rw [List.cons_append, rows, rows, ih, hlast, List.cons_append]

/-- What does not depend on the identifier of a row can be read off the messages. -/
theorem rows_map {β : Type*} (f : MessageRow → β) (g : Arrival → β)
    (hfg : ∀ id a, f (a.row sha256 encrypt id) = g a) (lastId : ℕ) (arrivals : List Arrival) :
    (rows sha256 encrypt lastId arrivals).map f = arrivals.map g := by
  induction arrivals generalizing lastId with
  | nil => rfl
  | cons a arrivals ih => rw [rows, List.map_cons, List.map_cons, hfg, ih]

theorem rows_filter_map {β : Type*} (p : MessageRow → Bool) (q : Arrival → Bool) (f : MessageRow → β)
    (g : Arrival → β) (hpq : ∀ id a, p (a.row sha256 encrypt id) = q a)
    (hfg : ∀ id a, f (a.row sha256 encrypt id) = g a) (lastId : ℕ) (arrivals : List Arrival) :
    ((rows sha256 encrypt lastId arrivals).filter p).map f = (arrivals.filter q).map g := by
  induction arrivals generalizing lastId with
  | nil => rfl
  | cons a arrivals ih =>
      rw [rows, List.filter_cons, List.filter_cons, hpq]
      split
      · rw [List.map_cons, List.map_cons, hfg, ih]
      · exact ih (lastId + 1)

end Arrival

namespace MemoryStorageAdapter

/-- Store a sequence of messages. -/
def storeAll (s : MemoryStorageAdapter) (arrivals : List Arrival) : MemoryStorageAdapter :=
  arrivals.foldl (fun s a => s.storeMessage a.recipient a.envelope a.storedAt) s

theorem storeAll_append (s : MemoryStorageAdapter) (arrivals arrivals' : List Arrival) :
    s.storeAll (arrivals ++ arrivals') = (s.storeAll arrivals).storeAll arrivals' :=
  List.foldl_append

/-- No room gets more messages than the limit. -/
def Fits (maxMessagesPerRoom : UInt32) (arrivals : List Arrival) : Prop :=
  ∀ roomId, (arrivals.filter fun a => a.envelope.roomId = roomId).length ≤ maxMessagesPerRoom.toNat

theorem Fits.of_append {maxMessagesPerRoom : UInt32} {arrivals arrivals' : List Arrival}
    (h : Fits maxMessagesPerRoom (arrivals ++ arrivals')) : Fits maxMessagesPerRoom arrivals := by
  intro roomId
  have hroom := h roomId
  rw [List.filter_append, List.length_append] at hroom
  omega

/-- **Nothing is evicted below the limit.** -/
theorem storeAll_of_fits {maxMessagesPerRoom : UInt32} {arrivals : List Arrival}
    (h : Fits maxMessagesPerRoom arrivals) :
    (new maxMessagesPerRoom).storeAll arrivals =
      { messages := arrivals.map Arrival.stored, maxMessagesPerRoom := maxMessagesPerRoom } := by
  induction arrivals using List.reverseRecOn with
  | nil => rfl
  | append_singleton arrivals a ih =>
      have hcount : ((arrivals.map Arrival.stored).filter fun m =>
          m.envelope.roomId.asStr = a.envelope.roomId.asStr).length < maxMessagesPerRoom.toNat := by
        have hroom := h a.envelope.roomId
        rw [List.filter_append, List.filter_singleton, decide_eq_true rfl, List.length_append] at hroom
        rw [List.filter_map, List.length_map]
        refine lt_of_lt_of_le (Nat.lt_succ_of_le (le_of_eq ?_)) hroom
        refine congrArg List.length (List.filter_congr ?_)
        intro b _
        exact decide_eq_decide.2 RoomId.asStr_injective.eq_iff
      rw [storeAll_append, ih h.of_append]
      simp only [storeAll, List.foldl_cons, List.foldl_nil, storeMessage, if_neg (Nat.not_le.2 hcount),
        List.map_append, List.map_cons, List.map_nil, Arrival.stored]

theorem fetchBacklog_stored (maxMessagesPerRoom : UInt32) (arrivals : List Arrival) (roomId : RoomId)
    (recipient : Fingerprint) (sinceSeq : UInt64) :
    fetchBacklog { messages := arrivals.map Arrival.stored, maxMessagesPerRoom := maxMessagesPerRoom }
        roomId recipient sinceSeq =
      ((Arrival.addressed roomId recipient arrivals).filter fun a =>
        sinceSeq < a.envelope.sequenceNumber).map Arrival.envelope := by
  simp only [fetchBacklog, Arrival.addressed, List.filter_map, List.map_map, List.filter_filter]
  refine congrArg (List.map _) (List.filter_congr ?_)
  intro a _
  simp only [Function.comp_apply, Arrival.stored, RoomId.asStr_injective.eq_iff]
  exact Bool.and_comm _ _

end MemoryStorageAdapter

namespace SqliteStorageAdapter

variable (sha256 : Bytes → Bytes32) (sql : Sql) (encrypt : MessageEnvelope → Bytes)

/-- Store a sequence of messages. -/
def storeAll (s : SqliteStorageAdapter) (arrivals : List Arrival) :
    Except SanctumError SqliteStorageAdapter :=
  arrivals.foldlM (fun s a => s.storeMessage sha256 a.envelope.roomId a.recipient
    a.envelope.sequenceNumber (encrypt a.envelope) a.storedAt) s

/-- **The rows for a sequence of messages** of rooms that are stored. -/
theorem storeAll_eq {s : SqliteStorageAdapter} {arrivals : List Arrival}
    (h : ∀ a ∈ arrivals, s.hasRoom a.envelope.roomId) :
    s.storeAll sha256 encrypt arrivals = .ok { s with
      messages := s.messages ++ Arrival.rows sha256 encrypt s.lastId arrivals
      lastId := s.lastId + arrivals.length } := by
  induction arrivals generalizing s with
  | nil => simp only [storeAll, List.foldlM_nil, Arrival.rows, List.append_nil]; rfl
  | cons a arrivals ih =>
      rw [List.forall_mem_cons] at h
      have hstore : s.storeMessage sha256 a.envelope.roomId a.recipient a.envelope.sequenceNumber
          (encrypt a.envelope) a.storedAt = .ok { s with
            messages := s.messages ++ [a.row sha256 encrypt (s.lastId + 1)]
            lastId := s.lastId + 1 } := if_pos h.1
      have hrest := ih (s := { s with
        messages := s.messages ++ [a.row sha256 encrypt (s.lastId + 1)]
        lastId := s.lastId + 1 }) h.2
      rw [storeAll, List.foldlM_cons, hstore]
      refine hrest.trans ?_
      rw [Arrival.rows, List.append_assoc, List.singleton_append, List.length_cons]
      exact congrArg (fun lastId => Except.ok { s with
        messages := s.messages ++ a.row sha256 encrypt (s.lastId + 1) ::
          Arrival.rows sha256 encrypt (s.lastId + 1) arrivals
        lastId := lastId }) (Nat.add_right_comm s.lastId 1 arrivals.length)

/-- The hash of the recipient is not the hash of another recipient. -/
def HashOnly (recipient : Fingerprint) (arrivals : List Arrival) : Prop :=
  ∀ a ∈ arrivals, hashFingerprint sha256 a.recipient = hashFingerprint sha256 recipient →
    a.recipient = recipient

/-- A fetch answers the rows of the messages for the recipient with a greater number, in the order of the
engine. -/
theorem fetchBacklog_perm {s : SqliteStorageAdapter} {lastId : ℕ} {arrivals : List Arrival}
    (hrows : s.messages = Arrival.rows sha256 encrypt lastId arrivals) (roomId : RoomId)
    {recipient : Fingerprint} (hhash : HashOnly sha256 recipient arrivals) (sinceSeq : UInt64) :
    (s.fetchBacklog sha256 sql roomId recipient sinceSeq).Perm
      (((Arrival.addressed roomId recipient arrivals).filter fun a =>
        sinceSeq.toInt64 < a.envelope.sequenceNumber.toInt64).map fun a =>
          (a.envelope.sequenceNumber, encrypt a.envelope)) := by
  refine ((sql.ascending_perm _).map _).trans (List.Perm.of_eq ?_)
  rw [hrows, Arrival.addressed, List.filter_filter]
  have hfilter : arrivals.filter (fun a =>
      (sinceSeq.toInt64 < a.envelope.sequenceNumber.toInt64 : Bool) &&
        (a.envelope.roomId = roomId && a.recipient = recipient)) =
      arrivals.filter fun a => a.envelope.roomId.asStr = roomId.asStr &&
        hashFingerprint sha256 a.recipient = hashFingerprint sha256 recipient &&
          sinceSeq.toInt64 < a.envelope.sequenceNumber.toInt64 := by
    refine List.filter_congr ?_
    intro a ha
    have hrecipient : (hashFingerprint sha256 a.recipient = hashFingerprint sha256 recipient) ↔
        a.recipient = recipient := ⟨hhash a ha, fun h => by rw [h]⟩
    simp only [RoomId.asStr_injective.eq_iff, hrecipient]
    exact Bool.and_comm _ _
  rw [hfilter]
  refine Arrival.rows_filter_map sha256 encrypt _ _ _ _ ?_ ?_ lastId arrivals
  · intro id a
    rfl
  · intro id a
    simp only [Arrival.row, UInt64.toUInt64_toInt64]

/-- A fetch answers in ascending order of the signed numbers. -/
theorem fetchBacklog_sorted (s : SqliteStorageAdapter) (roomId : RoomId) (recipient : Fingerprint)
    (sinceSeq : UInt64) : ((s.fetchBacklog sha256 sql roomId recipient sinceSeq).map Prod.fst).Pairwise
      fun a b => a.toInt64 ≤ b.toInt64 := by
  rw [fetchBacklog, List.map_map, List.pairwise_map]
  refine (sql.ascending_sorted _).imp ?_
  intro a b h
  simpa only [Function.comp_apply, Int64.toInt64_toUInt64] using h

end SqliteStorageAdapter

end Sanctum
