/-
What a fetch answers.

A fetch asks for the messages above a number.  The numbers of different senders have nothing to do with
each other, so a message of one sender may well be below the number that was reached with the messages of
another; and the two adapters compare, and order, the numbers in different ways.

Main definitions:

* `Sanctum.SqliteStorageAdapter.Hosts` — the rooms of a sequence of messages are stored;
* `Sanctum.StorageAgreement.MemoryDelivers`, `Sanctum.StorageAgreement.SqliteDelivers` — a second fetch
  answers everything that was stored after the first.

Main results:

* `Sanctum.StorageAgreement.fetch_agrees_iff` — **when the two adapters answer the same numbers**;
* `Sanctum.StorageAgreement.fetches_above_iff` — **when a fetch answers what is above a number**;
* `Sanctum.StorageAgreement.delivers_iff` — **when nothing is skipped**.
-/

import Sanctum.Storage

set_option relaxedAutoImplicit false
set_option autoImplicit false

namespace Sanctum

/-! ### Lists -/

/-- Lists of numbers that are filtered by two conditions are the same up to order only if the conditions
agree. -/
theorem agree_of_filter_perm {α : Type*} {p q : α → Bool} {l : List α}
    (h : (l.filter p).Perm (l.filter q)) : ∀ a ∈ l, p a = q a := by
  intro a ha
  have hmem := h.mem_iff (a := a)
  rw [List.mem_filter, List.mem_filter] at hmem
  exact Bool.eq_iff_iff.2 ⟨fun hp => (hmem.1 ⟨ha, hp⟩).2, fun hq => (hmem.2 ⟨ha, hq⟩).2⟩

/-- Everything in the second list passes the filter exactly when nothing of it is missing. -/
theorem subperm_filter_append_iff {α : Type*} {p : α → Bool} {l l' : List α} :
    l'.Subperm ((l ++ l').filter p) ↔ ∀ a ∈ l', p a := by
  constructor
  · intro h a ha
    exact (List.mem_filter.1 (h.subset ha)).2
  · intro h
    rw [List.filter_append, List.filter_eq_self.2 h]
    exact (List.sublist_append_right _ _).subperm

/-- The highest of some numbers, 0 if there are none. -/
def highest (numbers : List UInt64) : UInt64 :=
  numbers.foldr (fun n m => if n ≤ m then m else n) 0

theorem toNat_highest_lt_iff {numbers : List UInt64} {k : ℕ} :
    (highest numbers).toNat < k ↔ 0 < k ∧ ∀ m ∈ numbers, m.toNat < k := by
  induction numbers with
  | nil => simp [highest]
  | cons m numbers ih =>
      have hstep : (highest (m :: numbers)).toNat < k ↔ m.toNat < k ∧ (highest numbers).toNat < k := by
        show (if m ≤ highest numbers then highest numbers else m).toNat < k ↔ _
        simp only [UInt64.le_iff_toNat_le]
        split <;> omega
      rw [hstep, ih, List.forall_mem_cons]
      exact and_left_comm

theorem highest_lt_iff {numbers : List UInt64} {n : UInt64} :
    highest numbers < n ↔ 0 < n ∧ ∀ m ∈ numbers, m < n := by
  simp only [UInt64.lt_iff_toNat_lt]
  exact toNat_highest_lt_iff

theorem highest_perm {numbers numbers' : List UInt64} (h : numbers.Perm numbers') :
    highest numbers = highest numbers' := by
  have hnot : ∀ {l l' : List UInt64}, l.Perm l' → ¬ highest l < highest l' := by
    intro l l' hperm hlt
    obtain ⟨hpos, hbelow⟩ := highest_lt_iff.1 hlt
    have hself : highest l' < highest l' :=
      highest_lt_iff.2 ⟨hpos, fun m hm => hbelow m (hperm.symm.subset hm)⟩
    exact absurd hself (UInt64.lt_irrefl _)
  have hle := hnot h
  have hge := hnot h.symm
  rw [UInt64.lt_iff_toNat_lt] at hle hge
  exact UInt64.toNat_inj.1 (by omega)

/-- The database has no messages, and the rooms of a sequence of messages are stored. -/
structure SqliteStorageAdapter.Hosts (s : SqliteStorageAdapter) (arrivals : List Arrival) : Prop where
  empty : s.messages = []
  rooms : ∀ a ∈ arrivals, s.hasRoom a.envelope.roomId

namespace Arrival

/-- The numbers of the messages for a recipient in a room, in the order of their arrival. -/
def numbers (roomId : RoomId) (recipient : Fingerprint) (arrivals : List Arrival) : List UInt64 :=
  (addressed roomId recipient arrivals).map fun a => a.envelope.sequenceNumber

theorem numbers_filter (roomId : RoomId) (recipient : Fingerprint) (arrivals : List Arrival)
    (p : UInt64 → Bool) :
    ((addressed roomId recipient arrivals).filter fun a => p a.envelope.sequenceNumber).map
        (fun a => a.envelope.sequenceNumber) =
      (numbers roomId recipient arrivals).filter p := by
  rw [numbers, List.filter_map]
  rfl

/-- Everything that comes later is among what a filter leaves of all the messages exactly when it passes the
filter. -/
theorem subperm_filter_iff {β : Type} (f : Arrival → β) (p : β → Bool) (roomId : RoomId)
    (recipient : Fingerprint) (first later : List Arrival) :
    ((addressed roomId recipient later).map f).Subperm
        (((addressed roomId recipient (first ++ later)).filter fun a => p (f a)).map f) ↔
      ∀ a ∈ addressed roomId recipient later, p (f a) := by
  have hfilter : ((addressed roomId recipient (first ++ later)).filter fun a => p (f a)).map f =
      ((addressed roomId recipient first).map f ++ (addressed roomId recipient later).map f).filter p := by
    rw [← List.map_append, List.filter_map, addressed, List.filter_append]
    rfl
  rw [hfilter, subperm_filter_append_iff, List.forall_mem_map]

end Arrival

namespace StorageAgreement

variable {sha256 : Bytes → Bytes32} {sql : Sql} {encrypt : MessageEnvelope → Bytes}
  {maxMessagesPerRoom : UInt32} {db : SqliteStorageAdapter} {arrivals : List Arrival}

/-! ### The two adapters -/

/-- The numbers that the adapter in memory answers. -/
theorem memory_numbers (hfits : MemoryStorageAdapter.Fits maxMessagesPerRoom arrivals)
    (roomId : RoomId) (recipient : Fingerprint) (sinceSeq : UInt64) :
    ((((MemoryStorageAdapter.new maxMessagesPerRoom).storeAll arrivals).fetchBacklog roomId recipient
        sinceSeq).map MessageEnvelope.sequenceNumber) =
      (Arrival.numbers roomId recipient arrivals).filter fun n => sinceSeq < n := by
  rw [MemoryStorageAdapter.storeAll_of_fits hfits, MemoryStorageAdapter.fetchBacklog_stored,
    List.map_map, ← Arrival.numbers_filter]
  rfl

/-- The numbers that the adapter for SQLite answers, up to their order. -/
theorem sqlite_numbers (sql : Sql) {lastId : ℕ} (roomId : RoomId)
    {recipient : Fingerprint} (hhash : SqliteStorageAdapter.HashOnly sha256 recipient arrivals)
    (sinceSeq : UInt64) {db' : SqliteStorageAdapter}
    (hrows : db'.messages = Arrival.rows sha256 encrypt lastId arrivals) :
    ((db'.fetchBacklog sha256 sql roomId recipient sinceSeq).map Prod.fst).Perm
      ((Arrival.numbers roomId recipient arrivals).filter fun n => sinceSeq.toInt64 < n.toInt64) := by
  refine ((SqliteStorageAdapter.fetchBacklog_perm sha256 sql encrypt hrows roomId hhash sinceSeq).map
    Prod.fst).trans (List.Perm.of_eq ?_)
  rw [List.map_map, ← Arrival.numbers_filter]
  rfl

theorem storeAll_hosts (sha256 : Bytes → Bytes32) (encrypt : MessageEnvelope → Bytes)
    (hhosts : db.Hosts arrivals) : ∃ db', db.storeAll sha256 encrypt arrivals = .ok db' ∧
      db'.messages = Arrival.rows sha256 encrypt db.lastId arrivals :=
  ⟨_, SqliteStorageAdapter.storeAll_eq sha256 encrypt hhosts.rooms, by rw [hhosts.empty]; rfl⟩

/-- A fetch answers exactly the messages for the recipient with a greater number, in ascending order. -/
def FetchesAbove (sha256 : Bytes → Bytes32) (sql : Sql) (encrypt : MessageEnvelope → Bytes)
    (db : SqliteStorageAdapter) (arrivals : List Arrival) (roomId : RoomId) (recipient : Fingerprint)
    (sinceSeq : UInt64) : Prop :=
  ∃ db', db.storeAll sha256 encrypt arrivals = .ok db' ∧
    (db'.fetchBacklog sha256 sql roomId recipient sinceSeq).Perm
      (((Arrival.addressed roomId recipient arrivals).filter fun a =>
        sinceSeq < a.envelope.sequenceNumber).map fun a =>
          (a.envelope.sequenceNumber, encrypt a.envelope)) ∧
    ((db'.fetchBacklog sha256 sql roomId recipient sinceSeq).map Prod.fst).Pairwise (· ≤ ·)

/-- The numbers of what a fetch answers. -/
theorem perm_numbers {roomId : RoomId} {recipient : Fingerprint} {sinceSeq : UInt64}
    {fetched : List (UInt64 × Bytes)}
    (h : fetched.Perm (((Arrival.addressed roomId recipient arrivals).filter fun a =>
      sinceSeq < a.envelope.sequenceNumber).map fun a => (a.envelope.sequenceNumber, encrypt a.envelope))) :
    (fetched.map Prod.fst).Perm
      ((Arrival.numbers roomId recipient arrivals).filter fun n => sinceSeq < n) := by
  rw [← Arrival.numbers_filter]
  refine (h.map Prod.fst).trans (List.Perm.of_eq ?_)
  rw [List.map_map]
  rfl

/-- If a fetch answers the messages above a number, then signed and unsigned comparison agree on them. -/
theorem side_of_fetchesAbove (hhosts : db.Hosts arrivals) {roomId : RoomId} {recipient : Fingerprint}
    (hhash : SqliteStorageAdapter.HashOnly sha256 recipient arrivals) {sinceSeq : UInt64}
    (h : FetchesAbove sha256 sql encrypt db arrivals roomId recipient sinceSeq) :
    ∀ n ∈ Arrival.numbers roomId recipient arrivals, n.toNat < 2 ^ 63 ↔ sinceSeq.toNat < 2 ^ 63 := by
  obtain ⟨db', hstore, hexact, -⟩ := h
  obtain ⟨db'', hstore', hrows⟩ := storeAll_hosts sha256 encrypt hhosts
  obtain rfl := Except.ok.inj (hstore.symm.trans hstore')
  have hagree := (sqlite_numbers sql roomId hhash sinceSeq hrows).symm.trans (perm_numbers hexact)
  intro n hn
  exact lt_iff_toInt64_lt.1 (decide_eq_decide.1 (agree_of_filter_perm hagree n hn)).symm

/-- If signed and unsigned comparison agree on the numbers stored, then a fetch answers the messages above
the number asked for. -/
theorem fetchesAbove_of_side (sql : Sql) (hhosts : db.Hosts arrivals) {roomId : RoomId}
    {recipient : Fingerprint} (hhash : SqliteStorageAdapter.HashOnly sha256 recipient arrivals)
    {sinceSeq : UInt64} (hside : ∀ n ∈ Arrival.numbers roomId recipient arrivals,
      n.toNat < 2 ^ 63 ↔ sinceSeq.toNat < 2 ^ 63) :
    FetchesAbove sha256 sql encrypt db arrivals roomId recipient sinceSeq := by
  obtain ⟨db', hstore, hrows⟩ := storeAll_hosts sha256 encrypt hhosts
  have hperm := SqliteStorageAdapter.fetchBacklog_perm sha256 sql encrypt hrows roomId hhash sinceSeq
  have hnumbers := sqlite_numbers sql roomId hhash sinceSeq hrows
  have hsorted := SqliteStorageAdapter.fetchBacklog_sorted sha256 sql db' roomId recipient sinceSeq
  have hfilter : (Arrival.addressed roomId recipient arrivals).filter
        (fun a => sinceSeq.toInt64 < a.envelope.sequenceNumber.toInt64) =
      (Arrival.addressed roomId recipient arrivals).filter fun a =>
        sinceSeq < a.envelope.sequenceNumber := by
    refine List.filter_congr ?_
    intro a ha
    exact (decide_eq_decide.2 (lt_iff_toInt64_lt.2 (hside _ (List.mem_map_of_mem ha)))).symm
  rw [hfilter] at hperm
  refine ⟨db', hstore, hperm, hsorted.imp_of_mem ?_⟩
  intro n m hn hm hle
  have hn := hside n (List.mem_of_mem_filter (hnumbers.subset hn))
  have hm := hside m (List.mem_of_mem_filter (hnumbers.subset hm))
  exact (toInt64_le_iff (hn.trans hm.symm)).1 hle

/-- **A fetch answers the messages above a number exactly when** the numbers stored for the recipient are
on the same side of 2^63 as the one asked for. -/
theorem fetches_above_iff (sql : Sql) (hhosts : db.Hosts arrivals) (roomId : RoomId)
    {recipient : Fingerprint} (hhash : SqliteStorageAdapter.HashOnly sha256 recipient arrivals)
    (sinceSeq : UInt64) :
    FetchesAbove sha256 sql encrypt db arrivals roomId recipient sinceSeq ↔
      ∀ n ∈ Arrival.numbers roomId recipient arrivals, n.toNat < 2 ^ 63 ↔ sinceSeq.toNat < 2 ^ 63 :=
  ⟨side_of_fetchesAbove hhosts hhash, fetchesAbove_of_side sql hhosts hhash⟩

/-- **The two adapters answer the same numbers in the same order exactly when** the numbers stored for the
recipient are on the same side of 2^63 as the one asked for, and those above it came in ascending
order. -/
theorem fetch_agrees_iff (hfits : MemoryStorageAdapter.Fits maxMessagesPerRoom arrivals)
    (hhosts : db.Hosts arrivals) (roomId : RoomId) {recipient : Fingerprint}
    (hhash : SqliteStorageAdapter.HashOnly sha256 recipient arrivals) (sinceSeq : UInt64) :
    (∃ db', db.storeAll sha256 encrypt arrivals = .ok db' ∧
      (db'.fetchBacklog sha256 sql roomId recipient sinceSeq).map Prod.fst =
        (((MemoryStorageAdapter.new maxMessagesPerRoom).storeAll arrivals).fetchBacklog roomId recipient
          sinceSeq).map MessageEnvelope.sequenceNumber) ↔
      (∀ n ∈ Arrival.numbers roomId recipient arrivals, n.toNat < 2 ^ 63 ↔ sinceSeq.toNat < 2 ^ 63) ∧
        ((Arrival.numbers roomId recipient arrivals).filter fun n => sinceSeq < n).Pairwise (· ≤ ·) := by
  obtain ⟨db', hstore, hrows⟩ := storeAll_hosts sha256 encrypt hhosts
  have hperm := sqlite_numbers sql roomId hhash sinceSeq hrows
  have hsorted := SqliteStorageAdapter.fetchBacklog_sorted sha256 sql db' roomId recipient sinceSeq
  rw [memory_numbers hfits]
  constructor
  · rintro ⟨db'', hstore', hagree⟩
    obtain rfl := Except.ok.inj (hstore.symm.trans hstore')
    rw [hagree] at hperm hsorted
    have hside : ∀ n ∈ Arrival.numbers roomId recipient arrivals,
        n.toNat < 2 ^ 63 ↔ sinceSeq.toNat < 2 ^ 63 := by
      intro n hn
      exact lt_iff_toInt64_lt.1 (decide_eq_decide.1 (agree_of_filter_perm hperm n hn))
    refine ⟨hside, hsorted.imp_of_mem ?_⟩
    intro n m hn hm hle
    have hn := hside n (List.mem_of_mem_filter hn)
    have hm := hside m (List.mem_of_mem_filter hm)
    exact (toInt64_le_iff (hn.trans hm.symm)).1 hle
  · rintro ⟨hside, hascending⟩
    have habove : FetchesAbove sha256 sql encrypt db arrivals roomId recipient sinceSeq :=
      fetchesAbove_of_side sql hhosts hhash hside
    obtain ⟨db'', hstore', hexact, hascends⟩ := habove
    refine ⟨db'', hstore', (perm_numbers hexact).eq_of_pairwise ?_ hascends hascending⟩
    intro n m _ _ hnm hmn
    exact UInt64.le_antisymm hnm hmn

/-! ### What was stored after a fetch -/

/-- What the recipient asks for after a fetch from 0: the messages above the highest number received.  The
adapter in memory answers everything that was stored after the fetch. -/
def MemoryDelivers (maxMessagesPerRoom : UInt32) (roomId : RoomId) (recipient : Fingerprint)
    (first later : List Arrival) : Prop :=
  let s := (MemoryStorageAdapter.new maxMessagesPerRoom).storeAll first
  let sinceSeq := highest ((s.fetchBacklog roomId recipient 0).map MessageEnvelope.sequenceNumber)
  ((Arrival.addressed roomId recipient later).map Arrival.envelope).Subperm
    ((s.storeAll later).fetchBacklog roomId recipient sinceSeq)

/-- The adapter for SQLite answers everything that was stored after the fetch. -/
def SqliteDelivers (sha256 : Bytes → Bytes32) (sql : Sql) (encrypt : MessageEnvelope → Bytes)
    (db : SqliteStorageAdapter) (roomId : RoomId) (recipient : Fingerprint)
    (first later : List Arrival) : Prop :=
  ∃ db₁ db₂, db.storeAll sha256 encrypt first = .ok db₁ ∧ db₁.storeAll sha256 encrypt later = .ok db₂ ∧
    let sinceSeq := highest ((db₁.fetchBacklog sha256 sql roomId recipient 0).map Prod.fst)
    ((Arrival.addressed roomId recipient later).map fun a =>
        (a.envelope.sequenceNumber, encrypt a.envelope)).Subperm
      (db₂.fetchBacklog sha256 sql roomId recipient sinceSeq)

/-- Each number of a later message is above the numbers of the earlier ones, and it is not negative as a
signed number. -/
def Ascends (roomId : RoomId) (recipient : Fingerprint) (first later : List Arrival) : Prop :=
  ∀ n ∈ Arrival.numbers roomId recipient later, 0 < n ∧ n.toNat < 2 ^ 63 ∧
    ∀ m ∈ Arrival.numbers roomId recipient first, m < n

variable {first later : List Arrival} {recipient : Fingerprint}

theorem memoryDelivers_iff (hfits : MemoryStorageAdapter.Fits maxMessagesPerRoom (first ++ later))
    (roomId : RoomId) (recipient : Fingerprint) :
    MemoryDelivers maxMessagesPerRoom roomId recipient first later ↔
      ∀ n ∈ Arrival.numbers roomId recipient later, 0 < n ∧
        ∀ m ∈ Arrival.numbers roomId recipient first, m < n := by
  have hsince : highest ((((MemoryStorageAdapter.new maxMessagesPerRoom).storeAll first).fetchBacklog
      roomId recipient 0).map MessageEnvelope.sequenceNumber) =
      highest ((Arrival.numbers roomId recipient first).filter fun n => 0 < n) := by
    rw [memory_numbers hfits.of_append]
  unfold MemoryDelivers
  dsimp only
  rw [hsince, ← MemoryStorageAdapter.storeAll_append, MemoryStorageAdapter.storeAll_of_fits hfits,
    MemoryStorageAdapter.fetchBacklog_stored]
  rw [Arrival.subperm_filter_iff Arrival.envelope fun e =>
    highest ((Arrival.numbers roomId recipient first).filter fun n => 0 < n) < e.sequenceNumber]
  simp only [List.forall_mem_map, Arrival.numbers, decide_eq_true_iff, highest_lt_iff, List.mem_filter]
  refine forall₂_congr ?_
  intro a _
  refine and_congr_right ?_
  intro hpos
  constructor
  · intro h b hb
    by_cases hzero : 0 < b.envelope.sequenceNumber
    · exact h _ ⟨List.mem_map_of_mem hb, hzero⟩
    · rw [UInt64.lt_iff_toNat_lt] at hzero hpos ⊢
      omega
  · rintro h m ⟨hm, -⟩
    obtain ⟨b, hb, rfl⟩ := List.mem_map.1 hm
    exact h b hb

/-- The two databases of a history, and the rows in them. -/
theorem storeAll_append_hosts (sha256 : Bytes → Bytes32) (encrypt : MessageEnvelope → Bytes)
    (hhosts : db.Hosts (first ++ later)) :
    ∃ db₁ db₂, db.storeAll sha256 encrypt first = .ok db₁ ∧
      db₁.storeAll sha256 encrypt later = .ok db₂ ∧
      db₁.messages = Arrival.rows sha256 encrypt db.lastId first ∧
      db₂.messages = Arrival.rows sha256 encrypt db.lastId (first ++ later) := by
  obtain ⟨hempty, hrooms⟩ := hhosts
  rw [List.forall_mem_append] at hrooms
  refine ⟨_, _, SqliteStorageAdapter.storeAll_eq sha256 encrypt hrooms.1,
    SqliteStorageAdapter.storeAll_eq sha256 encrypt hrooms.2, ?_, ?_⟩
  · rw [hempty]
    rfl
  · rw [Arrival.rows_append, hempty]
    rfl

theorem sqliteDelivers_iff (sql : Sql) (hhosts : db.Hosts (first ++ later)) (roomId : RoomId)
    (hhash : SqliteStorageAdapter.HashOnly sha256 recipient (first ++ later)) :
    SqliteDelivers sha256 sql encrypt db roomId recipient first later ↔
      ∀ n ∈ Arrival.numbers roomId recipient later,
        (highest ((Arrival.numbers roomId recipient first).filter fun m =>
          (0 : UInt64).toInt64 < m.toInt64)).toInt64 < n.toInt64 := by
  obtain ⟨db₁, db₂, hstore₁, hstore₂, hrows₁, hrows₂⟩ := storeAll_append_hosts sha256 encrypt hhosts
  have hhash₁ : SqliteStorageAdapter.HashOnly sha256 recipient first :=
    fun a ha => hhash a (List.mem_append_left _ ha)
  have hfetch : ∀ sinceSeq, (((Arrival.addressed roomId recipient later).map fun a =>
        (a.envelope.sequenceNumber, encrypt a.envelope)).Subperm
      (db₂.fetchBacklog sha256 sql roomId recipient sinceSeq)) ↔
      ∀ n ∈ Arrival.numbers roomId recipient later, sinceSeq.toInt64 < n.toInt64 := by
    intro sinceSeq
    have hperm := SqliteStorageAdapter.fetchBacklog_perm sha256 sql encrypt hrows₂ roomId hhash sinceSeq
    rw [hperm.subperm_left, Arrival.subperm_filter_iff (fun a =>
      (a.envelope.sequenceNumber, encrypt a.envelope)) fun p => sinceSeq.toInt64 < p.1.toInt64]
    simp only [List.forall_mem_map, Arrival.numbers, decide_eq_true_iff]
  have hsince := highest_perm (sqlite_numbers sql roomId hhash₁ 0 hrows₁)
  rw [← hsince, ← hfetch]
  constructor
  · rintro ⟨db₁', db₂', hstore₁', hstore₂', hdelivers⟩
    obtain rfl := Except.ok.inj (hstore₁.symm.trans hstore₁')
    obtain rfl := Except.ok.inj (hstore₂.symm.trans hstore₂')
    exact hdelivers
  · intro hdelivers
    exact ⟨db₁, db₂, hstore₁, hstore₂, hdelivers⟩

/-- **Both adapters answer everything that was stored after the first fetch exactly when** each number of
a later message is above the numbers of the earlier ones for the recipient, whoever sent them, and below
2^63. -/
theorem delivers_iff (sql : Sql)
    (hfits : MemoryStorageAdapter.Fits maxMessagesPerRoom (first ++ later))
    (hhosts : db.Hosts (first ++ later)) (roomId : RoomId)
    (hhash : SqliteStorageAdapter.HashOnly sha256 recipient (first ++ later)) :
    (MemoryDelivers maxMessagesPerRoom roomId recipient first later ∧
        SqliteDelivers sha256 sql encrypt db roomId recipient first later) ↔
      Ascends roomId recipient first later := by
  rw [memoryDelivers_iff hfits, sqliteDelivers_iff sql hhosts roomId hhash]
  have hzero : ∀ m : UInt64, (0 : UInt64).toInt64 < m.toInt64 ↔ 0 < m ∧ m.toNat < 2 ^ 63 := by
    intro m
    have hm := m.toNat_lt
    rw [Int64.lt_iff_toInt_lt, toInt_toInt64, toInt_toInt64, UInt64.lt_iff_toNat_lt, UInt64.toNat_zero]
    split <;> split <;> omega
  constructor
  · rintro ⟨hmemory, hsqlite⟩
    intro n hn
    obtain ⟨hpos, habove⟩ := hmemory n hn
    refine ⟨hpos, ?_, habove⟩
    -- The highest number received is not negative, so a negative number is not above it.
    have hreceived : (highest ((Arrival.numbers roomId recipient first).filter fun m =>
        (0 : UInt64).toInt64 < m.toInt64)).toNat < 2 ^ 63 := by
      refine toNat_highest_lt_iff.2 ⟨by norm_num, ?_⟩
      intro m hm
      exact ((hzero m).1 (of_decide_eq_true (List.mem_filter.1 hm).2)).2
    have hlt := hsqlite n hn
    rw [Int64.lt_iff_toInt_lt, toInt_toInt64, toInt_toInt64, if_pos hreceived] at hlt
    by_contra hlarge
    rw [if_neg hlarge] at hlt
    have hn := n.toNat_lt
    omega
  · intro h
    refine ⟨fun n hn => ⟨(h n hn).1, (h n hn).2.2⟩, ?_⟩
    intro n hn
    obtain ⟨hpos, hsmall, habove⟩ := h n hn
    have hlt : highest ((Arrival.numbers roomId recipient first).filter fun m =>
        (0 : UInt64).toInt64 < m.toInt64) < n :=
      highest_lt_iff.2 ⟨hpos, fun m hm => habove m (List.mem_of_mem_filter hm)⟩
    refine (lt_iff_toInt64_lt.2 ?_).1 hlt
    rw [UInt64.lt_iff_toNat_lt] at hlt
    omega

/-! ### Two senders -/

def testAlice : Fingerprint := ⟨"AAAAAAAAAAAAAAAAAAAAAAAAAAAAAAAAAAAAAAAA"⟩

def testBob : Fingerprint := ⟨"BBBBBBBBBBBBBBBBBBBBBBBBBBBBBBBBBBBBBBBB"⟩

def testCarol : Fingerprint := ⟨"CCCCCCCCCCCCCCCCCCCCCCCCCCCCCCCCCCCCCCCC"⟩

/-- The digests of the fingerprints of two recipients. -/
def testSha256 (bytes : Bytes) : Bytes32 :=
  if bytes = asBytes testAlice.hex then
    ⟨[240, 162, 251, 128, 172, 6, 153, 7, 95, 182, 199, 176, 238, 43, 204, 32, 74, 29, 144, 158, 227, 20,
      149, 113, 33, 110, 201, 204, 29, 75, 159, 142], rfl⟩
  else if bytes = asBytes testBob.hex then
    ⟨[11, 215, 58, 246, 29, 208, 10, 43, 231, 189, 205, 255, 115, 214, 239, 179, 168, 142, 243, 134, 238,
      83, 254, 62, 220, 206, 152, 129, 60, 19, 135, 216], rfl⟩
  else ⟨List.replicate 32 0, length_zeros⟩

def testEnvelope (sender : Fingerprint) (sequenceNumber : UInt64) : MessageEnvelope where
  senderFingerprint := sender
  roomId := ⟨1⟩
  sequenceNumber := sequenceNumber
  nonce := List.replicate 12 0
  timestamp := 1000
  ciphertext := [7]
  ratchetHeader := ⟨List.replicate 32 0, 0, 0⟩

def testArrival (sender recipient : Fingerprint) (sequenceNumber : UInt64) : Arrival where
  recipient := recipient
  envelope := testEnvelope sender sequenceNumber
  storedAt := 1000

/-- A database with one room. -/
def testDb : SqliteStorageAdapter := SqliteStorageAdapter.openInMemory.storeRoom ⟨1⟩ [114] 0

theorem hosts_testDb {arrivals : List Arrival} (h : ∀ a ∈ arrivals, a.envelope.roomId = ⟨1⟩) :
    testDb.Hosts arrivals where
  empty := rfl
  rooms := by
    intro a ha
    rw [h a ha]
    decide

/-- Bob receives three messages from Alice, and then Carol sends her first one to him and Bob one to
Alice. -/
def testFirst : List Arrival :=
  [testArrival testAlice testBob 1, testArrival testAlice testBob 2, testArrival testAlice testBob 3]

def testLater : List Arrival := [testArrival testCarol testBob 1, testArrival testBob testAlice 1]

theorem fits_test : MemoryStorageAdapter.Fits 500 (testFirst ++ testLater) := by
  intro roomId
  refine (List.length_filter_le _ _).trans ?_
  decide

theorem hashOnly_test : SqliteStorageAdapter.HashOnly testSha256 testBob (testFirst ++ testLater) := by
  have hhash : hashFingerprint testSha256 testAlice ≠ hashFingerprint testSha256 testBob := by decide
  intro a ha heq
  simp only [testFirst, testLater, List.cons_append, List.nil_append, List.mem_cons, List.not_mem_nil,
    or_false] at ha
  rcases ha with rfl | rfl | rfl | rfl | rfl
  · rfl
  · rfl
  · rfl
  · rfl
  · exact absurd heq hhash

/-- **The first message of another sender is skipped**, by both adapters. -/
theorem first_message_skipped :
    ¬ MemoryDelivers 500 ⟨1⟩ testBob testFirst testLater ∧
      ¬ SqliteDelivers testSha256 .oldestFirst MessageEnvelope.ciphertext testDb ⟨1⟩ testBob testFirst
        testLater := by
  have hlater : 1 ∈ Arrival.numbers ⟨1⟩ testBob testLater := by decide
  have hfirst : 3 ∈ Arrival.numbers ⟨1⟩ testBob testFirst := by decide
  constructor
  · rw [memoryDelivers_iff fits_test]
    intro h
    exact absurd ((h 1 hlater).2 3 hfirst) (by decide)
  · rw [sqliteDelivers_iff _ (hosts_testDb (by decide)) _ hashOnly_test]
    intro h
    exact absurd (h 1 hlater) (by decide)

/-- Another message of the same sender is not skipped. -/
theorem delivers_next :
    MemoryDelivers 500 ⟨1⟩ testBob testFirst [testArrival testAlice testBob 4] ∧
      SqliteDelivers testSha256 .oldestFirst MessageEnvelope.ciphertext testDb ⟨1⟩ testBob testFirst
        [testArrival testAlice testBob 4] := by
  refine (delivers_iff .oldestFirst ?_ (hosts_testDb (by decide)) ⟨1⟩ ?_).2 ?_
  · intro roomId
    refine (List.length_filter_le _ _).trans ?_
    decide
  · intro a ha _
    revert a
    decide
  · have hfirst : Arrival.numbers ⟨1⟩ testBob testFirst = [1, 2, 3] := by decide
    have hlater : Arrival.numbers ⟨1⟩ testBob [testArrival testAlice testBob 4] = [4] := by decide
    rw [Ascends, hfirst, hlater]
    simp

/-- The second message comes before the first one, from another sender. -/
def testDescending : List Arrival := [testArrival testAlice testBob 2, testArrival testCarol testBob 1]

def testLarge : List Arrival := [testArrival testAlice testBob 9223372036854775808]

theorem hashOnly_testLarge : SqliteStorageAdapter.HashOnly testSha256 testBob testLarge := by
  intro a ha _
  revert a
  decide

/-- **The adapters disagree** on the order of two messages, and on a message whose number is negative as a
signed number. -/
theorem fetch_disagrees :
    (¬ ∃ db', testDb.storeAll testSha256 MessageEnvelope.ciphertext testDescending = .ok db' ∧
      (db'.fetchBacklog testSha256 .oldestFirst ⟨1⟩ testBob 0).map Prod.fst =
        (((MemoryStorageAdapter.new 500).storeAll testDescending).fetchBacklog ⟨1⟩ testBob 0).map
          MessageEnvelope.sequenceNumber) ∧
      ¬ ∃ db', testDb.storeAll testSha256 MessageEnvelope.ciphertext testLarge = .ok db' ∧
        (db'.fetchBacklog testSha256 .oldestFirst ⟨1⟩ testBob 0).map Prod.fst =
          (((MemoryStorageAdapter.new 500).storeAll testLarge).fetchBacklog ⟨1⟩ testBob 0).map
            MessageEnvelope.sequenceNumber := by
  constructor
  · rintro ⟨db', -, hagree⟩
    have hsorted := SqliteStorageAdapter.fetchBacklog_sorted testSha256 .oldestFirst db' ⟨1⟩ testBob 0
    have hmemory : (((MemoryStorageAdapter.new 500).storeAll testDescending).fetchBacklog ⟨1⟩ testBob
        0).map MessageEnvelope.sequenceNumber = [2, 1] := by decide
    rw [hagree, hmemory] at hsorted
    exact absurd hsorted (by decide)
  · rintro ⟨db', hstore, hagree⟩
    have hmem : 9223372036854775808 ∈
        (db'.fetchBacklog testSha256 .oldestFirst ⟨1⟩ testBob 0).map Prod.fst := by
      rw [hagree]
      decide
    have hhosts : testDb.Hosts testLarge := hosts_testDb (by decide)
    obtain ⟨db'', hstore', hrows⟩ := storeAll_hosts testSha256 MessageEnvelope.ciphertext hhosts
    obtain rfl := Except.ok.inj (hstore.symm.trans hstore')
    have hfilter := (sqlite_numbers .oldestFirst ⟨1⟩ hashOnly_testLarge 0 hrows).subset hmem
    exact absurd hfilter (by decide)

/-- Messages that come in ascending order are answered alike. -/
theorem fetch_agrees_ascending :
    ∃ db', testDb.storeAll testSha256 MessageEnvelope.ciphertext (testFirst ++ testLater) = .ok db' ∧
      (db'.fetchBacklog testSha256 .oldestFirst ⟨1⟩ testBob 1).map Prod.fst =
        (((MemoryStorageAdapter.new 500).storeAll (testFirst ++ testLater)).fetchBacklog ⟨1⟩ testBob
          1).map MessageEnvelope.sequenceNumber := by
  refine (fetch_agrees_iff fits_test (hosts_testDb (by decide)) ⟨1⟩ hashOnly_test 1).2 ?_
  have hnumbers : Arrival.numbers ⟨1⟩ testBob (testFirst ++ testLater) = [1, 2, 3, 1] := by decide
  rw [hnumbers]
  exact ⟨by simp, by decide⟩

/-- **A message with a large number is not answered**, and one with a small number is, to a fetch from a
large one. -/
theorem fetch_across_boundary :
    ¬ FetchesAbove testSha256 .oldestFirst MessageEnvelope.ciphertext testDb testLarge ⟨1⟩ testBob 0 ∧
      ¬ FetchesAbove testSha256 .oldestFirst MessageEnvelope.ciphertext testDb testFirst ⟨1⟩ testBob
        9223372036854775808 := by
  constructor
  · intro h
    have hside := side_of_fetchesAbove (hosts_testDb (by decide)) hashOnly_testLarge h
      9223372036854775808 (by decide)
    exact absurd hside (by decide)
  · intro h
    have hside := side_of_fetchesAbove (hosts_testDb (by decide))
      (fun a ha => hashOnly_test a (List.mem_append_left _ ha)) h 1 (by decide)
    exact absurd hside (by decide)

/-- Among small numbers the messages above a number are answered. -/
theorem fetches_above_small :
    FetchesAbove testSha256 .oldestFirst MessageEnvelope.ciphertext testDb (testFirst ++ testLater) ⟨1⟩
      testBob 1 := by
  refine (fetches_above_iff .oldestFirst (hosts_testDb (by decide)) ⟨1⟩ hashOnly_test 1).2 ?_
  have hnumbers : Arrival.numbers ⟨1⟩ testBob (testFirst ++ testLater) = [1, 2, 3, 1] := by decide
  rw [hnumbers]
  simp

end StorageAgreement

end Sanctum
