/-
Rooms over sequences of changes.

Two notions of who is a member are in use: the first entry of a fingerprint is active, which is what
a registration asks, and some entry of it is active, which is what the authentication takes for its
allowlist.  They agree as long as every fingerprint has one entry.  Adding a fingerprint that has been
revoked appends a second entry, and the two part; adding it again is not refused, since the entry that
is looked at is the revoked one, and the fingerprint is then active twice.

Main definitions:

* `Sanctum.RoomChange`, `Sanctum.RoomHistory` — calls of a room, and a room with the calls that have
  succeeded;
* `Sanctum.Room.NoDuplicates` — no two active members have the same fingerprint;
* `Sanctum.RoomHistory.OneNotion` — both notions hold of a fingerprint exactly if it was added last;
* `Sanctum.Room.Unshadowed`, `Sanctum.Room.FirstEntry` — the conditions on a call.

Main results:

* `Sanctum.RoomHistory.no_duplicates_iff`, `Sanctum.RoomHistory.one_notion_iff` — **when no member is
  active twice, and when the two notions agree**;
* `Sanctum.RoomHistory.active_twice`, `Sanctum.RoomHistory.readded_unauthorized` — a revoked member is
  added again.
-/

import Sanctum.AuthService

set_option relaxedAutoImplicit false
set_option autoImplicit false

namespace Sanctum

/-- A call that changes the members of a room. -/
inductive RoomChange
  | addMember (member : Member)
  | revokeMember (fp : Fingerprint)
deriving DecidableEq

/-- The fingerprint that the call is about. -/
def RoomChange.fingerprint : RoomChange → Fingerprint
  | .addMember member => member.fingerprint
  | .revokeMember fp => fp

namespace Room

/-- The result of a call. -/
def change (r : Room) : RoomChange → Except SanctumError Room
  | .addMember member => r.addMember member
  | .revokeMember fp => r.revokeMember fp

/-! ### What the operations do to the entries -/

theorem addMember_eq_ok {r r' : Room} {member : Member} :
    r.addMember member = .ok r' ↔
      r.isFull = false ∧ r.isAuthorized member.fingerprint = false ∧
        r' = { r with members := r.members ++ [member] } := by
  unfold addMember isAuthorized
  cases r.isFull with
  | true => simp
  | false =>
      cases r.findMember member.fingerprint with
      | none => simp [eq_comm]
      | some m =>
          by_cases hactive : m.status = .active
          · simp [Member.isActive, hactive]
          · have hrevoked : m.isActive = false := by simpa [Member.isActive] using hactive
            simp [hrevoked, hactive, eq_comm (a := r')]

theorem revokeMember_eq_ok {r r' : Room} {fp : Fingerprint} :
    r.revokeMember fp = .ok r' ↔
      (∃ m, r.findMember fp = some m ∧ m.role ≠ .owner) ∧
        r' = { r with members := revokeFirst fp r.members } := by
  unfold revokeMember
  cases r.findMember fp with
  | none => simp
  | some m =>
      by_cases hrole : m.role = .owner
      · simp [hrole]
      · have hexists : ∃ m', some m = some m' ∧ m'.role ≠ .owner := ⟨m, rfl, hrole⟩
        simp only [hrole, hexists, true_and]
        simp [eq_comm]

/-- The fingerprints of the active entries, in order. -/
def activeEntries (r : Room) : List Fingerprint :=
  (r.members.filter Member.isActive).map Member.fingerprint

theorem mem_activeFingerprints {r : Room} {fp : Fingerprint} :
    fp ∈ r.activeFingerprints ↔ fp ∈ r.activeEntries := List.mem_toFinset

theorem map_fingerprint_revokeFirst (fp : Fingerprint) (ms : List Member) :
    (revokeFirst fp ms).map Member.fingerprint = ms.map Member.fingerprint := by
  induction ms with
  | nil => rfl
  | cons m ms ih =>
      unfold revokeFirst
      split
      · rfl
      · rw [List.map_cons, List.map_cons, ih]

theorem mem_revokeFirst {fp : Fingerprint} {ms : List Member} {m : Member}
    (h : m ∈ revokeFirst fp ms) :
    m ∈ ms ∨ ∃ m₀, (ms.find? fun k => k.fingerprint = fp) = some m₀ ∧ m = m₀.revoke := by
  induction ms with
  | nil => exact Or.inl h
  | cons k ms ih =>
      unfold revokeFirst at h
      by_cases hfp : k.fingerprint = fp
      · rw [if_pos hfp] at h
        rcases List.mem_cons.1 h with rfl | h
        · exact Or.inr ⟨k, List.find?_cons_of_pos (by simpa using hfp), rfl⟩
        · exact Or.inl (List.mem_cons_of_mem k h)
      · rw [if_neg hfp] at h
        rw [List.find?_cons_of_neg (by simpa using hfp)]
        rcases List.mem_cons.1 h with rfl | h
        · exact Or.inl List.mem_cons_self
        · exact (ih h).imp_left (List.mem_cons_of_mem k)

/-- The first entry of a room is the first one of its fingerprint. -/
theorem findMember_of_head? {r : Room} {m : Member} (h : r.members.head? = some m) :
    r.findMember m.fingerprint = some m := by
  obtain ⟨ms, hms⟩ := List.head?_eq_some_iff.1 h
  unfold findMember
  rw [hms, List.find?_cons_of_pos (by simp)]

/-- The first entry of a room stays, unless it is the one that is revoked. -/
theorem head?_revokeFirst {r : Room} {fp : Fingerprint} {m m₀ : Member}
    (h : r.members.head? = some m) (hfind : r.findMember fp = some m₀) (hne : m₀ ≠ m) :
    (revokeFirst fp r.members).head? = some m := by
  have hfp : m.fingerprint ≠ fp := by
    intro hfp
    rw [← hfp, findMember_of_head? h] at hfind
    exact hne (Option.some_inj.1 hfind).symm
  obtain ⟨ms, hms⟩ := List.head?_eq_some_iff.1 h
  rw [hms, revokeFirst, if_neg hfp, List.head?_cons]

/-- A revocation leaves out an active entry, or none. -/
theorem activeEntries_revokeFirst (fp : Fingerprint) (ms : List Member) :
    (((revokeFirst fp ms).filter Member.isActive).map Member.fingerprint).Sublist
      ((ms.filter Member.isActive).map Member.fingerprint) := by
  induction ms with
  | nil => exact List.Sublist.refl _
  | cons m ms ih =>
      unfold revokeFirst
      split
      · have hrevoked : m.revoke.isActive = false := rfl
        rw [List.filter_cons_of_neg (by simp [hrevoked])]
        exact ((List.sublist_cons_self m ms).filter _).map _
      · cases hm : m.isActive with
        | true =>
            rw [List.filter_cons_of_pos hm, List.filter_cons_of_pos hm]
            exact ih.cons_cons _
        | false =>
            rw [List.filter_cons_of_neg (by simp [hm]), List.filter_cons_of_neg (by simp [hm])]
            exact ih

/-! ### Active twice -/

/-- **No two active members have the same fingerprint.** -/
def NoDuplicates (r : Room) : Prop := r.activeEntries.Nodup

instance (r : Room) : Decidable r.NoDuplicates :=
  inferInstanceAs (Decidable r.activeEntries.Nodup)

/-- **The call adds nobody who is active behind a revoked entry**: a fingerprint that is not
authorized has no active entry when an active member is added under it. -/
def Unshadowed (r : Room) : RoomChange → Prop
  | .addMember member => r.isFull = false → member.isActive = true →
      r.isAuthorized member.fingerprint = false → member.fingerprint ∉ r.activeFingerprints
  | .revokeMember _ => True

theorem activeEntries_append (r : Room) (member : Member) :
    { r with members := r.members ++ [member] }.activeEntries =
      r.activeEntries ++ if member.isActive then [member.fingerprint] else [] := by
  unfold activeEntries
  rw [List.filter_append, List.map_append]
  cases hactive : member.isActive with
  | true => rw [List.filter_cons_of_pos hactive, List.filter_nil, List.map_singleton, if_pos rfl]
  | false =>
      rw [List.filter_cons_of_neg (by simp [hactive]), List.filter_nil, List.map_nil]
      rfl

theorem noDuplicates_addMember {r r' : Room} {member : Member} (h : r.NoDuplicates)
    (hadd : r.addMember member = .ok r') :
    r'.NoDuplicates ↔ r.Unshadowed (.addMember member) := by
  obtain ⟨hfull, hauth, rfl⟩ := addMember_eq_ok.1 hadd
  unfold NoDuplicates
  rw [activeEntries_append]
  simp only [Unshadowed, hfull, hauth, mem_activeFingerprints, true_imp_iff]
  cases member.isActive with
  | true =>
      rw [if_pos rfl, List.nodup_append_comm, List.singleton_append, List.nodup_cons]
      exact ⟨fun hnodup _ => hnodup.1, fun hnot => ⟨hnot rfl, h⟩⟩
  | false =>
      rw [if_neg (by simp), List.append_nil]
      exact iff_of_true h (by simp)

theorem noDuplicates_revokeMember {r r' : Room} {fp : Fingerprint} (h : r.NoDuplicates)
    (hrev : r.revokeMember fp = .ok r') : r'.NoDuplicates := by
  obtain ⟨-, rfl⟩ := revokeMember_eq_ok.1 hrev
  exact h.sublist (activeEntries_revokeFirst fp r.members)

/-- One call: no member gets active twice exactly if the call adds nobody behind a revoked entry. -/
theorem noDuplicates_change {r r' : Room} {change : RoomChange} (h : r.NoDuplicates)
    (hchange : r.change change = .ok r') : r'.NoDuplicates ↔ r.Unshadowed change := by
  cases change with
  | addMember member => exact noDuplicates_addMember h hchange
  | revokeMember fp => exact iff_of_true (noDuplicates_revokeMember h hchange) trivial

/-- A call that is refused adds nobody. -/
theorem unshadowed_of_error {r : Room} {change : RoomChange} {e : SanctumError}
    (hchange : r.change change = .error e) : r.Unshadowed change := by
  cases change with
  | addMember member =>
      intro hfull _ hauth
      have hok := addMember_eq_ok.2 ⟨hfull, hauth, rfl⟩
      rw [change] at hchange
      rw [hok] at hchange
      simp at hchange
  | revokeMember fp => trivial

end Room

/-- **A room with the calls that have succeeded**, the latest first. -/
structure RoomHistory where
  room : Room
  changes : List RoomChange

namespace RoomHistory

/-- A new room; the founding owner counts as added. -/
def new (id : RoomId) (name : String) (mode : RoomMode) (config : RoomConfig) (owner : Member) :
    RoomHistory where
  room := Room.new id name mode config owner
  changes := [.addMember owner]

/-- The room after a call; one that fails leaves it as it was. -/
def apply (h : RoomHistory) (change : RoomChange) : RoomHistory :=
  match h.room.change change with
  | .ok room => { room := room, changes := change :: h.changes }
  | .error _ => h

/-- Every call leads somewhere. -/
def step (h : RoomHistory) (change : RoomChange) : Option RoomHistory := some (h.apply change)

theorem exists_step (h : RoomHistory) (change : RoomChange) : ∃ h', h.step change = some h' :=
  ⟨h.apply change, rfl⟩

theorem noDuplicates_step {h h' : RoomHistory} {change : RoomChange} (hnodup : h.room.NoDuplicates)
    (hstep : h.step change = some h') :
    h'.room.NoDuplicates ↔ h.room.Unshadowed change := by
  obtain rfl := Option.some_inj.1 hstep
  unfold apply
  cases hchange : h.room.change change with
  | ok room => exact Room.noDuplicates_change hnodup hchange
  | error e => exact iff_of_true hnodup (Room.unshadowed_of_error hchange)

/-- **When no member is active twice**: in every state of a sequence of calls on a new room, no two
active members have the same fingerprint, exactly if no call adds a member that is active behind a
revoked entry. -/
theorem no_duplicates_iff (id : RoomId) (name : String) (mode : RoomMode) (config : RoomConfig)
    (owner : Member) (changes : List RoomChange) :
    Runs.Throughout step (fun h => h.room.NoDuplicates) (new id name mode config owner) changes ↔
      Runs.Meets step (fun h change => h.room.Unshadowed change)
        (new id name mode config owner) changes := by
  have hstart : (new id name mode config owner).room.NoDuplicates := by
    have hlength : (new id name mode config owner).room.activeEntries.length ≤ 1 := by
      unfold Room.activeEntries
      rw [List.length_map]
      exact List.length_filter_le _ _
    exact List.nodup_iff_count_le_one.2 fun fp => (List.count_le_length).trans hlength
  exact Runs.throughout_iff_meets_of_step exists_step
    (fun _ _ _ hnodup hstep => noDuplicates_step hnodup hstep) hstart

/-! ### The two notions -/

/-- The last call that has succeeded for a fingerprint. -/
def lastChange (h : RoomHistory) (fp : Fingerprint) : Option RoomChange :=
  h.changes.find? fun change => change.fingerprint = fp

/-- **One notion of authorization**: a fingerprint is authorized exactly if it is among the active
ones, and exactly if the last call that has succeeded for it has added it. -/
def OneNotion (h : RoomHistory) : Prop :=
  ∀ fp, (h.room.isAuthorized fp = true ↔ fp ∈ h.room.activeFingerprints) ∧
    (h.room.isAuthorized fp = true ↔ ∃ member, h.lastChange fp = some (.addMember member))

end RoomHistory

namespace Room

/-- **The call makes a first entry, or is refused**: an added member is active, and its fingerprint
has no entry in the room. -/
def FirstEntry (r : Room) : RoomChange → Prop
  | .addMember member => r.isFull = false → r.isAuthorized member.fingerprint = false →
      member.isActive = true ∧ r.findMember member.fingerprint = none
  | .revokeMember _ => True

/-- The fingerprints of all entries, in order. -/
def entries (r : Room) : List Fingerprint := r.members.map Member.fingerprint

theorem findMember_eq_none {r : Room} {fp : Fingerprint} :
    r.findMember fp = none ↔ fp ∉ r.entries := by
  unfold findMember entries
  rw [List.find?_eq_none, List.mem_map]
  constructor
  · intro h hmem
    obtain ⟨m, hm, hfp⟩ := hmem
    exact h m hm (by simpa using hfp)
  · intro h m hm hfp
    exact h ⟨m, hm, by simpa using hfp⟩

/-- If every fingerprint has one entry, the first one and some one are the same. -/
theorem isAuthorized_iff_mem {r : Room} (h : r.entries.Nodup) (fp : Fingerprint) :
    r.isAuthorized fp = true ↔ fp ∈ r.activeFingerprints := by
  rw [isAuthorized_iff, mem_activeFingerprints]
  unfold activeEntries
  simp only [List.mem_map, List.mem_filter, Member.isActive, decide_eq_true_eq]
  constructor
  · intro hfind
    obtain ⟨m, hm, hactive⟩ := hfind
    exact ⟨m, ⟨List.mem_of_find?_eq_some hm, hactive⟩, by simpa using List.find?_some hm⟩
  · intro hmem
    obtain ⟨m, ⟨hm, hactive⟩, hfp⟩ := hmem
    cases hfind : r.findMember fp with
    | none =>
        refine absurd ?_ (findMember_eq_none.1 hfind)
        exact List.mem_map.2 ⟨m, hm, hfp⟩
    | some m' =>
        have hm' := List.mem_of_find?_eq_some hfind
        have hfp' : m'.fingerprint = fp := by simpa using List.find?_some hfind
        obtain rfl := List.inj_on_of_nodup_map h hm hm' (hfp.trans hfp'.symm)
        exact ⟨m, rfl, hactive⟩

theorem nodup_entries_addMember {r r' : Room} {member : Member} (h : r.entries.Nodup)
    (hnone : r.findMember member.fingerprint = none) (hadd : r.addMember member = .ok r') :
    r'.entries.Nodup := by
  obtain ⟨-, -, rfl⟩ := addMember_eq_ok.1 hadd
  unfold entries
  rw [List.map_append, List.map_singleton, List.nodup_append_comm, List.singleton_append,
    List.nodup_cons]
  exact ⟨findMember_eq_none.1 hnone, h⟩

theorem nodup_entries_revokeMember {r r' : Room} {fp : Fingerprint} (h : r.entries.Nodup)
    (hrev : r.revokeMember fp = .ok r') : r'.entries.Nodup := by
  obtain ⟨-, rfl⟩ := revokeMember_eq_ok.1 hrev
  unfold entries
  rw [map_fingerprint_revokeFirst]
  exact h

theorem isAuthorized_addMember {r r' : Room} {member : Member}
    (h : r.addMember member = .ok r') (fp : Fingerprint) :
    r'.isAuthorized fp = true ↔ r.isAuthorized fp = true ∨
      r.findMember fp = none ∧ member.fingerprint = fp ∧ member.isActive = true := by
  rw [isAuthorized_iff, isAuthorized_iff, findMember_of_addMember h]
  cases r.findMember fp with
  | none =>
      by_cases hfp : member.fingerprint = fp
      · simp [hfp, Member.isActive]
      · simp [hfp]
  | some m => simp

end Room

namespace RoomHistory

theorem oneNotion_addMember {h : RoomHistory} {member : Member} {r' : Room}
    (hentries : h.room.entries.Nodup) (hone : h.OneNotion)
    (hadd : h.room.addMember member = .ok r') :
    OneNotion { room := r', changes := .addMember member :: h.changes } ↔
      member.isActive = true ∧ h.room.findMember member.fingerprint = none := by
  have hauth := Room.isAuthorized_addMember hadd
  obtain ⟨-, hnot, -⟩ := Room.addMember_eq_ok.1 hadd
  constructor
  · intro hone'
    have hlast : r'.isAuthorized member.fingerprint = true := by
      refine (hone' member.fingerprint).2.2 ⟨member, ?_⟩
      unfold lastChange
      rw [List.find?_cons_of_pos (by simp [RoomChange.fingerprint])]
    have hcases := (hauth member.fingerprint).1 hlast
    rw [hnot] at hcases
    obtain ⟨hnone, -, hactive⟩ := hcases.resolve_left (by simp)
    exact ⟨hactive, hnone⟩
  · intro hfirst fp
    obtain ⟨hactive, hnone⟩ := hfirst
    have hentries' := Room.nodup_entries_addMember hentries hnone hadd
    refine ⟨Room.isAuthorized_iff_mem hentries' fp, (hauth fp).trans ?_⟩
    unfold lastChange
    by_cases hfp : member.fingerprint = fp
    · subst hfp
      rw [List.find?_cons_of_pos (by simp [RoomChange.fingerprint])]
      exact iff_of_true (Or.inr ⟨hnone, rfl, hactive⟩) ⟨member, rfl⟩
    · rw [List.find?_cons_of_neg (by simp [RoomChange.fingerprint, hfp])]
      refine Iff.trans ?_ (hone fp).2
      exact or_iff_left fun hnew => hfp hnew.2.1

theorem oneNotion_revokeMember {h : RoomHistory} {fp : Fingerprint} {r' : Room}
    (hentries : h.room.entries.Nodup) (hone : h.OneNotion)
    (hrev : h.room.revokeMember fp = .ok r') :
    OneNotion { room := r', changes := .revokeMember fp :: h.changes } := by
  have hentries' := Room.nodup_entries_revokeMember hentries hrev
  intro fp'
  refine ⟨Room.isAuthorized_iff_mem hentries' fp', ?_⟩
  refine (Room.isAuthorized_of_revokeMember hrev fp').trans ?_
  unfold lastChange
  by_cases hfp : fp = fp'
  · subst hfp
    rw [List.find?_cons_of_pos (by simp [RoomChange.fingerprint])]
    simp
  · rw [List.find?_cons_of_neg (by simp [RoomChange.fingerprint, hfp])]
    refine Iff.trans ?_ (hone fp').2
    exact and_iff_right (Ne.symm hfp)

/-- One call: the notions go on to agree exactly if the call makes a first entry or is refused, and
then every fingerprint goes on to have one entry. -/
theorem oneNotion_step {h h' : RoomHistory} {change : RoomChange}
    (hentries : h.room.entries.Nodup) (hone : h.OneNotion) (hstep : h.step change = some h') :
    (h'.OneNotion ↔ h.room.FirstEntry change) ∧ (h'.OneNotion → h'.room.entries.Nodup) := by
  obtain rfl := Option.some_inj.1 hstep
  unfold apply
  cases change with
  | addMember member =>
      cases hadd : h.room.change (.addMember member) with
      | ok r' =>
          have hiff := oneNotion_addMember hentries hone hadd
          obtain ⟨hfull, hnot, -⟩ := Room.addMember_eq_ok.1 hadd
          refine ⟨?_, fun hone' => ?_⟩
          · simp only [Room.FirstEntry, hfull, hnot, true_imp_iff]
            exact hiff
          · exact Room.nodup_entries_addMember hentries (hiff.1 hone').2 hadd
      | error e =>
          refine ⟨iff_of_true hone fun hfull hnot => ?_, fun _ => hentries⟩
          have hok := Room.addMember_eq_ok.2 ⟨hfull, hnot, rfl⟩
          exact absurd (hok.symm.trans hadd) (by simp)
  | revokeMember fp =>
      cases hrev : h.room.change (.revokeMember fp) with
      | ok r' =>
          exact ⟨iff_of_true (oneNotion_revokeMember hentries hone hrev) trivial,
            fun _ => Room.nodup_entries_revokeMember hentries hrev⟩
      | error e => exact ⟨iff_of_true hone trivial, fun _ => hentries⟩

/-- In a new room the notions agree exactly if the owner is active. -/
theorem oneNotion_new (id : RoomId) (name : String) (mode : RoomMode) (config : RoomConfig)
    (owner : Member) : (new id name mode config owner).OneNotion ↔ owner.isActive = true := by
  have hentries : (new id name mode config owner).room.entries.Nodup := List.nodup_singleton _
  have hauth : ∀ fp, (new id name mode config owner).room.isAuthorized fp = true ↔
      owner.fingerprint = fp ∧ owner.isActive = true := by
    intro fp
    rw [Room.isAuthorized_iff]
    by_cases hfp : owner.fingerprint = fp
    · simp [new, Room.new, Room.findMember, hfp, Member.isActive]
    · simp [new, Room.new, Room.findMember, hfp]
  constructor
  · intro hone
    refine ((hauth owner.fingerprint).1 ((hone owner.fingerprint).2.2 ⟨owner, ?_⟩)).2
    simp [new, lastChange, RoomChange.fingerprint]
  · intro hactive fp
    refine ⟨Room.isAuthorized_iff_mem hentries fp, (hauth fp).trans ?_⟩
    by_cases hfp : owner.fingerprint = fp
    · simp [new, lastChange, RoomChange.fingerprint, hfp, hactive]
    · simp [new, lastChange, RoomChange.fingerprint, hfp]

/-- **When there is one notion of authorization**: in every state of a sequence of calls on a new
room, a fingerprint is authorized exactly if it is among the active ones, and exactly if the last call
that has succeeded for it has added it, if the owner is active and every call makes a first entry or
is refused, and only then. -/
theorem one_notion_iff (id : RoomId) (name : String) (mode : RoomMode) (config : RoomConfig)
    (owner : Member) (changes : List RoomChange) :
    Runs.Throughout step OneNotion (new id name mode config owner) changes ↔
      owner.isActive = true ∧
        Runs.Meets step (fun h change => h.room.FirstEntry change)
          (new id name mode config owner) changes := by
  rw [← oneNotion_new id name mode config owner]
  have hentries : (new id name mode config owner).room.entries.Nodup := List.nodup_singleton _
  obtain ⟨h', hrun⟩ := Runs.exists_run exists_step changes (new id name mode config owner)
  have hiff : (new id name mode config owner).OneNotion →
      (Runs.Throughout step OneNotion (new id name mode config owner) changes ↔
        Runs.Meets step (fun h change => h.room.FirstEntry change)
          (new id name mode config owner) changes) := by
    intro hone
    exact Runs.throughout_iff_meets
      (fun _ _ _ hnodup hone hstep hone' => (oneNotion_step hnodup hone hstep).2 hone')
      (fun _ _ _ hnodup hone hstep => (oneNotion_step hnodup hone hstep).1) hentries hone hrun
  constructor
  · intro hall
    exact ⟨hall.head, (hiff hall.head).1 hall⟩
  · intro hmeets
    exact (hiff hmeets.1).2 hmeets.2

/-! ### A revoked member is added again -/

/-- The owner of the test room. -/
def testOwner : Member := HostService.testMember "AA" "owner" .owner

/-- The member of the test room. -/
def testBob : Member := HostService.testMember "BB" "bob" .member

/-- The room of the owner alone. -/
def testStart : RoomHistory := new ⟨0⟩ "test" .ephemeral .default testOwner

/-- The member is added, revoked, and added twice again: it is active twice. -/
theorem active_twice :
    ∃ h, Runs.run step testStart [.addMember testBob, .revokeMember testBob.fingerprint,
        .addMember testBob, .addMember testBob] = some h ∧ ¬ h.room.NoDuplicates :=
  ⟨_, rfl, by decide⟩

/-- The member is added, revoked and added again: the last call has added it, it is among the active
fingerprints, and it is not authorized. -/
theorem readded_unauthorized :
    ∃ h, Runs.run step testStart [.addMember testBob, .revokeMember testBob.fingerprint,
        .addMember testBob] = some h ∧
      h.lastChange testBob.fingerprint = some (.addMember testBob) ∧
      testBob.fingerprint ∈ h.room.activeFingerprints ∧
      h.room.isAuthorized testBob.fingerprint = false :=
  ⟨_, rfl, by decide, by decide, by decide⟩

end RoomHistory

end Sanctum
