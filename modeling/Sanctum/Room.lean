/-
Rooms and their members.

A room keeps its members in a vector.  Nobody is ever taken out of it: revoking marks the first
entry of a fingerprint, and adding a fingerprint that has been revoked appends a second entry.  Every
lookup stops at the first entry, so the entry that was revoked goes on to speak for its fingerprint.

Main definitions:

* `Sanctum.Fingerprint.new`, `Sanctum.DisplayAlias.new` — the validated texts;
* `Sanctum.Member`, `Sanctum.Room` — the data;
* `Sanctum.Room.addMember`, `Sanctum.Room.revokeMember`, `Sanctum.Room.isAuthorized` — the
  operations;
* `Sanctum.Room.Revoked` — the first entry of a fingerprint is revoked.

Main results:

* `Sanctum.Room.findMember_of_addMember`, `Sanctum.Room.findMember_of_revokeMember` — what the
  operations do to the lookups;
* `Sanctum.Room.Revoked.addMember`, `Sanctum.Room.Revoked.revokeMember` — **a revoked fingerprint
  stays revoked**.
-/

import Sanctum.Domain

set_option relaxedAutoImplicit false
set_option autoImplicit false

namespace Sanctum

/-! ### Texts -/

/-- `char::is_whitespace`. -/
def isWhitespace (c : Char) : Bool :=
  let n := c.toNat
  (0x09 ≤ n && n ≤ 0x0D) || (0x2000 ≤ n && n ≤ 0x200A) ||
    [0x20, 0x85, 0xA0, 0x1680, 0x2028, 0x2029, 0x202F, 0x205F, 0x3000].contains n

/-- `char::to_ascii_uppercase`. -/
def toAsciiUppercase (c : Char) : Char :=
  if 'a' ≤ c ∧ c ≤ 'z' then Char.ofNat (c.toNat - 32) else c

/-- `char::is_ascii_hexdigit`. -/
def isAsciiHexdigit (c : Char) : Bool :=
  ('0' ≤ c && c ≤ '9') || ('a' ≤ c && c ≤ 'f') || ('A' ≤ c && c ≤ 'F')

/-- `char::is_ascii_alphanumeric`. -/
def isAsciiAlphanumeric (c : Char) : Bool :=
  ('0' ≤ c && c ≤ '9') || ('a' ≤ c && c ≤ 'z') || ('A' ≤ c && c ≤ 'Z')

/-- `String::len`, the number of bytes. -/
def utf8Len (chars : List Char) : ℕ := (chars.map Char.utf8Size).sum

/-- The errors of `Fingerprint::new`. -/
inductive InvalidFingerprint
  | wrongLength (length : ℕ)
  | invalidHex
deriving DecidableEq

def InvalidFingerprint.text : InvalidFingerprint → String
  | .wrongLength length => "fingerprint must be 40 hex chars, got " ++ toString length
  | .invalidHex => "fingerprint contains non-hex characters"

/-- A fingerprint from its text. -/
def Fingerprint.new (hex : String) : Except InvalidFingerprint Fingerprint :=
  let normalized := (hex.toList.filter fun c => !isWhitespace c).map toAsciiUppercase
  if utf8Len normalized ≠ 40 then .error (.wrongLength (utf8Len normalized))
  else if !normalized.all isAsciiHexdigit then .error .invalidHex
  else .ok ⟨String.ofList normalized⟩

/-- The short form of a fingerprint, `ABCD..EF01`. -/
def Fingerprint.short (fp : Fingerprint) : String :=
  let text := fp.hex.toList
  if text.length ≥ 8 then
    String.ofList (text.take 4 ++ ['.', '.'] ++ text.drop (text.length - 4))
  else fp.hex

/-- The errors of `DisplayAlias::new`. -/
inductive InvalidAlias
  | invalidLength (length : ℕ)
  | invalidCharacters
deriving DecidableEq

/-- A display alias. -/
structure DisplayAlias where
  text : String
deriving DecidableEq

/-- A display alias from its text. -/
def DisplayAlias.new (text : String) : Except InvalidAlias DisplayAlias :=
  let chars := text.toList
  if chars.isEmpty || utf8Len chars > 20 then .error (.invalidLength (utf8Len chars))
  else if !chars.all (fun c => isAsciiAlphanumeric c || c == '_' || c == '-') then
    .error .invalidCharacters
  else .ok ⟨text⟩

/-! ### Members -/

/-- The role of a member, in ascending order. -/
inductive Role
  | member
  | admin
  | owner
deriving DecidableEq

namespace Role

/-- The order of the roles is the order of their declaration. -/
def rank : Role → ℕ
  | .member => 0
  | .admin => 1
  | .owner => 2

instance : LE Role := ⟨fun a b => a.rank ≤ b.rank⟩

instance (a b : Role) : Decidable (a ≤ b) := inferInstanceAs (Decidable (a.rank ≤ b.rank))

/-- Can this role invite members? -/
def canInvite : Role → Bool
  | .owner | .admin => true
  | .member => false

/-- Can this role kick members? -/
def canKick : Role → Bool
  | .owner | .admin => true
  | .member => false

def display : Role → String
  | .owner => "Owner"
  | .admin => "Admin"
  | .member => "Member"

end Role

inductive MemberStatus
  | active
  | revoked
deriving DecidableEq

/-- A room member. -/
structure Member where
  fingerprint : Fingerprint
  identityKey : Bytes
  displayAlias : DisplayAlias
  role : Role
  joinedAt : UInt64
  status : MemberStatus
deriving DecidableEq

namespace Member

/-- An active member. -/
def new (fingerprint : Fingerprint) (identityKey : Bytes) (displayAlias : DisplayAlias)
    (role : Role) (joinedAt : UInt64) : Member where
  fingerprint := fingerprint
  identityKey := identityKey
  displayAlias := displayAlias
  role := role
  joinedAt := joinedAt
  status := .active

def revoke (m : Member) : Member := { m with status := .revoked }

def isActive (m : Member) : Bool := m.status = .active

end Member

/-! ### Rooms -/

inductive RoomMode
  | ephemeral
  | persistent
deriving DecidableEq

structure RoomConfig where
  maxMembers : UInt16
  backlogMaxMessages : UInt32
  backlogMaxAgeHours : UInt32
  messagePaddingBlock : UInt16
deriving DecidableEq

/-- `RoomConfig::default`. -/
def RoomConfig.default : RoomConfig where
  maxMembers := 10
  backlogMaxMessages := 500
  backlogMaxAgeHours := 72
  messagePaddingBlock := 256

/-- `Ord::clamp`. -/
def clamp {α : Type} [LT α] [DecidableLT α] (x lo hi : α) : α :=
  if x < lo then lo else if hi < x then hi else x

/-- `u16::is_power_of_two`. -/
def isPowerOfTwo (n : UInt16) : Bool := (List.range 16).any fun k => n.toNat = 2 ^ k

/-- Clamp values to valid ranges. -/
def RoomConfig.validate (config : RoomConfig) : RoomConfig where
  maxMembers := clamp config.maxMembers 2 50
  backlogMaxMessages := clamp config.backlogMaxMessages 0 5000
  backlogMaxAgeHours := clamp config.backlogMaxAgeHours 0 720
  messagePaddingBlock :=
    if !isPowerOfTwo config.messagePaddingBlock || config.messagePaddingBlock < 64 ||
        config.messagePaddingBlock > 1024 then 256
    else config.messagePaddingBlock

/-- **A room.** -/
structure Room where
  id : RoomId
  name : String
  mode : RoomMode
  config : RoomConfig
  members : List Member
deriving DecidableEq

namespace Room

/-- A room with its owner; the identifier is drawn at random. -/
def new (id : RoomId) (name : String) (mode : RoomMode) (config : RoomConfig) (owner : Member) :
    Room where
  id := id
  name := name
  mode := mode
  config := config
  members := [owner]

/-- The number of active members. -/
def activeMemberCount (r : Room) : ℕ := (r.members.filter Member.isActive).length

/-- Is the room at capacity? -/
def isFull (r : Room) : Bool := r.activeMemberCount ≥ r.config.maxMembers.toNat

/-- The first entry of a fingerprint. -/
def findMember (r : Room) (fp : Fingerprint) : Option Member :=
  r.members.find? fun m => m.fingerprint = fp

/-- Add a member. -/
def addMember (r : Room) (member : Member) : Except SanctumError Room :=
  if r.isFull then
    .error (.roomFull (UInt16.ofNat r.activeMemberCount) r.config.maxMembers)
  else if (r.findMember member.fingerprint).any Member.isActive then
    .error (.memberAlreadyExists member.fingerprint)
  else .ok { r with members := r.members ++ [member] }

/-- Revoke the first entry of a fingerprint. -/
def revokeFirst (fp : Fingerprint) : List Member → List Member
  | [] => []
  | m :: ms => if m.fingerprint = fp then m.revoke :: ms else m :: revokeFirst fp ms

/-- Revoke a member. -/
def revokeMember (r : Room) (fp : Fingerprint) : Except SanctumError Room :=
  match r.findMember fp with
  | none => .error (.memberNotFound fp)
  | some member =>
    if member.role = .owner then .error .cannotRevokeOwner
    else .ok { r with members := revokeFirst fp r.members }

/-- Is this fingerprint authorized, that is, is its first entry active? -/
def isAuthorized (r : Room) (fp : Fingerprint) : Bool :=
  ((r.findMember fp).map fun m => decide (m.status = .active)).getD false

/-! ### What the operations do to the lookups -/

theorem find?_revokeFirst (fp fp' : Fingerprint) (ms : List Member) :
    (revokeFirst fp ms).find? (fun m => m.fingerprint = fp') =
      (ms.find? fun m => m.fingerprint = fp').map fun m =>
        if fp' = fp then m.revoke else m := by
  induction ms with
  | nil => rfl
  | cons m ms ih =>
      unfold revokeFirst
      by_cases hm : m.fingerprint = fp
      · rw [if_pos hm, List.find?_cons, List.find?_cons]
        have hkeep : m.revoke.fingerprint = m.fingerprint := rfl
        by_cases hfp : fp' = fp
        · simp [hkeep, hm, hfp]
        · have hne : ¬ m.fingerprint = fp' := fun h => hfp (h.symm.trans hm)
          simp [hkeep, hne, hfp]
      · rw [if_neg hm, List.find?_cons, List.find?_cons, ih]
        by_cases hm' : m.fingerprint = fp'
        · have hfp : ¬ fp' = fp := fun h => hm (hm'.trans h)
          simp [hm', hfp]
        · simp [hm']

/-- Adding a member answers for fingerprints that had no entry, and for no others. -/
theorem findMember_of_addMember {r r' : Room} {member : Member}
    (h : r.addMember member = .ok r') (fp : Fingerprint) :
    r'.findMember fp = (r.findMember fp).or
      (if member.fingerprint = fp then some member else none) := by
  unfold addMember at h
  split at h
  · simp at h
  · split at h
    · simp at h
    · obtain rfl : { r with members := r.members ++ [member] } = r' := by simpa using h
      unfold findMember
      rw [List.find?_append]
      by_cases hfp : member.fingerprint = fp
      · simp [hfp]
      · simp [hfp]

/-- Revoking a fingerprint marks its first entry, and touches the lookup of no other. -/
theorem findMember_of_revokeMember {r r' : Room} {fp : Fingerprint}
    (h : r.revokeMember fp = .ok r') (fp' : Fingerprint) :
    r'.findMember fp' = (r.findMember fp').map fun m => if fp' = fp then m.revoke else m := by
  unfold revokeMember at h
  split at h
  · simp at h
  · split at h
    · simp at h
    · obtain rfl : { r with members := revokeFirst fp r.members } = r' := by simpa using h
      exact find?_revokeFirst fp fp' r.members

theorem isAuthorized_iff (r : Room) (fp : Fingerprint) :
    r.isAuthorized fp = true ↔ ∃ m, r.findMember fp = some m ∧ m.status = .active := by
  unfold isAuthorized
  cases r.findMember fp <;> simp

/-- Nobody loses the authorization when a member is added. -/
theorem isAuthorized_of_addMember {r r' : Room} {member : Member}
    (h : r.addMember member = .ok r') {fp : Fingerprint} (hfp : r.isAuthorized fp = true) :
    r'.isAuthorized fp = true := by
  obtain ⟨m, hm, hactive⟩ := (r.isAuthorized_iff fp).1 hfp
  refine (r'.isAuthorized_iff fp).2 ⟨m, ?_, hactive⟩
  rw [findMember_of_addMember h, hm]
  rfl

/-- A revocation takes the authorization of the revoked fingerprint, and of no other. -/
theorem isAuthorized_of_revokeMember {r r' : Room} {fp : Fingerprint}
    (h : r.revokeMember fp = .ok r') (fp' : Fingerprint) :
    r'.isAuthorized fp' = true ↔ fp' ≠ fp ∧ r.isAuthorized fp' = true := by
  rw [isAuthorized_iff, isAuthorized_iff, findMember_of_revokeMember h]
  by_cases hfp : fp' = fp
  · simp [hfp, Member.revoke]
  · simp [hfp]

/-! ### Revoked fingerprints -/

/-- **The first entry of the fingerprint is revoked.** -/
def Revoked (r : Room) (fp : Fingerprint) : Prop :=
  ∃ m, r.findMember fp = some m ∧ m.status = .revoked

namespace Revoked

variable {r r' : Room} {fp : Fingerprint}

theorem not_authorized (h : r.Revoked fp) : r.isAuthorized fp = false := by
  obtain ⟨m, hm, hrevoked⟩ := h
  unfold isAuthorized
  rw [hm]
  simp [hrevoked]

theorem of_revokeMember (h : r.revokeMember fp = .ok r') : r'.Revoked fp := by
  have hfind := findMember_of_revokeMember h fp
  unfold Room.revokeMember at h
  split at h
  · simp at h
  · next m hm =>
      rw [hm, Option.map_some, if_pos rfl] at hfind
      exact ⟨m.revoke, hfind, rfl⟩

/-- **Adding members does not bring a revoked fingerprint back**, not even adding the fingerprint
itself. -/
theorem addMember (hr : r.Revoked fp) {member : Member} (h : r.addMember member = .ok r') :
    r'.Revoked fp := by
  obtain ⟨m, hm, hrevoked⟩ := hr
  refine ⟨m, ?_, hrevoked⟩
  rw [findMember_of_addMember h, hm]
  rfl

theorem revokeMember (hr : r.Revoked fp) {fp' : Fingerprint} (h : r.revokeMember fp' = .ok r') :
    r'.Revoked fp := by
  obtain ⟨m, hm, hrevoked⟩ := hr
  refine ⟨if fp = fp' then m.revoke else m, ?_, ?_⟩
  · rw [findMember_of_revokeMember h, hm]
    rfl
  · split
    · rfl
    · exact hrevoked

end Revoked

end Room

end Sanctum
