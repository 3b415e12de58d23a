/-
The vocabulary shared by the crates: bytes, fingerprints, the wire form of a ratchet header, the
errors of the domain crate, and the hash maps in which the services and the ratchet keep their
tables.

* `Sanctum.HashMap` — `std::collections::HashMap`, as a finite map: what the code observes of a
  table is its lookups, and `Finmap` identifies two tables with the same lookups;
* `Sanctum.Fingerprint`, `Sanctum.RoomId` — the PGP fingerprint, a newtype over its hexadecimal
  text, and the identifier of a room;
* `Sanctum.RatchetHeader` — the header of a message as the domain crate carries it;
* `Sanctum.SanctumError` — the variants of the error enumeration that the modelled code raises.
-/

import Mathlib

set_option relaxedAutoImplicit false
set_option autoImplicit false

namespace Sanctum

/-- `std::collections::HashMap`. -/
abbrev HashMap (K V : Type) : Type := Finmap fun _ : K => V

section

variable {K V : Type} [DecidableEq K]

theorem lookup_insert_ite (table : HashMap K V) (k k' : K) (v : V) :
    (table.insert k v).lookup k' = if k' = k then some v else table.lookup k' := by
  split
  · next h => rw [h, Finmap.lookup_insert]
  · next h => rw [Finmap.lookup_insert_of_ne _ h]

theorem lookup_erase_ite (table : HashMap K V) (k k' : K) :
    (table.erase k).lookup k' = if k' = k then none else table.lookup k' := by
  split
  · next h => rw [h, Finmap.lookup_erase]
  · next h => rw [Finmap.lookup_erase_ne h]

end

/-- `Vec<u8>` and `&[u8]`. -/
abbrev Bytes : Type := List UInt8

/-- `str::as_bytes`. -/
def asBytes (text : String) : Bytes := text.toUTF8.data.toList

/-- `[u8; 32]`. -/
abbrev Bytes32 : Type := {b : Bytes // b.length = 32}

/-- The length of `[0; 32]`. -/
theorem length_zeros : (List.replicate 32 (0 : UInt8)).length = 32 := rfl

/-- A PGP fingerprint, the primary identity. -/
structure Fingerprint where
  /-- The text of the fingerprint. -/
  hex : String
deriving DecidableEq

/-- The text of a fingerprint in messages, `[ABCD..EF01]`. -/
def Fingerprint.display (fp : Fingerprint) : String :=
  let text := fp.hex.toList
  let short := if text.length ≥ 8 then text.take 4 ++ ['.', '.'] ++ text.drop (text.length - 4)
    else text
  String.ofList (['['] ++ short ++ [']'])

/-- A room identifier, a UUID. -/
structure RoomId where
  uuid : BitVec 128
deriving DecidableEq

/-- The Double Ratchet header included in each message. -/
structure RatchetHeader where
  dhPublic : Bytes
  previousChainLength : UInt32
  messageNumber : UInt32
deriving DecidableEq

/-- The domain errors raised by the modelled code. -/
inductive SanctumError
  | replayDetected (seq : UInt64) (sender : Fingerprint)
  | decryptionFailed
  | malformedMessage (text : String)
  | authFailed (reason : String)
  | roomNotFound (id : RoomId)
  | roomFull (current max : UInt16)
  | insufficientPermissions (need held : String)
  | memberAlreadyExists (fp : Fingerprint)
  | memberNotFound (fp : Fingerprint)
  | cannotRevokeOwner
  | connectionLost (text : String)
  | torUnavailable (text : String)
  | storageError (text : String)
  | invalidInviteToken (text : String)
  | inviteTokenExpired
deriving DecidableEq

/-! ### Computations that may fail -/

variable {ε ε' α β : Type}

/-- A step of a computation that may fail has succeeded. -/
theorem bind_eq_ok {x : Except ε α} {f : α → Except ε β} {b : β} :
    x.bind f = .ok b ↔ ∃ a, x = .ok a ∧ f a = .ok b := by
  cases x <;> simp [Except.bind]

theorem map_eq_ok {x : Except ε α} {f : α → β} {b : β} :
    x.map f = .ok b ↔ ∃ a, x = .ok a ∧ f a = b := by
  cases x <;> simp [Except.map]

theorem mapError_eq_ok {x : Except ε α} {f : ε → ε'} {a : α} :
    x.mapError f = .ok a ↔ x = .ok a := by
  cases x <;> simp [Except.mapError]

end Sanctum
