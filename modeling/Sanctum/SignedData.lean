/-
What is signed.

An invite is signed over its fields, one after the other with a separator of one byte, and a login
challenge over its fields without one.  The identifier, the fingerprints, the role and the expiry of an
invite have fixed lengths, so they can be read off both ends of what is signed; what stays in the middle
is the address, the port and the key, and where the address ends is not written down.  A separator may
occur in the address, in the port and in the key, so there may be two ways to read the middle.

A challenge and an invite are told apart by the 52nd byte from the end: it is a separator in an invite,
and a character of the room identifier in a challenge.

Main definitions:

* `Sanctum.InviteToken.signedData`, `Sanctum.AuthService.challengeToBytes` — the code's definitions;
* `Sanctum.InviteToken.Valid` — both fingerprints were made by `Fingerprint.new`;
* `Sanctum.InviteToken.Unambiguous` — there is one way only to read the middle.

Main results:

* `Sanctum.InviteToken.signedData_determines_iff` — **when the signed bytes determine the invite**;
* `Sanctum.AuthService.payloads_apart` — **what is signed for a login is never what is signed for an
  invite**.
-/

import Sanctum.RoomService
import Sanctum.AuthService
import Sanctum.Text

set_option relaxedAutoImplicit false
set_option autoImplicit false

namespace Sanctum

/-- The byte between two fields, `b'|'`. -/
def separator : UInt8 := 124

namespace InviteToken

/-! ### The signed bytes of an invite -/

/-- Compute the signed data (everything except the signature itself). -/
def signedData (t : InviteToken) : Bytes :=
  asBytes t.roomId.asStr ++ separator :: (asBytes t.onionAddress ++ separator ::
    (beBytes 2 t.port.toNat ++ separator :: (t.hostNoisePubkey ++ separator ::
      (asBytes t.inviterFingerprint.hex ++ separator :: (asBytes t.invitedFingerprint.hex ++
        separator :: UInt8.ofNat t.role.rank :: separator :: toBeBytes t.expiresAt)))))

/-- The fingerprints of an invite were made by `Fingerprint.new`. -/
structure Valid (t : InviteToken) : Prop where
  inviter : ∃ text, Fingerprint.new text = .ok t.inviterFingerprint
  invited : ∃ text, Fingerprint.new text = .ok t.invitedFingerprint

/-- The address, the port and the key, with the separators between them. -/
def middle (t : InviteToken) : Bytes :=
  asBytes t.onionAddress ++ separator :: (beBytes 2 t.port.toNat ++ separator :: t.hostNoisePubkey)

/-- The separator before the fingerprints, and what follows it. -/
def tail (t : InviteToken) : Bytes :=
  separator :: (asBytes t.inviterFingerprint.hex ++ separator :: (asBytes t.invitedFingerprint.hex ++
    separator :: UInt8.ofNat t.role.rank :: separator :: toBeBytes t.expiresAt))

/-- The middle of an invite can be read in one way only: where two separators stand with two bytes
between them and the bytes before the first are a text, that text is the address. -/
def Unambiguous (t : InviteToken) : Prop :=
  ∀ i, t.middle[i]? = some separator → t.middle[i + 3]? = some separator →
    (∃ text, asBytes text = t.middle.take i) → i = (asBytes t.onionAddress).length

theorem signedData_eq (t : InviteToken) :
    t.signedData = asBytes t.roomId.asStr ++ separator :: (t.middle ++ t.tail) := by
  simp only [signedData, middle, tail, List.append_assoc, List.cons_append]

theorem length_tail {t : InviteToken} (h : t.Valid) : t.tail.length = 93 := by
  obtain ⟨⟨_, hinviter⟩, ⟨_, hinvited⟩⟩ := h
  simp only [tail, List.length_cons, List.length_append, length_fingerprint hinviter,
    length_fingerprint hinvited, length_toBeBytes]

theorem rank_inj {role role' : Role} (h : UInt8.ofNat role.rank = UInt8.ofNat role'.rank) :
    role = role' := by
  cases role <;> cases role' <;> first | rfl | exact absurd h (by decide)

theorem fingerprint_inj {fp fp' : Fingerprint} (h : asBytes fp.hex = asBytes fp'.hex) : fp = fp' := by
  cases fp
  cases fp'
  exact congrArg Fingerprint.mk (asBytes_injective h)

/-- What follows the middle determines the fingerprints, the role and the expiry. -/
theorem tail_inj {t t' : InviteToken} (hvalid : t.Valid) (hvalid' : t'.Valid) (h : t'.tail = t.tail) :
    t'.inviterFingerprint = t.inviterFingerprint ∧ t'.invitedFingerprint = t.invitedFingerprint ∧
      t'.role = t.role ∧ t'.expiresAt = t.expiresAt := by
  obtain ⟨⟨_, hinviter⟩, ⟨_, hinvited⟩⟩ := hvalid
  obtain ⟨⟨_, hinviter'⟩, ⟨_, hinvited'⟩⟩ := hvalid'
  have h₁ := (List.cons.inj h).2
  obtain ⟨hfp, h₂⟩ := List.append_inj h₁ ((length_fingerprint hinviter').trans
    (length_fingerprint hinviter).symm)
  obtain ⟨hfp', h₃⟩ := List.append_inj (List.cons.inj h₂).2 ((length_fingerprint hinvited').trans
    (length_fingerprint hinvited).symm)
  have h₄ := List.cons.inj (List.cons.inj h₃).2
  have h₅ := (List.cons.inj h₄.2).2
  exact ⟨fingerprint_inj hfp, fingerprint_inj hfp', rank_inj h₄.1, toBeBytes_injective h₅⟩

/-- Invites with the same signed bytes agree before and after the middle, and their middles are the
same bytes. -/
theorem parts_of_signedData {t t' : InviteToken} (hvalid : t.Valid) (hvalid' : t'.Valid)
    (h : t'.signedData = t.signedData) :
    t'.roomId = t.roomId ∧ t'.middle = t.middle ∧ t'.tail = t.tail := by
  rw [signedData_eq, signedData_eq] at h
  obtain ⟨hroom, hrest⟩ := List.append_inj h
    ((RoomId.length_asStr t'.roomId).trans (RoomId.length_asStr t.roomId).symm)
  obtain ⟨hmiddle, htail⟩ := List.append_inj' (List.cons.inj hrest).2
    ((length_tail hvalid').trans (length_tail hvalid).symm)
  exact ⟨RoomId.asStr_injective (asBytes_injective hroom), hmiddle, htail⟩

/-! ### The middle -/

theorem middle_address (t : InviteToken) :
    t.middle[(asBytes t.onionAddress).length]? = some separator ∧
      t.middle[(asBytes t.onionAddress).length + 3]? = some separator ∧
      asBytes t.onionAddress = t.middle.take (asBytes t.onionAddress).length := by
  refine ⟨?_, ?_, ?_⟩
  · simp [middle]
  · rw [middle, List.getElem?_append_right (Nat.le_add_right _ _), Nat.add_sub_cancel_left,
      List.getElem?_cons_succ, List.getElem?_append_right (by rw [length_beBytes])]
    simp
  · rw [middle, List.take_left]

/-- Middles that are the same bytes, with addresses of one length, are made of the same fields. -/
theorem middle_inj {t t' : InviteToken} (h : t'.middle = t.middle)
    (hlength : (asBytes t'.onionAddress).length = (asBytes t.onionAddress).length) :
    t'.onionAddress = t.onionAddress ∧ t'.port = t.port ∧ t'.hostNoisePubkey = t.hostNoisePubkey := by
  obtain ⟨haddress, hrest⟩ := List.append_inj h hlength
  obtain ⟨hport, hkey⟩ := List.append_inj (List.cons.inj hrest).2 (by simp only [length_beBytes])
  refine ⟨asBytes_injective haddress, ?_, (List.cons.inj hkey).2⟩
  exact UInt16.toNat_inj.1 (beBytes_inj t'.port.toNat_lt t.port.toNat_lt hport)

/-- Invites with the same signed bytes, with addresses of one length, differ in their signatures only. -/
theorem eq_of_address_length {t t' : InviteToken} (hvalid : t.Valid) (hvalid' : t'.Valid)
    (h : t'.signedData = t.signedData)
    (hlength : (asBytes t'.onionAddress).length = (asBytes t.onionAddress).length) :
    { t' with signature := t.signature } = t := by
  obtain ⟨hroom, hmiddle, htail⟩ := parts_of_signedData hvalid hvalid' h
  obtain ⟨haddress, hport, hkey⟩ := middle_inj hmiddle hlength
  obtain ⟨hinviter, hinvited, hrole, hexpires⟩ := tail_inj hvalid hvalid' htail
  rw [hroom, haddress, hport, hkey, hinviter, hinvited, hrole, hexpires]

/-- The other way to read the middle: its two bytes after the first separator are a port. -/
theorem exists_of_separators {bytes : Bytes} {i : ℕ} (h : bytes[i]? = some separator)
    (h₃ : bytes[i + 3]? = some separator) :
    ∃ b₀ b₁, bytes = bytes.take i ++ separator :: ([b₀, b₁] ++ separator :: bytes.drop (i + 4)) := by
  obtain ⟨hi, hget⟩ := List.getElem?_eq_some_iff.1 h
  obtain ⟨hi₃, hget₃⟩ := List.getElem?_eq_some_iff.1 h₃
  refine ⟨bytes[i + 1], bytes[i + 2], ?_⟩
  calc bytes = bytes.take i ++ bytes.drop i := (List.take_append_drop i bytes).symm
    _ = bytes.take i ++ bytes[i] :: bytes[i + 1] :: bytes[i + 2] :: bytes[i + 3] ::
          bytes.drop (i + 4) := by
        rw [List.drop_eq_getElem_cons hi, List.drop_eq_getElem_cons (i := i + 1) (by omega),
          List.drop_eq_getElem_cons (i := i + 2) (by omega), List.drop_eq_getElem_cons hi₃]
    _ = bytes.take i ++ separator :: ([bytes[i + 1], bytes[i + 2]] ++ separator ::
          bytes.drop (i + 4)) := by
        rw [hget, hget₃]
        rfl

theorem beBytes_two (b₀ b₁ : UInt8) :
    beBytes 2 (UInt16.ofNat (b₀.toNat * 256 + b₁.toNat)).toNat = [b₀, b₁] := by
  have h₀ := b₀.toNat_lt
  have h₁ := b₁.toNat_lt
  have hport : (UInt16.ofNat (b₀.toNat * 256 + b₁.toNat)).toNat = b₀.toNat * 256 + b₁.toNat :=
    UInt16.toNat_ofNat_of_lt (by show _ < 65536; omega)
  have hhigh : (b₀.toNat * 256 + b₁.toNat) / 256 = b₀.toNat := by omega
  have hlow : UInt8.ofNat (b₀.toNat * 256 + b₁.toNat) = b₁ := by
    refine UInt8.toNat_inj.1 ?_
    rw [UInt8.toNat_ofNat']
    omega
  rw [hport]
  show [UInt8.ofNat ((b₀.toNat * 256 + b₁.toNat) / 256),
    UInt8.ofNat ((b₀.toNat * 256 + b₁.toNat) / 1)] = [b₀, b₁]
  rw [hhigh, Nat.div_one, hlow, UInt8.ofNat_toNat]

/-! ### When the signed bytes determine the invite -/

/-- **The signed bytes determine a valid invite exactly when its middle can be read in one way only.** -/
theorem signedData_determines_iff (t : InviteToken) (hvalid : t.Valid) :
    (∀ t' : InviteToken, t'.Valid → t'.signedData = t.signedData →
      { t' with signature := t.signature } = t) ↔ t.Unambiguous := by
  constructor
  · -- An invite is made of the other way to read the middle; it is the same one, so the two ways are.
    intro h i hi hi₃ htext
    obtain ⟨text, htext⟩ := htext
    obtain ⟨b₀, b₁, hmiddle⟩ := exists_of_separators hi hi₃
    have hread := h { t with
      onionAddress := text
      port := UInt16.ofNat (b₀.toNat * 256 + b₁.toNat)
      hostNoisePubkey := t.middle.drop (i + 4) } ⟨hvalid.inviter, hvalid.invited⟩ ?_
    · have haddress : text = t.onionAddress := congrArg InviteToken.onionAddress hread
      have hlt : i < t.middle.length := (List.getElem?_eq_some_iff.1 hi).1
      rw [← haddress, htext, List.length_take, min_eq_left hlt.le]
    · rw [signedData_eq, signedData_eq]
      congr 3
      show asBytes text ++ separator :: (beBytes 2 (UInt16.ofNat (b₀.toNat * 256 + b₁.toNat)).toNat ++
        separator :: t.middle.drop (i + 4)) = t.middle
      rw [htext, beBytes_two, ← hmiddle]
  · intro h t' hvalid' hsigned
    obtain ⟨-, hmiddle, -⟩ := parts_of_signedData hvalid hvalid' hsigned
    obtain ⟨hsep, hsep₃, haddress⟩ := middle_address t'
    rw [hmiddle] at hsep hsep₃ haddress
    exact eq_of_address_length hvalid hvalid' hsigned (h _ hsep hsep₃ ⟨_, haddress⟩)

/-- Invites whose keys have one length are determined, whatever their addresses are. -/
theorem signedData_inj_of_length {t t' : InviteToken} (hvalid : t.Valid) (hvalid' : t'.Valid)
    (hkey : t'.hostNoisePubkey.length = t.hostNoisePubkey.length)
    (h : t'.signedData = t.signedData) : { t' with signature := t.signature } = t := by
  obtain ⟨-, hmiddle, -⟩ := parts_of_signedData hvalid hvalid' h
  have hlength := congrArg List.length hmiddle
  simp only [middle, List.length_append, List.length_cons, length_beBytes, hkey] at hlength
  exact eq_of_address_length hvalid hvalid' h (by omega)

/-- An invite of a host whose key has two separators in it, with two bytes between them. -/
def testInvite : InviteToken where
  roomId := ⟨1⟩
  onionAddress := "a.onion"
  port := 9766
  hostNoisePubkey := [107, 107, 107, 107, 124, 1, 2, 124] ++ List.replicate 24 7
  inviterFingerprint := ⟨"AAAAAAAAAAAAAAAAAAAAAAAAAAAAAAAAAAAAAAAA"⟩
  invitedFingerprint := ⟨"BBBBBBBBBBBBBBBBBBBBBBBBBBBBBBBBBBBBBBBB"⟩
  role := .member
  expiresAt := 1000
  signature := []

/-- The same bytes, with the address read up to the first separator in the key. -/
def movedInvite : InviteToken := { testInvite with
  onionAddress := "a.onion|&&|kkkk"
  port := 258
  hostNoisePubkey := List.replicate 24 7 }

theorem valid_testInvite : testInvite.Valid :=
  ⟨⟨"AAAAAAAAAAAAAAAAAAAAAAAAAAAAAAAAAAAAAAAA", by decide⟩,
    ⟨"BBBBBBBBBBBBBBBBBBBBBBBBBBBBBBBBBBBBBBBB", by decide⟩⟩

/-- **A signature on one invite is a signature on another**, with another address, another port and
another key. -/
theorem signedData_ambiguous :
    testInvite.Valid ∧ movedInvite.Valid ∧ movedInvite.signedData = testInvite.signedData ∧
      movedInvite.onionAddress ≠ testInvite.onionAddress ∧ movedInvite.port ≠ testInvite.port ∧
      movedInvite.hostNoisePubkey ≠ testInvite.hostNoisePubkey := by
  refine ⟨valid_testInvite, ⟨valid_testInvite.inviter, valid_testInvite.invited⟩, ?_, ?_, ?_, ?_⟩
  · have hmiddle : movedInvite.middle = testInvite.middle := by decide
    rw [signedData_eq, signedData_eq, hmiddle]
    rfl
  · decide
  · decide
  · decide

/-- An invite whose key has no separator. -/
def clearInvite : InviteToken := { testInvite with hostNoisePubkey := List.replicate 32 7 }

theorem signedData_determines_clearInvite :
    clearInvite.Valid ∧ ∀ t' : InviteToken, t'.Valid → t'.signedData = clearInvite.signedData →
      { t' with signature := clearInvite.signature } = clearInvite := by
  have hvalid : clearInvite.Valid := ⟨valid_testInvite.inviter, valid_testInvite.invited⟩
  refine ⟨hvalid, (signedData_determines_iff clearInvite hvalid).2 ?_⟩
  intro i hi hi₃ _
  have hlt : i < 43 := (List.getElem?_eq_some_iff.1 hi).1
  have hreadings : ∀ i < 43, clearInvite.middle[i]? = some separator →
      clearInvite.middle[i + 3]? = some separator → i = (asBytes clearInvite.onionAddress).length := by
    decide
  exact hreadings i hlt hi hi₃

end InviteToken

/-- A signature scheme in which no signature is valid on two messages. -/
structure SignatureScheme where
  /-- The signature is valid on the message under the public key. -/
  Verifies (publicKey message signature : Bytes) : Prop
  unique {publicKey message message' signature : Bytes} : Verifies publicKey message signature →
    Verifies publicKey message' signature → message = message'

namespace AuthService

/-! ### The signed bytes of a challenge -/

/-- Serialize a challenge to bytes (for signing). -/
def challengeToBytes (challenge : AuthChallenge) : Bytes :=
  challenge.nonce ++ toBeBytes challenge.timestamp ++ asBytes challenge.roomId.asStr ++
    challenge.serverId.val

theorem challengeToBytes_injective : Function.Injective challengeToBytes := by
  intro c c' h
  obtain ⟨hrest, hserver⟩ := List.append_inj' h (c.serverId.property.trans c'.serverId.property.symm)
  obtain ⟨hrest, hroom⟩ := List.append_inj' hrest
    ((RoomId.length_asStr c.roomId).trans (RoomId.length_asStr c'.roomId).symm)
  obtain ⟨hnonce, htimestamp⟩ := List.append_inj' hrest (by simp only [length_toBeBytes])
  cases c
  cases c'
  exact AuthChallenge.mk.injEq .. ▸ ⟨hnonce, toBeBytes_injective htimestamp,
    RoomId.asStr_injective (asBytes_injective hroom), Subtype.ext hserver⟩

/-- The 52nd byte from the end of a challenge is a character of the room identifier. -/
theorem exists_challengeToBytes_eq (c : AuthChallenge) : ∃ before b after,
    challengeToBytes c = before ++ b :: after ∧ after.length = 51 ∧ b ≠ separator := by
  have hlength := RoomId.length_asStr c.roomId
  have hlt : 16 < (asBytes c.roomId.asStr).length := by omega
  refine ⟨c.nonce ++ toBeBytes c.timestamp ++ (asBytes c.roomId.asStr).take 16,
    (asBytes c.roomId.asStr)[16], (asBytes c.roomId.asStr).drop 17 ++ c.serverId.val, ?_, ?_, ?_⟩
  · calc challengeToBytes c
        = c.nonce ++ toBeBytes c.timestamp ++ ((asBytes c.roomId.asStr).take 16 ++
            (asBytes c.roomId.asStr).drop 16) ++ c.serverId.val := by
          rw [List.take_append_drop]
          rfl
      _ = _ := by
          rw [List.drop_eq_getElem_cons hlt]
          simp only [List.append_assoc, List.cons_append]
  · rw [List.length_append, List.length_drop, hlength, c.serverId.property]
  · exact RoomId.mem_asStr (List.getElem_mem hlt)

end AuthService

/-- The 52nd byte from the end of an invite is the separator between its fingerprints. -/
theorem InviteToken.exists_signedData_eq {t : InviteToken} (h : t.Valid) : ∃ before after,
    t.signedData = before ++ separator :: after ∧ after.length = 51 := by
  obtain ⟨-, ⟨_, hinvited⟩⟩ := h
  refine ⟨asBytes t.roomId.asStr ++ separator :: (t.middle ++ separator ::
    asBytes t.inviterFingerprint.hex), asBytes t.invitedFingerprint.hex ++ separator ::
    UInt8.ofNat t.role.rank :: separator :: toBeBytes t.expiresAt, ?_, ?_⟩
  · simp only [signedData_eq, tail, List.append_assoc, List.cons_append]
  · simp only [List.length_append, List.length_cons, length_fingerprint hinvited, length_toBeBytes]

namespace AuthService

/-! ### Challenges and invites -/

theorem challengeToBytes_ne (c : AuthChallenge) {t : InviteToken} (h : t.Valid) :
    challengeToBytes c ≠ t.signedData := by
  intro heq
  obtain ⟨before, b, after, hchallenge, hafter, hb⟩ := exists_challengeToBytes_eq c
  obtain ⟨before', after', hinvite, hafter'⟩ := InviteToken.exists_signedData_eq h
  rw [hchallenge, hinvite] at heq
  obtain ⟨-, htail⟩ := List.append_inj' heq
    (by rw [List.length_cons, List.length_cons, hafter, hafter'])
  exact hb (List.cons.inj htail).1

/-- **What is signed for a login is one challenge only, and never what is signed for an invite**, so a
signature that is valid on a challenge is not valid on an invite. -/
theorem payloads_apart :
    Function.Injective challengeToBytes ∧
      ∀ (c : AuthChallenge) (t : InviteToken), t.Valid →
        challengeToBytes c ≠ t.signedData ∧
          ∀ (scheme : SignatureScheme) (publicKey signature : Bytes),
            scheme.Verifies publicKey (challengeToBytes c) signature →
              ¬ scheme.Verifies publicKey t.signedData signature := by
  refine ⟨challengeToBytes_injective, ?_⟩
  intro c t hvalid
  refine ⟨challengeToBytes_ne c hvalid, ?_⟩
  intro scheme publicKey signature hchallenge hinvite
  exact challengeToBytes_ne c hvalid (scheme.unique hchallenge hinvite)

/-- A scheme for the tests: the signature is the key and the message. -/
def testScheme : SignatureScheme where
  Verifies publicKey message signature := signature = publicKey ++ message
  unique h h' := List.append_cancel_left (h.symm.trans h')

def testChallenge : AuthChallenge where
  nonce := [1, 2, 3]
  timestamp := 1000
  roomId := ⟨1⟩
  serverId := ⟨List.replicate 32 7, rfl⟩

/-- A signature on a challenge, presented as one on an invite. -/
theorem payloads_apart_test :
    testScheme.Verifies [9] (challengeToBytes testChallenge) (9 :: challengeToBytes testChallenge) ∧
      ¬ testScheme.Verifies [9] InviteToken.testInvite.signedData (9 :: challengeToBytes testChallenge) :=
  ⟨rfl, (payloads_apart.2 testChallenge InviteToken.testInvite InviteToken.valid_testInvite).2
    testScheme [9] _ rfl⟩

end AuthService

end Sanctum
