/-
The fingerprints of a decoded invite.

`Fingerprint::new` makes a text of 40 upper-case hexadecimal digits out of its argument, or fails.  The
derived deserializer makes a fingerprint out of every text.  So the fingerprints of an invite that has
been decoded are texts that the one who made the invite has chosen, and the short form of such a text,
which is cut out of it at byte positions, need not exist.

Main definitions:

* `Sanctum.Fingerprint.WellFormed` — what `Fingerprint::new` makes;
* `Sanctum.Fingerprint.shortBytes` — the short form, cut at byte positions;
* `Sanctum.InviteToken.deserialize` — the derived deserializer of an invite.

Main results:

* `Sanctum.Fingerprint.exists_new_iff` — **the constructor makes exactly the well-formed ones**;
* `Sanctum.Fingerprint.sound_of_wellFormed` — what is well-formed can be shown and compared;
* `Sanctum.InviteCodec.decoded_fingerprints_iff` — **when the fingerprints of an invite are**.
-/

import Mathlib.Data.Nat.Digits.Lemmas
import Sanctum.AuthService
import Sanctum.Join
import Sanctum.Serde
import Sanctum.Slices

set_option relaxedAutoImplicit false
set_option autoImplicit false

namespace Sanctum

/-! ### Texts of fingerprints -/

/-- A hexadecimal digit that is not a small letter. -/
def isUpperHexdigit (c : Char) : Bool := ('0' ≤ c && c ≤ '9') || ('A' ≤ c && c ≤ 'F')

/-- **The text of a fingerprint**: 40 upper-case hexadecimal digits. -/
def IsFingerprintText (text : String) : Prop :=
  text.toList.length = 40 ∧ ∀ c ∈ text.toList, isUpperHexdigit c = true

instance : DecidablePred IsFingerprintText := fun _ => inferInstanceAs (Decidable (_ ∧ _))

theorem isUpperHexdigit_iff {c : Char} : isUpperHexdigit c = true ↔
    48 ≤ c.toNat ∧ c.toNat ≤ 57 ∨ 65 ≤ c.toNat ∧ c.toNat ≤ 70 := by
  simp only [isUpperHexdigit, Bool.or_eq_true, Bool.and_eq_true, decide_eq_true_eq, Char.le_def,
    UInt32.le_iff_toNat_le]
  exact Iff.rfl

theorem isAsciiHexdigit_iff {c : Char} : isAsciiHexdigit c = true ↔
    (48 ≤ c.toNat ∧ c.toNat ≤ 57 ∨ 97 ≤ c.toNat ∧ c.toNat ≤ 102) ∨ 65 ≤ c.toNat ∧ c.toNat ≤ 70 := by
  simp only [isAsciiHexdigit, Bool.or_eq_true, Bool.and_eq_true, decide_eq_true_eq, Char.le_def,
    UInt32.le_iff_toNat_le]
  exact Iff.rfl

theorem toNat_ofNat_of_lt {n : ℕ} (h : n < 128) : (Char.ofNat n).toNat = n := by
  have hall : ∀ n < 128, (Char.ofNat n).toNat = n := by decide
  exact hall n h

/-- A hexadecimal digit in upper case is one that is not a small letter. -/
theorem isUpperHexdigit_toAsciiUppercase {c : Char} (h : isAsciiHexdigit (toAsciiUppercase c) = true) :
    isUpperHexdigit (toAsciiUppercase c) = true := by
  rw [isAsciiHexdigit_iff] at h
  rw [isUpperHexdigit_iff]
  unfold toAsciiUppercase at h ⊢
  simp only [Char.le_def, UInt32.le_iff_toNat_le] at h ⊢
  split_ifs at h ⊢ with hsmall
  · have hsmall' : 97 ≤ c.toNat ∧ c.toNat ≤ 122 := hsmall
    rw [toNat_ofNat_of_lt (by omega)] at h ⊢
    omega
  · have hsmall' : ¬ (97 ≤ c.toNat ∧ c.toNat ≤ 122) := hsmall
    omega

theorem utf8Size_of_isUpperHexdigit {c : Char} (h : isUpperHexdigit c = true) : c.utf8Size = 1 := by
  rw [isUpperHexdigit_iff] at h
  refine Char.utf8Size_eq_one_iff.2 (UInt32.le_iff_toNat_le.2 ?_)
  show c.toNat ≤ 127
  omega

theorem isAsciiHexdigit_of_isUpperHexdigit {c : Char} (h : isUpperHexdigit c = true) :
    isAsciiHexdigit c = true := by
  rw [isUpperHexdigit_iff] at h
  rw [isAsciiHexdigit_iff]
  omega

theorem toAsciiUppercase_of_isUpperHexdigit {c : Char} (h : isUpperHexdigit c = true) :
    toAsciiUppercase c = c := by
  rw [isUpperHexdigit_iff] at h
  refine if_neg ?_
  rintro ⟨hsmall, -⟩
  have hsmall' : 97 ≤ c.toNat := hsmall
  omega

theorem isWhitespace_of_isUpperHexdigit {c : Char} (h : isUpperHexdigit c = true) :
    isWhitespace c = false := by
  rw [isUpperHexdigit_iff] at h
  unfold isWhitespace
  dsimp only
  generalize c.toNat = n at h
  rcases h with ⟨hlow, hhigh⟩ | ⟨hlow, hhigh⟩
  · interval_cases n <;> rfl
  · interval_cases n <;> rfl

theorem utf8Len_eq (chars : List Char) : utf8Len chars = String.utf8Len chars := by
  induction chars with
  | nil => rfl
  | cons c chars ih =>
      rw [String.utf8Len_cons, ← ih, Nat.add_comm]
      exact List.sum_cons

theorem utf8Len_of_isUpperHexdigit {chars : List Char} (h : ∀ c ∈ chars, isUpperHexdigit c = true) :
    utf8Len chars = chars.length := by
  rw [utf8Len_eq]
  exact Slices.utf8Len_of_ascii fun c hc => utf8Size_of_isUpperHexdigit (h c hc)

/-! ### The constructor -/

namespace Fingerprint

/-- **A well-formed fingerprint**: its text is the text of a fingerprint. -/
def WellFormed (fp : Fingerprint) : Prop := IsFingerprintText fp.hex

instance : DecidablePred WellFormed := fun fp => inferInstanceAs (Decidable (IsFingerprintText fp.hex))

theorem wellFormed_of_new {text : String} {fp : Fingerprint} (h : new text = .ok fp) : fp.WellFormed := by
  unfold new at h
  dsimp only at h
  split_ifs at h with hlen hhex
  obtain rfl := Except.ok.inj h
  rw [Bool.not_eq_true', Bool.not_eq_false, List.all_eq_true] at hhex
  have hupper : ∀ c ∈ (text.toList.filter fun c => !isWhitespace c).map toAsciiUppercase,
      isUpperHexdigit c = true := by
    intro c hc
    have hdigit := hhex c hc
    obtain ⟨d, -, rfl⟩ := List.mem_map.1 hc
    exact isUpperHexdigit_toAsciiUppercase hdigit
  rw [not_not, utf8Len_of_isUpperHexdigit hupper] at hlen
  unfold WellFormed IsFingerprintText
  rw [String.toList_ofList]
  exact ⟨hlen, hupper⟩

/-- The constructor leaves a well-formed fingerprint as it is. -/
theorem new_hex {fp : Fingerprint} (h : fp.WellFormed) : new fp.hex = .ok fp := by
  obtain ⟨hlength, hupper⟩ := h
  have hfilter : (fp.hex.toList.filter fun c => !isWhitespace c) = fp.hex.toList :=
    List.filter_eq_self.2 fun c hc => by rw [isWhitespace_of_isUpperHexdigit (hupper c hc)]; rfl
  have hmap : fp.hex.toList.map toAsciiUppercase = fp.hex.toList :=
    (List.map_congr_left fun c hc => toAsciiUppercase_of_isUpperHexdigit (hupper c hc)).trans
      (List.map_id _)
  have hall : fp.hex.toList.all isAsciiHexdigit = true :=
    List.all_eq_true.2 fun c hc => isAsciiHexdigit_of_isUpperHexdigit (hupper c hc)
  unfold new
  dsimp only
  rw [hfilter, hmap, utf8Len_of_isUpperHexdigit hupper, hlength, hall, String.ofList_toList]
  rfl

/-- **The constructor makes exactly the well-formed fingerprints.** -/
theorem exists_new_iff {fp : Fingerprint} : (∃ text, new text = .ok fp) ↔ fp.WellFormed := by
  constructor
  · rintro ⟨text, h⟩
    exact wellFormed_of_new h
  · intro h
    exact ⟨fp.hex, new_hex h⟩

/-! ### The short form -/

/-- The short form, cut at byte positions; there is none if a position is inside a character. -/
def shortBytes (fp : Fingerprint) : Option String :=
  let len := fp.hex.utf8ByteSize
  if len ≥ 8 then do
    let first ← Slices.sliceTo fp.hex 4
    let last ← Slices.sliceFrom fp.hex (len - 4)
    some (first ++ ".." ++ last)
  else some fp.hex

/-- `Display`. -/
def displayBytes (fp : Fingerprint) : Option String := fp.shortBytes.map fun text => "[" ++ text ++ "]"

/-- `Debug`. -/
def debugBytes (fp : Fingerprint) : Option String :=
  fp.shortBytes.map fun text => "Fingerprint(" ++ text ++ ")"

/-- **When a fingerprint can be shown**: the positions behind its first and before its last four bytes are
between characters, if it is long enough to be cut. -/
theorem isSome_shortBytes_iff (fp : Fingerprint) : fp.shortBytes.isSome ↔ (8 ≤ fp.hex.utf8ByteSize →
    (⟨4⟩ : String.Pos.Raw).IsValid fp.hex ∧
      (⟨fp.hex.utf8ByteSize - 4⟩ : String.Pos.Raw).IsValid fp.hex) := by
  rw [← Slices.isSome_sliceTo_iff, ← Slices.isSome_sliceFrom_iff]
  unfold shortBytes
  dsimp only
  split_ifs with hlen
  · cases Slices.sliceTo fp.hex 4 with
    | none => simp [hlen]
    | some first =>
        cases Slices.sliceFrom fp.hex (fp.hex.utf8ByteSize - 4) with
        | none => simp [hlen]
        | some last => simp
  · exact iff_of_true rfl fun h => absurd h hlen

/-- The short form of a well-formed fingerprint is cut between its characters. -/
theorem shortBytes_of_wellFormed {fp : Fingerprint} (h : fp.WellFormed) : fp.shortBytes = some fp.short := by
  obtain ⟨hlength, hupper⟩ := h
  have hascii : ∀ c ∈ fp.hex.toList, c.utf8Size = 1 :=
    fun c hc => utf8Size_of_isUpperHexdigit (hupper c hc)
  have hlen : fp.hex.utf8ByteSize = 40 := by
    rw [← String.ofList_toList (s := fp.hex), String.utf8ByteSize_ofList,
      Slices.utf8Len_of_ascii hascii, hlength]
  unfold shortBytes short Slices.sliceTo Slices.sliceFrom
  dsimp only
  rw [hlen, hlength, Slices.split_of_ascii hascii (by omega), Slices.split_of_ascii hascii (by omega)]
  refine congrArg some (String.toList_inj.1 ?_)
  simp

/-! ### The value of a fingerprint -/

/-- The value of a hexadecimal digit, in upper or in lower case. -/
def hexdigitValue (c : Char) : ℕ :=
  if c ≤ '9' then c.toNat - 48 else if c ≤ 'F' then c.toNat - 55 else c.toNat - 87

/-- **The number that a text of hexadecimal digits stands for.** -/
def hexValue (text : String) : ℕ := Nat.ofDigits 16 (text.toList.reverse.map hexdigitValue)

theorem hexDigit_hexdigitValue {c : Char} (h : isUpperHexdigit c = true) :
    hexDigit (hexdigitValue c) = c := by
  rw [isUpperHexdigit_iff] at h
  have hnine : ('9' : Char).toNat = 57 := rfl
  have hF : ('F' : Char).toNat = 70 := rfl
  refine Char.toNat_inj.1 ?_
  unfold hexDigit hexdigitValue
  simp only [Char.le_def, UInt32.le_iff_toNat_le, Char.toNat_val]
  split_ifs
  · rw [toNat_ofNat_of_lt (by omega)]
    omega
  · omega
  · omega
  · rw [toNat_ofNat_of_lt (by omega)]
    omega
  · omega
  · omega

theorem hexdigitValue_lt {c : Char} (h : isUpperHexdigit c = true) : hexdigitValue c < 16 := by
  rw [isUpperHexdigit_iff] at h
  unfold hexdigitValue
  simp only [Char.le_def, UInt32.le_iff_toNat_le, Char.toNat_val]
  have hnine : ('9' : Char).toNat = 57 := rfl
  have hF : ('F' : Char).toNat = 70 := rfl
  split_ifs <;> omega

/-- The digits can be read back from their values. -/
theorem map_hexDigit_map_hexdigitValue {chars : List Char} (h : ∀ c ∈ chars, isUpperHexdigit c = true) :
    (chars.map hexdigitValue).map hexDigit = chars := by
  rw [List.map_map]
  exact (List.map_congr_left fun c hc => hexDigit_hexdigitValue (h c hc)).trans (List.map_id _)

/-- **A number has one well-formed fingerprint.** -/
theorem eq_of_hexValue {fp fp' : Fingerprint} (h : fp.WellFormed) (h' : fp'.WellFormed)
    (hvalue : hexValue fp.hex = hexValue fp'.hex) : fp = fp' := by
  have hupper : ∀ c ∈ fp.hex.toList.reverse, isUpperHexdigit c = true :=
    fun c hc => h.2 c (List.mem_reverse.1 hc)
  have hupper' : ∀ c ∈ fp'.hex.toList.reverse, isUpperHexdigit c = true :=
    fun c hc => h'.2 c (List.mem_reverse.1 hc)
  have hdigits : fp.hex.toList.reverse.map hexdigitValue = fp'.hex.toList.reverse.map hexdigitValue := by
    refine Nat.ofDigits_inj_of_len_eq (by decide) (by simp [h.1, h'.1]) ?_ ?_ hvalue
    · intro n hn
      obtain ⟨c, hc, rfl⟩ := List.mem_map.1 hn
      exact hexdigitValue_lt (hupper c hc)
    · intro n hn
      obtain ⟨c, hc, rfl⟩ := List.mem_map.1 hn
      exact hexdigitValue_lt (hupper' c hc)
  have hchars : fp.hex.toList.reverse = fp'.hex.toList.reverse := by
    rw [← map_hexDigit_map_hexdigitValue hupper, hdigits, map_hexDigit_map_hexdigitValue hupper']
  cases fp
  cases fp'
  exact congrArg Fingerprint.mk (String.toList_inj.1 (List.reverse_inj.1 hchars))

/-- **A fingerprint that can be used**: it is what the constructor makes, it can be shown, and it is equal
to a fingerprint that the constructor has made if it stands for the same number. -/
structure Sound (fp : Fingerprint) : Prop where
  wellFormed : fp.WellFormed
  shown : fp.displayBytes.isSome ∧ fp.debugBytes.isSome
  eq_iff : ∀ text fp', new text = .ok fp' → (fp = fp' ↔ hexValue fp.hex = hexValue fp'.hex)

theorem sound_of_wellFormed {fp : Fingerprint} (h : fp.WellFormed) : fp.Sound where
  wellFormed := h
  shown := by
    rw [displayBytes, debugBytes, shortBytes_of_wellFormed h]
    exact ⟨rfl, rfl⟩
  eq_iff := by
    intro text fp' hnew
    constructor
    · rintro rfl
      rfl
    · exact eq_of_hexValue h (wellFormed_of_new hnew)

/-- The derived deserializer. -/
def deserialize (json : Serde.Json) : Option Fingerprint := (Serde.string json).map fun hex => ⟨hex⟩

theorem deserialize_eq_some_iff {json : Serde.Json} {fp : Fingerprint} :
    deserialize json = some fp ↔ json = .str fp.hex := by
  unfold deserialize
  rw [Option.map_eq_some_iff]
  constructor
  · rintro ⟨hex, hstring, rfl⟩
    exact Serde.string_eq_some_iff.1 hstring
  · intro h
    exact ⟨fp.hex, Serde.string_eq_some_iff.2 h, rfl⟩

end Fingerprint

/-! ### The deserializer of invites -/

def Role.deserialize : Serde.Json → Option Role :=
  Serde.unitVariant [("Member", .member), ("Admin", .admin), ("Owner", .owner)]

def RoomId.deserialize (parseUuid : String → Option RoomId) (json : Serde.Json) : Option RoomId :=
  (Serde.string json).bind parseUuid

/-- A vector of bytes, which is a sequence of numbers. -/
def deserializeBytes (json : Serde.Json) : Option Bytes :=
  Serde.seq (fun item => (Serde.uint 8 item).map UInt8.ofNat) json

namespace InviteToken

/-- The fields of an invite, in the order of their declaration. -/
def fields : List String :=
  ["room_id", "onion_address", "port", "host_noise_pubkey", "inviter_fingerprint", "invited_fingerprint",
    "role", "expires_at", "signature"]

/-- **The derived deserializer.** -/
def deserialize (parseUuid : String → Option RoomId) (json : Serde.Json) : Option InviteToken := do
  let values ← Serde.fieldValues fields json
  let roomId ← (values.lookup "room_id").bind (RoomId.deserialize parseUuid)
  let onionAddress ← (values.lookup "onion_address").bind Serde.string
  let port ← (values.lookup "port").bind (Serde.uint 16)
  let hostNoisePubkey ← (values.lookup "host_noise_pubkey").bind deserializeBytes
  let inviterFingerprint ← (values.lookup "inviter_fingerprint").bind Fingerprint.deserialize
  let invitedFingerprint ← (values.lookup "invited_fingerprint").bind Fingerprint.deserialize
  let role ← (values.lookup "role").bind Role.deserialize
  let expiresAt ← (values.lookup "expires_at").bind (Serde.uint 64)
  let signature ← (values.lookup "signature").bind deserializeBytes
  some
    { roomId := roomId, onionAddress := onionAddress, port := UInt16.ofNat port,
      hostNoisePubkey := hostNoisePubkey, inviterFingerprint := inviterFingerprint,
      invitedFingerprint := invitedFingerprint, role := role, expiresAt := UInt64.ofNat expiresAt,
      signature := signature }

/-- **The fingerprints of an invite are the texts of its fields.** -/
theorem fingerprints_of_deserialize {parseUuid : String → Option RoomId} {json : Serde.Json}
    {token : InviteToken} (h : deserialize parseUuid json = some token) :
    ∃ values, Serde.fieldValues fields json = some values ∧
      values.lookup "inviter_fingerprint" = some (.str token.inviterFingerprint.hex) ∧
      values.lookup "invited_fingerprint" = some (.str token.invitedFingerprint.hex) := by
  simp only [deserialize, bind, Option.bind_eq_some_iff] at h
  obtain ⟨values, hvalues, _, _, _, _, _, _, _, _, inviter, ⟨value, hinviter, hvalue⟩, invited,
    ⟨value', hinvited, hvalue'⟩, _, _, _, _, _, _, htoken⟩ := h
  obtain rfl := Option.some.inj htoken
  refine ⟨values, hvalues, ?_, ?_⟩
  · rw [hinviter, Fingerprint.deserialize_eq_some_iff.1 hvalue]
  · rw [hinvited, Fingerprint.deserialize_eq_some_iff.1 hvalue']

end InviteToken

/-! ### Decoded invites -/

/-- The crates, with the documents that are parsed, the texts of the errors, and the identifiers. -/
structure JsonCrates where
  base64 : String → Except String Bytes
  parse : Bytes → Option Serde.Json
  jsonError : Bytes → String
  parseUuid : String → Option RoomId

namespace JsonCrates

/-- The crates that an invite is decoded with: the document is parsed and deserialized. -/
def inviteCrates (crates : JsonCrates) : InviteCrates where
  base64 := crates.base64
  json bytes :=
    match (crates.parse bytes).bind (InviteToken.deserialize crates.parseUuid) with
    | none => .error (crates.jsonError bytes)
    | some token => .ok token

/-- The document in an encoded invite. -/
def document (crates : JsonCrates) (encoded : String) : Option Serde.Json :=
  match crates.base64 (trim encoded) with
  | .error _ => none
  | .ok bytes => crates.parse bytes

/-- **Both fingerprints in an encoded invite are texts of fingerprints.** -/
def NamesFingerprints (crates : JsonCrates) (encoded : String) : Prop :=
  ∃ json values, crates.document encoded = some json ∧
    Serde.fieldValues InviteToken.fields json = some values ∧
    (∃ text, values.lookup "inviter_fingerprint" = some (.str text) ∧ IsFingerprintText text) ∧
    ∃ text, values.lookup "invited_fingerprint" = some (.str text) ∧ IsFingerprintText text

end JsonCrates

namespace InviteCodec

/-- A decoded invite is the one that is deserialized from the document. -/
theorem decodeInvite_eq_ok_iff {crates : JsonCrates} {encoded : String} {token : InviteToken} :
    decodeInvite crates.inviteCrates encoded = .ok token ↔ ∃ json, crates.document encoded = some json ∧
      InviteToken.deserialize crates.parseUuid json = some token := by
  unfold decodeInvite JsonCrates.document
  refine bind_eq_ok.trans ?_
  constructor
  · rintro ⟨bytes, hbytes, hjson⟩
    have hbase64 : crates.base64 (trim encoded) = .ok bytes := mapError_eq_ok.1 hbytes
    have htoken := mapError_eq_ok.1 hjson
    unfold JsonCrates.inviteCrates at htoken
    dsimp only at htoken
    split at htoken
    · cases htoken
    · next token' hdeserialize =>
        obtain rfl := Except.ok.inj htoken
        rw [hbase64]
        exact Option.bind_eq_some_iff.1 hdeserialize
  · rintro ⟨json, hdocument, hdeserialize⟩
    cases hbase64 : crates.base64 (trim encoded) with
    | error e =>
        rw [hbase64] at hdocument
        cases hdocument
    | ok bytes =>
        rw [hbase64] at hdocument
        refine ⟨bytes, mapError_eq_ok.2 hbase64, mapError_eq_ok.2 ?_⟩
        unfold JsonCrates.inviteCrates
        dsimp only
        rw [show crates.parse bytes = some json from hdocument, Option.bind_some, hdeserialize]

/-- **When the fingerprints of a decoded invite can be used**: if the texts in the document are texts of
fingerprints. -/
theorem decoded_fingerprints_iff {crates : JsonCrates} {encoded : String} {token : InviteToken}
    (h : decodeInvite crates.inviteCrates encoded = .ok token) :
    token.inviterFingerprint.Sound ∧ token.invitedFingerprint.Sound ↔
      crates.NamesFingerprints encoded := by
  obtain ⟨json, hdocument, hdeserialize⟩ := decodeInvite_eq_ok_iff.1 h
  obtain ⟨values, hvalues, hinviter, hinvited⟩ := InviteToken.fingerprints_of_deserialize hdeserialize
  constructor
  · rintro ⟨hsound, hsound'⟩
    exact ⟨json, values, hdocument, hvalues, ⟨_, hinviter, hsound.wellFormed⟩,
      _, hinvited, hsound'.wellFormed⟩
  · rintro ⟨json', values', hdocument', hvalues', ⟨text, htext, hvalid⟩, text', htext', hvalid'⟩
    obtain rfl := Option.some.inj (hdocument.symm.trans hdocument')
    obtain rfl := Option.some.inj (hvalues.symm.trans hvalues')
    have hhex := hinviter.symm.trans htext
    have hhex' := hinvited.symm.trans htext'
    simp only [Option.some.injEq, Serde.Json.str.injEq] at hhex hhex'
    refine ⟨Fingerprint.sound_of_wellFormed ?_, Fingerprint.sound_of_wellFormed ?_⟩
    · rw [Fingerprint.WellFormed, hhex]
      exact hvalid
    · rw [Fingerprint.WellFormed, hhex']
      exact hvalid'

/-! ### A forged invite -/

/-- The crates, on one token. -/
def crates (token json : String) (document : Serde.Json) : JsonCrates where
  base64 text := if text = token then .ok (asBytes json) else .error "Invalid padding"
  parse bytes := if bytes = asBytes json then some document else none
  jsonError _ := "expected value at line 1 column 1"
  parseUuid text := if text = "00000000-0000-0000-0000-000000000001" then some ⟨1⟩ else none

theorem document_crates {token json : String} {document : Serde.Json} (htrim : trim token = token) :
    (crates token json document).document token = some document := by
  unfold JsonCrates.document
  rw [htrim]
  show (match (if token = token then Except.ok (asBytes json) else .error "Invalid padding") with
    | .error _ => none
    | .ok bytes => if bytes = asBytes json then some document else none) = some document
  rw [if_pos rfl]
  exact if_pos rfl

def directDocument : Serde.Json :=
  .obj [("room_id", .str "00000000-0000-0000-0000-000000000001"), ("onion_address", .str "host.example"),
    ("port", .int 9738), ("host_noise_pubkey", .arr (List.replicate 32 (.int 7))),
    ("inviter_fingerprint", .str "AAAAAAAAAAAAAAAAAAAAAAAAAAAAAAAAAAAAAAAA"),
    ("invited_fingerprint", .str "BBBBBBBBBBBBBBBBBBBBBBBBBBBBBBBBBBBBBBBB"), ("role", .str "Member"),
    ("expires_at", .int 2000000000), ("signature", .arr [])]

/-- The fingerprints of an invite that has been made as it should can be used, as its document says. -/
theorem decoded_fingerprints_direct :
    (crates Join.directToken Join.directJson directDocument).NamesFingerprints Join.directToken ∧
      Join.directInvite.inviterFingerprint.Sound ∧ Join.directInvite.invitedFingerprint.Sound := by
  have hdocument : (crates Join.directToken Join.directJson directDocument).document Join.directToken =
      some directDocument := by
    refine document_crates ?_
    unfold Join.directToken
    exact trim_ends 'e' 'Q' _ rfl rfl
  have hinviter : IsFingerprintText Join.directInvite.inviterFingerprint.hex := ⟨rfl, List.all_eq_true.1 rfl⟩
  have hinvited : IsFingerprintText Join.directInvite.invitedFingerprint.hex := ⟨rfl, List.all_eq_true.1 rfl⟩
  have hnames : (crates Join.directToken Join.directJson directDocument).NamesFingerprints Join.directToken :=
    ⟨directDocument, _, hdocument, rfl, ⟨_, rfl, hinviter⟩, _, rfl, hinvited⟩
  exact ⟨hnames,
    (decoded_fingerprints_iff (decodeInvite_eq_ok_iff.2 ⟨directDocument, hdocument, rfl⟩)).2 hnames⟩

@[irreducible] def forgedJson : String :=
  "\x7b\"room_id\":\"00000000-0000-0000-0000-000000000001\",\"onion_address\":\"host.example\"" ++
    ",\"port\":9738,\"host_noise_pubkey\":[],\"inviter_fingerprint\":\"€€€\",\"invited_fingerp" ++
    "rint\":\"BBBBBBBBBBBBBBBBBBBBBBBBBBBBBBBBBBBBBBBB\",\"role\":\"Member\",\"expires_at\":20" ++
    "00000000,\"signature\":[]\x7d"

@[irreducible] def forgedToken : String :=
  "e" ++ (
    "yJyb29tX2lkIjoiMDAwMDAwMDAtMDAwMC0wMDAwLTAwMDAtMDAwMDAwMDAwMDAxIiwib25pb25fYWRkcmVzcyI6Imh" ++
    "vc3QuZXhhbXBsZSIsInBvcnQiOjk3MzgsImhvc3Rfbm9pc2VfcHVia2V5IjpbXSwiaW52aXRlcl9maW5nZXJwcmlud" ++
    "CI6IuKCrOKCrOKCrCIsImludml0ZWRfZmluZ2VycHJpbnQiOiJCQkJCQkJCQkJCQkJCQkJCQkJCQkJCQkJCQkJCQkJ" ++
    "CQkJCQkJCQkJCIiwicm9sZSI6Ik1lbWJlciIsImV4cGlyZXNfYXQiOjIwMDAwMDAwMDAsInNpZ25hdHVyZSI6W11") ++ "9"

/-- The inviter of this invite has a fingerprint of three characters of three bytes. -/
def forgedDocument : Serde.Json :=
  .obj [("room_id", .str "00000000-0000-0000-0000-000000000001"), ("onion_address", .str "host.example"),
    ("port", .int 9738), ("host_noise_pubkey", .arr []), ("inviter_fingerprint", .str "€€€"),
    ("invited_fingerprint", .str "BBBBBBBBBBBBBBBBBBBBBBBBBBBBBBBBBBBBBBBB"), ("role", .str "Member"),
    ("expires_at", .int 2000000000), ("signature", .arr [])]

/-- **A decoded invite with a fingerprint that cannot be shown.** -/
theorem forged_fingerprint : ∃ token,
    decodeInvite (crates forgedToken forgedJson forgedDocument).inviteCrates forgedToken = .ok token ∧
      token.inviterFingerprint.displayBytes = none ∧ ¬ token.inviterFingerprint.Sound := by
  have htrim : trim forgedToken = forgedToken := by
    unfold forgedToken
    exact trim_ends 'e' '9' _ rfl rfl
  refine ⟨_, decodeInvite_eq_ok_iff.2 ⟨forgedDocument, document_crates htrim, rfl⟩, by decide, ?_⟩
  intro h
  exact absurd h.wellFormed (by decide)

end InviteCodec

end Sanctum
