/-
The text of an invite, from `room invite` to `join`.

An invite is a JSON document in Base64.  The user copies its text, often with spaces and line breaks around
it, and hands it to the invitee, whose `join` takes the blanks off.  The crates for Base64, JSON and UUIDs are
parameters.  Of the first one two things are used: it reads back the bytes that it has written, and what it
writes has no blanks.  So the bytes are the same, and the derived serializers of the fields are the inverses
of the deserializers.

Main definitions:

* `Sanctum.InviteToken.serialize` — the derived serializer of an invite;
* `Sanctum.InviteText`, `Sanctum.InviteCodec.encodeInvite` — the libraries, and the text of an invite;
* `Sanctum.RoomInvite`, `Sanctum.RoomInvite.run` — **`sanctum room invite`**.

Main results:

* `Sanctum.InviteToken.deserialize_serialize` — the fields are read back;
* `Sanctum.InviteCodec.decodeInvite_padded` — **an invite is read back from its text**;
* `Sanctum.RoomInvite.join_invite` — **an invite lets the invitee in, and nobody else**, until it expires, if
  the time of expiry fits in 64 bits.
-/

import Sanctum.Base64
import Sanctum.InviteDecoding
import Sanctum.Text
import Sanctum.Words

set_option relaxedAutoImplicit false
set_option autoImplicit false

namespace Sanctum

/-! ### Blanks around a text -/

/-- The blanks around a text without blanks are taken off. -/
theorem strip_padded {α : Type} {blank : α → Bool} {front text back : List α}
    (hfront : ∀ a ∈ front, blank a = true) (htext : ∀ a ∈ text, blank a = false)
    (hback : ∀ a ∈ back, blank a = true) : Words.strip blank (front ++ text ++ back) = text := by
  unfold Words.strip
  rw [List.append_assoc, List.dropWhile_append_of_pos hfront]
  have hend : ((text ++ back).reverse.dropWhile blank).reverse = text := by
    rw [List.reverse_append, List.dropWhile_append_of_pos fun a ha => hback a (List.mem_reverse.1 ha)]
    cases hlast : text.reverse with
    | nil => rw [List.dropWhile_nil, List.reverse_nil, List.reverse_eq_nil_iff.1 hlast]
    | cons a rest =>
        have ha : a ∈ text := List.mem_reverse.1 (hlast ▸ List.mem_cons_self)
        rw [List.dropWhile_cons_of_neg (by rw [htext a ha]; exact Bool.false_ne_true), ← hlast,
          List.reverse_reverse]
  cases text with
  | nil =>
      rw [List.nil_append, List.dropWhile_eq_nil_iff.2 hback]
      rfl
  | cons a rest =>
      rw [List.cons_append, List.dropWhile_cons_of_neg (by rw [htext a List.mem_cons_self]; exact Bool.false_ne_true),
        ← List.cons_append]
      exact hend

/-- Blanks around a text without blanks do not matter. -/
theorem trim_padded {front text back : String} (hfront : ∀ c ∈ front.toList, isWhitespace c = true)
    (htext : ∀ c ∈ text.toList, isWhitespace c = false) (hback : ∀ c ∈ back.toList, isWhitespace c = true) :
    trim (front ++ text ++ back) = text := by
  have hstrip := strip_padded hfront htext hback
  unfold Words.strip at hstrip
  unfold trim
  rw [String.toList_append, String.toList_append, hstrip, String.ofList_toList]

/-! ### The serializers -/

def Role.serialize : Role → Serde.Json
  | .member => .str "Member"
  | .admin => .str "Admin"
  | .owner => .str "Owner"

def RoomId.serialize (id : RoomId) : Serde.Json := .str id.asStr

def Fingerprint.serialize (fp : Fingerprint) : Serde.Json := .str fp.hex

/-- A vector of bytes, which is a sequence of numbers. -/
def serializeBytes (bytes : Bytes) : Serde.Json := .arr (bytes.map fun b => .int b.toNat)

/-- **The derived serializer.** -/
def InviteToken.serialize (t : InviteToken) : Serde.Json :=
  .obj
    [("room_id", t.roomId.serialize), ("onion_address", .str t.onionAddress), ("port", .int t.port.toNat),
      ("host_noise_pubkey", serializeBytes t.hostNoisePubkey),
      ("inviter_fingerprint", t.inviterFingerprint.serialize),
      ("invited_fingerprint", t.invitedFingerprint.serialize), ("role", t.role.serialize),
      ("expires_at", .int t.expiresAt.toNat), ("signature", serializeBytes t.signature)]

theorem Role.deserialize_serialize (role : Role) : Role.deserialize role.serialize = some role := by
  cases role with
  | member => rfl
  | admin => rfl
  | owner => rfl

/-- A number that fits is read back. -/
theorem uint_int {bits n : ℕ} (h : n < 2 ^ bits) : Serde.uint bits (.int n) = some n := by
  have hbound : (0 : ℤ) ≤ n ∧ (n : ℤ) < 2 ^ bits := ⟨Int.natCast_nonneg n, by exact_mod_cast h⟩
  exact (if_pos hbound).trans (congrArg some (Int.toNat_natCast n))

theorem deserializeBytes_serializeBytes (bytes : Bytes) :
    deserializeBytes (serializeBytes bytes) = some bytes := by
  unfold deserializeBytes serializeBytes Serde.seq
  dsimp only
  induction bytes with
  | nil => rfl
  | cons b bytes ih =>
      rw [List.map_cons, List.mapM_cons, uint_int b.toNat_lt, ih]
      simp

/-- **The fields are read back.** -/
theorem InviteToken.deserialize_serialize {parseUuid : String → Option RoomId} (t : InviteToken)
    (huuid : parseUuid t.roomId.asStr = some t.roomId) :
    InviteToken.deserialize parseUuid t.serialize = some t := by
  have hroom : RoomId.deserialize parseUuid t.roomId.serialize = some t.roomId := huuid
  simp only [InviteToken.deserialize, bind, Option.bind_eq_some_iff]
  refine ⟨_, rfl, t.roomId, ⟨_, rfl, hroom⟩, t.onionAddress, ⟨_, rfl, rfl⟩, t.port.toNat,
    ⟨_, rfl, uint_int t.port.toNat_lt⟩, t.hostNoisePubkey, ⟨_, rfl, deserializeBytes_serializeBytes _⟩,
    t.inviterFingerprint, ⟨_, rfl, rfl⟩, t.invitedFingerprint, ⟨_, rfl, rfl⟩, t.role,
    ⟨_, rfl, Role.deserialize_serialize t.role⟩, t.expiresAt.toNat, ⟨_, rfl, uint_int t.expiresAt.toNat_lt⟩,
    t.signature, ⟨_, rfl, deserializeBytes_serializeBytes _⟩, ?_⟩
  rw [UInt16.ofNat_toNat, UInt64.ofNat_toNat]

/-! ### Texts of invites -/

/-- **The libraries for the text of an invite**: bytes are written in Base64 and read back, documents are
written and parsed, identifiers are parsed, and the errors have texts. -/
structure InviteText where
  base64Encode : Bytes → String
  base64Decode : String → Except String Bytes
  decode_encode : ∀ bytes, base64Decode (base64Encode bytes) = .ok bytes
  encode_solid : ∀ bytes, ∀ c ∈ (base64Encode bytes).toList, isWhitespace c = false
  toVec : Serde.Json → Except String Bytes
  parse : Bytes → Option Serde.Json
  jsonError : Bytes → String
  parseUuid : String → Option RoomId
  uuidError : String → String

namespace InviteText

/-- The libraries that an invite is decoded with. -/
def crates (io : InviteText) : JsonCrates where
  base64 := io.base64Decode
  parse := io.parse
  jsonError := io.jsonError
  parseUuid := io.parseUuid

/-- **The libraries read what they have written**: the document of an invite, and its identifier. -/
structure Reads (io : InviteText) (t : InviteToken) : Prop where
  json : ∃ bytes, io.toVec t.serialize = .ok bytes ∧ io.parse bytes = some t.serialize
  uuid : io.parseUuid t.roomId.asStr = some t.roomId

end InviteText

namespace InviteCodec

variable {io : InviteText}

/-- Encode an InviteToken to a base64url string for sharing. -/
def encodeInvite (io : InviteText) (token : InviteToken) : Except SanctumError String := do
  let json ← (io.toVec token.serialize).mapError fun e => .invalidInviteToken ("serialize: " ++ e)
  .ok (io.base64Encode json)

/-- The text of an invite. -/
theorem encodeInvite_eq {token : InviteToken} {bytes : Bytes} (h : io.toVec token.serialize = .ok bytes) :
    encodeInvite io token = .ok (io.base64Encode bytes) := by
  unfold encodeInvite
  rw [h]
  rfl

/-- **An invite is read back from its text**, with blanks around it or without them. -/
theorem decodeInvite_padded {token : InviteToken} (h : io.Reads token) : ∃ text,
    encodeInvite io token = .ok text ∧ ∀ front back : String,
      (∀ c ∈ front.toList, isWhitespace c = true) → (∀ c ∈ back.toList, isWhitespace c = true) →
        decodeInvite io.crates.inviteCrates (front ++ text ++ back) = .ok token := by
  obtain ⟨bytes, hwrite, hparse⟩ := h.json
  refine ⟨_, encodeInvite_eq hwrite, ?_⟩
  intro front back hfront hback
  refine decodeInvite_eq_ok_iff.2 ⟨token.serialize, ?_, InviteToken.deserialize_serialize token h.uuid⟩
  unfold JsonCrates.document
  rw [trim_padded hfront (io.encode_solid bytes) hback]
  unfold InviteText.crates
  dsimp only
  rw [io.decode_encode]
  exact hparse

end InviteCodec

/-! ### The command -/

/-- The arguments of `sanctum room invite`. -/
structure RoomInvite where
  fingerprint : String
  roomOnion : String
  roomPort : UInt16
  roomId : String
  role : String
  ttlHours : UInt64

/-- What surrounds the command: the stored identity, the two files where the key of the host may be, and the
clock. -/
structure RoomInviteEnv where
  identity : Except SanctumError Fingerprint
  noisePub : Option Bytes
  demoNoisePub : Option Bytes
  now : UInt64

/-- The errors of the command; the first one comes with the hint to run `sanctum init`. -/
inductive RoomInviteError
  | identity (e : SanctumError)
  | invalidFingerprint (e : InvalidFingerprint)
  | invalidRoomId (e : String)
  | failed (e : SanctumError)

namespace RoomInvite

variable (args : RoomInvite) (env : RoomInviteEnv)

/-- `now + (ttl_hours * 3600)`, or `none` where it stops the program. -/
def expiresAt (checks : Bool) (now ttlHours : UInt64) : Option UInt64 :=
  if checks ∧ (2 ^ 64 ≤ ttlHours.toNat * 3600 ∨ 2 ^ 64 ≤ now.toNat + (ttlHours * 3600).toNat) then none
  else some (now + ttlHours * 3600)

/-- The key of the host, or zeros. -/
def hostNoisePubkey : Bytes := (env.noisePub.or env.demoNoisePub).getD (List.replicate 32 0)

/-- The invite that is made. -/
def token (inviter invited : Fingerprint) (rid : RoomId) (expires : UInt64) : InviteToken where
  roomId := rid
  onionAddress := args.roomOnion
  port := args.roomPort
  hostNoisePubkey := hostNoisePubkey env
  inviterFingerprint := inviter
  invitedFingerprint := invited
  role := if args.role = "admin" then .admin else .member
  expiresAt := expires
  signature := []

/-- **Generate an invite token for a member**: its text or an error, or `none` where it stops the program. -/
def run (checks : Bool) (io : InviteText) : Option (Except RoomInviteError String) :=
  match env.identity with
  | .error e => some (.error (.identity e))
  | .ok inviter =>
    match Fingerprint.new args.fingerprint with
    | .error e => some (.error (.invalidFingerprint e))
    | .ok invited =>
      match io.parseUuid args.roomId with
      | none => some (.error (.invalidRoomId (io.uuidError args.roomId)))
      | some rid =>
        match expiresAt checks env.now args.ttlHours with
        | none => none
        | some expires =>
          some ((InviteCodec.encodeInvite io (args.token env inviter invited rid expires)).mapError .failed)

variable {args env} {checks : Bool} {io : InviteText} {inviter invited localFp : Fingerprint} {rid : RoomId}

/-- The time of expiry, if the sum is not too large. -/
theorem expiresAt_of_lt {now ttlHours : UInt64} (h : now.toNat + ttlHours.toNat * 3600 < 2 ^ 64) :
    expiresAt checks now ttlHours = some (now + ttlHours * 3600) ∧
      (now + ttlHours * 3600).toNat = now.toNat + ttlHours.toNat * 3600 := by
  have hmul : (ttlHours * 3600).toNat = ttlHours.toNat * 3600 := by
    rw [UInt64.toNat_mul]
    exact Nat.mod_eq_of_lt (by show ttlHours.toNat * 3600 < 2 ^ 64; omega)
  refine ⟨if_neg ?_, ?_⟩
  · rw [hmul]
    omega
  · rw [UInt64.toNat_add, hmul]
    exact Nat.mod_eq_of_lt h

/-- What a join makes of an invite. -/
theorem join_of_decode {join : JoinEnv} {text : String} {invite : InviteToken}
    (hidentity : join.identity = .ok localFp)
    (hdecode : InviteCodec.decodeInvite join.crates text = .ok invite) (peers : Peers) (config : JoinConfig) :
    Join.run join peers text config =
      if invite.expiresAt < join.now then ([], .error (.failed .inviteTokenExpired))
      else if invite.invitedFingerprint = localFp then
        ((Join.connect join peers config localFp invite).1,
          (Join.connect join peers config localFp invite).2.mapError .failed)
      else ([], .error (.failed (.invalidInviteToken "this invite is not for your fingerprint"))) := by
  unfold Join.run
  rw [hidentity]
  dsimp only
  rw [hdecode]
  unfold InviteCodec.validateInvite InviteToken.isExpired InviteToken.isFor
  by_cases hexpired : invite.expiresAt < join.now
  · simp [hexpired]
  · by_cases hfor : invite.invitedFingerprint = localFp
    · simp [hexpired, hfor]
    · simp [hexpired, hfor]

/-- **An invite lets the invitee in, and nobody else**, until it expires: `join` with the text that
`room invite` has printed, and blanks around it, connects to the host that the invite names if the stored
identity is the one that the invite is for and the lifetime is not over, and dials nobody else.  The time of
expiry has to fit in 64 bits; past that a debug build stops and a release build wraps. -/
theorem join_invite (hinviter : env.identity = .ok inviter)
    (hinvited : Fingerprint.new args.fingerprint = .ok invited) (hroom : io.parseUuid args.roomId = some rid)
    (hfits : env.now.toNat + args.ttlHours.toNat * 3600 < 2 ^ 64)
    (hreads : io.Reads (args.token env inviter invited rid (env.now + args.ttlHours * 3600))) :
    ∃ text, args.run env checks io = some (.ok text) ∧
      ∀ (join : JoinEnv) (front back : String), join.crates = io.crates.inviteCrates →
        join.identity = .ok localFp → (∀ c ∈ front.toList, isWhitespace c = true) →
        (∀ c ∈ back.toList, isWhitespace c = true) → ∀ (peers : Peers) (config : JoinConfig),
          Join.run join peers (front ++ text ++ back) config =
            if env.now.toNat + args.ttlHours.toNat * 3600 < join.now.toNat then
              ([], .error (.failed .inviteTokenExpired))
            else if invited = localFp then
              let session := Join.connect join peers config localFp
                (args.token env inviter invited rid (env.now + args.ttlHours * 3600))
              (session.1, session.2.mapError .failed)
            else ([], .error (.failed
              (.invalidInviteToken "this invite is not for your fingerprint"))) := by
  obtain ⟨hexpires, hvalue⟩ := @expiresAt_of_lt checks env.now args.ttlHours hfits
  obtain ⟨text, hencode, hdecode⟩ := InviteCodec.decodeInvite_padded hreads
  refine ⟨text, ?_, ?_⟩
  · unfold run
    simp only [hinviter, hinvited, hroom, hexpires, hencode]
    rfl
  · intro join front back hcrates hidentity hfront hback peers config
    have hread := hdecode front back hfront hback
    rw [← hcrates] at hread
    rw [join_of_decode hidentity hread peers config, ← hvalue]
    simp only [UInt64.lt_iff_toNat_lt]
    rfl

/-! ### One invite -/

def testArgs : RoomInvite where
  fingerprint := "bbbb bbbb bbbb bbbb bbbb bbbb bbbb bbbb bbbb bbbb"
  roomOnion := "127.0.0.1"
  roomPort := 9738
  roomId := "00000000-0000-0000-0000-000000000001"
  role := "member"
  ttlHours := 24

def testInviteEnv : RoomInviteEnv where
  identity := .ok ⟨"AAAAAAAAAAAAAAAAAAAAAAAAAAAAAAAAAAAAAAAA"⟩
  noisePub := none
  demoNoisePub := none
  now := 1700000000

def testInvited : Fingerprint := ⟨"BBBBBBBBBBBBBBBBBBBBBBBBBBBBBBBBBBBBBBBB"⟩

def testInvite : InviteToken :=
  testArgs.token testInviteEnv ⟨"AAAAAAAAAAAAAAAAAAAAAAAAAAAAAAAAAAAAAAAA"⟩ testInvited ⟨1⟩
    (testInviteEnv.now + testArgs.ttlHours * 3600)

/-- The document of the invite. -/
@[irreducible] def testJson : String :=
  "\x7b\"room_id\":\"00000000-0000-0000-0000-000000000001\",\"onion_address\":\"127.0.0.1\",\"port\":" ++
    "9738,\"host_noise_pubkey\":[" ++ ",".intercalate (List.replicate 32 "0") ++ "],\"inviter_finger" ++
    "print\":\"AAAAAAAAAAAAAAAAAAAAAAAAAAAAAAAAAAAAAAAA\",\"invited_fingerprint\":\"BBBBBBBBBBBBBBBBB" ++
    "BBBBBBBBBBBBBBBBBBBBBBB\",\"role\":\"Member\",\"expires_at\":1700086400,\"signature\":[]\x7d"

/-- The digits of Base64 are no blanks. -/
theorem isWhitespace_urlSafe : ∀ n < 64, isWhitespace (Base64.urlSafe.char n) = false := by decide

/-- The libraries, on this invite. -/
def testIo : InviteText where
  base64Encode bytes := String.ofList (Base64.encode Base64.urlSafe bytes)
  base64Decode text :=
    match Base64.decode Base64.urlSafe text.toList with
    | some bytes => .ok bytes
    | none => .error "Invalid padding"
  decode_encode bytes := by rw [String.toList_ofList, Base64.decode_encode]
  encode_solid bytes c hc := by
    rw [String.toList_ofList] at hc
    obtain ⟨n, hn, rfl⟩ := Base64.mem_encode hc
    exact isWhitespace_urlSafe n hn
  toVec _ := .ok (asBytes testJson)
  parse bytes := if bytes = asBytes testJson then some testInvite.serialize else none
  jsonError _ := "expected value at line 1 column 1"
  parseUuid text := if text = testArgs.roomId then some ⟨1⟩ else none
  uuidError _ := "invalid length"

theorem parseUuid_testIo {text : String} (h : text = testArgs.roomId) : testIo.parseUuid text = some ⟨1⟩ :=
  if_pos h

theorem reads_testInvite : testIo.Reads testInvite where
  json := ⟨asBytes testJson, rfl, if_pos rfl⟩
  uuid := parseUuid_testIo (by decide +kernel)

/-- The invitee, an hour later. -/
def testJoin : JoinEnv :=
  { Join.testEnv with identity := .ok testInvited, crates := testIo.crates.inviteCrates, now := 1700003600 }

theorem join_invite_testInvite : ∃ text, testArgs.run testInviteEnv true testIo = some (.ok text) ∧
    ∀ peers, Join.run testJoin peers ("\n" ++ text ++ "  ") Join.testConfig =
      ((Join.connect testJoin peers Join.testConfig testInvited testInvite).1,
        (Join.connect testJoin peers Join.testConfig testInvited testInvite).2.mapError .failed) := by
  have hinvited : Fingerprint.new testArgs.fingerprint = .ok testInvited := by decide
  have hroom := parseUuid_testIo rfl
  obtain ⟨text, hrun, hjoin⟩ :=
    @join_invite testArgs testInviteEnv true testIo _ _ testInvited _ rfl hinvited hroom (by decide) reads_testInvite
  refine ⟨text, hrun, ?_⟩
  intro peers
  have hrest := hjoin testJoin "\n" "  " rfl rfl (List.all_eq_true.1 (by decide))
    (List.all_eq_true.1 (by decide)) peers Join.testConfig
  rw [if_neg (by decide), if_pos rfl] at hrest
  exact hrest

end RoomInvite

end Sanctum
