/-
The protobuf messages of the protocol.

Encoding and decoding a message is the business of the protobuf library; what the code relies on is that
decoding inverts encoding, for each type of message.  The wire format of the messages is put together from
the codecs of their fields, which gives a library to run the code with.

Main definitions:

* `Sanctum.Pb` — the messages, with the fields of `sanctum.proto`;
* `Sanctum.PbCodec`, `Sanctum.Prost` — **the library**, for one type of message and for all of them;
* `Sanctum.Prost.wire` — the library for the wire format.
-/

import Sanctum.Protobuf
import Sanctum.ChatLoop
import Sanctum.Wire

set_option relaxedAutoImplicit false
set_option autoImplicit false

namespace Sanctum

/-! ### Messages -/

namespace Pb

structure HandshakeInit where
  protocolVersion : UInt32
  minSupportedVersion : UInt32
  noiseEphemeralKey : Bytes

structure HandshakeResp where
  protocolVersion : UInt32
  noisePayload : Bytes

structure AuthChallenge where
  nonce : Bytes
  timestamp : UInt64
  roomId : String
  serverId : Bytes

structure AuthResponse where
  fingerprint : String
  signature : Bytes
  pgpPublicKey : Bytes
  displayAlias : String

structure RoomConfig where
  maxMembers : UInt32
  backlogMaxMessages : UInt32
  backlogMaxAgeHours : UInt32
  messagePaddingBlock : UInt32

structure MemberInfo where
  fingerprint : String
  displayAlias : String
  role : String
  joinedAt : UInt64

structure PreKeyBundle where
  ownerFingerprint : String
  identityKey : Bytes
  signedPreKey : Bytes
  spkSignature : Bytes
  oneTimePreKeys : List Bytes

structure RoomState where
  roomId : String
  roomName : String
  mode : String
  config : Option RoomConfig
  members : List MemberInfo
  bundles : List PreKeyBundle

structure AuthResult where
  success : Bool
  errorMessage : String
  memberRole : String
  roomState : Option RoomState

structure PublishBundle where
  bundle : Option PreKeyBundle

structure RequestBundle where
  targetFingerprint : String

structure BundleResponse where
  bundle : Option PreKeyBundle
  found : Bool

structure OpkDepleted where
  remaining : UInt32

structure RefreshOpk where
  newOpks : List Bytes

structure RatchetKeyExchange where
  senderFingerprint : String
  recipientFingerprint : String
  identityKey : Bytes
  ephemeralKey : Bytes
  opkId : UInt32
  ciphertext : Bytes

structure AllowMember where
  fingerprint : String
  role : String

structure RevokeMember where
  fingerprint : String

structure PromoteMember where
  fingerprint : String
  newRole : String

structure DemoteMember where
  fingerprint : String
  newRole : String

structure UpdateConfig where
  config : Option RoomConfig

/-- The alternatives of `room_control::Action`. -/
inductive Action
  | allowMember (m : AllowMember)
  | revokeMember (m : RevokeMember)
  | promoteMember (m : PromoteMember)
  | demoteMember (m : DemoteMember)
  | updateConfig (m : UpdateConfig)

structure RoomControl where
  action : Option Action

structure BacklogStart where
  count : UInt32

structure BacklogAck where
  lastSequence : UInt64

structure ProtocolError where
  code : String
  message : String

end Pb

/-! ### The library -/

/-- **What the library does with one type of message**; decoding inverts encoding. -/
structure PbCodec (M : Type) where
  encode : M → Bytes
  /-- The error is the text of the library. -/
  decode : Bytes → Except String M
  decode_encode (m : M) : decode (encode m) = .ok m

/-- **The library**, for each type of message that stands in a frame. -/
structure Prost where
  handshakeInit : PbCodec Pb.HandshakeInit
  handshakeResp : PbCodec Pb.HandshakeResp
  authChallenge : PbCodec Pb.AuthChallenge
  authResponse : PbCodec Pb.AuthResponse
  authResult : PbCodec Pb.AuthResult
  roomMessage : PbCodec RoomMessage
  roomControl : PbCodec Pb.RoomControl
  peerReady : PbCodec PeerReady
  ratchetKeyExchange : PbCodec Pb.RatchetKeyExchange
  publishBundle : PbCodec Pb.PublishBundle
  requestBundle : PbCodec Pb.RequestBundle
  bundleResponse : PbCodec Pb.BundleResponse
  opkDepleted : PbCodec Pb.OpkDepleted
  refreshOpk : PbCodec Pb.RefreshOpk
  backlogStart : PbCodec Pb.BacklogStart
  backlogAck : PbCodec Pb.BacklogAck
  protocolError : PbCodec Pb.ProtocolError

/-! ### The wire format -/

namespace Pb

open Protobuf

def uint32 (field : ℕ) : Segment UInt32 :=
  number (key field 0) UInt32.toNat UInt32.ofNat fun _ => UInt32.ofNat_toNat

def uint64 (field : ℕ) : Segment UInt64 :=
  number (key field 0) UInt64.toNat UInt64.ofNat fun _ => UInt64.ofNat_toNat

def bool (field : ℕ) : Segment Bool :=
  number (key field 0) Bool.toNat (fun n => n ≠ 0) (by decide)

def string (field : ℕ) : Segment String :=
  delimited (key field 2) asBytes (fun bytes => String.fromUTF8? ⟨bytes.toArray⟩) fromUTF8?_asBytes

def bytes (field : ℕ) : Segment Bytes := delimited (key field 2) id some fun _ => rfl

def byteStrings (field : ℕ) : Segment (List Bytes) := repeated (key field 2) id some fun _ => rfl

def message {α : Type} (field : ℕ) (f : Segment α) : Segment (Option α) := optional (key field 2) f

def messages {α : Type} (field : ℕ) (f : Segment α) : Segment (List α) :=
  repeated (key field 2) f.encode f.decodeAll f.decodeAll_encode

def handshakeInit : Segment HandshakeInit :=
  ((uint32 1).pair ((uint32 2).pair (bytes 3) (by decide)) (by decide)).iso
    (fun (a, b, c) => ⟨a, b, c⟩)
    (fun m => (m.protocolVersion, m.minSupportedVersion, m.noiseEphemeralKey)) fun _ => rfl

def handshakeResp : Segment HandshakeResp :=
  ((uint32 1).pair (bytes 2) (by decide)).iso (fun (a, b) => ⟨a, b⟩)
    (fun m => (m.protocolVersion, m.noisePayload)) fun _ => rfl

def authChallenge : Segment AuthChallenge :=
  ((bytes 1).pair ((uint64 2).pair ((string 3).pair (bytes 4) (by decide)) (by decide)) (by decide)).iso
    (fun (a, b, c, d) => ⟨a, b, c, d⟩) (fun m => (m.nonce, m.timestamp, m.roomId, m.serverId)) fun _ => rfl

def authResponse : Segment AuthResponse :=
  ((string 1).pair ((bytes 2).pair ((bytes 3).pair (string 4) (by decide)) (by decide)) (by decide)).iso
    (fun (a, b, c, d) => ⟨a, b, c, d⟩)
    (fun m => (m.fingerprint, m.signature, m.pgpPublicKey, m.displayAlias)) fun _ => rfl

def roomConfig : Segment RoomConfig :=
  ((uint32 1).pair ((uint32 2).pair ((uint32 3).pair (uint32 4) (by decide)) (by decide)) (by decide)).iso
    (fun (a, b, c, d) => ⟨a, b, c, d⟩)
    (fun m => (m.maxMembers, m.backlogMaxMessages, m.backlogMaxAgeHours, m.messagePaddingBlock))
    fun _ => rfl

def memberInfo : Segment MemberInfo :=
  ((string 1).pair ((string 2).pair ((string 3).pair (uint64 4) (by decide)) (by decide)) (by decide)).iso
    (fun (a, b, c, d) => ⟨a, b, c, d⟩)
    (fun m => (m.fingerprint, m.displayAlias, m.role, m.joinedAt)) fun _ => rfl

def preKeyBundle : Segment PreKeyBundle :=
  ((string 1).pair ((bytes 2).pair ((bytes 3).pair ((bytes 4).pair (byteStrings 5) (by decide))
    (by decide)) (by decide)) (by decide)).iso (fun (a, b, c, d, e) => ⟨a, b, c, d, e⟩)
    (fun m => (m.ownerFingerprint, m.identityKey, m.signedPreKey, m.spkSignature, m.oneTimePreKeys))
    fun _ => rfl

def roomState : Segment RoomState :=
  ((string 1).pair ((string 2).pair ((string 3).pair ((message 4 roomConfig).pair
    ((messages 5 memberInfo).pair (messages 6 preKeyBundle) (by decide)) (by decide)) (by decide))
    (by decide)) (by decide)).iso (fun (a, b, c, d, e, f) => ⟨a, b, c, d, e, f⟩)
    (fun m => (m.roomId, m.roomName, m.mode, m.config, m.members, m.bundles)) fun _ => rfl

def authResult : Segment AuthResult :=
  ((bool 1).pair ((string 2).pair ((string 3).pair (message 4 roomState) (by decide)) (by decide))
    (by decide)).iso (fun (a, b, c, d) => ⟨a, b, c, d⟩)
    (fun m => (m.success, m.errorMessage, m.memberRole, m.roomState)) fun _ => rfl

def ratchetHeader : Segment RatchetHeader :=
  ((bytes 1).pair ((uint32 2).pair (uint32 3) (by decide)) (by decide)).iso (fun (a, b, c) => ⟨a, b, c⟩)
    (fun m => (m.dhPublic, m.previousChainLength, m.messageNumber)) fun _ => rfl

def roomMessage : Segment RoomMessage :=
  ((string 1).pair ((uint64 2).pair ((message 3 ratchetHeader).pair ((bytes 4).pair ((bytes 5).pair
    (uint64 6) (by decide)) (by decide)) (by decide)) (by decide)) (by decide)).iso
    (fun (a, b, c, d, e, f) => ⟨a, b, c, d, e, f⟩)
    (fun m => (m.senderFingerprint, m.sequenceNumber, m.ratchetHeader, m.ciphertext, m.nonce,
      m.timestamp)) fun _ => rfl

def allowMember : Segment AllowMember :=
  ((string 1).pair (string 2) (by decide)).iso (fun (a, b) => ⟨a, b⟩)
    (fun m => (m.fingerprint, m.role)) fun _ => rfl

def revokeMember : Segment RevokeMember := (string 1).iso (fun a => ⟨a⟩) (fun m => m.fingerprint) fun _ => rfl

def promoteMember : Segment PromoteMember :=
  ((string 1).pair (string 2) (by decide)).iso (fun (a, b) => ⟨a, b⟩)
    (fun m => (m.fingerprint, m.newRole)) fun _ => rfl

def demoteMember : Segment DemoteMember :=
  ((string 1).pair (string 2) (by decide)).iso (fun (a, b) => ⟨a, b⟩)
    (fun m => (m.fingerprint, m.newRole)) fun _ => rfl

def updateConfig : Segment UpdateConfig :=
  (message 1 roomConfig).iso (fun a => ⟨a⟩) (fun m => m.config) fun _ => rfl

/-- At most one of the alternatives is written. -/
def alternatives : Option Action → Option AllowMember × Option RevokeMember × Option PromoteMember ×
    Option DemoteMember × Option UpdateConfig
  | none => (none, none, none, none, none)
  | some (.allowMember m) => (some m, none, none, none, none)
  | some (.revokeMember m) => (none, some m, none, none, none)
  | some (.promoteMember m) => (none, none, some m, none, none)
  | some (.demoteMember m) => (none, none, none, some m, none)
  | some (.updateConfig m) => (none, none, none, none, some m)

def ofAlternatives : Option AllowMember × Option RevokeMember × Option PromoteMember ×
    Option DemoteMember × Option UpdateConfig → Option Action
  | (some m, _, _, _, _) => some (.allowMember m)
  | (none, some m, _, _, _) => some (.revokeMember m)
  | (none, none, some m, _, _) => some (.promoteMember m)
  | (none, none, none, some m, _) => some (.demoteMember m)
  | (none, none, none, none, some m) => some (.updateConfig m)
  | (none, none, none, none, none) => none

theorem ofAlternatives_alternatives (action : Option Action) :
    ofAlternatives (alternatives action) = action := by
  cases action with
  | none => rfl
  | some action => cases action <;> rfl

def roomControl : Segment RoomControl :=
  ((message 1 allowMember).pair ((message 2 revokeMember).pair ((message 3 promoteMember).pair
    ((message 4 demoteMember).pair (message 5 updateConfig) (by decide)) (by decide)) (by decide))
    (by decide)).iso (fun parts => ⟨ofAlternatives parts⟩) (fun m => alternatives m.action)
    fun m => congrArg RoomControl.mk (ofAlternatives_alternatives m.action)

def peerReady : Segment PeerReady :=
  ((string 1).pair (string 2) (by decide)).iso (fun (a, b) => ⟨a, b⟩)
    (fun m => (m.fingerprint, m.displayAlias)) fun _ => rfl

def ratchetKeyExchange : Segment RatchetKeyExchange :=
  ((string 1).pair ((string 2).pair ((bytes 3).pair ((bytes 4).pair ((uint32 5).pair (bytes 6)
    (by decide)) (by decide)) (by decide)) (by decide)) (by decide)).iso
    (fun (a, b, c, d, e, f) => ⟨a, b, c, d, e, f⟩)
    (fun m => (m.senderFingerprint, m.recipientFingerprint, m.identityKey, m.ephemeralKey, m.opkId,
      m.ciphertext)) fun _ => rfl

def publishBundle : Segment PublishBundle :=
  (message 1 preKeyBundle).iso (fun a => ⟨a⟩) (fun m => m.bundle) fun _ => rfl

def requestBundle : Segment RequestBundle :=
  (string 1).iso (fun a => ⟨a⟩) (fun m => m.targetFingerprint) fun _ => rfl

def bundleResponse : Segment BundleResponse :=
  ((message 1 preKeyBundle).pair (bool 2) (by decide)).iso (fun (a, b) => ⟨a, b⟩)
    (fun m => (m.bundle, m.found)) fun _ => rfl

def opkDepleted : Segment OpkDepleted := (uint32 1).iso (fun a => ⟨a⟩) (fun m => m.remaining) fun _ => rfl

def refreshOpk : Segment RefreshOpk := (byteStrings 1).iso (fun a => ⟨a⟩) (fun m => m.newOpks) fun _ => rfl

def backlogStart : Segment BacklogStart := (uint32 1).iso (fun a => ⟨a⟩) (fun m => m.count) fun _ => rfl

def backlogAck : Segment BacklogAck := (uint64 1).iso (fun a => ⟨a⟩) (fun m => m.lastSequence) fun _ => rfl

example : backlogAck.encode ⟨300⟩ = [0x08, 0xAC, 0x02] := by decide

def protocolError : Segment ProtocolError :=
  ((string 1).pair (string 2) (by decide)).iso (fun (a, b) => ⟨a, b⟩)
    (fun m => (m.code, m.message)) fun _ => rfl

end Pb

/-- The codec of a message from that of its fields. -/
def PbCodec.ofSegment {M : Type} (f : Protobuf.Segment M) : PbCodec M where
  encode := f.encode
  decode bytes :=
    match f.decodeAll bytes with
    | some m => .ok m
    | none => .error "failed to decode Protobuf message"
  decode_encode m := by rw [f.decodeAll_encode m]

/-- **The library for the wire format.** -/
def Prost.wire : Prost where
  handshakeInit := .ofSegment Pb.handshakeInit
  handshakeResp := .ofSegment Pb.handshakeResp
  authChallenge := .ofSegment Pb.authChallenge
  authResponse := .ofSegment Pb.authResponse
  authResult := .ofSegment Pb.authResult
  roomMessage := .ofSegment Pb.roomMessage
  roomControl := .ofSegment Pb.roomControl
  peerReady := .ofSegment Pb.peerReady
  ratchetKeyExchange := .ofSegment Pb.ratchetKeyExchange
  publishBundle := .ofSegment Pb.publishBundle
  requestBundle := .ofSegment Pb.requestBundle
  bundleResponse := .ofSegment Pb.bundleResponse
  opkDepleted := .ofSegment Pb.opkDepleted
  refreshOpk := .ofSegment Pb.refreshOpk
  backlogStart := .ofSegment Pb.backlogStart
  backlogAck := .ofSegment Pb.backlogAck
  protocolError := .ofSegment Pb.protocolError

end Sanctum
