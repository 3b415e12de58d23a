/-
Frames, and the protobuf messages that the host reads and writes.

Encoding and decoding the payloads is the business of the protobuf library; what the listener relies
on is that decoding inverts encoding.  A message of strings is a sequence of length-delimited fields,
and the last part of this module reads and writes such messages, which gives a codec to run the
listener with.

Main definitions:

* `Sanctum.Frame`, `Sanctum.MessageType` — frames and the codes of their types;
* `Sanctum.ProtoCodec` — **the messages of the host, encoded and decoded**;
* `Sanctum.ProtoCodec.wire` — the codec of the wire format.

Main results:

* `Sanctum.readString_encodeString` — reading back what was written.
-/

import Sanctum.Domain
import Sanctum.Protobuf

set_option relaxedAutoImplicit false
set_option autoImplicit false

namespace Sanctum

/-! ### Frames -/

/-- A decoded frame from the wire. -/
structure Frame where
  messageType : UInt8
  payload : Bytes
deriving DecidableEq

namespace MessageType

@[match_pattern] def handshakeInit : UInt8 := 0x01
@[match_pattern] def handshakeResp : UInt8 := 0x02
@[match_pattern] def authChallenge : UInt8 := 0x03
@[match_pattern] def authResponse : UInt8 := 0x04
@[match_pattern] def authResult : UInt8 := 0x05
@[match_pattern] def roomMessage : UInt8 := 0x10
@[match_pattern] def roomControl : UInt8 := 0x11
@[match_pattern] def peerReady : UInt8 := 0x12
@[match_pattern] def ratchetKeyExchange : UInt8 := 0x20
@[match_pattern] def publishBundle : UInt8 := 0x21
@[match_pattern] def requestBundle : UInt8 := 0x22
@[match_pattern] def bundleResponse : UInt8 := 0x23
@[match_pattern] def opkDepleted : UInt8 := 0x24
@[match_pattern] def refreshOpk : UInt8 := 0x25
@[match_pattern] def backlogStart : UInt8 := 0x30
@[match_pattern] def backlogEnd : UInt8 := 0x31
@[match_pattern] def backlogAck : UInt8 := 0x32
@[match_pattern] def ping : UInt8 := 0xFE
@[match_pattern] def pong : UInt8 := 0xFD
@[match_pattern] def error : UInt8 := 0xFF

end MessageType

/-- `codec::pong_frame`. -/
def pongFrame : Frame where
  messageType := MessageType.pong
  payload := []

/-! ### Messages -/

/-- `pb::PeerReady`. -/
structure PeerReady where
  fingerprint : String
  displayAlias : String
deriving DecidableEq

/-- The fields of `pb::AuthResponse` that the host reads. -/
structure PbAuthResponse where
  fingerprint : String
  displayAlias : String
deriving DecidableEq

/-- **The messages of the host, encoded and decoded** by the protobuf library. -/
structure ProtoCodec where
  encodePeerReady : PeerReady → Bytes
  decodePeerReady : Bytes → Option PeerReady
  /-- The error is the text of the library. -/
  decodeAuthResponse : Bytes → Except String PbAuthResponse
  decode_encode : ∀ p, decodePeerReady (encodePeerReady p) = some p

/-- The frame of a `PeerReady`. -/
def ProtoCodec.peerReadyFrame (pb : ProtoCodec) (p : PeerReady) : Frame where
  messageType := MessageType.peerReady
  payload := pb.encodePeerReady p

/-- The `PeerReady` in a frame. -/
def ProtoCodec.readPeerReady (pb : ProtoCodec) (frame : Frame) : Option PeerReady :=
  if frame.messageType = MessageType.peerReady then pb.decodePeerReady frame.payload else none

@[simp] theorem ProtoCodec.readPeerReady_peerReadyFrame (pb : ProtoCodec) (p : PeerReady) :
    pb.readPeerReady (pb.peerReadyFrame p) = some p := by
  unfold readPeerReady peerReadyFrame
  rw [if_pos rfl, pb.decode_encode]

/-! ### The wire format of strings -/

/-- A string field; an empty string is not written. -/
def encodeString (field : ℕ) (text : String) : Bytes :=
  if text = "" then []
  else UInt8.ofNat (8 * field + 2) :: Protobuf.lengthDelimited (asBytes text)

/-- The string of a field, empty if the field is not there. -/
def readString (field : ℕ) : Bytes → Option (String × Bytes)
  | [] => some ("", [])
  | b :: bs =>
    if b = UInt8.ofNat (8 * field + 2) then
      (Protobuf.readDelimited bs).bind fun (bytes, rest) =>
        (String.fromUTF8? ⟨bytes.toArray⟩).map fun text => (text, rest)
    else some ("", b :: bs)

theorem fromUTF8?_asBytes (text : String) :
    String.fromUTF8? ⟨(asBytes text).toArray⟩ = some text := by
  have hbytes : (⟨(asBytes text).toArray⟩ : ByteArray) = text.toByteArray := rfl
  rw [hbytes, String.fromUTF8?, dif_pos text.isValidUTF8]
  rfl

/-- A field is read back, whatever follows it; if it is empty, what follows must not begin with a
field of the same number. -/
theorem readString_encodeString (field : ℕ) (text : String) {rest : Bytes}
    (h : rest.head? ≠ some (UInt8.ofNat (8 * field + 2))) :
    readString field (encodeString field text ++ rest) = some (text, rest) := by
  unfold encodeString
  split
  · next hempty =>
      subst hempty
      cases rest with
      | nil => rfl
      | cons b bs =>
          have hb : ¬ b = UInt8.ofNat (8 * field + 2) := fun heq => h (by rw [heq]; rfl)
          rw [List.nil_append, readString, if_neg hb]
  · rw [List.cons_append, readString, if_pos rfl, Protobuf.readDelimited_lengthDelimited, Option.bind_some]
    simp only [fromUTF8?_asBytes, Option.map_some]

/-- The field numbers of a message are told apart by their first bytes. -/
theorem head?_encodeString_ne {field field' : ℕ} (text : String)
    (h : UInt8.ofNat (8 * field' + 2) ≠ UInt8.ofNat (8 * field + 2)) :
    (encodeString field' text).head? ≠ some (UInt8.ofNat (8 * field + 2)) := by
  unfold encodeString
  split
  · simp
  · simpa using h

/-- **The codec of the wire format.** -/
def ProtoCodec.wire : ProtoCodec where
  encodePeerReady p := encodeString 1 p.fingerprint ++ encodeString 2 p.displayAlias
  decodePeerReady bytes :=
    (readString 1 bytes).bind fun (fingerprint, rest) =>
      (readString 2 rest).map fun (displayAlias, _) => ⟨fingerprint, displayAlias⟩
  decodeAuthResponse bytes :=
    match (readString 1 bytes).bind fun (fingerprint, rest) =>
      (readString 4 rest).map fun (displayAlias, _) => ⟨fingerprint, displayAlias⟩ with
    | some response => .ok response
    | none => .error "invalid value"
  decode_encode := by
    intro p
    have hsecond : readString 2 (encodeString 2 p.displayAlias) = some (p.displayAlias, []) := by
      rw [← List.append_nil (encodeString 2 p.displayAlias)]
      exact readString_encodeString 2 p.displayAlias (by simp)
    rw [readString_encodeString 1 p.fingerprint (head?_encodeString_ne p.displayAlias (by decide)),
      Option.bind_some]
    simp only [hsecond, Option.map_some]

end Sanctum
