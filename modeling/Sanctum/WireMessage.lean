/-
Typed messages and frames.

A message becomes a frame with the code of its type and the encoding of its contents; three types have no
contents.  The way back is another table, from the codes to the types, and the two tables agree: a message
that is short enough comes back from the bytes of its frame, whatever follows them.

Main definitions:

* `Sanctum.WireMessage` — the messages of the protocol;
* `Sanctum.WireMessage.protoEncode`, `Sanctum.WireMessage.protoDecode` — the two tables.

Main results:

* `Sanctum.WireMessage.protoDecode_protoEncode` — the tables agree, one case for each type;
* `Sanctum.WireMessage.wire_round_trip` — **a message comes back from the bytes of its frame**;
* `Sanctum.WireMessage.readPeerReady_eq_some_iff` — the host reads the messages that the table decodes.
-/

import Sanctum.ProtoMessages
import Sanctum.AuthService
import Sanctum.Codec

set_option relaxedAutoImplicit false
set_option autoImplicit false

namespace Sanctum

/-- **A typed protocol message**, decoded from or ready to encode into a Frame. -/
inductive WireMessage
  | handshakeInit (m : Pb.HandshakeInit)
  | handshakeResp (m : Pb.HandshakeResp)
  | authChallenge (m : Pb.AuthChallenge)
  | authResponse (m : Pb.AuthResponse)
  | authResult (m : Pb.AuthResult)
  | roomMessage (m : RoomMessage)
  | roomControl (m : Pb.RoomControl)
  | peerReady (m : PeerReady)
  | ratchetKeyExchange (m : Pb.RatchetKeyExchange)
  | publishBundle (m : Pb.PublishBundle)
  | requestBundle (m : Pb.RequestBundle)
  | bundleResponse (m : Pb.BundleResponse)
  | opkDepleted (m : Pb.OpkDepleted)
  | refreshOpk (m : Pb.RefreshOpk)
  | backlogStart (m : Pb.BacklogStart)
  | backlogEnd
  | backlogAck (m : Pb.BacklogAck)
  | ping
  | pong
  | protocolError (m : Pb.ProtocolError)

namespace WireMessage

variable (prost : Prost)

/-- Encode a typed WireMessage into a Frame ready for wire transmission. -/
def protoEncode : WireMessage → Except SanctumError Frame
  | .handshakeInit m => .ok ⟨MessageType.handshakeInit, prost.handshakeInit.encode m⟩
  | .handshakeResp m => .ok ⟨MessageType.handshakeResp, prost.handshakeResp.encode m⟩
  | .authChallenge m => .ok ⟨MessageType.authChallenge, prost.authChallenge.encode m⟩
  | .authResponse m => .ok ⟨MessageType.authResponse, prost.authResponse.encode m⟩
  | .authResult m => .ok ⟨MessageType.authResult, prost.authResult.encode m⟩
  | .roomMessage m => .ok ⟨MessageType.roomMessage, prost.roomMessage.encode m⟩
  | .roomControl m => .ok ⟨MessageType.roomControl, prost.roomControl.encode m⟩
  | .peerReady m => .ok ⟨MessageType.peerReady, prost.peerReady.encode m⟩
  | .ratchetKeyExchange m => .ok ⟨MessageType.ratchetKeyExchange, prost.ratchetKeyExchange.encode m⟩
  | .publishBundle m => .ok ⟨MessageType.publishBundle, prost.publishBundle.encode m⟩
  | .requestBundle m => .ok ⟨MessageType.requestBundle, prost.requestBundle.encode m⟩
  | .bundleResponse m => .ok ⟨MessageType.bundleResponse, prost.bundleResponse.encode m⟩
  | .opkDepleted m => .ok ⟨MessageType.opkDepleted, prost.opkDepleted.encode m⟩
  | .refreshOpk m => .ok ⟨MessageType.refreshOpk, prost.refreshOpk.encode m⟩
  | .backlogStart m => .ok ⟨MessageType.backlogStart, prost.backlogStart.encode m⟩
  | .backlogEnd => .ok ⟨MessageType.backlogEnd, []⟩
  | .backlogAck m => .ok ⟨MessageType.backlogAck, prost.backlogAck.encode m⟩
  | .ping => .ok ⟨MessageType.ping, []⟩
  | .pong => .ok ⟨MessageType.pong, []⟩
  | .protocolError m => .ok ⟨MessageType.error, prost.protocolError.encode m⟩

/-- Decode the contents of a message. -/
def decodePb {M : Type} (codec : PbCodec M) (data : Bytes) : Except SanctumError M :=
  (codec.decode data).mapError fun e => .malformedMessage ("protobuf decode: " ++ e)

/-- Decode a Frame into a typed WireMessage. -/
def protoDecode (frame : Frame) : Except SanctumError WireMessage :=
  match frame.messageType with
  | MessageType.handshakeInit => (decodePb prost.handshakeInit frame.payload).map handshakeInit
  | MessageType.handshakeResp => (decodePb prost.handshakeResp frame.payload).map handshakeResp
  | MessageType.authChallenge => (decodePb prost.authChallenge frame.payload).map authChallenge
  | MessageType.authResponse => (decodePb prost.authResponse frame.payload).map authResponse
  | MessageType.authResult => (decodePb prost.authResult frame.payload).map authResult
  | MessageType.roomMessage => (decodePb prost.roomMessage frame.payload).map roomMessage
  | MessageType.roomControl => (decodePb prost.roomControl frame.payload).map roomControl
  | MessageType.peerReady => (decodePb prost.peerReady frame.payload).map peerReady
  | MessageType.ratchetKeyExchange =>
    (decodePb prost.ratchetKeyExchange frame.payload).map ratchetKeyExchange
  | MessageType.publishBundle => (decodePb prost.publishBundle frame.payload).map publishBundle
  | MessageType.requestBundle => (decodePb prost.requestBundle frame.payload).map requestBundle
  | MessageType.bundleResponse => (decodePb prost.bundleResponse frame.payload).map bundleResponse
  | MessageType.opkDepleted => (decodePb prost.opkDepleted frame.payload).map opkDepleted
  | MessageType.refreshOpk => (decodePb prost.refreshOpk frame.payload).map refreshOpk
  | MessageType.backlogStart => (decodePb prost.backlogStart frame.payload).map backlogStart
  | MessageType.backlogEnd => .ok backlogEnd
  | MessageType.backlogAck => (decodePb prost.backlogAck frame.payload).map backlogAck
  | MessageType.ping => .ok ping
  | MessageType.pong => .ok pong
  | MessageType.error => (decodePb prost.protocolError frame.payload).map protocolError
  | unknown => .error (.malformedMessage ("unknown message type: 0x" ++ hexByte unknown))

theorem decodePb_encode {M : Type} (codec : PbCodec M) (m : M) :
    decodePb codec (codec.encode m) = .ok m := by
  rw [decodePb, codec.decode_encode m]
  rfl

/-- **The tables agree**: what a message is encoded as is decoded as that message. -/
theorem protoDecode_protoEncode (m : WireMessage) {frame : Frame} (h : protoEncode prost m = .ok frame) :
    protoDecode prost frame = .ok m := by
  cases m <;> cases h
  case backlogEnd => rfl
  case ping => rfl
  case pong => rfl
  all_goals exact congrArg (Except.map _) (decodePb_encode _ _)

/-- The type of the frame that a message is encoded as. -/
def messageType : WireMessage → UInt8
  | handshakeInit _ => MessageType.handshakeInit
  | handshakeResp _ => MessageType.handshakeResp
  | authChallenge _ => MessageType.authChallenge
  | authResponse _ => MessageType.authResponse
  | authResult _ => MessageType.authResult
  | roomMessage _ => MessageType.roomMessage
  | roomControl _ => MessageType.roomControl
  | peerReady _ => MessageType.peerReady
  | ratchetKeyExchange _ => MessageType.ratchetKeyExchange
  | publishBundle _ => MessageType.publishBundle
  | requestBundle _ => MessageType.requestBundle
  | bundleResponse _ => MessageType.bundleResponse
  | opkDepleted _ => MessageType.opkDepleted
  | refreshOpk _ => MessageType.refreshOpk
  | backlogStart _ => MessageType.backlogStart
  | backlogEnd => MessageType.backlogEnd
  | backlogAck _ => MessageType.backlogAck
  | ping => MessageType.ping
  | pong => MessageType.pong
  | protocolError _ => MessageType.error

/-- **The type of a decoded message is the type of its frame.** -/
theorem messageType_of_protoDecode {m : WireMessage} {frame : Frame} (h : protoDecode prost frame = .ok m) :
    frame.messageType = m.messageType := by
  unfold protoDecode at h
  split at h
  case h_16 htype | h_18 htype | h_19 htype =>
    cases h
    exact htype
  case h_21 => cases h
  all_goals
    next htype =>
      obtain ⟨_, -, rfl⟩ := map_eq_ok.1 h
      exact htype

theorem exists_protoEncode (m : WireMessage) : ∃ frame, protoEncode prost m = .ok frame := by
  cases m <;> exact ⟨_, rfl⟩

/-- **A message comes back from the bytes of its frame**, if its encoding has at most 65535 bytes, and
exactly what follows them stays in the buffer. -/
theorem wire_round_trip (m : WireMessage) : ∃ frame, protoEncode prost m = .ok frame ∧
    (frame.payload.length ≤ 65535 → ∀ r : Bytes,
      decodeFrameInPlace (encodeFrame frame ++ r) = (.ok (some frame), r) ∧
        protoDecode prost frame = .ok m) := by
  obtain ⟨frame, hencode⟩ := exists_protoEncode prost m
  refine ⟨frame, hencode, ?_⟩
  intro hlen r
  refine ⟨?_, protoDecode_protoEncode prost m hencode⟩
  rw [decodeFrameInPlace_eq]
  exact exact_codec.poll_eq_found.2 ⟨rfl, hlen⟩

/-- The challenge of a room. -/
def testMessage : WireMessage := .authChallenge {
  nonce := List.replicate 32 0xAA
  timestamp := 1700000000
  roomId := "test-room"
  serverId := List.replicate 32 0xBB }

/-- A challenge, with the beginning of another frame after it. -/
theorem wire_round_trip_testMessage : ∃ frame, protoEncode .wire testMessage = .ok frame ∧
    decodeFrameInPlace (encodeFrame frame ++ [0, 0, 0]) = (.ok (some frame), [0, 0, 0]) ∧
      protoDecode .wire frame = .ok testMessage := by
  obtain ⟨frame, hencode, hround⟩ := wire_round_trip .wire testMessage
  have hlen : frame.payload.length ≤ 65535 := by
    cases hencode
    decide
  exact ⟨frame, hencode, hround hlen [0, 0, 0]⟩

end WireMessage

/-! ### The messages of the host -/

/-- The messages of the host, encoded and decoded by the library. -/
def Prost.protoCodec (prost : Prost) : ProtoCodec where
  encodePeerReady := prost.peerReady.encode
  decodePeerReady data := (prost.peerReady.decode data).toOption
  decodeAuthResponse data :=
    (prost.authResponse.decode data).map fun m => ⟨m.fingerprint, m.displayAlias⟩
  decode_encode p := by
    rw [prost.peerReady.decode_encode p]
    rfl

namespace WireMessage

/-- The host reads a `PeerReady` exactly when the table decodes one. -/
theorem readPeerReady_eq_some_iff (prost : Prost) {frame : Frame} {p : PeerReady} :
    prost.protoCodec.readPeerReady frame = some p ↔
      protoDecode prost frame = .ok (.peerReady p) := by
  obtain ⟨messageType, payload⟩ := frame
  unfold ProtoCodec.readPeerReady
  dsimp only
  have hread : (prost.peerReady.decode payload).toOption = some p ↔
      prost.peerReady.decode payload = .ok p := by
    cases prost.peerReady.decode payload <;> simp [Except.toOption]
  constructor
  · intro h
    split at h
    · next htype =>
        subst htype
        exact map_eq_ok.2 ⟨p, mapError_eq_ok.2 (hread.1 h), rfl⟩
    · cases h
  · intro h
    obtain rfl : messageType = MessageType.peerReady := messageType_of_protoDecode prost h
    obtain ⟨p', hdecode, hp⟩ := map_eq_ok.1 h
    cases hp
    exact (if_pos rfl).trans (hread.2 (mapError_eq_ok.1 hdecode))

end WireMessage

end Sanctum
