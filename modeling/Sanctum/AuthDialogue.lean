/-
The authentication as the client and the host see it.

The client waits for the challenge, compares the digest in it with the one of the key that it has made
the connection with, and only then says who it is.  Each of the three frames may get lost, at its sender
or on its way.  The two ends agree: whenever the client takes itself for authenticated, so does the host,
with the fingerprint and the alias of the client, and only the loss of the last frame can make a
difference between them.

Main definitions:

* `Sanctum.answerChallenge`, `Sanctum.readAuthResult`, `Sanctum.runAuth` — **the client**;
* `Sanctum.Passage` — what becomes of a frame;
* `Sanctum.AuthDialogue` — the two ends, and what the outside decides.

Main results:

* `Sanctum.AuthDialogue.claimed_eq_ok_iff` — what the host learns;
* `Sanctum.AuthDialogue.authentication_agrees` — **the ends agree**, and a client that has made the
  connection with another key says nothing.
-/

import Sanctum.Admission
import Sanctum.InviteDecoding
import Sanctum.Text
import Sanctum.WireMessage

set_option relaxedAutoImplicit false
set_option autoImplicit false

namespace Sanctum

/-! ### The client -/

/-- The result of a successful authentication, without the transport. -/
structure ConnectedSession where
  fingerprint : Fingerprint
  displayAlias : String
  /-- The role assigned by the host. -/
  role : String
deriving DecidableEq

section

variable (prost : Prost) (sha256 : Bytes → Bytes32) (fingerprint : Fingerprint) (displayAlias : String)
  (hostNoisePubkey : Bytes)

/-- The answer to the frame that should be a challenge. -/
def answerChallenge (challengeFrame : Frame) : Except SanctumError Frame :=
  if challengeFrame.messageType ≠ MessageType.authChallenge then
    .error (.authFailed ("expected AuthChallenge, got 0x" ++ hexByte challengeFrame.messageType))
  else
    match WireMessage.protoDecode prost challengeFrame with
    | .error e => .error e
    | .ok (.authChallenge challenge) =>
      if challenge.serverId ≠ (sha256 hostNoisePubkey).1 then
        .error (.authFailed "server_id mismatch — possible relay attack")
      else
        WireMessage.protoEncode prost (.authResponse {
          fingerprint := fingerprint.hex
          signature := []
          pgpPublicKey := []
          displayAlias := displayAlias })
    | .ok _ => .error (.authFailed "unexpected message")

/-- The session, from the frame that should be the result. -/
def readAuthResult (resultFrame : Frame) : Except SanctumError ConnectedSession :=
  if resultFrame.messageType ≠ MessageType.authResult then
    .error (.authFailed ("expected AuthResult, got 0x" ++ hexByte resultFrame.messageType))
  else
    match WireMessage.protoDecode prost resultFrame with
    | .error e => .error e
    | .ok (.authResult r) =>
      if !r.success then .error (.authFailed r.errorMessage)
      else .ok ⟨fingerprint, displayAlias, r.memberRole⟩
    | .ok _ => .error (.authFailed "unexpected message")

/-- **The authentication at the client**: what it returns, and the frame that it passes to `send_frame`,
if it comes to that.  The first and the last argument are what the two calls of `recv_frame` return. -/
def runAuth (challenge : Except SanctumError Frame) (sent : Except SanctumError Unit)
    (result : Except SanctumError Frame) : Except SanctumError ConnectedSession × Option Frame :=
  match challenge with
  | .error e => (.error e, none)
  | .ok challengeFrame =>
    match answerChallenge prost sha256 fingerprint displayAlias hostNoisePubkey challengeFrame with
    | .error e => (.error e, none)
    | .ok responseFrame =>
      match sent, result with
      | .error e, _ => (.error e, some responseFrame)
      | .ok (), .error e => (.error e, some responseFrame)
      | .ok (), .ok resultFrame =>
        (readAuthResult prost fingerprint displayAlias resultFrame, some responseFrame)

end

/-! ### The two ends -/

/-- **What becomes of a frame**: it cannot be sent, it gets lost on its way, or it arrives.  The errors
are those of the sender and of the receiver. -/
inductive Passage
  | unsent (e e' : SanctumError)
  | lost (e' : SanctumError)
  | arrives

namespace Passage

/-- What `send_frame` returns. -/
def sent : Passage → Except SanctumError Unit
  | .unsent e _ => .error e
  | .lost _ => .ok ()
  | .arrives => .ok ()

/-- What `recv_frame` returns at the other end. -/
def received (frame : Frame) : Passage → Except SanctumError Frame
  | .unsent _ e' => .error e'
  | .lost e' => .error e'
  | .arrives => .ok frame

@[simp] theorem sent_arrives : Passage.arrives.sent = .ok () := rfl

@[simp] theorem received_arrives (frame : Frame) : Passage.arrives.received frame = .ok frame := rfl

/-- A frame that does not arrive leaves its receiver with an error. -/
theorem exists_received_error {p : Passage} (hp : p ≠ .arrives) (frame : Frame) :
    ∃ e, p.received frame = .error e := by
  cases p with
  | unsent e e' => exact ⟨e', rfl⟩
  | lost e' => exact ⟨e', rfl⟩
  | arrives => exact absurd rfl hp

end Passage

/-- **A client and the host**, with what the outside decides. -/
structure AuthDialogue where
  fingerprint : Fingerprint
  displayAlias : String
  /-- The key that the client has made the connection with. -/
  hostNoisePubkey : Bytes
  nonce : Bytes
  challengedAt : UInt64
  admittedAt : UInt64
  verifiedAt : UInt64
  challenge : Passage
  response : Passage
  result : Passage
  /-- What `recv_frame` returns when the other end has given up. -/
  closed : SanctumError

namespace AuthDialogue

variable (prost : Prost) (sha256 : Bytes → Bytes32) (d : AuthDialogue) (host : HostService)
  (auth : AuthService) (hostNoisePubkey : Bytes)

/-- The frame of a challenge. -/
def challengeFrame (challenge : AuthChallenge) : Except SanctumError Frame :=
  WireMessage.protoEncode prost (.authChallenge {
    nonce := challenge.nonce
    timestamp := challenge.timestamp
    roomId := challenge.roomId.asStr
    serverId := challenge.serverId.1 })

/-- The frame of the result; the host sends one only if it has accepted the response. -/
def resultFrame : Except SanctumError Frame :=
  WireMessage.protoEncode prost (.authResult {
    success := true
    errorMessage := ""
    memberRole := "member"
    roomState := none })

/-- What the host receives after a challenge. -/
def reply (challenge : AuthChallenge) : Except SanctumError Frame :=
  (challengeFrame prost challenge).bind fun frame =>
    d.challenge.sent.bind fun _ =>
      match (runAuth prost sha256 d.fingerprint d.displayAlias d.hostNoisePubkey
        (d.challenge.received frame) d.response.sent (.error d.closed)).2 with
      | none => .error d.closed
      | some response => d.response.received response

/-- What the outside decides, for the host. -/
def session : AuthSession where
  nonce := d.nonce
  challengedAt := d.challengedAt
  reply := d.reply prost sha256
  admittedAt := d.admittedAt
  verifiedAt := d.verifiedAt
  result := d.result.sent

/-- The verification that the host makes of the client. -/
def verifyCall : VerifyCall :=
  (d.session prost sha256).verifyCall ⟨prost.protoCodec, sha256⟩ host hostNoisePubkey d.fingerprint
    d.displayAlias

/-- **The authentication at the host.** -/
def hostEnd : Except SanctumError (Fingerprint × String) × HostService × AuthService :=
  authenticateClient ⟨prost.protoCodec, sha256⟩ host auth hostNoisePubkey (d.session prost sha256)

/-- **The authentication at the client.** -/
def clientEnd : Except SanctumError ConnectedSession × Option Frame :=
  let challenge := (d.session prost sha256).challenge ⟨prost.protoCodec, sha256⟩ host hostNoisePubkey
  runAuth prost sha256 d.fingerprint d.displayAlias d.hostNoisePubkey
    ((challengeFrame prost challenge).bind fun frame =>
      d.challenge.received frame)
    d.response.sent
    (match (d.hostEnd prost sha256 host auth hostNoisePubkey).1 with
      | .error _ => .error d.closed
      | .ok _ => (resultFrame prost).bind fun frame => d.result.received frame)

/-- The response of the client. -/
def responseFrame : Frame where
  messageType := MessageType.authResponse
  payload := prost.authResponse.encode {
    fingerprint := d.fingerprint.hex
    signature := []
    pgpPublicKey := []
    displayAlias := d.displayAlias }

variable {prost sha256 d host auth hostNoisePubkey}

/-! ### The frames -/

theorem exists_challengeFrame (prost : Prost) (challenge : AuthChallenge) :
    ∃ frame, challengeFrame prost challenge = .ok frame := WireMessage.exists_protoEncode prost _

theorem exists_resultFrame (prost : Prost) : ∃ frame, resultFrame prost = .ok frame :=
  WireMessage.exists_protoEncode prost _

theorem serverId_challenge (prost : Prost) (sha256 : Bytes → Bytes32) (host : HostService)
    (hostNoisePubkey : Bytes) (session : AuthSession) :
    (session.challenge ⟨prost.protoCodec, sha256⟩ host hostNoisePubkey).serverId =
      sha256 hostNoisePubkey := rfl

/-- The client answers a challenge with the digest of its key, and no other one. -/
theorem answerChallenge_challengeFrame (sha256 : Bytes → Bytes32) (d : AuthDialogue)
    {challenge : AuthChallenge} {frame : Frame} (hframe : challengeFrame prost challenge = .ok frame) :
    answerChallenge prost sha256 d.fingerprint d.displayAlias d.hostNoisePubkey frame =
      if challenge.serverId ≠ sha256 d.hostNoisePubkey then
        .error (.authFailed "server_id mismatch — possible relay attack")
      else .ok (d.responseFrame prost) := by
  have hdecode := WireMessage.protoDecode_protoEncode prost _ hframe
  obtain rfl := Except.ok.inj hframe
  unfold answerChallenge
  rw [if_neg (not_not_intro rfl), hdecode]
  dsimp only
  by_cases hdigest : challenge.serverId = sha256 d.hostNoisePubkey
  · rw [if_neg (not_not_intro hdigest), if_neg (not_not_intro (congrArg Subtype.val hdigest))]
    rfl
  · rw [if_pos hdigest, if_pos fun h => hdigest (Subtype.ext h)]

/-- The host reads the fingerprint and the alias in the response of the client. -/
theorem readAuthResponse_responseFrame {text : String}
    (hfp : Fingerprint.new text = .ok d.fingerprint) :
    readAuthResponse prost.protoCodec (d.responseFrame prost) =
      .ok (d.fingerprint, d.displayAlias) := by
  have htype : (d.responseFrame prost).messageType = MessageType.authResponse := rfl
  unfold readAuthResponse
  rw [if_neg (not_not_intro htype)]
  have hdecode : prost.protoCodec.decodeAuthResponse (d.responseFrame prost).payload =
      .ok ⟨d.fingerprint.hex, d.displayAlias⟩ := by
    unfold Prost.protoCodec responseFrame
    dsimp only
    rw [prost.authResponse.decode_encode]
    rfl
  rw [hdecode]
  dsimp only
  rw [Fingerprint.new_hex (Fingerprint.wellFormed_of_new hfp)]

/-- The client reads its role in the result. -/
theorem readAuthResult_resultFrame {frame : Frame} (hframe : resultFrame prost = .ok frame) :
    readAuthResult prost d.fingerprint d.displayAlias frame =
      .ok ⟨d.fingerprint, d.displayAlias, "member"⟩ := by
  have hdecode := WireMessage.protoDecode_protoEncode prost _ hframe
  obtain rfl := Except.ok.inj hframe
  unfold readAuthResult
  rw [if_neg (not_not_intro rfl), hdecode]
  rfl

/-! ### What each end learns -/

/-- The reply to a challenge that cannot be answered. -/
theorem exists_reply_error (prost : Prost) {challenge : AuthChallenge}
    (h : d.challenge ≠ .arrives ∨ challenge.serverId ≠ sha256 d.hostNoisePubkey) :
    ∃ e, d.reply prost sha256 challenge = .error e := by
  obtain ⟨frame, hframe⟩ := exists_challengeFrame prost challenge
  unfold reply
  rw [hframe, Except.bind]
  cases hchallenge : d.challenge with
  | unsent e e' => exact ⟨e, rfl⟩
  | lost e' => exact ⟨d.closed, rfl⟩
  | arrives =>
      have hdigest := h.resolve_left (not_not_intro hchallenge)
      refine ⟨d.closed, ?_⟩
      have hanswer := answerChallenge_challengeFrame sha256 d hframe
      rw [if_pos hdigest] at hanswer
      simp only [Passage.sent, Passage.received, Except.bind, runAuth, hanswer]

/-- The reply to a challenge with the digest of the client's key. -/
theorem reply_of_arrives {challenge : AuthChallenge} (harrives : d.challenge = .arrives)
    (hdigest : challenge.serverId = sha256 d.hostNoisePubkey) :
    d.reply prost sha256 challenge = d.response.received (d.responseFrame prost) := by
  obtain ⟨frame, hframe⟩ := exists_challengeFrame prost challenge
  have hanswer := answerChallenge_challengeFrame sha256 d hframe
  rw [if_neg (not_not_intro hdigest)] at hanswer
  unfold reply
  rw [hframe, Except.bind, harrives]
  simp only [Passage.sent, Passage.received, Except.bind, runAuth, hanswer]
  cases d.response <;> rfl

/-- **What the host learns**: the fingerprint and the alias of a client with its key, if both frames
arrive, and nothing else. -/
theorem claimed_eq_ok_iff {text : String} (hfp : Fingerprint.new text = .ok d.fingerprint)
    {claim : Fingerprint × String} :
    (d.session prost sha256).claimed ⟨prost.protoCodec, sha256⟩ host hostNoisePubkey = .ok claim ↔
      claim = (d.fingerprint, d.displayAlias) ∧ d.challenge = .arrives ∧ d.response = .arrives ∧
        sha256 hostNoisePubkey = sha256 d.hostNoisePubkey := by
  have hclaimed : (d.session prost sha256).claimed ⟨prost.protoCodec, sha256⟩ host hostNoisePubkey =
      (d.reply prost sha256 ((d.session prost sha256).challenge ⟨prost.protoCodec, sha256⟩ host
        hostNoisePubkey)).bind (readAuthResponse prost.protoCodec) := rfl
  have hserverId := serverId_challenge prost sha256 host hostNoisePubkey (d.session prost sha256)
  rw [hclaimed]
  by_cases hanswers : d.challenge = .arrives ∧ sha256 hostNoisePubkey = sha256 d.hostNoisePubkey
  · obtain ⟨harrives, hdigest⟩ := hanswers
    rw [reply_of_arrives harrives (hserverId.trans hdigest)]
    by_cases hresponse : d.response = .arrives
    · rw [hresponse]
      simp only [Passage.received, Except.bind, readAuthResponse_responseFrame hfp, Except.ok.injEq,
        harrives, hdigest, and_self, and_true]
      exact eq_comm
    · obtain ⟨e, he⟩ := Passage.exists_received_error hresponse (d.responseFrame prost)
      rw [he]
      exact iff_of_false (by simp [Except.bind]) fun h => hresponse h.2.2.1
  · rw [← hserverId] at hanswers
    obtain ⟨e, he⟩ := exists_reply_error prost (not_and_or.1 hanswers)
    rw [he]
    exact iff_of_false (by simp [Except.bind]) fun h => hanswers ⟨h.2.1, h.2.2.2⟩

/-- A client that has made the connection with another key, or that gets no challenge, says nothing. -/
theorem clientEnd_of_not (prost : Prost) (host : HostService) (auth : AuthService)
    (h : d.challenge ≠ .arrives ∨ sha256 hostNoisePubkey ≠ sha256 d.hostNoisePubkey) :
    ∃ e, d.clientEnd prost sha256 host auth hostNoisePubkey = (.error e, none) := by
  obtain ⟨frame, hframe⟩ := exists_challengeFrame prost
    ((d.session prost sha256).challenge ⟨prost.protoCodec, sha256⟩ host hostNoisePubkey)
  unfold clientEnd
  simp only [hframe, Except.bind]
  by_cases harrives : d.challenge = .arrives
  · have hdigest := h.resolve_left (not_not_intro harrives)
    have hanswer := answerChallenge_challengeFrame sha256 d hframe
    rw [serverId_challenge, if_pos hdigest] at hanswer
    simp only [harrives, Passage.received_arrives, runAuth, hanswer]
    exact ⟨_, rfl⟩
  · obtain ⟨e, he⟩ := Passage.exists_received_error harrives frame
    rw [he]
    exact ⟨e, rfl⟩

/-- **What the client learns**, if a challenge with the digest of its key arrives: that the host has
authenticated it, if the result arrives, and nothing else. -/
theorem clientEnd_eq_ok_iff (harrives : d.challenge = .arrives)
    (hdigest : sha256 hostNoisePubkey = sha256 d.hostNoisePubkey) {session : ConnectedSession} :
    (d.clientEnd prost sha256 host auth hostNoisePubkey).1 = .ok session ↔
      session = ⟨d.fingerprint, d.displayAlias, "member"⟩ ∧ d.response.sent = .ok () ∧
        d.result = .arrives ∧
        ∃ claim, (d.hostEnd prost sha256 host auth hostNoisePubkey).1 = .ok claim := by
  obtain ⟨frame, hframe⟩ := exists_challengeFrame prost
    ((d.session prost sha256).challenge ⟨prost.protoCodec, sha256⟩ host hostNoisePubkey)
  obtain ⟨frame', hframe'⟩ := exists_resultFrame prost
  have hanswer := answerChallenge_challengeFrame sha256 d hframe
  rw [serverId_challenge, if_neg (not_not_intro hdigest)] at hanswer
  unfold clientEnd
  simp only [hframe, hframe', Except.bind, harrives, Passage.received_arrives, runAuth, hanswer]
  cases hsent : d.response.sent with
  | error e => simp
  | ok _ =>
      cases hhost : (d.hostEnd prost sha256 host auth hostNoisePubkey).1 with
      | error e => simp
      | ok claim =>
          by_cases hresult : d.result = .arrives
          · simp [hresult, readAuthResult_resultFrame hframe', eq_comm]
          · obtain ⟨e, he⟩ := Passage.exists_received_error hresult frame'
            simp [hresult, he]

/-- The host has authenticated a client if it has learnt of it, accepts it, and can send the result. -/
theorem hostEnd_eq_ok_iff {text : String} (hfp : Fingerprint.new text = .ok d.fingerprint)
    {claim : Fingerprint × String} :
    (d.hostEnd prost sha256 host auth hostNoisePubkey).1 = .ok claim ↔
      claim = (d.fingerprint, d.displayAlias) ∧ d.challenge = .arrives ∧ d.response = .arrives ∧
        sha256 hostNoisePubkey = sha256 d.hostNoisePubkey ∧
        auth.Accepts (d.verifyCall prost sha256 host hostNoisePubkey) ∧ d.result.sent = .ok () := by
  unfold hostEnd verifyCall
  cases hclaimed : (d.session prost sha256).claimed ⟨prost.protoCodec, sha256⟩ host
    hostNoisePubkey with
  | error e =>
      have hnot : ¬ (d.challenge = .arrives ∧ d.response = .arrives ∧
          sha256 hostNoisePubkey = sha256 d.hostNoisePubkey) := by
        intro h
        have hok : (d.session prost sha256).claimed ⟨prost.protoCodec, sha256⟩ host hostNoisePubkey =
            .ok (d.fingerprint, d.displayAlias) := (claimed_eq_ok_iff hfp).2 ⟨rfl, h⟩
        exact absurd (hclaimed.symm.trans hok) (by simp)
      have herror : (authenticateClient ⟨prost.protoCodec, sha256⟩ host auth hostNoisePubkey
          (d.session prost sha256)).1 = .error e := by
        unfold authenticateClient
        rw [hclaimed]
      rw [herror]
      exact iff_of_false (by simp) fun h => hnot ⟨h.2.1, h.2.2.1, h.2.2.2.1⟩
  | ok claim' =>
      obtain ⟨rfl, harrives, hresponse, hdigest⟩ := (claimed_eq_ok_iff hfp).1 hclaimed
      have hresult : (d.session prost sha256).result = d.result.sent := rfl
      simp only [harrives, hresponse, hdigest, true_and]
      unfold authenticateClient
      simp only [hclaimed, hresult]
      rcases auth.verify_cases ((d.session prost sha256).verifyCall ⟨prost.protoCodec, sha256⟩ host
        hostNoisePubkey d.fingerprint d.displayAlias) with
          ⟨haccepts, hverify⟩ | ⟨hrefuses, e, hverify, -⟩
      · rw [hverify]
        cases d.result.sent with
        | error e => simp [Except.map]
        | ok _ => simp [Except.map, haccepts, eq_comm]
      · rw [hverify]
        exact iff_of_false (by simp) fun h => hrefuses h.2.1

/-- **The ends agree.**  The host authenticates the client exactly if the challenge and the response arrive,
the digests of the keys are the same, the response is accepted and the result can be sent, and then under the
fingerprint and the alias of the client; the client takes itself for authenticated exactly if the host has
authenticated it and the result arrives.  A client that has made the connection with a key of another digest
says nothing, and the host is as before. -/
theorem authentication_agrees (prost : Prost) (sha256 : Bytes → Bytes32) (d : AuthDialogue)
    (host : HostService) (auth : AuthService) (hostNoisePubkey : Bytes) {text : String}
    (hfp : Fingerprint.new text = .ok d.fingerprint) :
    (∀ claim, (d.hostEnd prost sha256 host auth hostNoisePubkey).1 = .ok claim ↔
      claim = (d.fingerprint, d.displayAlias) ∧ d.challenge = .arrives ∧ d.response = .arrives ∧
        sha256 hostNoisePubkey = sha256 d.hostNoisePubkey ∧
        auth.Accepts (d.verifyCall prost sha256 host hostNoisePubkey) ∧ d.result.sent = .ok ()) ∧
    (∀ session, (d.clientEnd prost sha256 host auth hostNoisePubkey).1 = .ok session ↔
      session = ⟨d.fingerprint, d.displayAlias, "member"⟩ ∧ d.result = .arrives ∧
        (d.hostEnd prost sha256 host auth hostNoisePubkey).1 =
          .ok (d.fingerprint, d.displayAlias)) ∧
    (sha256 hostNoisePubkey ≠ sha256 d.hostNoisePubkey →
      (d.clientEnd prost sha256 host auth hostNoisePubkey).2 = none ∧
        (d.hostEnd prost sha256 host auth hostNoisePubkey).2 = (host, auth)) := by
  refine ⟨fun claim => hostEnd_eq_ok_iff hfp, fun session => ?_, fun hdigest => ?_⟩
  · by_cases hanswers : d.challenge = .arrives ∧ sha256 hostNoisePubkey = sha256 d.hostNoisePubkey
    · rw [clientEnd_eq_ok_iff hanswers.1 hanswers.2]
      constructor
      · rintro ⟨hsession, -, hresult, claim, hclaim⟩
        obtain ⟨rfl, -⟩ := (hostEnd_eq_ok_iff hfp).1 hclaim
        exact ⟨hsession, hresult, hclaim⟩
      · rintro ⟨hsession, hresult, hclaim⟩
        obtain ⟨-, -, hresponse, -⟩ := (hostEnd_eq_ok_iff hfp).1 hclaim
        exact ⟨hsession, by rw [hresponse, Passage.sent_arrives], hresult, _, hclaim⟩
    · obtain ⟨e, he⟩ := clientEnd_of_not prost host auth (not_and_or.1 hanswers)
      rw [he]
      refine iff_of_false (by simp) fun h => ?_
      obtain ⟨-, harrives, -, hdigest, -⟩ := (hostEnd_eq_ok_iff hfp).1 h.2.2
      exact hanswers ⟨harrives, hdigest⟩
  · obtain ⟨e, he⟩ := clientEnd_of_not prost host auth (.inr hdigest)
    refine ⟨by rw [he], ?_⟩
    unfold hostEnd authenticateClient
    cases hclaimed : (d.session prost sha256).claimed ⟨prost.protoCodec, sha256⟩ host
      hostNoisePubkey with
    | error e => rfl
    | ok claim => exact absurd ((claimed_eq_ok_iff hfp).1 hclaimed).2.2.2 hdigest

/-! ### A client of the test room -/

theorem length_testDigest (key : Bytes) : ((key ++ List.replicate 32 0).take 32).length = 32 := by
  simp

/-- The first 32 bytes of a key. -/
def testDigest (key : Bytes) : Bytes32 :=
  ⟨(key ++ List.replicate 32 0).take 32, length_testDigest key⟩

/-- A member of the test room, with the key of the host. -/
def testDialogue : AuthDialogue where
  fingerprint := HostService.testFp "CC"
  displayAlias := "carol"
  hostNoisePubkey := [1]
  nonce := List.replicate 32 7
  challengedAt := 1700000000
  admittedAt := 1700000001
  verifiedAt := 1700000002
  challenge := .arrives
  response := .arrives
  result := .arrives
  closed := .connectionLost "early eof"

/-- The client takes itself for authenticated, and one that has another key says nothing. -/
theorem authentication_agrees_testDialogue :
    (testDialogue.clientEnd .wire testDigest (.new HostService.testRoom) .new [1]).1 =
        .ok ⟨HostService.testFp "CC", "carol", "member"⟩ ∧
      (testDialogue.clientEnd .wire testDigest (.new HostService.testRoom) .new [2]).2 = none := by
  have hfp : Fingerprint.new (HostService.testFp "CC").hex = .ok testDialogue.fingerprint := by decide
  constructor
  · obtain ⟨-, hclient, -⟩ := authentication_agrees .wire testDigest testDialogue
      (.new HostService.testRoom) .new [1] hfp
    exact (hclient _).2 ⟨rfl, rfl, by decide⟩
  · obtain ⟨-, -, hsilent⟩ := authentication_agrees .wire testDigest testDialogue
      (.new HostService.testRoom) .new [2] hfp
    exact (hsilent (by decide)).1

end AuthDialogue

end Sanctum
