/-
The handshake of the encrypted transport.

The client writes the first message of the pattern NK and the host answers with the second one, each in
a frame of its own; then both go over to transport states.  Either end may go on to write at once, so
the bytes of the next frames may be read together with those of the handshake; they stay in the buffer
of the connection, and the encrypted transport begins with them.

Main definitions:

* `Sanctum.SnowBuilder` — the handshake states of the Noise library;
* `Sanctum.NoiseTransport.hostHandshake`, `Sanctum.NoiseTransport.clientHandshake` — **the two sides**;
* `Sanctum.SnowBuilder.Lawful` — what the library promises of the pattern NK;
* `Sanctum.NoiseTransport.Establishes` — an end gets a connection and receives what comes after the
  handshake.

Main results:

* `Sanctum.NoiseTransport.hostHandshake_of_recv`, `Sanctum.NoiseTransport.clientHandshake_of_recv` — what
  an end makes of the frame that it receives;
* `Sanctum.NoiseTransport.handshake_established` — **a client with the key of the host gets a
  connection**, of which both ends receive all frames, however the bytes are cut, and one with another
  key is turned away.
-/

import Sanctum.AuthService
import Sanctum.NoiseLink

set_option relaxedAutoImplicit false
set_option autoImplicit false

namespace Sanctum

/-! ### The handshake states of the Noise library -/

/-- **The builder and the handshake states** of the Noise library, for the pattern of the source.  The
ephemeral key that a message needs is drawn from the last argument of `writeMessage`; the length of the
buffer comes before it. -/
structure SnowBuilder (snow : Snow) where
  HandshakeState : Type
  buildResponder : Bytes → Except String HandshakeState
  buildInitiator : Bytes → Except String HandshakeState
  writeMessage : HandshakeState → Bytes → ℕ → Bytes → Except String Bytes × HandshakeState
  readMessage : HandshakeState → Bytes → ℕ → Except String Bytes × HandshakeState
  isHandshakeFinished : HandshakeState → Bool
  intoTransportMode : HandshakeState → Except String snow.TransportState

variable {snow : Snow}

namespace SnowBuilder

variable (b : SnowBuilder snow)

/-- The length of the buffers. -/
def bufferLen : ℕ := 65535

/-- Host-side: create a responder handshake state. -/
def responder (staticPrivate : Bytes) : Except SanctumError b.HandshakeState :=
  match b.buildResponder staticPrivate with
  | .error text => .error (.malformedMessage ("noise responder: " ++ text))
  | .ok state => .ok state

/-- Client-side: create an initiator handshake state. -/
def initiator (remoteStaticPublic : Bytes) : Except SanctumError b.HandshakeState :=
  match b.buildInitiator remoteStaticPublic with
  | .error text => .error (.malformedMessage ("noise initiator: " ++ text))
  | .ok state => .ok state

/-- Write a handshake message. -/
def write (state : b.HandshakeState) (payload rng : Bytes) :
    Except SanctumError Bytes × b.HandshakeState :=
  match b.writeMessage state payload bufferLen rng with
  | (.error text, state) => (.error (.malformedMessage ("noise write: " ++ text)), state)
  | (.ok message, state) => (.ok message, state)

/-- Read a handshake message. -/
def read (state : b.HandshakeState) (message : Bytes) :
    Except SanctumError Bytes × b.HandshakeState :=
  match b.readMessage state message bufferLen with
  | (.error text, state) => (.error (.malformedMessage ("noise read: " ++ text)), state)
  | (.ok payload, state) => (.ok payload, state)

/-- Convert a completed handshake into a transport state. -/
def intoTransport (state : b.HandshakeState) : Except SanctumError snow.TransportState :=
  match b.intoTransportMode state with
  | .error text => .error (.malformedMessage ("noise transport: " ++ text))
  | .ok noise => .ok noise

/-- The end of both sides. -/
def complete (state : b.HandshakeState) (tcp : TcpTransport) :
    Except SanctumError (NoiseTransport snow) :=
  if b.isHandshakeFinished state then
    (b.intoTransport state).map fun noise => { tcp := tcp, noise := noise }
  else .error (.malformedMessage "Noise handshake did not complete")

/-- **What the library promises of the pattern NK.**  A host with a private key and a client that knows
the public key of it go through the two messages, which are no longer than a frame and have an empty
payload, and end with the states of one session; the host refuses the first message of a client that has
another key. -/
structure Lawful (publicKey : Bytes → Bytes) : Prop where
  builds : ∀ key : Bytes, key.length = 32 →
    (∃ r, b.buildResponder key = .ok r) ∧ ∃ i, b.buildInitiator key = .ok i
  first : ∀ key rng i, b.buildInitiator key = .ok i →
    ∃ m₁ i', b.writeMessage i [] bufferLen rng = (.ok m₁, i') ∧ m₁.length ≤ 65535
  completes : ∀ key rng rng' r i m₁ i', b.buildResponder key = .ok r →
    b.buildInitiator (publicKey key) = .ok i →
    b.writeMessage i [] bufferLen rng = (.ok m₁, i') →
    ∃ (session : snow.Session) (r₁ r₂ i₂ : b.HandshakeState) (m₂ : Bytes),
      b.readMessage r m₁ bufferLen = (.ok [], r₁) ∧
      b.writeMessage r₁ [] bufferLen rng' = (.ok m₂, r₂) ∧ m₂.length ≤ 65535 ∧
      b.readMessage i' m₂ bufferLen = (.ok [], i₂) ∧
      b.isHandshakeFinished r₂ = true ∧ b.isHandshakeFinished i₂ = true ∧
      b.intoTransportMode r₂ = .ok (session.state .host 0 0) ∧
      b.intoTransportMode i₂ = .ok (session.state .client 0 0)
  refuses : ∀ key other rng r i m₁ i', b.buildResponder key = .ok r →
    b.buildInitiator other = .ok i → other ≠ publicKey key →
    b.writeMessage i [] bufferLen rng = (.ok m₁, i') →
    ∃ text r', b.readMessage r m₁ bufferLen = (.error text, r')

end SnowBuilder

/-! ### The two sides -/

namespace NoiseTransport

variable (b : SnowBuilder snow)

/-- **The handshake as the host**: the result, if there is one yet, what it writes, and what the stream
returns later on. -/
def hostHandshake (tcp : TcpTransport) (hostPrivateKey rng : Bytes) (reads : List Read)
    (write : Write) (flush : Except String Unit) :
    Option (Except SanctumError (NoiseTransport snow)) × Bytes × List Read :=
  match b.responder hostPrivateKey with
  | .error e => (some (.error e), [], reads)
  | .ok state =>
    match tcp.recvFrame reads with
    | (none, _, reads) => (none, [], reads)
    | (some (.error e), _, reads) => (some (.error e), [], reads)
    | (some (.ok msg1Frame), tcp, reads) =>
      if msg1Frame.messageType ≠ MessageType.handshakeInit then
        (some (.error (.malformedMessage
          ("expected HandshakeInit (0x01), got 0x" ++ hexByte msg1Frame.messageType))), [], reads)
      else
        match b.read state msg1Frame.payload with
        | (.error e, _) => (some (.error e), [], reads)
        | (.ok _, state) =>
          match b.write state [] rng with
          | (.error e, _) => (some (.error e), [], reads)
          | (.ok msg2, state) =>
            match TcpTransport.sendFrame ⟨MessageType.handshakeResp, msg2⟩ write flush with
            | (.error e, wire) => (some (.error e), wire, reads)
            | (.ok (), wire) => (some (b.complete state tcp), wire, reads)

/-- **The handshake as the client.** -/
def clientHandshake (tcp : TcpTransport) (hostPublicKey rng : Bytes) (reads : List Read)
    (write : Write) (flush : Except String Unit) :
    Option (Except SanctumError (NoiseTransport snow)) × Bytes × List Read :=
  match b.initiator hostPublicKey with
  | .error e => (some (.error e), [], reads)
  | .ok state =>
    match b.write state [] rng with
    | (.error e, _) => (some (.error e), [], reads)
    | (.ok msg1, state) =>
      match TcpTransport.sendFrame ⟨MessageType.handshakeInit, msg1⟩ write flush with
      | (.error e, wire) => (some (.error e), wire, reads)
      | (.ok (), wire) =>
        match tcp.recvFrame reads with
        | (none, _, reads) => (none, wire, reads)
        | (some (.error e), _, reads) => (some (.error e), wire, reads)
        | (some (.ok msg2Frame), tcp, reads) =>
          if msg2Frame.messageType ≠ MessageType.handshakeResp then
            (some (.error (.malformedMessage
              ("expected HandshakeResp (0x02), got 0x" ++ hexByte msg2Frame.messageType))), wire, reads)
          else
            match b.read state msg2Frame.payload with
            | (.error e, _) => (some (.error e), wire, reads)
            | (.ok _, state) => (some (b.complete state tcp), wire, reads)

variable {b} {publicKey : Bytes → Bytes}

theorem complete_of_finished {state : b.HandshakeState} {noise : snow.TransportState}
    (hfinished : b.isHandshakeFinished state = true) (hnoise : b.intoTransportMode state = .ok noise)
    (tcp : TcpTransport) : b.complete state tcp = .ok { tcp := tcp, noise := noise } := by
  simp [SnowBuilder.complete, SnowBuilder.intoTransport, hfinished, hnoise, Except.map]

/-- What the host makes of the first message of the client. -/
theorem hostHandshake_of_recv {tcp tcp' : TcpTransport} {key rng m₁ m₂ : Bytes}
    {reads reads' : List Read} {r r₁ r₂ : b.HandshakeState} {noise : snow.TransportState}
    (hbuild : b.buildResponder key = .ok r)
    (hrecv : tcp.recvFrame reads = (some (.ok ⟨MessageType.handshakeInit, m₁⟩), tcp', reads'))
    (hread : b.readMessage r m₁ SnowBuilder.bufferLen = (.ok [], r₁))
    (hwrite : b.writeMessage r₁ [] SnowBuilder.bufferLen rng = (.ok m₂, r₂))
    (hfinished : b.isHandshakeFinished r₂ = true) (hnoise : b.intoTransportMode r₂ = .ok noise) :
    hostHandshake b tcp key rng reads .ok (.ok ()) =
      (some (.ok { tcp := tcp', noise := noise }),
        encodeFrame ⟨MessageType.handshakeResp, m₂⟩, reads') := by
  simp [hostHandshake, SnowBuilder.responder, hbuild, hrecv, SnowBuilder.read, hread,
    SnowBuilder.write, hwrite, TcpTransport.sendFrame, complete_of_finished hfinished hnoise]

/-- A first message that the library refuses ends the handshake, and nothing is written. -/
theorem hostHandshake_of_refused {tcp tcp' : TcpTransport} {key rng m₁ : Bytes}
    {reads reads' : List Read} {r r₁ : b.HandshakeState} {text : String}
    (hbuild : b.buildResponder key = .ok r)
    (hrecv : tcp.recvFrame reads = (some (.ok ⟨MessageType.handshakeInit, m₁⟩), tcp', reads'))
    (hread : b.readMessage r m₁ SnowBuilder.bufferLen = (.error text, r₁)) (write : Write)
    (flush : Except String Unit) :
    hostHandshake b tcp key rng reads write flush =
      (some (.error (.malformedMessage ("noise read: " ++ text))), [], reads') := by
  simp [hostHandshake, SnowBuilder.responder, hbuild, hrecv, SnowBuilder.read, hread]

/-- What the client makes of the answer of the host. -/
theorem clientHandshake_of_recv {tcp tcp' : TcpTransport} {key rng m₁ m₂ : Bytes}
    {reads reads' : List Read} {i i₁ i₂ : b.HandshakeState} {noise : snow.TransportState}
    (hbuild : b.buildInitiator key = .ok i)
    (hwrite : b.writeMessage i [] SnowBuilder.bufferLen rng = (.ok m₁, i₁))
    (hrecv : tcp.recvFrame reads = (some (.ok ⟨MessageType.handshakeResp, m₂⟩), tcp', reads'))
    (hread : b.readMessage i₁ m₂ SnowBuilder.bufferLen = (.ok [], i₂))
    (hfinished : b.isHandshakeFinished i₂ = true) (hnoise : b.intoTransportMode i₂ = .ok noise) :
    clientHandshake b tcp key rng reads .ok (.ok ()) =
      (some (.ok { tcp := tcp', noise := noise }),
        encodeFrame ⟨MessageType.handshakeInit, m₁⟩, reads') := by
  simp [clientHandshake, SnowBuilder.initiator, hbuild, SnowBuilder.write, hwrite,
    TcpTransport.sendFrame, hrecv, SnowBuilder.read, hread, complete_of_finished hfinished hnoise]

/-- The client writes its first message whatever it reads. -/
theorem clientHandshake_wire {key rng m₁ : Bytes} {i i₁ : b.HandshakeState}
    (hbuild : b.buildInitiator key = .ok i)
    (hwrite : b.writeMessage i [] SnowBuilder.bufferLen rng = (.ok m₁, i₁)) (tcp : TcpTransport)
    (reads : List Read) :
    (clientHandshake b tcp key rng reads .ok (.ok ())).2.1 =
      encodeFrame ⟨MessageType.handshakeInit, m₁⟩ := by
  simp only [clientHandshake, SnowBuilder.initiator, hbuild, SnowBuilder.write, hwrite,
    TcpTransport.sendFrame]
  rcases tcp.recvFrame reads with ⟨_ | e | frame, tcp', reads'⟩
  · rfl
  · rfl
  · dsimp only
    split
    · rfl
    · split <;> rfl

/-! ### From the handshake to the frames -/

/-- **An end gets a connection** once its peer has written `incoming`, and writes `wire` itself; the
frames that the peer writes after that are received, however all these bytes are cut. -/
def Establishes (session : snow.Session) (p : Endpoint)
    (handshake : List Read → Option (Except SanctumError (NoiseTransport snow)) × Bytes × List Read)
    (incoming wire : Bytes) : Prop :=
  ∀ frames : List Frame, (∀ frame ∈ frames, frame.Sealable) →
    ∀ chunks : List Bytes, (∀ bytes ∈ chunks, bytes ≠ []) →
      chunks.flatten = incoming ++ session.wireOf p.peer 0 frames → ∀ later, ∃ t reads',
        handshake (chunks.map .data ++ later) = (some (.ok t), wire, reads') ∧
          t.noise = session.state p 0 0 ∧ ∃ t', t.recvFrames frames.length reads' =
            (frames.map .ok, t', later)

/-- A handshake of which the one frame that it receives decides about the rest. -/
theorem establishes_of_recv {session : snow.Session} {p : Endpoint} {connectionId : ConnId}
    {handshake : List Read → Option (Except SanctumError (NoiseTransport snow)) × Bytes × List Read}
    {frame : Frame} {wire : Bytes} (hfits : frame.Fits)
    (h : ∀ tcp reads reads', (TcpTransport.new connectionId).recvFrame reads =
      (some (.ok frame), tcp, reads') →
        handshake reads = (some (.ok { tcp := tcp, noise := session.state p 0 0 }), wire, reads')) :
    Establishes session p handshake (encodeFrame frame) wire := by
  intro frames hframes chunks hchunks hstream later
  have hstream' : (TcpTransport.new connectionId).readBuf ++ chunks.flatten =
      encodeFrame frame ++ session.wireOf p.peer 0 frames := hstream
  obtain ⟨readBuf, reads', hrecv, htail, hreads'⟩ :=
    TcpTransport.recvFrame_stream hfits hchunks hstream' later
  refine ⟨⟨⟨connectionId, readBuf⟩, session.state p 0 0⟩, reads'.map .data ++ later,
    h _ _ (reads'.map .data ++ later) hrecv, rfl, ⟨⟨connectionId, []⟩, session.state p 0 (0 + messagesOf frames)⟩, ?_⟩
  have ht : (⟨⟨connectionId, readBuf⟩, session.state p 0 0⟩ : NoiseTransport snow).noise =
    session.state p 0 0 := rfl
  exact recvFrames_stream ht hframes hreads' htail later

/-- **The handshake establishes a connection exactly for the key of the host.**  The client writes its
first message at once.  If it has the public key of the host, then both ends get a connection of one
session, whatever else has been read with the messages of the handshake, and each of them receives the
frames that the other one writes from then on; if it has another key, then the host ends with an error
and writes nothing. -/
theorem handshake_established (hb : b.Lawful publicKey) {hostKey clientKey : Bytes}
    (hhost : hostKey.length = 32) (hclient : clientKey.length = 32) (rng rng' : Bytes)
    (connectionId : Endpoint → ConnId) :
    ∃ wire₁ : Bytes,
      (∀ reads, (clientHandshake b (.new (connectionId .client)) clientKey rng reads .ok
        (.ok ())).2.1 = wire₁) ∧
      (clientKey = publicKey hostKey → ∃ (session : snow.Session) (wire₂ : Bytes),
        Establishes session .host (fun reads => hostHandshake b (.new (connectionId .host)) hostKey
          rng' reads .ok (.ok ())) wire₁ wire₂ ∧
        Establishes session .client (fun reads => clientHandshake b (.new (connectionId .client))
          clientKey rng reads .ok (.ok ())) wire₂ wire₁) ∧
      (clientKey ≠ publicKey hostKey → ∀ chunks : List Bytes, (∀ bytes ∈ chunks, bytes ≠ []) →
        chunks.flatten = wire₁ → ∀ later, ∃ e reads',
          hostHandshake b (.new (connectionId .host)) hostKey rng' (chunks.map .data ++ later) .ok
            (.ok ()) = (some (.error e), [], reads')) := by
  obtain ⟨⟨r, hr⟩, -⟩ := hb.builds hostKey hhost
  obtain ⟨-, i, hi⟩ := hb.builds clientKey hclient
  obtain ⟨m₁, i₁, hwrite₁, hfits₁⟩ := hb.first clientKey rng i hi
  refine ⟨_, clientHandshake_wire hi hwrite₁ _, ?_, ?_⟩
  · rintro rfl
    obtain ⟨session, r₁, r₂, i₂, m₂, hread₁, hwrite₂, hfits₂, hread₂, hfinished, hfinished', hnoise,
      hnoise'⟩ := hb.completes hostKey rng rng' r i m₁ i₁ hr hi hwrite₁
    refine ⟨session, encodeFrame ⟨MessageType.handshakeResp, m₂⟩, ?_, ?_⟩
    · exact establishes_of_recv hfits₁ fun tcp reads reads' hrecv =>
        hostHandshake_of_recv hr hrecv hread₁ hwrite₂ hfinished hnoise
    · exact establishes_of_recv hfits₂ fun tcp reads reads' hrecv =>
        clientHandshake_of_recv hi hwrite₁ hrecv hread₂ hfinished' hnoise'
  · intro hne chunks hchunks hstream later
    obtain ⟨text, r₁, hread₁⟩ := hb.refuses hostKey clientKey rng r i m₁ i₁ hr hi hne hwrite₁
    have hstream' : (TcpTransport.new (connectionId .host)).readBuf ++ chunks.flatten =
        encodeFrame ⟨MessageType.handshakeInit, m₁⟩ ++ [] := by
      rw [List.append_nil]
      exact hstream
    have hfits : (⟨MessageType.handshakeInit, m₁⟩ : Frame).Fits := hfits₁
    obtain ⟨readBuf, reads', hrecv, -, -⟩ :=
      TcpTransport.recvFrame_stream hfits hchunks hstream' later
    exact ⟨_, _, hostHandshake_of_refused hr hrecv hread₁ .ok (.ok ())⟩

/-! ### A library with keys of 32 bytes -/

/-- The handshake state of an end: its key, and the messages so far. -/
structure TestState where
  role : Endpoint
  key : Bytes
  messages : ℕ

/-- The public key of a private one. -/
def testPublicKey (key : Bytes) : Bytes := key.map (· + 1)

/-- A library in which the first message is the key of the client, and the second one a byte. -/
def testBuilder : SnowBuilder NoiseLink.testSnow where
  HandshakeState := TestState
  buildResponder key := if key.length = 32 then .ok ⟨.host, key, 0⟩ else .error "bad key"
  buildInitiator key := if key.length = 32 then .ok ⟨.client, key, 0⟩ else .error "bad key"
  writeMessage state _ _ _ :=
    if state.role = .client then (.ok state.key, { state with messages := 1 })
    else (.ok [1], { state with messages := 2 })
  readMessage state message _ :=
    if state.role = .client then (.ok [], { state with messages := 2 })
    else if message = testPublicKey state.key then (.ok [], { state with messages := 1 })
    else (.error "decrypt error", state)
  isHandshakeFinished state := state.messages = 2
  intoTransportMode state := .ok (NoiseLink.testSession.state state.role 0 0)

theorem buildResponder_eq {key : Bytes} {r : TestState}
    (hr : testBuilder.buildResponder key = .ok r) : key.length = 32 ∧ r = ⟨.host, key, 0⟩ := by
  by_cases hkey : key.length = 32
  · exact ⟨hkey, (Except.ok.inj ((if_pos hkey).symm.trans hr)).symm⟩
  · exact absurd ((if_neg hkey).symm.trans hr) (by simp)

theorem buildInitiator_eq {key : Bytes} {i : TestState}
    (hi : testBuilder.buildInitiator key = .ok i) : key.length = 32 ∧ i = ⟨.client, key, 0⟩ := by
  by_cases hkey : key.length = 32
  · exact ⟨hkey, (Except.ok.inj ((if_pos hkey).symm.trans hi)).symm⟩
  · exact absurd ((if_neg hkey).symm.trans hi) (by simp)

theorem testBuilder_lawful : testBuilder.Lawful testPublicKey where
  builds key hkey := ⟨⟨_, if_pos hkey⟩, ⟨_, if_pos hkey⟩⟩
  first key rng i hi := by
    obtain ⟨hkey, rfl⟩ := buildInitiator_eq hi
    exact ⟨key, _, rfl, by omega⟩
  completes key rng rng' r i m₁ i' hr hi hwrite := by
    obtain ⟨-, rfl⟩ := buildResponder_eq hr
    obtain ⟨-, rfl⟩ := buildInitiator_eq hi
    obtain ⟨hm, rfl⟩ := Prod.mk.inj hwrite
    obtain rfl := Except.ok.inj hm
    exact ⟨NoiseLink.testSession, _, _, _, [1], if_pos rfl, rfl, by decide, rfl, rfl, rfl, rfl, rfl⟩
  refuses key other rng r i m₁ i' hr hi hne hwrite := by
    obtain ⟨-, rfl⟩ := buildResponder_eq hr
    obtain ⟨-, rfl⟩ := buildInitiator_eq hi
    obtain ⟨hm, rfl⟩ := Prod.mk.inj hwrite
    obtain rfl := Except.ok.inj hm
    exact ⟨_, _, if_neg hne⟩

theorem length_testPublicKey {key : Bytes} (hkey : key.length = 32) :
    (testPublicKey key).length = 32 := by
  rw [testPublicKey, List.length_map, hkey]

/-- A private key of the host. -/
def testHostKey : Bytes := List.replicate 32 7

theorem length_testHostKey : testHostKey.length = 32 := List.length_replicate

/-- The connections of the two ends. -/
def testConnection : Endpoint → ConnId
  | .host => 1
  | .client => 2

/-- A client with the public key of the host, and one with the private key by mistake. -/
theorem handshake_established_testBuilder :
    (∃ (session : NoiseLink.testSnow.Session) (wire₁ wire₂ : Bytes),
      Establishes session .host (fun reads => hostHandshake testBuilder (.new 1) testHostKey [] reads
        .ok (.ok ())) wire₁ wire₂ ∧
      Establishes session .client (fun reads => clientHandshake testBuilder (.new 2)
        (testPublicKey testHostKey) [] reads .ok (.ok ())) wire₂ wire₁) ∧
    ∃ e reads', hostHandshake testBuilder (.new 1) testHostKey [] [.data (encodeFrame
      ⟨MessageType.handshakeInit, testHostKey⟩)] .ok (.ok ()) = (some (.error e), [], reads') := by
  constructor
  · obtain ⟨wire₁, -, h, -⟩ := handshake_established testBuilder_lawful length_testHostKey
      (length_testPublicKey length_testHostKey) [] [] testConnection
    obtain ⟨session, wire₂, hhost, hclient⟩ := h rfl
    exact ⟨session, wire₁, wire₂, hhost, hclient⟩
  · obtain ⟨wire₁, hwire, -, h⟩ := handshake_established testBuilder_lawful length_testHostKey
      length_testHostKey [] [] testConnection
    obtain rfl : encodeFrame ⟨MessageType.handshakeInit, testHostKey⟩ = wire₁ := hwire []
    refine h (by decide) [_] ?_ (List.append_nil _) []
    intro bytes hbytes hnil
    rw [List.mem_singleton.1 hbytes] at hnil
    exact absurd hnil (by simp [encodeFrame])

end NoiseTransport

end Sanctum
