/-
The encrypted transport.

After the handshake both ends of a connection encrypt the payloads of their frames with the transport
state of the Noise library, which keeps one counter for each direction.  An empty payload is sent as it
is and moves no counter on either side.  The library takes no plaintext longer than 65519 bytes, so
that a ciphertext, which is 16 bytes longer, is never too long for a frame; a frame that it refuses is
not written and moves no counter.

Main definitions:

* `Sanctum.Snow`, `Sanctum.Snow.Session` — **what the Noise library does** with the two transport states
  of a session;
* `Sanctum.NoiseTransport` — the transport, `send_frame` and `recv_frame`;
* `Sanctum.Snow.Session.wireOf` — what frames in a row are on the wire.

Main results:

* `Sanctum.NoiseTransport.sendFrame_sealable`, `Sanctum.NoiseTransport.sendFrame_long` — a frame is
  sent, or refused;
* `Sanctum.NoiseTransport.recvFrames_stream` — **the calls find the frames that the peer has written**.
-/

import Sanctum.Transport

set_option relaxedAutoImplicit false
set_option autoImplicit false

namespace Sanctum

/-! ### The Noise library -/

/-- The transport state of the Noise library.  The last argument of both operations is the length of
the buffer for the result; the error is the text of the library. -/
structure Snow where
  TransportState : Type
  writeMessage : TransportState → Bytes → ℕ → Except String Bytes × TransportState
  readMessage : TransportState → Bytes → ℕ → Except String Bytes × TransportState

/-- The two ends of a connection. -/
inductive Endpoint
  | host
  | client
deriving DecidableEq

/-- The other end. -/
def Endpoint.peer : Endpoint → Endpoint
  | .host => .client
  | .client => .host

@[simp] theorem Endpoint.peer_peer (p : Endpoint) : p.peer.peer = p := by
  cases p <;> rfl

theorem Endpoint.peer_ne (p : Endpoint) : p.peer ≠ p := by
  cases p <;> simp [peer]

theorem Endpoint.eq_peer_of_ne {p q : Endpoint} (h : q ≠ p) : q = p.peer := by
  cases p <;> cases q <;> simp_all [peer]

/-- **The transport states of a session**, after its handshake. -/
structure Snow.Session (snow : Snow) where
  /-- The state of an end that has sent and received so many messages. -/
  state : Endpoint → ℕ → ℕ → snow.TransportState
  /-- The ciphertext that an end makes of its message with this number. -/
  cipher : Endpoint → ℕ → Bytes → Bytes
  /-- A tag of 16 bytes is appended. -/
  length_cipher : ∀ p n plaintext, (cipher p n plaintext).length = plaintext.length + 16
  write_ok : ∀ p n m plaintext bufLen, plaintext.length ≤ 65519 → plaintext.length + 16 ≤ bufLen →
    snow.writeMessage (state p n m) plaintext bufLen =
      (.ok (cipher p n plaintext), state p (n + 1) m)
  /-- A longer plaintext is refused, and the counter is not advanced. -/
  write_refused : ∀ p n m plaintext bufLen, 65519 < plaintext.length →
    ∃ text, snow.writeMessage (state p n m) plaintext bufLen = (.error text, state p n m)
  /-- The ciphertext of the next message of the peer is decrypted. -/
  read_next : ∀ p n m plaintext bufLen, plaintext.length ≤ 65519 → plaintext.length + 16 ≤ bufLen →
    snow.readMessage (state p n m) (cipher p.peer m plaintext) bufLen =
      (.ok plaintext, state p n (m + 1))
  /-- And nothing else. -/
  read_only : ∀ p n m bytes bufLen plaintext,
    (snow.readMessage (state p n m) bytes bufLen).1 = .ok plaintext →
      bytes = cipher p.peer m plaintext

variable {snow : Snow}

/-- Encrypt a message. -/
def transportEncrypt (transport : snow.TransportState) (plaintext : Bytes) :
    Except SanctumError Bytes × snow.TransportState :=
  match snow.writeMessage transport plaintext (plaintext.length + 16) with
  | (.error text, transport) =>
    (.error (.malformedMessage ("noise encrypt: " ++ text)), transport)
  | (.ok ciphertext, transport) => (.ok ciphertext, transport)

/-- Decrypt a message. -/
def transportDecrypt (transport : snow.TransportState) (ciphertext : Bytes) :
    Except SanctumError Bytes × snow.TransportState :=
  match snow.readMessage transport ciphertext ciphertext.length with
  | (.error _, transport) => (.error .decryptionFailed, transport)
  | (.ok plaintext, transport) => (.ok plaintext, transport)

/-! ### The transport -/

/-- A TCP transport with encrypted payloads. -/
structure NoiseTransport (snow : Snow) where
  tcp : TcpTransport
  noise : snow.TransportState

namespace NoiseTransport

/-- Send a frame: the result, the bytes that the stream takes, and the transport. -/
def sendFrame (t : NoiseTransport snow) (frame : Frame) (write : Write)
    (flush : Except String Unit) : Except SanctumError Unit × Bytes × NoiseTransport snow :=
  let (encrypted, noise) :=
    if frame.payload.isEmpty then (.ok [], t.noise) else transportEncrypt t.noise frame.payload
  match encrypted with
  | .error e => (.error e, [], { t with noise := noise })
  | .ok payload =>
    let (result, wire) := TcpTransport.sendFrame ⟨frame.messageType, payload⟩ write flush
    (result, wire, { t with noise := noise })

/-- Receive a frame, with the transport and what the stream returns later on. -/
def recvFrame (t : NoiseTransport snow) (reads : List Read) :
    Option (Except SanctumError Frame) × NoiseTransport snow × List Read :=
  match t.tcp.recvFrame reads with
  | (none, tcp, reads) => (none, { t with tcp := tcp }, reads)
  | (some (.error e), tcp, reads) => (some (.error e), { t with tcp := tcp }, reads)
  | (some (.ok wireFrame), tcp, reads) =>
    let (decrypted, noise) :=
      if wireFrame.payload.isEmpty then (.ok [], t.noise)
      else transportDecrypt t.noise wireFrame.payload
    (some (decrypted.map fun payload => ⟨wireFrame.messageType, payload⟩),
      { tcp := tcp, noise := noise }, reads)

/-- The results of calls of `recvFrame`, as long as there are some, with the transport and the reads
at the end. -/
def recvFrames : ℕ → NoiseTransport snow → List Read →
    List (Except SanctumError Frame) × NoiseTransport snow × List Read
  | 0, t, reads => ([], t, reads)
  | calls + 1, t, reads =>
    match t.recvFrame reads with
    | (none, t, reads) => ([], t, reads)
    | (some result, t, reads) =>
      let results := recvFrames calls t reads
      (result :: results.1, results.2)

end NoiseTransport

/-! ### Sealed frames -/

/-- The payload is short enough to be encrypted. -/
def Frame.Sealable (frame : Frame) : Prop := frame.payload.length ≤ 65519

instance (frame : Frame) : Decidable frame.Sealable :=
  inferInstanceAs (Decidable (frame.payload.length ≤ 65519))

/-- A frame with an empty payload is its type. -/
theorem Frame.eq_of_isEmpty {frame : Frame} (h : frame.payload.isEmpty = true) :
    ⟨frame.messageType, []⟩ = frame := by
  rw [← List.isEmpty_iff.1 h]

/-- The messages of the Noise library that a frame takes: one, or none for an empty payload. -/
def Frame.messages (frame : Frame) : ℕ := if frame.payload.isEmpty then 0 else 1

/-- The messages that some frames take. -/
def messagesOf (frames : List Frame) : ℕ := (frames.map Frame.messages).sum

@[simp] theorem messagesOf_nil : messagesOf [] = 0 := rfl

@[simp] theorem messagesOf_cons (frame : Frame) (frames : List Frame) :
    messagesOf (frame :: frames) = frame.messages + messagesOf frames := by
  simp [messagesOf]

@[simp] theorem messagesOf_append (frames frames' : List Frame) :
    messagesOf (frames ++ frames') = messagesOf frames + messagesOf frames' := by
  simp [messagesOf]

namespace Snow.Session

variable (session : snow.Session)

/-- The frame on the wire, for the message of an end with this number. -/
def sealFrame (p : Endpoint) (n : ℕ) (frame : Frame) : Frame :=
  if frame.payload.isEmpty then frame
  else ⟨frame.messageType, session.cipher p n frame.payload⟩

/-- The bytes on the wire for some frames in a row. -/
def wireOf (p : Endpoint) : ℕ → List Frame → Bytes
  | _, [] => []
  | n, frame :: frames =>
    encodeFrame (session.sealFrame p n frame) ++ wireOf p (n + frame.messages) frames

theorem wireOf_append (p : Endpoint) (n : ℕ) (frames frames' : List Frame) :
    session.wireOf p n (frames ++ frames') =
      session.wireOf p n frames ++ session.wireOf p (n + messagesOf frames) frames' := by
  induction frames generalizing n with
  | nil => rfl
  | cons frame frames ih =>
      rw [List.cons_append, wireOf, wireOf, ih, messagesOf_cons, List.append_assoc, Nat.add_assoc]

/-- A sealed frame fits: 65519 bytes and the tag make 65535. -/
theorem fits_sealFrame (p : Endpoint) (n : ℕ) {frame : Frame} (h : frame.Sealable) :
    (session.sealFrame p n frame).Fits := by
  unfold Frame.Sealable at h
  unfold sealFrame Frame.Fits
  split
  · omega
  · dsimp only
    rw [session.length_cipher]
    omega

theorem messageType_sealFrame (p : Endpoint) (n : ℕ) (frame : Frame) :
    (session.sealFrame p n frame).messageType = frame.messageType := by
  unfold sealFrame
  split <;> rfl

/-- Nothing but an empty payload is empty on the wire. -/
theorem isEmpty_sealFrame (p : Endpoint) (n : ℕ) (frame : Frame) :
    (session.sealFrame p n frame).payload.isEmpty = frame.payload.isEmpty := by
  unfold sealFrame
  cases hempty : frame.payload.isEmpty with
  | true => simpa using hempty
  | false =>
      have hlength := session.length_cipher p n frame.payload
      rw [if_neg (by simp)]
      refine List.isEmpty_eq_false_iff.2 ?_
      intro hnil
      rw [show session.cipher p n frame.payload = [] from hnil, List.length_nil] at hlength
      omega

variable {session}

theorem transportEncrypt_sealable {p : Endpoint} {n m : ℕ} {plaintext : Bytes}
    (h : plaintext.length ≤ 65519) :
    transportEncrypt (session.state p n m) plaintext =
      (.ok (session.cipher p n plaintext), session.state p (n + 1) m) := by
  unfold transportEncrypt
  rw [session.write_ok p n m plaintext _ h le_rfl]

theorem transportEncrypt_long {p : Endpoint} {n m : ℕ} {plaintext : Bytes}
    (h : 65519 < plaintext.length) :
    ∃ e, transportEncrypt (session.state p n m) plaintext = (.error e, session.state p n m) := by
  obtain ⟨text, hwrite⟩ := session.write_refused p n m plaintext (plaintext.length + 16) h
  refine ⟨.malformedMessage ("noise encrypt: " ++ text), ?_⟩
  unfold transportEncrypt
  rw [hwrite]

theorem transportDecrypt_cipher {p : Endpoint} {n m : ℕ} {plaintext : Bytes}
    (h : plaintext.length ≤ 65519) :
    transportDecrypt (session.state p n m) (session.cipher p.peer m plaintext) =
      (.ok plaintext, session.state p n (m + 1)) := by
  unfold transportDecrypt
  rw [session.read_next p n m plaintext _ h (session.length_cipher p.peer m plaintext).ge]

end Snow.Session

namespace NoiseTransport

variable {session : snow.Session} {t : NoiseTransport snow} {p : Endpoint} {n m : ℕ}

/-- **A frame that can be sealed is sent**, and the counter is advanced if it has a payload. -/
theorem sendFrame_sealable (ht : t.noise = session.state p n m) {frame : Frame}
    (h : frame.Sealable) :
    t.sendFrame frame .ok (.ok ()) = (.ok (), encodeFrame (session.sealFrame p n frame),
      { t with noise := session.state p (n + frame.messages) m }) := by
  unfold sendFrame Frame.messages Snow.Session.sealFrame
  rw [ht]
  cases hempty : frame.payload.isEmpty with
  | true =>
      simp only [if_true, Frame.eq_of_isEmpty hempty]
      rfl
  | false =>
      simp only [Bool.false_eq_true, if_false, Snow.Session.transportEncrypt_sealable h]
      rfl

/-- **A frame that is too long is refused**: nothing is written, and the transport is as before. -/
theorem sendFrame_long (ht : t.noise = session.state p n m) {frame : Frame}
    (h : ¬ frame.Sealable) : ∃ e, t.sendFrame frame .ok (.ok ()) = (.error e, [], t) := by
  have hlong : 65519 < frame.payload.length := not_le.1 h
  have hencrypt : ∃ e, transportEncrypt (session.state p n m) frame.payload =
      (.error e, session.state p n m) := Snow.Session.transportEncrypt_long hlong
  obtain ⟨e, hencrypt⟩ := hencrypt
  have hempty : frame.payload.isEmpty = false := by
    refine List.isEmpty_eq_false_iff.2 ?_
    intro hnil
    rw [hnil] at hlong
    exact absurd hlong (by simp)
  refine ⟨e, ?_⟩
  rw [← ht] at hencrypt
  unfold sendFrame
  simp only [hempty, Bool.false_eq_true, if_false, hencrypt]

/-- What is received from a frame on the wire. -/
theorem recvFrame_of_tcp {reads reads' : List Read} {wireFrame : Frame} {tcp : TcpTransport}
    (h : t.tcp.recvFrame reads = (some (.ok wireFrame), tcp, reads')) : 
    t.recvFrame reads =
      let decrypted := if wireFrame.payload.isEmpty then (.ok [], t.noise)
        else transportDecrypt t.noise wireFrame.payload
      (some (decrypted.1.map fun payload => ⟨wireFrame.messageType, payload⟩),
        { tcp := tcp, noise := decrypted.2 }, reads') := by
  unfold recvFrame
  simp only [h]

/-- **The peer's next frame is received**, and the counter is advanced if it has a payload. -/
theorem recvFrame_sealFrame (ht : t.noise = session.state p n m) {frame : Frame}
    (hframe : frame.Sealable) {reads reads' : List Read} {tcp : TcpTransport}
    (h : t.tcp.recvFrame reads = (some (.ok (session.sealFrame p.peer m frame)), tcp, reads')) :
    t.recvFrame reads = (some (.ok frame),
      { tcp := tcp, noise := session.state p n (m + frame.messages) }, reads') := by
  rw [recvFrame_of_tcp h]
  dsimp only
  rw [session.isEmpty_sealFrame, session.messageType_sealFrame, ht]
  unfold Frame.messages Snow.Session.sealFrame
  cases hempty : frame.payload.isEmpty with
  | true =>
      simp only [if_true, Except.map, Frame.eq_of_isEmpty hempty]
      rfl
  | false =>
      simp only [Bool.false_eq_true, if_false, Snow.Session.transportDecrypt_cipher hframe,
        Except.map]

/-- A call that has nothing to read waits. -/
theorem recvFrame_nil (h : decodeFrame t.tcp.readBuf = .ok none) :
    t.recvFrame [] = (none, t, []) := by
  have htcp : t.tcp.recvFrame [] = (none, t.tcp, []) := by
    rw [TcpTransport.recvFrame.eq_def, h]
  unfold recvFrame
  rw [htcp]

/-- **Receiving at the beginning of what the peer has written**: the next frame is found, and the rest
is left in the buffer and in the reads; or the reads do not reach the end of the frame, and the call
goes on to what is read later. -/
theorem recvFrame_arrived (ht : t.noise = session.state p n m) {frame : Frame}
    (hframe : frame.Sealable) {more : List Frame} {rest : Bytes} {reads : List Bytes}
    (hreads : ∀ bytes ∈ reads, bytes ≠ [])
    (hstream : t.tcp.readBuf ++ reads.flatten ++ rest =
      session.wireOf p.peer m (frame :: more)) (later : List Read) :
    (∃ (readBuf : Bytes) (reads' : List Bytes), t.recvFrame (reads.map .data ++ later) =
        (some (.ok frame),
          ⟨{ t.tcp with readBuf := readBuf }, session.state p n (m + frame.messages)⟩,
          reads'.map .data ++ later) ∧
      readBuf ++ reads'.flatten ++ rest = session.wireOf p.peer (m + frame.messages) more ∧
      ∀ bytes ∈ reads', bytes ≠ []) ∨
    (t.recvFrame (reads.map .data ++ later) = NoiseTransport.recvFrame
        { t with tcp := { t.tcp with readBuf := t.tcp.readBuf ++ reads.flatten } } later ∧
      (t.tcp.readBuf ++ reads.flatten).length < (t.tcp.readBuf ++ reads.flatten ++ rest).length ∧
      decodeFrame (t.tcp.readBuf ++ reads.flatten) = .ok none) := by
  have hfits := session.fits_sealFrame p.peer m hframe
  rcases TcpTransport.recvFrame_arrived hfits hreads hstream later with
    ⟨readBuf, reads', hrecv, htail, hreads'⟩ | ⟨hrecv, hlt, hdecode⟩
  · exact Or.inl ⟨readBuf, reads', recvFrame_sealFrame ht hframe hrecv, htail, hreads'⟩
  · refine Or.inr ⟨?_, ?_, hdecode⟩
    · unfold recvFrame
      rw [hrecv]
    · refine hlt.trans_le ?_
      rw [hstream, Snow.Session.wireOf, List.length_append]
      exact Nat.le_add_right _ _

/-- **The calls find the frames that the peer has written**, whatever the reads return of them. -/
theorem recvFrames_stream (ht : t.noise = session.state p n m) {frames : List Frame}
    (hframes : ∀ frame ∈ frames, frame.Sealable) {reads : List Bytes}
    (hreads : ∀ bytes ∈ reads, bytes ≠ [])
    (hstream : t.tcp.readBuf ++ reads.flatten = session.wireOf p.peer m frames)
    (later : List Read) :
    t.recvFrames frames.length (reads.map .data ++ later) =
      (frames.map .ok,
        ⟨{ t.tcp with readBuf := [] }, session.state p n (m + messagesOf frames)⟩, later) := by
  induction frames generalizing t m reads with
  | nil =>
      obtain ⟨hbuf, hflatten⟩ := List.append_eq_nil_iff.1 hstream
      obtain rfl := Framing.chunks_eq_nil hreads hflatten
      obtain ⟨⟨connectionId, readBuf⟩, noise⟩ := t
      obtain rfl : readBuf = [] := hbuf
      obtain rfl : noise = session.state p n m := ht
      rfl
  | cons frame frames ih =>
      rw [List.forall_mem_cons] at hframes
      have hstream' : t.tcp.readBuf ++ reads.flatten ++ [] =
          session.wireOf p.peer m (frame :: frames) := by
        rw [List.append_nil]
        exact hstream
      rcases recvFrame_arrived ht hframes.1 hreads hstream' later with
        ⟨readBuf, reads', hrecv, hrest, hreads'⟩ | ⟨-, hlt, -⟩
      · rw [List.append_nil] at hrest
        rw [List.length_cons, recvFrames, hrecv]
        dsimp only
        have hnoise : (⟨{ t.tcp with readBuf := readBuf },
            session.state p n (m + frame.messages)⟩ : NoiseTransport snow).noise =
            session.state p n (m + frame.messages) := rfl
        rw [ih hnoise hframes.2 hreads' hrest, messagesOf_cons, Nat.add_assoc]
        rfl
      · rw [List.append_nil] at hlt
        exact absurd hlt (lt_irrefl _)

end NoiseTransport

end Sanctum
