/-
Connections that take frames out of a stream of bytes.

A `TransportConnection` is fed with chunks and asked for the next frame; a `TcpTransport` reads chunks
from its stream until a frame is there.  Both keep what they have read and not yet decoded in a buffer,
and both find the frames that have been sent, however the stream is cut.  Neither refuses to send a frame
that the other side does not take.

Main definitions:

* `Sanctum.TransportConnection` — the buffer of a connection, fed and polled;
* `Sanctum.TcpTransport.sendFrame`, `Sanctum.TcpTransport.recvFrame` — the bytes of a frame are written,
  and the loop reads until a frame is there;
* `Sanctum.Conveyed` — an attempt to send fails without a byte, or leaves what is decoded to the frame.

Main results:

* `Sanctum.TcpTransport.recvFrames_stream` — **the loop finds the frames of a stream**, whatever the
  reads return;
* `Sanctum.framing_independent_of_cuts` — **both find the same frames**, in order and once;
* `Sanctum.frames_conveyed_iff` — **exactly the frames that fit are conveyed**.
-/

import Sanctum.Codec
import Sanctum.HostService

set_option relaxedAutoImplicit false
set_option autoImplicit false

namespace Sanctum

/-! ### The polled connection -/

/-- A connection that is fed and polled. -/
structure TransportConnection where
  id : ℕ
  remoteAddr : String
  readBuf : Bytes
  closed : Bool
deriving DecidableEq

namespace TransportConnection

/-- A new connection, with the next identifier. -/
def new (id : ℕ) (remoteAddr : String) : TransportConnection where
  id := id
  remoteAddr := remoteAddr
  readBuf := []
  closed := false

/-- Feed raw bytes into the read buffer. -/
def feedData (conn : TransportConnection) (data : Bytes) : TransportConnection :=
  { conn with readBuf := conn.readBuf ++ data }

/-- Try to decode the next frame from the read buffer. -/
def tryDecodeFrame (conn : TransportConnection) :
    Except SanctumError (Option Frame) × TransportConnection :=
  if conn.closed then (.error (.connectionLost "connection closed"), conn)
  else
    match decodeFrame conn.readBuf with
    | .error e => (.error e, conn)
    | .ok none => (.ok none, conn)
    | .ok (some (frame, rest)) => (.ok (some frame), { conn with readBuf := rest })

/-- The wire bytes of a frame. -/
def encodeFrame (conn : TransportConnection) (frame : Frame) : Except SanctumError Bytes :=
  if conn.closed then .error (.connectionLost "connection closed")
  else .ok (Sanctum.encodeFrame frame)

/-- Close the connection. -/
def close (conn : TransportConnection) : TransportConnection :=
  { conn with closed := true, readBuf := [] }

/-- The results of the calls of `tryDecodeFrame` between the feeds, and the connection at the end. -/
def run : TransportConnection → List (Framing.Event UInt8) →
    List (Except SanctumError (Option Frame)) × TransportConnection
  | conn, [] => ([], conn)
  | conn, .feed data :: events => run (conn.feedData data) events
  | conn, .poll :: events =>
    let results := run conn.tryDecodeFrame.2 events
    (conn.tryDecodeFrame.1 :: results.1, results.2)

theorem tryDecodeFrame_of_open {conn : TransportConnection} (h : conn.closed = false) :
    conn.tryDecodeFrame = ((Framing.poll decodeFrame conn.readBuf).1,
      { conn with readBuf := (Framing.poll decodeFrame conn.readBuf).2 }) := by
  unfold tryDecodeFrame Framing.poll
  rw [if_neg (by simp [h])]
  rcases decodeFrame conn.readBuf with e | _ | ⟨frame, rest⟩
  · rfl
  · rfl
  · rfl

/-- An open connection is its buffer. -/
theorem run_of_open {conn : TransportConnection} (h : conn.closed = false)
    (events : List (Framing.Event UInt8)) :
    conn.run events = ((Framing.run decodeFrame conn.readBuf events).1,
      { conn with readBuf := (Framing.run decodeFrame conn.readBuf events).2 }) := by
  induction events generalizing conn with
  | nil => rfl
  | cons event events ih =>
      cases event with
      | feed data =>
          have hopen : (conn.feedData data).closed = false := h
          rw [run, ih hopen]
          rfl
      | poll =>
          have hopen : ({ conn with readBuf := (Framing.poll decodeFrame conn.readBuf).2 } :
              TransportConnection).closed = false := h
          rw [run, tryDecodeFrame_of_open h, Framing.run]
          dsimp only
          rw [ih hopen]

end TransportConnection

/-! ### The reading loop -/

/-- What a read from the stream returns: some bytes, none at its end, or an error. -/
inductive Read
  | data (bytes : Bytes)
  | failed (text : String)
deriving DecidableEq

/-- What writing to the stream does: it takes everything, or fails after some bytes. -/
inductive Write
  | ok
  | failed (text : String) (taken : ℕ)

/-- How many of some bytes the stream takes. -/
def Write.takes (write : Write) (length : ℕ) : ℕ :=
  match write with
  | .ok => length
  | .failed _ taken => min taken length

theorem Write.takes_le (write : Write) (length : ℕ) : write.takes length ≤ length := by
  unfold takes
  cases write with
  | ok => exact le_rfl
  | failed text taken => exact Nat.min_le_right taken length

/-- A framed TCP connection. -/
structure TcpTransport where
  connectionId : ConnId
  readBuf : Bytes
deriving DecidableEq

namespace TcpTransport

def new (connectionId : ConnId) : TcpTransport where
  connectionId := connectionId
  readBuf := []

/-- Send a frame: the result, and the bytes that the stream takes. -/
def sendFrame (frame : Frame) (write : Write) (flush : Except String Unit) :
    Except SanctumError Unit × Bytes :=
  let wire := encodeFrame frame
  match write with
  | .failed text taken => (.error (.connectionLost ("write: " ++ text)), wire.take taken)
  | .ok =>
    match flush with
    | .error text => (.error (.connectionLost ("flush: " ++ text)), wire)
    | .ok () => (.ok (), wire)

/-- Receive the next frame: decode from the buffer, else read and try again.  With the result come the
transport and what the stream returns later on; there is no result while it returns nothing. -/
def recvFrame (tcp : TcpTransport) (reads : List Read) :
    Option (Except SanctumError Frame) × TcpTransport × List Read :=
  match decodeFrame tcp.readBuf with
  | .error e => (some (.error e), tcp, reads)
  | .ok (some (frame, rest)) => (some (.ok frame), { tcp with readBuf := rest }, reads)
  | .ok none =>
    match reads with
    | [] => (none, tcp, [])
    | .failed text :: reads => (some (.error (.connectionLost ("read: " ++ text))), tcp, reads)
    | .data [] :: reads => (some (.error (.connectionLost "connection closed")), tcp, reads)
    | .data (b :: bytes) :: reads =>
      recvFrame { tcp with readBuf := tcp.readBuf ++ (b :: bytes) } reads

/-- The results of calls of `recvFrame`, as long as there are some, with the transport and the reads
at the end. -/
def recvFrames : ℕ → TcpTransport → List Read →
    List (Except SanctumError Frame) × TcpTransport × List Read
  | 0, tcp, reads => ([], tcp, reads)
  | calls + 1, tcp, reads =>
    match tcp.recvFrame reads with
    | (none, tcp, reads) => ([], tcp, reads)
    | (some result, tcp, reads) =>
      let results := recvFrames calls tcp reads
      (result :: results.1, results.2)

/-- While there is no frame in the buffer, a read of the loop is put behind it. -/
theorem recvFrame_data {tcp : TcpTransport} (hdecode : decodeFrame tcp.readBuf = .ok none)
    {bytes : Bytes} (hne : bytes ≠ []) (reads : List Read) :
    tcp.recvFrame (.data bytes :: reads) =
      { tcp with readBuf := tcp.readBuf ++ bytes }.recvFrame reads := by
  obtain ⟨b, bytes, rfl⟩ := List.exists_cons_of_ne_nil hne
  rw [recvFrame.eq_def, hdecode]

/-- **The loop at the beginning of a stream**: it finds the first frame, and leaves the rest of the
stream in the buffer and in the reads; or the reads do not reach the end of the frame, and the loop
goes on to what is read later. -/
theorem recvFrame_arrived {frame : Frame} (hfits : frame.Fits) {tail rest : Bytes}
    {reads : List Bytes} (hreads : ∀ bytes ∈ reads, bytes ≠ []) {tcp : TcpTransport}
    (hstream : tcp.readBuf ++ reads.flatten ++ rest = encodeFrame frame ++ tail)
    (later : List Read) :
    (∃ (readBuf : Bytes) (reads' : List Bytes), tcp.recvFrame (reads.map .data ++ later) =
        (some (.ok frame), { tcp with readBuf := readBuf }, reads'.map .data ++ later) ∧
      readBuf ++ reads'.flatten ++ rest = tail ∧ ∀ bytes ∈ reads', bytes ≠ []) ∨
    (tcp.recvFrame (reads.map .data ++ later) =
        { tcp with readBuf := tcp.readBuf ++ reads.flatten }.recvFrame later ∧
      (tcp.readBuf ++ reads.flatten).length < (encodeFrame frame).length ∧
      decodeFrame (tcp.readBuf ++ reads.flatten) = .ok none) := by
  induction reads generalizing tcp with
  | nil =>
      rw [List.flatten_nil, List.append_nil] at hstream ⊢
      rcases lawful_codec.decode_arrived hfits hstream with ⟨buf, -, hbuf, hdecode⟩ | ⟨hlt, hdecode⟩
      · refine Or.inl ⟨buf, [], ?_, ?_, hreads⟩
        · rw [recvFrame.eq_def, hdecode]
        · rw [List.flatten_nil, List.append_nil]
          exact hbuf
      · exact Or.inr ⟨rfl, hlt, hdecode⟩
  | cons bytes reads ih =>
      have hstart : tcp.readBuf ++ ((bytes :: reads).flatten ++ rest) = encodeFrame frame ++ tail := by
        rw [← List.append_assoc]
        exact hstream
      rcases lawful_codec.decode_arrived hfits hstart with ⟨buf, -, hbuf, hdecode⟩ | ⟨-, hdecode⟩
      · refine Or.inl ⟨buf, bytes :: reads, ?_, ?_, hreads⟩
        · rw [recvFrame.eq_def, hdecode]
        · rw [List.append_assoc]
          exact hbuf
      · rw [List.forall_mem_cons] at hreads
        have hstream' : ({ tcp with readBuf := tcp.readBuf ++ bytes } : TcpTransport).readBuf ++
            reads.flatten ++ rest = encodeFrame frame ++ tail := by
          rw [List.append_assoc tcp.readBuf, ← List.flatten_cons]
          exact hstream
        rw [List.map_cons, List.cons_append, recvFrame_data hdecode hreads.1, List.flatten_cons,
          ← List.append_assoc]
        exact ih hreads.2 hstream'

/-- **The loop finds the next frame of a stream** that the reads return to its end. -/
theorem recvFrame_stream {frame : Frame} (hfits : frame.Fits) {tail : Bytes} {reads : List Bytes}
    (hreads : ∀ bytes ∈ reads, bytes ≠ []) {tcp : TcpTransport}
    (hstream : tcp.readBuf ++ reads.flatten = encodeFrame frame ++ tail) (later : List Read) :
    ∃ (readBuf : Bytes) (reads' : List Bytes), tcp.recvFrame (reads.map .data ++ later) =
        (some (.ok frame), { tcp with readBuf := readBuf }, reads'.map .data ++ later) ∧
      readBuf ++ reads'.flatten = tail ∧ ∀ bytes ∈ reads', bytes ≠ [] := by
  have hstream' : tcp.readBuf ++ reads.flatten ++ [] = encodeFrame frame ++ tail := by
    rw [List.append_nil]
    exact hstream
  rcases recvFrame_arrived hfits hreads hstream' later with
    ⟨readBuf, reads', hrecv, htail, hreads'⟩ | ⟨-, hlt, -⟩
  · rw [List.append_nil] at htail
    exact ⟨readBuf, reads', hrecv, htail, hreads'⟩
  · rw [hstream, List.length_append] at hlt
    omega

/-- **The calls find the frames of a stream**, in order and once, and leave alone what comes after
it. -/
theorem recvFrames_stream {frames : List Frame} (hfits : ∀ frame ∈ frames, frame.Fits)
    {reads : List Bytes} (hreads : ∀ bytes ∈ reads, bytes ≠ []) {tcp : TcpTransport}
    (hstream : tcp.readBuf ++ reads.flatten = Framing.stream encodeFrame frames)
    (later : List Read) :
    tcp.recvFrames frames.length (reads.map .data ++ later) =
      (frames.map .ok, { tcp with readBuf := [] }, later) := by
  induction frames generalizing tcp reads with
  | nil =>
      obtain ⟨hbuf, hflatten⟩ := List.append_eq_nil_iff.1 hstream
      obtain rfl := Framing.chunks_eq_nil hreads hflatten
      obtain ⟨connectionId, readBuf⟩ := tcp
      obtain rfl : readBuf = [] := hbuf
      rfl
  | cons frame frames ih =>
      rw [List.forall_mem_cons] at hfits
      obtain ⟨readBuf, reads', hrecv, hrest, hreads'⟩ :=
        recvFrame_stream hfits.1 hreads hstream later
      have hrest' : ({ tcp with readBuf := readBuf } : TcpTransport).readBuf ++ reads'.flatten =
          Framing.stream encodeFrame frames := hrest
      rw [List.length_cons, recvFrames, hrecv]
      dsimp only
      rw [ih hfits.2 hreads' hrest']
      rfl

end TcpTransport

/-- **Framing does not depend on the cuts.**  The encodings of frames that fit are fed in any chunks,
with any number of attempts between them and enough at the end: each attempt finds the next frame if
all of it has arrived and nothing otherwise, the frames are found in order and once, and the buffer is
empty at the end.  The reading loop finds the same frames, whatever the reads return. -/
theorem framing_independent_of_cuts {frames : List Frame}
    (hfits : ∀ frame ∈ frames, frame.payload.length ≤ 65535) {events : List (Framing.Event UInt8)}
    (hfed : Framing.fed events = Framing.stream encodeFrame frames) {polls : ℕ}
    (hpolls : (Framing.expected encodeFrame frames 0 events).2.length ≤ polls)
    (id : ℕ) (remoteAddr : String) {reads : List Bytes} (hreads : ∀ bytes ∈ reads, bytes ≠ [])
    (hread : reads.flatten = Framing.stream encodeFrame frames) (connectionId : ConnId)
    (later : List Read) :
    ((TransportConnection.new id remoteAddr).run (events ++ List.replicate polls .poll)).1 =
        (Framing.expected encodeFrame frames 0 (events ++ List.replicate polls .poll)).1.map .ok ∧
      Framing.found
          (Framing.expected encodeFrame frames 0 (events ++ List.replicate polls .poll)).1 = frames ∧
      ((TransportConnection.new id remoteAddr).run
        (events ++ List.replicate polls .poll)).2.readBuf = [] ∧
      (TcpTransport.new connectionId).recvFrames frames.length (reads.map .data ++ later) =
        (frames.map .ok, TcpTransport.new connectionId, later) := by
  have hfed' : Framing.fed (events ++ List.replicate polls .poll) =
      Framing.stream encodeFrame frames := by
    rw [Framing.fed_append, Framing.fed_replicate_poll, List.append_nil, hfed]
  have hrun := lawful_codec.run_eq_expected hfits (show [] ++ Framing.fed _ = _ from hfed')
  have hdrained := lawful_codec.run_drained hfits (show [] ++ Framing.fed _ = _ from hfed) hpolls
  rw [TransportConnection.run_of_open rfl]
  have hempty : (Framing.run decodeFrame [] (events ++ List.replicate polls .poll)).2 = [] := by
    rw [hdrained]
  have hleft : (Framing.expected encodeFrame frames 0 (events ++ List.replicate polls .poll)).2 =
      [] := by
    rw [hrun] at hempty
    exact (Framing.stream_eq_nil encodeFrame_ne_nil).1 hempty
  refine ⟨congrArg Prod.fst hrun, ?_, hempty, ?_⟩
  · have hsplit := Framing.found_append_left encodeFrame frames 0
      (events ++ List.replicate polls .poll)
    rw [hleft, List.append_nil] at hsplit
    exact hsplit
  · exact TcpTransport.recvFrames_stream hfits hreads (show [] ++ reads.flatten = _ from hread) later

/-- Two frames, the second without a payload. -/
def testFrames : List Frame := [⟨MessageType.roomMessage, [1, 2, 3, 4, 5]⟩, ⟨MessageType.ping, []⟩]

/-- Their encodings, cut inside a length and inside a payload, with an empty chunk. -/
def testCuts : List (Framing.Event UInt8) :=
  [.feed [0, 0], .poll, .feed [], .poll, .feed [0, 6, MessageType.roomMessage, 1, 2, 3], .poll,
    .feed [4, 5, 0, 0, 0, 1], .feed [MessageType.ping]]

theorem framing_independent_of_cuts_testCuts :
    ((TransportConnection.new 1 "test.onion").run (testCuts ++ List.replicate 3 .poll)).1 =
        [.ok none, .ok none, .ok none, .ok (some ⟨MessageType.roomMessage, [1, 2, 3, 4, 5]⟩),
          .ok (some ⟨MessageType.ping, []⟩), .ok none] ∧
      ((TransportConnection.new 1 "test.onion").run
        (testCuts ++ List.replicate 3 .poll)).2.readBuf = [] ∧
      (TcpTransport.new 1).recvFrames 2
          [.data [0, 0, 0], .data [6, MessageType.roomMessage, 1, 2, 3, 4],
            .data [5, 0, 0, 0, 1, MessageType.ping], .data []] =
        (testFrames.map .ok, TcpTransport.new 1, [.data []]) := by
  have h := framing_independent_of_cuts (show ∀ frame ∈ testFrames, _ by decide)
    (show Framing.fed testCuts = _ from rfl) (show _ ≤ 3 by decide) 1 "test.onion"
    (show ∀ bytes ∈ [[0, 0, 0], [6, MessageType.roomMessage, 1, 2, 3, 4],
      [5, 0, 0, 0, 1, MessageType.ping]], bytes ≠ [] by decide) rfl 1 [.data []]
  exact ⟨h.1, h.2.2.1, h.2.2.2⟩

/-! ### What the sender emits -/

/-- An attempt to send a frame fails without a byte, or leaves bytes that the decoder takes for this
frame. -/
def Conveyed (frame : Frame) (attempt : Except SanctumError Unit × Bytes) : Prop :=
  (∃ e, attempt = (.error e, [])) ∨ decodeFrame attempt.2 = .ok (some (frame, []))

namespace TcpTransport

/-- The stream takes a part of the encoding. -/
theorem sendFrame_snd (frame : Frame) (write : Write) (flush : Except String Unit) :
    (sendFrame frame write flush).2 =
      (encodeFrame frame).take (write.takes (encodeFrame frame).length) := by
  unfold sendFrame Write.takes
  cases write with
  | ok =>
      dsimp only
      rw [List.take_length]
      cases flush with
      | error text => rfl
      | ok done => rfl
  | failed text taken =>
      dsimp only
      rw [← List.take_eq_take_min]

/-- If the stream takes nothing, then the sender is told. -/
theorem sendFrame_of_takes_zero {frame : Frame} {write : Write}
    (h : write.takes (encodeFrame frame).length = 0) (flush : Except String Unit) :
    ∃ e, sendFrame frame write flush = (.error e, []) := by
  have hpos := List.length_pos_iff.2 (encodeFrame_ne_nil frame)
  unfold Write.takes at h
  cases write with
  | ok =>
      dsimp only at h
      omega
  | failed text taken =>
      dsimp only at h
      obtain rfl : taken = 0 := by omega
      exact ⟨.connectionLost ("write: " ++ text), rfl⟩

/-- **A frame is conveyed if it fits and the stream takes all of it**, or if the stream takes nothing. -/
theorem conveyed_sendFrame (frame : Frame) (write : Write) (flush : Except String Unit) :
    Conveyed frame (sendFrame frame write flush) ↔
      write.takes (encodeFrame frame).length = 0 ∨
        frame.Fits ∧ write.takes (encodeFrame frame).length = (encodeFrame frame).length := by
  have hle := write.takes_le (encodeFrame frame).length
  unfold Conveyed
  rw [decodeFrame_eq_found, List.append_nil, sendFrame_snd]
  constructor
  · rintro (⟨e, hsend⟩ | ⟨hfits, hall⟩)
    · have hnone := congrArg Prod.snd hsend
      rw [sendFrame_snd, List.take_eq_nil_iff] at hnone
      exact Or.inl (hnone.resolve_right (encodeFrame_ne_nil frame))
    · have hlength := congrArg List.length hall
      rw [List.length_take, Nat.min_eq_left hle] at hlength
      exact Or.inr ⟨hfits, hlength⟩
  · rintro (hnone | ⟨hfits, hall⟩)
    · exact Or.inl (sendFrame_of_takes_zero hnone flush)
    · exact Or.inr ⟨hfits, by rw [hall, List.take_length]⟩

/-- The loop fails on what the decoder refuses. -/
theorem recvFrame_error (connectionId : ConnId) {wire : Bytes} (hne : wire ≠ []) {e : SanctumError}
    (hdecode : decodeFrame wire = .error e) (later : List Read) :
    ((new connectionId).recvFrame (.data wire :: later)).1 = some (.error e) := by
  have hwire : decodeFrame ({ new connectionId with readBuf := (new connectionId).readBuf ++ wire } :
      TcpTransport).readBuf = .error e := hdecode
  have hempty : decodeFrame (new connectionId).readBuf = .ok none := rfl
  rw [recvFrame_data hempty hne, recvFrame.eq_def, hwire]

/-- What the loop finds fits. -/
theorem fits_of_recvFrame {tcp : TcpTransport} {reads : List Read} {frame : Frame}
    (h : (tcp.recvFrame reads).1 = some (.ok frame)) : frame.Fits := by
  induction reads generalizing tcp with
  | nil =>
      rw [recvFrame.eq_def] at h
      rcases hdecode : decodeFrame tcp.readBuf with e | _ | ⟨found, rest⟩
      · simp [hdecode] at h
      · simp [hdecode] at h
      · obtain rfl : found = frame := by simpa [hdecode] using h
        exact (decodeFrame_eq_found.1 hdecode).1
  | cons read reads ih =>
      rw [recvFrame.eq_def] at h
      rcases hdecode : decodeFrame tcp.readBuf with e | _ | ⟨found, rest⟩
      · simp [hdecode] at h
      · rw [hdecode] at h
        rcases read with ⟨_ | ⟨b, bytes⟩⟩ | text
        · simp at h
        · exact ih h
        · simp at h
      · obtain rfl : found = frame := by simpa [hdecode] using h
        exact (decodeFrame_eq_found.1 hdecode).1

/-- What the calls find fits. -/
theorem fits_of_recvFrames {frames : List Frame} {calls : ℕ} {tcp : TcpTransport} {reads : List Read}
    (h : (tcp.recvFrames calls reads).1 = frames.map .ok) : ∀ frame ∈ frames, frame.Fits := by
  induction calls generalizing frames tcp reads with
  | zero =>
      obtain rfl : frames = [] := List.map_eq_nil_iff.1 h.symm
      exact List.forall_mem_nil _
  | succ calls ih =>
      rw [recvFrames] at h
      rcases hrecv : tcp.recvFrame reads with ⟨_ | result, tcp', reads'⟩
      · rw [hrecv] at h
        obtain rfl : frames = [] := List.map_eq_nil_iff.1 h.symm
        exact List.forall_mem_nil _
      · rw [hrecv] at h
        cases frames with
        | nil => exact List.forall_mem_nil _
        | cons frame frames =>
            obtain ⟨rfl, hrest⟩ := List.cons.inj h
            have hfound : (tcp.recvFrame reads).1 = some (.ok frame) := by rw [hrecv]
            exact List.forall_mem_cons.2 ⟨fits_of_recvFrame hfound, ih hrest⟩

end TcpTransport

/-- **Exactly the frames that fit are conveyed.**  A frame whose payload has more than 65535 bytes is
encoded and sent all the same: a connection conveys a frame, or reports an error without a byte, exactly
if it is closed or the frame fits; so does a transport, if the stream takes all of the encoding or nothing
of it; and frames that are reported as sent arrive, however the stream is cut, exactly if all of them
fit. -/
theorem frames_conveyed_iff (conn : TransportConnection) (frame : Frame) (write : Write)
    (flush : Except String Unit) (frames : List Frame) (connectionId : ConnId) (later : List Read) :
    (((∃ e, conn.encodeFrame frame = .error e) ∨ ∃ wire, conn.encodeFrame frame = .ok wire ∧
        decodeFrame wire = .ok (some (frame, []))) ↔
      conn.closed = true ∨ frame.payload.length ≤ 65535) ∧
    (Conveyed frame (TcpTransport.sendFrame frame write flush) ↔
      write.takes (5 + frame.payload.length) = 0 ∨
        frame.payload.length ≤ 65535 ∧
          write.takes (5 + frame.payload.length) = 5 + frame.payload.length) ∧
    (∀ frame ∈ frames, (TcpTransport.sendFrame frame .ok (.ok ())).1 = .ok ()) ∧
      ((∀ reads : List Bytes, (∀ bytes ∈ reads, bytes ≠ []) →
          reads.flatten = frames.flatMap (fun frame => (TcpTransport.sendFrame frame .ok (.ok ())).2) →
          (TcpTransport.new connectionId).recvFrames frames.length (reads.map .data ++ later) =
            (frames.map .ok, TcpTransport.new connectionId, later)) ↔
        ∀ frame ∈ frames, frame.payload.length ≤ 65535) := by
  refine ⟨?_, ?_, fun frame _ => rfl, ?_⟩
  · unfold TransportConnection.encodeFrame
    by_cases hclosed : conn.closed = true
    · rw [if_pos hclosed]
      exact iff_of_true (Or.inl ⟨_, rfl⟩) (Or.inl hclosed)
    · rw [if_neg hclosed]
      constructor
      · rintro (⟨e, he⟩ | ⟨wire, hwire, hdecode⟩)
        · cases he
        · exact Or.inr (decodeFrame_eq_found.1 hdecode).1
      · rintro (h | hfits)
        · exact absurd h hclosed
        · exact Or.inr ⟨_, rfl, decodeFrame_eq_found.2 ⟨hfits, (List.append_nil _).symm⟩⟩
  · rw [← length_encodeFrame]
    exact TcpTransport.conveyed_sendFrame frame write flush
  · constructor
    · intro h
      have hrecv := h (frames.map encodeFrame) ?_ ?_
      · exact TcpTransport.fits_of_recvFrames (congrArg Prod.fst hrecv)
      · intro bytes hmem
        obtain ⟨frame, -, rfl⟩ := List.mem_map.1 hmem
        exact encodeFrame_ne_nil frame
      · exact (List.flatMap_def ..).symm
    · intro hfits reads hreads hflatten
      exact TcpTransport.recvFrames_stream hfits hreads (show [] ++ reads.flatten = _ from hflatten) later

/-- A frame whose payload has one byte more than fits. -/
def overlongFrame : Frame := ⟨MessageType.roomMessage, List.replicate 65536 0⟩

/-- The sender is told that an overlong frame has been sent, and the receiver's decoder fails. -/
theorem overlongFrame_sent :
    ¬ Conveyed overlongFrame (TcpTransport.sendFrame overlongFrame .ok (.ok ())) ∧
      (TcpTransport.sendFrame overlongFrame .ok (.ok ())).1 = .ok () ∧
      (TransportConnection.new 1 "test.onion").encodeFrame overlongFrame =
        .ok (TcpTransport.sendFrame overlongFrame .ok (.ok ())).2 ∧
      ∃ text, decodeFrame (TcpTransport.sendFrame overlongFrame .ok (.ok ())).2 =
          .error (.malformedMessage text) ∧
        ((TcpTransport.new 1).recvFrame
          [.data (TcpTransport.sendFrame overlongFrame .ok (.ok ())).2]).1 =
            some (.error (.malformedMessage text)) := by
  have hlength : overlongFrame.payload.length = 65536 := List.length_replicate ..
  have hlong : ¬ overlongFrame.Fits := by
    unfold Frame.Fits
    rw [hlength]
    decide
  obtain ⟨text, htext⟩ := decodeFrame_encodeFrame_error hlong (by rw [hlength]; decide)
  refine ⟨?_, rfl, rfl, text, htext, ?_⟩
  · rintro (⟨e, he⟩ | hdecode)
    · cases he
    · exact hlong (decodeFrame_eq_found.1 hdecode).1
  · exact TcpTransport.recvFrame_error 1 (encodeFrame_ne_nil overlongFrame) htext []

end Sanctum
