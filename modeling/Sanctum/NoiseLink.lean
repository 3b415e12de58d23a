/-
The two ends of an encrypted connection.

Both ends send and receive in any order, and the bytes between them are read in chunks of any length.
At any time the bytes that have not been decoded, in the buffer of an end and on their way to it, are
what the frames that it has yet to receive are on the wire, and the counters of the two ends differ by
the messages that these frames take.

Main definitions:

* `Sanctum.NoiseLink`, `Sanctum.NoiseLink.step` — the two ends and the bytes between them;
* `Sanctum.NoiseLink.Linked` — **the link in the middle of a run**.

Main results:

* `Sanctum.NoiseLink.frames_delivered` — **the frames that are not too long arrive**, in order and once,
  and the others are refused.
-/

import Sanctum.NoiseTransport
import Sanctum.Runs

set_option relaxedAutoImplicit false
set_option autoImplicit false

namespace Sanctum

variable {snow : Snow}

/-! ### Calls at both ends -/

/-- **Two ends and the bytes between them**, with the results of the calls so far. -/
structure NoiseLink (snow : Snow) where
  ends : Endpoint → NoiseTransport snow
  /-- What an end has written and its peer has not read. -/
  wire : Endpoint → Bytes
  /-- The results of `send_frame` at an end, oldest first. -/
  outcomes : Endpoint → List (Except SanctumError Unit)
  /-- The results of `recv_frame` at an end, oldest first. -/
  received : Endpoint → List (Except SanctumError Frame)

/-- A call at one end: of `send_frame`, or of `recv_frame` with the chunks that it reads. -/
inductive NoiseLink.Label
  | send (p : Endpoint) (frame : Frame)
  | recv (p : Endpoint) (reads : List Bytes)

/-- The frames that an end passes to `send_frame`. -/
def NoiseLink.sentBy (p : Endpoint) : List NoiseLink.Label → List Frame
  | [] => []
  | .send p' frame :: labels =>
    if p' = p then frame :: sentBy p labels else sentBy p labels
  | .recv _ _ :: labels => sentBy p labels

namespace NoiseLink

open Function (update)

/-- A link after the handshake. -/
def start (session : snow.Session) (connectionId : Endpoint → ConnId) : NoiseLink snow where
  ends p := { tcp := .new (connectionId p), noise := session.state p 0 0 }
  wire _ := []
  outcomes _ := []
  received _ := []

/-- A call of `send_frame`; the stream takes what is written. -/
def send (s : NoiseLink snow) (p : Endpoint) (frame : Frame) : NoiseLink snow :=
  let (outcome, bytes, t) := (s.ends p).sendFrame frame .ok (.ok ())
  { s with
    ends := update s.ends p t
    wire := update s.wire p (s.wire p ++ bytes)
    outcomes := update s.outcomes p (s.outcomes p ++ [outcome]) }

/-- A call of `recv_frame`: its reads return the given chunks, none of them empty, of what the peer
has written.  It may still be waiting after them, and then it has no result. -/
def recv (s : NoiseLink snow) (p : Endpoint) (reads : List Bytes) : Option (NoiseLink snow) :=
  if (∀ bytes ∈ reads, bytes ≠ []) ∧ reads.flatten <+: s.wire p.peer then
    match (s.ends p).recvFrame (reads.map .data) with
    | (result, t, []) => some { s with
        ends := update s.ends p t
        wire := update s.wire p.peer ((s.wire p.peer).drop reads.flatten.length)
        received := update s.received p (s.received p ++ result.toList) }
    | (_, _, _ :: _) => none -- the call would not have read this far
  else none

/-- **A step of the link.** -/
def step (s : NoiseLink snow) : Label → Option (NoiseLink snow)
  | .send p frame => some (s.send p frame)
  | .recv p reads => s.recv p reads

/-! ### Between the calls -/

/-- **The link in the middle of a run**, with the frames of each end that have been received, and those
that have been sent and not received. -/
structure Linked (session : snow.Session) (s : NoiseLink snow)
    (delivered pending : Endpoint → List Frame) : Prop where
  noise : ∀ p, (s.ends p).noise = session.state p (messagesOf (delivered p) + messagesOf (pending p))
    (messagesOf (delivered p.peer))
  sealable : ∀ p, ∀ frame ∈ pending p, frame.Sealable
  /-- The buffer and the bytes on their way are what the pending frames are on the wire. -/
  wire : ∀ p, (s.ends p.peer).tcp.readBuf ++ s.wire p =
    session.wireOf p (messagesOf (delivered p)) (pending p)
  received : ∀ p, s.received p.peer = (delivered p).map .ok

variable {session : snow.Session} {s s' : NoiseLink snow} {delivered pending : Endpoint → List Frame}
  {p : Endpoint} {frame : Frame}

theorem linked_start (session : snow.Session) (connectionId : Endpoint → ConnId) :
    (start session connectionId).Linked session (fun _ => []) fun _ => [] where
  noise _ := rfl
  sealable _ _ hmem := absurd hmem List.not_mem_nil
  wire _ := rfl
  received _ := rfl

/-- The TCP transports do not change with a transport state. -/
theorem tcp_update (ends : Endpoint → NoiseTransport snow) (p q : Endpoint)
    (noise : snow.TransportState) :
    (update ends p { ends p with noise := noise } q).tcp = (ends q).tcp := by
  by_cases hq : q = p
  · rw [hq, Function.update_self]
  · rw [Function.update_of_ne hq]

/-- A frame that can be sealed is pending after it has been sent. -/
theorem Linked.send_sealable (h : s.Linked session delivered pending) (p : Endpoint)
    (hframe : frame.Sealable) :
    (s.send p frame).Linked session delivered (update pending p (pending p ++ [frame])) ∧
      (s.send p frame).outcomes = update s.outcomes p (s.outcomes p ++ [.ok ()]) := by
  unfold send
  rw [NoiseTransport.sendFrame_sealable (h.noise p) hframe]
  refine ⟨⟨?_, ?_, ?_, h.received⟩, rfl⟩
  · intro q
    by_cases hq : q = p
    · subst hq
      simp only [Function.update_self, messagesOf_append, messagesOf_cons, messagesOf_nil,
        Nat.add_zero, Nat.add_assoc]
    · simp only [Function.update_of_ne hq]
      exact h.noise q
  · intro q
    by_cases hq : q = p
    · subst hq
      rw [Function.update_self]
      intro frame' hmem
      rcases List.mem_append.1 hmem with hmem | hmem
      · exact h.sealable q frame' hmem
      · exact List.mem_singleton.1 hmem ▸ hframe
    · rw [Function.update_of_ne hq]
      exact h.sealable q
  · intro q
    dsimp only
    rw [tcp_update]
    by_cases hq : q = p
    · subst hq
      rw [Function.update_self, Function.update_self, ← List.append_assoc, h.wire q,
        session.wireOf_append, Snow.Session.wireOf, Snow.Session.wireOf, List.append_nil]
    · rw [Function.update_of_ne hq, Function.update_of_ne hq]
      exact h.wire q

/-- A frame that is too long changes nothing. -/
theorem Linked.send_long (h : s.Linked session delivered pending) (p : Endpoint)
    (hframe : ¬ frame.Sealable) :
    ∃ e, s.send p frame =
      { s with outcomes := update s.outcomes p (s.outcomes p ++ [.error e]) } := by
  obtain ⟨e, hsend⟩ := NoiseTransport.sendFrame_long (h.noise p) hframe
  refine ⟨e, ?_⟩
  unfold send
  rw [hsend]
  simp only [List.append_nil, Function.update_eq_self]

/-- The next pending frame of the peer has been received. -/
theorem Linked.deliver (h : s.Linked session delivered pending) {more : List Frame}
    (hpending : pending p.peer = frame :: more) {readBuf wire : Bytes}
    (hwire : readBuf ++ wire =
      session.wireOf p.peer (messagesOf (delivered p.peer) + frame.messages) more)
    (hends : s'.ends = update s.ends p ⟨{ (s.ends p).tcp with readBuf := readBuf },
      session.state p (messagesOf (delivered p) + messagesOf (pending p))
        (messagesOf (delivered p.peer) + frame.messages)⟩)
    (hwires : s'.wire = update s.wire p.peer wire)
    (hreceived : s'.received = update s.received p (s.received p ++ [.ok frame])) :
    s'.Linked session (update delivered p.peer (delivered p.peer ++ [frame]))
      (update pending p.peer more) := by
  have hne : p ≠ p.peer := p.peer_ne.symm
  refine ⟨?_, ?_, ?_, ?_⟩
  · intro q
    by_cases hq : q = p
    · subst hq
      rw [hends, Function.update_self, Function.update_self, Function.update_of_ne hne,
        Function.update_of_ne hne]
      simp only [messagesOf_append, messagesOf_cons, messagesOf_nil, Nat.add_zero]
    · obtain rfl := Endpoint.eq_peer_of_ne hq
      rw [hends, Function.update_of_ne p.peer_ne, Function.update_self, Function.update_self,
        Endpoint.peer_peer, Function.update_of_ne hne, h.noise p.peer, hpending, Endpoint.peer_peer]
      simp only [messagesOf_append, messagesOf_cons, messagesOf_nil, Nat.add_zero, Nat.add_assoc]
  · intro q
    by_cases hq : q = p
    · subst hq
      rw [Function.update_of_ne hne]
      exact h.sealable q
    · obtain rfl := Endpoint.eq_peer_of_ne hq
      rw [Function.update_self]
      intro frame' hmem
      refine h.sealable p.peer frame' ?_
      rw [hpending]
      exact List.mem_cons_of_mem frame hmem
  · intro q
    by_cases hq : q = p
    · subst hq
      rw [hends, hwires, Function.update_of_ne q.peer_ne, Function.update_of_ne hne,
        Function.update_of_ne hne, Function.update_of_ne hne]
      exact h.wire q
    · obtain rfl := Endpoint.eq_peer_of_ne hq
      rw [hends, hwires, Endpoint.peer_peer, Function.update_self, Function.update_self,
        Function.update_self, Function.update_self]
      rw [messagesOf_append, messagesOf_cons, messagesOf_nil, Nat.add_zero]
      exact hwire
  · intro q
    by_cases hq : q = p
    · subst hq
      rw [hreceived, Function.update_of_ne q.peer_ne, Function.update_of_ne hne]
      exact h.received q
    · obtain rfl := Endpoint.eq_peer_of_ne hq
      have hold := h.received p.peer
      rw [Endpoint.peer_peer] at hold
      rw [hreceived, Endpoint.peer_peer, Function.update_self, Function.update_self, hold,
        List.map_append, List.map_singleton]

/-- A call that is still waiting has moved bytes from the wire to the buffer. -/
theorem Linked.wait (h : s.Linked session delivered pending) {readBuf wire : Bytes}
    (hwire : readBuf ++ wire = (s.ends p).tcp.readBuf ++ s.wire p.peer)
    (hends : s'.ends = update s.ends p
      ⟨{ (s.ends p).tcp with readBuf := readBuf }, (s.ends p).noise⟩)
    (hwires : s'.wire = update s.wire p.peer wire) (hreceived : s'.received = s.received) :
    s'.Linked session delivered pending := by
  have hne : p ≠ p.peer := p.peer_ne.symm
  refine ⟨?_, h.sealable, ?_, ?_⟩
  · intro q
    by_cases hq : q = p
    · subst hq
      rw [hends, Function.update_self]
      exact h.noise q
    · rw [hends, Function.update_of_ne hq]
      exact h.noise q
  · intro q
    by_cases hq : q = p
    · subst hq
      rw [hends, hwires, Function.update_of_ne q.peer_ne, Function.update_of_ne hne]
      exact h.wire q
    · obtain rfl := Endpoint.eq_peer_of_ne hq
      have hold := h.wire p.peer
      rw [Endpoint.peer_peer] at hold
      rw [hends, hwires, Endpoint.peer_peer, Function.update_self, Function.update_self, ← hold]
      exact hwire
  · intro q
    rw [hreceived]
    exact h.received q

/-- **One call of `recv_frame`** finds the next pending frame of the peer, or waits for it. -/
theorem Linked.recv {reads : List Bytes} (h : s.Linked session delivered pending)
    (hrecv : s.recv p reads = some s') :
    s'.outcomes = s.outcomes ∧ (s'.Linked session delivered pending ∨
      ∃ frame more, pending p.peer = frame :: more ∧
        s'.Linked session (update delivered p.peer (delivered p.peer ++ [frame]))
          (update pending p.peer more)) := by
  unfold NoiseLink.recv at hrecv
  split at hrecv
  · next hcond =>
      obtain ⟨hreads, rest, hrest⟩ := hcond
      have hdrop : (s.wire p.peer).drop reads.flatten.length = rest := by
        rw [← hrest, List.drop_left]
      have hwire := h.wire p.peer
      rw [Endpoint.peer_peer, ← hrest, ← List.append_assoc] at hwire
      rw [hdrop] at hrecv
      cases hpending : pending p.peer with
      | nil =>
          rw [hpending] at hwire
          obtain ⟨hread, rfl⟩ := List.append_eq_nil_iff.1 hwire
          obtain ⟨hbuf, hflatten⟩ := List.append_eq_nil_iff.1 hread
          obtain rfl := Framing.chunks_eq_nil hreads hflatten
          have hdecode : decodeFrame (s.ends p).tcp.readBuf = .ok none := by
            rw [hbuf]
            rfl
          rw [List.map_nil, NoiseTransport.recvFrame_nil hdecode] at hrecv
          obtain rfl := Option.some_inj.1 hrecv
          have hmoved : (s.ends p).tcp.readBuf ++ [] = (s.ends p).tcp.readBuf ++ s.wire p.peer := by
            rw [← hrest]
            rfl
          exact ⟨rfl, Or.inl (h.wait hmoved rfl rfl (by simp))⟩
      | cons frame more =>
          have hframe : frame.Sealable := by
            refine h.sealable p.peer frame ?_
            rw [hpending]
            exact List.mem_cons_self
          rw [hpending] at hwire
          rcases NoiseTransport.recvFrame_arrived (h.noise p) hframe hreads hwire [] with
            ⟨readBuf, reads', hfound, htail, -⟩ | ⟨hwaits, -, hdecode⟩
          · rw [List.append_nil, List.append_nil] at hfound
            rw [hfound] at hrecv
            cases reads' with
            | nil =>
                obtain rfl := Option.some_inj.1 hrecv
                rw [List.flatten_nil, List.append_nil] at htail
                exact ⟨rfl, Or.inr ⟨frame, more, rfl, h.deliver hpending htail rfl rfl rfl⟩⟩
            | cons bytes reads' => cases hrecv
          · rw [NoiseTransport.recvFrame_nil hdecode, List.append_nil] at hwaits
            rw [hwaits] at hrecv
            obtain rfl := Option.some_inj.1 hrecv
            have hmoved : (s.ends p).tcp.readBuf ++ reads.flatten ++ rest =
                (s.ends p).tcp.readBuf ++ s.wire p.peer := by
              rw [← hrest, List.append_assoc]
            exact ⟨rfl, Or.inl (h.wait hmoved rfl rfl (by simp))⟩
  · cases hrecv

/-! ### Runs -/

theorem sentBy_append (p : Endpoint) (labels labels' : List Label) :
    sentBy p (labels ++ labels') = sentBy p labels ++ sentBy p labels' := by
  induction labels with
  | nil => rfl
  | cons label labels ih =>
      cases label with
      | send q frame =>
          rw [List.cons_append, sentBy, sentBy, ih]
          split <;> rfl
      | recv q reads => exact ih

/-- The result of a call of `send_frame`. -/
def Answers (frame : Frame) (outcome : Except SanctumError Unit) : Prop :=
  if frame.payload.length ≤ 65519 then outcome = .ok () else ∃ e, outcome = .error e

/-- **What holds after some calls**: the link is in the middle of the frames that could be sealed, and
the calls of `send_frame` have answered for each frame. -/
structure Ran (session : snow.Session) (labels : List Label) (s : NoiseLink snow)
    (delivered pending : Endpoint → List Frame) : Prop where
  linked : s.Linked session delivered pending
  sent : ∀ p, delivered p ++ pending p = (sentBy p labels).filter fun frame => frame.Sealable
  outcomes : ∀ p, List.Forall₂ Answers (sentBy p labels) (s.outcomes p)

theorem Ran.send {labels : List Label} (h : s.Ran session labels delivered pending)
    (p : Endpoint) (frame : Frame) :
    ∃ pending', (s.send p frame).Ran session (labels ++ [.send p frame]) delivered pending' := by
  have houtcome : ∀ outcome, Answers frame outcome → ∀ q,
      List.Forall₂ Answers (sentBy q (labels ++ [.send p frame]))
        (update s.outcomes p (s.outcomes p ++ [outcome]) q) := by
    intro outcome hanswers q
    rw [sentBy_append, sentBy, sentBy]
    by_cases hq : p = q
    · subst hq
      rw [if_pos rfl, Function.update_self]
      exact List.rel_append (h.outcomes p) (.cons hanswers .nil)
    · rw [if_neg hq, Function.update_of_ne (Ne.symm hq), List.append_nil]
      exact h.outcomes q
  by_cases hframe : frame.Sealable
  · obtain ⟨hlinked, houtcomes⟩ := h.linked.send_sealable p hframe
    refine ⟨update pending p (pending p ++ [frame]), hlinked, ?_, ?_⟩
    · intro q
      rw [sentBy_append, sentBy, sentBy, List.filter_append, ← h.sent q]
      by_cases hq : p = q
      · subst hq
        rw [if_pos rfl, Function.update_self, List.append_assoc]
        simp [hframe]
      · rw [if_neg hq, Function.update_of_ne (Ne.symm hq), List.filter_nil, List.append_nil]
    · rw [houtcomes]
      have hanswers : Answers frame (.ok ()) := by
        unfold Answers
        rw [if_pos (show frame.payload.length ≤ 65519 from hframe)]
      exact houtcome (.ok ()) hanswers
  · obtain ⟨e, hsend⟩ := h.linked.send_long p hframe
    rw [hsend]
    refine ⟨pending, ⟨h.linked.noise, h.linked.sealable, h.linked.wire, h.linked.received⟩, ?_, ?_⟩
    · intro q
      rw [sentBy_append, sentBy, sentBy, List.filter_append, ← h.sent q]
      split <;> simp [hframe]
    · have hanswers : Answers frame (.error e) := by
        unfold Answers
        rw [if_neg (show ¬ frame.payload.length ≤ 65519 from hframe)]
        exact ⟨e, rfl⟩
      exact houtcome (.error e) hanswers

theorem Ran.recv {labels : List Label} (h : s.Ran session labels delivered pending)
    {reads : List Bytes} (hrecv : s.recv p reads = some s') :
    ∃ delivered' pending', s'.Ran session (labels ++ [.recv p reads]) delivered' pending' := by
  have hsent : ∀ q, sentBy q (labels ++ [.recv p reads]) = sentBy q labels := by
    intro q
    rw [sentBy_append]
    exact List.append_nil _
  obtain ⟨houtcomes, hwaits | ⟨frame, more, hpending, hfound⟩⟩ := h.linked.recv hrecv
  · refine ⟨delivered, pending, hwaits, ?_, ?_⟩
    · intro q
      rw [hsent]
      exact h.sent q
    · intro q
      rw [hsent, houtcomes]
      exact h.outcomes q
  · refine ⟨_, _, hfound, ?_, ?_⟩
    · intro q
      rw [hsent, ← h.sent q]
      by_cases hq : q = p.peer
      · subst hq
        rw [Function.update_self, Function.update_self, hpending, List.append_assoc]
        rfl
      · rw [Function.update_of_ne hq, Function.update_of_ne hq]
    · intro q
      rw [hsent, houtcomes]
      exact h.outcomes q

/-- A run keeps the link. -/
theorem ran_of_run (session : snow.Session) (connectionId : Endpoint → ConnId) {labels : List Label}
    (hrun : Runs.run step (start session connectionId) labels = some s) :
    ∃ delivered pending, s.Ran session labels delivered pending := by
  have hstart : ∃ delivered pending,
      (start session connectionId).Ran session [] delivered pending :=
    ⟨_, _, linked_start session connectionId, fun p => rfl, fun p => .nil⟩
  have hstep : ∀ (pre : List Label) (t : NoiseLink snow) (label : Label) (t' : NoiseLink snow)
      (post : List Label), labels = pre ++ label :: post → t.step label = some t' →
      Runs.run step t' post = some s → (∃ delivered pending, t.Ran session pre delivered pending) →
        ∃ delivered pending, t'.Ran session (pre ++ [label]) delivered pending := by
    intro pre t label t' post _ hnext _ hran
    obtain ⟨delivered, pending, hran⟩ := hran
    cases label with
    | send p frame =>
        obtain rfl := Option.some_inj.1 hnext
        exact ⟨delivered, hran.send p frame⟩
    | recv p reads => exact hran.recv hnext
  exact Runs.history_induction hstep hstart hrun

/-- **The frames that are not too long arrive.**  After any calls at both ends, each call of
`send_frame` has succeeded if its frame has at most 65519 bytes of payload and has returned an error
otherwise; a longer frame writes nothing and changes neither end; and what the peer has received, with
what its next calls return of the bytes on their way, however these are cut, are the frames that are not
longer, in order and once. -/
theorem frames_delivered (session : snow.Session) (connectionId : Endpoint → ConnId)
    {labels : List Label} (hrun : Runs.run step (start session connectionId) labels = some s)
    (p : Endpoint) :
    List.Forall₂ Answers (sentBy p labels) (s.outcomes p) ∧
      (∀ frame : Frame, 65519 < frame.payload.length → ∃ e, s.step (.send p frame) =
        some { s with outcomes := update s.outcomes p (s.outcomes p ++ [.error e]) }) ∧
      ∀ reads : List Bytes, (∀ bytes ∈ reads, bytes ≠ []) → reads.flatten = s.wire p →
        ∀ later, ∃ results t,
          (s.ends p.peer).recvFrames results.length (reads.map .data ++ later) =
            (results, t, later) ∧
          s.received p.peer ++ results =
            ((sentBy p labels).filter fun frame => frame.payload.length ≤ 65519).map .ok := by
  obtain ⟨delivered, pending, hran⟩ := ran_of_run session connectionId hrun
  refine ⟨hran.outcomes p, ?_, ?_⟩
  · intro frame hframe
    obtain ⟨e, hsend⟩ := hran.linked.send_long p (not_le.2 hframe : ¬ frame.Sealable)
    exact ⟨e, congrArg some hsend⟩
  · intro reads hreads hread later
    have hnoise := hran.linked.noise p.peer
    have hwire := hran.linked.wire p
    rw [Endpoint.peer_peer] at hnoise
    have hstream : (s.ends p.peer).tcp.readBuf ++ reads.flatten =
        session.wireOf p.peer.peer (messagesOf (delivered p)) (pending p) := by
      rw [hread, Endpoint.peer_peer]
      exact hwire
    have hrecv := NoiseTransport.recvFrames_stream hnoise (hran.linked.sealable p) hreads hstream later
    have hlength : ((pending p).map (Except.ok : Frame → Except SanctumError Frame)).length =
        (pending p).length := List.length_map _
    rw [← hlength] at hrecv
    refine ⟨(pending p).map .ok, _, hrecv, ?_⟩
    rw [hran.linked.received p, ← List.map_append, hran.sent p]
    rfl

/-! ### A session that numbers its messages -/

/-- A tag of 16 bytes that names the end and the number of the message. -/
def testTag (p : Endpoint) (n : ℕ) : Bytes :=
  (if p = .host then 1 else 2) :: (List.range 15).map fun i => UInt8.ofNat (n / 256 ^ i)

theorem length_testTag (p : Endpoint) (n : ℕ) : (testTag p n).length = 16 := by
  simp [testTag]

/-- A library that appends the tag, and takes off the tag that comes next. -/
def testSnow : Snow where
  TransportState := Endpoint × ℕ × ℕ
  writeMessage state plaintext bufLen :=
    if 65519 < plaintext.length ∨ bufLen < plaintext.length + 16 then
      (.error "input error", state)
    else (.ok (plaintext ++ testTag state.1 state.2.1), state.1, state.2.1 + 1, state.2.2)
  readMessage state bytes bufLen :=
    if bytes.length < 16 ∨ bufLen + 16 < bytes.length ∨
        bytes.drop (bytes.length - 16) ≠ testTag state.1.peer state.2.2 then
      (.error "decrypt error", state)
    else (.ok (bytes.take (bytes.length - 16)), state.1, state.2.1, state.2.2 + 1)

def testSession : testSnow.Session where
  state p n m := (p, n, m)
  cipher p n plaintext := plaintext ++ testTag p n
  length_cipher p n plaintext := by rw [List.length_append, length_testTag]
  write_ok p n m plaintext bufLen hlength hbuf := by
    unfold testSnow
    exact if_neg (by omega)
  write_refused p n m plaintext bufLen hlength := by
    unfold testSnow
    exact ⟨"input error", if_pos (Or.inl hlength)⟩
  read_next p n m plaintext bufLen hlength hbuf := by
    have hdrop : (plaintext ++ testTag p.peer m).length - 16 = plaintext.length := by
      rw [List.length_append, length_testTag]
      omega
    unfold testSnow
    dsimp only
    rw [hdrop, List.drop_left, List.take_left, List.length_append, length_testTag, if_neg]
    intro h
    rcases h with h | h | h
    · omega
    · omega
    · exact h rfl
  read_only p n m bytes bufLen plaintext h := by
    unfold testSnow at h
    dsimp only at h
    split at h
    · cases h
    · next hcond =>
        have htag := not_not.1 (not_or.1 (not_or.1 hcond).2).2
        have htake : bytes.take (bytes.length - 16) = plaintext := Except.ok.inj h
        rw [← htake, ← htag]
        exact (List.take_append_drop _ _).symm

/-- The host sends a message and a pong, the client a ping in between; the client reads three bytes,
and then the rest of the message and the beginning of the pong. -/
def testTraffic : List Label :=
  [.send .host ⟨MessageType.roomMessage, [1, 2]⟩, .recv .client [[0, 0, 0]],
    .send .client ⟨MessageType.ping, []⟩, .send .host ⟨MessageType.pong, []⟩,
    .recv .client [19 :: MessageType.roomMessage :: 1 :: 2 :: testTag .host 0 ++ [0, 0]],
    .recv .host [[0, 0, 0, 1], [MessageType.ping]]]

theorem frames_delivered_testTraffic :
    ∃ s, Runs.run step (start testSession fun _ => 1) testTraffic = some s ∧
      s.received .client = [.ok ⟨MessageType.roomMessage, [1, 2]⟩] ∧
      s.received .host = [.ok ⟨MessageType.ping, []⟩] ∧
      ∃ results t, (s.ends .client).recvFrames results.length
          ([[0], [1, MessageType.pong]].map .data) = (results, t, []) ∧
        s.received .client ++ results = [.ok ⟨MessageType.roomMessage, [1, 2]⟩,
          .ok ⟨MessageType.pong, []⟩] := by
  refine ⟨_, rfl, rfl, rfl, ?_⟩
  obtain ⟨-, -, hrest⟩ := frames_delivered testSession (fun _ => 1)
    (show Runs.run step _ testTraffic = some _ from rfl) .host
  obtain ⟨results, t, hrecv, hall⟩ := hrest [[0], [1, MessageType.pong]] (by decide) rfl []
  exact ⟨results, t, hrecv, hall⟩

end NoiseLink

end Sanctum
