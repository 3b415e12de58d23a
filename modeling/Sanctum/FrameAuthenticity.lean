/-
Frames on a connection that somebody else controls.

Both ends send and receive after the handshake, and whoever sits between them puts any bytes before the
ends, in any chunks: what an end writes may be dropped, cut, altered, repeated, put in another order or
mixed with other bytes.  All that the transport states are trusted with is that they accept nothing but
the ciphertext of the peer's next message.  So the payloads that are not empty arrive in order; but the
type of a frame, and the frames without a payload, do not go through the transport states at all.

Main definitions:

* `Sanctum.TappedLink`, `Sanctum.TappedLink.step` — the two ends, with any bytes between them;
* `Sanctum.TappedLink.Authentic` — what an end receives before its first error is a beginning of what its
  peer has sent;
* `Sanctum.TappedLink.Matches` — the frame on the wire agrees with the next one sent in what is not
  encrypted.

Main results:

* `Sanctum.TappedLink.Tapped.step` — **the payloads that are not empty arrive in order**, whatever
  happens between the ends;
* `Sanctum.TappedLink.authentic_iff` — **the runs in which the frames are authentic**.
-/

import Sanctum.NoiseLink

set_option relaxedAutoImplicit false
set_option autoImplicit false

namespace Sanctum

variable {snow : Snow}

/-- A ciphertext that is refused leaves the transport state alone. -/
def Snow.Session.KeepsOnError (session : snow.Session) : Prop :=
  ∀ p n m bytes bufLen text state,
    snow.readMessage (session.state p n m) bytes bufLen = (.error text, state) →
      state = session.state p n m

/-! ### What goes through the transport states -/

/-- The payloads of some frames that are encrypted: those that are neither empty nor too long. -/
def sealedPayloads (frames : List Frame) : List Bytes :=
  (frames.filter fun frame => frame.Sealable ∧ frame.payload ≠ []).map Frame.payload

theorem sealedPayloads_append (frames frames' : List Frame) :
    sealedPayloads (frames ++ frames') = sealedPayloads frames ++ sealedPayloads frames' := by
  simp [sealedPayloads]

theorem sealedPayloads_cons_sealed {frame : Frame} (h : frame.Sealable) (hne : frame.payload ≠ [])
    (frames : List Frame) :
    sealedPayloads (frame :: frames) = frame.payload :: sealedPayloads frames := by
  simp [sealedPayloads, h, hne]

theorem sealedPayloads_singleton_of_not {frame : Frame}
    (h : ¬ (frame.Sealable ∧ frame.payload ≠ [])) : sealedPayloads [frame] = [] := by
  unfold sealedPayloads
  rw [List.filter_cons_of_neg (by simpa using h)]
  rfl

theorem mem_sealedPayloads {frames : List Frame} {payload : Bytes}
    (h : payload ∈ sealedPayloads frames) : payload.length ≤ 65519 ∧ payload ≠ [] := by
  obtain ⟨frame, hframe, rfl⟩ := List.mem_map.1 h
  have hsealed := (List.mem_filter.1 hframe).2
  exact of_decide_eq_true hsealed

namespace NoiseTransport

variable {session : snow.Session} {t : NoiseTransport snow} {p : Endpoint} {n m : ℕ}

/-- Sending advances the counter by the message that goes through the transport state, whatever
becomes of the bytes. -/
theorem noise_sendFrame (ht : t.noise = session.state p n m) (frame : Frame) (write : Write)
    (flush : Except String Unit) :
    (t.sendFrame frame write flush).2.2 =
      { t with noise := session.state p (n + (sealedPayloads [frame]).length) m } := by
  unfold sendFrame
  rw [ht]
  cases hempty : frame.payload.isEmpty with
  | true =>
      have hsealed : sealedPayloads [frame] = [] :=
        sealedPayloads_singleton_of_not fun h => h.2 (List.isEmpty_iff.1 hempty)
      rw [hsealed]
      rfl
  | false =>
      have hne : frame.payload ≠ [] := List.isEmpty_eq_false_iff.1 hempty
      simp only [Bool.false_eq_true, if_false]
      by_cases hframe : frame.Sealable
      · rw [sealedPayloads_cons_sealed hframe hne]
        simp only [Snow.Session.transportEncrypt_sealable hframe]
        rfl
      · have hencrypt : ∃ e, transportEncrypt (session.state p n m) frame.payload =
            (.error e, session.state p n m) := Snow.Session.transportEncrypt_long (not_le.1 hframe)
        obtain ⟨e, hencrypt⟩ := hencrypt
        have hsealed : sealedPayloads [frame] = [] :=
          sealedPayloads_singleton_of_not fun h => hframe h.1
        rw [hsealed]
        simp only [hencrypt]
        rfl

end NoiseTransport

/-! ### The results of `recv_frame` -/

/-- The frames that are received before the first error. -/
def beforeError : List (Except SanctumError Frame) → List Frame
  | .ok frame :: results => frame :: beforeError results
  | _ => []

/-- Nothing but frames has been received. -/
def NoError (results : List (Except SanctumError Frame)) : Prop := ∀ e, .error e ∉ results

theorem beforeError_append {results : List (Except SanctumError Frame)} (h : NoError results)
    (results' : List (Except SanctumError Frame)) :
    beforeError (results ++ results') = beforeError results ++ beforeError results' := by
  induction results with
  | nil => rfl
  | cons result results ih =>
      cases result with
      | error e => exact absurd List.mem_cons_self (h e)
      | ok frame =>
          have hrest : NoError results := fun e hmem => h e (List.mem_cons_of_mem _ hmem)
          rw [List.cons_append, beforeError, ih hrest]
          rfl

/-- After an error nothing more counts. -/
theorem beforeError_append_of_error {results : List (Except SanctumError Frame)}
    (h : ¬ NoError results) (results' : List (Except SanctumError Frame)) :
    beforeError (results ++ results') = beforeError results := by
  induction results with
  | nil => exact absurd (fun _ => List.not_mem_nil) h
  | cons result results ih =>
      cases result with
      | error e => rfl
      | ok frame =>
          have hrest : ¬ NoError results := by
            intro hno
            refine h ?_
            intro e hmem
            rcases List.mem_cons.1 hmem with heq | hmem
            · cases heq
            · exact hno e hmem
          rw [List.cons_append, beforeError, ih hrest]
          rfl

theorem noError_append {results results' : List (Except SanctumError Frame)} :
    NoError (results ++ results') ↔ NoError results ∧ NoError results' := by
  simp only [NoError, List.mem_append, not_or, forall_and]

/-! ### Calls at both ends -/

/-- **Two ends with any bytes between them.** -/
structure TappedLink (snow : Snow) where
  ends : Endpoint → NoiseTransport snow
  /-- The frames that have been passed to `send_frame` at an end, oldest first. -/
  sent : Endpoint → List Frame
  /-- The ciphertexts that the transport state of an end has accepted. -/
  opened : Endpoint → ℕ
  /-- The results of `recv_frame` at an end, oldest first. -/
  received : Endpoint → List (Except SanctumError Frame)

/-- A call at one end: of `send_frame`, with what the stream does with the bytes, or of `recv_frame`,
with what the stream returns. -/
inductive TappedLink.Label
  | send (p : Endpoint) (frame : Frame) (write : Write) (flush : Except String Unit)
  | recv (p : Endpoint) (reads : List Read)

namespace TappedLink

open Function (update)

/-- A link after the handshake. -/
def start (session : snow.Session) (connectionId : Endpoint → ConnId) : TappedLink snow where
  ends p := { tcp := .new (connectionId p), noise := session.state p 0 0 }
  sent _ := []
  opened _ := 0
  received _ := []

/-- A call of `send_frame`.  What becomes of the bytes is up to whoever sits in between. -/
def send (s : TappedLink snow) (p : Endpoint) (frame : Frame) (write : Write)
    (flush : Except String Unit) : TappedLink snow :=
  { s with
    ends := update s.ends p ((s.ends p).sendFrame frame write flush).2.2
    sent := update s.sent p (s.sent p ++ [frame]) }

/-- The frame that a call of `recv_frame` finds on the stream. -/
def wireFrame (s : TappedLink snow) (p : Endpoint) (reads : List Read) : Option Frame :=
  match ((s.ends p).tcp.recvFrame reads).1 with
  | some (.ok frame) => some frame
  | _ => none

/-- The plaintext of a ciphertext that the call finds and the transport state accepts. -/
def plaintext (s : TappedLink snow) (p : Endpoint) (reads : List Read) : Option Bytes :=
  (s.wireFrame p reads).bind fun frame =>
    if frame.payload.isEmpty then none
    else (transportDecrypt (s.ends p).noise frame.payload).1.toOption

/-- **The channel**: a ciphertext that is accepted is that of the peer's next message. -/
def Ideal (s : TappedLink snow) (p : Endpoint) (reads : List Read) : Prop :=
  ∀ bytes ∈ s.plaintext p reads, (sealedPayloads (s.sent p.peer))[s.opened p]? = some bytes

instance (s : TappedLink snow) (p : Endpoint) (reads : List Read) : Decidable (s.Ideal p reads) :=
  inferInstanceAs (Decidable (∀ bytes ∈ s.plaintext p reads,
    (sealedPayloads (s.sent p.peer))[s.opened p]? = some bytes))

/-- A call of `recv_frame` that reads what is put before it.  It may still be waiting after its reads,
and then it has no result. -/
def recv (s : TappedLink snow) (p : Endpoint) (reads : List Read) : Option (TappedLink snow) :=
  if s.Ideal p reads then
    match (s.ends p).recvFrame reads with
    | (result, t, []) => some { s with
        ends := update s.ends p t
        opened := update s.opened p (s.opened p + (s.plaintext p reads).toList.length)
        received := update s.received p (s.received p ++ result.toList) }
    | (_, _, _ :: _) => none -- the call would not have read this far
  else none

/-- **A step of the link.** -/
def step (s : TappedLink snow) : Label → Option (TappedLink snow)
  | .send p frame write flush => some (s.send p frame write flush)
  | .recv p reads => s.recv p reads

/-- **The frames are authentic**: what an end has received before its first error is a beginning of
what has been passed to `send_frame` at its peer. -/
def Authentic (s : TappedLink snow) : Prop := ∀ p, beforeError (s.received p) <+: s.sent p.peer

/-- **The frame on the wire agrees with the next frame sent** in what is not encrypted: it has the same
type, it has a payload if that one has, and that one is not too long to be sent.  This is asked of a
frame that arrives before the first error and has no payload, or the ciphertext that is due. -/
def Matches (session : snow.Session) (s : TappedLink snow) : Label → Prop
  | .send _ _ _ _ => True
  | .recv p reads => NoError (s.received p) → ∀ wire, s.wireFrame p reads = some wire →
      (wire.payload = [] ∨ ∃ payload, (sealedPayloads (s.sent p.peer))[s.opened p]? = some payload ∧
        wire.payload = session.cipher p.peer (s.opened p) payload) →
      ∃ frame, (s.sent p.peer)[(beforeError (s.received p)).length]? = some frame ∧
        frame.Sealable ∧ frame.messageType = wire.messageType ∧
        (frame.payload = [] ↔ wire.payload = [])

/-! ### One call -/

/-- **What holds of the link after any calls**: the counters, and the payloads that have been
received. -/
structure Tapped (session : snow.Session) (s : TappedLink snow) : Prop where
  noise : ∀ p, (s.ends p).noise =
    session.state p (sealedPayloads (s.sent p)).length (s.opened p)
  payloads : ∀ p, sealedPayloads (beforeError (s.received p)) <+: sealedPayloads (s.sent p.peer)
  counted : ∀ p, NoError (s.received p) →
    (sealedPayloads (beforeError (s.received p))).length = s.opened p

variable {session : snow.Session} {s s' : TappedLink snow} {p : Endpoint} {reads : List Read}

theorem tapped_start (session : snow.Session) (connectionId : Endpoint → ConnId) :
    (start session connectionId).Tapped session where
  noise _ := rfl
  payloads _ := List.nil_prefix
  counted _ _ := rfl

/-- What a call of `recv_frame` can find on the wire: no frame, a frame without a payload, a ciphertext
that is accepted, or one that is not. -/
inductive Found (session : snow.Session) (s : TappedLink snow) (p : Endpoint) (reads : List Read) :
    List (Except SanctumError Frame) → ℕ → Prop
  | none (results : List (Except SanctumError Frame)) (hwire : s.wireFrame p reads = none)
      (hresults : beforeError results = []) : Found session s p reads results (s.opened p)
  | empty (wire : Frame) (hwire : s.wireFrame p reads = some wire) (hempty : wire.payload = []) :
      Found session s p reads [.ok wire] (s.opened p)
  | accepted (wire : Frame) (payload : Bytes) (hwire : s.wireFrame p reads = some wire)
      (hnext : (sealedPayloads (s.sent p.peer))[s.opened p]? = some payload)
      (hcipher : wire.payload = session.cipher p.peer (s.opened p) payload) :
      Found session s p reads [.ok ⟨wire.messageType, payload⟩] (s.opened p + 1)
  | refused (wire : Frame) (e : SanctumError) (hwire : s.wireFrame p reads = some wire)
      (hne : wire.payload ≠ [])
      (hcipher : ∀ payload, (sealedPayloads (s.sent p.peer))[s.opened p]? = some payload →
        wire.payload ≠ session.cipher p.peer (s.opened p) payload) :
      Found session s p reads [.error e] (s.opened p)

/-- What a call that has found a frame with a payload does with the transport state. -/
theorem transportDecrypt_cases (hkeeps : session.KeepsOnError) {n m : ℕ} (ciphertext : Bytes) :
    (∃ payload, ciphertext = session.cipher p.peer m payload ∧
      (transportDecrypt (session.state p n m) ciphertext).1 = .ok payload) ∨
    transportDecrypt (session.state p n m) ciphertext =
      (.error .decryptionFailed, session.state p n m) := by
  unfold transportDecrypt
  rcases hread : snow.readMessage (session.state p n m) ciphertext ciphertext.length with
    ⟨text | payload, state⟩
  · refine Or.inr ?_
    rw [hkeeps p n m ciphertext _ text state hread]
  · refine Or.inl ⟨payload, ?_, rfl⟩
    exact session.read_only p n m ciphertext _ payload (by rw [hread])

theorem recv_eq_some (hrecv : s.recv p reads = some s') :
    s.Ideal p reads ∧ ∃ result t, (s.ends p).recvFrame reads = (result, t, []) ∧
      s' = { s with
        ends := update s.ends p t
        opened := update s.opened p (s.opened p + (s.plaintext p reads).toList.length)
        received := update s.received p (s.received p ++ result.toList) } := by
  unfold recv at hrecv
  split at hrecv
  · next hideal =>
      split at hrecv
      · next result t hresult => exact ⟨hideal, result, t, hresult, (Option.some_inj.1 hrecv).symm⟩
      · cases hrecv
  · cases hrecv

theorem wireFrame_eq_some {wire : Frame} :
    s.wireFrame p reads = some wire ↔ ((s.ends p).tcp.recvFrame reads).1 = some (.ok wire) := by
  unfold wireFrame
  rcases ((s.ends p).tcp.recvFrame reads).1 with _ | e | frame
  · simp
  · simp
  · simp

theorem plaintext_of_wireFrame {wire : Frame} (hwire : s.wireFrame p reads = some wire) :
    s.plaintext p reads = if wire.payload.isEmpty then none
      else (transportDecrypt (s.ends p).noise wire.payload).1.toOption := by
  unfold plaintext
  rw [hwire, Option.bind_some]

/-- **One call of `recv_frame`.** -/
theorem Tapped.recv_found (h : s.Tapped session) (hkeeps : session.KeepsOnError)
    (hrecv : s.recv p reads = some s') :
    ∃ results n, Found session s p reads results n ∧ s'.sent = s.sent ∧
      s'.received = update s.received p (s.received p ++ results) ∧
      s'.opened = update s.opened p n ∧
      ∃ tcp, s'.ends = update s.ends p
        ⟨tcp, session.state p (sealedPayloads (s.sent p)).length n⟩ := by
  obtain ⟨hideal, result, t, hresult, rfl⟩ := recv_eq_some hrecv
  rcases htcp : (s.ends p).tcp.recvFrame reads with ⟨_ | e | wire, tcp, reads'⟩
  · -- the call waits
    have hwire : s.wireFrame p reads = none := by simp [wireFrame, htcp]
    have hplain : s.plaintext p reads = none := by simp [plaintext, hwire]
    rw [NoiseTransport.recvFrame, htcp] at hresult
    obtain ⟨rfl, rfl, rfl⟩ := by simpa only [Prod.mk.injEq] using hresult
    refine ⟨[], s.opened p, .none [] hwire rfl, rfl, rfl, ?_, tcp, ?_⟩
    · rw [hplain]
      rfl
    · rw [← h.noise p]
  · -- the stream ends, or what is on it is not a frame
    have hwire : s.wireFrame p reads = none := by simp [wireFrame, htcp]
    have hplain : s.plaintext p reads = none := by simp [plaintext, hwire]
    rw [NoiseTransport.recvFrame, htcp] at hresult
    obtain ⟨rfl, rfl, rfl⟩ := by simpa only [Prod.mk.injEq] using hresult
    refine ⟨[.error e], s.opened p, .none _ hwire rfl, rfl, rfl, ?_, tcp, ?_⟩
    · rw [hplain]
      rfl
    · rw [← h.noise p]
  · have hwire : s.wireFrame p reads = some wire := wireFrame_eq_some.2 (by rw [htcp])
    have hplain := plaintext_of_wireFrame hwire
    rw [NoiseTransport.recvFrame_of_tcp htcp] at hresult
    unfold Ideal at hideal
    cases hempty : wire.payload.isEmpty with
    | true =>
        rw [hempty, if_pos rfl] at hplain
        simp only [hempty, if_true, Prod.mk.injEq] at hresult
        obtain ⟨rfl, rfl, rfl⟩ := hresult
        refine ⟨[.ok wire], s.opened p, .empty wire hwire (List.isEmpty_iff.1 hempty), rfl, ?_, ?_,
          tcp, ?_⟩
        · rw [← Frame.eq_of_isEmpty hempty]
          rfl
        · rw [hplain]
          rfl
        · rw [← h.noise p]
    | false =>
        have hne : wire.payload ≠ [] := List.isEmpty_eq_false_iff.1 hempty
        rw [hempty, if_neg (by simp), h.noise p] at hplain
        simp only [hempty, Bool.false_eq_true, if_false, h.noise p, Prod.mk.injEq] at hresult
        obtain ⟨rfl, rfl, rfl⟩ := hresult
        rw [hplain] at hideal ⊢
        rcases transportDecrypt_cases hkeeps wire.payload (p := p)
            (n := (sealedPayloads (s.sent p)).length) (m := s.opened p) with
          ⟨payload, hcipher, hok⟩ | herror
        · rw [hok] at hideal
          have hnext := hideal payload rfl
          obtain ⟨hlength, -⟩ := mem_sealedPayloads (List.mem_of_getElem? hnext)
          rw [hcipher, Snow.Session.transportDecrypt_cipher hlength]
          exact ⟨_, _, .accepted wire payload hwire hnext hcipher, rfl, rfl, rfl, tcp, rfl⟩
        · have hrefused : ∀ payload,
              (sealedPayloads (s.sent p.peer))[s.opened p]? = some payload →
                wire.payload ≠ session.cipher p.peer (s.opened p) payload := by
            intro payload hnext hcipher
            obtain ⟨hlength, -⟩ := mem_sealedPayloads (List.mem_of_getElem? hnext)
            rw [hcipher, Snow.Session.transportDecrypt_cipher hlength] at herror
            cases congrArg Prod.fst herror
          rw [herror]
          exact ⟨_, _, .refused wire .decryptionFailed hwire hne hrefused, rfl, rfl, rfl, tcp, rfl⟩

/-- A beginning can be extended by what comes next. -/
theorem append_singleton_prefix_iff {α : Type} {l l' : List α} (h : l <+: l') (a : α) :
    l ++ [a] <+: l' ↔ l'[l.length]? = some a := by
  obtain ⟨t, rfl⟩ := h
  rw [List.prefix_append_right_inj, List.getElem?_append_right le_rfl, Nat.sub_self]
  cases t with
  | nil => simp
  | cons b t => simp [eq_comm]

/-- The payload of a frame that is received. -/
theorem Found.sealedPayloads {results : List (Except SanctumError Frame)} {n : ℕ}
    (h : Found session s p reads results n) :
    Sanctum.sealedPayloads (beforeError results) = [] ∧ n = s.opened p ∨
    ∃ payload, Sanctum.sealedPayloads (beforeError results) = [payload] ∧ n = s.opened p + 1 ∧
      (Sanctum.sealedPayloads (s.sent p.peer))[s.opened p]? = some payload := by
  cases h with
  | none _ hwire hresults => exact Or.inl ⟨by rw [hresults]; rfl, rfl⟩
  | empty wire hwire hempty =>
      exact Or.inl ⟨sealedPayloads_singleton_of_not fun hsealed => hsealed.2 hempty, rfl⟩
  | accepted wire payload hwire hnext hcipher =>
      obtain ⟨hlength, hne⟩ := mem_sealedPayloads (List.mem_of_getElem? hnext)
      have hframe : Frame.Sealable ⟨wire.messageType, payload⟩ := hlength
      exact Or.inr ⟨payload, sealedPayloads_cons_sealed hframe hne [], rfl, hnext⟩
  | refused wire e hwire hne hcipher => exact Or.inl ⟨rfl, rfl⟩

/-- **A call of `recv_frame` keeps the payloads in order.** -/
theorem Tapped.recv (h : s.Tapped session) (hkeeps : session.KeepsOnError)
    (hrecv : s.recv p reads = some s') : s'.Tapped session := by
  obtain ⟨results, n, hfound, hsent, hreceived, hopened, tcp, hends⟩ := h.recv_found hkeeps hrecv
  refine ⟨?_, ?_, ?_⟩
  · intro q
    rw [hends, hsent, hopened]
    by_cases hq : q = p
    · subst hq
      rw [Function.update_self, Function.update_self]
    · rw [Function.update_of_ne hq, Function.update_of_ne hq]
      exact h.noise q
  · intro q
    rw [hreceived, hsent]
    by_cases hq : q = p
    · subst hq
      rw [Function.update_self]
      by_cases hno : NoError (s.received q)
      · rw [beforeError_append hno, sealedPayloads_append]
        rcases hfound.sealedPayloads with ⟨hnone, -⟩ | ⟨payload, hone, -, hnext⟩
        · rw [hnone, List.append_nil]
          exact h.payloads q
        · rw [hone, append_singleton_prefix_iff (h.payloads q), h.counted q hno]
          exact hnext
      · rw [beforeError_append_of_error hno]
        exact h.payloads q
    · rw [Function.update_of_ne hq]
      exact h.payloads q
  · intro q
    rw [hreceived, hopened]
    by_cases hq : q = p
    · subst hq
      rw [Function.update_self, Function.update_self, noError_append]
      rintro ⟨hno, -⟩
      rw [beforeError_append hno, sealedPayloads_append, List.length_append, h.counted q hno]
      rcases hfound.sealedPayloads with ⟨hnone, rfl⟩ | ⟨payload, hone, rfl, -⟩
      · rw [hnone]
        rfl
      · rw [hone]
        rfl
    · rw [Function.update_of_ne hq, Function.update_of_ne hq]
      exact h.counted q

theorem Tapped.send (h : s.Tapped session) (p : Endpoint) (frame : Frame) (write : Write)
    (flush : Except String Unit) : (s.send p frame write flush).Tapped session := by
  refine ⟨?_, ?_, h.counted⟩
  · intro q
    unfold TappedLink.send
    dsimp only
    by_cases hq : q = p
    · subst hq
      rw [NoiseTransport.noise_sendFrame (h.noise q), Function.update_self, Function.update_self,
        sealedPayloads_append, List.length_append]
    · rw [Function.update_of_ne hq, Function.update_of_ne hq]
      exact h.noise q
  · intro q
    refine (h.payloads q).trans ?_
    unfold TappedLink.send
    dsimp only
    by_cases hq : q.peer = p
    · rw [hq, Function.update_self, sealedPayloads_append]
      exact List.prefix_append _ _
    · rw [Function.update_of_ne hq]

/-- **The payloads that are not empty arrive in order**, whatever happens between the ends. -/
theorem Tapped.step (h : s.Tapped session) (hkeeps : session.KeepsOnError) {label : Label}
    (hstep : s.step label = some s') : s'.Tapped session := by
  cases label with
  | send p frame write flush =>
      obtain rfl := Option.some_inj.1 hstep
      exact h.send p frame write flush
  | recv p reads => exact h.recv hkeeps hstep

/-! ### Authentic frames -/

/-- A frame that is encrypted comes after the payloads that are encrypted before it. -/
theorem sealedPayloads_getElem? {frames : List Frame} {k : ℕ} {frame : Frame}
    (hframe : frames[k]? = some frame) (hsealed : frame.Sealable) (hne : frame.payload ≠ []) :
    (sealedPayloads frames)[(sealedPayloads (frames.take k)).length]? = some frame.payload := by
  obtain ⟨hk, rfl⟩ := List.getElem?_eq_some_iff.1 hframe
  have hsplit : frames = frames.take k ++ frames[k] :: frames.drop (k + 1) := by
    rw [← List.drop_eq_getElem_cons hk, List.take_append_drop]
  have hpayloads : sealedPayloads frames = sealedPayloads (frames.take k) ++
      frames[k].payload :: sealedPayloads (frames.drop (k + 1)) := by
    rw [← sealedPayloads_cons_sealed hsealed hne, ← sealedPayloads_append, ← hsplit]
  rw [hpayloads, List.getElem?_append_right le_rfl, Nat.sub_self]
  rfl

/-- **A call of `recv_frame` keeps the frames authentic** exactly if the frame on the wire agrees with
the next one. -/
theorem authentic_recv (h : s.Tapped session) (hkeeps : session.KeepsOnError) (hs : s.Authentic)
    (hrecv : s.recv p reads = some s') : s'.Authentic ↔ s.Matches session (.recv p reads) := by
  obtain ⟨results, n, hfound, hsent, hreceived, -, -⟩ := h.recv_found hkeeps hrecv
  have hiff : s'.Authentic ↔ beforeError (s.received p ++ results) <+: s.sent p.peer := by
    unfold Authentic
    rw [hreceived, hsent]
    constructor
    · intro hall
      have hp := hall p
      rwa [Function.update_self] at hp
    · intro hp q
      by_cases hq : q = p
      · subst hq
        rwa [Function.update_self]
      · rw [Function.update_of_ne hq]
        exact hs q
  rw [hiff]
  by_cases hno : NoError (s.received p)
  · rw [beforeError_append hno]
    have hcounted := h.counted p hno
    obtain ⟨tail, htail⟩ := hs p
    have htake : (s.sent p.peer).take (beforeError (s.received p)).length =
        beforeError (s.received p) := by rw [← htail, List.take_left]
    cases hfound with
    | none _ hwire hresults =>
        rw [hresults, List.append_nil]
        refine iff_of_true (hs p) ?_
        intro _ wire hwire'
        rw [hwire] at hwire'
        cases hwire'
    | empty wire hwire hempty =>
        rw [show beforeError [.ok wire] = [wire] from rfl, append_singleton_prefix_iff (hs p)]
        constructor
        · intro hnext _ wire' hwire' _
          obtain rfl := Option.some_inj.1 (hwire.symm.trans hwire')
          refine ⟨wire, hnext, ?_, rfl, Iff.rfl⟩
          unfold Frame.Sealable
          rw [hempty]
          exact Nat.zero_le _
        · intro hmatches
          obtain ⟨frame, hnext, -, htype, hpayload⟩ := hmatches hno wire hwire (Or.inl hempty)
          obtain ⟨messageType, payload⟩ := frame
          obtain ⟨messageType', payload'⟩ := wire
          dsimp only at htype hpayload hempty
          rw [hnext, htype, hpayload.2 hempty, hempty]
    | accepted wire payload hwire hnext hcipher =>
        obtain ⟨hlength, hne⟩ := mem_sealedPayloads (List.mem_of_getElem? hnext)
        have hwire' : wire.payload ≠ [] := by
          intro hnil
          have hlen := session.length_cipher p.peer (s.opened p) payload
          rw [← hcipher, hnil, List.length_nil] at hlen
          omega
        rw [show beforeError [.ok ⟨wire.messageType, payload⟩] =
          [(⟨wire.messageType, payload⟩ : Frame)] from rfl, append_singleton_prefix_iff (hs p)]
        constructor
        · intro hframe _ wire'' hwire'' _
          obtain rfl := Option.some_inj.1 (hwire.symm.trans hwire'')
          exact ⟨_, hframe, hlength, rfl, iff_of_false hne hwire'⟩
        · intro hmatches
          obtain ⟨frame, hframe, hsealed, htype, hpayload⟩ :=
            hmatches hno wire hwire (Or.inr ⟨payload, hnext, hcipher⟩)
          have hsame := sealedPayloads_getElem? hframe hsealed (mt hpayload.1 hwire')
          rw [htake, hcounted, hnext] at hsame
          rw [hframe, ← htype, Option.some_inj.1 hsame]
    | refused wire e hwire hne hcipher =>
        rw [show beforeError [.error e] = [] from rfl, List.append_nil]
        refine iff_of_true (hs p) ?_
        intro _ wire' hwire' hdue
        obtain rfl := Option.some_inj.1 (hwire.symm.trans hwire')
        rcases hdue with hempty | ⟨payload, hnext, heq⟩
        · exact absurd hempty hne
        · exact absurd heq (hcipher payload hnext)
  · rw [beforeError_append_of_error hno]
    exact iff_of_true (hs p) fun hno' => absurd hno' hno

theorem authentic_send (hs : s.Authentic) (p : Endpoint) (frame : Frame) (write : Write)
    (flush : Except String Unit) : (s.send p frame write flush).Authentic := by
  intro q
  refine (hs q).trans ?_
  unfold send
  dsimp only
  by_cases hq : q.peer = p
  · rw [hq, Function.update_self]
    exact List.prefix_append _ _
  · rw [Function.update_of_ne hq]

/-- **The runs in which the frames are authentic**: those in which every frame that is found on the
wire before an error, and that has no payload or the ciphertext that is due, agrees with the next frame
sent in what is not encrypted. -/
theorem authentic_iff (session : snow.Session) (hkeeps : session.KeepsOnError)
    (connectionId : Endpoint → ConnId) {labels : List Label} {s : TappedLink snow}
    (hrun : Runs.run step (start session connectionId) labels = some s) :
    Runs.Throughout step Authentic (start session connectionId) labels ↔
      Runs.Meets step (Matches session) (start session connectionId) labels := by
  have hstart : (start session connectionId).Authentic := fun _ => List.nil_prefix
  have hinv : ∀ (s : TappedLink snow) (label : Label) (s' : TappedLink snow), s.Tapped session →
      s.Authentic → s.step label = some s' → s'.Authentic → s'.Tapped session :=
    fun _ _ _ h _ hstep _ => h.step hkeeps hstep
  refine Runs.throughout_iff_meets hinv ?_ (tapped_start session connectionId) hstart hrun
  intro s label s' h hs hstep
  cases label with
  | send p frame write flush =>
      obtain rfl := Option.some_inj.1 hstep
      exact iff_of_true (authentic_send hs p frame write flush) trivial
  | recv p reads => exact authentic_recv h hkeeps hs hstep

theorem keepsOnError_testSession : NoiseLink.testSession.KeepsOnError := by
  intro p n m bytes bufLen text state hread
  unfold NoiseLink.testSession NoiseLink.testSnow at hread ⊢
  dsimp only at hread ⊢
  split at hread
  · exact (congrArg Prod.snd hread).symm
  · cases congrArg Prod.fst hread

/-- The host sends a message, which arrives in two pieces, and the client answers with a pong. -/
def testUntouched : List Label :=
  [.send .host ⟨MessageType.roomMessage, [1, 2]⟩ .ok (.ok ()),
    .recv .client [.data [0, 0, 0, 19], .data (MessageType.roomMessage :: 1 :: 2 :: NoiseLink.testTag .host 0)],
    .send .client ⟨MessageType.pong, []⟩ .ok (.ok ()), .recv .host [.data [0, 0, 0, 1, MessageType.pong]]]

/-- What arrives agrees with what is sent, and so the frames are authentic. -/
theorem authentic_iff_testUntouched : ∃ s,
    Runs.run step (start NoiseLink.testSession fun _ => 1) testUntouched = some s ∧
      s.received .client = [.ok ⟨MessageType.roomMessage, [1, 2]⟩] ∧
      s.received .host = [.ok ⟨MessageType.pong, []⟩] ∧
      Runs.Meets step (Matches NoiseLink.testSession)
        (start NoiseLink.testSession fun _ => 1) testUntouched ∧
      Runs.Throughout step Authentic (start NoiseLink.testSession fun _ => 1) testUntouched := by
  have hmeets : Runs.Meets step (Matches NoiseLink.testSession)
      (start NoiseLink.testSession fun _ => 1) testUntouched := by
    refine ⟨trivial, fun s₁ h₁ => ⟨?_, fun s₂ h₂ => ⟨trivial, fun s₃ h₃ => ⟨?_, fun _ _ => trivial⟩⟩⟩⟩
    -- the message at the client, and then the pong at the host
    · obtain rfl := Option.some.inj h₁
      rintro - wire hwire -
      obtain rfl := Option.some.inj hwire
      exact ⟨_, rfl, by decide, rfl, by decide⟩
    · obtain rfl := Option.some.inj h₁
      obtain rfl := Option.some.inj h₂
      obtain rfl := Option.some.inj h₃
      rintro - wire hwire -
      obtain rfl := Option.some.inj hwire
      exact ⟨_, rfl, by decide, rfl, by decide⟩
  exact ⟨_, rfl, rfl, rfl, hmeets, (authentic_iff NoiseLink.testSession keepsOnError_testSession (fun _ => 1)
    (show Runs.run step _ testUntouched = some _ from rfl)).2 hmeets⟩

/-- The host sends a message.  Its type is changed on the way, and a ping is put behind it. -/
def testRelabelled : List Label :=
  [.send .host ⟨MessageType.roomMessage, [1, 2]⟩ .ok (.ok ()),
    .recv .client [.data ([0, 0, 0, 19, MessageType.peerReady, 1, 2] ++ NoiseLink.testTag .host 0)],
    .recv .client [.data [0, 0, 0, 1, MessageType.ping]]]

/-- **The type of a frame can be changed, and a frame without a payload can be put in.** -/
theorem relabelled : ∃ s,
    Runs.run step (start NoiseLink.testSession fun _ => 1) testRelabelled = some s ∧
      s.sent .host = [⟨MessageType.roomMessage, [1, 2]⟩] ∧
      s.received .client =
        [.ok ⟨MessageType.peerReady, [1, 2]⟩, .ok ⟨MessageType.ping, []⟩] ∧
      ¬ s.Authentic := by
  refine ⟨_, rfl, rfl, rfl, ?_⟩
  intro hauthentic
  exact absurd (hauthentic .client) (by decide)

end TappedLink

end Sanctum
