/-
The framing of messages on the wire.

A frame is written as the length of what follows, four bytes in big-endian order, the type, and the
payload.  The decoder takes a frame off the beginning of a buffer, or waits until all of it is there.
It refuses the length 0 and lengths above 65536, so that the longest payload that it takes has 65535
bytes.

Main definitions:

* `Sanctum.encodeFrame`, `Sanctum.decodeFrame` — the codec;
* `Sanctum.Frame.Fits` — the payload is short enough;
* `Sanctum.decodeFrameInPlace` — the decoder on the buffer itself, which it advances.

Main results:

* `Sanctum.lawful_codec` — **the decoder undoes the encoder** on the frames that fit;
* `Sanctum.exact_codec` — it takes nothing else, and its errors are final;
* `Sanctum.decodeFrame_encodeFrame_error` — the encoder makes what the decoder refuses of a longer
  frame;
* `Sanctum.decodeFrame_grammar` — **what the decoder accepts**, and what it does with the buffer.
-/

import Sanctum.Framing
import Sanctum.Wire

set_option relaxedAutoImplicit false
set_option autoImplicit false

namespace Sanctum

/-- The maximum frame size: the type and the payload. -/
def maxFrameLen : UInt32 := 65536

/-- `BufMut::put_u32`, in big-endian order. -/
def putU32 (n : UInt32) : Bytes :=
  [(n >>> 24).toUInt8, (n >>> 16).toUInt8, (n >>> 8).toUInt8, n.toUInt8]

/-- `u32::from_be_bytes`. -/
def fromBeBytes (b₀ b₁ b₂ b₃ : UInt8) : UInt32 :=
  UInt32.ofNat (((b₀.toNat * 256 + b₁.toNat) * 256 + b₂.toNat) * 256 + b₃.toNat)

/-- Encode a frame; the length is taken modulo 2^32. -/
def encodeFrame (frame : Frame) : Bytes :=
  let len : UInt32 := 1 + UInt32.ofNat frame.payload.length
  putU32 len ++ (frame.messageType :: frame.payload)

/-- Decode a frame from a buffer: `none` if there is not enough data, else the frame and what follows
it.  The buffer is left as it was unless there is a frame. -/
def decodeFrame : Framing.Decoder UInt8 Frame SanctumError
  | b₀ :: b₁ :: b₂ :: b₃ :: buf =>
    let len := fromBeBytes b₀ b₁ b₂ b₃
    if len = 0 then .error (.malformedMessage "frame len = 0")
    else if len > maxFrameLen then
      .error (.malformedMessage
        ("frame too large: " ++ toString len ++ " > " ++ toString maxFrameLen))
    else if buf.length < len.toNat then .ok none
    else
      match buf with
      | messageType :: buf =>
        let payloadLen := len.toNat - 1
        .ok (some (⟨messageType, buf.take payloadLen⟩, buf.drop payloadLen))
      | [] => .ok none -- not reached, since the length is positive
  | _ => .ok none

/-- The payload is short enough for a frame. -/
def Frame.Fits (frame : Frame) : Prop := frame.payload.length ≤ 65535

instance (frame : Frame) : Decidable frame.Fits :=
  inferInstanceAs (Decidable (frame.payload.length ≤ 65535))

theorem fromBeBytes_putU32 (n : UInt32) :
    fromBeBytes (n >>> 24).toUInt8 (n >>> 16).toUInt8 (n >>> 8).toUInt8 n.toUInt8 = n := by
  have hn := n.toNat_lt
  unfold fromBeBytes
  refine UInt32.toNat_inj.1 ?_
  simp only [UInt32.toNat_ofNat', UInt32.toNat_toUInt8, UInt32.toNat_shiftRight,
    Nat.shiftRight_eq_div_pow, UInt32.toNat_ofNat, Nat.reducePow, Nat.reduceMod]
  omega

/-- The length of a frame that fits. -/
theorem Frame.Fits.toNat_len {frame : Frame} (h : frame.Fits) :
    (1 + UInt32.ofNat frame.payload.length).toNat = 1 + frame.payload.length := by
  unfold Fits at h
  rw [UInt32.toNat_add, UInt32.toNat_one, UInt32.toNat_ofNat']
  omega

theorem length_encodeFrame (frame : Frame) :
    (encodeFrame frame).length = 5 + frame.payload.length := by
  unfold encodeFrame putU32
  simp only [List.length_append, List.length_cons, List.length_nil]
  omega

theorem encodeFrame_ne_nil (frame : Frame) : encodeFrame frame ≠ [] := by
  refine List.ne_nil_of_length_pos ?_
  rw [length_encodeFrame]
  omega

/-- What the decoder does once the length is there. -/
theorem decodeFrame_header (b₀ b₁ b₂ b₃ : UInt8) (buf : Bytes) :
    decodeFrame (b₀ :: b₁ :: b₂ :: b₃ :: buf) =
      let len := fromBeBytes b₀ b₁ b₂ b₃
      if len = 0 then .error (.malformedMessage "frame len = 0")
      else if len > maxFrameLen then
        .error (.malformedMessage
          ("frame too large: " ++ toString len ++ " > " ++ toString maxFrameLen))
      else if buf.length < len.toNat then .ok none
      else match buf with
        | messageType :: buf =>
          .ok (some (⟨messageType, buf.take (len.toNat - 1)⟩, buf.drop (len.toNat - 1)))
        | [] => .ok none := rfl

/-- What the decoder does once the length of a frame that fits is there. -/
theorem decodeFrame_putU32 {frame : Frame} (h : frame.Fits) (buf : Bytes) :
    decodeFrame (putU32 (1 + UInt32.ofNat frame.payload.length) ++ buf) =
      if buf.length < 1 + frame.payload.length then .ok none
      else match buf with
        | messageType :: buf =>
          .ok (some (⟨messageType, buf.take frame.payload.length⟩, buf.drop frame.payload.length))
        | [] => .ok none := by
  have hlen := h.toNat_len
  have hpos : 1 + UInt32.ofNat frame.payload.length ≠ 0 := by
    intro hzero
    rw [hzero, UInt32.toNat_zero] at hlen
    omega
  have hmax : ¬ 1 + UInt32.ofNat frame.payload.length > maxFrameLen := by
    unfold Frame.Fits at h
    rw [gt_iff_lt, UInt32.lt_iff_toNat_lt, hlen]
    exact not_lt.2 (show 1 + frame.payload.length ≤ 65536 by omega)
  refine (decodeFrame_header _ _ _ _ buf).trans ?_
  dsimp only
  rw [fromBeBytes_putU32, if_neg hpos, if_neg hmax, hlen, Nat.add_sub_cancel_left]

/-- A buffer with less than four bytes. -/
theorem decodeFrame_of_length_lt {buf : Bytes} (h : buf.length < 4) : decodeFrame buf = .ok none := by
  rcases buf with _ | ⟨b₀, _ | ⟨b₁, _ | ⟨b₂, _ | ⟨b₃, buf⟩⟩⟩⟩
  · rfl
  · rfl
  · rfl
  · rfl
  · simp only [List.length_cons] at h
    omega

/-- **The decoder undoes the encoder** on the frames that fit, and waits for the rest of one. -/
theorem lawful_codec : Framing.Lawful encodeFrame decodeFrame Frame.Fits where
  decode_nil := rfl
  decode_encode := by
    intro frame rest hfits
    unfold encodeFrame
    rw [List.append_assoc, decodeFrame_putU32 hfits, if_neg (by simp; omega)]
    simp
  decode_cut := by
    intro frame cut rest hfits hcut hrest
    have hlength := congrArg List.length hcut
    rw [length_encodeFrame, List.length_append] at hlength
    have hpos := List.length_pos_iff.2 hrest
    by_cases hshort : cut.length < 4
    · exact decodeFrame_of_length_lt hshort
    · unfold encodeFrame at hcut
      have hsplit : ∃ buf, cut = putU32 (1 + UInt32.ofNat frame.payload.length) ++ buf := by
        have hbegins : putU32 (1 + UInt32.ofNat frame.payload.length) <+: cut :=
          List.prefix_of_prefix_length_le ⟨_, hcut⟩ ⟨_, rfl⟩ (not_lt.1 hshort)
        obtain ⟨buf, hbuf⟩ := hbegins
        exact ⟨buf, hbuf.symm⟩
      obtain ⟨buf, rfl⟩ := hsplit
      rw [List.length_append] at hlength
      have hfour : (putU32 (1 + UInt32.ofNat frame.payload.length)).length = 4 := rfl
      rw [decodeFrame_putU32 hfits, if_pos (by omega)]

/-! ### What the decoder accepts -/

theorem putU32_fromBeBytes (b₀ b₁ b₂ b₃ : UInt8) :
    putU32 (fromBeBytes b₀ b₁ b₂ b₃) = [b₀, b₁, b₂, b₃] := by
  have h₀ := b₀.toNat_lt
  have h₁ := b₁.toNat_lt
  have h₂ := b₂.toNat_lt
  have h₃ := b₃.toNat_lt
  unfold putU32 fromBeBytes
  simp only [List.cons.injEq, and_true]
  refine ⟨?_, ?_, ?_, ?_⟩ <;> refine UInt8.toNat_inj.1 ?_ <;>
    simp only [UInt32.toNat_ofNat', UInt32.toNat_toUInt8, UInt32.toNat_shiftRight,
      Nat.shiftRight_eq_div_pow, UInt32.toNat_ofNat, Nat.reducePow, Nat.reduceMod] <;>
    omega

/-- One of the verdicts on a buffer that holds a length. -/
theorem decodeFrame_cases (b₀ b₁ b₂ b₃ : UInt8) (buf : Bytes) :
    let len := fromBeBytes b₀ b₁ b₂ b₃
    (∃ text, ∀ more, decodeFrame (b₀ :: b₁ :: b₂ :: b₃ :: (buf ++ more)) =
      .error (.malformedMessage text)) ∨
    (buf.length < len.toNat ∧ decodeFrame (b₀ :: b₁ :: b₂ :: b₃ :: buf) = .ok none) ∨
    ∃ messageType payload rest, buf = messageType :: payload ++ rest ∧
      len.toNat = 1 + payload.length ∧ payload.length ≤ 65535 ∧
      decodeFrame (b₀ :: b₁ :: b₂ :: b₃ :: buf) = .ok (some (⟨messageType, payload⟩, rest)) := by
  dsimp only
  by_cases hzero : fromBeBytes b₀ b₁ b₂ b₃ = 0
  · refine Or.inl ⟨"frame len = 0", ?_⟩
    intro more
    exact (decodeFrame_header _ _ _ _ _).trans (if_pos hzero)
  by_cases hmax : fromBeBytes b₀ b₁ b₂ b₃ > maxFrameLen
  · refine Or.inl ⟨"frame too large: " ++ toString (fromBeBytes b₀ b₁ b₂ b₃) ++ " > " ++
      toString maxFrameLen, ?_⟩
    intro more
    exact (decodeFrame_header _ _ _ _ _).trans ((if_neg hzero).trans (if_pos hmax))
  refine Or.inr ?_
  rw [decodeFrame_header]
  dsimp only
  rw [if_neg hzero, if_neg hmax]
  have hpos : 0 < (fromBeBytes b₀ b₁ b₂ b₃).toNat := by
    refine Nat.pos_of_ne_zero ?_
    intro h
    exact hzero (UInt32.toNat_inj.1 h)
  have hle : (fromBeBytes b₀ b₁ b₂ b₃).toNat ≤ 65536 :=
    UInt32.le_iff_toNat_le.1 (show _ ≤ maxFrameLen from UInt32.not_lt.1 hmax)
  by_cases hshort : buf.length < (fromBeBytes b₀ b₁ b₂ b₃).toNat
  · exact Or.inl ⟨hshort, if_pos hshort⟩
  · rw [if_neg hshort]
    cases buf with
    | nil => exact absurd hpos hshort
    | cons messageType buf =>
        rw [List.length_cons] at hshort
        have htake : (buf.take ((fromBeBytes b₀ b₁ b₂ b₃).toNat - 1)).length =
            (fromBeBytes b₀ b₁ b₂ b₃).toNat - 1 := by
          rw [List.length_take]
          omega
        refine Or.inr ⟨messageType, buf.take ((fromBeBytes b₀ b₁ b₂ b₃).toNat - 1),
          buf.drop ((fromBeBytes b₀ b₁ b₂ b₃).toNat - 1), ?_, ?_, ?_, rfl⟩
        · rw [List.cons_append, List.take_append_drop]
        · rw [htake]
          omega
        · rw [htake]
          omega

/-- **The decoder takes nothing but encodings of frames that fit**, and its errors are final. -/
theorem exact_codec : Framing.Exact encodeFrame decodeFrame Frame.Fits where
  toLawful := lawful_codec
  decode_only := by
    intro buf frame rest hdecode
    rcases buf with _ | ⟨b₀, _ | ⟨b₁, _ | ⟨b₂, _ | ⟨b₃, buf⟩⟩⟩⟩
    · cases hdecode
    · cases hdecode
    · cases hdecode
    · cases hdecode
    · rcases decodeFrame_cases b₀ b₁ b₂ b₃ buf with
        ⟨text, herror⟩ | ⟨-, hwait⟩ | ⟨messageType, payload, rest', rfl, hlen, hfits, hfound⟩
      · have herror := herror []
        rw [List.append_nil, hdecode] at herror
        cases herror
      · rw [hdecode] at hwait
        cases hwait
      · rw [hdecode] at hfound
        obtain ⟨rfl, rfl⟩ := Prod.mk.inj (Option.some_inj.1 (Except.ok.inj hfound))
        refine ⟨hfits, ?_⟩
        have hfits' : Frame.Fits ⟨messageType, payload⟩ := hfits
        have hlen32 : (1 + UInt32.ofNat payload.length) = fromBeBytes b₀ b₁ b₂ b₃ :=
          UInt32.toNat_inj.1 (hfits'.toNat_len.trans hlen.symm)
        unfold encodeFrame
        dsimp only
        rw [hlen32, putU32_fromBeBytes]
        rfl
  decode_error := by
    intro buf e more hdecode
    rcases buf with _ | ⟨b₀, _ | ⟨b₁, _ | ⟨b₂, _ | ⟨b₃, buf⟩⟩⟩⟩
    · cases hdecode
    · cases hdecode
    · cases hdecode
    · cases hdecode
    · rcases decodeFrame_cases b₀ b₁ b₂ b₃ buf with
        ⟨text, herror⟩ | ⟨-, hwait⟩ | ⟨messageType, payload, rest, -, -, -, hfound⟩
      · have herror' := herror []
        rw [List.append_nil, hdecode] at herror'
        rw [herror']
        exact herror more
      · rw [hdecode] at hwait
        cases hwait
      · rw [hdecode] at hfound
        cases hfound

/-- The decoder finds a frame exactly behind its encoding, and only if it fits. -/
theorem decodeFrame_eq_found {buf rest : Bytes} {frame : Frame} :
    decodeFrame buf = .ok (some (frame, rest)) ↔ frame.Fits ∧ buf = encodeFrame frame ++ rest := by
  constructor
  · intro h
    exact exact_codec.decode_only _ _ _ h
  · rintro ⟨hfits, rfl⟩
    exact lawful_codec.decode_encode frame rest hfits

/-- **The encoder does not check the size.**  What it makes of a frame that does not fit is refused, up
to the payloads whose length is again that of a short one. -/
theorem decodeFrame_encodeFrame_error {frame : Frame} (hlong : ¬ frame.Fits)
    (hsize : frame.payload.length < 2 ^ 32) :
    ∃ text, decodeFrame (encodeFrame frame) = .error (.malformedMessage text) := by
  unfold Frame.Fits at hlong
  have hlen : (1 + UInt32.ofNat frame.payload.length).toNat = (1 + frame.payload.length) % 2 ^ 32 := by
    rw [UInt32.toNat_add, UInt32.toNat_one, UInt32.toNat_ofNat', Nat.add_mod_mod]
  by_cases hzero : 1 + UInt32.ofNat frame.payload.length = 0
  · refine ⟨"frame len = 0", ?_⟩
    refine (decodeFrame_header _ _ _ _ (frame.messageType :: frame.payload)).trans ?_
    dsimp only
    rw [fromBeBytes_putU32, if_pos hzero]
  · have hmax : 1 + UInt32.ofNat frame.payload.length > maxFrameLen := by
      have hne : (1 + UInt32.ofNat frame.payload.length).toNat ≠ 0 := by
        intro h
        exact hzero (UInt32.toNat_inj.1 h)
      rw [gt_iff_lt, UInt32.lt_iff_toNat_lt]
      show 65536 < (1 + UInt32.ofNat frame.payload.length).toNat
      omega
    refine ⟨"frame too large: " ++ toString (1 + UInt32.ofNat frame.payload.length) ++ " > " ++
      toString maxFrameLen, ?_⟩
    refine (decodeFrame_header _ _ _ _ (frame.messageType :: frame.payload)).trans ?_
    dsimp only
    rw [fromBeBytes_putU32, if_neg hzero, if_pos hmax]

/-- `decode_frame` on the buffer itself: the length, the type and the payload are skipped one after
the other, once all of the frame is known to be there. -/
def decodeFrameInPlace (buf : Bytes) : Except SanctumError (Option Frame) × Bytes :=
  match buf with
  | b₀ :: b₁ :: b₂ :: b₃ :: _ =>
    let len := fromBeBytes b₀ b₁ b₂ b₃
    if len = 0 then (.error (.malformedMessage "frame len = 0"), buf)
    else if len > maxFrameLen then
      (.error (.malformedMessage
        ("frame too large: " ++ toString len ++ " > " ++ toString maxFrameLen)), buf)
    else
      let total := 4 + len.toNat
      if buf.length < total then (.ok none, buf) -- need more data
      else
        let buf := buf.drop 4
        let messageType := buf.headD 0 -- it is there, since the length is positive
        let buf := buf.drop 1
        let payloadLen := len.toNat - 1
        let payload := buf.take payloadLen
        let buf := buf.drop payloadLen
        (.ok (some ⟨messageType, payload⟩), buf)
  | _ => (.ok none, buf)

theorem decodeFrameInPlace_eq (buf : Bytes) :
    decodeFrameInPlace buf = Framing.poll decodeFrame buf := by
  rcases buf with _ | ⟨b₀, _ | ⟨b₁, _ | ⟨b₂, _ | ⟨b₃, buf⟩⟩⟩⟩
  · rfl
  · rfl
  · rfl
  · rfl
  unfold decodeFrameInPlace Framing.poll decodeFrame
  dsimp only
  by_cases hzero : fromBeBytes b₀ b₁ b₂ b₃ = 0
  · rw [if_pos hzero, if_pos hzero]
  rw [if_neg hzero, if_neg hzero]
  by_cases hmax : fromBeBytes b₀ b₁ b₂ b₃ > maxFrameLen
  · rw [if_pos hmax, if_pos hmax]
  rw [if_neg hmax, if_neg hmax]
  by_cases hshort : buf.length < (fromBeBytes b₀ b₁ b₂ b₃).toNat
  · rw [if_pos hshort, if_pos (by simp only [List.length_cons]; omega)]
  rw [if_neg hshort, if_neg (by simp only [List.length_cons]; omega)]
  cases buf with
  | nil =>
      refine absurd ?_ hshort
      refine Nat.pos_of_ne_zero ?_
      intro h
      exact hzero (UInt32.toNat_inj.1 h)
  | cons messageType buf => rfl

/-- **What the decoder accepts.**  It finds a frame exactly in the buffers that begin with the encoding
of one whose payload has at most 65535 bytes, and leaves what follows; otherwise it leaves the buffer
alone; and more data neither turns an error into something else nor changes the frame that is found. -/
theorem decodeFrame_grammar (b : Bytes) :
    (∀ f r, decodeFrameInPlace b = (.ok (some f), r) ↔
      b = encodeFrame f ++ r ∧ f.payload.length ≤ 65535) ∧
    (∀ r, decodeFrameInPlace b = (.ok none, r) → r = b) ∧
    (∀ e r, decodeFrameInPlace b = (.error e, r) → r = b) ∧
    ∀ x, (∀ e r, decodeFrameInPlace b = (.error e, r) →
        decodeFrameInPlace (b ++ x) = (.error e, b ++ x)) ∧
      ∀ f r, decodeFrameInPlace b = (.ok (some f), r) →
        decodeFrameInPlace (b ++ x) = (.ok (some f), r ++ x) := by
  simp only [decodeFrameInPlace_eq]
  refine ⟨?_, ?_, ?_, ?_⟩
  · intro f r
    exact exact_codec.poll_eq_found
  · intro r hpoll
    exact Framing.poll_unchanged hpoll (by simp)
  · intro e r hpoll
    exact Framing.poll_unchanged hpoll (by simp)
  · intro x
    refine ⟨?_, ?_⟩
    · intro e r hpoll
      exact exact_codec.poll_error_append hpoll x
    · intro f r hpoll
      exact exact_codec.poll_found_append hpoll x

end Sanctum
