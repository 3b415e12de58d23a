/-
**Frames cut out of a stream.**

A stream of frames arrives in chunks, and a buffer keeps what has arrived and is not yet part of a
frame.  A decoder makes one attempt at the buffer: it finds a frame, or too little data, or an error.
If it undoes the encoding, whatever follows, and finds too little data in every proper beginning of an
encoding, then the frames that come out do not depend on how the stream is cut.

Main definitions:

* `Framing.Decoder`, `Framing.Lawful` — a decoder, and what it has to do with an encoding;
* `Framing.Event`, `Framing.run` — chunks that are fed and attempts that are made, in any order;
* `Framing.expected` — **what the attempts must find**: the next frame, once all of it has arrived;
* `Framing.Exact` — a decoder that finds nothing but encodings, and whose errors are final.

Main results:

* `Framing.Lawful.decode_arrived` — one attempt at the beginning of a stream;
* `Framing.Lawful.run_eq_expected` — **the attempts find what they must**, however the stream is cut;
* `Framing.Lawful.run_drained` — enough attempts at the end find everything;
* `Framing.Exact.poll_eq_found`, `Framing.Exact.poll_found_append`, `Framing.Exact.poll_error_append` —
  **what an attempt accepts**, and that more data does not change a verdict.
-/

import Mathlib

set_option relaxedAutoImplicit false
set_option autoImplicit false

namespace Framing

variable {α β ε : Type}

/-- One attempt at a buffer: an error, too little data, or a frame and what follows it. -/
abbrev Decoder (α β ε : Type) : Type := List α → Except ε (Option (β × List α))

/-- **A decoder undoes an encoding** of the valid frames, and waits for the rest of one. -/
structure Lawful (encode : β → List α) (decode : Decoder α β ε) (Valid : β → Prop) : Prop where
  decode_nil : decode [] = .ok none
  decode_encode : ∀ b rest, Valid b → decode (encode b ++ rest) = .ok (some (b, rest))
  decode_cut : ∀ b cut rest, Valid b → encode b = cut ++ rest → rest ≠ [] → decode cut = .ok none

/-- The stream of some frames. -/
def stream (encode : β → List α) (bs : List β) : List α := bs.flatMap encode

@[simp] theorem stream_nil (encode : β → List α) : stream encode [] = [] := rfl

@[simp] theorem stream_cons (encode : β → List α) (b : β) (bs : List β) :
    stream encode (b :: bs) = encode b ++ stream encode bs := rfl

variable {encode : β → List α} {decode : Decoder α β ε} {Valid : β → Prop}

theorem stream_eq_nil (hne : ∀ b, encode b ≠ []) {bs : List β} : stream encode bs = [] ↔ bs = [] := by
  cases bs with
  | nil => exact iff_of_true rfl rfl
  | cons b bs =>
      rw [stream_cons, List.append_eq_nil_iff]
      exact iff_of_false (fun h => hne b h.1) (List.cons_ne_nil b bs)

/-- Chunks that are not empty make something. -/
theorem chunks_eq_nil {chunks : List (List α)} (hne : ∀ chunk ∈ chunks, chunk ≠ [])
    (hflatten : chunks.flatten = []) : chunks = [] := by
  refine List.eq_nil_iff_forall_not_mem.2 ?_
  intro chunk hmem
  exact hne chunk hmem (List.flatten_eq_nil_iff.1 hflatten chunk hmem)

/-- **One attempt at the beginning of a stream**: it finds the first frame if all of it has arrived,
and waits otherwise. -/
theorem Lawful.decode_arrived (h : Lawful encode decode Valid) {b : β} (hb : Valid b)
    {buf later tail : List α} (hbuf : buf ++ later = encode b ++ tail) :
    (∃ rest, buf = encode b ++ rest ∧ rest ++ later = tail ∧
      decode buf = .ok (some (b, rest))) ∨
    (buf.length < (encode b).length ∧ decode buf = .ok none) := by
  rcases List.append_eq_append_iff.1 hbuf with ⟨cut, hcut, -⟩ | ⟨rest, hrest, htail⟩
  · rcases List.eq_nil_or_concat cut with rfl | ⟨init, last, rfl⟩
    · rw [List.append_nil] at hcut
      subst hcut
      have hlater := List.append_cancel_left hbuf
      refine Or.inl ⟨[], (List.append_nil _).symm, hlater, ?_⟩
      rw [← List.append_nil (encode b)]
      exact h.decode_encode b [] hb
    · refine Or.inr ⟨?_, h.decode_cut b buf _ hb hcut (by simp)⟩
      rw [hcut]
      simp
  · subst hrest
    exact Or.inl ⟨rest, rfl, htail.symm, h.decode_encode b rest hb⟩

/-! ### Chunks and attempts -/

/-- A chunk is fed, or an attempt is made. -/
inductive Event (α : Type)
  | feed (chunk : List α)
  | poll

/-- The chunks that are fed, put together. -/
def fed : List (Event α) → List α
  | [] => []
  | .feed chunk :: events => chunk ++ fed events
  | .poll :: events => fed events

/-- An attempt: what it finds, and the buffer after it. -/
def poll (decode : Decoder α β ε) (buf : List α) : Except ε (Option β) × List α :=
  match decode buf with
  | .error e => (.error e, buf)
  | .ok none => (.ok none, buf)
  | .ok (some (b, rest)) => (.ok (some b), rest)

/-- What the attempts find, and the buffer at the end. -/
def run (decode : Decoder α β ε) :
    List α → List (Event α) → List (Except ε (Option β)) × List α
  | buf, [] => ([], buf)
  | buf, .feed chunk :: events => run decode (buf ++ chunk) events
  | buf, .poll :: events =>
    let found := run decode (poll decode buf).2 events
    ((poll decode buf).1 :: found.1, found.2)

/-- **What the attempts must find**, and the frames that they leave: an attempt finds the next frame
if all of it has arrived, and nothing otherwise.  The number is that of the symbols in the buffer. -/
def expected (encode : β → List α) :
    List β → ℕ → List (Event α) → List (Option β) × List β
  | bs, _, [] => ([], bs)
  | bs, n, .feed chunk :: events => expected encode bs (n + chunk.length) events
  | [], n, .poll :: events =>
    let found := expected encode [] n events
    (none :: found.1, found.2)
  | b :: bs, n, .poll :: events =>
    if (encode b).length ≤ n then
      let found := expected encode bs (n - (encode b).length) events
      (some b :: found.1, found.2)
    else
      let found := expected encode (b :: bs) n events
      (none :: found.1, found.2)

/-- The frames that have been found, in order. -/
def found (results : List (Option β)) : List β := results.filterMap id

theorem fed_append (events events' : List (Event α)) :
    fed (events ++ events') = fed events ++ fed events' := by
  induction events with
  | nil => rfl
  | cons event events ih =>
      cases event with
      | feed chunk => rw [List.cons_append, fed, fed, ih, List.append_assoc]
      | poll => exact ih

/-- **The attempts find what they must**, however the stream is cut, and the buffer at the end is the
stream of the frames that are left. -/
theorem Lawful.run_eq_expected (h : Lawful encode decode Valid) {bs : List β}
    (hvalid : ∀ b ∈ bs, Valid b) {buf : List α} {events : List (Event α)}
    (hfed : buf ++ fed events = stream encode bs) :
    run decode buf events = ((expected encode bs buf.length events).1.map .ok,
      stream encode (expected encode bs buf.length events).2) := by
  induction events generalizing bs buf with
  | nil =>
      have hbuf : buf = stream encode bs := by rw [← hfed, fed, List.append_nil]
      rw [run, expected, hbuf]
      rfl
  | cons event events ih =>
      cases event with
      | feed chunk =>
          rw [fed, ← List.append_assoc] at hfed
          rw [run, expected, ih hvalid hfed, List.length_append]
      | poll =>
          rw [fed] at hfed
          cases bs with
          | nil =>
              obtain ⟨rfl, -⟩ := List.append_eq_nil_iff.1 hfed
              have hpoll : poll decode [] = (.ok none, []) := by
                unfold poll
                rw [h.decode_nil]
              rw [run, hpoll, ih hvalid hfed, expected]
              rfl
          | cons b bs =>
              rcases h.decode_arrived (hvalid b List.mem_cons_self) hfed with
                ⟨rest, rfl, hrest, hdecode⟩ | ⟨hlt, hdecode⟩
              · have hpoll : poll decode (encode b ++ rest) = (.ok (some b), rest) := by
                  unfold poll
                  rw [hdecode]
                have hle : (encode b).length ≤ (encode b ++ rest).length := by simp
                have hlength : (encode b ++ rest).length - (encode b).length = rest.length := by simp
                have hvalid' : ∀ b ∈ bs, Valid b := fun b' hb' =>
                  hvalid b' (List.mem_cons_of_mem b hb')
                rw [run, hpoll, ih hvalid' hrest, expected, if_pos hle, hlength]
                rfl
              · have hpoll : poll decode buf = (.ok none, buf) := by
                  unfold poll
                  rw [hdecode]
                rw [run, hpoll, ih hvalid hfed, expected, if_neg (not_le.2 hlt)]
                rfl

/-- Nothing is lost, doubled or put out of order: what is found and what is left are the frames. -/
theorem found_append_left (encode : β → List α) (bs : List β) (n : ℕ) (events : List (Event α)) :
    found (expected encode bs n events).1 ++ (expected encode bs n events).2 = bs := by
  induction events generalizing bs n with
  | nil => rfl
  | cons event events ih =>
      cases event with
      | feed chunk => exact ih bs (n + chunk.length)
      | poll =>
          cases bs with
          | nil => exact ih [] n
          | cons b bs =>
              rw [expected]
              split
              · exact congrArg (List.cons b) (ih bs (n - (encode b).length))
              · exact ih (b :: bs) n

/-- Attempts at a stream that has arrived find its frames, and then nothing. -/
theorem expected_drained (encode : β → List α) (bs : List β) {n k : ℕ}
    (hn : (stream encode bs).length ≤ n) (hk : bs.length ≤ k) :
    expected encode bs n (List.replicate k .poll) =
      (bs.map some ++ List.replicate (k - bs.length) none, []) := by
  induction k generalizing bs n with
  | zero =>
      obtain rfl := List.length_eq_zero_iff.1 (Nat.le_zero.1 hk)
      rfl
  | succ k ih =>
      rw [List.replicate_succ]
      cases bs with
      | nil =>
          rw [expected, ih [] hn (Nat.zero_le k)]
          rfl
      | cons b bs =>
          rw [stream_cons, List.length_append] at hn
          rw [expected, if_pos (by omega), ih bs (by omega) (Nat.le_of_succ_le_succ hk)]
          simp

theorem run_append (decode : Decoder α β ε) (buf : List α) (events events' : List (Event α)) :
    run decode buf (events ++ events') =
      ((run decode buf events).1 ++ (run decode (run decode buf events).2 events').1,
        (run decode (run decode buf events).2 events').2) := by
  induction events generalizing buf with
  | nil => rfl
  | cons event events ih =>
      cases event with
      | feed chunk => exact ih (buf ++ chunk)
      | poll =>
          rw [List.cons_append, run, run, ih]
          rfl

theorem fed_replicate_poll (k : ℕ) : fed (List.replicate k (.poll : Event α)) = [] := by
  induction k with
  | zero => rfl
  | succ k ih => exact ih

/-- **Enough attempts at the end find everything**: they find the frames that are left, and then
nothing, and the buffer is empty. -/
theorem Lawful.run_drained (h : Lawful encode decode Valid) {bs : List β}
    (hvalid : ∀ b ∈ bs, Valid b) {buf : List α} {events : List (Event α)}
    (hfed : buf ++ fed events = stream encode bs) {k : ℕ}
    (hk : (expected encode bs buf.length events).2.length ≤ k) :
    run decode buf (events ++ List.replicate k .poll) =
      (((expected encode bs buf.length events).1 ++
        ((expected encode bs buf.length events).2.map some ++
          List.replicate (k - (expected encode bs buf.length events).2.length) none)).map .ok, []) := by
  have hsplit := found_append_left encode bs buf.length events
  have hvalid' : ∀ b ∈ (expected encode bs buf.length events).2, Valid b := by
    intro b hb
    refine hvalid b ?_
    rw [← hsplit]
    exact List.mem_append_right _ hb
  have hfed' : stream encode (expected encode bs buf.length events).2 ++
      fed (List.replicate k .poll) = stream encode (expected encode bs buf.length events).2 := by
    rw [fed_replicate_poll, List.append_nil]
  rw [run_append, h.run_eq_expected hvalid hfed, h.run_eq_expected hvalid' hfed',
    expected_drained encode _ le_rfl hk, stream_nil]
  simp only [List.map_append]

/-! ### What a decoder accepts -/

/-- **A decoder that finds nothing but encodings**, and whose errors are final. -/
structure Exact (encode : β → List α) (decode : Decoder α β ε) (Valid : β → Prop) : Prop
    extends Lawful encode decode Valid where
  decode_only : ∀ buf b rest, decode buf = .ok (some (b, rest)) → Valid b ∧ buf = encode b ++ rest
  decode_error : ∀ buf e more, decode buf = .error e → decode (buf ++ more) = .error e

/-- What an attempt leaves in the buffer: everything, unless it finds a frame. -/
theorem poll_cases (decode : Decoder α β ε) (buf : List α) :
    (∃ e, decode buf = .error e ∧ poll decode buf = (.error e, buf)) ∨
    (decode buf = .ok none ∧ poll decode buf = (.ok none, buf)) ∨
    (∃ b rest, decode buf = .ok (some (b, rest)) ∧ poll decode buf = (.ok (some b), rest)) := by
  unfold poll
  rcases hdecode : decode buf with e | _ | ⟨b, rest⟩
  · exact Or.inl ⟨e, rfl, rfl⟩
  · exact Or.inr (Or.inl ⟨rfl, rfl⟩)
  · exact Or.inr (Or.inr ⟨b, rest, rfl, rfl⟩)

theorem poll_eq_found_iff {buf rest : List α} {b : β} :
    poll decode buf = (.ok (some b), rest) ↔ decode buf = .ok (some (b, rest)) := by
  rcases poll_cases decode buf with ⟨e, hdecode, hpoll⟩ | ⟨hdecode, hpoll⟩ | ⟨b', rest', hdecode, hpoll⟩
  · simp [hdecode, hpoll]
  · simp [hdecode, hpoll]
  · simp [hdecode, hpoll]

/-- **An attempt finds exactly the encodings.** -/
theorem Exact.poll_eq_found (h : Exact encode decode Valid) {buf rest : List α} {b : β} :
    poll decode buf = (.ok (some b), rest) ↔ buf = encode b ++ rest ∧ Valid b := by
  rw [poll_eq_found_iff]
  constructor
  · intro hdecode
    exact (h.decode_only buf b rest hdecode).symm
  · rintro ⟨rfl, hb⟩
    exact h.decode_encode b rest hb

/-- An attempt that finds no frame leaves the buffer alone. -/
theorem poll_unchanged {buf rest : List α} {result : Except ε (Option β)}
    (hpoll : poll decode buf = (result, rest)) (hresult : ∀ b, result ≠ .ok (some b)) : rest = buf := by
  rcases poll_cases decode buf with ⟨e, -, h⟩ | ⟨-, h⟩ | ⟨b, rest', -, h⟩
  · exact (congrArg Prod.snd (h.symm.trans hpoll)).symm
  · exact (congrArg Prod.snd (h.symm.trans hpoll)).symm
  · exact absurd (congrArg Prod.fst (h.symm.trans hpoll)).symm (hresult b)

/-- With more data the same frame is found, and the data stay behind it. -/
theorem Exact.poll_found_append (h : Exact encode decode Valid) {buf rest : List α} {b : β}
    (hpoll : poll decode buf = (.ok (some b), rest)) (more : List α) :
    poll decode (buf ++ more) = (.ok (some b), rest ++ more) := by
  obtain ⟨rfl, hb⟩ := h.poll_eq_found.1 hpoll
  exact h.poll_eq_found.2 ⟨List.append_assoc _ _ _, hb⟩

/-- With more data the error stays. -/
theorem Exact.poll_error_append (h : Exact encode decode Valid) {buf rest : List α} {e : ε}
    (hpoll : poll decode buf = (.error e, rest)) (more : List α) :
    poll decode (buf ++ more) = (.error e, buf ++ more) := by
  rcases poll_cases decode buf with ⟨e', hdecode, hpoll'⟩ | ⟨-, hpoll'⟩ | ⟨b, rest', -, hpoll'⟩
  · rw [hpoll'] at hpoll
    obtain rfl := Except.error.inj (congrArg Prod.fst hpoll)
    unfold poll
    rw [h.decode_error buf e' more hdecode]
  · rw [hpoll'] at hpoll
    cases congrArg Prod.fst hpoll
  · rw [hpoll'] at hpoll
    cases congrArg Prod.fst hpoll

end Framing
