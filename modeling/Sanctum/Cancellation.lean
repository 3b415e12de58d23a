/-
Dropped calls of `recv_frame`.

The loops of the host and of the client wait in a `select!` for a frame and for other events.  If one of
these comes first, then the future of `recv_frame` is dropped, after any number of reads, and the next
round calls it again.  What has been read is in the buffer of the transport, and not in the future, and the
Noise library is asked only after the last read.  So nothing is lost and nothing is read twice, whatever
the stream returns: frames, half frames, bytes that are no frame, an end or an error.

Main definitions:

* `Sanctum.NoiseTransport.attempts` — calls of `recv_frame` that are dropped after some reads.

Main results:

* `Sanctum.TcpTransport.resumes_recvFrame`, `Sanctum.NoiseTransport.resumes_recvFrame` — a call goes on where
  the last one was dropped;
* `Sanctum.NoiseTransport.recvFrames_attempts` — **dropped calls have no effect on what is received**;
* `Sanctum.NoiseTransport.attempts_stream` — no frame of the peer is lost or received twice.
-/

import Sanctum.NoiseTransport
import Sanctum.Resumable

set_option relaxedAutoImplicit false
set_option autoImplicit false

namespace Sanctum

/-! ### The TCP transport -/

namespace TcpTransport

/-- A call has a result, which later reads do not change, or has put all reads into the buffer. -/
theorem recvFrame_append (tcp : TcpTransport) (reads : List Read) :
    (∃ (result : Except SanctumError Frame) (tcp' : TcpTransport) (rest : List Read),
      ∀ later, tcp.recvFrame (reads ++ later) = (some result, tcp', rest ++ later)) ∨
    ∃ tcp' : TcpTransport, tcp.recvFrame reads = (none, tcp', []) ∧
      ∀ later, tcp.recvFrame (reads ++ later) = tcp'.recvFrame later := by
  induction reads generalizing tcp with
  | nil =>
      rcases hdecode : decodeFrame tcp.readBuf with e | _ | ⟨frame, buf⟩
      · refine Or.inl ⟨.error e, tcp, [], ?_⟩
        intro later
        rw [recvFrame.eq_def, hdecode]
      · refine Or.inr ⟨tcp, ?_, fun _ => rfl⟩
        rw [recvFrame.eq_def, hdecode]
      · refine Or.inl ⟨.ok frame, { tcp with readBuf := buf }, [], ?_⟩
        intro later
        rw [recvFrame.eq_def, hdecode]
  | cons read reads ih =>
      rcases hdecode : decodeFrame tcp.readBuf with e | _ | ⟨frame, buf⟩
      · refine Or.inl ⟨.error e, tcp, read :: reads, ?_⟩
        intro later
        rw [recvFrame.eq_def, hdecode]
      · -- the loop reads
        rcases read with bytes | text
        · rcases bytes.eq_nil_or_concat with rfl | hconcat
          · refine Or.inl ⟨.error (.connectionLost "connection closed"), tcp, reads, ?_⟩
            intro later
            rw [List.cons_append, recvFrame.eq_def, hdecode]
          · have hne : bytes ≠ [] := by
              obtain ⟨init, last, rfl⟩ := hconcat
              simp
            have hread : ∀ later, tcp.recvFrame (.data bytes :: reads ++ later) =
                { tcp with readBuf := tcp.readBuf ++ bytes }.recvFrame (reads ++ later) := by
              intro later
              rw [List.cons_append, recvFrame_data hdecode hne]
            rcases ih { tcp with readBuf := tcp.readBuf ++ bytes } with
              ⟨result, tcp', rest, hfound⟩ | ⟨tcp', hwait, hgo⟩
            · refine Or.inl ⟨result, tcp', rest, ?_⟩
              intro later
              rw [hread, hfound]
            · refine Or.inr ⟨tcp', ?_, ?_⟩
              · rw [recvFrame_data hdecode hne, hwait]
              · intro later
                rw [hread, hgo]
        · refine Or.inl ⟨.error (.connectionLost ("read: " ++ text)), tcp, reads, ?_⟩
          intro later
          rw [List.cons_append, recvFrame.eq_def, hdecode]
      · refine Or.inl ⟨.ok frame, { tcp with readBuf := buf }, read :: reads, ?_⟩
        intro later
        rw [recvFrame.eq_def, hdecode]

/-- **A call goes on where the last one was dropped.** -/
theorem resumes_recvFrame : Resumable.Resumes recvFrame where
  found := by
    intro tcp tcp' reads rest result h later
    rcases recvFrame_append tcp reads with ⟨result', tcp'', rest', hfound⟩ | ⟨tcp'', hwait, -⟩
    · have hnow := hfound []
      rw [List.append_nil, List.append_nil, h] at hnow
      cases hnow
      exact hfound later
    · rw [h] at hwait
      cases hwait
  waits := by
    intro tcp tcp' reads rest h
    rcases recvFrame_append tcp reads with ⟨result', tcp'', rest', hfound⟩ | ⟨tcp'', hwait, hgo⟩
    · have hnow := hfound []
      rw [List.append_nil, h] at hnow
      cases hnow
    · rw [h] at hwait
      cases hwait
      exact ⟨rfl, hgo⟩

end TcpTransport

/-! ### The encrypted transport -/

namespace NoiseTransport

variable {snow : Snow}

/-- **Calls that are dropped**: in each round of the loop the call of `recv_frame` has a result, or it is
dropped after this number of reads. -/
def attempts (budgets : List ℕ) (t : NoiseTransport snow) (reads : List Read) :
    List (Except SanctumError Frame) × NoiseTransport snow × List Read :=
  Resumable.attempts recvFrame budgets t reads

/-- What the transport makes of the result of the loop. -/
def opened (t : NoiseTransport snow) :
    Except SanctumError Frame → Except SanctumError Frame × snow.TransportState
  | .error e => (.error e, t.noise)
  | .ok wireFrame =>
    let (decrypted, noise) :=
      if wireFrame.payload.isEmpty then (.ok [], t.noise)
      else transportDecrypt t.noise wireFrame.payload
    (decrypted.map fun payload => ⟨wireFrame.messageType, payload⟩, noise)

/-- A call that waits has changed nothing but the buffer. -/
theorem recvFrame_of_waits {t : NoiseTransport snow} {reads rest : List Read} {tcp : TcpTransport}
    (h : t.tcp.recvFrame reads = (none, tcp, rest)) :
    t.recvFrame reads = (none, { t with tcp := tcp }, rest) := by
  unfold recvFrame
  rw [h]

/-- The Noise library is asked once the loop has a result, and only about this result. -/
theorem recvFrame_of_found {t : NoiseTransport snow} {reads rest : List Read} {tcp : TcpTransport}
    {result : Except SanctumError Frame} (h : t.tcp.recvFrame reads = (some result, tcp, rest)) :
    t.recvFrame reads = (some (t.opened result).1, ⟨tcp, (t.opened result).2⟩, rest) := by
  unfold recvFrame opened
  cases result with
  | error e => rw [h]
  | ok wireFrame => rw [h]

/-- **A call goes on where the last one was dropped.** -/
theorem resumes_recvFrame : Resumable.Resumes (@recvFrame snow) where
  found := by
    intro t t' reads rest result h later
    rcases htcp : t.tcp.recvFrame reads with ⟨_ | received, tcp, rest'⟩
    · rw [recvFrame_of_waits htcp] at h
      cases h
    · rw [recvFrame_of_found htcp] at h
      cases h
      exact recvFrame_of_found (TcpTransport.resumes_recvFrame.found htcp later)
  waits := by
    intro t t' reads rest h
    rcases htcp : t.tcp.recvFrame reads with ⟨_ | received, tcp, rest'⟩
    · rw [recvFrame_of_waits htcp] at h
      cases h
      obtain ⟨hrest, hgo⟩ := TcpTransport.resumes_recvFrame.waits htcp
      refine ⟨hrest, ?_⟩
      intro later
      unfold recvFrame
      rw [hgo]
    · rw [recvFrame_of_found htcp] at h
      cases h

/-- The calls that are not dropped. -/
theorem recvFrames_eq_calls (calls : ℕ) (t : NoiseTransport snow) (reads : List Read) :
    recvFrames calls t reads = Resumable.calls recvFrame calls t reads := by
  induction calls generalizing t reads with
  | zero => rfl
  | succ calls ih =>
      unfold recvFrames Resumable.calls
      rcases t.recvFrame reads with ⟨_ | result, t', rest⟩
      · rfl
      · dsimp only
        rw [ih]

/-- **Dropped calls have no effect on what is received.**  Whatever the stream returns, and however often
and after however many reads the calls are dropped, their results are the first ones of calls that are
never dropped, and the next calls go on after them. -/
theorem recvFrames_attempts (budgets : List ℕ) (t : NoiseTransport snow) (reads : List Read)
    (calls : ℕ) :
    recvFrames ((attempts budgets t reads).1.length + (calls + 1)) t reads =
      ((attempts budgets t reads).1 ++
          (recvFrames (calls + 1) (attempts budgets t reads).2.1 (attempts budgets t reads).2.2).1,
        (recvFrames (calls + 1) (attempts budgets t reads).2.1
          (attempts budgets t reads).2.2).2) := by
  rw [recvFrames_eq_calls, recvFrames_eq_calls]
  exact Resumable.calls_attempts resumes_recvFrame budgets t reads calls

variable {session : snow.Session} {t : NoiseTransport snow} {p : Endpoint} {n m : ℕ}

/-- More calls than there are frames find the frames, and then wait. -/
theorem recvFrames_stream_of_le (ht : t.noise = session.state p n m) {frames : List Frame}
    (hframes : ∀ frame ∈ frames, frame.Sealable) {reads : List Bytes}
    (hreads : ∀ bytes ∈ reads, bytes ≠ [])
    (hstream : t.tcp.readBuf ++ reads.flatten = session.wireOf p.peer m frames) {calls : ℕ}
    (hcalls : frames.length ≤ calls) :
    (t.recvFrames calls (reads.map .data)).1 = frames.map .ok := by
  have hfound := recvFrames_stream ht hframes hreads hstream []
  rw [List.append_nil, recvFrames_eq_calls] at hfound
  obtain ⟨more, rfl⟩ := Nat.exists_eq_add_of_le hcalls
  rw [recvFrames_eq_calls, Resumable.calls_add (by rw [hfound, List.length_map]), hfound]
  dsimp only
  cases more with
  | zero => exact List.append_nil _
  | succ more =>
      rw [Resumable.calls_succ_of_none (recvFrame_nil lawful_codec.decode_nil), List.append_nil]

/-- **No frame of the peer is lost or received twice**, however often the calls are dropped. -/
theorem attempts_stream (ht : t.noise = session.state p n m) {frames : List Frame}
    (hframes : ∀ frame ∈ frames, frame.Sealable) {reads : List Bytes}
    (hreads : ∀ bytes ∈ reads, bytes ≠ [])
    (hstream : t.tcp.readBuf ++ reads.flatten = session.wireOf p.peer m frames)
    (budgets : List ℕ) {calls : ℕ} (hcalls : frames.length ≤ calls) :
    (attempts budgets t (reads.map .data)).1 ++ (recvFrames (calls + 1)
        (attempts budgets t (reads.map .data)).2.1 (attempts budgets t (reads.map .data)).2.2).1 =
      frames.map .ok := by
  have hall := Resumable.calls_attempts resumes_recvFrame budgets t (reads.map .data) calls
  have hle : frames.length ≤ (attempts budgets t (reads.map .data)).1.length + (calls + 1) := by
    omega
  rw [← recvFrames_stream_of_le ht hframes hreads hstream hle, recvFrames_eq_calls,
    recvFrames_eq_calls]
  exact (congrArg Prod.fst hall).symm

end NoiseTransport

end Sanctum
