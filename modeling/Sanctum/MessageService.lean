/-
The message service: envelopes, and the replay check for each sender.

The service keeps one session for each peer and creates the session of an unknown sender on the
first envelope.  Registering a peer, marking a session as established and preparing an envelope
touch the same table, and so do envelopes of other senders; none of them changes the window of the
sender in question.  The verdict on an envelope is therefore a function of the numbers accepted
from its own sender.

Main definitions:

* `Sanctum.MessageEnvelope`, `Sanctum.MessageService` — the data and the operations;
* `Sanctum.ServiceCall`, `Sanctum.MessageService.run` — sequences of calls;
* `Sanctum.MessageService.accepted` — what a sequence of calls has accepted;
* `Sanctum.MessageService.windowOf` — the replay window of a sender.

Main results:

* `Sanctum.MessageService.processReceived_verdict`, `Sanctum.MessageService.windowOf_apply` — what
  a call answers and what it does to a window;
* `Sanctum.MessageService.run_tracks` — the windows represent the accepted numbers;
* `Sanctum.MessageService.antiReplay_exact` — **the replay check is exact, for each sender apart**.
-/

import Sanctum.Session

set_option relaxedAutoImplicit false
set_option autoImplicit false

namespace Sanctum

/-! ### Envelopes -/

/-- An E2E encrypted message envelope. -/
structure MessageEnvelope where
  senderFingerprint : Fingerprint
  roomId : RoomId
  sequenceNumber : UInt64
  nonce : Bytes
  timestamp : UInt64
  ciphertext : Bytes
  ratchetHeader : RatchetHeader

/-- The basic invariants of an envelope. -/
def MessageEnvelope.validate (e : MessageEnvelope) : Except String Unit :=
  if e.sequenceNumber = 0 then .error "sequence number must be > 0"
  else if e.nonce.length ≠ 12 then .error "nonce must be 12 bytes"
  else if e.ciphertext.isEmpty then .error "ciphertext must not be empty"
  else .ok ()

/-- What the service calls of the cryptographic port. -/
structure CryptoPort where
  deriveKey : Bytes → Bytes → ℕ → Except SanctumError Bytes

/-- `u64::to_be_bytes`. -/
def toBeBytes (n : UInt64) : Bytes :=
  (List.range 8).map fun i => (n >>> UInt64.ofNat (56 - 8 * i)).toUInt8

/-! ### The service -/

/-- **The message service.** -/
structure MessageService where
  sessions : HashMap Fingerprint Session
  paddingBlockSize : ℕ

namespace MessageService

def new (paddingBlockSize : ℕ) : MessageService where
  sessions := ∅
  paddingBlockSize := paddingBlockSize

/-- Register a session with a peer. -/
def registerSession (svc : MessageService) (peer : Fingerprint) : MessageService :=
  if peer ∈ svc.sessions then svc
  else { svc with sessions := svc.sessions.insert peer (Session.new peer) }

/-- Mark a session as established. -/
def markEstablished (svc : MessageService) (peer : Fingerprint) : MessageService :=
  match svc.sessions.lookup peer with
  | some session => { svc with sessions := svc.sessions.insert peer session.markEstablished }
  | none => svc

/-- Prepare a message for sending.  The recipient is not used, and the clock is an argument. -/
def prepareEnvelope (svc : MessageService) (sender _recipient : Fingerprint) (roomId : RoomId)
    (ciphertext : Bytes) (ratchetHeader : RatchetHeader) (crypto : CryptoPort)
    (timestamp : UInt64) : Except SanctumError MessageEnvelope × MessageService :=
  match svc.sessions.lookup sender with
  | none => (.error (.malformedMessage ("no session for sender " ++ sender.display)), svc)
  | some session =>
    let (seq, session) := session.nextSendSequence
    let svc := { svc with sessions := svc.sessions.insert sender session }
    match crypto.deriveKey (toBeBytes seq) "nonce".toUTF8.data.toList 12 with
    | .error e => (.error e, svc)
    | .ok nonce => (.ok {
        senderFingerprint := sender
        roomId := roomId
        sequenceNumber := seq
        nonce := nonce
        timestamp := timestamp
        ciphertext := ciphertext
        ratchetHeader := ratchetHeader }, svc)

/-- Process a received message: validate it, get or create the session of its sender, and check
for a replay. -/
def processReceived (svc : MessageService) (envelope : MessageEnvelope) :
    Except SanctumError Unit × MessageService :=
  match envelope.validate with
  | .error e => (.error (.malformedMessage e), svc)
  | .ok () =>
    let sender := envelope.senderFingerprint
    let session := (svc.sessions.lookup sender).getD (Session.new sender)
    let (fresh, session) := session.checkReplay envelope.sequenceNumber
    let svc := { svc with sessions := svc.sessions.insert sender session }
    if fresh then (.ok (), svc)
    else (.error (.replayDetected envelope.sequenceNumber sender), svc)

end MessageService

/-! ### Sequences of calls -/

/-- A call of the service. -/
inductive ServiceCall
  | registerSession (peer : Fingerprint)
  | markEstablished (peer : Fingerprint)
  | prepareEnvelope (sender recipient : Fingerprint) (roomId : RoomId) (ciphertext : Bytes)
      (ratchetHeader : RatchetHeader) (timestamp : UInt64)
  | processReceived (envelope : MessageEnvelope)

/-- The call is not an envelope of another sender. -/
def ServiceCall.concerns (sender : Fingerprint) : ServiceCall → Bool
  | .processReceived envelope => envelope.senderFingerprint = sender
  | _ => true

namespace MessageService

variable (crypto : CryptoPort)

/-- The service after a call. -/
def apply (svc : MessageService) : ServiceCall → MessageService
  | .registerSession peer => svc.registerSession peer
  | .markEstablished peer => svc.markEstablished peer
  | .prepareEnvelope sender recipient roomId ciphertext header timestamp =>
    (svc.prepareEnvelope sender recipient roomId ciphertext header crypto timestamp).2
  | .processReceived envelope => (svc.processReceived envelope).2

/-- The service after a sequence of calls. -/
def run (svc : MessageService) (calls : List ServiceCall) : MessageService :=
  calls.foldl (apply crypto) svc

/-- What a call accepts, as sender and sequence number. -/
def acceptedBy (svc : MessageService) : ServiceCall → List (Fingerprint × UInt64)
  | .processReceived envelope =>
    if (svc.processReceived envelope).1.isOk then
      [(envelope.senderFingerprint, envelope.sequenceNumber)]
    else []
  | _ => []

/-- **What a sequence of calls accepts.** -/
def accepted (svc : MessageService) : List ServiceCall → List (Fingerprint × UInt64)
  | [] => []
  | call :: calls => svc.acceptedBy call ++ accepted (svc.apply crypto call) calls

/-! ### The windows -/

/-- **The replay window of a sender**; a sender without a session has an empty one. -/
def windowOf (svc : MessageService) (sender : Fingerprint) : ReplayWindow 64 :=
  ((svc.sessions.lookup sender).map Session.window).getD (ReplayWindow.empty 64)

theorem windowOf_insert (svc : MessageService) (peer : Fingerprint) (session : Session)
    (sender : Fingerprint) :
    windowOf { svc with sessions := svc.sessions.insert peer session } sender =
      if sender = peer then session.window else svc.windowOf sender := by
  rw [windowOf, lookup_insert_ite]
  split <;> rfl

/-- The session that `process_received` works on has the window of the sender. -/
theorem window_getD (svc : MessageService) (sender : Fingerprint) :
    ((svc.sessions.lookup sender).getD (Session.new sender)).window = svc.windowOf sender := by
  rw [windowOf]
  cases svc.sessions.lookup sender <;> rfl

theorem seq_ne_zero_of_validate {e : MessageEnvelope} (h : e.validate = .ok ()) :
    e.sequenceNumber ≠ 0 := by
  intro hzero
  rw [MessageEnvelope.validate, if_pos hzero] at h
  exact absurd h (by simp)

/-- **The verdict on an envelope** depends on the window of its sender only. -/
theorem processReceived_verdict (svc : MessageService) (e : MessageEnvelope) :
    (svc.processReceived e).1 =
      match e.validate with
      | .error text => .error (.malformedMessage text)
      | .ok () =>
        if ((svc.windowOf e.senderFingerprint).accept e.sequenceNumber.toNat).isSome then .ok ()
        else .error (.replayDetected e.sequenceNumber e.senderFingerprint) := by
  rw [processReceived]
  cases hval : e.validate with
  | error text => rfl
  | ok =>
      obtain ⟨hfresh, -, -⟩ := Session.checkReplay_eq
        ((svc.sessions.lookup e.senderFingerprint).getD (Session.new e.senderFingerprint))
        (seq_ne_zero_of_validate hval)
      rw [window_getD] at hfresh
      simp only [← hfresh]
      split <;> rfl

theorem processReceived_eq_ok_iff (svc : MessageService) (e : MessageEnvelope) :
    (svc.processReceived e).1 = .ok () ↔ e.validate = .ok () ∧
      ((svc.windowOf e.senderFingerprint).accept e.sequenceNumber.toNat).isSome := by
  rw [processReceived_verdict]
  cases e.validate with
  | error text => simp
  | ok => simp [Option.isSome_iff_ne_none]

/-- An envelope moves the window of its own sender, if it is accepted. -/
theorem windowOf_processReceived (svc : MessageService) (e : MessageEnvelope)
    (sender : Fingerprint) :
    (svc.processReceived e).2.windowOf sender =
      if sender = e.senderFingerprint ∧ e.validate = .ok () then
        ((svc.windowOf sender).accept e.sequenceNumber.toNat).getD (svc.windowOf sender)
      else svc.windowOf sender := by
  rw [processReceived]
  cases hval : e.validate with
  | error text => simp
  | ok =>
      obtain ⟨-, hwindow, -⟩ := Session.checkReplay_eq
        ((svc.sessions.lookup e.senderFingerprint).getD (Session.new e.senderFingerprint))
        (seq_ne_zero_of_validate hval)
      rw [window_getD] at hwindow
      have hinsert := windowOf_insert svc e.senderFingerprint
        (((svc.sessions.lookup e.senderFingerprint).getD
          (Session.new e.senderFingerprint)).checkReplay e.sequenceNumber).2 sender
      rw [hwindow] at hinsert
      simp only [and_true]
      split at hinsert
      · next h =>
          subst h
          rw [if_pos rfl, ← hinsert]
          split <;> rfl
      · next h =>
          rw [if_neg h, ← hinsert]
          split <;> rfl

/-- **A rejected envelope leaves the service as it was.**  In particular it creates no session: the
first envelope of a sender is refused by the validation or not at all. -/
theorem processReceived_of_error {svc : MessageService} {e : MessageEnvelope} {err : SanctumError}
    (h : (svc.processReceived e).1 = .error err) : (svc.processReceived e).2 = svc := by
  rw [processReceived] at h ⊢
  cases hval : e.validate with
  | error text => rfl
  | ok =>
      simp only [hval] at h ⊢
      have hseq := seq_ne_zero_of_validate hval
      obtain ⟨hfresh, -, hsame⟩ := Session.checkReplay_eq
        ((svc.sessions.lookup e.senderFingerprint).getD (Session.new e.senderFingerprint)) hseq
      rw [window_getD] at hfresh
      split at h
      · exact absurd h (by simp)
      · next hreplay =>
          rw [if_neg hreplay]
          rw [hsame (by simpa using hreplay)]
          cases hlook : svc.sessions.lookup e.senderFingerprint with
          | none =>
              -- an empty window accepts every positive number
              have hpos : 0 < e.sequenceNumber.toNat :=
                Nat.pos_of_ne_zero fun hz => hseq (UInt64.toNat_inj.1 hz)
              have hempty : svc.windowOf e.senderFingerprint = ReplayWindow.empty 64 := by
                rw [windowOf, hlook]
                rfl
              rw [hempty] at hfresh
              refine absurd (hfresh.trans ?_) hreplay
              exact (ReplayWindow.tracks_empty.accept_isSome_iff hpos (by norm_num)).2
                ⟨Set.notMem_empty _, fun M hM => absurd hM.1 (Set.notMem_empty M)⟩
          | some session =>
              have hkeep : svc.sessions.insert e.senderFingerprint session = svc.sessions := by
                apply Finmap.ext_lookup
                intro peer
                rw [lookup_insert_ite]
                split
                · next hpeer => rw [hpeer, hlook]
                · rfl
              rw [Option.getD_some, hkeep]

/-- **What a call does to a window**: only an accepted envelope of the sender changes it. -/
theorem windowOf_apply (svc : MessageService) (call : ServiceCall) (sender : Fingerprint) :
    (svc.apply crypto call).windowOf sender =
      match call with
      | .processReceived e =>
        if sender = e.senderFingerprint ∧ e.validate = .ok () then
          ((svc.windowOf sender).accept e.sequenceNumber.toNat).getD (svc.windowOf sender)
        else svc.windowOf sender
      | _ => svc.windowOf sender := by
  cases call with
  | processReceived e => exact windowOf_processReceived svc e sender
  | registerSession peer =>
      simp only [apply, registerSession]
      split
      · rfl
      · next hnew =>
          rw [windowOf_insert]
          split
          · next h =>
              rw [windowOf, h, Finmap.lookup_eq_none.2 hnew]
              rfl
          · rfl
  | markEstablished peer =>
      simp only [apply, markEstablished]
      cases hlook : svc.sessions.lookup peer with
      | none => rfl
      | some session =>
          simp only [windowOf_insert, Session.window_markEstablished]
          split
          · next h => rw [windowOf, h, hlook]; rfl
          · rfl
  | prepareEnvelope from' recipient roomId ciphertext header timestamp =>
      simp only [apply, prepareEnvelope]
      cases hlook : svc.sessions.lookup from' with
      | none => rfl
      | some session =>
          have hwindow : windowOf { svc with
              sessions := svc.sessions.insert from' session.nextSendSequence.2 } sender =
                svc.windowOf sender := by
            rw [windowOf_insert, Session.window_nextSendSequence]
            split
            · next h => rw [windowOf, h, hlook]; rfl
            · rfl
          simp only
          split
          · exact hwindow
          · exact hwindow

/-! ### Whole runs -/

/-- The numbers that a log of accepted envelopes holds for a sender. -/
def numbersOf (log : List (Fingerprint × UInt64)) (sender : Fingerprint) : Set ℕ :=
  UInt64.toNat '' {n | (sender, n) ∈ log}

theorem numbersOf_append (log log' : List (Fingerprint × UInt64)) (sender : Fingerprint) :
    numbersOf (log ++ log') sender = numbersOf log' sender ∪ numbersOf log sender := by
  simp only [numbersOf, List.mem_append, Set.ofPred_or, Set.image_union, Set.union_comm]

/-- One call: the windows go on to represent what has been accepted. -/
theorem apply_tracks {svc : MessageService} {A : Fingerprint → Set ℕ}
    (h : ∀ p, (svc.windowOf p).Tracks (A p)) (call : ServiceCall) (p : Fingerprint) :
    ((svc.apply crypto call).windowOf p).Tracks (numbersOf (svc.acceptedBy call) p ∪ A p) := by
  have hnone : numbersOf [] p ∪ A p = A p := by simp [numbersOf]
  rw [windowOf_apply]
  cases call with
  | processReceived e =>
      have hok := processReceived_eq_ok_iff svc e
      by_cases hacc : (svc.processReceived e).1 = .ok ()
      · have hlog : svc.acceptedBy (.processReceived e) =
            [(e.senderFingerprint, e.sequenceNumber)] := by
          rw [acceptedBy, hacc]
          rfl
        obtain ⟨hval, haccept⟩ := hok.1 hacc
        rw [hlog]
        by_cases hp : p = e.senderFingerprint
        · subst hp
          obtain ⟨W, hW⟩ := Option.isSome_iff_exists.1 haccept
          have hpos : 0 < e.sequenceNumber.toNat := Nat.pos_of_ne_zero fun hz =>
            seq_ne_zero_of_validate hval (UInt64.toNat_inj.1 hz)
          have hnum : numbersOf [(e.senderFingerprint, e.sequenceNumber)] e.senderFingerprint ∪
              A e.senderFingerprint = insert e.sequenceNumber.toNat (A e.senderFingerprint) := by
            simp [numbersOf]
          simp only [hval, and_self, if_true, hW, Option.getD_some, hnum]
          exact (h _).of_accept hpos hW
        · have hnum : numbersOf [(e.senderFingerprint, e.sequenceNumber)] p ∪ A p = A p := by
            simp [numbersOf, hp]
          simp only [hp, false_and, if_false, hnum]
          exact h p
      · have hlog : svc.acceptedBy (.processReceived e) = [] := by
          rw [acceptedBy]
          cases hres : (svc.processReceived e).1 with
          | ok u => exact absurd hres hacc
          | error err => rfl
        rw [hlog, hnone]
        by_cases hcase : p = e.senderFingerprint ∧ e.validate = .ok ()
        · obtain ⟨rfl, hval⟩ := hcase
          have hrefused : (svc.windowOf e.senderFingerprint).accept e.sequenceNumber.toNat = none :=
            Option.not_isSome_iff_eq_none.1 fun hsome => hacc (hok.2 ⟨hval, hsome⟩)
          simp only [hval, and_self, if_true, hrefused, Option.getD_none]
          exact h _
        · simp only [if_neg hcase]
          exact h p
  | _ =>
      rw [acceptedBy, hnone]
      · exact h p
      · exact nofun

/-- **The windows represent the accepted numbers**, throughout every sequence of calls. -/
theorem run_tracks :
    ∀ (calls : List ServiceCall) (svc : MessageService) (A : Fingerprint → Set ℕ),
      (∀ p, (svc.windowOf p).Tracks (A p)) → ∀ p,
        ((svc.run crypto calls).windowOf p).Tracks (numbersOf (accepted crypto svc calls) p ∪ A p)
    := by
  intro calls
  induction calls with
  | nil =>
      intro svc A h p
      rw [accepted, show numbersOf [] p ∪ A p = A p by simp [numbersOf]]
      exact h p
  | cons call calls ih =>
      intro svc A h p
      rw [accepted, numbersOf_append, Set.union_assoc]
      exact ih _ _ (apply_tracks crypto h call) p

/-- Envelopes of other senders leave a sender's window alone, over whole sequences of calls. -/
theorem windowOf_run_filter (sender : Fingerprint) :
    ∀ (calls : List ServiceCall) (svc svc' : MessageService),
      svc.windowOf sender = svc'.windowOf sender →
      (svc.run crypto calls).windowOf sender =
        (svc'.run crypto (calls.filter (ServiceCall.concerns sender))).windowOf sender := by
  intro calls
  induction calls with
  | nil => intro svc svc' h; exact h
  | cons call calls ih =>
      intro svc svc' h
      by_cases hcall : call.concerns sender
      · rw [List.filter_cons_of_pos hcall]
        refine ih _ _ ?_
        rw [windowOf_apply, windowOf_apply, h]
      · rw [List.filter_cons_of_neg hcall]
        refine ih _ _ ?_
        rw [windowOf_apply]
        cases call with
        | processReceived e =>
            have hne : sender ≠ e.senderFingerprint := by
              rintro rfl
              exact hcall (by simp [ServiceCall.concerns])
            simp only [hne, false_and, if_false, h]
        | _ => exact absurd rfl hcall

/-- The largest accepted number, as a machine word and as a natural number. -/
theorem isGreatest_numbersOf {log : List (Fingerprint × UInt64)} {sender : Fingerprint} {b : ℕ} :
    (∀ M, IsGreatest (numbersOf log sender) M → M < b) ↔
      ∀ M, IsGreatest {m | (sender, m) ∈ log} M → M.toNat < b := by
  constructor
  · intro h M hM
    refine h _ ⟨⟨M, hM.1, rfl⟩, ?_⟩
    rintro _ ⟨m, hm, rfl⟩
    exact UInt64.le_iff_toNat_le.1 (hM.2 hm)
  · rintro h _ ⟨⟨M, hM, rfl⟩, hmax⟩
    refine h M ⟨hM, fun m hm => UInt64.le_iff_toNat_le.2 ?_⟩
    exact hmax ⟨m, hm, rfl⟩

/-- **The replay check is exact, for each sender apart.**  After any sequence of calls, an envelope
is accepted exactly when it is valid, its number has not been accepted from its sender before, and
it is above the largest number accepted from that sender less 64.  The verdict is the one that the
calls without the envelopes of other senders lead to, and a rejected envelope leaves the service as
it was. -/
theorem antiReplay_exact (paddingBlockSize : ℕ) (calls : List ServiceCall)
    (e : MessageEnvelope) :
    let start := new paddingBlockSize
    let svc := start.run crypto calls
    ((svc.processReceived e).1 = .ok () ↔
        e.validate = .ok () ∧
        (e.senderFingerprint, e.sequenceNumber) ∉ accepted crypto start calls ∧
        ∀ M, IsGreatest {n | (e.senderFingerprint, n) ∈ accepted crypto start calls} M →
          (M.toNat : ℤ) - 64 < e.sequenceNumber.toNat) ∧
      (svc.processReceived e).1 =
        ((start.run crypto (calls.filter (ServiceCall.concerns e.senderFingerprint))).processReceived
          e).1 ∧
      ∀ err, (svc.processReceived e).1 = .error err → (svc.processReceived e).2 = svc := by
  intro start svc
  have htracks := run_tracks crypto calls start (fun _ => ∅)
    (fun _ => ReplayWindow.tracks_empty) e.senderFingerprint
  rw [Set.union_empty] at htracks
  refine ⟨?_, ?_, fun err => processReceived_of_error⟩
  · rw [processReceived_eq_ok_iff]
    refine and_congr_right fun hval => ?_
    have hpos : 0 < e.sequenceNumber.toNat := Nat.pos_of_ne_zero fun hz =>
      seq_ne_zero_of_validate hval (UInt64.toNat_inj.1 hz)
    rw [htracks.accept_isSome_iff hpos (by norm_num), isGreatest_numbersOf]
    refine and_congr (not_congr ?_) (forall₂_congr fun M _ => by omega)
    constructor
    · rintro ⟨n, hn, heq⟩
      obtain rfl := UInt64.toNat_inj.1 heq
      exact hn
    · intro hmem
      exact ⟨_, hmem, rfl⟩
  · rw [processReceived_verdict, processReceived_verdict,
      windowOf_run_filter crypto e.senderFingerprint calls start start rfl]

end MessageService

end Sanctum
