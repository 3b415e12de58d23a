/-
Forged envelopes, and what they do to a sender.

The receiver looks at the replay window before anybody decrypts, and the window goes by the sender and
the number that an envelope claims.  A forged envelope therefore moves the window like a genuine one:
it uses up its own number, and everything that lies 64 or more below it.  Nothing else stands between a
genuine envelope and its acceptance, since the numbers of a sender increase: what it has sent before is
in nobody's way.

Main definitions:

* `Sanctum.MessageService.prepared` — the envelopes that a sequence of calls prepares;
* `Sanctum.MessageService.lastSent` — the send counter of a sender;
* `Sanctum.MessageService.arrived` — the numbers that have arrived in the name of a sender.

Main results:

* `Sanctum.MessageService.prepared_increasing` — the numbers of a sender increase;
* `Sanctum.MessageService.accepted_iff_arrived` — what is accepted, from what has arrived;
* `Sanctum.MessageService.genuine_accepted_iff` — **when a genuine envelope is accepted**.
-/

import Sanctum.MessageService

set_option relaxedAutoImplicit false
set_option autoImplicit false

namespace Sanctum

/-- The call prepares an envelope of the sender. -/
def ServiceCall.preparesFor (sender : Fingerprint) : ServiceCall → Bool
  | .prepareEnvelope from' _ _ _ _ _ => from' = sender
  | _ => false

namespace MessageService

variable (crypto : CryptoPort)

/-! ### What the sender prepares -/

/-- What a call prepares. -/
def preparedBy (svc : MessageService) : ServiceCall → List MessageEnvelope
  | .prepareEnvelope sender recipient roomId ciphertext header timestamp =>
    match (svc.prepareEnvelope sender recipient roomId ciphertext header crypto timestamp).1 with
    | .ok envelope => [envelope]
    | .error _ => []
  | _ => []

/-- **The envelopes that a sequence of calls prepares**, in sending order. -/
def prepared (svc : MessageService) : List ServiceCall → List MessageEnvelope
  | [] => []
  | call :: calls => svc.preparedBy crypto call ++ prepared (svc.apply crypto call) calls

/-- **The send counter of a sender**; without a session nothing has been sent. -/
def lastSent (svc : MessageService) (sender : Fingerprint) : UInt64 :=
  ((svc.sessions.lookup sender).map Session.lastSentSequence).getD 0

variable {crypto} {svc : MessageService} {call : ServiceCall} {calls : List ServiceCall}

theorem lastSent_insert (svc : MessageService) (peer : Fingerprint) (session : Session)
    (sender : Fingerprint) :
    lastSent { svc with sessions := svc.sessions.insert peer session } sender =
      if sender = peer then session.lastSentSequence else svc.lastSent sender := by
  rw [lastSent, lookup_insert_ite]
  split <;> rfl

/-- Only the calls that prepare an envelope of the sender move its counter. -/
theorem lastSent_apply_of_ne {sender : Fingerprint} (h : call.preparesFor sender = false) :
    (svc.apply crypto call).lastSent sender = svc.lastSent sender := by
  cases call with
  | registerSession peer =>
      simp only [apply, registerSession]
      split
      · rfl
      · next hnew =>
          rw [lastSent_insert]
          split
          · next h =>
              rw [lastSent, h, Finmap.lookup_eq_none.2 hnew]
              rfl
          · rfl
  | markEstablished peer =>
      simp only [apply, markEstablished]
      cases hlook : svc.sessions.lookup peer with
      | none => rfl
      | some session =>
          simp only [lastSent_insert]
          split
          · next h =>
              rw [lastSent, h, hlook]
              rfl
          · rfl
  | processReceived e =>
      simp only [apply, processReceived]
      cases hval : e.validate with
      | error text => rfl
      | ok =>
          have hcounter : lastSent { svc with
              sessions := svc.sessions.insert e.senderFingerprint
                (((svc.sessions.lookup e.senderFingerprint).getD
                  (Session.new e.senderFingerprint)).checkReplay e.sequenceNumber).2 } sender =
                svc.lastSent sender := by
            rw [lastSent_insert, Session.lastSentSequence_checkReplay]
            split
            · next h =>
                rw [lastSent, h]
                cases svc.sessions.lookup e.senderFingerprint <;> rfl
            · rfl
          simp only
          split
          · exact hcounter
          · exact hcounter
  | prepareEnvelope from' recipient roomId ciphertext header timestamp =>
      have hne : sender ≠ from' := by
        intro heq
        exact absurd h (by simp [ServiceCall.preparesFor, heq])
      simp only [apply, prepareEnvelope]
      cases hlook : svc.sessions.lookup from' with
      | none => rfl
      | some session =>
          have hcounter := lastSent_insert svc from' session.nextSendSequence.2 sender
          rw [if_neg hne] at hcounter
          simp only
          split
          · exact hcounter
          · exact hcounter

/-- The counter of a sender with a session counts every call that prepares an envelope for it, and is
the number of the envelope. -/
theorem prepareEnvelope_counts {sender : Fingerprint} (hsession : sender ∈ svc.sessions)
    (crypto : CryptoPort) (recipient : Fingerprint) (roomId : RoomId) (ciphertext : Bytes)
    (header : RatchetHeader) (timestamp : UInt64) :
    (svc.prepareEnvelope sender recipient roomId ciphertext header crypto timestamp).2.lastSent sender =
        svc.lastSent sender + 1 ∧
      ∀ e, (svc.prepareEnvelope sender recipient roomId ciphertext header crypto timestamp).1 = .ok e →
        e.senderFingerprint = sender ∧ e.sequenceNumber = svc.lastSent sender + 1 ∧
          crypto.deriveKey (toBeBytes e.sequenceNumber) "nonce".toUTF8.data.toList 12 = .ok e.nonce := by
  obtain ⟨session, hlook⟩ := Finmap.mem_iff.1 hsession
  have hlast : svc.lastSent sender = session.lastSentSequence := by
    rw [lastSent, hlook]
    rfl
  have hcounter := lastSent_insert svc sender session.nextSendSequence.2 sender
  rw [if_pos rfl] at hcounter
  simp only [prepareEnvelope, hlook, hlast]
  cases hnonce : crypto.deriveKey (toBeBytes session.nextSendSequence.1) "nonce".toUTF8.data.toList 12 with
  | error err =>
      refine ⟨hcounter, ?_⟩
      rintro e ⟨⟩
  | ok nonce =>
      refine ⟨hcounter, ?_⟩
      intro e he
      obtain rfl := Except.ok.inj he
      exact ⟨rfl, rfl, hnonce⟩

/-- A call leaves a send counter alone, or counts one more envelope of its sender. -/
theorem lastSent_apply (svc : MessageService) (call : ServiceCall) (sender : Fingerprint) :
    (svc.apply crypto call).lastSent sender = svc.lastSent sender ∧
        (∀ e ∈ svc.preparedBy crypto call, e.senderFingerprint ≠ sender) ∨
      (svc.apply crypto call).lastSent sender = svc.lastSent sender + 1 ∧
        ∀ e ∈ svc.preparedBy crypto call, e.sequenceNumber = svc.lastSent sender + 1 := by
  cases call with
  | prepareEnvelope from' recipient roomId ciphertext header timestamp =>
      by_cases hsession : from' ∈ svc.sessions
      · obtain ⟨hcounter, hnumber⟩ :=
          prepareEnvelope_counts hsession crypto recipient roomId ciphertext header timestamp
        have hprepared : ∀ e ∈ svc.preparedBy crypto
            (.prepareEnvelope from' recipient roomId ciphertext header timestamp),
            e.senderFingerprint = from' ∧ e.sequenceNumber = svc.lastSent from' + 1 := by
          intro e he
          simp only [preparedBy] at he
          split at he
          · next envelope hok =>
              rw [List.mem_singleton.1 he]
              exact ⟨(hnumber envelope hok).1, (hnumber envelope hok).2.1⟩
          · exact absurd he List.not_mem_nil
        by_cases hsender : from' = sender
        · subst hsender
          exact Or.inr ⟨hcounter, fun e he => (hprepared e he).2⟩
        · refine Or.inl ⟨lastSent_apply_of_ne (decide_eq_false hsender), ?_⟩
          intro e he
          rw [(hprepared e he).1]
          exact hsender
      · have hnone := Finmap.lookup_eq_none.2 hsession
        refine Or.inl ⟨?_, ?_⟩
        · simp only [apply, prepareEnvelope, hnone]
        · simp only [preparedBy, prepareEnvelope, hnone]
          exact fun e he => absurd he List.not_mem_nil
  | registerSession peer =>
      exact Or.inl ⟨lastSent_apply_of_ne rfl, fun e he => absurd he List.not_mem_nil⟩
  | markEstablished peer =>
      exact Or.inl ⟨lastSent_apply_of_ne rfl, fun e he => absurd he List.not_mem_nil⟩
  | processReceived e =>
      exact Or.inl ⟨lastSent_apply_of_ne rfl, fun e he => absurd he List.not_mem_nil⟩

/-- One call, with room for one more number in the counter. -/
theorem counted (sender : Fingerprint) (hroom : (svc.lastSent sender).toNat + 1 < 2 ^ 64)
    (crypto : CryptoPort) (call : ServiceCall) :
    (svc.lastSent sender).toNat ≤ ((svc.apply crypto call).lastSent sender).toNat ∧
      ((svc.apply crypto call).lastSent sender).toNat ≤ (svc.lastSent sender).toNat + 1 ∧
      ∀ e ∈ svc.preparedBy crypto call, e.senderFingerprint = sender →
        e.sequenceNumber.toNat = (svc.lastSent sender).toNat + 1 ∧
          e.sequenceNumber.toNat = ((svc.apply crypto call).lastSent sender).toNat := by
  have hsucc : (svc.lastSent sender + 1).toNat = (svc.lastSent sender).toNat + 1 := by
    rw [UInt64.toNat_add]
    exact Nat.mod_eq_of_lt hroom
  rcases lastSent_apply svc call sender with ⟨hsame, hother⟩ | ⟨hnext, hnumber⟩
  · rw [hsame]
    exact ⟨le_rfl, Nat.le_succ _, fun e he hsender => absurd hsender (hother e he)⟩
  · rw [hnext, hsucc]
    refine ⟨Nat.le_succ _, le_rfl, fun e he _ => ?_⟩
    rw [hnumber e he, hsucc]
    exact ⟨rfl, rfl⟩

/-- A call prepares at most one envelope. -/
theorem pairwise_preparedBy (svc : MessageService) (call : ServiceCall)
    {R : MessageEnvelope → MessageEnvelope → Prop} :
    (svc.preparedBy crypto call).Pairwise R := by
  unfold preparedBy
  split
  · split
    · exact List.pairwise_singleton R _
    · exact List.Pairwise.nil
  · exact List.Pairwise.nil

/-- **The numbers of a sender increase**, as long as its counter does not wrap around. -/
theorem prepared_increasing :
    ∀ (calls : List ServiceCall) (svc : MessageService),
      (∀ sender, (svc.lastSent sender).toNat + calls.length < 2 ^ 64) →
      (∀ e ∈ prepared crypto svc calls,
        (svc.lastSent e.senderFingerprint).toNat < e.sequenceNumber.toNat) ∧
      (prepared crypto svc calls).Pairwise fun e e' =>
        e.senderFingerprint = e'.senderFingerprint →
          e.sequenceNumber.toNat < e'.sequenceNumber.toNat := by
  intro calls
  induction calls with
  | nil =>
      intro svc _
      exact ⟨fun e he => absurd he List.not_mem_nil, List.Pairwise.nil⟩
  | cons call calls ih =>
      intro svc hroom
      have hcall : ∀ sender, (svc.lastSent sender).toNat + 1 < 2 ^ 64 := fun sender => by
        have h := hroom sender
        rw [List.length_cons] at h
        omega
      obtain ⟨habove, hpairwise⟩ := ih (svc.apply crypto call) fun sender => by
        have h := hroom sender
        have hle := (counted sender (hcall sender) crypto call).2.1
        rw [List.length_cons] at h
        omega
      constructor
      · intro e he
        obtain ⟨hle, -, hnumber⟩ :=
          counted e.senderFingerprint (hcall e.senderFingerprint) crypto call
        rcases List.mem_append.1 he with he | he
        · have h := (hnumber e he rfl).1
          omega
        · exact hle.trans_lt (habove e he)
      · refine List.pairwise_append.2 ⟨pairwise_preparedBy svc call, hpairwise, ?_⟩
        intro e he e' he' hsender
        have hnumber :=
          (counted e'.senderFingerprint (hcall e'.senderFingerprint) crypto call).2.2 e he hsender
        rw [hnumber.2]
        exact habove e' he'

/-- The nonce of an envelope that has been prepared. -/
theorem nonce_of_prepared
    (hkey : ∀ master info len key, crypto.deriveKey master info len = .ok key → key.length = len) :
    ∀ (calls : List ServiceCall) (svc : MessageService), ∀ e ∈ prepared crypto svc calls,
      e.nonce.length = 12 := by
  intro calls
  induction calls with
  | nil => exact fun svc e he => absurd he List.not_mem_nil
  | cons call calls ih =>
      intro svc e he
      rcases List.mem_append.1 he with he | he
      · cases call with
        | prepareEnvelope sender recipient roomId ciphertext header timestamp =>
            simp only [preparedBy, prepareEnvelope] at he
            cases hlook : svc.sessions.lookup sender with
            | none =>
                rw [hlook] at he
                exact absurd he List.not_mem_nil
            | some session =>
                simp only [hlook] at he
                split at he
                · next envelope hprepared =>
                    split at hprepared
                    · simp at hprepared
                    · next nonce hnonce =>
                        rw [List.mem_singleton.1 he, ← Except.ok.inj hprepared]
                        exact hkey _ _ _ _ hnonce
                · exact absurd he List.not_mem_nil
        | _ => exact absurd he List.not_mem_nil
      · exact ih _ e he

/-! ### What arrives at the receiver -/

/-- **The numbers that have arrived in the name of a sender**, in valid envelopes. -/
def arrived (calls : List ServiceCall) (sender : Fingerprint) : Set ℕ :=
  {n | ∃ e, .processReceived e ∈ calls ∧ e.senderFingerprint = sender ∧ e.validate = .ok () ∧
    e.sequenceNumber.toNat = n}

theorem arrived_append_of_ne {sender : Fingerprint}
    (h : ∀ e, call = .processReceived e → ¬ (sender = e.senderFingerprint ∧ e.validate = .ok ())) :
    arrived (calls ++ [call]) sender = arrived calls sender := by
  ext n
  constructor
  · rintro ⟨e, he, hsender, hval, hn⟩
    rcases List.mem_append.1 he with he | he
    · exact ⟨e, he, hsender, hval, hn⟩
    · exact absurd ⟨hsender.symm, hval⟩ (h e (List.mem_singleton.1 he).symm)
  · rintro ⟨e, he, hsender, hval, hn⟩
    exact ⟨e, List.mem_append_left _ he, hsender, hval, hn⟩

theorem arrived_append_self {e : MessageEnvelope} (hval : e.validate = .ok ()) :
    arrived (calls ++ [.processReceived e]) e.senderFingerprint =
      insert e.sequenceNumber.toNat (arrived calls e.senderFingerprint) := by
  ext n
  constructor
  · rintro ⟨e', he', hsender, hval', rfl⟩
    rcases List.mem_append.1 he' with he' | he'
    · exact Or.inr ⟨e', he', hsender, hval', rfl⟩
    · obtain rfl := ServiceCall.processReceived.inj (List.mem_singleton.1 he')
      exact Or.inl rfl
  · rintro (rfl | ⟨e', he', hsender, hval', hn⟩)
    · exact ⟨e, List.mem_append_right _ (List.mem_singleton_self _), rfl, hval, rfl⟩
    · exact ⟨e', List.mem_append_left _ he', hsender, hval', hn⟩

/-- **The window of a sender has been shown what has arrived.** -/
theorem seen_run (paddingBlockSize : ℕ) (calls : List ServiceCall) (sender : Fingerprint) :
    (((new paddingBlockSize).run crypto calls).windowOf sender).Seen (arrived calls sender) := by
  induction calls using List.reverseRecOn with
  | nil =>
      have hnone : arrived [] sender = ∅ := by
        ext n
        simp [arrived]
      rw [hnone]
      exact ReplayWindow.Seen.of_empty
  | append_singleton calls call ih =>
      have hrun : (new paddingBlockSize).run crypto (calls ++ [call]) =
          ((new paddingBlockSize).run crypto calls).apply crypto call := List.foldl_append
      rw [hrun, windowOf_apply]
      cases call with
      | processReceived e =>
          by_cases hcase : sender = e.senderFingerprint ∧ e.validate = .ok ()
          · obtain ⟨rfl, hval⟩ := hcase
            have hpos : 0 < e.sequenceNumber.toNat := Nat.pos_of_ne_zero fun hz =>
              seq_ne_zero_of_validate hval (UInt64.toNat_inj.1 hz)
            rw [arrived_append_self hval]
            simp only [hval, and_self, if_true]
            exact ih.of_accept hpos (by norm_num)
          · rw [arrived_append_of_ne fun e' he' =>
              ServiceCall.processReceived.inj he' ▸ hcase]
            simp only [if_neg hcase]
            exact ih
      | _ =>
          rw [arrived_append_of_ne fun e h => by simp at h]
          exact ih

/-- **What is accepted, from what has arrived**: a valid envelope is accepted unless its number, or one
that is 64 or more above it, has arrived in the name of its sender. -/
theorem accepted_iff_arrived (paddingBlockSize : ℕ) (calls : List ServiceCall)
    (e : MessageEnvelope) :
    (((new paddingBlockSize).run crypto calls).processReceived e).1 = .ok () ↔
      e.validate = .ok () ∧ ∀ m ∈ arrived calls e.senderFingerprint,
        m ≠ e.sequenceNumber.toNat ∧ m < e.sequenceNumber.toNat + 64 := by
  rw [processReceived_eq_ok_iff]
  refine and_congr_right fun hval => ?_
  have hpos : 0 < e.sequenceNumber.toNat := Nat.pos_of_ne_zero fun hz =>
    seq_ne_zero_of_validate hval (UInt64.toNat_inj.1 hz)
  exact (seen_run paddingBlockSize calls e.senderFingerprint).accept_isSome_iff hpos (by norm_num)

/-! ### Genuine envelopes -/

/-- The check of an envelope that has been prepared for a ciphertext. -/
theorem validate_eq_ok {e : MessageEnvelope} (hpos : 0 < e.sequenceNumber.toNat)
    (hnonce : e.nonce.length = 12) (hciphertext : e.ciphertext ≠ []) : e.validate = .ok () := by
  have hseq : e.sequenceNumber ≠ 0 := fun hzero => by
    rw [hzero] at hpos
    exact absurd hpos (by decide)
  rw [MessageEnvelope.validate, if_neg hseq, if_neg (not_not.2 hnonce),
    if_neg (by simpa using hciphertext)]

theorem ciphertext_ne_nil_of_validate {e : MessageEnvelope} (h : e.validate = .ok ()) :
    e.ciphertext ≠ [] := by
  intro hempty
  rw [MessageEnvelope.validate, hempty] at h
  split at h
  · cases h
  · split at h
    · cases h
    · cases h

/-- **When a genuine envelope is accepted.**  The service of the sender has prepared `e`, and now `e`
arrives at the receiver for the first time and in sending order, after calls of any kind.  It is
accepted exactly if no forged envelope in the name of the sender has arrived, valid as it is, with its
number or with one that is 64 or more above it. -/
theorem genuine_accepted_iff {crypto crypto' : CryptoPort} {paddingBlockSize paddingBlockSize' : ℕ}
    {sent calls : List ServiceCall} {before after : List MessageEnvelope} {e : MessageEnvelope}
    (hkey : ∀ master info len key, crypto.deriveKey master info len = .ok key → key.length = len)
    (hcounter : sent.length < 2 ^ 64)
    (hprepared : prepared crypto (new paddingBlockSize) sent = before ++ e :: after)
    (hciphertext : e.ciphertext ≠ [])
    (hfirst : ∀ e' ∈ e :: after, e'.senderFingerprint = e.senderFingerprint →
      .processReceived e' ∉ calls) :
    (((new paddingBlockSize').run crypto' calls).processReceived e).1 = .ok () ↔
      ∀ e', .processReceived e' ∈ calls → e' ∉ prepared crypto (new paddingBlockSize) sent →
        e'.senderFingerprint = e.senderFingerprint → e'.validate = .ok () →
          e'.sequenceNumber ≠ e.sequenceNumber ∧
            e'.sequenceNumber.toNat < e.sequenceNumber.toNat + 64 := by
  obtain ⟨habove, hpairwise⟩ := prepared_increasing sent (new paddingBlockSize)
    fun sender => by
      have hzero : ((new paddingBlockSize).lastSent sender).toNat = 0 := rfl
      omega
  have hmem : e ∈ prepared crypto (new paddingBlockSize) sent := by
    rw [hprepared]
    exact List.mem_append_right _ List.mem_cons_self
  have hval : e.validate = .ok () :=
    validate_eq_ok ((Nat.zero_le _).trans_lt (habove e hmem))
      (nonce_of_prepared hkey sent _ e hmem) hciphertext
  rw [accepted_iff_arrived]
  constructor
  · rintro ⟨-, hall⟩ e' hcall - hsender hval'
    obtain ⟨hne, hlt⟩ := hall _ ⟨e', hcall, hsender, hval', rfl⟩
    exact ⟨fun heq => hne (congrArg UInt64.toNat heq), hlt⟩
  · intro hforged
    refine ⟨hval, ?_⟩
    rintro _ ⟨e', hcall, hsender, hval', rfl⟩
    by_cases hgenuine : e' ∈ prepared crypto (new paddingBlockSize) sent
    · -- what has been sent before has a smaller number
      rw [hprepared] at hgenuine hpairwise
      rcases List.mem_append.1 hgenuine with hbefore | hlater
      · have hlt := (List.pairwise_append.1 hpairwise).2.2 e' hbefore e List.mem_cons_self hsender
        exact ⟨hlt.ne, by omega⟩
      · exact absurd hcall (hfirst e' hlater hsender)
    · obtain ⟨hne, hlt⟩ := hforged e' hcall hgenuine hsender hval'
      exact ⟨fun heq => hne (UInt64.toNat_inj.1 heq), hlt⟩

/-! ### One forged envelope -/

/-- A port of the tests, with keys of the length asked for. -/
def testPort : CryptoPort where
  deriveKey _ _ len := .ok (List.replicate len 0)

def testSender : Fingerprint where
  hex := "4A7B3C2D8E9F1A0B5C6D7E8F9A0B1C2D3E4F5A6B"

/-- An envelope in the name of the test sender. -/
def testEnvelope (seq : UInt64) (ciphertext : Bytes) : MessageEnvelope where
  senderFingerprint := testSender
  roomId := ⟨0⟩
  sequenceNumber := seq
  nonce := List.replicate 12 0
  timestamp := 1700000000
  ciphertext := ciphertext
  ratchetHeader := ⟨List.replicate 32 0, 0, 0⟩

/-- The sender prepares two envelopes; what stands for their ciphertexts is as long as an AEAD tag. -/
def testSent : List ServiceCall :=
  [.registerSession testSender,
    .prepareEnvelope testSender testSender ⟨0⟩ (List.replicate 16 1) ⟨List.replicate 32 0, 0, 0⟩
      1700000000,
    .prepareEnvelope testSender testSender ⟨0⟩ (List.replicate 16 2) ⟨List.replicate 32 0, 0, 0⟩
      1700000000]

theorem prepared_testSent : prepared testPort (new 256) testSent =
    [testEnvelope 1 (List.replicate 16 1), testEnvelope 2 (List.replicate 16 2)] := rfl

/-- A forged envelope that is not too far ahead: the second genuine one is accepted. -/
theorem genuine_accepted_second :
    (((new 256).run testPort [.processReceived (testEnvelope 1 (List.replicate 16 1)),
        .processReceived (testEnvelope 65 [0])]).processReceived
      (testEnvelope 2 (List.replicate 16 2))).1 = .ok () := by
  have hprepared : prepared testPort (new 256) testSent =
      [testEnvelope 1 (List.replicate 16 1)] ++ testEnvelope 2 (List.replicate 16 2) :: [] :=
    prepared_testSent
  refine (genuine_accepted_iff (fun master info len key h => ?_) (by decide) hprepared
    (by decide) ?_).2 ?_
  · rw [← Except.ok.inj h]
    exact List.length_replicate
  · simp [testEnvelope]
  · rw [prepared_testSent]
    simp [testEnvelope]

/-- **One forged envelope blocks the sender.**  It carries the largest number and a ciphertext that is
shorter than an AEAD tag; the first genuine envelope, which nothing genuine comes before, is rejected
after it. -/
theorem forged_blocks :
    (∀ e ∈ prepared testPort (new 256) testSent, ServiceCall.processReceived e ∉
        [ServiceCall.processReceived (testEnvelope 0xFFFFFFFFFFFFFFFF [0])]) ∧
      (((new 256).run testPort
          [.processReceived (testEnvelope 0xFFFFFFFFFFFFFFFF [0])]).processReceived
        (testEnvelope 1 (List.replicate 16 1))).1 = .error (.replayDetected 1 testSender) := by
  constructor
  · rw [prepared_testSent]
    simp [testEnvelope]
  · rfl

end MessageService

end Sanctum
