/-
One message for every member of a room.

A sender prepares an envelope for each recipient of a message, and all of them take their numbers from one
counter.  What a recipient sees of the numbers therefore has gaps, and the larger the room is, the wider
they are; but the window of the recipient has room for 64 numbers, whoever they have been given to.

Main definitions:

* `Sanctum.MessageService.posted` — what the calls of a sender prepare, with the recipients;
* `Sanctum.FanOut` — message by message, one call for each recipient, in any order;
* `Sanctum.messageNumber` — the number of a call among those for its recipient.

Main results:

* `Sanctum.MessageService.posted_number` — the counter of the sender numbers the calls;
* `Sanctum.FanOut.messageNumber_eq` — the number of a message, from the number of the call;
* `Sanctum.MessageService.fan_out_accepted_iff` — **when an envelope that has been overtaken is accepted**.
-/

import Sanctum.ForgedEnvelopes

set_option relaxedAutoImplicit false
set_option autoImplicit false

namespace Sanctum

/-! ### The order of the calls -/

/-- **The recipients of the calls of a sender**: message by message, each recipient once, in any order;
the calls for the last message need not be complete. -/
def FanOut (recipients order : List Fingerprint) : Prop :=
  ∃ rounds : List (List Fingerprint), (∀ round ∈ rounds, round.Perm recipients) ∧
    order <+: rounds.flatten

/-- The number of a call among those for the recipient. -/
def messageNumber (order : List Fingerprint) (recipient : Fingerprint) (i : ℕ) : ℕ :=
  (order.take (i + 1)).count recipient

section Order

/-- A call for the recipient is one for the message that the calls before it add up to. -/
theorem count_take_rounds {recipients : List Fingerprint} (hnodup : recipients.Nodup)
    {rounds : List (List Fingerprint)} (hrounds : ∀ round ∈ rounds, round.Perm recipients)
    {recipient : Fingerprint} (hmem : recipient ∈ recipients) {i : ℕ}
    (hi : rounds.flatten[i]? = some recipient) :
    (rounds.flatten.take (i + 1)).count recipient = i / recipients.length + 1 := by
  induction rounds generalizing i with
  | nil => simp at hi
  | cons round rounds ih =>
      rw [List.forall_mem_cons] at hrounds
      obtain ⟨hperm, hrounds⟩ := hrounds
      have hround : round.Nodup := hperm.nodup_iff.2 hnodup
      have hlength := hperm.length_eq
      rw [List.flatten_cons] at hi ⊢
      by_cases hlt : i < round.length
      · rw [List.getElem?_append_left hlt] at hi
        rw [List.take_append_of_le_length hlt, Nat.div_eq_of_lt (hlength ▸ hlt)]
        refine List.count_eq_one_of_mem (hround.sublist (List.take_sublist _ _)) ?_
        rw [List.mem_take_iff_getElem]
        obtain ⟨h, hget⟩ := List.getElem?_eq_some_iff.1 hi
        exact ⟨i, by omega, hget⟩
      · have hle := not_lt.1 hlt
        rw [List.getElem?_append_right hle] at hi
        have hsub : i + 1 - round.length = i - round.length + 1 := by omega
        have hone : round.count recipient = 1 :=
          List.count_eq_one_of_mem hround (hperm.mem_iff.2 hmem)
        have hpos : 0 < recipients.length := List.length_pos_of_mem hmem
        have hdiv : i / recipients.length = (i - recipients.length) / recipients.length + 1 :=
          Nat.div_eq_sub_div hpos (hlength ▸ hle)
        rw [List.take_append, List.take_of_length_le (by omega), hsub, List.count_append, hone,
          ih hrounds hi, hlength, hdiv, Nat.add_comm 1]

variable {recipients order : List Fingerprint} {recipient : Fingerprint} {i : ℕ}

/-- The calls are for the recipients. -/
theorem FanOut.exists_rounds (h : FanOut recipients order) (hi : order[i]? = some recipient) :
    recipient ∈ recipients ∧ ∃ rounds : List (List Fingerprint),
      (∀ round ∈ rounds, round.Perm recipients) ∧ rounds.flatten[i]? = some recipient ∧
        rounds.flatten.take (i + 1) = order.take (i + 1) := by
  obtain ⟨rounds, hrounds, rest, hrest⟩ := h
  obtain ⟨hlt, -⟩ := List.getElem?_eq_some_iff.1 hi
  have hflat : rounds.flatten[i]? = some recipient := by
    rw [← hrest, List.getElem?_append_left hlt, hi]
  obtain ⟨round, hround, hmem⟩ := List.mem_flatten.1 (List.mem_of_getElem? hflat)
  refine ⟨(hrounds round hround).mem_iff.1 hmem, rounds, hrounds, hflat, ?_⟩
  rw [← hrest, List.take_append_of_le_length hlt]

/-- **The number of a message, from the number of the call.** -/
theorem FanOut.messageNumber_eq (h : FanOut recipients order) (hnodup : recipients.Nodup)
    (hi : order[i]? = some recipient) :
    messageNumber order recipient i = i / recipients.length + 1 := by
  obtain ⟨hmem, rounds, hrounds, hflat, htake⟩ := h.exists_rounds hi
  unfold messageNumber
  rw [← htake]
  exact count_take_rounds hnodup hrounds hmem hflat

/-- Calls for messages that are near each other are near each other. -/
theorem FanOut.lt_of_messageNumber_le (h : FanOut recipients order) (hnodup : recipients.Nodup)
    (hi : order[i]? = some recipient) {j : ℕ} (hj : order[j]? = some recipient) {k : ℕ}
    (hle : messageNumber order recipient j ≤ messageNumber order recipient i + k) :
    j < i + (k + 1) * recipients.length := by
  have hpos : 0 < recipients.length := List.length_pos_of_mem (h.exists_rounds hi).1
  rw [h.messageNumber_eq hnodup hi, h.messageNumber_eq hnodup hj] at hle
  have hround : j / recipients.length ≤ i / recipients.length + k := by omega
  calc j < j / recipients.length * recipients.length + recipients.length :=
        Nat.lt_div_mul_add hpos
    _ ≤ (i / recipients.length + k) * recipients.length + recipients.length :=
        Nat.add_le_add_right (Nat.mul_le_mul_right _ hround) _
    _ = i / recipients.length * recipients.length + (k + 1) * recipients.length := by ring
    _ ≤ i + (k + 1) * recipients.length := Nat.add_le_add_right (Nat.div_mul_le_self _ _) _

end Order

namespace MessageService

variable (crypto : CryptoPort)

/-- What a call prepares for a recipient of the sender. -/
def postedBy (svc : MessageService) (sender : Fingerprint) :
    ServiceCall → List (Fingerprint × Except SanctumError MessageEnvelope)
  | .prepareEnvelope from' recipient roomId ciphertext header timestamp =>
    if from' = sender then
      [(recipient,
        (svc.prepareEnvelope from' recipient roomId ciphertext header crypto timestamp).1)]
    else []
  | _ => []

/-- **What the calls of a sender prepare**, with the recipients, in sending order. -/
def posted (svc : MessageService) (sender : Fingerprint) :
    List ServiceCall → List (Fingerprint × Except SanctumError MessageEnvelope)
  | [] => []
  | call :: calls => svc.postedBy crypto sender call ++ posted (svc.apply crypto call) sender calls

variable {crypto} {svc : MessageService} {sender : Fingerprint}

/-- A session stays. -/
theorem mem_sessions_apply (hsession : sender ∈ svc.sessions) (call : ServiceCall) :
    sender ∈ (svc.apply crypto call).sessions := by
  cases call with
  | registerSession peer =>
      simp only [apply, registerSession]
      split
      · exact hsession
      · exact Finmap.mem_insert.2 (Or.inr hsession)
  | markEstablished peer =>
      simp only [apply, markEstablished]
      cases svc.sessions.lookup peer with
      | none => exact hsession
      | some session => exact Finmap.mem_insert.2 (Or.inr hsession)
  | prepareEnvelope from' recipient roomId ciphertext header timestamp =>
      simp only [apply, prepareEnvelope]
      cases svc.sessions.lookup from' with
      | none => exact hsession
      | some session =>
          simp only
          split
          · exact Finmap.mem_insert.2 (Or.inr hsession)
          · exact Finmap.mem_insert.2 (Or.inr hsession)
  | processReceived e =>
      simp only [apply, processReceived]
      cases e.validate with
      | error text => exact hsession
      | ok =>
          simp only
          split
          · exact Finmap.mem_insert.2 (Or.inr hsession)
          · exact Finmap.mem_insert.2 (Or.inr hsession)

theorem postedBy_of_ne {call : ServiceCall} (h : call.preparesFor sender = false) :
    svc.postedBy crypto sender call = [] := by
  cases call with
  | prepareEnvelope from' recipient roomId ciphertext header timestamp =>
      exact if_neg (of_decide_eq_false h)
  | registerSession peer => rfl
  | markEstablished peer => rfl
  | processReceived e => rfl

/-- **The counter of the sender numbers the calls**, as long as it does not wrap around. -/
theorem posted_number
    (hkey : ∀ master info len key, crypto.deriveKey master info len = .ok key → key.length = len)
    {sent : List ServiceCall} (hsession : sender ∈ svc.sessions)
    (hcounter : (svc.lastSent sender).toNat + sent.length < 2 ^ 64) {i : ℕ} {recipient : Fingerprint}
    {e : MessageEnvelope} (he : (svc.posted crypto sender sent)[i]? = some (recipient, .ok e)) :
    e.senderFingerprint = sender ∧ e.nonce.length = 12 ∧
      e.sequenceNumber.toNat = (svc.lastSent sender).toNat + i + 1 := by
  induction sent generalizing svc i with
  | nil => simp [posted] at he
  | cons call sent ih =>
      rw [List.length_cons] at hcounter
      have hsession' : sender ∈ (svc.apply crypto call).sessions := mem_sessions_apply hsession call
      rw [posted] at he
      cases hfor : call.preparesFor sender with
      | false =>
          have hlast : (svc.apply crypto call).lastSent sender = svc.lastSent sender :=
            lastSent_apply_of_ne hfor
          rw [postedBy_of_ne hfor, List.nil_append] at he
          rw [← hlast] at hcounter ⊢
          exact ih hsession' (by omega) he
      | true =>
          cases call with
          | prepareEnvelope from' recipient' roomId ciphertext header timestamp =>
              obtain rfl : from' = sender := of_decide_eq_true hfor
              obtain ⟨hlast, hnumber⟩ :=
                prepareEnvelope_counts hsession crypto recipient' roomId ciphertext header timestamp
              have hsucc : (svc.lastSent from' + 1).toNat = (svc.lastSent from').toNat + 1 := by
                have hroom : (svc.lastSent from').toNat + 1 < 2 ^ 64 := by omega
                rw [UInt64.toNat_add]
                exact Nat.mod_eq_of_lt hroom
              rw [postedBy, if_pos rfl, List.singleton_append] at he
              cases i with
              | zero =>
                  obtain ⟨-, hok⟩ := Prod.mk.inj (Option.some_inj.1 he)
                  obtain ⟨hsender, hseq, hnonce⟩ := hnumber e hok
                  refine ⟨hsender, hkey _ _ _ _ hnonce, ?_⟩
                  rw [hseq, hsucc]
              | succ i =>
                  rw [List.getElem?_cons_succ] at he
                  have hlast' : ((svc.apply crypto (.prepareEnvelope from' recipient' roomId ciphertext
                      header timestamp)).lastSent from').toNat = (svc.lastSent from').toNat + 1 := by
                    rw [← hsucc, ← hlast]
                    rfl
                  obtain ⟨hsender, hnonce, hseq⟩ := ih hsession' (by omega) he
                  exact ⟨hsender, hnonce, by omega⟩
          | registerSession peer => cases hfor
          | markEstablished peer => cases hfor
          | processReceived e => cases hfor

/-! ### Overtaken envelopes -/

theorem recipient_posted {sent : List ServiceCall} {i : ℕ} {recipient : Fingerprint}
    {result : Except SanctumError MessageEnvelope}
    (h : (svc.posted crypto sender sent)[i]? = some (recipient, result)) :
    ((svc.posted crypto sender sent).map Prod.fst)[i]? = some recipient := by
  rw [List.getElem?_map, h]
  rfl

/-- **When an envelope of the calls is accepted**: unless one that is 64 or more calls later, for this or
for any other recipient in between, has arrived before it. -/
theorem posted_accepted_iff {crypto' : CryptoPort} {paddingBlockSize : ℕ}
    (hkey : ∀ master info len key, crypto.deriveKey master info len = .ok key → key.length = len)
    {sent calls : List ServiceCall} (hsession : sender ∈ svc.sessions)
    (hcounter : (svc.lastSent sender).toNat + sent.length < 2 ^ 64) {recipient : Fingerprint}
    (hhonest : ∀ e', .processReceived e' ∈ calls → e'.senderFingerprint = sender →
      ∃ j : ℕ, (svc.posted crypto sender sent)[j]? = some (recipient, .ok e'))
    {i : ℕ} {e : MessageEnvelope} (he : (svc.posted crypto sender sent)[i]? = some (recipient, .ok e))
    (hciphertext : e.ciphertext ≠ []) (hfirst : .processReceived e ∉ calls) :
    (((new paddingBlockSize).run crypto' calls).processReceived e).1 = .ok () ↔
      ∀ (j : ℕ) (e' : MessageEnvelope), .processReceived e' ∈ calls → e'.ciphertext ≠ [] →
        (svc.posted crypto sender sent)[j]? = some (recipient, .ok e') → j < i + 64 := by
  obtain ⟨hsender, hnonce, hseq⟩ := posted_number hkey hsession hcounter he
  rw [accepted_iff_arrived]
  constructor
  · rintro ⟨-, hall⟩ j e' hcall hciphertext' he'
    obtain ⟨hsender', hnonce', hseq'⟩ := posted_number hkey hsession hcounter he'
    have hval' := validate_eq_ok (by omega) hnonce' hciphertext'
    have hlt := (hall _ ⟨e', hcall, hsender'.trans hsender.symm, hval', rfl⟩).2
    omega
  · intro hall
    refine ⟨validate_eq_ok (by omega) hnonce hciphertext, ?_⟩
    rintro _ ⟨e', hcall, hsender', hval', rfl⟩
    obtain ⟨j, he'⟩ := hhonest e' hcall (hsender'.trans hsender)
    have hseq' := (posted_number hkey hsession hcounter he').2.2
    have hlt := hall j e' hcall (ciphertext_ne_nil_of_validate hval') he'
    refine ⟨?_, by omega⟩
    intro hsame
    obtain rfl : j = i := by omega
    obtain rfl : e' = e := Except.ok.inj (Prod.mk.inj (Option.some_inj.1 (he'.symm.trans he))).2
    exact hfirst hcall

/-- **When an envelope that has been overtaken is accepted.**  A sender prepares one envelope for each
recipient of every message, in any order, and nothing but its envelopes arrives at a recipient in its
name.  An envelope that arrives for the first time is accepted exactly if none of those that have
overtaken it was prepared 64 or more calls later, the calls for all recipients counted; so the window
covers `k` later messages for sure if there are at most 64 calls for `k + 1` messages. -/
theorem fan_out_accepted_iff {crypto' : CryptoPort} {paddingBlockSize : ℕ}
    (hkey : ∀ master info len key, crypto.deriveKey master info len = .ok key → key.length = len)
    {sent calls : List ServiceCall} (hsession : sender ∈ svc.sessions)
    (hcounter : (svc.lastSent sender).toNat + sent.length < 2 ^ 64)
    {recipients : List Fingerprint} (hnodup : recipients.Nodup)
    (hfan : FanOut recipients ((svc.posted crypto sender sent).map Prod.fst)) {recipient : Fingerprint}
    (hhonest : ∀ e', .processReceived e' ∈ calls → e'.senderFingerprint = sender →
      ∃ j : ℕ, (svc.posted crypto sender sent)[j]? = some (recipient, .ok e'))
    {i : ℕ} {e : MessageEnvelope} (he : (svc.posted crypto sender sent)[i]? = some (recipient, .ok e))
    (hciphertext : e.ciphertext ≠ []) (hfirst : .processReceived e ∉ calls) :
    ((((new paddingBlockSize).run crypto' calls).processReceived e).1 = .ok () ↔
      ∀ (j : ℕ) (e' : MessageEnvelope), .processReceived e' ∈ calls → e'.ciphertext ≠ [] →
        (svc.posted crypto sender sent)[j]? = some (recipient, .ok e') → j < i + 64) ∧
    ∀ k, (k + 1) * recipients.length ≤ 64 →
      (∀ (j : ℕ) (e' : MessageEnvelope), .processReceived e' ∈ calls →
        (svc.posted crypto sender sent)[j]? = some (recipient, .ok e') →
          messageNumber ((svc.posted crypto sender sent).map Prod.fst) recipient j ≤
            messageNumber ((svc.posted crypto sender sent).map Prod.fst) recipient i + k) →
      (((new paddingBlockSize).run crypto' calls).processReceived e).1 = .ok () := by
  have hiff : (((new paddingBlockSize).run crypto' calls).processReceived e).1 = .ok () ↔ _ :=
    posted_accepted_iff hkey hsession hcounter hhonest he hciphertext hfirst
  refine ⟨hiff, ?_⟩
  intro k hk hnear
  refine hiff.2 ?_
  intro j e' hcall _ he'
  have hlt := hfan.lt_of_messageNumber_le hnodup (recipient_posted he) (recipient_posted he')
    (hnear j e' hcall he')
  omega

/-- Three members of a room. -/
def testRecipients : List Fingerprint :=
  [⟨"1111111111111111111111111111111111111111"⟩, ⟨"2222222222222222222222222222222222222222"⟩,
    ⟨"3333333333333333333333333333333333333333"⟩]

/-- The recipient whose envelopes come first. -/
def testRecipient : Fingerprint := ⟨"1111111111111111111111111111111111111111"⟩

/-- A sender with a session. -/
def testService : MessageService := (new 256).registerSession testSender

/-- The calls for some messages. -/
def testMessages (messages : ℕ) : List ServiceCall :=
  (List.replicate messages testRecipients).flatten.map fun recipient =>
    .prepareEnvelope testSender recipient ⟨0⟩ [1] ⟨List.replicate 32 0, 0, 0⟩ 1700000000

theorem testPort_deriveKey (master info : Bytes) (len : ℕ) (key : Bytes)
    (h : testPort.deriveKey master info len = .ok key) : key.length = len := by
  obtain rfl := Except.ok.inj h
  exact List.length_replicate

theorem fanOut_testMessages (messages : ℕ) :
    FanOut testRecipients (List.replicate messages testRecipients).flatten := by
  refine ⟨_, ?_, List.prefix_rfl⟩
  intro round hround
  rw [List.eq_of_mem_replicate hround]

/-- The envelope of the first message is accepted after that of the second one. -/
theorem fan_out_accepted_second :
    (((new 256).run testPort [.processReceived (testEnvelope 4 [1])]).processReceived
      (testEnvelope 1 [1])).1 = .ok () := by
  have hsession : testSender ∈ testService.sessions := Finmap.mem_insert.2 (Or.inl rfl)
  have hcounter : (testService.lastSent testSender).toNat + (testMessages 2).length < 2 ^ 64 := by
    decide
  have hfan : FanOut testRecipients
      ((testService.posted testPort testSender (testMessages 2)).map Prod.fst) := fanOut_testMessages 2
  have hhonest : ∀ e', ServiceCall.processReceived e' ∈ [.processReceived (testEnvelope 4 [1])] →
      e'.senderFingerprint = testSender →
        ∃ j : ℕ, (testService.posted testPort testSender (testMessages 2))[j]? =
          some (testRecipient, .ok e') := by
    intro e' hcall _
    obtain rfl := ServiceCall.processReceived.inj (List.mem_singleton.1 hcall)
    exact ⟨3, rfl⟩
  have he : (testService.posted testPort testSender (testMessages 2))[0]? =
      some (testRecipient, .ok (testEnvelope 1 [1])) := rfl
  have hfirst : ServiceCall.processReceived (testEnvelope 1 [1]) ∉
      [.processReceived (testEnvelope 4 [1])] := by
    simp [testEnvelope]
  refine (fan_out_accepted_iff testPort_deriveKey hsession hcounter (show testRecipients.Nodup by decide)
    hfan hhonest he (List.cons_ne_nil _ _) hfirst).2 1 (by decide) ?_
  intro j e' _ _
  exact (List.Sublist.count_le _ (List.take_sublist _ _)).trans (by decide)

set_option maxRecDepth 20000 in
/-- **Three recipients are too many for 22 later messages**: the sender prepares 23 messages for three
members, the first of them gets the envelopes of all the later messages before that of the first one, and
rejects it. -/
theorem fan_out_rejects :
    FanOut testRecipients ((testService.posted testPort testSender (testMessages 23)).map Prod.fst) ∧
      (testService.posted testPort testSender (testMessages 23)).filter (·.1 = testRecipient) =
        (List.range 23).map (fun k =>
          (testRecipient, Except.ok (testEnvelope (3 * UInt64.ofNat k + 1) [1]))) ∧
      (((new 256).run testPort ((List.range 22).map fun k =>
          .processReceived (testEnvelope (3 * UInt64.ofNat (k + 1) + 1) [1]))).processReceived
        (testEnvelope 1 [1])).1 = .error (.replayDetected 1 testSender) := by
  refine ⟨?_, ?_, ?_⟩
  · exact fanOut_testMessages 23
  · rfl
  · rfl

end MessageService

end Sanctum
