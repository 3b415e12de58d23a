/-
The authentication service over sequences of calls.

The service keeps two tables: the nonces that have been accepted, which a purge empties once it has
more than 10 000 entries, and the attempts, which it counts by the short form of the fingerprint.  A
nonce is accepted twice exactly when such a purge falls between two responses that present it and pass
the other checks.  The attempts are counted for each fingerprint apart exactly when no two of the
fingerprints that call have the same short form.

Main definitions:

* `Sanctum.VerifyCall`, `Sanctum.AuthCall`, `Sanctum.AuthHistory` — calls of the service, and the
  service with the outcomes of the calls so far;
* `Sanctum.AuthHistory.SingleUse`, `Sanctum.AuthHistory.Exact` — no nonce is accepted twice, and a call
  is refused for its attempts exactly after three failed ones of its fingerprint;
* `Sanctum.AuthHistory.nonceEvents`, `Sanctum.AuthHistory.Spared` — what the calls mean for the nonces, and
  the condition on the purges.

Main results:

* `Sanctum.AuthHistory.single_use_iff`, `Sanctum.AuthHistory.exact_iff` — **when nonces are used once,
  and when the limit is one of each fingerprint**;
* `Sanctum.AuthHistory.nonce_accepted_twice`, `Sanctum.AuthHistory.locked_out_by_another` — a purge
  between two uses, and three failures under the same short form.
-/

import Sanctum.AuthService
import Sanctum.Histories
import Sanctum.Runs

set_option relaxedAutoImplicit false
set_option autoImplicit false

namespace Sanctum

/-- A call of `verify_response`, with the clock that it reads. -/
structure VerifyCall where
  challenge : AuthChallenge
  response : AuthResponse
  authorizedFingerprints : Finset Fingerprint
  now : UInt64

namespace VerifyCall

variable (c : VerifyCall)

/-- The fingerprint that the call is for. -/
def fingerprint : Fingerprint := c.response.fingerprint

/-- The error of a call that exceeds the attempts. -/
def limitError : SanctumError :=
  .authFailed ("max attempts exceeded for " ++ c.fingerprint.display)

end VerifyCall

namespace AuthService

/-- The attempts counted under a short fingerprint. -/
def attemptsFor (svc : AuthService) (key : String) : UInt32 :=
  (svc.attemptCounts.lookup key).getD 0

/-- The result of a call, and the service after it. -/
def verify (svc : AuthService) (c : VerifyCall) : Except SanctumError Unit × AuthService :=
  svc.verifyResponse c.challenge c.response c.authorizedFingerprints c.now

/-- Every check but the one of the nonce lets the call pass. -/
structure Passes (svc : AuthService) (c : VerifyCall) : Prop where
  attempts : svc.attemptsFor c.fingerprint.short + 1 ≤ maxAuthAttempts
  timestamp : absDiff c.now c.challenge.timestamp ≤ timestampToleranceSecs
  authorized : c.fingerprint ∈ c.authorizedFingerprints

instance (svc : AuthService) (c : VerifyCall) : Decidable (svc.Passes c) :=
  decidable_of_iff (svc.attemptsFor c.fingerprint.short + 1 ≤ maxAuthAttempts ∧
      absDiff c.now c.challenge.timestamp ≤ timestampToleranceSecs ∧ c.fingerprint ∈ c.authorizedFingerprints)
    ⟨fun h => ⟨h.1, h.2.1, h.2.2⟩, fun h => ⟨h.attempts, h.timestamp, h.authorized⟩⟩

/-- The call is accepted. -/
def Accepts (svc : AuthService) (c : VerifyCall) : Prop :=
  svc.Passes c ∧ c.challenge.nonce ∉ svc.usedNonces

variable (svc : AuthService) (c : VerifyCall)

/-- One more attempt is counted. -/
def counted : AuthService :=
  let attempts := svc.attemptsFor c.fingerprint.short + 1
  { svc with attemptCounts := svc.attemptCounts.insert c.fingerprint.short attempts }

/-- The nonce is remembered, and the attempts start anew. -/
def accepted : AuthService where
  usedNonces := insert c.challenge.nonce svc.usedNonces
  attemptCounts := (svc.counted c).attemptCounts.erase c.fingerprint.short

/-- Texts that begin with different characters. -/
theorem ne_limitError {text : String} (h : text.toList.head? ≠ some 'm') :
    SanctumError.authFailed text ≠ c.limitError := by
  intro heq
  have htext := SanctumError.authFailed.inj heq
  rw [htext, String.toList_append, show "max attempts exceeded for ".toList =
    'm' :: "ax attempts exceeded for ".toList by decide] at h
  exact h rfl

/-- **What a call does.**  It is accepted, or an attempt is counted and it is refused, for the limit
exactly when the attempts exceed it. -/
theorem verify_cases :
    (svc.Accepts c ∧ svc.verify c = (.ok (), svc.accepted c)) ∨
    (¬ svc.Accepts c ∧ ∃ e, svc.verify c = (.error e, svc.counted c) ∧
      (e = c.limitError ↔ svc.attemptsFor c.fingerprint.short + 1 > maxAuthAttempts)) := by
  unfold verify verifyResponse Accepts
  by_cases hattempts : svc.attemptsFor c.fingerprint.short + 1 > maxAuthAttempts
  · refine Or.inr ⟨fun h => absurd h.1.attempts (UInt32.not_le.2 hattempts), c.limitError, ?_, ?_⟩
    · exact if_pos hattempts
    · exact iff_of_true rfl hattempts
  refine (or_congr_right (and_congr_right fun _ => exists_congr fun e => and_congr_right fun _ =>
    iff_false_right hattempts)).2 ?_
  by_cases hnonce : c.challenge.nonce ∈ svc.usedNonces
  · refine Or.inr ⟨fun h => h.2 hnonce, .authFailed "nonce already used", ?_, ?_⟩
    · exact (if_neg hattempts).trans (if_pos hnonce)
    · exact ne_limitError c (by decide)
  by_cases htime : absDiff c.now c.challenge.timestamp > timestampToleranceSecs
  · refine Or.inr ⟨fun h => absurd h.1.timestamp (UInt64.not_le.2 htime), _,
      (if_neg hattempts).trans ((if_neg hnonce).trans (if_pos htime)), ?_⟩
    refine ne_limitError c ?_
    rw [String.append_assoc, String.toList_append]
    simp
  by_cases hfp : c.fingerprint ∈ c.authorizedFingerprints
  · refine Or.inl ⟨⟨⟨UInt32.not_lt.1 hattempts, UInt64.not_lt.1 htime, hfp⟩, hnonce⟩, ?_⟩
    exact (if_neg hattempts).trans ((if_neg hnonce).trans ((if_neg htime).trans
      (if_neg (not_not_intro hfp))))
  · refine Or.inr ⟨fun h => hfp h.1.authorized, _,
      (if_neg hattempts).trans ((if_neg hnonce).trans ((if_neg htime).trans (if_pos hfp))), ?_⟩
    refine ne_limitError c ?_
    rw [String.append_assoc, String.toList_append]
    simp

/-- A call is refused for its attempts exactly if they exceed the limit. -/
theorem verify_eq_limitError :
    (svc.verify c).1 = .error c.limitError ↔
      svc.attemptsFor c.fingerprint.short + 1 > maxAuthAttempts := by
  rcases svc.verify_cases c with ⟨haccepts, hverify⟩ | ⟨-, e, hverify, hlimit⟩
  · rw [hverify]
    exact iff_of_false (by simp) (UInt32.not_lt.2 haccepts.1.attempts)
  · rw [hverify, ← hlimit]
    exact Except.error.injEq e c.limitError ▸ Iff.rfl

theorem attemptsFor_counted (key : String) :
    (svc.counted c).attemptsFor key =
      if key = c.fingerprint.short then svc.attemptsFor c.fingerprint.short + 1
      else svc.attemptsFor key := by
  unfold attemptsFor counted
  rw [lookup_insert_ite]
  split <;> rfl

theorem attemptsFor_accepted (key : String) :
    (svc.accepted c).attemptsFor key =
      if key = c.fingerprint.short then 0 else svc.attemptsFor key := by
  unfold attemptsFor accepted counted
  rw [lookup_erase_ite, lookup_insert_ite]
  split <;> rfl

end AuthService

/-- A call of the service. -/
inductive AuthCall
  | verify (c : VerifyCall)
  | purge

/-- The clock that the call reads. -/
def AuthCall.now : AuthCall → Option UInt64
  | .verify c => some c.now
  | .purge => none

/-- The outcome of a call of `verify_response`. -/
structure AuthRecord where
  fingerprint : Fingerprint
  nonce : Bytes
  ok : Bool
deriving DecidableEq

/-- **The service with the outcomes so far**, the latest first. -/
structure AuthHistory where
  svc : AuthService
  log : List AuthRecord

namespace AuthHistory

/-- A new service. -/
def new : AuthHistory where
  svc := .new
  log := []

/-- The record of an outcome. -/
def record (h : AuthHistory) (c : VerifyCall) (svc : AuthService) (ok : Bool) : AuthHistory where
  svc := svc
  log := { fingerprint := c.fingerprint, nonce := c.challenge.nonce, ok := ok } :: h.log

/-- The service after a call. -/
def call (h : AuthHistory) : AuthCall → AuthHistory
  | .verify c => h.record c (h.svc.verify c).2 (h.svc.verify c).1.isOk
  | .purge => { h with svc := h.svc.purgeOldNonces }

/-- Every call leads somewhere. -/
def step (h : AuthHistory) (call : AuthCall) : Option AuthHistory := some (h.call call)

theorem exists_step (h : AuthHistory) (call : AuthCall) : ∃ h', h.step call = some h' :=
  ⟨h.call call, rfl⟩

/-- A call is recorded as accepted, or as refused. -/
theorem call_verify_cases (h : AuthHistory) (c : VerifyCall) :
    (h.svc.Accepts c ∧ h.call (.verify c) = h.record c (h.svc.accepted c) true) ∨
      (¬ h.svc.Accepts c ∧ h.call (.verify c) = h.record c (h.svc.counted c) false) := by
  unfold call
  rcases h.svc.verify_cases c with ⟨haccepts, hverify⟩ | ⟨hrefuses, e, hverify, -⟩
  · refine Or.inl ⟨haccepts, ?_⟩
    simp only [hverify]
    rfl
  · refine Or.inr ⟨hrefuses, ?_⟩
    simp only [hverify]
    rfl

/-! ### Nonces -/

/-- The nonces that have been accepted. -/
def acceptedNonces (h : AuthHistory) : List Bytes := (h.log.filter AuthRecord.ok).map AuthRecord.nonce

/-- **No nonce is accepted twice.** -/
def SingleUse (h : AuthHistory) : Prop := h.acceptedNonces.Nodup

instance (h : AuthHistory) : Decidable h.SingleUse :=
  inferInstanceAs (Decidable h.acceptedNonces.Nodup)

/-- The nonce has been accepted, and a purge has dropped it since. -/
def Forgotten (h : AuthHistory) (nonce : Bytes) : Prop :=
  nonce ∈ h.acceptedNonces ∧ nonce ∉ h.svc.usedNonces

/-- The call presents no nonce that a purge has dropped, or fails another check. -/
def Remembered (h : AuthHistory) : AuthCall → Prop
  | .verify c => h.Forgotten c.challenge.nonce → ¬ h.svc.Passes c
  | .purge => True

theorem acceptedNonces_record (h : AuthHistory) (c : VerifyCall) (svc : AuthService) (ok : Bool) :
    (h.record c svc ok).acceptedNonces =
      if ok then c.challenge.nonce :: h.acceptedNonces else h.acceptedNonces := by
  cases ok <;> rfl

/-- One call: the nonces go on to be used once exactly if the call does not bring back one that has
been dropped. -/
theorem singleUse_step {h h' : AuthHistory} {call : AuthCall} (hsingle : h.SingleUse)
    (hstep : h.step call = some h') : h'.SingleUse ↔ h.Remembered call := by
  obtain rfl := Option.some_inj.1 hstep
  cases call with
  | purge => exact iff_of_true hsingle trivial
  | verify c =>
      unfold SingleUse Remembered Forgotten
      rcases h.call_verify_cases c with ⟨haccepts, hcall⟩ | ⟨hrefuses, hcall⟩
      · rw [hcall, acceptedNonces_record, if_pos rfl, List.nodup_cons]
        constructor
        · intro hnodup hforgotten
          exact absurd hforgotten.1 hnodup.1
        · intro hremembered
          refine ⟨?_, hsingle⟩
          intro hmem
          exact hremembered ⟨hmem, haccepts.2⟩ haccepts.1
      · rw [hcall, acceptedNonces_record, if_neg (by simp)]
        refine iff_of_true hsingle ?_
        intro hforgotten hpasses
        exact hrefuses ⟨hpasses, hforgotten.2⟩

/-- A sequence of calls on a new service leads to what its calls make of it. -/
def after (calls : List AuthCall) : AuthHistory := calls.foldl call new

theorem after_append (calls : List AuthCall) (c : AuthCall) : after (calls ++ [c]) = (after calls).call c := by
  unfold after
  rw [List.foldl_append]
  rfl

theorem run_eq_after (calls : List AuthCall) : Runs.run step new calls = some (after calls) := by
  induction calls using List.reverseRecOn with
  | nil => rfl
  | append_singleton calls c ih =>
      rw [after_append]
      exact Runs.run_append_eq_some.2 ⟨_, ih, rfl⟩

/-- What a call means for the nonces: it presents one, with every other check passed, or it is a purge that
finds more than 10 000 of them and clears them. -/
inductive NonceEvent
  | presented (nonce : Bytes)
  | cleared
deriving DecidableEq

/-- The purge has cleared the nonces. -/
def NonceEvent.isCleared : NonceEvent → Bool
  | .presented _ => false
  | .cleared => true

/-- What a call means for the nonces, after the calls before it. -/
def nonceEvent (before : List AuthCall) : AuthCall → Option NonceEvent
  | .verify c => if (after before).svc.Passes c then some (.presented c.challenge.nonce) else none
  | .purge => if (after before).svc.usedNonces.card > 10000 then some .cleared else none

/-- What the calls mean for the nonces, in order. -/
def nonceEvents (calls : List AuthCall) : List NonceEvent := Histories.collect nonceEvent calls

/-- **No purge that clears the nonces falls between two presentations of one of them.** -/
def Spared (calls : List AuthCall) : Prop :=
  ∀ nonce, ¬ [NonceEvent.presented nonce, .cleared, .presented nonce].Sublist (nonceEvents calls)

theorem nonceEvents_append (calls : List AuthCall) (c : AuthCall) :
    nonceEvents (calls ++ [c]) = nonceEvents calls ++ (nonceEvent calls c).toList :=
  Histories.collect_append_singleton calls c

/-- The nonces that have been accepted are those that have been presented, and the nonces that are kept those
that have been since they were cleared. -/
structure Presented (calls : List AuthCall) : Prop where
  accepted : ∀ nonce, nonce ∈ (after calls).acceptedNonces ↔ .presented nonce ∈ nonceEvents calls
  used : ∀ nonce, nonce ∈ (after calls).svc.usedNonces ↔
    .presented nonce ∈ Histories.since NonceEvent.isCleared (nonceEvents calls)

theorem Presented.verify {calls : List AuthCall} (h : Presented calls) (c : VerifyCall) :
    Presented (calls ++ [.verify c]) := by
  by_cases hpasses : (after calls).svc.Passes c
  · have hevents : nonceEvents (calls ++ [.verify c]) = nonceEvents calls ++ [.presented c.challenge.nonce] := by
      rw [nonceEvents_append, nonceEvent, if_pos hpasses]
      rfl
    have hsince : Histories.since NonceEvent.isCleared (nonceEvents (calls ++ [.verify c])) =
        Histories.since NonceEvent.isCleared (nonceEvents calls) ++ [.presented c.challenge.nonce] := by
      rw [hevents, Histories.since_append_singleton]
      rfl
    rcases (after calls).call_verify_cases c with ⟨-, hcall⟩ | ⟨hrefuses, hcall⟩
    · refine ⟨?_, ?_⟩
      · intro nonce
        rw [after_append, hcall, acceptedNonces_record, if_pos rfl, hevents, List.mem_cons, h.accepted]
        simp [or_comm]
      · intro nonce
        rw [after_append, hcall, hsince]
        have hused : (AuthService.accepted (after calls).svc c).usedNonces =
            insert c.challenge.nonce (after calls).svc.usedNonces := rfl
        simp only [record, hused, Finset.mem_insert, h.used, List.mem_append, List.mem_singleton,
          NonceEvent.presented.injEq]
        exact or_comm
    · -- the nonce is refused because it is kept, so it has been presented since they were cleared
      have hkept : c.challenge.nonce ∈ (after calls).svc.usedNonces := by
        by_contra hnew
        exact hrefuses ⟨hpasses, hnew⟩
      have hpresented := (h.used _).1 hkept
      refine ⟨?_, ?_⟩
      · intro nonce
        rw [after_append, hcall, acceptedNonces_record, if_neg Bool.false_ne_true, hevents, h.accepted]
        simp only [List.mem_append, List.mem_singleton, NonceEvent.presented.injEq]
        refine ⟨Or.inl, ?_⟩
        rintro (hmem | rfl)
        · exact hmem
        · exact (Histories.since_suffix _ _).subset hpresented
      · intro nonce
        rw [after_append, hcall, hsince]
        have hused : (AuthService.counted (after calls).svc c).usedNonces = (after calls).svc.usedNonces := rfl
        simp only [record, hused, h.used, List.mem_append, List.mem_singleton, NonceEvent.presented.injEq]
        refine ⟨Or.inl, ?_⟩
        rintro (hmem | rfl)
        · exact hmem
        · exact hpresented
  · have hevents : nonceEvents (calls ++ [.verify c]) = nonceEvents calls := by
      rw [nonceEvents_append, nonceEvent, if_neg hpasses]
      exact List.append_nil _
    -- a call that fails another check is refused, and leaves the nonces alone
    rcases (after calls).call_verify_cases c with ⟨haccepts, -⟩ | ⟨-, hcall⟩
    · exact absurd haccepts.1 hpasses
    · refine ⟨?_, ?_⟩
      · intro nonce
        rw [after_append, hcall, acceptedNonces_record, if_neg Bool.false_ne_true, hevents]
        exact h.accepted nonce
      · intro nonce
        rw [after_append, hcall, hevents]
        exact h.used nonce

theorem Presented.purge {calls : List AuthCall} (h : Presented calls) : Presented (calls ++ [.purge]) := by
  refine ⟨?_, ?_⟩
  · intro nonce
    rw [after_append, nonceEvents_append, nonceEvent]
    refine (h.accepted nonce).trans ?_
    split_ifs
    · simp
    · simp
  · intro nonce
    rw [after_append, nonceEvents_append, nonceEvent]
    unfold call AuthService.purgeOldNonces
    split_ifs with hmany
    · rw [Option.toList_some, Histories.since_append_singleton]
      exact iff_of_false (Finset.notMem_empty nonce) List.not_mem_nil
    · rw [Option.toList_none, List.append_nil]
      exact h.used nonce

/-- **What has been presented.** -/
theorem presented_of_calls (calls : List AuthCall) : Presented calls := by
  induction calls using List.reverseRecOn with
  | nil =>
      refine ⟨?_, ?_⟩
      · intro nonce
        exact iff_of_false List.not_mem_nil List.not_mem_nil
      · intro nonce
        exact iff_of_false (Finset.notMem_empty nonce) List.not_mem_nil
  | append_singleton calls c ih =>
      cases c with
      | verify c => exact ih.verify c
      | purge => exact ih.purge

/-- In a sequence of calls that is spared, a nonce has been forgotten exactly if it was presented and a purge
has cleared the nonces since. -/
theorem forgotten_iff {calls : List AuthCall} (hspared : Spared calls) (nonce : Bytes) :
    (after calls).Forgotten nonce ↔ [NonceEvent.presented nonce, .cleared].Sublist (nonceEvents calls) := by
  have h := presented_of_calls calls
  unfold Forgotten
  rw [h.accepted, h.used]
  constructor
  · rintro ⟨hpresented, hcleared⟩
    rcases Histories.mem_since_or hpresented (rfl : NonceEvent.isCleared (.presented nonce) = false) with
      hsince | ⟨b, hb, hsub⟩
    · exact absurd hsince hcleared
    · cases b with
      | presented other => cases hb
      | cleared => exact hsub
  · intro hsub
    refine ⟨hsub.subset List.mem_cons_self, ?_⟩
    intro hsince
    exact hspared nonce (Histories.sublist_of_mem_since hsince rfl hsub)

/-- One more call is spared if it does not present a nonce that was presented before the nonces were
cleared. -/
theorem spared_append {calls : List AuthCall} {c : AuthCall} :
    Spared (calls ++ [c]) ↔ Spared calls ∧ ∀ nonce, nonceEvent calls c = some (.presented nonce) →
      ¬ [NonceEvent.presented nonce, .cleared].Sublist (nonceEvents calls) := by
  unfold Spared
  rw [nonceEvents_append]
  constructor
  · intro hspared
    refine ⟨?_, ?_⟩
    · intro nonce hsub
      exact hspared nonce (hsub.trans (List.sublist_append_left _ _))
    · intro nonce hevent hsub
      rw [hevent] at hspared
      exact hspared nonce (hsub.append (List.Sublist.refl [NonceEvent.presented nonce]))
  · rintro ⟨hspared, hlast⟩ nonce hsub
    cases hevent : nonceEvent calls c with
    | none =>
        rw [hevent, Option.toList_none, List.append_nil] at hsub
        exact hspared nonce hsub
    | some event =>
        rw [hevent, Option.toList_some] at hsub
        have hconcat : ([NonceEvent.presented nonce, .cleared] ++ [NonceEvent.presented nonce]).Sublist
            (nonceEvents calls ++ [event]) := hsub
        rcases Histories.sublist_concat hconcat with hold | ⟨hinit, heq⟩
        · exact hspared nonce hold
        · exact hlast nonce (heq ▸ hevent) hinit

/-- A sequence of calls brings back no nonce exactly if it is spared. -/
theorem meets_remembered_iff (calls : List AuthCall) :
    Runs.Meets step Remembered new calls ↔ Spared calls := by
  induction calls using List.reverseRecOn with
  | nil => exact iff_of_true trivial fun nonce hsub => by cases hsub
  | append_singleton calls c ih =>
      rw [Runs.meets_append, spared_append, ih]
      refine and_congr_right fun hspared => ?_
      have hlast : (∀ s', Runs.run step new calls = some s' → Runs.Meets step Remembered s' [c]) ↔
          (after calls).Remembered c := by
        rw [run_eq_after]
        simp [Runs.Meets]
      rw [hlast]
      -- so far the calls are spared, so what is forgotten can be read off them
      cases c with
      | purge =>
          refine iff_of_true trivial ?_
          intro nonce hevent
          unfold nonceEvent at hevent
          split_ifs at hevent
          cases Option.some_inj.1 hevent
      | verify c =>
          unfold Remembered nonceEvent
          dsimp only
          rw [forgotten_iff hspared]
          constructor
          · intro hremembered nonce hevent hsub
            split_ifs at hevent with hpasses
            obtain rfl := NonceEvent.presented.inj (Option.some_inj.1 hevent)
            exact hremembered hsub hpasses
          · intro hlater hsub hpasses
            exact hlater c.challenge.nonce (if_pos hpasses) hsub

/-- No nonce is accepted twice exactly if no call brings one back. -/
theorem throughout_singleUse_iff (calls : List AuthCall) :
    Runs.Throughout step SingleUse new calls ↔ Runs.Meets step Remembered new calls :=
  Runs.throughout_iff_meets_of_step exists_step
    (fun _ _ _ hsingle hstep => singleUse_step hsingle hstep) List.nodup_nil

/-- **When nonces are used once**: in every sequence of calls on a new service, no nonce is accepted twice
exactly if no purge that finds more than 10 000 nonces falls between two presentations of a nonce that pass the
other checks. -/
theorem single_use_iff (calls : List AuthCall) :
    Runs.Throughout step SingleUse new calls ↔ Spared calls := by
  rw [← meets_remembered_iff]
  exact throughout_singleUse_iff calls

/-- The purge finds no more than 10 000 nonces. -/
def Small (h : AuthHistory) : AuthCall → Prop
  | .verify _ => True
  | .purge => h.svc.usedNonces.card ≤ 10000

/-- Nothing is cleared as long as every purge finds few nonces. -/
theorem cleared_notMem {calls : List AuthCall} (hsmall : Runs.Meets step Small new calls) :
    .cleared ∉ nonceEvents calls := by
  induction calls using List.reverseRecOn with
  | nil => exact List.not_mem_nil
  | append_singleton calls c ih =>
      obtain ⟨hbefore, hlast⟩ := Runs.meets_append.1 hsmall
      have hfew : (after calls).Small c := (hlast _ (run_eq_after calls)).1
      rw [nonceEvents_append, List.mem_append, not_or]
      refine ⟨ih hbefore, ?_⟩
      cases c with
      | verify c =>
          unfold nonceEvent
          split_ifs
          · simp
          · simp
      | purge =>
          rw [nonceEvent, if_neg (not_lt.2 hfew)]
          exact List.not_mem_nil

/-- **Nonces are used once as long as every purge finds few of them.** -/
theorem singleUse_of_small {calls : List AuthCall} (hsmall : Runs.Meets step Small new calls) :
    Runs.Throughout step SingleUse new calls := by
  rw [throughout_singleUse_iff, meets_remembered_iff]
  intro nonce hsub
  exact cleared_notMem hsmall (hsub.subset (by simp))

/-! ### A purge between two uses -/

/-- The clock readings of the calls do not decrease. -/
def NonDecreasing (calls : List AuthCall) : Prop := (calls.filterMap AuthCall.now).Pairwise (· ≤ ·)

/-- A challenge nonce of 32 bytes that carries a number. -/
def testNonce (i : ℕ) : Bytes :=
  UInt8.ofNat (i / 256) :: UInt8.ofNat i :: List.replicate 30 0

theorem testNonce_inj {i j : ℕ} (hi : i < 65536) (hj : j < 65536)
    (h : testNonce i = testNonce j) : i = j := by
  obtain ⟨hhigh, htail⟩ := List.cons_eq_cons.1 h
  obtain ⟨hlow, -⟩ := List.cons_eq_cons.1 htail
  have hhigh' := congrArg UInt8.toNat hhigh
  have hlow' := congrArg UInt8.toNat hlow
  simp only [UInt8.toNat_ofNat'] at hhigh' hlow'
  omega

/-- The fingerprint of the test client. -/
def testClient : Fingerprint := ⟨"4A7B3C2D8E9F1A0B5C6D7E8F9A0B1C2D3E4F5A6B"⟩

/-- A call for a fingerprint at the time of its challenge. -/
def testCall (fp : Fingerprint) (nonce : Bytes) (authorizedFingerprints : Finset Fingerprint) :
    VerifyCall where
  challenge :=
    { nonce := nonce, timestamp := 1000, roomId := ⟨0⟩, serverId := ⟨List.replicate 32 0, length_zeros⟩ }
  response := { fingerprint := fp, signature := [], pgpPublicKey := [], displayAlias := "x" }
  authorizedFingerprints := authorizedFingerprints
  now := 1000

/-- The test client answers a challenge that carries a number. -/
def testAnswer (i : ℕ) : AuthCall := .verify (testCall testClient (testNonce i) {testClient})

/-- The test client answers the challenges up to a number, in order. -/
def testBurst (n : ℕ) : List AuthCall := (List.range n).map testAnswer

/-- The nonce of a service that counts no attempts is accepted if it is new. -/
theorem call_testAnswer {h : AuthHistory} {i : ℕ} (hcounts : h.svc.attemptCounts = ∅)
    (hnonce : testNonce i ∉ h.svc.usedNonces) :
    h.call (testAnswer i) = h.record (testCall testClient (testNonce i) {testClient})
      { usedNonces := insert (testNonce i) h.svc.usedNonces, attemptCounts := ∅ } true := by
  have hpasses : h.svc.Passes (testCall testClient (testNonce i) {testClient}) := by
    have htime : absDiff 1000 1000 ≤ timestampToleranceSecs := by decide
    refine ⟨?_, htime, Finset.mem_singleton_self _⟩
    rw [AuthService.attemptsFor, hcounts, Finmap.lookup_empty]
    decide
  have hcounts' :
      (h.svc.accepted (testCall testClient (testNonce i) {testClient})).attemptCounts = ∅ := by
    refine Finmap.ext_lookup ?_
    intro key
    unfold AuthService.accepted AuthService.counted
    rw [lookup_erase_ite, lookup_insert_ite, hcounts]
    split <;> rfl
  rcases h.call_verify_cases (testCall testClient (testNonce i) {testClient}) with
    ⟨-, hcall⟩ | ⟨hrefuses, -⟩
  · refine hcall.trans (congrArg (fun counts => h.record _ (.mk _ counts) true) hcounts')
  · exact absurd ⟨hpasses, hnonce⟩ hrefuses

/-- After a burst all its nonces are remembered. -/
theorem run_testBurst {n : ℕ} (hn : n < 65536) :
    ∃ h, Runs.run step new (testBurst n) = some h ∧ h.svc.attemptCounts = ∅ ∧
      h.svc.usedNonces = (Finset.range n).image testNonce ∧
      ∀ i < n, testNonce i ∈ h.acceptedNonces := by
  induction n with
  | zero => exact ⟨new, rfl, rfl, rfl, fun i hi => absurd hi (Nat.not_lt_zero i)⟩
  | succ n ih =>
      obtain ⟨h, hrun, hcounts, hused, haccepted⟩ := ih (by omega)
      have hnew : testNonce n ∉ h.svc.usedNonces := by
        rw [hused, Finset.mem_image]
        intro hmem
        obtain ⟨i, hi, heq⟩ := hmem
        have hlt := Finset.mem_range.1 hi
        exact absurd (testNonce_inj (by omega) (by omega) heq) (by omega)
      refine ⟨h.call (testAnswer n), ?_, ?_, ?_, ?_⟩
      · unfold testBurst
        rw [List.range_succ, List.map_append]
        exact Runs.run_append_eq_some.2 ⟨h, hrun, rfl⟩
      · rw [call_testAnswer hcounts hnew]
        rfl
      · rw [call_testAnswer hcounts hnew, Finset.range_add_one, Finset.image_insert, ← hused]
        rfl
      · rw [call_testAnswer hcounts hnew, acceptedNonces_record, if_pos rfl]
        intro i hi
        rcases Nat.lt_succ_iff_lt_or_eq.1 hi with hlt | rfl
        · exact List.mem_cons_of_mem _ (haccepted i hlt)
        · exact List.mem_cons_self

/-- The test client answers 10 001 challenges, the nonces are purged, and it answers the first
challenge again: its nonce is accepted twice, at one time of the clock. -/
theorem nonce_accepted_twice :
    NonDecreasing (testBurst 10001 ++ [.purge, testAnswer 0]) ∧
      ∃ h, Runs.run step new (testBurst 10001 ++ [.purge, testAnswer 0]) = some h ∧
        ¬ h.SingleUse := by
  constructor
  · have hnow : ∀ now ∈ (testBurst 10001 ++ [.purge, testAnswer 0]).filterMap AuthCall.now,
        now = 1000 := by
      intro now hmem
      obtain ⟨call, hcall, hread⟩ := List.mem_filterMap.1 hmem
      have hcases : (∃ i, call = testAnswer i) ∨ call = .purge := by
        simp only [testBurst, List.mem_append, List.mem_map, List.mem_cons, List.not_mem_nil,
          or_false] at hcall
        rcases hcall with ⟨i, -, rfl⟩ | rfl | rfl
        · exact Or.inl ⟨i, rfl⟩
        · exact Or.inr rfl
        · exact Or.inl ⟨0, rfl⟩
      rcases hcases with ⟨i, rfl⟩ | rfl
      · exact (Option.some_inj.1 hread).symm
      · exact absurd hread (by simp [AuthCall.now])
    refine List.pairwise_of_forall_mem_list ?_
    intro now hmem now' hmem'
    rw [hnow now hmem, hnow now' hmem']
    exact UInt64.le_refl _
  · obtain ⟨h, hrun, hcounts, hused, haccepted⟩ := run_testBurst (n := 10001) (by omega)
    have hcard : h.svc.usedNonces.card = 10001 := by
      rw [hused, Finset.card_image_of_injOn, Finset.card_range]
      intro i hi j hj heq
      rw [Finset.coe_range] at hi hj
      exact testNonce_inj (hi.trans (by omega)) (hj.trans (by omega)) heq
    have hpurged : (h.call .purge).svc.usedNonces = ∅ := by
      unfold call AuthService.purgeOldNonces
      rw [if_pos (by omega)]
    have hcounts' : (h.call .purge).svc.attemptCounts = ∅ := by
      unfold call AuthService.purgeOldNonces
      rw [if_pos (by omega)]
      exact hcounts
    have hnew : testNonce 0 ∉ (h.call .purge).svc.usedNonces := by
      rw [hpurged]
      exact Finset.notMem_empty _
    refine ⟨(h.call .purge).call (testAnswer 0), ?_, ?_⟩
    · exact Runs.run_append_eq_some.2 ⟨h, hrun, rfl⟩
    · rw [SingleUse, call_testAnswer hcounts' hnew, acceptedNonces_record, if_pos rfl,
        List.nodup_cons]
      intro hnodup
      exact hnodup.1 (haccepted 0 (by omega))

/-! ### Attempts -/

/-- The failed calls of a fingerprint since its last successful one. -/
def failuresSince (fp : Fingerprint) : List AuthRecord → ℕ
  | [] => 0
  | r :: log =>
    if r.fingerprint = fp then if r.ok then 0 else failuresSince fp log + 1
    else failuresSince fp log

theorem failuresSince_le_length (fp : Fingerprint) (log : List AuthRecord) :
    failuresSince fp log ≤ log.length := by
  induction log with
  | nil => exact Nat.le_refl 0
  | cons r log ih =>
      unfold failuresSince
      rw [List.length_cons]
      split
      · split <;> omega
      · omega

/-- **The call is refused for its attempts exactly if three calls of its fingerprint have failed since
the last successful one.** -/
def Exact (h : AuthHistory) : AuthCall → Prop
  | .verify c => (h.svc.verify c).1 = .error c.limitError ↔
      maxAuthAttempts.toNat ≤ failuresSince c.fingerprint h.log
  | .purge => True

/-- The attempts that are counted agree with the failures. -/
theorem exact_verify {h : AuthHistory} {c : VerifyCall} :
    h.Exact (.verify c) ↔ (h.svc.attemptsFor c.fingerprint.short + 1 > maxAuthAttempts ↔
      maxAuthAttempts.toNat ≤ failuresSince c.fingerprint h.log) :=
  iff_congr (h.svc.verify_eq_limitError c) Iff.rfl

/-- The attempts of each of the fingerprints are its own failures. -/
def CountsApart (S : Set Fingerprint) (h : AuthHistory) : Prop :=
  ∀ fp ∈ S, (h.svc.attemptsFor fp.short).toNat = failuresSince fp h.log

variable {S : Set Fingerprint} {h : AuthHistory} {c : VerifyCall}

/-- One more attempt does not overflow the counter. -/
theorem CountsApart.toNat_add_one (hcounts : h.CountsApart S) (hfp : c.fingerprint ∈ S)
    (hlength : h.log.length + 1 < 2 ^ 32) :
    (h.svc.attemptsFor c.fingerprint.short + 1).toNat = failuresSince c.fingerprint h.log + 1 := by
  have hle := failuresSince_le_length c.fingerprint h.log
  rw [UInt32.toNat_add, hcounts c.fingerprint hfp, UInt32.toNat_one]
  exact Nat.mod_eq_of_lt (by omega)

theorem CountsApart.exact (hcounts : h.CountsApart S) (hfp : c.fingerprint ∈ S)
    (hlength : h.log.length + 1 < 2 ^ 32) : h.Exact (.verify c) := by
  rw [exact_verify, gt_iff_lt, UInt32.lt_iff_toNat_lt, hcounts.toNat_add_one hfp hlength]
  exact Nat.lt_succ_iff

/-- One call: a fingerprint whose short form is its own is counted apart. -/
theorem CountsApart.call (hS : S.InjOn Fingerprint.short) (hcounts : h.CountsApart S)
    (hfp : c.fingerprint ∈ S) (hlength : h.log.length + 1 < 2 ^ 32) :
    (h.call (.verify c)).CountsApart S := by
  intro fp hmem
  have hshort : fp.short = c.fingerprint.short ↔ c.fingerprint = fp :=
    ⟨fun heq => hS hfp hmem heq.symm, fun heq => heq ▸ rfl⟩
  rcases h.call_verify_cases c with ⟨-, hcall⟩ | ⟨-, hcall⟩
  · rw [hcall]
    simp only [record, AuthService.attemptsFor_accepted, failuresSince, hshort, if_true]
    split
    · rfl
    · exact hcounts fp hmem
  · rw [hcall]
    simp only [record, AuthService.attemptsFor_counted, failuresSince, hshort]
    split
    · next heq =>
        subst heq
        exact hcounts.toNat_add_one hfp hlength
    · exact hcounts fp hmem

theorem log_length_call_verify (h : AuthHistory) (c : VerifyCall) :
    (h.call (.verify c)).log.length = h.log.length + 1 := rfl

/-- A sequence of calls: every call of a fingerprint whose short form is its own is counted apart. -/
theorem CountsApart.meets_exact (hS : S.InjOn Fingerprint.short) {calls : List VerifyCall}
    (hcounts : h.CountsApart S) (hcalls : ∀ c ∈ calls, c.fingerprint ∈ S)
    (hlength : h.log.length + calls.length < 2 ^ 32) :
    Runs.Meets step Exact h (calls.map AuthCall.verify) := by
  induction calls generalizing h with
  | nil => trivial
  | cons c calls ih =>
      rw [List.forall_mem_cons] at hcalls
      rw [List.length_cons] at hlength
      refine ⟨hcounts.exact hcalls.1 (by omega), ?_⟩
      intro h' hstep
      obtain rfl := Option.some_inj.1 hstep
      refine ih (hcounts.call hS hcalls.1 (by omega)) hcalls.2 ?_
      rw [log_length_call_verify]
      omega

/-- A call that is refused because nobody is authorized. -/
def refusedCall (fp : Fingerprint) : VerifyCall := testCall fp [] ∅

theorem call_refusedCall (h : AuthHistory) (fp : Fingerprint) :
    h.call (.verify (refusedCall fp)) =
      h.record (refusedCall fp) (h.svc.counted (refusedCall fp)) false := by
  rcases h.call_verify_cases (refusedCall fp) with ⟨haccepts, -⟩ | ⟨-, hcall⟩
  · exact absurd haccepts.1.authorized (Finset.notMem_empty _)
  · exact hcall

theorem attemptsFor_call_refusedCall (h : AuthHistory) (fp : Fingerprint) :
    (h.call (.verify (refusedCall fp))).svc.attemptsFor fp.short =
      h.svc.attemptsFor fp.short + 1 := by
  rw [call_refusedCall]
  exact (h.svc.attemptsFor_counted (refusedCall fp) fp.short).trans (if_pos rfl)

theorem failuresSince_call_refusedCall {fp fp' : Fingerprint} (hne : fp ≠ fp') (h : AuthHistory) :
    failuresSince fp' (h.call (.verify (refusedCall fp))).log = failuresSince fp' h.log := by
  rw [call_refusedCall]
  exact if_neg hne

/-- Three refused calls of one fingerprint, and a call of another. -/
def lockout (fp fp' : Fingerprint) : List VerifyCall :=
  [refusedCall fp, refusedCall fp, refusedCall fp, refusedCall fp']

/-- If they have the same short form, the last of these calls is refused for its attempts, though none
of its fingerprint has failed. -/
theorem not_meets_exact_lockout {fp fp' : Fingerprint} (hne : fp ≠ fp')
    (hshort : fp.short = fp'.short) :
    ¬ Runs.Meets step Exact new ((lockout fp fp').map AuthCall.verify) := by
  intro hmeets
  have hlast := exact_verify.1 (((hmeets.2 _ rfl).2 _ rfl).2 _ rfl).1
  rw [show (refusedCall fp').fingerprint = fp' from rfl, ← hshort,
    attemptsFor_call_refusedCall, attemptsFor_call_refusedCall, attemptsFor_call_refusedCall,
    failuresSince_call_refusedCall hne, failuresSince_call_refusedCall hne,
    failuresSince_call_refusedCall hne] at hlast
  have hattempts : new.svc.attemptsFor fp.short = 0 := rfl
  have hfailures : failuresSince fp' new.log = 0 := rfl
  rw [hattempts, hfailures] at hlast
  exact absurd (hlast.1 (by decide)) (by decide)

/-- **When the limit is one of each fingerprint**: in all sequences of fewer than 2^32 calls of some
fingerprints, a call is refused for its attempts exactly if three calls of its fingerprint have failed
since the last successful one, if the fingerprints have different short forms, and only then. -/
theorem exact_iff (S : Set Fingerprint) :
    (∀ calls : List VerifyCall, calls.length < 2 ^ 32 → (∀ c ∈ calls, c.fingerprint ∈ S) →
      Runs.Meets step Exact new (calls.map AuthCall.verify)) ↔ S.InjOn Fingerprint.short := by
  constructor
  · intro hexact fp hfp fp' hfp' hshort
    by_contra hne
    refine not_meets_exact_lockout hne hshort (hexact _ (by simp [lockout]) ?_)
    intro c hc
    simp only [lockout, List.mem_cons, List.not_mem_nil, or_false] at hc
    rcases hc with rfl | rfl | rfl | rfl
    · exact hfp
    · exact hfp
    · exact hfp
    · exact hfp'
  · intro hS calls hlength hcalls
    have hcounts : new.CountsApart S := fun fp _ => rfl
    exact hcounts.meets_exact hS hcalls (by simpa [new] using hlength)

/-- A fingerprint with the short form of the test client's. -/
def testNeighbour : Fingerprint := ⟨"4A7B000000000000000000000000000000005A6B"⟩

/-- Two valid fingerprints share a short form: three calls of one fail, and the first call of the other
is refused for its attempts. -/
theorem locked_out_by_another :
    Fingerprint.new testClient.hex = .ok testClient ∧
      Fingerprint.new testNeighbour.hex = .ok testNeighbour ∧
      ¬ Runs.Meets step Exact new ((lockout testNeighbour testClient).map AuthCall.verify) :=
  ⟨by decide, by decide, not_meets_exact_lockout (by decide) (by decide)⟩

end AuthHistory

end Sanctum
