/-
The authentication of one client, from the challenge to the result.

A fingerprint that the room has no entry for is added before its response is verified, and nothing
takes it back when the verification fails, or when the result cannot be sent.  So a failed
authentication leaves the room alone exactly when it has added nobody.

Main definitions:

* `Sanctum.AuthSession` — what the outside decides while a client authenticates;
* `Sanctum.authenticateClient` — **the sequence of the parts**;
* `Sanctum.Room.SameMembers` — two rooms with the same members;
* `Sanctum.AuthSession.KeepsRoom` — whoever is added passes what comes after.

Main results:

* `Sanctum.run_authenticateClient` — the sequence is a run of one task of the listener;
* `Sanctum.failure_leaves_room_iff` — **when a failure leaves the room alone**;
* `Sanctum.late_client_admitted` — a client that answers too late is a member.
-/

import Sanctum.AuthHistory
import Sanctum.RelayOrder
import Sanctum.RoomHistory

set_option relaxedAutoImplicit false
set_option autoImplicit false

namespace Sanctum

/-- What the outside decides while a client authenticates. -/
structure AuthSession where
  /-- The random nonce of the challenge. -/
  nonce : Bytes
  challengedAt : UInt64
  /-- The frame that is received after the challenge, unless it cannot be sent or none comes. -/
  reply : AuthChallenge → Except SanctumError Frame
  admittedAt : UInt64
  verifiedAt : UInt64
  /-- Whether the result can be sent. -/
  result : Except SanctumError Unit

variable (crates : Crates) (host : HostService) (auth : AuthService) (hostNoisePubkey : Bytes)

namespace AuthSession

variable (session : AuthSession)

/-- The challenge that is sent. -/
def challenge : AuthChallenge :=
  AuthService.createChallenge crates.sha256 host.room.id hostNoisePubkey session.nonce
    session.challengedAt

/-- The fingerprint and the alias that the client claims, or why there are none. -/
def claimed : Except SanctumError (Fingerprint × String) :=
  (session.reply (session.challenge crates host hostNoisePubkey)).bind (readAuthResponse crates.pb)

/-- The verification of a claim, with the fingerprints that are active after the admission. -/
def verifyCall (fp : Fingerprint) (displayAlias : String) : VerifyCall where
  challenge := session.challenge crates host hostNoisePubkey
  response := { fingerprint := fp, signature := [], pgpPublicKey := [], displayAlias := displayAlias }
  authorizedFingerprints :=
    (host.addIfAbsent fp displayAlias session.admittedAt).room.activeFingerprints
  now := session.verifiedAt

end AuthSession

/-- **The authentication of a client.** -/
def authenticateClient (session : AuthSession) :
    Except SanctumError (Fingerprint × String) × HostService × AuthService :=
  match session.claimed crates host hostNoisePubkey with
  | .error e => (.error e, host, auth)
  | .ok (fp, displayAlias) =>
    let host' := host.addIfAbsent fp displayAlias session.admittedAt
    match auth.verify (session.verifyCall crates host hostNoisePubkey fp displayAlias) with
    | (.error e, auth') => (.error e, host', auth')
    | (.ok (), auth') => (session.result.map fun _ => (fp, displayAlias), host', auth')

/-! ### A run of the listener -/

namespace AuthSession

variable (session : AuthSession)

/-- The moves of the task: it stops where an error is returned. -/
def moves : List AuthMove :=
  [.readRoomId, .createChallenge session.nonce session.challengedAt,
    .respond (session.reply (session.challenge crates host hostNoisePubkey)).toOption] ++
  match session.claimed crates host hostNoisePubkey with
  | .error _ => []
  | .ok (fp, displayAlias) =>
    [.addMember session.admittedAt, .readAllowlist, .verify session.verifiedAt] ++
    match (auth.verify (session.verifyCall crates host hostNoisePubkey fp displayAlias)).1 with
    | .error _ => []
    | .ok () => [.sendResult session.result.isOk]

end AuthSession

/-- The task of a client that is authenticated, or one that has failed. -/
def Task.afterAuthentication : Except SanctumError (Fingerprint × String) → Task
  | .error _ => .failed
  | .ok (fp, displayAlias) => .client {
      fingerprint := fp
      displayAlias := displayAlias
      point := .register
      outRx := []
      routeRx := 0
      received := []
      sent := [] }

section

variable {s : HostListener} {c : ConnId} {challenge : AuthChallenge}
  {fp : Fingerprint} {displayAlias : String}

open HostListener

/-- From the start to the claim of the client. -/
theorem run_claim (htask : s.tasks c = .authenticating .readRoomId) (hlock : s.hostLock = none)
    (session : AuthSession) :
    ∃ s', Runs.run (step crates) s ([AuthMove.readRoomId,
        .createChallenge session.nonce session.challengedAt,
        .respond (session.reply
          (session.challenge crates s.hostService s.hostNoisePubkey)).toOption].map
            (Label.authenticate c)) = some s' ∧
      s'.hostService = s.hostService ∧ s'.authService = s.authService ∧ s'.hostLock = none ∧
      s'.tasks c = match session.claimed crates s.hostService s.hostNoisePubkey with
        | .error _ => .failed
        | .ok (fp, displayAlias) => .authenticating
            (.addMember (session.challenge crates s.hostService s.hostNoisePubkey) fp
              displayAlias) := by
  unfold AuthSession.claimed
  cases hreply : session.reply (session.challenge crates s.hostService s.hostNoisePubkey) with
  | error e =>
      simp [Runs.run, step, authStep, htask, hlock, setTask, Except.toOption, Except.bind]
  | ok frame =>
      cases hread : readAuthResponse crates.pb frame with
      | error e =>
          simp [Runs.run, step, authStep, htask, hlock, setTask, Except.toOption, Except.bind, hread]
      | ok claim =>
          simp [Runs.run, step, authStep, htask, hlock, setTask, Except.toOption, Except.bind, hread,
            AuthSession.challenge]

/-- From the claim to the outcome of the verification. -/
theorem run_verify (htask : s.tasks c = .authenticating (.addMember challenge fp displayAlias))
    (hlock : s.hostLock = none) (admittedAt verifiedAt : UInt64) :
    ∃ s', Runs.run (step crates) s
        ([AuthMove.addMember admittedAt, .readAllowlist, .verify verifiedAt].map
          (Label.authenticate c)) = some s' ∧
      s'.hostService = s.hostService.addIfAbsent fp displayAlias admittedAt ∧
      (s'.authService, s'.tasks c) =
        match s.authService.verifyResponse challenge ⟨fp, [], [], displayAlias⟩
          (s.hostService.addIfAbsent fp displayAlias admittedAt).room.activeFingerprints
          verifiedAt with
        | (.error _, auth) => (auth, .failed)
        | (.ok (), auth) => (auth, .authenticating (.sendResult fp displayAlias)) := by
  rcases hverify : s.authService.verifyResponse challenge ⟨fp, [], [], displayAlias⟩
    (s.hostService.addIfAbsent fp displayAlias admittedAt).room.activeFingerprints
    verifiedAt with ⟨result, auth⟩
  cases result with
  | error e => simp [Runs.run, step, authStep, htask, hlock, setTask, hverify]
  | ok _ => simp [Runs.run, step, authStep, htask, hlock, setTask, hverify]

/-- The result is sent. -/
theorem run_sendResult (htask : s.tasks c = .authenticating (.sendResult fp displayAlias))
    (result : Except SanctumError Unit) :
    ∃ s', Runs.run (step crates) s ([AuthMove.sendResult result.isOk].map (Label.authenticate c)) =
        some s' ∧
      s'.hostService = s.hostService ∧ s'.authService = s.authService ∧
      s'.tasks c = .afterAuthentication (result.map fun _ => (fp, displayAlias)) := by
  cases result with
  | error e =>
      simp [Runs.run, step, authStep, htask, setTask, Except.isOk, Except.toBool, Except.map,
        Task.afterAuthentication]
  | ok _ =>
      simp [Runs.run, step, authStep, htask, setTask, setClient, Except.isOk, Except.toBool,
        Except.map, Task.afterAuthentication]

end

/-- **The authentication is a run of one task**: from the start of `authenticate_client`, with the
host service free, the moves of the task lead to the services and the result of the sequence. -/
theorem run_authenticateClient {s : HostListener} {c : ConnId}
    (htask : s.tasks c = .authenticating .readRoomId) (hlock : s.hostLock = none)
    (session : AuthSession) :
    ∃ s', Runs.run (HostListener.step crates) s
        ((session.moves crates s.hostService s.authService s.hostNoisePubkey).map
          (Label.authenticate c)) = some s' ∧
      (s'.hostService, s'.authService) =
        (authenticateClient crates s.hostService s.authService s.hostNoisePubkey session).2 ∧
      s'.tasks c = .afterAuthentication
        (authenticateClient crates s.hostService s.authService s.hostNoisePubkey session).1 := by
  unfold AuthSession.moves authenticateClient
  rw [List.map_append]
  simp only [Runs.run_append_eq_some]
  obtain ⟨s₁, hrun₁, hhost₁, hauth₁, hlock₁, htask₁⟩ := run_claim crates htask hlock session
  cases hclaimed : session.claimed crates s.hostService s.hostNoisePubkey with
  | error e =>
      rw [hclaimed] at htask₁
      exact ⟨s₁, ⟨s₁, hrun₁, rfl⟩, by rw [hhost₁, hauth₁], htask₁⟩
  | ok claim =>
      obtain ⟨fp, displayAlias⟩ := claim
      rw [hclaimed] at htask₁
      obtain ⟨s₂, hrun₂, hhost₂, hcases⟩ := run_verify crates htask₁ hlock₁
        session.admittedAt session.verifiedAt
      simp only [List.map_append]
      simp only [Runs.run_append_eq_some]
      have hverify : s₁.authService.verifyResponse
          (session.challenge crates s.hostService s.hostNoisePubkey) ⟨fp, [], [], displayAlias⟩
          (s₁.hostService.addIfAbsent fp displayAlias session.admittedAt).room.activeFingerprints
          session.verifiedAt = s.authService.verify
            (session.verifyCall crates s.hostService s.hostNoisePubkey fp displayAlias) := by
        rw [hhost₁, hauth₁]
        rfl
      rw [hverify] at hcases
      rcases hresult : s.authService.verify
        (session.verifyCall crates s.hostService s.hostNoisePubkey fp displayAlias) with
          ⟨result, auth⟩
      rw [hresult] at hcases
      cases result with
      | error e =>
          obtain ⟨hauth₂, htask₂⟩ := Prod.mk.inj hcases
          exact ⟨s₂, ⟨s₁, hrun₁, s₂, hrun₂, rfl⟩, by rw [hhost₂, hauth₂, hhost₁], htask₂⟩
      | ok _ =>
          obtain ⟨hauth₂, htask₂⟩ := Prod.mk.inj hcases
          obtain ⟨s₃, hrun₃, hhost₃, hauth₃, htask₃⟩ :=
            run_sendResult crates htask₂ session.result
          refine ⟨s₃, ⟨s₁, hrun₁, s₂, hrun₂, hrun₃⟩, ?_, htask₃⟩
          rw [hhost₃, hauth₃, hhost₂, hauth₂, hhost₁]

/-! ### A failure -/

/-- **The members, their number and everybody's authorization are the same.** -/
structure Room.SameMembers (r r' : Room) : Prop where
  members : r'.members = r.members
  activeMemberCount : r'.activeMemberCount = r.activeMemberCount
  isAuthorized : ∀ fp, r'.isAuthorized fp = r.isAuthorized fp

theorem Room.SameMembers.refl (r : Room) : r.SameMembers r := ⟨rfl, rfl, fun _ => rfl⟩

/-- **Whoever is added passes what comes after**: the limit of attempts, the nonce, the clock, and the
sending of the result. -/
def AuthSession.KeepsRoom (session : AuthSession) : Prop :=
  ∀ fp displayAlias, session.claimed crates host hostNoisePubkey = .ok (fp, displayAlias) →
    host.room.findMember fp = none → host.room.isFull = false →
      auth.attemptsFor fp.short + 1 ≤ maxAuthAttempts ∧ session.nonce ∉ auth.usedNonces ∧
        absDiff session.verifiedAt session.challengedAt ≤ timestampToleranceSecs ∧
        session.result = .ok ()

/-- A fingerprint without an entry is added if the room is not full, and active from then on. -/
theorem HostService.addIfAbsent_of_none {host : HostService} {fp : Fingerprint}
    (hnone : host.room.findMember fp = none) (hfull : host.room.isFull = false)
    (displayAlias : String) (now : UInt64) :
    host.addIfAbsent fp displayAlias now = host.setRoom { host.room with
      members := host.room.members ++ [dynamicMember fp displayAlias now] } := by
  have hunauthorized : host.room.isAuthorized fp = false := by
    unfold Room.isAuthorized
    rw [hnone]
    rfl
  have hadd : host.room.addMember (dynamicMember fp displayAlias now) = .ok { host.room with
      members := host.room.members ++ [dynamicMember fp displayAlias now] } :=
    Room.addMember_eq_ok.2 ⟨hfull, hunauthorized, rfl⟩
  unfold addIfAbsent
  rw [if_pos (by rw [hnone]; rfl), hadd]

/-- Nobody is added if the fingerprint has an entry or the room is full. -/
theorem HostService.addIfAbsent_of_not {host : HostService} {fp : Fingerprint}
    (h : ¬ (host.room.findMember fp = none ∧ host.room.isFull = false))
    (displayAlias : String) (now : UInt64) : host.addIfAbsent fp displayAlias now = host := by
  unfold addIfAbsent
  split
  · next hnone =>
      have hfull : host.room.isFull = true := by
        by_contra hfull
        exact h ⟨Option.isNone_iff_eq_none.1 hnone, by simpa using hfull⟩
      unfold Room.addMember
      rw [if_pos hfull]
  · rfl

variable {crates host auth hostNoisePubkey} {session : AuthSession} {fp : Fingerprint}
  {displayAlias : String}

theorem host_authenticateClient
    (hclaimed : session.claimed crates host hostNoisePubkey = .ok (fp, displayAlias)) :
    (authenticateClient crates host auth hostNoisePubkey session).2.1 =
      host.addIfAbsent fp displayAlias session.admittedAt := by
  unfold authenticateClient
  simp only [hclaimed]
  split <;> rfl

/-- A claim is accepted if its verification is, and the result can be sent. -/
theorem authenticateClient_ne_error
    (hclaimed : session.claimed crates host hostNoisePubkey = .ok (fp, displayAlias)) :
    (∀ e, (authenticateClient crates host auth hostNoisePubkey session).1 ≠ .error e) ↔
      auth.Accepts (session.verifyCall crates host hostNoisePubkey fp displayAlias) ∧
        session.result = .ok () := by
  unfold authenticateClient
  simp only [hclaimed]
  rcases auth.verify_cases (session.verifyCall crates host hostNoisePubkey fp displayAlias) with
    ⟨haccepts, hverify⟩ | ⟨hrefuses, e, hverify, -⟩
  · simp only [hverify, haccepts, true_and]
    cases session.result with
    | error e => exact iff_of_false (fun h => h e rfl) (by simp)
    | ok _ => exact iff_of_true (fun e h => by simp [Except.map] at h) rfl
  · simp only [hverify]
    exact iff_of_false (fun h => h e rfl) fun h => hrefuses h.1

/-- A newcomer is among the fingerprints that its response is checked against. -/
theorem mem_verifyCall_newcomer (hnone : host.room.findMember fp = none)
    (hfull : host.room.isFull = false) :
    fp ∈ (session.verifyCall crates host hostNoisePubkey fp displayAlias).authorizedFingerprints := by
  refine Room.mem_activeFingerprints.2 ?_
  rw [HostService.addIfAbsent_of_none hnone hfull]
  refine (Room.activeEntries_append host.room _).symm ▸ List.mem_append_right _ ?_
  exact List.mem_singleton_self fp

/-- **When a failure leaves the room alone**: whenever the authentication returns an error, the
members, their number and everybody's authorization are as before, exactly if whoever is added passes
what comes after. -/
theorem failure_leaves_room_iff (crates : Crates) (host : HostService) (auth : AuthService)
    (hostNoisePubkey : Bytes) (session : AuthSession) :
    (∀ e, (authenticateClient crates host auth hostNoisePubkey session).1 = .error e →
      host.room.SameMembers
        (authenticateClient crates host auth hostNoisePubkey session).2.1.room) ↔
      session.KeepsRoom crates host auth hostNoisePubkey := by
  unfold AuthSession.KeepsRoom
  cases hclaimed : session.claimed crates host hostNoisePubkey with
  | error e =>
      refine iff_of_true ?_ (fun _ _ h => by simp at h)
      intro e' _
      unfold authenticateClient
      simp only [hclaimed]
      exact .refl host.room
  | ok claim =>
      obtain ⟨fp, displayAlias⟩ := claim
      rw [host_authenticateClient hclaimed]
      by_cases hnew : host.room.findMember fp = none ∧ host.room.isFull = false
      · obtain ⟨hnone, hfull⟩ := hnew
        -- the room has a member more, so that there must be no error
        have hchanged : ¬ host.room.SameMembers
            (host.addIfAbsent fp displayAlias session.admittedAt).room := by
          intro hsame
          have hmembers := hsame.members
          rw [HostService.addIfAbsent_of_none hnone hfull] at hmembers
          exact absurd hmembers (by simp [HostService.setRoom])
        have hfails : (∀ e, (authenticateClient crates host auth hostNoisePubkey session).1 =
            .error e → host.room.SameMembers
              (host.addIfAbsent fp displayAlias session.admittedAt).room) ↔
            ∀ e, (authenticateClient crates host auth hostNoisePubkey session).1 ≠ .error e :=
          forall_congr' fun e => imp_congr_right fun _ => iff_false_intro hchanged
        rw [hfails, authenticateClient_ne_error hclaimed]
        have hmem : fp ∈ (session.verifyCall crates host hostNoisePubkey fp
            displayAlias).authorizedFingerprints := mem_verifyCall_newcomer hnone hfull
        constructor
        · intro h fp' displayAlias' hclaim _ _
          obtain ⟨rfl, rfl⟩ := Prod.mk.inj (Except.ok.inj hclaim)
          obtain ⟨⟨hpasses, hnonce⟩, hresult⟩ := h
          exact ⟨hpasses.attempts, hnonce, hpasses.timestamp, hresult⟩
        · intro h
          obtain ⟨hattempts, hnonce, htime, hresult⟩ := h fp displayAlias rfl hnone hfull
          exact ⟨⟨⟨hattempts, htime, hmem⟩, hnonce⟩, hresult⟩
      · rw [HostService.addIfAbsent_of_not hnew]
        refine iff_of_true (fun _ _ => .refl host.room) ?_
        intro fp' displayAlias' hclaim hnone hfull
        obtain ⟨rfl, rfl⟩ := Prod.mk.inj (Except.ok.inj hclaim)
        exact absurd ⟨hnone, hfull⟩ hnew

/-! ### A client that answers too late -/

/-- A client whose fingerprint is not in the test room answers 200 seconds after the challenge. -/
def testLate : AuthSession where
  nonce := List.replicate 32 7
  challengedAt := 1700000000
  reply _ := .ok ⟨MessageType.authResponse,
    encodeString 1 (HostService.testFp "CC").hex ++ encodeString 4 "mallory"⟩
  admittedAt := 1700000200
  verifiedAt := 1700000200
  result := .ok ()

/-- It is refused, and is an authorized member of the room from then on. -/
theorem late_client_admitted :
    (authenticateClient HostListener.testCrates (.new HostService.testRoom) .new []
        testLate).1 = .error (.authFailed "timestamp out of range: 200s drift") ∧
      HostService.testRoom.isAuthorized (HostService.testFp "CC") = false ∧
      (authenticateClient HostListener.testCrates (.new HostService.testRoom) .new []
        testLate).2.1.room.isAuthorized (HostService.testFp "CC") = true ∧
      ¬ HostService.testRoom.SameMembers (authenticateClient HostListener.testCrates
        (.new HostService.testRoom) .new [] testLate).2.1.room := by
  have hmembers : (authenticateClient HostListener.testCrates (.new HostService.testRoom) .new []
      testLate).2.1.room.members.length = 3 := by decide
  refine ⟨by decide, by decide, by decide, ?_⟩
  intro hsame
  rw [hsame.members] at hmembers
  exact absurd hmembers (by decide)

end Sanctum
