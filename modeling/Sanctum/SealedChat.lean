/-
The chat loop in an end-to-end session.

The loop has no session until a message with the initial message of a peer arrives.  From then on its calls of
the helpers are the moves of one party in a run of two ratchets, and the calls of the session of the peer are
those of the other one.  A line that is entered before the first message with a ratchet header is not encrypted:
the ratchet cannot send yet.

Main definitions:

* `Sanctum.encryptionsOf`, `Sanctum.decryptionsOf` — what a party has encrypted and decrypted in a run;
* `Sanctum.SealedMove`, `Sanctum.Net.followAll` — the calls of the loop and of the peer, and the run of the two
  ratchets that they make;
* `Sanctum.ChatLoop.Delivers` — **what is shown and sent** is what that run has decrypted and encrypted.

Main results:

* `Sanctum.sessionStep_session` — **a call of a helper is a move**;
* `Sanctum.ChatLoop.tracks_followAll` — the loop along the moves;
* `Sanctum.ChatLoop.sealed_lines` — **what arrives sealed is opened to the line it was made from**, at both ends.
-/

import Sanctum.Delivery
import Sanctum.TypedText

set_option relaxedAutoImplicit false
set_option autoImplicit false

namespace Sanctum

/-! ### What the parties have encrypted and decrypted -/

section

variable {Sec Grp Key Nonce Plain Cipher : Type}

/-- What a party encrypts with an event: the header, the ciphertext and the plaintext. -/
def Event.encryption (p : Party) : Event Grp Key Plain Cipher → Option (Header Grp × Cipher × Plain)
  | .encrypted q _ h c m => if q = p then some (h, c, m) else none
  | _ => none

/-- What a party decrypts with an event. -/
def Event.decryption (p : Party) : Event Grp Key Plain Cipher → Option (Header Grp × Cipher × Plain)
  | .decrypted q _ h c m => if q = p then some (h, c, m) else none
  | _ => none

/-- **What a party has encrypted**, in order. -/
def encryptionsOf (p : Party) (log : List (Event Grp Key Plain Cipher)) : List (Header Grp × Cipher × Plain) :=
  log.filterMap (Event.encryption p)

/-- **What a party has decrypted**, in order. -/
def decryptionsOf (p : Party) (log : List (Event Grp Key Plain Cipher)) : List (Header Grp × Cipher × Plain) :=
  log.filterMap (Event.decryption p)

variable {P : Primitives Sec Grp Key Nonce Plain Cipher}

theorem encryptionsOf_encrypt (w : Net Sec Grp Key Plain Cipher) (p q : Party) (m : Plain) :
    encryptionsOf q (w.encrypt P p m).log = encryptionsOf q w.log ++
      if p = q then ((P.encrypt (w.peer p) m).1.toOption.map fun out => (out.1, out.2, m)).toList else [] := by
  unfold encryptionsOf Net.encrypt
  rw [List.filterMap_append]
  congr 1
  cases hck : (w.peer p).chainKeySend with
  | none =>
      rw [P.encrypt_of_none hck]
      split_ifs
      · rfl
      · rfl
  | some ck =>
      rcases hencrypt : (P.encrypt (w.peer p) m).1 with e | ⟨h, c⟩
      · split_ifs
        · rfl
        · rfl
      · dsimp only
        rw [List.filterMap_cons, Event.encryption, List.filterMap_nil]
        split_ifs
        · rfl
        · rfl

theorem decryptionsOf_encrypt (w : Net Sec Grp Key Plain Cipher) (p q : Party) (m : Plain) :
    decryptionsOf q (w.encrypt P p m).log = decryptionsOf q w.log := by
  unfold decryptionsOf Net.encrypt
  rw [List.filterMap_append]
  refine (congrArg _ ?_).trans (List.append_nil _)
  split
  · rfl
  · rfl

variable [DecidableEq Grp]

theorem encryptionsOf_decrypt (w : Net Sec Grp Key Plain Cipher) (p q : Party) (h : Header Grp) (c : Cipher)
    (rng : Sec) : encryptionsOf q (w.decrypt P p h c rng).log = encryptionsOf q w.log := by
  unfold encryptionsOf Net.decrypt
  rw [List.filterMap_append]
  refine (congrArg _ ?_).trans (List.append_nil _)
  split
  · rfl
  · rfl

theorem decryptionsOf_decrypt (w : Net Sec Grp Key Plain Cipher) (p q : Party) (h : Header Grp) (c : Cipher)
    (rng : Sec) : decryptionsOf q (w.decrypt P p h c rng).log = decryptionsOf q w.log ++
      if p = q then ((P.decrypt (w.peer p) h c rng).1.toOption.map fun m => (h, c, m)).toList else [] := by
  unfold decryptionsOf Net.decrypt
  rw [List.filterMap_append]
  congr 1
  cases hdecrypt : (P.decrypt (w.peer p) h c rng).1 with
  | error e =>
      dsimp only
      split_ifs
      · rfl
      · rfl
  | ok m =>
      obtain ⟨k, hk, -⟩ := P.decrypt_eq_ok_iff.1 hdecrypt
      rw [hk]
      dsimp only
      rw [List.filterMap_cons, Event.decryption, List.filterMap_nil]
      split_ifs
      · rfl
      · rfl

end

/-! ### Calls are moves -/

variable {Sec Key Nonce : Type} {P : Primitives Sec Bytes32 Key Nonce Bytes Bytes}

/-- A header on the wire. -/
def Header.wire (h : Header Bytes32) : RatchetHeader where
  dhPublic := h.dhPublic.val
  previousChainLength := h.prevChainLen
  messageNumber := h.msgNum

/-- **What happens in a conversation**: the loop calls a helper, or the peer encrypts a text, or the peer is
handed a header and a ciphertext. -/
inductive SealedMove (Sec : Type)
  | call (helper : ChatCall Sec)
  | peerEncrypts (text : String)
  | peerDecrypts (h : Header Bytes32) (c : Bytes) (rng : Sec)

/-- The call of a move. -/
def SealedMove.chatCall : SealedMove Sec → Option (ChatCall Sec)
  | .call helper => some helper
  | _ => none

/-- The text that the peer encrypts in a move. -/
def SealedMove.peerText : SealedMove Sec → Option String
  | .peerEncrypts text => some text
  | _ => none

/-- The calls of the loop among the moves. -/
def callsIn (moves : List (SealedMove Sec)) : List (ChatCall Sec) := moves.filterMap SealedMove.chatCall

namespace Net

variable (P) in
/-- **The run of the two ratchets** in a move: the loop is `bob`, and the peer is `alice`. -/
def follow (w : Net Sec Bytes32 Key Bytes Bytes) : SealedMove Sec → Net Sec Bytes32 Key Bytes Bytes
  | .call (.line text) => w.encrypt P .bob (asBytes text)
  | .call (.frame m rng) =>
    match m.header with
    | some h => w.decrypt P .bob h m.ciphertext rng
    | none => w
  | .peerEncrypts text => w.encrypt P .alice (asBytes text)
  | .peerDecrypts h c rng => w.decrypt P .alice h c rng

variable (P) in
/-- The run in some moves. -/
def followAll (w : Net Sec Bytes32 Key Bytes Bytes) (moves : List (SealedMove Sec)) :
    Net Sec Bytes32 Key Bytes Bytes :=
  moves.foldl (follow P) w

theorem followAll_append (w : Net Sec Bytes32 Key Bytes Bytes) (moves : List (SealedMove Sec))
    (move : SealedMove Sec) : w.followAll P (moves ++ [move]) = (w.followAll P moves).follow P move := by
  unfold followAll
  rw [List.foldl_append]
  rfl

end Net

variable {alice bob : E2eSession Sec Bytes32 Key} (parse : Bytes → Option (InitialMessage Bytes32))
  (keys : Option (PeerPrivateKeys P))

/-- `encrypt_msg` is a move of the loop, and sends what that encrypts. -/
theorem encryptMsg_session (w : Net Sec Bytes32 Key Bytes Bytes) (text : String) :
    encryptMsg P text (some (Net.session alice bob w .bob)) =
      (match (P.encrypt (w.peer .bob) (asBytes text)).1 with
        | .ok (h, c) => (c, some h.wire)
        | .error _ => (asBytes text, none),
        some (Net.session alice bob (w.encrypt P .bob (asBytes text)) .bob)) := by
  unfold encryptMsg
  dsimp only
  rw [Net.session_encrypt]
  rcases (P.encrypt (w.peer .bob) (asBytes text)).1 with e | ⟨h, c⟩
  · rfl
  · rfl

/-- `try_decrypt` is a move of the loop, and shows what that decrypts. -/
theorem tryDecrypt_session (w : Net Sec Bytes32 Key Bytes Bytes) (m : RoomMessage) (rng : Sec) :
    tryDecrypt parse m (some (Net.session alice bob w .bob)) keys rng =
      (m.header.bind fun h => ((P.decrypt (w.peer .bob) h m.ciphertext rng).1.toOption.map fromUtf8Lossy),
        some (Net.session alice bob (w.follow P (.call (.frame m rng))) .bob)) := by
  have hfollow : w.follow P (.call (.frame m rng)) =
      match m.header with
      | some h => w.decrypt P .bob h m.ciphertext rng
      | none => w := rfl
  rw [hfollow]
  unfold tryDecrypt
  dsimp only
  cases hrh : m.ratchetHeader with
  | none =>
      have hheader : m.header = none := by
        rw [RoomMessage.header, hrh]
        rfl
      rw [hheader]
      rfl
  | some rh =>
      dsimp only
      by_cases hlen : rh.dhPublic.length = 32
      · have hheader : m.header = some ⟨⟨rh.dhPublic, hlen⟩, rh.previousChainLength, rh.messageNumber⟩ := by
          rw [RoomMessage.header, hrh]
          exact dif_pos hlen
        rw [hheader, dif_pos hlen, Net.session_decrypt]
        dsimp only
        rw [Option.bind_some]
        cases (P.decrypt (w.peer .bob) ⟨⟨rh.dhPublic, hlen⟩, rh.previousChainLength, rh.messageNumber⟩
            m.ciphertext rng).1 with
        | error e => rfl
        | ok pt => rfl
      · have hheader : m.header = none := by
          rw [RoomMessage.header, hrh]
          exact dif_neg hlen
        rw [hheader, dif_neg hlen]
        rfl

/-- **A call of a helper is a move**: the session of the loop is that of its party in the run. -/
theorem sessionStep_session (w : Net Sec Bytes32 Key Bytes Bytes) (call : ChatCall Sec) :
    sessionStep parse keys (some (Net.session alice bob w .bob)) call =
      some (Net.session alice bob (w.follow P (.call call)) .bob) := by
  cases call with
  | line text => exact congrArg Prod.snd (encryptMsg_session w text)
  | frame m rng => exact congrArg Prod.snd (tryDecrypt_session parse keys w m rng)

/-! ### Moves in order -/

/-- What reaches a party in a move. -/
def SealedMove.delivery : Party → SealedMove Sec → Option (Header Bytes32 × Bytes)
  | .bob, .call (.frame m _) => m.header.map fun h => (h, m.ciphertext)
  | .alice, .peerDecrypts h c _ => some (h, c)
  | _, _ => none

/-- **What reaches a party** in some moves. -/
def deliveredTo (p : Party) (moves : List (SealedMove Sec)) : List (Header Bytes32 × Bytes) :=
  moves.filterMap (SealedMove.delivery p)

/-- The ratchet header of the message of a call. -/
def ChatCall.header (call : ChatCall Sec) : Option (Header Bytes32) := call.message.bind RoomMessage.header

/-- A message with a ratchet header has been received. -/
def anyHeader (calls : List (ChatCall Sec)) : Bool := calls.any fun call => call.header.isSome

/-- The lines before the first message with a ratchet header. -/
def linesBefore (calls : List (ChatCall Sec)) : List String :=
  Histories.collect (fun before call => if anyHeader before then none else call.text) calls

/-- The lines after it. -/
def linesAfter (calls : List (ChatCall Sec)) : List String :=
  Histories.collect (fun before call => if anyHeader before then call.text else none) calls

namespace Net

variable (P) in
/-- **A move that an honest network allows**: what is delivered is a message of the other party, within the
limits on skipping, or, to the loop, anything without a ratchet header. -/
def Allows (w : Net Sec Bytes32 Key Bytes Bytes) : SealedMove Sec → Prop
  | .call (.line _) => True
  | .call (.frame m rng) => ∀ h, m.header = some h → Orderly P w .bob h m.ciphertext rng
  | .peerEncrypts _ => True
  | .peerDecrypts h c rng => Orderly P w .alice h c rng

variable (P) in
/-- Every move is allowed after those before it. -/
def AllowsAll (w : Net Sec Bytes32 Key Bytes Bytes) (moves : List (SealedMove Sec)) : Prop :=
  ∀ before move after, moves = before ++ move :: after → (w.followAll P before).Allows P move

variable {w w₀ : Net Sec Bytes32 Key Bytes Bytes} {moves : List (SealedMove Sec)} {move : SealedMove Sec}

theorem allowsAll_nil : w₀.AllowsAll P [] := fun _ _ _ h => absurd h (by simp)

/-- One more move. -/
theorem allowsAll_append :
    w₀.AllowsAll P (moves ++ [move]) ↔ w₀.AllowsAll P moves ∧ (w₀.followAll P moves).Allows P move := by
  refine ⟨fun h => ⟨fun before move' after heq => ?_, h moves move [] rfl⟩, ?_⟩
  · refine h before move' (after ++ [move]) ?_
    rw [heq, List.append_assoc, List.cons_append]
  · rintro ⟨hmoves, hlast⟩ before move' after heq
    rcases List.eq_nil_or_concat after with rfl | ⟨after, move'', rfl⟩
    · obtain ⟨rfl, hmove⟩ := List.append_inj' heq rfl
      exact List.singleton_inj.1 hmove ▸ hlast
    · rw [List.concat_eq_append, ← List.cons_append, ← List.append_assoc] at heq
      obtain ⟨rfl, -⟩ := List.append_inj' heq rfl
      exact hmoves before move' after rfl

theorem follow_frame_of_some {m : RoomMessage} {hd : Header Bytes32} (h : m.header = some hd)
    (w : Net Sec Bytes32 Key Bytes Bytes) (rng : Sec) :
    w.follow P (.call (.frame m rng)) = w.decrypt P .bob hd m.ciphertext rng := by
  unfold follow
  dsimp only
  rw [h]

theorem follow_frame_of_none {m : RoomMessage} (h : m.header = none) (w : Net Sec Bytes32 Key Bytes Bytes)
    (rng : Sec) : w.follow P (.call (.frame m rng)) = w := by
  unfold follow
  dsimp only
  rw [h]

/-- An allowed move is one of an honest run, or none. -/
theorem reaches_follow (h : w.Allows P move) :
    Relation.ReflTransGen (Step P (Orderly P)) w (w.follow P move) := by
  cases move with
  | call helper =>
      cases helper with
      | line text => exact .single (.encrypt w .bob (asBytes text))
      | frame m rng =>
          cases hheader : m.header with
          | none => rw [follow_frame_of_none hheader]
          | some hd =>
              rw [follow_frame_of_some hheader]
              exact .single (.decrypt w .bob hd m.ciphertext rng (h hd hheader))
  | peerEncrypts text => exact .single (.encrypt w .alice (asBytes text))
  | peerDecrypts hd c rng => exact .single (.decrypt w .alice hd c rng h)

theorem reaches_followAll (h : w₀.AllowsAll P moves) :
    Relation.ReflTransGen (Step P (Orderly P)) w₀ (w₀.followAll P moves) := by
  induction moves using List.reverseRecOn with
  | nil => exact .refl
  | append_singleton moves move ih =>
      rw [followAll_append]
      obtain ⟨hmoves, hlast⟩ := allowsAll_append.1 h
      exact (ih hmoves).trans (reaches_follow hlast)

/-- The chains only grow. -/
theorem sentInChain_follow (pk : Bytes32) (w : Net Sec Bytes32 Key Bytes Bytes) (move : SealedMove Sec) :
    sentInChain pk w.log ≤ sentInChain pk (w.follow P move).log := by
  cases move with
  | call helper =>
      cases helper with
      | line text => exact sentInChain_le_append pk w.log _
      | frame m rng =>
          cases hheader : m.header with
          | none => rw [follow_frame_of_none hheader]
          | some hd =>
              rw [follow_frame_of_some hheader]
              exact sentInChain_le_append pk w.log _
  | peerEncrypts text => exact sentInChain_le_append pk w.log _
  | peerDecrypts h c rng => exact sentInChain_le_append pk w.log _

/-- The party has a sending chain. -/
def CanSend (w : Net Sec Bytes32 Key Bytes Bytes) (p : Party) : Prop := ∃ ck, (w.peer p).chainKeySend = some ck

/-- With a sending chain, everything is encrypted. -/
theorem CanSend.encrypt_ok (haead : P.AeadInverts) {p : Party} (h : w.CanSend p) (m : Bytes) :
    ∃ hd c, (P.encrypt (w.peer p) m).1 = .ok (hd, c) := by
  obtain ⟨ck, hck⟩ := h
  obtain ⟨c, hseal, -⟩ := haead (P.msgKey ck) (P.nonceOf (P.msgKey ck)) m []
  refine ⟨(w.peer p).nextHeader, c, ?_⟩
  rw [P.encrypt_eq hck, P.encryptWith_eq_ok_iff.2 hseal]
  rfl

theorem encrypt_peer_of_ne {p q : Party} (h : p ≠ q) (w : Net Sec Bytes32 Key Bytes Bytes) (m : Bytes) :
    (w.encrypt P q m).peer p = w.peer p := Function.update_of_ne h ..

theorem decrypt_peer_of_ne {p q : Party} (h : p ≠ q) (w : Net Sec Bytes32 Key Bytes Bytes) (hd : Header Bytes32)
    (c : Bytes) (rng : Sec) : (w.decrypt P q hd c rng).peer p = w.peer p := Function.update_of_ne h ..

/-- A party that can send can do so after anybody has sent. -/
theorem CanSend.encrypt {p : Party} (h : w.CanSend p) (q : Party) (m : Bytes) : (w.encrypt P q m).CanSend p := by
  obtain ⟨ck, hck⟩ := h
  by_cases hpq : p = q
  · subst hpq
    have hpeer : (w.encrypt P p m).peer p = (P.encrypt (w.peer p) m).2 := Function.update_self ..
    exact ⟨P.nextCk ck, by rw [hpeer, P.encrypt_eq hck]; rfl⟩
  · exact ⟨ck, by rw [encrypt_peer_of_ne hpq, hck]⟩

/-- A party that is handed a message can send if it could before, or if the message makes the ratchet turn. -/
theorem canSend_decrypt {p : Party} {q : Party} {hd : Header Bytes32} {c : Bytes} {rng : Sec}
    (h : w.CanSend p ∨ p = q ∧ (w.peer q).Draws hd) : (w.decrypt P q hd c rng).CanSend p := by
  by_cases hpq : p = q
  · subst hpq
    have hpeer : (w.decrypt P p hd c rng).peer p = (P.decrypt (w.peer p) hd c rng).2 := Function.update_self ..
    obtain ⟨hsame, hdraws⟩ := P.takeKey_sameSender (w.peer p) hd rng
    unfold CanSend
    rw [hpeer, P.decrypt_eq]
    by_cases hturn : (w.peer p).Draws hd
    · exact ⟨_, (hdraws hturn).chain⟩
    · obtain ⟨ck, hck⟩ := h.resolve_right fun hdraw => hturn hdraw.2
      exact ⟨ck, (hsame hturn).chain.trans hck⟩
  · obtain ⟨ck, hck⟩ := h.resolve_right fun hdraw => hpq hdraw.1
    exact ⟨ck, by rw [decrypt_peer_of_ne hpq, hck]⟩

/-- What an honest network delivers is opened, and was encrypted by the other party. -/
theorem InStep.opens {sk : Key} {d : Dialogue Sec} (h : w.InStep P sk d) (hcomm : P.DhCommutes)
    (haead : P.AeadInverts) (hfull : ∀ pk, sentInChain pk w.log < 2 ^ 32 - 256) {p : Party} {hd : Header Bytes32}
    {c : Bytes} {rng : Sec} (hin : Orderly P w p hd c rng) :
    ∃ m, (P.decrypt (w.peer p) hd c rng).1 = .ok m ∧ (hd, c, m) ∈ encryptionsOf p.other w.log := by
  obtain ⟨k, m, he⟩ := hin.sent
  exact ⟨m, h.decrypt_eq_ok hcomm haead hfull hin he, List.mem_filterMap.2 ⟨_, he, if_pos rfl⟩⟩

end Net

/-! ### The two ratchets along the moves -/

theorem callsIn_append (moves : List (SealedMove Sec)) (move : SealedMove Sec) :
    callsIn (moves ++ [move]) = callsIn moves ++ move.chatCall.toList := by
  unfold callsIn
  rw [List.filterMap_append, List.filterMap_cons]
  cases move.chatCall with
  | none => rfl
  | some helper => rfl

theorem deliveredTo_append (p : Party) (moves : List (SealedMove Sec)) (move : SealedMove Sec) :
    deliveredTo p (moves ++ [move]) = deliveredTo p moves ++ (move.delivery p).toList := by
  unfold deliveredTo
  rw [List.filterMap_append, List.filterMap_cons]
  cases move.delivery p with
  | none => rfl
  | some delivery => rfl

theorem anyHeader_append (calls : List (ChatCall Sec)) (call : ChatCall Sec) :
    anyHeader (calls ++ [call]) = (anyHeader calls || call.header.isSome) := by
  unfold anyHeader
  rw [List.any_append, List.any_cons, List.any_nil, Bool.or_false]

theorem linesBefore_append (calls : List (ChatCall Sec)) (call : ChatCall Sec) :
    linesBefore (calls ++ [call]) = linesBefore calls ++ (if anyHeader calls then none else call.text).toList :=
  Histories.collect_append_singleton ..

theorem linesAfter_append (calls : List (ChatCall Sec)) (call : ChatCall Sec) :
    linesAfter (calls ++ [call]) = linesAfter calls ++ (if anyHeader calls then call.text else none).toList :=
  Histories.collect_append_singleton ..

theorem linesAfter_eq_nil {calls : List (ChatCall Sec)} (h : anyHeader calls = false) : linesAfter calls = [] := by
  induction calls using List.reverseRecOn with
  | nil => rfl
  | append_singleton calls call ih =>
      rw [anyHeader_append, Bool.or_eq_false_iff] at h
      rw [linesAfter_append, ih h.1, h.1]
      rfl

/-- The lines before the first message with a ratchet header, and those after it, are all lines. -/
theorem linesBefore_append_linesAfter (calls : List (ChatCall Sec)) :
    linesBefore calls ++ linesAfter calls = calls.filterMap ChatCall.text := by
  induction calls using List.reverseRecOn with
  | nil => rfl
  | append_singleton calls call ih =>
      rw [linesBefore_append, linesAfter_append, List.filterMap_append, ← ih]
      have htext : [call].filterMap ChatCall.text = call.text.toList := by
        rw [List.filterMap_cons]
        cases call.text with
        | none => rfl
        | some text => rfl
      rw [htext]
      cases hany : anyHeader calls with
      | false => simp [linesAfter_eq_nil hany]
      | true => simp

/-- The text of a plaintext. -/
def plainText (e : Header Bytes32 × Bytes × Bytes) : String := fromUtf8Lossy e.2.2

/-- **The run after some moves**: until a message with a ratchet header arrives, the party of the loop is where it
began, and after that it can send; what has been delivered has been opened, to what the other party has
encrypted; and what the parties have encrypted are their lines. -/
structure Net.Follows (bob : E2eSession Sec Bytes32 Key) (moves : List (SealedMove Sec))
    (w : Net Sec Bytes32 Key Bytes Bytes) : Prop where
  waiting : anyHeader (callsIn moves) = false → w.peer .bob = bob.ratchet ∧ encryptionsOf .bob w.log = []
  ready : anyHeader (callsIn moves) = true → w.CanSend .bob
  peer : w.CanSend .alice
  opened : ∀ p, (decryptionsOf p w.log).map (fun e => (e.1, e.2.1)) = deliveredTo p moves
  origin : ∀ p e, e ∈ decryptionsOf p w.log → e ∈ encryptionsOf p.other w.log
  lines : linesAfter (callsIn moves) = (encryptionsOf .bob w.log).map plainText
  peerLines : moves.filterMap SealedMove.peerText = (encryptionsOf .alice w.log).map plainText

namespace Net

variable {w : Net Sec Bytes32 Key Bytes Bytes} {moves : List (SealedMove Sec)}

/-- What has been opened was encrypted by the other party, also after an encryption. -/
theorem origin_encrypt (h : ∀ p e, e ∈ decryptionsOf p w.log → e ∈ encryptionsOf p.other w.log) (q : Party)
    (m : Bytes) (p : Party) (e : Header Bytes32 × Bytes × Bytes)
    (he : e ∈ decryptionsOf p (w.encrypt P q m).log) : e ∈ encryptionsOf p.other (w.encrypt P q m).log := by
  rw [decryptionsOf_encrypt] at he
  rw [encryptionsOf_encrypt]
  exact List.mem_append_left _ (h p e he)

/-- Also after a message that is opened. -/
theorem origin_decrypt (h : ∀ p e, e ∈ decryptionsOf p w.log → e ∈ encryptionsOf p.other w.log) {q : Party}
    {hd : Header Bytes32} {c m : Bytes} {rng : Sec} (hok : (P.decrypt (w.peer q) hd c rng).1 = .ok m)
    (hsent : (hd, c, m) ∈ encryptionsOf q.other w.log) (p : Party) (e : Header Bytes32 × Bytes × Bytes)
    (he : e ∈ decryptionsOf p (w.decrypt P q hd c rng).log) :
    e ∈ encryptionsOf p.other (w.decrypt P q hd c rng).log := by
  rw [encryptionsOf_decrypt]
  rw [decryptionsOf_decrypt, hok, List.mem_append] at he
  rcases he with he | he
  · exact h p e he
  · split_ifs at he with hqp
    · obtain rfl := List.mem_singleton.1 he
      exact hqp ▸ hsent
    · exact absurd he List.not_mem_nil

/-- What has been opened is what has been delivered, also after a message that is opened. -/
theorem opened_decrypt {move : SealedMove Sec}
    (h : ∀ p, (decryptionsOf p w.log).map (fun e => (e.1, e.2.1)) = deliveredTo p moves) {q : Party}
    {hd : Header Bytes32} {c m : Bytes} {rng : Sec} (hok : (P.decrypt (w.peer q) hd c rng).1 = .ok m)
    (hmove : ∀ p, move.delivery p = if q = p then some (hd, c) else none) (p : Party) :
    (decryptionsOf p (w.decrypt P q hd c rng).log).map (fun e => (e.1, e.2.1)) =
      deliveredTo p (moves ++ [move]) := by
  rw [decryptionsOf_decrypt, hok, List.map_append, h p, deliveredTo_append, hmove]
  split_ifs
  · rfl
  · rfl

/-- A line is encrypted if a message has arrived, and else nothing happens in the run. -/
theorem Follows.line (haead : P.AeadInverts) (hbob : bob.ratchet.chainKeySend = none)
    (h : Follows bob moves w) (text : String) :
    Follows bob (moves ++ [.call (.line text)]) (w.encrypt P .bob (asBytes text)) := by
  have hcalls : callsIn (moves ++ [.call (.line text)]) = callsIn moves ++ [.line text] := callsIn_append ..
  have hany : anyHeader (callsIn moves ++ [.line text]) = anyHeader (callsIn moves) := by
    rw [anyHeader_append]
    exact Bool.or_false _
  have hdelivered : ∀ p, deliveredTo p (moves ++ [.call (.line text)]) = deliveredTo p moves := by
    intro p
    rw [deliveredTo_append]
    cases p with
    | alice => exact List.append_nil _
    | bob => exact List.append_nil _
  have hpeer : (moves ++ [SealedMove.call (.line text)]).filterMap SealedMove.peerText =
      moves.filterMap SealedMove.peerText := by
    rw [List.filterMap_append]
    exact List.append_nil _
  cases hready : anyHeader (callsIn moves) with
  | false =>
      obtain ⟨hstart, hsilent⟩ := h.waiting hready
      have hnone : (w.peer .bob).chainKeySend = none := by rw [hstart, hbob]
      rw [encrypt_of_none hnone]
      refine ⟨fun _ => ⟨hstart, hsilent⟩, ?_, h.peer, ?_, h.origin, ?_, ?_⟩
      · rw [hcalls, hany]
        exact h.ready
      · intro p
        rw [hdelivered, h.opened]
      · rw [hcalls, linesAfter_append, hready, h.lines]
        exact List.append_nil _
      · rw [hpeer, h.peerLines]
  | true =>
      obtain ⟨hd, c, hok⟩ := (h.ready hready).encrypt_ok haead (asBytes text)
      refine ⟨?_, fun _ => (h.ready hready).encrypt .bob _, h.peer.encrypt .bob _, ?_,
        origin_encrypt h.origin .bob _, ?_, ?_⟩
      · rw [hcalls, hany, hready]
        exact fun hno => absurd hno (by decide)
      · intro p
        rw [decryptionsOf_encrypt, hdelivered, h.opened]
      · rw [hcalls, linesAfter_append, hready, h.lines, encryptionsOf_encrypt, hok, List.map_append]
        congr 1
        exact congrArg (fun text => [text]) (fromUtf8Lossy_asBytes text).symm
      · rw [hpeer, h.peerLines, encryptionsOf_encrypt]
        exact congrArg _ (List.append_nil _).symm

/-- A text of the peer is encrypted. -/
theorem Follows.peerEncrypts (haead : P.AeadInverts) (h : Follows bob moves w) (text : String) :
    Follows bob (moves ++ [.peerEncrypts text]) (w.encrypt P .alice (asBytes text)) := by
  have hcalls : callsIn (moves ++ [.peerEncrypts text]) = callsIn moves := by
    rw [callsIn_append]
    exact List.append_nil _
  have hsame : encryptionsOf .bob (w.encrypt P .alice (asBytes text)).log = encryptionsOf .bob w.log := by
    rw [encryptionsOf_encrypt]
    exact List.append_nil _
  obtain ⟨hd, c, hok⟩ := h.peer.encrypt_ok haead (asBytes text)
  refine ⟨?_, ?_, h.peer.encrypt .alice _, ?_, origin_encrypt h.origin .alice _, ?_, ?_⟩
  · rw [hcalls, hsame]
    exact h.waiting
  · rw [hcalls]
    exact fun hready => (h.ready hready).encrypt .alice _
  · intro p
    rw [decryptionsOf_encrypt, h.opened, deliveredTo_append]
    cases p with
    | alice => exact (List.append_nil _).symm
    | bob => exact (List.append_nil _).symm
  · rw [hcalls, hsame, h.lines]
  · rw [List.filterMap_append, h.peerLines, encryptionsOf_encrypt, hok, List.map_append]
    congr 1
    exact congrArg (fun text => [text]) (fromUtf8Lossy_asBytes text).symm

/-- A message for the peer is opened. -/
theorem Follows.peerDecrypts {hd : Header Bytes32} {c m : Bytes} {rng : Sec} (h : Follows bob moves w)
    (hok : (P.decrypt (w.peer .alice) hd c rng).1 = .ok m) (hsent : (hd, c, m) ∈ encryptionsOf .bob w.log) :
    Follows bob (moves ++ [.peerDecrypts hd c rng]) (w.decrypt P .alice hd c rng) := by
  have hcalls : callsIn (moves ++ [.peerDecrypts hd c rng]) = callsIn moves := by
    rw [callsIn_append]
    exact List.append_nil _
  refine ⟨?_, ?_, canSend_decrypt (Or.inl h.peer), opened_decrypt h.opened hok ?_,
    origin_decrypt h.origin hok hsent, ?_, ?_⟩
  · rw [hcalls, encryptionsOf_decrypt]
    exact h.waiting
  · rw [hcalls]
    exact fun hready => canSend_decrypt (Or.inl (h.ready hready))
  · intro p
    cases p with
    | alice => rfl
    | bob => rfl
  · rw [hcalls, encryptionsOf_decrypt, h.lines]
  · rw [List.filterMap_append, encryptionsOf_decrypt, h.peerLines]
    exact List.append_nil _

/-- A message for the loop is opened, and lets it send. -/
theorem Follows.frame {msg : RoomMessage} {hd : Header Bytes32} {m : Bytes} {rng : Sec}
    (hdraws : ∀ hd, bob.ratchet.Draws hd) (h : Follows bob moves w) (hheader : msg.header = some hd)
    (hok : (P.decrypt (w.peer .bob) hd msg.ciphertext rng).1 = .ok m)
    (hsent : (hd, msg.ciphertext, m) ∈ encryptionsOf .alice w.log) :
    Follows bob (moves ++ [.call (.frame msg rng)]) (w.decrypt P .bob hd msg.ciphertext rng) := by
  have hcalls : callsIn (moves ++ [.call (.frame msg rng)]) = callsIn moves ++ [.frame msg rng] :=
    callsIn_append ..
  have hany : anyHeader (callsIn moves ++ [.frame msg rng]) = true := by
    rw [anyHeader_append, ChatCall.header, ChatCall.message, Option.bind_some, hheader]
    exact Bool.or_true _
  refine ⟨?_, fun _ => canSend_decrypt ?_, canSend_decrypt (Or.inl h.peer), opened_decrypt h.opened hok ?_,
    origin_decrypt h.origin hok hsent, ?_, ?_⟩
  · rw [hcalls, hany]
    exact fun hno => absurd hno (by decide)
  · cases hready : anyHeader (callsIn moves) with
    | false => exact Or.inr ⟨rfl, by rw [(h.waiting hready).1]; exact hdraws hd⟩
    | true => exact Or.inl (h.ready hready)
  · intro p
    cases p with
    | alice => rfl
    | bob =>
        rw [SealedMove.delivery, hheader]
        rfl
  · rw [hcalls, linesAfter_append, encryptionsOf_decrypt, h.lines]
    cases anyHeader (callsIn moves) with
    | false => exact List.append_nil _
    | true => exact List.append_nil _
  · rw [List.filterMap_append, encryptionsOf_decrypt, h.peerLines]
    exact List.append_nil _

/-- A message without a ratchet header is ignored. -/
theorem Follows.ignored {msg : RoomMessage} (h : Follows bob moves w) (hheader : msg.header = none) (rng : Sec) :
    Follows bob (moves ++ [.call (.frame msg rng)]) w := by
  have hcalls : callsIn (moves ++ [.call (.frame msg rng)]) = callsIn moves ++ [.frame msg rng] :=
    callsIn_append ..
  have hany : anyHeader (callsIn moves ++ [.frame msg rng]) = anyHeader (callsIn moves) := by
    rw [anyHeader_append, ChatCall.header, ChatCall.message, Option.bind_some, hheader]
    exact Bool.or_false _
  refine ⟨?_, ?_, h.peer, ?_, h.origin, ?_, ?_⟩
  · rw [hcalls, hany]
    exact h.waiting
  · rw [hcalls, hany]
    exact h.ready
  · intro p
    rw [h.opened, deliveredTo_append]
    cases p with
    | alice => exact (List.append_nil _).symm
    | bob =>
        rw [SealedMove.delivery, hheader]
        exact (List.append_nil _).symm
  · rw [hcalls, linesAfter_append, h.lines]
    cases anyHeader (callsIn moves) with
    | false => exact List.append_nil _
    | true => exact List.append_nil _
  · rw [List.filterMap_append, h.peerLines]
    exact List.append_nil _

variable {sk : Key}

/-- **An allowed move keeps it so.** -/
theorem Follows.step {spk : Sec} {move : SealedMove Sec} {d : Dialogue Sec} (hcomm : P.DhCommutes)
    (haead : P.AeadInverts) (hbob : bob.ratchet = RatchetState.initBob sk spk (P.publicKey spk))
    (hin : w.InStep P sk d) (hfull : ∀ pk, sentInChain pk w.log < 2 ^ 32 - 256) (h : Follows bob moves w)
    (hmove : w.Allows P move) : Follows bob (moves ++ [move]) (w.follow P move) := by
  cases move with
  | call helper =>
      cases helper with
      | line text => exact h.line haead (by rw [hbob]; rfl) text
      | frame msg rng =>
          cases hheader : msg.header with
          | none =>
              rw [follow_frame_of_none hheader]
              exact h.ignored hheader rng
          | some hd =>
              obtain ⟨m, hok, hsent⟩ := hin.opens hcomm haead hfull (hmove hd hheader)
              rw [follow_frame_of_some hheader]
              refine h.frame (fun hd => ?_) hheader hok hsent
              rw [hbob]
              exact ⟨rfl, nofun, fun hfar => absurd hfar.1 (by simp [RatchetState.initBob])⟩
  | peerEncrypts text => exact h.peerEncrypts haead text
  | peerDecrypts hd c rng =>
      obtain ⟨m, hok, hsent⟩ := hin.opens hcomm haead hfull hmove
      exact h.peerDecrypts hok hsent

/-- **The run of the two ratchets**, for moves that an honest network allows. -/
theorem follows_followAll {spk rng : Sec} (hcomm : P.DhCommutes) (haead : P.AeadInverts)
    (halice : alice.ratchet = P.aliceStart sk (P.publicKey spk) rng)
    (hbob : bob.ratchet = RatchetState.initBob sk spk (P.publicKey spk))
    (hne : P.publicKey rng ≠ P.publicKey spk) (hmoves : (ofSessions alice bob).AllowsAll P moves)
    (hfull : ∀ pk, sentInChain pk ((ofSessions alice bob).followAll P moves).log < 2 ^ 32 - 256) :
    Follows bob moves ((ofSessions alice bob).followAll P moves) := by
  induction moves using List.reverseRecOn with
  | nil =>
      refine ⟨fun _ => ⟨rfl, rfl⟩, nofun, ?_, ?_, ?_, rfl, rfl⟩
      · exact ⟨_, congrArg RatchetState.chainKeySend halice⟩
      · intro p
        cases p with
        | alice => rfl
        | bob => rfl
      · exact fun _ _ he => absurd he List.not_mem_nil
  | append_singleton moves move ih =>
      rw [followAll_append] at hfull ⊢
      have hfull' : ∀ pk, sentInChain pk ((ofSessions alice bob).followAll P moves).log < 2 ^ 32 - 256 :=
        fun pk => (sentInChain_follow pk _ move).trans_lt (hfull pk)
      obtain ⟨hmoves, hlast⟩ := allowsAll_append.1 hmoves
      obtain ⟨d, hin⟩ := inStep_of_run hcomm haead (inStep_start hne (start_eq_ofSessions halice hbob))
        (reaches_followAll hmoves) hfull'
      exact (ih hmoves hfull').step hcomm haead hbob hin hfull' hlast

end Net

/-! ### The loop along the moves -/

/-- A line that is not encrypted. -/
def clearContent (text : String) : Bytes × Option RatchetHeader := (asBytes text, none)

/-- A line that is encrypted. -/
def wireContent (e : Header Bytes32 × Bytes × Bytes) : Bytes × Option RatchetHeader := (e.2.1, some e.1.wire)

namespace ChatLoop

variable {loop : ChatLoop P} {early : List (ChatCall Sec)} {moves : List (SealedMove Sec)}
  {w : Net Sec Bytes32 Key Bytes Bytes}

variable (loop) in
/-- **The loop after some calls and some moves**: its session is that of its party, it has shown what the party
has decrypted, and it has sent what the party has encrypted, after the lines that were too early. -/
structure Tracks (alice bob : E2eSession Sec Bytes32 Key) (early : List (ChatCall Sec))
    (moves : List (SealedMove Sec)) (w : Net Sec Bytes32 Key Bytes Bytes) : Prop where
  session : sessionAfter loop.parse loop.e2eKeys (early ++ callsIn moves) = some (Net.session alice bob w .bob)
  texts : loop.textsOf (early ++ callsIn moves) =
    loop.textsOf early ++ (decryptionsOf .bob w.log).map plainText
  contents : loop.contentsOf (early ++ callsIn moves) =
    loop.contentsOf early ++ (linesBefore (callsIn moves)).map clearContent ++
      (encryptionsOf .bob w.log).map wireContent

theorem textsOf_append (calls : List (ChatCall Sec)) (call : ChatCall Sec) :
    loop.textsOf (calls ++ [call]) = loop.textsOf calls ++ (loop.textAfter calls call).toList :=
  Histories.collect_append_singleton ..

theorem contentsOf_append (calls : List (ChatCall Sec)) (call : ChatCall Sec) :
    loop.contentsOf (calls ++ [call]) = loop.contentsOf calls ++ (loop.contentAfter calls call).toList :=
  Histories.collect_append_singleton ..

/-- A move of the peer leaves the loop alone. -/
theorem Tracks.peer {move : SealedMove Sec} {w' : Net Sec Bytes32 Key Bytes Bytes}
    (h : loop.Tracks alice bob early moves w) (hcall : move.chatCall = none) (hpeer : w'.peer .bob = w.peer .bob)
    (hdecryptions : decryptionsOf .bob w'.log = decryptionsOf .bob w.log)
    (hencryptions : encryptionsOf .bob w'.log = encryptionsOf .bob w.log) :
    loop.Tracks alice bob early (moves ++ [move]) w' := by
  have hcalls : callsIn (moves ++ [move]) = callsIn moves := by
    rw [callsIn_append, hcall]
    exact List.append_nil _
  have hsession : Net.session alice bob w' .bob = Net.session alice bob w .bob :=
    congrArg (fun ratchet => ({ bob with ratchet := ratchet } : E2eSession Sec Bytes32 Key)) hpeer
  refine ⟨?_, ?_, ?_⟩
  · rw [hcalls, h.session, hsession]
  · rw [hcalls, hdecryptions, h.texts]
  · rw [hcalls, hencryptions, h.contents]

/-- A line is sent in clear if no message has arrived, and else as it is encrypted. -/
theorem Tracks.line (haead : P.AeadInverts) (hbob : bob.ratchet.chainKeySend = none)
    (h : loop.Tracks alice bob early moves w) (hw : w.Follows bob moves) (text : String) :
    loop.Tracks alice bob early (moves ++ [.call (.line text)]) (w.encrypt P .bob (asBytes text)) := by
  have hcalls : early ++ callsIn (moves ++ [.call (.line text)]) = early ++ callsIn moves ++ [.line text] := by
    rw [callsIn_append, List.append_assoc]
    rfl
  refine ⟨?_, ?_, ?_⟩
  · rw [hcalls, sessionAfter_append, h.session, sessionStep_session]
    rfl
  · rw [hcalls, textsOf_append, h.texts, decryptionsOf_encrypt]
    exact List.append_nil _
  · have hlines : linesBefore (callsIn (moves ++ [.call (.line text)])) = linesBefore (callsIn moves) ++
        (if anyHeader (callsIn moves) then none else some text).toList := by
      rw [callsIn_append]
      exact linesBefore_append ..
    rw [hcalls, contentsOf_append, h.contents, hlines, contentAfter, h.session, encryptMsg_session]
    cases hready : anyHeader (callsIn moves) with
    | false =>
        obtain ⟨hstart, hsilent⟩ := hw.waiting hready
        have hnone : (w.peer .bob).chainKeySend = none := by rw [hstart, hbob]
        rw [Net.encrypt_of_none hnone, P.encrypt_of_none hnone, hsilent, List.map_nil, List.append_nil,
          List.append_nil, List.map_append, ← List.append_assoc]
        rfl
    | true =>
        obtain ⟨hd, c, hok⟩ := (hw.ready hready).encrypt_ok haead (asBytes text)
        rw [encryptionsOf_encrypt, hok, if_pos rfl, if_pos rfl, Option.toList_none, List.append_nil,
          List.map_append, ← List.append_assoc]
        rfl

/-- A message is shown if it is opened. -/
theorem Tracks.frame (h : loop.Tracks alice bob early moves w) (m : RoomMessage) (rng : Sec) :
    loop.Tracks alice bob early (moves ++ [.call (.frame m rng)]) (w.follow P (.call (.frame m rng))) := by
  have hcalls : early ++ callsIn (moves ++ [.call (.frame m rng)]) =
      early ++ callsIn moves ++ [.frame m rng] := by
    rw [callsIn_append, List.append_assoc]
    rfl
  have hlines : linesBefore (callsIn (moves ++ [.call (.frame m rng)])) = linesBefore (callsIn moves) := by
    rw [callsIn_append]
    refine (linesBefore_append ..).trans ?_
    cases anyHeader (callsIn moves) with
    | false => exact List.append_nil _
    | true => exact List.append_nil _
  refine ⟨?_, ?_, ?_⟩
  · rw [hcalls, sessionAfter_append, h.session, sessionStep_session]
  · rw [hcalls, textsOf_append, h.texts, textAfter, h.session, tryDecrypt_session]
    cases hheader : m.header with
    | none =>
        rw [Net.follow_frame_of_none hheader]
        exact List.append_nil _
    | some hd =>
        rw [Net.follow_frame_of_some hheader, decryptionsOf_decrypt, if_pos rfl, List.map_append,
          List.append_assoc, Option.bind_some]
        cases (P.decrypt (w.peer .bob) hd m.ciphertext rng).1 with
        | error e => rfl
        | ok pt => rfl
  · have hsame : encryptionsOf .bob (w.follow P (.call (.frame m rng))).log = encryptionsOf .bob w.log := by
      cases hheader : m.header with
      | none => rw [Net.follow_frame_of_none hheader]
      | some hd =>
          rw [Net.follow_frame_of_some hheader]
          exact encryptionsOf_decrypt ..
    rw [hcalls, contentsOf_append, h.contents, hlines, hsame]
    exact List.append_nil _

/-- **A move keeps the loop so.** -/
theorem Tracks.step {move : SealedMove Sec} (haead : P.AeadInverts) (hbob : bob.ratchet.chainKeySend = none)
    (h : loop.Tracks alice bob early moves w) (hw : w.Follows bob moves) :
    loop.Tracks alice bob early (moves ++ [move]) (w.follow P move) := by
  have hne : Party.bob ≠ .alice := Party.other_ne .alice
  cases move with
  | call helper =>
      cases helper with
      | line text => exact h.line haead hbob hw text
      | frame m rng => exact h.frame m rng
  | peerEncrypts text =>
      refine h.peer rfl (Net.encrypt_peer_of_ne hne ..) (decryptionsOf_encrypt ..) ?_
      exact (encryptionsOf_encrypt ..).trans (List.append_nil _)
  | peerDecrypts hd c rng =>
      refine h.peer rfl (Net.decrypt_peer_of_ne hne ..) ?_ (encryptionsOf_decrypt ..)
      exact (decryptionsOf_decrypt ..).trans (List.append_nil _)

/-- **The loop along the moves**, from the call that makes its session. -/
theorem tracks_followAll {sk : Key} {spk rng : Sec} (hcomm : P.DhCommutes) (haead : P.AeadInverts)
    (halice : alice.ratchet = P.aliceStart sk (P.publicKey spk) rng)
    (hbob : bob.ratchet = RatchetState.initBob sk spk (P.publicKey spk))
    (hne : P.publicKey rng ≠ P.publicKey spk)
    (hearly : sessionAfter loop.parse loop.e2eKeys early = some bob)
    (hmoves : (Net.ofSessions alice bob).AllowsAll P moves)
    (hfull : ∀ pk, sentInChain pk ((Net.ofSessions alice bob).followAll P moves).log < 2 ^ 32 - 256) :
    loop.Tracks alice bob early moves ((Net.ofSessions alice bob).followAll P moves) := by
  induction moves using List.reverseRecOn with
  | nil =>
      have hcalls : early ++ callsIn [] = early := List.append_nil early
      refine ⟨?_, ?_, ?_⟩
      · rw [hcalls, hearly]
        rfl
      · rw [hcalls]
        exact (List.append_nil _).symm
      · rw [hcalls]
        exact ((List.append_nil _).trans (List.append_nil _)).symm
  | append_singleton moves move ih =>
      rw [Net.followAll_append] at hfull ⊢
      have hfull' : ∀ pk, sentInChain pk ((Net.ofSessions alice bob).followAll P moves).log < 2 ^ 32 - 256 :=
        fun pk => (Net.sentInChain_follow pk _ move).trans_lt (hfull pk)
      obtain ⟨hmoves, -⟩ := Net.allowsAll_append.1 hmoves
      exact (ih hmoves hfull').step haead (by rw [hbob]; rfl)
        (Net.follows_followAll hcomm haead halice hbob hne hmoves hfull')

/-! ### A whole run of the loop -/

/-- **What is shown and sent in a whole run**: before the session, the messages as they are, and the lines in
clear; then the lines that are entered before the first message with a ratchet header, in clear, too; and from
then on what the two ratchets have decrypted and encrypted.  Everything that has been delivered to an end has been
opened, to a line of the other end. -/
structure Delivers (before : List (ChatCall Sec)) (moves : List (SealedMove Sec)) (events : List (LoopEvent Sec))
    (s : LoopState Sec Key) (w : Net Sec Bytes32 Key Bytes Bytes) : Prop where
  shown : shown s.draws =
    (before.filterMap ChatCall.message).map clearText ++ (decryptionsOf .bob w.log).map plainText
  sent : s.sent.map (fun out => content out.1) =
    (before.filterMap ChatCall.text ++ linesBefore (callsIn moves)).map clearContent ++
      (encryptionsOf .bob w.log).map wireContent
  lines : ((entered (keysOf events)).filter fun text => IsMessage text) =
    before.filterMap ChatCall.text ++ linesBefore (callsIn moves) ++ (encryptionsOf .bob w.log).map plainText
  peerLines : moves.filterMap SealedMove.peerText = (encryptionsOf .alice w.log).map plainText
  opened : ∀ p, (decryptionsOf p w.log).map (fun e => (e.1, e.2.1)) = deliveredTo p moves
  origin : ∀ p e, e ∈ decryptionsOf p w.log → e ∈ encryptionsOf p.other w.log

variable {checks : Bool} {localAlias : String} {events : List (LoopEvent Sec)} {s : LoopState Sec Key}
  {aliceKeys bobKeys : PeerPrivateKeys P} {rng rng' rng₀ : Sec} {initialMsg : InitialMessage Bytes32}
  {before : List (ChatCall Sec)} {m₀ : RoomMessage}

/-- **What arrives sealed is opened to the line it was made from.**  A chat loop receives, after any messages that
are not, one with the initial message of a peer; then it goes on in any order with keys and messages, while the
peer encrypts and is handed what the loop sends, and the network delivers messages in any order, each at most
once, and within the limits on skipping.  The lines that are entered before the first message with a ratchet
header arrives go out in clear, and are no part of the session; the later ones go out sealed.  The loop shows the
lines of the peer that are delivered to it, and the peer opens those sealed lines of the loop that are delivered
to it. -/
theorem sealed_lines (hcomm : P.DhCommutes) (haead : P.AeadInverts)
    (hne : P.publicKey rng' ≠ bobKeys.signedPrekey.publicKey)
    (hinit : E2eSession.initiate aliceKeys bobKeys.publicKeys rng rng' = .ok (alice, initialMsg))
    (hresp : E2eSession.respond bobKeys initialMsg = .ok bob) (hkeys : loop.e2eKeys = some bobKeys)
    (hrun : Runs.run (loop.step checks) (loop.start localAlias) events = some s)
    (hcalls : loop.callsOf events = before ++ [.frame m₀ rng₀] ++ callsIn moves)
    (hbefore : ∀ m ∈ before.filterMap ChatCall.message, loop.parse m.ciphertext = none)
    (hfirst : loop.parse m₀.ciphertext = some initialMsg)
    (hmoves : (Net.ofSessions alice bob).AllowsAll P moves)
    (hfull : ∀ pk, sentInChain pk ((Net.ofSessions alice bob).followAll P moves).log < 2 ^ 32 - 256) :
    Delivers before moves events s ((Net.ofSessions alice bob).followAll P moves) := by
  obtain ⟨sk, halice, bob', hresp', hbob⟩ := E2eSession.respond_initiate hcomm hinit
  obtain rfl := Except.ok.inj (hresp.symm.trans hresp')
  rw [bobKeys.signedPrekey.publicKey_eq] at hne
  obtain ⟨hnone, htexts⟩ := clear_of_parse hbefore
  have htry : tryDecrypt loop.parse m₀ none loop.e2eKeys rng₀ = (none, some bob) := by
    unfold tryDecrypt
    dsimp only
    rw [hfirst, hkeys]
    dsimp only
    rw [hresp]
  have hearly : sessionAfter loop.parse loop.e2eKeys (before ++ [.frame m₀ rng₀]) = some bob := by
    rw [sessionAfter_append, hnone, sessionStep, htry]
  have htext : loop.textsOf (before ++ [.frame m₀ rng₀]) =
      (before.filterMap ChatCall.message).map clearText := by
    rw [textsOf_append, htexts, textAfter, hnone, htry]
    exact List.append_nil _
  have hcontent : loop.contentsOf (before ++ [.frame m₀ rng₀]) =
      (before.filterMap ChatCall.text).map clearContent := by
    rw [contentsOf_append, contentsOf_of_none hnone]
    exact List.append_nil _
  have htracks := tracks_followAll hcomm haead halice hbob hne hearly hmoves hfull
  have hfollows := Net.follows_followAll hcomm haead halice hbob hne hmoves hfull
  refine ⟨?_, ?_, ?_, hfollows.peerLines, hfollows.opened, hfollows.origin⟩
  · rw [(shown_run hrun).texts, hcalls, htracks.texts, htext]
  · rw [(progress_run hrun).contents, hcalls, htracks.contents, hcontent, List.map_append]
  · have hlines : (loop.callsOf events).filterMap ChatCall.text =
        (entered (keysOf events)).filter fun text => IsMessage text := lines_callsOf events
    rw [← hlines, hcalls, List.filterMap_append, List.filterMap_append,
      ← linesBefore_append_linesAfter (callsIn moves), hfollows.lines, ← List.append_assoc]
    exact congrArg (fun texts => texts ++ _ ++ _) (List.append_nil _)

/-! ### A message and an answer -/

/-- The keys and the AEAD of the test of the early line, without a limit on its plaintexts. -/
def sealing : Primitives Bytes32 Bytes32 (SymKey Bytes32) (SymKey Bytes32) Bytes Bytes :=
  { EarlyLine.primitives with aeadSeal := fun _ _ m _ => some (m ++ List.replicate 16 0) }

theorem sealing_dhCommutes : sealing.DhCommutes := by
  intro a b
  exact Subtype.ext (List.zipWith_comm_of_comm fun x y => UInt8.xor_comm x y)

theorem sealing_aeadInverts : sealing.AeadInverts := by
  intro k n m aad
  refine ⟨m ++ List.replicate 16 0, rfl, ?_⟩
  have hlen : (m ++ List.replicate 16 0).length = m.length + 16 := by rw [List.length_append, List.length_replicate]
  exact (if_pos (by omega)).trans (congrArg some (by rw [hlen, Nat.add_sub_cancel, List.take_left]))

/-- The keys of the peer that sends the initial message. -/
def sealingAlice : PeerPrivateKeys sealing where
  identity := .generate sealing (EarlyLine.key32 3)
  signedPrekey := .generate sealing (EarlyLine.key32 6)
  oneTimePrekeys := []

/-- The keys of the client. -/
def sealingBob : PeerPrivateKeys sealing where
  identity := .generate sealing (EarlyLine.key32 1)
  signedPrekey := .generate sealing (EarlyLine.key32 2)
  oneTimePrekeys := []

def sealedLoop : ChatLoop sealing where
  fpStr := testLoop.fpStr
  e2eKeys := some sealingBob
  cfg := testLoop.cfg
  rawOk := true
  prost := .wire
  parse := EarlyLine.parseInit

/-- The first message of the session. -/
def sealedMessage : RoomMessage where
  senderFingerprint := testPeer.fpStr
  sequenceNumber := 2
  ratchetHeader := some ⟨(EarlyLine.key32 5).val, 0, 0⟩
  ciphertext := asBytes "hi" ++ List.replicate 16 0
  nonce := List.replicate 12 0
  timestamp := 1

def sealedEvents : List (LoopEvent Bytes32) :=
  [.received (.ok ⟨MessageType.roomMessage, Prost.wire.roomMessage.encode EarlyLine.frame⟩) (EarlyLine.key32 0),
    .received (.ok ⟨MessageType.roomMessage, Prost.wire.roomMessage.encode sealedMessage⟩) (EarlyLine.key32 7),
    .key (some (.line "ok")) 8 (.ok ())]

def sealedMoves : List (SealedMove Bytes32) :=
  [.peerEncrypts "hi", .call (.frame sealedMessage (EarlyLine.key32 7)), .call (.line "ok")]

theorem run_sealedEvents :
    (Runs.run (sealedLoop.step true) (sealedLoop.start "bob") sealedEvents).isSome = true := by
  decide +kernel

theorem callsOf_sealedEvents : sealedLoop.callsOf sealedEvents =
    [] ++ [.frame EarlyLine.frame (EarlyLine.key32 0)] ++ callsIn sealedMoves := by
  have hinit : sealedLoop.readMessage ⟨MessageType.roomMessage, Prost.wire.roomMessage.encode EarlyLine.frame⟩ =
      some EarlyLine.frame := readMessage_protoEncode rfl
  have hfirst : sealedLoop.readMessage ⟨MessageType.roomMessage, Prost.wire.roomMessage.encode sealedMessage⟩ =
      some sealedMessage := readMessage_protoEncode rfl
  have hline : (some "ok").filter (fun text => IsMessage text) = some "ok" := by decide +kernel
  have hsplit : ∀ a b c : LoopEvent Bytes32, [a, b, c] = [] ++ [a] ++ [b] ++ [c] := fun _ _ _ => rfl
  have hcall₃ : ∀ before, sealedLoop.callOf before (.key (some (.line "ok")) 8 (.ok ())) = some (.line "ok") := by
    intro before
    rw [callOf, enteredBy, hline, Option.map_some]
  have hcall₂ : ∀ before, sealedLoop.callOf before (.received (.ok ⟨MessageType.roomMessage,
      Prost.wire.roomMessage.encode sealedMessage⟩) (EarlyLine.key32 7)) =
        some (.frame sealedMessage (EarlyLine.key32 7)) := by
    intro before
    rw [callOf, hfirst, Option.map_some]
  have hcall₁ : ∀ before, sealedLoop.callOf before (.received (.ok ⟨MessageType.roomMessage,
      Prost.wire.roomMessage.encode EarlyLine.frame⟩) (EarlyLine.key32 0)) =
        some (.frame EarlyLine.frame (EarlyLine.key32 0)) := by
    intro before
    rw [callOf, hinit, Option.map_some]
  rw [sealedEvents, hsplit, callsOf_of_some (hcall₃ _), callsOf_of_some (hcall₂ _), callsOf_of_some (hcall₁ _)]
  rfl

/-- The peer encrypts the first message. -/
theorem encrypt_sealedMessage {alice : E2eSession Bytes32 Bytes32 (SymKey Bytes32)}
    (bob : E2eSession Bytes32 Bytes32 (SymKey Bytes32)) {sk : SymKey Bytes32}
    (halice : alice.ratchet = sealing.aliceStart sk (EarlyLine.key32 2) (EarlyLine.key32 5)) :
    ∃ k, ((Net.ofSessions alice bob).encrypt sealing .alice (asBytes "hi")).log =
      [.encrypted .alice k ⟨EarlyLine.key32 5, 0, 0⟩ sealedMessage.ciphertext (asBytes "hi")] := by
  obtain ⟨ratchet, peerIdentityPub⟩ := alice
  obtain rfl := halice
  exact ⟨_, congrArg Net.log (Net.encrypt_of_some (P := sealing) (p := .alice) (m := asBytes "hi") rfl rfl)⟩

theorem allowsAll_sealedMoves {alice bob : E2eSession Bytes32 Bytes32 (SymKey Bytes32)} {sk : SymKey Bytes32}
    (halice : alice.ratchet = sealing.aliceStart sk (EarlyLine.key32 2) (EarlyLine.key32 5))
    (hbob : bob.ratchet = RatchetState.initBob sk (EarlyLine.key32 2) (EarlyLine.key32 2)) :
    (Net.ofSessions alice bob).AllowsAll sealing sealedMoves := by
  have hsplit : sealedMoves = [] ++ [.peerEncrypts "hi"] ++
    [.call (.frame sealedMessage (EarlyLine.key32 7))] ++ [.call (.line "ok")] := rfl
  have hheader : sealedMessage.header = some ⟨EarlyLine.key32 5, 0, 0⟩ := rfl
  obtain ⟨k, hlog⟩ := encrypt_sealedMessage bob halice
  have hgenerated : (Net.ofSessions alice bob : Net _ _ _ Bytes Bytes).generated =
      [(.alice, EarlyLine.key32 5), (.bob, EarlyLine.key32 2)] := by
    rw [Net.ofSessions, halice, hbob]
    rfl
  rw [hsplit, Net.allowsAll_append, Net.allowsAll_append, Net.allowsAll_append]
  refine ⟨⟨⟨Net.allowsAll_nil, trivial⟩, ?_⟩, trivial⟩
  intro h hh
  obtain rfl := Option.some.inj (hheader.symm.trans hh)
  have hw : (Net.ofSessions alice bob).followAll sealing ([] ++ [.peerEncrypts "hi"]) =
    (Net.ofSessions alice bob).encrypt sealing .alice (asBytes "hi") := rfl
  rw [hw]
  refine ⟨⟨k, asBytes "hi", ?_⟩, ?_, Nat.zero_le _, ?_, ?_⟩
  · rw [hlog]
    exact List.mem_singleton_self _
  · rw [hlog]
    exact List.not_mem_nil
  · intro _ pk hmem hne
    have hmem' : (Party.alice, pk) ∈ (Net.ofSessions alice bob : Net _ _ _ Bytes Bytes).generated := hmem
    rw [hgenerated] at hmem'
    rcases List.mem_cons.1 hmem' with heq | heq
    · exact absurd (congrArg Prod.snd heq) hne
    · cases List.mem_singleton.1 heq
  · intro _ q
    have hsame : ((Net.ofSessions alice bob).encrypt sealing .alice (asBytes "hi")).generated =
      (Net.ofSessions alice bob : Net _ _ _ Bytes Bytes).generated := rfl
    rw [hsame, hgenerated]
    cases q with
    | alice => decide
    | bob => decide

theorem length_log_sealedMoves {alice bob : E2eSession Bytes32 Bytes32 (SymKey Bytes32)}
    {initialMsg : InitialMessage Bytes32}
    (hinit : E2eSession.initiate sealingAlice sealingBob.publicKeys (EarlyLine.key32 4) (EarlyLine.key32 5) =
      .ok (alice, initialMsg)) (hresp : E2eSession.respond sealingBob initialMsg = .ok bob) :
    initialMsg = EarlyLine.initialMessage ∧
      ((Net.ofSessions alice bob).followAll sealing sealedMoves).log.length < 2 ^ 32 - 256 := by
  obtain ⟨rfl, rfl⟩ := Prod.mk.inj (Except.ok.inj ((E2eSession.initiate_eq ..).symm.trans hinit))
  obtain rfl := Except.ok.inj ((E2eSession.respond_eq ..).symm.trans hresp)
  exact ⟨rfl, by decide +kernel⟩

/-- A message is shown, and answered. -/
theorem sealed_lines_sealedEvents : ∃ s alice bob,
    Runs.run (sealedLoop.step true) (sealedLoop.start "bob") sealedEvents = some s ∧
      Delivers [] sealedMoves sealedEvents s ((Net.ofSessions alice bob).followAll sealing sealedMoves) := by
  obtain ⟨s, hrun⟩ := Option.isSome_iff_exists.1 run_sealedEvents
  obtain ⟨⟨alice, initialMsg⟩, hinit⟩ : ∃ result, E2eSession.initiate sealingAlice sealingBob.publicKeys
    (EarlyLine.key32 4) (EarlyLine.key32 5) = .ok result := ⟨_, E2eSession.initiate_eq ..⟩
  obtain ⟨sk, halice, bob, hresp, hbob⟩ := E2eSession.respond_initiate sealing_dhCommutes hinit
  obtain ⟨rfl, hlength⟩ := length_log_sealedMoves hinit hresp
  have hne : sealing.publicKey (EarlyLine.key32 5) ≠ sealingBob.signedPrekey.publicKey := fun h =>
    absurd (congrArg (fun key => key.val.head?) h) (by decide)
  have hloop : sealedLoop.parse = EarlyLine.parseInit := rfl
  have hparse : sealedLoop.parse EarlyLine.frame.ciphertext = some EarlyLine.initialMessage := by
    rw [hloop, EarlyLine.parseInit, EarlyLine.frame, if_pos rfl]
  refine ⟨s, alice, bob, hrun, sealed_lines sealing_dhCommutes sealing_aeadInverts hne hinit hresp rfl hrun
    callsOf_sealedEvents (fun m hm => absurd hm List.not_mem_nil) hparse
    (allowsAll_sealedMoves halice hbob) fun pk => ?_⟩
  exact (List.countP_le_length.trans (List.length_filterMap_le ..)).trans_lt hlength

end ChatLoop

end Sanctum
