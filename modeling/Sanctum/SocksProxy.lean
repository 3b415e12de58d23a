/-
The conversation with the SOCKS5 proxy.

The client writes its greeting and its request, and reads the answers with reads of a fixed number of
bytes; how long the bound address at the end is, depends on what has been read before.  What the client
accepts is therefore a grammar, and after an answer the stream is at its end, whatever follows.  The
request holds the length of the name in one byte, so a proxy that reads it finds another name if the
length does not fit.

Main definitions:

* `Sanctum.Socks.BoundAddress`, `Sanctum.Socks.IsReply` — what the proxy may answer;
* `Sanctum.Socks.parseRequest` — a proxy that reads a connect request;
* `Sanctum.Socks.NamesTarget` — the proxy finds the target, or the client fails before.

Main results:

* `Sanctum.Socks.connectViaTor_eq_ok_iff` — **the answers are consumed exactly**;
* `Sanctum.Socks.parseRequest_request` — what a proxy finds in a request;
* `Sanctum.Socks.namesTarget_iff` — **when the proxy finds the target**.
-/

import Sanctum.Join

set_option relaxedAutoImplicit false
set_option autoImplicit false

namespace Sanctum

/-! ### Writes and reads -/

namespace TcpStream

variable {s s' : TcpStream} {bytes : Bytes}

/-- A write does nothing but write. -/
theorem writeAll_eq_ok_iff : s.writeAll bytes = .ok s' ↔
    (∀ write ∈ s.writes.take 1, write = .ok) ∧
      s' = { s with writes := s.writes.drop 1, written := s.written ++ bytes } := by
  obtain ⟨incoming, closing, writes, written⟩ := s
  rcases writes with _ | ⟨_ | ⟨text, taken⟩, writes⟩
  · simp [writeAll, eq_comm]
  · simp [writeAll, eq_comm]
  · simp [writeAll]

theorem headD_of_writeAll (h : s.writeAll bytes = .ok s') : s.writes.headD .ok = .ok := by
  obtain ⟨hok, -⟩ := writeAll_eq_ok_iff.1 h
  cases hwrites : s.writes with
  | nil => rfl
  | cons write writes =>
      rw [hwrites] at hok
      exact hok write List.mem_cons_self

/-- **A read consumes exactly the bytes that it returns.** -/
theorem readExact_eq_ok_iff {n : ℕ} : s.readExact n = .ok (bytes, s') ↔
    bytes.length = n ∧ ∃ rest, s.incoming = bytes ++ rest ∧ s' = { s with incoming := rest } := by
  unfold readExact
  constructor
  · intro h
    split at h
    · next hle =>
        obtain ⟨rfl, rfl⟩ := Prod.mk.inj (Except.ok.inj h)
        exact ⟨List.length_take_of_le hle, _, (List.take_append_drop n s.incoming).symm, rfl⟩
    · cases h
  · rintro ⟨rfl, rest, hincoming, rfl⟩
    have hle : bytes.length ≤ s.incoming.length := by
      rw [hincoming, List.length_append]
      exact Nat.le_add_right _ _
    rw [if_pos hle, hincoming, List.take_left, List.drop_left]

end TcpStream

namespace Socks

theorem unavailable_eq_ok_iff {α : Type} {text : String} {result : Except String α} {a : α} :
    unavailable text result = .ok a ↔ result = .ok a := mapError_eq_ok

/-! ### The answers of the proxy -/

/-- **A bound address with its port**, as it follows an address type. -/
inductive BoundAddress : UInt8 → Bytes → Prop
  | ipv4 {address port : Bytes} (haddress : address.length = 4) (hport : port.length = 2) :
      BoundAddress 0x01 (address ++ port)
  | domain {len : UInt8} {name port : Bytes} (hname : name.length = len.toNat)
      (hport : port.length = 2) : BoundAddress 0x03 (len :: (name ++ port))
  | ipv6 {address port : Bytes} (haddress : address.length = 16) (hport : port.length = 2) :
      BoundAddress 0x04 (address ++ port)

/-- **What the proxy answers**: the method, and then success with a bound address. -/
def IsReply (reply : Bytes) : Prop :=
  ∃ rsv addressType bound, reply = [0x05, 0x00] ++ ([0x05, 0x00, rsv, addressType] ++ bound) ∧
    BoundAddress addressType bound

variable {stream stream' : TcpStream}

/-- **The greeting**: it is written, and the proxy answers with the method. -/
theorem greet_eq_ok_iff : greet stream = .ok stream' ↔
    (∀ write ∈ stream.writes.take 1, write = .ok) ∧ ∃ rest, stream.incoming = [0x05, 0x00] ++ rest ∧
      stream' = { stream with
        incoming := rest
        writes := stream.writes.drop 1
        written := stream.written ++ [0x05, 0x01, 0x00] } := by
  constructor
  · intro h
    obtain ⟨s₁, hwrite, h⟩ := bind_eq_ok.1 h
    obtain ⟨⟨methodResp, s₂⟩, hread, h⟩ := bind_eq_ok.1 h
    obtain ⟨hok, rfl⟩ := TcpStream.writeAll_eq_ok_iff.1 (unavailable_eq_ok_iff.1 hwrite)
    obtain ⟨hlength, rest, hrest, rfl⟩ :=
      TcpStream.readExact_eq_ok_iff.1 (unavailable_eq_ok_iff.1 hread)
    obtain ⟨version, method, rfl⟩ := List.length_eq_two.1 hlength
    dsimp only at h
    split at h
    · cases h
    · next hversion =>
        split at h
        · cases h
        · next hmethod =>
            obtain rfl : version = 0x05 := not_not.1 hversion
            obtain rfl : method = 0x00 := not_not.1 hmethod
            exact ⟨hok, rest, hrest, (Except.ok.inj h).symm⟩
  · rintro ⟨hok, rest, hrest, rfl⟩
    refine bind_eq_ok.2 ⟨_, unavailable_eq_ok_iff.2 (TcpStream.writeAll_eq_ok_iff.2 ⟨hok, rfl⟩), ?_⟩
    exact bind_eq_ok.2 ⟨([0x05, 0x00], _),
      unavailable_eq_ok_iff.2 (TcpStream.readExact_eq_ok_iff.2 ⟨rfl, rest, hrest, rfl⟩), rfl⟩

/-- A read of a fixed number of bytes is the last step of draining. -/
theorem drain_read_eq_ok_iff {n : ℕ} :
    (unavailable "drain" (stream.readExact n)).bind (fun read => .ok read.2) = .ok stream' ↔
      ∃ bound rest, stream.incoming = bound ++ rest ∧ bound.length = n ∧
        stream' = { stream with incoming := rest } := by
  constructor
  · intro h
    obtain ⟨⟨bound, s₁⟩, hread, h⟩ := bind_eq_ok.1 h
    obtain ⟨hlength, rest, hrest, rfl⟩ :=
      TcpStream.readExact_eq_ok_iff.1 (unavailable_eq_ok_iff.1 hread)
    exact ⟨bound, rest, hrest, hlength, (Except.ok.inj h).symm⟩
  · rintro ⟨bound, rest, hrest, hlength, rfl⟩
    exact bind_eq_ok.2 ⟨(bound, _),
      unavailable_eq_ok_iff.2 (TcpStream.readExact_eq_ok_iff.2 ⟨hlength, rest, hrest, rfl⟩), rfl⟩

/-- The bytes of a bound address, by its type. -/
theorem boundAddress_iff {addressType : UInt8} {bound : Bytes} : BoundAddress addressType bound ↔
    addressType = 0x01 ∧ bound.length = 6 ∨
    addressType = 0x03 ∧ (∃ len tail, bound = len :: tail ∧ tail.length = len.toNat + 2) ∨
    addressType = 0x04 ∧ bound.length = 18 := by
  constructor
  · intro h
    cases h with
    | ipv4 haddress hport =>
        exact Or.inl ⟨rfl, by rw [List.length_append, haddress, hport]⟩
    | domain hname hport =>
        exact Or.inr (Or.inl ⟨rfl, _, _, rfl, by rw [List.length_append, hname, hport]⟩)
    | ipv6 haddress hport =>
        exact Or.inr (Or.inr ⟨rfl, by rw [List.length_append, haddress, hport]⟩)
  · rintro (⟨rfl, hlength⟩ | ⟨rfl, len, tail, rfl, hlength⟩ | ⟨rfl, hlength⟩)
    · rw [← List.take_append_drop 4 bound]
      exact .ipv4 (List.length_take_of_le (by omega)) (by rw [List.length_drop, hlength])
    · rw [← List.take_append_drop len.toNat tail]
      exact .domain (List.length_take_of_le (by omega)) (by rw [List.length_drop, hlength]; omega)
    · rw [← List.take_append_drop 16 bound]
      exact .ipv6 (List.length_take_of_le (by omega)) (by rw [List.length_drop, hlength])

/-- **Draining takes a bound address** off the stream. -/
theorem drain_eq_ok_iff {addressType : UInt8} : drain stream addressType = .ok stream' ↔
    ∃ bound rest, stream.incoming = bound ++ rest ∧ BoundAddress addressType bound ∧
      stream' = { stream with incoming := rest } := by
  unfold drain
  by_cases hv4 : addressType = 0x01
  · subst hv4
    rw [if_pos rfl]
    refine (show _ ↔ _ from drain_read_eq_ok_iff).trans ?_
    simp [boundAddress_iff]
  by_cases hdomain : addressType = 0x03
  · subst hdomain
    rw [if_neg (by decide), if_pos rfl]
    constructor
    · intro h
      obtain ⟨⟨len, s₁⟩, hread, h⟩ := bind_eq_ok.1 h
      obtain ⟨hlength, rest, hrest, rfl⟩ :=
        TcpStream.readExact_eq_ok_iff.1 (unavailable_eq_ok_iff.1 hread)
      obtain ⟨len, rfl⟩ := List.length_eq_one_iff.1 hlength
      obtain ⟨tail, rest', htail, hlength', rfl⟩ := drain_read_eq_ok_iff.1 h
      obtain rfl : rest = tail ++ rest' := htail
      exact ⟨len :: tail, rest', hrest,
        boundAddress_iff.2 (Or.inr (Or.inl ⟨rfl, len, tail, rfl, hlength'⟩)), rfl⟩
    · rintro ⟨bound, rest, hrest, hbound, rfl⟩
      rcases boundAddress_iff.1 hbound with
        ⟨htype, -⟩ | ⟨-, len, tail, rfl, hlength⟩ | ⟨htype, -⟩
      · exact absurd htype (by decide)
      · refine bind_eq_ok.2 ⟨([len], _), unavailable_eq_ok_iff.2
          (TcpStream.readExact_eq_ok_iff.2 ⟨rfl, tail ++ rest, hrest, rfl⟩), ?_⟩
        exact drain_read_eq_ok_iff.2 ⟨tail, rest, rfl, hlength, rfl⟩
      · exact absurd htype (by decide)
  by_cases hv6 : addressType = 0x04
  · subst hv6
    rw [if_neg (by decide), if_neg (by decide), if_pos rfl]
    refine (show _ ↔ _ from drain_read_eq_ok_iff).trans ?_
    simp [boundAddress_iff]
  · rw [if_neg hv4, if_neg hdomain, if_neg hv6]
    simp [boundAddress_iff, hv4, hdomain, hv6]

/-- The answer to the request. -/
theorem readResponse_eq_ok_iff : readResponse stream = .ok stream' ↔
    ∃ rsv addressType bound rest,
      stream.incoming = [0x05, 0x00, rsv, addressType] ++ (bound ++ rest) ∧
        BoundAddress addressType bound ∧ stream' = { stream with incoming := rest } := by
  constructor
  · intro h
    obtain ⟨⟨respHeader, s₁⟩, hread, h⟩ := bind_eq_ok.1 h
    obtain ⟨hlength, rest, hrest, rfl⟩ :=
      TcpStream.readExact_eq_ok_iff.1 (unavailable_eq_ok_iff.1 hread)
    obtain ⟨version, status, rsv, addressType, rfl⟩ := List.length_eq_four.1 hlength
    dsimp only at h
    split at h
    · cases h
    · next hversion =>
        split at h
        · cases h
        · next hstatus =>
            obtain rfl : version = 0x05 := not_not.1 hversion
            obtain rfl : status = 0x00 := not_not.1 hstatus
            obtain ⟨bound, rest', hbound, haddress, rfl⟩ := drain_eq_ok_iff.1 h
            obtain rfl : rest = bound ++ rest' := hbound
            exact ⟨rsv, addressType, bound, rest', hrest, haddress, rfl⟩
  · rintro ⟨rsv, addressType, bound, rest, hrest, haddress, rfl⟩
    refine bind_eq_ok.2 ⟨([0x05, 0x00, rsv, addressType], _),
      unavailable_eq_ok_iff.2 (TcpStream.readExact_eq_ok_iff.2 ⟨rfl, _, hrest, rfl⟩), ?_⟩
    exact drain_eq_ok_iff.2 ⟨bound, rest, rfl, haddress, rfl⟩

/-- **The answers of the proxy are consumed exactly.**  A connection succeeds if and only if the proxy is
there, takes the greeting and the request, and its bytes begin with the method and a complete positive
answer; and then the stream is at the first byte behind the port. -/
theorem connectViaTor_eq_ok_iff {resolver : Resolver} {peers : Peers} {socksAddr targetOnion : String}
    {targetPort : UInt16} :
    (connectViaTor resolver peers socksAddr targetOnion targetPort).2 = .ok stream' ↔
      ∃ stream reply rest, (TcpStream.connect resolver peers socksAddr).2 = .ok stream ∧
        (∀ write ∈ stream.writes.take 2, write = .ok) ∧
        IsReply reply ∧ stream.incoming = reply ++ rest ∧
        stream' = { stream with
          incoming := rest
          writes := stream.writes.drop 2
          written := stream.written ++ [0x05, 0x01, 0x00] ++ request targetOnion targetPort } := by
  constructor
  · intro h
    obtain ⟨stream, hconnect, h⟩ := bind_eq_ok.1 h
    obtain ⟨s₁, hgreet, h⟩ := bind_eq_ok.1 h
    obtain ⟨s₂, hwrite, h⟩ := bind_eq_ok.1 h
    obtain ⟨hok, rest, hrest, rfl⟩ := greet_eq_ok_iff.1 hgreet
    obtain ⟨hok', rfl⟩ := TcpStream.writeAll_eq_ok_iff.1 (unavailable_eq_ok_iff.1 hwrite)
    obtain ⟨rsv, addressType, bound, rest', hrest', haddress, rfl⟩ := readResponse_eq_ok_iff.1 h
    obtain rfl : rest = [0x05, 0x00, rsv, addressType] ++ (bound ++ rest') := hrest'
    refine ⟨stream, _, rest', mapError_eq_ok.1 hconnect, ?_, ⟨rsv, addressType, bound, rfl, haddress⟩,
      ?_, ?_⟩
    · rw [List.take_add (i := 1) (j := 1), List.forall_mem_append]
      exact ⟨hok, hok'⟩
    · rw [hrest]
      simp
    · rw [List.drop_drop]
  · rintro ⟨stream, reply, rest, hconnect, hok, ⟨rsv, addressType, bound, rfl, haddress⟩, hrest, rfl⟩
    rw [List.take_add (i := 1) (j := 1), List.forall_mem_append] at hok
    have hrest' : stream.incoming =
        [0x05, 0x00] ++ ([0x05, 0x00, rsv, addressType] ++ (bound ++ rest)) := by
      rw [hrest]
      simp
    refine bind_eq_ok.2 ⟨stream, mapError_eq_ok.2 hconnect, ?_⟩
    refine bind_eq_ok.2 ⟨_, greet_eq_ok_iff.2 ⟨hok.1, _, hrest', rfl⟩, ?_⟩
    refine bind_eq_ok.2 ⟨_, unavailable_eq_ok_iff.2
      (TcpStream.writeAll_eq_ok_iff.2 ⟨hok.2, rfl⟩), ?_⟩
    refine readResponse_eq_ok_iff.2 ⟨rsv, addressType, bound, rest, rfl, haddress, ?_⟩
    rw [List.drop_drop]

/-! ### The request -/

/-- **A proxy that reads a connect request**: the name, the port, and what follows. -/
def parseRequest : Bytes → Option ((Bytes × UInt16) × Bytes)
  | 0x05 :: 0x01 :: 0x00 :: 0x03 :: len :: bytes =>
    match bytes.drop len.toNat with
    | high :: low :: rest =>
      some ((bytes.take len.toNat, UInt16.ofNat (high.toNat * 256 + low.toNat)), rest)
    | _ => none
  | _ => none

theorem request_eq (targetOnion : String) (targetPort : UInt16) :
    request targetOnion targetPort = 0x05 :: 0x01 :: 0x00 :: 0x03 ::
      UInt8.ofNat (asBytes targetOnion).length ::
        (asBytes targetOnion ++ beBytes 2 targetPort.toNat) := by
  unfold request
  simp

theorem length_request (targetOnion : String) (targetPort : UInt16) :
    (request targetOnion targetPort).length = 7 + (asBytes targetOnion).length := by
  rw [request_eq]
  simp only [List.length_cons, List.length_append, length_beBytes]
  omega

/-- What the proxy finds behind the header: a name of the length given, if there are two more bytes. -/
theorem parseRequest_cases (len : UInt8) (bytes : Bytes) :
    bytes.length < len.toNat + 2 ∧
        parseRequest (0x05 :: 0x01 :: 0x00 :: 0x03 :: len :: bytes) = none ∨
      len.toNat + 2 ≤ bytes.length ∧ ∃ port rest,
        parseRequest (0x05 :: 0x01 :: 0x00 :: 0x03 :: len :: bytes) =
          some ((bytes.take len.toNat, port), rest) := by
  have hlength : (bytes.drop len.toNat).length = bytes.length - len.toNat := List.length_drop
  rcases hdrop : bytes.drop len.toNat with _ | ⟨high, _ | ⟨low, rest⟩⟩
  · rw [hdrop, List.length_nil] at hlength
    refine Or.inl ⟨by omega, ?_⟩
    simp only [parseRequest, hdrop]
  · rw [hdrop, List.length_singleton] at hlength
    refine Or.inl ⟨by omega, ?_⟩
    simp only [parseRequest, hdrop]
  · rw [hdrop, List.length_cons, List.length_cons] at hlength
    refine Or.inr ⟨by omega, UInt16.ofNat (high.toNat * 256 + low.toNat), rest, ?_⟩
    simp only [parseRequest, hdrop]

/-- A proxy does not get to the end of a name and a port before they have come in. -/
theorem parseRequest_take_eq_none_iff (targetOnion : String) (targetPort : UInt16) (k : ℕ) :
    parseRequest ((request targetOnion targetPort).take k) = none ↔
      k < 7 + (asBytes targetOnion).length % 256 := by
  have hlen : (UInt8.ofNat (asBytes targetOnion).length).toNat = (asBytes targetOnion).length % 256 :=
    UInt8.toNat_ofNat'
  rw [request_eq]
  match k with
  | 0 => exact iff_of_true rfl (by omega)
  | 1 => exact iff_of_true rfl (by omega)
  | 2 => exact iff_of_true rfl (by omega)
  | 3 => exact iff_of_true rfl (by omega)
  | 4 => exact iff_of_true rfl (by omega)
  | k + 5 =>
      have hlength : ((asBytes targetOnion ++ beBytes 2 targetPort.toNat).take k).length =
          min k ((asBytes targetOnion).length + 2) := by
        rw [List.length_take, List.length_append, length_beBytes]
      rcases parseRequest_cases (UInt8.ofNat (asBytes targetOnion).length)
          ((asBytes targetOnion ++ beBytes 2 targetPort.toNat).take k) with
        ⟨hlt, hnone⟩ | ⟨hle, port, rest, hsome⟩
      · exact iff_of_true hnone (by omega)
      · refine iff_of_false ?_ (by omega)
        intro hnone
        exact absurd (hsome.symm.trans hnone) nofun

/-- A name in a request has at most 255 bytes. -/
theorem length_of_parseRequest {wire name rest : Bytes} {port : UInt16}
    (h : parseRequest wire = some ((name, port), rest)) : name.length ≤ 255 := by
  unfold parseRequest at h
  split at h
  · next len bytes =>
      split at h
      · obtain ⟨hname, -⟩ := Prod.mk.inj (Option.some_inj.1 h)
        obtain ⟨rfl, -⟩ := Prod.mk.inj hname
        have hlen := len.toNat_lt
        rw [List.length_take]
        omega
      · cases h
  · cases h

/-- **A name that is short enough is found**, with its port, and nothing is left over. -/
theorem parseRequest_request {targetOnion : String} (hshort : (asBytes targetOnion).length ≤ 255)
    (targetPort : UInt16) : parseRequest (request targetOnion targetPort) =
      some ((asBytes targetOnion, targetPort), []) := by
  have hlen : (UInt8.ofNat (asBytes targetOnion).length).toNat = (asBytes targetOnion).length :=
    UInt8.toNat_ofNat_of_lt (by show _ < 256; omega)
  have hport := targetPort.toNat_lt
  have hbytes : beBytes 2 targetPort.toNat =
      [UInt8.ofNat (targetPort.toNat / 256), UInt8.ofNat targetPort.toNat] := by
    show [UInt8.ofNat (targetPort.toNat / 256 ^ 1), UInt8.ofNat (targetPort.toNat / 256 ^ 0)] = _
    rw [pow_one, pow_zero, Nat.div_one]
  have hfound : UInt16.ofNat ((UInt8.ofNat (targetPort.toNat / 256)).toNat * 256 +
      (UInt8.ofNat targetPort.toNat).toNat) = targetPort := by
    refine UInt16.toNat_inj.1 ?_
    rw [UInt16.toNat_ofNat', UInt8.toNat_ofNat', UInt8.toNat_ofNat']
    omega
  rw [request_eq, hbytes]
  simp only [parseRequest, hlen, List.drop_left, List.take_left, hfound]

/-! ### What the proxy finds -/

/-- The bytes of the connect request that go out: none if there is no stream or the proxy does not take
the greeting, and else those that the stream takes. -/
def requestSent (resolver : Resolver) (peers : Peers) (socksAddr targetOnion : String)
    (targetPort : UInt16) : Bytes :=
  match (TcpStream.connect resolver peers socksAddr).2 with
  | .error _ => []
  | .ok stream =>
    match greet stream with
    | .error _ => []
    | .ok stream =>
      let request := request targetOnion targetPort
      request.take ((stream.writes.headD .ok).takes request.length)

/-- **The proxy finds the target**, exactly, or the client fails and the proxy finds nothing. -/
def NamesTarget (resolver : Resolver) (peers : Peers) (socksAddr targetOnion : String)
    (targetPort : UInt16) : Prop :=
  let sent := requestSent resolver peers socksAddr targetOnion targetPort
  (∃ e, (connectViaTor resolver peers socksAddr targetOnion targetPort).2 = .error e) ∧
      parseRequest sent = none ∨
    parseRequest sent = some ((asBytes targetOnion, targetPort), [])

/-- There is no stream, or the proxy does not take the greeting, or the stream does not take as much of
the request as its length says. -/
def CutShort (resolver : Resolver) (peers : Peers) (socksAddr targetOnion : String) : Prop :=
  ∀ stream stream', (TcpStream.connect resolver peers socksAddr).2 = .ok stream →
    greet stream = .ok stream' →
      (stream'.writes.headD .ok).takes (7 + (asBytes targetOnion).length) <
        7 + (asBytes targetOnion).length % 256

variable {resolver : Resolver} {peers : Peers} {socksAddr targetOnion : String} {targetPort : UInt16}

theorem parseRequest_requestSent_eq_none_iff :
    parseRequest (requestSent resolver peers socksAddr targetOnion targetPort) = none ↔
      CutShort resolver peers socksAddr targetOnion := by
  unfold requestSent CutShort
  cases hconnect : (TcpStream.connect resolver peers socksAddr).2 with
  | error e => exact iff_of_true rfl nofun
  | ok stream =>
      dsimp only
      cases hgreet : greet stream with
      | error e =>
          refine iff_of_true rfl ?_
          rintro stream' stream'' ⟨⟩ hgreet'
          rw [hgreet] at hgreet'
          cases hgreet'
      | ok stream' =>
          dsimp only
          rw [parseRequest_take_eq_none_iff, length_request]
          constructor
          · rintro hlt stream₁ stream₂ ⟨⟩ hgreet'
            obtain rfl := Except.ok.inj (hgreet.symm.trans hgreet')
            exact hlt
          · intro hcut
            exact hcut stream stream' rfl hgreet

/-- A client that does not fail has sent its whole request, after its greeting. -/
theorem written_of_connectViaTor {stream' : TcpStream}
    (h : (connectViaTor resolver peers socksAddr targetOnion targetPort).2 = .ok stream') :
    requestSent resolver peers socksAddr targetOnion targetPort = request targetOnion targetPort ∧
      ∃ stream, (TcpStream.connect resolver peers socksAddr).2 = .ok stream ∧
        stream'.written = stream.written ++ [0x05, 0x01, 0x00] ++ request targetOnion targetPort := by
  obtain ⟨stream, hconnect, h⟩ := bind_eq_ok.1 h
  obtain ⟨s₁, hgreet, h⟩ := bind_eq_ok.1 h
  obtain ⟨s₂, hwrite, h⟩ := bind_eq_ok.1 h
  have hconnect : (TcpStream.connect resolver peers socksAddr).2 = .ok stream := mapError_eq_ok.1 hconnect
  have hwrite : s₁.writeAll (request targetOnion targetPort) = .ok s₂ := unavailable_eq_ok_iff.1 hwrite
  refine ⟨?_, stream, hconnect, ?_⟩
  · unfold requestSent
    simp only [hconnect, hgreet, TcpStream.headD_of_writeAll hwrite]
    exact List.take_of_length_le le_rfl
  · obtain ⟨-, _, -, rfl⟩ := greet_eq_ok_iff.1 hgreet
    obtain ⟨-, rfl⟩ := TcpStream.writeAll_eq_ok_iff.1 hwrite
    obtain ⟨_, _, _, _, -, -, rfl⟩ := readResponse_eq_ok_iff.1 h
    rfl

/-- A client whose request is cut short fails. -/
theorem connectViaTor_of_cutShort (h : CutShort resolver peers socksAddr targetOnion) :
    ∃ e, (connectViaTor resolver peers socksAddr targetOnion targetPort).2 = .error e := by
  cases hresult : (connectViaTor resolver peers socksAddr targetOnion targetPort).2 with
  | error e => exact ⟨e, rfl⟩
  | ok stream' =>
      have hwhole := (written_of_connectViaTor hresult).1
      have hnone : parseRequest (requestSent resolver peers socksAddr targetOnion targetPort) = none :=
        parseRequest_requestSent_eq_none_iff.2 h
      rw [hwhole, ← List.take_length (l := request targetOnion targetPort),
        parseRequest_take_eq_none_iff, length_request] at hnone
      have hmod := Nat.mod_le (asBytes targetOnion).length 256
      omega

/-- **When the proxy finds the target**: if the name has at most 255 bytes, and else only if it is not
asked at all. -/
theorem namesTarget_iff (resolver : Resolver) (peers : Peers) (socksAddr targetOnion : String)
    (targetPort : UInt16) :
    NamesTarget resolver peers socksAddr targetOnion targetPort ↔
      (asBytes targetOnion).length ≤ 255 ∨ CutShort resolver peers socksAddr targetOnion := by
  unfold NamesTarget
  dsimp only
  rw [parseRequest_requestSent_eq_none_iff]
  constructor
  · rintro (⟨-, hcut⟩ | hfound)
    · exact Or.inr hcut
    · exact Or.inl (length_of_parseRequest hfound)
  · intro h
    by_cases hcut : CutShort resolver peers socksAddr targetOnion
    · exact Or.inl ⟨connectViaTor_of_cutShort hcut, hcut⟩
    · have hshort := h.resolve_right hcut
      refine Or.inr ?_
      unfold CutShort at hcut
      push Not at hcut
      obtain ⟨stream, stream', hconnect, hgreet, hall⟩ := hcut
      rw [← length_request targetOnion targetPort] at hall
      rw [← parseRequest_request hshort targetPort]
      unfold requestSent
      simp only [hconnect, hgreet]
      rw [List.take_of_length_le]
      rw [length_request] at hall ⊢
      omega

/-- A proxy that offers its method and then waits. -/
def testPeers : Peers := fun _ =>
  .ok { incoming := [0x05, 0x00], closing := "early eof", writes := [], written := [] }

/-- A name of 266 bytes; the length that the request holds is 10. -/
def testTarget : String := String.ofList ("evil.onion".toList ++ List.replicate 250 'a' ++ ".onion".toList)

/-- **A proxy finds another name**: the first ten characters of the one that the client means. -/
theorem other_name_found :
    (∃ port rest,
      parseRequest (requestSent Join.testResolver testPeers (hostPort "127.0.0.1" 9050) testTarget 9738) =
        some ((asBytes "evil.onion", port), rest)) ∧
      asBytes testTarget ≠ asBytes "evil.onion" ∧
      ¬ NamesTarget Join.testResolver testPeers (hostPort "127.0.0.1" 9050) testTarget 9738 := by
  have hfound : ((parseRequest (requestSent Join.testResolver testPeers (hostPort "127.0.0.1" 9050)
      testTarget 9738)).map fun found => found.1.1) = some (asBytes "evil.onion") := by decide +kernel
  have hother : asBytes testTarget ≠ asBytes "evil.onion" := by decide +kernel
  obtain ⟨⟨⟨name, port⟩, rest⟩, hparse, hname⟩ := Option.map_eq_some_iff.1 hfound
  obtain rfl : name = asBytes "evil.onion" := hname
  refine ⟨⟨port, rest, hparse⟩, hother, ?_⟩
  rintro (⟨-, hnone⟩ | htarget)
  · rw [hnone] at hparse
    cases hparse
  · rw [htarget] at hparse
    simp only [Option.some.injEq, Prod.mk.injEq] at hparse
    exact hother hparse.1.1

end Socks

end Sanctum
