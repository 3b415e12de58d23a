/-
Joining a room.

The invite is decoded and checked, and its address decides on the route: through Tor if it ends with
`.onion`, and else, or if it looks local, directly.  What looks local is a matter of text, and so is what
is left over: any other text is given to the resolver of the system, and the addresses that come back are
dialed one after the other.

What the crates for base64 and JSON, the clock, the resolver, the peers and the handshake after the
connection do are parameters.

Main definitions:

* `Sanctum.SocketAddr`, `Sanctum.Resolver`, `Sanctum.TcpStream` — addresses, names and streams;
* `Sanctum.Socks.connectViaTor`, `Sanctum.ClientConnector.connectAndAuth`, `Sanctum.Join.run` — the code's
  definitions, with the addresses that are dialed;
* `Sanctum.Join.TorRoute` — the address is an onion address that does not look local.

Main results:

* `Sanctum.TcpStream.mem_connect`, `Sanctum.TcpStream.connect_refused` — what a connection dials;
* `Sanctum.Join.loopbackOnly_iff` — **when only loopback addresses are dialed**.
-/

import Sanctum.RoomService
import Sanctum.AuthService
import Sanctum.Transport
import Sanctum.Text

set_option relaxedAutoImplicit false
set_option autoImplicit false

namespace Sanctum

/-! ### Texts -/

/-- `str::starts_with`. -/
def startsWith (text pattern : String) : Bool := pattern.toList.isPrefixOf text.toList

/-- `str::ends_with`. -/
def endsWith (text pattern : String) : Bool := pattern.toList.isSuffixOf text.toList

/-- `str::trim`. -/
def trim (text : String) : String :=
  String.ofList ((text.toList.dropWhile isWhitespace).reverse.dropWhile isWhitespace).reverse

/-- Nothing is trimmed if there is no whitespace at the ends. -/
theorem trim_ends (a b : Char) (text : String) (ha : isWhitespace a = false)
    (hb : isWhitespace b = false) :
    trim (String.singleton a ++ text ++ String.singleton b) =
      String.singleton a ++ text ++ String.singleton b := by
  have htext : (String.singleton a ++ text ++ String.singleton b).toList = a :: (text.toList ++ [b]) := by
    simp
  have hreverse : (a :: (text.toList ++ [b])).reverse = b :: (a :: text.toList).reverse := by
    rw [← List.cons_append, List.reverse_append]
    rfl
  rw [trim, htext, List.dropWhile_cons_of_neg (by rw [ha]; exact Bool.false_ne_true), hreverse,
    List.dropWhile_cons_of_neg (by rw [hb]; exact Bool.false_ne_true), ← hreverse, List.reverse_reverse,
    ← htext, String.ofList_toList]

/-! ### Addresses and streams -/

/-- An IP address. -/
inductive IpAddr
  | v4 (a b c d : UInt8)
  | v6 (bits : BitVec 128)
deriving DecidableEq

/-- `IpAddr::is_loopback`. -/
def IpAddr.isLoopback : IpAddr → Bool
  | .v4 a _ _ _ => a = 127
  | .v6 bits => bits = 1

/-- An IP address with a port. -/
structure SocketAddr where
  ip : IpAddr
  port : UInt16
deriving DecidableEq

/-- The text for a host and a port. -/
def hostPort (host : String) (port : UInt16) : String := host ++ ":" ++ toString port.toNat

theorem toList_hostPort (host : String) (port : UInt16) :
    (hostPort host port).toList = host.toList ++ ':' :: Nat.toDigits 10 port.toNat := by
  simp [hostPort]

/-- **The resolver of the system**: the addresses for a text of a host and a port. -/
structure Resolver where
  resolve : String → Except String (List SocketAddr)
  /-- An address in figures stands for itself. -/
  resolve_loopback (port : UInt16) :
    resolve (hostPort "127.0.0.1" port) = .ok [⟨.v4 127 0 0 1, port⟩]
  /-- The name `localhost` is never looked up elsewhere. -/
  resolve_localhost (port : UInt16) {addrs : List SocketAddr} :
    resolve (hostPort "localhost" port) = .ok addrs → ∀ a ∈ addrs, a.ip.isLoopback

/-- A stream: what the peer sends before reads fail, what the next writes do, and what has been written. -/
structure TcpStream where
  incoming : Bytes
  closing : String
  writes : List Write
  written : Bytes

/-- What the peers do: an address takes the connection or refuses it. -/
abbrev Peers : Type := SocketAddr → Except String TcpStream

namespace TcpStream

/-- `AsyncWriteExt::write_all`. -/
def writeAll (s : TcpStream) (bytes : Bytes) : Except String TcpStream :=
  match s.writes with
  | .failed text _ :: _ => .error text
  | .ok :: writes => .ok { s with writes := writes, written := s.written ++ bytes }
  | [] => .ok { s with written := s.written ++ bytes }

/-- `AsyncReadExt::read_exact`. -/
def readExact (s : TcpStream) (n : ℕ) : Except String (Bytes × TcpStream) :=
  if n ≤ s.incoming.length then
    .ok (s.incoming.take n, { s with incoming := s.incoming.drop n })
  else .error s.closing

/-- Dial the addresses one after the other until one takes the connection. -/
def dial (peers : Peers) : List SocketAddr → Option String →
    List SocketAddr × Except String TcpStream
  | [], lastErr => ([], .error (lastErr.getD "could not resolve to any addresses"))
  | addr :: addrs, _ =>
    match peers addr with
    | .ok stream => ([addr], .ok stream)
    | .error e =>
      let (dialed, result) := dial peers addrs (some e)
      (addr :: dialed, result)

/-- `TcpStream::connect`, with the addresses that are dialed. -/
def connect (resolver : Resolver) (peers : Peers) (addr : String) :
    List SocketAddr × Except String TcpStream :=
  match resolver.resolve addr with
  | .error e => ([], .error e)
  | .ok addrs => dial peers addrs none

theorem mem_dial {peers : Peers} {a : SocketAddr} {addrs : List SocketAddr} {lastErr : Option String}
    (h : a ∈ (dial peers addrs lastErr).1) : a ∈ addrs := by
  induction addrs generalizing lastErr with
  | nil => exact h
  | cons addr addrs ih =>
      rw [dial] at h
      cases hpeer : peers addr with
      | ok stream =>
          rw [hpeer] at h
          exact List.mem_cons.2 (Or.inl (List.mem_singleton.1 h))
      | error e =>
          rw [hpeer] at h
          rcases List.mem_cons.1 h with rfl | h
          · exact List.mem_cons_self
          · exact List.mem_cons_of_mem _ (ih h)

/-- Only addresses that the resolver gives are dialed. -/
theorem mem_connect {resolver : Resolver} {peers : Peers} {addr : String} {a : SocketAddr}
    (h : a ∈ (connect resolver peers addr).1) :
    ∃ addrs, resolver.resolve addr = .ok addrs ∧ a ∈ addrs := by
  unfold connect at h
  cases hresolve : resolver.resolve addr with
  | error e =>
      rw [hresolve] at h
      exact absurd h List.not_mem_nil
  | ok addrs =>
      rw [hresolve] at h
      exact ⟨addrs, rfl, mem_dial h⟩

theorem dial_refused (e : String) (addrs : List SocketAddr) (lastErr : Option String) :
    (dial (fun _ => .error e) addrs lastErr).1 = addrs := by
  induction addrs generalizing lastErr with
  | nil => rfl
  | cons addr addrs ih => exact congrArg (List.cons addr) (ih (some e))

/-- All addresses that the resolver gives are dialed, if none takes the connection. -/
theorem connect_refused {resolver : Resolver} {addr : String} {addrs : List SocketAddr}
    (h : resolver.resolve addr = .ok addrs) (e : String) :
    (connect resolver (fun _ => .error e) addr).1 = addrs := by
  unfold connect
  rw [h]
  exact dial_refused e addrs none

end TcpStream

/-! ### The SOCKS5 proxy -/

namespace Socks

/-- The connect request for a domain and a port; the length is the low byte of the number of bytes. -/
def request (targetOnion : String) (targetPort : UInt16) : Bytes :=
  let domain := asBytes targetOnion
  [0x05, 0x01, 0x00, 0x03] ++ [UInt8.ofNat domain.length] ++ domain ++ beBytes 2 targetPort.toNat

/-- The reason of a failed request. -/
def reason (status : UInt8) : String :=
  if status = 0x01 then "general SOCKS server failure"
  else if status = 0x02 then "connection not allowed by ruleset"
  else if status = 0x03 then "network unreachable"
  else if status = 0x04 then "host unreachable"
  else if status = 0x05 then "connection refused"
  else if status = 0x06 then "TTL expired"
  else if status = 0x07 then "command not supported"
  else if status = 0x08 then "address type not supported"
  else "unknown error"

/-- An I/O error of the conversation with the proxy. -/
def unavailable {α : Type} (text : String) (result : Except String α) : Except SanctumError α :=
  result.mapError fun e => .torUnavailable ("SOCKS5 " ++ text ++ ": " ++ e)

/-- The greeting, and the method that the proxy selects. -/
def greet (stream : TcpStream) : Except SanctumError TcpStream := do
  let stream ← unavailable "greeting write" (stream.writeAll [0x05, 0x01, 0x00])
  let (methodResp, stream) ← unavailable "method read" (stream.readExact 2)
  if (methodResp.getD 0 0) ≠ 0x05 then
    .error (.torUnavailable
      ("SOCKS5 version mismatch: expected 5, got " ++ toString (methodResp.getD 0 0).toNat))
  else if (methodResp.getD 1 0) ≠ 0x00 then
    .error (.torUnavailable
      ("SOCKS5 no acceptable auth method (got 0x" ++ hexByte (methodResp.getD 1 0) ++ ")"))
  else .ok stream

/-- Drain the bound address (we don't need it). -/
def drain (stream : TcpStream) (addressType : UInt8) : Except SanctumError TcpStream := do
  if addressType = 0x01 then
    let (_, stream) ← unavailable "drain" (stream.readExact 6)
    .ok stream
  else if addressType = 0x03 then
    let (len, stream) ← unavailable "drain" (stream.readExact 1)
    let (_, stream) ← unavailable "drain" (stream.readExact ((len.getD 0 0).toNat + 2))
    .ok stream
  else if addressType = 0x04 then
    let (_, stream) ← unavailable "drain" (stream.readExact 18)
    .ok stream
  else .error (.torUnavailable ("SOCKS5 unknown address type: 0x" ++ hexByte addressType))

/-- The answer of the proxy to the request. -/
def readResponse (stream : TcpStream) : Except SanctumError TcpStream := do
  let (respHeader, stream) ← unavailable "response read" (stream.readExact 4)
  if (respHeader.getD 0 0) ≠ 0x05 then
    .error (.torUnavailable ("SOCKS5 response version mismatch: " ++ toString (respHeader.getD 0 0).toNat))
  else if (respHeader.getD 1 0) ≠ 0x00 then
    .error (.torUnavailable ("SOCKS5 connect failed: " ++ reason (respHeader.getD 1 0) ++ " (0x" ++
      hexByte (respHeader.getD 1 0) ++ ")"))
  else drain stream (respHeader.getD 3 0)

/-- Connect to a .onion address through a Tor SOCKS5 proxy, with the addresses that are dialed. -/
def connectViaTor (resolver : Resolver) (peers : Peers) (socksAddr targetOnion : String)
    (targetPort : UInt16) : List SocketAddr × Except SanctumError TcpStream :=
  let (dialed, connected) := TcpStream.connect resolver peers socksAddr
  (dialed, do
    let stream ← connected.mapError fun e =>
      .torUnavailable ("cannot connect to Tor SOCKS5 proxy at " ++ socksAddr ++ ": " ++ e)
    let stream ← greet stream
    let stream ← unavailable "connect write" (stream.writeAll (request targetOnion targetPort))
    readResponse stream)

end Socks

/-! ### Invites -/

namespace InviteToken

/-- Is this token expired? -/
def isExpired (t : InviteToken) (now : UInt64) : Bool := now > t.expiresAt

/-- Is this token for the given fingerprint? -/
def isFor (t : InviteToken) (fp : Fingerprint) : Bool := t.invitedFingerprint = fp

end InviteToken

/-- The crates that an invite is decoded with. -/
structure InviteCrates where
  /-- Base64 for URLs, without padding. -/
  base64 : String → Except String Bytes
  /-- JSON. -/
  json : Bytes → Except String InviteToken

namespace InviteCodec

/-- Decode a base64url string back to an InviteToken. -/
def decodeInvite (crates : InviteCrates) (encoded : String) : Except SanctumError InviteToken := do
  let jsonBytes ← (crates.base64 (trim encoded)).mapError fun e => .invalidInviteToken ("base64: " ++ e)
  (crates.json jsonBytes).mapError fun e => .invalidInviteToken ("json: " ++ e)

/-- Validate a decoded invite token (check expiry and fingerprint).  The clock is an argument. -/
def validateInvite (token : InviteToken) (localFingerprint : Fingerprint) (now : UInt64) :
    Except SanctumError Unit :=
  if token.isExpired now then .error .inviteTokenExpired
  else if !token.isFor localFingerprint then
    .error (.invalidInviteToken "this invite is not for your fingerprint")
  else .ok ()

end InviteCodec

/-! ### Joining -/

/-- The Noise handshake with the host key and the authentication over a stream: the role assigned by the
host.  Both go over the stream that is there. -/
abbrev Authenticate : Type :=
  TcpStream → Fingerprint → String → Bytes → Except SanctumError String

namespace ClientConnector

variable (resolver : Resolver) (peers : Peers) (authenticate : Authenticate)

/-- Connect directly (localhost) with Noise + auth, with the addresses that are dialed. -/
def connectAndAuth (addr : String) (fingerprint : Fingerprint) (displayAlias : String)
    (hostNoisePubkey : Bytes) : List SocketAddr × Except SanctumError String :=
  let (dialed, connected) := TcpStream.connect resolver peers addr
  (dialed, do
    let stream ← connected.mapError fun e => .connectionLost ("connect to " ++ addr ++ ": " ++ e)
    authenticate stream fingerprint displayAlias hostNoisePubkey)

/-- Connect via Tor SOCKS5 with Noise + auth, with the addresses that are dialed. -/
def connectViaTorAndAuth (socksAddr onionAddress : String) (onionPort : UInt16)
    (fingerprint : Fingerprint) (displayAlias : String) (hostNoisePubkey : Bytes) :
    List SocketAddr × Except SanctumError String :=
  let (dialed, connected) := Socks.connectViaTor resolver peers socksAddr onionAddress onionPort
  (dialed, do
    let stream ← connected
    authenticate stream fingerprint displayAlias hostNoisePubkey)

end ClientConnector

/-- The settings that a join reads. -/
structure JoinConfig where
  identityAlias : String
  torSocksPort : UInt16

/-- What surrounds a join: the stored identity, the crates for invites, the clock, the resolver of the
system and the rest of the connection. -/
structure JoinEnv where
  identity : Except SanctumError Fingerprint
  crates : InviteCrates
  now : UInt64
  resolver : Resolver
  authenticate : Authenticate

/-- The errors of a join; the first one comes with the hint to run `sanctum init`. -/
inductive JoinError
  | identity (e : SanctumError)
  | failed (e : SanctumError)
deriving DecidableEq

namespace Join

/-- The address looks local. -/
def isLocal (invite : InviteToken) : Bool :=
  invite.onionAddress = "localhost" || startsWith invite.onionAddress "127."

/-- The address is an onion address that does not look local. -/
def TorRoute (invite : InviteToken) : Prop :=
  isLocal invite = false ∧ endsWith invite.onionAddress ".onion" = true

instance (invite : InviteToken) : Decidable (TorRoute invite) :=
  inferInstanceAs (Decidable (_ ∧ _))

/-- The connection of a join, with the addresses that are dialed. -/
def connect (env : JoinEnv) (peers : Peers) (config : JoinConfig) (localFp : Fingerprint)
    (invite : InviteToken) : List SocketAddr × Except SanctumError String :=
  if !isLocal invite && endsWith invite.onionAddress ".onion" then
    ClientConnector.connectViaTorAndAuth env.resolver peers env.authenticate
      (hostPort "127.0.0.1" config.torSocksPort) invite.onionAddress invite.port localFp
      config.identityAlias invite.hostNoisePubkey
  else
    ClientConnector.connectAndAuth env.resolver peers env.authenticate
      (hostPort invite.onionAddress invite.port) localFp config.identityAlias invite.hostNoisePubkey

/-- **Join a room via invite token**: the addresses that are dialed, and the role or an error.  The chat
goes over the stream of the connection. -/
def run (env : JoinEnv) (peers : Peers) (token : String) (config : JoinConfig) :
    List SocketAddr × Except JoinError String :=
  match env.identity with
  | .error e => ([], .error (.identity e))
  | .ok localFp =>
    match InviteCodec.decodeInvite env.crates token with
    | .error e => ([], .error (.failed e))
    | .ok invite =>
      match InviteCodec.validateInvite invite localFp env.now with
      | .error e => ([], .error (.failed e))
      | .ok () =>
        let (dialed, session) := connect env peers config localFp invite
        (dialed, session.mapError .failed)

/-! ### Where a join connects to -/

/-- **Only loopback addresses are dialed**, whatever the peers do: nothing else is reached but through the
proxy. -/
def LoopbackOnly (env : JoinEnv) (token : String) (config : JoinConfig) : Prop :=
  ∀ peers : Peers, ∀ a ∈ (run env peers token config).1, a.ip.isLoopback

/-- All addresses that the resolver gives for the address of the invite are loopback addresses. -/
def ResolvesToLoopback (resolver : Resolver) (invite : InviteToken) : Prop :=
  ∀ addrs, resolver.resolve (hostPort invite.onionAddress invite.port) = .ok addrs →
    ∀ a ∈ addrs, a.ip.isLoopback

theorem resolvesToLoopback_localhost (resolver : Resolver) {invite : InviteToken}
    (h : invite.onionAddress = "localhost") : ResolvesToLoopback resolver invite := by
  intro addrs haddrs
  rw [h] at haddrs
  exact resolver.resolve_localhost invite.port haddrs

theorem connect_of_torRoute {env : JoinEnv} {peers : Peers} {config : JoinConfig} {localFp : Fingerprint}
    {invite : InviteToken} (h : TorRoute invite) :
    (connect env peers config localFp invite).1 =
      (TcpStream.connect env.resolver peers (hostPort "127.0.0.1" config.torSocksPort)).1 := by
  unfold connect
  rw [h.1, h.2]
  rfl

theorem connect_of_not_torRoute {env : JoinEnv} {peers : Peers} {config : JoinConfig}
    {localFp : Fingerprint} {invite : InviteToken} (h : ¬ TorRoute invite) :
    (connect env peers config localFp invite).1 =
      (TcpStream.connect env.resolver peers (hostPort invite.onionAddress invite.port)).1 := by
  unfold connect
  rw [if_neg]
  · rfl
  · intro hroute
    rw [Bool.and_eq_true, Bool.not_eq_true'] at hroute
    exact h hroute

/-- A join with an invite that is decoded and valid dials what its connection dials. -/
theorem run_dialed {env : JoinEnv} {token : String} {localFp : Fingerprint} {invite : InviteToken}
    (hidentity : env.identity = .ok localFp)
    (hdecode : InviteCodec.decodeInvite env.crates token = .ok invite)
    (hvalid : InviteCodec.validateInvite invite localFp env.now = .ok ()) (peers : Peers)
    (config : JoinConfig) :
    (run env peers token config).1 = (connect env peers config localFp invite).1 := by
  unfold run
  rw [hidentity]
  dsimp only
  rw [hdecode]
  dsimp only
  rw [hvalid]

/-- **A join dials loopback addresses only, exactly when** it takes the route through Tor, or all addresses
that the resolver gives for the address of the invite are loopback addresses. -/
theorem loopbackOnly_iff {env : JoinEnv} {token : String} {localFp : Fingerprint} {invite : InviteToken}
    (hidentity : env.identity = .ok localFp)
    (hdecode : InviteCodec.decodeInvite env.crates token = .ok invite)
    (hvalid : InviteCodec.validateInvite invite localFp env.now = .ok ()) (config : JoinConfig) :
    LoopbackOnly env token config ↔ TorRoute invite ∨ ResolvesToLoopback env.resolver invite := by
  unfold LoopbackOnly
  simp only [run_dialed hidentity hdecode hvalid]
  by_cases hroute : TorRoute invite
  · refine iff_of_true ?_ (Or.inl hroute)
    intro peers a ha
    rw [connect_of_torRoute hroute] at ha
    obtain ⟨addrs, hresolve, hmem⟩ := TcpStream.mem_connect ha
    rw [env.resolver.resolve_loopback] at hresolve
    obtain rfl := Except.ok.inj hresolve
    obtain rfl := List.mem_singleton.1 hmem
    rfl
  · rw [or_iff_right hroute]
    simp only [connect_of_not_torRoute hroute]
    constructor
    · -- No address takes the connection, so all of them are dialed.
      intro h addrs hresolve a ha
      refine h (fun _ => .error "connection refused") a ?_
      rwa [TcpStream.connect_refused hresolve]
    · intro h peers a ha
      obtain ⟨addrs, hresolve, hmem⟩ := TcpStream.mem_connect ha
      exact h addrs hresolve a hmem

/-! ### Two invites -/

/-- An invite whose address is not an onion address. -/
def directInvite : InviteToken where
  roomId := ⟨1⟩
  onionAddress := "host.example"
  port := 9738
  hostNoisePubkey := List.replicate 32 7
  inviterFingerprint := ⟨"AAAAAAAAAAAAAAAAAAAAAAAAAAAAAAAAAAAAAAAA"⟩
  invitedFingerprint := ⟨"BBBBBBBBBBBBBBBBBBBBBBBBBBBBBBBBBBBBBBBB"⟩
  role := .member
  expiresAt := 2000000000
  signature := []

def onionInvite : InviteToken := { directInvite with onionAddress := "expyuzz4wqqyqhjn.onion" }

@[irreducible] def directJson : String :=
  "\x7b\"room_id\":\"00000000-0000-0000-0000-000000000001\",\"onion_address\":\"host.example\"," ++
    "\"port\":9738,\"host_noise_pubkey\":[7,7,7,7,7,7,7,7,7,7,7,7,7,7,7,7,7,7,7,7,7,7,7,7,7,7,7,7" ++
    ",7,7,7,7],\"inviter_fingerprint\":\"AAAAAAAAAAAAAAAAAAAAAAAAAAAAAAAAAAAAAAAA\",\"invited_fin" ++
    "gerprint\":\"BBBBBBBBBBBBBBBBBBBBBBBBBBBBBBBBBBBBBBBB\",\"role\":\"Member\",\"expires_at\":2" ++
    "000000000,\"signature\":[]\x7d"

@[irreducible] def directToken : String :=
  "e" ++ (
    "yJyb29tX2lkIjoiMDAwMDAwMDAtMDAwMC0wMDAwLTAwMDAtMDAwMDAwMDAwMDAxIiwib25pb25fYWRkcmVzcyI6Imhv" ++
    "c3QuZXhhbXBsZSIsInBvcnQiOjk3MzgsImhvc3Rfbm9pc2VfcHVia2V5IjpbNyw3LDcsNyw3LDcsNyw3LDcsNyw3LDcs" ++
    "Nyw3LDcsNyw3LDcsNyw3LDcsNyw3LDcsNyw3LDcsNyw3LDcsNyw3XSwiaW52aXRlcl9maW5nZXJwcmludCI6IkFBQUFB" ++
    "QUFBQUFBQUFBQUFBQUFBQUFBQUFBQUFBQUFBQUFBQUFBQUEiLCJpbnZpdGVkX2ZpbmdlcnByaW50IjoiQkJCQkJCQkJC" ++
    "QkJCQkJCQkJCQkJCQkJCQkJCQkJCQkJCQkJCQkJCQiIsInJvbGUiOiJNZW1iZXIiLCJleHBpcmVzX2F0IjoyMDAwMDAw" ++
    "MDAwLCJzaWduYXR1cmUiOltdf") ++ "Q"

@[irreducible] def onionJson : String :=
  "\x7b\"room_id\":\"00000000-0000-0000-0000-000000000001\",\"onion_address\":\"expyuzz4wqqyqhj" ++
    "n.onion\",\"port\":9738,\"host_noise_pubkey\":[7,7,7,7,7,7,7,7,7,7,7,7,7,7,7,7,7,7,7,7,7,7,7" ++
    ",7,7,7,7,7,7,7,7,7],\"inviter_fingerprint\":\"AAAAAAAAAAAAAAAAAAAAAAAAAAAAAAAAAAAAAAAA\",\"i" ++
    "nvited_fingerprint\":\"BBBBBBBBBBBBBBBBBBBBBBBBBBBBBBBBBBBBBBBB\",\"role\":\"Member\",\"expi" ++
    "res_at\":2000000000,\"signature\":[]\x7d"

@[irreducible] def onionToken : String :=
  "e" ++ (
    "yJyb29tX2lkIjoiMDAwMDAwMDAtMDAwMC0wMDAwLTAwMDAtMDAwMDAwMDAwMDAxIiwib25pb25fYWRkcmVzcyI6ImV4" ++
    "cHl1eno0d3FxeXFoam4ub25pb24iLCJwb3J0Ijo5NzM4LCJob3N0X25vaXNlX3B1YmtleSI6WzcsNyw3LDcsNyw3LDcs" ++
    "Nyw3LDcsNyw3LDcsNyw3LDcsNyw3LDcsNyw3LDcsNyw3LDcsNyw3LDcsNyw3LDcsN10sImludml0ZXJfZmluZ2VycHJp" ++
    "bnQiOiJBQUFBQUFBQUFBQUFBQUFBQUFBQUFBQUFBQUFBQUFBQUFBQUFBQUFBIiwiaW52aXRlZF9maW5nZXJwcmludCI6" ++
    "IkJCQkJCQkJCQkJCQkJCQkJCQkJCQkJCQkJCQkJCQkJCQkJCQkJCQkIiLCJyb2xlIjoiTWVtYmVyIiwiZXhwaXJlc19h" ++
    "dCI6MjAwMDAwMDAwMCwic2lnbmF0dXJlIjpbXX") ++ "0"

/-- The crates, on the two invites. -/
def testCrates : InviteCrates where
  base64 text :=
    if text = directToken then .ok (asBytes directJson)
    else if text = onionToken then .ok (asBytes onionJson)
    else .error "Invalid padding"
  json bytes :=
    if bytes = asBytes directJson then .ok directInvite
    else if bytes = asBytes onionJson then .ok onionInvite
    else .error "EOF while parsing a value at line 1 column 0"

theorem decodeInvite_of_crates {crates : InviteCrates} {token : String} {bytes : Bytes}
    {invite : InviteToken} (htrim : trim token = token) (hbase64 : crates.base64 token = .ok bytes)
    (hjson : crates.json bytes = .ok invite) : InviteCodec.decodeInvite crates token = .ok invite := by
  unfold InviteCodec.decodeInvite
  rw [htrim, hbase64]
  refine bind_eq_ok.2 ⟨bytes, rfl, ?_⟩
  rw [hjson]
  rfl

theorem decodeInvite_directToken :
    InviteCodec.decodeInvite testCrates directToken = .ok directInvite := by
  refine decodeInvite_of_crates ?_ (if_pos rfl) (if_pos rfl)
  unfold directToken
  exact trim_ends 'e' 'Q' _ rfl rfl

theorem decodeInvite_onionToken :
    InviteCodec.decodeInvite testCrates onionToken = .ok onionInvite := by
  have hne : onionToken ≠ directToken := by
    unfold onionToken directToken
    intro h
    have hlast := congrArg (fun text => text.toList.getLast?) h
    simp only [String.toList_append, List.getLast?_append] at hlast
    exact absurd hlast (by decide)
  have hne' : asBytes onionJson ≠ asBytes directJson := by decide +kernel
  refine decodeInvite_of_crates ?_ ((if_neg hne).trans (if_pos rfl)) ((if_neg hne').trans (if_pos rfl))
  unfold onionToken
  exact trim_ends 'e' '0' _ rfl rfl

/-- The port at the end of a text, after a number of characters. -/
def portAfter (k : ℕ) (text : String) : UInt16 :=
  UInt16.ofNat (Nat.ofDigitChars 10 (text.toList.drop k) 0)

theorem portAfter_hostPort {k : ℕ} {host : String} (h : host.toList.length + 1 = k) (port : UInt16) :
    portAfter k (hostPort host port) = port := by
  rw [portAfter, toList_hostPort, ← h, List.drop_append, Nat.add_sub_cancel_left,
    List.drop_eq_nil_of_le (Nat.le_succ _), List.drop_succ_cons, List.drop_zero, List.nil_append,
    Nat.ofDigitChars_ten_toDigits, UInt16.ofNat_toNat]

/-- A resolver that knows one name besides the loopback address. -/
def testResolver : Resolver where
  resolve text :=
    if startsWith text "127.0.0.1:" then .ok [⟨.v4 127 0 0 1, portAfter 10 text⟩]
    else if startsWith text "localhost:" then .ok [⟨.v4 127 0 0 1, portAfter 10 text⟩]
    else if text = "host.example:9738" then .ok [⟨.v4 203 0 113 7, 9738⟩]
    else .error "failed to lookup address information: Name or service not known"
  resolve_loopback port := by
    have hstart : startsWith (hostPort "127.0.0.1" port) "127.0.0.1:" = true := by
      rw [startsWith, toList_hostPort, List.isPrefixOf_iff_prefix]
      exact ⟨_, rfl⟩
    have hlength : "127.0.0.1".toList.length + 1 = 10 := by decide
    rw [if_pos hstart, portAfter_hostPort hlength]
  resolve_localhost port addrs h := by
    have hstart : startsWith (hostPort "localhost" port) "localhost:" = true := by
      rw [startsWith, toList_hostPort, List.isPrefixOf_iff_prefix]
      exact ⟨_, rfl⟩
    have hnot : startsWith (hostPort "localhost" port) "127.0.0.1:" = false := by
      rw [startsWith, toList_hostPort]
      rfl
    rw [hnot, if_neg Bool.false_ne_true, if_pos hstart] at h
    obtain rfl := Except.ok.inj h
    intro a ha
    obtain rfl := List.mem_singleton.1 ha
    rfl

def testEnv : JoinEnv where
  identity := .ok directInvite.invitedFingerprint
  crates := testCrates
  now := 1700000000
  resolver := testResolver
  authenticate _ _ _ _ := .error (.connectionLost "connection closed")

def testConfig : JoinConfig where
  identityAlias := "bob"
  torSocksPort := 9050

/-- **A join dials an address that is not a loopback address**: the one of the name in the invite. -/
theorem clearnet_dialed :
    InviteCodec.decodeInvite testEnv.crates directToken = .ok directInvite ∧
      InviteCodec.validateInvite directInvite directInvite.invitedFingerprint testEnv.now = .ok () ∧
      ¬ LoopbackOnly testEnv directToken testConfig := by
  have hvalid : InviteCodec.validateInvite directInvite directInvite.invitedFingerprint testEnv.now =
      .ok () := by decide
  refine ⟨decodeInvite_directToken, hvalid, ?_⟩
  intro h
  have hroute : ¬ TorRoute directInvite := by decide
  have hresolve : testEnv.resolver.resolve (hostPort directInvite.onionAddress directInvite.port) =
      .ok [⟨.v4 203 0 113 7, 9738⟩] := by decide
  have hdialed : ⟨.v4 203 0 113 7, 9738⟩ ∈
      (run testEnv (fun _ => .error "connection refused") directToken testConfig).1 := by
    rw [run_dialed rfl decodeInvite_directToken hvalid, connect_of_not_torRoute hroute,
      TcpStream.connect_refused hresolve]
    exact List.mem_singleton_self _
  exact absurd (h _ _ hdialed) (by decide)

/-- A join with an onion address dials the proxy only. -/
theorem loopbackOnly_onionInvite : LoopbackOnly testEnv onionToken testConfig :=
  (loopbackOnly_iff rfl decodeInvite_onionToken (by decide) testConfig).2 (Or.inl (by decide))

end Join

end Sanctum
