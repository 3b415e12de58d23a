/-
The control port of Tor.

The controller sends commands and reads the answers line by line.  Two of the dialogues read until a
line says that the answer is complete or has failed; the end of the stream is an empty line again and
again, which says neither.

Main definitions:

* `Sanctum.ControlStream` — the connection to the control port;
* `Sanctum.TorController.connect`, `Sanctum.TorController.createHiddenService`,
  `Sanctum.TorController.destroyHiddenService` — the operations of the controller;
* `Sanctum.TorController.EndsDialogue` — a line on which a dialogue ends.

Main results:

* `Sanctum.TorController.dialogues_halt_iff` — **when the dialogues end**;
* `Sanctum.TorController.connect_returns_iff`, `Sanctum.TorController.createHiddenService_returns_iff` —
  when the operations come back.
-/

import Mathlib.Data.List.Destutter
import Sanctum.AuthService
import Sanctum.Join
import Sanctum.Looping

set_option relaxedAutoImplicit false
set_option autoImplicit false

namespace Sanctum

/-! ### Texts -/

/-- `str::trim_end`. -/
def trimEnd (text : String) : String :=
  String.ofList (text.toList.reverse.dropWhile isWhitespace).reverse

/-- `str::find`, where the text is found first. -/
def find (text pattern : List Char) : Option ℕ :=
  (List.range (text.length + 1)).find? fun start => pattern.isPrefixOf (text.drop start)

/-- `str::strip_suffix`. -/
def stripSuffix (text pattern : String) : Option String :=
  if endsWith text pattern then
    some (String.ofList (text.toList.take (text.toList.length - pattern.toList.length)))
  else none

theorem stripSuffix_append (text pattern : String) : stripSuffix (text ++ pattern) pattern = some text := by
  have hsuffix : endsWith (text ++ pattern) pattern = true := by
    rw [endsWith, String.toList_append, List.isSuffixOf_iff_suffix]
    exact List.suffix_append _ _
  rw [stripSuffix, if_pos hsuffix, String.toList_append, List.length_append, Nat.add_sub_cancel,
    List.take_left, String.ofList_toList]

/-- `str::trim_start_matches`: the text is taken away as often as it is there, which for a text that is
not empty is at most as often as the fuel says if that is the length. -/
def trimStartMatches (pattern : List Char) : ℕ → List Char → List Char
  | 0, text => text
  | fuel + 1, text =>
    if pattern.isPrefixOf text then trimStartMatches pattern fuel (text.drop pattern.length) else text

/-! ### The connection -/

/-- **The connection to the control port**: what `read_line` gives until the end of the stream, and what
the next writes and flushes do. -/
structure ControlStream where
  lines : List (Except String String)
  writes : List Write
  flushes : List (Except String Unit)
  written : Bytes

namespace ControlStream

def writeCmd (reader : ControlStream) (cmd : String) : Except SanctumError Unit × ControlStream :=
  let write := reader.writes.headD .ok
  let taken := (asBytes cmd).take (write.takes (asBytes cmd).length)
  let reader := { reader with writes := reader.writes.tail, written := reader.written ++ taken }
  match write with
  | .failed text _ => (.error (.torUnavailable ("control write: " ++ text)), reader)
  | .ok =>
    let flush := reader.flushes.headD (.ok ())
    let reader := { reader with flushes := reader.flushes.tail }
    match flush with
    | .error text => (.error (.torUnavailable ("control flush: " ++ text)), reader)
    | .ok () => (.ok (), reader)

/-- A line without the white space at its end; at the end of the stream, the empty line. -/
def readResponse (reader : ControlStream) : Except SanctumError String × ControlStream :=
  match reader.lines with
  | [] => (.ok "", reader)
  | .error text :: lines =>
    (.error (.torUnavailable ("control read: " ++ text)), { reader with lines := lines })
  | .ok line :: lines => (.ok (trimEnd line), { reader with lines := lines })

theorem readResponse_of_nil (reader : ControlStream) (h : reader.lines = []) :
    reader.readResponse = (.ok "", reader) := by
  rw [readResponse, h]

theorem readResponse_of_error (reader : ControlStream) {text : String}
    {lines : List (Except String String)} (h : reader.lines = .error text :: lines) :
    reader.readResponse =
      (.error (.torUnavailable ("control read: " ++ text)), { reader with lines := lines }) := by
  rw [readResponse, h]

theorem readResponse_of_ok (reader : ControlStream) {line : String}
    {lines : List (Except String String)} (h : reader.lines = .ok line :: lines) :
    reader.readResponse = (.ok (trimEnd line), { reader with lines := lines }) := by
  rw [readResponse, h]

/-- A command, and the line that answers it. -/
def ask (reader : ControlStream) (cmd : String) : Except SanctumError String × ControlStream :=
  match reader.writeCmd cmd with
  | (.error e, reader) => (.error e, reader)
  | (.ok (), reader) => reader.readResponse

@[simp] theorem writeCmd_lines (reader : ControlStream) (cmd : String) :
    (reader.writeCmd cmd).2.lines = reader.lines := by
  unfold writeCmd
  dsimp only
  split
  · rfl
  · split <;> rfl

end ControlStream

/-! ### The controller -/

/-- Tor configuration: the address of the control port, the port of the hidden service and the local
port to forward to. -/
structure TorConfig where
  controlAddr : String
  hiddenServicePort : UInt16
  localPort : UInt16
deriving DecidableEq

def TorConfig.default : TorConfig where
  controlAddr := "127.0.0.1:9051"
  hiddenServicePort := 9738
  localPort := 9738

/-- Tor hidden service info. -/
structure HiddenService where
  onionAddress : String
  port : UInt16
  serviceId : String
deriving DecidableEq

/-- Tor controller. -/
structure TorController where
  config : TorConfig
  activeService : Option HiddenService
  controlStream : Option ControlStream
  mock : Bool

/-- What the controller has around it: the control ports that take a connection, and the files. -/
structure TorEnv where
  dial : String → Except String ControlStream
  readFile : String → Except String Bytes

namespace TorController

open Looping

def new (config : TorConfig) : TorController where
  config := config
  activeService := none
  controlStream := none
  mock := false

/-- A mock controller. -/
def newMock : TorController where
  config := .default
  activeService := none
  controlStream := none
  mock := true

/-- **A round of a dialogue**: a line is read, and says whether to go on. -/
def readLines {α β : Type} (next : α → String → α ⊕ Except SanctumError β) :
    ControlStream × α → (ControlStream × α) ⊕ (Except SanctumError β × ControlStream)
  | (reader, found) =>
    match reader.readResponse with
    | (.error e, reader) => .inr (.error e, reader)
    | (.ok line, reader) =>
      match next found line with
      | .inl found => .inl (reader, found)
      | .inr result => .inr (result, reader)

/-- **A dialogue**: a command, and the lines of the answer. -/
def dialogue {α β : Type} (next : α → String → α ⊕ Except SanctumError β) (found : α)
    (reader : ControlStream) (cmd : String) (fuel : ℕ) : Option (Except SanctumError β × ControlStream) :=
  match reader.writeCmd cmd with
  | (.error e, reader) => some (.error e, reader)
  | (.ok (), reader) => run (readLines next) fuel (reader, found)

/-! ### The answer to `PROTOCOLINFO` -/

/-- The path of the cookie file that a line reports. -/
def cookieFile (line : List Char) : Option String :=
  if (find line "COOKIEFILE=".toList).isSome then do
    let start ← find line "COOKIEFILE=\"".toList
    let rest := line.drop (start + 12)
    let stop ← find rest ['"']
    some (String.ofList (rest.take stop))
  else none

/-- A line of the answer to `PROTOCOLINFO`, with the path found so far: go on, or leave. -/
def protocolInfoLine (cookiePath : Option String) (line : String) :
    Option String ⊕ Except SanctumError (Option String) :=
  let cookiePath := (cookieFile line.toList).or cookiePath
  if startsWith line "250 " then .inr (.ok cookiePath)
  else if startsWith line "5" then .inr (.error (.torUnavailable ("PROTOCOLINFO failed: " ++ line)))
  else .inl cookiePath

/-! ### Authentication -/

/-- The paths to try: the one that Tor reports, and the common ones. -/
def cookiePaths (cookiePath : Option String) : List String :=
  (cookiePath.toList ++ ["/var/lib/tor/control_auth_cookie", "/var/run/tor/control.authcookie",
    "/usr/local/var/lib/tor/control_auth_cookie"]).destutter (· ≠ ·)

def hexEncode (bytes : Bytes) : String := String.join (bytes.map hexByte)

/-- Authenticate with the cookies, one after the other: whether one is taken, and the last error. -/
def tryCookies (readFile : String → Except String Bytes) : List String → String → ControlStream →
    Except SanctumError (Bool × String) × ControlStream
  | [], lastError, reader => (.ok (false, lastError), reader)
  | path :: paths, lastError, reader =>
    match readFile path with
    | .error e => tryCookies readFile paths ("cannot read " ++ path ++ ": " ++ e) reader
    | .ok cookie =>
      if cookie.length ≠ 32 then
        let lastError := "cookie at " ++ path ++ " has wrong length: " ++ toString cookie.length ++
          " (expected 32)"
        tryCookies readFile paths lastError reader
      else
        match reader.ask ("AUTHENTICATE " ++ hexEncode cookie ++ "\r\n") with
        | (.error e, reader) => (.error e, reader)
        | (.ok response, reader) =>
          if startsWith response "250" then (.ok (true, lastError), reader)
          else
            tryCookies readFile paths ("cookie auth rejected for " ++ path ++ ": " ++ response) reader

def notAuthenticated (lastError : String) : SanctumError :=
  .torUnavailable <|
    "could not authenticate to Tor control port.\n" ++
    "Last error: " ++ lastError ++ "\n" ++
    "\n" ++
    "Checklist:\n" ++
    "1. Verify /etc/tor/torrc contains:\n" ++
    "ControlPort 9051\n" ++
    "CookieAuthentication 1\n" ++
    "CookieAuthFileGroupReadable 1\n" ++
    "2. Restart Tor: sudo systemctl restart tor\n" ++
    "3. Add your user to the tor group: sudo usermod -aG tor $USER\n" ++
    "4. Restart your terminal (or run: newgrp tor)\n" ++
    "5. Verify cookie is readable: cat /var/lib/tor/control_auth_cookie | wc -c\n" ++
    "(should print 32)"

/-- Authenticate with a cookie, or else without one. -/
def authenticate (readFile : String → Except String Bytes) (cookiePath : Option String)
    (reader : ControlStream) : Except SanctumError Unit × ControlStream :=
  match tryCookies readFile (cookiePaths cookiePath) "" reader with
  | (.error e, reader) => (.error e, reader)
  | (.ok (true, _), reader) => (.ok (), reader)
  | (.ok (false, lastError), reader) =>
    match reader.ask "AUTHENTICATE\r\n" with
    | (.error e, reader) => (.error e, reader)
    | (.ok response, reader) =>
      if startsWith response "250" then (.ok (), reader) else (.error (notAuthenticated lastError), reader)

/-- What `connect` does after `PROTOCOLINFO` has been answered, or could not be sent. -/
def finishConnect (env : TorEnv) (tor : TorController) :
    Except SanctumError (Option String) × ControlStream → Except SanctumError Unit × TorController
  | (.error e, _) => (.error e, tor)
  | (.ok cookiePath, reader) =>
    match authenticate env.readFile cookiePath reader with
    | (.error e, _) => (.error e, tor)
    | (.ok (), reader) => (.ok (), { tor with controlStream := some reader })

/-- `connect`, if it comes back within so many lines. -/
def connect (env : TorEnv) (tor : TorController) (fuel : ℕ) :
    Option (Except SanctumError Unit × TorController) :=
  if tor.mock then some (.ok (), tor)
  else
    match env.dial tor.config.controlAddr with
    | .error e =>
      let text := "cannot connect to control port " ++ tor.config.controlAddr ++ ": " ++ e
      some (.error (.torUnavailable text), tor)
    | .ok reader =>
      (dialogue protocolInfoLine none reader "PROTOCOLINFO 1\r\n" fuel).map (finishConnect env tor)

/-! ### Hidden services -/

/-- A digit of a mock address. -/
def mockOnionChar (n : ℕ) : Char := if n < 10 then Char.ofNat (97 + n) else Char.ofNat (50 + n - 10)

/-- A mock address, from random bytes. -/
def generateMockOnion (bytes : Bytes) : String :=
  let chars := (bytes.flatMap fun b => [mockOnionChar (b.toNat / 16), mockOnionChar (b.toNat % 16)]).take 56
  String.ofList chars ++ ".onion"

/-- A line of the answer to `ADD_ONION`, with the identifier found so far: go on, or leave. -/
def addOnionLine (serviceId line : String) : String ⊕ Except SanctumError String :=
  if startsWith line "250-ServiceID=" then
    let rest := trimStartMatches "250-ServiceID=".toList line.toList.length line.toList
    .inl (trim (String.ofList rest))
  else if startsWith line "250 " then .inr (.ok serviceId)
  else if startsWith line "5" then .inr (.error (.torUnavailable ("ADD_ONION failed: " ++ line)))
  else .inl serviceId

def addOnionCmd (config : TorConfig) : String :=
  "ADD_ONION NEW:ED25519-V3 Port=" ++ toString config.hiddenServicePort.toNat ++ ",127.0.0.1:" ++
    toString config.localPort.toNat ++ " Flags=DiscardPK\r\n"

/-- What `create_hidden_service` does after `ADD_ONION` has been answered, or could not be sent. -/
def finishCreate (tor : TorController) :
    Except SanctumError String × ControlStream → Except SanctumError HiddenService × TorController
  | (.error e, reader) => (.error e, { tor with controlStream := some reader })
  | (.ok serviceId, reader) =>
    if serviceId = "" then
      (.error (.torUnavailable "ADD_ONION did not return a ServiceID"),
        { tor with controlStream := some reader })
    else
      let hs : HiddenService :=
        { onionAddress := serviceId ++ ".onion", port := tor.config.hiddenServicePort, serviceId := serviceId }
      (.ok hs, { tor with activeService := some hs, controlStream := some reader })

/-- `create_hidden_service`, if it comes back within so many lines. -/
def createHiddenService (random : Bytes) (tor : TorController) (fuel : ℕ) :
    Option (Except SanctumError HiddenService × TorController) :=
  if tor.activeService.isSome then
    some (.error (.torUnavailable "hidden service already active"), tor)
  else if tor.mock then
    let onion := generateMockOnion random
    -- the suffix is there, so the default is never taken
    let serviceId := (stripSuffix onion ".onion").getD ""
    let hs : HiddenService :=
      { onionAddress := onion, port := tor.config.hiddenServicePort, serviceId := serviceId }
    some (.ok hs, { tor with activeService := some hs })
  else
    match tor.controlStream with
    | none =>
      some (.error (.torUnavailable "not connected to control port — call connect() first"), tor)
    | some reader => (dialogue addOnionLine "" reader (addOnionCmd tor.config) fuel).map (finishCreate tor)

def destroyHiddenService (tor : TorController) : Except SanctumError Unit × TorController :=
  match tor.activeService with
  | none => (.error (.torUnavailable "no active hidden service"), tor)
  | some hs =>
    let tor := { tor with activeService := none }
    if tor.mock then (.ok (), tor)
    else
      match tor.controlStream with
      | none => (.ok (), tor)
      | some reader =>
        match reader.ask ("DEL_ONION " ++ hs.serviceId ++ "\r\n") with
        | (.error e, reader) => (.error e, { tor with controlStream := some reader })
        -- an answer other than 250 is only logged
        | (.ok _, reader) => (.ok (), { tor with controlStream := some reader })

/-! ### When the dialogues end -/

/-- **A line on which a dialogue ends**: it cannot be read, or the answer is complete, or has failed. -/
def EndsDialogue : Except String String → Prop
  | .error _ => True
  | .ok line => startsWith (trimEnd line) "250 " ∨ startsWith (trimEnd line) "5"

instance : DecidablePred EndsDialogue
  | .error _ => .isTrue trivial
  | .ok line =>
    inferInstanceAs (Decidable (startsWith (trimEnd line) "250 " ∨ startsWith (trimEnd line) "5"))

/-- The line with the identifier is neither the last one nor a failure. -/
theorem not_startsWith_of_serviceId {line : String} (h : startsWith line "250-ServiceID=") :
    ¬ (startsWith line "250 " ∨ startsWith line "5") := by
  obtain ⟨rest, hline⟩ := List.isPrefixOf_iff_prefix.1 h
  unfold startsWith
  rw [← hline]
  simp

/-- A dialogue that ends on these lines reads until one of them comes. -/
theorem reading_readLines {α β : Type} {next : α → String → α ⊕ Except SanctumError β}
    (hnext : ∀ found line,
      (next found line).isRight ↔ startsWith line "250 " ∨ startsWith line "5") :
    Reading (readLines next) (fun s => s.1.lines) EndsDialogue where
  idle := by
    rintro ⟨reader, found⟩ (hlines : reader.lines = [])
    have hempty : ¬ (next found "").isRight := fun h => absurd ((hnext found "").1 h) (by decide)
    obtain ⟨found', hfound⟩ := Sum.isLeft_iff.1 (Sum.not_isRight.1 hempty)
    refine ⟨(reader, found'), ?_, hlines⟩
    simp only [readLines, reader.readResponse_of_nil hlines, hfound]
  leave := by
    rintro ⟨reader, found⟩ (text | line) lines (hlines : reader.lines = _) hends
    · refine ⟨(.error (.torUnavailable ("control read: " ++ text)), { reader with lines := lines }), ?_⟩
      simp only [readLines, reader.readResponse_of_error hlines]
    · obtain ⟨result, hresult⟩ := Sum.isRight_iff.1 ((hnext found (trimEnd line)).2 hends)
      refine ⟨(result, { reader with lines := lines }), ?_⟩
      simp only [readLines, reader.readResponse_of_ok hlines, hresult]
  goOn := by
    rintro ⟨reader, found⟩ (text | line) lines (hlines : reader.lines = _) hends
    · exact absurd trivial hends
    · have hleft : ¬ (next found (trimEnd line)).isRight := fun h => hends ((hnext _ _).1 h)
      obtain ⟨found', hfound⟩ := Sum.isLeft_iff.1 (Sum.not_isRight.1 hleft)
      refine ⟨({ reader with lines := lines }, found'), ?_, rfl⟩
      simp only [readLines, reader.readResponse_of_ok hlines, hfound]

theorem isRight_protocolInfoLine (cookiePath : Option String) (line : String) :
    (protocolInfoLine cookiePath line).isRight ↔ startsWith line "250 " ∨ startsWith line "5" := by
  unfold protocolInfoLine
  dsimp only
  split_ifs with hdone hfailed
  · exact iff_of_true rfl (Or.inl hdone)
  · exact iff_of_true rfl (Or.inr hfailed)
  · exact iff_of_false Bool.false_ne_true (not_or_intro hdone hfailed)

theorem isRight_addOnionLine (serviceId line : String) :
    (addOnionLine serviceId line).isRight ↔ startsWith line "250 " ∨ startsWith line "5" := by
  unfold addOnionLine
  dsimp only
  split_ifs with hid hdone hfailed
  · exact iff_of_false Bool.false_ne_true (not_startsWith_of_serviceId hid)
  · exact iff_of_true rfl (Or.inl hdone)
  · exact iff_of_true rfl (Or.inr hfailed)
  · exact iff_of_false Bool.false_ne_true (not_or_intro hdone hfailed)

theorem protocolInfo_halts_iff (reader : ControlStream) (cookiePath : Option String) :
    Halts (readLines protocolInfoLine) (reader, cookiePath) ↔
      ∃ line ∈ reader.lines, EndsDialogue line :=
  (reading_readLines isRight_protocolInfoLine).halts_iff (reader, cookiePath)

theorem addOnion_halts_iff (reader : ControlStream) (serviceId : String) :
    Halts (readLines addOnionLine) (reader, serviceId) ↔ ∃ line ∈ reader.lines, EndsDialogue line :=
  (reading_readLines isRight_addOnionLine).halts_iff (reader, serviceId)

/-- **When the dialogues end**: if some line ends them; the end of the stream does not. -/
theorem dialogues_halt_iff (reader : ControlStream) (cookiePath : Option String) (serviceId : String) :
    (Halts (readLines protocolInfoLine) (reader, cookiePath) ↔
        ∃ line ∈ reader.lines, EndsDialogue line) ∧
      (Halts (readLines addOnionLine) (reader, serviceId) ↔
        ∃ line ∈ reader.lines, EndsDialogue line) :=
  ⟨protocolInfo_halts_iff reader cookiePath, addOnion_halts_iff reader serviceId⟩

/-- A connection that Tor closes before it answers, and one that it closes in the middle of an answer. -/
def closedStream (lines : List (Except String String)) : ControlStream :=
  { lines := lines, writes := [], flushes := [], written := [] }

/-- **Both dialogues run forever on an answer that is cut off.** -/
theorem dialogues_run_forever :
    ¬ Halts (readLines protocolInfoLine) (closedStream [], none) ∧
      ¬ Halts (readLines addOnionLine) (closedStream [.ok "250-ServiceID=abc\r\n"], "") := by
  constructor
  · rw [protocolInfo_halts_iff]
    rintro ⟨line, hline, -⟩
    cases hline
  · rw [addOnion_halts_iff]
    rintro ⟨line, hline, hends⟩
    obtain rfl := List.mem_singleton.1 hline
    exact absurd hends (by decide)

/-! ### When the operations come back -/

/-- A dialogue whose command cannot be sent is over; else a line must end it. -/
theorem dialogue_returns_iff {α β γ : Type} {next : α → String → α ⊕ Except SanctumError β} {found : α}
    (hnext : Reading (readLines next) (fun s => s.1.lines) EndsDialogue) (reader : ControlStream)
    (cmd : String) (finish : Except SanctumError β × ControlStream → γ) :
    (∃ fuel result, (dialogue next found reader cmd fuel).map finish = some result) ↔
      ((reader.writeCmd cmd).1 = .ok () → ∃ line ∈ reader.lines, EndsDialogue line) := by
  have hlines := reader.writeCmd_lines cmd
  unfold dialogue
  rcases hwrite : reader.writeCmd cmd with ⟨e | _, reader'⟩
  · exact iff_of_true ⟨0, _, rfl⟩ nofun
  · rw [hwrite] at hlines
    rw [← hlines, ← hnext.halts_iff (reader', found)]
    constructor
    · rintro ⟨fuel, result, hresult⟩ -
      obtain ⟨r, hrun, -⟩ := Option.map_eq_some_iff.1 hresult
      exact ⟨fuel, r, hrun⟩
    · intro h
      obtain ⟨fuel, r, hrun⟩ := h rfl
      exact ⟨fuel, finish r, Option.map_eq_some_iff.2 ⟨r, hrun, rfl⟩⟩

/-- **When `connect` comes back**: if it gets so far as to read the answer to `PROTOCOLINFO`, a line must
end it. -/
theorem connect_returns_iff (env : TorEnv) (tor : TorController) :
    (∃ fuel result, connect env tor fuel = some result) ↔
      (tor.mock = false → ∀ reader, env.dial tor.config.controlAddr = .ok reader →
        (reader.writeCmd "PROTOCOLINFO 1\r\n").1 = .ok () → ∃ line ∈ reader.lines, EndsDialogue line) := by
  unfold connect
  cases tor.mock with
  | true => exact iff_of_true ⟨0, _, rfl⟩ nofun
  | false =>
      cases env.dial tor.config.controlAddr with
      | error e => exact iff_of_true ⟨0, _, rfl⟩ (by rintro - reader ⟨⟩)
      | ok reader =>
          refine (dialogue_returns_iff (reading_readLines isRight_protocolInfoLine) reader _ _).trans ?_
          constructor
          · rintro h - _ ⟨⟩
            exact h
          · intro h
            exact h rfl reader rfl

/-- **When `create_hidden_service` comes back**: if it gets so far as to read the answer to `ADD_ONION`, a
line must end it. -/
theorem createHiddenService_returns_iff (random : Bytes) (tor : TorController) :
    (∃ fuel result, createHiddenService random tor fuel = some result) ↔
      (tor.activeService = none → tor.mock = false → ∀ reader, tor.controlStream = some reader →
        (reader.writeCmd (addOnionCmd tor.config)).1 = .ok () →
          ∃ line ∈ reader.lines, EndsDialogue line) := by
  unfold createHiddenService
  cases tor.activeService with
  | some hs => exact iff_of_true ⟨0, _, rfl⟩ nofun
  | none =>
      cases tor.mock with
      | true => exact iff_of_true ⟨0, _, rfl⟩ nofun
      | false =>
          cases tor.controlStream with
          | none => exact iff_of_true ⟨0, _, rfl⟩ (by rintro - - reader ⟨⟩)
          | some reader =>
              refine (dialogue_returns_iff (reading_readLines isRight_addOnionLine) reader _ _).trans ?_
              constructor
              · rintro h - - _ ⟨⟩
                exact h
              · intro h
                exact h rfl rfl reader rfl

/-! ### Results -/

/-- More fuel does not change what is made of a dialogue. -/
theorem dialogue_mono {α β γ : Type} {next : α → String → α ⊕ Except SanctumError β} {found : α}
    {reader : ControlStream} {cmd : String} {finish : Except SanctumError β × ControlStream → γ}
    {fuel fuel' : ℕ} {result : γ} (hle : fuel ≤ fuel')
    (h : (dialogue next found reader cmd fuel).map finish = some result) :
    (dialogue next found reader cmd fuel').map finish = some result := by
  obtain ⟨r, hr, rfl⟩ := Option.map_eq_some_iff.1 h
  refine Option.map_eq_some_iff.2 ⟨r, ?_, rfl⟩
  unfold dialogue at hr ⊢
  rcases hwrite : reader.writeCmd cmd with ⟨e | _, reader'⟩
  · rw [hwrite] at hr
    exact hr
  · rw [hwrite] at hr
    exact run_mono hle hr

theorem connect_mono {env : TorEnv} {tor : TorController} {fuel fuel' : ℕ}
    {r : Except SanctumError Unit × TorController} (hle : fuel ≤ fuel')
    (h : connect env tor fuel = some r) : connect env tor fuel' = some r := by
  unfold connect at h ⊢
  split_ifs at h ⊢ with hmock
  · exact h
  · cases hdial : env.dial tor.config.controlAddr with
    | error e =>
        rw [hdial] at h
        exact h
    | ok reader =>
        rw [hdial] at h
        exact dialogue_mono hle h

theorem createHiddenService_mono {random : Bytes} {tor : TorController} {fuel fuel' : ℕ}
    {r : Except SanctumError HiddenService × TorController} (hle : fuel ≤ fuel')
    (h : createHiddenService random tor fuel = some r) : createHiddenService random tor fuel' = some r := by
  unfold createHiddenService at h ⊢
  split_ifs at h ⊢ with hactive hmock
  · exact h
  · exact h
  · cases hstream : tor.controlStream with
    | none =>
        rw [hstream] at h
        exact h
    | some reader =>
        rw [hstream] at h
        exact dialogue_mono hle h

/-- **What is created is remembered**: there was no service before, and the address is the one of the
identifier. -/
theorem createHiddenService_ok {random : Bytes} {tor tor' : TorController} {fuel : ℕ} {hs : HiddenService}
    (h : createHiddenService random tor fuel = some (.ok hs, tor')) :
    tor.activeService = none ∧ tor'.activeService = some hs ∧
      hs.onionAddress = hs.serviceId ++ ".onion" ∧ hs.port = tor.config.hiddenServicePort := by
  unfold createHiddenService at h
  split_ifs at h with hactive hmock
  · cases h
  · cases h
    refine ⟨Option.not_isSome_iff_eq_none.1 hactive, rfl, ?_, rfl⟩
    unfold generateMockOnion
    dsimp only
    rw [stripSuffix_append]
    rfl
  · cases hstream : tor.controlStream with
    | none =>
        rw [hstream] at h
        cases h
    | some reader =>
        rw [hstream] at h
        obtain ⟨⟨e | serviceId, reader'⟩, -, hfinish⟩ := Option.map_eq_some_iff.1 h
        · cases hfinish
        · unfold finishCreate at hfinish
          dsimp only at hfinish
          split_ifs at hfinish
          · cases hfinish
          · cases hfinish
            exact ⟨Option.not_isSome_iff_eq_none.1 hactive, rfl, rfl, rfl⟩

end TorController

end Sanctum
