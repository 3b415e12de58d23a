/-
Input lines: messages and slash commands.

A line that begins with a slash is a command.  It is cut at single spaces into three pieces at most: the
command word, an argument, and the rest.  Cut so, a line that is spaced otherwise than by single spaces
has pieces that are not its words: a second space makes an empty argument, and a tab makes none.

Main definitions:

* `Sanctum.parseInput` — the parser;
* `Sanctum.splitWhitespace`, `Sanctum.joinTokens` — the tokens of a line, and the line that is spaced
  by single spaces;
* `Sanctum.ByTokens` — a line is parsed as its tokens are;
* `Sanctum.SpacedFor`, `Sanctum.SpacedOnce` — single spaces between the tokens that the command tells
  apart.

Main results:

* `Sanctum.slashCommand_eq_iff` — what the parts of a line are used for;
* `Sanctum.parseInput_eq_iff` — when a line is read like its tokens;
* `Sanctum.byTokens_iff` — **lines are parsed by tokens exactly if they are spaced once**.
-/

import Sanctum.Join
import Sanctum.Words

set_option relaxedAutoImplicit false
set_option autoImplicit false

namespace Sanctum

/-! ### Lower case -/

/-- What Unicode says about letters: their lower case, and which of them have a case, or are passed over
when one looks for such a letter. -/
structure Unicode where
  toLower : Char → List Char
  cased : Char → Bool
  caseIgnorable : Char → Bool
  /-- White space stays white space, and nothing else becomes it. -/
  isWhitespace_toLower : ∀ c, (toLower c).any isWhitespace = isWhitespace c

namespace Unicode

variable (U : Unicode)

/-- A letter with a case comes next, after any that are passed over. -/
def ignorableThenCased (letters : List Char) : Bool :=
  (letters.dropWhile U.caseIgnorable).head?.any U.cased

/-- The letters in lower case, with the letters before them at hand, the nearest first.  A sigma at the
end of a word has a form of its own. -/
def lowercase : List Char → List Char → List Char
  | _, [] => []
  | before, c :: letters =>
    (if c = 'Σ' then
      [if U.ignorableThenCased before && !U.ignorableThenCased letters then 'ς' else 'σ']
    else U.toLower c) ++ lowercase (c :: before) letters

theorem any_isWhitespace_lowercase (before letters : List Char) :
    (U.lowercase before letters).any isWhitespace = letters.any isWhitespace := by
  induction letters generalizing before with
  | nil => rfl
  | cons c letters ih =>
      rw [lowercase, List.any_append, ih, List.any_cons]
      congr 1
      split_ifs with hsigma
      · rw [hsigma]
        decide
      · rw [hsigma]
        decide
      · exact U.isWhitespace_toLower c

end Unicode

/-- `str::to_lowercase`. -/
def toLowercase (U : Unicode) (text : String) : String := String.ofList (U.lowercase [] text.toList)

theorem any_isWhitespace_toLowercase (U : Unicode) (text : String) :
    (toLowercase U text).toList.any isWhitespace = text.toList.any isWhitespace := by
  rw [toLowercase, String.toList_ofList, U.any_isWhitespace_lowercase]

/-! ### The parser -/

/-- Recognized slash commands. -/
inductive SlashCommand
  | exit
  | help
  | status
  | members
  | invite (fingerprint : String) (role : Option String)
  | kick (fingerprint : String)
  | «alias» (newAlias : String)
  | unknown (text : String)
deriving DecidableEq

/-- Parsed user input. -/
inductive Input
  | message (text : String)
  | command (cmd : SlashCommand)
  | empty
deriving DecidableEq

/-- The command of a line, from the command word and the parts of the line. -/
def slashCommand (cmd : String) (parts : List String) : SlashCommand :=
  if cmd ∈ ["/exit", "/quit", "/q"] then .exit
  else if cmd ∈ ["/help", "/h", "/?"] then .help
  else if cmd = "/status" then .status
  else if cmd ∈ ["/members", "/who"] then .members
  else if cmd = "/invite" then
    match parts[1]? with
    | none => .unknown "/invite <fingerprint> [role]"
    | some fingerprint => .invite fingerprint parts[2]?
  else if cmd = "/kick" then
    match parts[1]? with
    | none => .unknown "/kick <fingerprint>"
    | some fingerprint => .kick fingerprint
  else if cmd ∈ ["/alias", "/nick"] then
    match parts[1]? with
    | none => .unknown "/alias <new_alias>"
    | some newAlias => .«alias» newAlias
  else .unknown cmd

/-- **Parse raw user input.** -/
def parseInput (U : Unicode) (raw : String) : Input :=
  let trimmed := trim raw
  if trimmed = "" then .empty
  else if !startsWith trimmed "/" then .message trimmed
  else
    let parts := (Words.splitn ' ' 3 trimmed.toList).map String.ofList
    -- there is a first part, so the default is never taken
    let cmd := toLowercase U (parts.headD "")
    .command (slashCommand cmd parts)

/-! ### Tokens -/

/-- `str::split_whitespace`. -/
def splitWhitespace (text : String) : List String :=
  (Words.words isWhitespace text.toList).map String.ofList

/-- Tokens with single spaces between them. -/
def joinTokens (tokens : List String) : String :=
  String.ofList (Words.join ' ' (tokens.map String.toList))

/-- The arguments of a command. -/
def Input.arguments : Input → List String
  | .command (.invite fingerprint role) => fingerprint :: role.toList
  | .command (.kick fingerprint) => [fingerprint]
  | .command (.«alias» newAlias) => [newAlias]
  | _ => []

/-- **A line is parsed by tokens**: like the tokens with single spaces between them, with no empty
argument, and with the tokens that are there for arguments. -/
structure ByTokens (U : Unicode) (raw : String) : Prop where
  same : parseInput U raw = parseInput U (joinTokens (splitWhitespace raw))
  nonempty : ∀ argument ∈ (parseInput U raw).arguments, argument ≠ ""
  used : ∀ t₀ t₁ ts, splitWhitespace raw = t₀ :: t₁ :: ts →
    toLowercase U t₀ ∈ ["/invite", "/kick", "/alias", "/nick"] →
      (parseInput U raw).arguments.head? = some t₁
  role : ∀ t₀ t₁ t₂ ts, splitWhitespace raw = t₀ :: t₁ :: t₂ :: ts → toLowercase U t₀ = "/invite" →
    ∃ role, (parseInput U raw).arguments = [t₁, role] ∧ startsWith role t₂

/-- A text is all there is, or a space follows it. -/
def Begins (text start : String) : Prop := text = start ∨ startsWith text (start ++ " ")

instance (text start : String) : Decidable (Begins text start) :=
  inferInstanceAs (Decidable (text = start ∨ startsWith text (start ++ " ")))

/-- **The tokens that a command tells apart are spaced once**: all of them for `/invite`, the command and
its argument for the other commands that take one, and the command itself for those that take none. -/
def SpacedFor (cmd : String) (tokens : List String) (line : String) : Prop :=
  if cmd = "/invite" then line = joinTokens tokens
  else Begins line (joinTokens (tokens.take (if cmd ∈ ["/kick", "/alias", "/nick"] then 2 else 1)))

instance (cmd : String) (tokens : List String) (line : String) : Decidable (SpacedFor cmd tokens line) :=
  inferInstanceAs (Decidable (if cmd = "/invite" then line = joinTokens tokens
    else Begins line (joinTokens (tokens.take (if cmd ∈ ["/kick", "/alias", "/nick"] then 2 else 1)))))

/-- **A line is spaced once**, as far as its command tells its tokens apart. -/
def SpacedOnce (U : Unicode) (raw : String) : Prop :=
  SpacedFor (toLowercase U ((splitWhitespace raw).headD "")) (splitWhitespace raw) (trim raw)

instance (U : Unicode) (raw : String) : Decidable (SpacedOnce U raw) :=
  inferInstanceAs (Decidable (SpacedFor _ _ _))

/-! ### What the parts are used for -/

/-- A command word with white space in it is not known. -/
theorem slashCommand_of_isWhitespace {cmd : String} (h : cmd.toList.any isWhitespace)
    (parts : List String) : slashCommand cmd parts = .unknown cmd := by
  have hne : ∀ word : String, word.toList.any isWhitespace = false → cmd ≠ word := by
    rintro word hword rfl
    exact absurd (h.symm.trans hword) (by decide)
  have hexit : cmd ∉ ["/exit", "/quit", "/q"] := by
    simpa using ⟨hne "/exit" (by decide), hne "/quit" (by decide), hne "/q" (by decide)⟩
  have hhelp : cmd ∉ ["/help", "/h", "/?"] := by
    simpa using ⟨hne "/help" (by decide), hne "/h" (by decide), hne "/?" (by decide)⟩
  have hmembers : cmd ∉ ["/members", "/who"] := by
    simpa using ⟨hne "/members" (by decide), hne "/who" (by decide)⟩
  have halias : cmd ∉ ["/alias", "/nick"] := by
    simpa using ⟨hne "/alias" (by decide), hne "/nick" (by decide)⟩
  rw [slashCommand, if_neg hexit, if_neg hhelp, if_neg (hne "/status" (by decide)), if_neg hmembers,
    if_neg (hne "/invite" (by decide)), if_neg (hne "/kick" (by decide)), if_neg halias]

/-- With an argument, only an unknown command is unknown. -/
theorem eq_of_slashCommand_eq_unknown {cmd part argument text : String} {rest : List String}
    (h : slashCommand cmd (part :: argument :: rest) = .unknown text) : text = cmd := by
  unfold slashCommand at h
  split_ifs at h <;> cases h
  rfl

theorem slashCommand_invite (part argument : String) (rest : List String) :
    slashCommand "/invite" (part :: argument :: rest) = .invite argument rest.head? := by
  rw [List.head?_eq_getElem?]
  rfl

/-- The commands with one argument. -/
theorem slashCommand_one {cmd : String} (h : cmd ∈ ["/kick", "/alias", "/nick"]) :
    ∃ make : String → SlashCommand, Function.Injective make ∧
      (∀ argument, (Input.command (make argument)).arguments = [argument]) ∧
      ∀ part argument rest, slashCommand cmd (part :: argument :: rest) = make argument := by
  simp only [List.mem_cons, List.not_mem_nil, or_false] at h
  rcases h with rfl | rfl | rfl
  · exact ⟨.kick, fun _ _ => SlashCommand.kick.inj, fun _ => rfl, fun _ _ _ => rfl⟩
  · exact ⟨.«alias», fun _ _ => SlashCommand.alias.inj, fun _ => rfl, fun _ _ _ => rfl⟩
  · exact ⟨.«alias», fun _ _ => SlashCommand.alias.inj, fun _ => rfl, fun _ _ _ => rfl⟩

/-- The commands without arguments, and those that are not known. -/
theorem slashCommand_none {cmd : String} (hinvite : cmd ≠ "/invite")
    (hone : cmd ∉ ["/kick", "/alias", "/nick"]) :
    ∃ result, (Input.command result).arguments = [] ∧ ∀ parts, slashCommand cmd parts = result := by
  simp only [List.mem_cons, List.not_mem_nil, or_false, not_or] at hone
  refine ⟨slashCommand cmd [], ?_, fun parts => ?_⟩
  · unfold slashCommand
    split_ifs <;> simp_all [Input.arguments]
  · simp [slashCommand, hinvite, hone]

/-- **What the parts are used for**: `/invite` has the argument and the rest, the others that take one
have the argument. -/
theorem slashCommand_eq_iff {cmd part argument argument' : String} {rest rest' : List String} :
    slashCommand cmd (part :: argument :: rest) = slashCommand cmd (part :: argument' :: rest') ↔
      (cmd = "/invite" → argument = argument' ∧ rest.head? = rest'.head?) ∧
        (cmd ∈ ["/kick", "/alias", "/nick"] → argument = argument') := by
  by_cases hinvite : cmd = "/invite"
  · subst hinvite
    rw [slashCommand_invite, slashCommand_invite, SlashCommand.invite.injEq,
      and_iff_left (fun h => absurd h (by decide)), imp_iff_right rfl]
  · rw [and_iff_right fun h => absurd h hinvite]
    by_cases hone : cmd ∈ ["/kick", "/alias", "/nick"]
    · obtain ⟨make, hinj, -, hmake⟩ := slashCommand_one hone
      rw [imp_iff_right hone, hmake, hmake, hinj.eq_iff]
    · obtain ⟨result, -, hresult⟩ := slashCommand_none hinvite hone
      rw [hresult, hresult]
      exact iff_of_true rfl fun h => absurd h hone

/-- The arguments that a command takes from the parts. -/
theorem arguments_slashCommand (cmd part argument : String) (rest : List String) :
    (Input.command (slashCommand cmd (part :: argument :: rest))).arguments =
      if cmd = "/invite" then argument :: rest.head?.toList
      else if cmd ∈ ["/kick", "/alias", "/nick"] then [argument]
      else [] := by
  split_ifs with hinvite hone
  · rw [hinvite, slashCommand_invite]
    rfl
  · obtain ⟨make, -, harg, hmake⟩ := slashCommand_one hone
    rw [hmake, harg]
  · obtain ⟨result, harg, hresult⟩ := slashCommand_none hinvite hone
    rw [hresult, harg]

/-- Without a part for an argument there is none. -/
theorem arguments_slashCommand_singleton (cmd part : String) :
    (Input.command (slashCommand cmd [part])).arguments = [] := by
  unfold slashCommand
  split_ifs <;> rfl

/-! ### Command lines -/

/-- The command of a line, cut at single spaces. -/
def commandOf (U : Unicode) (line : List Char) : SlashCommand :=
  slashCommand (toLowercase U (String.ofList (line.takeWhile (· ≠ ' '))))
    ((Words.splitn ' ' 3 line).map String.ofList)

/-- A line that begins with a slash is a command. -/
theorem parseInput_of_slash (U : Unicode) {raw : String} {rest : List Char}
    (h : (trim raw).toList = '/' :: rest) :
    parseInput U raw = .command (commandOf U (trim raw).toList) := by
  have hne : trim raw ≠ "" := by
    intro hempty
    rw [hempty] at h
    cases h
  have hslash : startsWith (trim raw) "/" = true := by
    rw [startsWith, h]
    rfl
  have hhead : ((Words.splitn ' ' 3 (trim raw).toList).map String.ofList).headD "" =
      String.ofList ((trim raw).toList.takeWhile (· ≠ ' ')) := by
    rw [List.headD_eq_head?_getD, List.head?_map, Words.head?_splitn]
    rfl
  unfold parseInput
  dsimp only
  rw [if_neg hne, hslash, hhead]
  rfl

/-- A command and its arguments. -/
theorem commandOf_cons (U : Unicode) {word : List Char} (hword : ' ' ∉ word) (line : List Char) :
    ∃ argument rest, Words.splitn ' ' 2 line = argument :: rest ∧
      commandOf U (word ++ ' ' :: line) =
        slashCommand (toLowercase U (String.ofList word))
          (String.ofList word :: String.ofList argument :: rest.map String.ofList) := by
  obtain ⟨argument, rest, hsplit⟩ := List.exists_cons_of_ne_nil (Words.splitn_ne_nil ' ' 1 line)
  refine ⟨argument, rest, hsplit, ?_⟩
  have hfirst : (word ++ ' ' :: line).takeWhile (· ≠ ' ') = word :=
    (Words.takeWhile_eq_iff hword).2 (Or.inr ⟨line, by simp⟩)
  rw [commandOf, hfirst, Words.splitn_append_cons hword, hsplit]
  rfl

/-- A line is all there is, or a space follows it. -/
def StartsOff (line start : List Char) : Prop := line = start ∨ start ++ [' '] <+: line

theorem startsOff_append {line start : List Char} (word : List Char) :
    StartsOff (word ++ ' ' :: line) (word ++ ' ' :: start) ↔ StartsOff line start := by
  refine or_congr ?_ ?_
  · rw [List.append_cancel_left_eq, List.cons.injEq, and_iff_right rfl]
  · rw [List.append_assoc, List.prefix_append_right_inj, List.cons_append, List.cons_prefix_cons,
      and_iff_right rfl]

theorem startsOff_cons_iff {word right : List Char} {b : Char} :
    StartsOff (word ++ b :: right) word ↔ b = ' ' := by
  constructor
  · rintro (h | h)
    · exact absurd (List.append_right_eq_self.1 h) (List.cons_ne_nil b right)
    · rw [List.prefix_append_right_inj, List.cons_prefix_cons] at h
      exact h.1.symm
  · rintro rfl
    exact Or.inr ⟨right, by simp⟩

/-- Joined tokens start off with the first one. -/
theorem startsOff_join (token : List Char) (tokens : List (List Char)) :
    StartsOff (Words.join ' ' (token :: tokens)) token := by
  by_cases hne : tokens = []
  · rw [hne, Words.join_singleton]
    exact Or.inl rfl
  · rw [Words.join_cons token hne]
    exact startsOff_cons_iff.2 rfl

/-- The first piece is the token that the line starts off with. -/
theorem piece_eq_iff {line piece token : List Char} {rest : List (List Char)}
    (h : Words.splitn ' ' 2 line = piece :: rest) (htoken : ' ' ∉ token) :
    piece = token ↔ StartsOff line token := by
  have hhead := Words.head?_splitn ' ' 0 line
  rw [h, List.head?_cons, Option.some_inj] at hhead
  rw [hhead]
  exact Words.takeWhile_eq_iff htoken

/-- A line whose first token is not followed by a space has an unknown command. -/
theorem commandOf_ne {U : Unicode} {word right : List Char} {b : Char} (hword : ' ' ∉ word)
    (hsolid : ∀ c ∈ word, isWhitespace c = false) (hb : isWhitespace b = true) (hspace : b ≠ ' ')
    {argument : String} {rest : List String} :
    commandOf U (word ++ b :: right) ≠
      slashCommand (toLowercase U (String.ofList word)) (String.ofList word :: argument :: rest) := by
  have hne := Words.forall_ne hword
  have hblank : (toLowercase U (String.ofList ((word ++ b :: right).takeWhile (· ≠ ' ')))).toList.any
      isWhitespace = true := by
    rw [any_isWhitespace_toLowercase, String.toList_ofList, List.takeWhile_append_of_pos hne]
    simp [hspace, hb]
  have hnone : (toLowercase U (String.ofList word)).toList.any isWhitespace = false := by
    rw [any_isWhitespace_toLowercase, String.toList_ofList]
    simpa using hsolid
  intro h
  rw [commandOf, slashCommand_of_isWhitespace hblank] at h
  have heq := eq_of_slashCommand_eq_unknown h.symm
  rw [heq, hnone] at hblank
  cases hblank

/-- There is no space in a token. -/
theorem notMem_of_solid {tokens : List (List Char)}
    (h : ∀ w ∈ tokens, w ≠ [] ∧ ∀ c ∈ w, isWhitespace c = false) : ∀ w ∈ tokens, ' ' ∉ w :=
  fun w hw hmem => absurd ((h w hw).2 ' ' hmem) (by decide)

/-- **When a line is read like its tokens.** -/
theorem commandOf_eq_iff (U : Unicode) {line word : List Char} {tokens : List (List Char)}
    (htight : Words.Tight isWhitespace line) (hwords : Words.words isWhitespace line = word :: tokens) :
    commandOf U line = commandOf U (Words.join ' ' (word :: tokens)) ↔
      StartsOff line word ∧
        (toLowercase U (String.ofList word) = "/invite" → line = Words.join ' ' (word :: tokens)) ∧
          (toLowercase U (String.ofList word) ∈ ["/kick", "/alias", "/nick"] →
            StartsOff line (Words.join ' ' ((word :: tokens).take 2))) := by
  have hsolid : ∀ w ∈ word :: tokens, w ≠ [] ∧ ∀ c ∈ w, isWhitespace c = false := fun w hw =>
    Words.of_mem_words (hwords ▸ hw)
  have hspace := notMem_of_solid hsolid
  rw [List.forall_mem_cons] at hsolid hspace
  obtain ⟨rfl, rfl⟩ | ⟨b, right, hb, rfl, hright, hne⟩ := htight.cases_words hwords
  · rw [Words.join_singleton]
    refine iff_of_true rfl ⟨Or.inl rfl, fun _ => rfl, fun _ => Or.inl ?_⟩
    exact (Words.join_singleton ' ' line).symm
  · rw [Words.join_cons word hne]
    obtain ⟨token, tokens, rfl⟩ := List.exists_cons_of_ne_nil hne
    have htoken := hspace.2 token List.mem_cons_self
    obtain ⟨piece', rest', hpieces', hjoined⟩ :=
      commandOf_cons U hspace.1 (Words.join ' ' (token :: tokens))
    rw [startsOff_cons_iff, hjoined]
    by_cases hb' : b = ' '
    · subst hb'
      obtain ⟨piece, rest, hpieces, hline⟩ := commandOf_cons U hspace.1 right
      obtain rfl := (piece_eq_iff hpieces' htoken).2 (startsOff_join token tokens)
      have hhead : (rest.map String.ofList).head? = (rest'.map String.ofList).head? ↔
          rest.head? = rest'.head? := by
        rw [List.head?_map, List.head?_map]
        exact (Option.map_injective fun _ _ => String.ofList_injective).eq_iff
      have hall : word ++ ' ' :: right = word ++ ' ' :: Words.join ' ' (piece' :: tokens) ↔
          right = Words.join ' ' (piece' :: tokens) := by
        rw [List.append_cancel_left_eq, List.cons.injEq, and_iff_right rfl]
      have htwo : Words.join ' ' ((word :: piece' :: tokens).take 2) = word ++ ' ' :: piece' := by
        rw [List.take_succ_cons, List.take_succ_cons, List.take_zero,
          Words.join_cons word (List.cons_ne_nil _ _), Words.join_singleton]
      rw [hline, slashCommand_eq_iff, hhead, String.ofList_inj, Words.splitn_two_eq_iff hpieces hpieces',
        piece_eq_iff hpieces htoken, and_iff_right rfl, hall, htwo, startsOff_append]
    · refine iff_of_false (commandOf_ne hspace.1 hsolid.1.2 hb hb') fun h => hb' h.1

theorem StartsOff.trans {line start word : List Char} (h : StartsOff line start)
    (hstart : StartsOff start word) : StartsOff line word := by
  obtain rfl | h := h
  · exact hstart
  · obtain rfl | hstart := hstart
    · exact Or.inr h
    · exact Or.inr ((hstart.trans (List.prefix_append start [' '])).trans h)

/-! ### Lines and tokens -/

theorem toList_trim (text : String) : (trim text).toList = Words.strip isWhitespace text.toList := by
  rw [trim, String.toList_ofList, Words.strip]

theorem joinTokens_map_ofList (tokens : List (List Char)) :
    joinTokens (tokens.map String.ofList) = String.ofList (Words.join ' ' tokens) := by
  rw [joinTokens, List.map_map]
  congr 2
  exact List.map_id'' (fun _ => String.toList_ofList) tokens

theorem begins_iff (text : String) (tokens : List (List Char)) :
    Begins text (joinTokens (tokens.map String.ofList)) ↔
      StartsOff text.toList (Words.join ' ' tokens) := by
  rw [joinTokens_map_ofList]
  refine or_congr ?_ ?_
  · rw [← String.toList_inj, String.toList_ofList]
  · rw [startsWith, List.isPrefixOf_iff_prefix, String.toList_append, String.toList_ofList]
    rfl

/-- What is spaced once, said of the letters of a line. -/
theorem spacedOnce_iff {U : Unicode} {raw : String} {word : List Char} {tokens : List (List Char)}
    (hwords : Words.words isWhitespace raw.toList = word :: tokens) :
    SpacedOnce U raw ↔ StartsOff (trim raw).toList word ∧
      (toLowercase U (String.ofList word) = "/invite" →
        (trim raw).toList = Words.join ' ' (word :: tokens)) ∧
        (toLowercase U (String.ofList word) ∈ ["/kick", "/alias", "/nick"] →
          StartsOff (trim raw).toList (Words.join ' ' ((word :: tokens).take 2))) := by
  have htokens : splitWhitespace raw = (word :: tokens).map String.ofList := by
    rw [splitWhitespace, hwords]
  have hcmd : (splitWhitespace raw).headD "" = String.ofList word := by
    rw [htokens]
    rfl
  rw [SpacedOnce, SpacedFor, hcmd]
  by_cases hinvite : toLowercase U (String.ofList word) = "/invite"
  · have hone : toLowercase U (String.ofList word) ∉ ["/kick", "/alias", "/nick"] := by
      rw [hinvite]
      decide
    rw [if_pos hinvite, imp_iff_right hinvite, htokens, joinTokens_map_ofList, ← String.toList_inj,
      String.toList_ofList, and_iff_left fun h => absurd h hone]
    exact (and_iff_right_of_imp fun h => h ▸ startsOff_join word tokens).symm
  · rw [if_neg hinvite, and_iff_right fun h => absurd h hinvite, htokens, ← List.map_take, begins_iff]
    by_cases hone : toLowercase U (String.ofList word) ∈ ["/kick", "/alias", "/nick"]
    · rw [if_pos hone, imp_iff_right hone]
      refine (and_iff_right_of_imp fun h => h.trans ?_).symm
      rw [List.take_succ_cons]
      exact startsOff_join word _
    · rw [if_neg hone, and_iff_left fun h => absurd h hone, List.take_succ_cons, List.take_zero,
        Words.join_singleton]

/-- A text that begins like a tight one is trimmed to a line that begins with its first token. -/
theorem parseInput_of_words (U : Unicode) {raw : String} {word : List Char} {tokens : List (List Char)}
    (hwords : Words.words isWhitespace raw.toList = word :: tokens) (hslash : word.head? = some '/') :
    Words.Tight isWhitespace (trim raw).toList ∧
      Words.words isWhitespace (trim raw).toList = word :: tokens ∧
      parseInput U raw = .command (commandOf U (trim raw).toList) := by
  have hline : Words.words isWhitespace (trim raw).toList = word :: tokens := by
    rw [toList_trim, Words.words_strip, hwords]
  have hne : (trim raw).toList ≠ [] := by
    intro hnil
    rw [hnil, Words.words_nil] at hline
    cases hline
  have htight : Words.Tight isWhitespace (trim raw).toList := by
    rw [toList_trim] at hne ⊢
    exact Words.tight_strip hne
  obtain ⟨rest, rfl⟩ := List.head?_eq_some_iff.1 hslash
  have hfirst : ∃ letters, (trim raw).toList = '/' :: letters := by
    obtain ⟨h, -⟩ | ⟨b, right, -, h, -⟩ := htight.cases_words hline
    · exact ⟨_, h⟩
    · exact ⟨_, h⟩
  obtain ⟨letters, hletters⟩ := hfirst
  exact ⟨htight, hline, parseInput_of_slash U hletters⟩

/-- The line of the joined tokens. -/
theorem parseInput_joinTokens (U : Unicode) {raw : String} {word : List Char} {tokens : List (List Char)}
    (hwords : Words.words isWhitespace raw.toList = word :: tokens) (hslash : word.head? = some '/') :
    parseInput U (joinTokens (splitWhitespace raw)) =
      .command (commandOf U (Words.join ' ' (word :: tokens))) := by
  have htight : Words.Tight isWhitespace (Words.join ' ' (word :: tokens)) :=
    Words.tight_join (List.cons_ne_nil _ _) fun w hw => Words.of_mem_words (hwords ▸ hw)
  have htrim : (trim (joinTokens (splitWhitespace raw))).toList = Words.join ' ' (word :: tokens) := by
    rw [toList_trim, splitWhitespace, hwords, joinTokens_map_ofList, String.toList_ofList,
      htight.strip_eq]
  obtain ⟨rest, rfl⟩ := List.head?_eq_some_iff.1 hslash
  have hfirst : ∃ letters, Words.join ' ' (('/' :: rest) :: tokens) = '/' :: letters := by
    obtain h | ⟨letters, h⟩ := startsOff_join ('/' :: rest) tokens
    · exact ⟨_, h⟩
    · exact ⟨_, h.symm⟩
  obtain ⟨letters, hletters⟩ := hfirst
  rw [parseInput_of_slash U (htrim.trans hletters), htrim]

/-- **When a line is read like its tokens.** -/
theorem parseInput_eq_iff (U : Unicode) {raw : String} {word : List Char} {tokens : List (List Char)}
    (hwords : Words.words isWhitespace raw.toList = word :: tokens) (hslash : word.head? = some '/') :
    parseInput U raw = parseInput U (joinTokens (splitWhitespace raw)) ↔ SpacedOnce U raw := by
  obtain ⟨htight, hline, hparse⟩ := parseInput_of_words U hwords hslash
  rw [hparse, parseInput_joinTokens U hwords hslash, Input.command.injEq, commandOf_eq_iff U htight hline,
    spacedOnce_iff hwords]

/-- **The arguments of a line that is spaced once**: the second token, and for `/invite` the tokens after
it. -/
theorem arguments_join (U : Unicode) {word : List Char} {tokens : List (List Char)}
    (hspace : ∀ w ∈ word :: tokens, ' ' ∉ w) :
    (Input.command (commandOf U (Words.join ' ' (word :: tokens)))).arguments =
      match tokens with
      | [] => []
      | token :: rest =>
        if toLowercase U (String.ofList word) = "/invite" then
          String.ofList token :: (if rest = [] then [] else [String.ofList (Words.join ' ' rest)])
        else if toLowercase U (String.ofList word) ∈ ["/kick", "/alias", "/nick"] then
          [String.ofList token]
        else [] := by
  rw [List.forall_mem_cons] at hspace
  cases tokens with
  | nil =>
      rw [Words.join_singleton, commandOf, Words.splitn_of_notMem hspace.1]
      exact arguments_slashCommand_singleton _ _
  | cons token rest =>
      rw [List.forall_mem_cons] at hspace
      obtain ⟨piece, pieces, hpieces, hline⟩ :=
        commandOf_cons U hspace.1 (Words.join ' ' (token :: rest))
      have hsplit : Words.splitn ' ' 2 (Words.join ' ' (token :: rest)) =
          token :: (if rest = [] then [] else [Words.join ' ' rest]) := by
        split_ifs with hrest
        · rw [hrest, Words.join_singleton, Words.splitn_of_notMem hspace.2.1]
        · rw [Words.join_cons token hrest, Words.splitn_append_cons hspace.2.1]
          rfl
      obtain ⟨rfl, rfl⟩ := List.cons.inj (hpieces.symm.trans hsplit)
      rw [Words.join_cons word (List.cons_ne_nil _ _), hline, arguments_slashCommand]
      congr 2
      split_ifs <;> rfl

theorem ofList_ne_empty {letters : List Char} (h : letters ≠ []) : String.ofList letters ≠ "" := by
  intro hempty
  have hnil := congrArg String.toList hempty
  rw [String.toList_ofList] at hnil
  exact h hnil

/-- The joined tokens give no empty argument. -/
theorem ne_empty_of_mem_arguments {U : Unicode} {word : List Char} {tokens : List (List Char)}
    (hword : ∀ w ∈ word :: tokens, w ≠ [] ∧ ∀ c ∈ w, isWhitespace c = false) {argument : String}
    (h : argument ∈ (Input.command (commandOf U (Words.join ' ' (word :: tokens)))).arguments) :
    argument ≠ "" := by
  rw [arguments_join U (notMem_of_solid hword)] at h
  cases tokens with
  | nil => cases h
  | cons token rest =>
      have hone : argument = String.ofList token ∨
          rest ≠ [] ∧ argument = String.ofList (Words.join ' ' rest) := by
        dsimp only at h
        split_ifs at h with hinvite hnil hone
        · exact Or.inl (List.mem_singleton.1 h)
        · exact (List.mem_cons.1 h).imp_right fun h => ⟨hnil, List.mem_singleton.1 h⟩
        · exact Or.inl (List.mem_singleton.1 h)
        · cases h
      rw [List.forall_mem_cons, List.forall_mem_cons] at hword
      obtain rfl | ⟨hne, rfl⟩ := hone
      · exact ofList_ne_empty hword.2.1.1
      · exact ofList_ne_empty (Words.tight_join hne hword.2.2).ne_nil

/-- The second token is the argument of a command that takes one. -/
theorem head?_arguments {U : Unicode} {word token : List Char} {tokens : List (List Char)}
    (hspace : ∀ w ∈ word :: token :: tokens, ' ' ∉ w)
    (hcmd : toLowercase U (String.ofList word) ∈ ["/invite", "/kick", "/alias", "/nick"]) :
    (Input.command (commandOf U (Words.join ' ' (word :: token :: tokens)))).arguments.head? =
      some (String.ofList token) := by
  rw [arguments_join U hspace]
  dsimp only
  rcases List.mem_cons.1 hcmd with hinvite | hone
  · rw [if_pos hinvite]
    rfl
  · have hinvite : toLowercase U (String.ofList word) ≠ "/invite" := by
      intro h
      rw [h] at hone
      exact absurd hone (by decide)
    rw [if_neg hinvite, if_pos hone]
    rfl

/-- The tokens after it are the role of an invite, which begins with the first of them. -/
theorem arguments_role {U : Unicode} {word token role : List Char} {tokens : List (List Char)}
    (hspace : ∀ w ∈ word :: token :: role :: tokens, ' ' ∉ w)
    (hcmd : toLowercase U (String.ofList word) = "/invite") :
    ∃ text, (Input.command (commandOf U (Words.join ' ' (word :: token :: role :: tokens)))).arguments =
      [String.ofList token, text] ∧ startsWith text (String.ofList role) := by
  refine ⟨String.ofList (Words.join ' ' (role :: tokens)), ?_, ?_⟩
  · rw [arguments_join U hspace]
    dsimp only
    rw [if_pos hcmd, if_neg (List.cons_ne_nil _ _)]
  · rw [startsWith, List.isPrefixOf_iff_prefix, String.toList_ofList, String.toList_ofList]
    obtain h | h := startsOff_join role tokens
    · rw [h]
    · exact (List.prefix_append role [' ']).trans h

/-- A line that is read like its tokens has their arguments. -/
theorem byTokens_of_same {U : Unicode} {raw : String} {word : List Char} {tokens : List (List Char)}
    (hwords : Words.words isWhitespace raw.toList = word :: tokens) (hslash : word.head? = some '/')
    (hsame : parseInput U raw = parseInput U (joinTokens (splitWhitespace raw))) : ByTokens U raw := by
  have hword : ∀ w ∈ word :: tokens, w ≠ [] ∧ ∀ c ∈ w, isWhitespace c = false := fun w hw =>
    Words.of_mem_words (hwords ▸ hw)
  have htokens : splitWhitespace raw = String.ofList word :: tokens.map String.ofList := by
    rw [splitWhitespace, hwords, List.map_cons]
  have hparse := hsame.trans (parseInput_joinTokens U hwords hslash)
  refine ⟨hsame, ?_, ?_, ?_⟩ <;> rw [hparse]
  · exact fun argument hmem => ne_empty_of_mem_arguments hword hmem
  · intro t₀ t₁ ts heq hcmd
    obtain ⟨rfl, hts⟩ := List.cons.inj (htokens.symm.trans heq)
    obtain ⟨token, rest, rfl, rfl, -⟩ := List.map_eq_cons_iff.1 hts
    exact head?_arguments (notMem_of_solid hword) hcmd
  · intro t₀ t₁ t₂ ts heq hcmd
    obtain ⟨rfl, hts⟩ := List.cons.inj (htokens.symm.trans heq)
    obtain ⟨token, rest, rfl, rfl, hrest⟩ := List.map_eq_cons_iff.1 hts
    obtain ⟨role, rest, rfl, rfl, -⟩ := List.map_eq_cons_iff.1 hrest
    exact arguments_role (notMem_of_solid hword) hcmd

/-- **Lines are parsed by tokens exactly if they are spaced once.** -/
theorem byTokens_iff (U : Unicode) {raw t₀ : String} {ts : List String}
    (htokens : splitWhitespace raw = t₀ :: ts) (hslash : startsWith t₀ "/") :
    ByTokens U raw ↔ SpacedOnce U raw := by
  obtain ⟨word, tokens, hwords, rfl, -⟩ := List.map_eq_cons_iff.1 htokens
  have hfirst : word.head? = some '/' := by
    obtain ⟨rest, hrest⟩ := List.isPrefixOf_iff_prefix.1 hslash
    rw [← String.toList_ofList (l := word), ← hrest]
    rfl
  rw [← parseInput_eq_iff U hwords hfirst]
  exact ⟨ByTokens.same, byTokens_of_same hwords hfirst⟩

/-! ### Two lines -/

/-- What Unicode says about the letters of ASCII. -/
def ascii : Unicode where
  toLower c := [if 'A' ≤ c ∧ c ≤ 'Z' then Char.ofNat (c.toNat + 32) else c]
  cased c := c.isAlpha
  caseIgnorable c := [39, 46, 58, 94, 95, 96].contains c.toNat
  isWhitespace_toLower c := by
    have hcapital : ∀ n < 91, 65 ≤ n →
        isWhitespace (Char.ofNat (n + 32)) = isWhitespace (Char.ofNat n) := by decide
    rw [List.any_cons, List.any_nil, Bool.or_false]
    split_ifs with hc
    · have hlow : 65 ≤ c.toNat := hc.1
      have hhigh : c.toNat ≤ 90 := hc.2
      rw [hcapital c.toNat (by omega) hlow, Char.ofNat_toNat]
    · rfl

/-- A command with a single space is parsed by tokens, whatever is around it. -/
theorem byTokens_kick : ByTokens ascii " /KICK 4A7B3C2D\t" := by
  have htokens : splitWhitespace " /KICK 4A7B3C2D\t" = ["/KICK", "4A7B3C2D"] := by decide
  exact (byTokens_iff ascii htokens rfl).2 (by decide)

/-- **A second space makes an empty argument.** -/
theorem not_byTokens_kick : parseInput ascii "/kick  4A7B3C2D" = .command (.kick "") ∧
    ¬ ByTokens ascii "/kick  4A7B3C2D" := by
  have hempty : parseInput ascii "/kick  4A7B3C2D" = .command (.kick "") := by decide
  refine ⟨hempty, fun h => h.nonempty "" ?_ rfl⟩
  rw [hempty]
  exact List.mem_singleton_self ""

end Sanctum
