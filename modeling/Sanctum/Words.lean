/-
**Words of a text.**

A text is a list of letters, some of which are blank.  Its words are the runs of letters between the
blanks.  Two other ways to take a text apart are compared with that: cutting at one separator for a
bounded number of times, and taking the blanks off the two ends.

Main definitions:

* `Words.words` — the words of a text;
* `Words.join` — words with one separator between them;
* `Words.splitn` — cutting at a separator, into so many pieces at most;
* `Words.strip`, `Words.Tight` — taking the blanks off the ends, and a text without any there.

Main results:

* `Words.words_append_cons` — a blank separates words;
* `Words.words_strip` — the blanks at the ends do not matter;
* `Words.Tight.cases_words` — **a tight text begins with its first word, and then with a blank**;
* `Words.join_splitn` — the pieces of a text make up the text;
* `Words.takeWhile_eq_iff` — the first piece of a text.
-/

import Mathlib

set_option relaxedAutoImplicit false
set_option autoImplicit false

namespace Words

variable {α : Type} {blank : α → Bool} {text : List α}

/-! ### Words -/

/-- **The words of a text**, the runs of letters between the blanks. -/
def words (blank : α → Bool) (text : List α) : List (List α) := (text.splitOnP blank).filter (· ≠ [])

@[simp] theorem words_nil : words blank ([] : List α) = [] := by
  simp [words]

/-- **A blank separates words.** -/
theorem words_append_cons (left right : List α) {b : α} (hb : blank b) :
    words blank (left ++ b :: right) = words blank left ++ words blank right := by
  rw [words, List.splitOnP_append_cons left right hb, List.filter_append]
  rfl

theorem words_cons_blank {b : α} (hb : blank b) (text : List α) :
    words blank (b :: text) = words blank text := by
  have h := words_append_cons [] text hb
  rwa [words_nil, List.nil_append, List.nil_append] at h

/-- A text without blanks is one word. -/
theorem words_of_solid (hne : text ≠ []) (h : ∀ a ∈ text, blank a = false) :
    words blank text = [text] := by
  rw [words, List.splitOnP_eq_singleton h, List.filter_singleton]
  simp [hne]

/-- There are no words if all is blank. -/
theorem words_eq_nil_iff : words blank text = [] ↔ ∀ a ∈ text, blank a = true := by
  induction text with
  | nil => simp
  | cons a text ih =>
      rw [List.forall_mem_cons]
      cases ha : blank a with
      | true => rw [words_cons_blank ha, ih, and_iff_right rfl]
      | false =>
          refine iff_of_false (fun h => ?_) fun h => absurd h.1 (by decide)
          obtain ⟨word, rest, hsplit⟩ := List.exists_cons_of_ne_nil (List.splitOnP_ne_nil blank text)
          rw [words, List.splitOnP_cons_eq_if_modifyHead, ha, hsplit] at h
          simp at h

/-- A word is not empty, and has no blank in it. -/
theorem of_mem_words {word : List α} (h : word ∈ words blank text) :
    word ≠ [] ∧ ∀ a ∈ word, blank a = false := by
  refine ⟨by simpa using List.of_mem_filter h, ?_⟩
  have hmem := List.mem_of_mem_filter h
  clear h
  induction text generalizing word with
  | nil =>
      rw [List.splitOnP_nil, List.mem_singleton] at hmem
      simp [hmem]
  | cons a text ih =>
      obtain ⟨first, rest, hsplit⟩ := List.exists_cons_of_ne_nil (List.splitOnP_ne_nil blank text)
      rw [hsplit] at ih
      rw [List.splitOnP_cons_eq_if_modifyHead, hsplit] at hmem
      split_ifs at hmem with ha
      · rcases List.mem_cons.1 hmem with rfl | hmem
        · exact fun _ h => absurd h List.not_mem_nil
        · exact ih hmem
      · rw [List.modifyHead_cons, List.mem_cons] at hmem
        rcases hmem with rfl | hmem
        · rw [List.forall_mem_cons]
          exact ⟨Bool.eq_false_of_not_eq_true ha, ih List.mem_cons_self⟩
        · exact ih (List.mem_cons_of_mem _ hmem)

/-! ### The ends of a text -/

/-- A text without the blanks at its ends. -/
def strip (blank : α → Bool) (text : List α) : List α :=
  ((text.dropWhile blank).reverse.dropWhile blank).reverse

theorem words_append_blanks {blanks : List α} (h : ∀ b ∈ blanks, blank b = true) :
    words blank (text ++ blanks) = words blank text := by
  cases blanks with
  | nil => rw [List.append_nil]
  | cons b blanks =>
      rw [List.forall_mem_cons] at h
      rw [words_append_cons _ _ h.1, words_eq_nil_iff.2 h.2, List.append_nil]

theorem words_blanks_append {blanks : List α} (h : ∀ b ∈ blanks, blank b = true) :
    words blank (blanks ++ text) = words blank text := by
  induction blanks with
  | nil => rfl
  | cons b blanks ih =>
      rw [List.forall_mem_cons] at h
      rw [List.cons_append, words_cons_blank h.1, ih h.2]

/-- A text is what is left of it, between the blanks at its ends. -/
theorem exists_append_strip (blank : α → Bool) (text : List α) :
    ∃ front back, text = front ++ strip blank text ++ back ∧
      (∀ b ∈ front, blank b = true) ∧ ∀ b ∈ back, blank b = true := by
  refine ⟨text.takeWhile blank, ((text.dropWhile blank).reverse.takeWhile blank).reverse, ?_,
    fun b hb => List.mem_takeWhile_imp hb, fun b hb => List.mem_takeWhile_imp (List.mem_reverse.1 hb)⟩
  rw [strip, List.append_assoc, ← List.reverse_append, List.takeWhile_append_dropWhile,
    List.reverse_reverse, List.takeWhile_append_dropWhile]

/-- **The blanks at the ends do not matter.** -/
theorem words_strip (text : List α) : words blank (strip blank text) = words blank text := by
  obtain ⟨front, back, htext, hfront, hback⟩ := exists_append_strip blank text
  rw [htext, words_append_blanks hback, words_blanks_append hfront, ← htext]

/-- A text with a letter at each end. -/
structure Tight (blank : α → Bool) (text : List α) : Prop where
  head : ∃ a ∈ text.head?, blank a = false
  last : ∃ a ∈ text.getLast?, blank a = false

theorem Tight.ne_nil (h : Tight blank text) : text ≠ [] := by
  rintro rfl
  obtain ⟨a, ha, -⟩ := h.head
  cases ha

theorem tight_of_solid (hne : text ≠ []) (h : ∀ a ∈ text, blank a = false) : Tight blank text :=
  ⟨⟨_, List.head?_eq_some_head hne, h _ (List.head_mem hne)⟩,
    ⟨_, List.getLast?_eq_some_getLast hne, h _ (List.getLast_mem hne)⟩⟩

theorem Tight.append {left right : List α} (hl : Tight blank left) (hr : Tight blank right)
    (middle : List α) : Tight blank (left ++ (middle ++ right)) := by
  obtain ⟨a, ha, hsolid⟩ := hl.head
  obtain ⟨z, hz, hsolid'⟩ := hr.last
  refine ⟨⟨a, ?_, hsolid⟩, ⟨z, ?_, hsolid'⟩⟩
  · rw [Option.mem_def] at ha ⊢
    rw [List.head?_append, ha]
    rfl
  · rw [Option.mem_def] at hz ⊢
    rw [List.getLast?_append, List.getLast?_append, hz]
    rfl

theorem dropWhile_of_head {a : α} (ha : a ∈ text.head?) (hsolid : blank a = false) :
    text.dropWhile blank = text := by
  cases text with
  | nil => cases ha
  | cons a' text =>
      obtain rfl := Option.some_inj.1 ha
      rw [List.dropWhile_cons_of_neg (by simp [hsolid])]

/-- Nothing is taken off a tight text. -/
theorem Tight.strip_eq (h : Tight blank text) : strip blank text = text := by
  obtain ⟨a, ha, hsolid⟩ := h.head
  obtain ⟨z, hz, hsolid'⟩ := h.last
  rw [strip, dropWhile_of_head ha hsolid, dropWhile_of_head (by rwa [List.head?_reverse]) hsolid',
    List.reverse_reverse]

theorem of_mem_head?_dropWhile {a : α} (text : List α) (h : a ∈ (text.dropWhile blank).head?) :
    blank a = false := by
  have hnot := List.head?_dropWhile_not blank text
  rw [Option.mem_def.1 h] at hnot
  exact hnot

theorem of_dropWhile_eq_cons {b : α} {rest : List α} (h : text.dropWhile blank = b :: rest) :
    blank b = false :=
  of_mem_head?_dropWhile text (by rw [h]; rfl)

/-- What is left is tight, unless nothing is. -/
theorem tight_strip (hne : strip blank text ≠ []) : Tight blank (strip blank text) := by
  obtain ⟨back, hback⟩ : strip blank text <+: text.dropWhile blank := by
    rw [← (text.dropWhile blank).reverse_reverse, strip]
    exact List.reverse_prefix.2 (List.dropWhile_suffix blank)
  refine ⟨⟨_, List.head?_eq_some_head hne, of_mem_head?_dropWhile text ?_⟩,
    ⟨_, List.getLast?_eq_some_getLast hne, of_mem_head?_dropWhile (text.dropWhile blank).reverse ?_⟩⟩
  · rw [← hback, List.head?_append, List.head?_eq_some_head hne]
    rfl
  · rw [← List.getLast?_reverse]
    exact List.getLast?_eq_some_getLast hne

/-- **A tight text begins with its first word**, and then comes a blank, if anything. -/
theorem Tight.cases_words (h : Tight blank text) {word : List α} {rest : List (List α)}
    (hwords : words blank text = word :: rest) :
    text = word ∧ rest = [] ∨
      ∃ b right, blank b = true ∧ text = word ++ b :: right ∧ words blank right = rest ∧ rest ≠ [] := by
  obtain ⟨a, ha, hsolid⟩ := h.head
  have hfirst : ∀ c ∈ text.takeWhile (!blank ·), blank c = false := fun c hc => by
    simpa using List.mem_takeWhile_imp hc
  have hne : text.takeWhile (!blank ·) ≠ [] := by
    cases text with
    | nil => cases ha
    | cons a' text =>
        obtain rfl := Option.some_inj.1 ha
        simp [hsolid]
  have hsplit := List.takeWhile_append_dropWhile (p := (!blank ·)) (l := text)
  cases hrest : text.dropWhile (!blank ·) with
  | nil =>
      rw [hrest, List.append_nil] at hsplit
      rw [hsplit] at hne hfirst
      obtain ⟨rfl, rfl⟩ := List.cons.inj (hwords.symm.trans (words_of_solid hne hfirst))
      exact Or.inl ⟨rfl, rfl⟩
  | cons b right =>
      have hb : blank b = true := by
        have hnot := of_dropWhile_eq_cons hrest
        simpa using hnot
      rw [hrest] at hsplit
      rw [← hsplit, words_append_cons _ _ hb, words_of_solid hne hfirst] at hwords
      obtain ⟨rfl, rfl⟩ := List.cons.inj hwords
      refine Or.inr ⟨b, right, hb, hsplit.symm, rfl, fun hnil => ?_⟩
      -- the last letter of the text is one of a word
      obtain ⟨z, hz, hsolid'⟩ := h.last
      have hall := words_eq_nil_iff.1 hnil
      have hmem : z ∈ b :: right := by
        rw [← hsplit, List.getLast?_append_of_ne_nil _ (List.cons_ne_nil b right)] at hz
        exact List.mem_of_getLast? hz
      rcases List.mem_cons.1 hmem with rfl | hmem
      · exact absurd (hsolid'.symm.trans hb) (by decide)
      · exact absurd (hsolid'.symm.trans (hall z hmem)) (by decide)

/-! ### Joining and cutting -/

/-- **Words with one separator between them.** -/
def join (sep : α) (texts : List (List α)) : List α := [sep].intercalate texts

@[simp] theorem join_singleton (sep : α) (word : List α) : join sep [word] = word :=
  List.intercalate_singleton

theorem join_cons {sep : α} {rest : List (List α)} (word : List α) (hne : rest ≠ []) :
    join sep (word :: rest) = word ++ sep :: join sep rest := by
  rw [join, List.intercalate_cons_of_ne_nil hne, List.append_assoc]
  rfl

/-- What is joined is tight. -/
theorem tight_join {sep : α} {texts : List (List α)} (hne : texts ≠ [])
    (h : ∀ word ∈ texts, word ≠ [] ∧ ∀ a ∈ word, blank a = false) : Tight blank (join sep texts) := by
  induction texts with
  | nil => exact absurd rfl hne
  | cons word rest ih =>
      rw [List.forall_mem_cons] at h
      have hword := tight_of_solid h.1.1 h.1.2
      by_cases hrest : rest = []
      · rw [hrest, join_singleton]
        exact hword
      · rw [join_cons word hrest]
        exact hword.append (ih hrest h.2) [sep]

variable [DecidableEq α] {sep : α}

/-- **Cutting at a separator**, into so many pieces at most: the last piece is the rest of the text. -/
def splitn (sep : α) : ℕ → List α → List (List α)
  | 0, _ => []
  | 1, text => [text]
  | n + 2, text =>
    match text.dropWhile (· ≠ sep) with
    | [] => [text.takeWhile (· ≠ sep)]
    | _ :: rest => text.takeWhile (· ≠ sep) :: splitn sep (n + 1) rest

/-- A text without the separator. -/
theorem forall_ne {word : List α} (hword : sep ∉ word) :
    ∀ a ∈ word, decide (a ≠ sep) = true := fun _ ha => decide_eq_true fun h => hword (h ▸ ha)

theorem splitn_ne_nil (sep : α) (n : ℕ) (text : List α) : splitn sep (n + 1) text ≠ [] := by
  cases n with
  | zero => exact List.cons_ne_nil _ _
  | succ n =>
      rw [splitn]
      split <;> exact List.cons_ne_nil _ _

/-- The first piece goes up to the separator. -/
theorem head?_splitn (sep : α) (n : ℕ) (text : List α) :
    (splitn sep (n + 2) text).head? = some (text.takeWhile (· ≠ sep)) := by
  rw [splitn]
  split <;> rfl

/-- **The pieces make up the text.** -/
theorem join_splitn (sep : α) (n : ℕ) (text : List α) : join sep (splitn sep (n + 1) text) = text := by
  induction n generalizing text with
  | zero => exact join_singleton sep text
  | succ n ih =>
      have hsplit := List.takeWhile_append_dropWhile (p := (· ≠ sep)) (l := text)
      rw [splitn]
      split
      · next hrest =>
          rw [hrest, List.append_nil] at hsplit
          rw [join_singleton, hsplit]
      · next b rest hrest =>
          have hb := of_dropWhile_eq_cons hrest
          obtain rfl : b = sep := by simpa using hb
          rw [join_cons _ (splitn_ne_nil b n rest), ih, ← hrest, hsplit]

/-- Two pieces say which text they come from. -/
theorem splitn_two_eq_iff {text' piece piece' : List α} {rest rest' : List (List α)}
    (h : splitn sep 2 text = piece :: rest) (h' : splitn sep 2 text' = piece' :: rest') :
    piece = piece' ∧ rest.head? = rest'.head? ↔ text = text' := by
  have hlast : ∀ {text piece : List α} {rest : List (List α)}, splitn sep 2 text = piece :: rest →
      rest = rest.head?.toList := by
    intro text piece rest h
    rw [splitn] at h
    split at h <;> cases h <;> rfl
  constructor
  · rintro ⟨rfl, hhead⟩
    have hrest : rest = rest' := by rw [hlast h, hlast h', hhead]
    rw [← join_splitn sep 1 text, ← join_splitn sep 1 text', h, h', hrest]
  · rintro rfl
    obtain ⟨rfl, rfl⟩ := List.cons.inj (h.symm.trans h')
    exact ⟨rfl, rfl⟩

/-- A piece before a separator. -/
theorem splitn_append_cons {n : ℕ} {word : List α} (hword : sep ∉ word) (rest : List α) :
    splitn sep (n + 2) (word ++ sep :: rest) = word :: splitn sep (n + 1) rest := by
  have hne := forall_ne hword
  rw [splitn, List.dropWhile_append_of_pos hne, List.takeWhile_append_of_pos hne]
  simp

theorem splitn_of_notMem {n : ℕ} {word : List α} (hword : sep ∉ word) :
    splitn sep (n + 1) word = [word] := by
  have hne := forall_ne hword
  cases n with
  | zero => rfl
  | succ n =>
      rw [splitn, List.dropWhile_eq_nil_iff.2 hne, List.takeWhile_eq_self_iff.2 hne]

/-- **The first piece of a text** is a word if the text is the word, or the separator follows it. -/
theorem takeWhile_eq_iff {word : List α} (hword : sep ∉ word) :
    text.takeWhile (· ≠ sep) = word ↔ text = word ∨ word ++ [sep] <+: text := by
  have hne := forall_ne hword
  constructor
  · rintro rfl
    have hsplit := List.takeWhile_append_dropWhile (p := (· ≠ sep)) (l := text)
    cases hrest : text.dropWhile (· ≠ sep) with
    | nil =>
        rw [hrest, List.append_nil] at hsplit
        exact Or.inl hsplit.symm
    | cons b rest =>
        have hb := of_dropWhile_eq_cons hrest
        obtain rfl : b = sep := by simpa using hb
        refine Or.inr ⟨rest, ?_⟩
        rw [List.append_assoc, List.singleton_append, ← hrest, hsplit]
  · rintro (rfl | ⟨rest, rfl⟩)
    · exact List.takeWhile_eq_self_iff.2 hne
    · rw [List.append_assoc, List.takeWhile_append_of_pos hne]
      simp

end Words
