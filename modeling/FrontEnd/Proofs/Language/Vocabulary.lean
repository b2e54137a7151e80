import FrontEnd.Proofs.Language.Lexicon

/-!
# The vocabulary of the language

A token is a keyword, a mark, an identifier or a number, and its text tells which of them it is.
Several rules may match the same text, but then one of them is for a keyword and another one for
identifiers.

## Main Definitions

* `Language.keywords`, `Language.marks` — the kinds with a fixed text
* `Language.IsIdentifier`, `Language.IsNumeral` — the texts of the other two kinds
* `Language.Reads` — the words that the rules for an action match
* `Language.Classified` — what the text of a token says about its kind

## Main Results

* `Language.reads_iff` — the words of all rules, without a pattern
* `Language.classified_of_wins` — what counts for a text is its kind

## Design Notes

**Two readings.**  The words of the rules are told apart by their first characters, all but those of
keywords and identifiers.  There the order of registration decides, and keywords come first.
-/

namespace FrontEnd.Language

open Scanner

/-! ### Kinds and texts -/

/-- The kinds of keywords with their texts. -/
def keywords : List (Kind × String) :=
  [(.defunWord, "defun"), (.returnWord, "return"), (.ifWord, "if"), (.elseWord, "else"),
    (.letWord, "let"), (.whileWord, "while"), (.forWord, "for"), (.inWord, "in"),
    (.intWord, "int")]

/-- The kinds of operators and brackets with their texts. -/
def marks : List (Kind × String) :=
  [(.arrow, "->"), (.colon, ":"), (.comma, ","), (.ellipsis, ".."), (.equal, "="),
    (.equals, "=="), (.notEqual, "!="), (.greater, ">"), (.greaterOrEqual, ">="), (.less, "<"),
    (.lessOrEqual, "<="), (.minus, "-"), (.times, "*"), (.plus, "+"), (.divide, "/"),
    (.semicolon, ";"), (.leftBrace, "\x7b"), (.rightBrace, "\x7d"), (.leftParen, "("),
    (.rightParen, ")")]

/-- A letter or an underscore, and then any number of letters, digits and underscores; all of them
ASCII characters. -/
def IsIdentifier : List Char → Prop
  | [] => False
  | c :: rest => (c.isAlpha || c == '_') ∧ rest.all fun d => d.isAlphanum || d == '_'

instance : DecidablePred IsIdentifier
  | [] => inferInstanceAs (Decidable False)
  | c :: _ => inferInstanceAs (Decidable ((c.isAlpha || c == '_') ∧ _))

/-- Digits, at least one; all of them ASCII characters. -/
def IsNumeral (word : List Char) : Prop := word ≠ [] ∧ word.all Char.isDigit

instance : DecidablePred IsNumeral := fun word =>
  inferInstanceAs (Decidable (word ≠ [] ∧ word.all Char.isDigit))

/-- What the text of a token says about its kind. -/
structure Classified (kind : Kind) (text : String) : Prop where
  keyword : ∀ entry ∈ keywords, kind = entry.1 ↔ text = entry.2
  identifier : kind = .identifier ↔
    IsIdentifier text.toList ∧ text ∉ keywords.map Prod.snd
  number : kind = .number ↔ IsNumeral text.toList
  mark : ∀ entry ∈ marks, kind = entry.1 ↔ text = entry.2
  covered : kind = .identifier ∨ kind = .number ∨ kind ∈ (keywords ++ marks).map Prod.fst

instance (kind : Kind) (text : String) : Decidable (Classified kind text) :=
  decidable_of_iff
    ((∀ entry ∈ keywords, kind = entry.1 ↔ text = entry.2) ∧
      (kind = .identifier ↔ IsIdentifier text.toList ∧ text ∉ keywords.map Prod.snd) ∧
      (kind = .number ↔ IsNumeral text.toList) ∧
      (∀ entry ∈ marks, kind = entry.1 ↔ text = entry.2) ∧
      (kind = .identifier ∨ kind = .number ∨ kind ∈ (keywords ++ marks).map Prod.fst))
    ⟨fun ⟨h₁, h₂, h₃, h₄, h₅⟩ => ⟨h₁, h₂, h₃, h₄, h₅⟩,
      fun h => ⟨h.keyword, h.identifier, h.number, h.mark, h.covered⟩⟩

theorem classified_of_mem : ∀ entry ∈ keywords ++ marks, Classified entry.1 entry.2 := by
  decide +kernel

/-! ### What the rules match -/

/-- The words that the rules for an action match. -/
inductive Reads : Action Kind → List Char → Prop where
  | fixed {entry : Kind × String} :
      entry ∈ keywords ++ marks → Reads (.emit entry.1) entry.2.toList
  | identifier {word : List Char} : IsIdentifier word → Reads (.emit .identifier) word
  | number {word : List Char} : IsNumeral word → Reads (.emit .number) word
  | blank {word : List Char} : word ≠ [] → Blank word → Reads .ignore word

variable {word : List Char} {action : Action Kind} {kind : Kind}

/-- The class of characters that identifiers begin with. -/
def nameStarts : List ClassItem := [.range 'A' 'Z', .range 'a' 'z', .single '_']

/-- The class of characters that identifiers go on with. -/
def nameParts : List ClassItem :=
  [.range 'A' 'Z', .range 'a' 'z', .range '0' '9', .single '_']

theorem isAlpha_iff {c : Char} :
    c.isAlpha ↔ 'A' ≤ c ∧ c ≤ 'Z' ∨ 'a' ≤ c ∧ c ≤ 'z' := by
  show (decide ('A' ≤ c ∧ c ≤ 'Z') || (decide ('a' ≤ c) && decide (c ≤ 'z'))) = true ↔ _
  simp only [Bool.or_eq_true, Bool.and_eq_true, decide_eq_true_eq]

theorem isDigit_iff {c : Char} : c.isDigit ↔ '0' ≤ c ∧ c ≤ '9' := by
  show (decide ('0' ≤ c) && decide (c ≤ '9')) = true ↔ _
  simp only [Bool.and_eq_true, decide_eq_true_eq]

theorem mem_nameStarts {c : Char} : c ∈ ClassItem.Any nameStarts ↔ c.isAlpha || c == '_' := by
  simp [ClassItem.Any, nameStarts, ClassItem.members, isAlpha_iff, or_assoc]

theorem mem_nameParts {c : Char} : c ∈ ClassItem.Any nameParts ↔ c.isAlphanum || c == '_' := by
  show _ ↔ (c.isAlpha || c.isDigit || c == '_')
  simp [ClassItem.Any, nameParts, ClassItem.members, isAlpha_iff, isDigit_iff, or_assoc]

theorem matches_names :
    (Pattern.run nameStarts nameParts).Matches word ↔ IsIdentifier word := by
  rw [Pattern.matches_run_iff]
  cases word with
  | nil => simp [IsIdentifier]
  | cons c rest => simp [IsIdentifier, mem_nameStarts, mem_nameParts]

theorem matches_digits :
    (Pattern.run [.range '0' '9'] [.range '0' '9']).Matches word ↔ IsNumeral word := by
  have digit (c : Char) : c ∈ ClassItem.Any [.range '0' '9'] ↔ c.isDigit := by
    simp [ClassItem.Any, ClassItem.members, isDigit_iff]
  simp only [Pattern.matches_run_self_iff, digit, IsNumeral, List.all_eq_true]

/-- The rules of the language are of four sorts. -/
theorem rule_cases : ∀ r ∈ lexicon,
    (∃ entry ∈ keywords ++ marks,
      r.action = .emit entry.1 ∧ r.pattern.only = some entry.2.toList) ∨
    (r.action = .emit .identifier ∧ r.pattern = .run nameStarts nameParts) ∨
    (r.action = .emit .number ∧ r.pattern = .run [.range '0' '9'] [.range '0' '9']) ∨
    (r.action = .ignore ∧ r.pattern = patternOf whitespace) := by
  decide +kernel

/-- Every fixed text has a rule. -/
theorem rule_of_fixed : ∀ entry ∈ keywords ++ marks, ∃ r ∈ lexicon,
    r.action = .emit entry.1 ∧ r.pattern.only = some entry.2.toList ∧ entry.2.toList ≠ [] := by
  decide +kernel

/-- **What the rules match.** -/
theorem reads_iff : (∃ r ∈ lexicon, r.action = action ∧ r.pattern.Matches word) ↔
    Reads action word := by
  constructor
  · rintro ⟨r, listed, rfl, matched⟩
    have nonempty : word ≠ [] := matched.ne_nil
    rcases rule_cases r listed with ⟨entry, mem, action, only⟩ | ⟨action, pattern⟩ |
      ⟨action, pattern⟩ | ⟨action, pattern⟩
    · obtain ⟨rfl, -⟩ := (Pattern.matches_iff_of_only only).1 matched
      exact action ▸ .fixed mem
    · exact action ▸ .identifier (matches_names.1 (pattern ▸ matched))
    · exact action ▸ .number (matches_digits.1 (pattern ▸ matched))
    · obtain ⟨-, blank⟩ := matches_whitespace.1 (pattern ▸ matched)
      exact action ▸ .blank nonempty blank
  · intro reads
    cases reads with
    | fixed mem =>
      obtain ⟨r, listed, action, only, nonempty⟩ := rule_of_fixed _ mem
      exact ⟨r, listed, action, (Pattern.matches_iff_of_only only).2 ⟨rfl, nonempty⟩⟩
    | identifier name =>
      obtain ⟨r, listed, action, pattern⟩ : ∃ r ∈ lexicon, r.action = .emit .identifier ∧
          r.pattern = .run nameStarts nameParts := by decide +kernel
      exact ⟨r, listed, action, pattern ▸ matches_names.2 name⟩
    | number digits =>
      obtain ⟨r, listed, action, pattern⟩ : ∃ r ∈ lexicon, r.action = .emit .number ∧
          r.pattern = .run [.range '0' '9'] [.range '0' '9'] := by decide +kernel
      exact ⟨r, listed, action, pattern ▸ matches_digits.2 digits⟩
    | blank nonempty blank =>
      obtain ⟨r, listed, action, pattern⟩ : ∃ r ∈ lexicon, r.action = .ignore ∧
          r.pattern = patternOf whitespace := by decide +kernel
      exact ⟨r, listed, action, pattern ▸ matches_whitespace.2 ⟨nonempty, blank⟩⟩

/-- Of the readings of a word, the one counts that was registered first. -/
theorem wins_iff : Wins lexicon word action ↔
    Reads action word ∧
      ∀ other, Reads other word → Scanner.rank lexicon action ≤ Scanner.rank lexicon other := by
  simp only [← reads_iff]
  constructor
  · rintro ⟨matched, first⟩
    refine ⟨matched, ?_⟩
    rintro _ ⟨r, listed, rfl, matched'⟩
    exact first r listed matched'
  · rintro ⟨matched, first⟩
    exact ⟨matched, fun r listed matched' => first _ ⟨r, listed, rfl, matched'⟩⟩

/-! ### What counts for a text -/

/-- Keywords come before identifiers. -/
theorem rank_keyword : ∀ entry ∈ keywords,
    Scanner.rank lexicon (.emit entry.1) < Scanner.rank lexicon (.emit .identifier) := by
  decide +kernel

theorem fixed_not_numeral : ∀ entry ∈ keywords ++ marks, ¬ IsNumeral entry.2.toList := by
  decide +kernel

theorem mark_not_identifier : ∀ entry ∈ marks, ¬ IsIdentifier entry.2.toList := by
  decide +kernel

theorem proper_of_fixed :
    ∀ entry ∈ keywords ++ marks, entry.1 ≠ .identifier ∧ entry.1 ≠ .number := by
  decide +kernel

/-- No text is both an identifier and a number. -/
theorem not_isNumeral_of_isIdentifier (name : IsIdentifier word) : ¬ IsNumeral word := by
  rintro ⟨-, digits⟩
  cases word with
  | nil => exact name
  | cons c rest =>
    have digit := isDigit_iff.1 (List.all_eq_true.1 digits c List.mem_cons_self)
    have start := name.1
    rw [Bool.or_eq_true, isAlpha_iff, beq_iff_eq] at start
    rcases start with (⟨upper, -⟩ | ⟨lower, -⟩) | rfl
    · exact absurd (Char.le_trans upper digit.2) (by decide)
    · exact absurd (Char.le_trans lower digit.2) (by decide)
    · exact absurd digit.2 (by decide)

/-- **The text of a token tells its kind.** -/
theorem classified_of_wins {text : String} (h : Wins lexicon text.toList (.emit kind)) :
    Classified kind text := by
  obtain ⟨reads, first⟩ := wins_iff.1 h
  generalize whole : text.toList = word at reads first
  cases reads with
  | @fixed entry mem =>
    obtain rfl := String.toList_injective whole
    exact classified_of_mem entry mem
  | identifier name =>
    -- A keyword would be read as a keyword.
    have other : text ∉ keywords.map Prod.snd := by
      intro mem
      obtain ⟨entry, listed, rfl⟩ := List.mem_map.1 mem
      have reads : Reads (.emit entry.1) word := whole ▸ .fixed (List.mem_append_left _ listed)
      exact absurd (first _ reads) (Nat.not_le.2 (rank_keyword entry listed))
    subst whole
    exact
      { keyword := fun entry listed => iff_of_false
          (proper_of_fixed entry (List.mem_append_left marks listed)).1.symm
          fun same => other (same ▸ List.mem_map_of_mem listed)
        identifier := iff_of_true rfl ⟨name, other⟩
        number := iff_of_false (by decide) (not_isNumeral_of_isIdentifier name)
        mark := fun entry listed => iff_of_false
          (proper_of_fixed entry (List.mem_append_right keywords listed)).1.symm
          fun same => mark_not_identifier entry listed (same ▸ name)
        covered := .inl rfl }
  | number digits =>
    subst whole
    have other : ∀ entry ∈ keywords ++ marks, Kind.number = entry.1 ↔ text = entry.2 :=
      fun entry listed => iff_of_false (proper_of_fixed entry listed).2.symm
        fun same => fixed_not_numeral entry listed (same ▸ digits)
    exact
      { keyword := fun entry listed => other entry (List.mem_append_left marks listed)
        identifier := iff_of_false (by decide)
          fun name => not_isNumeral_of_isIdentifier name.1 digits
        number := iff_of_true rfl digits
        mark := fun entry listed => other entry (List.mem_append_right keywords listed)
        covered := .inr (.inl rfl) }

end FrontEnd.Language
