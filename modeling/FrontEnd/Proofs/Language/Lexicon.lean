import FrontEnd.Language.Basic
import FrontEnd.Proofs.Automaton.Alphabet
import FrontEnd.Proofs.Pattern.Shape
import FrontEnd.Proofs.Scanner.MaximalMunch

/-!
# The rules of the scanner

What the scanner of the language makes of a text is told by a list of rules.  Two sorts of
characters never take part in other words: a closing brace is a word by itself, and the characters
of white space only form white space.

## Main Definitions

* `Language.lexicon` — the rules of the language with the patterns that their texts denote
* `Language.blanks`, `Language.Blank` — the characters of white space, and texts made up of them

## Main Results

* `Language.exists_scanner` — the scanner of the language has been given the rules
* `Language.eq_of_matched` — a word with a closing brace is the brace alone
* `Language.blank_of_matched`, `Language.wins_blank` — the words with a blank are the blank texts

## Design Notes

**Every rule is looked at.**  Which characters the rules use is computed from their automata, and so
is that no other rule uses these characters.
-/

namespace FrontEnd.Language

open Scanner

/-- The rules of the language, with the patterns that their texts denote. -/
def lexicon : List (Scanner.Rule Kind) :=
  ⟨.ignore, patternOf whitespace⟩ :: rules.map fun (kind, text) => ⟨.emit kind, patternOf text⟩

/-- **The scanner of the language has been given the rules.** -/
theorem exists_scanner : ∃ s, scanner = .ok s ∧ s.Registered lexicon := by
  have blank : Pattern.read whitespace = .ok (patternOf whitespace) := rfl
  have readable : ∀ r ∈ rules.map fun (kind, pattern) => (kind, kind.name, pattern),
      r.1 ≠ endKind ∧ Pattern.read r.2.2 = .ok (patternOf r.2.2) := by decide +kernel
  obtain ⟨s₁, ignored⟩ : ∃ s₁, (Scanner.empty : Scanner Kind).ignoreRule whitespace = .ok s₁ :=
    ⟨_, register_eq_ok_iff.2 ⟨_, blank, rfl⟩⟩
  obtain ⟨s, added, registered⟩ := (Registered.empty.ignoreRule blank ignored).addRules _ readable
  refine ⟨s.compile, ?_, ?_⟩
  · rw [scanner, buildScanner, ignored]
    simp only [added]
  · rw [List.map_map] at registered
    exact registered.compile

/-! ### Closing braces -/

variable {word : List Char} {action : Action Kind}

/-- A closing brace. -/
def closing : Char := '\x7d'

theorem pattern_of_uses_closing :
    ∀ r ∈ lexicon, r.pattern.Uses closing → r.pattern = .char closing .done := by
  decide +kernel

theorem pattern_of_rightBrace :
    ∀ r ∈ lexicon, r.action = .emit .rightBrace → r.pattern = .char closing .done := by
  decide +kernel

/-- **A closing brace is a word by itself.** -/
theorem eq_of_matched (h : Matched lexicon word) (mem : closing ∈ word) : word = [closing] := by
  obtain ⟨r, listed, matched⟩ := h
  have pattern := pattern_of_uses_closing r listed (matched.uses closing mem)
  rw [pattern] at matched
  exact Pattern.eq_of_matches_char matched

theorem eq_of_wins_rightBrace (h : Wins lexicon word (.emit .rightBrace)) : word = [closing] := by
  obtain ⟨⟨r, listed, action, matched⟩, -⟩ := h
  rw [pattern_of_rightBrace r listed action] at matched
  exact Pattern.eq_of_matches_char matched

/-! ### White space -/

/-- The characters of white space. -/
def blanks : List Char := ['\n', ' ', '\t']

/-- A text of white space only. -/
def Blank (word : List Char) : Prop := ∀ c ∈ word, c ∈ blanks

theorem forall_mem_blanks {P : Char → Prop} :
    (∀ c ∈ blanks, P c) ↔ P '\n' ∧ P ' ' ∧ P '\t' := by
  simp [blanks]

theorem rule_of_uses_blank :
    ∀ c ∈ blanks, ∀ r ∈ lexicon, r.pattern.Uses c →
      r.action = .ignore ∧ r.pattern = patternOf whitespace :=
  forall_mem_blanks.2 (by decide +kernel)

theorem pattern_of_ignore :
    ∀ r ∈ lexicon, r.action = .ignore → r.pattern = patternOf whitespace := by
  decide +kernel

/-- The pattern of white space matches the texts of white space. -/
theorem matches_whitespace :
    (patternOf whitespace).Matches word ↔ word ≠ [] ∧ Blank word := by
  have run : patternOf whitespace = .run (blanks.map .single) (blanks.map .single) := rfl
  have blank (c : Char) : c ∈ ClassItem.Any (blanks.map .single) ↔ c ∈ blanks := by
    simp [ClassItem.Any, ClassItem.members]
  rw [run, Pattern.matches_run_self_iff]
  simp only [blank, Blank]

theorem matched_blank (nonempty : word ≠ []) (blank : Blank word) : Matched lexicon word :=
  ⟨_, List.mem_cons_self, matches_whitespace.2 ⟨nonempty, blank⟩⟩

/-- **White space only forms white space.** -/
theorem blank_of_matched (h : Matched lexicon word) {c : Char} (mem : c ∈ word)
    (blank : c ∈ blanks) : Blank word := by
  obtain ⟨r, listed, matched⟩ := h
  have pattern := (rule_of_uses_blank c blank r listed (matched.uses c mem)).2
  rw [pattern] at matched
  exact (matches_whitespace.1 matched).2

theorem blank_of_wins_ignore (h : Wins lexicon word .ignore) : Blank word := by
  obtain ⟨⟨r, listed, action, matched⟩, -⟩ := h
  rw [pattern_of_ignore r listed action] at matched
  exact (matches_whitespace.1 matched).2

/-- What begins with white space is ignored. -/
theorem eq_ignore_of_wins (h : Wins lexicon word action) {c : Char} (mem : c ∈ word)
    (blank : c ∈ blanks) : action = .ignore := by
  obtain ⟨⟨r, listed, action, matched⟩, -⟩ := h
  rw [← action]
  exact (rule_of_uses_blank c blank r listed (matched.uses c mem)).1

/-- White space is ignored. -/
theorem wins_blank (nonempty : word ≠ []) (blank : Blank word) : Wins lexicon word .ignore := by
  have first : rank lexicon .ignore = 0 := rfl
  refine ⟨⟨_, List.mem_cons_self, rfl, matches_whitespace.2 ⟨nonempty, blank⟩⟩, fun r _ _ => ?_⟩
  rw [first]
  exact Nat.zero_le _

end FrontEnd.Language
