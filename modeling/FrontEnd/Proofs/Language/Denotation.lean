import FrontEnd.Proofs.Grammar.Blame
import FrontEnd.Proofs.Language.Grammar
import FrontEnd.Proofs.Language.Lexicon
import FrontEnd.Proofs.Scanner.Names

/-!
# What a source denotes

Scanner and grammar together: a source is parsed as the program that its longest cuts spell.

## Main Definitions

* `Language.Spell` — kinds and texts of tokens spell the symbols of a program
* `Language.Denotes` — a text can be cut into pieces that spell a program
* `Language.shownIn` — the kinds and texts of the tokens of a source

## Main Results

* `Scanner.Reflects.tokenize_eq_ok_iff` — the streams of a scanner, in terms of its rules
* `Language.shownIn_eq_some_iff`, `Language.exists_analyse_iff` — the tokens of a source are those
  of its longest cuts
* `Language.parseProgram_eq_ok_iff` — parsing a source yields the program that it denotes

## Design Notes

**Neither scanner nor parser.**  `Denotes` only speaks of the rules of the language and of the
notation of programs.  What is shown of it is shown of parsing.
-/

namespace FrontEnd

namespace Scanner

variable {κ : Type} [DecidableEq κ] {rules : List (Rule κ)}

/-- What a piece emits counts for its text. -/
theorem wins_of_mem_emitted {text last : List Char} {pieces : List (List Char × Action κ)}
    (cuts : Cuts (Longest rules) text pieces last) {t : κ × String}
    (mem : t ∈ pieces.filterMap emitted) : Wins rules t.2.toList (.emit t.1) := by
  obtain ⟨⟨word, action⟩, piece, emits⟩ := List.mem_filterMap.1 mem
  obtain ⟨_, taken⟩ := cuts.exists_next_of_mem piece
  cases action with
  | ignore => cases emits
  | emit kind =>
    obtain rfl := Option.some.inj emits
    rw [String.toList_ofList]
    exact taken.wins

/-- A scan of rules that do not emit the end kind makes a stream of what the pieces emit. -/
theorem Reflects.tokenize_eq_ok_iff [TokenKind κ] {s : Scanner κ} (h : s.Reflects rules)
    (proper : ∀ r ∈ rules, r.action ≠ .emit endKind) (source file : String)
    (shown : List (κ × String)) :
    (∃ stream, s.tokenize source file = .ok stream ∧
        stream.tokens.toList.map (fun t => (t.kind, t.text)) = shown) ↔
      ∃ pieces, Cuts (Longest rules) source.toList pieces [] ∧
        pieces.filterMap emitted = shown := by
  have kept {tokens : List (Token κ)} {last : Location}
      (scanned : s.scan source file = .ok (tokens, last)) :
      (TokenStream.ofTokens tokens last).tokens.toList = tokens := by
    refine TokenStream.tokens_ofTokens (fun t mem isEnd => ?_) last
    have emits := h.emit_mem_order scanned mem
    rw [h.order] at emits
    obtain ⟨r, listed, action⟩ := List.mem_map.1 emits
    exact proper r listed (isEnd ▸ action)
  constructor
  · rintro ⟨stream, tokenized, rfl⟩
    obtain ⟨tokens, last, scanned, rfl⟩ := exists_scan_of_tokenize tokenized
    have analysed : s.analyse source file = .ok tokens := by rw [analyse, scanned]
    obtain ⟨pieces, cuts, -, shows⟩ :=
      (h.analyse_eq_ok_iff source file _).1 ⟨tokens, analysed, rfl⟩
    exact ⟨pieces, cuts, by rw [kept scanned, shows]⟩
  · rintro ⟨pieces, cuts, rfl⟩
    obtain ⟨tokens, analysed, shows⟩ :=
      (h.analyse_eq_ok_iff source file _).2 ⟨pieces, cuts, cuts.flatten_eq, rfl⟩
    obtain ⟨last, scanned⟩ := exists_scan_of_analyse analysed
    exact ⟨.ofTokens tokens last, by rw [tokenize, scanned], by rw [kept scanned, shows]⟩

end Scanner

namespace Language

open Scanner

/-- Kinds and texts of tokens spell symbols one by one. -/
def Spell (shown : List (Kind × String)) (symbols : List Symbol) : Prop :=
  List.Forall₂ (fun token x => spells ⟨token.1, token.2, .start⟩ x) shown symbols

instance (shown : List (Kind × String)) (symbols : List Symbol) : Decidable (Spell shown symbols) :=
  inferInstanceAs (Decidable (List.Forall₂ _ _ _))

/-- A text can be cut into pieces that spell a program. -/
def Denotes (text : List Char) (p : Program) : Prop :=
  ∃ pieces, Cuts (Longest lexicon) text pieces [] ∧ Spell (pieces.filterMap emitted) p.unparse

/-- The place of a token has no part in what it spells. -/
theorem spells_of_kind_text (t : Token Kind) (x : Symbol) :
    spells t x ↔ spells ⟨t.kind, t.text, .start⟩ x := by
  cases x <;> rfl

/-- A stream is parsed as the program that its kinds and texts spell. -/
theorem parseStream_eq_ok {s : TokenStream Kind} {p : Program} :
    parseStream s = .ok (.ok p) ↔
      Spell (s.tokens.toList.map fun t => (t.kind, t.text)) p.unparse := by
  rw [parseStream, Rules.parseAll_eq_ok_iff, run_program_iff, spelled_whole, Spell,
    List.forall₂_map_left_iff]
  exact ⟨List.Forall₂.imp fun t x => (spells_of_kind_text t x).1,
    List.Forall₂.imp fun t x => (spells_of_kind_text t x).2⟩

/-- The kinds and texts of the tokens of a source, if it has any. -/
def shownIn (source file : String) : Option (List (Kind × String)) :=
  (tokenize source file).toOption.map fun s => s.tokens.toList.map fun t => (t.kind, t.text)

/-- A source with tokens has kinds and texts. -/
theorem shownIn_eq_some {source file : String} {shown : List (Kind × String)} :
    shownIn source file = some shown ↔
      ∃ stream, tokenize source file = .ok stream ∧
        stream.tokens.toList.map (fun t => (t.kind, t.text)) = shown := by
  rw [shownIn]
  cases tokenize source file <;> simp [Except.toOption]

/-- Kinds and texts are all that counts for a parse. -/
theorem parseProgram_eq_ok {source file : String} {p : Program} :
    parseProgram source file = .ok p ↔
      ∃ shown, shownIn source file = some shown ∧ Spell shown p.unparse := by
  rw [parseProgram, shownIn]
  cases made : tokenize source file with
  | error e => simp [Except.toOption]
  | ok stream =>
    simp only [Except.toOption, Option.map_some, Option.some.injEq, exists_eq_left',
      ← parseStream_eq_ok]
    cases parse : parseStream stream with
    | error fault => simp
    | ok result => cases result <;> simp

/-- The tokens of a source are those of its longest cuts. -/
theorem shownIn_eq_some_iff {source file : String} {shown : List (Kind × String)} :
    shownIn source file = some shown ↔
      ∃ pieces, Cuts (Longest lexicon) source.toList pieces [] ∧
        pieces.filterMap emitted = shown := by
  have proper : ∀ r ∈ lexicon, r.action ≠ .emit endKind := by decide +kernel
  obtain ⟨s, built, registered⟩ := exists_scanner
  rw [← registered.reflects.tokenize_eq_ok_iff proper source file, shownIn, tokenize, built]
  cases made : s.tokenize source file with
  | error e => simp [made, Except.toOption]
  | ok stream => simp [made, Except.toOption]

/-- The tokens that an analysis returns are those of the longest cuts as well. -/
theorem exists_analyse_iff {source file : String} {shown : List (Kind × String)} :
    (∃ tokens, analyse source file = .ok tokens ∧
        tokens.map (fun t => (t.kind, t.text)) = shown) ↔
      ∃ pieces, Cuts (Longest lexicon) source.toList pieces [] ∧
        pieces.filterMap emitted = shown := by
  obtain ⟨s, built, registered⟩ := exists_scanner
  have same (tokens : List (Token Kind)) :
      analyse source file = .ok tokens ↔ s.analyse source file = .ok tokens := by
    rw [analyse, built]
    cases made : s.analyse source file <;> simp [made]
  simp only [same]
  rw [registered.reflects.analyse_eq_ok_iff source file]
  exact exists_congr fun pieces => and_congr_right fun cuts => and_iff_right cuts.flatten_eq

/-- **Parsing yields the program that the source denotes.** -/
theorem parseProgram_eq_ok_iff {source file : String} {p : Program} :
    parseProgram source file = .ok p ↔ Denotes source.toList p := by
  rw [parseProgram_eq_ok]
  constructor
  · rintro ⟨shown, shows, spelled⟩
    obtain ⟨pieces, cuts, rfl⟩ := shownIn_eq_some_iff.1 shows
    exact ⟨pieces, cuts, spelled⟩
  · rintro ⟨pieces, cuts, spelled⟩
    exact ⟨_, shownIn_eq_some_iff.2 ⟨pieces, cuts, rfl⟩, spelled⟩

end Language

end FrontEnd
