import FrontEnd.Proofs.Grammar.Blame
import FrontEnd.Proofs.Language.Grammar
import FrontEnd.Proofs.Parser.Exploration

/-!
# The first impossible token

A parse of a program that fails is blamed on a token.  The tokens in front of it could have become a
program; with it they could not, whatever had followed.

## Main Definitions

* `Language.IsProgram`, `Language.BeginsProgram` — tokens that are a program, or may become one
* `Language.Readable` — every number of a stream fits into 64 bits

## Main Results

* `Language.beginsProgram_furthest` — the tokens in front of the furthest mark may become a program
* `Language.not_beginsProgram_of_gaveUp` — with the token at the mark they may not
* `Language.parse_blames_first_impossible` — both, for every parse that fails

## Design Notes

**Two directions.**  No attempt of the grammar walks past the tokens that some program begins with:
that is a property of each of its expressions.  And no continuation could have saved the parse: a
stream that goes on differently behind the blamed token fails in the same way, while one that spells
a program is read.

**Numbers.**  A number that does not fit into 64 bits is read before it is rejected, so the blame
would fall on the token behind it.
-/

namespace FrontEnd.Language

/-- Some tokens are the notation of a program. -/
def IsProgram (tokens : List (Token Kind)) : Prop :=
  ∃ p : Program, List.Forall₂ spells tokens p.unparse

/-- Some tokens are the notation of a program as soon as the right ones follow. -/
def BeginsProgram (tokens : List (Token Kind)) : Prop := ∃ rest, IsProgram (tokens ++ rest)

/-- Every number of a stream fits into 64 bits. -/
def Readable (s : TokenStream Kind) : Prop :=
  ∀ t ∈ s.tokens, t.kind = .number → (Text.readInteger t.text.toList).isSome

instance : DecidablePred Readable := fun s => inferInstanceAs
  (Decidable (∀ t ∈ s.tokens, t.kind = .number → (Text.readInteger t.text.toList).isSome))

variable {s : TokenStream Kind}

/-! ### What the grammar walks through -/

/-- There is a tree for every rule. -/
theorem begins_reading {α : Type} (rule : Rule α) : rule.reading.Begins [] := by
  have name : List.Forall₂ spells [⟨.identifier, "", .start⟩] [.name ""] :=
    .cons ⟨rfl, rfl⟩ .nil
  cases rule with
  | expression => exact ⟨_, .term (.factor (.reference "")), name⟩
  | term => exact ⟨_, .factor (.reference ""), name⟩
  | factor => exact ⟨_, .reference "", name⟩
  | body =>
    exact ⟨[⟨.leftBrace, "", .start⟩, ⟨.rightBrace, "", .start⟩], [], .cons rfl (.cons rfl .nil)⟩
  | program => exact ⟨[], ⟨[]⟩, .nil⟩

/-- Among readable numbers, a token that begins a number is one. -/
theorem completable_number (readable : Readable s) :
    Phrase.number.Completable s Rule.reading := by
  refine ⟨trivial, fun i w j passed begins => ?_⟩
  obtain ⟨rest, t, whole, same⟩ := begins
  cases w with
  | nil => exact ⟨[⟨.number, "0", .start⟩], 0, _, ⟨rfl, rfl⟩, rfl⟩
  | cons first w =>
    obtain ⟨inside, rfl, -⟩ := passed
    obtain ⟨rfl, nothing⟩ := List.cons_eq_cons.1 whole
    have number := readable _ (TokenStream.get_mem inside) same
    obtain ⟨value, accepted⟩ := Option.isSome_iff_exists.1 number
    exact ⟨rest, value, _, ⟨whole, same⟩, accepted⟩

/-- Numbers are all that the grammar ever rejects. -/
theorem completable_definition (readable : Readable s) {α : Type} (rule : Rule α) :
    rule.definition.parser.Completable s Rule.reading := by
  have number := completable_number readable
  cases rule with
  | expression => simp [Rule.definition, Phrase.expression, Phrase.sumOperator, Phrase.sign,
      Parser.Completable]
  | term => simp [Rule.definition, Phrase.term, Phrase.productOperator, Phrase.sign,
      Parser.Completable]
  | factor => simp [Rule.definition, Phrase.factor, Phrase.group, Phrase.call, Phrase.name,
      Phrase.negation, Parser.Completable, number]
  | body => simp [Rule.definition, Phrase.body, Phrase.statement, Phrase.define, Phrase.assign,
      Phrase.giveBack, Phrase.choice, Phrase.otherwise, Phrase.condition, Phrase.comparison,
      Phrase.sign, Phrase.loopWhile, Phrase.loopOver, Phrase.name, Parser.Completable]
  | program => simp [Rule.definition, Phrase.program, Phrase.function, Phrase.name,
      Parser.Completable]

/-- **The tokens in front of the furthest mark may become a program.** -/
theorem beginsProgram_furthest (readable : Readable s) {value : Option Program} {c : Cursor}
    (run : productions.run s (.rule .program) .start = .ok (value, c)) :
    BeginsProgram (s.tokens.toList.take c.furthest) := by
  have completable {α : Type} {rule : Rule α} {definition : Definition Kind Rule α}
      (found : productions.lookup rule = .ok definition) :
      definition.parser.Completable s Rule.reading := by
    cases found
    exact completable_definition readable rule
  obtain ⟨w, passed, rest, p, spelled⟩ :=
    closed_reading.begins_furthest (p := .rule .program) begins_reading completable trivial run
  have length : c.furthest = w.length := by rw [passed.position, Nat.zero_add]
  have whole := passed.eq_take
  rw [List.drop_zero, ← length] at whole
  rw [← whole]
  exact ⟨rest, p, spelled⟩

/-! ### What could have followed -/

/-- Tokens that spell no end mark are not the end token. -/
theorem kind_ne_end_of_spelled {tokens : List (Token Kind)} {symbols : List Symbol}
    (spelled : List.Forall₂ spells tokens symbols) (proper : .mark .finish ∉ symbols) :
    ∀ t ∈ tokens, t.kind ≠ endKind := by
  induction spelled with
  | nil => simp
  | @cons t x tokens symbols first _ ih =>
    obtain ⟨notEnd, proper⟩ := not_or.1 (mt List.mem_cons.2 proper)
    refine List.forall_mem_cons.2 ⟨fun isEnd => ?_, ih proper⟩
    cases x with
    | mark kind => exact notEnd (congrArg Symbol.mark (isEnd.symm.trans first))
    | name text => cases isEnd.symm.trans first.1
    | number value => cases isEnd.symm.trans first.1

/-- The rules of the language are counted. -/
theorem counted_productions : productions.Counted := by
  refine ⟨[⟨_, .expression⟩, ⟨_, .term⟩, ⟨_, .factor⟩, ⟨_, .body⟩, ⟨_, .program⟩],
    Nat.le_refl _, ?_⟩
  intro α rule definition found
  cases rule <;> simp

/-- A stream that spells a program is not given up. -/
theorem not_gaveUp_of_isProgram (program : IsProgram s.tokens.toList) {value : Option Program}
    {c : Cursor} (run : productions.run s (.rule .program) .start = .ok (value, c)) :
    ¬ (value = none ∨ c.atEnd s = false) := by
  obtain ⟨p, spelled⟩ := program
  obtain ⟨c', run', atEnd⟩ := run_program_iff.2 (spelled_whole.2 spelled)
  rw [run] at run'
  cases run'
  simp [atEnd]

/-- **With the token at the furthest mark, nothing that follows makes a program.** -/
theorem not_beginsProgram_of_gaveUp {value : Option Program} {c : Cursor}
    (run : productions.run s (.rule .program) .start = .ok (value, c))
    (gaveUp : value = none ∨ c.atEnd s = false) (inside : c.furthest < s.tokens.size) :
    ¬ BeginsProgram (s.tokens.toList.take (c.furthest + 1)) := by
  rintro ⟨rest, p, spelled⟩
  -- If something did, there would be a stream that spells a program and begins like this one.
  let t : TokenStream Kind :=
    { tokens := (s.tokens.toList.take (c.furthest + 1) ++ rest).toArray
      finish := s.finish
      proper := fun t mem =>
        kind_ne_end_of_spelled spelled p.finish_notMem_unparse t (List.mem_toArray.1 mem) }
  have agree : s.AgreeUpTo t c.furthest := .of_take inside rfl
  have run' := counted_productions.run_of_agreeUpTo run agree
  refine not_gaveUp_of_isProgram (s := t) ⟨p, spelled⟩ run' ?_
  rwa [← agree.atEnd (Rules.run_start_bounds run).1]

/-- **A failed parse is blamed on the first impossible token.**  Let all numbers of a stream fit
into 64 bits, and let the parse of the stream fail.  Then it is blamed on the token at some position
of the stream such that the tokens in front of it begin a program, and together with it they do not;
if it is the end token, then the tokens in front of it are not a program. -/
theorem parse_blames_first_impossible (readable : Readable s) {e : Unexpected Kind}
    (failed : parseStream s = .ok (.error e)) :
    ∃ value c, productions.run s (.rule .program) .start = .ok (value, c) ∧
      e.token = s.get c.furthest ∧ c.furthest < s.size ∧
      BeginsProgram (s.tokens.toList.take c.furthest) ∧
      (c.furthest < s.tokens.size →
        ¬ BeginsProgram (s.tokens.toList.take (c.furthest + 1))) ∧
      (c.furthest = s.tokens.size → ¬ IsProgram s.tokens.toList) := by
  obtain ⟨value, c, run, gaveUp, rfl⟩ := Rules.parseAll_eq_error_iff.1 failed
  exact ⟨value, c, run, rfl, (Rules.run_start_bounds run).2, beginsProgram_furthest readable run,
    not_beginsProgram_of_gaveUp run gaveUp,
    fun _ program => not_gaveUp_of_isProgram program run gaveUp⟩

/-- A function that returns a call whose second argument is missing. -/
def danglingComma : TokenStream Kind := .ofTokens
  [⟨.defunWord, "defun", .start⟩, ⟨.identifier, "f", .start⟩, ⟨.leftParen, "(", .start⟩,
    ⟨.rightParen, ")", .start⟩, ⟨.leftBrace, "\x7b", .start⟩, ⟨.returnWord, "return", .start⟩,
    ⟨.identifier, "g", .start⟩, ⟨.leftParen, "(", .start⟩, ⟨.number, "1", .start⟩,
    ⟨.comma, ",", .start⟩, ⟨.rightParen, ")", .start⟩, ⟨.semicolon, ";", .start⟩] .start

/-- The parenthesis behind the comma is impossible, although the call could have been a name. -/
theorem parse_blames_first_impossible_comma :
    Readable danglingComma ∧
      parseStream danglingComma = .ok (.error ⟨⟨.rightParen, ")", .start⟩⟩) ∧
      BeginsProgram (danglingComma.tokens.toList.take 10) ∧
      ¬ BeginsProgram (danglingComma.tokens.toList.take 11) := by
  have readable : Readable danglingComma := by decide
  have failed : parseStream danglingComma = .ok (.error ⟨⟨.rightParen, ")", .start⟩⟩) := rfl
  have run : productions.run danglingComma (.rule .program) .start = .ok (none, ⟨0, 10⟩) := rfl
  obtain ⟨value, c, run', -, -, before, behind, -⟩ := parse_blames_first_impossible readable failed
  rw [run] at run'
  cases run'
  exact ⟨readable, failed, before, behind (by decide)⟩

end FrontEnd.Language
