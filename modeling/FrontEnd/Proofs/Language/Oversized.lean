import FrontEnd.Proofs.Language.Denotation
import FrontEnd.Proofs.Language.Termination
import FrontEnd.Proofs.Language.Viability
import FrontEnd.Proofs.Parser.Rejection

/-!
# Numbers that are too large

The scanner has no bound for numbers, but the grammar only takes those that fit into 64 bits with a
sign.  A source that is a program but for numbers that are too large is not parsed, and the blame
falls on the token right behind the first of them.

## Main Definitions

* `Language.Oversized` — a number that does not fit into 64 bits with a sign
* `Language.FirstOversized` — the position of the first one in a stream

## Main Results

* `Language.exists_readDigits_of_tokenize` — every number in a source consists of digits
* `Language.parseStream_of_rejected` — the parse of a stream with a number that the grammar rejects
* `Language.parseProgram_blames_behind_oversized` — the parse of a source with such numbers

## Design Notes

**Read before it is rejected.**  A number is passed before its value is looked at, and the furthest
mark stays behind it when the parser goes back.  Nothing else can be made of a number, so no parser
ever looks at the token that is blamed.

**In every place.**  Whether the number is an operand, an argument or the bound of a range makes no
difference: the rules are blocked there, whichever of them are open.
-/

namespace FrontEnd.Language

open Scanner

/-! ### Numbers that are too large -/

/-- A token is a number that does not fit into 64 bits with a sign. -/
def Oversized (t : Token Kind) : Prop :=
  t.kind = .number ∧ ∃ n ∈ Text.readDigits t.text.toList, Nat.pow 2 63 ≤ n

instance : DecidablePred Oversized := fun t =>
  inferInstanceAs (Decidable (t.kind = .number ∧
    ∃ n ∈ Text.readDigits t.text.toList, Nat.pow 2 63 ≤ n))

/-- The first number of a stream that is too large stands at position `k`. -/
def FirstOversized (s : TokenStream Kind) (k : Nat) : Prop :=
  Oversized (s.get k) ∧ ∀ i < k, ¬ Oversized (s.get i)

variable {s t : TokenStream Kind} {k : Nat}

theorem exists_firstOversized (h : ∃ t ∈ s.tokens, Oversized t) : ∃ k, FirstOversized s k := by
  obtain ⟨t, mem, oversized⟩ := h
  obtain ⟨i, inside, rfl⟩ := Array.mem_iff_getElem.1 mem
  have some : ∃ i, Oversized (s.get i) :=
    ⟨i, by rwa [TokenStream.get, Array.getElem?_eq_getElem inside, Option.getD_some]⟩
  exact ⟨Nat.find some, Nat.find_spec some, fun i => Nat.find_min some⟩

/-- A number is not the end token. -/
theorem succ_lt_size_of_number (number : (s.get k).kind = .number) : k + 1 < s.size := by
  refine Nat.lt_of_not_le fun behind => ?_
  cases number.symm.trans ((s.kind_get_eq_end_iff k).2 behind)

theorem get_mem_of_number (number : (s.get k).kind = .number) : s.get k ∈ s.tokens :=
  TokenStream.get_mem (succ_lt_size_of_number number)

/-! ### Digits -/

variable {digits : List Char}

theorem exists_readDigitsFrom (all : ∀ c ∈ digits, '0' ≤ c ∧ c ≤ '9') (value : Nat) :
    ∃ n, Text.readDigitsFrom value digits = some n := by
  induction digits generalizing value with
  | nil => exact ⟨value, rfl⟩
  | cons c rest ih =>
    obtain ⟨first, later⟩ := List.forall_mem_cons.1 all
    rw [Text.readDigitsFrom, Text.digitValue, if_pos first]
    exact ih later _

/-- Digits have a value. -/
theorem exists_readDigits (nonempty : digits ≠ []) (all : ∀ c ∈ digits, '0' ≤ c ∧ c ≤ '9') :
    ∃ n, Text.readDigits digits = some n := by
  obtain ⟨c, rest, rfl⟩ := List.exists_cons_of_ne_nil nonempty
  exact exists_readDigitsFrom all 0

/-- Digits without a sign are an integer if their value is not too large. -/
theorem readInteger_of_readDigits {n : Nat} (read : Text.readDigits digits = some n) :
    Text.readInteger digits = if n < Nat.pow 2 63 then some (n : Int) else none := by
  unfold Text.readInteger
  split
  · cases read
  · cases read
  · rw [read, Option.bind_some]

theorem readInteger_eq_none_iff {t : Token Kind} (number : t.kind = .number)
    (digits : ∃ n, Text.readDigits t.text.toList = some n) :
    Text.readInteger t.text.toList = none ↔ Oversized t := by
  obtain ⟨n, read⟩ := digits
  rw [readInteger_of_readDigits read, Oversized, read]
  simp [number]

/-! ### Numbers in a source -/

theorem pattern_of_number : ∀ r ∈ lexicon, r.action = .emit .number →
    r.pattern = .run [.range '0' '9'] [.range '0' '9'] := by
  decide +kernel

/-- What is taken for a number consists of digits. -/
theorem digits_of_wins_number {word : List Char} (h : Wins lexicon word (.emit .number)) :
    word ≠ [] ∧ ∀ c ∈ word, '0' ≤ c ∧ c ≤ '9' := by
  obtain ⟨⟨r, listed, action, matched⟩, -⟩ := h
  rw [pattern_of_number r listed action, Pattern.matches_run_self_iff] at matched
  simpa [ClassItem.Any, ClassItem.members] using matched

/-- **Every number in a source consists of digits**, so it has a value. -/
theorem exists_readDigits_of_tokenize {source file : String}
    (tokenized : tokenize source file = .ok s) {t : Token Kind} (mem : t ∈ s.tokens)
    (number : t.kind = .number) : ∃ n, Text.readDigits t.text.toList = some n := by
  obtain ⟨pieces, cuts, emits⟩ := shownIn_eq_some_iff.1 (shownIn_eq_some.2 ⟨s, tokenized, rfl⟩)
  have listed : (t.kind, t.text) ∈ pieces.filterMap emitted := by
    rw [emits]
    exact List.mem_map_of_mem (Array.mem_toList_iff.2 mem)
  have wins := wins_of_mem_emitted cuts listed
  rw [number] at wins
  obtain ⟨nonempty, all⟩ := digits_of_wins_number wins
  exact exists_readDigits nonempty all

/-! ### Where the grammar stops -/

/-- Nothing can be made of a number but a number. -/
theorem blockedAt_definition (number : (s.get k).kind = .number)
    (tested : Phrase.number.BlockedAt s t k) {α : Type} (rule : Rule α) :
    rule.definition.parser.BlockedAt s t k := by
  cases rule with
  | expression => simp [Rule.definition, Phrase.expression, Phrase.sumOperator, Phrase.sign,
      Parser.BlockedAt, number]
  | term => simp [Rule.definition, Phrase.term, Phrase.productOperator, Phrase.sign,
      Parser.BlockedAt, number]
  | factor => simp [Rule.definition, Phrase.factor, Phrase.group, Phrase.call, Phrase.name,
      Phrase.negation, Parser.BlockedAt, number, tested]
  | body => simp [Rule.definition, Phrase.body, Phrase.statement, Phrase.define, Phrase.assign,
      Phrase.giveBack, Phrase.choice, Phrase.otherwise, Phrase.condition, Phrase.comparison,
      Phrase.sign, Phrase.loopWhile, Phrase.loopOver, Phrase.name, Parser.BlockedAt, number]
  | program => simp [Rule.definition, Phrase.program, Phrase.function, Phrase.name,
      Parser.BlockedAt, number]

section Rejected

variable (same : s.SameKinds t) (program : IsProgram t.tokens.toList)
  (number : (s.get k).kind = .number) (tested : Phrase.number.BlockedAt s t k)
include same program number tested

/-- On the kinds of a program, a run ends in front of the first number that is rejected, and its
furthest mark stands behind it. -/
theorem run_of_rejected {value : Option Program} {c : Cursor}
    (run : productions.run s (.rule .program) .start = .ok (value, c)) :
    c.atEnd s = false ∧ c.furthest = k + 1 := by
  have blocked {α : Type} {rule : Rule α} {definition : Definition Kind Rule α}
      (found : productions.lookup rule = .ok definition) : definition.parser.BlockedAt s t k := by
    cases found
    exact blockedAt_definition number tested rule
  have inside := succ_lt_size_of_number number
  obtain ⟨le, furthest | shape⟩ :=
    productions.run_of_blocked (p := .rule .program) same blocked trivial run
  · refine ⟨Bool.eq_false_iff.2 fun atEnd => ?_, furthest⟩
    have := Cursor.atEnd_iff.1 atEnd
    omega
  · -- The run on the program gets to the end, so it does not come to the same end.
    obtain ⟨p, spelled⟩ := program
    obtain ⟨c', run', atEnd⟩ := run_program_iff.2 (spelled_whole.2 spelled)
    rw [run, run'] at shape
    obtain ⟨-, rfl⟩ := Prod.mk.inj (Except.ok.inj shape)
    have := Cursor.atEnd_iff.1 atEnd
    rw [← same.size_eq] at this
    omega

/-- **The blame falls behind a number that is rejected.**  Let a stream have the kinds of a program.
If its number at position `k` is rejected, and no number in front of it, then its parse is blamed on
the token at position `k + 1`. -/
theorem parseStream_of_rejected : parseStream s = .ok (.error ⟨s.get (k + 1)⟩) := by
  obtain ⟨parsed, returns⟩ := exists_parseStream s
  cases parsed with
  | ok p =>
    obtain ⟨c, run, atEnd⟩ := Rules.parseAll_eq_ok_iff.1 returns
    cases (run_of_rejected same program number tested run).1.symm.trans atEnd
  | error e =>
    obtain ⟨value, c, run, -, rfl⟩ := Rules.parseAll_eq_error_iff.1 returns
    rw [returns, (run_of_rejected same program number tested run).2]

end Rejected

/-! ### Blame -/

/-- A token with a number that is no integer, with a zero in its place. -/
def mended (t : Token Kind) : Token Kind :=
  if t.kind = .number ∧ Text.readInteger t.text.toList = none then { t with text := "0" } else t

@[simp] theorem kind_mended (t : Token Kind) : (mended t).kind = t.kind := by
  rw [mended]
  split <;> rfl

theorem isSome_readInteger_mended {t : Token Kind} (number : t.kind = .number) :
    (Text.readInteger (mended t).text.toList).isSome := by
  have zero : (Text.readInteger "0".toList).isSome := by decide
  rw [mended]
  split
  · exact zero
  · rename_i readable
    exact Option.isSome_iff_ne_none.2 fun none => readable ⟨number, none⟩

/-- What a token spells does not need to be mended. -/
theorem spells_mended {t : Token Kind} {x : Symbol} (h : spells t x) : spells (mended t) x := by
  cases x with
  | mark kind => exact (kind_mended t).trans h
  | name text =>
    have other : t.kind ≠ .number := by simp [h.1]
    rwa [mended, if_neg fun number => other number.1]
  | number value =>
    have readable : Text.readInteger t.text.toList ≠ none := by simp [h.2]
    rwa [mended, if_neg fun unreadable => readable unreadable.2]

/-- A program can be written with the same kinds of tokens, so that all its numbers are integers. -/
theorem exists_readable {valid : List (Token Kind)} (program : IsProgram valid) :
    ∃ t : TokenStream Kind, IsProgram t.tokens.toList ∧ Readable t ∧
      t.tokens.toList.map Token.kind = valid.map Token.kind := by
  obtain ⟨p, spelled⟩ := program
  have spelled : List.Forall₂ spells (valid.map mended) p.unparse :=
    List.forall₂_map_left_iff.2 (spelled.imp fun _ _ => spells_mended)
  let t : TokenStream Kind :=
    { tokens := (valid.map mended).toArray
      finish := .start
      proper := fun t mem =>
        kind_ne_end_of_spelled spelled p.finish_notMem_unparse t (List.mem_toArray.1 mem) }
  refine ⟨t, ⟨p, spelled⟩, fun u mem number => ?_, ?_⟩
  · obtain ⟨v, -, rfl⟩ := List.mem_map.1 (List.mem_toArray.1 mem)
    exact isSome_readInteger_mended ((kind_mended v).symm.trans number)
  · simp [t]

/-- **Numbers that are too large.**  Let the tokens of a source have the kinds of a program, and let
some number among them not fit into 64 bits.  Then the source is not parsed, and the blame falls on
the token right behind the first such number. -/
theorem parseProgram_blames_behind_oversized {source file : String}
    (tokenized : tokenize source file = .ok s) {valid : List (Token Kind)}
    (program : IsProgram valid)
    (kinds : s.tokens.toList.map Token.kind = valid.map Token.kind)
    (exceeds : ∃ t ∈ s.tokens, Oversized t) :
    ∃ k, FirstOversized s k ∧ parseProgram source file = .error (.parse ⟨s.get (k + 1)⟩) := by
  obtain ⟨k, oversized, first⟩ := exists_firstOversized exceeds
  obtain ⟨t, program, readable, kinds'⟩ := exists_readable program
  have same : s.SameKinds t := TokenStream.sameKinds_of_map_eq (kinds.trans kinds'.symm)
  have integer {i : Nat} (number : (s.get i).kind = .number) :
      Text.readInteger (s.get i).text.toList = none ↔ Oversized (s.get i) :=
    readInteger_eq_none_iff number
      (exists_readDigits_of_tokenize tokenized (get_mem_of_number number) number)
  have tested : Phrase.number.BlockedAt s t k := by
    refine ⟨(integer oversized.1).2 oversized, fun i before number => ⟨?_, ?_⟩⟩
    · exact Option.isSome_iff_ne_none.2 fun rejected => first i before ((integer number).1 rejected)
    · have number' := (same i).symm.trans number
      exact readable _ (get_mem_of_number number') number'
  have failed := parseStream_of_rejected same program oversized.1 tested
  refine ⟨k, ⟨oversized, first⟩, ?_⟩
  rw [parseProgram, tokenized]
  simp only [failed]

/-- The kinds and texts of a function that returns a number. -/
def returning (number : String) : List (Kind × String) :=
  [(.defunWord, "defun"), (.identifier, "f"), (.leftParen, "("), (.rightParen, ")"),
    (.leftBrace, "\x7b"), (.returnWord, "return"), (.number, number), (.semicolon, ";"),
    (.rightBrace, "\x7d")]

/-- A function that returns the least number that is too large. -/
def returnTooLarge : String := "defun f() \x7b return 9223372036854775808; \x7d"

theorem exists_stream_returnTooLarge : ∃ (stream : TokenStream Kind) (valid : List (Token Kind)),
    tokenize returnTooLarge "" = .ok stream ∧ IsProgram valid ∧
      stream.tokens.toList.map Token.kind = valid.map Token.kind ∧
      ∃ t ∈ stream.tokens, Oversized t := by
  have shown : shownIn returnTooLarge "" = some (returning "9223372036854775808") := by
    decide +kernel
  obtain ⟨stream, tokenized, shows⟩ := shownIn_eq_some.1 shown
  let valid : List (Token Kind) := (returning "0").map fun token => ⟨token.1, token.2, .start⟩
  have program : IsProgram valid :=
    ⟨⟨[⟨"f", [], [.giveBack (Factor.number 0).widen]⟩]⟩, by decide⟩
  have kinds : stream.tokens.toList.map Token.kind = valid.map Token.kind := by
    have kinds := congrArg (List.map Prod.fst) shows
    rwa [List.map_map] at kinds
  have number : (Kind.number, "9223372036854775808") ∈
      stream.tokens.toList.map fun t => (t.kind, t.text) := by
    rw [shows]
    decide
  obtain ⟨t, mem, shown⟩ := List.mem_map.1 number
  obtain ⟨kind, text⟩ := Prod.mk.inj shown
  have read : ∃ n ∈ Text.readDigits "9223372036854775808".toList, Nat.pow 2 63 ≤ n := by
    decide +kernel
  have oversized : Oversized t := ⟨kind, text ▸ read⟩
  exact ⟨stream, valid, tokenized, program, kinds, t, Array.mem_toList_iff.1 mem, oversized⟩

/-- The function is not parsed. -/
theorem parseProgram_blames_behind_oversized_return :
    ∃ (stream : TokenStream Kind) (valid : List (Token Kind)) (k : Nat),
      tokenize returnTooLarge "" = .ok stream ∧ IsProgram valid ∧
        stream.tokens.toList.map Token.kind = valid.map Token.kind ∧
        (∃ t ∈ stream.tokens, Oversized t) ∧ FirstOversized stream k ∧
        parseProgram returnTooLarge "" = .error (.parse ⟨stream.get (k + 1)⟩) := by
  obtain ⟨stream, valid, tokenized, program, kinds, exceeds⟩ := exists_stream_returnTooLarge
  obtain ⟨k, first, failed⟩ :=
    parseProgram_blames_behind_oversized tokenized program kinds exceeds
  exact ⟨stream, valid, k, tokenized, program, kinds, exceeds, first, failed⟩

/-- The token that the parse of a source is blamed on, if it is blamed on one. -/
def blamed (source file : String) : Option (Token Kind) :=
  match parseProgram source file with
  | .error (.parse e) => some e.token
  | _ => none

/-- **The number itself is not blamed.** -/
theorem not_blamed_oversized :
    ¬ ∀ (source file : String) (stream : TokenStream Kind) (valid : List (Token Kind)) (k : Nat),
      tokenize source file = .ok stream → IsProgram valid →
        stream.tokens.toList.map Token.kind = valid.map Token.kind → FirstOversized stream k →
        parseProgram source file = .error (.parse ⟨stream.get k⟩) := by
  intro onNumber
  obtain ⟨stream, valid, tokenized, program, kinds, exceeds⟩ := exists_stream_returnTooLarge
  obtain ⟨k, first⟩ := exists_firstOversized exceeds
  have failed := onNumber returnTooLarge "" stream valid k tokenized program kinds first
  have semicolon : (blamed returnTooLarge "").map Token.kind = some .semicolon := by
    decide +kernel
  rw [blamed, failed] at semicolon
  cases first.1.1.symm.trans (Option.some.inj semicolon)

end FrontEnd.Language
