import FrontEnd.Proofs.Language.Completeness
import FrontEnd.Proofs.Language.Soundness

/-!
# The language of the grammar

A stream of tokens is read as a program exactly if its tokens spell that program.

## Main Results

* `Language.run_program_iff` — what the entry rule does on a whole stream
* `Language.parseStream_eq_ok_iff` — the streams that are read as a given program
* `Language.unparse_unambiguous` — no stream spells two programs

## Design Notes

**Soundness and completeness meet at the end of the stream.**  A run of the entry rule that has come
to the end has read all tokens, so what it has read is what the stream spells; and behind the last
function nothing follows that could have gone on with it.
-/

namespace FrontEnd.Language

/-- The entry rule is entered with depth to spare. -/
theorem run_eq (s : TokenStream Kind) :
    productions.run s (.rule .program) =
      (Phrase.program.meaning s (productions.call s (6 * s.size + 5))).value := by
  have depth : productions.depth s = 6 * s.size + 5 + 1 := by
    show (5 + 1) * (s.size + 1) = _
    omega
  show productions.call s (productions.depth s) .program = _
  rw [depth, call_succ]
  rfl

/-- **The entry rule.**  It yields a program and comes to the end exactly if the whole stream spells
the program. -/
theorem run_program_iff {s : TokenStream Kind} {p : Program} :
    (∃ c, productions.run s (.rule .program) .start = .ok (some p, c) ∧ c.atEnd s = true) ↔
      Spelled spells s 0 p.unparse s.tokens.size := by
  rw [run_eq]
  constructor
  · rintro ⟨c, run, atEnd⟩
    obtain ⟨w, passed, read⟩ := closed_reading.reads s.size_pos run
    have spelled := passed.of_forall₂ (reads_program.value w p read)
    have inside := spelled.inside s.size_pos
    -- Inside the stream and at its end: the run has read all tokens.
    have last := Cursor.atEnd_iff.1 atEnd
    have position : c.position = s.tokens.size := by
      unfold TokenStream.size at inside last
      omega
    rwa [position] at spelled
  · intro spelled
    have last : s.size ≤ s.tokens.size + 1 := Nat.le_refl _
    have enough : 4 * (s.size - 0) ≤ 6 * s.size + 5 := by omega
    obtain ⟨mark, run⟩ :=
      (yields_program (complete_call s _) s.size_pos enough spelled last).value 0
    exact ⟨⟨s.tokens.size, mark⟩, run, Cursor.atEnd_iff.2 last⟩

/-- The whole stream spells symbols one by one. -/
theorem spelled_whole {s : TokenStream Kind} {symbols : List Symbol} :
    Spelled spells s 0 symbols s.tokens.size ↔ List.Forall₂ spells s.tokens.toList symbols := by
  rw [spelled_iff_forall₂ (Nat.zero_le _), List.drop_zero]

/-- **The grammar reads exactly its language.**  A stream is read as a program if and only if its
tokens, the end token apart, match the symbols of the program one for one. -/
theorem parseStream_eq_ok_iff (s : TokenStream Kind) (p : Program) :
    parseStream s = .ok (.ok p) ↔ List.Forall₂ spells s.tokens.toList p.unparse := by
  rw [← spelled_whole, ← run_program_iff, parseStream, Rules.parseAll]
  cases run : productions.run s (.rule .program) .start with
  | error e => simp
  | ok result =>
    obtain ⟨value, c⟩ := result
    cases value with
    | none => simp
    | some p' =>
      cases atEnd : c.atEnd s with
      | false => simp [atEnd]
      | true => simp [atEnd]

-- Both sides can be computed.
example :
    let tokens : List (Token Kind) :=
      [⟨.defunWord, "defun", .start⟩, ⟨.identifier, "f", .start⟩, ⟨.leftParen, "(", .start⟩,
        ⟨.rightParen, ")", .start⟩, ⟨.leftBrace, "\x7b", .start⟩, ⟨.returnWord, "return", .start⟩,
        ⟨.number, "7", .start⟩, ⟨.semicolon, ";", .start⟩, ⟨.rightBrace, "\x7d", .start⟩]
    let p : Program := ⟨[⟨"f", [], [.giveBack (.term (.factor (.number 7)))]⟩]⟩
    parseStream (.ofTokens tokens .start) = .ok (.ok p) ∧ List.Forall₂ spells tokens p.unparse :=
  ⟨rfl, by decide +kernel⟩

/-- No stream spells two programs. -/
theorem unparse_unambiguous {s : TokenStream Kind} {p p' : Program}
    (h : List.Forall₂ spells s.tokens.toList p.unparse)
    (h' : List.Forall₂ spells s.tokens.toList p'.unparse) : p = p' := by
  rw [← spelled_whole, ← run_program_iff] at h h'
  obtain ⟨c, run, -⟩ := h
  obtain ⟨c', run', -⟩ := h'
  rw [run] at run'
  cases run'
  rfl

end FrontEnd.Language
