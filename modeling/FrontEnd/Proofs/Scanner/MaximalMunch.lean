import FrontEnd.Proofs.Scanner.Registered

/-!
# Maximal munch

Scanning a source amounts to cutting it by the rules alone: always the longest front that some rule
matches, counted as the matching action that was registered first.

## Main Definitions

* `Scanner.Longest` — the longest front of a text that some rule matches, and what it counts as
* `Scanner.emitted` — what remains of a piece in the tokens

## Main Results

* `Scanner.Reflects.analyse_eq_ok_iff`, `Scanner.Reflects.analyse_eq_error_iff` — success and
  failure of a scan, in terms of the rules
* `Scanner.Registered.analyse_maximal_munch` — the whole scanner against the rules
* `Scanner.analyse_maximal_munch_overlap` — the theorem at three overlapping rules

## Design Notes

**The reference is relational.**  `Longest` mentions neither automata nor positions in a scan.  That
a cut exists and is the only one follows from the scan itself, which is a function of the source.
-/

namespace FrontEnd.Scanner

variable {κ : Type} [DecidableEq κ]

/-- The longest nonempty front of a text that some rule matches, and the action that counts for
it. -/
structure Longest (rules : List (Rule κ)) (text word : List Char) (action : Action κ) : Prop where
  nonempty : word ≠ []
  front : word <+: text
  wins : Wins rules word action
  longest : ∀ longer, longer <+: text → word.length < longer.length → ¬ Matched rules longer

/-- No rule matches any nonempty front of the text, and there is text left. -/
structure Unmatched (rules : List (Rule κ)) (text : List Char) : Prop where
  nonempty : text ≠ []
  none : ∀ word, word ≠ [] → word <+: text → ¬ Matched rules word

/-- The kind and the text that a piece contributes, unless it is ignored. -/
def emitted : List Char × Action κ → Option (κ × String)
  | (word, .emit kind) => some (kind, String.ofList word)
  | (_, .ignore) => none

namespace Reflects

variable {s : Scanner κ} {rules : List (Rule κ)}

/-! ### The automaton and the rules -/

theorem takesLongest_iff (h : s.Reflects rules) {text word : List Char} {a : Action κ} :
    s.automaton.TakesLongest text word a ↔ Longest rules text word a := by
  constructor
  · intro taken
    refine ⟨taken.nonempty, taken.front, h.verdict_eq_some_iff.1 taken.verdict, ?_⟩
    intro longer front less
    exact h.verdict_eq_none_iff.1 (taken.longest longer front less)
  · intro taken
    refine ⟨taken.nonempty, taken.front, h.verdict_eq_some_iff.2 taken.wins, ?_⟩
    intro longer front less
    exact h.verdict_eq_none_iff.2 (taken.longest longer front less)

theorem stuck_iff (h : s.Reflects rules) {text : List Char} :
    s.automaton.Stuck text ↔ Unmatched rules text := by
  constructor
  · intro stuck
    refine ⟨stuck.nonempty, fun word nonempty front => ?_⟩
    exact h.verdict_eq_none_iff.1 (stuck.verdict word nonempty front)
  · intro unmatched
    refine ⟨unmatched.nonempty, fun word nonempty front => ?_⟩
    exact h.verdict_eq_none_iff.2 (unmatched.none word nonempty front)

/-- Cutting by the automaton is cutting by the rules. -/
theorem cuts_iff (h : s.Reflects rules) {text rest : List Char}
    {pieces : List (List Char × Action κ)} :
    Cuts s.automaton.TakesLongest text pieces rest ↔ Cuts (Longest rules) text pieces rest :=
  ⟨Cuts.congr fun _ _ _ => h.takesLongest_iff.1, Cuts.congr fun _ _ _ => h.takesLongest_iff.2⟩

end Reflects

/-! ### Tokens of pieces -/

omit [DecidableEq κ] in
/-- The tokens of the spans show what the pieces emit. -/
theorem map_filterMap_tokenOf_layout (place : Location) (pieces : List (List Char × Action κ)) :
    ((layout place pieces).filterMap tokenOf).map (fun t => (t.kind, t.text)) =
      pieces.filterMap emitted := by
  induction pieces generalizing place with
  | nil => rfl
  | cons piece pieces ih =>
    obtain ⟨word, action⟩ := piece
    cases action with
    | emit kind =>
      simp only [layout, List.filterMap_cons, tokenOf, emitted, List.map_cons, ih]
    | ignore => simp only [layout, List.filterMap_cons, tokenOf, emitted, ih]

namespace Reflects

variable {s : Scanner κ} {rules : List (Rule κ)}

/-! ### The whole scan -/

/-- A scan succeeds exactly if the source can be cut to its end, and then shows what the pieces
emit. -/
theorem analyse_eq_ok_iff (h : s.Reflects rules) (source file : String)
    (shown : List (κ × String)) :
    (∃ tokens, s.analyse source file = .ok tokens ∧
        tokens.map (fun t => (t.kind, t.text)) = shown) ↔
      ∃ pieces, Cuts (Longest rules) source.toList pieces [] ∧
        (pieces.map Prod.fst).flatten = source.toList ∧ pieces.filterMap emitted = shown := by
  constructor
  · rintro ⟨tokens, analysed, rfl⟩
    rw [analyse, scan] at analysed
    cases scanned : s.automaton.spans 0 .start source.toList with
    | error e => simp [scanned] at analysed
    | ok result =>
      obtain ⟨spans, last⟩ := result
      simp only [scanned, Except.ok.injEq] at analysed
      obtain ⟨pieces, cuts, rfl, -⟩ := Dfa.spans_eq_ok_iff.1 scanned
      refine ⟨pieces, h.cuts_iff.1 cuts, cuts.flatten_eq, ?_⟩
      rw [← analysed, map_filterMap_tokenOf_layout]
  · rintro ⟨pieces, cuts, -, rfl⟩
    have scanned : s.automaton.spans 0 .start source.toList =
        .ok (layout .start pieces, placeBehind .start pieces) :=
      Dfa.spans_eq_ok_iff.2 ⟨pieces, h.cuts_iff.2 cuts, rfl, rfl⟩
    refine ⟨(layout .start pieces).filterMap tokenOf, ?_, map_filterMap_tokenOf_layout _ _⟩
    rw [analyse, scan, scanned]

/-- A scan fails exactly if cutting the source comes to a place at which no rule matches. -/
theorem analyse_eq_error_iff (h : s.Reflects rules) (source file : String) :
    (∃ e, s.analyse source file = .error e) ↔
      ∃ pieces rest, Cuts (Longest rules) source.toList pieces rest ∧ Unmatched rules rest := by
  constructor
  · rintro ⟨e, analysed⟩
    rw [analyse, scan] at analysed
    cases scanned : s.automaton.spans 0 .start source.toList with
    | ok result => simp [scanned] at analysed
    | error deadEnd =>
      obtain ⟨pieces, rest, cuts, stuck, -⟩ := Dfa.spans_eq_error_iff.1 scanned
      exact ⟨pieces, rest, h.cuts_iff.1 cuts, h.stuck_iff.1 stuck⟩
  · rintro ⟨pieces, rest, cuts, unmatched⟩
    have scanned := Dfa.spans_eq_error_iff.2
      ⟨pieces, rest, h.cuts_iff.2 cuts, h.stuck_iff.2 unmatched,
        Dfa.spans_of_stuck (h.stuck_iff.2 unmatched) (placeBehind .start pieces)⟩
    exact ⟨_, by rw [analyse, scan, scanned]⟩

end Reflects

variable [TokenKind κ]

/-- **Maximal munch.**  A scanner that has been given some rules returns the tokens of the longest
cuts of the source, the ignored pieces dropped, if the source can be cut to its end; the pieces make
up the source.  It fails exactly if the cuts come to a place at which text is left but no rule
matches any nonempty front of it. -/
theorem Registered.analyse_maximal_munch {s : Scanner κ} {rules : List (Rule κ)}
    (h : s.Registered rules) (source file : String) :
    (∀ shown, (∃ tokens, s.analyse source file = .ok tokens ∧
          tokens.map (fun t => (t.kind, t.text)) = shown) ↔
        ∃ pieces, Cuts (Longest rules) source.toList pieces [] ∧
          (pieces.map Prod.fst).flatten = source.toList ∧ pieces.filterMap emitted = shown) ∧
      ((∃ e, s.analyse source file = .error e) ↔
        ∃ pieces rest, Cuts (Longest rules) source.toList pieces rest ∧ Unmatched rules rest) :=
  ⟨h.reflects.analyse_eq_ok_iff source file, h.reflects.analyse_eq_error_iff source file⟩

/-- Of the rules `a`, `ab` and an ignored blank, the second one gets the first two characters. -/
theorem analyse_maximal_munch_overlap :
    let rules : List (Rule RuleId) :=
      [⟨.emit ⟨0⟩, .char 'a' .done⟩, ⟨.emit ⟨1⟩, .char 'a' (.char 'b' .done)⟩,
        ⟨.ignore, .char ' ' .done⟩]
    (∃ s, Registered s rules) ∧
      ∃ pieces, Cuts (Longest rules) "ab a".toList pieces [] ∧
        (pieces.map Prod.fst).flatten = "ab a".toList ∧
          pieces.filterMap emitted = [(⟨1⟩, "ab"), (⟨0⟩, "a")] := by
  intro rules
  have a : Pattern.read "a" = .ok (.char 'a' .done) := rfl
  have ab : Pattern.read "ab" = .ok (.char 'a' (.char 'b' .done)) := rfl
  have blank : Pattern.read " " = .ok (.char ' ' .done) := rfl
  have registered : Registered _ rules :=
    ((Registered.empty.add "A" (by decide) a).add "AB" (by decide) ab).ignore blank
  refine ⟨⟨_, registered⟩, ((registered.analyse_maximal_munch "ab a" "f").1 _).1 ?_⟩
  exact ⟨[⟨⟨1⟩, "ab", Location.start.withLength 2⟩,
    ⟨⟨0⟩, "a", (Location.start.after "ab ".toList).withLength 1⟩], by decide +kernel, rfl⟩

end FrontEnd.Scanner
