import FrontEnd.Proofs.Automaton.Trim
import FrontEnd.Proofs.Scanner.MaximalMunch
import FrontEnd.Proofs.Scanner.Places

/-!
# Dead ends

Where a scan fails, it says exactly how far it has come: everything in front of the error can be
scanned, nothing behind it can be, and the text of the error ends at the first character that no
text of any rule has there.

## Main Definitions

* `textBehind` — what stands behind a position
* `Scanner.Promising` — a word that begins a text that some rule matches
* `Scanner.LongestPromising` — the longest front of a text that is promising

## Main Results

* `Dfa.munch_reached` — how far an automaton runs over a text
* `Scanner.Longest.of_front` — what has been cut off does not depend on the end of the text
* `Scanner.Registered.isSome_run_iff` — the automaton follows a word if the word is promising
* `Scanner.Registered.analyse_dead_end` — what a scanning error says

## Design Notes

**The automaton looks no further than the rules.**  The run stops where no edge takes the next
character.  As no edge of the shared automaton is followed in vain, this is where no rule can be
satisfied any more, and not later.

**The pieces in front stand.**  The front of a source up to an error is cut as the source was, for a
longest match remains the longest one in a text that ends earlier.
-/

namespace FrontEnd

/-! ### Positions -/

/-- What stands behind a position of a source. -/
def textBehind {source : String} (p : source.Pos) : List Char := (source.sliceFrom p).copy.toList

/-- Between two parts of a source there is a position. -/
theorem exists_pos_of_split {source : String} {front back : List Char}
    (split : source.toList = front ++ back) :
    ∃ p : source.Pos, p.offset.byteIdx = (String.ofList front).utf8ByteSize ∧
      (source.sliceTo p).copy = String.ofList front ∧ textBehind p = back := by
  have parts : source = String.ofList front ++ String.ofList back := by
    rw [← String.ofList_append, ← split, String.ofList_toList]
  have boundary : (String.ofList front).rawEndPos.IsValid source :=
    String.Pos.Raw.isValid_iff_exists_append.2 ⟨_, _, parts, rfl⟩
  let p : source.Pos := source.pos _ boundary
  have splits : p.Splits (String.ofList front) (String.ofList back) := ⟨parts, rfl⟩
  refine ⟨p, rfl, p.splits.eq_left splits, ?_⟩
  rw [textBehind, p.splits.eq_right splits, String.toList_ofList]

/-! ### Running over a text -/

namespace Dfa

variable {α : Type}

/-- From a state, an automaton runs over the longest front that leads somewhere. -/
theorem munchFrom_reached (d : Dfa α) (q : Nat) (m : Munch α) (text : List Char) :
    ∃ front, front <+: text ∧ (d.munchFrom q m text).reached = m.reached + front.length ∧
      (d.runFrom q front).isSome ∧
        ∀ longer, longer <+: text → front.length < longer.length → d.runFrom q longer = none := by
  induction text generalizing q m with
  | nil =>
    refine ⟨[], List.prefix_refl [], rfl, rfl, fun longer front less => ?_⟩
    rw [List.prefix_nil.1 front] at less
    exact absurd less (Nat.lt_irrefl _)
  | cons c rest ih =>
    cases edge : d.step q c with
    | none =>
      refine ⟨[], List.nil_prefix, by simp only [munchFrom, edge]; rfl, rfl,
        fun longer front less => ?_⟩
      obtain ⟨c', longer, rfl⟩ := List.exists_cons_of_ne_nil (List.length_pos_iff.1 less)
      obtain ⟨rfl, -⟩ := List.cons_prefix_cons.1 front
      rw [runFrom_cons, edge, Option.bind_none]
    | some r =>
      obtain ⟨best, taken⟩ : ∃ best, d.munchFrom q m (c :: rest) =
          d.munchFrom r ⟨best, m.reached + 1⟩ rest := ⟨_, by rw [munchFrom, edge]⟩
      obtain ⟨front, isFront, reached, followed, longest⟩ := ih r ⟨best, m.reached + 1⟩
      refine ⟨c :: front, List.cons_prefix_cons.2 ⟨rfl, isFront⟩, ?_, ?_, ?_⟩
      · rw [taken, reached, List.length_cons, Nat.add_assoc, Nat.add_comm 1]
      · rwa [runFrom_cons, edge, Option.bind_some]
      · intro longer longerFront less
        obtain ⟨c', longer, rfl⟩ :=
          List.exists_cons_of_ne_nil (List.length_pos_iff.1 (Nat.zero_lt_of_lt less))
        obtain ⟨rfl, later⟩ := List.cons_prefix_cons.1 longerFront
        rw [runFrom_cons, edge, Option.bind_some]
        exact longest longer later (Nat.lt_of_succ_lt_succ less)

/-- **An automaton runs over the longest front that leads somewhere.** -/
theorem munch_reached (d : Dfa α) (text : List Char) :
    ∃ front, front <+: text ∧ (d.munch text).reached = front.length ∧ (d.run front).isSome ∧
      ∀ longer, longer <+: text → front.length < longer.length → d.run longer = none := by
  obtain ⟨front, isFront, reached, spec⟩ := d.munchFrom_reached root ⟨none, 0⟩ text
  exact ⟨front, isFront, reached.trans (Nat.zero_add _), spec⟩

end Dfa

namespace Scanner

variable {κ : Type} [DecidableEq κ] {s : Scanner κ} {rules : List (Rule κ)}

/-! ### Cutting the front of a text -/

/-- The longest match remains the longest one in a text that ends earlier. -/
theorem Longest.of_front {text shorter word : List Char} {a : Action κ}
    (h : Longest rules text word a) (isFront : shorter <+: text) (inside : word <+: shorter) :
    Longest rules shorter word a :=
  ⟨h.nonempty, inside, h.wins, fun longer front => h.longest longer (front.trans isFront)⟩

/-- The pieces of a text, up to a rest, are those of the text without the rest. -/
theorem cuts_flatten {text rest : List Char} {pieces : List (List Char × Action κ)}
    (h : Cuts (Longest rules) text pieces rest) :
    Cuts (Longest rules) (pieces.map Prod.fst).flatten pieces [] := by
  induction h with
  | stop text => exact .stop []
  | @piece word text rest a pieces taken later ih =>
    have isFront : (pieces.map Prod.fst).flatten <+: text := ⟨rest, later.flatten_append⟩
    rw [List.map_cons, List.flatten_cons]
    refine .piece (taken.of_front ?_ (List.prefix_append _ _)) ih
    exact (List.prefix_append_right_inj word).2 isFront

/-- A failing analysis cuts the source up to the place where it is stuck, and shows what has been
read from there on, with the next character. -/
theorem exists_cuts_of_analyse {source file : String} {e : ScanError}
    (h : s.analyse source file = .error e) :
    ∃ pieces rest, Cuts s.automaton.TakesLongest source.toList pieces rest ∧
      s.automaton.Stuck rest ∧
      e.location.offset = (String.ofList (pieces.map Prod.fst).flatten).utf8ByteSize ∧
      e.text = String.ofList (rest.take ((s.automaton.munch rest).reached + 1)) := by
  have scanned := scan_of_analyse_eq_error h
  rw [scan] at scanned
  cases failed : s.automaton.spans 0 .start source.toList with
  | ok result => simp [failed] at scanned
  | error deadEnd =>
    simp only [failed, Except.error.injEq] at scanned
    obtain ⟨pieces, rest, cuts, stuck, atRest⟩ := Dfa.spans_eq_error_iff.1 failed
    rw [Dfa.spans_of_stuck stuck, Except.error.injEq] at atRest
    have place : placeBehind .start pieces =
        Location.start.after ([] ++ (pieces.map Prod.fst).flatten) := placeBehind_after [] pieces
    refine ⟨pieces, rest, cuts, stuck, ?_, ?_⟩
    · rw [← scanned, ← atRest, place, Location.after_start]
      rfl
    · rw [← scanned, ← atRest]

/-! ### Words that some rule goes on from -/

/-- Some rule matches a text that begins with the word; the empty word always counts. -/
def Promising (rules : List (Rule κ)) (word : List Char) : Prop :=
  word = [] ∨ ∃ more, Matched rules (word ++ more)

/-- The longest front of a text that is promising. -/
structure LongestPromising (rules : List (Rule κ)) (text front : List Char) : Prop where
  isFront : front <+: text
  promising : Promising rules front
  longest : ∀ longer, longer <+: text → front.length < longer.length → ¬ Promising rules longer

/-- The rules of a scanner open no dead branch, for their patterns have been read from texts. -/
theorem Registered.trim [TokenKind κ] (h : s.Registered rules) : s.nfa.Trim := by
  induction h with
  | empty => exact Nfa.trim_empty
  | addRule before read added ih =>
    obtain ⟨-, p, read', rfl⟩ := addRule_eq_ok_iff.1 added
    have wellFormed : p.WellFormed := (Pattern.read_eq_ok_iff.1 read').2.1
    exact ih.compile before.reflects.rooted wellFormed _
  | ignoreRule before read added ih =>
    obtain ⟨p, read', rfl⟩ := register_eq_ok_iff.1 added
    have wellFormed : p.WellFormed := (Pattern.read_eq_ok_iff.1 read').2.1
    exact ih.compile before.reflects.rooted wellFormed _
  | compile _ ih => exact ih

/-- **The automaton follows a word** exactly if some rule matches a text that begins with it. -/
theorem Registered.isSome_run_iff [TokenKind κ] (h : s.Registered rules) {word : List Char}
    (nonempty : word ≠ []) :
    (s.automaton.run word).isSome ↔ ∃ more, Matched rules (word ++ more) := by
  have reflects : s.Reflects rules := h.reflects
  rw [reflects.automaton, Dfa.isSome_run_iff reflects.rooted.toProper,
    h.trim.reached_nonempty_iff nonempty]
  simp only [reflects.matched_iff]

theorem Registered.promising_iff [TokenKind κ] (h : s.Registered rules) {word : List Char} :
    Promising rules word ↔ (s.automaton.run word).isSome := by
  by_cases empty : word = []
  · subst empty
    exact iff_of_true (.inl rfl) rfl
  · rw [h.isSome_run_iff empty, Promising, or_iff_right empty]

/-- A run over a text ends behind its longest promising front. -/
theorem Registered.exists_longestPromising [TokenKind κ] (h : s.Registered rules)
    (text : List Char) :
    ∃ front, LongestPromising rules text front ∧
      (s.automaton.munch text).reached = front.length := by
  obtain ⟨front, isFront, reached, followed, longest⟩ := s.automaton.munch_reached text
  refine ⟨front, ⟨isFront, h.promising_iff.2 followed, fun longer longerFront less => ?_⟩, reached⟩
  rw [h.promising_iff, longest longer longerFront less]
  exact Bool.false_ne_true

variable [TokenKind κ]

/-- **Scanning errors name the dead end.**  Where the analysis of a source fails, the offset of the
error is a position of the source; what stands in front of it can be analysed, and no rule matches a
nonempty front of what stands behind it.  The text of the error is the longest promising front of
that, with the next character, if there is one.  For a nonempty word can be followed by the
automaton exactly if some rule matches a text that begins with the word. -/
theorem Registered.analyse_dead_end (h : s.Registered rules) :
    (∀ source file e, s.analyse source file = .error e →
      ∃ p : source.Pos, p.offset.byteIdx = e.location.offset ∧
        (∃ tokens, s.analyse (source.sliceTo p).copy file = .ok tokens) ∧
        Unmatched rules (textBehind p) ∧
        ∃ front, LongestPromising rules (textBehind p) front ∧
          e.text = String.ofList (front ++ ((textBehind p).drop front.length).take 1)) ∧
    ∀ word, word ≠ [] →
      ((s.automaton.run word).isSome ↔ ∃ more, Matched rules (word ++ more)) := by
  refine ⟨fun source file e failed => ?_, fun word nonempty => h.isSome_run_iff nonempty⟩
  have reflects : s.Reflects rules := h.reflects
  obtain ⟨pieces, rest, cuts, stuck, offset, text⟩ := exists_cuts_of_analyse failed
  obtain ⟨p, atOffset, before, behind⟩ := exists_pos_of_split cuts.flatten_append.symm
  refine ⟨p, atOffset.trans offset.symm, ?_, ?_, ?_⟩
  · have whole := cuts_flatten (reflects.cuts_iff.1 cuts)
    have analysed := (reflects.analyse_eq_ok_iff (source.sliceTo p).copy file _).2
      ⟨pieces, by rwa [before, String.toList_ofList], by rw [before, String.toList_ofList], rfl⟩
    obtain ⟨tokens, analysed, -⟩ := analysed
    exact ⟨tokens, analysed⟩
  · rw [behind]
    exact reflects.stuck_iff.1 stuck
  · rw [behind]
    obtain ⟨front, longest, reached⟩ := h.exists_longestPromising rest
    refine ⟨front, longest, ?_⟩
    rw [text, reached, List.take_add, ← List.prefix_iff_eq_take.1 longest.isFront]

/-- With the rule `äbc` and ignored blanks, `äbd` is a dead end behind the first word; the last of
its characters is the one that is rejected. -/
theorem analyse_dead_end_umlaut :
    let rules : List (Rule RuleId) :=
      [⟨.emit ⟨0⟩, .char 'ä' (.char 'b' (.char 'c' .done))⟩, ⟨.ignore, .char ' ' .done⟩]
    ∃ s, Registered s rules ∧
      s.analyse "äbc äbde" "f" = .error ⟨"f", ⟨5, 1, 5, 3⟩, "äbd"⟩ ∧
      ∃ p : String.Pos "äbc äbde", p.offset.byteIdx = 5 ∧
        (∃ tokens, s.analyse (String.sliceTo "äbc äbde" p).copy "f" = .ok tokens) ∧
        Unmatched rules (textBehind p) ∧
        ∃ front, LongestPromising rules (textBehind p) front ∧
          "äbd" = String.ofList (front ++ ((textBehind p).drop front.length).take 1) := by
  intro rules
  have word : Pattern.read "äbc" = .ok (.char 'ä' (.char 'b' (.char 'c' .done))) := rfl
  have blank : Pattern.read " " = .ok (.char ' ' .done) := rfl
  obtain ⟨s, registered, failed⟩ : ∃ s, Registered s rules ∧
      s.analyse "äbc äbde" "f" = .error ⟨"f", ⟨5, 1, 5, 3⟩, "äbd"⟩ :=
    ⟨_, (Registered.empty.add "W" (by decide) word).ignore blank, by decide +kernel⟩
  exact ⟨s, registered, failed, registered.analyse_dead_end.1 _ _ _ failed⟩

end Scanner

end FrontEnd
