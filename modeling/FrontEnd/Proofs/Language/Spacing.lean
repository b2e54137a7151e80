import FrontEnd.Proofs.Language.Concatenation
import FrontEnd.Proofs.Language.Vocabulary

/-!
# Tokens with white space between them

What tokens a source has depends on where its words end.  If the texts of its tokens are written
again, with any white space between them, then every word ends where it ended before.

## Main Definitions

* `Language.Spaced` — texts one after the other, with white space between them

## Main Results

* `Language.Spaced.exists_cuts` — spaced words are cut into these words
* `Language.analyse_classifies_and_respaces` — kinds are told by texts, and spacing keeps both

## Design Notes

**White space keeps words apart.**  A word with white space is white space, so no word of a token
goes on into a gap, and no gap goes on into the next token.
-/

namespace FrontEnd

namespace Language

open Scanner

variable {word gap behind text : List Char} {kind : Kind}

/-- The texts stand one after the other, with white space between them. -/
inductive Spaced : List String → List Char → Prop where
  | none : Spaced [] []
  | one (text : String) : Spaced [text] text.toList
  | more {first next : String} {texts : List String} {gap text : List Char} :
      gap ≠ [] → Blank gap → Spaced (next :: texts) text →
        Spaced (first :: next :: texts) (first.toList ++ (gap ++ text))

/-- Single spaces are white space. -/
theorem spaced_intercalate (texts : List String) : Spaced texts (" ".intercalate texts).toList := by
  match texts with
  | [] => exact .none
  | [text] =>
    rw [String.intercalate_singleton]
    exact .one text
  | first :: next :: texts =>
    have gap : Blank [' '] := by simp [Blank, blanks]
    rw [String.intercalate_cons_cons, String.toList_append, String.toList_append,
      List.append_assoc]
    exact .more (List.cons_ne_nil _ _) gap (spaced_intercalate (next :: texts))

/-! ### Words and gaps -/

/-- There is no white space in a token. -/
theorem notMem_blanks_of_wins (h : Wins lexicon word (.emit kind)) : ∀ c ∈ word, c ∉ blanks := by
  intro c mem blank
  cases eq_ignore_of_wins h mem blank

/-- A token ends in front of a gap. -/
theorem longest_in_front_of_gap (h : Wins lexicon word (.emit kind)) (some : gap ≠ [])
    (blank : Blank gap) (behind : List Char) :
    Longest lexicon (word ++ (gap ++ behind)) word (.emit kind) := by
  refine h.longest.append fun more goesOn front matched => ?_
  obtain ⟨c, gap, rfl⟩ := List.exists_cons_of_ne_nil some
  obtain ⟨d, more, rfl⟩ := List.exists_cons_of_ne_nil goesOn
  obtain ⟨rfl, -⟩ := List.cons_prefix_cons.1 front
  -- A match that goes on would be white space, and so would be the token.
  have whole := blank_of_matched matched (List.mem_append_right word List.mem_cons_self)
    (blank d List.mem_cons_self)
  obtain ⟨e, mem⟩ := List.exists_mem_of_ne_nil word h.longest.nonempty
  exact notMem_blanks_of_wins h e mem (whole e (List.mem_append_left _ mem))

/-- A gap ends in front of a token. -/
theorem longest_gap (some : gap ≠ []) (blank : Blank gap) (token : Wins lexicon word (.emit kind))
    (front : word <+: behind) : Longest lexicon (gap ++ behind) gap .ignore := by
  refine (wins_blank some blank).longest.append fun more goesOn within matched => ?_
  obtain ⟨behind, rfl⟩ := front
  obtain ⟨c, word, rfl⟩ := List.exists_cons_of_ne_nil token.longest.nonempty
  obtain ⟨d, more, rfl⟩ := List.exists_cons_of_ne_nil goesOn
  obtain ⟨rfl, -⟩ := List.cons_prefix_cons.1 within
  -- A match that goes on would be white space, and so would be the first character of the token.
  obtain ⟨e, mem⟩ := List.exists_mem_of_ne_nil gap some
  have whole := blank_of_matched matched (List.mem_append_left _ mem) (blank e mem)
  exact notMem_blanks_of_wins token d List.mem_cons_self
    (whole d (List.mem_append_right gap List.mem_cons_self))

/-- Spaced texts begin with the first one. -/
theorem Spaced.prefix_head {first : String} {texts : List String}
    (h : Spaced (first :: texts) text) : first.toList <+: text := by
  cases h with
  | one => exact List.prefix_rfl
  | more => exact List.prefix_append _ _

/-- **Spaced words are cut into these words.** -/
theorem Spaced.exists_cuts {shown : List (Kind × String)}
    (words : ∀ t ∈ shown, Wins lexicon t.2.toList (.emit t.1))
    (spaced : Spaced (shown.map Prod.snd) text) :
    ∃ pieces, Cuts (Longest lexicon) text pieces [] ∧ pieces.filterMap emitted = shown := by
  induction shown generalizing text with
  | nil =>
    cases spaced
    exact ⟨[], .stop [], rfl⟩
  | cons t shown ih =>
    obtain ⟨kind, first⟩ := t
    obtain ⟨wins, later⟩ := List.forall_mem_cons.1 words
    have shows : emitted (first.toList, .emit kind) = some (kind, first) := by
      rw [emitted, String.ofList_toList]
    cases shown with
    | nil =>
      cases spaced
      have taken : Longest lexicon (first.toList ++ []) first.toList (.emit kind) := by
        rw [List.append_nil]
        exact wins.longest
      have cuts := Cuts.piece taken (.stop [])
      rw [List.append_nil] at cuts
      exact ⟨_, cuts, by rw [List.filterMap_cons, shows]; rfl⟩
    | cons next shown =>
      obtain ⟨kind', second⟩ := next
      cases spaced with
      | @more _ _ _ gap text some blank spaced =>
      obtain ⟨pieces, cuts, emits⟩ := ih later spaced
      have token := longest_in_front_of_gap wins some blank text
      have space := longest_gap some blank (later _ List.mem_cons_self) spaced.prefix_head
      refine ⟨_, .piece token (.piece space cuts), ?_⟩
      rw [List.filterMap_cons, shows, List.filterMap_cons, emits]
      rfl

/-! ### Sources -/

/-- **Kinds are told by texts, and spacing keeps both.**  In any source that can be analysed, the
kind of a token is determined by its text.  The texts of all tokens with any white space between
them, for one single spaces, can be analysed again, and have the same kinds and texts. -/
theorem analyse_classifies_and_respaces {source file : String} {tokens : List (Token Kind)}
    (analysed : analyse source file = .ok tokens) :
    (∀ t ∈ tokens, Classified t.kind t.text) ∧
      (∀ respaced anyFile, Spaced (tokens.map Token.text) respaced.toList →
        ∃ again, analyse respaced anyFile = .ok again ∧
          again.map (fun t => (t.kind, t.text)) = tokens.map fun t => (t.kind, t.text)) ∧
      ∀ anyFile, ∃ again,
        analyse (" ".intercalate (tokens.map Token.text)) anyFile = .ok again ∧
          again.map (fun t => (t.kind, t.text)) = tokens.map fun t => (t.kind, t.text) := by
  obtain ⟨pieces, cuts, emits⟩ := exists_analyse_iff.1 ⟨tokens, analysed, rfl⟩
  have words : ∀ t ∈ tokens.map fun t => (t.kind, t.text),
      Wins lexicon t.2.toList (.emit t.1) := by
    rw [← emits]
    exact fun t => wins_of_mem_emitted cuts
  have respaced (text anyFile : String) (spaced : Spaced (tokens.map Token.text) text.toList) :
      ∃ again, analyse text anyFile = .ok again ∧
        again.map (fun t => (t.kind, t.text)) = tokens.map fun t => (t.kind, t.text) := by
    refine exists_analyse_iff.2 (Spaced.exists_cuts words ?_)
    rwa [List.map_map]
  refine ⟨fun t mem => ?_, respaced, fun anyFile => ?_⟩
  · exact classified_of_wins (words _ (List.mem_map_of_mem mem))
  · exact respaced _ anyFile (spaced_intercalate _)

/-- An identifier that begins with a keyword, and operators that are parts of one another. -/
theorem analyse_classifies_and_respaces_format :
    ∃ tokens, analyse "format<=in->x1..9" "f.prog" = .ok tokens ∧
      tokens.map (fun t => (t.kind, t.text)) =
        [(.identifier, "format"), (.lessOrEqual, "<="), (.inWord, "in"), (.arrow, "->"),
          (.identifier, "x1"), (.ellipsis, ".."), (.number, "9")] ∧
      (∀ t ∈ tokens, Classified t.kind t.text) ∧
      ∃ again, analyse "format \t<=\n\nin -> x1 .. 9" "g.prog" = .ok again ∧
        again.map (fun t => (t.kind, t.text)) = tokens.map fun t => (t.kind, t.text) := by
  obtain ⟨tokens, analysed, shows⟩ := exists_analyse_iff.2
    (shownIn_eq_some_iff.1 (show shownIn "format<=in->x1..9" "f.prog" = some
      [(.identifier, "format"), (.lessOrEqual, "<="), (.inWord, "in"), (.arrow, "->"),
        (.identifier, "x1"), (.ellipsis, ".."), (.number, "9")] by decide +kernel))
  have texts : tokens.map Token.text = ["format", "<=", "in", "->", "x1", "..", "9"] := by
    have texts := congrArg (List.map Prod.snd) shows
    rwa [List.map_map] at texts
  have spaced : Spaced (tokens.map Token.text) "format \t<=\n\nin -> x1 .. 9".toList := by
    have wide : Blank [' ', '\t'] := by simp [Blank, blanks]
    have lines : Blank ['\n', '\n'] := by simp [Blank, blanks]
    have space : Blank [' '] := by simp [Blank, blanks]
    rw [texts]
    exact .more (by simp) wide (.more (by simp) lines (.more (by simp) space
      (.more (by simp) space (.more (by simp) space (.more (by simp) space (.one "9"))))))
  obtain ⟨classified, respaced, -⟩ := analyse_classifies_and_respaces analysed
  exact ⟨tokens, analysed, shows, classified, respaced _ _ spaced⟩

end Language

end FrontEnd
