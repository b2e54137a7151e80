import FrontEnd.Scanner.Munch

/-!
# Cutting a text by longest match

## Main Definitions

* `Cuts` — a text cut into pieces from left to right, up to a rest
* `Dfa.verdict` — what an automaton recognises in a whole word
* `Dfa.TakesLongest`, `Dfa.Stuck` — the longest front of a text that is recognised, or none
* `layout` — the pieces of a text with their places

## Main Results

* `Dfa.munch_spec` — running over a text finds the longest front, if there is one
* `Dfa.spans_of_cuts` — the spans follow the cuts of the text
* `Dfa.exists_cuts` — every text can be cut until it is used up or stuck

## Design Notes

**One step, then the whole text.**  What happens at the front of a text is described by
`spans_of_takesLongest` and `spans_of_stuck`; cuts chain the first of them, and the second one, or
the end of the text, closes the chain.
-/

namespace FrontEnd

variable {α : Type}

/-- A text is cut into pieces from left to right, up to a rest.  Whether `word` may be cut off the
front of `text`, and what it counts as, is up to `next text word`. -/
inductive Cuts (next : List Char → List Char → α → Prop) :
    List Char → List (List Char × α) → List Char → Prop where
  /-- Nothing more is cut off. -/
  | stop (text : List Char) : Cuts next text [] text
  /-- A piece is cut off the front. -/
  | piece {word rest last : List Char} {a : α} {pieces : List (List Char × α)} :
      next (word ++ rest) word a → Cuts next rest pieces last →
        Cuts next (word ++ rest) ((word, a) :: pieces) last

/-- Pieces and rest make up the text. -/
theorem Cuts.flatten_append {next : List Char → List Char → α → Prop} {text last : List Char}
    {pieces : List (List Char × α)} (h : Cuts next text pieces last) :
    (pieces.map Prod.fst).flatten ++ last = text := by
  induction h with
  | stop text => rfl
  | piece _ _ ih => rw [List.map_cons, List.flatten_cons, List.append_assoc, ih]

/-- Without a rest, the pieces make up the text. -/
theorem Cuts.flatten_eq {next : List Char → List Char → α → Prop} {text : List Char}
    {pieces : List (List Char × α)} (h : Cuts next text pieces []) :
    (pieces.map Prod.fst).flatten = text := by
  rw [← h.flatten_append, List.append_nil]

/-- Cuts depend only on what may be cut off. -/
theorem Cuts.congr {next next' : List Char → List Char → α → Prop} {text last : List Char}
    {pieces : List (List Char × α)} (same : ∀ text word a, next text word a → next' text word a)
    (h : Cuts next text pieces last) : Cuts next' text pieces last := by
  induction h with
  | stop text => exact .stop text
  | piece taken _ ih => exact .piece (same _ _ _ taken) ih

/-- The pieces of a text with their places. -/
def layout (place : Location) : List (List Char × α) → List (Span α)
  | [] => []
  | (word, a) :: pieces =>
      ⟨a, word, place.withLength word.length⟩ :: layout (place.after word) pieces

/-- The place behind all pieces. -/
def placeBehind (place : Location) : List (List Char × α) → Location
  | [] => place
  | (word, _) :: pieces => placeBehind (place.after word) pieces

namespace Dfa

/-- What an automaton recognises in a whole word, read from a state. -/
def verdictFrom (d : Dfa α) (q : Nat) (word : List Char) : Option α :=
  (d.runFrom q word).bind d.accept

/-- What an automaton recognises in a whole word. -/
def verdict (d : Dfa α) (word : List Char) : Option α := (d.run word).bind d.accept

/-- The longest nonempty front of a text that is recognised, and as what. -/
structure TakesLongest (d : Dfa α) (text word : List Char) (a : α) : Prop where
  nonempty : word ≠ []
  front : word <+: text
  verdict : d.verdict word = some a
  longest : ∀ longer, longer <+: text → word.length < longer.length → d.verdict longer = none

/-- There is text left, but no nonempty front of it is recognised. -/
structure Stuck (d : Dfa α) (text : List Char) : Prop where
  nonempty : text ≠ []
  verdict : ∀ word, word ≠ [] → word <+: text → d.verdict word = none

/-! ### The front of a text -/

theorem verdictFrom_cons (d : Dfa α) (q : Nat) (c : Char) (word : List Char) :
    d.verdictFrom q (c :: word) = (d.step q c).bind fun r => d.verdictFrom r word := by
  rw [verdictFrom, runFrom_cons, Option.bind_assoc]
  rfl

/-- Running on from a state finds the longest front that is recognised, or keeps the match from
before. -/
theorem munchFrom_spec (d : Dfa α) (q : Nat) (m : Munch α) (text : List Char) :
    ((d.munchFrom q m text).best = m.best ∧
        ∀ k, 0 < k → k ≤ text.length → d.verdictFrom q (text.take k) = none) ∨
      ∃ a n, (d.munchFrom q m text).best = some (a, m.reached + n) ∧ 0 < n ∧ n ≤ text.length ∧
        d.verdictFrom q (text.take n) = some a ∧
          ∀ k, n < k → k ≤ text.length → d.verdictFrom q (text.take k) = none := by
  induction text generalizing q m with
  | nil => exact .inl ⟨rfl, fun k pos le => absurd pos (Nat.not_lt.2 le)⟩
  | cons c rest ih =>
    -- Fronts of `c :: rest` are read through the first step.
    have shift (k : Nat) : d.verdictFrom q ((c :: rest).take (k + 1)) =
        (d.step q c).bind fun r => d.verdictFrom r (rest.take k) := by
      rw [List.take_succ_cons, verdictFrom_cons]
    cases edge : d.step q c with
    | none =>
      refine .inl ⟨by simp only [munchFrom, edge], fun k pos _ => ?_⟩
      obtain ⟨k, rfl⟩ := Nat.exists_eq_add_one_of_ne_zero (Nat.ne_of_gt pos)
      rw [shift, edge, Option.bind_none]
    | some r =>
      simp only [edge, Option.bind_some] at shift
      -- If nothing beyond `n` counts behind the step, nothing beyond `n + 1` counts in front of it.
      have later {n : Nat} (none : ∀ k, n < k → k ≤ rest.length →
          d.verdictFrom r (rest.take k) = none) (k : Nat) (less : n + 1 < k)
          (le : k ≤ (c :: rest).length) : d.verdictFrom q ((c :: rest).take k) = Option.none := by
        obtain ⟨k, rfl⟩ := Nat.exists_eq_add_one_of_ne_zero (by omega : k ≠ 0)
        rw [shift]
        exact none k (by omega) (by simpa using le)
      rw [munchFrom, edge]
      rcases ih r _ with ⟨kept, none⟩ | ⟨a, n, best, pos, le, accepted, none⟩
      -- Nothing longer is found, so the front of one character decides.
      · have one : d.verdictFrom q ((c :: rest).take 1) = d.accept r := shift 0
        cases accepts : d.accept r with
        | none =>
          refine .inl ⟨by rw [kept, accepts], fun k pos le => ?_⟩
          by_cases isOne : k = 1
          · rw [isOne, one, accepts]
          · exact later none k (by omega) le
        | some a =>
          refine .inr ⟨a, 1, by rw [kept, accepts], Nat.one_pos, by simp, ?_, later none⟩
          rw [one, accepts]
      · refine .inr ⟨a, n + 1, ?_, Nat.succ_pos n, by simpa using le, ?_, later none⟩
        · rw [best]
          simp only [Nat.add_assoc, Nat.add_comm 1 n]
        · rw [shift, accepted]

/-- **Running over a text finds its longest recognised front**, if there is one. -/
theorem munch_spec (d : Dfa α) (text : List Char) :
    ((d.munch text).best = none ∧ ∀ word, word ≠ [] → word <+: text → d.verdict word = none) ∨
      ∃ a word rest, text = word ++ rest ∧ (d.munch text).best = some (a, word.length) ∧
        d.TakesLongest text word a := by
  rcases d.munchFrom_spec root ⟨none, 0⟩ text with ⟨kept, none⟩ | ⟨a, n, best, pos, le, found, none⟩
  · refine .inl ⟨kept, fun word nonempty front => ?_⟩
    rw [List.prefix_iff_eq_take.1 front]
    exact none word.length (List.length_pos_iff.2 nonempty) front.length_le
  · have length : (text.take n).length = n := by rw [List.length_take]; omega
    refine .inr ⟨a, text.take n, text.drop n, (List.take_append_drop n text).symm, ?_, ?_⟩
    · rw [length, munch, best, Nat.zero_add]
    · refine ⟨List.length_pos_iff.1 (by omega), List.take_prefix n text, found, ?_⟩
      intro longer front less
      rw [List.prefix_iff_eq_take.1 front]
      exact none longer.length (by omega) front.length_le

/-- No recognised front of a text is longer than the longest one. -/
theorem TakesLongest.length_le {d : Dfa α} {text word word' : List Char} {a a' : α}
    (h : d.TakesLongest text word a) (h' : d.TakesLongest text word' a') :
    word'.length ≤ word.length := by
  refine Nat.le_of_not_lt fun longer => ?_
  have none := h.longest word' h'.front longer
  rw [h'.verdict] at none
  cases none

/-- A text has at most one longest recognised front. -/
theorem TakesLongest.unique {d : Dfa α} {text word word' : List Char} {a a' : α}
    (h : d.TakesLongest text word a) (h' : d.TakesLongest text word' a') :
    word = word' ∧ a = a' := by
  have length : word.length = word'.length := Nat.le_antisymm (h'.length_le h) (h.length_le h')
  have same : word = word' :=
    (List.prefix_of_prefix_length_le h.front h'.front (Nat.le_of_eq length)).eq_of_length length
  subst same
  have verdict := h.verdict
  rw [h'.verdict] at verdict
  exact ⟨rfl, (Option.some.inj verdict).symm⟩

/-- At the front of a text, running finds exactly the longest recognised word. -/
theorem munch_of_takesLongest {d : Dfa α} {text word : List Char} {a : α}
    (h : d.TakesLongest text word a) : (d.munch text).best = some (a, word.length) := by
  rcases d.munch_spec text with ⟨-, none⟩ | ⟨a', word', -, -, best, taken⟩
  · have verdict := h.verdict
    rw [none word h.nonempty h.front] at verdict
    cases verdict
  · obtain ⟨rfl, rfl⟩ := h.unique taken
    exact best

theorem munch_of_stuck {d : Dfa α} {text : List Char} (h : d.Stuck text) :
    (d.munch text).best = none := by
  rcases d.munch_spec text with ⟨best, -⟩ | ⟨a, word, -, -, -, taken⟩
  · exact best
  · have verdict := taken.verdict
    rw [h.verdict word taken.nonempty taken.front] at verdict
    cases verdict

/-- Text that is left begins with a longest recognised front, or is stuck. -/
theorem exists_takesLongest_or_stuck (d : Dfa α) {text : List Char} (nonempty : text ≠ []) :
    (∃ word rest a, text = word ++ rest ∧ d.TakesLongest (word ++ rest) word a) ∨
      d.Stuck text := by
  rcases d.munch_spec text with ⟨-, none⟩ | ⟨a, word, rest, rfl, -, taken⟩
  · exact .inr ⟨nonempty, none⟩
  · exact .inl ⟨word, rest, a, rfl, taken⟩

/-! ### The whole text -/

/-- The span of the longest front comes first, and the spans of the rest follow. -/
theorem spans_of_takesLongest {d : Dfa α} {word rest : List Char} {a : α}
    (h : d.TakesLongest (word ++ rest) word a) (place : Location) :
    d.spans 0 place (word ++ rest) =
      (d.spans 0 (place.after word) rest).map fun (later, last) =>
        (⟨a, word, place.withLength word.length⟩ :: later, last) := by
  have best := munch_of_takesLongest h
  obtain ⟨c, word, rfl⟩ := List.exists_cons_of_ne_nil h.nonempty
  have front : (c :: (word ++ rest)).take (c :: word).length = c :: word := by simp
  have behind : (word ++ rest).drop ((c :: word).length - 1) = rest := by simp
  have later : d.spans ((c :: word).length - 1) (place.after (c :: word)) (word ++ rest) =
      d.spans 0 (place.after (c :: word)) rest := by rw [spans_eq_drop, behind]
  rw [List.cons_append] at best ⊢
  simp only [spans, best, front, later]
  cases d.spans 0 (place.after (c :: word)) rest with
  | error e => rfl
  | ok result => rfl

/-- A stuck text fails, up to the character at which the run ended. -/
theorem spans_of_stuck {d : Dfa α} {text : List Char} (h : d.Stuck text) (place : Location) :
    d.spans 0 place text =
      let failed := text.take ((d.munch text).reached + 1)
      .error ⟨place.withLength failed.length, failed⟩ := by
  have best := munch_of_stuck h
  obtain ⟨c, rest, rfl⟩ := List.exists_cons_of_ne_nil h.nonempty
  rw [spans]
  simp only [best]

/-- The spans of a text are its pieces, as far as it has been cut, and the spans of the rest. -/
theorem spans_of_cuts {d : Dfa α} {text rest : List Char} {pieces : List (List Char × α)}
    (h : Cuts d.TakesLongest text pieces rest) (place : Location) :
    d.spans 0 place text =
      (d.spans 0 (placeBehind place pieces) rest).map fun (later, last) =>
        (layout place pieces ++ later, last) := by
  induction h generalizing place with
  | stop text =>
    rw [placeBehind]
    cases d.spans 0 place text with
    | error e => rfl
    | ok result => rfl
  | @piece word rest last a pieces taken _ ih =>
    rw [spans_of_takesLongest taken, ih, placeBehind]
    cases d.spans 0 (placeBehind (place.after word) pieces) last with
    | error e => rfl
    | ok result => rfl

/-- **Every text can be cut**, until it is used up or stuck. -/
theorem exists_cuts (d : Dfa α) (text : List Char) :
    ∃ pieces rest, Cuts d.TakesLongest text pieces rest ∧ (rest = [] ∨ d.Stuck rest) := by
  induction length : text.length using Nat.strongRecOn generalizing text with
  | ind n ih =>
    by_cases nonempty : text = []
    · exact ⟨[], text, .stop text, .inl nonempty⟩
    · rcases d.exists_takesLongest_or_stuck nonempty with ⟨word, rest, a, rfl, taken⟩ | stuck
      · have shorter : rest.length < n := by
          have := List.length_pos_iff.2 taken.nonempty
          rw [List.length_append] at length
          omega
        obtain ⟨pieces, last, cuts, ends⟩ := ih rest.length shorter rest rfl
        exact ⟨(word, a) :: pieces, last, .piece taken cuts, ends⟩
      · exact ⟨[], text, .stop text, .inr stuck⟩

/-- A text is scanned exactly if it can be cut into longest fronts to its end, and then the spans
are the pieces. -/
theorem spans_eq_ok_iff {d : Dfa α} {place last : Location} {text : List Char}
    {spans : List (Span α)} :
    d.spans 0 place text = .ok (spans, last) ↔
      ∃ pieces, Cuts d.TakesLongest text pieces [] ∧ spans = layout place pieces ∧
        last = placeBehind place pieces := by
  constructor
  · intro scanned
    obtain ⟨pieces, rest, cuts, rfl | stuck⟩ := d.exists_cuts text
    · simp only [spans_of_cuts cuts, spans_nil, Except.map, List.append_nil] at scanned
      cases scanned
      exact ⟨pieces, cuts, rfl, rfl⟩
    · rw [spans_of_cuts cuts, spans_of_stuck stuck] at scanned
      cases scanned
  · rintro ⟨pieces, cuts, rfl, rfl⟩
    simp only [spans_of_cuts cuts, spans_nil, Except.map, List.append_nil]

/-- A text fails exactly if cutting it into longest fronts gets stuck. -/
theorem spans_eq_error_iff {d : Dfa α} {place : Location} {text : List Char} {e : DeadEnd} :
    d.spans 0 place text = .error e ↔
      ∃ pieces rest, Cuts d.TakesLongest text pieces rest ∧ d.Stuck rest ∧
        d.spans 0 (placeBehind place pieces) rest = .error e := by
  constructor
  · intro failed
    obtain ⟨pieces, rest, cuts, rfl | stuck⟩ := d.exists_cuts text
    · rw [spans_of_cuts cuts, spans_nil] at failed
      cases failed
    · refine ⟨pieces, rest, cuts, stuck, ?_⟩
      rw [spans_of_cuts cuts] at failed
      rw [spans_of_stuck stuck] at failed ⊢
      cases failed
      rfl
  · rintro ⟨pieces, rest, cuts, -, failed⟩
    rw [spans_of_cuts cuts, failed, Except.map]

end Dfa

end FrontEnd
