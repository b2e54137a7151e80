import FrontEnd.Proofs.Automaton.Repetition

/-!
# Patterns of simple shape

The words of two sorts of patterns can be told at a glance: of those that leave no choice, and of
those that ask for one character and then for any number of further ones.

## Main Definitions

* `Pattern.only` — the word of a pattern that leaves no choice
* `ClassItem.Any` — the characters of a class
* `Pattern.run` — one character of a class, and then any number of characters of another one

## Main Results

* `Pattern.matches_iff_of_only` — a pattern that leaves no choice matches one word
* `Pattern.matches_run_iff` — the words of a run
-/

open scoped Computability

namespace FrontEnd

variable {label : Set Char} {word : List Char}

/-! ### Words by their characters -/

theorem mem_charOf_mul {words : Language Char} :
    word ∈ charOf label * words ↔ ∃ c ∈ label, ∃ rest ∈ words, word = c :: rest := by
  rw [Language.mem_mul]
  constructor
  · rintro ⟨_, ⟨c, mem, rfl⟩, rest, behind, rfl⟩
    exact ⟨c, mem, rest, behind, rfl⟩
  · rintro ⟨c, mem, rest, behind, rfl⟩
    exact ⟨[c], ⟨c, mem, rfl⟩, rest, behind, rfl⟩

/-- Repetitions of one character out of a set are the words over that set. -/
theorem mem_kstar_charOf : word ∈ (charOf label)∗ ↔ ∀ c ∈ word, c ∈ label := by
  rw [Language.mem_kstar]
  constructor
  · rintro ⟨parts, rfl, all⟩ c mem
    obtain ⟨part, listed, inside⟩ := List.mem_flatten.1 mem
    obtain ⟨d, covered, rfl⟩ := all part listed
    rwa [List.mem_singleton.1 inside]
  · intro all
    refine ⟨word.map fun c => [c], ?_, fun part mem => ?_⟩
    · rw [← List.flatMap_def, List.flatMap_singleton']
    · obtain ⟨c, inside, rfl⟩ := List.mem_map.1 mem
      exact ⟨c, all c inside, rfl⟩

/-- The characters of a class. -/
def ClassItem.Any (items : List ClassItem) : Set Char := {c | ∃ item ∈ items, c ∈ item.members}

namespace Pattern

/-! ### Patterns that leave no choice -/

/-- The word of a pattern that leaves no choice. -/
def only : Pattern → Option (List Char)
  | done => some []
  | char c rest => rest.only.map (c :: ·)
  | oneOf [.single c] rest => rest.only.map (c :: ·)
  | oneOf _ _ => none
  | loop _ _ => none

/-- A pattern that begins with one character has its words behind it. -/
theorem words_single_append_of_eq {own : List Char} {c : Char} {g : LoopForm}
    (h : g.words = {own}) : (LoopForm.single {c} ++ g).words = {c :: own} := by
  ext word
  rw [LoopForm.words_single_append, h, mem_charOf_mul]
  show (∃ d, d = c ∧ ∃ rest, rest = own ∧ word = d :: rest) ↔ word = c :: own
  rw [exists_eq_left, exists_eq_left]

/-- A pattern that leaves no choice has one word. -/
theorem words_of_only {p : Pattern} {own : List Char} (h : p.only = some own) :
    p.form.words = {own} := by
  induction p using only.induct generalizing own with
  | case1 =>
    obtain rfl := Option.some.inj h
    exact turns_empty
  | case2 c rest ih =>
    obtain ⟨behind, read, rfl⟩ := Option.map_eq_some_iff.1 h
    exact words_single_append_of_eq (ih read)
  | case3 c rest ih =>
    obtain ⟨behind, read, rfl⟩ := Option.map_eq_some_iff.1 h
    have members : {d | ∃ item ∈ [ClassItem.single c], d ∈ item.members} = {c} := by
      simp [ClassItem.members]
    rw [form, members]
    exact words_single_append_of_eq (ih read)
  | case4 => simp_all [only]
  | case5 => simp_all [only]

/-- **A pattern that leaves no choice matches one word.** -/
theorem matches_iff_of_only {p : Pattern} {own : List Char} (h : p.only = some own) :
    p.Matches word ↔ word = own ∧ own ≠ [] := by
  rw [matches_iff, words_of_only h]
  constructor
  · rintro ⟨nonempty, rfl⟩
    exact ⟨rfl, nonempty⟩
  · rintro ⟨rfl, nonempty⟩
    exact ⟨nonempty, rfl⟩

/-! ### Runs -/

/-- One character of a class, and then any number of characters of another one. -/
def run (first again : List ClassItem) : Pattern := oneOf first (loop (oneOf again done) done)

/-- **The words of a run.** -/
theorem matches_run_iff {first again : List ClassItem} :
    (run first again).Matches word ↔
      ∃ c rest, word = c :: rest ∧ c ∈ ClassItem.Any first ∧
        ∀ d ∈ rest, d ∈ ClassItem.Any again := by
  have flat : (run first again).flat := rfl
  have classical : (run first again).classical =
      charOf (ClassItem.Any first) * (charOf (ClassItem.Any again))∗ := by
    show _ * ((_ * 1)∗ * 1) = _
    rw [mul_one, mul_one]
    rfl
  rw [matches_iff, words_eq_classical flat, classical, mem_charOf_mul]
  simp only [mem_kstar_charOf]
  constructor
  · rintro ⟨-, c, mem, rest, all, rfl⟩
    exact ⟨c, rest, rfl, mem, all⟩
  · rintro ⟨c, rest, rfl, mem, all⟩
    exact ⟨List.cons_ne_nil c rest, c, mem, rest, all, rfl⟩

/-- A run of one class matches every nonempty word over that class. -/
theorem matches_run_self_iff {items : List ClassItem} :
    (run items items).Matches word ↔ word ≠ [] ∧ ∀ c ∈ word, c ∈ ClassItem.Any items := by
  rw [matches_run_iff]
  cases word with
  | nil => simp
  | cons c rest => simp

end Pattern

end FrontEnd
