import FrontEnd.Pattern.Basic
import Mathlib.Computability.Language
import Mathlib.Order.CompletePartialOrder

/-!
# The words of a pattern

A group does not stand for repetitions of its body alone.  Closing a group folds its end into its
start, and with the end go the loops that stood there; so the loops of a place stay together,
whichever group they come from.  This module says which words a pattern has for that reason, without
a word about automata.

## Main Definitions

* `LoopForm` — characters with the loops that stand in front of them, between them and behind them
* `LoopForm.words` — its words
* `LoopForm.loop` — the form of a group
* `Pattern.form` — the form of a pattern

## Main Results

* `LoopForm.words_append` — the words of two forms in sequence
* `LoopForm.words_mul_le`, `LoopForm.kstar_words_le` — sequences and repetitions are never lost
* `LoopForm.words_append_of_firstLoops`, `LoopForm.words_loop_of_ends` — nothing else arises where
  no loops meet

## Design Notes

**A place has a set of loops.**  Between two characters stands a place, and at a place any loop may
be taken any number of times, in any order.  Putting forms in sequence unites the loops of the two
places that meet.

**A group without characters is a place.**  Its loops join those of the place where it stands.  A
group with characters adds one loop more, which leads through its characters from the first place to
the last; the loops at its first place and at its last place join the place where the group stands,
while those in between stay inside.
-/

open scoped Computability

namespace FrontEnd

/-- The words of one character out of a set. -/
def charOf (label : Set Char) : Language Char := {word | ∃ c ∈ label, word = [c]}

theorem mem_charOf {label : Set Char} {word : List Char} :
    word ∈ charOf label ↔ ∃ c ∈ label, word = [c] := Iff.rfl

/-- What begins with a character is not empty. -/
theorem nil_notMem_charOf_mul (label : Set Char) (words : Language Char) :
    [] ∉ charOf label * words := by
  rintro ⟨_, ⟨c, -, rfl⟩, back, -, empty⟩
  exact List.cons_ne_nil c back empty

/-- The words of any number of turns on the loops of a place. -/
def turns (loops : Set (Language Char)) : Language Char := (sSup loops)∗

theorem turns_empty : turns ∅ = 1 := by
  rw [turns, sSup_empty]
  exact kstar_zero

theorem turns_mono {loops loops' : Set (Language Char)} (h : loops ⊆ loops') :
    turns loops ≤ turns loops' := kstar_mono (sSup_le_sSup h)

/-- A loop is a turn. -/
theorem le_turns {loops : Set (Language Char)} {loop : Language Char} (mem : loop ∈ loops) :
    loop ≤ turns loops := (le_sSup mem).trans le_kstar

@[simp] theorem turns_mul_turns (loops : Set (Language Char)) :
    turns loops * turns loops = turns loops := kstar_mul_kstar _

@[simp] theorem kstar_turns (loops : Set (Language Char)) : (turns loops)∗ = turns loops :=
  kstar_idem _

/-- Turns on the loops of one set may be followed by turns on the loops of another one. -/
theorem turns_mul_turns_le (loops loops' : Set (Language Char)) :
    turns loops * turns loops' ≤ turns (loops ∪ loops') := by
  rw [← turns_mul_turns (loops ∪ loops')]
  exact mul_le_mul' (turns_mono Set.subset_union_left) (turns_mono Set.subset_union_right)

/-- Turns on some of the loops come to nothing new in front of turns on all of them. -/
theorem turns_mul_turns_union (loops loops' : Set (Language Char)) :
    turns loops * turns (loops ∪ loops') = turns (loops ∪ loops') := by
  refine le_antisymm ?_ ?_
  · calc turns loops * turns (loops ∪ loops')
        ≤ turns (loops ∪ loops') * turns (loops ∪ loops') :=
          mul_le_mul' (turns_mono Set.subset_union_left) le_rfl
      _ = turns (loops ∪ loops') := turns_mul_turns _
  · calc turns (loops ∪ loops')
        = 1 * turns (loops ∪ loops') := (one_mul _).symm
      _ ≤ turns loops * turns (loops ∪ loops') := mul_le_mul' one_le_kstar le_rfl

/-- Places and characters in turn: at each place stands a set of loops. -/
inductive LoopForm where
  /-- The last place. -/
  | last (loops : Set (Language Char))
  /-- A place, one character of a set, and the rest. -/
  | next (loops : Set (Language Char)) (label : Set Char) (rest : LoopForm)

namespace LoopForm

/-- The words of a form: turns at each place, and a character between one place and the next. -/
def words : LoopForm → Language Char
  | last loops => turns loops
  | next loops label rest => turns loops * (charOf label * rest.words)

/-- The loops of the first place. -/
def firstLoops : LoopForm → Set (Language Char)
  | last loops => loops
  | next loops _ _ => loops

/-- The loops of the last place. -/
def lastLoops : LoopForm → Set (Language Char)
  | last loops => loops
  | next _ _ rest => rest.lastLoops

/-- The words that lead up to the last place. -/
def before : LoopForm → Language Char
  | last _ => 1
  | next loops label rest => turns loops * (charOf label * rest.before)

/-- The words that lead on from the first place. -/
def onward : LoopForm → Language Char
  | last _ => 1
  | next _ label rest => charOf label * rest.words

/-- Put loops at the first place. -/
def join (loops : Set (Language Char)) : LoopForm → LoopForm
  | last loops' => last (loops ∪ loops')
  | next loops' label rest => next (loops ∪ loops') label rest

/-- Forms in sequence: the places that meet become one. -/
protected def append : LoopForm → LoopForm → LoopForm
  | last loops, g => g.join loops
  | next loops label rest, g => next loops label (rest.append g)

instance : Append LoopForm := ⟨LoopForm.append⟩

/-- A group: a place with the loops of both ends of its body, and with a loop through the characters
of the body, if it has any. -/
def loop : LoopForm → LoopForm
  | last loops => last loops
  | next loops label rest => last (loops ∪ rest.lastLoops ∪ {charOf label * rest.before})

/-- One character of a set, between places without loops. -/
def single (label : Set Char) : LoopForm := next ∅ label (last ∅)

@[simp] theorem last_append (loops : Set (Language Char)) (g : LoopForm) :
    last loops ++ g = g.join loops := rfl

@[simp] theorem next_append (loops : Set (Language Char)) (label : Set Char) (f g : LoopForm) :
    next loops label f ++ g = next loops label (f ++ g) := rfl

@[simp] theorem firstLoops_join (loops : Set (Language Char)) (f : LoopForm) :
    (f.join loops).firstLoops = loops ∪ f.firstLoops := by
  cases f <;> rfl

@[simp] theorem onward_join (loops : Set (Language Char)) (f : LoopForm) :
    (f.join loops).onward = f.onward := by
  cases f <;> rfl

@[simp] theorem join_empty (f : LoopForm) : f.join ∅ = f := by
  cases f <;> simp only [join, Set.empty_union]

/-- In front of a form, a character needs no place of its own behind it. -/
@[simp] theorem single_append (label : Set Char) (g : LoopForm) :
    single label ++ g = next ∅ label g := by
  rw [single, next_append, last_append, join_empty]

theorem lastLoops_append_last (f : LoopForm) (loops : Set (Language Char)) :
    (f ++ last loops).lastLoops = f.lastLoops ∪ loops := by
  induction f with
  | last loops' => rfl
  | next loops' label rest ih => exact ih

theorem lastLoops_append_next (f : LoopForm) (loops : Set (Language Char)) (label : Set Char)
    (rest : LoopForm) : (f ++ next loops label rest).lastLoops = rest.lastLoops := by
  induction f with
  | last loops' => rfl
  | next loops' label' rest' ih => exact ih

/-- The first place and what follows it. -/
theorem words_eq_turns_mul (f : LoopForm) : f.words = turns f.firstLoops * f.onward := by
  cases f with
  | last loops => rw [words, firstLoops, onward, mul_one]
  | next loops label rest => rfl

/-- The last place and what leads up to it. -/
theorem words_eq_mul_turns (f : LoopForm) : f.words = f.before * turns f.lastLoops := by
  induction f with
  | last loops => rw [words, before, lastLoops, one_mul]
  | next loops label rest ih => rw [words, before, lastLoops, ih, mul_assoc, mul_assoc]

theorem before_le_words (f : LoopForm) : f.before ≤ f.words :=
  calc f.before
      = f.before * 1 := (mul_one _).symm
    _ ≤ f.before * turns f.lastLoops := mul_le_mul' le_rfl one_le_kstar
    _ = f.words := f.words_eq_mul_turns.symm

/-- **Forms in sequence**: up to the place where they meet, turns on the loops of both, and on. -/
theorem words_append (f g : LoopForm) :
    (f ++ g).words = f.before * turns (f.lastLoops ∪ g.firstLoops) * g.onward := by
  induction f with
  | last loops =>
    rw [last_append, words_eq_turns_mul, firstLoops_join, onward_join, before, lastLoops, one_mul]
  | next loops label rest ih =>
    rw [next_append, words, before, lastLoops, ih]
    simp only [mul_assoc]

/-- Behind the words of a form, further turns at its last place may be taken. -/
theorem words_mul_turns (f : LoopForm) (loops : Set (Language Char)) :
    f.words * turns (f.lastLoops ∪ loops) = f.before * turns (f.lastLoops ∪ loops) := by
  rw [words_eq_mul_turns, mul_assoc, turns_mul_turns_union]

/-- Words may be put in sequence. -/
theorem words_mul_le (f g : LoopForm) : f.words * g.words ≤ (f ++ g).words := by
  have middle : turns f.lastLoops * turns g.firstLoops ≤ turns (f.lastLoops ∪ g.firstLoops) :=
    turns_mul_turns_le _ _
  calc f.words * g.words
      = f.before * turns f.lastLoops * (turns g.firstLoops * g.onward) := by
        rw [f.words_eq_mul_turns, g.words_eq_turns_mul]
    _ = f.before * (turns f.lastLoops * turns g.firstLoops) * g.onward := by simp only [mul_assoc]
    _ ≤ f.before * turns (f.lastLoops ∪ g.firstLoops) * g.onward := by gcongr
    _ = (f ++ g).words := (words_append f g).symm

/-! ### Groups -/

/-- A group is a place. -/
theorem loop_eq_last (f : LoopForm) : f.loop = last f.loop.firstLoops := by
  cases f <;> rfl

theorem words_loop (f : LoopForm) : f.loop.words = turns f.loop.firstLoops := by
  rw [f.loop_eq_last]
  rfl

theorem firstLoops_subset_loop (f : LoopForm) : f.firstLoops ⊆ f.loop.firstLoops := by
  cases f with
  | last loops => exact subset_rfl
  | next loops label rest => exact Set.subset_union_left.trans Set.subset_union_left

theorem lastLoops_subset_loop (f : LoopForm) : f.lastLoops ⊆ f.loop.firstLoops := by
  cases f with
  | last loops => exact subset_rfl
  | next loops label rest => exact Set.subset_union_right.trans Set.subset_union_left

/-- In a group, leading on from the first place is a turn. -/
theorem onward_le_turns (f : LoopForm) : f.onward ≤ turns f.loop.firstLoops := by
  cases f with
  | last loops => exact one_le_kstar
  | next loops label rest =>
    let all := (next loops label rest).loop.firstLoops
    have through : charOf label * rest.before ≤ turns all := le_turns (Set.mem_union_right _ rfl)
    have atEnd : turns rest.lastLoops ≤ turns all :=
      turns_mono (lastLoops_subset_loop (next loops label rest))
    calc charOf label * rest.words
        = charOf label * rest.before * turns rest.lastLoops := by
          rw [rest.words_eq_mul_turns, mul_assoc]
      _ ≤ turns all * turns all := mul_le_mul' through atEnd
      _ = turns all := turns_mul_turns all

/-- Words may be repeated in a group. -/
theorem kstar_words_le (f : LoopForm) : f.words∗ ≤ f.loop.words := by
  have once : f.words ≤ f.loop.words :=
    calc f.words
        = turns f.firstLoops * f.onward := f.words_eq_turns_mul
      _ ≤ turns f.loop.firstLoops * turns f.loop.firstLoops :=
          mul_le_mul' (turns_mono f.firstLoops_subset_loop) f.onward_le_turns
      _ = f.loop.words := by rw [turns_mul_turns, words_loop]
  calc f.words∗
      ≤ f.loop.words∗ := kstar_mono once
    _ = f.loop.words := by rw [words_loop, kstar_turns]

/-! ### Places without loops -/

/-- Where no loops stand, the words are those that lead on. -/
theorem words_eq_onward {f : LoopForm} (first : f.firstLoops = ∅) : f.words = f.onward := by
  rw [words_eq_turns_mul, first, turns_empty, one_mul]

/-- A character in front of a form stands in front of its words. -/
theorem words_single_append (label : Set Char) (g : LoopForm) :
    (single label ++ g).words = charOf label * g.words := by
  rw [single_append, words_eq_onward rfl, onward]

/-- If no loops join those of the place where two forms meet, nothing but sequences arises. -/
theorem words_append_of_firstLoops (f : LoopForm) {g : LoopForm} (first : g.firstLoops = ∅) :
    (f ++ g).words = f.words * g.words := by
  rw [words_append, first, Set.union_empty, ← words_eq_mul_turns, words_eq_onward first]

/-- If no loops stand at the ends of a body, nothing but repetitions arises. -/
theorem words_loop_of_ends {f : LoopForm} (first : f.firstLoops = ∅) (last : f.lastLoops = ∅) :
    f.loop.words = f.words∗ := by
  cases f with
  | last loops =>
    obtain rfl : loops = ∅ := first
    rw [loop, words, turns_empty]
    exact kstar_one.symm
  | next loops label rest =>
    obtain rfl : loops = ∅ := first
    have last : rest.lastLoops = ∅ := last
    have through : (next ∅ label rest).words = charOf label * rest.before := by
      rw [words_eq_onward rfl, onward, rest.words_eq_mul_turns, last, turns_empty, mul_one]
    rw [through, loop, last, Set.empty_union, Set.empty_union, words, turns, sSup_singleton]

end LoopForm

namespace ClassItem

/-- The characters that a class entry stands for. -/
def members : ClassItem → Set Char
  | single c => {c}
  | range first last => {c | first ≤ c ∧ c ≤ last}

end ClassItem

/-- The form of a pattern: a character stands between places without loops, a group is a place. -/
def Pattern.form : Pattern → LoopForm
  | done => .last ∅
  | char c rest => .single {c} ++ rest.form
  | oneOf items rest => .single {c | ∃ item ∈ items, c ∈ item.members} ++ rest.form
  | loop body rest => body.form.loop ++ rest.form

end FrontEnd
