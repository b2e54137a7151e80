import FrontEnd.Proofs.Automaton.Registration
import FrontEnd.Proofs.Automaton.SubsetConstruction
import FrontEnd.Proofs.Scanner.LongestMatch

/-!
# Groups and repetition

The usual reading of a group is any number of repetitions of its body.  Every pattern has the words
of that reading, and it may have more: where loops share a place, they may be taken in turn.  In a
pattern whose groups neither nest nor touch, each place has the loop of one group at most, and the
two readings agree.

## Main Definitions

* `Pattern.classical` — the words of a pattern in the usual reading
* `Pattern.flat` — no group contains another one, and no two groups stand side by side

## Main Results

* `Pattern.classical_le_words` — the words of the usual reading are words of the pattern
* `Pattern.words_eq_classical` — a flat pattern has no others
* `Dfa.verdict_eq_some_iff_recognises` — a value counts if none that goes before it is recognised
* `Nfa.recognises_classical` — the words of the usual reading in the automata

## Design Notes

**The ends of a body have no loops.**  The body of a group that contains no group is characters
only, so closing the group brings a single loop to its place, and no loop of a neighbour joins it
there.
-/

open scoped Computability

namespace FrontEnd

namespace Pattern

/-- The words of a pattern in the usual reading: a group stands for repetitions of its body. -/
def classical : Pattern → Language Char
  | done => 1
  | char c rest => charOf {c} * rest.classical
  | oneOf items rest => charOf {c | ∃ item ∈ items, c ∈ item.members} * rest.classical
  | loop body rest => body.classical∗ * rest.classical

/-- No unit is a group. -/
def groupFree : Pattern → Bool
  | done => true
  | char _ rest => rest.groupFree
  | oneOf _ rest => rest.groupFree
  | loop _ _ => false

/-- The first unit is a group. -/
def startsWithGroup : Pattern → Bool
  | loop _ _ => true
  | _ => false

/-- No group contains another one, and no two groups stand side by side. -/
def flat : Pattern → Bool
  | done => true
  | char _ rest => rest.flat
  | oneOf _ rest => rest.flat
  | loop body rest => body.groupFree && !rest.startsWithGroup && rest.flat

/-- **Repetitions are words.**  Whatever the groups of a pattern are, its words comprise those of
the usual reading. -/
theorem classical_le_words (p : Pattern) : p.classical ≤ p.form.words := by
  induction p with
  | done => exact turns_empty.ge
  | char c rest ih =>
    rw [classical, form, LoopForm.words_single_append]
    exact mul_le_mul' le_rfl ih
  | oneOf items rest ih =>
    rw [classical, form, LoopForm.words_single_append]
    exact mul_le_mul' le_rfl ih
  | loop body rest ihBody ihRest =>
    calc body.classical∗ * rest.classical
        ≤ body.form.words∗ * rest.form.words := mul_le_mul' (kstar_mono ihBody) ihRest
      _ ≤ body.form.loop.words * rest.form.words := mul_le_mul' body.form.kstar_words_le le_rfl
      _ ≤ (body.form.loop ++ rest.form).words := LoopForm.words_mul_le _ _

/-! ### Groups that neither nest nor touch -/

/-- Loops stand at the first place only if a group does. -/
theorem firstLoops_eq_empty {p : Pattern} (h : p.startsWithGroup = false) :
    p.form.firstLoops = ∅ := by
  cases p with
  | done => rfl
  | char c rest => rfl
  | oneOf items rest => rfl
  | loop body rest => cases h

/-- Without groups, no loops stand at the last place. -/
theorem lastLoops_eq_empty {p : Pattern} (h : p.groupFree) : p.form.lastLoops = ∅ := by
  induction p with
  | done => rfl
  | char c rest ih =>
    rw [form, LoopForm.single_append]
    exact ih h
  | oneOf items rest ih =>
    rw [form, LoopForm.single_append]
    exact ih h
  | loop body rest => cases h

theorem startsWithGroup_of_groupFree {p : Pattern} (h : p.groupFree) :
    p.startsWithGroup = false := by
  cases p with
  | loop body rest => cases h
  | _ => rfl

/-- Without groups, there are none that nest or touch. -/
theorem flat_of_groupFree {p : Pattern} (h : p.groupFree) : p.flat := by
  induction p with
  | done => rfl
  | char c rest ih => exact ih h
  | oneOf items rest ih => exact ih h
  | loop body rest => cases h

/-- **Nothing but repetitions.**  If no groups nest or touch, the words are those of the usual
reading. -/
theorem words_eq_classical {p : Pattern} (h : p.flat) : p.form.words = p.classical := by
  induction p with
  | done => exact turns_empty
  | char c rest ih => rw [classical, form, LoopForm.words_single_append, ih h]
  | oneOf items rest ih => rw [classical, form, LoopForm.words_single_append, ih h]
  | loop body rest ihBody ihRest =>
    simp only [flat, Bool.and_eq_true, Bool.not_eq_true'] at h
    obtain ⟨⟨characters, apart⟩, flatRest⟩ := h
    have atStart : body.form.firstLoops = ∅ :=
      firstLoops_eq_empty (startsWithGroup_of_groupFree characters)
    have atEnd : body.form.lastLoops = ∅ := lastLoops_eq_empty characters
    calc (body.form.loop ++ rest.form).words
        = body.form.loop.words * rest.form.words :=
          LoopForm.words_append_of_firstLoops _ (firstLoops_eq_empty apart)
      _ = body.form.words∗ * rest.form.words := by rw [LoopForm.words_loop_of_ends atStart atEnd]
      _ = body.classical∗ * rest.classical := by
          rw [ihBody (flat_of_groupFree characters), ihRest flatRest]

end Pattern

/-! ### Automata -/

variable {α : Type}

/-- A value counts for a word if it is recognised and none that goes before it in the order is. -/
theorem Dfa.verdict_eq_some_iff_recognises [DecidableEq α] {m : Nfa α} (proper : m.Proper)
    {before after : List α} {a : α} (first : a ∉ before) {word : List Char} :
    (determinize m (before ++ a :: after)).verdict word = some a ↔
      m.Recognises word a ∧ ∀ b ∈ before, ¬ m.Recognises word b := by
  rw [verdict, accept_run_determinize proper, winner, List.find?_append]
  cases found : before.find? fun b => b ∈ m.acceptsOf (m.after [Nfa.root] word) with
  | some b =>
    have earlier : b ∈ before := List.mem_of_find?_eq_some found
    have recognised : m.Recognises word b := by
      simpa [Nfa.mem_acceptsOf_after] using List.find?_some found
    constructor
    · rintro ⟨⟩
      exact absurd earlier first
    · rintro ⟨-, none⟩
      exact absurd recognised (none b earlier)
  | none =>
    have none : ∀ b ∈ before, ¬ m.Recognises word b := by
      simpa [Nfa.mem_acceptsOf_after] using found
    rw [Option.none_or, and_iff_left none, ← Nfa.mem_acceptsOf_after, List.find?_cons]
    by_cases accepted : a ∈ m.acceptsOf (m.after [Nfa.root] word)
    · simp only [accepted, decide_true]
    · simp only [accepted, decide_false, iff_false]
      intro later
      have accepted' := List.find?_some later
      simp [accepted] at accepted'

/-- A text that is read as a pattern adds the words of that pattern for its value, wherever it
stands among others. -/
theorem Nfa.recognises_registerEach_insert [DecidableEq α] {text : String} {p : Pattern}
    (read : Pattern.read text = .ok p) (front behind : List (String × α)) {a b : α}
    {word : List Char} :
    ((empty : Nfa α).registerEach (front ++ (text, a) :: behind)).Recognises word b ↔
      ((empty : Nfa α).registerEach (front ++ behind)).Recognises word b ∨
        b = a ∧ word ∈ p.form.words := by
  simp only [recognises_registerEach rooted_empty, List.mem_append, List.mem_cons, or_and_right,
    exists_or, exists_eq_left, read, Except.ok.injEq, exists_eq_left', eq_comm (a := a)]
  rw [or_assoc, or_assoc]
  exact or_congr_right (or_congr_right or_comm)

/-- The deterministic automaton of a rule that stands alone tells the words of its pattern. -/
theorem Dfa.verdict_alone_iff [DecidableEq α] {text : String} {p : Pattern}
    (read : Pattern.read text = .ok p) (a : α) {word : List Char} :
    (determinize ((Nfa.empty : Nfa α).registerEach [(text, a)]) [a]).verdict word = some a ↔
      word ∈ p.form.words := by
  have rooted : ((Nfa.empty : Nfa α).registerEach [(text, a)]).Rooted :=
    Nfa.rooted_empty.registerEach _
  have own := @verdict_eq_some_iff_recognises _ _ _ rooted.toProper [] [] a List.not_mem_nil word
  rw [List.nil_append] at own
  rw [own, ← List.nil_append [(text, a)], Nfa.recognises_registerEach_insert read]
  simp [Nfa.not_recognises_empty]

/-- **Groups and repetition in the automata.**  Let a text that is read as a pattern be registered
for the value `a`, among any other texts, and let the values in `before` go before `a`.

Every word of the usual reading is recognised for `a`, and the deterministic automaton tells `a`
unless another text is recognised for a value that goes before.  If no groups nest or touch, nothing
else is recognised for `a`, except what other texts are registered for; and the deterministic
automaton of the text alone tells exactly the words of the usual reading. -/
theorem Nfa.recognises_classical [DecidableEq α] {text : String} {p : Pattern}
    (read : Pattern.read text = .ok p) (front behind : List (String × α))
    {before : List α} {a : α} (first : a ∉ before) (after : List α) :
    let others := (empty : Nfa α).registerEach (front ++ behind)
    let m := (empty : Nfa α).registerEach (front ++ (text, a) :: behind)
    let d := Dfa.determinize m (before ++ a :: after)
    let alone := Dfa.determinize ((empty : Nfa α).registerEach [(text, a)]) [a]
    (∀ word ∈ p.classical, alone.verdict word = some a ∧ m.Recognises word a ∧
        ((∀ b ∈ before, ¬ others.Recognises word b) → d.verdict word = some a)) ∧
      (p.flat → ∀ word,
        (alone.verdict word = some a ↔ word ∈ p.classical) ∧
        (m.Recognises word a ↔ others.Recognises word a ∨ word ∈ p.classical) ∧
        (d.verdict word = some a ↔ (others.Recognises word a ∨ word ∈ p.classical) ∧
          ∀ b ∈ before, ¬ others.Recognises word b)) := by
  intro others m d alone
  have proper : m.Proper := (rooted_empty.registerEach _).toProper
  have own (word : List Char) :
      m.Recognises word a ↔ others.Recognises word a ∨ word ∈ p.form.words := by
    rw [recognises_registerEach_insert read, and_iff_right rfl]
  -- The values that go before are other values, so the text adds nothing to them.
  have rival (word : List Char) : (∀ b ∈ before, ¬ m.Recognises word b) ↔
      ∀ b ∈ before, ¬ others.Recognises word b := by
    refine forall₂_congr fun b earlier => not_congr ?_
    rw [recognises_registerEach_insert read, or_iff_left]
    rintro ⟨rfl, -⟩
    exact first earlier
  have counts (word : List Char) : d.verdict word = some a ↔
      m.Recognises word a ∧ ∀ b ∈ before, ¬ others.Recognises word b := by
    rw [Dfa.verdict_eq_some_iff_recognises proper first, rival]
  refine ⟨fun word mem => ?_, fun flat word => ?_⟩
  · have isWord : word ∈ p.form.words := p.classical_le_words mem
    have recognised : m.Recognises word a := (own word).2 (.inr isWord)
    exact ⟨(Dfa.verdict_alone_iff read a).2 isWord, recognised,
      fun unrivalled => (counts word).2 ⟨recognised, unrivalled⟩⟩
  · rw [counts, own, Dfa.verdict_alone_iff read, Pattern.words_eq_classical flat]
    exact ⟨Iff.rfl, Iff.rfl, Iff.rfl⟩

/-- A group behind a text that fails and one that goes before, and in front of one for the same
value. -/
theorem Nfa.recognises_classical_beside :
    let p : Pattern := .char 'a' (.loop (.char 'b' (.char 'c' .done)) .done)
    let others := (empty : Nfa Nat).registerEach [("[", 1), ("abc", 1), ("d", 7)]
    let m := (empty : Nfa Nat).registerEach [("[", 1), ("abc", 1), ("a(bc)", 7), ("d", 7)]
    let d := Dfa.determinize m [1, 7]
    Pattern.read "a(bc)" = .ok p ∧ 7 ∉ [1] ∧ p.flat ∧ ∀ word,
      (m.Recognises word 7 ↔ others.Recognises word 7 ∨ word ∈ p.classical) ∧
      (d.verdict word = some 7 ↔ (others.Recognises word 7 ∨ word ∈ p.classical) ∧
        ∀ b ∈ [1], ¬ others.Recognises word b) := by
  intro p others m d
  have read : Pattern.read "a(bc)" = .ok p := rfl
  have first : 7 ∉ [1] := by decide
  refine ⟨read, first, rfl, fun word => ?_⟩
  exact ((recognises_classical read [("[", 1), ("abc", 1)] [("d", 7)] first []).2 rfl word).2

/-- A group in a group is more than repetition: `c((a)b)` matches `ca`. -/
example : (Pattern.char 'c' (.loop (.loop (.char 'a' .done) (.char 'b' .done)) .done)).Matches
    ['c', 'a'] := by decide +kernel

end FrontEnd
