import FrontEnd.Proofs.Automaton.Isolation
import FrontEnd.Proofs.Automaton.Looping
import FrontEnd.Proofs.Pattern.Notation

/-!
# Registering one text after another

Texts are registered in one automaton, each for a value; a text that is not read as a pattern leaves
the automaton as it was.  What is recognised afterwards is told by the patterns alone.

## Main Definitions

* `Nfa.registerEach` — register texts in turn, and go on where one fails

## Main Results

* `Pattern.matches_iff_of_read` — a pattern that has been read matches all words of its form
* `Nfa.recognises_registerEach` — what texts add that are registered in any automaton
* `Nfa.recognises_registerEach_iff` — the words of an automaton

## Design Notes

**Registrations do not depend on one another.**  Patterns are isolated from each other, so the words
of an automaton are those of its patterns, whichever order they came in and whatever failed in
between.
-/

namespace FrontEnd

namespace Pattern

/-- Where something has to be consumed, a character leads on from the first place. -/
theorem nil_notMem_onward {p : Pattern} (consumes : p.onlyLoops = false) : [] ∉ p.form.onward := by
  induction p with
  | done => cases consumes
  | char c rest => exact nil_notMem_charOf_mul _ _
  | oneOf items rest => exact nil_notMem_charOf_mul _ _
  | loop body rest _ ih =>
    rw [form, LoopForm.loop_eq_last, LoopForm.last_append, LoopForm.onward_join]
    exact ih consumes

/-- Where something has to be consumed, the empty word is none of the words. -/
theorem nil_notMem_words {p : Pattern} (consumes : p.onlyLoops = false) : [] ∉ p.form.words := by
  rw [LoopForm.words_eq_turns_mul]
  rintro ⟨front, -, back, onward, empty⟩
  obtain ⟨-, rfl⟩ := List.append_eq_nil_iff.1 empty
  exact nil_notMem_onward consumes onward

/-- **A pattern that has been read matches the words of its form.** -/
theorem matches_iff_of_read {text : String} {p : Pattern} (read : Pattern.read text = .ok p)
    {word : List Char} : p.Matches word ↔ word ∈ p.form.words := by
  obtain ⟨-, consumes⟩ := readChars_eq_ok_iff.1 (read_eq_ok_iff_readChars.1 read)
  rw [matches_iff, and_iff_right_of_imp]
  rintro mem rfl
  exact nil_notMem_words consumes mem

end Pattern

namespace Nfa

variable {α : Type} [DecidableEq α]

/-- Register texts in turn, each for a value; where one fails, go on with the automaton as it is. -/
def registerEach (m : Nfa α) : List (String × α) → Nfa α
  | [] => m
  | (text, accept) :: calls =>
      match m.register text accept with
      | .ok m' => m'.registerEach calls
      | .error _ => m.registerEach calls

@[simp] theorem registerEach_nil (m : Nfa α) : m.registerEach [] = m := rfl

/-- A text is compiled if it is read as a pattern, and passed over otherwise. -/
theorem registerEach_cons (m : Nfa α) (text : String) (accept : α) (calls : List (String × α)) :
    m.registerEach ((text, accept) :: calls) =
      match Pattern.read text with
      | .ok p => (m.compile p accept).registerEach calls
      | .error _ => m.registerEach calls := by
  rw [registerEach, register]
  cases Pattern.read text <;> rfl

/-- No edge returns to the root, whatever is registered. -/
theorem Rooted.registerEach {m : Nfa α} (h : m.Rooted) (calls : List (String × α)) :
    (m.registerEach calls).Rooted := by
  induction calls generalizing m with
  | nil => exact h
  | cons call calls ih =>
    rw [registerEach_cons]
    split
    · exact ih (h.compile _ call.2)
    · exact ih h

/-- **Texts add the words of their patterns**, to any automaton whose root is not returned to. -/
theorem recognises_registerEach {m : Nfa α} (h : m.Rooted) {calls : List (String × α)}
    {word : List Char} {a : α} :
    (m.registerEach calls).Recognises word a ↔
      m.Recognises word a ∨
        ∃ call ∈ calls, call.2 = a ∧ ∃ p, Pattern.read call.1 = .ok p ∧ word ∈ p.form.words := by
  induction calls generalizing m with
  | nil => simp
  | cons call calls ih =>
    rw [registerEach_cons]
    cases read : Pattern.read call.1 with
    | ok p =>
      simp only [ih (h.compile p call.2), recognises_compile h, Pattern.matches_iff_of_read read,
        or_assoc, List.exists_mem_cons_iff, read, Except.ok.injEq, exists_eq_left',
        eq_comm (a := a)]
    | error e =>
      simp only [ih h, List.exists_mem_cons_iff, read, reduceCtorEq, false_and, exists_false,
        and_false, false_or]

/-- **The words of an automaton.**  After any registrations, failing ones included, a word leads
from the root to a state that accepts a value exactly if it is one of the words of a pattern that
has been registered for that value. -/
theorem recognises_registerEach_iff (calls : List (String × α)) (word : List Char) (a : α) :
    ((empty : Nfa α).registerEach calls).Recognises word a ↔
      ∃ call ∈ calls, call.2 = a ∧ ∃ p, Pattern.read call.1 = .ok p ∧ word ∈ p.form.words := by
  rw [recognises_registerEach rooted_empty, or_iff_right (not_recognises_empty word a)]

end Nfa

end FrontEnd
