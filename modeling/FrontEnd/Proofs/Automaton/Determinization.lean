import FrontEnd.Proofs.Automaton.SubsetConstruction

/-!
# The deterministic form of an automaton

What the deterministic automaton is, without a word about how it is found: its states are the sets
of states that words lead to, no set is missing, none occurs twice, and none is there that no word
leads to.

## Main Definitions

* `Nfa.reached` — the set of states that a word leads to from the root
* `Dfa.Determinizes` — one automaton is the deterministic form of another one

## Main Results

* `Dfa.determinize_determinizes` — the subset construction comes to its end and finds that form

## Design Notes

**The numbers are the sets.**  A number stands for one set only, and a set has one number only, so
two words lead to the same number exactly if they lead to the same set.  Sets are kept as ascending
lists, and ascending lists with the same members are equal.

**What an order leaves out does not count.**  The order may repeat values or omit some; a state
accepts the first value of the order that some state of its set accepts.
-/

namespace FrontEnd

variable {α : Type}

namespace Nfa

/-- The states that a word leads to from the root. -/
def reached (m : Nfa α) (word : List Char) : Set Nat := {q | m.Reaches root word q}

theorem mem_reached {m : Nfa α} {word : List Char} {q : Nat} :
    q ∈ m.reached word ↔ q ∈ m.after [root] word := by
  rw [mem_after]
  simp [reached]

/-- The set of states that a word leads to, as a set and as an ascending list. -/
theorem reached_eq_iff {m : Nfa α} {word other : List Char} :
    m.reached word = m.reached other ↔ m.after [root] word = m.after [root] other := by
  constructor
  · intro same
    have ascending (word : List Char) : (m.after [root] word).Pairwise (· < ·) :=
      pairwise_after (List.pairwise_singleton _ _) word
    refine (ascending word).eq_of_mem_iff (ascending other) fun q => ?_
    rw [← mem_reached, same, mem_reached]
  · intro same
    ext q
    rw [mem_reached, same, mem_reached]

theorem reached_nonempty_iff {m : Nfa α} {word : List Char} :
    (m.reached word).Nonempty ↔ m.after [root] word ≠ [] := by
  rw [Set.Nonempty, exists_congr fun _ => mem_reached]
  exact ⟨fun ⟨_, mem⟩ => List.ne_nil_of_mem mem, List.exists_mem_of_ne_nil _⟩

instance [DecidableEq α] (m : Nfa α) (word : List Char) (a : α) : Decidable (m.Recognises word a) :=
  decidable_of_iff _ mem_acceptsOf_after

end Nfa

namespace Dfa

/-- A deterministic automaton follows the words that lead somewhere in another automaton, tells the
sets of states apart that they lead to, and accepts what comes first in a given order. -/
structure Determinizes [DecidableEq α] (d : Dfa α) (m : Nfa α) (order : List α) : Prop where
  /-- A word can be followed if it leads to some state; the empty word always does. -/
  run_isSome : ∀ word, (d.run word).isSome ↔ word = [] ∨ (m.reached word).Nonempty
  /-- Words lead to the same state, or nowhere both of them, exactly if their sets are the same. -/
  run_eq : ∀ word other, d.run word = d.run other ↔ m.reached word = m.reached other
  /-- What counts for a word is the first value of the order that some state of its set accepts. -/
  accept : ∀ word q, d.run word = some q → d.accept q = order.find? fun a => m.Recognises word a
  /-- Every state is that of some word. -/
  exists_run : ∀ q < d.size, ∃ word, d.run word = some q
  /-- Every edge leads to a state. -/
  target_lt : ∀ q, ∀ e ∈ (d.state q).edges, e.target < d.size

variable [DecidableEq α] {m : Nfa α} {order : List α}

/-- A word can be followed exactly if it leads somewhere. -/
theorem isSome_run_iff (proper : m.Proper) {word : List Char} :
    ((determinize m order).run word).isSome ↔ (m.reached word).Nonempty := by
  rw [Nfa.reached_nonempty_iff]
  rcases @run_determinize _ _ m order proper word with ⟨q, run, known⟩ | ⟨run, nothing⟩
  · simp [run, (Subsets.sound_final proper).reached q _ known]
  · simp [run, nothing]

/-- Words are told apart exactly by their sets. -/
theorem run_eq_run_iff (proper : m.Proper) {word other : List Char} :
    (determinize m order).run word = (determinize m order).run other ↔
      m.reached word = m.reached other := by
  have sound : (Subsets.final m order).Sound m order := Subsets.sound_final proper
  rw [Nfa.reached_eq_iff]
  rcases @run_determinize _ _ m order proper word with ⟨p, run, known⟩ | ⟨run, nothing⟩ <;>
    rcases @run_determinize _ _ m order proper other with ⟨q, run', known'⟩ | ⟨run', nothing'⟩
  · rw [run, run', Option.some.injEq]
    constructor
    · rintro rfl
      exact Option.some.inj (known.symm.trans known')
    · intro same
      exact Numbering.get?_inj known (same ▸ known')
  -- A word that can be followed leads to a set that is not empty.
  · simp [run, run', nothing', (sound.reached p _ known).1]
  · simp [run, run', nothing, (sound.reached q _ known').1.symm]
  · simp [run, run', nothing, nothing']

/-- Every state was found as the set of a word, and that word leads there. -/
theorem exists_run_eq (proper : m.Proper) {q : Nat} (inside : q < (determinize m order).size) :
    ∃ word, (determinize m order).run word = some q := by
  have sound : (Subsets.final m order).Sound m order := Subsets.sound_final proper
  obtain ⟨set, known, -⟩ := sound.row q _ (Array.getElem?_eq_getElem inside)
  obtain ⟨nonempty, word, rfl⟩ := sound.reached q set known
  refine ⟨word, ?_⟩
  rcases @run_determinize _ _ m order proper word with ⟨r, run, known'⟩ | ⟨-, nothing⟩
  · rw [run, Numbering.get?_inj known' known]
  · exact absurd nothing nonempty

/-- Edges lead to numbers of known sets, and all of these have rows. -/
theorem target_lt_size (proper : m.Proper) {q : Nat} {e : Edge}
    (mem : e ∈ ((determinize m order).state q).edges) : e.target < (determinize m order).size := by
  rw [state, determinize_eq] at mem
  cases found : (Subsets.final m order).rows[q]? with
  | none => simp [found] at mem
  | some row =>
    rw [found, Option.getD_some] at mem
    obtain ⟨set, -, isRow⟩ := (Subsets.sound_final proper).row q row found
    obtain ⟨piece, -, known⟩ := isRow.exists_piece mem
    exact Nat.lt_of_lt_of_le (Numbering.lt_size_of_get? known)
      (Subsets.size_sets_le_size_rows proper)

/-- **The subset construction finds the deterministic form.**  For every automaton whose edges lead
to its states and every order of values, the exploration stops because no set is left without a row,
and what it has found is the deterministic form of the automaton. -/
theorem determinize_determinizes (proper : m.Proper) (order : List α) :
    (Subsets.final m order).sets.get? (Subsets.final m order).rows.size = none ∧
      (determinize m order).Determinizes m order := by
  refine ⟨Array.getElem?_eq_none_iff.2 (Subsets.size_sets_le_size_rows proper), ?_, ?_, ?_, ?_, ?_⟩
  · intro word
    rw [isSome_run_iff proper]
    refine ⟨.inr, ?_⟩
    rintro (rfl | nonempty)
    · exact ⟨Nfa.root, .stay _⟩
    · exact nonempty
  · intro word other
    exact run_eq_run_iff proper
  · intro word q run
    have counts := @accept_run_determinize _ _ m order proper word
    rw [run, Option.bind_some] at counts
    simp only [counts, winner, Nfa.mem_acceptsOf_after]
  · intro q inside
    exact exists_run_eq proper inside
  · intro q e mem
    exact target_lt_size proper mem

/-- An automaton that returns to its root, with an order that omits `3` and repeats `5`. -/
theorem determinize_determinizes_returning :
    let m : Nfa Nat :=
      ⟨#[⟨[⟨.between 'a' 'b', 0⟩, ⟨.only 'a', 1⟩], [3]⟩, ⟨[⟨.only 'b', 0⟩], [7, 5]⟩]⟩
    m.Proper ∧ (Subsets.final m [5, 7, 5]).sets.get? (Subsets.final m [5, 7, 5]).rows.size = none ∧
      (determinize m [5, 7, 5]).Determinizes m [5, 7, 5] := by
  intro m
  have proper : m.Proper := by
    have edges (k : Nat) : ∀ e ∈ (m.state k).edges, e.target < 2 ∧ e.label.Proper := by
      match k with
      | 0 => simp [m, Nfa.state, CharRange.proper_between, CharRange.proper_only]
      | 1 => simp [m, Nfa.state, CharRange.proper_only]
      | k + 2 => simp [m, Nfa.state, Nfa.State.blank]
    exact ⟨by decide, fun k e mem => (edges k e mem).1, fun k e mem => (edges k e mem).2⟩
  exact ⟨proper, determinize_determinizes proper [5, 7, 5]⟩

end Dfa

end FrontEnd
