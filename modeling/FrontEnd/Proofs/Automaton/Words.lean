import FrontEnd.Automaton.Nfa

/-!
# Words of a nondeterministic automaton

## Main Definitions

* `Nfa.Recognises` — a word leads from the root to a state that accepts a value
* `Nfa.Proper` — there is a root, and every edge takes characters to a state of the automaton
* `Nfa.after` — the set of states that a word leads to from the states of a set

## Main Results

* `Nfa.mem_after` — the sets are those of the paths
* `Nfa.mem_acceptsOf_after` — a word is recognised by the states that it leads to
* `Nfa.Reaches.simulate` — paths can be followed in another automaton

## Design Notes

A word may be followed state by state along a path, or set by set.  Paths are used to compare
automata with one another, sets to compare an automaton with its deterministic form.
-/

namespace FrontEnd.Nfa

variable {α β : Type}

/-- A word leads from a state to one that accepts a value. -/
def RecognisesFrom (m : Nfa α) (k : Nat) (word : List Char) (accept : α) : Prop :=
  ∃ q, m.Reaches k word q ∧ accept ∈ (m.state q).accepts

/-- A word leads from the root to a state that accepts a value. -/
def Recognises (m : Nfa α) (word : List Char) (accept : α) : Prop :=
  m.RecognisesFrom root word accept

/-- There is a root, and every edge takes characters and leads to a state of the automaton. -/
structure Proper (m : Nfa α) : Prop where
  size_pos : 0 < m.size
  target_lt : ∀ k, ∀ e ∈ (m.state k).edges, e.target < m.size
  label_proper : ∀ k, ∀ e ∈ (m.state k).edges, e.label.Proper

/-- The states that a word leads to from the states of a set. -/
def after (m : Nfa α) (set : List Nat) : List Char → List Nat
  | [] => set
  | c :: word => m.after (Edge.targets (m.edgesOf set) c) word

/-! ### Paths -/

theorem recognisesFrom_cons {m : Nfa α} {k : Nat} {c : Char} {word : List Char} {a : α} :
    m.RecognisesFrom k (c :: word) a ↔ ∃ r, m.Step k c r ∧ m.RecognisesFrom r word a := by
  constructor
  · rintro ⟨q, path, accepted⟩
    cases path with
    | step edge rest => exact ⟨_, edge, q, rest, accepted⟩
  · rintro ⟨r, edge, q, rest, accepted⟩
    exact ⟨q, .step edge rest, accepted⟩

/-- A word leads along corresponding states, if single characters do. -/
theorem Reaches.simulate {m : Nfa α} {m' : Nfa β} {R : Nat → Nat → Prop}
    (step : ∀ {k k' : Nat} {c : Char} {r : Nat}, R k k' → m.Step k c r →
      ∃ r', m'.Step k' c r' ∧ R r r')
    {k k' q : Nat} {word : List Char} (h : m.Reaches k word q) (related : R k k') :
    ∃ q', m'.Reaches k' word q' ∧ R q q' := by
  induction h generalizing k' with
  | stay q => exact ⟨k', .stay k', related⟩
  | step edge _ ih =>
    obtain ⟨r', edge', related'⟩ := step related edge
    obtain ⟨q', rest, last⟩ := ih related'
    exact ⟨q', .step edge' rest, last⟩

/-- If related states take the same steps and accept corresponding values, then they recognise the
same words. -/
theorem RecognisesFrom.simulate {m : Nfa α} {m' : Nfa β} {R : Nat → Nat → Prop} {a : α} {b : β}
    (step : ∀ {k k' : Nat} {c : Char} {r : Nat}, R k k' → m.Step k c r →
      ∃ r', m'.Step k' c r' ∧ R r r')
    (accepts : ∀ {k k' : Nat}, R k k' → a ∈ (m.state k).accepts → b ∈ (m'.state k').accepts)
    {k k' : Nat} {word : List Char} (h : m.RecognisesFrom k word a) (related : R k k') :
    m'.RecognisesFrom k' word b := by
  obtain ⟨q, path, accepted⟩ := h
  obtain ⟨q', path', last⟩ := path.simulate step related
  exact ⟨q', path', accepts last accepted⟩

/-- Without rules, nothing is recognised. -/
theorem not_recognises_empty (word : List Char) (a : α) : ¬ (empty : Nfa α).Recognises word a := by
  rintro ⟨q, -, accepted⟩
  simp [State.blank] at accepted

/-! ### Sets of states -/

@[simp] theorem after_nil (m : Nfa α) (set : List Nat) : m.after set [] = set := rfl

@[simp] theorem after_cons (m : Nfa α) (set : List Nat) (c : Char) (word : List Char) :
    m.after set (c :: word) = m.after (Edge.targets (m.edgesOf set) c) word := rfl

/-- A word may be followed in two parts. -/
theorem after_append (m : Nfa α) (set : List Nat) (front back : List Char) :
    m.after set (front ++ back) = m.after (m.after set front) back := by
  induction front generalizing set with
  | nil => rfl
  | cons c front ih => exact ih _

/-- From the states of a set, a character leads where it leads from one of them. -/
theorem mem_targets_edgesOf {m : Nfa α} {set : List Nat} {c : Char} {q : Nat} :
    q ∈ Edge.targets (m.edgesOf set) c ↔ ∃ k ∈ set, m.Step k c q := by
  simp only [Edge.mem_targets, edgesOf, List.mem_flatMap, Step]
  constructor
  · rintro ⟨e, ⟨k, hk, mem⟩, edge⟩
    exact ⟨k, hk, e, mem, edge⟩
  · rintro ⟨k, hk, e, mem, edge⟩
    exact ⟨e, ⟨k, hk, mem⟩, edge⟩

/-- **A word leads to the ends of its paths.** -/
theorem mem_after {m : Nfa α} {set : List Nat} {word : List Char} {q : Nat} :
    q ∈ m.after set word ↔ ∃ k ∈ set, m.Reaches k word q := by
  induction word generalizing set with
  | nil =>
    constructor
    · intro mem
      exact ⟨q, mem, .stay q⟩
    · rintro ⟨k, mem, path⟩
      cases path with
      | stay => exact mem
  | cons c word ih =>
    rw [after_cons, ih]
    constructor
    · rintro ⟨r, mem, rest⟩
      obtain ⟨k, hk, edge⟩ := mem_targets_edgesOf.1 mem
      exact ⟨k, hk, .step edge rest⟩
    · rintro ⟨k, hk, path⟩
      cases path with
      | step edge rest => exact ⟨_, mem_targets_edgesOf.2 ⟨k, hk, edge⟩, rest⟩

/-- No word leads anywhere from no state. -/
@[simp] theorem after_empty (m : Nfa α) (word : List Char) : m.after [] word = [] := by
  refine List.eq_nil_iff_forall_not_mem.2 fun q mem => ?_
  obtain ⟨k, hk, -⟩ := mem_after.1 mem
  simp at hk

/-- A word is recognised by the states that it leads to from the root. -/
theorem mem_acceptsOf_after {m : Nfa α} {word : List Char} {a : α} :
    a ∈ m.acceptsOf (m.after [root] word) ↔ m.Recognises word a := by
  simp only [acceptsOf, List.mem_flatMap, mem_after, List.mem_singleton, exists_eq_left, Recognises,
    RecognisesFrom]

/-- The sets that words lead to are ascending. -/
theorem pairwise_after {m : Nfa α} {set : List Nat} (ascending : set.Pairwise (· < ·))
    (word : List Char) : (m.after set word).Pairwise (· < ·) := by
  induction word generalizing set with
  | nil => exact ascending
  | cons c word ih => exact ih (Ascending.pairwise_ofList _)

theorem Proper.label_proper_edgesOf {m : Nfa α} (h : m.Proper) (set : List Nat) :
    ∀ e ∈ m.edgesOf set, e.label.Proper := by
  intro e mem
  obtain ⟨k, -, he⟩ := List.mem_flatMap.1 mem
  exact h.label_proper k e he

/-- Words lead to states of the automaton only. -/
theorem Proper.lt_of_mem_after {m : Nfa α} (h : m.Proper) {set : List Nat}
    (inside : ∀ q ∈ set, q < m.size) {word : List Char} {q : Nat} (mem : q ∈ m.after set word) :
    q < m.size := by
  induction word generalizing set with
  | nil => exact inside q mem
  | cons c word ih =>
    refine ih (fun q mem => ?_) mem
    obtain ⟨k, -, e, he, -, rfl⟩ := mem_targets_edgesOf.1 mem
    exact h.target_lt k e he

end FrontEnd.Nfa
