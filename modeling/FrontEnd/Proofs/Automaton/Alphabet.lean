import FrontEnd.Proofs.Automaton.Isolation

/-!
# The characters of a pattern

An automaton can only read the characters that its edges are labelled with.

## Main Definitions

* `Nfa.labels` — the labels of all edges
* `Pattern.Uses` — a character that the words of a pattern may contain

## Main Results

* `Pattern.Matches.uses` — the words of a pattern are made up of such characters
* `Pattern.Matches.ne_nil` — and none of them is empty
* `Pattern.eq_of_matches_char` — a single character matches itself only
-/

namespace FrontEnd

/-- Ordinals keep the order of characters. -/
theorem ordinal_le_iff {c d : Char} : c.ordinal.val ≤ d.ordinal.val ↔ c ≤ d := by
  constructor
  · intro le
    have le' : Char.ofOrdinal c.ordinal ≤ Char.ofOrdinal d.ordinal := Char.ofOrdinal_le_of_le le
    rwa [Char.ofOrdinal_ordinal, Char.ofOrdinal_ordinal] at le'
  · exact Char.ordinal_le_of_le

theorem CharRange.mem_between {c first last : Char} :
    c ∈ between first last ↔ first ≤ c ∧ c ≤ last := by
  rw [mem_def, ← ordinal_le_iff, ← ordinal_le_iff]
  exact and_congr_right fun _ => Nat.lt_succ_iff

theorem CharRange.mem_only {c d : Char} : c ∈ only d ↔ c = d := by
  rw [only, mem_between]
  constructor
  · exact fun ⟨ge, le⟩ => Char.le_antisymm le ge
  · rintro rfl
    exact ⟨Char.le_refl c, Char.le_refl c⟩

/-- The members of a range are listed. -/
theorem CharRange.mem_chars {c : Char} {r : CharRange} : c ∈ r.chars ↔ c ∈ r := by
  have found (ordinal : Nat) : charAt? ordinal = some c ↔ ordinal = c.ordinal.val := by
    rw [charAt?]
    split
    · next inside =>
      rw [Option.some.injEq]
      constructor
      · rintro rfl
        rw [Char.ordinal_ofOrdinal]
      · rintro rfl
        exact Char.ofOrdinal_ordinal
    · next outside => exact iff_of_false (by simp) fun same => outside (same ▸ c.ordinal.isLt)
  simp only [chars, List.mem_filterMap, found, exists_eq_right, List.mem_range'_1, mem_def]
  omega

namespace Nfa

variable {α : Type} {m : Nfa α}

/-- The labels of all edges. -/
def labels (m : Nfa α) : List CharRange :=
  m.states.toList.flatMap fun state => state.edges.map Edge.label

theorem mem_labels {k : Nat} {e : Edge} (mem : e ∈ (m.state k).edges) : e.label ∈ m.labels := by
  rw [state] at mem
  cases found : m.states[k]? with
  | none => simp [found, State.blank] at mem
  | some state =>
    rw [found] at mem
    have member : state ∈ m.states.toList := Array.mem_toList_iff.2 (Array.mem_of_getElem? found)
    exact List.mem_flatMap.2 ⟨state, member, List.mem_map_of_mem mem⟩

/-- A path reads characters of labels. -/
theorem Reaches.exists_label {k q : Nat} {word : List Char} (h : m.Reaches k word q) :
    ∀ c ∈ word, ∃ label ∈ m.labels, c ∈ label := by
  induction h with
  | stay q => exact List.forall_mem_nil _
  | step edge _ ih =>
    obtain ⟨e, mem, label, -⟩ := edge
    exact List.forall_mem_cons.2 ⟨⟨e.label, mem_labels mem, label⟩, ih⟩

end Nfa

namespace Pattern

/-- A character that the words of a pattern may contain. -/
def Uses (p : Pattern) (c : Char) : Prop := ∃ label ∈ (Nfa.empty.compile p ()).labels, c ∈ label

instance (p : Pattern) (c : Char) : Decidable (p.Uses c) :=
  inferInstanceAs (Decidable (∃ label ∈ (Nfa.empty.compile p ()).labels, c ∈ label))

variable {p : Pattern} {word : List Char}

/-- The words of a pattern are made up of the characters that it uses. -/
theorem Matches.uses (h : p.Matches word) : ∀ c ∈ word, p.Uses c := by
  obtain ⟨q, path, -⟩ := h
  exact path.exists_label

/-- No pattern matches the empty word. -/
theorem Matches.ne_nil (h : p.Matches word) : word ≠ [] := by
  rintro rfl
  exact (Nfa.rooted_empty.compile p ()).not_recognises_nil () h

/-- The pattern of a single character has one word. -/
theorem eq_of_matches_char {c : Char} (h : (char c done).Matches word) : word = [c] := by
  have root : ((Nfa.empty.compile (char c done) ()).state Nfa.root).edges = [⟨.only c, 2⟩] := rfl
  have last : ((Nfa.empty.compile (char c done) ()).state 2).edges = [] := rfl
  have nonempty := h.ne_nil
  obtain ⟨q, path, -⟩ := h
  cases path with
  | stay => exact absurd rfl nonempty
  | step edge rest =>
    obtain ⟨e, mem, label, rfl⟩ := edge
    rw [root, List.mem_singleton] at mem
    subst mem
    rw [CharRange.mem_only.1 label]
    cases rest with
    | stay => rfl
    | step edge _ =>
      obtain ⟨e, mem, -⟩ := edge
      rw [last] at mem
      cases mem

end Pattern

end FrontEnd
