import FrontEnd.Automaton.Dfa
import FrontEnd.Proofs.Automaton.Pieces
import FrontEnd.Proofs.Automaton.Words
import Mathlib.Data.List.Sort
import Mathlib.Data.List.Sublists

/-!
# The subset construction

The deterministic automaton follows a word exactly as far as the nondeterministic one can, and its
states know which values the word is recognised for.

## Main Definitions

* `Numbering.Extends` — further values have been numbered
* `Subsets.IsRow`, `Subsets.Sound` — what holds while sets are being explored
* `Subsets.final` — the exploration at its end

## Main Results

* `Subsets.Sound.size_sets_le` — the sets that can be discovered are bounded
* `Subsets.size_sets_le_size_rows`, `Subsets.exists_row` — the exploration comes to its end
* `Dfa.run_determinize` — which state a word leads to
* `Dfa.accept_run_determinize` — what counts for a word

## Design Notes

**Known sets are sets of words.**  The invariant says of each numbered set that some word leads
there.  It is then ascending and stays inside the automaton, which bounds the number of sets and so
shows that the rounds of the exploration are enough.

**Rows are finished once.**  A row is an equation between its edges and the pieces of its set, read
through the numbering.  Numbers never change, so the equation survives everything that is discovered
later.
-/

namespace FrontEnd

namespace Numbering

variable {β : Type} [Ord β] [Std.TransOrd β] [Std.LawfulEqOrd β]

omit [Std.TransOrd β] [Std.LawfulEqOrd β] in
theorem lt_size_of_get? {n : Numbering β} {q : Nat} {b : β} (h : n.get? q = some b) :
    q < n.size := (Array.getElem?_eq_some_iff.1 h).1

/-- Everything that was numbered before has kept its number. -/
def Extends (n' n : Numbering β) : Prop := ∀ q b, n.get? q = some b → n'.get? q = some b

theorem extends_number (n : Numbering β) (b : β) : (n.number b).1.Extends n :=
  fun _ _ h => get?_number_of_get? h b

/-- Numbering a value makes no other value known. -/
theorem eq_or_get?_of_number {n : Numbering β} {a b : β} {q : Nat}
    (h : (n.number a).1.get? q = some b) : b = a ∨ n.get? q = some b := by
  unfold number at h
  split at h
  · exact .inr h
  · simp only [get?, meet, Array.getElem?_push] at h
    split at h
    · exact .inl (Option.some.inj h).symm
    · exact .inr h

omit [Std.TransOrd β] [Std.LawfulEqOrd β] in
/-- The values that are known are pairwise distinct. -/
theorem nodup_values (n : Numbering β) : n.values.toList.Nodup := by
  refine List.nodup_iff_getElem?_ne_getElem?.2 fun p q less inside same => ?_
  have found : n.get? q = some n.values.toList[q] := by simp [get?]
  have found' : n.get? p = some n.values.toList[q] := by
    rw [← found]
    simpa [get?] using same
  exact absurd (get?_inj found' found) (Nat.ne_of_lt less)

end Numbering

variable {α : Type}

namespace Subsets

/-- A finished row: what counts in its set, and an edge for each piece of the set, to the number of
the piece's targets. -/
structure IsRow [DecidableEq α] (m : Nfa α) (order : List α) (sets : Numbering (List Nat))
    (set : List Nat) (row : Dfa.State α) : Prop where
  accept : row.accept = Dfa.winner m order set
  edges : row.edges.map (fun e => (e.label, sets.get? e.target)) =
    (Edge.pieces (m.edgesOf set)).map fun piece => (piece.1, some piece.2)

/-- What holds at any time of the exploration. -/
structure Sound [DecidableEq α] (m : Nfa α) (order : List α) (s : Subsets α) : Prop where
  first : s.sets.get? Dfa.root = some [Nfa.root]
  reached : ∀ q set, s.sets.get? q = some set → set ≠ [] ∧ ∃ word, m.after [Nfa.root] word = set
  row : ∀ q row, s.rows[q]? = some row →
    ∃ set, s.sets.get? q = some set ∧ IsRow m order s.sets set row

/-! ### Numbering successors -/

theorem extends_link (sets : Numbering (List Nat)) (pieces : List (CharRange × List Nat)) :
    (link sets pieces).1.Extends sets := by
  induction pieces generalizing sets with
  | nil => exact fun _ _ h => h
  | cons piece rest ih =>
    intro q set known
    exact ih _ q set (Numbering.extends_number sets piece.2 q set known)

/-- The edges of a row lead to the numbers of the successors. -/
theorem edges_link (sets : Numbering (List Nat)) (pieces : List (CharRange × List Nat)) :
    (link sets pieces).2.map (fun e => (e.label, (link sets pieces).1.get? e.target)) =
      pieces.map fun piece => (piece.1, some piece.2) := by
  induction pieces generalizing sets with
  | nil => rfl
  | cons piece rest ih =>
    obtain ⟨label, set⟩ := piece
    have given := Numbering.get?_number sets set
    have kept := extends_link (sets.number set).1 rest _ _ given
    simp only [link, List.map_cons, ih, kept]

/-- Only the successors become known. -/
theorem known_of_link {sets : Numbering (List Nat)} {pieces : List (CharRange × List Nat)} {q : Nat}
    {set : List Nat} (h : (link sets pieces).1.get? q = some set) :
    (∃ label, (label, set) ∈ pieces) ∨ sets.get? q = some set := by
  induction pieces generalizing sets with
  | nil => exact .inr h
  | cons piece rest ih =>
    obtain ⟨label, first⟩ := piece
    rcases ih h with ⟨label', mem⟩ | known
    · exact .inl ⟨label', List.mem_cons_of_mem _ mem⟩
    · rcases Numbering.eq_or_get?_of_number known with rfl | known
      · exact .inl ⟨label, List.mem_cons_self⟩
      · exact .inr known

/-- The edges of a row lead to the numbers of targets of its pieces. -/
theorem IsRow.exists_piece [DecidableEq α] {m : Nfa α} {order : List α}
    {sets : Numbering (List Nat)} {set : List Nat} {row : Dfa.State α}
    (h : IsRow m order sets set row) {e : Edge} (mem : e ∈ row.edges) :
    ∃ piece ∈ Edge.pieces (m.edgesOf set), sets.get? e.target = some piece.2 := by
  have target : (e.label, sets.get? e.target) ∈
      (Edge.pieces (m.edgesOf set)).map fun piece => (piece.1, some piece.2) := by
    rw [← h.edges]
    exact List.mem_map_of_mem mem
  obtain ⟨piece, isPiece, equal⟩ := List.mem_map.1 target
  exact ⟨piece, isPiece, (congrArg Prod.snd equal).symm⟩

/-- Discovering further sets leaves finished rows as they are. -/
theorem IsRow.extend [DecidableEq α] {m : Nfa α} {order : List α}
    {sets sets' : Numbering (List Nat)} {set : List Nat} {row : Dfa.State α}
    (h : IsRow m order sets set row) (extend : sets'.Extends sets) :
    IsRow m order sets' set row := by
  refine ⟨h.accept, ?_⟩
  rw [← h.edges]
  refine List.map_congr_left fun e mem => ?_
  obtain ⟨piece, -, known⟩ := h.exists_piece mem
  rw [known, extend _ _ known]

/-! ### Exploring -/

section Exploring

variable [DecidableEq α] {m : Nfa α} {order : List α}

theorem sound_start : (start : Subsets α).Sound m order := by
  have first : (start : Subsets α).sets.get? Dfa.root = some [Nfa.root] := rfl
  refine ⟨first, ?_, ?_⟩
  · intro q set known
    rcases Numbering.eq_or_get?_of_number known with rfl | known
    · exact ⟨by simp, [], rfl⟩
    · simp [Numbering.empty, Numbering.get?] at known
  · intro q row found
    simp [start] at found

/-- Finishing the row of the next set keeps the exploration sound. -/
theorem Sound.explore (proper : m.Proper) {s : Subsets α} (h : s.Sound m order) {set : List Nat}
    (next : s.sets.get? s.rows.size = some set) : (s.explore m order set).Sound m order := by
  have extend := extends_link s.sets (Edge.pieces (m.edgesOf set))
  refine ⟨extend _ _ h.first, ?_, ?_⟩
  · intro q found known
    rcases known_of_link known with ⟨label, mem⟩ | old
    · obtain ⟨-, word, rfl⟩ := h.reached _ _ next
      obtain ⟨c, isTargets⟩ := Edge.exists_targets_eq (proper.label_proper_edgesOf _) mem
      refine ⟨(Edge.mem_pieces.1 mem).2.2, word ++ [c], ?_⟩
      rw [Nfa.after_append]
      exact isTargets
    · exact h.reached q found old
  · intro q row found
    simp only [Subsets.explore, Array.getElem?_push] at found
    split at found
    -- The new row is that of the set that was next; the old rows know more sets now.
    · next last =>
      cases found
      exact ⟨set, by rw [last]; exact extend _ _ next, rfl, edges_link _ _⟩
    · obtain ⟨set', known, isRow⟩ := h.row q row found
      exact ⟨set', extend _ _ known, isRow.extend extend⟩

/-- Exploring keeps the exploration sound; it ends early only if every known set has its row. -/
theorem Sound.exploreAll (proper : m.Proper) {s : Subsets α} (h : s.Sound m order) (rounds : Nat) :
    (s.exploreAll m order rounds).Sound m order ∧
      ((s.exploreAll m order rounds).sets.get? (s.exploreAll m order rounds).rows.size = none ∨
        (s.exploreAll m order rounds).rows.size = s.rows.size + rounds) := by
  induction rounds generalizing s with
  | zero => exact ⟨h, .inr rfl⟩
  | succ rounds ih =>
    rw [Subsets.exploreAll]
    split
    · next stop => exact ⟨h, .inl stop⟩
    · next set next =>
      obtain ⟨sound, stopped | used⟩ := ih (h.explore proper next)
      · exact ⟨sound, .inl stopped⟩
      · refine ⟨sound, .inr ?_⟩
        rw [used, Subsets.explore, Array.size_push]
        omega

/-- A known set is one of the sublists of all state numbers. -/
theorem Sound.sublist_range (proper : m.Proper) {s : Subsets α} (h : s.Sound m order) {q : Nat}
    {set : List Nat} (known : s.sets.get? q = some set) : set.Sublist (List.range m.size) := by
  -- A known set is reached by a word, and such sets are ascending lists of state numbers.
  obtain ⟨-, word, rfl⟩ := h.reached q set known
  have ascending : (m.after [Nfa.root] word).Pairwise (· < ·) :=
    Nfa.pairwise_after (List.pairwise_singleton _ _) word
  have inside : m.after [Nfa.root] word ⊆ List.range m.size := by
    intro k mem
    refine List.mem_range.2 (proper.lt_of_mem_after ?_ mem)
    simpa [Nfa.root] using proper.size_pos
  exact List.sublist_of_subperm_of_pairwise
    (List.subperm_of_subset (ascending.imp Nat.ne_of_lt) inside) ascending List.pairwise_lt_range

/-- There are not more known sets than sets of states. -/
theorem Sound.size_sets_le (proper : m.Proper) {s : Subsets α} (h : s.Sound m order) :
    s.sets.size ≤ Nat.pow 2 m.size := by
  have known : s.sets.values.toList ⊆ (List.range m.size).sublists := by
    intro set mem
    obtain ⟨q, inside, rfl⟩ := List.mem_iff_getElem.1 mem
    have isKnown : s.sets.get? q = some s.sets.values.toList[q] := by simp [Numbering.get?]
    exact List.mem_sublists.2 (h.sublist_range proper isKnown)
  have bound := (List.subperm_of_subset s.sets.nodup_values known).length_le
  rwa [List.length_sublists, List.length_range, Array.length_toList] at bound

end Exploring

/-- The exploration of an automaton, when it has come to its end. -/
def final [DecidableEq α] (m : Nfa α) (order : List α) : Subsets α :=
  start.exploreAll m order (Nat.pow 2 m.size)

section Final

variable [DecidableEq α] {m : Nfa α} {order : List α}

theorem sound_final (proper : m.Proper) : (final m order).Sound m order :=
  (sound_start.exploreAll proper _).1

/-- **The rounds are enough**: in the end there are as many rows as known sets. -/
theorem size_sets_le_size_rows (proper : m.Proper) :
    (final m order).sets.size ≤ (final m order).rows.size := by
  have sound : (final m order).Sound m order := sound_final proper
  -- Either no set was left over, or there are as many rows as there can be sets.
  rcases (sound_start.exploreAll proper (Nat.pow 2 m.size)).2 with none | used
  · exact Array.getElem?_eq_none_iff.1 none
  · rw [final, used]
    exact Nat.le_trans (sound.size_sets_le proper) (Nat.le_add_left _ _)

/-- In the end every known set has its row. -/
theorem exists_row (proper : m.Proper) {q : Nat} {set : List Nat}
    (known : (final m order).sets.get? q = some set) :
    ∃ row, (final m order).rows[q]? = some row ∧ IsRow m order (final m order).sets set row := by
  have inside : q < (final m order).rows.size :=
    Nat.lt_of_lt_of_le (Numbering.lt_size_of_get? known) (size_sets_le_size_rows proper)
  have found := Array.getElem?_eq_getElem inside
  obtain ⟨set', known', isRow⟩ := (sound_final proper).row q _ found
  rw [known] at known'
  cases known'
  exact ⟨_, found, isRow⟩

end Final

end Subsets

namespace Dfa

variable [DecidableEq α] {m : Nfa α} {order : List α}

/-! ### Following a word -/

theorem determinize_eq (m : Nfa α) (order : List α) :
    determinize m order = ⟨(Subsets.final m order).rows⟩ := rfl

/-- A state accepts what counts in its set. -/
theorem accept_of_known (proper : m.Proper) {q : Nat} {set : List Nat}
    (known : (Subsets.final m order).sets.get? q = some set) :
    (determinize m order).accept q = winner m order set := by
  obtain ⟨row, found, isRow⟩ := Subsets.exists_row proper known
  rw [accept, state, determinize_eq, found, Option.getD_some, isRow.accept]

/-- A character leads from the number of a set to the number of its targets, if there are any. -/
theorem step_of_known (proper : m.Proper) {q : Nat} {set : List Nat} (c : Char)
    (known : (Subsets.final m order).sets.get? q = some set) :
    (∃ r, (determinize m order).step q c = some r ∧
        (Subsets.final m order).sets.get? r = some (Edge.targets (m.edgesOf set) c)) ∨
      (determinize m order).step q c = none ∧ Edge.targets (m.edgesOf set) c = [] := by
  obtain ⟨row, found, isRow⟩ := Subsets.exists_row proper known
  have isState : (determinize m order).state q = row := by
    rw [state, determinize_eq, found, Option.getD_some]
  -- The row is searched by labels only, so the search may be made among the pieces instead.
  have search := congrArg (List.find? fun entry => c ∈ entry.1) isRow.edges
  simp only [List.find?_map, Function.comp_def] at search
  rw [step, isState]
  cases foundPiece : (Edge.pieces (m.edgesOf set)).find? fun piece => c ∈ piece.1 with
  | none =>
    rw [foundPiece, Option.map_none, Option.map_eq_none_iff] at search
    exact .inr ⟨by rw [search, Option.map_none], Edge.find?_pieces_eq_none foundPiece⟩
  | some piece =>
    rw [foundPiece, Option.map_some, Option.map_eq_some_iff] at search
    obtain ⟨e, foundEdge, equal⟩ := search
    refine .inl ⟨e.target, by rw [foundEdge, Option.map_some], ?_⟩
    rw [← (Edge.find?_pieces foundPiece).1]
    exact congrArg Prod.snd equal

/-- A word leads from the number of a set to the number of the set that it leads to, if that is not
empty. -/
theorem runFrom_of_known (proper : m.Proper) {q : Nat} {set : List Nat} (word : List Char)
    (known : (Subsets.final m order).sets.get? q = some set) :
    (∃ r, (determinize m order).runFrom q word = some r ∧
        (Subsets.final m order).sets.get? r = some (m.after set word)) ∨
      (determinize m order).runFrom q word = none ∧ m.after set word = [] := by
  induction word generalizing q set with
  | nil => exact .inl ⟨q, rfl, known⟩
  | cons c word ih =>
    rcases step_of_known proper c known with ⟨r, edge, known'⟩ | ⟨stuck, nothing⟩
    · rw [runFrom_cons, edge, Option.bind_some, Nfa.after_cons]
      exact ih known'
    · rw [runFrom_cons, stuck, Option.bind_none, Nfa.after_cons, nothing, Nfa.after_empty]
      exact .inr ⟨rfl, rfl⟩

/-- **Words and sets.**  The state that a word leads to stands for the set of states that the word
leads to from the root; a word that leads nowhere there leads nowhere here. -/
theorem run_determinize (proper : m.Proper) (word : List Char) :
    (∃ r, (determinize m order).run word = some r ∧
        (Subsets.final m order).sets.get? r = some (m.after [Nfa.root] word)) ∨
      (determinize m order).run word = none ∧ m.after [Nfa.root] word = [] :=
  runFrom_of_known proper word (Subsets.sound_final proper).first

/-- **What counts for a word** is the first value of the order that the word is recognised for. -/
theorem accept_run_determinize (proper : m.Proper) (word : List Char) :
    ((determinize m order).run word).bind (determinize m order).accept =
      winner m order (m.after [Nfa.root] word) := by
  rcases run_determinize proper word with ⟨r, run, known⟩ | ⟨run, nothing⟩
  · rw [run, Option.bind_some, accept_of_known proper known]
  · rw [run, nothing, Option.bind_none]
    refine (List.find?_eq_none.2 ?_).symm
    simp [Nfa.acceptsOf]

end Dfa

end FrontEnd
