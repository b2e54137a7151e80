import FrontEnd.Automaton.CharRange

/-!
# Looking up a character among disjoint ranges

The edges of a set of states overlap.  Before they are numbered they are cut into disjoint pieces;
here we show that looking up a character among the pieces finds exactly the set of states that the
overlapping edges lead to.

## Main Results

* `Edge.find?_pieces` — a character is found in a piece with all its targets
* `Edge.find?_pieces_eq_none` — a character without targets is found in no piece
* `Edge.exists_targets_eq` — the targets of a piece are those of a character

## Design Notes

Two facts about cut points carry the proof.  No cut point lies inside a range between neighbouring
points, so the applicable edges are the same throughout the range; and every edge starts and stops
at a cut point, so a character with a target lies in some range.
-/

namespace FrontEnd.Edge

/-! ### Cut points -/

theorem pairwise_cuts (edges : List Edge) : (cuts edges).Pairwise (· < ·) := by
  induction edges with
  | nil => simp [cuts]
  | cons e rest ih => exact Ascending.pairwise_insert (Ascending.pairwise_insert ih)

/-- Every edge starts and stops at a cut point. -/
theorem mem_cuts {edges : List Edge} {e : Edge} (mem : e ∈ edges) :
    e.label.start ∈ cuts edges ∧ e.label.stop ∈ cuts edges := by
  induction edges with
  | nil => simp at mem
  | cons first rest ih =>
    simp only [cuts, Ascending.mem_insert]
    rcases List.mem_cons.1 mem with rfl | later
    · exact ⟨.inl rfl, .inr (.inl rfl)⟩
    · obtain ⟨start, stop⟩ := ih later
      exact ⟨.inr (.inr start), .inr (.inr stop)⟩

/-! ### Ranges between cut points -/

/-- The ranges between neighbouring points begin and end at points. -/
theorem start_mem_of_mem_between {points : List Nat} {r : CharRange} (mem : r ∈ between points) :
    r.start ∈ points ∧ r.stop ∈ points := by
  fun_induction between points with
  | case1 start stop rest ih =>
    rcases List.mem_cons.1 mem with rfl | later
    · simp
    · obtain ⟨h₁, h₂⟩ := ih later
      exact ⟨List.mem_cons_of_mem _ h₁, List.mem_cons_of_mem _ h₂⟩
  | case2 points => simp at mem

/-- No point lies inside a range between neighbouring points. -/
theorem le_or_le_of_mem_between {points : List Nat} (ascending : points.Pairwise (· < ·))
    {r : CharRange} (mem : r ∈ between points) {x : Nat} (hx : x ∈ points) :
    x ≤ r.start ∨ r.stop ≤ x := by
  fun_induction between points with
  | case1 start stop rest ih =>
    obtain ⟨above, tail⟩ := List.pairwise_cons.1 ascending
    rcases List.mem_cons.1 mem with rfl | later
    · rcases List.mem_cons.1 hx with rfl | hx
      · exact .inl (Nat.le_refl _)
      · rcases List.mem_cons.1 hx with rfl | hx
        · exact .inr (Nat.le_refl _)
        · exact .inr (Nat.le_of_lt ((List.pairwise_cons.1 tail).1 x hx))
    · rcases List.mem_cons.1 hx with rfl | hx
      · exact .inl (Nat.le_of_lt (above _ (start_mem_of_mem_between later).1))
      · exact ih tail later hx
  | case2 points => simp at mem

/-- A number between two points lies in a range between neighbouring points. -/
theorem exists_mem_between {points : List Nat} (ascending : points.Pairwise (· < ·))
    {n x y : Nat} (hx : x ∈ points) (hy : y ∈ points) (le : x ≤ n) (lt : n < y) :
    ∃ r ∈ between points, r.start ≤ n ∧ n < r.stop := by
  fun_induction between points generalizing x with
  | case1 start stop rest ih =>
    obtain ⟨above, tail⟩ := List.pairwise_cons.1 ascending
    have start_le : start ≤ x := by
      rcases List.mem_cons.1 hx with rfl | hx
      · exact Nat.le_refl _
      · exact Nat.le_of_lt (above x hx)
    by_cases before : n < stop
    · exact ⟨⟨start, stop⟩, by simp, Nat.le_trans start_le le, before⟩
    · have hy' : y ∈ stop :: rest := by
        rcases List.mem_cons.1 hy with rfl | hy
        · omega
        · exact hy
      obtain ⟨r, mem, bounds⟩ := ih tail List.mem_cons_self hy' (Nat.le_of_not_lt before)
      exact ⟨r, List.mem_cons_of_mem _ mem, bounds⟩
  | case2 points short =>
    match points with
    | [] => simp at hx
    | [a] =>
      simp only [List.mem_singleton] at hx hy
      omega
    | a :: b :: rest => exact absurd rfl (short a b rest)

/-! ### Pieces -/

/-- The targets do not change within a range between neighbouring cut points. -/
theorem targetsAt_start {edges : List Edge} {r : CharRange} (mem : r ∈ between (cuts edges))
    {n : Nat} (le : r.start ≤ n) (lt : n < r.stop) :
    targetsAt edges r.start = targetsAt edges n := by
  have same : ∀ e ∈ edges, (decide (e.label.start ≤ r.start) && decide (r.start < e.label.stop)) =
      (decide (e.label.start ≤ n) && decide (n < e.label.stop)) := by
    intro e he
    obtain ⟨start, stop⟩ := mem_cuts he
    have atStart := le_or_le_of_mem_between (pairwise_cuts edges) mem start
    have atStop := le_or_le_of_mem_between (pairwise_cuts edges) mem stop
    rw [Bool.eq_iff_iff]
    simp only [Bool.and_eq_true, decide_eq_true_eq]
    omega
  rw [targetsAt, targetsAt, List.filter_congr same]

theorem mem_pieces {edges : List Edge} {r : CharRange} {set : List Nat} :
    (r, set) ∈ pieces edges ↔
      r ∈ between (cuts edges) ∧ targetsAt edges r.start = set ∧ set ≠ [] := by
  simp only [pieces, List.mem_filterMap]
  constructor
  · rintro ⟨r', mem, found⟩
    split at found
    · simp at found
    · next nonempty =>
      cases found
      exact ⟨mem, rfl, fun empty => nonempty empty⟩
  · rintro ⟨mem, rfl, nonempty⟩
    refine ⟨r, mem, ?_⟩
    split
    · contradiction
    · rfl

/-- A piece that takes a character leads to all its targets. -/
theorem eq_targets_of_mem_pieces {edges : List Edge} {c : Char} {piece : CharRange × List Nat}
    (mem : piece ∈ pieces edges) (inside : c ∈ piece.1) :
    piece.2 = targets edges c ∧ piece.2 ≠ [] := by
  obtain ⟨between, isTargets, nonempty⟩ := mem_pieces.1 mem
  exact ⟨by rw [← isTargets, targetsAt_start between inside.1 inside.2, targets], nonempty⟩

/-- A character that has a target lies in a piece. -/
theorem exists_mem_pieces {edges : List Edge} {c : Char} (h : targets edges c ≠ []) :
    ∃ piece ∈ pieces edges, c ∈ piece.1 := by
  obtain ⟨q, mem⟩ := List.exists_mem_of_ne_nil _ h
  obtain ⟨e, he, inside, -⟩ := mem_targets.1 mem
  obtain ⟨start, stop⟩ := mem_cuts he
  obtain ⟨r, hr, le, lt⟩ := exists_mem_between (pairwise_cuts edges) start stop inside.1 inside.2
  refine ⟨(r, targetsAt edges r.start), mem_pieces.2 ⟨hr, rfl, ?_⟩, le, lt⟩
  rw [targetsAt_start hr le lt]
  exact h

/-- **A character is found with all its targets.**  The pieces are disjoint for this purpose: no
matter which one is found, it has the same targets. -/
theorem find?_pieces {edges : List Edge} {c : Char} {piece : CharRange × List Nat}
    (h : (pieces edges).find? (fun piece => c ∈ piece.1) = some piece) :
    piece.2 = targets edges c ∧ piece.2 ≠ [] := by
  have inside := List.find?_some h
  exact eq_targets_of_mem_pieces (List.mem_of_find?_eq_some h) (of_decide_eq_true inside)

/-- A character that is found in no piece has no target. -/
theorem find?_pieces_eq_none {edges : List Edge} {c : Char}
    (h : (pieces edges).find? (fun piece => c ∈ piece.1) = none) : targets edges c = [] := by
  by_cases empty : targets edges c = []
  · exact empty
  · obtain ⟨piece, mem, inside⟩ := exists_mem_pieces empty
    exact absurd (decide_eq_true inside) (List.find?_eq_none.1 h piece mem)

/-- Every piece of proper edges has the targets of some character. -/
theorem exists_targets_eq {edges : List Edge} (proper : ∀ e ∈ edges, e.label.Proper)
    {piece : CharRange × List Nat} (mem : piece ∈ pieces edges) :
    ∃ c, targets edges c = piece.2 := by
  obtain ⟨-, isTargets, nonempty⟩ := mem_pieces.1 mem
  have inside : piece.1.start < Char.numCodePoints := by
    obtain ⟨q, hq⟩ := List.exists_mem_of_ne_nil _ nonempty
    rw [← isTargets] at hq
    simp only [targetsAt, Ascending.mem_ofList, List.mem_map, List.mem_filter, Bool.and_eq_true,
      decide_eq_true_eq] at hq
    obtain ⟨e, ⟨he, -, lt⟩, -⟩ := hq
    exact Nat.lt_of_lt_of_le lt (proper e he)
  refine ⟨Char.ofOrdinal ⟨piece.1.start, inside⟩, ?_⟩
  rw [targets, Char.ordinal_ofOrdinal, isTargets]

end FrontEnd.Edge
