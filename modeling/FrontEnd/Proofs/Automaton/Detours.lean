import FrontEnd.Proofs.Automaton.Words

/-!
# Paths with detours

Building a pattern from a state on adds paths to those that an automaton has already.  They are told
here by what they add: a path of the larger automaton is a path of the smaller one, interrupted by
detours.

## Main Definitions

* `Nfa.ReachesVia` — a path that may be interrupted by given moves between states
* `Nfa.merge`, `Nfa.joint` — where a state is found after folding, and the moves between states that
  are folded together

## Main Results

* `Nfa.ReachesVia.transfer` — paths with detours correspond, if paths and moves do
* `Nfa.reaches_fold_iff` — folding a state lets paths move between that state and the other one

## Design Notes

**Paths and moves take turns.**  A path with detours is a list of paths of the automaton with a move
between any two of them.  So what is known of the paths of an automaton between some of its states
is enough to tell the paths with detours between these states; what happens in between never has to
be looked at.
-/

namespace FrontEnd.Nfa

variable {α β : Type}

/-- A word may be read in two parts. -/
theorem Reaches.append {m : Nfa α} {x y z : Nat} {front back : List Char}
    (first : m.Reaches x front y) (second : m.Reaches y back z) :
    m.Reaches x (front ++ back) z := by
  induction first with
  | stay => exact second
  | step edge _ ih => exact .step edge (ih second)

/-- A path with moves in between: `move k word l` leads from `k` to `l` and reads `word`. -/
inductive ReachesVia (m : Nfa α) (move : Nat → List Char → Nat → Prop) :
    Nat → List Char → Nat → Prop where
  /-- A path without interruption. -/
  | path {x y : Nat} {word : List Char} : m.Reaches x word y → ReachesVia m move x word y
  /-- A path up to a move, the move, and the rest. -/
  | detour {x k l y : Nat} {front middle back : List Char} : m.Reaches x front k →
      move k middle l → ReachesVia m move l back y →
      ReachesVia m move x (front ++ (middle ++ back)) y

namespace ReachesVia

variable {m : Nfa α} {move : Nat → List Char → Nat → Prop} {x y z : Nat}
  {front back word : List Char}

/-- A path in front. -/
theorem behind (first : m.Reaches x front y) (second : m.ReachesVia move y back z) :
    m.ReachesVia move x (front ++ back) z := by
  cases second with
  | path second => exact .path (first.append second)
  | detour upTo moved rest =>
    rw [← List.append_assoc]
    exact .detour (first.append upTo) moved rest

theorem trans (first : m.ReachesVia move x front y) (second : m.ReachesVia move y back z) :
    m.ReachesVia move x (front ++ back) z := by
  induction first with
  | path first => exact behind first second
  | detour upTo moved _ ih =>
    rw [List.append_assoc, List.append_assoc]
    exact .detour upTo moved (ih second)

/-- A move alone. -/
theorem of_move (moved : move x word y) : m.ReachesVia move x word y := by
  have alone := detour (.stay x) moved (.path (.stay y) : m.ReachesVia move y [] y)
  rwa [List.append_nil] at alone

/-- **Paths with detours correspond**, if paths between corresponding states and moves do. -/
theorem transfer {m' : Nfa β} {move' : Nat → List Char → Nat → Prop} {R : Nat → Nat → Prop}
    (paths : ∀ {x x' y y' : Nat} {word : List Char}, R x x' → R y y' → m.Reaches x word y →
      m'.ReachesVia move' x' word y')
    (moves : ∀ {k l : Nat} {word : List Char}, move k word l →
      ∃ k' l', R k k' ∧ R l l' ∧ m'.ReachesVia move' k' word l')
    {x' y' : Nat} (h : m.ReachesVia move x word y) (hx : R x x') (hy : R y y') :
    m'.ReachesVia move' x' word y' := by
  induction h generalizing x' with
  | path reached => exact paths hx hy reached
  | detour upTo moved _ ih =>
    obtain ⟨k', l', hk, hl, moved'⟩ := moves moved
    exact (paths hx hk upTo).trans (moved'.trans (ih hl hy))

end ReachesVia

/-! ### Folding -/

/-- Where a state is found after `old` has been folded into `new`. -/
def merge (old new k : Nat) : Nat := if k = old then new else k

/-- The moves between two states that are folded together. -/
def joint (old new k : Nat) (word : List Char) (l : Nat) : Prop :=
  word = [] ∧ (k = old ∨ k = new) ∧ (l = old ∨ l = new)

theorem merge_eq_iff {old new k l : Nat} :
    merge old new k = l ↔ k = l ∧ k ≠ old ∨ k = old ∧ new = l := by
  unfold merge
  split <;> omega

theorem merge_of_ne {old new k : Nat} (h : k ≠ old) : merge old new k = k := if_neg h

theorem merge_of_joint {old new k : Nat} (h : k = old ∨ k = new) : merge old new k = new := by
  unfold merge
  split <;> omega

/-- States that are found in one place are the same, or they are folded together. -/
theorem reachesVia_of_merge_eq {m : Nfa α} {old new k l : Nat}
    (h : merge old new k = merge old new l) : m.ReachesVia (joint old new) k [] l := by
  by_cases same : k = l
  · exact .path (same ▸ .stay k)
  · refine .of_move ⟨rfl, ?_⟩
    unfold merge at h
    split at h <;> split at h <;> omega

theorem label_retarget (old new : Nat) (e : Edge) : (retarget old new e).label = e.label := by
  unfold retarget
  split <;> rfl

theorem target_retarget (old new : Nat) (e : Edge) :
    (retarget old new e).target = merge old new e.target := by
  unfold retarget merge
  split <;> rfl

/-- The edges of a state after folding are those of all states that are found there. -/
theorem mem_edges_fold_iff [DecidableEq α] {m : Nfa α} {old new : Nat} (ne : old ≠ new)
    (inside : new < m.size)    {x : Nat} {e : Edge} :
    e ∈ ((m.fold old new).state x).edges ↔
      ∃ x' e', e' ∈ (m.state x').edges ∧ merge old new x' = x ∧ retarget old new e' = e := by
  simp only [edges_fold ne inside, merge_eq_iff]
  by_cases isOld : x = old
  · rw [if_pos isOld]
    constructor
    · exact fun mem => absurd mem List.not_mem_nil
    · rintro ⟨x', _, _, ⟨rfl, notOld⟩ | ⟨-, isNew⟩, -⟩
      · exact absurd isOld notOld
      · exact absurd (isNew.trans isOld).symm ne
  rw [if_neg isOld]
  by_cases isNew : x = new
  · simp only [if_pos isNew, List.mem_map, List.mem_append]
    constructor
    · rintro ⟨e', own | moved, rfl⟩
      · exact ⟨new, e', own, .inl ⟨isNew.symm, ne.symm⟩, rfl⟩
      · exact ⟨old, e', moved, .inr ⟨rfl, isNew.symm⟩, rfl⟩
    · rintro ⟨x', e', mem, ⟨rfl, -⟩ | ⟨rfl, -⟩, rfl⟩
      · exact ⟨e', .inl (isNew ▸ mem), rfl⟩
      · exact ⟨e', .inr mem, rfl⟩
  · simp only [if_neg isNew, List.mem_map]
    constructor
    · rintro ⟨e', mem, rfl⟩
      exact ⟨x, e', mem, .inl ⟨rfl, isOld⟩, rfl⟩
    · rintro ⟨x', e', mem, ⟨rfl, -⟩ | ⟨-, found⟩, rfl⟩
      · exact ⟨e', mem, rfl⟩
      · exact absurd found.symm isNew

theorem step_fold_iff [DecidableEq α] {m : Nfa α} {old new : Nat} (ne : old ≠ new)
    (inside : new < m.size)    {x z : Nat} {c : Char} :
    (m.fold old new).Step x c z ↔
      ∃ x' z', m.Step x' c z' ∧ merge old new x' = x ∧ merge old new z' = z := by
  simp only [Step, mem_edges_fold_iff ne inside]
  constructor
  · rintro ⟨_, ⟨x', e, mem, hx, rfl⟩, label, rfl⟩
    rw [label_retarget] at label
    exact ⟨x', e.target, ⟨e, mem, label, rfl⟩, hx, (target_retarget old new e).symm⟩
  · rintro ⟨x', _, ⟨e, mem, label, rfl⟩, hx, rfl⟩
    refine ⟨retarget old new e, ⟨x', e, mem, hx, rfl⟩, ?_, target_retarget old new e⟩
    rwa [label_retarget]

/-- **Folding lets paths move between the folded state and the other one.** -/
theorem reaches_fold_iff [DecidableEq α] {m : Nfa α} {old new : Nat} (ne : old ≠ new)
    (inside : new < m.size)    {x y : Nat} {word : List Char} :
    (m.fold old new).Reaches (merge old new x) word (merge old new y) ↔
      m.ReachesVia (joint old new) x word y := by
  constructor
  · intro path
    generalize hx : merge old new x = x' at path
    generalize hy : merge old new y = y' at path
    induction path generalizing x with
    | stay q => exact reachesVia_of_merge_eq (hx.trans hy.symm)
    | step edge _ ih =>
      obtain ⟨x₁, z, edge', hx₁, hz⟩ := (step_fold_iff ne inside).1 edge
      have along := ReachesVia.behind (.step edge' (.stay z)) (ih hz hy)
      exact (reachesVia_of_merge_eq (hx.trans hx₁.symm)).trans along
  · intro via
    have paths {x y : Nat} {word : List Char} (path : m.Reaches x word y) :
        (m.fold old new).Reaches (merge old new x) word (merge old new y) := by
      induction path with
      | stay q => exact .stay _
      | step edge _ ih => exact .step ((step_fold_iff ne inside).2 ⟨_, _, edge, rfl, rfl⟩) ih
    induction via with
    | path reached => exact paths reached
    | detour upTo moved _ ih =>
      obtain ⟨rfl, hFrom, hTo⟩ := moved
      have same : merge old new _ = merge old new _ :=
        (merge_of_joint hFrom).trans (merge_of_joint hTo).symm
      rw [List.nil_append]
      exact (paths upTo).append (same ▸ ih)

end FrontEnd.Nfa
