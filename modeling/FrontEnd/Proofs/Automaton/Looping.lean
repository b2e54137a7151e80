import FrontEnd.Proofs.Automaton.Alphabet
import FrontEnd.Proofs.Automaton.Detours
import FrontEnd.Proofs.Pattern.LoopForm

/-!
# What building a pattern adds

The loops of a pattern are made by redirecting edges in a shared table and emptying states.  This
module follows the construction with the form of the pattern: from the state where building starts,
turns on the loops of the first place have become possible, and the state where it ends is reached
by the words that lead on from there.

## Main Definitions

* `Nfa.between`, `Nfa.betweenVia` — the words from one state to another one, without and with turns
  on given loops at a state
* `Nfa.Built` — one automaton arises from another one by building a pattern of some form

## Main Results

* `Nfa.Built.append`, `Nfa.Built.fold` — patterns in sequence, and groups
* `Nfa.built` — building a pattern builds its form
* `Pattern.matches_iff` — the words that a pattern matches are those of its form

## Design Notes

**Older states see only loops.**  Between states that were there before, the words change by turns
at the start only: a new state either lies on such a loop, or it lies on the way to the end, and
from there no path leads back.

**The end of a pattern has no way back.**  Once a character has been read, the end is a new state,
from which only turns on its own loops lead on.  So folding it into the start adds these loops
there, and one loop through the characters, and nothing else.
-/

open scoped Computability

namespace FrontEnd

namespace Nfa

variable {α : Type}

/-- The words that lead from one state to another one. -/
def between (m : Nfa α) (x y : Nat) : Language Char := {word | m.Reaches x word y}

/-- The moves that stay at a state and take one of its loops. -/
def turnAt (q : Nat) (loops : Set (Language Char)) (k : Nat) (word : List Char) (l : Nat) : Prop :=
  k = q ∧ l = q ∧ ∃ loop ∈ loops, word ∈ loop

/-- The words that lead from one state to another one, if given loops may be taken at `q`. -/
def betweenVia (m : Nfa α) (q : Nat) (loops : Set (Language Char)) (x y : Nat) : Language Char :=
  {word | m.ReachesVia (turnAt q loops) x word y}

section Turns

variable {m : Nfa α} {q x y : Nat} {loops : Set (Language Char)} {word : List Char}

theorem mem_between : word ∈ m.between x y ↔ m.Reaches x word y := Iff.rfl

theorem between_le_betweenVia : m.between x y ≤ m.betweenVia q loops x y :=
  fun _ reached => .path reached

/-- Where no loops are given, nothing is added. -/
@[simp] theorem betweenVia_empty : m.betweenVia q ∅ x y = m.between x y := by
  refine le_antisymm (fun word via => ?_) between_le_betweenVia
  cases via with
  | path reached => exact reached
  | detour _ moved _ =>
    obtain ⟨-, -, loop, mem, -⟩ := moved
    exact absurd mem (Set.notMem_empty loop)

theorem betweenVia_mono {loops' : Set (Language Char)} (h : loops ⊆ loops') :
    m.betweenVia q loops x y ≤ m.betweenVia q loops' x y := by
  intro word via
  refine via.transfer (R := Eq) ?_ ?_ rfl rfl
  · rintro x _ y _ word rfl rfl reached
    exact .path reached
  · rintro _ _ word ⟨rfl, rfl, loop, mem, inLoop⟩
    exact ⟨_, _, rfl, rfl, .of_move ⟨rfl, rfl, loop, h mem, inLoop⟩⟩

/-- A state that does not lead to `y` gives no detours on the way to `y`. -/
theorem betweenVia_eq_between (h : m.between q y = 0) :
    m.betweenVia q loops x y = m.between x y := by
  refine le_antisymm (fun word via => ?_) between_le_betweenVia
  induction via with
  | path reached => exact reached
  | detour _ moved _ ih =>
    obtain ⟨-, rfl, -⟩ := moved
    have back := ih h
    rw [h] at back
    exact absurd back (Language.notMem_zero _)

/-- Turns lead from `q` to itself. -/
theorem turns_le_betweenVia {own : Set (Language Char)} (h : turns own ≤ m.between q q) :
    turns (own ∪ loops) ≤ m.betweenVia q loops q q := by
  refine kstar_le_of_mul_le_right ?_ ?_
  · rintro word rfl
    exact .path (.stay q)
  · rintro _ ⟨front, ⟨loop, mem, inLoop⟩, back, via, rfl⟩
    rcases mem with isOwn | isGiven
    · exact ReachesVia.behind (h (le_turns isOwn inLoop)) via
    · exact ReachesVia.trans (.of_move ⟨rfl, rfl, loop, isGiven, inLoop⟩) via

/-- Given loops may be taken any number of times. -/
theorem turns_le_betweenVia_self : turns loops ≤ m.betweenVia q loops q q := by
  have own : turns ∅ ≤ m.between q q := by
    rw [turns_empty]
    rintro _ rfl
    exact .stay q
  calc turns loops
      = turns (∅ ∪ loops) := by rw [Set.empty_union]
    _ ≤ m.betweenVia q loops q q := turns_le_betweenVia own

/-- If turns on some loops lead from `q` to itself, the given loops join them. -/
theorem betweenVia_self {own : Set (Language Char)} (h : m.between q q = turns own) :
    m.betweenVia q loops x q = m.between x q * turns (own ∪ loops) := by
  have split {x y : Nat} {word : List Char} (hy : y = q)
      (via : m.ReachesVia (turnAt q loops) x word y) :
      word ∈ m.between x q * turns (own ∪ loops) := by
    induction via with
    | path reached => exact ⟨_, hy ▸ reached, [], Language.nil_mem_kstar _, List.append_nil _⟩
    | detour upTo moved _ ih =>
      obtain ⟨rfl, rfl, loop, mem, inLoop⟩ := moved
      have rest := ih hy
      rw [h, turns_mul_turns_union] at rest
      refine ⟨_, upTo, _, ?_, rfl⟩
      rw [← turns_mul_turns]
      exact ⟨_, le_turns (Set.mem_union_right _ mem) inLoop, _, rest, rfl⟩
  refine le_antisymm (fun word via => split rfl via) ?_
  rintro _ ⟨front, reached, back, turning, rfl⟩
  exact ReachesVia.behind reached (turns_le_betweenVia h.ge turning)

/-- Loops that have been added at a state may be added to again. -/
theorem betweenVia_betweenVia {m' : Nfa α} {loops' : Set (Language Char)} {n : Nat} (hq : q < n)
    (h : ∀ x < n, ∀ y < n, m'.between x y = m.betweenVia q loops x y) (hx : x < n) (hy : y < n) :
    m'.betweenVia q loops' x y = m.betweenVia q (loops ∪ loops') x y := by
  refine le_antisymm (fun word via => ?_) (fun word via => ?_)
  · refine via.transfer (R := fun x x' => x = x' ∧ x < n) ?_ ?_ ⟨rfl, hx⟩ ⟨rfl, hy⟩
    · rintro x _ y _ word ⟨rfl, hx⟩ ⟨rfl, hy⟩ reached
      exact betweenVia_mono Set.subset_union_left ((h x hx y hy).le reached)
    · rintro _ _ word ⟨rfl, rfl, loop, mem, inLoop⟩
      exact ⟨_, _, ⟨rfl, hq⟩, ⟨rfl, hq⟩, .of_move ⟨rfl, rfl, loop, .inr mem, inLoop⟩⟩
  · refine via.transfer (R := fun x x' => x = x' ∧ x < n) ?_ ?_ ⟨rfl, hx⟩ ⟨rfl, hy⟩
    · rintro x _ y _ word ⟨rfl, hx⟩ ⟨rfl, hy⟩ reached
      exact .path ((h x hx y hy).ge (.path reached))
    · rintro _ _ word ⟨rfl, rfl, loop, isOld | isNew, inLoop⟩
      · have turn := (h _ hq _ hq).ge (.of_move ⟨rfl, rfl, loop, isOld, inLoop⟩)
        exact ⟨_, _, ⟨rfl, hq⟩, ⟨rfl, hq⟩, .path turn⟩
      · exact ⟨_, _, ⟨rfl, hq⟩, ⟨rfl, hq⟩, .of_move ⟨rfl, rfl, loop, isNew, inLoop⟩⟩

end Turns

/-! ### Building a form -/

/-- The end of a pattern that reads a character is a new state; no path leads back to the older
states, and only turns lead from the new state to itself. -/
structure Fresh (m : Nfa α) (loops : Set (Language Char)) (m' : Nfa α) (q' : Nat) : Prop where
  size_le : m.size ≤ q'
  away : ∀ y < m.size, m'.between q' y = 0
  turning : m'.between q' q' = turns loops

/-- Where a form ends: a place ends where it starts, and characters lead to a new state. -/
def EndsAt (m : Nfa α) (q : Nat) (m' : Nfa α) (q' : Nat) : LoopForm → Prop
  | .last _ => q' = q
  | .next _ _ rest => Fresh m rest.lastLoops m' q'

/-- The automaton `m'` arises from `m` by building a form from `q` on, up to `q'`. -/
structure Built (m : Nfa α) (q : Nat) (form : LoopForm) (m' : Nfa α) (q' : Nat) : Prop where
  size_le : m.size ≤ m'.size
  inside : q' < m'.size
  /-- Between older states, turns on the loops of the first place have been added. -/
  between : ∀ x < m.size, ∀ y < m.size, m'.between x y = m.betweenVia q form.firstLoops x y
  /-- The end is reached through the first place. -/
  onward : ∀ x < m.size, m'.between x q' = m.betweenVia q form.firstLoops x q * form.onward
  endsAt : EndsAt m q m' q' form

/-- Nothing has been built yet. -/
theorem Built.refl {m : Nfa α} {q : Nat} (inside : q < m.size) : Built m q (.last ∅) m q := by
  refine ⟨le_rfl, inside, fun x _ y _ => betweenVia_empty.symm, fun x _ => ?_, rfl⟩
  rw [LoopForm.firstLoops, LoopForm.onward, betweenVia_empty, mul_one]

/-! ### One character -/

/-- Paths lead to states of the automaton. -/
theorem Proper.lt_of_reaches {m : Nfa α} (h : m.Proper) {x y : Nat} {word : List Char}
    (hx : x < m.size) (path : m.Reaches x word y) : y < m.size :=
  h.lt_of_mem_after (List.forall_mem_singleton.2 hx)
    (mem_after.2 ⟨x, List.mem_singleton_self x, path⟩)

/-- Linking adds edges to a new state only. -/
theorem step_link_iff {m : Nfa α} {q x z : Nat} {c : Char} {labels : List CharRange}
    (inside : q < m.size) :
    (m.link q labels).Step x c z ↔
      m.Step x c z ∨ x = q ∧ z = m.size ∧ ∃ label ∈ labels, c ∈ label := by
  simp only [Step, state_link inside]
  by_cases start : x = q
  · simp only [start, if_true, true_and, List.mem_append, List.mem_map]
    constructor
    · rintro ⟨_, own | ⟨label, mem, rfl⟩, inLabel, rfl⟩
      · exact .inl ⟨_, own, inLabel, rfl⟩
      · exact .inr ⟨rfl, label, mem, inLabel⟩
    · rintro (⟨e, own, inLabel, rfl⟩ | ⟨rfl, label, mem, inLabel⟩)
      · exact ⟨e, .inl own, inLabel, rfl⟩
      · exact ⟨_, .inr ⟨label, mem, rfl⟩, inLabel, rfl⟩
  · simp [start]

/-- The new state of a link leads nowhere. -/
theorem reaches_link_new {m : Nfa α} {q y : Nat} {word : List Char} {labels : List CharRange}
    (inside : q < m.size) (h : (m.link q labels).Reaches m.size word y) :
    y = m.size ∧ word = [] := by
  cases h with
  | stay => exact ⟨rfl, rfl⟩
  | step edge _ =>
    rcases (step_link_iff inside).1 edge with ⟨e, mem, -⟩ | ⟨rfl, -⟩
    · rw [state_of_size_le le_rfl] at mem
      exact absurd mem List.not_mem_nil
    · exact absurd inside (lt_irrefl _)

/-- A path from an older state stays among the older states, or its last step takes a new edge. -/
theorem reaches_link_iff {m : Nfa α} (h : m.Proper) {q x y : Nat} {word : List Char}
    {labels : List CharRange} (inside : q < m.size) (hx : x < m.size) :
    (m.link q labels).Reaches x word y ↔
      m.Reaches x word y ∨ y = m.size ∧ ∃ front c, m.Reaches x front q ∧
        (∃ label ∈ labels, c ∈ label) ∧ front ++ [c] = word := by
  have older {x y : Nat} {word : List Char} (path : m.Reaches x word y) :
      (m.link q labels).Reaches x word y := by
    refine (path.simulate (R := Eq) ?_ rfl).elim fun _ found => found.2 ▸ found.1
    rintro x _ c z rfl edge
    exact ⟨z, (step_link_iff inside).2 (.inl edge), rfl⟩
  constructor
  · intro path
    induction path with
    | stay => exact .inl (.stay _)
    | step edge rest ih =>
      rcases (step_link_iff inside).1 edge with edge | ⟨rfl, rfl, label⟩
      · obtain ⟨e, mem, -, rfl⟩ := id edge
        rcases ih (h.target_lt _ e mem) with rest | ⟨rfl, front, c, upTo, label, rfl⟩
        · exact .inl (.step edge rest)
        · exact .inr ⟨rfl, _, c, .step edge upTo, label, rfl⟩
      · obtain ⟨rfl, rfl⟩ := reaches_link_new inside rest
        exact .inr ⟨rfl, [], _, .stay _, label, rfl⟩
  · rintro (path | ⟨rfl, front, c, upTo, label, rfl⟩)
    · exact older path
    · have last : (m.link q labels).Step q c m.size :=
        (step_link_iff inside).2 (.inr ⟨rfl, rfl, label⟩)
      exact (older upTo).append (.step last (.stay _))

/-- Linking builds a character. -/
theorem Built.link {m : Nfa α} (h : m.Proper) {q : Nat} (inside : q < m.size)
    {labels : List CharRange} {label : Set Char} (same : ∀ c, c ∈ label ↔ ∃ r ∈ labels, c ∈ r) :
    Built m q (.single label) (m.link q labels) m.size := by
  have turning : (m.link q labels).between m.size m.size = turns ∅ := by
    rw [turns_empty]
    ext word
    rw [mem_between, Language.mem_one]
    constructor
    · intro path
      exact (reaches_link_new inside path).2
    · rintro rfl
      exact .stay _
  refine ⟨by simp, by simp, fun x hx y hy => ?_, fun x hx => ?_, le_rfl, fun y hy => ?_, turning⟩
  · ext word
    rw [LoopForm.single, LoopForm.firstLoops, betweenVia_empty, mem_between,
      reaches_link_iff h inside hx, mem_between]
    have older : y ≠ m.size := Nat.ne_of_lt hy
    simp [older]
  · ext word
    have away : ¬ m.Reaches x word m.size := fun path => lt_irrefl _ (h.lt_of_reaches hx path)
    rw [LoopForm.single, LoopForm.firstLoops, betweenVia_empty, mem_between,
      reaches_link_iff h inside hx, LoopForm.onward, LoopForm.words, turns_empty, mul_one,
      Language.mem_mul]
    simp only [mem_between, mem_charOf, same, away, false_or, true_and]
    constructor
    · rintro ⟨front, c, upTo, label, rfl⟩
      exact ⟨front, upTo, [c], ⟨c, label, rfl⟩, rfl⟩
    · rintro ⟨front, upTo, _, ⟨c, label, rfl⟩, rfl⟩
      exact ⟨front, c, upTo, label, rfl⟩
  · ext word
    rw [mem_between]
    have nowhere : ¬ (m.link q labels).Reaches m.size word y :=
      fun path => Nat.ne_of_lt hy (reaches_link_new inside path).1
    simpa using nowhere

/-! ### Sequences -/

section Append

variable {m m₁ m' : Nfa α} {q q₁ q' : Nat} {loops : Set (Language Char)} {label : Set Char}
  {rest g : LoopForm}

/-- What is built behind a place joins its loops. -/
theorem Built.append_last (inside : q < m.size) (first : Built m q (.last loops) m₁ q₁)
    (second : Built m₁ q₁ g m' q') : Built m q (.last loops ++ g) m' q' := by
  have le {x : Nat} (hx : x < m.size) : x < m₁.size := Nat.lt_of_lt_of_le hx first.size_le
  obtain rfl : q₁ = q := first.endsAt
  have joined (x : Nat) (hx : x < m.size) (y : Nat) (hy : y < m.size) :
      m₁.betweenVia q₁ g.firstLoops x y = m.betweenVia q₁ (loops ∪ g.firstLoops) x y :=
    betweenVia_betweenVia inside first.between hx hy
  rw [LoopForm.last_append]
  refine ⟨first.size_le.trans second.size_le, second.inside, fun x hx y hy => ?_,
    fun x hx => ?_, ?_⟩
  · rw [second.between x (le hx) y (le hy), joined x hx y hy, LoopForm.firstLoops_join]
  · rw [second.onward x (le hx), joined x hx q₁ inside, LoopForm.firstLoops_join,
      LoopForm.onward_join]
  · cases g with
    | last loops' => exact second.endsAt
    | next loops' label rest =>
      obtain ⟨newer, away, turning⟩ := second.endsAt
      exact ⟨first.size_le.trans newer, fun y hy => away y (le hy), turning⟩

/-- What is built behind a character changes nothing between older states. -/
theorem Built.append_next (first : Built m q (.next loops label rest) m₁ q₁)
    (second : Built m₁ q₁ g m' q') : Built m q (.next loops label rest ++ g) m' q' := by
  have le {x : Nat} (hx : x < m.size) : x < m₁.size := Nat.lt_of_lt_of_le hx first.size_le
  obtain ⟨newer, away, turning⟩ := first.endsAt
  have turned (x : Nat) : m₁.betweenVia q₁ g.firstLoops x q₁ =
      m₁.between x q₁ * turns (rest.lastLoops ∪ g.firstLoops) := betweenVia_self turning
  rw [LoopForm.next_append]
  refine ⟨first.size_le.trans second.size_le, second.inside, fun x hx y hy => ?_,
    fun x hx => ?_, ?_⟩
  · rw [second.between x (le hx) y (le hy), betweenVia_eq_between (away y hy),
      first.between x hx y hy]
    rfl
  · calc m'.between x q'
        = m.betweenVia q loops x q * (charOf label * rest.words) *
            turns (rest.lastLoops ∪ g.firstLoops) * g.onward := by
          rw [second.onward x (le hx), turned, first.onward x hx]
          rfl
      _ = m.betweenVia q loops x q * (charOf label *
            (rest.words * turns (rest.lastLoops ∪ g.firstLoops) * g.onward)) := by
          simp only [mul_assoc]
      _ = m.betweenVia q loops x q * (charOf label * (rest ++ g).words) := by
          rw [LoopForm.words_mul_turns, LoopForm.words_append]
  · cases g with
    | last loops' =>
      obtain rfl : q' = q₁ := second.endsAt
      refine ⟨newer, fun y hy => ?_, ?_⟩
      · rw [second.between q' first.inside y (le hy), betweenVia_eq_between (away y hy), away y hy]
      · rw [second.between q' first.inside q' first.inside, turned, turning,
          LoopForm.lastLoops_append_last]
        exact turns_mul_turns_union _ _
    | next loops' label' rest' =>
      obtain ⟨newer', away', turning'⟩ := second.endsAt
      refine ⟨first.size_le.trans newer', fun y hy => away' y (le hy), ?_⟩
      rw [turning', LoopForm.lastLoops_append_next]

/-- **Forms in sequence** are built one after the other. -/
theorem Built.append {f : LoopForm} (inside : q < m.size) (first : Built m q f m₁ q₁)
    (second : Built m₁ q₁ g m' q') : Built m q (f ++ g) m' q' := by
  cases f with
  | last loops => exact append_last inside first second
  | next loops label rest => exact first.append_next second

end Append

/-! ### Groups -/

section Fold

variable {m inner : Nfa α} {q last x y : Nat} {loops : Set (Language Char)} {label : Set Char}
  {rest : LoopForm} {word : List Char}

/-- Where the end of a body that reads characters is folded into its start, paths between older
states take turns at the start: on the loops of both ends, and through the characters. -/
theorem betweenVia_of_joint (inside : q < m.size)
    (body : Built m q (.next loops label rest) inner last)
    (via : inner.ReachesVia (joint last q) x word y) (hx : x < m.size) (hy : y < m.size) :
    word ∈ m.betweenVia q (LoopForm.next loops label rest).loop.firstLoops x y := by
  obtain ⟨newer, away, turning⟩ := body.endsAt
  let form := LoopForm.next loops label rest
  have atStart {k l : Nat} : m.betweenVia q loops k l ≤ m.betweenVia q form.loop.firstLoops k l :=
    betweenVia_mono form.firstLoops_subset_loop
  have atEnd : turns rest.lastLoops ≤ turns form.loop.firstLoops :=
    turns_mono form.lastLoops_subset_loop
  -- The end of the body stands for the start; no other new state has to be looked at.
  refine via.transfer (R := fun k k' => k = k' ∧ k < m.size ∨ k = last ∧ k' = q) ?_ ?_
    (.inl ⟨rfl, hx⟩) (.inl ⟨rfl, hy⟩)
  · rintro k k' l l' word (⟨rfl, hk⟩ | ⟨rfl, rfl⟩) (⟨rfl, hl⟩ | ⟨rfl, rfl⟩) reached
    · exact atStart ((body.between k hk l hl).le reached)
    · obtain ⟨front, upTo, back, through, rfl⟩ := (body.onward k hk).le reached
      exact (atStart upTo).trans (turns_le_betweenVia_self (form.onward_le_turns through))
    · exact absurd ((away l hl).le reached) (Language.notMem_zero word)
    · exact turns_le_betweenVia_self (atEnd (turning.le reached))
  · have start {k : Nat} (h : k = last ∨ k = q) : k = q ∧ k < m.size ∨ k = last ∧ q = q := by
      rcases h with rfl | rfl
      · exact .inr ⟨rfl, rfl⟩
      · exact .inl ⟨rfl, inside⟩
    rintro k l _ ⟨rfl, hk, hl⟩
    exact ⟨q, q, start hk, start hl, .path (.stay q)⟩

/-- And such turns can be taken. -/
theorem joint_of_betweenVia (inside : q < m.size)
    (body : Built m q (.next loops label rest) inner last)
    (via : word ∈ m.betweenVia q (LoopForm.next loops label rest).loop.firstLoops x y)
    (hx : x < m.size) (hy : y < m.size) : inner.ReachesVia (joint last q) x word y := by
  obtain ⟨-, -, turning⟩ := body.endsAt
  have toEnd : inner.ReachesVia (joint last q) q [] last := .of_move ⟨rfl, .inr rfl, .inl rfl⟩
  have toStart : inner.ReachesVia (joint last q) last [] q := .of_move ⟨rfl, .inl rfl, .inr rfl⟩
  refine via.transfer (R := fun k k' => k = k' ∧ k < m.size) ?_ ?_ ⟨rfl, hx⟩ ⟨rfl, hy⟩
  · rintro k _ l _ word ⟨rfl, hk⟩ ⟨rfl, hl⟩ reached
    exact .path ((body.between k hk l hl).ge (.path reached))
  · rintro _ _ word ⟨rfl, rfl, loop, mem, inLoop⟩
    refine ⟨_, _, ⟨rfl, inside⟩, ⟨rfl, inside⟩, ?_⟩
    rcases mem with (atStart | atEnd) | rfl
    · have turn := (body.between _ inside _ inside).ge (.of_move ⟨rfl, rfl, loop, atStart, inLoop⟩)
      exact .path turn
    · have turn := turning.ge (le_turns atEnd inLoop)
      have around := toEnd.trans ((ReachesVia.path turn).trans toStart)
      rwa [List.nil_append, List.append_nil] at around
    · have through : charOf label * rest.before ≤ charOf label * rest.words :=
        mul_le_mul' le_rfl rest.before_le_words
      have upToEnd := (body.onward _ inside).ge ⟨[], .path (.stay _), word, through inLoop, rfl⟩
      have around := (ReachesVia.path upToEnd).trans toStart
      rwa [List.append_nil] at around

end Fold

/-- **A group**: folding the end of its body into the start closes the loop. -/
theorem Built.fold [DecidableEq α] {m inner : Nfa α} {q last : Nat} {f : LoopForm}
    (inside : q < m.size) (body : Built m q f inner last) :
    Built m q f.loop (inner.fold last q) q := by
  cases f with
  | last loops =>
    obtain rfl : last = q := body.endsAt
    rwa [Nfa.fold, if_pos rfl]
  | next loops label rest =>
    obtain ⟨newer, -, -⟩ := body.endsAt
    have size : q < inner.size := Nat.lt_of_lt_of_le inside body.size_le
    have between (x : Nat) (hx : x < m.size) (y : Nat) (hy : y < m.size) :
        (inner.fold last q).between x y =
          m.betweenVia q (LoopForm.next loops label rest).loop.firstLoops x y := by
      have ne : last ≠ q := by omega
      have notLast {k : Nat} (hk : k < m.size) : merge last q k = k := merge_of_ne (by omega)
      ext word
      have folded := @reaches_fold_iff _ _ _ _ _ ne size x y word
      rw [notLast hx, notLast hy] at folded
      rw [mem_between, folded]
      exact ⟨fun via => betweenVia_of_joint inside body via hx hy,
        fun via => joint_of_betweenVia inside body via hx hy⟩
    refine ⟨?_, ?_, between, fun x hx => ?_, rfl⟩
    · rw [size_fold]
      exact body.size_le
    · rwa [size_fold]
    · rw [between x hx q inside, LoopForm.loop, LoopForm.onward, mul_one]

/-! ### Patterns -/

/-- Building a pattern keeps the edges inside the automaton. -/
theorem Proper.build [DecidableEq α] {m : Nfa α} (h : m.Proper) {q : Nat} (inside : q < m.size)
    (p : Pattern) :
    (m.build q p).1.Proper ∧ (m.build q p).2 < (m.build q p).1.size := by
  have start : Behind m 0 m q :=
    ⟨Nat.zero_le q, inside,
      fun k _ e mem => ⟨h.label_proper k e mem, Nat.zero_le _, h.target_lt k e mem⟩,
      fun k below => absurd below (Nat.not_lt_zero k)⟩
  have built := start.build (fun k below => absurd below (Nat.not_lt_zero k)) p
  refine ⟨⟨Nat.zero_lt_of_lt built.inside, fun k e mem => ?_, fun k e mem => ?_⟩, built.inside⟩
  · exact (built.closed k (Nat.zero_le k) e mem).2.2
  · exact (built.closed k (Nat.zero_le k) e mem).1

/-- The range of a class entry holds the characters that the entry stands for. -/
theorem mem_toRange_iff {c : Char} {item : ClassItem} : c ∈ item.toRange ↔ c ∈ item.members := by
  cases item with
  | single d => exact CharRange.mem_only
  | range first last => exact CharRange.mem_between

/-- **Building a pattern builds its form.** -/
theorem built [DecidableEq α] {m : Nfa α} (h : m.Proper) {q : Nat} (inside : q < m.size)
    (p : Pattern) :
    Built m q p.form (m.build q p).1 (m.build q p).2 := by
  induction p generalizing m q with
  | done => exact .refl inside
  | char c rest ih =>
    obtain ⟨h₁, inside₁⟩ := h.build inside (.char c .done)
    have first : Built m q (.single {c}) (m.link q [.only c]) m.size :=
      .link h inside fun d => by simp [CharRange.mem_only]
    exact first.append inside (ih h₁ inside₁)
  | oneOf items rest ih =>
    obtain ⟨h₁, inside₁⟩ := h.build inside (.oneOf items .done)
    have first : Built m q (.single {c | ∃ item ∈ items, c ∈ item.members})
        (m.link q (items.map ClassItem.toRange)) m.size :=
      .link h inside fun d => by simp [mem_toRange_iff]
    exact first.append inside (ih h₁ inside₁)
  | loop body rest ihBody ihRest =>
    obtain ⟨h₁, inside₁⟩ := h.build inside (.loop body .done)
    exact ((ihBody h inside).fold inside).append inside (ihRest h₁ inside₁)

/-- A pattern built from the state behind the root, without other rules, and the state where it
ends. -/
def alone (p : Pattern) : Nfa Unit × Nat := (empty : Nfa Unit).grow.build 1 p

theorem proper_grow_empty : (empty : Nfa Unit).grow.Proper :=
  ⟨by simp, by simp [State.blank], by simp [State.blank]⟩

theorem built_alone (p : Pattern) :
    Built (empty : Nfa Unit).grow 1 p.form (alone p).1 (alone p).2 :=
  built proper_grow_empty (by simp) p

/-- The words that lead through a pattern, built alone, are those of its form. -/
theorem between_alone (p : Pattern) : (alone p).1.between 1 (alone p).2 = p.form.words := by
  have own : (empty : Nfa Unit).grow.between 1 1 = turns ∅ := by
    rw [turns_empty]
    ext word
    rw [mem_between, Language.mem_one]
    constructor
    · intro path
      cases path with
      | stay => rfl
      | step edge _ =>
        obtain ⟨e, mem, -⟩ := edge
        simp [State.blank] at mem
    · rintro rfl
      exact .stay 1
  calc (alone p).1.between 1 (alone p).2
      = (empty : Nfa Unit).grow.betweenVia 1 p.form.firstLoops 1 1 * p.form.onward :=
        (built_alone p).onward 1 (by simp)
    _ = turns p.form.firstLoops * p.form.onward := by
        rw [betweenVia_self own, own, turns_mul_turns_union, Set.empty_union]
    _ = p.form.words := p.form.words_eq_turns_mul.symm

/-- Behind the root, a pattern that is compiled alone has the states that have been built. -/
theorem state_compile_empty (p : Pattern) {k : Nat} (pos : 0 < k) :
    (empty.compile p ()).state k = ((alone p).1.addAccept (alone p).2 ()).state k :=
  state_compile pos p ()

theorem step_compile_empty (p : Pattern) {k r : Nat} {c : Char} (pos : 0 < k) :
    (empty.compile p ()).Step k c r ↔ (alone p).1.Step k c r := by
  rw [Step, Step, state_compile_empty p pos, state_addAccept]
  split <;> rfl

/-- And the paths behind the root are the same. -/
theorem reaches_compile_empty (p : Pattern) {x y : Nat} {word : List Char} (pos : 0 < x) :
    (empty.compile p ()).Reaches x word y ↔ (alone p).1.Reaches x word y := by
  have rooted : (empty.compile p ()).Rooted := rooted_empty.compile p ()
  constructor
  · intro path
    induction path with
    | stay => exact .stay _
    | step edge _ ih =>
      exact .step ((step_compile_empty p pos).1 edge) (ih (rooted.step_bounds edge).1)
  · intro path
    induction path with
    | stay => exact .stay _
    | step edge _ ih =>
      have edge' := (step_compile_empty p pos).2 edge
      exact .step edge' (ih (rooted.step_bounds edge').1)

/-- It accepts at its end only. -/
theorem mem_accepts_compile_empty (p : Pattern) {k : Nat} (pos : 0 < k) :
    () ∈ ((empty.compile p ()).state k).accepts ↔ k = (alone p).2 := by
  have nothing : ((alone p).1.state k).accepts = [] :=
    accepts_build_of_blank (by simp) p ((state_grow empty k).trans (state_empty k))
  rw [state_compile_empty p pos, state_addAccept]
  by_cases atEnd : k = (alone p).2
  · simp [atEnd, (built_alone p).inside]
  · simp [atEnd, nothing]

end Nfa

/-- **The words of a pattern.**  A pattern matches the words of its form but the empty one. -/
theorem Pattern.matches_iff {p : Pattern} {word : List Char} :
    p.Matches word ↔ word ≠ [] ∧ word ∈ p.form.words := by
  have rooted : (Nfa.empty.compile p ()).Rooted := Nfa.rooted_empty.compile p ()
  rw [← Nfa.between_alone, Nfa.mem_between]
  cases word with
  | nil => exact ⟨fun matched => absurd rfl matched.ne_nil, fun h => absurd rfl h.1⟩
  | cons c word =>
    rw [Pattern.Matches, Nfa.recognises_cons_compile Nfa.rooted_empty,
      or_iff_right (Nfa.not_recognises_empty (c :: word) ()), Nfa.size_empty]
    -- No path returns to the root, and behind the root both automata have the same edges.
    constructor
    · rintro ⟨q, path, accepted⟩
      have pos : 0 < q := rooted.pos_of_reaches Nat.one_pos path
      rw [(Nfa.mem_accepts_compile_empty p pos).1 accepted] at path
      exact ⟨List.cons_ne_nil c word, (Nfa.reaches_compile_empty p Nat.one_pos).1 path⟩
    · rintro ⟨-, path⟩
      have path' := (Nfa.reaches_compile_empty p Nat.one_pos).2 path
      have pos : 0 < (Nfa.alone p).2 := rooted.pos_of_reaches Nat.one_pos path'
      exact ⟨_, path', (Nfa.mem_accepts_compile_empty p pos).2 rfl⟩

end FrontEnd
