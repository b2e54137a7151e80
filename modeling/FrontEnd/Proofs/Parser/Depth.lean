import FrontEnd.Grammar.Arena
import FrontEnd.Proofs.Parser.Lookahead
import Mathlib.Data.Fintype.Prod

/-!
# Depth

Rules call one another, and a run enters them to a certain depth only.  The depth that is allowed
takes nothing away: a run that comes to an end at whatever depth comes to the same end there.

## Main Definitions

* `Rules.Counted` — no more rules can be entered than are counted
* `Rules.Ends` — entered to some depth, a rule comes to an end

## Main Results

* `Rules.Counted.carriesOver` — what rules do at any depth they do at the depth allowed
* `Rules.Counted.run_eq_ok_iff` — a run comes to an end exactly if it does so at some depth
* `Arena.counted` — the rules of an arena are counted

## Design Notes

**Saturation.**  Whether a rule comes to an end depends on where it starts, but not on the mark.  So
there are only finitely many questions to ask: one for each rule and position.  With every level of
depth the number of those that are answered grows, or else it never grows again: a level at which
nothing new comes to an end makes no difference to the next one.  Hence there are at most as many
levels as questions.
-/

namespace FrontEnd

variable {κ : Type} [DecidableEq κ] [TokenKind κ] {ρ : Type → Type}

/-- On a single stream, what comes to an end comes to the same end with any mark. -/
theorem Recorder.CarriesOver.with_mark {κ α : Type} [TokenKind κ] {s : TokenStream κ}
    {r r' : Recorder κ α} (h : r.CarriesOver s s r') {c c' : Cursor} {value : Option α}
    (inside : c.position < s.size) (ended : (r c).outcome = .ok (value, c')) (mark : Nat) :
    r' ⟨c.position, mark⟩ =
      ⟨.ok (value, ⟨c'.position, markAfter mark (r c).moves⟩), (r c).moves⟩ :=
  (h c inside).same value c' ended (.refl s _) mark

namespace Rules

/-- No more rules can be entered than are counted. -/
def Counted (rules : Rules κ ρ) : Prop :=
  ∃ enterable : List (Σ α : Type, ρ α), enterable.length ≤ rules.count ∧
    ∀ {α : Type} {reference : ρ α} {definition : Definition κ ρ α},
      rules.lookup reference = .ok definition → ⟨α, reference⟩ ∈ enterable

/-- Entered at position `i` to the given depth, a rule comes to an end. -/
def Ends (rules : Rules κ ρ) (s : TokenStream κ) (depth : Nat) {α : Type} (reference : ρ α)
    (i : Nat) : Prop :=
  ∃ result, (rules.recordCall s depth reference ⟨i, 0⟩).outcome = .ok result

variable {rules : Rules κ ρ} {s : TokenStream κ} {depth depth' i : Nat} {α : Type}
  {reference : ρ α}

/-! ### One level of depth -/

/-- A rule that comes to an end can be entered. -/
theorem Ends.exists_definition (h : rules.Ends s depth reference i) :
    ∃ definition, rules.lookup reference = .ok definition := by
  obtain ⟨result, ended⟩ := h
  cases depth with
  | zero => cases ended
  | succ depth =>
    rw [recordCall] at ended
    cases found : rules.lookup reference with
    | error e =>
      rw [found] at ended
      cases ended
    | ok definition => exact ⟨definition, rfl⟩

/-- A rule that comes to an end does so when it is entered deeper. -/
theorem Ends.mono (h : rules.Ends s depth reference i) (inside : i < s.size)
    (le : depth ≤ depth') : rules.Ends s depth' reference i := by
  obtain ⟨⟨value, c⟩, ended⟩ := h
  have same := (rules.carriesOver_recordCall s s le reference).with_mark inside ended 0
  exact ⟨_, congrArg Recorded.outcome same⟩

/-- If rules come to an end no more often at the larger depth, they do nothing else there. -/
theorem carriesOver_of_ends (le : depth ≤ depth')
    (ends : ∀ i < s.size, rules.Ends s depth' reference i → rules.Ends s depth reference i) :
    (rules.recordCall s depth' reference).CarriesOver s s
      (rules.recordCall s depth reference) := by
  intro c inside
  have deep := rules.carriesOver_recordCall s s (Nat.le_refl depth') reference
  refine ⟨(deep c inside).landed, fun value c' ended _ mark => ?_⟩
  -- The rule comes to an end with a mark of zero as well, so it does at the smaller depth.
  have fresh := deep.with_mark inside ended 0
  obtain ⟨⟨value₀, c₀⟩, ended₀⟩ := ends c.position inside ⟨_, congrArg Recorded.outcome fresh⟩
  have here {depth'' : Nat} (le : depth ≤ depth'') :=
    (rules.carriesOver_recordCall s s le reference).with_mark (c := ⟨c.position, 0⟩) inside
        ended₀ mark
  rw [here (Nat.le_refl depth), ← here le]
  exact deep.with_mark inside ended mark

/-- A level of depth at which nothing new comes to an end is followed by another one. -/
theorem ends_of_ends
    (ends : ∀ {α : Type} (reference : ρ α), ∀ i < s.size,
      rules.Ends s (depth + 1) reference i → rules.Ends s depth reference i)
    (inside : i < s.size) (h : rules.Ends s (depth + 2) reference i) :
    rules.Ends s (depth + 1) reference i := by
  obtain ⟨definition, found⟩ := h.exists_definition
  obtain ⟨⟨value, c⟩, ended⟩ := h
  have carries := (definition.parser.carriesOver_record
    (rules.backtracks_recordCall s (depth + 1)) (rules.backtracks_recordCall s depth)
    fun reference => carriesOver_of_ends (Nat.le_succ depth) (ends reference)).value
  rw [← recordCall_succ found, ← recordCall_succ found] at carries
  have same := carries.with_mark inside ended 0
  exact ⟨_, congrArg Recorded.outcome same⟩

/-! ### Counting -/

section Counting

variable (rules s) (enterable : List (Σ α : Type, ρ α))

open Classical in
/-- The listed rules, each with the positions from which it comes to an end. -/
noncomputable def endings (depth : Nat) : Finset (Fin enterable.length × Fin s.size) :=
  Finset.univ.filter fun x => rules.Ends s depth (enterable.get x.1).2 x.2

variable {rules s enterable}

theorem mem_endings {x : Fin enterable.length × Fin s.size} :
    x ∈ rules.endings s enterable depth ↔ rules.Ends s depth (enterable.get x.1).2 x.2 := by
  simp [endings]

theorem endings_mono : Monotone (rules.endings s enterable) := by
  intro depth depth' le x mem
  exact mem_endings.2 ((mem_endings.1 mem).mono x.2.2 le)

theorem card_endings_le (depth : Nat) :
    (rules.endings s enterable depth).card ≤ enterable.length * s.size := by
  refine Nat.le_trans (Finset.card_le_univ _) ?_
  rw [Fintype.card_prod, Fintype.card_fin, Fintype.card_fin]

variable (listed : ∀ {α : Type} {reference : ρ α} {definition : Definition κ ρ α},
  rules.lookup reference = .ok definition → ⟨α, reference⟩ ∈ enterable)

include listed in
/-- All rules that come to an end are counted. -/
theorem ends_of_endings_subset
    (sub : rules.endings s enterable depth' ⊆ rules.endings s enterable depth)
    (inside : i < s.size) (h : rules.Ends s depth' reference i) :
    rules.Ends s depth reference i := by
  obtain ⟨definition, found⟩ := h.exists_definition
  obtain ⟨n, same⟩ := List.mem_iff_get.1 (listed found)
  have mem : (n, ⟨i, inside⟩) ∈ rules.endings s enterable depth' := by
    rw [mem_endings, same]
    exact h
  have mem := mem_endings.1 (sub mem)
  rwa [same] at mem

include listed in
/-- Behind as many levels as there are rules and positions nothing new comes to an end. -/
theorem endings_eq (enough : enterable.length * s.size ≤ depth) :
    rules.endings s enterable (enterable.length * s.size) = rules.endings s enterable depth := by
  have stable (depth : Nat)
      (same : (rules.endings s enterable depth).card =
        (rules.endings s enterable (depth + 1)).card) :
      (rules.endings s enterable (depth + 1)).card =
        (rules.endings s enterable (depth + 2)).card := by
    have sub : rules.endings s enterable (depth + 1) ⊆ rules.endings s enterable depth :=
      (Finset.eq_of_subset_of_card_le (endings_mono (Nat.le_succ depth)) same.ge).ge
    refine Nat.le_antisymm (Finset.card_le_card (endings_mono (Nat.le_succ _))) ?_
    refine Finset.card_le_card fun x mem => mem_endings.2 ?_
    exact ends_of_ends (fun reference i inside => ends_of_endings_subset listed sub inside)
      x.2.2 (mem_endings.1 mem)
  have card := Nat.stabilises_of_monotone (f := fun depth => (rules.endings s enterable depth).card)
    (fun _ _ le => Finset.card_le_card (endings_mono le)) card_endings_le stable enough
  exact Finset.eq_of_subset_of_card_le (endings_mono enough) (Nat.le_of_eq card)

end Counting

/-- **Depth to spare.**  Whatever a rule does at any depth it does at the depth of all rules and
positions. -/
theorem Counted.carriesOver (h : rules.Counted) (enough : rules.count * s.size ≤ depth)
    (depth' : Nat) {α : Type} (reference : ρ α) :
    (rules.recordCall s depth' reference).CarriesOver s s
      (rules.recordCall s depth reference) := by
  obtain ⟨enterable, few, listed⟩ := h
  rcases Nat.le_total depth' depth with le | le
  · exact rules.carriesOver_recordCall s s le reference
  · refine carriesOver_of_ends le fun i inside ends => ?_
    have enough : enterable.length * s.size ≤ depth :=
      Nat.le_trans (Nat.mul_le_mul_right _ few) enough
    have same : rules.endings s enterable depth' = rules.endings s enterable depth :=
      (endings_eq listed (Nat.le_trans enough le)).symm.trans (endings_eq listed enough)
    exact ends_of_endings_subset listed (Finset.subset_of_eq same) inside ends

/-- **The depth of a run takes nothing away.**  An expression is run to an end exactly if there is
some depth at which it comes to that end. -/
theorem Counted.run_eq_ok_iff (h : rules.Counted) {items : List Type} (p : Parser κ ρ items α)
    {c : Cursor} (inside : c.position < s.size) {result : Option α × Cursor} :
    rules.run s p c = .ok result ↔
      ∃ depth, (p.meaning s (rules.call s depth)).value c = .ok result := by
  constructor
  · intro run
    exact ⟨_, run⟩
  · rintro ⟨depth, run⟩
    have enough : rules.count * s.size ≤ rules.depth s :=
      Nat.mul_le_mul (Nat.le_succ _) (Nat.le_succ _)
    exact (p.meaning_of_carriesOver (h.carriesOver enough depth) inside (.refl s _)).1 _ run

end Rules

omit [DecidableEq κ] [TokenKind κ] in
/-- The rules of an arena are counted: a handle can only be entered if it is the number of a
slot. -/
theorem Arena.counted {ν : Type} (a : Arena κ ν) : a.rules.Counted := by
  refine ⟨(List.range a.slots.size).map fun n => ⟨ν, .mk n⟩, ?_, ?_⟩
  · rw [List.length_map, List.length_range]
    exact Nat.le_refl _
  · rintro _ ⟨n⟩ definition found
    refine List.mem_map.2 ⟨n, List.mem_range.2 (Nat.lt_of_not_le fun beyond => ?_), rfl⟩
    have none : a.slot? n = none := by rw [Arena.slot?, Array.getElem?_eq_none beyond]; rfl
    change a.lookup (.mk n) = .ok definition at found
    rw [Arena.lookup, none] at found
    cases found

end FrontEnd
