import FrontEnd.Proofs.Automaton.Determinization
import FrontEnd.Proofs.Automaton.Looping
import FrontEnd.Proofs.Pattern.Notation

/-!
# Automata without dead branches

An automaton that has been built from patterns never follows an edge in vain: wherever an edge
leads, some word leads on from there to a state that accepts.

## Main Definitions

* `Nfa.LeadsTo`, `Nfa.Unused` — some word leads from one state to another one, and a state to which
  no edge leads
* `Nfa.Directed` — what has been built leads to the end of a pattern
* `Nfa.Trim` — no edge is followed in vain

## Main Results

* `Nfa.directed_build` — building a pattern leads to its end
* `Nfa.Trim.compile` — adding a pattern opens no dead branch
* `Nfa.Trim.reached_nonempty_iff` — the words that can be followed are the fronts of those that
  are recognised

## Design Notes

**Folded states are out of use.**  The number of a folded state stays in the table, and nothing
leads on from there.  But nothing leads there either, and later states never lead to an older one
except to the state that is being built on.

**Classes have members.**  A class without members would let a pattern go on where no character
does.  No such class can be written: a pattern that has been read is well-formed.
-/

namespace FrontEnd

/-- A class that can be read has a member. -/
theorem ClassItem.Readable.exists_mem {items : List ClassItem} (h : Readable items) :
    ∃ c, ∃ item ∈ items, c ∈ item.members := by
  obtain ⟨item, mem⟩ := List.exists_mem_of_ne_nil items h.ne_nil
  cases item with
  | single c => exact ⟨c, .single c, mem, rfl⟩
  | range first last =>
    have upright : first ≤ last := (h.entries _ mem).2.2
    exact ⟨first, .range first last, mem, Char.le_refl first, upright⟩

namespace Nfa

variable {α : Type} {m : Nfa α} {q q' x y z : Nat} {p : Pattern}

/-- Some word leads from one state to another one. -/
def LeadsTo (m : Nfa α) (x y : Nat) : Prop := ∃ word, m.Reaches x word y

/-- No edge takes a character to the state. -/
def Unused (m : Nfa α) (k : Nat) : Prop := ∀ x c, ¬ m.Step x c k

theorem LeadsTo.refl (m : Nfa α) (x : Nat) : m.LeadsTo x x := ⟨[], .stay x⟩

theorem LeadsTo.trans (first : m.LeadsTo x y) (second : m.LeadsTo y z) : m.LeadsTo x z := by
  obtain ⟨front, first⟩ := first
  obtain ⟨back, second⟩ := second
  exact ⟨front ++ back, first.append second⟩

theorem LeadsTo.of_step {c : Char} (edge : m.Step x c y) : m.LeadsTo x y :=
  ⟨[c], .step edge (.stay y)⟩

/-! ### Building -/

/-- What has been built from `q` on leads to `q'`: the start does, and so does every state from `n`
on that is in use. -/
structure Directed (n : Nat) (m : Nfa α) (q q' : Nat) : Prop where
  start : m.LeadsTo q q'
  onward : ∀ k, n ≤ k → m.LeadsTo k q' ∨ m.Unused k

/-- Nothing has been built yet. -/
theorem Directed.refl (h : m.Proper) (q : Nat) : Directed m.size m q q := by
  refine ⟨.refl m q, fun k le => .inr ?_⟩
  rintro x c ⟨e, mem, -, rfl⟩
  exact absurd (h.target_lt x e mem) (Nat.not_lt.2 le)

section Building

variable [DecidableEq α]

/-- Building keeps the paths between older states. -/
theorem LeadsTo.build (h : m.Proper) (inside : q < m.size) (p : Pattern) (hx : x < m.size)
    (hy : y < m.size) (leads : m.LeadsTo x y) : (m.build q p).1.LeadsTo x y := by
  obtain ⟨word, path⟩ := leads
  exact ⟨word, ((built h inside p).between x hx y hy).ge (.path path)⟩

/-- Folding keeps what leads to the folded state, which is now the state it was folded into. -/
theorem LeadsTo.fold {old new : Nat} (ne : old ≠ new) (inside : new < m.size) (hx : x ≠ old)
    (leads : m.LeadsTo x old) : (m.fold old new).LeadsTo x new := by
  obtain ⟨word, path⟩ := leads
  have folded := (reaches_fold_iff ne inside).2 (.path path)
  rw [merge_of_ne hx, merge_of_joint (.inl rfl)] at folded
  exact ⟨word, folded⟩

/-- Folding uses no state but the one that is folded into. -/
theorem Unused.fold {old new k : Nat} (inside : new < m.size) (unused : m.Unused k)
    (notNew : k ≠ new) : (m.fold old new).Unused k := by
  by_cases ne : old = new
  · rwa [Nfa.fold, if_pos ne]
  · intro x c edge
    obtain ⟨x', z, edge', -, found⟩ := (step_fold_iff ne inside).1 edge
    rcases merge_eq_iff.1 found with ⟨rfl, -⟩ | ⟨-, isNew⟩
    · exact unused x' c edge'
    · exact notNew isNew.symm

/-- A state that has been folded into another one is out of use. -/
theorem unused_fold {old new : Nat} (ne : old ≠ new) (inside : new < m.size) :
    (m.fold old new).Unused old := by
  intro x c edge
  obtain ⟨-, z, -, -, found⟩ := (step_fold_iff ne inside).1 edge
  rcases merge_eq_iff.1 found with ⟨isOld, notOld⟩ | ⟨-, isNew⟩
  · exact notOld isOld
  · exact ne isNew.symm

/-- An older state that is out of use stays so, unless the pattern is built from it. -/
theorem Unused.build {k : Nat} (unused : m.Unused k) (lt : k < m.size) (inside : q < m.size)
    (ne : k ≠ q) (p : Pattern) : (m.build q p).1.Unused k := by
  let Kept (m' : Nfa α) (r : Nat) : Prop :=
    k < m'.size ∧ r < m'.size ∧ k ≠ r ∧ m'.Unused k
  have link (m' : Nfa α) (r : Nat) (labels : List CharRange) (h : Kept m' r) :
      Kept (m'.link r labels) m'.size := by
    obtain ⟨lt, inside, -, unused⟩ := h
    refine ⟨by rw [size_link]; omega, by simp, Nat.ne_of_lt lt, fun x c edge => ?_⟩
    rcases (step_link_iff inside).1 edge with older | ⟨-, isNew, -⟩
    · exact unused x c older
    · exact Nat.ne_of_lt lt isNew
  have fold (m' : Nfa α) (r : Nat) (inner : Nfa α) (last : Nat) (h : Kept m' r)
      (hInner : Kept inner last) (grown : m'.size ≤ inner.size) : Kept (inner.fold last r) r := by
    obtain ⟨-, inside, ne, -⟩ := h
    obtain ⟨lt, -, -, unused⟩ := hInner
    have inside' : r < inner.size := Nat.lt_of_lt_of_le inside grown
    exact ⟨by rwa [size_fold], by rwa [size_fold], ne, unused.fold inside' ne⟩
  have start : Kept m q := ⟨lt, inside, ne, unused⟩
  exact (build_keeps (fun m' r labels _ h => link m' r labels h) fold p start).2.2.2

/-- A character that can be taken leads on to what is built behind it. -/
theorem Directed.link {labels : List CharRange} (inside : q < m.size)
    (h : (m.link q labels).Proper) (taken : ∃ c, ∃ label ∈ labels, c ∈ label)
    (rest : Directed (m.size + 1) ((m.link q labels).build m.size p).1 m.size q') :
    Directed m.size ((m.link q labels).build m.size p).1 q q' := by
  obtain ⟨c, label⟩ := taken
  have step : (m.link q labels).Step q c m.size := (step_link_iff inside).2 (.inr ⟨rfl, rfl, label⟩)
  have across : ((m.link q labels).build m.size p).1.LeadsTo q m.size :=
    (LeadsTo.of_step step).build h (by simp) p (by rw [size_link]; omega) (by simp)
  refine ⟨across.trans rest.start, fun k le => ?_⟩
  rcases Nat.eq_or_lt_of_le le with rfl | less
  · exact .inl rest.start
  · exact rest.onward k less

/-- A group leads back to its start, and on from there to what is built behind it. -/
theorem Directed.loop {inner : Nfa α} {last : Nat} (inside : q < m.size)
    (grown : m.size ≤ inner.size) (h : (inner.fold last q).Proper)
    (body : Directed m.size inner q last)
    (rest : Directed inner.size ((inner.fold last q).build q p).1 q q') :
    Directed m.size ((inner.fold last q).build q p).1 q q' := by
  have inside' : q < inner.size := Nat.lt_of_lt_of_le inside grown
  refine ⟨rest.start, fun k le => ?_⟩
  rcases Nat.lt_or_ge k inner.size with lt | newer
  · have notStart : k ≠ q := by omega
    have folded : (inner.fold last q).LeadsTo k q ∨ (inner.fold last q).Unused k := by
      by_cases ne : last = q
      · rw [Nfa.fold, if_pos ne, ← ne]
        exact body.onward k le
      by_cases isLast : k = last
      · rw [isLast]
        exact .inr (unused_fold ne inside')
      · rcases body.onward k le with leads | unused
        · exact .inl (leads.fold ne inside' isLast)
        · exact .inr (unused.fold inside' notStart)
    rw [← size_fold inner last q] at inside' lt
    rcases folded with leads | unused
    · exact .inl ((leads.build h inside' p lt inside').trans rest.start)
    · exact .inr (unused.build lt inside' notStart p)
  · exact rest.onward k newer

/-- **Building a pattern leads to its end**, from its start and from every new state in use. -/
theorem directed_build (h : m.Proper) (inside : q < m.size) (wellFormed : p.WellFormed) :
    Directed m.size (m.build q p).1 q (m.build q p).2 := by
  induction p generalizing m q with
  | done => exact .refl h q
  | char c rest ih =>
    obtain ⟨h₁, inside₁⟩ := h.build inside (.char c .done)
    have later := ih h₁ inside₁ wellFormed.2
    have taken : ∃ d, ∃ label ∈ [CharRange.only c], d ∈ label := by
      simp [CharRange.mem_only]
    refine .link inside h₁ taken ?_
    rwa [← size_link m q [.only c]]
  | oneOf items rest ih =>
    obtain ⟨h₁, inside₁⟩ := h.build inside (.oneOf items .done)
    have later := ih h₁ inside₁ wellFormed.2
    have taken : ∃ c, ∃ label ∈ items.map ClassItem.toRange, c ∈ label := by
      obtain ⟨c, item, mem, member⟩ := wellFormed.1.exists_mem
      exact ⟨c, item.toRange, List.mem_map_of_mem mem, mem_toRange_iff.2 member⟩
    refine .link inside h₁ taken ?_
    rwa [← size_link m q (items.map ClassItem.toRange)]
  | loop body rest ihBody ihRest =>
    obtain ⟨h₁, inside₁⟩ := h.build inside (.loop body .done)
    have later := ihRest h₁ inside₁ wellFormed.2
    refine .loop inside (size_le_size_build body m q) h₁ (ihBody h inside wellFormed.1) ?_
    rwa [← size_fold (m.build q body).1 (m.build q body).2 q]

end Building

/-! ### Adding a pattern -/

/-- Wherever an edge leads, some word leads on to a state that accepts. -/
def Trim (m : Nfa α) : Prop := ∀ k c r, m.Step k c r → ∃ word a, m.RecognisesFrom r word a

theorem trim_empty : (empty : Nfa α).Trim := by
  rintro k c r ⟨e, mem, -⟩
  simp [State.blank] at mem

theorem Proper.grow (h : m.Proper) : m.grow.Proper := by
  refine ⟨by simp, fun k e mem => ?_, fun k e mem => ?_⟩
  · rw [state_grow] at mem
    rw [size_grow]
    exact Nat.lt_succ_of_lt (h.target_lt k e mem)
  · rw [state_grow] at mem
    exact h.label_proper k e mem

section Adding

variable [DecidableEq α]

/-- Behind the root, adding a pattern takes the steps of what has been built. -/
theorem step_compile {k r : Nat} {c : Char} (pos : 0 < k) (p : Pattern) (accept : α) :
    (m.compile p accept).Step k c r ↔ (m.grow.build m.size p).1.Step k c r := by
  rw [Step, Step, state_compile pos, state_addAccept]
  split <;> rfl

/-- What leads to the end of the added pattern leads to a state that accepts. -/
theorem recognisesFrom_compile_of_leadsTo (h : m.Rooted) {k : Nat} (le : m.size ≤ k)
    (p : Pattern) (accept : α)
    (leads : (m.grow.build m.size p).1.LeadsTo k (m.grow.build m.size p).2) :
    ∃ word, (m.compile p accept).RecognisesFrom k word accept := by
  have behind := h.behind p
  have pos : 0 < m.size := h.size_pos
  obtain ⟨word, path⟩ := leads
  -- The states of the new rule lead to one another only, so the root is never met.
  have step {x x' : Nat} {c : Char} {r : Nat} (same : x = x' ∧ m.size ≤ x)
      (edge : (m.grow.build m.size p).1.Step x c r) :
      ∃ r', (m.compile p accept).Step x' c r' ∧ r = r' ∧ m.size ≤ r := by
    obtain ⟨rfl, le⟩ := same
    refine ⟨r, (step_compile (by omega) p accept).2 edge, rfl, ?_⟩
    obtain ⟨e, mem, -, rfl⟩ := edge
    exact (behind.closed x le e mem).2.1
  obtain ⟨last, path', rfl, -⟩ :=
    path.simulate (R := fun x x' => x = x' ∧ m.size ≤ x) step ⟨rfl, le⟩
  refine ⟨word, _, path', ?_⟩
  have above := behind.above
  rw [state_compile (by omega), state_addAccept, if_pos ⟨rfl, behind.inside⟩]
  exact List.mem_append_right _ (List.mem_singleton_self accept)

/-- **Adding a pattern opens no dead branch.** -/
theorem Trim.compile (trim : m.Trim) (h : m.Rooted) (wellFormed : p.WellFormed) (accept : α) :
    (m.compile p accept).Trim := by
  have pos : 0 < m.size := h.size_pos
  have directed : Directed m.grow.size _ m.size _ :=
    directed_build h.toProper.grow (by simp) wellFormed
  have older {k : Nat} {c : Char} {r : Nat} (edge : m.Step k c r) :
      ∃ word a, (m.compile p accept).RecognisesFrom r word a := by
    obtain ⟨word, a, recognised⟩ := trim k c r edge
    obtain ⟨pos, lt⟩ := h.step_bounds edge
    exact ⟨word, a, (recognisesFrom_compile_of_lt h pos lt p accept).2 recognised⟩
  have newer {k : Nat} {c : Char} {r : Nat} (le : m.size ≤ k)
      (edge : (m.compile p accept).Step k c r) :
      ∃ word a, (m.compile p accept).RecognisesFrom r word a := by
    have used := (step_compile (by omega) p accept).1 edge
    have above : m.size ≤ r := by
      obtain ⟨e, mem, -, rfl⟩ := edge
      exact (closed_compile h p accept le mem).2.1
    have leads : (m.grow.build m.size p).1.LeadsTo r (m.grow.build m.size p).2 := by
      rcases Nat.eq_or_lt_of_le above with rfl | less
      · exact directed.start
      · rw [size_grow] at directed
        exact (directed.onward r less).resolve_right fun unused => unused k c used
    obtain ⟨word, recognised⟩ := recognisesFrom_compile_of_leadsTo h above p accept leads
    exact ⟨word, accept, recognised⟩
  intro k c r edge
  rcases Nat.lt_or_ge k m.size with lt | le
  · rcases Nat.eq_zero_or_pos k with rfl | kPos
    · -- The edges of the root are older ones, and those of the fresh state.
      obtain ⟨e, mem, label⟩ := edge
      change e ∈ ((m.compile p accept).state root).edges at mem
      rw [state_compile_root h] at mem
      rcases List.mem_append.1 mem with own | copied
      · exact older (k := root) ⟨e, own, label⟩
      · exact newer le_rfl ⟨e, copied, label⟩
    · rw [Step, state_compile_of_lt h kPos lt] at edge
      exact older edge
  · exact newer le edge

end Adding

/-! ### Words that can be followed -/

/-- The last character of a word is taken by an edge. -/
theorem Reaches.exists_step {word : List Char} (h : m.Reaches x word y) (nonempty : word ≠ []) :
    ∃ k c, m.Step k c y := by
  induction h with
  | stay => exact absurd rfl nonempty
  | @step k _ _ c word edge rest ih =>
    cases rest with
    | stay => exact ⟨k, c, edge⟩
    | step _ _ => exact ih (List.cons_ne_nil _ _)

/-- **The words that can be followed** are the fronts of the words that are recognised. -/
theorem Trim.reached_nonempty_iff (trim : m.Trim) {word : List Char} (nonempty : word ≠ []) :
    (m.reached word).Nonempty ↔ ∃ more a, m.Recognises (word ++ more) a := by
  constructor
  · rintro ⟨q, path⟩
    obtain ⟨k, c, edge⟩ := Reaches.exists_step path nonempty
    obtain ⟨more, a, q', onward, accepted⟩ := trim k c q edge
    exact ⟨more, a, q', Reaches.append path onward, accepted⟩
  · rintro ⟨more, a, q, path, -⟩
    have mem : q ∈ m.after [root] (word ++ more) :=
      mem_after.2 ⟨root, List.mem_singleton_self _, path⟩
    rw [after_append] at mem
    obtain ⟨k, reached, -⟩ := mem_after.1 mem
    exact ⟨k, mem_reached.2 reached⟩

end Nfa

end FrontEnd
