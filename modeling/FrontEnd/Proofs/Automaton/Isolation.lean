import FrontEnd.Proofs.Automaton.Detours
import Mathlib.Data.List.Basic

/-!
# Rules in a shared automaton

All rules of a scanner share one automaton, and folding a group redirects edges throughout it.  This
module shows that a rule is nevertheless isolated: compiling a pattern adds the words of that
pattern, taken alone, and changes nothing about the words of other rules.

## Main Definitions

* `Pattern.Matches` — the words of a pattern, compiled alone
* `Nfa.Rooted` — every edge stays inside the automaton and none returns to the root
* `Nfa.Behind` — building keeps to the states from a number on
* `Nfa.Relocated` — one automaton contains the states of another one, shifted

## Main Results

* `Nfa.end_build`, `Nfa.accepts_build_of_blank` — building ends at the start or in a new state, and
  the states that it creates accept nothing
* `Nfa.recognises_compile` — what a pattern adds to an automaton

## Design Notes

**Building is a matter of two operations.**  A pattern is built by creating states and by folding
states; whatever both operations keep is kept by the whole construction (`build_keeps`).

**A fresh start makes the difference.**  Folding turns edges throughout the table, but the folded
state was created by the very same rule, so no older state has an edge to it.

**Only edges change hands.**  A folded state also hands over what it accepts, but that is nothing: a
rule begins to accept once it has been built.
-/

namespace FrontEnd

/-- The same edge between states whose numbers are larger by `d`. -/
def Edge.shift (d : Nat) (e : Edge) : Edge := ⟨e.label, e.target + d⟩

namespace Nfa

variable {α β : Type}

/-- The edges stay inside the automaton and never return to the root, which accepts nothing. -/
structure Rooted (m : Nfa α) : Prop extends m.Proper where
  accepts_root : (m.state root).accepts = []
  target_pos : ∀ k, ∀ e ∈ (m.state k).edges, 0 < e.target

/-- Part of a pattern has been built from a state of `m₀` on and ends in `q`: the states from `low`
on lead to one another only, and those in front of `low` are as they were. -/
structure Behind (m₀ : Nfa α) (low : Nat) (m : Nfa α) (q : Nat) : Prop where
  above : low ≤ q
  inside : q < m.size
  closed : ∀ k, low ≤ k → ∀ e ∈ (m.state k).edges,
    e.label.Proper ∧ low ≤ e.target ∧ e.target < m.size
  older : ∀ k, k < low → m.state k = m₀.state k

theorem rooted_empty : (empty : Nfa α).Rooted :=
  ⟨⟨by simp, by simp [State.blank], by simp [State.blank]⟩, by simp [State.blank],
    by simp [State.blank]⟩

/-! ### What building keeps -/

theorem mem_edges_link {m : Nfa α} {q k : Nat} {labels : List CharRange} {e : Edge}
    (h : q < m.size) (mem : e ∈ ((m.link q labels).state k).edges) :
    e ∈ (m.state k).edges ∨ k = q ∧ e.label ∈ labels ∧ e.target = m.size := by
  rw [state_link h] at mem
  split at mem
  · next same =>
    rcases List.mem_append.1 mem with old | new
    · exact .inl old
    · obtain ⟨label, hlabel, rfl⟩ := List.mem_map.1 new
      exact .inr ⟨same, hlabel, rfl⟩
  · exact .inl mem

section Building

variable [DecidableEq α]

/-- Building a pattern only creates states. -/
theorem size_le_size_build (p : Pattern) (m : Nfa α) (q : Nat) : m.size ≤ (m.build q p).1.size := by
  induction p generalizing m q with
  | done => exact Nat.le_refl _
  | char c rest ih =>
    have step := ih (m.link q [.only c]) m.size
    rw [size_link] at step
    exact Nat.le_of_succ_le step
  | oneOf items rest ih =>
    have step := ih (m.link q (items.map ClassItem.toRange)) m.size
    rw [size_link] at step
    exact Nat.le_of_succ_le step
  | loop body rest ihBody ihRest =>
    have inner := ihBody m q
    have outer := ihRest ((m.build q body).1.fold (m.build q body).2 q) q
    rw [size_fold] at outer
    exact Nat.le_trans inner outer

/-- Whatever creating a state and folding a state keep is kept by building a pattern. -/
theorem build_keeps {P : Nfa α → Nat → Prop}
    (link : ∀ m q labels, (∀ r ∈ labels, CharRange.Proper r) → P m q →
      P (m.link q labels) m.size)
    (fold : ∀ m q inner last, P m q → P inner last → m.size ≤ inner.size →
      P (inner.fold last q) q)
    (p : Pattern) {m : Nfa α} {q : Nat} (h : P m q) :
    P (m.build q p).1 (m.build q p).2 := by
  induction p generalizing m q with
  | done => exact h
  | char c rest ih =>
    refine ih (link m q _ ?_ h)
    simpa using CharRange.proper_only c
  | oneOf items rest ih =>
    refine ih (link m q _ ?_ h)
    intro r mem
    obtain ⟨item, -, rfl⟩ := List.mem_map.1 mem
    exact item.proper_toRange
  | loop body rest ihBody ihRest =>
    exact ihRest (fold m q _ _ h (ihBody h) (size_le_size_build body m q))

/-- An edge after folding is a turned edge from before, of the same state or of the folded one. -/
theorem mem_edges_fold {m : Nfa α} {old new k : Nat} {e : Edge} (h : new < m.size)
    (mem : e ∈ ((m.fold old new).state k).edges) :
    ∃ e' ∈ (m.state k).edges ++ (if k = new then (m.state old).edges else []),
      e.label = e'.label ∧ (e.target = e'.target ∨ e.target = new) := by
  by_cases ne : old = new
  · rw [fold, if_pos ne] at mem
    exact ⟨e, List.mem_append_left _ mem, rfl, .inl rfl⟩
  · obtain ⟨x, e', mem', found, rfl⟩ := (mem_edges_fold_iff ne h).1 mem
    refine ⟨e', ?_, label_retarget old new e', ?_⟩
    · rcases merge_eq_iff.1 found with ⟨rfl, -⟩ | ⟨rfl, rfl⟩
      · exact List.mem_append_left _ mem'
      · exact List.mem_append_right _ (by rwa [if_pos rfl])
    · rw [target_retarget, merge]
      split
      · exact .inr rfl
      · exact .inl rfl

/-- Folding does not touch a state that is neither folded nor folded into, and has no edge to the
folded state. -/
theorem state_fold_of_ne {m : Nfa α} {old new k : Nat} (h : new < m.size) (notOld : k ≠ old)
    (notNew : k ≠ new) (away : ∀ e ∈ (m.state k).edges, e.target ≠ old) :
    (m.fold old new).state k = m.state k := by
  by_cases ne : old = new
  · rw [fold, if_pos ne]
  · have same : (m.state k).edges.map (retarget old new) = (m.state k).edges := by
      have unturned : ∀ e ∈ (m.state k).edges, retarget old new e = id e :=
        fun e mem => if_neg (away e mem)
      rw [List.map_congr_left unturned, List.map_id]
    rw [state_fold ne h, if_neg notOld, if_neg notNew, same]

/-- A pattern that is built from a state `low` or behind it stays there, and changes no state in
front of it if none of these has an edge to the states from `low` on. -/
theorem Behind.build {m₀ : Nfa α} {low : Nat}
    (separate : ∀ k, k < low → ∀ e ∈ (m₀.state k).edges, e.target < low)
    (p : Pattern) {m : Nfa α} {q : Nat} (h : Behind m₀ low m q) :
    Behind m₀ low (m.build q p).1 (m.build q p).2 := by
  refine build_keeps ?_ ?_ p h
  · intro m q labels proper h
    have inside := h.inside
    refine ⟨by have := h.above; omega, by simp, ?_, ?_⟩
    · intro k low_le e mem
      rw [size_link]
      rcases mem_edges_link inside mem with old | ⟨-, label, target⟩
      · obtain ⟨label, above, below⟩ := h.closed k low_le e old
        exact ⟨label, above, Nat.lt_succ_of_lt below⟩
      · have := h.above
        exact ⟨proper _ label, by omega, by omega⟩
    · intro k below
      have other : k ≠ q := by have := h.above; omega
      rw [state_link inside, if_neg other, h.older k below]
  · intro m q inner last h hInner grown
    have inside : q < inner.size := Nat.lt_of_lt_of_le h.inside grown
    refine ⟨h.above, by rwa [size_fold], ?_, ?_⟩
    · intro k low_le e mem
      rw [size_fold]
      obtain ⟨e', mem', label, target⟩ := mem_edges_fold inside mem
      have kept : e'.label.Proper ∧ low ≤ e'.target ∧ e'.target < inner.size := by
        rcases List.mem_append.1 mem' with own | moved
        · exact hInner.closed k low_le e' own
        · split at moved
          · exact hInner.closed last hInner.above e' moved
          · simp at moved
      have := h.above
      exact ⟨label ▸ kept.1, by omega, by omega⟩
    · intro k below
      rw [← hInner.older k below]
      refine state_fold_of_ne inside ?_ ?_ ?_
      · have := hInner.above; omega
      · have := h.above; omega
      · -- No older state has an edge to the folded state, which is one of the new ones.
        intro e mem
        rw [hInner.older k below] at mem
        have := separate k below e mem
        have := hInner.above
        omega

/-- Building a pattern ends where it started or in a new state. -/
theorem end_build {m : Nfa α} {q : Nat} (inside : q < m.size) (p : Pattern) :
    (m.build q p).2 < (m.build q p).1.size ∧
      ((m.build q p).2 = q ∨ m.size ≤ (m.build q p).2) := by
  let Near (m' : Nfa α) (q' : Nat) : Prop :=
    m.size ≤ m'.size ∧ q' < m'.size ∧ (q' = q ∨ m.size ≤ q')
  have link (m' : Nfa α) (q' : Nat) (labels : List CharRange) (h : Near m' q') :
      Near (m'.link q' labels) m'.size :=
    ⟨by rw [size_link]; exact Nat.le_succ_of_le h.1, by simp, .inr h.1⟩
  have fold (m' : Nfa α) (q' : Nat) (inner : Nfa α) (last : Nat) (h : Near m' q')
      (_ : Near inner last) (grown : m'.size ≤ inner.size) : Near (inner.fold last q') q' := by
    refine ⟨?_, ?_, h.2.2⟩
    · rw [size_fold]
      exact Nat.le_trans h.1 grown
    · rw [size_fold]
      exact Nat.lt_of_lt_of_le h.2.1 grown
  have start : Near m q := ⟨Nat.le_refl _, inside, .inl rfl⟩
  exact (build_keeps (fun m' q' labels _ h => link m' q' labels h) fold p start).2

/-- Building a pattern leaves what states accept as it was: a folded state has been created for the
pattern, so that it has nothing to hand over. -/
theorem accepts_build {m : Nfa α} {q : Nat} (inside : q < m.size) (p : Pattern) (k : Nat) :
    ((m.build q p).1.state k).accepts = (m.state k).accepts := by
  induction p generalizing m q k with
  | done => rfl
  | char c rest ih => rw [build, ih (by simp), accepts_link inside]
  | oneOf items rest ih => rw [build, ih (by simp), accepts_link inside]
  | loop body rest ihBody ihRest =>
    have inside' : q < (m.build q body).1.size :=
      Nat.lt_of_lt_of_le inside (size_le_size_build body m q)
    have folded : (((m.build q body).1.fold (m.build q body).2 q).state k).accepts =
        (m.state k).accepts := by
      rcases (end_build inside body).2 with same | created
      · rw [same, fold, if_pos rfl, ihBody inside]
      · have nothing : ((m.build q body).1.state (m.build q body).2).accepts = [] := by
          rw [ihBody inside, state_of_size_le created]
          rfl
        rw [accepts_fold inside' nothing, ihBody inside]
    show ((((m.build q body).1.fold (m.build q body).2 q).build q rest).1.state k).accepts = _
    rw [ihRest (by rwa [size_fold]), folded]

/-- **A state that is created while a pattern is built accepts nothing**: its number was not in use,
or belonged to the blank state that a rule starts from. -/
theorem accepts_build_of_blank {m : Nfa α} {q k : Nat} (inside : q < m.size) (p : Pattern)
    (blank : m.state k = .blank) : ((m.build q p).1.state k).accepts = [] := by
  rw [accepts_build inside, blank]
  rfl

end Building

/-! ### Adding a pattern -/

section Adding

variable [DecidableEq α]

/-- The automaton after a pattern has been built from a fresh state. -/
theorem Rooted.behind {m : Nfa α} (h : m.Rooted) (p : Pattern) :
    Behind m m.size (m.grow.build m.size p).1 (m.grow.build m.size p).2 := by
  have start : Behind m m.size m.grow m.size := by
    refine ⟨Nat.le_refl _, by simp, ?_, fun k _ => state_grow m k⟩
    intro k le e mem
    rw [state_grow, state_of_size_le le] at mem
    simp [State.blank] at mem
  exact start.build (fun k _ e mem => h.target_lt k e mem) p

theorem compile_eq (m : Nfa α) (p : Pattern) (accept : α) :
    m.compile p accept =
      let built := m.grow.build m.size p
      let accepting := built.1.addAccept built.2 accept
      accepting.addEdges root (accepting.state m.size).edges := rfl

@[simp] theorem size_compile (m : Nfa α) (p : Pattern) (accept : α) :
    (m.compile p accept).size = (m.grow.build m.size p).1.size := by
  simp [compile_eq]

/-- Behind the root, adding a pattern builds it and accepts at its end. -/
theorem state_compile {m : Nfa α} {k : Nat} (h : 0 < k) (p : Pattern) (accept : α) :
    (m.compile p accept).state k =
      ((m.grow.build m.size p).1.addAccept (m.grow.build m.size p).2 accept).state k := by
  rw [compile_eq, state_addEdges, if_neg]
  simp [root, Nat.ne_of_gt h]

/-- Adding a pattern changes no state of another rule. -/
theorem state_compile_of_lt {m : Nfa α} (h : m.Rooted) {k : Nat} (pos : 0 < k) (lt : k < m.size)
    (p : Pattern) (accept : α) : (m.compile p accept).state k = m.state k := by
  have behind := h.behind p
  rw [state_compile pos, state_addAccept, if_neg, behind.older k lt]
  have := behind.above
  omega

/-- The root gains the edges of the fresh state. -/
theorem state_compile_root {m : Nfa α} (h : m.Rooted) (p : Pattern) (accept : α) :
    (m.compile p accept).state root =
      { m.state root with
        edges := (m.state root).edges ++ ((m.compile p accept).state m.size).edges } := by
  have behind := h.behind p
  have pos := h.size_pos
  have inside := behind.inside
  rw [state_compile pos, compile_eq, state_addEdges, if_pos]
  · rw [state_addAccept, if_neg, behind.older root pos]
    have := behind.above
    simp only [root] at *
    omega
  · simp only [root, size_addAccept, true_and]
    omega

/-- The states of a rule lead to one another only. -/
theorem closed_compile {m : Nfa α} (h : m.Rooted) (p : Pattern) (accept : α) {k : Nat}
    (le : m.size ≤ k) {e : Edge} (mem : e ∈ ((m.compile p accept).state k).edges) :
    e.label.Proper ∧ m.size ≤ e.target ∧ e.target < (m.compile p accept).size := by
  have pos := h.size_pos
  rw [state_compile (by omega), state_addAccept] at mem
  rw [size_compile]
  refine (h.behind p).closed k le e ?_
  split at mem
  · exact mem
  · exact mem

/-- Adding a pattern keeps an automaton rooted. -/
theorem Rooted.compile {m : Nfa α} (h : m.Rooted) (p : Pattern) (accept : α) :
    (m.compile p accept).Rooted := by
  have pos := h.size_pos
  have grown : m.size ≤ (m.compile p accept).size := by
    have := (h.behind p).above
    have := (h.behind p).inside
    rw [size_compile]
    omega
  have bounds (k : Nat) (e : Edge) (mem : e ∈ ((m.compile p accept).state k).edges) :
      e.label.Proper ∧ 0 < e.target ∧ e.target < (m.compile p accept).size := by
    have old (mem : e ∈ (m.state k).edges) :
        e.label.Proper ∧ 0 < e.target ∧ e.target < (m.compile p accept).size :=
      ⟨h.label_proper k e mem, h.target_pos k e mem,
        Nat.lt_of_lt_of_le (h.target_lt k e mem) grown⟩
    have new {k : Nat} (le : m.size ≤ k) (mem : e ∈ ((m.compile p accept).state k).edges) :
        e.label.Proper ∧ 0 < e.target ∧ e.target < (m.compile p accept).size := by
      obtain ⟨label, above, below⟩ := closed_compile h p accept le mem
      exact ⟨label, Nat.lt_of_lt_of_le pos above, below⟩
    by_cases isRoot : k = root
    · subst isRoot
      rw [state_compile_root h] at mem
      rcases List.mem_append.1 mem with own | copied
      · exact old own
      · exact new (Nat.le_refl _) copied
    · by_cases lt : k < m.size
      · rw [state_compile_of_lt h (Nat.pos_of_ne_zero isRoot) lt] at mem
        exact old mem
      · exact new (Nat.le_of_not_lt lt) mem
  refine ⟨⟨by omega, fun k e mem => (bounds k e mem).2.2, fun k e mem => (bounds k e mem).1⟩, ?_,
    fun k e mem => (bounds k e mem).2.1⟩
  rw [state_compile_root h]
  exact h.accepts_root

end Adding

/-! ### The same pattern, elsewhere -/

/-- The same state with edges that lead `d` further, accepting other values. -/
def State.relocate (d : Nat) (f : α → β) (s : State α) : State β :=
  ⟨s.edges.map (Edge.shift d), s.accepts.map f⟩

/-- Behind its root, `m'` ends with the states of `m`, relocated by `d`. -/
structure Relocated (d : Nat) (f : α → β) (m : Nfa α) (m' : Nfa β) : Prop where
  size : m'.size = m.size + d
  state : ∀ k, 0 < k → m'.state (k + d) = (m.state k).relocate d f

theorem retarget_shift (d old new : Nat) (e : Edge) :
    retarget (old + d) (new + d) (e.shift d) = (retarget old new e).shift d := by
  unfold retarget Edge.shift
  by_cases same : e.target = old
  · simp [same]
  · simp [same]

/-- Values that stay apart are joined in the same way. -/
theorem map_joinAccepts [DecidableEq α] [DecidableEq β] {f : α → β} (inj : Function.Injective f)
    (accepts further : List α) :
    (joinAccepts accepts further).map f = joinAccepts (accepts.map f) (further.map f) := by
  unfold joinAccepts
  induction further generalizing accepts with
  | nil => rfl
  | cons a further ih =>
    rw [List.foldl_cons, ih, List.map_cons, List.foldl_cons, apply_ite (List.map f),
      List.map_append, List.map_singleton]
    simp only [List.mem_map_of_injective inj]

namespace Relocated

variable {d : Nat} {f : α → β} {m : Nfa α} {m' : Nfa β}

theorem link (h : Relocated d f m m') {q : Nat} (inside : q < m.size)
    (labels : List CharRange) : Relocated d f (m.link q labels) (m'.link (q + d) labels) := by
  have inside' : q + d < m'.size := by rw [h.size]; omega
  refine ⟨by simp only [size_link, h.size]; omega, ?_⟩
  intro k pos
  rw [state_link inside, state_link inside', h.state k pos]
  by_cases same : k = q
  · simp [same, State.relocate, Edge.shift, h.size]
  · simp [same]

theorem fold [DecidableEq α] [DecidableEq β] (inj : Function.Injective f)
    (h : Relocated d f m m') {old new : Nat} (oldPos : 0 < old) (newPos : 0 < new)
    (inside : new < m.size) : Relocated d f (m.fold old new) (m'.fold (old + d) (new + d)) := by
  have inside' : new + d < m'.size := by rw [h.size]; omega
  refine ⟨by simp only [size_fold, h.size], ?_⟩
  intro k pos
  by_cases ne : old = new
  · simpa [Nfa.fold, ne] using h.state k pos
  · have ne' : old + d ≠ new + d := by omega
    rw [state_fold ne inside, state_fold ne' inside', h.state k pos, h.state old oldPos,
      h.state new newPos]
    simp only [Nat.add_right_cancel_iff]
    split
    · rfl
    · split
      · simp only [State.relocate, map_joinAccepts inj, List.map_append, List.map_map,
          Function.comp_def, retarget_shift]
      · simp only [State.relocate, List.map_map, Function.comp_def, retarget_shift]

theorem addAccept (h : Relocated d f m m') {q : Nat} (inside : q < m.size) (accept : α) :
    Relocated d f (m.addAccept q accept) (m'.addAccept (q + d) (f accept)) := by
  have inside' : q + d < m'.size := by rw [h.size]; omega
  refine ⟨by simp only [size_addAccept, h.size], ?_⟩
  intro k pos
  rw [state_addAccept, state_addAccept, h.state k pos]
  by_cases same : k = q
  · simp [same, State.relocate, inside, inside']
  · simp [same]

/-- A pattern is built in the same way behind any other rules. -/
theorem build [DecidableEq α] [DecidableEq β] (inj : Function.Injective f)
    (h : Relocated d f m m') (p : Pattern) {q : Nat} (pos : 0 < q) (inside : q < m.size) :
    Relocated d f (m.build q p).1 (m'.build (q + d) p).1 ∧
      (m'.build (q + d) p).2 = (m.build q p).2 + d ∧
      0 < (m.build q p).2 ∧ (m.build q p).2 < (m.build q p).1.size := by
  induction p generalizing m m' q with
  | done => exact ⟨h, rfl, pos, inside⟩
  | char c rest ih =>
    have next := ih (h.link inside [.only c]) (Nat.lt_of_le_of_lt (Nat.zero_le q) inside) (by simp)
    rwa [← h.size] at next
  | oneOf items rest ih =>
    have next := ih (h.link inside (items.map ClassItem.toRange))
      (Nat.lt_of_le_of_lt (Nat.zero_le q) inside) (by simp)
    rwa [← h.size] at next
  | loop body rest ihBody ihRest =>
    obtain ⟨inner, last, lastPos, -⟩ := ihBody h pos inside
    have inside' : q < (m.build q body).1.size :=
      Nat.lt_of_lt_of_le inside (size_le_size_build body m q)
    have next := ihRest (inner.fold inj lastPos pos inside') pos (by rwa [size_fold])
    rwa [← last] at next

end Relocated

/-- A pattern that is added to an automaton forms the same states as alone. -/
theorem Rooted.relocated_compile [DecidableEq α] {m : Nfa α} (h : m.Rooted) (p : Pattern)
    (accept : α) :
    Relocated (m.size - 1) (fun _ => accept) (empty.compile p ()) (m.compile p accept) := by
  have pos := h.size_pos
  have start : Relocated (m.size - 1) (fun _ : Unit => accept) empty.grow m.grow := by
    refine ⟨by simp only [size_grow, size_empty]; omega, ?_⟩
    intro k kPos
    rw [state_grow, state_of_size_le (by omega)]
    simp [State.relocate, State.blank]
  have fresh : m.size = (empty : Nfa Unit).size + (m.size - 1) := by rw [size_empty]; omega
  obtain ⟨built, last, -, lastInside⟩ :=
    start.build (fun _ _ _ => rfl) p (q := (empty : Nfa Unit).size) (by simp) (by simp)
  rw [← fresh] at built last
  refine ⟨by simp only [size_compile, built.size], ?_⟩
  intro k kPos
  -- Both automata accept at the end of the pattern, which is at relocated places.
  rw [state_compile kPos, state_compile (by omega), last]
  exact (built.addAccept lastInside ()).state k kPos

/-! ### Words -/

theorem Rooted.not_recognises_nil {m : Nfa α} (h : m.Rooted) (a : α) : ¬ m.Recognises [] a := by
  rintro ⟨q, path, accepted⟩
  cases path with
  | stay => simp [h.accepts_root] at accepted

theorem Rooted.step_bounds {m : Nfa α} (h : m.Rooted) {k r : Nat} {c : Char}
    (edge : m.Step k c r) : 0 < r ∧ r < m.size := by
  obtain ⟨e, mem, -, rfl⟩ := edge
  exact ⟨h.target_pos k e mem, h.target_lt k e mem⟩

/-- No path returns to the root. -/
theorem Rooted.pos_of_reaches {m : Nfa α} (h : m.Rooted) {x y : Nat} {word : List Char}
    (pos : 0 < x) (path : m.Reaches x word y) : 0 < y := by
  induction path with
  | stay => exact pos
  | step edge _ ih => exact ih (h.step_bounds edge).1

/-- The states of earlier rules recognise the same words as before. -/
theorem recognisesFrom_compile_of_lt [DecidableEq α] {m : Nfa α} (h : m.Rooted) {k : Nat}
    (pos : 0 < k) (lt : k < m.size) (p : Pattern) (accept : α) {word : List Char} {b : α} :
    (m.compile p accept).RecognisesFrom k word b ↔ m.RecognisesFrom k word b := by
  have same {k : Nat} (bounds : 0 < k ∧ k < m.size) :
      (m.compile p accept).state k = m.state k :=
    state_compile_of_lt h bounds.1 bounds.2 p accept
  constructor
  -- A path never leaves the older states behind the root, and these are the same in both automata.
  · intro word
    refine word.simulate (R := fun k k' => k = k' ∧ 0 < k ∧ k < m.size) ?_ ?_ ⟨rfl, pos, lt⟩
    · rintro k _ c r ⟨rfl, bounds⟩ edge
      have edge' : m.Step k c r := by simpa only [Step, same bounds] using edge
      exact ⟨r, edge', rfl, h.step_bounds edge'⟩
    · rintro k _ ⟨rfl, bounds⟩ accepted
      rwa [same bounds] at accepted
  · intro word
    refine word.simulate (R := fun k k' => k = k' ∧ 0 < k ∧ k < m.size) ?_ ?_ ⟨rfl, pos, lt⟩
    · rintro k _ c r ⟨rfl, bounds⟩ edge
      have edge' : (m.compile p accept).Step k c r := by simpa only [Step, same bounds] using edge
      exact ⟨r, edge', rfl, h.step_bounds edge⟩
    · rintro k _ ⟨rfl, bounds⟩ accepted
      rwa [same bounds]

/-- Relocated states take the same steps. -/
theorem Relocated.step_iff {d : Nat} {f : α → β} {m : Nfa α} {m' : Nfa β}
    (h : Relocated d f m m') {k r' : Nat} (pos : 0 < k) {c : Char} :
    m'.Step (k + d) c r' ↔ ∃ r, m.Step k c r ∧ r + d = r' := by
  simp only [Step, h.state k pos, State.relocate, List.mem_map]
  constructor
  · rintro ⟨_, ⟨e, mem, rfl⟩, label, target⟩
    exact ⟨e.target, ⟨e, mem, label, rfl⟩, target⟩
  · rintro ⟨_, ⟨e, mem, label, rfl⟩, target⟩
    exact ⟨e.shift d, ⟨e, mem, rfl⟩, label, target⟩

/-- The relocated states of a pattern recognise its words. -/
theorem Relocated.recognisesFrom_iff {d : Nat} {accept b : α} {m : Nfa Unit} {m' : Nfa α}
    (h : Relocated d (fun _ => accept) m m') (rooted : m.Rooted) {k : Nat} (pos : 0 < k)
    {word : List Char} :
    m'.RecognisesFrom (k + d) word b ↔ b = accept ∧ m.RecognisesFrom k word () := by
  constructor
  · rintro ⟨q, path, accepted⟩
    have step {k' k : Nat} {c : Char} {r' : Nat} (related : k + d = k' ∧ 0 < k)
        (edge : m'.Step k' c r') : ∃ r, m.Step k c r ∧ r + d = r' ∧ 0 < r := by
      obtain ⟨rfl, pos⟩ := related
      obtain ⟨r, edge', rfl⟩ := (h.step_iff pos).1 edge
      exact ⟨r, edge', rfl, (rooted.step_bounds edge').1⟩
    obtain ⟨q', path', rfl, pos'⟩ :=
      path.simulate (R := fun k' k => k + d = k' ∧ 0 < k) step ⟨rfl, pos⟩
    rw [h.state q' pos'] at accepted
    obtain ⟨⟨⟩, mem, rfl⟩ := List.mem_map.1 accepted
    exact ⟨rfl, q', path', mem⟩
  · rintro ⟨rfl, recognised⟩
    refine recognised.simulate (R := fun r r' => r + d = r' ∧ 0 < r) ?_ ?_ ⟨rfl, pos⟩
    · rintro k _ c r ⟨rfl, pos⟩ edge
      exact ⟨r + d, (h.step_iff pos).2 ⟨r, edge, rfl⟩, rfl, (rooted.step_bounds edge).1⟩
    · rintro k _ ⟨rfl, pos⟩ accepted
      rw [h.state k pos]
      exact List.mem_map.2 ⟨(), accepted, rfl⟩

/-- A word is recognised by an older rule or from the fresh state of the latest one. -/
theorem recognises_cons_compile [DecidableEq α] {m : Nfa α} (h : m.Rooted) (p : Pattern)
    (accept : α) {c : Char} {word : List Char} {b : α} :
    (m.compile p accept).Recognises (c :: word) b ↔
      m.Recognises (c :: word) b ∨ (m.compile p accept).RecognisesFrom m.size (c :: word) b := by
  -- The first step takes an older edge of the root or one that was copied from the fresh state.
  have steps (r : Nat) : (m.compile p accept).Step root c r ↔
      m.Step root c r ∨ (m.compile p accept).Step m.size c r := by
    simp only [Step, state_compile_root h, List.mem_append, or_and_right, exists_or]
  have older (r : Nat) : m.Step root c r ∧ (m.compile p accept).RecognisesFrom r word b ↔
      m.Step root c r ∧ m.RecognisesFrom r word b := by
    refine and_congr_right fun edge => ?_
    obtain ⟨pos, lt⟩ := h.step_bounds edge
    exact recognisesFrom_compile_of_lt h pos lt p accept
  simp only [Recognises, recognisesFrom_cons, steps, or_and_right, exists_or, older]

end Nfa

/-- The words of a pattern: they lead from the root to an accepting state, when the pattern is
compiled alone. -/
def Pattern.Matches (p : Pattern) (word : List Char) : Prop :=
  (Nfa.empty.compile p ()).Recognises word ()

instance (p : Pattern) (word : List Char) : Decidable (p.Matches word) :=
  decidable_of_iff _ Nfa.mem_acceptsOf_after

namespace Nfa

variable {α : Type}

/-- **Rules are isolated.**  A pattern that is added to an automaton adds its own words, for its own
value, and nothing else. -/
theorem recognises_compile [DecidableEq α] {m : Nfa α} (h : m.Rooted) (p : Pattern) (accept : α)
    {word : List Char} {b : α} :
    (m.compile p accept).Recognises word b ↔
      m.Recognises word b ∨ b = accept ∧ p.Matches word := by
  have alone : (empty.compile p ()).Rooted := rooted_empty.compile p ()
  cases word with
  | nil =>
    simp only [(h.compile p accept).not_recognises_nil, h.not_recognises_nil, Pattern.Matches,
      alone.not_recognises_nil, and_false, or_false]
  | cons c word =>
    have moved :
        (m.compile p accept).RecognisesFrom (1 + (m.size - 1)) (c :: word) b ↔
          b = accept ∧ (empty.compile p ()).RecognisesFrom 1 (c :: word) () :=
      (h.relocated_compile p accept).recognisesFrom_iff alone Nat.one_pos
    have fresh : 1 + (m.size - 1) = m.size := by
      have := h.size_pos
      omega
    rw [fresh] at moved
    simp only [Pattern.Matches, recognises_cons_compile h, recognises_cons_compile rooted_empty,
      not_recognises_empty, false_or, size_empty, moved]

end Nfa

end FrontEnd
