import FrontEnd.Proofs.Automaton.Registration
import FrontEnd.Proofs.Automaton.Trim

/-!
# The roles of states

Every rule has a state of its own to start from, and states that were folded stay in the table
although they are out of use.  This module says which states play these roles, and that rules never
meddle with the states of other rules.

## Main Definitions

* `Nfa.transitions` — the edges of a state as a table from characters to sets of states
* `Nfa.startsOf` — the states that registered rules start from
* `Nfa.foldedBy`, `Nfa.foldedOf` — the states that are folded, by one rule and by all of them
* `Nfa.Idle`, `Nfa.LeftBehind` — no edge leads to a state or leaves from it, for good
* `Nfa.Occupied` — every edge takes some character
* `Nfa.WellKept` — what holds of an automaton with its starts and its folded states

## Main Results

* `Nfa.leftBehind_of_mem_foldedBy` — what building a pattern folds is idle in the end
* `Nfa.WellKept.compile`, `Nfa.WellKept.registerEach` — registering rules keeps a table in order
* `Nfa.registerEach_keeps_apart` — the order of the table, and what one more rule changes

## Design Notes

**Folded states are new.**  The end of the body of a group is either where the group starts, and
then nothing is folded, or a state that was created for this body.  So a folded state belongs to the
rule that is being built.  From then on the rule is built from other states only, and no edge can
lead back.

**Accepting comes last.**  While a pattern is built, no state begins to accept, and a folded state
has nothing to hand over but its edges (`accepts_build`).  The end of a whole pattern is a new
state, as some unit at the top of the pattern is not a group.
-/

namespace FrontEnd

namespace Nfa

variable {α : Type} {m : Nfa α} {q k : Nat} {p : Pattern}

/-! ### Starts and folded states -/

/-- The states that building a pattern from `q` on folds into other ones. -/
def foldedBy [DecidableEq α] (m : Nfa α) (q : Nat) : Pattern → List Nat
  | .done => []
  | .char c rest => (m.link q [.only c]).foldedBy m.size rest
  | .oneOf items rest => (m.link q (items.map ClassItem.toRange)).foldedBy m.size rest
  | .loop body rest =>
      let (inner, last) := m.build q body
      m.foldedBy q body ++ (if last = q then [] else [last]) ++ (inner.fold last q).foldedBy q rest

/-- The states that rules start from which are registered in turn. -/
def startsOf [DecidableEq α] (m : Nfa α) : List (String × α) → List Nat
  | [] => []
  | (text, accept) :: calls =>
      match Pattern.read text with
      | .ok p => m.size :: (m.compile p accept).startsOf calls
      | .error _ => m.startsOf calls

/-- The states that are folded while rules are registered in turn. -/
def foldedOf [DecidableEq α] (m : Nfa α) : List (String × α) → List Nat
  | [] => []
  | (text, accept) :: calls =>
      match Pattern.read text with
      | .ok p => m.grow.foldedBy m.size p ++ (m.compile p accept).foldedOf calls
      | .error _ => m.foldedOf calls

/-! ### Where a pattern ends -/

/-- Behind a state that has been created, building never ends in an older one. -/
theorem end_build_link_ne [DecidableEq α] (inside : q < m.size) (labels : List CharRange)
    (rest : Pattern) : ((m.link q labels).build m.size rest).2 ≠ q := by
  have created : m.size < (m.link q labels).size := by simp
  rcases (end_build created rest).2 with last | last
  · rw [last]
    exact Nat.ne_of_gt inside
  · rw [size_link] at last
    omega

/-- A pattern in which something has to be consumed ends in a new state. -/
theorem end_build_ne [DecidableEq α] (inside : q < m.size) (consumes : p.onlyLoops = false) :
    (m.build q p).2 ≠ q := by
  induction p generalizing m with
  | done => cases consumes
  | char c rest => exact end_build_link_ne inside _ rest
  | oneOf items rest => exact end_build_link_ne inside _ rest
  | loop body rest _ ih =>
    refine ih ?_ consumes
    rw [size_fold]
    exact Nat.lt_of_lt_of_le inside (size_le_size_build body m q)

/-! ### Idle states -/

/-- No edge leads to the state, and none leaves from it. -/
structure Idle (m : Nfa α) (k : Nat) : Prop where
  unused : m.Unused k
  edges : (m.state k).edges = []

/-- A state that was created behind `m` and left for good on the way to `q'`. -/
structure LeftBehind (m m' : Nfa α) (q' k : Nat) : Prop where
  created : m.size ≤ k
  inside : k < m'.size
  apart : k ≠ q'
  idle : m'.Idle k

section Building

variable [DecidableEq α]

/-- Folding leaves a state idle that nothing is folded into. -/
theorem Idle.fold {old new : Nat} (h : m.Idle k) (inside : new < m.size) (notNew : k ≠ new) :
    (m.fold old new).Idle k := by
  refine ⟨h.unused.fold inside notNew, ?_⟩
  by_cases ne : old = new
  · rw [Nfa.fold, if_pos ne, h.edges]
  · rw [edges_fold ne inside, if_neg notNew, h.edges]
    exact ite_self _

/-- A state that has been folded into another one is idle. -/
theorem idle_fold {old new : Nat} (ne : old ≠ new) (inside : new < m.size) :
    (m.fold old new).Idle old := by
  refine ⟨unused_fold ne inside, ?_⟩
  rw [edges_fold ne inside, if_pos rfl]

/-- An idle state stays idle, unless a pattern is built from it. -/
theorem Idle.build (h : m.Idle k) (lt : k < m.size) (inside : q < m.size) (ne : k ≠ q)
    (p : Pattern) : (m.build q p).1.Idle k := by
  let Kept (m' : Nfa α) (r : Nat) : Prop :=
    k < m'.size ∧ r < m'.size ∧ k ≠ r ∧ (m'.state k).edges = []
  have link (m' : Nfa α) (r : Nat) (labels : List CharRange) (h : Kept m' r) :
      Kept (m'.link r labels) m'.size := by
    obtain ⟨lt, inside, ne, edges⟩ := h
    refine ⟨by rw [size_link]; omega, by simp, Nat.ne_of_lt lt, ?_⟩
    rw [state_link inside, if_neg ne, edges]
  have fold (m' : Nfa α) (r : Nat) (inner : Nfa α) (last : Nat) (h : Kept m' r)
      (hInner : Kept inner last) (grown : m'.size ≤ inner.size) : Kept (inner.fold last r) r := by
    obtain ⟨-, inside, ne, -⟩ := h
    obtain ⟨lt, -, notLast, edges⟩ := hInner
    have inside' : r < inner.size := Nat.lt_of_lt_of_le inside grown
    refine ⟨by rwa [size_fold], by rwa [size_fold], ne, ?_⟩
    by_cases same : last = r
    · rw [Nfa.fold, if_pos same, edges]
    · rw [edges_fold same inside', if_neg notLast, if_neg ne, edges, List.map_nil]
  have start : Kept m q := ⟨lt, inside, ne, h.edges⟩
  exact ⟨h.unused.build lt inside ne p,
    (build_keeps (fun m' r labels _ h => link m' r labels h) fold p start).2.2.2⟩

/-- An idle state stays behind if a pattern is built from another one. -/
theorem Idle.leftBehind {m₁ : Nfa α} (h : m₁.Idle k) (created : m.size ≤ k) (lt : k < m₁.size)
    (inside : q < m₁.size) (ne : k ≠ q) (p : Pattern) :
    LeftBehind m (m₁.build q p).1 (m₁.build q p).2 k := by
  refine ⟨created, Nat.lt_of_lt_of_le lt (size_le_size_build p m₁ q), ?_, h.build lt inside ne p⟩
  rcases (end_build inside p).2 with last | last
  · rwa [last]
  · exact Nat.ne_of_lt (Nat.lt_of_lt_of_le lt last)

/-- **What building a pattern folds** is left behind for good. -/
theorem leftBehind_of_mem_foldedBy (inside : q < m.size) (mem : k ∈ m.foldedBy q p) :
    LeftBehind m (m.build q p).1 (m.build q p).2 k := by
  induction p generalizing m q with
  | done => exact absurd mem List.not_mem_nil
  | char c rest ih =>
    have later := ih (by simp) mem
    exact { later with created := Nat.le_trans (by simp) later.created }
  | oneOf items rest ih =>
    have later := ih (by simp) mem
    exact { later with created := Nat.le_trans (by simp) later.created }
  | loop body rest ihBody ihRest =>
    have grown : m.size ≤ (m.build q body).1.size := size_le_size_build body m q
    have inside' : q < (m.build q body).1.size := Nat.lt_of_lt_of_le inside grown
    have folded : q < ((m.build q body).1.fold (m.build q body).2 q).size := by rwa [size_fold]
    rcases List.mem_append.1 mem with front | later
    · -- What is folded by the body, or at its end, is idle once the body has been folded.
      have closed : m.size ≤ k ∧ k < (m.build q body).1.size ∧
          ((m.build q body).1.fold (m.build q body).2 q).Idle k := by
        rcases List.mem_append.1 front with inner | last
        · have before := ihBody inside inner
          have ne : k ≠ q := Nat.ne_of_gt (Nat.lt_of_lt_of_le inside before.created)
          exact ⟨before.created, before.inside, before.idle.fold inside' ne⟩
        · obtain ⟨lt, same | new⟩ := end_build inside body
          · rw [if_pos same] at last
            exact absurd last List.not_mem_nil
          · have ne : (m.build q body).2 ≠ q := Nat.ne_of_gt (Nat.lt_of_lt_of_le inside new)
            rw [if_neg ne] at last
            obtain rfl := List.mem_singleton.1 last
            exact ⟨new, lt, idle_fold ne inside'⟩
      obtain ⟨created, lt, idle⟩ := closed
      exact idle.leftBehind created (by rwa [size_fold]) folded
        (Nat.ne_of_gt (Nat.lt_of_lt_of_le inside created)) rest
    · have rest := ihRest folded later
      refine { rest with created := Nat.le_trans grown ?_ }
      rw [← size_fold (m.build q body).1 (m.build q body).2 q]
      exact rest.created

end Building

/-! ### Edges that take characters -/

/-- Every edge takes some character. -/
def Occupied (m : Nfa α) : Prop := ∀ k, ∀ e ∈ (m.state k).edges, ∃ c, c ∈ e.label

theorem Occupied.link (h : m.Occupied) (inside : q < m.size) {labels : List CharRange}
    (some : ∀ label ∈ labels, ∃ c, c ∈ label) : (m.link q labels).Occupied := by
  intro k e mem
  rcases mem_edges_link inside mem with old | ⟨-, label, -⟩
  · exact h k e old
  · exact some e.label label

theorem Occupied.fold [DecidableEq α] {old new : Nat} (h : m.Occupied)
    (inside : new < m.size) : (m.fold old new).Occupied := by
  intro k e mem
  obtain ⟨e', mem', label, -⟩ := mem_edges_fold inside mem
  rw [label]
  rcases List.mem_append.1 mem' with own | moved
  · exact h k e' own
  · split at moved
    · exact h old e' moved
    · exact absurd moved List.not_mem_nil

/-- The entries of a class that can be read have members. -/
theorem exists_mem_toRange {items : List ClassItem} (h : ClassItem.Readable items) :
    ∀ label ∈ items.map ClassItem.toRange, ∃ c, c ∈ label := by
  intro label mem
  obtain ⟨item, listed, rfl⟩ := List.mem_map.1 mem
  cases item with
  | single c => exact ⟨c, CharRange.mem_only.2 rfl⟩
  | range first last =>
    exact ⟨first, CharRange.mem_between.2 ⟨Char.le_refl first, (h.entries _ listed).2.2⟩⟩

/-- Building a pattern that has a notation adds edges that take characters. -/
theorem Occupied.build [DecidableEq α] (h : m.Occupied) (inside : q < m.size)
    (wellFormed : p.WellFormed) : (m.build q p).1.Occupied := by
  induction p generalizing m q with
  | done => exact h
  | char c rest ih =>
    refine ih (h.link inside fun label mem => ?_) (by simp) wellFormed.2
    rw [List.mem_singleton.1 mem]
    exact ⟨c, CharRange.mem_only.2 rfl⟩
  | oneOf items rest ih =>
    exact ih (h.link inside (exists_mem_toRange wellFormed.1)) (by simp) wellFormed.2
  | loop body rest ihBody ihRest =>
    have inside' : q < (m.build q body).1.size :=
      Nat.lt_of_lt_of_le inside (size_le_size_build body m q)
    exact ihRest ((ihBody h inside wellFormed.1).fold inside') (by rwa [size_fold]) wellFormed.2

/-! ### Transitions as a table -/

/-- The transitions from a state as a table: every character that some edge takes, with the set of
states that the edges taking it lead to. -/
def transitions (m : Nfa α) (k : Nat) : List (Char × List Nat) :=
  let edges := (m.state k).edges
  (edges.flatMap fun e => e.label.chars).eraseDups.map fun c => (c, Edge.targets edges c)

theorem mem_transitions {c : Char} {set : List Nat} :
    (c, set) ∈ m.transitions k ↔
      (∃ e ∈ (m.state k).edges, c ∈ e.label) ∧ set = Edge.targets (m.state k).edges c := by
  simp only [transitions, List.mem_map, List.mem_eraseDups, List.mem_flatMap, Prod.mk.injEq,
    CharRange.mem_chars]
  constructor
  · rintro ⟨_, listed, rfl, rfl⟩
    exact ⟨listed, rfl⟩
  · rintro ⟨listed, rfl⟩
    exact ⟨c, listed, rfl, rfl⟩

/-! ### One more rule -/

/-- An automaton in good order: besides being rooted, its edges take characters, the states that
rules start from accept nothing, and folded states are blank and no edge leads there. -/
structure WellKept (m : Nfa α) (starts folded : List Nat) : Prop extends m.Rooted where
  occupied : m.Occupied
  starts : ∀ q ∈ starts, 0 < q ∧ q < m.size ∧ (m.state q).accepts = []
  folded : ∀ q ∈ folded, 0 < q ∧ q < m.size ∧ m.state q = .blank ∧
    ∀ k, ∀ e ∈ (m.state k).edges, e.target ≠ q

theorem wellKept_empty : WellKept (empty : Nfa α) [] [] where
  toRooted := rooted_empty
  occupied := by simp [Occupied, State.blank]
  starts := by simp
  folded := by simp

variable [DecidableEq α]

/-- After one more rule, an edge is an older one of an older state, or it leaves a state of the new
rule and leads to another one; the root has edges of both kinds. -/
theorem mem_edges_compile (h : m.Rooted) {accept : α} {e : Edge}
    (mem : e ∈ ((m.compile p accept).state k).edges) :
    e ∈ (m.state k).edges ∨
      ∃ k', m.size ≤ k' ∧ e ∈ ((m.compile p accept).state k').edges := by
  rcases Nat.lt_or_ge k m.size with lt | le
  · rcases Nat.eq_zero_or_pos k with rfl | pos
    · change e ∈ ((m.compile p accept).state root).edges at mem
      rw [state_compile_root h] at mem
      rcases List.mem_append.1 mem with own | copied
      · exact .inl own
      · exact .inr ⟨m.size, Nat.le_refl _, copied⟩
    · rw [state_compile_of_lt h pos lt] at mem
      exact .inl mem
  · exact .inr ⟨k, le, mem⟩

/-- Accepting leaves the edges of a new rule as they were built. -/
theorem edges_compile (pos : 0 < k) (p : Pattern) (accept : α) :
    ((m.compile p accept).state k).edges = ((m.grow.build m.size p).1.state k).edges := by
  rw [state_compile pos, state_addAccept]
  split <;> rfl

/-- Only the end of a new rule accepts, and it is not where the rule starts. -/
theorem accepts_compile (h : m.Rooted) (new : m.size ≤ k) (other : k ≠ (m.grow.build m.size p).2)
    (accept : α) : ((m.compile p accept).state k).accepts = [] := by
  have pos : 0 < k := Nat.lt_of_lt_of_le h.size_pos new
  rw [state_compile pos, state_addAccept, if_neg fun same => other same.1]
  exact accepts_build_of_blank (by simp) p ((state_grow m k).trans (state_of_size_le new))

/-- What a new rule folds is blank in the end, and no edge leads there. -/
theorem blank_of_mem_foldedBy (h : m.Rooted) (occupied : (m.grow.build m.size p).1.Occupied)
    (mem : k ∈ m.grow.foldedBy m.size p) (accept : α) :
    0 < k ∧ k < (m.compile p accept).size ∧ (m.compile p accept).state k = .blank ∧
      ∀ x, ∀ e ∈ ((m.compile p accept).state x).edges, e.target ≠ k := by
  have behind := leftBehind_of_mem_foldedBy (m := m.grow) (by simp) mem
  have new : m.size < k := Nat.lt_of_lt_of_le (by simp) behind.created
  have pos : 0 < k := Nat.zero_lt_of_lt new
  refine ⟨pos, ?_, ?_, fun x e edge target => ?_⟩
  · rw [size_compile]
    exact behind.inside
  · have edges := (edges_compile pos p accept).trans behind.idle.edges
    have accepts := accepts_compile h (Nat.le_of_lt new) behind.apart accept
    generalize (m.compile p accept).state k = state at edges accepts
    cases state
    cases edges
    cases accepts
    rfl
  · rcases mem_edges_compile h edge with older | ⟨x', le, edge⟩
    · exact Nat.lt_asymm new (target ▸ h.target_lt x e older)
    · rw [edges_compile (Nat.lt_of_lt_of_le h.size_pos le)] at edge
      obtain ⟨c, label⟩ := occupied x' e edge
      exact behind.idle.unused x' c ⟨e, edge, label, target⟩

/-- **One more rule keeps the table in order.**  The rule starts from the next state, and what it
folds joins the folded states. -/
theorem WellKept.compile {starts folded : List Nat} (h : m.WellKept starts folded)
    (wellFormed : p.WellFormed) (consumes : p.onlyLoops = false) (accept : α) :
    (m.compile p accept).WellKept (starts ++ [m.size]) (folded ++ m.grow.foldedBy m.size p) := by
  have rooted := h.toRooted
  have grown : m.size < (m.compile p accept).size := by
    have built := size_le_size_build p m.grow m.size
    rwa [size_grow, ← size_compile m p accept] at built
  have occupied : (m.grow.build m.size p).1.Occupied := by
    refine Occupied.build (fun k e mem => ?_) (by simp) wellFormed
    rw [state_grow] at mem
    exact h.occupied k e mem
  have older {k : Nat} (bounds : 0 < k ∧ k < m.size) :
      (m.compile p accept).state k = m.state k :=
    state_compile_of_lt rooted bounds.1 bounds.2 p accept
  refine ⟨rooted.compile p accept, fun k e mem => ?_, fun q mem => ?_, fun q mem => ?_⟩
  · rcases mem_edges_compile rooted mem with own | ⟨k', le, edge⟩
    · exact h.occupied k e own
    · rw [edges_compile (Nat.lt_of_lt_of_le h.size_pos le)] at edge
      exact occupied k' e edge
  · rcases List.mem_append.1 mem with earlier | latest
    · obtain ⟨pos, lt, accepts⟩ := h.starts q earlier
      exact ⟨pos, Nat.lt_trans lt grown, by rwa [older ⟨pos, lt⟩]⟩
    · obtain rfl := List.mem_singleton.1 latest
      exact ⟨h.size_pos, grown,
        accepts_compile rooted (Nat.le_refl _) (end_build_ne (by simp) consumes).symm accept⟩
  · rcases List.mem_append.1 mem with earlier | latest
    · obtain ⟨pos, lt, blank, away⟩ := h.folded q earlier
      refine ⟨pos, Nat.lt_trans lt grown, by rwa [older ⟨pos, lt⟩], fun k e mem => ?_⟩
      rcases mem_edges_compile rooted mem with own | ⟨k', le, edge⟩
      · exact away k e own
      · have new := (closed_compile rooted p accept le edge).2.1
        exact Nat.ne_of_gt (Nat.lt_of_lt_of_le lt new)
    · exact blank_of_mem_foldedBy rooted occupied latest accept

/-- **Registering rules keeps the table in order.** -/
theorem WellKept.registerEach {starts folded : List Nat} (h : m.WellKept starts folded)
    (calls : List (String × α)) :
    (m.registerEach calls).WellKept (starts ++ m.startsOf calls) (folded ++ m.foldedOf calls) := by
  induction calls generalizing m starts folded with
  | nil => simpa [startsOf, foldedOf] using h
  | cons call calls ih =>
    obtain ⟨text, accept⟩ := call
    cases read : Pattern.read text with
    | ok p =>
      obtain ⟨-, wellFormed, consumes⟩ := Pattern.read_eq_ok_iff.1 read
      have later := ih (h.compile wellFormed consumes accept)
      simp only [registerEach_cons, startsOf, foldedOf, read]
      rwa [List.append_assoc, List.append_assoc, List.singleton_append] at later
    | error fault =>
      simp only [registerEach_cons, startsOf, foldedOf, read]
      exact ih h

/-- Registering a text compiles the pattern that it denotes. -/
theorem exists_read_of_register {text : String} {accept : α} {m' : Nfa α}
    (done : m.register text accept = .ok m') :
    ∃ p, Pattern.read text = .ok p ∧ m' = m.compile p accept := by
  rw [register] at done
  cases read : Pattern.read text with
  | ok p =>
    rw [read] at done
    cases done
    exact ⟨p, rfl, rfl⟩
  | error fault =>
    rw [read] at done
    cases done

/-- **Rules are kept apart.**  Whatever has been registered, failing attempts included: every edge
leads to a state of the table other than the root, and in the table of transitions no set is empty
and no edge is missing; the root and the states that rules start from accept nothing; a folded state
is blank, and no edge leads there.  One more rule changes no older state, except that the root gains
edges to states of this rule; and where registering fails, nothing changes. -/
theorem registerEach_keeps_apart (calls : List (String × α)) :
    let m : Nfa α := empty.registerEach calls
    (∀ k, ∀ e ∈ (m.state k).edges, e.target ≠ root ∧ e.target < m.size) ∧
    (∀ k, (∀ entry ∈ m.transitions k, entry.2 ≠ []) ∧
      ∀ e ∈ (m.state k).edges, ∃ entry ∈ m.transitions k, e.target ∈ entry.2) ∧
    ((m.state root).accepts = [] ∧
      ∀ q ∈ (empty : Nfa α).startsOf calls, q < m.size ∧ (m.state q).accepts = []) ∧
    (∀ q ∈ (empty : Nfa α).foldedOf calls, q < m.size ∧ m.state q = .blank ∧
      ∀ k, ∀ e ∈ (m.state k).edges, e.target ≠ q) ∧
    ∀ text accept,
      (∀ m', m.register text accept = .ok m' →
        (∀ k, k ≠ root → k < m.size → m'.state k = m.state k) ∧
        ∃ added, m'.state root = ⟨(m.state root).edges ++ added, (m.state root).accepts⟩ ∧
          ∀ e ∈ added, m.size ≤ e.target ∧ e.target < m'.size) ∧
      (∀ fault, m.register text accept = .error fault → m.registerEach [(text, accept)] = m) := by
  intro m
  have kept : m.WellKept ([] ++ startsOf empty calls) ([] ++ foldedOf empty calls) :=
    wellKept_empty.registerEach calls
  rw [List.nil_append, List.nil_append] at kept
  have rooted := kept.toRooted
  refine ⟨fun k e mem => ⟨Nat.ne_of_gt (rooted.target_pos k e mem), rooted.target_lt k e mem⟩,
    fun k => ⟨?_, fun e mem => ?_⟩,
    ⟨rooted.accepts_root, fun q mem => (kept.starts q mem).2⟩,
    fun q mem => (kept.folded q mem).2, fun text accept => ⟨fun m' done => ?_, ?_⟩⟩
  · rintro ⟨c, set⟩ listed
    obtain ⟨⟨e, mem, label⟩, rfl⟩ := mem_transitions.1 listed
    exact List.ne_nil_of_mem (Edge.mem_targets.2 ⟨e, mem, label, rfl⟩)
  · obtain ⟨c, label⟩ := kept.occupied k e mem
    exact ⟨_, mem_transitions.2 ⟨⟨e, mem, label⟩, rfl⟩, Edge.mem_targets.2 ⟨e, mem, label, rfl⟩⟩
  · obtain ⟨p, -, rfl⟩ := exists_read_of_register done
    refine ⟨fun k notRoot lt => state_compile_of_lt rooted (Nat.pos_of_ne_zero notRoot) lt p accept,
      ((m.compile p accept).state m.size).edges, state_compile_root rooted p accept,
      fun e mem => (closed_compile rooted p accept (Nat.le_refl _) mem).2⟩
  · intro fault failed
    rw [registerEach, failed, registerEach_nil]

/-- A group inside a group has two states folded; a text that is not a pattern starts nowhere; and
one more rule leaves all of them alone. -/
theorem registerEach_keeps_apart_nested :
    let calls := [("[ab](c(de))", 7), ("(", 8), ("x", 7)]
    let m := (empty : Nfa Nat).registerEach calls
    (∃ e ∈ (m.state 4).edges, e.target ≠ root ∧ e.target < m.size) ∧
    (∃ entry ∈ m.transitions 2, entry = ('d', [4]) ∧ entry.2 ≠ []) ∧
    ((empty : Nfa Nat).startsOf calls = [1, 6] ∧ (m.state 6).accepts = []) ∧
    ((empty : Nfa Nat).foldedOf calls = [5, 3] ∧ m.state 3 = .blank) ∧
    (∃ m', m.register "(y)z" 9 = .ok m' ∧ m'.state 2 = m.state 2) ∧
    ∃ fault, m.register "[" 9 = .error fault ∧ m.registerEach [("[", 9)] = m := by
  intro calls m
  obtain ⟨targets, table, ⟨-, starts⟩, folded, further⟩ := registerEach_keeps_apart calls
  have back : ⟨.only 'e', 2⟩ ∈ (m.state 4).edges := by decide +kernel
  have entry : ('d', [4]) ∈ m.transitions 2 := by decide +kernel
  have started : (empty : Nfa Nat).startsOf calls = [1, 6] := by decide +kernel
  have merged : (empty : Nfa Nat).foldedOf calls = [5, 3] := by decide +kernel
  have inside : 2 < m.size := by decide +kernel
  have more : ∃ m', m.register "(y)z" 9 = .ok m' := ⟨_, rfl⟩
  have refused : ∃ fault, m.register "[" 9 = .error fault := ⟨_, rfl⟩
  obtain ⟨m', more⟩ := more
  obtain ⟨fault, refused⟩ := refused
  exact ⟨⟨_, back, targets 4 _ back⟩, ⟨_, entry, rfl, (table 2).1 _ entry⟩,
    ⟨started, (starts 6 (by simp [started])).2⟩, ⟨merged, (folded 3 (by simp [merged])).2.1⟩,
    ⟨m', more, ((further _ _).1 m' more).1 2 (by decide) inside⟩,
    ⟨fault, refused, (further _ _).2 fault refused⟩⟩

end Nfa

end FrontEnd
