import FrontEnd.Automaton.CharRange
import FrontEnd.Pattern.Reader

/-!
# The shared nondeterministic automaton

All rules of a scanner live in one automaton.  States are numbered in the order of their creation;
state `0` is the root that every rule starts from.

## Main Definitions

* `Nfa`, `Nfa.State` — a table of states, each with its edges and with what it accepts
* `Nfa.fold` — let one state take over all that another one has
* `Nfa.build`, `Nfa.compile` — build a pattern from a state on, and add one to the automaton
* `Nfa.register` — add the pattern that a text denotes
* `Nfa.Step`, `Nfa.Reaches` — one edge, and a whole word

## Design Notes

**Every rule has a start state of its own.**  A pattern is built from a fresh state, whose edges are
then copied to the root.  A loop at the front of a pattern returns to that fresh state and never to
the root, so rules do not run into one another.

**A group is folded.**  Building the body of a group leads from a state to an end state; the end
state is then folded into the first one, which closes the loop.  Folding hands over all that the end
state has, edges and accepted values alike.  The number of the folded state is not used again: it
stays in the table as a blank state.
-/

namespace FrontEnd

/-- A state: where it leads, and what has been recognised when a word ends there. -/
structure Nfa.State (α : Type) where
  edges : List Edge
  accepts : List α
  deriving DecidableEq

/-- A table of states; the root is state `0`. -/
structure Nfa (α : Type) where
  states : Array (Nfa.State α)
  deriving DecidableEq

namespace Nfa

variable {α : Type}

/-- A state without edges that accepts nothing. -/
def State.blank : State α := ⟨[], []⟩

/-- The number of the root. -/
def root : Nat := 0

/-- The automaton of no rule at all: the root alone. -/
def empty : Nfa α := ⟨#[.blank]⟩

/-- The number of states, folded ones included. -/
def size (m : Nfa α) : Nat := m.states.size

/-- The state with a given number; numbers that are not in use have a blank state. -/
def state (m : Nfa α) (q : Nat) : State α := m.states[q]?.getD .blank

/-- Add edges that leave a state. -/
def addEdges (m : Nfa α) (q : Nat) (edges : List Edge) : Nfa α :=
  ⟨m.states.modify q fun s => { s with edges := s.edges ++ edges }⟩

/-- Let a state accept a further value. -/
def addAccept (m : Nfa α) (q : Nat) (accept : α) : Nfa α :=
  ⟨m.states.modify q fun s => { s with accepts := s.accepts ++ [accept] }⟩

/-- Values that are put behind others, all but those that are listed already. -/
def joinAccepts [DecidableEq α] (accepts further : List α) : List α :=
  further.foldl (fun known a => if a ∈ known then known else known ++ [a]) accepts

/-- Let a state accept further values, as far as it does not accept them already. -/
def addAccepts [DecidableEq α] (m : Nfa α) (q : Nat) (further : List α) : Nfa α :=
  ⟨m.states.modify q fun s => { s with accepts := joinAccepts s.accepts further }⟩

/-- Create a blank state; its number is the size before. -/
def grow (m : Nfa α) : Nfa α := ⟨m.states.push .blank⟩

/-- Create a state and lead to it from `q` on the given ranges. -/
def link (m : Nfa α) (q : Nat) (labels : List CharRange) : Nfa α :=
  m.grow.addEdges q (labels.map (⟨·, m.size⟩))

/-- Let an edge that leads to `old` lead to `new`. -/
def retarget (old new : Nat) (e : Edge) : Edge :=
  if e.target = old then { e with target := new } else e

/-- Fold state `old` into state `new`: every edge to `old` now leads to `new`, the edges of `old`
leave from `new`, and `new` accepts what `old` accepted.  Nothing is left of `old`. -/
def fold [DecidableEq α] (m : Nfa α) (old new : Nat) : Nfa α :=
  if old = new then m
  else
    let turned : Nfa α :=
      ⟨m.states.map fun s => { s with edges := s.edges.map (retarget old new) }⟩
    let folded := turned.state old
    let cleared : Nfa α := ⟨turned.states.modify old fun _ => .blank⟩
    (cleared.addEdges new folded.edges).addAccepts new folded.accepts

/-- Build a pattern from state `q` on; the second component is the state where it ends. -/
def build [DecidableEq α] (m : Nfa α) (q : Nat) : Pattern → Nfa α × Nat
  | .done => (m, q)
  | .char c rest => (m.link q [.only c]).build m.size rest
  | .oneOf items rest => (m.link q (items.map ClassItem.toRange)).build m.size rest
  | .loop body rest =>
      let (inner, last) := m.build q body
      (inner.fold last q).build q rest

/-- Add a pattern: build it from a fresh state, accept at its end, and let the root do what the
fresh state does. -/
def compile [DecidableEq α] (m : Nfa α) (p : Pattern) (accept : α) : Nfa α :=
  let (built, last) := m.grow.build m.size p
  let accepting := built.addAccept last accept
  accepting.addEdges root (accepting.state m.size).edges

/-- Add the pattern that a text denotes. -/
def register [DecidableEq α] (m : Nfa α) (text : String) (accept : α) :
    Except Pattern.Error (Nfa α) :=
  (Pattern.read text).map (m.compile · accept)

/-- One edge of the automaton takes the character `c` from `q` to `r`. -/
def Step (m : Nfa α) (q : Nat) (c : Char) (r : Nat) : Prop :=
  ∃ e ∈ (m.state q).edges, c ∈ e.label ∧ e.target = r

/-- A word leads from one state to another. -/
inductive Reaches (m : Nfa α) : Nat → List Char → Nat → Prop where
  /-- The empty word stays where it is. -/
  | stay (q : Nat) : Reaches m q [] q
  /-- A character is taken along one edge. -/
  | step {q r s : Nat} {c : Char} {word : List Char} :
      m.Step q c r → Reaches m r word s → Reaches m q (c :: word) s

/-- The edges that leave a set of states. -/
def edgesOf (m : Nfa α) (set : List Nat) : List Edge := set.flatMap fun q => (m.state q).edges

/-- The values that some state of a set accepts. -/
def acceptsOf (m : Nfa α) (set : List Nat) : List α := set.flatMap fun q => (m.state q).accepts

/-! ### Sizes -/

@[simp] theorem size_empty : (empty : Nfa α).size = 1 := rfl

@[simp] theorem size_grow (m : Nfa α) : m.grow.size = m.size + 1 := by
  simp [grow, size]

@[simp] theorem size_addEdges (m : Nfa α) (q : Nat) (edges : List Edge) :
    (m.addEdges q edges).size = m.size := by
  simp [addEdges, size]

@[simp] theorem size_addAccept (m : Nfa α) (q : Nat) (accept : α) :
    (m.addAccept q accept).size = m.size := by
  simp [addAccept, size]

@[simp] theorem size_addAccepts [DecidableEq α] (m : Nfa α) (q : Nat) (further : List α) :
    (m.addAccepts q further).size = m.size := by
  simp [addAccepts, size]

@[simp] theorem size_link (m : Nfa α) (q : Nat) (labels : List CharRange) :
    (m.link q labels).size = m.size + 1 := by
  simp [link]

@[simp] theorem size_fold [DecidableEq α] (m : Nfa α) (old new : Nat) :
    (m.fold old new).size = m.size := by
  unfold fold
  split
  · rfl
  · simp only [size_addAccepts, size_addEdges]
    simp [size]

/-! ### States after an operation -/

/-- Numbers from the size on are not in use. -/
theorem state_of_size_le {m : Nfa α} {q : Nat} (h : m.size ≤ q) : m.state q = .blank := by
  simp [state, Array.getElem?_eq_none h]

@[simp] theorem state_empty (q : Nat) : (empty : Nfa α).state q = .blank := by
  cases q <;> simp [state, empty]

/-- A created state is blank, as its number was before. -/
@[simp] theorem state_grow (m : Nfa α) (q : Nat) : m.grow.state q = m.state q := by
  by_cases last : q = m.states.size
  · simp [state, grow, last]
  · simp [state, grow, Array.getElem?_push, last]

/-- Changing one state leaves the others alone. -/
theorem state_modify (states : Array (State α)) (q k : Nat) (f : State α → State α) :
    (⟨states.modify q f⟩ : Nfa α).state k =
      if k = q ∧ q < states.size then f ((⟨states⟩ : Nfa α).state k)
      else (⟨states⟩ : Nfa α).state k := by
  by_cases same : k = q
  · subst same
    by_cases inside : k < states.size
    · simp [state, inside, Array.getElem_modify_self]
    · simp [state, inside]
  · simp [state, Array.getElem?_modify, same, Ne.symm same]

theorem state_addEdges (m : Nfa α) (q k : Nat) (edges : List Edge) :
    (m.addEdges q edges).state k =
      if k = q ∧ q < m.size then { m.state k with edges := (m.state k).edges ++ edges }
      else m.state k :=
  state_modify m.states q k _

theorem state_addAccept (m : Nfa α) (q k : Nat) (accept : α) :
    (m.addAccept q accept).state k =
      if k = q ∧ q < m.size then { m.state k with accepts := (m.state k).accepts ++ [accept] }
      else m.state k :=
  state_modify m.states q k _

theorem state_addAccepts [DecidableEq α] (m : Nfa α) (q k : Nat) (further : List α) :
    (m.addAccepts q further).state k =
      if k = q ∧ q < m.size then
        { m.state k with accepts := joinAccepts (m.state k).accepts further }
      else m.state k :=
  state_modify m.states q k _

theorem state_link {m : Nfa α} {q : Nat} (h : q < m.size) (k : Nat) (labels : List CharRange) :
    (m.link q labels).state k =
      if k = q then
        { m.state k with edges := (m.state k).edges ++ labels.map (⟨·, m.size⟩) }
      else m.state k := by
  have inside : q < m.size + 1 := by omega
  simp only [link, state_addEdges, state_grow, size_grow, inside, and_true]

theorem accepts_link {m : Nfa α} {q : Nat} (h : q < m.size) (k : Nat) (labels : List CharRange) :
    ((m.link q labels).state k).accepts = (m.state k).accepts := by
  rw [state_link h]
  split <;> rfl

/-- Folding turns all edges to the folded state, which is left blank; the other state has the edges
of both and accepts what either of them accepted. -/
theorem state_fold [DecidableEq α] {m : Nfa α} {old new : Nat} (ne : old ≠ new)
    (h : new < m.size) (k : Nat) :
    (m.fold old new).state k =
      if k = old then .blank
      else if k = new then
        ⟨((m.state new).edges ++ (m.state old).edges).map (retarget old new),
          joinAccepts (m.state new).accepts (m.state old).accepts⟩
      else { m.state k with edges := (m.state k).edges.map (retarget old new) } := by
  have turned (k : Nat) :
      (⟨m.states.map fun s => { s with edges := s.edges.map (retarget old new) }⟩ : Nfa α).state k
        = { m.state k with edges := (m.state k).edges.map (retarget old new) } := by
    by_cases inside : k < m.states.size <;> simp [state, inside, State.blank]
  simp only [fold, if_neg ne, state_addAccepts, state_addEdges, size_addEdges, state_modify, turned]
  simp only [size, Array.size_map, Array.size_modify]
  by_cases isOld : k = old
  · subst isOld
    by_cases inside : k < m.states.size
    · simp [ne, inside]
    · have blank : m.state k = .blank := state_of_size_le (Nat.le_of_not_lt inside)
      simp [ne, inside, blank, State.blank]
  · by_cases isNew : k = new
    · subst isNew
      have inside : k < m.states.size := h
      simp [isOld, inside]
    · simp [isOld, isNew]

theorem edges_fold [DecidableEq α] {m : Nfa α} {old new : Nat} (ne : old ≠ new)
    (h : new < m.size) (k : Nat) :
    ((m.fold old new).state k).edges =
      if k = old then []
      else if k = new then ((m.state new).edges ++ (m.state old).edges).map (retarget old new)
      else (m.state k).edges.map (retarget old new) := by
  rw [state_fold ne h]
  split
  · rfl
  · split <;> rfl

/-- A state that accepts nothing has nothing to hand over. -/
theorem accepts_fold [DecidableEq α] {m : Nfa α} {old new : Nat} (h : new < m.size)
    (nothing : (m.state old).accepts = []) (k : Nat) :
    ((m.fold old new).state k).accepts = (m.state k).accepts := by
  by_cases ne : old = new
  · rw [fold, if_pos ne]
  · rw [state_fold ne h, nothing]
    split
    · next isOld => rw [isOld, nothing]; rfl
    · split
      · next isNew => rw [isNew]; rfl
      · rfl

end Nfa

end FrontEnd
