import FrontEnd.Automaton.Nfa
import FrontEnd.Automaton.Numbering

/-!
# The deterministic automaton

The subset construction: every state of the deterministic automaton stands for a set of states of
the nondeterministic one that some word reaches from the root.

## Main Definitions

* `Dfa`, `Dfa.State` — a table of states with at most one edge for each character
* `Dfa.step`, `Dfa.run`, `Dfa.accept` — follow one character, a word, and ask what is recognised
* `Subsets` — the construction under way
* `Dfa.determinize` — the whole construction
* `Dfa.winner` — which of several recognised values counts

## Design Notes

**States are numbered by discovery.**  Sets are explored in the order of their numbers, and from a
set the successors are discovered in the order of the characters that lead to them.  The sets found
so far and the finished rows are therefore two tables over the same numbers: the first set without
a row is the next one to explore.

**The bound of the exploration.**  An automaton with `n` states has `2 ^ n` sets of states and every
round finishes the row of one more set, so `2 ^ n` rounds are enough.

**The earliest rule wins.**  Of all values recognised in a set, the first in the given order counts.
A value that the order does not mention never counts.
-/

namespace FrontEnd

/-- A state: disjoint ranges with the number of the next state, and what is recognised. -/
structure Dfa.State (α : Type) where
  edges : List Edge
  accept : Option α
  deriving DecidableEq

/-- A table of states; the root is state `0`. -/
structure Dfa (α : Type) where
  states : Array (Dfa.State α)
  deriving DecidableEq

namespace Dfa

variable {α : Type}

/-- The number of the root. -/
def root : Nat := 0

/-- The number of states. -/
def size (d : Dfa α) : Nat := d.states.size

/-- The state with a given number; numbers that are not in use lead nowhere. -/
def state (d : Dfa α) (q : Nat) : State α := d.states[q]?.getD ⟨[], none⟩

/-- Follow the edge that takes a character, if there is one. -/
def step (d : Dfa α) (q : Nat) (c : Char) : Option Nat :=
  ((d.state q).edges.find? fun e => c ∈ e.label).map Edge.target

/-- What is recognised when a word ends in a state. -/
def accept (d : Dfa α) (q : Nat) : Option α := (d.state q).accept

/-- Follow all characters of a word. -/
def runFrom (d : Dfa α) (q : Nat) : List Char → Option Nat
  | [] => some q
  | c :: word => (d.step q c).bind fun r => d.runFrom r word

/-- Follow all characters of a word from the root. -/
def run (d : Dfa α) (word : List Char) : Option Nat := d.runFrom root word

@[simp] theorem runFrom_nil (d : Dfa α) (q : Nat) : d.runFrom q [] = some q := rfl

@[simp] theorem runFrom_cons (d : Dfa α) (q : Nat) (c : Char) (word : List Char) :
    d.runFrom q (c :: word) = (d.step q c).bind fun r => d.runFrom r word := rfl

/-- The first value of the order that some state of the set accepts. -/
def winner [DecidableEq α] (m : Nfa α) (order : List α) (set : List Nat) : Option α :=
  let accepted := m.acceptsOf set
  order.find? fun a => a ∈ accepted

end Dfa

/-- The subset construction under way: the sets discovered so far by number, and the finished rows
of the first of them. -/
structure Subsets (α : Type) where
  sets : Numbering (List Nat)
  rows : Array (Dfa.State α)

namespace Subsets

variable {α : Type}

/-- Only the set of the root alone is known. -/
def start : Subsets α := ⟨(Numbering.empty.number [Nfa.root]).1, #[]⟩

/-- Number the successors of a set from left to right and collect the edges to them. -/
def link (sets : Numbering (List Nat)) :
    List (CharRange × List Nat) → Numbering (List Nat) × List Edge
  | [] => (sets, [])
  | (label, set) :: rest =>
      let (sets, q) := sets.number set
      let (sets, edges) := link sets rest
      (sets, ⟨label, q⟩ :: edges)

/-- Finish the row of a set. -/
def explore [DecidableEq α] (m : Nfa α) (order : List α) (s : Subsets α) (set : List Nat) :
    Subsets α :=
  let (sets, edges) := link s.sets (Edge.pieces (m.edgesOf set))
  ⟨sets, s.rows.push ⟨edges, Dfa.winner m order set⟩⟩

/-- Explore sets until every known set has its row, for at most the given number of rounds. -/
def exploreAll [DecidableEq α] (m : Nfa α) (order : List α) : Nat → Subsets α → Subsets α
  | 0, s => s
  | rounds + 1, s =>
      match s.sets.get? s.rows.size with
      | none => s
      | some set => exploreAll m order rounds (s.explore m order set)

end Subsets

/-- The deterministic automaton of the sets of states that words reach from the root. -/
def Dfa.determinize {α : Type} [DecidableEq α] (m : Nfa α) (order : List α) : Dfa α :=
  ⟨(Subsets.start.exploreAll m order (Nat.pow 2 m.size)).rows⟩

end FrontEnd
