import FrontEnd.Automaton.Ascending
import FrontEnd.Pattern.Basic

/-!
# Ranges of characters

An automaton's edge is labelled with a range of characters, not with a single one: a class over the
whole of Unicode is then as cheap as one letter.

## Main Definitions

* `CharRange` — a range of characters, with membership and the list of its members
* `ClassItem.toRange` — the range of a class entry
* `Edge` — a range that leads to a numbered state
* `Edge.pieces` — overlapping edges cut into disjoint, ascending ranges, each with all its targets

## Design Notes

**Ranges count characters.**  The bounds are ordinals: the position of a character among all
characters.  Surrogate code points are no characters and have no ordinal, so the character after
U+D7FF is U+E000 and no range has a gap.

**The upper bound is excluded.**  A list of ascending cut points then describes the ranges between
neighbouring points, and the pieces of a set of edges are the ranges between its cut points.
-/

namespace FrontEnd

/-- The characters whose ordinal lies in `start ≤ · < stop`. -/
structure CharRange where
  start : Nat
  stop : Nat
  deriving DecidableEq

namespace CharRange

instance : Membership Char CharRange where
  mem r c := r.start ≤ c.ordinal.val ∧ c.ordinal.val < r.stop

theorem mem_def {c : Char} {r : CharRange} :
    c ∈ r ↔ r.start ≤ c.ordinal.val ∧ c.ordinal.val < r.stop := Iff.rfl

instance (c : Char) (r : CharRange) : Decidable (c ∈ r) :=
  inferInstanceAs (Decidable (_ ∧ _))

/-- The range of the characters from `first` to `last`, both included. -/
def between (first last : Char) : CharRange :=
  ⟨first.ordinal.val, last.ordinal.val + 1⟩

/-- The range of one character. -/
def only (c : Char) : CharRange := between c c

/-- Whether a range holds ordinals of characters only. -/
def Proper (r : CharRange) : Prop := r.stop ≤ Char.numCodePoints

theorem proper_between (first last : Char) : (between first last).Proper := last.ordinal.isLt

theorem proper_only (c : Char) : (only c).Proper := proper_between c c

/-- The character with a given ordinal. -/
def charAt? (ordinal : Nat) : Option Char :=
  if h : ordinal < Char.numCodePoints then some (Char.ofOrdinal ⟨ordinal, h⟩) else none

/-- The members of a range, ascending. -/
def chars (r : CharRange) : List Char :=
  (List.range' r.start (r.stop - r.start)).filterMap charAt?

end CharRange

/-- The characters that a class entry stands for. -/
def ClassItem.toRange : ClassItem → CharRange
  | single c => .only c
  | range first last => .between first last

theorem ClassItem.proper_toRange (item : ClassItem) : item.toRange.Proper := by
  cases item with
  | single c => exact CharRange.proper_only c
  | range first last => exact CharRange.proper_between first last

/-- An edge of an automaton: the characters it takes and the state it leads to. -/
structure Edge where
  label : CharRange
  target : Nat
  deriving DecidableEq

namespace Edge

/-- The points at which the set of applicable edges can change. -/
def cuts : List Edge → List Nat
  | [] => []
  | e :: rest => Ascending.insert e.label.start (Ascending.insert e.label.stop (cuts rest))

/-- The ranges between neighbouring cut points. -/
def between : List Nat → List CharRange
  | start :: stop :: rest => ⟨start, stop⟩ :: between (stop :: rest)
  | _ => []

/-- The states that the edges taking the character with the given ordinal lead to. -/
def targetsAt (edges : List Edge) (ordinal : Nat) : List Nat :=
  Ascending.ofList
    ((edges.filter fun e => e.label.start ≤ ordinal && ordinal < e.label.stop).map target)

/-- The states that the edges taking a character lead to. -/
def targets (edges : List Edge) (c : Char) : List Nat := targetsAt edges c.ordinal.val

/-- The edges cut into disjoint ascending ranges, each with the set of its targets.  Within a piece
the targets do not depend on the character. -/
def pieces (edges : List Edge) : List (CharRange × List Nat) :=
  (between (cuts edges)).filterMap fun r =>
    match targetsAt edges r.start with
    | [] => none
    | targets => some (r, targets)

/-- A state is a target on a character exactly when an edge labelled with the character leads
there. -/
theorem mem_targets {edges : List Edge} {c : Char} {q : Nat} :
    q ∈ targets edges c ↔ ∃ e ∈ edges, c ∈ e.label ∧ e.target = q := by
  simp [targets, targetsAt, CharRange.mem_def, and_assoc]

end Edge

end FrontEnd
