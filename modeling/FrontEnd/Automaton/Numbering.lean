import Std.Data.TreeMap.Lemmas

/-!
# Numberings

Values that are numbered in the order in which they are met for the first time.

## Main Definitions

* `Numbering` — the values met so far, by number and by value
* `Numbering.number` — the number of a value, which is met now if it was not met before

## Design Notes

**Two tables, one relation.**  A number finds its value and a value finds its number, both without a
search.  The tables say the same, so no value has two numbers.
-/

namespace FrontEnd

/-- Numbered values. -/
structure Numbering (α : Type) [Ord α] where
  /-- The values in the order of their numbers. -/
  values : Array α
  /-- The numbers of the values. -/
  index : Std.TreeMap α Nat
  /-- Both tables agree. -/
  agree : ∀ (a : α) (q : Nat), index[a]? = some q ↔ values[q]? = some a

namespace Numbering

variable {α : Type} [Ord α]

/-- How many values were met. -/
def size (n : Numbering α) : Nat := n.values.size

/-- The value with a number. -/
def get? (n : Numbering α) (q : Nat) : Option α := n.values[q]?

variable [Std.TransOrd α]

/-- No value was met so far. -/
def empty : Numbering α := ⟨#[], ∅, by simp⟩

variable [Std.LawfulEqOrd α]

/-- Meet a value for the first time; its number is the number of values before. -/
def meet (n : Numbering α) (a : α) (isNew : n.index[a]? = none) : Numbering α where
  values := n.values.push a
  index := n.index.insert a n.values.size
  agree b q := by
    have before := n.agree b q
    simp only [Std.TreeMap.getElem?_insert, Array.getElem?_push,
      Std.LawfulEqOrd.compare_eq_iff_eq]
    by_cases same : a = b
    · subst same
      have absent : n.values[q]? ≠ some a := by
        intro present
        have known := (n.agree a q).2 present
        simp [isNew] at known
      by_cases last : q = n.values.size
      · simp [last]
      · simp [last, absent, Ne.symm last]
    · by_cases last : q = n.values.size
      · have beyond : n.values[q]? = none := by simp [last]
        rw [beyond] at before
        simp [last, same] at before ⊢
        exact before
      · simpa [same, last] using before

/-- The number of a value. -/
def number (n : Numbering α) (a : α) : Numbering α × Nat :=
  match isNew : n.index[a]? with
  | some q => (n, q)
  | none =>
      let next := n.size
      (n.meet a isNew, next)

omit [Std.TransOrd α] [Std.LawfulEqOrd α] in
/-- No value has two numbers. -/
theorem get?_inj {n : Numbering α} {a : α} {p q : Nat} (hp : n.get? p = some a)
    (hq : n.get? q = some a) : p = q := by
  have left := (n.agree a p).2 hp
  have right := (n.agree a q).2 hq
  exact Option.some.inj (left.symm.trans right)

/-- The number that a value is given finds it. -/
theorem get?_number (n : Numbering α) (a : α) : (n.number a).1.get? (n.number a).2 = some a := by
  unfold number
  split
  · next q found => exact (n.agree a q).1 found
  · simp [get?, meet, size]

/-- Numbers that were given before stay. -/
theorem get?_number_of_get? {n : Numbering α} {b : α} {q : Nat} (h : n.get? q = some b) (a : α) :
    (n.number a).1.get? q = some b := by
  unfold number
  split
  · exact h
  · have inside : q < n.values.size := by
      simp only [get?] at h
      exact (Array.getElem?_eq_some_iff.1 h).1
    simpa [get?, meet, Array.getElem?_push, Nat.ne_of_lt inside] using h

end Numbering

end FrontEnd
