/-!
# Ascending lists

Finite sets of numbers as strictly ascending lists: equal sets are equal lists, so a set can be
looked up by comparing lists.

## Main Definitions

* `Ascending.insert` — add one number
* `Ascending.ofList` — the set of a list's members
-/

namespace FrontEnd.Ascending

/-- Add a number to an ascending list, unless it is there already. -/
def insert (n : Nat) : List Nat → List Nat
  | [] => [n]
  | m :: rest =>
      if n < m then n :: m :: rest
      else if n = m then m :: rest
      else m :: insert n rest

/-- The members of a list in ascending order, each once. -/
def ofList : List Nat → List Nat
  | [] => []
  | n :: rest => insert n (ofList rest)

@[simp] theorem ofList_nil : ofList [] = [] := rfl

@[simp] theorem ofList_cons (n : Nat) (rest : List Nat) :
    ofList (n :: rest) = insert n (ofList rest) := rfl

/-- Inserting adds exactly the inserted number. -/
@[simp] theorem mem_insert {k n : Nat} {list : List Nat} :
    k ∈ insert n list ↔ k = n ∨ k ∈ list := by
  induction list with
  | nil => simp [insert]
  | cons m rest ih =>
    unfold insert
    split
    · simp
    · split
      · next equal => subst equal; simp
      · simp only [List.mem_cons, ih]
        grind

/-- The ascending list has the members of the list it is made from. -/
@[simp] theorem mem_ofList {k : Nat} {list : List Nat} : k ∈ ofList list ↔ k ∈ list := by
  induction list with
  | nil => simp
  | cons n rest ih => simp [ih]

/-- Inserting keeps a list strictly ascending. -/
theorem pairwise_insert {n : Nat} {list : List Nat} (h : list.Pairwise (· < ·)) :
    (insert n list).Pairwise (· < ·) := by
  induction list with
  | nil => simp [insert]
  | cons m rest ih =>
    obtain ⟨above, tail⟩ := List.pairwise_cons.1 h
    unfold insert
    split
    · next less =>
      refine List.pairwise_cons.2 ⟨fun k mem => ?_, h⟩
      rcases List.mem_cons.1 mem with rfl | mem
      · exact less
      · exact Nat.lt_trans less (above k mem)
    · split
      · exact h
      · next notLess notEqual =>
        refine List.pairwise_cons.2 ⟨fun k mem => ?_, ih tail⟩
        rcases mem_insert.1 mem with rfl | mem
        · omega
        · exact above k mem

/-- The ascending list of any list is strictly ascending. -/
theorem pairwise_ofList (list : List Nat) : (ofList list).Pairwise (· < ·) := by
  induction list with
  | nil => simp
  | cons n rest ih => exact pairwise_insert ih

end FrontEnd.Ascending
