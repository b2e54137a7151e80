import FrontEnd.Parser.Run
import Mathlib.Data.List.Forall2

/-!
# What tokens spell

The notation of a value is a list of symbols, and the tokens between two positions of a stream may
spell these symbols one by one.

## Main Definitions

* `Spelled` — the tokens between two positions spell some symbols
* `separated` — the notation of items with separators in between

## Design Notes

**Symbols.**  What a symbol is, and which tokens spell it, is up to the language.  A token may carry
more than the symbol that it spells: its place, for one.
-/

namespace FrontEnd

variable {κ σ α β : Type} [TokenKind κ] (spells : Token κ → σ → Prop)

/-- The tokens from position `i` up to position `j` spell some symbols, one token for each. -/
def Spelled (s : TokenStream κ) : Nat → List σ → Nat → Prop
  | i, [], j => i = j
  | i, x :: symbols, j => i + 1 < s.size ∧ spells (s.get i) x ∧ Spelled s (i + 1) symbols j

variable {spells} {s : TokenStream κ} {i j k : Nat}

/-! ### Symbols -/

@[simp] theorem spelled_nil : Spelled spells s i [] j ↔ i = j := Iff.rfl

@[simp] theorem spelled_cons {x : σ} {symbols : List σ} :
    Spelled spells s i (x :: symbols) j ↔
      i + 1 < s.size ∧ spells (s.get i) x ∧ Spelled spells s (i + 1) symbols j := Iff.rfl

/-- Symbols are spelled part by part. -/
theorem spelled_append {front back : List σ} :
    Spelled spells s i (front ++ back) j ↔
      ∃ k, Spelled spells s i front k ∧ Spelled spells s k back j := by
  induction front generalizing i with
  | nil =>
    constructor
    · intro spelled
      exact ⟨i, rfl, spelled⟩
    · rintro ⟨k, rfl, spelled⟩
      exact spelled
  | cons x front ih =>
    rw [List.cons_append, spelled_cons, ih]
    constructor
    · rintro ⟨inside, first, k, spelled, later⟩
      exact ⟨k, ⟨inside, first, spelled⟩, later⟩
    · rintro ⟨k, ⟨inside, first, spelled⟩, later⟩
      exact ⟨inside, first, k, spelled, later⟩

/-- Every symbol takes one token. -/
theorem Spelled.position {symbols : List σ} (h : Spelled spells s i symbols j) :
    j = i + symbols.length := by
  induction symbols generalizing i with
  | nil => exact h.symm
  | cons x symbols ih =>
    rw [ih h.2.2, List.length_cons]
    omega

/-- Spelling stays inside the stream. -/
theorem Spelled.inside {symbols : List σ} (h : Spelled spells s i symbols j)
    (inside : i < s.size) : j < s.size := by
  induction symbols generalizing i with
  | nil => exact h ▸ inside
  | cons x symbols ih => exact ih h.2.2 h.1

/-- Symbols are spelled from a position inside the stream. -/
theorem Spelled.inside_of_ne_nil {symbols : List σ} (h : Spelled spells s i symbols j)
    (nonempty : symbols ≠ []) : i < s.size := by
  cases symbols with
  | nil => exact absurd rfl nonempty
  | cons x symbols => exact Nat.lt_of_succ_lt h.1

/-- The tokens from a position to the end of the stream spell symbols one by one. -/
theorem spelled_iff_forall₂ {symbols : List σ} (le : i ≤ s.tokens.size) :
    Spelled spells s i symbols s.tokens.size ↔
      List.Forall₂ spells (s.tokens.toList.drop i) symbols := by
  induction symbols generalizing i with
  | nil =>
    rw [spelled_nil, List.forall₂_nil_right_iff, List.drop_eq_nil_iff, Array.length_toList]
    omega
  | cons x symbols ih =>
    rw [spelled_cons]
    by_cases inside : i < s.tokens.size
    · have token : s.get i = s.tokens.toList[i] := by
        rw [TokenStream.get, Array.getElem?_eq_getElem inside, Option.getD_some,
          Array.getElem_toList]
      have bound : i < s.tokens.toList.length := by rwa [Array.length_toList]
      rw [ih inside, List.drop_eq_getElem_cons bound, List.forall₂_cons, token]
      exact and_iff_right (Nat.succ_lt_succ inside)
    · have nothing : s.tokens.toList.drop i = [] := by
        rw [List.drop_eq_nil_iff, Array.length_toList]
        omega
      have outside : ¬ i + 1 < s.size := fun h => inside (Nat.lt_of_succ_lt_succ h)
      rw [nothing]
      constructor
      · intro spelled
        exact absurd spelled.1 outside
      · intro none
        cases none

/-- Symbols are spelled by the tokens that stand where they are spelled. -/
theorem Spelled.of_forall₂ {w : List (Token κ)} {symbols : List σ} (h : Spelled Eq s i w j)
    (spelled : List.Forall₂ spells w symbols) : Spelled spells s i symbols j := by
  induction spelled generalizing i with
  | nil => exact h
  | cons first _ ih =>
    obtain ⟨inside, rfl, later⟩ := h
    exact ⟨inside, first, ih later⟩

/-- The tokens between two positions of a stream are a section of the stream. -/
theorem Spelled.eq_take {w : List (Token κ)} (h : Spelled Eq s i w j) :
    w = (s.tokens.toList.drop i).take w.length := by
  induction w generalizing i with
  | nil => rfl
  | cons t w ih =>
    obtain ⟨inside, rfl, later⟩ := h
    have bound : i < s.tokens.toList.length := by
      rw [Array.length_toList]
      exact Nat.lt_of_succ_lt_succ inside
    rw [List.drop_eq_getElem_cons bound, List.length_cons, List.take_succ_cons, ← ih later,
      TokenStream.get, Array.getElem?_eq_getElem bound, Option.getD_some, Array.getElem_toList]

/-- Items with separators in between. -/
def separated (between : List σ) (spell : α → List σ) : List α → List σ
  | [] => []
  | a :: rest => spell a ++ rest.flatMap fun b => between ++ spell b

end FrontEnd
