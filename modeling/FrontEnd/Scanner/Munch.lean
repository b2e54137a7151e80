import FrontEnd.Automaton.Dfa
import FrontEnd.Source.Location

/-!
# Cutting a text by longest match

## Main Definitions

* `Munch` — how far an automaton got, and the longest match on the way
* `Dfa.munch` — run an automaton over the front of a text
* `Span` — a piece of the text with what recognised it
* `Dfa.spans` — cut a whole text into spans

## Design Notes

**The longest match wins.**  The automaton runs until no edge takes the next character.  The last
accepting state on the way decides; whatever was read behind it is read again by the next span.

**A dead end names the rejected character.**  If there was no accepting state at all, the failing
piece reaches up to and includes the character that no edge takes.

**The text is walked once.**  `spans` recurses on the characters themselves.  After a span of `n`
characters has been cut off the front, the next `n - 1` characters are passed over.
-/

namespace FrontEnd

/-- The result of running an automaton over the front of a text. -/
structure Munch (α : Type) where
  /-- The longest match: what is recognised and how many characters it has. -/
  best : Option (α × Nat)
  /-- How many characters were read before no edge took the next one. -/
  reached : Nat
  deriving DecidableEq

/-- A piece of a text with what recognised it and where it stands. -/
structure Span (α : Type) where
  accept : α
  text : List Char
  place : Location
  deriving DecidableEq

/-- A piece of a text that nothing recognises. -/
structure DeadEnd where
  place : Location
  text : List Char
  deriving DecidableEq

namespace Dfa

variable {α : Type}

/-- Run on from a state after `reached` characters, with the longest match so far. -/
def munchFrom (d : Dfa α) (q : Nat) (m : Munch α) : List Char → Munch α
  | [] => m
  | c :: rest =>
      match d.step q c with
      | none => m
      | some r =>
          let reached := m.reached + 1
          let best :=
            match d.accept r with
            | some a => some (a, reached)
            | none => m.best
          d.munchFrom r ⟨best, reached⟩ rest

/-- Run over the front of a text from the root. -/
def munch (d : Dfa α) (text : List Char) : Munch α := d.munchFrom root ⟨none, 0⟩ text

/-- Cut a text that starts at `place` into spans, after passing over `skip` characters that belong
to the span before.  The second component of a success is the place behind the last span. -/
def spans (d : Dfa α) (skip : Nat) (place : Location) :
    List Char → Except DeadEnd (List (Span α) × Location)
  | [] => .ok ([], place)
  | c :: rest =>
      match skip with
      | skip + 1 => d.spans skip place rest
      | 0 =>
          let m := d.munch (c :: rest)
          match m.best with
          | none =>
              let text := (c :: rest).take (m.reached + 1)
              .error ⟨place.withLength text.length, text⟩
          | some (accept, length) =>
              let text := (c :: rest).take length
              match d.spans (length - 1) (place.after text) rest with
              | .error e => .error e
              | .ok (later, last) =>
                  .ok (⟨accept, text, place.withLength text.length⟩ :: later, last)

@[simp] theorem spans_nil (d : Dfa α) (skip : Nat) (place : Location) :
    d.spans skip place [] = .ok ([], place) := by
  rw [spans]

@[simp] theorem spans_skip (d : Dfa α) (skip : Nat) (place : Location) (c : Char)
    (rest : List Char) : d.spans (skip + 1) place (c :: rest) = d.spans skip place rest := by
  rw [spans]

/-- Characters to pass over may be dropped beforehand. -/
theorem spans_eq_drop (d : Dfa α) (skip : Nat) (place : Location) (text : List Char) :
    d.spans skip place text = d.spans 0 place (text.drop skip) := by
  induction text generalizing skip with
  | nil => simp
  | cons c rest ih =>
    cases skip with
    | zero => rfl
    | succ skip => rw [spans_skip, ih, List.drop_succ_cons]

end Dfa

end FrontEnd
