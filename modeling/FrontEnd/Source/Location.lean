/-!
# Locations

Where a piece of text stands in its source.

## Main Definitions

* `Location` — byte offset, line, column and length
* `Location.after` — the location right behind a text
* `Location.after?` — the same, unless a count on the way outgrows a machine word

## Design Notes

The offset counts bytes of the UTF-8 encoding; line and column count from one; column and length
count characters.  A line feed, and nothing else, starts a new line.

**Locations of a text fit.**  Only a location that was made up, and not found by passing over a
text, can have counts so large that the text behind it cannot be located.
-/

namespace FrontEnd

/-- A span of source text. -/
structure Location where
  /-- Bytes before the span. -/
  offset : Nat
  /-- The line the span starts on, from one. -/
  line : Nat
  /-- The column the span starts at, in characters from one. -/
  column : Nat
  /-- The length of the span in characters. -/
  length : Nat
  deriving DecidableEq

namespace Location

/-- The location of the first character of a source. -/
def start : Location := ⟨0, 1, 1, 0⟩

/-- The same place with another length. -/
def withLength (place : Location) (length : Nat) : Location := { place with length }

/-- The place right behind one character. -/
def next (place : Location) (c : Char) : Location :=
  if c = '\n' then ⟨place.offset + c.utf8Size, place.line + 1, 1, 0⟩
  else ⟨place.offset + c.utf8Size, place.line, place.column + 1, 0⟩

/-- The place right behind a text that starts at `place`; its length is zero. -/
def after (place : Location) (text : List Char) : Location :=
  text.foldl next (place.withLength 0)

/-- The largest count that a location can hold. -/
def maxCount : Nat := Nat.pow 2 64 - 1

/-- Whether a place can be held at all. -/
def fits (place : Location) : Bool :=
  place.offset ≤ maxCount && place.line ≤ maxCount && place.column ≤ maxCount

/-- The place right behind a text, if all places on the way fit. -/
def after? (place : Location) : List Char → Option Location
  | [] => some (place.withLength 0)
  | c :: text => if (place.next c).fits then (place.next c).after? text else none

/-- Line and column, for messages. -/
def display (place : Location) : String :=
  toString place.line ++ ":" ++ toString place.column

@[simp] theorem after_nil (place : Location) : place.after [] = place.withLength 0 := rfl

@[simp] theorem withLength_withLength (place : Location) (m n : Nat) :
    (place.withLength m).withLength n = place.withLength n := rfl

@[simp] theorem next_withLength (place : Location) (n : Nat) (c : Char) :
    (place.withLength n).next c = place.next c := rfl

/-- A nonempty text may be passed one character at a time. -/
theorem after_cons (place : Location) (c : Char) (text : List Char) :
    place.after (c :: text) = (place.next c).after text := by
  have zero : (place.next c).withLength 0 = place.next c := by
    unfold next
    split <;> rfl
  simp [after, zero]

/-- A text may be passed in two parts. -/
theorem after_append (place : Location) (front back : List Char) :
    place.after (front ++ back) = (place.after front).after back := by
  induction front generalizing place with
  | nil => cases back <;> simp [after_cons]
  | cons c front ih => simp [after_cons, ih]

end Location

end FrontEnd
