/-!
# Lines of a text

## Main Definitions

* `Text.lines` — the lines of a text, without their line ends

## Design Notes

A line ends at a line feed.  One carriage return directly before that line feed belongs to the
line end and is dropped with it; any other carriage return is an ordinary character.  A text that
ends in a line feed has no further, empty line after it.
-/

namespace FrontEnd.Text

/-- Put a character in front of the first line, opening one if there is none. -/
def consLine (c : Char) : List (List Char) → List (List Char)
  | [] => [[c]]
  | line :: rest => (c :: line) :: rest

/-- The lines of a text, without their line ends. -/
def lines : List Char → List (List Char)
  | [] => []
  | '\n' :: text => [] :: lines text
  | '\r' :: '\n' :: text => [] :: lines text
  | c :: text => consLine c (lines text)

@[simp] theorem lines_nil : lines [] = [] := rfl

@[simp] theorem lines_feed (text : List Char) : lines ('\n' :: text) = [] :: lines text := by
  rw [lines]

@[simp] theorem lines_return_feed (text : List Char) :
    lines ('\r' :: '\n' :: text) = [] :: lines text := by
  rw [lines]

end FrontEnd.Text
