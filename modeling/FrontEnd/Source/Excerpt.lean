import FrontEnd.Source.Location
import FrontEnd.Text.Lines

/-!
# Source excerpts

A message about a place in a source shows the line and underlines the span.

## Main Definitions

* `Excerpt` — what is shown: the line, the blanks before the marker, the width of the marker
* `Excerpt.ofLocation` — the excerpt for a location
* `Excerpt.render` — its text

## Design Notes

**The marker never leaves the line.**  It is a caret followed by tildes, as wide as the part of the
span that lies on the shown line, and at least the caret.

**Any location can be shown.**  A line that the source does not have is shown empty, and a column
beyond the end of its line pushes the caret out by that many blanks.
-/

namespace FrontEnd

/-- The name under which a source is shown; a source without one was given inline. -/
def sourceName (file : String) : String :=
  if file.isEmpty then "[define-inline]" else file

/-- The contents of an excerpt. -/
structure Excerpt where
  /-- The name of the source. -/
  file : String
  /-- The place that is shown. -/
  place : Location
  /-- The characters of the shown line. -/
  line : List Char
  /-- The blanks before the marker. -/
  blanks : Nat
  /-- The width of the marker. -/
  marks : Nat
  deriving DecidableEq

namespace Excerpt

/-- The width of the column of line numbers. -/
def gutterWidth : Nat := 6

/-- The most blanks that a marker line can hold. -/
def maxBlanks : Nat := Nat.pow 2 63 - 1

/-- The excerpt that shows a location of a source. -/
def ofLocation (source file : String) (place : Location) : Excerpt :=
  let line := (Text.lines source.toList)[place.line - 1]?.getD []
  let blanks := place.column - 1
  { file := sourceName file
    place, line, blanks
    marks := max 1 (min place.length (line.length - blanks)) }

/-- Whether the marker line of a location is too long to be written at all. -/
def tooWide (place : Location) : Bool := maxBlanks < place.column - 1

/-- A number, set flush right in the column of line numbers. -/
def gutter (number : Nat) : List Char :=
  let digits := (toString number).toList
  List.replicate (gutterWidth - digits.length) ' ' ++ digits

/-- The line of blanks and marker characters. -/
def markerLine (e : Excerpt) : List Char :=
  List.replicate e.blanks ' ' ++ '^' :: List.replicate (e.marks - 1) '~'

/-- The excerpt as text: the place, the line behind its number, the marker below. -/
def render (e : Excerpt) : String :=
  "In " ++ e.file ++ ":" ++ toString e.place.line ++ ":" ++ toString e.place.column ++ ":\n" ++
    String.ofList (gutter e.place.line) ++ " |" ++ String.ofList e.line ++ "\n" ++
    String.ofList (List.replicate gutterWidth ' ') ++ " |" ++ String.ofList e.markerLine ++ "\n"

/-- The text shown for a location of a source. -/
def display (source file : String) (place : Location) : String :=
  (ofLocation source file place).render

end Excerpt

end FrontEnd
