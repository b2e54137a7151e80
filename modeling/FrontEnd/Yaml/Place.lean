/-!
# Places in YAML documents

Lines, columns and characters of a document, as far as they decide about its structure.

## Main Definitions

* `Yaml.Fault` — why a text is no YAML document
* `Yaml.Place` — bytes and lines before a place, and its column
* `Yaml.isAllowed`, `Yaml.isBreak`, `Yaml.isBlank` — the kinds of characters
* `Yaml.finishLine` — the text behind the current line

## Design Notes

**Columns count characters, distances count bytes.**  Indentation compares columns.  How far a colon
may stand behind its key is measured in bytes of the UTF-8 encoding.

**Two characters may end one line.**  A carriage return in front of a line feed is passed without
moving on, and the line feed ends the line.
-/

namespace FrontEnd.Yaml

/-- Why a text is no YAML document. -/
inductive Fault where
  | control
  | tab
  | colon
  | openQuote
  | marker
  | badEscape
  | badStart
  | badIndent
  | badName
  | badTag
  | badDirective
  | lineEnd
  | lostKey
  | entryPlace
  | keyPlace
  | valuePlace
  | content
  | unknownAlias
  | unknownTag
  | moreDocuments
  deriving DecidableEq

/-- The wording of a fault. -/
def Fault.describe : Fault → String
  | control => "control characters are not allowed"
  | tab => "found a tab character that violates indentation"
  | colon => "found an unexpected colon in a plain scalar"
  | openQuote => "found the end of the text inside quotes"
  | marker => "found a document marker inside quotes"
  | badEscape => "found an unknown or invalid escape"
  | badStart => "found a character that cannot start any token"
  | badIndent => "found an indentation of zero columns"
  | badName => "did not find the expected name of an anchor"
  | badTag => "did not find the expected tag"
  | badDirective => "did not find the expected directive"
  | lineEnd => "did not find the expected comment or line break"
  | lostKey => "could not find the colon of a key"
  | entryPlace => "sequence entries are not allowed here"
  | keyPlace => "mapping keys are not allowed here"
  | valuePlace => "mapping values are not allowed here"
  | content => "did not find the expected content"
  | unknownAlias => "found an alias without its anchor"
  | unknownTag => "found an undeclared tag handle"
  | moreDocuments => "the text holds more than one document"

/-- Whether a character ends a line. -/
def isBreak (c : Char) : Bool :=
  c = '\n' || c = '\r' || c = '\u0085' || c = '\u2028' || c = '\u2029'

/-- Whether a character is a blank within a line. -/
def isBlank (c : Char) : Bool := c = ' ' || c = '\t'

/-- Whether a text is at its end, or goes on with a blank or a line end. -/
def endsWord : List Char → Bool
  | [] => true
  | c :: _ => isBlank c || isBreak c

/-- What a line end contributes to a scalar. -/
def breakText (c : Char) : Char := if c = '\u2028' || c = '\u2029' then c else '\n'

/-- Characters that may stand in a document at all. -/
def isAllowed (c : Char) : Bool :=
  let n := c.toNat
  n = 0x09 || n = 0x0a || n = 0x0d || (0x20 ≤ n && n ≤ 0x7e) || n = 0x85 ||
    (0xa0 ≤ n && n ≤ 0xd7ff) || (0xe000 ≤ n && n ≤ 0xfffd) || 0x10000 ≤ n

/-- The value of a hexadecimal digit. -/
def hexValue (c : Char) : Option Nat :=
  if '0' ≤ c && c ≤ '9' then some (c.toNat - '0'.toNat)
  else if 'a' ≤ c && c ≤ 'f' then some (c.toNat - 'a'.toNat + 10)
  else if 'A' ≤ c && c ≤ 'F' then some (c.toNat - 'A'.toNat + 10)
  else none

/-- A place in the text: bytes and lines before it, and its column in characters from zero. -/
structure Place where
  index : Nat
  line : Nat
  column : Nat
  deriving DecidableEq

namespace Place

/-- The place at the start of a text. -/
def start : Place := ⟨0, 0, 0⟩

/-- The place behind a character of the same line. -/
def past (p : Place) (c : Char) : Place := ⟨p.index + c.utf8Size, p.line, p.column + 1⟩

/-- The place behind characters of the same line, all of them ASCII. -/
def right (p : Place) (count : Nat) : Place := ⟨p.index + count, p.line, p.column + count⟩

/-- The place between the two characters of a line end. -/
def inBreak (p : Place) : Place := ⟨p.index + 1, p.line, p.column⟩

/-- The place behind the character that ends a line. -/
def down (p : Place) (c : Char) : Place := ⟨p.index + c.utf8Size, p.line + 1, 0⟩

end Place

/-- Whether a carriage return in front of `rest` is the first half of a line end. -/
def isHalfBreak (c : Char) (rest : List Char) : Bool := c = '\r' && rest.head? = some '\n'

/-- Whether a document marker stands at the front of a line. -/
def isMarker (p : Place) : List Char → Bool
  | '-' :: '-' :: '-' :: rest => p.column = 0 && endsWord rest
  | '.' :: '.' :: '.' :: rest => p.column = 0 && endsWord rest
  | _ => false

/-- Pass the rest of a line, which may hold blanks and a comment but nothing else. -/
def finishLine (inComment : Bool) (p : Place) : List Char → Except Fault (Place × List Char)
  | [] => .ok (p, [])
  | c :: rest =>
      if isHalfBreak c rest then finishLine inComment p.inBreak rest
      else if isBreak c then .ok (p.down c, rest)
      else if inComment || isBlank c then finishLine inComment (p.past c) rest
      else if c = '#' then finishLine true (p.past c) rest
      else .error .lineEnd

end FrontEnd.Yaml
