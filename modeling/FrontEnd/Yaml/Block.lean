import FrontEnd.Yaml.Place

/-!
# Block scalars of YAML documents

Reading scalars whose lines are set off by their indentation:

```text
pattern: |
  first line
  second line
```

## Main Definitions

* `Yaml.BlockStyle` — what the line with the indicator says about the lines below
* `Yaml.BlockLines` — the lines read so far, and the line ends that are still open
* `Yaml.readBlock` — the block scalar behind its indicator

## Design Notes

**The first line sets the indentation.**  Unless the indicator's line names it, the indentation is
that of the first line with contents, and of no blank line before it.  It has to be further right
than the collection around.

**The last line ends are settled last.**  A line end belongs to the text only once another line
follows.  Those at the very end are dropped, or one is kept, or all are kept.
-/

namespace FrontEnd.Yaml

/-- What becomes of the line ends behind the last line. -/
inductive Chomping where
  /-- All are dropped. -/
  | strip
  /-- The first one is kept. -/
  | clip
  /-- All are kept. -/
  | keep
  deriving DecidableEq

/-- What stands behind the indicator of a block scalar. -/
structure BlockStyle where
  chomping : Option Chomping
  /-- Columns by which the lines are further right than the collection around. -/
  increment : Option Nat
  deriving DecidableEq

namespace BlockStyle

/-- The chomping that a character asks for. -/
def chomping? (c : Char) : Option Chomping := [('+', .keep), ('-', .strip)].lookup c

/-- The number that a character asks for. -/
def increment? (c : Char) : Option Nat :=
  if '0' ≤ c && c ≤ '9' then some (c.toNat - '0'.toNat) else none

/-- Add a character, if there is none of its kind yet. -/
def add? (style : BlockStyle) (c : Char) : Option BlockStyle :=
  match chomping? c, increment? c with
  | some chomping, _ =>
      if style.chomping.isNone then some { style with chomping := some chomping } else none
  | none, some increment =>
      if style.increment.isNone then some { style with increment := some increment } else none
  | none, none => none

/-- Read on, and give back the number of characters taken too. -/
def read (style : BlockStyle) (taken : Nat) : List Char → BlockStyle × Nat × List Char
  | [] => (style, taken, [])
  | c :: rest =>
      match style.add? c with
      | some style => style.read (taken + 1) rest
      | none => (style, taken, c :: rest)

end BlockStyle

/-- The lines of a block scalar that were read so far. -/
structure BlockLines where
  /-- The text in reverse. -/
  text : List Char
  /-- The line end of the last line with contents. -/
  lineEnd : List Char
  /-- The line ends of the empty lines since then. -/
  emptyLines : List Char
  /-- Whether the last line with contents starts with a blank. -/
  spaced : Bool
  deriving DecidableEq

namespace BlockLines

/-- No lines yet. -/
def none : BlockLines := ⟨[], [], [], false⟩

/-- What the open line ends contribute when a line that starts with `c` follows.  If lines are
folded, a single line end between two lines that are not set further right is a blank. -/
def joint (lines : BlockLines) (folded : Bool) (c : Char) : List Char :=
  if folded && lines.lineEnd = ['\n'] && !lines.spaced && !isBlank c then
    if lines.emptyLines = [] then [' '] else lines.emptyLines
  else lines.lineEnd ++ lines.emptyLines

/-- Start a line with its first character. -/
def openLine (lines : BlockLines) (folded : Bool) (c : Char) : BlockLines :=
  ⟨c :: ((lines.joint folded c).reverse ++ lines.text), [], [], isBlank c⟩

/-- Add a character to the line. -/
def add (lines : BlockLines) (c : Char) : BlockLines := { lines with text := c :: lines.text }

/-- End the line. -/
def endLine (lines : BlockLines) (c : Char) : BlockLines :=
  { lines with lineEnd := [breakText c] }

/-- Add an empty line. -/
def addEmpty (lines : BlockLines) (c : Char) : BlockLines :=
  { lines with emptyLines := lines.emptyLines ++ [breakText c] }

/-- The text of the whole scalar. -/
def chomp (lines : BlockLines) : Chomping → List Char
  | .strip => lines.text.reverse
  | .clip => lines.text.reverse ++ lines.lineEnd
  | .keep => lines.text.reverse ++ lines.lineEnd ++ lines.emptyLines

end BlockLines

/-- Where the reading of a block scalar stands. -/
inductive BlockPart where
  /-- In front of the first contents, with the widest column of the empty lines so far. -/
  | search (widest : Nat)
  /-- In the indentation of a line. -/
  | indentation (indent : Nat)
  /-- In the contents of a line. -/
  | contents (indent : Nat)
  deriving DecidableEq

/-- Read the lines of a block scalar on.  Its indentation is at least `least`. -/
def readBlockLines (folded : Bool) (least : Nat) (part : BlockPart) (lines : BlockLines)
    (p : Place) : List Char → Except Fault (BlockLines × Place × List Char)
  | [] => .ok (lines, p, [])
  | c :: rest =>
      if isHalfBreak c rest then readBlockLines folded least part lines p.inBreak rest
      else
        match part with
        | .contents indent =>
            if isBreak c then
              readBlockLines folded least (.indentation indent) (lines.endLine c) (p.down c) rest
            else readBlockLines folded least part (lines.add c) (p.past c) rest
        | .indentation indent =>
            if isBreak c then readBlockLines folded least part (lines.addEmpty c) (p.down c) rest
            else if p.column < indent && c = ' ' then
              readBlockLines folded least part lines (p.past c) rest
            else if p.column < indent && c = '\t' then .error .tab
            else if p.column = indent then
              readBlockLines folded least (.contents indent) (lines.openLine folded c) (p.past c)
                rest
            else .ok (lines, p, c :: rest)
        | .search widest =>
            if isBreak c then
              readBlockLines folded least (.search (max widest p.column)) (lines.addEmpty c)
                (p.down c) rest
            else if c = ' ' then readBlockLines folded least part lines (p.past c) rest
            else if c = '\t' then .error .tab
            else if p.column = max least (max widest p.column) then
              readBlockLines folded least (.contents p.column) (lines.openLine folded c)
                (p.past c) rest
            else .ok (lines, p, c :: rest)

/-- Read the block scalar behind its indicator.  Lines must be further right than the column
`around`, if there is one. -/
def readBlock (folded : Bool) (around : Option Nat) (p : Place) (text : List Char) :
    Except Fault (List Char × Place × List Char) :=
  let (style, taken, text) := BlockStyle.read ⟨none, none⟩ 0 text
  if style.increment = some 0 then .error .badIndent
  else
    match finishLine false (p.right taken) text with
    | .error e => .error e
    | .ok (p, text) =>
        let least := (around.map (· + 1)).getD 1
        let part : BlockPart :=
          match style.increment with
          | some increment => .indentation (around.getD 0 + increment)
          | none => .search 0
        match readBlockLines folded least part .none p text with
        | .error e => .error e
        | .ok (lines, p, text) => .ok (lines.chomp (style.chomping.getD .clip), p, text)

end FrontEnd.Yaml
