import FrontEnd.Yaml.Place

/-!
# Plain and quoted scalars of YAML documents

Reading the text of scalars that stand between other tokens.  They may run over several lines.

## Main Definitions

* `Yaml.Gap` — blanks and line ends between two words of a scalar
* `Yaml.readPlain`, `Yaml.readQuoted` — the scalar at the front of a text

## Design Notes

**Lines are folded.**  A single line end between two words of a scalar stands for one blank, and
each further one for a line feed.  Blanks around line ends are dropped.

**A plain scalar ends where something else begins.**  That is a colon or a hash with a blank on its
other side, a line that is not indented enough, a document marker, or, inside brackets, one of the
brackets and commas.
-/

namespace FrontEnd.Yaml

/-- Blanks and line ends between two words. -/
structure Gap where
  /-- Blanks, as long as there is no line end. -/
  blanks : List Char
  /-- The first line end and the further ones. -/
  breaks : Option (List Char × List Char)
  deriving DecidableEq

namespace Gap

/-- No gap at all. -/
def none : Gap := ⟨[], .none⟩

/-- A line end that contributes nothing. -/
def hidden : Gap := ⟨[], some ([], [])⟩

/-- The gap with a further blank. -/
def blank (g : Gap) (c : Char) : Gap :=
  if g.breaks.isSome then g else { g with blanks := g.blanks ++ [c] }

/-- The gap with a further line end. -/
def newline (g : Gap) (c : Char) : Gap :=
  match g.breaks with
  | .none => ⟨[], some ([breakText c], [])⟩
  | some (first, more) => ⟨[], some (first, more ++ [breakText c])⟩

/-- Whether the gap reaches over a line end. -/
def multiline (g : Gap) : Bool := g.breaks.isSome

/-- What the gap contributes to a scalar. -/
def text (g : Gap) : List Char :=
  match g.breaks with
  | .none => g.blanks
  | some (['\n'], []) => [' ']
  | some (['\n'], more) => more
  | some (first, more) => first ++ more

end Gap

/-- A scalar read from the front of a text. -/
structure Scanned where
  text : List Char
  /-- The place behind it. -/
  place : Place
  /-- The text behind it. -/
  rest : List Char
  /-- Whether a line end stands between the scalar and what follows. -/
  multiline : Bool

/-- Characters that end a plain scalar inside brackets. -/
def isFlowIndicator (c : Char) : Bool :=
  c = ',' || c = '[' || c = ']' || c = '\x7b' || c = '\x7d'

/-- Whether a colon inside brackets runs into an indicator. -/
def crowdsIndicator : List Char → Bool
  | [] => false
  | c :: _ => isFlowIndicator c || c = '?'

/-- Read a plain scalar on, with the words so far in reverse and the gap behind them. -/
def readPlainFrom (inFlow : Bool) (indent : Nat) (words : List Char) (gap : Gap) (p : Place) :
    List Char → Except Fault Scanned
  | [] => .ok ⟨words.reverse, p, [], gap.multiline⟩
  | c :: rest =>
      let stop : Except Fault Scanned := .ok ⟨words.reverse, p, c :: rest, gap.multiline⟩
      if isHalfBreak c rest then readPlainFrom inFlow indent words gap p.inBreak rest
      else if isBreak c then readPlainFrom inFlow indent words (gap.newline c) (p.down c) rest
      else if isBlank c then
        if gap.multiline && p.column < indent && c = '\t' then .error .tab
        else readPlainFrom inFlow indent words (gap.blank c) (p.past c) rest
      else if gap ≠ .none && (c = '#' || isMarker p (c :: rest)) then stop
      else if !inFlow && gap.multiline && p.column < indent then stop
      else if inFlow && c = ':' && crowdsIndicator rest then .error .colon
      else if c = ':' && endsWord rest then stop
      else if inFlow && isFlowIndicator c then stop
      else readPlainFrom inFlow indent (c :: (gap.text.reverse ++ words)) .none (p.past c) rest

/-- Read the plain scalar at the front of a text. -/
def readPlain (inFlow : Bool) (indent : Nat) (p : Place) (text : List Char) :
    Except Fault Scanned :=
  readPlainFrom inFlow indent [] .none p text

/-- The state of an escape inside double quotes. -/
inductive Escape where
  /-- No escape has begun. -/
  | no
  /-- Right behind a backslash. -/
  | begun
  /-- A code point with digits still to come. -/
  | digits (left value : Nat)
  deriving DecidableEq

/-- The character of a short escape. -/
def shortEscape (c : Char) : Option Char :=
  [('0', '\x00'), ('a', '\x07'), ('b', '\x08'), ('t', '\t'), ('\t', '\t'), ('n', '\n'),
   ('v', '\x0b'), ('f', '\x0c'), ('r', '\r'), ('e', '\x1b'), (' ', ' '), ('\"', '\"'),
   ('/', '/'), ('\\', '\\'), ('N', '\u0085'), ('_', '\u00a0'), ('L', '\u2028'),
   ('P', '\u2029')].lookup c

/-- The number of digits of an escape by code point. -/
def escapeDigits (c : Char) : Option Nat := [('x', 2), ('u', 4), ('U', 8)].lookup c

/-- The character with a code point, if it has one. -/
def charOfCode (n : Nat) : Option Char :=
  if n < 0xd800 || (0xdfff < n && n < 0x110000) then some (Char.ofNat n) else none

/-- Read a quoted scalar on, with the words so far in reverse and the gap behind them. -/
def readQuotedFrom (double : Bool) (words : List Char) (gap : Gap) (escape : Escape) (p : Place) :
    List Char → Except Fault Scanned
  | [] => .error .openQuote
  | c :: rest =>
      match escape with
      | .digits left value =>
          match hexValue c with
          | none => .error .badEscape
          | some digit =>
              let value := 16 * value + digit
              if 1 < left then
                readQuotedFrom double words gap (.digits (left - 1) value) (p.past c) rest
              else
                match charOfCode value with
                | none => .error .badEscape
                | some d => readQuotedFrom double (d :: words) gap .no (p.past c) rest
      | .begun =>
          if isHalfBreak c rest then
            readQuotedFrom double words gap .begun p.inBreak rest
          else if isBreak c then readQuotedFrom double words .hidden .no (p.down c) rest
          else
            match shortEscape c, escapeDigits c with
            | some d, _ => readQuotedFrom double (d :: words) gap .no (p.past c) rest
            | none, some count => readQuotedFrom double words gap (.digits count 0) (p.past c) rest
            | none, none => .error .badEscape
      | .no =>
          if isHalfBreak c rest then
            readQuotedFrom double words gap .no p.inBreak rest
          else if isBreak c then readQuotedFrom double words (gap.newline c) .no (p.down c) rest
          else if isBlank c then readQuotedFrom double words (gap.blank c) .no (p.past c) rest
          else if isMarker p (c :: rest) then .error .marker
          else
            let words := gap.text.reverse ++ words
            if double && c = '\"' then .ok ⟨words.reverse, p.past c, rest, false⟩
            else if double && c = '\\' then
              readQuotedFrom double words .none .begun (p.past c) rest
            else if !double && c = '\'' then
              match rest with
              | '\'' :: rest => readQuotedFrom double ('\'' :: words) .none .no (p.right 2) rest
              | rest => .ok ⟨words.reverse, p.past c, rest, false⟩
            else readQuotedFrom double (c :: words) .none .no (p.past c) rest

/-- Read the quoted scalar whose opening quote stands before the text. -/
def readQuoted (double : Bool) (p : Place) (text : List Char) : Except Fault Scanned :=
  readQuotedFrom double [] .none .no p text

end FrontEnd.Yaml
