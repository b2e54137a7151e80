import FrontEnd.Pattern.Basic
import FrontEnd.Pattern.Fault

/-!
# Reading patterns

The notation is read from left to right, one character at a time.  The reader remembers which
groups are open and how much of a class has been seen; the first character that cannot be accounted
for ends the reading with a fault.

## Main Definitions

* `Bracket` — a class being read
* `Reader` — everything remembered between two characters
* `Reader.step`, `Reader.finish` — one character, and the end of the text
* `Pattern.read` — the pattern a text denotes, or the reason why there is none

## Design Notes

**A range is recognised with one character of delay.**  After a member, a dash may begin a range;
whether it does is known only at the next character: a closing bracket makes both of them single
members.  `Bracket.Tail` keeps exactly that much.

**Groups are a stack.**  `outer` holds, innermost first, the units read before each open group, so
reading is a fold over the characters and needs no recursion into the text.

**The grammar is another definition.**  The notation has a grammar of ordered choices and greedy
repetitions.  It is stated, and the reader compared with it, in `FrontEnd.Proofs.Pattern.Grammar`.
-/

namespace FrontEnd

/-- What the most recent characters of a class amount to. -/
inductive Bracket.Tail where
  /-- Nothing has been read since the opening bracket. -/
  | fresh
  /-- A member that a dash could still turn into the start of a range. -/
  | member (c : Char)
  /-- A member and a dash: a range, unless the class ends here. -/
  | dash (c : Char)
  /-- A complete range. -/
  | range
  deriving DecidableEq

/-- A class being read: the settled entries and the tail that is still open. -/
structure Bracket where
  settled : List ClassItem
  tail : Bracket.Tail
  deriving DecidableEq

namespace Bracket

/-- The class right after its opening bracket. -/
def start : Bracket := ⟨[], .fresh⟩

/-- All entries, provided that the class ended here. -/
def items (b : Bracket) : List ClassItem :=
  match b.tail with
  | .fresh => b.settled
  | .member c => b.settled ++ [.single c]
  | .dash c => b.settled ++ [.single c, .single '-']
  | .range => b.settled

/-- The fault of a text that ends inside the class. -/
def openFault (b : Bracket) : Pattern.Fault :=
  match b.tail with
  | .fresh => .emptyClass
  | .member _ => .openClass false
  | .dash _ => .openClass false
  | .range => .openClass true

/-- Read a character other than the closing bracket.  An inverted range is reported at its first
member, two characters back. -/
def step (position : Nat) (b : Bracket) (c : Char) : Except (Nat × Pattern.Fault) Bracket :=
  match b.tail with
  | .fresh => .ok ⟨b.settled, .member c⟩
  | .member a =>
      if c = '-' then .ok ⟨b.settled, .dash a⟩
      else .ok ⟨b.settled ++ [.single a], .member c⟩
  | .dash a =>
      if a ≤ c then .ok ⟨b.settled ++ [.range a c], .range⟩
      else .error (position - 2, .invertedRange)
  | .range => .ok ⟨b.settled, .member c⟩

end Bracket

/-- Everything the reader remembers between two characters. -/
structure Reader where
  /-- The units read before each open group, innermost first. -/
  outer : List Pattern
  /-- The units of the innermost open group, or of the whole pattern. -/
  current : Pattern
  /-- The class being read, if there is one. -/
  bracket : Option Bracket
  deriving DecidableEq

namespace Reader

/-- The reader before the first character. -/
def start : Reader := ⟨[], .done, none⟩

/-- Read one character outside of classes. -/
def stepUnit (position : Nat) (r : Reader) (c : Char) : Except (Nat × Pattern.Fault) Reader :=
  if c = '[' then .ok { r with bracket := some .start }
  else if c = '(' then .ok { r with outer := r.current :: r.outer, current := .done }
  else if c = ']' then .error (position, .strayCloser ']' !r.outer.isEmpty)
  else if c = ')' then
    match r.outer with
    | [] => .error (position, .strayCloser ')' false)
    | before :: outer => .ok { r with outer := outer, current := before ++ .loop r.current .done }
  else .ok { r with current := r.current ++ .char c .done }

/-- Read one character inside a class. -/
def stepBracket (position : Nat) (r : Reader) (b : Bracket) (c : Char) :
    Except (Nat × Pattern.Fault) Reader :=
  if c = ']' then
    if b.tail = .fresh then .error (position, .emptyClass)
    else .ok { r with current := r.current ++ .oneOf b.items .done, bracket := none }
  else
    match b.step position c with
    | .ok b' => .ok { r with bracket := some b' }
    | .error fault => .error fault

/-- Read the character at `position`. -/
def step (position : Nat) (r : Reader) (c : Char) : Except (Nat × Pattern.Fault) Reader :=
  match r.bracket with
  | none => r.stepUnit position c
  | some b => r.stepBracket position b c

/-- Read all remaining characters, the first of which stands at `position`. -/
def run (position : Nat) (r : Reader) : List Char → Except (Nat × Pattern.Fault) Reader
  | [] => .ok r
  | c :: text =>
      match r.step position c with
      | .ok r' => r'.run (position + 1) text
      | .error fault => .error fault

/-- The units read, once the text has ended after `length` characters. -/
def finish (length : Nat) (r : Reader) : Except (Nat × Pattern.Fault) Pattern :=
  match r.bracket with
  | some b => .error (length, b.openFault)
  | none => if r.outer.isEmpty then .ok r.current else .error (length, .openGroup)

@[simp] theorem run_nil (position : Nat) (r : Reader) : r.run position [] = .ok r := rfl

end Reader

namespace Pattern

/-- Read the units of a text. -/
def readUnits (text : List Char) : Except (Nat × Fault) Pattern :=
  match Reader.start.run 0 text with
  | .ok r => r.finish text.length
  | .error fault => .error fault

/-- Read a text as a pattern.  A pattern has to consume something: a sequence of groups only is
turned away once it has been read to its end. -/
def readChars (text : List Char) : Except (Nat × Fault) Pattern :=
  match readUnits text with
  | .ok p => if p.onlyLoops then .error (0, .onlyEmpty) else .ok p
  | .error fault => .error fault

/-- The pattern that a text denotes. -/
def read (text : String) : Except Error Pattern :=
  match readChars text.toList with
  | .ok p => .ok p
  | .error (position, fault) => .error ⟨text, position, fault⟩

end Pattern

end FrontEnd
