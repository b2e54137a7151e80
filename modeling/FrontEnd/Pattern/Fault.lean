import FrontEnd.Text.Quoted

/-!
# Pattern faults

Why a text is not a pattern, where the problem was met, and how that is said.

## Main Definitions

* `Pattern.Fault` — the causes
* `Pattern.Error` — a cause, its position and the rejected text
* `Pattern.Error.message` — the full sentence

## Design Notes

A fault names what was met and what could have stood there instead.  The alternatives are listed in
byte order, so a fault has one wording.  An empty class and an inverted range have no alternatives
to offer: what was met there is only "the end of what can be read".
-/

namespace FrontEnd.Pattern

/-- Why a text is not a pattern. -/
inductive Fault where
  /-- A closing bracket or parenthesis that nothing opened; `inGroup` tells whether a group was
  open around it. -/
  | strayCloser (closer : Char) (inGroup : Bool)
  /-- The text ends inside a group. -/
  | openGroup
  /-- A class without members. -/
  | emptyClass
  /-- A range whose last member comes before its first. -/
  | invertedRange
  /-- The text ends inside a class, after a range or after a single member. -/
  | openClass (afterRange : Bool)
  /-- Every unit is a group: the pattern need not consume anything. -/
  | onlyEmpty
  /-- A fault stated in words. -/
  | stated (text : String)
  deriving DecidableEq

/-- The wording of a fault. -/
def Fault.describe : Fault → String
  | strayCloser closer false =>
      "found \"'" ++ String.singleton closer ++
        "'\" but expected one of \"'('\", \"'['\", end of input"
  | strayCloser closer true =>
      "found \"'" ++ String.singleton closer ++
        "'\" but expected one of \"'('\", \"')'\", \"'['\""
  | openGroup => "found end of input but expected one of \"'('\", \"')'\", \"'['\""
  | emptyClass => "found end of input"
  | invertedRange => "found end of input"
  | openClass false => "found end of input but expected one of \"'-'\", \"']'\""
  | openClass true => "found end of input but expected \"']'\""
  | onlyEmpty => "pattern can only match the empty string"
  | stated text => text

/-- A rejected text with the position of the problem, counted in characters. -/
structure Error where
  pattern : String
  position : Nat
  fault : Fault
  deriving DecidableEq

/-- The full sentence about a rejected pattern. -/
def Error.message (e : Error) : String :=
  "invalid pattern " ++ Text.quoted e.pattern ++ " at " ++ toString e.position ++ ": " ++
    e.fault.describe

end FrontEnd.Pattern
