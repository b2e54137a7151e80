import FrontEnd.Grammar.Arena

/-!
# Parsers assembled at run time

A grammar that is only known while the program runs cannot give each of its rules a type of its own.
Its values all have one type, which records how they came about.

## Main Definitions

* `Value` — what an assembled parser yields
* `Check` — tests on values
* `Assembled` — a parser expression together with the view of its results as values
* `Assembled.and`, `Assembled.or`, … — one operation for each form of expression

## Design Notes

An assembled parser hides the types of the expression inside it and keeps two functions that show
its result, and its items, as values.  The operations build ordinary expressions and compose those
functions; nothing about running expressions is repeated here.
-/

namespace FrontEnd

/-- How a value was relabelled. -/
inductive Label where
  | map
  | into
  | node
  deriving DecidableEq

/-- A value that records how it came about. -/
inductive Value (κ : Type) where
  | token (t : Token κ)
  | ignored
  | tuple (values : List (Value κ))
  | many (values : List (Value κ))
  | separated (values : List (Value κ))
  | present (value : Value κ)
  | absent
  | labelled (label : Label) (tag : String) (value : Value κ)

namespace Value

variable {κ : Type}

mutual
/-- The tokens inside a value, from left to right. -/
def tokens : Value κ → List (Token κ)
  | token t => [t]
  | ignored => []
  | tuple values => tokensOf values
  | many values => tokensOf values
  | separated values => tokensOf values
  | present value => value.tokens
  | absent => []
  | labelled _ _ value => value.tokens

/-- The tokens inside several values, from left to right. -/
def tokensOf : List (Value κ) → List (Token κ)
  | [] => []
  | value :: rest => value.tokens ++ tokensOf rest
end

end Value

/-- A test on values, by the tokens inside them. -/
inductive Check where
  /-- Every value passes. -/
  | accept
  /-- No value passes. -/
  | reject
  /-- The first token has the given text. -/
  | text (wanted : String)
  /-- The first token stands at an even offset. -/
  | evenOffset
  /-- There are at most so many tokens. -/
  | countAtMost (limit : Nat)
  deriving DecidableEq

/-- Whether a value passes a test. -/
def Check.passes {κ : Type} (value : Value κ) : Check → Bool
  | accept => true
  | reject => false
  | text wanted => value.tokens.head?.any fun t => t.text = wanted
  | evenOffset => value.tokens.head?.any fun t => t.location.offset % 2 = 0
  | countAtMost limit => value.tokens.length ≤ limit

/-- Split the values of a sequence where two lists of items meet. -/
def Tuple.split : {first second : List Type} → Tuple (first ++ second) →
    Tuple first × Tuple second
  | [], _, t => ((), t)
  | _ :: _, _, (a, rest) =>
      let (left, right) := split rest
      ((a, left), right)

/-- A parser expression with the view of its results as values. -/
structure Assembled (κ : Type) where
  {items : List Type}
  {α : Type}
  parser : Parser κ (Handle (Value κ)) items α
  /-- The result as a value. -/
  value : α → Value κ
  /-- The items as values. -/
  parts : Tuple items → List (Value κ)

namespace Assembled

variable {κ : Type}

/-- A parser whose result is one item. -/
def single {α : Type} (parser : Parser κ (Handle (Value κ)) [α] α) (value : α → Value κ) :
    Assembled κ :=
  ⟨parser, value, fun t => [value t.1]⟩

/-- The expression that yields the result as a value. -/
def valued (p : Assembled κ) : Parser κ (Handle (Value κ)) [Value κ] (Value κ) :=
  .map p.value p.parser

/-- The parser as a definition of a rule. -/
def definition (p : Assembled κ) : Definition κ (Handle (Value κ)) (Value κ) := ⟨p.valued⟩

/-- One token of a kind. -/
def token (kind : κ) : Assembled κ := single (.token kind) .token

/-- One token of a kind, dropped. -/
def ignore (kind : κ) : Assembled κ := ⟨.ignore kind, fun _ => .ignored, fun _ => []⟩

/-- The end of the stream. -/
def finish : Assembled κ := ⟨.finish, fun _ => .tuple [], fun _ => []⟩

instance : Inhabited (Assembled κ) := ⟨finish⟩

/-- The items as one tuple. -/
def seq (p : Assembled κ) : Assembled κ := ⟨.seq p.parser, fun t => .tuple (p.parts t), p.parts⟩

/-- One parser after the other, with the items of both. -/
def and (p q : Assembled κ) : Assembled κ :=
  let parts (t : Tuple (p.items ++ q.items)) : List (Value κ) :=
    let (left, right) := t.split
    p.parts left ++ q.parts right
  ⟨.and p.parser q.parser, fun t => .tuple (parts t), parts⟩

/-- One parser after the other, with the result of the first. -/
def skip (p q : Assembled κ) : Assembled κ := ⟨.skip p.parser q.parser, p.value, p.parts⟩

/-- The first parser that matches. -/
def or (p q : Assembled κ) : Assembled κ := single (.or p.valued q.valued) id

/-- As many repetitions as there are. -/
def many (p : Assembled κ) : Assembled κ :=
  single (.many p.parser) fun values => .many (values.map p.value)

/-- One occurrence or none. -/
def optional (p : Assembled κ) : Assembled κ :=
  single (.optional p.parser) fun
    | some a => .present (p.value a)
    | none => .absent

/-- As many repetitions as there are, with separators in between. -/
def separatedBy (p separator : Assembled κ) : Assembled κ :=
  single (.separatedBy p.parser separator.parser) fun values =>
    .separated (values.map p.value)

/-- Relabel the result. -/
def labelled (label : Label) (tag : String) (p : Assembled κ) : Assembled κ :=
  single (.map (fun a => Value.labelled label tag (p.value a)) p.parser) id

/-- Reject results that fail a test. -/
def checked (check : Check) (p : Assembled κ) : Assembled κ :=
  single (.tryMap (fun v => if check.passes v then some v else none) p.valued) id

/-- A declared rule. -/
def rule (slot : Nat) : Assembled κ := single (.rule (.mk slot)) id

end Assembled

end FrontEnd
