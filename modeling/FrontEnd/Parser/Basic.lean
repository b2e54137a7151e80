import FrontEnd.Source.Token

/-!
# Parser expressions

A parser expression says how a run of tokens is to be read and what value it stands for.  It is
plain data; `FrontEnd.Parser.Run` says what it does.

## Main Definitions

* `Tuple` — the values of a sequence, one for each item
* `Ignored` — the value of a token that was read and dropped
* `Parser` — parser expressions

## Design Notes

**Two results.**  An expression of type `Parser κ ρ items α` yields a value of type `α`.  As a part
of a sequence it contributes the values of `items` instead: nothing if what it reads is dropped, one
value for an ordinary parser, several for a nested sequence.  A sequence is therefore flat however
its parts were grouped, while a parser that merely yields a tuple stays one item.

**Rules are references.**  A recursive grammar mentions rules before they have a definition, so an
expression only holds a reference `ρ α` to a rule that yields an `α`.  What a reference means is
decided when the expression runs.
-/

namespace FrontEnd

/-- One value for each of the listed types. -/
def Tuple : List Type → Type
  | [] => Unit
  | α :: rest => α × Tuple rest

namespace Tuple

/-- The tuple of one value. -/
def single {α : Type} (a : α) : Tuple [α] := (a, ())

/-- Put two tuples one after the other. -/
def append : {first second : List Type} → Tuple first → Tuple second → Tuple (first ++ second)
  | [], _, _, second => second
  | _ :: _, _, (a, rest), second => (a, append rest second)

end Tuple

/-- The value of a token that was read and dropped. -/
structure Ignored where
  deriving DecidableEq

/-- Parser expressions over tokens of kind `κ` that refer to rules by `ρ`. -/
inductive Parser (κ : Type) (ρ : Type → Type) : List Type → Type → Type 1 where
  /-- One token of a kind. -/
  | token (kind : κ) : Parser κ ρ [Token κ] (Token κ)
  /-- One token of a kind, dropped. -/
  | ignore (kind : κ) : Parser κ ρ [] Ignored
  /-- The end of the stream, which is not consumed. -/
  | finish : Parser κ ρ [] Unit
  /-- The items of a parser as one tuple. -/
  | seq {items : List Type} {α : Type} (p : Parser κ ρ items α) : Parser κ ρ items (Tuple items)
  /-- The value of a parser, transformed. -/
  | map {items : List Type} {α β : Type} (f : α → β) (p : Parser κ ρ items α) : Parser κ ρ [β] β
  /-- The value of a parser, transformed or rejected. -/
  | tryMap {items : List Type} {α β : Type} (f : α → Option β) (p : Parser κ ρ items α) :
      Parser κ ρ [β] β
  /-- One parser after the other: the items of both. -/
  | and {first second : List Type} {α β : Type} (p : Parser κ ρ first α)
      (q : Parser κ ρ second β) : Parser κ ρ (first ++ second) (Tuple (first ++ second))
  /-- One parser after the other: the result of the first. -/
  | skip {first second : List Type} {α β : Type} (p : Parser κ ρ first α)
      (q : Parser κ ρ second β) : Parser κ ρ first α
  /-- The first parser, or else the second one from the same position. -/
  | or {first second : List Type} {α : Type} (p : Parser κ ρ first α)
      (q : Parser κ ρ second α) : Parser κ ρ [α] α
  /-- As many repetitions as there are. -/
  | many {items : List Type} {α : Type} (p : Parser κ ρ items α) : Parser κ ρ [List α] (List α)
  /-- One occurrence or none. -/
  | optional {items : List Type} {α : Type} (p : Parser κ ρ items α) :
      Parser κ ρ [Option α] (Option α)
  /-- As many repetitions as there are, separated by what a second parser reads. -/
  | separatedBy {first second : List Type} {α β : Type} (p : Parser κ ρ first α)
      (separator : Parser κ ρ second β) : Parser κ ρ [List α] (List α)
  /-- A rule. -/
  | rule {α : Type} (reference : ρ α) : Parser κ ρ [α] α

end FrontEnd
