import FrontEnd.Parser.Run
import FrontEnd.Source.Excerpt
import FrontEnd.Text.Quoted

/-!
# Parsing a whole stream

## Main Definitions

* `Unexpected` — the token at which a parse gave up
* `Rules.parse` — read the front of a stream
* `Rules.parseAll` — read a stream to its end

## Design Notes

A parse that fails, or that stops before the end, is blamed on the furthest token that any
alternative reached: usually the first one that the grammar cannot account for.
-/

namespace FrontEnd

/-- The token at which a parse gave up. -/
structure Unexpected (κ : Type) where
  token : Token κ
  deriving DecidableEq

namespace Unexpected

variable {κ : Type} [DecidableEq κ] [TokenKind κ]

/-- Whether the parse gave up at the end of the stream. -/
def atEnd (e : Unexpected κ) : Bool := e.token.kind = endKind

/-- What was not expected. -/
def headline (e : Unexpected κ) : String :=
  if e.atEnd then "unexpected end of input"
  else "unexpected " ++ TokenKind.describe e.token.kind ++ " " ++ Text.quoted e.token.text

/-- The sentence about a token that was not expected. -/
def message (e : Unexpected κ) : String := e.headline ++ " at " ++ e.token.location.display

/-- The unexpected token shown in its source. -/
def render (e : Unexpected κ) (source file : String) : String :=
  "error: " ++ e.headline ++ ":\n" ++ Excerpt.display source file e.token.location

end Unexpected

namespace Rules

variable {κ : Type} [DecidableEq κ] [TokenKind κ] {ρ : Type → Type} {items : List Type} {α : Type}

/-- Read the front of a stream. -/
def parse (rules : Rules κ ρ) (top : Parser κ ρ items α) (s : TokenStream κ) :
    Except Fault (Option α) :=
  match rules.run s top .start with
  | .error e => .error e
  | .ok (value, _) => .ok value

/-- Read a stream to its end. -/
def parseAll (rules : Rules κ ρ) (top : Parser κ ρ items α) (s : TokenStream κ) :
    Except Fault (Except (Unexpected κ) α) :=
  match rules.run s top .start with
  | .error e => .error e
  | .ok (some a, c) => .ok (if c.atEnd s then .ok a else .error ⟨c.furthestToken s⟩)
  | .ok (none, c) => .ok (.error ⟨c.furthestToken s⟩)

end Rules

end FrontEnd
