import FrontEnd.Source.Location

/-!
# Tokens

## Main Definitions

* `TokenKind` — what a type of token kinds has to offer
* `Token` — a kind, the matched text and its location
* `RuleId` — kinds that are numbers

## Design Notes

One kind is set aside: the end kind marks the place behind the last token of a source.  No rule of a
scanner may produce it.
-/

namespace FrontEnd

/-- A type of token kinds: one kind marks the end of the source, and every kind has a text by which
messages refer to it. -/
class TokenKind (κ : Type) where
  /-- The kind that marks the end of the source. -/
  endKind : κ
  /-- The text by which messages refer to a kind. -/
  describe : κ → String

export TokenKind (endKind)

/-- A token: its kind, the text it covers and where that text stands. -/
structure Token (κ : Type) where
  kind : κ
  text : String
  location : Location
  deriving DecidableEq

/-- A kind that is a number: the index of a configured rule.  The largest number marks the end. -/
structure RuleId where
  index : UInt32
  deriving DecidableEq

instance : TokenKind RuleId where
  endKind := ⟨0xffffffff⟩
  describe kind := "RuleId(" ++ toString kind.index.toNat ++ ")"

end FrontEnd
