import FrontEnd.Source.Token

/-!
# Token streams and cursors

A parser reads tokens through a cursor that can go back.

## Main Definitions

* `TokenStream` — the tokens of one source, closed by a single end token
* `Cursor` — a position in a stream, and the furthest position ever advanced to
* `Cursor.advance`, `Cursor.restore` — one token forward, and back to a saved position

## Design Notes

**The end token is not stored.**  A stream holds the proper tokens, none of which has the end kind,
and the location of the end.  Reading at or behind the last position yields the end token, so there
is always a token under the cursor.

**The furthest mark only moves forward.**  Going back leaves it alone.  After a failed parse it
points at the token that no alternative could account for, or behind a token that was read before its
value was rejected.
-/

namespace FrontEnd

/-- The tokens of one source.  None of them has the end kind; the end token follows them. -/
structure TokenStream (κ : Type) [TokenKind κ] where
  tokens : Array (Token κ)
  finish : Location
  proper : ∀ t ∈ tokens, t.kind ≠ endKind

namespace TokenStream

variable {κ : Type} [TokenKind κ]

/-- The stream of the given tokens, without those of the end kind, closed at `finish`. -/
def ofTokens [DecidableEq κ] (tokens : List (Token κ)) (finish : Location) : TokenStream κ where
  tokens := (tokens.filter fun t => t.kind ≠ endKind).toArray
  finish := finish
  proper t mem := by simpa using (List.mem_filter.1 (List.mem_toArray.1 mem)).2

/-- The token that closes the stream: empty, and of length zero. -/
def endToken (s : TokenStream κ) : Token κ := ⟨endKind, "", s.finish.withLength 0⟩

/-- The number of tokens, the end token included. -/
def size (s : TokenStream κ) : Nat := s.tokens.size + 1

/-- The token at a position; the end token from the last position on. -/
def get (s : TokenStream κ) (position : Nat) : Token κ := s.tokens[position]?.getD s.endToken

/-- All tokens, the end token included. -/
def toList (s : TokenStream κ) : List (Token κ) := s.tokens.toList ++ [s.endToken]

/-- Whether the stream holds the end token only. -/
def isEmpty (s : TokenStream κ) : Bool := s.tokens.isEmpty

/-- The location of the end token. -/
def endLocation (s : TokenStream κ) : Location := s.endToken.location

@[simp] theorem length_toList (s : TokenStream κ) : s.toList.length = s.size := by
  simp [toList, size]

theorem size_pos (s : TokenStream κ) : 0 < s.size := Nat.succ_pos _

/-- In front of the end, the token at a position is one of the proper tokens. -/
theorem get_mem {s : TokenStream κ} {position : Nat} (inside : position + 1 < s.size) :
    s.get position ∈ s.tokens := by
  rw [get, Array.getElem?_eq_getElem (Nat.lt_of_succ_lt_succ inside), Option.getD_some]
  exact Array.getElem_mem _

/-- Only the last token of a stream has the end kind. -/
theorem kind_get_eq_end_iff (s : TokenStream κ) (position : Nat) :
    (s.get position).kind = endKind ↔ s.size ≤ position + 1 := by
  by_cases inside : position < s.tokens.size
  · have member : s.tokens[position] ∈ s.tokens := Array.getElem_mem inside
    simp only [get, size, Array.getElem?_eq_getElem inside, Option.getD_some]
    exact ⟨fun h => absurd h (s.proper _ member), fun h => by omega⟩
  · simp only [get, size, Array.getElem?_eq_none (Nat.le_of_not_lt inside), Option.getD_none,
      endToken, true_iff]
    omega

end TokenStream

/-- A position in a stream. -/
structure Cursor where
  /-- The position of the token under the cursor. -/
  position : Nat
  /-- The furthest position ever advanced to. -/
  furthest : Nat
  deriving DecidableEq

namespace Cursor

variable {κ : Type} [TokenKind κ]

/-- A fresh cursor, on the first token. -/
def start : Cursor := ⟨0, 0⟩

/-- The token under the cursor. -/
def peek (s : TokenStream κ) (c : Cursor) : Token κ := s.get c.position

/-- The token at the furthest position. -/
def furthestToken (s : TokenStream κ) (c : Cursor) : Token κ := s.get c.furthest

/-- Whether the cursor stands on the end token. -/
def atEnd [DecidableEq κ] (s : TokenStream κ) (c : Cursor) : Bool :=
  (c.peek s).kind = endKind

/-- Move past the token under the cursor; the end token is never passed. -/
def advance [DecidableEq κ] (s : TokenStream κ) (c : Cursor) : Cursor :=
  if c.atEnd s then c else ⟨c.position + 1, max c.furthest (c.position + 1)⟩

/-- Go to a position, at most to the end token. -/
def restore (s : TokenStream κ) (position : Nat) (c : Cursor) : Cursor :=
  { c with position := min position (s.size - 1) }

@[simp] theorem furthest_restore (s : TokenStream κ) (position : Nat) (c : Cursor) :
    (c.restore s position).furthest = c.furthest := rfl

/-- A position inside the stream is restored as it is. -/
theorem position_restore {s : TokenStream κ} {position : Nat} {c : Cursor}
    (h : position < s.size) : (c.restore s position).position = position := by
  simp only [restore]
  omega

/-- The cursor stands on the end token exactly at the last position or behind it. -/
theorem atEnd_iff [DecidableEq κ] {s : TokenStream κ} {c : Cursor} :
    c.atEnd s = true ↔ s.size ≤ c.position + 1 := by
  simp [atEnd, peek, s.kind_get_eq_end_iff]

end Cursor

end FrontEnd
