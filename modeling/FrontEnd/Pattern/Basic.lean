/-!
# Patterns

A pattern describes the words of one scanner rule.  It is a sequence of units: a character, a class
of characters between brackets, or a group between parentheses whose contents loop.

## Main Definitions

* `ClassItem` — one entry of a class: a character, or an inclusive range of characters
* `Pattern` — a sequence of units
* `Pattern.write` — the notation of a pattern
* `Pattern.onlyLoops` — no unit of the sequence has to consume a character

## Design Notes

`Pattern` is the sequence itself, with the first unit outermost: `char c rest` is the unit `c`
followed by `rest`.  A group nests a whole pattern, so every function on patterns is a plain
structural recursion with no list of subtrees in between.
-/

namespace FrontEnd

/-- One entry of a character class. -/
inductive ClassItem where
  /-- The character alone. -/
  | single (c : Char)
  /-- Every character from `first` to `last`, both included. -/
  | range (first last : Char)
  deriving DecidableEq

namespace ClassItem

/-- The notation of an entry. -/
def write : ClassItem → List Char
  | single c => [c]
  | range first last => [first, '-', last]

@[simp] theorem write_single (c : Char) : (single c).write = [c] := rfl

@[simp] theorem write_range (first last : Char) :
    (range first last).write = [first, '-', last] := rfl

end ClassItem

/-- A sequence of units, the first one outermost. -/
inductive Pattern where
  /-- The empty sequence. -/
  | done
  /-- The character `c`, then `rest`. -/
  | char (c : Char) (rest : Pattern)
  /-- One character of a class, then `rest`. -/
  | oneOf (items : List ClassItem) (rest : Pattern)
  /-- A group whose `body` loops, then `rest`. -/
  | loop (body rest : Pattern)
  deriving DecidableEq

namespace Pattern

/-- Sequence one pattern after another. -/
protected def append : Pattern → Pattern → Pattern
  | done, q => q
  | char c rest, q => char c (rest.append q)
  | oneOf items rest, q => oneOf items (rest.append q)
  | loop body rest, q => loop body (rest.append q)

instance : Append Pattern := ⟨Pattern.append⟩

@[simp] theorem done_append (q : Pattern) : done ++ q = q := rfl

@[simp] theorem char_append (c : Char) (p q : Pattern) : char c p ++ q = char c (p ++ q) := rfl

@[simp] theorem oneOf_append (items : List ClassItem) (p q : Pattern) :
    oneOf items p ++ q = oneOf items (p ++ q) := rfl

@[simp] theorem loop_append (body p q : Pattern) : loop body p ++ q = loop body (p ++ q) := rfl

@[simp] theorem append_done (p : Pattern) : p ++ done = p := by
  induction p with
  | done => rfl
  | char c rest ih => rw [char_append, ih]
  | oneOf items rest ih => rw [oneOf_append, ih]
  | loop body rest _ ih => rw [loop_append, ih]

theorem append_assoc (p q r : Pattern) : p ++ q ++ r = p ++ (q ++ r) := by
  induction p with
  | done => rfl
  | char c rest ih => rw [char_append, char_append, char_append, ih]
  | oneOf items rest ih => rw [oneOf_append, oneOf_append, oneOf_append, ih]
  | loop body rest _ ih => rw [loop_append, loop_append, loop_append, ih]

/-- The notation of a pattern: a class stands between brackets, a group between parentheses. -/
def write : Pattern → List Char
  | done => []
  | char c rest => c :: rest.write
  | oneOf items rest => '[' :: items.flatMap ClassItem.write ++ ']' :: rest.write
  | loop body rest => '(' :: body.write ++ ')' :: rest.write

@[simp] theorem write_done : done.write = [] := rfl

/-- Writing a sequence writes its parts one after the other. -/
@[simp] theorem write_append (p q : Pattern) : (p ++ q).write = p.write ++ q.write := by
  induction p with
  | done => rfl
  | char c rest ih => simp [write, ih]
  | oneOf items rest ih => simp [write, ih]
  | loop body rest _ ih => simp [write, ih]

/-- Every unit at the top of the sequence is a group, so that nothing has to be consumed. -/
def onlyLoops : Pattern → Bool
  | done => true
  | char _ _ => false
  | oneOf _ _ => false
  | loop _ rest => rest.onlyLoops

end Pattern

end FrontEnd
