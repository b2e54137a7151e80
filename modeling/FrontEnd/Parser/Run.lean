import FrontEnd.Parser.Basic
import FrontEnd.Source.TokenStream

/-!
# Running parser expressions

## Main Definitions

* `Fault` — why a run cannot be completed
* `Outcome` — what a run yields: a value or no match, with the cursor behind it, or a fault
* `Runner` — a run from any cursor, and the operations on runs
* `Parser.meaning` — what an expression does, as a parser on its own and as part of a sequence
* `Rules`, `Rules.call` — definitions of rules, and running a rule to a bounded depth
* `Rules.run` — run an expression

## Design Notes

**No match means no move.**  A run that does not match leaves the cursor where it found it; only the
furthest mark remembers what was tried.  Alternatives can thus always be tried from the same place.

**Repetition ends.**  A repetition stops at the first item that does not match, and right behind an
item that consumed nothing, which is kept.  Every other item consumes a token, so no repetition has
more items than there are positions left; the loops count down from that number.

**Depth.**  A rule may call itself.  Between two nested calls of the same rule a token has to be
consumed, so a call never nests deeper than the number of rules for each position of the stream.  A
run that goes deeper will never come back and is a fault.
-/

namespace FrontEnd

/-- Why a run cannot be completed. -/
inductive Fault where
  /-- A rule was entered that has no definition. -/
  | undefined (name : String)
  /-- A rule was entered whose grammar is gone. -/
  | detached
  /-- Rules call one another without consuming anything. -/
  | unbounded
  deriving DecidableEq

/-- The wording of a fault. -/
def Fault.message : Fault → String
  | undefined name => "lazy rule `" ++ name ++ "` used before it was defined"
  | detached => "lazy rule used after its grammar was dropped"
  | unbounded => "rules call one another without end"

/-- The outcome of a run: a value or no match, each with the cursor behind it, or a fault. -/
abbrev Outcome (α : Type) := Except Fault (Option α × Cursor)

/-- A run from any cursor. -/
abbrev Runner (α : Type) := Cursor → Outcome α

namespace Runner

variable {κ : Type} [DecidableEq κ] [TokenKind κ] {α β : Type}

/-- Transform the value of a run. -/
def map (f : α → β) (r : Runner α) : Runner β := fun c =>
  match r c with
  | .error e => .error e
  | .ok (value, c') => .ok (value.map f, c')

/-- Transform the value of a run, or reject it. -/
def filterMap (f : α → Option β) (r : Runner α) : Runner β := fun c =>
  match r c with
  | .error e => .error e
  | .ok (value, c') => .ok (value.bind f, c')

/-- Run one after the other; both have to match. -/
def pair (r : Runner α) (q : Runner β) : Runner (α × β) := fun c =>
  match r c with
  | .error e => .error e
  | .ok (none, c') => .ok (none, c')
  | .ok (some a, c') => q.map (fun b => (a, b)) c'

/-- Go back to the start if there is no match. -/
def attempt (s : TokenStream κ) (r : Runner α) : Runner α := fun c =>
  match r c with
  | .error e => .error e
  | .ok (some a, c') => .ok (some a, c')
  | .ok (none, c') => .ok (none, c'.restore s c.position)

/-- One token of a kind; the end token is never read. -/
def token (s : TokenStream κ) (kind : κ) : Runner (Token κ) := fun c =>
  let t := c.peek s
  if kind = endKind ∨ t.kind ≠ kind then .ok (none, c) else .ok (some t, c.advance s)

/-- The end of the stream. -/
def finish (s : TokenStream κ) : Runner Unit := fun c =>
  .ok (if c.atEnd s then some () else none, c)

/-- The first run that matches. -/
def orElse (s : TokenStream κ) (r q : Runner α) : Runner α := fun c =>
  match r.attempt s c with
  | .error e => .error e
  | .ok (some a, c') => .ok (some a, c')
  | .ok (none, c') => q.attempt s c'

/-- A run that may fail to match; the result says whether it did. -/
def optional (s : TokenStream κ) (r : Runner α) : Runner (Option α) := fun c =>
  match r.attempt s c with
  | .error e => .error e
  | .ok (value, c') => .ok (some value, c')

/-- Repeat a run at most the given number of times. -/
def repeatUpTo (s : TokenStream κ) (r : Runner α) : Nat → Runner (List α)
  | 0, c => .ok (some [], c)
  | rounds + 1, c =>
      match r.attempt s c with
      | .error e => .error e
      | .ok (none, c') => .ok (some [], c')
      | .ok (some a, c') =>
          if c'.position = c.position then .ok (some [a], c')
          else (repeatUpTo s r rounds).map (a :: ·) c'

/-- Repeat a run as long as it matches and moves on. -/
def many (s : TokenStream κ) (r : Runner α) : Runner (List α) := fun c =>
  r.repeatUpTo s (s.size - c.position) c

/-- Repeat a run with separators in between; a separator without an item behind it is not
consumed. -/
def separatedBy (s : TokenStream κ) (r : Runner α) (separator : Runner β) : Runner (List α) :=
  fun c =>
    match r.attempt s c with
    | .error e => .error e
    | .ok (none, c') => .ok (some [], c')
    | .ok (some a, c') => (many s ((separator.pair r).map Prod.snd)).map (a :: ·) c'

end Runner

/-- What an expression does: on its own, and as part of a sequence. -/
structure Meaning (items : List Type) (α : Type) where
  /-- Run for the value. -/
  value : Runner α
  /-- Run for the items. -/
  parts : Runner (Tuple items)

/-- A run whose value is a single item. -/
def Meaning.single {α : Type} (r : Runner α) : Meaning [α] α := ⟨r, r.map Tuple.single⟩

namespace Parser

variable {κ : Type} [DecidableEq κ] [TokenKind κ] {ρ : Type → Type}

/-- What an expression does on a stream, when rules are run by `call`. -/
def meaning (s : TokenStream κ) (call : {α : Type} → ρ α → Runner α) :
    {items : List Type} → {α : Type} → Parser κ ρ items α → Meaning items α
  | _, _, token kind => .single (Runner.token s kind)
  | _, _, ignore kind =>
      ⟨(Runner.token s kind).map fun _ => ⟨⟩, (Runner.token s kind).map fun _ => ()⟩
  | _, _, finish => ⟨Runner.finish s, Runner.finish s⟩
  | _, _, seq p =>
      let run := p.meaning s call
      ⟨run.parts, run.parts⟩
  | _, _, map f p => .single ((p.meaning s call).value.map f)
  | _, _, tryMap f p => .single (((p.meaning s call).value.filterMap f).attempt s)
  | _, _, and p q =>
      let both := (p.meaning s call).parts.pair (q.meaning s call).parts
      let run := (both.map fun (a, b) => a.append b).attempt s
      ⟨run, run⟩
  | _, _, skip p q =>
      let first := p.meaning s call
      let second := (q.meaning s call).value
      ⟨((first.value.pair second).map Prod.fst).attempt s,
        ((first.parts.pair second).map Prod.fst).attempt s⟩
  | _, _, or p q => .single ((p.meaning s call).value.orElse s (q.meaning s call).value)
  | _, _, many p => .single ((p.meaning s call).value.many s)
  | _, _, optional p => .single ((p.meaning s call).value.optional s)
  | _, _, separatedBy p separator =>
      .single ((p.meaning s call).value.separatedBy s (separator.meaning s call).value)
  | _, _, rule reference => .single (call reference)

end Parser

/-- A definition of a rule that yields an `α`. -/
structure Definition (κ : Type) (ρ : Type → Type) (α : Type) where
  {items : List Type}
  parser : Parser κ ρ items α

/-- What each reference stands for, or why it cannot be entered, and how many rules there are. -/
structure Rules (κ : Type) (ρ : Type → Type) where
  count : Nat
  lookup : {α : Type} → ρ α → Except Fault (Definition κ ρ α)

namespace Rules

variable {κ : Type} [DecidableEq κ] [TokenKind κ] {ρ : Type → Type}

/-- Run a rule, entering rules at most to the given depth. -/
def call (rules : Rules κ ρ) (s : TokenStream κ) : Nat → {α : Type} → ρ α → Runner α
  | 0, _, _, _ => .error .unbounded
  | depth + 1, _, reference, c =>
      match rules.lookup reference with
      | .error e => .error e
      | .ok definition => (definition.parser.meaning s (rules.call s depth)).value c

/-- A rule does, one level deeper, what its definition does. -/
theorem call_succ {rules : Rules κ ρ} {s : TokenStream κ} {α : Type} {reference : ρ α}
    {definition : Definition κ ρ α} (found : rules.lookup reference = .ok definition)
    (depth : Nat) :
    rules.call s (depth + 1) reference =
      (definition.parser.meaning s (rules.call s depth)).value := by
  funext c
  rw [call, found]

/-- A depth that no run reaches which consumes a token between nested calls of the same rule. -/
def depth (rules : Rules κ ρ) (s : TokenStream κ) : Nat := (rules.count + 1) * (s.size + 1)

/-- What an expression does on a stream. -/
def meaning (rules : Rules κ ρ) (s : TokenStream κ) {items : List Type} {α : Type}
    (p : Parser κ ρ items α) : Meaning items α :=
  p.meaning s (rules.call s (rules.depth s))

/-- Run an expression for its value. -/
def run (rules : Rules κ ρ) (s : TokenStream κ) {items : List Type} {α : Type}
    (p : Parser κ ρ items α) : Runner α :=
  (rules.meaning s p).value

end Rules

end FrontEnd
