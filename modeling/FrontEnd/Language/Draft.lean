import FrontEnd.Grammar.Arena
import FrontEnd.Language.Rule

/-!
# The grammar, drafted

The rules of the language are mutually recursive.  In an arena they are declared first, so that
their definitions can mention the handles of all of them.

## Main Definitions

* `Parser.refer` — an expression whose references have been replaced
* `Language.Tree` — what any rule of the language yields
* `Language.Rule.handle`, `Language.Rule.entry` — a rule as a handle of the draft, and what it is
  defined as
* `Language.draftGrammar` — declare all rules, define them, and build the grammar

## Design Notes

**One type of values.**  All rules of an arena yield the same type, here the sum of the trees of the
language.  A rule wraps its tree, and whoever refers to the rule unwraps it again.  A handle is only
ever given the entry of its own rule, so the default trees of `unwrap` stand for what cannot happen.
-/

namespace FrontEnd

/-- Replace every reference to a rule by an expression. -/
def Parser.refer {κ : Type} {ρ ρ' : Type → Type} (image : {α : Type} → ρ α → Parser κ ρ' [α] α) :
    {items : List Type} → {α : Type} → Parser κ ρ items α → Parser κ ρ' items α
  | _, _, token kind => token kind
  | _, _, ignore kind => ignore kind
  | _, _, finish => finish
  | _, _, seq p => seq (p.refer image)
  | _, _, map f p => map f (p.refer image)
  | _, _, tryMap f p => tryMap f (p.refer image)
  | _, _, and p q => and (p.refer image) (q.refer image)
  | _, _, skip p q => skip (p.refer image) (q.refer image)
  | _, _, or p q => or (p.refer image) (q.refer image)
  | _, _, many p => many (p.refer image)
  | _, _, optional p => optional (p.refer image)
  | _, _, separatedBy p separator => separatedBy (p.refer image) (separator.refer image)
  | _, _, rule reference => image reference

namespace Language

/-- What any rule of the language yields. -/
inductive Tree where
  | expression (tree : Expression)
  | term (tree : Term)
  | factor (tree : Factor)
  | body (tree : List Statement)
  | program (tree : Program)

namespace Rule

/-- The number of a rule in the order of declaration. -/
def slot : {α : Type} → Rule α → Nat
  | _, .expression => 0
  | _, .term => 1
  | _, .factor => 2
  | _, .body => 3
  | _, .program => 4

/-- The tree that a rule yields as one of all trees. -/
def wrap : {α : Type} → Rule α → α → Tree
  | _, .expression => .expression
  | _, .term => .term
  | _, .factor => .factor
  | _, .body => .body
  | _, .program => .program

/-- The tree that a rule has yielded. -/
def unwrap : {α : Type} → Rule α → Tree → α
  | _, .expression, .expression tree => tree
  | _, .expression, _ => (Factor.reference "").widen
  | _, .term, .term tree => tree
  | _, .term, _ => .factor (.reference "")
  | _, .factor, .factor tree => tree
  | _, .factor, _ => .reference ""
  | _, .body, .body tree => tree
  | _, .body, _ => []
  | _, .program, .program tree => tree
  | _, .program, _ => ⟨[]⟩

@[simp] theorem unwrap_wrap {α : Type} (rule : Rule α) (tree : α) :
    rule.unwrap (rule.wrap tree) = tree := by
  cases rule <;> rfl

/-- A rule, referred to by its handle. -/
def handle {α : Type} (rule : Rule α) : Parser Kind (Handle Tree) [α] α :=
  (Parser.rule (Handle.mk rule.slot)).map rule.unwrap

/-- What the handle of a rule is defined as. -/
def entry {α : Type} (rule : Rule α) : Definition Kind (Handle Tree) Tree :=
  ⟨(rule.definition.parser.refer handle).map rule.wrap⟩

end Rule

/-- Declare the rules of the language in a new draft, define them, and build the grammar. -/
def draftGrammar : Except GrammarError (Arena Kind Tree × Grammar Kind Tree) := do
  let declared := ruleNames.foldl (fun arena name => arena.declare 0 name) Arena.empty.begin
  let arena ← declared.define Rule.factor.slot Rule.factor.entry
  let arena ← arena.define Rule.term.slot Rule.term.entry
  let arena ← arena.define Rule.expression.slot Rule.expression.entry
  let arena ← arena.define Rule.body.slot Rule.body.entry
  let arena ← arena.define Rule.program.slot Rule.program.entry
  match arena.build 0 with
  | (arena, .ok ()) => .ok (arena, ⟨0, ⟨Parser.rule (Handle.mk Rule.program.slot)⟩⟩)
  | (_, .error e) => .error e

end Language

end FrontEnd
