import FrontEnd.RuleFile.Basic
import FrontEnd.Yaml.Node

/-!
# Reading rule files

A rule file is a YAML document with two optional sections:

```text
ignore:
  - "[ \t\n]([ \t\n])"
rules:
  - name: WORD
    pattern: "[a-z]([a-z])"
```

## Main Definitions

* `RuleFile.Misfit` — why a document is no rule file
* `RuleFile.ofDocument` — the rule file that a document denotes
* `RuleFile.ofText`, `RuleFile.load` — read from a text, or from a file

## Design Notes

**Texts are kept as written.**  Every scalar is a text, also one that looks like a number or like
nothing at all.

**An empty plain scalar is an empty collection.**  A section without contents, and a document
without sections, are allowed.  Unknown keys are passed over; known ones may stand only once.

**Aliases are followed where contents are needed.**  A key is needed, its value only if the key is
known.  All nodes of a document share one bound on the number of aliases that may be followed.
-/

namespace FrontEnd.RuleFile

open Yaml (Node)

/-- Why a document is no rule file. -/
inductive Misfit where
  | notMapping
  | notSequence
  | notText
  | duplicate (key : String)
  | missing (key : String)
  | tooManyAliases
  deriving DecidableEq

/-- The wording of a misfit. -/
def Misfit.describe : Misfit → String
  | notMapping => "expected a mapping"
  | notSequence => "expected a sequence"
  | notText => "expected a string"
  | duplicate key => "duplicate field " ++ Text.quoted key
  | missing key => "missing field " ++ Text.quoted key
  | tooManyAliases => "repetition limit exceeded"

/-- Reading nodes of a document.  The state is how many aliases may still be followed. -/
abbrev Reading (α : Type) := StateT Nat (Except Misfit) α

section Nodes

variable (table : List (Nat × Node))

/-- The node itself, or the one that it stands for. -/
def follow (node : Node) : Reading Node := do
  if node.isReference then
    match ← get with
    | 0 => throw .tooManyAliases
    | left + 1 => set left
  return node.resolve table

/-- The text of a scalar. -/
def textOf (node : Node) : Reading String := do
  match ← follow table node with
  | .scalar text _ => return text
  | _ => throw .notText

/-- The items of a sequence. -/
def itemsOf (node : Node) : Reading (List Node) := do
  match ← follow table node with
  | .sequence items => return items
  | .scalar "" true => return []
  | _ => throw .notSequence

/-- The pairs of a mapping whose keys are texts. -/
def fieldsOf (node : Node) : Reading (List (String × Node)) := do
  match ← follow table node with
  | .mapping entries => entries.mapM fun (key, value) => return (← textOf table key, value)
  | .scalar "" true => return []
  | _ => throw .notMapping

/-- The value of a key that stands at most once. -/
def field? (fields : List (String × Node)) (key : String) : Except Misfit (Option Node) :=
  match fields.filter fun field => field.1 = key with
  | [] => .ok none
  | [field] => .ok (some field.2)
  | _ => .error (.duplicate key)

/-- The value of a key that stands exactly once. -/
def field (fields : List (String × Node)) (key : String) : Except Misfit Node :=
  match field? fields key with
  | .ok (some value) => .ok value
  | .ok none => .error (.missing key)
  | .error e => .error e

/-- The items of a section.  There are none if the section is missing. -/
def sectionOf (fields : List (String × Node)) (key : String) : Reading (List Node) := do
  match ← field? fields key with
  | some value => itemsOf table value
  | none => return []

/-- The named rule that a node denotes. -/
def ruleOf (node : Node) : Reading NamedRule := do
  let fields ← fieldsOf table node
  let name ← field fields "name"
  let pattern ← field fields "pattern"
  return ⟨← textOf table name, ← textOf table pattern⟩

/-- The rule file that a tree denotes. -/
def ofNode (node : Node) : Reading RuleFile := do
  let fields ← fieldsOf table node
  let ignore ← sectionOf table fields "ignore"
  let rules ← sectionOf table fields "rules"
  return ⟨← ignore.mapM (textOf table), ← rules.mapM (ruleOf table)⟩

end Nodes

/-- The rule file that a document denotes. -/
def ofDocument (document : Yaml.Document) : Except Misfit RuleFile :=
  (ofNode document.table document.root).run' document.maxSteps

/-- The rule file that a text denotes. -/
def ofText (text : String) : Except Error RuleFile :=
  match Yaml.document text with
  | .error fault => .error (.malformed fault.describe)
  | .ok document =>
      match ofDocument (document.getD (.ofRoot .empty)) with
      | .error misfit => .error (.malformed misfit.describe)
      | .ok file => .ok file

/-- The rule file under a path. -/
def load (files : Files) (path : String) : Except Error RuleFile :=
  match files path with
  | .error e => .error (.io e.message)
  | .ok text => ofText text

end FrontEnd.RuleFile
