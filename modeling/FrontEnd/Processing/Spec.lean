/-!
# Processing specs

A spec says what to extract from a source, and how to print it.  It is written as a stage and a
format with a dash in between.

## Main Definitions

* `Stage`, `Format`, `Spec` — what, how, and both
* `Spec.read`, `Spec.write` — the notation of a spec
* `Spec.all` — every spec that makes sense

## Design Notes

Of the six pairs two make no sense: tokens have no tree, and a tree has no simple listing.  They can
be named but not read.
-/

namespace FrontEnd

/-- What to extract from a source. -/
inductive Stage where
  | token
  | ast
  deriving DecidableEq

/-- How to print what was extracted. -/
inductive Format where
  | simple
  | json
  | tree
  deriving DecidableEq

/-- A stage and a format. -/
structure Spec where
  stage : Stage
  format : Format
  deriving DecidableEq

/-- Why a text is no spec. -/
inductive SpecError where
  /-- There is no dash. -/
  | noDash (text : String)
  /-- The part before the dash is no stage. -/
  | badStage (text : String)
  /-- The part behind the dash is no format, or none for the stage. -/
  | badFormat (text : String)
  deriving DecidableEq

/-- The sentence about a text that is no spec. -/
def SpecError.message : SpecError → String
  | noDash text => "invalid format: " ++ text
  | badStage text => "invalid stage: " ++ text
  | badFormat text => "invalid format type: " ++ text

namespace Stage

/-- The word for a stage. -/
def word : Stage → String
  | token => "token"
  | ast => "ast"

/-- The stage that a word names. -/
def ofWord? (word : String) : Option Stage := [token, ast].find? fun stage => stage.word = word

/-- The stage as a description shows it. -/
def describe : Stage → String
  | token => "Token"
  | ast => "Ast"

end Stage

namespace Format

/-- The word for a format. -/
def word : Format → String
  | simple => "simple"
  | json => "json"
  | tree => "tree"

/-- The format that a word names. -/
def ofWord? (word : String) : Option Format :=
  [simple, json, tree].find? fun format => format.word = word

/-- The format as a description shows it. -/
def describe : Format → String
  | simple => "Simple"
  | json => "Json"
  | tree => "Tree"

end Format

namespace Spec

/-- The complaint about a tree of tokens. -/
def treeNeedsAst : SpecError := .badFormat "format 'tree' only works with the ast stage"

/-- The complaint about a simple listing of a tree. -/
def simpleNeedsToken : SpecError := .badFormat "format 'simple' only works with the token stage"

/-- Split a text at its first dash. -/
def splitDash : List Char → Option (List Char × List Char)
  | [] => none
  | c :: rest =>
      if c = '-' then some ([], rest)
      else (splitDash rest).map fun (before, behind) => (c :: before, behind)

/-- Check that stage and format go together. -/
def check : Spec → Except SpecError Spec
  | ⟨.token, .tree⟩ => .error treeNeedsAst
  | ⟨.ast, .simple⟩ => .error simpleNeedsToken
  | spec => .ok spec

/-- The spec that a text denotes. -/
def read (text : String) : Except SpecError Spec :=
  match splitDash text.toList with
  | none => .error (.noDash text)
  | some (before, behind) =>
      match Stage.ofWord? (String.ofList before) with
      | none => .error (.badStage (String.ofList before))
      | some stage =>
          match Format.ofWord? (String.ofList behind) with
          | none => .error (.badFormat (String.ofList behind))
          | some format => check ⟨stage, format⟩

/-- The notation of a spec. -/
def write (spec : Spec) : String := spec.stage.word ++ "-" ++ spec.format.word

/-- Every spec that makes sense. -/
def all : List Spec :=
  [⟨.token, .simple⟩, ⟨.token, .json⟩, ⟨.ast, .json⟩, ⟨.ast, .tree⟩]

/-- A spec described by its parts. -/
def describe (spec : Spec) : String :=
  "ProcessingSpec \x7b stage: " ++ spec.stage.describe ++ ", format: " ++ spec.format.describe ++
    " \x7d"

end Spec

end FrontEnd
