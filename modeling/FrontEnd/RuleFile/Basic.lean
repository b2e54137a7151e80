import FrontEnd.Scanner.Basic
import FrontEnd.Source.File

/-!
# Rule files

The rules of a scanner, as a user writes them down: patterns to ignore, and named rules.

## Main Definitions

* `RuleFile` — the contents of a rule file
* `RuleFile.build` — the scanner with those rules
* `RuleFile.Error` — why a rule file cannot be used

## Design Notes

**Kinds are numbered by name.**  The first distinct name is kind `0`, the next one kind `1`, and so
on.  A name that appears again adds a further pattern to its kind.

**Ignored patterns come first.**  They are registered before all named rules and so win every tie.
-/

namespace FrontEnd

/-- A named rule of a rule file. -/
structure NamedRule where
  name : String
  pattern : String
  deriving DecidableEq

/-- The contents of a rule file. -/
structure RuleFile where
  ignore : List String
  rules : List NamedRule
  deriving DecidableEq

namespace RuleFile

/-- Why a rule file cannot be used. -/
inductive Error where
  /-- The file cannot be read. -/
  | io (text : String)
  /-- The text is not a rule file. -/
  | malformed (text : String)
  /-- A rule cannot be registered. -/
  | rule (error : RuleError)
  deriving DecidableEq

/-- The sentence about an unusable rule file. -/
def Error.message : Error → String
  | io text => "IO error: " ++ text
  | malformed text => "Invalid rules file: " ++ text
  | rule error => "Invalid rule: " ++ error.message

/-- Register ignored patterns in order. -/
def addIgnored (s : Scanner RuleId) : List String → Except RuleError (Scanner RuleId)
  | [] => .ok s
  | pattern :: rest =>
      match s.ignoreRule pattern with
      | .ok s' => addIgnored s' rest
      | .error e => .error e

/-- The names met so far, with a further one. -/
def noteName (known : List String) (name : String) : List String :=
  if name ∈ known then known else known ++ [name]

/-- The kind of a name: its place among the distinct names. -/
def kindOf (known : List String) (name : String) : RuleId :=
  ⟨UInt32.ofNat (known.idxOf name)⟩

/-- Register named rules in order, given the names met so far. -/
def addNamed (s : Scanner RuleId) (known : List String) :
    List NamedRule → Except RuleError (Scanner RuleId)
  | [] => .ok s
  | rule :: rest =>
      let known := noteName known rule.name
      match s.addRule (kindOf known rule.name) rule.name rule.pattern with
      | .ok s' => addNamed s' known rest
      | .error e => .error e

/-- The scanner with the rules of a file. -/
def build (file : RuleFile) : Except Error (Scanner RuleId) :=
  match addIgnored .empty file.ignore with
  | .error e => .error (.rule e)
  | .ok s =>
      match addNamed s [] file.rules with
      | .ok s' => .ok s'
      | .error e => .error (.rule e)

end RuleFile

end FrontEnd
