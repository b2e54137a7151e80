import FrontEnd.Pattern.Fault
import FrontEnd.Source.Excerpt

/-!
# Errors of a scanner

## Main Definitions

* `RuleError` — why a rule cannot be registered
* `ScanError` — a place in a source that no rule recognises

## Design Notes

A scanning error keeps the name of its source, because it may be shown long after the scanner has
moved on; a rule error needs the name of the rule only.
-/

namespace FrontEnd

/-- Why a rule cannot be registered. -/
inductive RuleError where
  /-- The rule's pattern is not one. -/
  | invalidPattern (rule : String) (error : Pattern.Error)
  /-- The rule claims the end kind. -/
  | reservedKind (rule : String)
  deriving DecidableEq

namespace RuleError

/-- The sentence about a rule that cannot be registered. -/
def message : RuleError → String
  | invalidPattern rule error => "rule " ++ rule ++ ": " ++ error.message
  | reservedKind rule => "rule " ++ rule ++ " uses the reserved END kind"

/-- The pattern error behind a rule error, if there is one. -/
def cause : RuleError → Option Pattern.Error
  | invalidPattern _ error => some error
  | reservedKind _ => none

end RuleError

/-- A place that no rule recognises: the text reaches from the start of the failed token to the
rejected character. -/
structure ScanError where
  file : String
  location : Location
  text : String
  deriving DecidableEq

namespace ScanError

/-- The sentence about a scanning error. -/
def message (e : ScanError) : String :=
  "couldn't recognise token " ++ Text.quoted e.text ++ " at " ++ sourceName e.file ++ ":" ++
    e.location.display

/-- A scanning error shown in its source. -/
def render (e : ScanError) (source : String) : String :=
  "error: couldn't recognise token:\n" ++ Excerpt.display source e.file e.location

end ScanError

end FrontEnd
