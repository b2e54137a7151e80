import FrontEnd.Grammar.Arena
import FrontEnd.Grammar.Unexpected
import FrontEnd.Language.Kind

/-!
# Errors of the language

## Main Definitions

* `Language.Error` — everything that can keep a source from becoming a program
* `Language.Error.message`, `Language.Error.render` — in one line, and shown in the source

## Design Notes

Errors of a source point into it and are shown with an excerpt.  Errors of the language's own rules
or grammar are not the fault of any source and are only stated.
-/

namespace FrontEnd.Language

/-- What can keep a source from becoming a program. -/
inductive Error where
  /-- The rules of the scanner cannot be registered. -/
  | rules (error : RuleError)
  /-- The grammar is not complete. -/
  | grammar (error : GrammarError)
  /-- The grammar cannot be run. -/
  | stuck (fault : Fault)
  /-- A piece of the source is no token. -/
  | scan (error : ScanError)
  /-- The tokens are no program. -/
  | parse (error : Unexpected Kind)
  deriving DecidableEq

namespace Error

/-- The sentence about the cause of an error. -/
def cause : Error → String
  | rules error => error.message
  | grammar error => error.message
  | stuck fault => fault.message
  | scan error => error.message
  | parse error => error.message

/-- The sentence about an error. -/
def message : Error → String
  | rules error => "invalid lexer rules: " ++ error.message
  | grammar error => "invalid grammar: " ++ error.message
  | stuck fault => "invalid grammar: " ++ fault.message
  | scan error => error.message
  | parse error => error.message

/-- The place in the source that an error points at. -/
def place : Error → Option Location
  | rules _ => none
  | grammar _ => none
  | stuck _ => none
  | scan error => some error.location
  | parse error => some error.token.location

/-- An error for a reader, with an excerpt of the source if it points there. -/
def render (e : Error) (source file : String) : String :=
  match e with
  | scan error => error.render source
  | parse error => error.render source file
  | other => "error: " ++ other.message ++ "\n"

end Error

end FrontEnd.Language
