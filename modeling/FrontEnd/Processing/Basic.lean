import FrontEnd.Language.Basic
import FrontEnd.Processing.Spec
import FrontEnd.RuleFile.Basic

/-!
# Processing sources

## Main Definitions

* `Processing.Error` — everything that can go wrong on the way to an output
* `Processing.printTokens` — the token listing of any scanner
* `Processing.processSource`, `Processing.processFile` — carry out a spec on a source or on a file

## Design Notes

The source is read before the format is looked at: a source that is no sequence of tokens, or no
program, is reported as such even if its result could not have been printed.
-/

namespace FrontEnd.Processing

open Text (Json)

/-- What can go wrong on the way to an output. -/
inductive Error where
  /-- The spec makes no sense. -/
  | spec (error : SpecError)
  /-- A file cannot be read. -/
  | io (text : String)
  /-- The output cannot be written down. -/
  | serialization (text : String)
  /-- The rule file cannot be used. -/
  | config (error : RuleFile.Error)
  /-- The source is at fault, or the language itself. -/
  | language (error : Language.Error)
  deriving DecidableEq

namespace Error

/-- The sentence about an error. -/
def message : Error → String
  | spec error => error.message
  | io text => "IO error: " ++ text
  | serialization text => "serialization error: " ++ text
  | config error => error.message
  | language error => error.message

/-- An error for the terminal, with an excerpt of the source if it points there. -/
def render (e : Error) (source file : String) : String :=
  match e with
  | language error => error.render source file
  | other => "error: " ++ other.message ++ "\n"

/-- A scanning error as an error of processing. -/
def ofScan (error : ScanError) : Error := .language (.scan error)

end Error

section Tokens

variable {κ : Type} [DecidableEq κ] [TokenKind κ]

/-- The name of a token's kind; a kind without a name is shown as a question mark. -/
def kindName (s : Scanner κ) (t : Token κ) : String := (s.nameOf t.kind).getD "?"

/-- A token on a line of its own: name, quoted text, place. -/
def tokenLine (s : Scanner κ) (t : Token κ) : String :=
  kindName s t ++ " " ++ Text.quoted t.text ++ " @ " ++ t.location.display ++ "\n"

/-- A token as a document. -/
def tokenRecord (s : Scanner κ) (t : Token κ) : Json :=
  .record
    [("kind", .text (kindName s t)), ("text", .text t.text), ("line", .number t.location.line),
     ("column", .number t.location.column)]

/-- The token listing of a source, the end token included. -/
def printTokens (s : Scanner κ) (source file : String) (format : Format) :
    Except Error String :=
  match s.tokenize source file with
  | .error e => .error (.ofScan e)
  | .ok stream =>
      match format with
      | .simple => .ok (String.join (stream.toList.map (tokenLine s)))
      | .json => .ok (Json.list (stream.toList.map (tokenRecord s))).pretty
      | .tree => .error (.spec Spec.treeNeedsAst)

end Tokens

/-- The output for a program. -/
def printProgram (program : Language.Program) : Format → Except Error String
  | .json => .ok program.toJson.pretty
  | .tree => .ok program.draw
  | .simple => .error (.spec Spec.simpleNeedsToken)

/-- Carry out a spec on a source. -/
def processSource (source file : String) (spec : Spec) : Except Error String :=
  match spec.stage with
  | .token =>
      match Language.scanner with
      | .error e => .error (.language (.rules e))
      | .ok s => printTokens s source file spec.format
  | .ast =>
      match Language.parseProgram source file with
      | .error e => .error (.language e)
      | .ok program => printProgram program spec.format

/-- Carry out a spec on a file. -/
def processFile (files : Files) (path : String) (spec : Spec) : Except Error String :=
  match files path with
  | .error e => .error (.io (path ++ ": " ++ e.message))
  | .ok source => processSource source path spec

end FrontEnd.Processing
