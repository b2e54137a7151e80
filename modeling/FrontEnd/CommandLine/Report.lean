import FrontEnd.CommandLine.Command
import FrontEnd.Processing.Basic
import FrontEnd.RuleFile.Read

/-!
# Carrying out commands

## Main Definitions

* `Report` — exit code and both outputs
* `Command.run` — the outcome of a command, given the files
* `runCommandLine` — the outcome of a command line

## Design Notes

**The source is read first.**  If neither the source nor the rule file can be read, the source is
reported.

**Exit codes.**  Zero is success, one a file or a source at fault, two a command line that makes no
sense.
-/

namespace FrontEnd

/-- What a run leaves behind. -/
structure Report where
  code : Nat
  stdout : String
  stderr : String
  deriving DecidableEq

namespace Report

/-- Success with an output. -/
def success (output : String) : Report := ⟨0, output, ""⟩

/-- Failure with a complaint. -/
def failure (complaint : String) : Report := ⟨1, "", complaint⟩

/-- A command line that makes no sense. -/
def misuse (error : UsageError) : Report :=
  ⟨2, "", "error: " ++ error.message ++ "\n\nUsage: " ++ Topic.program.usage ++ "\n"⟩

end Report

/-- The text with a line end, unless it has one already. -/
def closeLine (text : String) : String :=
  if text.toList.getLast? = some '\n' then text else text ++ "\n"

/-- The tokens of a source by the rules of a rule file. -/
def tokensByFile (files : Files) (rules source path : String) (format : Format) :
    Except Processing.Error String :=
  match RuleFile.load files rules with
  | .error e => .error (.config e)
  | .ok file =>
      match file.build with
      | .error e => .error (.config e)
      | .ok scanner => Processing.printTokens scanner source path format

/-- The outcome of working on the file under a path. -/
def onFile (files : Files) (path : String)
    (work : String → Except Processing.Error String) : Report :=
  match files path with
  | .error e => .failure ("Error reading file " ++ path ++ ": " ++ e.message ++ "\n")
  | .ok source =>
      match work source with
      | .ok output => .success output
      | .error e => .failure (e.render source path)

/-- The list of formats, as it is printed. -/
def formatList : String :=
  "Available processing formats:\n\n" ++
    String.join (Spec.all.map fun spec => "  " ++ spec.write ++ "\n")

/-- The outcome of a command, given the files. -/
def Command.run (files : Files) : Command → Report
  | tokens path format none =>
      onFile files path fun source => Processing.processSource source path ⟨.token, format⟩
  | tokens path format (some rules) =>
      onFile files path fun source => tokensByFile files rules source path format
  | parse path format =>
      onFile files path fun source =>
        (Processing.processSource source path ⟨.ast, format⟩).map closeLine
  | listFormats => .success formatList
  | help topic => .success topic.helpText
  | version => .success "langkit 0.1.0\n"

/-- The outcome of a command line. -/
def runCommandLine (files : Files) (arguments : List String) : Report :=
  match Command.ofArguments arguments with
  | .ok command => command.run files
  | .error e => .misuse e

end FrontEnd
