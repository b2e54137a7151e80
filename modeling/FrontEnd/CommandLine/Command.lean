import FrontEnd.CommandLine.Argument

/-!
# Commands

What a command line asks for.

## Main Definitions

* `Command` — everything the program can be asked for
* `Command.ofArguments` — the command of a command line
* `UsageError.message`, `Topic.helpText` — what a user is told about command lines

## Design Notes

Arguments are taken from left to right.  The first one that settles the matter does so: a fault, or
a request for help or for the version.  Only at the end of the line a missing word is noticed.
-/

namespace FrontEnd

/-- What the program can be asked for. -/
inductive Command where
  /-- The tokens of a file, by the rules of the language or of a rule file. -/
  | tokens (path : String) (format : Format) (rules : Option String)
  /-- The syntax tree of a file. -/
  | parse (path : String) (format : Format)
  | listFormats
  | help (topic : Topic)
  | version
  deriving DecidableEq

/-- What the arguments so far have said. -/
structure Draft where
  topic : Topic
  path : Option String
  format : Option Format
  rules : Option String
  logLevel : Option String
  deriving DecidableEq

namespace Draft

/-- Nothing said yet about a topic. -/
def start (topic : Topic) : Draft := ⟨topic, none, none, none, none⟩

/-- Add a word: the path, unless there is one already or the topic has none. -/
def addWord (d : Draft) (word : String) : Except UsageError Draft :=
  if d.topic.takesPath && d.path.isNone then .ok { d with path := some word }
  else .error (.surplus word)

/-- Add the value of a switch, which may stand once. -/
def addSetting (d : Draft) (switch : Switch) (value : String) : Except UsageError Draft :=
  match switch with
  | .format =>
      if d.format.isSome then .error (.repeated switch)
      else
        match d.topic.formats.find? fun format => format.word = value with
        | some format => .ok { d with format := some format }
        | none => .error (.badValue switch value)
  | .rules =>
      if d.rules.isSome then .error (.repeated switch) else .ok { d with rules := some value }
  | .logLevel =>
      if d.logLevel.isSome then .error (.repeated switch)
      else .ok { d with logLevel := some value }
  | .help => .error (.strayValue switch)
  | .version => .error (.strayValue switch)

/-- The format, or else the default of the topic. -/
def chosenFormat (d : Draft) : Format := (d.format.or d.topic.formats.head?).getD .simple

/-- The command at the end of the line. -/
def finish (d : Draft) : Except UsageError Command :=
  match d.topic, d.path with
  | .program, _ => .error .noCommand
  | .listFormats, _ => .ok .listFormats
  | _, none => .error .missingPath
  | .tokens, some path => .ok (.tokens path d.chosenFormat d.rules)
  | .parse, some path => .ok (.parse path d.chosenFormat)

/-- The command that words after `help` ask for.  Help on help is help on the program, and no topic
has topics of its own. -/
def helpOn : List String → Except UsageError Command
  | [] => .ok (.help .program)
  | word :: rest =>
      match if word = "help" then some .program else Topic.ofWord? word, rest with
      | none, _ => .error (.unknownCommand word)
      | some topic, [] => .ok (.help topic)
      | some _, next :: _ => .error (.unknownCommand next)

/-- The command of the arguments that are still to come. -/
def settle (d : Draft) : List Argument → Except UsageError Command
  | [] => d.finish
  | .command topic :: rest => (start topic).settle rest
  | .word word :: rest =>
      match d.addWord word with
      | .ok d => d.settle rest
      | .error e => .error e
  | .setting switch value :: rest =>
      match d.addSetting switch value with
      | .ok d => d.settle rest
      | .error e => .error e
  | .flag .version :: _ => .ok .version
  | .flag _ :: _ => .ok (.help d.topic)
  | .helpOn words :: _ => helpOn words
  | .fault e :: _ => .error e

end Draft

namespace Command

/-- The command of a command line. -/
def ofArguments (arguments : List String) : Except UsageError Command :=
  (Draft.start .program).settle (Topic.program.arguments arguments)

/-- The paths of the files that a command reads. -/
def paths : Command → List String
  | tokens path _ rules => path :: rules.toList
  | parse path _ => [path]
  | listFormats => []
  | help _ => []
  | version => []

end Command

/-- The sentence about a command line that makes no sense. -/
def UsageError.message : UsageError → String
  | noCommand => "a subcommand is required"
  | unknownCommand word => "unrecognized subcommand '" ++ word ++ "'"
  | unknownSwitch text => "unexpected argument '" ++ text ++ "'"
  | missingValue switch => "a value is required for '--" ++ switch.long ++ "'"
  | strayValue switch => "unexpected value for '--" ++ switch.long ++ "'"
  | badValue switch text => "invalid value '" ++ text ++ "' for '--" ++ switch.long ++ "'"
  | repeated switch => "the argument '--" ++ switch.long ++ "' cannot be used multiple times"
  | missingPath => "the path of a file is required"
  | surplus word => "unexpected argument '" ++ word ++ "'"

/-- What a switch is for. -/
def Switch.purpose : Switch → String
  | format => "Output format"
  | rules => "YAML rule set to use instead of the built-in language"
  | logLevel => "Log verbosity (error, warn, info, debug, trace)"
  | help => "Print help"
  | version => "Print version"

/-- How a topic is called. -/
def Topic.usage : Topic → String
  | program => "langkit [OPTIONS] <COMMAND>"
  | tokens => "langkit tokens [OPTIONS] <path>"
  | parse => "langkit parse [OPTIONS] <path>"
  | listFormats => "langkit list-formats [OPTIONS]"

/-- What a topic is for. -/
def Topic.purpose : Topic → String
  | program => "Tokenize and parse sources of the langkit demo language"
  | tokens => "Print the token stream of a file"
  | parse => "Parse a file and print its syntax tree"
  | listFormats => "List available processing formats"

/-- The help on a topic. -/
def Topic.helpText (topic : Topic) : String :=
  let describe (switch : Switch) : String := "  --" ++ switch.long ++ "  " ++ switch.purpose ++ "\n"
  topic.purpose ++ "\n\nUsage: " ++ topic.usage ++ "\n\nOptions:\n" ++
    String.join (topic.switches.map describe)

end FrontEnd
