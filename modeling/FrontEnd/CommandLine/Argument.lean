import FrontEnd.Processing.Spec

/-!
# Command-line arguments

Arguments are words and switches.  Which switches there are depends on the subcommand, which is the
first word.

## Main Definitions

* `Topic` — the program itself and its subcommands
* `Switch` — everything that starts with a dash
* `UsageError` — why a command line makes no sense
* `Argument` — an argument, or a switch together with its value
* `Topic.arguments` — the arguments of a command line

## Design Notes

**A value may be attached.**  Behind a long switch it follows an equals sign, behind a short one an
equals sign or nothing.  Otherwise the next argument is the value, unless that is a switch.

**Two dashes end the switches.**  Everything behind them is a word.  A single dash is a word, too.

**The first fault ends the arguments.**  What stands before it still counts: a request for help is
answered even if nonsense follows.
-/

namespace FrontEnd

/-- The program itself and its subcommands. -/
inductive Topic where
  | program
  | tokens
  | parse
  | listFormats
  deriving DecidableEq

/-- Everything that starts with a dash. -/
inductive Switch where
  | format
  | rules
  | logLevel
  | help
  | version
  deriving DecidableEq

/-- Why a command line makes no sense. -/
inductive UsageError where
  | noCommand
  | unknownCommand (word : String)
  | unknownSwitch (text : String)
  | missingValue (switch : Switch)
  | strayValue (switch : Switch)
  | badValue (switch : Switch) (text : String)
  | repeated (switch : Switch)
  | missingPath
  | surplus (word : String)
  deriving DecidableEq

namespace Switch

/-- The long name of a switch. -/
def long : Switch → String
  | format => "format"
  | rules => "rules"
  | logLevel => "log-level"
  | help => "help"
  | version => "version"

/-- The short name of a switch. -/
def short : Switch → Option Char
  | format => some 'f'
  | rules => some 'r'
  | logLevel => none
  | help => some 'h'
  | version => some 'V'

/-- Whether a switch has a value. -/
def takesValue : Switch → Bool
  | format => true
  | rules => true
  | logLevel => true
  | help => false
  | version => false

end Switch

namespace Topic

/-- The subcommand that a word names. -/
def ofWord? (word : String) : Option Topic :=
  [("tokens", tokens), ("parse", parse), ("list-formats", listFormats)].lookup word

/-- The switches of a topic. -/
def switches : Topic → List Switch
  | program => [.logLevel, .help, .version]
  | tokens => [.format, .rules, .logLevel, .help]
  | parse => [.format, .logLevel, .help]
  | listFormats => [.logLevel, .help]

/-- The formats of a topic, the default first. -/
def formats : Topic → List Format
  | program => []
  | tokens => [.simple, .json]
  | parse => [.tree, .json]
  | listFormats => []

/-- Whether a topic works on a file. -/
def takesPath : Topic → Bool
  | program => false
  | tokens => true
  | parse => true
  | listFormats => false

end Topic

/-- An argument of a command line, or a switch together with its value. -/
inductive Argument where
  /-- The subcommand. -/
  | command (topic : Topic)
  /-- Any other word. -/
  | word (text : String)
  /-- A switch without a value. -/
  | flag (switch : Switch)
  /-- A switch with its value. -/
  | setting (switch : Switch) (value : String)
  /-- A question for help on the topic that the words name. -/
  | helpOn (words : List String)
  /-- What makes no sense. -/
  | fault (error : UsageError)
  deriving DecidableEq

/-- One argument looked at on its own. -/
inductive Shape where
  /-- Two dashes. -/
  | noMoreSwitches
  | word (text : String)
  /-- A switch without a value. -/
  | flag (switch : Switch)
  /-- A switch with its value attached. -/
  | attached (switch : Switch) (value : String)
  /-- A switch whose value is the next argument. -/
  | awaiting (switch : Switch)
  | fault (error : UsageError)
  deriving DecidableEq

namespace Shape

/-- The shape of a long switch with the text behind its name, which begins with the equals sign. -/
def ofLong (topic : Topic) (name : String) (behind : List Char) : Shape :=
  match topic.switches.find? fun switch => switch.long = name with
  | none => .fault (.unknownSwitch ("--" ++ name))
  | some switch =>
      match switch.takesValue, behind with
      | false, [] => .flag switch
      | false, _ => .fault (.strayValue switch)
      | true, [] => .awaiting switch
      | true, _ :: value => .attached switch (String.ofList value)

/-- The shape of a short switch with the text behind its letter. -/
def ofShort (topic : Topic) (letter : Char) (behind : List Char) : Shape :=
  match topic.switches.find? fun switch => switch.short = some letter with
  | none => .fault (.unknownSwitch (String.ofList ['-', letter]))
  | some switch =>
      match switch.takesValue, behind with
      | false, _ => .flag switch
      | true, [] => .awaiting switch
      | true, '=' :: value => .attached switch (String.ofList value)
      | true, value => .attached switch (String.ofList value)

/-- The shape of an argument. -/
def ofText (topic : Topic) (text : String) : Shape :=
  match text.toList with
  | ['-', '-'] => .noMoreSwitches
  | '-' :: '-' :: name =>
      ofLong topic (String.ofList (name.takeWhile (· ≠ '='))) (name.dropWhile (· ≠ '='))
  | '-' :: letter :: behind => ofShort topic letter behind
  | _ => .word text

end Shape

/-- Whether an argument starts with a dash and goes on. -/
def isDashed (text : String) : Bool :=
  match text.toList with
  | '-' :: _ :: _ => true
  | _ => false

/-- The arguments of a command line, from the first one of the given topic on. -/
def Topic.arguments (topic : Topic) : List String → List Argument
  | [] => []
  | text :: rest =>
      match Shape.ofText topic text with
      | .noMoreSwitches => rest.map .word
      | .word word =>
          if topic = .program then
            if word = "help" then [.helpOn rest]
            else
              match ofWord? word with
              | some command => .command command :: command.arguments rest
              | none => [.fault (.unknownCommand word)]
          else .word word :: topic.arguments rest
      | .flag switch => .flag switch :: topic.arguments rest
      | .attached switch value => .setting switch value :: topic.arguments rest
      | .awaiting switch =>
          match rest with
          | [] => [.fault (.missingValue switch)]
          | value :: rest =>
              if isDashed value then [.fault (.missingValue switch)]
              else .setting switch value :: topic.arguments rest
      | .fault error => [.fault error]

end FrontEnd
