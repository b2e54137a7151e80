import FrontEnd.Automaton.Ascending
import FrontEnd.Automaton.CharRange
import FrontEnd.Automaton.Dfa
import FrontEnd.Automaton.Nfa
import FrontEnd.Automaton.Numbering
import FrontEnd.CommandLine.Argument
import FrontEnd.CommandLine.Command
import FrontEnd.CommandLine.Report
import FrontEnd.Grammar.Arena
import FrontEnd.Grammar.Unexpected
import FrontEnd.Language.Basic
import FrontEnd.Language.Error
import FrontEnd.Language.Kind
import FrontEnd.Language.Outline
import FrontEnd.Language.Program
import FrontEnd.Language.Rule
import FrontEnd.Main
import FrontEnd.Parser.Assembled
import FrontEnd.Parser.Basic
import FrontEnd.Parser.Run
import FrontEnd.Pattern.Basic
import FrontEnd.Pattern.Fault
import FrontEnd.Pattern.Reader
import FrontEnd.Processing.Basic
import FrontEnd.Processing.Spec
import FrontEnd.Proofs.Automaton.Isolation
import FrontEnd.Proofs.Automaton.Pieces
import FrontEnd.Proofs.Automaton.SubsetConstruction
import FrontEnd.Proofs.Automaton.Words
import FrontEnd.Proofs.Language.Completeness
import FrontEnd.Proofs.Language.Grammar
import FrontEnd.Proofs.Language.Soundness
import FrontEnd.Proofs.Language.Unparse
import FrontEnd.Proofs.Parser.Backtracking
import FrontEnd.Proofs.Parser.Execution
import FrontEnd.Proofs.Parser.Recording
import FrontEnd.Proofs.Parser.Spelling
import FrontEnd.Proofs.Scanner.LongestMatch
import FrontEnd.Proofs.Scanner.MaximalMunch
import FrontEnd.Proofs.Scanner.Priority
import FrontEnd.Proofs.Scanner.Registered
import FrontEnd.RuleFile.Basic
import FrontEnd.RuleFile.Read
import FrontEnd.Scanner.Basic
import FrontEnd.Scanner.Error
import FrontEnd.Scanner.Munch
import FrontEnd.Source.Excerpt
import FrontEnd.Source.File
import FrontEnd.Source.Location
import FrontEnd.Source.Token
import FrontEnd.Source.TokenStream
import FrontEnd.Text.Json
import FrontEnd.Text.Lines
import FrontEnd.Text.Number
import FrontEnd.Text.Printable
import FrontEnd.Text.Quoted
import FrontEnd.Yaml.Block
import FrontEnd.Yaml.Node
import FrontEnd.Yaml.Place
import FrontEnd.Yaml.Property
import FrontEnd.Yaml.Scalar
import FrontEnd.Yaml.Token
import FrontEnd.Proofs.Parser.Lookahead
import FrontEnd.Proofs.Parser.Depth
import FrontEnd.Proofs.Grammar.Blame
import FrontEnd.Proofs.Parser.Notation
import FrontEnd.Proofs.Parser.Exploration
import FrontEnd.Proofs.Language.Viability
import FrontEnd.Proofs.Scanner.Places
import FrontEnd.Proofs.Scanner.History
import FrontEnd.Proofs.Scanner.Names
import FrontEnd.Grammar.Operation
import FrontEnd.Proofs.Parser.Reach
import FrontEnd.Proofs.Grammar.Lifecycle
import FrontEnd.Proofs.Grammar.History
import FrontEnd.Proofs.Parser.Termination
import FrontEnd.Language.Draft
import FrontEnd.Proofs.Language.Termination
import FrontEnd.Proofs.Automaton.Alphabet
import FrontEnd.Proofs.Language.Lexicon
import FrontEnd.Proofs.Language.Denotation
import FrontEnd.Proofs.Language.Concatenation
import FrontEnd.Proofs.Pattern.Notation
import FrontEnd.Proofs.Pattern.Grammar
import FrontEnd.Proofs.Pattern.LoopForm
import FrontEnd.Proofs.Automaton.Determinization
import FrontEnd.Proofs.Automaton.Detours
import FrontEnd.Proofs.Automaton.Looping
import FrontEnd.Proofs.Automaton.Registration
import FrontEnd.Proofs.Automaton.Repetition
import FrontEnd.Proofs.Parser.Repetition
import FrontEnd.Proofs.Parser.Flattening
import FrontEnd.Proofs.Automaton.Trim
import FrontEnd.Proofs.Scanner.DeadEnd
import FrontEnd.Proofs.Parser.Rejection
import FrontEnd.Proofs.Language.Oversized
import FrontEnd.Proofs.Source.Segment
import FrontEnd.Proofs.Scanner.Underline
import FrontEnd.Proofs.Pattern.Viability
import FrontEnd.Proofs.RuleFile.Numbering
import FrontEnd.Proofs.Pattern.Shape
import FrontEnd.Proofs.Language.Vocabulary
import FrontEnd.Proofs.Language.Spacing
import FrontEnd.Proofs.Source.Session
import FrontEnd.Proofs.Automaton.Roles
import FrontEnd.Proofs.Language.Drawing
import FrontEnd.Proofs.Language.Legibility
import FrontEnd.Proofs.Language.Recovery
