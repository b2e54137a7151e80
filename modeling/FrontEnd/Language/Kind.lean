import FrontEnd.Scanner.Basic

/-!
# Token kinds of the language

## Main Definitions

* `Language.Kind` — every kind of token
* `Language.Kind.name` — its name in token listings
* `Language.whitespace`, `Language.rules` — the patterns, in order of priority
* `Language.Kind.all` — the kinds in the same order
* `Language.buildScanner` — the scanner of the language

## Design Notes

Keywords come before names.  A keyword and a name can match the same text, and then the earlier rule
counts; a longer word is a name even if it begins with a keyword.
-/

namespace FrontEnd.Language

/-- Every kind of token of the language. -/
inductive Kind where
  | arrow
  | colon
  | comma
  | ellipsis
  | equal
  | equals
  | notEqual
  | greater
  | greaterOrEqual
  | less
  | lessOrEqual
  | minus
  | times
  | plus
  | divide
  | semicolon
  | leftBrace
  | rightBrace
  | leftParen
  | rightParen
  | defunWord
  | returnWord
  | ifWord
  | elseWord
  | letWord
  | whileWord
  | forWord
  | inWord
  | intWord
  | identifier
  | number
  | finish
  deriving DecidableEq

/-- The name of a kind in token listings. -/
def Kind.name : Kind → String
  | arrow => "ARROW"
  | colon => "COLON"
  | comma => "COMMA"
  | ellipsis => "ELLIPSIS"
  | equal => "EQUAL"
  | equals => "EQUALS"
  | notEqual => "NOT_EQUAL"
  | greater => "GREATER"
  | greaterOrEqual => "GREATER_OR_EQUAL"
  | less => "LESS"
  | lessOrEqual => "LESS_OR_EQUAL"
  | minus => "MINUS"
  | times => "MUL"
  | plus => "PLUS"
  | divide => "DIV"
  | semicolon => "SEMICOLON"
  | leftBrace => "LCB"
  | rightBrace => "RCB"
  | leftParen => "LRB"
  | rightParen => "RRB"
  | defunWord => "DEFUN"
  | returnWord => "RETURN"
  | ifWord => "IF"
  | elseWord => "ELSE"
  | letWord => "LET"
  | whileWord => "WHILE"
  | forWord => "FOR"
  | inWord => "IN"
  | intWord => "INT"
  | identifier => "NAME"
  | number => "NUMBER"
  | finish => "END"

/-- Words in capitals, joined by underscores, as words with a capital first letter, joined by
nothing. -/
def joinWords (wordStart : Bool) : List Char → List Char
  | [] => []
  | '_' :: rest => joinWords true rest
  | c :: rest => (if wordStart then c else c.toLower) :: joinWords false rest

/-- Messages refer to a kind by its name in mixed case. -/
instance : TokenKind Kind where
  endKind := .finish
  describe kind := String.ofList (joinWords true kind.name.toList)

/-- The pattern of the text between tokens. -/
def whitespace : String := "[\n \t]([\n \t])"

/-- The kinds with their patterns, in order of priority. -/
def rules : List (Kind × String) :=
  [(.arrow, "->"),
   (.colon, ":"),
   (.comma, ","),
   (.ellipsis, ".."),
   (.equal, "="),
   (.equals, "=="),
   (.notEqual, "!="),
   (.greater, ">"),
   (.greaterOrEqual, ">="),
   (.less, "<"),
   (.lessOrEqual, "<="),
   (.minus, "-"),
   (.times, "*"),
   (.plus, "+"),
   (.divide, "/"),
   (.semicolon, ";"),
   (.leftBrace, "\x7b"),
   (.rightBrace, "\x7d"),
   (.leftParen, "[(]"),
   (.rightParen, "[)]"),
   (.defunWord, "defun"),
   (.returnWord, "return"),
   (.ifWord, "if"),
   (.elseWord, "else"),
   (.letWord, "let"),
   (.whileWord, "while"),
   (.forWord, "for"),
   (.inWord, "in"),
   (.intWord, "int"),
   (.identifier, "[A-Za-z_]([A-Za-z0-9_])"),
   (.number, "[0-9]([0-9])")]

/-- Every kind, in order of priority, and the end kind. -/
def Kind.all : List Kind := rules.map Prod.fst ++ [.finish]

/-- The scanner of the language, with its automaton built. -/
def buildScanner : Except RuleError (Scanner Kind) :=
  match Scanner.empty.ignoreRule whitespace with
  | .error e => .error e
  | .ok s =>
      match s.addRules (rules.map fun (kind, pattern) => (kind, kind.name, pattern)) with
      | (s, .ok ()) => .ok s.compile
      | (_, .error e) => .error e

end FrontEnd.Language
