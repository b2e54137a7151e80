import FrontEnd.Grammar.Unexpected
import FrontEnd.Language.Kind
import FrontEnd.Language.Program
import FrontEnd.Text.Number

/-!
# The grammar of the language

```text
factor     := "(" expression ")" | NAME "(" expression,* ")" | NUMBER | NAME | "-" factor
term       := factor (("*" | "/") term)?
expression := term (("+" | "-") expression)?
condition  := expression ("<" | "<=" | ">" | ">=" | "==" | "!=") expression
statement  := "let" NAME "=" expression ";"
            | NAME "=" expression ";"
            | "return" expression ";"
            | "if" "(" condition ")" body ("else" body)?
            | "while" "(" condition ")" body
            | "for" "(" NAME "in" factor ".." factor ")" body
body       := "{" statement* "}"
function   := "defun" NAME "(" NAME,* ")" body
program    := function* END
```

## Main Definitions

* `Language.Rule` — the recursive rules, each with the type of tree that it yields
* `Language.Rule.definition` — their definitions
* `Language.productions` — all rules, ready to run

## Design Notes

Only rules that recur, and the entry rule, are references; everything else is an expression inside
their definitions.  Alternatives are ordered: a call is tried before a plain name, because both
begin with a name.  A number whose value does not fit into 64 bits matches no alternative of a
factor.
-/

namespace FrontEnd.Language

/-- The rules of the grammar by the type of tree that they yield. -/
inductive Rule : Type → Type where
  | expression : Rule Expression
  | term : Rule Term
  | factor : Rule Factor
  | body : Rule (List Statement)
  | program : Rule Program

/-- The names of the rules, in the order of their declaration. -/
def ruleNames : List String := ["expression", "term", "factor", "body", "program"]

/-- Parser expressions over the rules of the grammar. -/
abbrev Phrase := Parser Kind Rule

namespace Phrase

/-- A name. -/
def name : Phrase [String] String := (Parser.token .identifier).map Token.text

/-- A number that fits into 64 bits. -/
def number : Phrase [Int] Int :=
  (Parser.token .number).tryMap fun t => Text.readInteger t.text.toList

/-- A kind of token that stands for a value. -/
def sign {α : Type} (kind : Kind) (value : α) : Phrase [α] α :=
  (Parser.token kind).map fun _ => value

/-- An expression in parentheses. -/
def group : Phrase [Factor] Factor :=
  (((Parser.ignore .leftParen).and (.rule .expression)).skip (.ignore .rightParen)).map
    fun (inner, ()) => .group inner

/-- A call. -/
def call : Phrase [Factor] Factor :=
  ((((name.seq).skip (.ignore .leftParen)).and
      ((Parser.rule Rule.expression).separatedBy (.ignore .comma))).skip
    (.ignore .rightParen)).map fun (name, arguments, ()) => .call name arguments

/-- A negated factor. -/
def negation : Phrase [Factor] Factor :=
  ((Parser.ignore .minus).and (.rule .factor)).map fun (operand, ()) => .negation operand

/-- A factor. -/
def factor : Phrase [Factor] Factor :=
  (((group.or call).or (number.map .number)).or (name.map .reference)).or negation

/-- The operators of products. -/
def productOperator : Phrase [ProductOperator] ProductOperator :=
  (sign .times .multiply).or (sign .divide .divide)

/-- A term. -/
def term : Phrase [Term] Term :=
  (((Parser.rule Rule.factor).seq).and
      (((productOperator.seq).and (.rule .term)).optional)).map fun
    | (left, some (operator, right, ()), ()) => .product left operator right
    | (left, none, ()) => .factor left

/-- The operators of sums. -/
def sumOperator : Phrase [SumOperator] SumOperator :=
  (sign .plus .add).or (sign .minus .subtract)

/-- An expression. -/
def expression : Phrase [Expression] Expression :=
  (((Parser.rule Rule.term).seq).and
      (((sumOperator.seq).and (.rule .expression)).optional)).map fun
    | (left, some (operator, right, ()), ()) => .sum left operator right
    | (left, none, ()) => .term left

/-- The comparisons. -/
def comparison : Phrase [Comparison] Comparison :=
  (((((sign .lessOrEqual .lessOrEqual).or (sign .less .less)).or
    (sign .greaterOrEqual .greaterOrEqual)).or (sign .greater .greater)).or
    (sign .equals .equals)).or (sign .notEqual .notEqual)

/-- A condition. -/
def condition : Phrase [Condition] Condition :=
  ((((Parser.rule Rule.expression).seq).and comparison).and (.rule .expression)).map
    fun (left, comparison, right, ()) => ⟨left, comparison, right⟩

/-- The definition of a variable. -/
def define : Phrase [Statement] Statement :=
  (((((Parser.ignore .letWord).and name).skip (.ignore .equal)).and (.rule .expression)).skip
    (.ignore .semicolon)).map fun (name, value, ()) => .define name value

/-- An assignment. -/
def assign : Phrase [Statement] Statement :=
  ((((name.seq).skip (.ignore .equal)).and (.rule .expression)).skip (.ignore .semicolon)).map
    fun (name, value, ()) => .assign name value

/-- The return of a value. -/
def giveBack : Phrase [Statement] Statement :=
  (((Parser.ignore .returnWord).and (.rule .expression)).skip (.ignore .semicolon)).map
    fun (value, ()) => .giveBack value

/-- The alternative branch of a choice. -/
def otherwise : Phrase [List Statement] (List Statement) :=
  ((Parser.ignore .elseWord).and (.rule .body)).map fun (body, ()) => body

/-- A choice with one branch or two. -/
def choice : Phrase [Statement] Statement :=
  ((((((Parser.ignore .ifWord).skip (.ignore .leftParen)).and condition).skip
    (.ignore .rightParen)).and (.rule .body)).and otherwise.optional).map fun
    | (condition, body, some otherwise, ()) => .ifThenElse condition body otherwise
    | (condition, body, none, ()) => .ifThen condition body

/-- A loop over a condition. -/
def loopWhile : Phrase [Statement] Statement :=
  (((((Parser.ignore .whileWord).skip (.ignore .leftParen)).and condition).skip
    (.ignore .rightParen)).and (.rule .body)).map
    fun (condition, body, ()) => .loopWhile condition body

/-- A loop over a range. -/
def loopOver : Phrase [Statement] Statement :=
  (((((((((Parser.ignore .forWord).skip (.ignore .leftParen)).and name).skip
    (.ignore .inWord)).and (.rule .factor)).skip (.ignore .ellipsis)).and (.rule .factor)).skip
    (.ignore .rightParen)).and (.rule .body)).map
    fun (index, first, last, body, ()) => .loopOver index first last body

/-- A statement. -/
def statement : Phrase [Statement] Statement :=
  ((((define.or assign).or giveBack).or choice).or loopWhile).or loopOver

/-- A body. -/
def body : Phrase [List Statement] (List Statement) :=
  (((Parser.ignore .leftBrace).and statement.many).skip (.ignore .rightBrace)).map
    fun (statements, ()) => statements

/-- A function. -/
def function : Phrase [Function] Function :=
  ((((((Parser.ignore .defunWord).and name).skip (.ignore .leftParen)).and
    (name.separatedBy (.ignore .comma))).skip (.ignore .rightParen)).and (.rule .body)).map
    fun (name, parameters, body, ()) => ⟨name, parameters, body⟩

/-- A program. -/
def program : Phrase [Program] Program :=
  (function.many.skip .finish).map Program.mk

end Phrase

/-- The definition of a rule. -/
def Rule.definition : {α : Type} → Rule α → Definition Kind Rule α
  | _, .expression => ⟨Phrase.expression⟩
  | _, .term => ⟨Phrase.term⟩
  | _, .factor => ⟨Phrase.factor⟩
  | _, .body => ⟨Phrase.body⟩
  | _, .program => ⟨Phrase.program⟩

/-- All rules of the language.  Every one of them has a definition. -/
def productions : Rules Kind Rule := ⟨ruleNames.length, fun rule => .ok rule.definition⟩

/-- A rule of the language does, one level deeper, what its definition does. -/
theorem call_succ (s : TokenStream Kind) (depth : Nat) {α : Type} (rule : Rule α) :
    productions.call s (depth + 1) rule =
      (rule.definition.parser.meaning s (productions.call s depth)).value :=
  Rules.call_succ rfl depth

/-- Read a stream as a program. -/
def parseStream (s : TokenStream Kind) : Except Fault (Except (Unexpected Kind) Program) :=
  productions.parseAll (.rule .program) s

end FrontEnd.Language
