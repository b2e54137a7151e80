import FrontEnd.Text.Json

/-!
# Programs

The syntax tree of the language.

## Main Definitions

* `Language.Expression`, `Language.Term`, `Language.Factor` — arithmetic
* `Language.Condition`, `Language.Statement`, `Language.Function`, `Language.Program`
* `Language.Program.toJson` — a program as a JSON document

## Design Notes

**Arithmetic is right-recursive.**  An operator has a tighter operand on its left and everything
that follows on its right: `a - b - c` is `a - (b - c)`.  An expression without an operator at its
top is the operand itself, wrapped once for each level.

**A body is a list of statements.**  It is a construct of its own in the notation and in the JSON
document, but carries nothing else.
-/

namespace FrontEnd.Language

open Text (Json)

/-- The operators of sums. -/
inductive SumOperator where
  | add
  | subtract
  deriving DecidableEq

/-- The operators of products. -/
inductive ProductOperator where
  | multiply
  | divide
  deriving DecidableEq

mutual
/-- A sum, or a single term. -/
inductive Expression where
  | sum (left : Term) (operator : SumOperator) (right : Expression)
  | term (term : Term)

/-- A product, or a single factor. -/
inductive Term where
  | product (left : Factor) (operator : ProductOperator) (right : Term)
  | factor (factor : Factor)

/-- An operand. -/
inductive Factor where
  | group (inner : Expression)
  | call (name : String) (arguments : List Expression)
  | number (value : Int)
  | reference (name : String)
  | negation (operand : Factor)
end

/-- A factor as an expression. -/
def Factor.widen (f : Factor) : Expression := .term (.factor f)

/-- The comparisons of conditions. -/
inductive Comparison where
  | less
  | lessOrEqual
  | greater
  | greaterOrEqual
  | equals
  | notEqual
  deriving DecidableEq

/-- Two expressions to compare. -/
structure Condition where
  left : Expression
  comparison : Comparison
  right : Expression

/-- A statement; a body is a list of them. -/
inductive Statement where
  | define (name : String) (value : Expression)
  | assign (name : String) (value : Expression)
  | giveBack (value : Expression)
  | ifThen (condition : Condition) (body : List Statement)
  | ifThenElse (condition : Condition) (body otherwise : List Statement)
  | loopWhile (condition : Condition) (body : List Statement)
  | loopOver (index : String) (first last : Factor) (body : List Statement)

/-- A function. -/
structure Function where
  name : String
  parameters : List String
  body : List Statement

/-- A program: a list of functions. -/
structure Program where
  functions : List Function

/-! ### Spelling -/

/-- The spelling of an operator. -/
def SumOperator.symbol : SumOperator → String
  | add => "+"
  | subtract => "-"

/-- The spelling of an operator. -/
def ProductOperator.symbol : ProductOperator → String
  | multiply => "*"
  | divide => "/"

/-- The spelling of a comparison. -/
def Comparison.symbol : Comparison → String
  | less => "<"
  | lessOrEqual => "<="
  | greater => ">"
  | greaterOrEqual => ">="
  | equals => "=="
  | notEqual => "!="

/-! ### JSON -/

/-- The name of an operator in a document. -/
def SumOperator.toJson : SumOperator → Json
  | add => .text "Add"
  | subtract => .text "Sub"

/-- The name of an operator in a document. -/
def ProductOperator.toJson : ProductOperator → Json
  | multiply => .text "Mul"
  | divide => .text "Div"

/-- The name of a comparison in a document. -/
def Comparison.toJson : Comparison → Json
  | less => .text "Less"
  | lessOrEqual => .text "LessOrEqual"
  | greater => .text "Greater"
  | greaterOrEqual => .text "GreaterOrEqual"
  | equals => .text "Equals"
  | notEqual => .text "NotEqual"

mutual
/-- An expression as a document. -/
def Expression.toJson : Expression → Json
  | .sum left operator right =>
      .tagged "Sum" (.record
        [("left", left.toJson), ("operator", operator.toJson), ("right", right.toJson)])
  | .term term => .tagged "Term" term.toJson

/-- A term as a document. -/
def Term.toJson : Term → Json
  | .product left operator right =>
      .tagged "Product" (.record
        [("left", left.toJson), ("operator", operator.toJson), ("right", right.toJson)])
  | .factor factor => .tagged "Factor" factor.toJson

/-- A factor as a document. -/
def Factor.toJson : Factor → Json
  | .group inner => .tagged "Group" (.record [("inner", inner.toJson)])
  | .call name arguments =>
      .tagged "Call" (.record
        [("name", .text name), ("arguments", .list (Expression.listToJson arguments))])
  | .number value => .tagged "Number" (.number value)
  | .reference name => .tagged "Variable" (.text name)
  | .negation operand => .tagged "Negation" (.record [("operand", operand.toJson)])

/-- Expressions as documents. -/
def Expression.listToJson : List Expression → List Json
  | [] => []
  | first :: rest => first.toJson :: Expression.listToJson rest
end

/-- A condition as a document. -/
def Condition.toJson (c : Condition) : Json :=
  .record
    [("left", c.left.toJson), ("comparison", c.comparison.toJson), ("right", c.right.toJson)]

/-- The document of a body, given the documents of its statements. -/
def bodyJson (statements : List Json) : Json := .record [("statements", .list statements)]

mutual
/-- A statement as a document. -/
def Statement.toJson : Statement → Json
  | .define name value =>
      .tagged "Let" (.record [("name", .text name), ("value", value.toJson)])
  | .assign name value =>
      .tagged "Assign" (.record [("name", .text name), ("value", value.toJson)])
  | .giveBack value => .tagged "Return" (.record [("value", value.toJson)])
  | .ifThen condition body =>
      .tagged "If" (.record
        [("condition", condition.toJson),
         ("then_body", bodyJson (Statement.listToJson body)),
         ("else_body", .null)])
  | .ifThenElse condition body otherwise =>
      .tagged "If" (.record
        [("condition", condition.toJson),
         ("then_body", bodyJson (Statement.listToJson body)),
         ("else_body", bodyJson (Statement.listToJson otherwise))])
  | .loopWhile condition body =>
      .tagged "While" (.record
        [("condition", condition.toJson), ("body", bodyJson (Statement.listToJson body))])
  | .loopOver index first last body =>
      .tagged "For" (.record
        [("variable", .text index), ("start", first.toJson), ("end", last.toJson),
         ("body", bodyJson (Statement.listToJson body))])

/-- Statements as documents. -/
def Statement.listToJson : List Statement → List Json
  | [] => []
  | first :: rest => first.toJson :: Statement.listToJson rest
end

/-- A function as a document. -/
def Function.toJson (f : Function) : Json :=
  .record
    [("name", .text f.name), ("parameters", .list (f.parameters.map .text)),
     ("body", bodyJson (Statement.listToJson f.body))]

/-- A program as a document. -/
def Program.toJson (p : Program) : Json :=
  .record [("functions", .list (p.functions.map Function.toJson))]

end FrontEnd.Language
