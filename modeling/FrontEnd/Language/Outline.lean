import FrontEnd.Language.Program

/-!
# Outlines

An outline shows a program as a tree, one line for each node.

## Main Definitions

* `Language.Outline` — a tree of labelled nodes
* `Language.Program.outline` — the outline of a program
* `Language.Outline.draw` — the tree drawn with lines
* `Language.Outline.visit` — the nodes in order, each with its depth

## Design Notes

**Wrappers leave no trace.**  An expression or a term that only passes on a single operand is shown
as that operand.  The body of a function is shown as the children of the function, while the bodies
of other statements are nodes of their own.

**The root is not drawn.**  The functions of a program stand at the margin.
-/

namespace FrontEnd.Language

/-- A node with its type, an optional label and its children. -/
inductive Outline where
  | node (type label : String) (children : List Outline)

namespace Outline

/-- The children of a node. -/
def children : Outline → List Outline
  | node _ _ children => children

/-- The text of a node. -/
def caption (type label : String) : String :=
  if label.isEmpty then type else type ++ ": " ++ label

mutual
/-- A node and everything below it, behind a margin. -/
def draw (margin : String) (last : Bool) : Outline → String
  | node type label children =>
      margin ++ (if last then "└─" else "├─") ++ " " ++ caption type label ++ "\n" ++
        drawAll (margin ++ if last then "  " else "│ ") children

/-- Sibling nodes, one below the other. -/
def drawAll (margin : String) : List Outline → String
  | [] => ""
  | first :: rest => first.draw margin rest.isEmpty ++ drawAll margin rest
end

mutual
/-- The nodes from a node on downwards, with depth, type and label. -/
def visit (depth : Nat) : Outline → List (Nat × String × String)
  | node type label children => (depth, type, label) :: visitAll (depth + 1) children

/-- The nodes of sibling trees in order. -/
def visitAll (depth : Nat) : List Outline → List (Nat × String × String)
  | [] => []
  | first :: rest => first.visit depth ++ visitAll depth rest
end

end Outline

mutual
/-- The outline of an expression. -/
def Expression.outline : Expression → Outline
  | .sum left operator right => .node "Sum" operator.symbol [left.outline, right.outline]
  | .term term => term.outline

/-- The outline of a term. -/
def Term.outline : Term → Outline
  | .product left operator right => .node "Product" operator.symbol [left.outline, right.outline]
  | .factor factor => factor.outline

/-- The outline of a factor. -/
def Factor.outline : Factor → Outline
  | .group inner => .node "Group" "" [inner.outline]
  | .call name arguments => .node "Call" name (Expression.outlines arguments)
  | .number value => .node "Number" (toString value) []
  | .reference name => .node "Variable" name []
  | .negation operand => .node "Negation" "" [operand.outline]

/-- The outlines of expressions. -/
def Expression.outlines : List Expression → List Outline
  | [] => []
  | first :: rest => first.outline :: Expression.outlines rest
end

/-- The outline of a condition. -/
def Condition.outline (c : Condition) : Outline :=
  .node "Condition" c.comparison.symbol [c.left.outline, c.right.outline]

mutual
/-- The outline of a statement. -/
def Statement.outline : Statement → Outline
  | .define name value => .node "Let" name [value.outline]
  | .assign name value => .node "Assign" name [value.outline]
  | .giveBack value => .node "Return" "" [value.outline]
  | .ifThen condition body =>
      .node "If" "" [condition.outline, .node "Body" "" (Statement.outlines body)]
  | .ifThenElse condition body otherwise =>
      .node "If" ""
        [condition.outline, .node "Body" "" (Statement.outlines body),
         .node "Body" "" (Statement.outlines otherwise)]
  | .loopWhile condition body =>
      .node "While" "" [condition.outline, .node "Body" "" (Statement.outlines body)]
  | .loopOver index first last body =>
      .node "For" index
        [first.outline, last.outline, .node "Body" "" (Statement.outlines body)]

/-- The outlines of statements. -/
def Statement.outlines : List Statement → List Outline
  | [] => []
  | first :: rest => first.outline :: Statement.outlines rest
end

/-- The outline of a function; its label shows the parameters. -/
def Function.outline (f : Function) : Outline :=
  .node "Function" (f.name ++ "(" ++ ", ".intercalate f.parameters ++ ")")
    (Statement.outlines f.body)

/-- The outline of a program. -/
def Program.outline (p : Program) : Outline :=
  .node "Program" "" (p.functions.map Function.outline)

/-- The drawing of a program: its functions, one below the other. -/
def Program.draw (p : Program) : String := Outline.drawAll "" p.outline.children

end FrontEnd.Language
