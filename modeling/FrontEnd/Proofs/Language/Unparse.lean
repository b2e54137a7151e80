import FrontEnd.Language.Rule
import FrontEnd.Proofs.Parser.Spelling

/-!
# Writing programs

The notation of a program as a list of symbols: what a stream of tokens has to look like to be this
program.

## Main Definitions

* `Language.Symbol` — a fixed sign, a name or a number
* `Language.spells` — which tokens spell a symbol
* `Language.Program.unparse` — the symbols of a program, and likewise for every kind of tree

## Design Notes

**No choice is left.**  A tree says where its parentheses stand: a group is written with them, and
nothing else is.  So a tree is written in one way only, and the operators need no precedence here.
-/

namespace FrontEnd.Language

/-- What a program is written with. -/
inductive Symbol where
  /-- A token of a kind whose text does not matter. -/
  | mark (kind : Kind)
  /-- A name. -/
  | name (text : String)
  /-- A number. -/
  | number (value : Int)
  deriving DecidableEq

/-- A token spells a symbol: it has the right kind, a name is this name, and a number has this
value. -/
def spells (t : Token Kind) : Symbol → Prop
  | .mark kind => t.kind = kind
  | .name text => t.kind = .identifier ∧ t.text = text
  | .number value => t.kind = .number ∧ Text.readInteger t.text.toList = some value

instance (t : Token Kind) : (x : Symbol) → Decidable (spells t x)
  | .mark kind => inferInstanceAs (Decidable (t.kind = kind))
  | .name text => inferInstanceAs (Decidable (t.kind = .identifier ∧ t.text = text))
  | .number value => inferInstanceAs
      (Decidable (t.kind = .number ∧ Text.readInteger t.text.toList = some value))

/-- The sign of an operator. -/
def SumOperator.kind : SumOperator → Kind
  | add => .plus
  | subtract => .minus

/-- The sign of an operator. -/
def ProductOperator.kind : ProductOperator → Kind
  | multiply => .times
  | divide => .divide

/-- The sign of a comparison. -/
def Comparison.kind : Comparison → Kind
  | less => .less
  | lessOrEqual => .lessOrEqual
  | greater => .greater
  | greaterOrEqual => .greaterOrEqual
  | equals => .equals
  | notEqual => .notEqual

/-- Symbols in parentheses. -/
def inParens (symbols : List Symbol) : List Symbol :=
  .mark .leftParen :: symbols ++ [.mark .rightParen]

/-- Symbols in braces. -/
def inBraces (symbols : List Symbol) : List Symbol :=
  .mark .leftBrace :: symbols ++ [.mark .rightBrace]

mutual
/-- An expression in symbols. -/
def Expression.unparse : Expression → List Symbol
  | .sum left operator right => left.unparse ++ .mark operator.kind :: right.unparse
  | .term term => term.unparse

/-- A term in symbols. -/
def Term.unparse : Term → List Symbol
  | .product left operator right => left.unparse ++ .mark operator.kind :: right.unparse
  | .factor factor => factor.unparse

/-- A factor in symbols. -/
def Factor.unparse : Factor → List Symbol
  | .group inner => inParens inner.unparse
  | .call name arguments => .name name :: inParens (Expression.unparseList arguments)
  | .number value => [.number value]
  | .reference name => [.name name]
  | .negation operand => .mark .minus :: operand.unparse

/-- Expressions in symbols, with commas in between. -/
def Expression.unparseList : List Expression → List Symbol
  | [] => []
  | first :: rest => first.unparse ++ Expression.unparseRest rest

/-- Expressions in symbols, with a comma in front of each. -/
def Expression.unparseRest : List Expression → List Symbol
  | [] => []
  | first :: rest => .mark .comma :: first.unparse ++ Expression.unparseRest rest
end

/-- A condition in symbols. -/
def Condition.unparse (c : Condition) : List Symbol :=
  c.left.unparse ++ .mark c.comparison.kind :: c.right.unparse

mutual
/-- A statement in symbols. -/
def Statement.unparse : Statement → List Symbol
  | .define name value =>
      .mark .letWord :: .name name :: .mark .equal :: value.unparse ++ [.mark .semicolon]
  | .assign name value => .name name :: .mark .equal :: value.unparse ++ [.mark .semicolon]
  | .giveBack value => .mark .returnWord :: value.unparse ++ [.mark .semicolon]
  | .ifThen condition body =>
      .mark .ifWord :: inParens condition.unparse ++ inBraces (Statement.unparseList body)
  | .ifThenElse condition body otherwise =>
      .mark .ifWord :: inParens condition.unparse ++ inBraces (Statement.unparseList body) ++
        .mark .elseWord :: inBraces (Statement.unparseList otherwise)
  | .loopWhile condition body =>
      .mark .whileWord :: inParens condition.unparse ++ inBraces (Statement.unparseList body)
  | .loopOver index first last body =>
      .mark .forWord ::
        inParens (.name index :: .mark .inWord :: first.unparse ++
          .mark .ellipsis :: last.unparse) ++
        inBraces (Statement.unparseList body)

/-- Statements in symbols. -/
def Statement.unparseList : List Statement → List Symbol
  | [] => []
  | first :: rest => first.unparse ++ Statement.unparseList rest
end

/-- A body in symbols. -/
def unparseBody (body : List Statement) : List Symbol := inBraces (body.flatMap Statement.unparse)

/-- A function in symbols. -/
def Function.unparse (f : Function) : List Symbol :=
  .mark .defunWord :: .name f.name ::
    inParens (separated [.mark .comma] (fun name => [.name name]) f.parameters) ++
    unparseBody f.body

/-- A program in symbols. -/
def Program.unparse (p : Program) : List Symbol := p.functions.flatMap Function.unparse

/-- The tree that a rule yields, in symbols. -/
def Rule.unparse : {α : Type} → Rule α → α → List Symbol
  | _, .expression => Expression.unparse
  | _, .term => Term.unparse
  | _, .factor => Factor.unparse
  | _, .body => unparseBody
  | _, .program => Program.unparse

/-! ### Lists of trees -/

theorem Expression.unparseRest_eq (arguments : List Expression) :
    Expression.unparseRest arguments =
      arguments.flatMap fun e => [.mark .comma] ++ e.unparse := by
  induction arguments with
  | nil => rfl
  | cons first rest ih => rw [Expression.unparseRest, ih, List.flatMap_cons]; rfl

theorem Expression.unparseList_eq (arguments : List Expression) :
    Expression.unparseList arguments =
      separated [.mark .comma] Expression.unparse arguments := by
  cases arguments with
  | nil => rfl
  | cons first rest => rw [Expression.unparseList, Expression.unparseRest_eq, separated]

theorem Statement.unparseList_eq (statements : List Statement) :
    Statement.unparseList statements = statements.flatMap Statement.unparse := by
  induction statements with
  | nil => rfl
  | cons first rest ih => rw [Statement.unparseList, ih, List.flatMap_cons]

/-! ### No tree is written with nothing -/

theorem Factor.unparse_ne_nil (v : Factor) : v.unparse ≠ [] := by
  cases v <;> simp [Factor.unparse, inParens]

theorem Term.unparse_ne_nil (v : Term) : v.unparse ≠ [] := by
  cases v with
  | product left operator right => simp [Term.unparse]
  | factor factor =>
    rw [Term.unparse]
    exact factor.unparse_ne_nil

theorem Expression.unparse_ne_nil (v : Expression) : v.unparse ≠ [] := by
  cases v with
  | sum left operator right => simp [Expression.unparse]
  | term term =>
    rw [Expression.unparse]
    exact term.unparse_ne_nil

theorem Statement.unparse_ne_nil (v : Statement) : v.unparse ≠ [] := by
  cases v <;> simp [Statement.unparse]

/-! ### The end is not written -/

@[simp] theorem SumOperator.kind_ne_finish (o : SumOperator) : .finish ≠ o.kind := by
  cases o <;> decide

@[simp] theorem ProductOperator.kind_ne_finish (o : ProductOperator) : .finish ≠ o.kind := by
  cases o <;> decide

@[simp] theorem Comparison.kind_ne_finish (o : Comparison) : .finish ≠ o.kind := by
  cases o <;> decide

mutual
theorem Expression.finish_notMem_unparse : (v : Expression) → .mark .finish ∉ v.unparse
  | .sum left _ right => by
    simp [Expression.unparse, left.finish_notMem_unparse, right.finish_notMem_unparse]
  | .term term => by simp [Expression.unparse, term.finish_notMem_unparse]

theorem Term.finish_notMem_unparse : (v : Term) → .mark .finish ∉ v.unparse
  | .product left _ right => by
    simp [Term.unparse, left.finish_notMem_unparse, right.finish_notMem_unparse]
  | .factor factor => by simp [Term.unparse, factor.finish_notMem_unparse]

theorem Factor.finish_notMem_unparse : (v : Factor) → .mark .finish ∉ v.unparse
  | .group inner => by simp [Factor.unparse, inParens, inner.finish_notMem_unparse]
  | .call _ arguments => by
    simp [Factor.unparse, inParens, Expression.finish_notMem_unparseList arguments]
  | .number _ => by simp [Factor.unparse]
  | .reference _ => by simp [Factor.unparse]
  | .negation operand => by simp [Factor.unparse, operand.finish_notMem_unparse]

theorem Expression.finish_notMem_unparseList :
    (arguments : List Expression) → .mark .finish ∉ Expression.unparseList arguments
  | [] => by simp [Expression.unparseList]
  | first :: rest => by
    simp [Expression.unparseList, first.finish_notMem_unparse,
      Expression.finish_notMem_unparseRest rest]

theorem Expression.finish_notMem_unparseRest :
    (arguments : List Expression) → .mark .finish ∉ Expression.unparseRest arguments
  | [] => by simp [Expression.unparseRest]
  | first :: rest => by
    simp [Expression.unparseRest, first.finish_notMem_unparse,
      Expression.finish_notMem_unparseRest rest]
end

theorem Condition.finish_notMem_unparse (c : Condition) : .mark .finish ∉ c.unparse := by
  simp [Condition.unparse, c.left.finish_notMem_unparse, c.right.finish_notMem_unparse]

mutual
theorem Statement.finish_notMem_unparse : (v : Statement) → .mark .finish ∉ v.unparse
  | .define _ value => by simp [Statement.unparse, value.finish_notMem_unparse]
  | .assign _ value => by simp [Statement.unparse, value.finish_notMem_unparse]
  | .giveBack value => by simp [Statement.unparse, value.finish_notMem_unparse]
  | .ifThen condition body => by
    simp [Statement.unparse, inParens, inBraces, condition.finish_notMem_unparse,
      Statement.finish_notMem_unparseList body]
  | .ifThenElse condition body otherwise => by
    simp [Statement.unparse, inParens, inBraces, condition.finish_notMem_unparse,
      Statement.finish_notMem_unparseList body, Statement.finish_notMem_unparseList otherwise]
  | .loopWhile condition body => by
    simp [Statement.unparse, inParens, inBraces, condition.finish_notMem_unparse,
      Statement.finish_notMem_unparseList body]
  | .loopOver _ first last body => by
    simp [Statement.unparse, inParens, inBraces, first.finish_notMem_unparse,
      last.finish_notMem_unparse, Statement.finish_notMem_unparseList body]

theorem Statement.finish_notMem_unparseList :
    (statements : List Statement) → .mark .finish ∉ Statement.unparseList statements
  | [] => by simp [Statement.unparseList]
  | first :: rest => by
    simp [Statement.unparseList, first.finish_notMem_unparse,
      Statement.finish_notMem_unparseList rest]
end

/-- No program is written with the end mark. -/
theorem Program.finish_notMem_unparse (p : Program) : .mark .finish ∉ p.unparse := by
  intro mem
  obtain ⟨f, -, mem⟩ := List.mem_flatMap.1 mem
  have body : .mark .finish ∉ unparseBody f.body := by
    rw [unparseBody, ← Statement.unparseList_eq]
    simp [inBraces, Statement.finish_notMem_unparseList]
  have parameters : .mark .finish ∉
      separated [.mark .comma] (fun name => [Symbol.name name]) f.parameters := by
    cases f.parameters with
    | nil => simp [separated]
    | cons first rest => simp [separated]
  simp [Function.unparse, inParens, body, parameters] at mem

end FrontEnd.Language
