import Mathlib
import FrontEnd.Proofs.Language.Denotation
import FrontEnd.Proofs.Language.Legibility

/-!
# Recovering a program

The drawing of a program loses nothing: programs whose names are identifiers have different drawings
if they are different.

## Main Results

* `Language.Expression.outline_inj`, `Language.Statement.outline_inj` — an outline tells its tree,
  whatever the names are
* `Language.Function.outline_inj`, `Language.Program.outline_inj` — the same for functions and
  programs with proper names
* `Language.Denotes.named` — the names of what a source denotes are proper
* `Language.draw_inj_of_named` — programs with proper names are told by their drawings

## Design Notes

**Wrappers need no node.**  A single operand has no node for the sum and the product that it stands
in for.  But no factor is shown as a sum or a product, and no term as a sum, so the type of a node
tells which wrappers were left out.

**Where names matter.**  A function is the only node that shows several names in one label.  The
label is cut at the first parenthesis and then at the commas, and identifiers contain neither.
-/

namespace FrontEnd.Language

/-! ### Labels -/

theorem SumOperator.symbol_inj {o o' : SumOperator} : o.symbol = o'.symbol → o = o' := by
  cases o <;> cases o' <;> simp [symbol]

theorem ProductOperator.symbol_inj {o o' : ProductOperator} : o.symbol = o'.symbol → o = o' := by
  cases o <;> cases o' <;> simp [symbol]

theorem Comparison.symbol_inj {o o' : Comparison} : o.symbol = o'.symbol → o = o' := by
  cases o <;> cases o' <;> simp [symbol]

theorem number_inj {value value' : Int} (same : toString value = toString value') :
    value = value' := by
  rw [Int.toString_eq_repr, Int.toString_eq_repr] at same
  exact Int.repr_injective same

/-- Names in a row are told by the text, if they have no commas. -/
theorem append_flatMap_comma_inj : (rest rest' : List String) → (first first' : List Char) →
    ',' ∉ first → ',' ∉ first' → (∀ name ∈ rest, ',' ∉ name.toList) →
    (∀ name ∈ rest', ',' ∉ name.toList) →
    (first ++ rest.flatMap fun name => ',' :: ' ' :: name.toList) =
      (first' ++ rest'.flatMap fun name => ',' :: ' ' :: name.toList) →
    first = first' ∧ rest = rest'
  | [], [], first, first', _, _, _, _, same => by
    rw [List.flatMap_nil, List.append_nil, List.append_nil] at same
    exact ⟨same, rfl⟩
  | [], second :: rest', first, first', plain, _, _, _, same => by
    rw [List.flatMap_nil, List.append_nil, List.flatMap_cons] at same
    exact absurd (same ▸ List.mem_append_right _ List.mem_cons_self) plain
  | second :: rest, [], first, first', _, plain', _, _, same => by
    rw [List.flatMap_nil, List.append_nil, List.flatMap_cons] at same
    exact absurd (same ▸ List.mem_append_right _ List.mem_cons_self) plain'
  | second :: rest, second' :: rest', first, first', plain, plain', later, later', same => by
    rw [List.forall_mem_cons] at later later'
    rw [List.flatMap_cons, List.flatMap_cons, List.cons_append, List.cons_append] at same
    obtain ⟨rfl, behind⟩ := append_cons_inj_of_notMem plain plain' same
    obtain ⟨seconds, rfl⟩ := append_flatMap_comma_inj rest rest' _ _ later.1 later'.1 later.2
      later'.2 (List.cons.inj behind).2
    exact ⟨rfl, by rw [String.toList_injective seconds]⟩

/-- A parameter list tells the parameters. -/
theorem intercalate_inj {names names' : List String}
    (proper : ∀ name ∈ names, IsIdentifier name.toList)
    (proper' : ∀ name ∈ names', IsIdentifier name.toList)
    (same : ", ".intercalate names = ", ".intercalate names') : names = names' := by
  have plain {name : String} (named : IsIdentifier name.toList) : ',' ∉ name.toList :=
    notMem_of_isIdentifier named (by decide)
  -- A name is not empty, so a list with a name does not look like a list without any.
  have nonempty {first : String} {rest : List String} (named : IsIdentifier first.toList) :
      ", ".intercalate (first :: rest) ≠ "" := by
    intro empty
    have text := toList_intercalate_cons first rest
    rw [empty, String.toList_empty, eq_comm, List.append_eq_nil_iff] at text
    exact ne_empty_of_isIdentifier named (String.toList_injective text.1)
  cases names with
  | nil =>
    cases names' with
    | nil => rfl
    | cons first' rest' => exact absurd same.symm (nonempty (proper' first' List.mem_cons_self))
  | cons first rest =>
    cases names' with
    | nil => exact absurd same (nonempty (proper first List.mem_cons_self))
    | cons first' rest' =>
      rw [List.forall_mem_cons] at proper proper'
      have text := congrArg String.toList same
      rw [toList_intercalate_cons, toList_intercalate_cons] at text
      obtain ⟨firsts, rfl⟩ := append_flatMap_comma_inj rest rest' _ _ (plain proper.1)
        (plain proper'.1) (fun name mem => plain (proper.2 name mem))
        (fun name mem => plain (proper'.2 name mem)) text
      rw [String.toList_injective firsts]

/-! ### Outlines tell their trees -/

/-- The type of a node. -/
def Outline.type : Outline → String
  | node type _ _ => type

/-- A factor is not shown as a sum or as a product. -/
theorem Factor.type_outline (v : Factor) :
    v.outline.type ≠ "Sum" ∧ v.outline.type ≠ "Product" := by
  cases v <;> simp [Factor.outline, Outline.type]

/-- A term is not shown as a sum. -/
theorem Term.type_outline (v : Term) : v.outline.type ≠ "Sum" := by
  cases v with
  | product left operator right => simp [Term.outline, Outline.type]
  | factor factor =>
    rw [Term.outline]
    exact factor.type_outline.1

mutual
theorem Expression.outline_inj : (v v' : Expression) → v.outline = v'.outline → v = v'
  | .sum left operator right, .sum left' operator' right', same => by
    simp only [Expression.outline, Outline.node.injEq, List.cons.injEq] at same
    obtain ⟨-, operators, lefts, rights, -⟩ := same
    rw [SumOperator.symbol_inj operators, left.outline_inj left' lefts,
      right.outline_inj right' rights]
  | .sum left operator right, .term term', same => by
    rw [Expression.outline, Expression.outline] at same
    exact absurd (same ▸ rfl) term'.type_outline
  | .term term, .sum left' operator' right', same => by
    rw [Expression.outline, Expression.outline] at same
    exact absurd (same ▸ rfl) term.type_outline
  | .term term, .term term', same => by
    rw [Expression.outline, Expression.outline] at same
    rw [term.outline_inj term' same]

theorem Term.outline_inj : (v v' : Term) → v.outline = v'.outline → v = v'
  | .product left operator right, .product left' operator' right', same => by
    simp only [Term.outline, Outline.node.injEq, List.cons.injEq] at same
    obtain ⟨-, operators, lefts, rights, -⟩ := same
    rw [ProductOperator.symbol_inj operators, left.outline_inj left' lefts,
      right.outline_inj right' rights]
  | .product left operator right, .factor factor', same => by
    rw [Term.outline, Term.outline] at same
    exact absurd (same ▸ rfl) factor'.type_outline.2
  | .factor factor, .product left' operator' right', same => by
    rw [Term.outline, Term.outline] at same
    exact absurd (same ▸ rfl) factor.type_outline.2
  | .factor factor, .factor factor', same => by
    rw [Term.outline, Term.outline] at same
    rw [factor.outline_inj factor' same]

theorem Factor.outline_inj : (v v' : Factor) → v.outline = v'.outline → v = v'
  | .group inner, v', same => by
    cases v' with
    | group inner' =>
      simp only [Factor.outline, Outline.node.injEq, List.cons.injEq] at same
      rw [inner.outline_inj inner' same.2.2.1]
    | _ => simp [Factor.outline] at same
  | .call name arguments, v', same => by
    cases v' with
    | call name' arguments' =>
      simp only [Factor.outline, Outline.node.injEq] at same
      obtain ⟨-, rfl, lists⟩ := same
      rw [Expression.outlines_inj arguments arguments' lists]
    | _ => simp [Factor.outline] at same
  | .number value, v', same => by
    cases v' with
    | number value' =>
      simp only [Factor.outline, Outline.node.injEq] at same
      rw [number_inj same.2.1]
    | _ => simp [Factor.outline] at same
  | .reference name, v', same => by
    cases v' with
    | reference name' =>
      simp only [Factor.outline, Outline.node.injEq] at same
      rw [same.2.1]
    | _ => simp [Factor.outline] at same
  | .negation operand, v', same => by
    cases v' with
    | negation operand' =>
      simp only [Factor.outline, Outline.node.injEq, List.cons.injEq] at same
      rw [operand.outline_inj operand' same.2.2.1]
    | _ => simp [Factor.outline] at same

theorem Expression.outlines_inj : (arguments arguments' : List Expression) →
    Expression.outlines arguments = Expression.outlines arguments' → arguments = arguments'
  | [], [], _ => rfl
  | [], first' :: rest', same => by simp [Expression.outlines] at same
  | first :: rest, [], same => by simp [Expression.outlines] at same
  | first :: rest, first' :: rest', same => by
    rw [Expression.outlines, Expression.outlines, List.cons.injEq] at same
    rw [first.outline_inj first' same.1, Expression.outlines_inj rest rest' same.2]
end

theorem Condition.outline_inj {c c' : Condition} (same : c.outline = c'.outline) : c = c' := by
  obtain ⟨left, comparison, right⟩ := c
  obtain ⟨left', comparison', right'⟩ := c'
  simp only [Condition.outline, Outline.node.injEq, List.cons.injEq] at same
  obtain ⟨-, comparisons, lefts, rights, -⟩ := same
  rw [left.outline_inj left' lefts, Comparison.symbol_inj comparisons,
    right.outline_inj right' rights]

mutual
theorem Statement.outline_inj : (v v' : Statement) → v.outline = v'.outline → v = v'
  | .define name value, v', same => by
    cases v' with
    | define name' value' =>
      simp only [Statement.outline, Outline.node.injEq, List.cons.injEq] at same
      obtain ⟨-, rfl, values, -⟩ := same
      rw [value.outline_inj value' values]
    | _ => simp [Statement.outline] at same
  | .assign name value, v', same => by
    cases v' with
    | assign name' value' =>
      simp only [Statement.outline, Outline.node.injEq, List.cons.injEq] at same
      obtain ⟨-, rfl, values, -⟩ := same
      rw [value.outline_inj value' values]
    | _ => simp [Statement.outline] at same
  | .giveBack value, v', same => by
    cases v' with
    | giveBack value' =>
      simp only [Statement.outline, Outline.node.injEq, List.cons.injEq] at same
      rw [value.outline_inj value' same.2.2.1]
    | _ => simp [Statement.outline] at same
  | .ifThen condition body, v', same => by
    cases v' with
    | ifThen condition' body' =>
      simp only [Statement.outline, Outline.node.injEq, List.cons.injEq] at same
      obtain ⟨-, -, conditions, ⟨-, -, bodies⟩, -⟩ := same
      rw [Condition.outline_inj conditions, Statement.outlines_inj body body' bodies]
    | _ => simp [Statement.outline] at same
  | .ifThenElse condition body otherwise, v', same => by
    cases v' with
    | ifThenElse condition' body' otherwise' =>
      simp only [Statement.outline, Outline.node.injEq, List.cons.injEq] at same
      obtain ⟨-, -, conditions, ⟨-, -, bodies⟩, ⟨-, -, others⟩, -⟩ := same
      rw [Condition.outline_inj conditions, Statement.outlines_inj body body' bodies,
        Statement.outlines_inj otherwise otherwise' others]
    | _ => simp [Statement.outline] at same
  | .loopWhile condition body, v', same => by
    cases v' with
    | loopWhile condition' body' =>
      simp only [Statement.outline, Outline.node.injEq, List.cons.injEq] at same
      obtain ⟨-, -, conditions, ⟨-, -, bodies⟩, -⟩ := same
      rw [Condition.outline_inj conditions, Statement.outlines_inj body body' bodies]
    | _ => simp [Statement.outline] at same
  | .loopOver index first last body, v', same => by
    cases v' with
    | loopOver index' first' last' body' =>
      simp only [Statement.outline, Outline.node.injEq, List.cons.injEq] at same
      obtain ⟨-, rfl, firsts, lasts, ⟨-, -, bodies⟩, -⟩ := same
      rw [first.outline_inj first' firsts, last.outline_inj last' lasts,
        Statement.outlines_inj body body' bodies]
    | _ => simp [Statement.outline] at same

theorem Statement.outlines_inj : (statements statements' : List Statement) →
    Statement.outlines statements = Statement.outlines statements' → statements = statements'
  | [], [], _ => rfl
  | [], first' :: rest', same => by simp [Statement.outlines] at same
  | first :: rest, [], same => by simp [Statement.outlines] at same
  | first :: rest, first' :: rest', same => by
    rw [Statement.outlines, Statement.outlines, List.cons.injEq] at same
    rw [first.outline_inj first' same.1, Statement.outlines_inj rest rest' same.2]
end

/-- **An outline tells its function**, if the names in its label are identifiers. -/
theorem Function.outline_inj {f f' : Function} (named : f.Named) (named' : f'.Named)
    (same : f.outline = f'.outline) : f = f' := by
  obtain ⟨⟨onName, onParameters⟩, -⟩ := Function.named_iff.1 named
  obtain ⟨⟨onName', onParameters'⟩, -⟩ := Function.named_iff.1 named'
  simp only [Function.outline, Outline.node.injEq, true_and] at same
  obtain ⟨labels, bodies⟩ := same
  have text := congrArg String.toList labels
  simp only [String.toList_append, List.append_assoc] at text
  obtain ⟨names, lists⟩ := append_cons_inj_of_notMem (c := '(')
    (notMem_of_isIdentifier onName (by decide)) (notMem_of_isIdentifier onName' (by decide)) text
  have parameters : ", ".intercalate f.parameters = ", ".intercalate f'.parameters :=
    String.toList_injective (List.append_cancel_right lists)
  obtain ⟨name, list, body⟩ := f
  obtain rfl := String.toList_injective names
  obtain rfl := intercalate_inj onParameters onParameters' parameters
  obtain rfl := Statement.outlines_inj body _ bodies
  rfl

theorem Function.map_outline_inj : (functions functions' : List Function) →
    (∀ f ∈ functions, f.Named) → (∀ f ∈ functions', f.Named) →
    functions.map Function.outline = functions'.map Function.outline → functions = functions'
  | [], [], _, _, _ => rfl
  | [], f' :: rest', _, _, same => by simp at same
  | f :: rest, [], _, _, same => by simp at same
  | f :: rest, f' :: rest', named, named', same => by
    rw [List.forall_mem_cons] at named named'
    rw [List.map_cons, List.map_cons, List.cons.injEq] at same
    rw [Function.outline_inj named.1 named'.1 same.1,
      Function.map_outline_inj rest rest' named.2 named'.2 same.2]

/-- **The trees that are drawn tell the program.** -/
theorem Program.outline_inj {p q : Program} (named : p.Named) (named' : q.Named)
    (same : p.outline.children = q.outline.children) : p = q := by
  obtain ⟨functions⟩ := p
  obtain ⟨functions'⟩ := q
  rw [Function.map_outline_inj functions functions' (Program.named_iff.1 named)
    (Program.named_iff.1 named') same]

/-! ### The names of a source -/

/-- Every symbol is spelled by a token. -/
theorem Spell.exists_of_mem {shown : List (Kind × String)} {symbols : List Symbol}
    (spelled : Spell shown symbols) {x : Symbol} (mem : x ∈ symbols) :
    ∃ token ∈ shown, spells ⟨token.1, token.2, .start⟩ x := by
  induction spelled with
  | nil => cases mem
  | cons first _ ih =>
    rcases List.mem_cons.1 mem with rfl | mem
    · exact ⟨_, List.mem_cons_self, first⟩
    · obtain ⟨token, listed, spelled⟩ := ih mem
      exact ⟨token, List.mem_cons_of_mem _ listed, spelled⟩

/-- **The names of what a source denotes are identifiers.** -/
theorem Denotes.named {text : List Char} {p : Program} (denotes : Denotes text p) : p.Named := by
  obtain ⟨pieces, cuts, spelled⟩ := denotes
  intro x mem
  obtain ⟨⟨kind, word⟩, emits, spells⟩ := spelled.exists_of_mem mem
  cases x with
  | mark _ => trivial
  | number _ => trivial
  | name text =>
    obtain ⟨identifier, rfl⟩ := spells
    have classified := classified_of_wins (Scanner.wins_of_mem_emitted cuts emits)
    exact (classified.identifier.1 identifier).1

/-! ### Drawings tell their programs -/

/-- **A drawing tells its program.**  Two programs whose names are identifiers are the same if they
are drawn in the same way, and so are two programs that were parsed, since their names are. -/
theorem draw_inj_of_named :
    (∀ p q : Program, p.Named → q.Named → p.draw = q.draw → p = q) ∧
      ∀ (source file : String) (p : Program), parseProgram source file = .ok p → p.Named := by
  constructor
  · intro p q named named' same
    refine Program.outline_inj named named' ?_
    exact Outline.drawAll_inj (Program.legible_outline named) (Program.legible_outline named') same
  · intro source file p parsed
    exact (parseProgram_eq_ok_iff.1 parsed).named

/-- A function that subtracts two from an operand. -/
def lessTwo (operand : Factor) : Program :=
  ⟨[⟨"f", ["a"], [.giveBack (.sum (.factor operand) .subtract (Factor.widen (.number 2)))]⟩]⟩

/-- The tokens of this function, given those of the operand. -/
def lessTwoShown (operand : List (Kind × String)) : List (Kind × String) :=
  [(.defunWord, "defun"), (.identifier, "f"), (.leftParen, "("), (.identifier, "a"),
    (.rightParen, ")"), (.leftBrace, "\x7b"), (.returnWord, "return")] ++ operand ++
  [(.minus, "-"), (.number, "2"), (.semicolon, ";"), (.rightBrace, "\x7d")]

/-- Parentheses around a single operand are drawn, and spaces are not. -/
theorem draw_inj_of_named_group :
    parseProgram "defun f(a) \x7b return (a) - 2; \x7d" "f.prog" =
        .ok (lessTwo (.group (Factor.widen (.reference "a")))) ∧
      parseProgram "defun f(a) \x7b return a - 2; \x7d" "g.prog" =
        .ok (lessTwo (.reference "a")) ∧
      (lessTwo (.group (Factor.widen (.reference "a")))).draw ≠ (lessTwo (.reference "a")).draw ∧
      ∃ p, parseProgram "defun f(a)\x7breturn a-2;\x7d" "h.prog" = .ok p ∧
        p.draw = (lessTwo (.reference "a")).draw ∧ p = lessTwo (.reference "a") := by
  have shown :
      shownIn "defun f(a) \x7b return (a) - 2; \x7d" "f.prog" =
          some (lessTwoShown [(.leftParen, "("), (.identifier, "a"), (.rightParen, ")")]) ∧
        shownIn "defun f(a) \x7b return a - 2; \x7d" "g.prog" =
          some (lessTwoShown [(.identifier, "a")]) ∧
        shownIn "defun f(a)\x7breturn a-2;\x7d" "h.prog" =
          some (lessTwoShown [(.identifier, "a")]) := by
    decide +kernel
  have grouped : parseProgram "defun f(a) \x7b return (a) - 2; \x7d" "f.prog" =
      .ok (lessTwo (.group (Factor.widen (.reference "a")))) :=
    parseProgram_eq_ok.2 ⟨_, shown.1, by decide +kernel⟩
  have plain : parseProgram "defun f(a) \x7b return a - 2; \x7d" "g.prog" =
      .ok (lessTwo (.reference "a")) :=
    parseProgram_eq_ok.2 ⟨_, shown.2.1, by decide +kernel⟩
  have dense : parseProgram "defun f(a)\x7breturn a-2;\x7d" "h.prog" =
      .ok (lessTwo (.reference "a")) :=
    parseProgram_eq_ok.2 ⟨_, shown.2.2, by decide +kernel⟩
  have named := draw_inj_of_named.2 _ _ _ plain
  refine ⟨grouped, plain, fun same => ?_, _, dense, rfl, ?_⟩
  · have equal := draw_inj_of_named.1 _ _ (draw_inj_of_named.2 _ _ _ grouped) named same
    simp [lessTwo] at equal
  · exact draw_inj_of_named.1 _ _ (draw_inj_of_named.2 _ _ _ dense) named rfl

/-- One name that is not an identifier is drawn like two that are. -/
example :
    (⟨[⟨"f", ["a", "b"], []⟩]⟩ : Program).Named ∧ ¬ (⟨[⟨"f", ["a, b"], []⟩]⟩ : Program).Named ∧
      (⟨[⟨"f", ["a", "b"], []⟩]⟩ : Program).draw = (⟨[⟨"f", ["a, b"], []⟩]⟩ : Program).draw := by
  decide +kernel

end FrontEnd.Language
