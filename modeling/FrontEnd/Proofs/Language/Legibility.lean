import FrontEnd.Proofs.Language.Drawing
import FrontEnd.Proofs.Language.Unparse
import FrontEnd.Proofs.Language.Vocabulary

/-!
# Legible programs

The outline of a program can be read off its drawing if the names of the program are identifiers:
then no label runs over the end of its line.

## Main Definitions

* `Language.Symbol.Proper` — a symbol is not a name, or it is an identifier
* `Language.Function.Named`, `Language.Program.Named` — every name is an identifier
* `Language.nodeTypes` — the types of the nodes of an outline

## Main Results

* `Language.notMem_of_isIdentifier` — which characters are not in identifiers
* `Language.Program.legible_outline` — the outline of a program with proper names is legible

## Design Notes

**The names are those of the notation.**  A name of a program is what it is written with, so there
is no walk through the tree for names alone.
-/

namespace FrontEnd.Language

/-! ### Proper names -/

/-- A name is an identifier; nothing is asked of other symbols. -/
def Symbol.Proper : Symbol → Prop
  | .name text => IsIdentifier text.toList
  | _ => True

instance : DecidablePred Symbol.Proper
  | .mark _ => inferInstanceAs (Decidable True)
  | .name text => inferInstanceAs (Decidable (IsIdentifier text.toList))
  | .number _ => inferInstanceAs (Decidable True)

/-- Every name that the function is written with is an identifier. -/
def Function.Named (f : Function) : Prop := ∀ x ∈ f.unparse, x.Proper

/-- Every name that the program is written with is an identifier. -/
def Program.Named (p : Program) : Prop := ∀ x ∈ p.unparse, x.Proper

instance (p : Program) : Decidable p.Named :=
  inferInstanceAs (Decidable (∀ x ∈ p.unparse, x.Proper))

theorem Program.named_iff {p : Program} : p.Named ↔ ∀ f ∈ p.functions, f.Named := by
  rw [Program.Named, Program.unparse, List.forall_mem_flatMap]
  rfl

section Proper

variable {symbols : List Symbol}

theorem proper_mark_cons {kind : Kind} :
    (∀ x ∈ .mark kind :: symbols, x.Proper) ↔ ∀ x ∈ symbols, x.Proper := by
  rw [List.forall_mem_cons]
  exact and_iff_right trivial

theorem proper_name_cons {name : String} :
    (∀ x ∈ .name name :: symbols, x.Proper) ↔
      IsIdentifier name.toList ∧ ∀ x ∈ symbols, x.Proper :=
  List.forall_mem_cons

theorem proper_append_mark {kind : Kind} :
    (∀ x ∈ symbols ++ [.mark kind], x.Proper) ↔ ∀ x ∈ symbols, x.Proper := by
  rw [List.forall_mem_append, List.forall_mem_singleton]
  exact and_iff_left trivial

theorem proper_inParens : (∀ x ∈ inParens symbols, x.Proper) ↔ ∀ x ∈ symbols, x.Proper := by
  rw [inParens, List.cons_append, proper_mark_cons, proper_append_mark]

theorem proper_inBraces : (∀ x ∈ inBraces symbols, x.Proper) ↔ ∀ x ∈ symbols, x.Proper := by
  rw [inBraces, List.cons_append, proper_mark_cons, proper_append_mark]

theorem proper_separated {α : Type} {write : α → List Symbol} {items : List α} :
    (∀ x ∈ separated [.mark .comma] write items, x.Proper) ↔
      ∀ item ∈ items, ∀ x ∈ write item, x.Proper := by
  cases items with
  | nil => simp [separated]
  | cons first rest =>
    rw [separated, List.forall_mem_append, List.forall_mem_flatMap, List.forall_mem_cons]
    exact and_congr_right fun _ => forall₂_congr fun _ _ => proper_mark_cons

end Proper

/-- Identifiers are made of letters, digits and underscores. -/
theorem notMem_of_isIdentifier {word : List Char} (name : IsIdentifier word) {c : Char}
    (other : ¬ (c.isAlphanum || c == '_')) : c ∉ word := by
  cases word with
  | nil => exact name.elim
  | cons first rest =>
    obtain ⟨start, parts⟩ := name
    rw [List.mem_cons, not_or]
    refine ⟨?_, fun mem => other (List.all_eq_true.1 parts c mem)⟩
    rintro rfl
    refine other ?_
    rw [Bool.or_eq_true] at start ⊢
    exact start.imp_left fun letter => by rw [Char.isAlphanum, letter, Bool.true_or]

/-- No name is empty. -/
theorem ne_empty_of_isIdentifier {name : String} (proper : IsIdentifier name.toList) :
    name ≠ "" := by
  rintro rfl
  exact proper

/-! ### Labels keep to their line -/

theorem feed_notMem_empty : '\n' ∉ "".toList := by simp

theorem feed_notMem_name {name : String} (proper : IsIdentifier name.toList) :
    '\n' ∉ name.toList :=
  notMem_of_isIdentifier proper (by decide)

theorem SumOperator.feed_notMem_symbol (o : SumOperator) : '\n' ∉ o.symbol.toList := by
  cases o <;> decide +kernel

theorem ProductOperator.feed_notMem_symbol (o : ProductOperator) : '\n' ∉ o.symbol.toList := by
  cases o <;> decide +kernel

theorem Comparison.feed_notMem_symbol (o : Comparison) : '\n' ∉ o.symbol.toList := by
  cases o <;> decide +kernel

/-- Numbers are written with digits, and possibly a minus sign. -/
theorem feed_notMem_number (value : Int) : '\n' ∉ (toString value).toList := by
  have digits (n : Nat) : '\n' ∉ n.repr.toList := by
    rw [Nat.toList_repr]
    intro mem
    exact absurd (Nat.isDigit_of_mem_toDigits (by decide) (by decide) mem) (by decide)
  rw [Int.toString_eq_repr]
  cases value with
  | ofNat n => exact digits n
  | negSucc n =>
    show '\n' ∉ ("-" ++ n.succ.repr).toList
    rw [String.toList_append, List.mem_append, not_or]
    exact ⟨by decide +kernel, digits n.succ⟩

/-- Names in a row: the first one, and then the others, each behind a comma. -/
theorem toList_intercalate_cons (first : String) (rest : List String) :
    (", ".intercalate (first :: rest)).toList =
      first.toList ++ rest.flatMap fun name => ',' :: ' ' :: name.toList := by
  induction rest generalizing first with
  | nil => rw [String.intercalate_singleton, List.flatMap_nil, List.append_nil]
  | cons second rest ih =>
    rw [String.intercalate_cons_cons, String.toList_append, ih, List.flatMap_cons,
      String.toList_append, List.append_assoc]
    simp

theorem feed_notMem_intercalate {names : List String}
    (proper : ∀ name ∈ names, IsIdentifier name.toList) :
    '\n' ∉ (", ".intercalate names).toList := by
  cases names with
  | nil => simp
  | cons first rest =>
    rw [List.forall_mem_cons] at proper
    rw [toList_intercalate_cons, List.mem_append, List.mem_flatMap]
    rintro (mem | ⟨name, listed, mem⟩)
    · exact feed_notMem_name proper.1 mem
    · have inside : '\n' ∈ name.toList := by simpa using mem
      exact feed_notMem_name (proper.2 name listed) inside

/-! ### Legible outlines -/

/-- The types of the nodes below the root. -/
def nodeTypes : List String :=
  ["Function", "Let", "Assign", "Return", "If", "While", "For", "Body", "Condition", "Sum",
    "Product", "Group", "Call", "Number", "Variable", "Negation"]

theorem plain_of_mem_nodeTypes :
    ∀ type ∈ nodeTypes, '\n' ∉ type.toList ∧ ':' ∉ type.toList := by
  decide +kernel

theorem legible_node {type label : String} {children : List Outline} (listed : type ∈ nodeTypes)
    (oneLine : '\n' ∉ label.toList) (below : Outline.LegibleAll children) :
    (Outline.node type label children).Legible := by
  obtain ⟨typeOne, plain⟩ := plain_of_mem_nodeTypes type listed
  exact ⟨⟨typeOne, plain, oneLine⟩, below⟩

mutual
theorem Expression.legible_outline : (v : Expression) → (∀ x ∈ v.unparse, x.Proper) →
    v.outline.Legible
  | .sum left operator right, named => by
    rw [Expression.unparse, List.forall_mem_append, proper_mark_cons] at named
    rw [Expression.outline]
    exact legible_node (by simp [nodeTypes]) operator.feed_notMem_symbol
      ⟨left.legible_outline named.1, right.legible_outline named.2, trivial⟩
  | .term term, named => by
    rw [Expression.unparse] at named
    rw [Expression.outline]
    exact term.legible_outline named

theorem Term.legible_outline : (v : Term) → (∀ x ∈ v.unparse, x.Proper) → v.outline.Legible
  | .product left operator right, named => by
    rw [Term.unparse, List.forall_mem_append, proper_mark_cons] at named
    rw [Term.outline]
    exact legible_node (by simp [nodeTypes]) operator.feed_notMem_symbol
      ⟨left.legible_outline named.1, right.legible_outline named.2, trivial⟩
  | .factor factor, named => by
    rw [Term.unparse] at named
    rw [Term.outline]
    exact factor.legible_outline named

theorem Factor.legible_outline : (v : Factor) → (∀ x ∈ v.unparse, x.Proper) → v.outline.Legible
  | .group inner, named => by
    rw [Factor.unparse, proper_inParens] at named
    rw [Factor.outline]
    exact legible_node (by simp [nodeTypes]) feed_notMem_empty
      ⟨inner.legible_outline named, trivial⟩
  | .call name arguments, named => by
    rw [Factor.unparse, proper_name_cons, proper_inParens, Expression.unparseList_eq,
      proper_separated] at named
    rw [Factor.outline]
    exact legible_node (by simp [nodeTypes]) (feed_notMem_name named.1)
      (Expression.legible_outlines arguments named.2)
  | .number value, _ => by
    rw [Factor.outline]
    exact legible_node (by simp [nodeTypes]) (feed_notMem_number value) trivial
  | .reference name, named => by
    rw [Factor.unparse, proper_name_cons] at named
    rw [Factor.outline]
    exact legible_node (by simp [nodeTypes]) (feed_notMem_name named.1) trivial
  | .negation operand, named => by
    rw [Factor.unparse, proper_mark_cons] at named
    rw [Factor.outline]
    exact legible_node (by simp [nodeTypes]) feed_notMem_empty
      ⟨operand.legible_outline named, trivial⟩

theorem Expression.legible_outlines : (arguments : List Expression) →
    (∀ e ∈ arguments, ∀ x ∈ e.unparse, x.Proper) →
    Outline.LegibleAll (Expression.outlines arguments)
  | [], _ => trivial
  | first :: rest, named => by
    rw [List.forall_mem_cons] at named
    rw [Expression.outlines]
    exact ⟨first.legible_outline named.1, Expression.legible_outlines rest named.2⟩
end

theorem Condition.legible_outline (c : Condition) (named : ∀ x ∈ c.unparse, x.Proper) :
    c.outline.Legible := by
  rw [Condition.unparse, List.forall_mem_append, proper_mark_cons] at named
  exact legible_node (by simp [nodeTypes]) c.comparison.feed_notMem_symbol
    ⟨c.left.legible_outline named.1, c.right.legible_outline named.2, trivial⟩

/-- The node of a body is legible if its statements are. -/
theorem legible_body {body : List Statement}
    (below : Outline.LegibleAll (Statement.outlines body)) :
    (Outline.node "Body" "" (Statement.outlines body)).Legible :=
  legible_node (by simp [nodeTypes]) feed_notMem_empty below

mutual
theorem Statement.legible_outline : (v : Statement) → (∀ x ∈ v.unparse, x.Proper) →
    v.outline.Legible
  | .define name value, named => by
    rw [Statement.unparse, List.cons_append, List.cons_append, List.cons_append, proper_mark_cons,
      proper_name_cons, proper_mark_cons, proper_append_mark] at named
    rw [Statement.outline]
    exact legible_node (by simp [nodeTypes]) (feed_notMem_name named.1)
      ⟨value.legible_outline named.2, trivial⟩
  | .assign name value, named => by
    rw [Statement.unparse, List.cons_append, List.cons_append, proper_name_cons,
      proper_mark_cons, proper_append_mark] at named
    rw [Statement.outline]
    exact legible_node (by simp [nodeTypes]) (feed_notMem_name named.1)
      ⟨value.legible_outline named.2, trivial⟩
  | .giveBack value, named => by
    rw [Statement.unparse, List.cons_append, proper_mark_cons, proper_append_mark] at named
    rw [Statement.outline]
    exact legible_node (by simp [nodeTypes]) feed_notMem_empty
      ⟨value.legible_outline named, trivial⟩
  | .ifThen condition body, named => by
    rw [Statement.unparse, List.cons_append, proper_mark_cons, List.forall_mem_append,
      proper_inParens, proper_inBraces] at named
    rw [Statement.outline]
    exact legible_node (by simp [nodeTypes]) feed_notMem_empty
      ⟨condition.legible_outline named.1,
        legible_body (Statement.legible_outlines body named.2), trivial⟩
  | .ifThenElse condition body otherwise, named => by
    rw [Statement.unparse, List.cons_append, List.cons_append, proper_mark_cons,
      List.forall_mem_append, List.forall_mem_append, proper_mark_cons, proper_inParens,
      proper_inBraces, proper_inBraces] at named
    obtain ⟨⟨onCondition, onBody⟩, onOtherwise⟩ := named
    rw [Statement.outline]
    exact legible_node (by simp [nodeTypes]) feed_notMem_empty
      ⟨condition.legible_outline onCondition,
        legible_body (Statement.legible_outlines body onBody),
        legible_body (Statement.legible_outlines otherwise onOtherwise), trivial⟩
  | .loopWhile condition body, named => by
    rw [Statement.unparse, List.cons_append, proper_mark_cons, List.forall_mem_append,
      proper_inParens, proper_inBraces] at named
    rw [Statement.outline]
    exact legible_node (by simp [nodeTypes]) feed_notMem_empty
      ⟨condition.legible_outline named.1,
        legible_body (Statement.legible_outlines body named.2), trivial⟩
  | .loopOver index first last body, named => by
    rw [Statement.unparse, List.cons_append, proper_mark_cons, List.forall_mem_append,
      proper_inParens, proper_inBraces, List.cons_append, List.cons_append, proper_name_cons,
      proper_mark_cons, List.forall_mem_append, proper_mark_cons] at named
    obtain ⟨⟨onIndex, onFirst, onLast⟩, onBody⟩ := named
    rw [Statement.outline]
    exact legible_node (by simp [nodeTypes]) (feed_notMem_name onIndex)
      ⟨first.legible_outline onFirst, last.legible_outline onLast,
        legible_body (Statement.legible_outlines body onBody), trivial⟩

theorem Statement.legible_outlines : (statements : List Statement) →
    (∀ x ∈ Statement.unparseList statements, x.Proper) →
    Outline.LegibleAll (Statement.outlines statements)
  | [], _ => trivial
  | first :: rest, named => by
    rw [Statement.unparseList, List.forall_mem_append] at named
    rw [Statement.outlines]
    exact ⟨first.legible_outline named.1, Statement.legible_outlines rest named.2⟩
end

/-- The names of a function with proper names: its own, those of its parameters, and those of its
body. -/
theorem Function.named_iff {f : Function} :
    f.Named ↔ (IsIdentifier f.name.toList ∧ ∀ name ∈ f.parameters, IsIdentifier name.toList) ∧
      ∀ x ∈ Statement.unparseList f.body, x.Proper := by
  rw [Function.Named, Function.unparse, List.cons_append, List.cons_append, proper_mark_cons,
    proper_name_cons, List.forall_mem_append, proper_inParens, proper_separated, unparseBody,
    proper_inBraces, ← Statement.unparseList_eq, and_assoc]
  simp only [List.forall_mem_singleton]
  rfl

theorem Function.legible_outline {f : Function} (named : f.Named) : f.outline.Legible := by
  obtain ⟨⟨onName, onParameters⟩, onBody⟩ := Function.named_iff.1 named
  refine legible_node (by simp [nodeTypes]) ?_ (Statement.legible_outlines f.body onBody)
  simp only [String.toList_append, List.mem_append, not_or]
  exact ⟨⟨⟨feed_notMem_name onName, by decide +kernel⟩, feed_notMem_intercalate onParameters⟩,
    by decide +kernel⟩

/-- **The outline of a program with proper names is legible.** -/
theorem Program.legible_outline {p : Program} (named : p.Named) :
    Outline.LegibleAll p.outline.children := by
  obtain ⟨functions⟩ := p
  rw [Program.named_iff] at named
  show Outline.LegibleAll (functions.map Function.outline)
  induction functions with
  | nil => trivial
  | cons f functions ih =>
    rw [List.forall_mem_cons] at named
    exact ⟨Function.legible_outline named.1, ih named.2⟩

end FrontEnd.Language
