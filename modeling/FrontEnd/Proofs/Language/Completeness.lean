import FrontEnd.Proofs.Language.Unparse
import FrontEnd.Proofs.Parser.Execution

/-!
# What the grammar misses

Nothing: whatever the tokens spell is yielded, provided that the next token does not go on with it.
The choices are ordered and the options greedy, so there is something to show: no alternative takes
a token away from a later one, and no option takes a token that belongs to what follows.

## Main Definitions

* `Language.FollowsFactor`, `Language.FollowsTerm`, `Language.FollowsExpression` — the kinds of
  tokens behind a tree that do not go on with it
* `Language.Complete` — within a budget of depth, the recursive rules yield what the tokens spell

## Main Results

* `Language.yields_factor`, `Language.yields_term`, `Language.yields_expression`,
  `Language.yields_body`, `Language.yields_program` — the definitions do, if the rules do
* `Language.complete_call` — the rules do, to any depth

## Design Notes

**One token decides.**  Every alternative begins with a token of a kind of its own, so those in
front of the right one refuse the first token.  Only calls and references both begin with a name;
there the next token decides.

**The budget.**  From an expression it goes down to a term and a factor at the same position, and
then a token has to be read.  Four levels for each position that is left are therefore enough.
-/

namespace FrontEnd.Language

open FrontEnd.Parser

variable {s : TokenStream Kind} {call : {α : Type} → Rule α → Runner α} {i j k budget : Nat}

/-! ### What follows -/

/-- Behind a factor: a name in front of a parenthesis would be a call. -/
def FollowsFactor (kind : Kind) : Prop := kind ≠ .leftParen

/-- Behind a term: an operator would go on with it. -/
def FollowsTerm (kind : Kind) : Prop := FollowsFactor kind ∧ kind ≠ .times ∧ kind ≠ .divide

/-- Behind an expression: an operator would go on with it. -/
def FollowsExpression (kind : Kind) : Prop := FollowsTerm kind ∧ kind ≠ .plus ∧ kind ≠ .minus

instance : DecidablePred FollowsFactor := fun _ => inferInstanceAs (Decidable (_ ≠ _))

instance : DecidablePred FollowsTerm := fun kind =>
  inferInstanceAs (Decidable (FollowsFactor kind ∧ kind ≠ .times ∧ kind ≠ .divide))

instance : DecidablePred FollowsExpression := fun kind =>
  inferInstanceAs (Decidable (FollowsTerm kind ∧ kind ≠ .plus ∧ kind ≠ .minus))

/-- Within a budget of depth, the recursive rules yield what the tokens spell; and there is no
expression in front of a closing parenthesis. -/
structure Complete (s : TokenStream Kind) (call : {α : Type} → Rule α → Runner α)
    (budget : Nat) : Prop where
  factor : ∀ {i j v}, 4 * (s.size - i) + 1 ≤ budget → Spelled spells s i (Factor.unparse v) j →
    FollowsFactor (s.get j).kind → (call .factor).Yields i v j
  term : ∀ {i j v}, 4 * (s.size - i) + 2 ≤ budget → Spelled spells s i (Term.unparse v) j →
    FollowsTerm (s.get j).kind → (call .term).Yields i v j
  expression : ∀ {i j v}, 4 * (s.size - i) + 3 ≤ budget →
    Spelled spells s i (Expression.unparse v) j → FollowsExpression (s.get j).kind →
      (call .expression).Yields i v j
  body : ∀ {i j v}, 4 * (s.size - i) + 1 ≤ budget → Spelled spells s i (unparseBody v) j →
    (call .body).Yields i v j
  noExpression : ∀ {i}, 3 ≤ budget → i < s.size → (s.get i).kind = .rightParen →
    (call .expression).Fails i

/-! ### Single tokens -/

theorem yields_mark {kind : Kind} (inside : i + 1 < s.size)
    (spelled : spells (s.get i) (.mark kind)) :
    ((ignore kind : Phrase _ _).meaning s call).Yields i ⟨⟩ () (i + 1) :=
  yields_ignore spelled inside

theorem yields_name {text : String} (inside : i + 1 < s.size)
    (spelled : spells (s.get i) (.name text)) :
    (Phrase.name.meaning s call).Yields i text (text, ()) (i + 1) := by
  obtain ⟨same, rfl⟩ := spelled
  exact yields_map (yields_token same inside) Token.text

theorem yields_number {value : Int} (inside : i + 1 < s.size)
    (spelled : spells (s.get i) (.number value)) :
    (Phrase.number.meaning s call).Yields i value (value, ()) (i + 1) := by
  obtain ⟨same, value⟩ := spelled
  exact yields_tryMap (yields_token same inside) value

theorem yields_sign {α : Type} {kind : Kind} (value : α) (inside : i + 1 < s.size)
    (same : (s.get i).kind = kind) :
    ((Phrase.sign kind value).meaning s call).Yields i value (value, ()) (i + 1) :=
  yields_map (yields_token same inside) fun _ => value

theorem fails_sign {α : Type} {kind : Kind} (value : α) (other : (s.get i).kind ≠ kind) :
    ((Phrase.sign kind value).meaning s call).Fails i := fails_map (fails_token other) _

/-- What stands between two signs is spelled between them. -/
theorem spelled_enclosed {opening closing : Kind} {symbols : List Symbol}
    (h : Spelled spells s i (.mark opening :: symbols ++ [.mark closing]) j) :
    (i + 1 < s.size ∧ (s.get i).kind = opening) ∧
      ∃ k, Spelled spells s (i + 1) symbols k ∧ (k + 1 < s.size ∧ (s.get k).kind = closing) ∧
        k + 1 = j := by
  obtain ⟨inside, first, later⟩ := h
  obtain ⟨k, spelled, inside', last, rfl⟩ := spelled_append.1 later
  exact ⟨⟨inside, first⟩, k, spelled, ⟨inside', last⟩, rfl⟩

/-! ### Lists in parentheses -/

section CommaSeparated

variable {α : Type} {p : Phrase [α] α} {spell : α → List Symbol}

/-- Behind an item comes a comma or the closing parenthesis. -/
theorem kind_after_item {rest : List α}
    (spelled : Spelled spells s i (rest.flatMap fun b => [.mark .comma] ++ spell b) j)
    (close : (s.get j).kind = .rightParen) :
    (s.get i).kind = .comma ∨ (s.get i).kind = .rightParen := by
  cases rest with
  | nil =>
    obtain rfl : i = j := spelled
    exact .inr close
  | cons b rest => exact .inl spelled.2.1

/-- Items that are yielded one by one, each behind a comma, are yielded one after the other. -/
theorem repeats_comma {low : Nat}
    (item : ∀ {i j v}, low ≤ i → Spelled spells s i (spell v) j →
      (s.get j).kind = .comma ∨ (s.get j).kind = .rightParen →
        (p.meaning s call).Yields i v (v, ()) j)
    {rest : List α} (le : low ≤ i) (inside : i < s.size)
    (spelled : Spelled spells s i (rest.flatMap fun b => [.mark .comma] ++ spell b) j)
    (close : (s.get j).kind = .rightParen) :
    Runner.Repeats s ((((ignore .comma : Phrase _ _).meaning s call).value.pair
      (p.meaning s call).value).map Prod.snd) i rest j := by
  induction rest generalizing i with
  | nil =>
    obtain rfl : i = j := spelled
    have noComma : ((ignore .comma : Phrase _ _).meaning s call).Fails i :=
      fails_of_first close inside rfl
    exact .stop ((noComma.value.pair _).map _) inside
  | cons v rest ih =>
    rw [List.flatMap_cons, List.append_assoc, List.singleton_append] at spelled
    obtain ⟨inside', isComma, later⟩ := spelled
    obtain ⟨k, first, later⟩ := spelled_append.1 later
    have position := first.position
    -- A round reads the comma at least, so it moves on.
    have comma : ((ignore .comma : Phrase _ _).meaning s call).Yields i ⟨⟩ () (i + 1) :=
      yields_mark inside' isComma
    have next := item (by omega) first (kind_after_item later close)
    exact .more ((comma.value.pair next.value).map Prod.snd) (by omega) inside
      (ih (by omega) (first.inside inside') later)

/-- A list in front of a closing parenthesis is yielded, if its items are. -/
theorem yields_commaSeparated {low : Nat}
    (item : ∀ {i j v}, low ≤ i → Spelled spells s i (spell v) j →
      (s.get j).kind = .comma ∨ (s.get j).kind = .rightParen →
        (p.meaning s call).Yields i v (v, ()) j)
    (noItem : (s.get i).kind = .rightParen → (p.meaning s call).Fails i)
    {items : List α} (le : low ≤ i) (inside : i < s.size)
    (spelled : Spelled spells s i (separated [.mark .comma] spell items) j)
    (close : (s.get j).kind = .rightParen) :
    ((p.separatedBy (ignore .comma)).meaning s call).Yields i items (items, ()) j := by
  cases items with
  | nil =>
    obtain rfl : i = j := spelled
    exact yields_separatedBy_nil (noItem close) inside _
  | cons v rest =>
    obtain ⟨k, first, later⟩ := spelled_append.1 spelled
    have position := first.position
    have next := item le first (kind_after_item later close)
    exact yields_separatedBy_cons next
      (repeats_comma item (by omega) (first.inside inside) later close)

end CommaSeparated

/-! ### Factors -/

/-- A name that no parenthesis follows is no call. -/
theorem fails_call_of_next {text : String} (inside : i + 1 < s.size)
    (spelled : spells (s.get i) (.name text)) (next : (s.get (i + 1)).kind ≠ .leftParen) :
    (Phrase.call.meaning s call).Fails i :=
  fails_map (fails_skip (fails_and (fails_skip_right (yields_seq (yields_name inside spelled))
    (fails_ignore next)) _) _) _

theorem yields_group (h : Complete s call budget) {inner : Expression}
    (enough : 4 * (s.size - i) ≤ budget)
    (spelled : Spelled spells s i (Factor.group inner).unparse j) :
    (Phrase.group.meaning s call).Yields i (.group inner) (.group inner, ()) j := by
  obtain ⟨⟨inside, opened⟩, k, within, ⟨inside', closed⟩, rfl⟩ := spelled_enclosed spelled
  have value : (call .expression).Yields (i + 1) inner k := by
    refine h.expression (by omega) within ?_
    rw [closed]
    decide
  exact yields_map (yields_skip (yields_and (yields_mark inside opened) (yields_rule value))
    (yields_mark inside' closed)) _

theorem yields_call (h : Complete s call budget) {name : String} {arguments : List Expression}
    (enough : 4 * (s.size - i) ≤ budget)
    (spelled : Spelled spells s i (Factor.call name arguments).unparse j) :
    (Phrase.call.meaning s call).Yields i (.call name arguments) (.call name arguments, ()) j := by
  obtain ⟨inside, isName, spelled⟩ := spelled
  obtain ⟨⟨inside', opened⟩, k, within, ⟨inside'', closed⟩, rfl⟩ := spelled_enclosed spelled
  rw [Expression.unparseList_eq] at within
  have item {i' j' : Nat} {v : Expression} (le : i + 1 + 1 ≤ i')
      (spelled : Spelled spells s i' v.unparse j')
      (next : (s.get j').kind = .comma ∨ (s.get j').kind = .rightParen) :
      ((rule .expression : Phrase _ _).meaning s call).Yields i' v (v, ()) j' := by
    refine yields_rule (h.expression (by omega) spelled ?_)
    rcases next with next | next
    · rw [next]
      decide
    · rw [next]
      decide
  have noItem (next : (s.get (i + 1 + 1)).kind = .rightParen) :
      ((rule .expression : Phrase _ _).meaning s call).Fails (i + 1 + 1) :=
    fails_rule (h.noExpression (by omega) inside' next)
  have list := yields_commaSeparated item noItem (Nat.le_refl _) inside' within closed
  exact yields_map (yields_skip (yields_and (yields_skip (yields_seq (yields_name inside isName))
    (yields_mark inside' opened)) list) (yields_mark inside'' closed)) _

theorem yields_negation (h : Complete s call budget) {operand : Factor}
    (enough : 4 * (s.size - i) ≤ budget) (follows : FollowsFactor (s.get j).kind)
    (spelled : Spelled spells s i (Factor.negation operand).unparse j) :
    (Phrase.negation.meaning s call).Yields i (.negation operand) (.negation operand, ()) j := by
  obtain ⟨inside, isMinus, within⟩ := spelled
  have value : (call .factor).Yields (i + 1) operand j := h.factor (by omega) within follows
  exact yields_map (yields_and (yields_mark inside isMinus) (yields_rule value)) _

/-- **Factors.**  The alternatives in front of the right one give up at the first token, or a call
at the second. -/
theorem yields_factor (h : Complete s call budget) {v : Factor} (inside : i < s.size)
    (enough : 4 * (s.size - i) ≤ budget) (spelled : Spelled spells s i v.unparse j)
    (follows : FollowsFactor (s.get j).kind) :
    (Phrase.factor.meaning s call).Yields i v (v, ()) j := by
  cases v with
  | group inner =>
    apply yields_or_left
    apply yields_or_left
    apply yields_or_left
    apply yields_or_left
    exact yields_group h enough spelled
  | call name arguments =>
    have isName : (s.get i).kind = .identifier := spelled.2.1.1
    apply yields_or_left
    apply yields_or_left
    apply yields_or_left
    exact yields_or_of_first (yields_call h enough spelled) isName inside rfl
  | number value =>
    obtain ⟨inside', spelled, rfl⟩ := spelled
    apply yields_or_left
    apply yields_or_left
    exact yields_or_of_first (yields_map (yields_number inside' spelled) Factor.number) spelled.1
      inside rfl
  | reference name =>
    obtain ⟨inside', spelled, rfl⟩ := spelled
    have noGroup : (Phrase.group.meaning s call).Fails i := fails_of_first spelled.1 inside rfl
    -- A call begins with a name as well: it is the next token that tells.
    have noCall : (Phrase.call.meaning s call).Fails i :=
      fails_call_of_next inside' spelled follows
    apply yields_or_left
    have noNumber : ((Phrase.number.map Factor.number).meaning s call).Fails i :=
      fails_of_first spelled.1 inside rfl
    exact yields_or_right (yields_map (yields_name inside' spelled) Factor.reference)
      (fails_or (fails_or noGroup noCall inside) noNumber inside) inside
  | negation operand =>
    have isMinus : (s.get i).kind = .minus := spelled.2.1
    exact yields_or_of_first (yields_negation h enough follows spelled) isMinus inside rfl

/-! ### Terms and expressions -/

theorem yields_productOperator (operator : ProductOperator) (inside : i + 1 < s.size)
    (same : (s.get i).kind = operator.kind) :
    (Phrase.productOperator.meaning s call).Yields i operator (operator, ()) (i + 1) := by
  cases operator with
  | multiply => exact yields_or_left (yields_sign _ inside same) _
  | divide =>
    have here : i < s.size := Nat.lt_of_succ_lt inside
    exact yields_or_of_first (yields_sign _ inside same) same here rfl

theorem yields_sumOperator (operator : SumOperator) (inside : i + 1 < s.size)
    (same : (s.get i).kind = operator.kind) :
    (Phrase.sumOperator.meaning s call).Yields i operator (operator, ()) (i + 1) := by
  cases operator with
  | add => exact yields_or_left (yields_sign _ inside same) _
  | subtract =>
    have here : i < s.size := Nat.lt_of_succ_lt inside
    exact yields_or_of_first (yields_sign _ inside same) same here rfl

theorem yields_term (h : Complete s call budget) {v : Term} (inside : i < s.size)
    (enough : 4 * (s.size - i) + 1 ≤ budget) (spelled : Spelled spells s i v.unparse j)
    (follows : FollowsTerm (s.get j).kind) :
    (Phrase.term.meaning s call).Yields i v (v, ()) j := by
  cases v with
  | product left operator right =>
    obtain ⟨k, first, inside', sign, later⟩ := spelled_append.1 spelled
    have position := first.position
    -- What follows the left factor is the operator.
    have before : FollowsFactor (s.get k).kind := by
      rw [sign]
      cases operator <;> decide
    have left := h.factor enough first before
    have right := h.term (by omega) later follows
    have rest := yields_and (yields_seq (yields_productOperator operator inside' sign))
      (yields_rule right)
    exact yields_map (yields_and (yields_seq (yields_rule left)) (yields_optional_some rest)) _
  | factor factor =>
    -- The option is greedy, but there is no operator that it could take.
    obtain ⟨noCall, noTimes, noDivide⟩ := follows
    have left := h.factor enough spelled noCall
    have noOperator : (Phrase.productOperator.meaning s call).Fails j :=
      fails_or (fails_sign _ noTimes) (fails_sign _ noDivide) (spelled.inside inside)
    have nothing := yields_optional_none
      (fails_and (fails_seq noOperator) (rule Rule.term)) (spelled.inside inside)
    exact yields_map (yields_and (yields_seq (yields_rule left)) nothing) _

theorem yields_expression (h : Complete s call budget) {v : Expression} (inside : i < s.size)
    (enough : 4 * (s.size - i) + 2 ≤ budget) (spelled : Spelled spells s i v.unparse j)
    (follows : FollowsExpression (s.get j).kind) :
    (Phrase.expression.meaning s call).Yields i v (v, ()) j := by
  cases v with
  | sum left operator right =>
    obtain ⟨k, first, inside', sign, later⟩ := spelled_append.1 spelled
    have position := first.position
    have before : FollowsTerm (s.get k).kind := by
      rw [sign]
      cases operator <;> decide
    have left := h.term enough first before
    have right := h.expression (by omega) later follows
    have rest := yields_and (yields_seq (yields_sumOperator operator inside' sign))
      (yields_rule right)
    exact yields_map (yields_and (yields_seq (yields_rule left)) (yields_optional_some rest)) _
  | term term =>
    obtain ⟨noProduct, noPlus, noMinus⟩ := follows
    have left := h.term enough spelled noProduct
    have noOperator : (Phrase.sumOperator.meaning s call).Fails j :=
      fails_or (fails_sign _ noPlus) (fails_sign _ noMinus) (spelled.inside inside)
    have nothing := yields_optional_none
      (fails_and (fails_seq noOperator) (rule Rule.expression)) (spelled.inside inside)
    exact yields_map (yields_and (yields_seq (yields_rule left)) nothing) _

theorem yields_comparison (comparison : Comparison) (inside : i + 1 < s.size)
    (same : (s.get i).kind = comparison.kind) :
    (Phrase.comparison.meaning s call).Yields i comparison (comparison, ()) (i + 1) := by
  have here : i < s.size := Nat.lt_of_succ_lt inside
  cases comparison with
  | lessOrEqual =>
    apply yields_or_left
    apply yields_or_left
    apply yields_or_left
    apply yields_or_left
    apply yields_or_left
    exact yields_sign _ inside same
  | less =>
    apply yields_or_left
    apply yields_or_left
    apply yields_or_left
    apply yields_or_left
    exact yields_or_of_first (yields_sign _ inside same) same here rfl
  | greaterOrEqual =>
    apply yields_or_left
    apply yields_or_left
    apply yields_or_left
    exact yields_or_of_first (yields_sign _ inside same) same here rfl
  | greater =>
    apply yields_or_left
    apply yields_or_left
    exact yields_or_of_first (yields_sign _ inside same) same here rfl
  | equals =>
    apply yields_or_left
    exact yields_or_of_first (yields_sign _ inside same) same here rfl
  | notEqual =>
    exact yields_or_of_first (yields_sign _ inside same) same here rfl

theorem yields_condition (h : Complete s call budget) {c : Condition}
    (enough : 4 * (s.size - i) + 3 ≤ budget) (spelled : Spelled spells s i c.unparse j)
    (follows : FollowsExpression (s.get j).kind) :
    (Phrase.condition.meaning s call).Yields i c (c, ()) j := by
  obtain ⟨k, first, inside, sign, later⟩ := spelled_append.1 spelled
  have position := first.position
  have before : FollowsExpression (s.get k).kind := by
    rw [sign]
    cases c.comparison <;> decide
  have left := h.expression enough first before
  have right := h.expression (by omega) later follows
  exact yields_map (yields_and (yields_and (yields_seq (yields_rule left))
    (yields_comparison c.comparison inside sign)) (yields_rule right)) _

/-! ### Statements -/

/-- A keyword and a condition in parentheses. -/
theorem yields_guard (h : Complete s call budget) {word : Kind} {c : Condition}
    (enough : 4 * (s.size - i) ≤ budget) (inside : i + 1 < s.size)
    (isWord : (s.get i).kind = word)
    (spelled : Spelled spells s (i + 1) (inParens c.unparse) j) :
    (((((ignore word).skip (ignore .leftParen)).and Phrase.condition).skip
      (ignore .rightParen)).meaning s call).Yields i (c, ()) (c, ()) j := by
  obtain ⟨⟨inside', opened⟩, k, within, ⟨inside'', closed⟩, rfl⟩ := spelled_enclosed spelled
  have condition : (Phrase.condition.meaning s call).Yields (i + 1 + 1) c (c, ()) k := by
    refine yields_condition h (by omega) within ?_
    rw [closed]
    decide
  exact yields_skip (yields_and (yields_skip (yields_mark inside isWord)
    (yields_mark inside' opened)) condition) (yields_mark inside'' closed)

theorem yields_define (h : Complete s call budget) {name : String} {value : Expression}
    (enough : 4 * (s.size - i) ≤ budget)
    (spelled : Spelled spells s i (Statement.define name value).unparse j) :
    (Phrase.define.meaning s call).Yields i (.define name value) (.define name value, ()) j := by
  obtain ⟨inside₁, isLet, inside₂, isName, inside₃, isEqual, later⟩ := spelled
  obtain ⟨k, within, inside₄, isSemicolon, rfl⟩ := spelled_append.1 later
  have value : (call .expression).Yields (i + 1 + 1 + 1) value k := by
    refine h.expression (by omega) within ?_
    rw [isSemicolon]
    decide
  exact yields_map (yields_skip (yields_and (yields_skip (yields_and (yields_mark inside₁ isLet)
    (yields_name inside₂ isName)) (yields_mark inside₃ isEqual)) (yields_rule value))
    (yields_mark inside₄ isSemicolon)) _

theorem yields_assign (h : Complete s call budget) {name : String} {value : Expression}
    (enough : 4 * (s.size - i) ≤ budget)
    (spelled : Spelled spells s i (Statement.assign name value).unparse j) :
    (Phrase.assign.meaning s call).Yields i (.assign name value) (.assign name value, ()) j := by
  obtain ⟨inside₁, isName, inside₂, isEqual, later⟩ := spelled
  obtain ⟨k, within, inside₃, isSemicolon, rfl⟩ := spelled_append.1 later
  have value : (call .expression).Yields (i + 1 + 1) value k := by
    refine h.expression (by omega) within ?_
    rw [isSemicolon]
    decide
  exact yields_map (yields_skip (yields_and (yields_skip (yields_seq (yields_name inside₁ isName))
    (yields_mark inside₂ isEqual)) (yields_rule value)) (yields_mark inside₃ isSemicolon)) _

theorem yields_giveBack (h : Complete s call budget) {value : Expression}
    (enough : 4 * (s.size - i) ≤ budget)
    (spelled : Spelled spells s i (Statement.giveBack value).unparse j) :
    (Phrase.giveBack.meaning s call).Yields i (.giveBack value) (.giveBack value, ()) j := by
  obtain ⟨inside₁, isReturn, later⟩ := spelled
  obtain ⟨k, within, inside₂, isSemicolon, rfl⟩ := spelled_append.1 later
  have value : (call .expression).Yields (i + 1) value k := by
    refine h.expression (by omega) within ?_
    rw [isSemicolon]
    decide
  exact yields_map (yields_skip (yields_and (yields_mark inside₁ isReturn) (yields_rule value))
    (yields_mark inside₂ isSemicolon)) _

theorem fails_otherwise (call : {α : Type} → Rule α → Runner α)
    (other : (s.get i).kind ≠ .elseWord) :
    (Phrase.otherwise.meaning s call).Fails i := fails_map (fails_and (fails_ignore other) _) _

/-- A choice without a second branch must not be followed by one. -/
theorem yields_ifThen (h : Complete s call budget) {condition : Condition} {body : List Statement}
    (enough : 4 * (s.size - i) ≤ budget) (follows : (s.get j).kind ≠ .elseWord)
    (spelled : Spelled spells s i (Statement.ifThen condition body).unparse j) :
    (Phrase.choice.meaning s call).Yields i (.ifThen condition body)
      (.ifThen condition body, ()) j := by
  obtain ⟨k, ⟨inside, isIf, guarded⟩, within⟩ := spelled_append.1 spelled
  rw [Statement.unparseList_eq] at within
  have guard := yields_guard h enough inside isIf guarded
  have position := guarded.position
  have branch : (call .body).Yields k body j := h.body (by omega) within
  -- An `else` here would be taken for the second branch of this choice.
  have nothing := yields_optional_none (fails_otherwise call follows)
    (within.inside (guarded.inside inside))
  exact yields_map (yields_and (yields_and guard (yields_rule branch)) nothing) _

theorem yields_ifThenElse (h : Complete s call budget) {condition : Condition}
    {body otherwise : List Statement} (enough : 4 * (s.size - i) ≤ budget)
    (spelled : Spelled spells s i (Statement.ifThenElse condition body otherwise).unparse j) :
    (Phrase.choice.meaning s call).Yields i (.ifThenElse condition body otherwise)
      (.ifThenElse condition body otherwise, ()) j := by
  obtain ⟨l, front, inside', isElse, within'⟩ := spelled_append.1 spelled
  obtain ⟨k, ⟨inside, isIf, guarded⟩, within⟩ := spelled_append.1 front
  rw [Statement.unparseList_eq] at within within'
  have guard := yields_guard h enough inside isIf guarded
  have position := guarded.position
  have position' := front.position
  have branch : (call .body).Yields k body l := h.body (by omega) within
  have branch' : (call .body).Yields (l + 1) otherwise j := h.body (by omega) within'
  have second : (Phrase.otherwise.meaning s call).Yields l otherwise (otherwise, ()) j :=
    yields_map (yields_and (yields_mark inside' isElse) (yields_rule branch')) _
  exact yields_map (yields_and (yields_and guard (yields_rule branch))
    (yields_optional_some second)) _

theorem yields_loopWhile (h : Complete s call budget) {condition : Condition}
    {body : List Statement} (enough : 4 * (s.size - i) ≤ budget)
    (spelled : Spelled spells s i (Statement.loopWhile condition body).unparse j) :
    (Phrase.loopWhile.meaning s call).Yields i (.loopWhile condition body)
      (.loopWhile condition body, ()) j := by
  obtain ⟨k, ⟨inside, isWhile, guarded⟩, within⟩ := spelled_append.1 spelled
  rw [Statement.unparseList_eq] at within
  have guard := yields_guard h enough inside isWhile guarded
  have position := guarded.position
  have branch : (call .body).Yields k body j := h.body (by omega) within
  exact yields_map (yields_and guard (yields_rule branch)) _

theorem yields_loopOver (h : Complete s call budget) {index : String} {first last : Factor}
    {body : List Statement} (enough : 4 * (s.size - i) ≤ budget)
    (spelled : Spelled spells s i (Statement.loopOver index first last body).unparse j) :
    (Phrase.loopOver.meaning s call).Yields i (.loopOver index first last body)
      (.loopOver index first last body, ()) j := by
  obtain ⟨m, ⟨inside₁, isFor, head⟩, within⟩ := spelled_append.1 spelled
  have position := head.position
  obtain ⟨⟨inside₂, opened⟩, l, range, ⟨inside₃, closed⟩, rfl⟩ := spelled_enclosed head
  obtain ⟨k, ⟨inside₄, isName, inside₅, isIn, start⟩, inside₆, isEllipsis, stop⟩ :=
    spelled_append.1 range
  rw [Statement.unparseList_eq] at within
  have position' := start.position
  have first : (call .factor).Yields (i + 1 + 1 + 1 + 1) first k := by
    refine h.factor (by omega) start ?_
    rw [isEllipsis]
    decide
  have last : (call .factor).Yields (k + 1) last l := by
    refine h.factor (by omega) stop ?_
    rw [closed]
    decide
  have branch : (call .body).Yields (l + 1) body j := h.body (by omega) within
  exact yields_map (yields_and (yields_skip (yields_and (yields_skip (yields_and (yields_skip
    (yields_and (yields_skip (yields_mark inside₁ isFor) (yields_mark inside₂ opened))
      (yields_name inside₄ isName)) (yields_mark inside₅ isIn)) (yields_rule first))
    (yields_mark inside₆ isEllipsis)) (yields_rule last)) (yields_mark inside₃ closed))
    (yields_rule branch)) _

/-- **Statements.**  Each of them begins with a token of a kind of its own. -/
theorem yields_statement (h : Complete s call budget) {v : Statement} (inside : i < s.size)
    (enough : 4 * (s.size - i) ≤ budget) (spelled : Spelled spells s i v.unparse j)
    (follows : (s.get j).kind ≠ .elseWord) :
    (Phrase.statement.meaning s call).Yields i v (v, ()) j := by
  cases v with
  | define name value =>
    apply yields_or_left
    apply yields_or_left
    apply yields_or_left
    apply yields_or_left
    apply yields_or_left
    exact yields_define h enough spelled
  | assign name value =>
    have isName : (s.get i).kind = .identifier := spelled.2.1.1
    apply yields_or_left
    apply yields_or_left
    apply yields_or_left
    apply yields_or_left
    exact yields_or_of_first (yields_assign h enough spelled) isName inside rfl
  | giveBack value =>
    have isReturn : (s.get i).kind = .returnWord := spelled.2.1
    apply yields_or_left
    apply yields_or_left
    apply yields_or_left
    exact yields_or_of_first (yields_giveBack h enough spelled) isReturn inside rfl
  | ifThen condition body =>
    have isIf : (s.get i).kind = .ifWord := spelled.2.1
    apply yields_or_left
    apply yields_or_left
    exact yields_or_of_first (yields_ifThen h enough follows spelled) isIf inside rfl
  | ifThenElse condition body otherwise =>
    have isIf : (s.get i).kind = .ifWord := spelled.2.1
    apply yields_or_left
    apply yields_or_left
    exact yields_or_of_first (yields_ifThenElse h enough spelled) isIf inside rfl
  | loopWhile condition body =>
    have isWhile : (s.get i).kind = .whileWord := spelled.2.1
    apply yields_or_left
    exact yields_or_of_first (yields_loopWhile h enough spelled) isWhile inside rfl
  | loopOver index first last body =>
    have isFor : (s.get i).kind = .forWord := spelled.2.1
    exact yields_or_of_first (yields_loopOver h enough spelled) isFor inside rfl

/-! ### Bodies -/

/-- No statement begins with the word that continues a choice. -/
theorem kind_ne_else {v : Statement} (spelled : Spelled spells s i v.unparse j) :
    (s.get i).kind ≠ .elseWord := by
  cases v with
  | assign name value => exact ne_of_eq_of_ne spelled.2.1.1 nofun
  | _ => exact ne_of_eq_of_ne spelled.2.1 nofun

/-- Statements in front of a closing brace are yielded one after the other. -/
theorem repeats_statement (h : Complete s call budget) {body : List Statement}
    (inside : i < s.size) (enough : 4 * (s.size - i) ≤ budget)
    (spelled : Spelled spells s i (body.flatMap Statement.unparse) j)
    (closed : (s.get j).kind = .rightBrace) :
    Runner.Repeats s (Phrase.statement.meaning s call).value i body j := by
  induction body generalizing i with
  | nil =>
    obtain rfl : i = j := spelled
    have nothing : (Phrase.statement.meaning s call).Fails i := fails_of_first closed inside rfl
    exact .stop nothing.value inside
  | cons v rest ih =>
    obtain ⟨k, first, later⟩ := spelled_append.1 spelled
    have position := first.position
    have moved := List.length_pos_iff.2 v.unparse_ne_nil
    -- Behind a statement there is the next one or the closing brace.
    have follows : (s.get k).kind ≠ .elseWord := by
      cases rest with
      | nil =>
        obtain rfl : k = j := later
        exact ne_of_eq_of_ne closed nofun
      | cons next rest =>
        obtain ⟨_, next, -⟩ := spelled_append.1 later
        exact kind_ne_else next
    exact .more (yields_statement h inside enough first follows).value (by omega) inside
      (ih (first.inside inside) (by omega) later)

theorem yields_body (h : Complete s call budget) {body : List Statement}
    (enough : 4 * (s.size - i) ≤ budget) (spelled : Spelled spells s i (unparseBody body) j) :
    (Phrase.body.meaning s call).Yields i body (body, ()) j := by
  obtain ⟨⟨inside, opened⟩, k, within, ⟨inside', closed⟩, rfl⟩ := spelled_enclosed spelled
  have statements := yields_many (repeats_statement h inside (by omega) within closed)
  exact yields_map (yields_skip (yields_and (yields_mark inside opened) statements)
    (yields_mark inside' closed)) _

/-! ### Programs -/

theorem yields_function (h : Complete s call budget) {v : Function}
    (enough : 4 * (s.size - i) ≤ budget) (spelled : Spelled spells s i v.unparse j) :
    (Phrase.function.meaning s call).Yields i v (v, ()) j := by
  obtain ⟨m, ⟨inside₁, isDefun, inside₂, isName, head⟩, within⟩ := spelled_append.1 spelled
  have position := head.position
  obtain ⟨⟨inside₃, opened⟩, k, list, ⟨inside₄, closed⟩, rfl⟩ := spelled_enclosed head
  have item {i' j' : Nat} {name : String} (_ : 0 ≤ i')
      (spelled : Spelled spells s i' [.name name] j')
      (_ : (s.get j').kind = .comma ∨ (s.get j').kind = .rightParen) :
      (Phrase.name.meaning s call).Yields i' name (name, ()) j' := by
    obtain ⟨inside, isName, rfl⟩ := spelled
    exact yields_name inside isName
  have noItem (next : (s.get (i + 1 + 1 + 1)).kind = .rightParen) :
      (Phrase.name.meaning s call).Fails (i + 1 + 1 + 1) := fails_of_first next inside₃ rfl
  have parameters := yields_commaSeparated item noItem (Nat.zero_le _) inside₃ list closed
  have body : (call .body).Yields (k + 1) v.body j := h.body (by omega) within
  exact yields_map (yields_and (yields_skip (yields_and (yields_skip (yields_and
    (yields_mark inside₁ isDefun) (yields_name inside₂ isName)) (yields_mark inside₃ opened))
    parameters) (yields_mark inside₄ closed)) (yields_rule body)) _

/-- Functions in front of the end are yielded one after the other. -/
theorem repeats_function (h : Complete s call budget) {functions : List Function}
    (inside : i < s.size) (enough : 4 * (s.size - i) ≤ budget)
    (spelled : Spelled spells s i (functions.flatMap Function.unparse) j)
    (last : s.size ≤ j + 1) :
    Runner.Repeats s (Phrase.function.meaning s call).value i functions j := by
  induction functions generalizing i with
  | nil =>
    obtain rfl : i = j := spelled
    have atEnd : (s.get i).kind = .finish := (s.kind_get_eq_end_iff i).2 last
    have nothing : (Phrase.function.meaning s call).Fails i := fails_of_first atEnd inside rfl
    exact .stop nothing.value inside
  | cons v rest ih =>
    obtain ⟨k, first, later⟩ := spelled_append.1 spelled
    have position := first.position
    have moved : 0 < v.unparse.length := Nat.succ_pos _
    exact .more (yields_function h enough first).value (by omega) inside
      (ih (first.inside inside) (by omega) later)

theorem yields_program (h : Complete s call budget) {v : Program} (inside : i < s.size)
    (enough : 4 * (s.size - i) ≤ budget) (spelled : Spelled spells s i v.unparse j)
    (last : s.size ≤ j + 1) : (Phrase.program.meaning s call).Yields i v (v, ()) j := by
  have functions := yields_many (repeats_function h inside enough spelled last)
  exact yields_map (yields_skip functions (yields_finish last)) _

/-! ### Rules -/

/-- **The rules miss nothing**, within the budget of the depth to which they are entered. -/
theorem complete_call (s : TokenStream Kind) (depth : Nat) :
    Complete s (productions.call s depth) depth := by
  induction depth with
  | zero => constructor <;> omega
  | succ depth ih =>
    -- One level is spent on the definition of the rule, the others on the rules that it refers to.
    refine ⟨?_, ?_, ?_, ?_, ?_⟩
    · intro i j v enough spelled follows
      have inside := spelled.inside_of_ne_nil v.unparse_ne_nil
      rw [call_succ]
      exact (yields_factor ih inside (by omega) spelled follows).value
    · intro i j v enough spelled follows
      have inside := spelled.inside_of_ne_nil v.unparse_ne_nil
      rw [call_succ]
      exact (yields_term ih inside (by omega) spelled follows).value
    · intro i j v enough spelled follows
      have inside := spelled.inside_of_ne_nil v.unparse_ne_nil
      rw [call_succ]
      exact (yields_expression ih inside (by omega) spelled follows).value
    · intro i j body enough spelled
      rw [call_succ]
      exact (yields_body ih (by omega) spelled).value
    · intro i enough inside closed
      obtain ⟨depth, rfl⟩ := Nat.exists_eq_add_of_le' (Nat.le_of_succ_le_succ enough)
      -- An expression begins with a term and a term with a factor; a factor begins with a token.
      have refusal : productions.refuses .rightParen (depth + 3) .expression = true := rfl
      rw [← closed] at refusal
      exact Rules.fails_of_refuses inside refusal

end FrontEnd.Language
