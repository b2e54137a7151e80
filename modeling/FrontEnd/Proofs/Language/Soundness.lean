import FrontEnd.Proofs.Language.Unparse
import FrontEnd.Proofs.Parser.Notation

/-!
# What the grammar reads

Whatever the grammar may read as a tree is the notation of that tree.

## Main Definitions

* `Language.Rule.reading` — a rule may read the notation of a tree as this tree

## Main Results

* `Language.closed_reading` — what the definition of a rule may read, the rule may read

## Design Notes

Each phrase of the grammar has a lemma that puts together the notations of its parts.  What is left
to prove is that the tree written as a whole looks like its parts written one after the other.
-/

namespace FrontEnd.Language

open FrontEnd.Parser

/-- A rule may read the notation of a tree as this tree. -/
def Rule.reading {α : Type} (rule : Rule α) : Reading Kind α :=
  fun w a => List.Forall₂ spells w (rule.unparse a)

theorem reads_tree {α : Type} (reference : Rule α) :
    ((rule reference : Phrase _ _).readings Rule.reading).Reads spells reference.unparse
      fun t => reference.unparse t.1 := reads_rule fun _ _ spelled => spelled

/-! ### Single tokens -/

theorem reads_mark (kind : Kind) :
    ((ignore kind : Phrase _ _).readings Rule.reading).Reads spells (fun _ => [.mark kind])
      fun _ => [.mark kind] := reads_ignore fun _ same => same

theorem reads_name :
    (Phrase.name.readings Rule.reading).Reads spells (fun text => [.name text])
      fun t => [.name t.1] := by
  have token : ((token .identifier : Phrase _ _).readings Rule.reading).Reads spells
      (fun t => [.name t.text]) fun t => [.name t.1.text] := reads_token fun _ same => ⟨same, rfl⟩
  exact reads_map token fun _ => rfl

theorem reads_number :
    (Phrase.number.readings Rule.reading).Reads spells (fun value => [.number value])
      fun t => [.number t.1] := by
  refine .single ?_
  rintro _ value ⟨t, ⟨rfl, same⟩, accepted⟩
  exact .cons ⟨same, accepted⟩ .nil

theorem reads_sign {α : Type} {kind : Kind} {value : α} {spell : α → List Symbol}
    (same : spell value = [.mark kind]) :
    ((Phrase.sign kind value).readings Rule.reading).Reads spells spell fun t => spell t.1 := by
  have token : ((token kind : Phrase _ _).readings Rule.reading).Reads spells
      (fun _ => [.mark kind]) fun _ => [.mark kind] := reads_token fun _ same => same
  exact reads_map token fun _ => same

/-! ### Arithmetic -/

theorem reads_group :
    (Phrase.group.readings Rule.reading).Reads spells Factor.unparse fun t => t.1.unparse :=
  reads_map (reads_skip (reads_and (reads_mark _) (reads_tree .expression)) (reads_mark _))
    fun (_, ()) => rfl

theorem reads_call :
    (Phrase.call.readings Rule.reading).Reads spells Factor.unparse fun t => t.1.unparse := by
  refine reads_map (reads_skip (reads_and (reads_skip (reads_seq reads_name) (reads_mark _))
    (reads_separatedBy (reads_tree .expression) (reads_mark _))) (reads_mark _)) ?_
  rintro ⟨name, arguments, ⟨⟩⟩
  show Factor.unparse (.call name arguments) = _
  rw [Factor.unparse, Expression.unparseList_eq]
  rfl

theorem reads_negation :
    (Phrase.negation.readings Rule.reading).Reads spells Factor.unparse fun t => t.1.unparse :=
  reads_map (reads_and (reads_mark _) (reads_tree .factor)) fun (_, ()) => rfl

theorem reads_factor :
    (Phrase.factor.readings Rule.reading).Reads spells Factor.unparse fun t => t.1.unparse :=
  reads_or (reads_or (reads_or (reads_or reads_group reads_call)
    (reads_map reads_number fun _ => rfl)) (reads_map reads_name fun _ => rfl)) reads_negation

theorem reads_productOperator :
    (Phrase.productOperator.readings Rule.reading).Reads spells (fun o => [.mark o.kind])
      fun t => [.mark t.1.kind] := reads_or (reads_sign rfl) (reads_sign rfl)

theorem reads_term :
    (Phrase.term.readings Rule.reading).Reads spells Term.unparse fun t => t.1.unparse := by
  refine reads_map (reads_and (reads_seq (reads_tree .factor))
    (reads_optional (reads_and (reads_seq reads_productOperator) (reads_tree .term)))) ?_
  rintro ⟨left, right, ⟨⟩⟩
  -- An option that is not taken has read nothing.
  cases right with
  | none => exact (List.append_nil left.unparse).symm
  | some right => rfl

theorem reads_sumOperator :
    (Phrase.sumOperator.readings Rule.reading).Reads spells (fun o => [.mark o.kind])
      fun t => [.mark t.1.kind] := reads_or (reads_sign rfl) (reads_sign rfl)

theorem reads_expression :
    (Phrase.expression.readings Rule.reading).Reads spells Expression.unparse
      fun t => t.1.unparse := by
  refine reads_map (reads_and (reads_seq (reads_tree .term))
    (reads_optional (reads_and (reads_seq reads_sumOperator) (reads_tree .expression)))) ?_
  rintro ⟨left, right, ⟨⟩⟩
  cases right with
  | none => exact (List.append_nil left.unparse).symm
  | some right => rfl

/-! ### Statements -/

theorem reads_comparison :
    (Phrase.comparison.readings Rule.reading).Reads spells (fun o => [.mark o.kind])
      fun t => [.mark t.1.kind] :=
  reads_or (reads_or (reads_or (reads_or (reads_or (reads_sign rfl) (reads_sign rfl))
    (reads_sign rfl)) (reads_sign rfl)) (reads_sign rfl)) (reads_sign rfl)

theorem reads_condition :
    (Phrase.condition.readings Rule.reading).Reads spells Condition.unparse
      fun t => t.1.unparse := by
  refine reads_map (reads_and (reads_and (reads_seq (reads_tree .expression)) reads_comparison)
    (reads_tree .expression)) ?_
  rintro ⟨left, comparison, right, ⟨⟩⟩
  exact (List.append_assoc _ [_] _).symm

theorem reads_define :
    (Phrase.define.readings Rule.reading).Reads spells Statement.unparse fun t => t.1.unparse :=
  reads_map (reads_skip (reads_and (reads_skip (reads_and (reads_mark _) reads_name)
    (reads_mark _)) (reads_tree .expression)) (reads_mark _)) fun (_, _, ()) => rfl

theorem reads_assign :
    (Phrase.assign.readings Rule.reading).Reads spells Statement.unparse fun t => t.1.unparse :=
  reads_map (reads_skip (reads_and (reads_skip (reads_seq reads_name) (reads_mark _))
    (reads_tree .expression)) (reads_mark _)) fun (_, _, ()) => rfl

theorem reads_giveBack :
    (Phrase.giveBack.readings Rule.reading).Reads spells Statement.unparse fun t => t.1.unparse :=
  reads_map (reads_skip (reads_and (reads_mark _) (reads_tree .expression)) (reads_mark _))
    fun (_, ()) => rfl

theorem reads_otherwise :
    (Phrase.otherwise.readings Rule.reading).Reads spells
      (fun body => .mark .elseWord :: unparseBody body)
      fun t => .mark .elseWord :: unparseBody t.1 :=
  reads_map (reads_and (reads_mark _) (reads_tree .body)) fun (_, ()) => rfl

theorem reads_choice :
    (Phrase.choice.readings Rule.reading).Reads spells Statement.unparse fun t => t.1.unparse := by
  refine reads_map (reads_and (reads_and (reads_skip (reads_and (reads_skip (reads_mark _)
    (reads_mark _)) reads_condition) (reads_mark _)) (reads_tree .body))
    (reads_optional reads_otherwise)) ?_
  rintro ⟨condition, body, otherwise, ⟨⟩⟩
  -- The two kinds of choices come from one phrase, which yields both.
  cases otherwise with
  | none =>
    show Statement.unparse (.ifThen condition body) = _
    rw [Statement.unparse, Statement.unparseList_eq]
    exact (List.append_nil _).symm
  | some otherwise =>
    show Statement.unparse (.ifThenElse condition body otherwise) = _
    rw [Statement.unparse, Statement.unparseList_eq, Statement.unparseList_eq]
    rfl

theorem reads_loopWhile :
    (Phrase.loopWhile.readings Rule.reading).Reads spells Statement.unparse
      fun t => t.1.unparse := by
  refine reads_map (reads_and (reads_skip (reads_and (reads_skip (reads_mark _) (reads_mark _))
    reads_condition) (reads_mark _)) (reads_tree .body)) ?_
  rintro ⟨condition, body, ⟨⟩⟩
  show Statement.unparse (.loopWhile condition body) = _
  rw [Statement.unparse, Statement.unparseList_eq]
  rfl

theorem reads_loopOver :
    (Phrase.loopOver.readings Rule.reading).Reads spells Statement.unparse
      fun t => t.1.unparse := by
  refine reads_map (reads_and (reads_skip (reads_and (reads_skip (reads_and (reads_skip
    (reads_and (reads_skip (reads_mark _) (reads_mark _)) reads_name) (reads_mark _))
    (reads_tree .factor)) (reads_mark _)) (reads_tree .factor)) (reads_mark _))
    (reads_tree .body)) ?_
  rintro ⟨index, first, last, body, ⟨⟩⟩
  show Statement.unparse (.loopOver index first last body) = _
  rw [Statement.unparse, Statement.unparseList_eq]
  simp [Rule.unparse, inParens, unparseBody, Tuple.front, Tuple.back]

theorem reads_statement :
    (Phrase.statement.readings Rule.reading).Reads spells Statement.unparse fun t => t.1.unparse :=
  reads_or (reads_or (reads_or (reads_or (reads_or reads_define reads_assign)
    reads_giveBack) reads_choice) reads_loopWhile) reads_loopOver

theorem reads_body :
    (Phrase.body.readings Rule.reading).Reads spells unparseBody fun t => unparseBody t.1 :=
  reads_map (reads_skip (reads_and (reads_mark _) (reads_many reads_statement))
    (reads_mark _)) fun (_, ()) => rfl

/-! ### Programs -/

theorem reads_function :
    (Phrase.function.readings Rule.reading).Reads spells Function.unparse fun t => t.1.unparse :=
  reads_map (reads_and (reads_skip (reads_and (reads_skip (reads_and (reads_mark _) reads_name)
    (reads_mark _)) (reads_separatedBy reads_name (reads_mark _))) (reads_mark _))
    (reads_tree .body)) fun (_, _, _, ()) => rfl

theorem reads_program :
    (Phrase.program.readings Rule.reading).Reads spells Program.unparse fun t => t.1.unparse :=
  reads_map (reads_skip (reads_many reads_function) reads_finish)
    fun _ => (List.append_nil _).symm

/-! ### Rules -/

/-- **The grammar reads notations only.**  What the definition of a rule may read as a tree is the
notation of that tree. -/
theorem closed_reading : productions.Closed Rule.reading := by
  intro α rule definition found w a read
  cases found
  cases rule with
  | expression => exact reads_expression.value w a read
  | term => exact reads_term.value w a read
  | factor => exact reads_factor.value w a read
  | body => exact reads_body.value w a read
  | program => exact reads_program.value w a read

end FrontEnd.Language
