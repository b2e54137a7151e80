import FrontEnd.Language.Outline
import Mathlib.Data.List.Infix

/-!
# Reading a drawing back

An outline is drawn with one line for each node.  The margin of a line tells where the node stands
in the tree, so the outline can be read off its drawing.

## Main Definitions

* `Language.Outline.Legible` — types and labels keep to their line, and types end in front of labels
* `Language.Outline.Elsewhere` — text that has no line of a tree behind a margin

## Main Results

* `Language.append_cons_inj_of_notMem` — a text is cut in one way at a character
* `Language.Outline.drawAll_append_inj` — trees in front of other text are told by what is drawn
* `Language.Outline.drawAll_inj` — legible trees with the same drawing are the same

## Design Notes

**Trees are read in front of more text.**  What follows the drawing of a tree are its later siblings
and then the siblings of its parents, and none of these stands behind the margin of its children.
This is all that has to be known of the rest, and it is what ends a row of siblings: the connector
that is drawn with the last one is not needed for it.
-/

namespace FrontEnd.Language

/-- A text is cut in one way at the first occurrence of a character. -/
theorem append_cons_inj_of_notMem {c : Char} {front front' back back' : List Char}
    (first : c ∉ front) (first' : c ∉ front') (same : front ++ c :: back = front' ++ c :: back') :
    front = front' ∧ back = back' := by
  have length : front.length = front'.length := by
    have position := congrArg (List.idxOf c) same
    rwa [List.idxOf_append_of_notMem first, List.idxOf_append_of_notMem first',
      List.idxOf_cons_self, List.idxOf_cons_self] at position
  obtain ⟨fronts, backs⟩ := List.append_inj same length
  exact ⟨fronts, (List.cons.inj backs).2⟩

namespace Outline

/-! ### Lines -/

mutual
/-- Type and label of every node stand on one line, and no type contains the colon that divides it
from a label. -/
def Legible : Outline → Prop
  | node type label children =>
      ('\n' ∉ type.toList ∧ ':' ∉ type.toList ∧ '\n' ∉ label.toList) ∧ LegibleAll children

/-- All trees are legible. -/
def LegibleAll : List Outline → Prop
  | [] => True
  | first :: rest => first.Legible ∧ LegibleAll rest
end

variable {margin type label type' label' : String} {last last' : Bool}

theorem toList_caption (type label : String) :
    (caption type label).toList =
      type.toList ++ if label = "" then [] else ':' :: ' ' :: label.toList := by
  by_cases empty : label = ""
  · simp [caption, empty]
  · simp [caption, empty]

/-- A caption tells the type and the label. -/
theorem caption_inj (plain : ':' ∉ type.toList) (plain' : ':' ∉ type'.toList)
    (same : caption type label = caption type' label') : type = type' ∧ label = label' := by
  have same := congrArg String.toList same
  rw [toList_caption, toList_caption] at same
  by_cases empty : label = "" <;> by_cases empty' : label' = ""
  · rw [if_pos empty, if_pos empty', List.append_nil, List.append_nil] at same
    exact ⟨String.toList_injective same, empty.trans empty'.symm⟩
  · rw [if_pos empty, if_neg empty', List.append_nil] at same
    exact absurd (same ▸ List.mem_append_right _ List.mem_cons_self) plain
  · rw [if_neg empty, if_pos empty', List.append_nil] at same
    exact absurd (same ▸ List.mem_append_right _ List.mem_cons_self) plain'
  · rw [if_neg empty, if_neg empty'] at same
    obtain ⟨types, labels⟩ := append_cons_inj_of_notMem plain plain' same
    exact ⟨String.toList_injective types, String.toList_injective (List.cons.inj labels).2⟩

theorem notMem_caption (type_one : '\n' ∉ type.toList) (label_one : '\n' ∉ label.toList) :
    '\n' ∉ (caption type label).toList := by
  rw [toList_caption]
  split
  · simpa using type_one
  · simp [type_one, label_one]

/-- The first character that is drawn for a node. -/
def connector (last : Bool) : Char := if last then '└' else '├'

theorem connector_inj : connector last = connector last' → last = last' := by
  revert last last'
  decide

theorem line_ne_connector (last : Bool) : '│' ≠ connector last := by
  cases last <;> decide

/-- What stands in front of the children of a node, behind its margin. -/
def indent (last : Bool) : String := if last then "  " else "│ "

/-- The drawing of a node in front of more text: margin, connector and caption, then the
children. -/
theorem draw_append (margin : String) (last : Bool) (type label : String)
    (children : List Outline) (rest : List Char) :
    ((node type label children).draw margin last).toList ++ rest =
      margin.toList ++ connector last :: '─' :: ' ' ::
        ((caption type label).toList ++
          '\n' :: ((drawAll (margin ++ indent last) children).toList ++ rest)) := by
  cases last <;> simp [draw, connector, indent]

theorem drawAll_nil_append (margin : String) (rest : List Char) :
    (drawAll margin []).toList ++ rest = rest := rfl

/-- The drawing of siblings in front of more text: the first one, then the others. -/
theorem drawAll_cons_append (margin : String) (first : Outline) (siblings : List Outline)
    (rest : List Char) :
    (drawAll margin (first :: siblings)).toList ++ rest =
      (first.draw margin siblings.isEmpty).toList ++
        ((drawAll margin siblings).toList ++ rest) := by
  rw [drawAll, String.toList_append, List.append_assoc]

/-! ### Trees in front of more text -/

/-- No line of a tree stands at the front of the text, behind the margin. -/
def Elsewhere (margin : String) (rest : List Char) : Prop :=
  ∀ c ∈ ['├', '└', '│', ' '], ¬ margin.toList ++ [c] <+: rest

theorem elsewhere_nil (margin : String) : Elsewhere margin [] := by
  intro c _ front
  exact absurd (List.prefix_nil.1 front) (List.append_ne_nil_of_right_ne_nil _ (by simp))

variable {rest : List Char}

/-- A node is drawn behind its margin. -/
theorem not_elsewhere_draw (margin : String) (last : Bool) (o : Outline) (rest : List Char) :
    ¬ Elsewhere margin ((o.draw margin last).toList ++ rest) := by
  obtain ⟨type, label, children⟩ := o
  intro elsewhere
  refine elsewhere (connector last) (by cases last <;> decide) ?_
  rw [draw_append, List.prefix_append_right_inj]
  exact List.prefix_append [_] _

/-- What follows the children of a node does not stand behind their margin: neither the siblings of
the node, nor what follows the last of them. -/
theorem elsewhere_children (h : Elsewhere margin rest) (siblings : List Outline) :
    Elsewhere (margin ++ indent siblings.isEmpty)
      ((drawAll margin siblings).toList ++ rest) := by
  intro c _ front
  rw [String.toList_append, List.append_assoc] at front
  cases siblings with
  | nil =>
    rw [drawAll_nil_append] at front
    refine h ' ' (by simp) (.trans ?_ front)
    exact (List.prefix_append_right_inj _).2 (List.prefix_append [' '] [' ', c])
  | cons next siblings =>
    obtain ⟨type, label, children⟩ := next
    rw [drawAll_cons_append, draw_append, List.prefix_append_right_inj] at front
    -- The children would stand behind a line, and the siblings stand behind a connector.
    have behind : (indent false).toList = ['│', ' '] := by simp [indent]
    rw [List.isEmpty_cons, behind, List.cons_append] at front
    exact line_ne_connector _ (List.cons_prefix_cons.1 front).1

mutual
/-- A tree and what follows it are told by the drawing of the tree in front of it. -/
theorem draw_append_inj : (o o' : Outline) → (margin : String) → (last last' : Bool) →
    (rest rest' : List Char) → o.Legible → o'.Legible →
    Elsewhere (margin ++ indent last) rest → Elsewhere (margin ++ indent last') rest' →
    (o.draw margin last).toList ++ rest = (o'.draw margin last').toList ++ rest' →
    o = o' ∧ rest = rest'
  | node type label children, node type' label' children', margin, last, last', rest, rest',
      ⟨⟨typeOne, plain, labelOne⟩, legible⟩, ⟨⟨typeOne', plain', labelOne'⟩, legible'⟩,
      elsewhere, elsewhere', same => by
    rw [draw_append, draw_append, List.append_cancel_left_eq, List.cons.injEq, List.cons.injEq,
      List.cons.injEq] at same
    obtain ⟨connectors, -, -, lines⟩ := same
    obtain rfl := connector_inj connectors
    obtain ⟨captions, below⟩ := append_cons_inj_of_notMem (notMem_caption typeOne labelOne)
      (notMem_caption typeOne' labelOne') lines
    obtain ⟨rfl, rfl⟩ := caption_inj plain plain' (String.toList_injective captions)
    obtain ⟨rfl, rfl⟩ := drawAll_append_inj children children' (margin ++ indent last) rest rest'
      legible legible' elsewhere elsewhere' below
    exact ⟨rfl, rfl⟩

/-- **Trees and what follows them are told by the drawing of the trees in front of it.** -/
theorem drawAll_append_inj : (forest forest' : List Outline) → (margin : String) →
    (rest rest' : List Char) → LegibleAll forest → LegibleAll forest' →
    Elsewhere margin rest → Elsewhere margin rest' →
    (drawAll margin forest).toList ++ rest = (drawAll margin forest').toList ++ rest' →
    forest = forest' ∧ rest = rest'
  | [], [], _, _, _, _, _, _, _, same => ⟨rfl, same⟩
  | [], o :: siblings, margin, rest, rest', _, _, elsewhere, _, same => by
    rw [drawAll_nil_append, drawAll_cons_append] at same
    exact absurd (same ▸ elsewhere) (not_elsewhere_draw margin _ o _)
  | o :: siblings, [], margin, rest, rest', _, _, _, elsewhere', same => by
    rw [drawAll_nil_append, drawAll_cons_append] at same
    exact absurd (same ▸ elsewhere') (not_elsewhere_draw margin _ o _)
  | o :: siblings, o' :: siblings', margin, rest, rest', ⟨first, later⟩, ⟨first', later'⟩,
      elsewhere, elsewhere', same => by
    rw [drawAll_cons_append, drawAll_cons_append] at same
    obtain ⟨rfl, behind⟩ := draw_append_inj o o' margin _ _ _ _ first first'
      (elsewhere_children elsewhere siblings) (elsewhere_children elsewhere' siblings') same
    obtain ⟨rfl, rfl⟩ := drawAll_append_inj siblings siblings' margin rest rest' later later'
      elsewhere elsewhere' behind
    exact ⟨rfl, rfl⟩
end

/-- **Legible trees with the same drawing are the same.** -/
theorem drawAll_inj {forest forest' : List Outline} (h : LegibleAll forest)
    (h' : LegibleAll forest') (same : drawAll margin forest = drawAll margin forest') :
    forest = forest' :=
  (drawAll_append_inj forest forest' margin [] [] h h' (elsewhere_nil margin)
    (elsewhere_nil margin) (by rw [same])).1

end Outline

end FrontEnd.Language
