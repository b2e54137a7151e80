import FrontEnd.Proofs.Pattern.Notation
import Mathlib.Data.Option.Basic

/-!
# The grammar of patterns

The notation of patterns has a grammar:

* `pattern := units END`
* `units := unit*`
* `unit := literal | '[' item+ ']' | '(' units ')'`
* `item := member ('-' member)?`

A literal is any character but a bracket or a parenthesis, and a member is any character but a
closing bracket.  Choice is ordered and repetition is greedy: an alternative is tried only where the
ones before it fail, and no repetition ends as long as it could go on.

`Pattern.read` reads a text character by character and never goes back.  This module states the
grammar as it stands above, and shows that reading a text agrees with it: the same texts are
patterns, and they denote the same patterns.  What is blamed in a text that is not a pattern is the
subject of `FrontEnd.Proofs.Pattern.Viability`.

## Main Definitions

* `Pattern.Phrase` — what a part of the grammar makes of the front of a text
* `Pattern.Phrase.many` — greedy repetition
* `Pattern.Grammar.item`, `Pattern.Grammar.unit`, `Pattern.Grammar.units` — the rules
* `Pattern.Grammar.parse` — the pattern of a whole text

## Main Results

* `Pattern.Grammar.units_eq` — the rule for units, which refers to itself
* `Pattern.Grammar.units_eq_some_iff` — what the rule for units reads
* `Pattern.Grammar.toOption_read` — reading a text agrees with the grammar

## Design Notes

**A rule may refer to itself on shorter texts.**  The units of a group begin behind a parenthesis,
so `units` is defined by recursion on the length of the text.  That this is no restriction is the
content of `units_eq`.

**The choice between units is settled by one character.**  No two kinds of units begin with the same
character, so the order of the alternatives does not matter.  What does matter is that an entry of a
class takes a dash with a member behind it in any case, even if the range is inverted then.
-/

namespace FrontEnd

/-- What a part of the grammar makes of the front of a text: a value and the text behind, or
nothing.  Alternatives are tried on the same text. -/
abbrev Pattern.Phrase (β : Type) := StateT (List Char) Option β

namespace Pattern.Phrase

variable {β : Type}

/-- One character, if it has a value. -/
def one (value : Char → Option β) : Phrase β := fun text =>
  match text with
  | [] => none
  | c :: behind => (value c).map fun x => (x, behind)

/-- The given character. -/
def just (c : Char) : Phrase Unit := one fun c' => if c' = c then some () else none

/-- The end of the text. -/
def atEnd : Phrase Unit := fun text => if text = [] then some ((), []) else none

/-- A phrase as often as possible.  Nothing is made of a repetition that would not end, because the
phrase reads nothing. -/
def many (phrase : Phrase β) : Phrase (List β) := fun text =>
  match phrase.run text with
  | none => some ([], text)
  | some (x, behind) =>
      if behind.length < text.length then
        (many phrase behind).map fun (xs, rest) => (x :: xs, rest)
      else none
termination_by text => text.length

variable {phrase phrase' : Phrase β} {text rest : List Char}

theorem run_eq_none_iff : phrase.run text = none ↔ ∀ x rest, phrase.run text ≠ some (x, rest) := by
  rw [Option.eq_none_iff_forall_ne_some, Prod.forall]

theorem one_eq_some_iff {value : Char → Option β} {x : β} :
    (one value).run text = some (x, rest) ↔ ∃ c, text = c :: rest ∧ value c = some x := by
  cases text with
  | nil => simp [one, StateT.run]
  | cons c text => simp [one, StateT.run, and_comm]

theorem just_eq_some_iff {c : Char} {u : Unit} :
    (just c).run text = some (u, rest) ↔ text = c :: rest := by
  simp [just, one_eq_some_iff]

theorem atEnd_eq_some_iff {u : Unit} :
    atEnd.run text = some (u, rest) ↔ text = [] ∧ rest = [] := by
  simp [atEnd, StateT.run, eq_comm]

theorem guard_eq_some_iff {condition : Prop} [Decidable condition] {u : Unit} :
    (guard condition : Phrase Unit).run text = some (u, rest) ↔ condition ∧ rest = text := by
  by_cases h : condition
  · simp [guard, h, eq_comm]
  · simp [guard, h]

theorem optional_eq_some_iff {found : Option β} :
    (optional phrase).run text = some (found, rest) ↔
      (∃ x, found = some x ∧ phrase.run text = some (x, rest)) ∨
        found = none ∧ phrase.run text = none ∧ rest = text := by
  rw [optional, StateT.run_orElse, Option.orElse_eq_some, StateT.run_map]
  cases phrase.run text with
  | none => simp [eq_comm]
  | some first => simp [Prod.ext_iff, eq_comm]

/-- Repetition ends where the phrase fails. -/
theorem many_eq_nil_iff :
    (many phrase).run text = some ([], rest) ↔ phrase.run text = none ∧ rest = text := by
  show many phrase text = _ ↔ _
  rw [many]
  cases phrase.run text with
  | none => simp [eq_comm]
  | some first => simp

/-- Repetition goes on behind the phrase. -/
theorem many_eq_cons_iff {x : β} {xs : List β} :
    (many phrase).run text = some (x :: xs, rest) ↔
      ∃ behind, phrase.run text = some (x, behind) ∧ behind.length < text.length ∧
        (many phrase).run behind = some (xs, rest) := by
  show many phrase text = _ ↔ ∃ behind, _ ∧ _ ∧ many phrase behind = _
  rw [many]
  cases phrase.run text with
  | none => simp
  | some first =>
    obtain ⟨y, behind⟩ := first
    by_cases shorter : behind.length < text.length
    · simp [shorter, and_comm, and_assoc]
    · simp [shorter]

/-- Repetition adds nothing to a text. -/
theorem length_le_of_many {xs : List β} (read : (many phrase).run text = some (xs, rest)) :
    rest.length ≤ text.length := by
  induction xs generalizing text with
  | nil => rw [(many_eq_nil_iff.1 read).2]
  | cons x xs ih =>
    obtain ⟨behind, -, shorter, more⟩ := many_eq_cons_iff.1 read
    exact Nat.le_trans (ih more) (Nat.le_of_lt shorter)

/-- It matters only what is repeated on the text and on what may be left of it. -/
theorem many_congr (same : ∀ behind : List Char, behind.length ≤ text.length →
    phrase.run behind = phrase'.run behind) : (many phrase).run text = (many phrase').run text := by
  induction length : text.length using Nat.strongRecOn generalizing text with | ind n ih =>
  show many phrase text = many phrase' text
  rw [many, many, same text (Nat.le_refl _)]
  cases phrase'.run text with
  | none => rfl
  | some first =>
    obtain ⟨x, rest⟩ := first
    by_cases shorter : rest.length < text.length
    · have more : many phrase rest = many phrase' rest :=
        ih rest.length (length ▸ shorter)
          (fun behind le => same behind (Nat.le_trans le (Nat.le_of_lt shorter))) rfl
      simp only [shorter, if_true, more]
    · simp only [shorter, if_false]

end Pattern.Phrase

namespace Pattern.Grammar

open Phrase

/-! ### The rules -/

/-- A character outside of classes. -/
def literal : Phrase Pattern :=
  one fun c => if c ∈ ['[', ']', '(', ')'] then none else some (.char c .done)

/-- A character inside a class. -/
def member : Phrase Char := one fun c => if c = ']' then none else some c

/-- An entry of a class, `member ('-' member)?`, where a range must not be inverted. -/
def item : Phrase ClassItem := do
  let first ← member
  match ← optional (just '-' *> member) with
  | none => return .single first
  | some last => if first ≤ last then return .range first last else failure

/-- A class, `'[' item+ ']'`. -/
def bracketed : Phrase Pattern := do
  just '['
  let items ← many item
  guard (items ≠ [])
  just ']'
  return .oneOf items .done

/-- A group, `'(' units ')'`. -/
def group (units : Phrase Pattern) : Phrase Pattern := do
  just '('
  let body ← units
  just ')'
  return .loop body .done

/-- A unit, `literal | '[' item+ ']' | '(' units ')'`. -/
def unit (units : Phrase Pattern) : Phrase Pattern := literal <|> bracketed <|> group units

/-- A sequence of units, `unit*`, where the units of a group are read from a shorter text. -/
def units : Phrase Pattern := fun text =>
  let shorter : Phrase Pattern := fun behind =>
    if behind.length < text.length then units behind else none
  (List.foldr (· ++ ·) Pattern.done <$> many (unit shorter)).run text
termination_by text => text.length

/-- A pattern, `units END`. -/
def pattern : Phrase Pattern := units <* atEnd

/-- The pattern of a text.  A pattern that consists of groups only is turned away. -/
def parse (text : String) : Option Pattern := do
  let p ← pattern.run' text.toList
  guard (p.onlyLoops = false)
  return p

variable {text rest : List Char} {p : Pattern} {inner inner' : Phrase Pattern}

/-! ### Classes -/

theorem member_eq_some_iff {c : Char} :
    member.run text = some (c, rest) ↔ text = c :: rest ∧ c ≠ ']' := by
  simp only [member, one_eq_some_iff, Option.ite_none_left_eq_some, Option.some.injEq]
  constructor
  · rintro ⟨_, rfl, isMember, rfl⟩
    exact ⟨rfl, isMember⟩
  · rintro ⟨rfl, isMember⟩
    exact ⟨c, rfl, isMember, rfl⟩

theorem rangeEnd_eq_some_iff {c : Char} :
    (just '-' *> member).run text = some (c, rest) ↔ text = '-' :: c :: rest ∧ c ≠ ']' := by
  simp only [StateT.run_seqRight, Option.bind_eq_bind, Option.bind_eq_some_iff, Prod.exists,
    just_eq_some_iff, member_eq_some_iff]
  constructor
  · rintro ⟨_, _, rfl, rfl, isMember⟩
    exact ⟨rfl, isMember⟩
  · rintro ⟨rfl, isMember⟩
    exact ⟨(), c :: rest, rfl, rfl, isMember⟩

theorem rangeEnd_eq_none_iff :
    (just '-' *> member).run text = none ↔ ∀ c rest, text = '-' :: c :: rest → c = ']' := by
  simp only [run_eq_none_iff, ne_eq, rangeEnd_eq_some_iff, not_and, not_not]

/-- An entry is read from its notation, unless a single member has a dash and a further member
behind it. -/
theorem item_eq_some_iff {entry : ClassItem} : item.run text = some (entry, rest) ↔
    text = entry.write ++ rest ∧ entry.WellFormed ∧
      ∀ c, entry = .single c → ∀ c' rest', rest = '-' :: c' :: rest' → c' = ']' := by
  simp only [item, StateT.run_bind, Option.bind_eq_bind, Option.bind_eq_some_iff, Prod.exists,
    member_eq_some_iff, optional_eq_some_iff, rangeEnd_eq_some_iff]
  constructor
  · rintro ⟨first, behind, ⟨rfl, isMember⟩, found, rest', range | single, made⟩
    · obtain ⟨last, rfl, rfl, isMember'⟩ := range
      by_cases le : first ≤ last
      · simp only [le, if_true, StateT.run_pure, Option.pure_def, Option.some.injEq,
          Prod.mk.injEq] at made
        obtain ⟨rfl, rfl⟩ := made
        exact ⟨rfl, ⟨isMember, isMember', le⟩, by simp⟩
      · simp [le] at made
    · obtain ⟨rfl, noRange, rfl⟩ := single
      simp only [StateT.run_pure, Option.pure_def, Option.some.injEq, Prod.mk.injEq] at made
      obtain ⟨rfl, rfl⟩ := made
      exact ⟨rfl, isMember, fun _ _ => rangeEnd_eq_none_iff.1 noRange⟩
  · rintro ⟨rfl, wellFormed, apart⟩
    cases entry with
    | single c =>
      have noRange := rangeEnd_eq_none_iff.2 (apart c rfl)
      exact ⟨c, rest, ⟨rfl, wellFormed⟩, none, rest, .inr ⟨rfl, noRange, rfl⟩, rfl⟩
    | range first last =>
      obtain ⟨isMember, isMember', le⟩ := wellFormed
      exact ⟨first, '-' :: last :: rest, ⟨rfl, isMember⟩, some last, rest,
        .inl ⟨last, rfl, rfl, isMember'⟩, by simp [le]⟩

/-- No entry begins with a closing bracket. -/
theorem item_closing (rest : List Char) : item.run (']' :: rest) = none := by
  simp only [run_eq_none_iff, ne_eq, item_eq_some_iff]
  rintro entry behind ⟨split, wellFormed, -⟩
  obtain ⟨c, more, begins, isMember⟩ := wellFormed.write_eq_cons
  rw [begins, List.cons_append] at split
  exact isMember (List.cons.inj split).1.symm

/-- In front of the entries of a class and its closing bracket, a dash and a member make no range
exactly if no entry begins with a dash there, except for a dash at the end. -/
theorem apart_iff {items : List ClassItem} (readable : items ≠ [] → ClassItem.Readable items)
    (rest : List Char) :
    (∀ c' rest', items.flatMap ClassItem.write ++ ']' :: rest = '-' :: c' :: rest' → c' = ']') ↔
      ∀ next others, items = next :: others → next.Dashed →
        next = .single '-' ∧ others = [] := by
  cases items with
  | nil => simp
  | cons next others =>
    cases next with
    | range first last => simp [ClassItem.Dashed]
    | single c =>
      cases others with
      | nil => simp [ClassItem.Dashed]
      | cons second others =>
        -- What stands behind the dash is the first member of another entry.
        obtain ⟨c', more, begins, isMember⟩ :=
          ((readable (by simp)).entries second (by simp)).write_eq_cons
        simp [ClassItem.Dashed, begins, isMember]

/-- Entries are read up to a closing bracket exactly if they form a class that can be read. -/
theorem items_eq_some_iff {items : List ClassItem} :
    (many item).run text = some (items, ']' :: rest) ↔
      text = items.flatMap ClassItem.write ++ ']' :: rest ∧
        (items ≠ [] → ClassItem.Readable items) := by
  induction items generalizing text with
  | nil =>
    rw [many_eq_nil_iff, List.flatMap_nil, List.nil_append]
    constructor
    · rintro ⟨-, rfl⟩
      exact ⟨rfl, fun some => absurd rfl some⟩
    · rintro ⟨rfl, -⟩
      exact ⟨item_closing rest, rfl⟩
  | cons entry items ih =>
    simp only [many_eq_cons_iff, item_eq_some_iff, ih]
    constructor
    · rintro ⟨behind, ⟨rfl, wellFormed, apart⟩, -, rfl, others⟩
      refine ⟨by simp, fun _ => ClassItem.readable_cons.2 ⟨wellFormed, others, ?_⟩⟩
      exact fun c next back single => (apart_iff others rest).1 (apart c single) next back
    · rintro ⟨rfl, readable⟩
      obtain ⟨wellFormed, others, undashed⟩ :=
        ClassItem.readable_cons.1 (readable (List.cons_ne_nil _ _))
      have apart (c : Char) (single : entry = .single c) :=
        (apart_iff others rest).2 fun next back => undashed c next back single
      obtain ⟨c, more, begins, -⟩ := wellFormed.write_eq_cons
      refine ⟨items.flatMap ClassItem.write ++ ']' :: rest, ⟨by simp, wellFormed, apart⟩, ?_, rfl,
        others⟩
      simp only [List.flatMap_cons, begins, List.cons_append, List.append_assoc, List.length_cons,
        List.length_append]
      omega

theorem bracketed_eq_some_iff : bracketed.run text = some (p, rest) ↔
    ∃ items, p = .oneOf items .done ∧ ClassItem.Readable items ∧
      text = '[' :: items.flatMap ClassItem.write ++ ']' :: rest := by
  simp only [bracketed, StateT.run_bind, Option.bind_eq_bind, Option.bind_eq_some_iff, Prod.exists,
    just_eq_some_iff, guard_eq_some_iff, StateT.run_pure, Option.pure_def, Option.some.injEq,
    Prod.mk.injEq]
  constructor
  · rintro ⟨_, _, rfl, items, _, read, _, _, ⟨nonempty, rfl⟩, _, _, rfl, rfl, rfl⟩
    obtain ⟨rfl, readable⟩ := items_eq_some_iff.1 read
    exact ⟨items, rfl, readable nonempty, rfl⟩
  · rintro ⟨items, rfl, readable, rfl⟩
    have read : (many item).run _ = some (items, ']' :: rest) :=
      items_eq_some_iff.2 ⟨rfl, fun _ => readable⟩
    exact ⟨(), _, rfl, items, _, read, (), _, ⟨readable.ne_nil, rfl⟩, (), rest, rfl, rfl, rfl⟩

/-! ### Units -/

theorem literal_eq_some_iff : literal.run text = some (p, rest) ↔
    ∃ c, p = .char c .done ∧ c ∉ ['[', ']', '(', ')'] ∧ text = c :: rest := by
  simp only [literal, one_eq_some_iff, Option.ite_none_left_eq_some, Option.some.injEq,
    eq_comm (a := p), and_comm, and_assoc]

theorem group_eq_some_iff : (group inner).run text = some (p, rest) ↔
    ∃ body behind, p = .loop body .done ∧ inner.run behind = some (body, ')' :: rest) ∧
      text = '(' :: behind := by
  simp only [group, StateT.run_bind, Option.bind_eq_bind, Option.bind_eq_some_iff, Prod.exists,
    just_eq_some_iff, StateT.run_pure, Option.pure_def, Option.some.injEq, Prod.mk.injEq]
  constructor
  · rintro ⟨_, behind, rfl, body, _, read, _, _, rfl, rfl, rfl⟩
    exact ⟨body, behind, rfl, read, rfl⟩
  · rintro ⟨body, behind, rfl, read, rfl⟩
    exact ⟨(), behind, rfl, body, _, read, (), rest, rfl, rfl, rfl⟩

/-- **One character tells which alternative applies**, so no earlier one has to fail first. -/
theorem unit_eq_some_iff : (unit inner).run text = some (p, rest) ↔
    literal.run text = some (p, rest) ∨ bracketed.run text = some (p, rest) ∨
      (group inner).run text = some (p, rest) := by
  have noLiteral {c : Char} (special : c ∈ ['[', ']', '(', ')']) (behind : List Char) :
      literal.run (c :: behind) = none := by
    simp only [run_eq_none_iff, ne_eq, literal_eq_some_iff]
    rintro p rest ⟨_, -, plain, ⟨⟩⟩
    exact plain special
  have noBracket (behind : List Char) : bracketed.run ('(' :: behind) = none := by
    simp only [run_eq_none_iff, ne_eq, bracketed_eq_some_iff]
    rintro p rest ⟨items, -, -, ⟨⟩⟩
  rw [unit, StateT.run_orElse, StateT.run_orElse, Option.orElse_eq_some, Option.orElse_eq_some]
  constructor
  · rintro (first | ⟨-, second | ⟨-, third⟩⟩)
    · exact .inl first
    · exact .inr (.inl second)
    · exact .inr (.inr third)
  · rintro (first | second | third)
    · exact .inl first
    · obtain ⟨items, -, -, rfl⟩ := bracketed_eq_some_iff.1 second
      exact .inr ⟨noLiteral (by simp) _, .inl second⟩
    · obtain ⟨body, behind, -, -, rfl⟩ := group_eq_some_iff.1 third
      exact .inr ⟨noLiteral (by simp) _, .inr ⟨noBracket behind, third⟩⟩

/-- A unit refers to units on shorter texts only. -/
theorem unit_congr (same : ∀ behind : List Char, behind.length < text.length →
    inner.run behind = inner'.run behind) : (unit inner).run text = (unit inner').run text := by
  have sameGroup : (group inner).run text = (group inner').run text := by
    ext ⟨p, rest⟩
    simp only [group_eq_some_iff]
    refine exists_congr fun body => exists_congr fun behind => and_congr_right fun _ =>
      and_congr_left fun opened => ?_
    rw [same behind (by simp [opened])]
  simp only [unit, StateT.run_orElse, sameGroup]

/-- **The rule for units** refers to itself. -/
theorem units_eq : units = List.foldr (· ++ ·) .done <$> many (unit units) := by
  funext text
  rw [units]
  show StateT.run (_ <$> many _) text = StateT.run (_ <$> many _) text
  rw [StateT.run_map, StateT.run_map]
  congr 1
  refine many_congr fun text' le => unit_congr fun behind shorter => ?_
  exact if_pos (Nat.lt_of_lt_of_le shorter le)

theorem units_eq_some_iff_many : units.run text = some (p, rest) ↔
    ∃ all, (many (unit units)).run text = some (all, rest) ∧ all.foldr (· ++ ·) .done = p := by
  conv => lhs; rw [units_eq]
  simp only [StateT.run_map, Option.map_eq_map, Option.map_eq_some_iff, Prod.exists, Prod.mk.injEq]
  constructor
  · rintro ⟨all, _, read, rfl, rfl⟩
    exact ⟨all, read, rfl⟩
  · rintro ⟨all, read, rfl⟩
    exact ⟨all, rest, read, rfl, rfl⟩

/-- Reading units adds nothing to a text. -/
theorem length_le_of_units (read : units.run text = some (p, rest)) :
    rest.length ≤ text.length := by
  obtain ⟨all, repeated, -⟩ := units_eq_some_iff_many.1 read
  exact length_le_of_many repeated

/-- Units end where no unit begins; otherwise they go on behind a unit of one of the three kinds. -/
theorem units_eq_some_iff_first : units.run text = some (p, rest) ↔
    p = .done ∧ (unit units).run text = none ∧ rest = text ∨
    (∃ c later behind, p = .char c later ∧ c ∉ ['[', ']', '(', ')'] ∧ text = c :: behind ∧
      units.run behind = some (later, rest)) ∨
    (∃ items later behind, p = .oneOf items later ∧ ClassItem.Readable items ∧
      text = '[' :: items.flatMap ClassItem.write ++ ']' :: behind ∧
      units.run behind = some (later, rest)) ∨
    ∃ body later inside behind, p = .loop body later ∧
      units.run inside = some (body, ')' :: behind) ∧ text = '(' :: inside ∧
      units.run behind = some (later, rest) := by
  have next {first later : Pattern} {behind : List Char}
      (read : (unit units).run text = some (first, behind)) (shorter : behind.length < text.length)
      (more : units.run behind = some (later, rest)) :
      units.run text = some (first ++ later, rest) := by
    obtain ⟨all, others, rfl⟩ := units_eq_some_iff_many.1 more
    exact units_eq_some_iff_many.2
      ⟨first :: all, many_eq_cons_iff.2 ⟨behind, read, shorter, others⟩, rfl⟩
  constructor
  · intro read
    obtain ⟨all, repeated, rfl⟩ := units_eq_some_iff_many.1 read
    cases all with
    | nil => exact .inl ⟨rfl, many_eq_nil_iff.1 repeated⟩
    | cons first all =>
      obtain ⟨behind, begun, -, others⟩ := many_eq_cons_iff.1 repeated
      have more := units_eq_some_iff_many.2 ⟨all, others, rfl⟩
      rcases unit_eq_some_iff.1 begun with character | bracket | loop
      · obtain ⟨c, rfl, plain, rfl⟩ := literal_eq_some_iff.1 character
        exact .inr (.inl ⟨c, _, behind, rfl, plain, rfl, more⟩)
      · obtain ⟨items, rfl, readable, rfl⟩ := bracketed_eq_some_iff.1 bracket
        exact .inr (.inr (.inl ⟨items, _, behind, rfl, readable, rfl, more⟩))
      · obtain ⟨body, inside, rfl, inner, rfl⟩ := group_eq_some_iff.1 loop
        exact .inr (.inr (.inr ⟨body, _, inside, behind, rfl, inner, rfl, more⟩))
  · rintro (⟨rfl, ended⟩ | ⟨c, later, behind, rfl, plain, rfl, more⟩ |
      ⟨items, later, behind, rfl, readable, rfl, more⟩ |
      ⟨body, later, inside, behind, rfl, inner, rfl, more⟩)
    · exact units_eq_some_iff_many.2 ⟨[], many_eq_nil_iff.2 ended, rfl⟩
    · have character : literal.run _ = some (.char c .done, behind) :=
        literal_eq_some_iff.2 ⟨c, rfl, plain, rfl⟩
      exact next (unit_eq_some_iff.2 (.inl character)) (by simp) more
    · have bracket : bracketed.run _ = some (.oneOf items .done, behind) :=
        bracketed_eq_some_iff.2 ⟨items, rfl, readable, rfl⟩
      refine next (unit_eq_some_iff.2 (.inr (.inl bracket))) ?_ more
      simp only [List.length_cons, List.length_append]
      omega
    · have loop := group_eq_some_iff.2 ⟨body, inside, rfl, inner, rfl⟩
      have closed := length_le_of_units inner
      refine next (unit_eq_some_iff.2 (.inr (.inr loop))) ?_ more
      rw [List.length_cons] at closed ⊢
      omega

/-- No unit begins with a closing parenthesis. -/
theorem unit_closing (rest : List Char) : (unit units).run (')' :: rest) = none := by
  simp only [run_eq_none_iff, ne_eq, unit_eq_some_iff, literal_eq_some_iff, bracketed_eq_some_iff,
    group_eq_some_iff]
  rintro p behind (⟨_, -, plain, ⟨⟩⟩ | ⟨_, -, -, ⟨⟩⟩ | ⟨_, _, -, -, ⟨⟩⟩)
  simp at plain

/-- No unit begins at the end of a text. -/
theorem unit_nil : (unit units).run [] = none := by
  simp only [run_eq_none_iff, ne_eq, unit_eq_some_iff, literal_eq_some_iff, bracketed_eq_some_iff,
    group_eq_some_iff]
  rintro p behind (⟨_, -, -, ⟨⟩⟩ | ⟨_, -, -, ⟨⟩⟩ | ⟨_, _, -, -, ⟨⟩⟩)

/-- **Units are read greedily**: what is read is the notation of a pattern, and no further unit
begins behind it. -/
theorem units_eq_some_iff : units.run text = some (p, rest) ↔
    text = p.write ++ rest ∧ p.WellFormed ∧ (unit units).run rest = none := by
  induction p generalizing text rest with
  | done =>
    rw [units_eq_some_iff_first]
    constructor
    · rintro (⟨-, ended, rfl⟩ | ⟨_, _, _, ⟨⟩, -⟩ | ⟨_, _, _, ⟨⟩, -⟩ | ⟨_, _, _, _, ⟨⟩, -⟩)
      exact ⟨rfl, trivial, ended⟩
    · rintro ⟨rfl, -, ended⟩
      exact .inl ⟨rfl, ended, rfl⟩
  | char c later ih =>
    rw [units_eq_some_iff_first]
    constructor
    · rintro (⟨⟨⟩, -⟩ | ⟨_, _, _, ⟨⟩, plain, rfl, more⟩ | ⟨_, _, _, ⟨⟩, -⟩ | ⟨_, _, _, _, ⟨⟩, -⟩)
      obtain ⟨rfl, wellFormed, ended⟩ := ih.1 more
      exact ⟨rfl, ⟨plain, wellFormed⟩, ended⟩
    · rintro ⟨rfl, ⟨plain, wellFormed⟩, ended⟩
      have more := ih.2 ⟨rfl, wellFormed, ended⟩
      exact .inr (.inl ⟨c, later, _, rfl, plain, rfl, more⟩)
  | oneOf items later ih =>
    rw [units_eq_some_iff_first]
    constructor
    · rintro (⟨⟨⟩, -⟩ | ⟨_, _, _, ⟨⟩, -⟩ | ⟨_, _, _, ⟨⟩, readable, rfl, more⟩ | ⟨_, _, _, _, ⟨⟩, -⟩)
      obtain ⟨rfl, wellFormed, ended⟩ := ih.1 more
      exact ⟨by simp [write], ⟨readable, wellFormed⟩, ended⟩
    · rintro ⟨rfl, ⟨readable, wellFormed⟩, ended⟩
      have more := ih.2 ⟨rfl, wellFormed, ended⟩
      exact .inr (.inr (.inl ⟨items, later, _, rfl, readable, by simp [write], more⟩))
  | loop body later ihBody ihLater =>
    rw [units_eq_some_iff_first]
    constructor
    · rintro (⟨⟨⟩, -⟩ | ⟨_, _, _, ⟨⟩, -⟩ | ⟨_, _, _, ⟨⟩, -⟩ | ⟨_, _, _, _, ⟨⟩, inner, rfl, more⟩)
      obtain ⟨rfl, inside, -⟩ := ihBody.1 inner
      obtain ⟨rfl, wellFormed, ended⟩ := ihLater.1 more
      exact ⟨by simp [write], ⟨inside, wellFormed⟩, ended⟩
    · rintro ⟨rfl, ⟨inside, wellFormed⟩, ended⟩
      -- The units of the body end at the parenthesis that closes the group.
      have inner := ihBody.2 ⟨rfl, inside, unit_closing (later.write ++ rest)⟩
      have more := ihLater.2 ⟨rfl, wellFormed, ended⟩
      exact .inr (.inr (.inr ⟨body, later, _, _, rfl, inner, by simp [write], more⟩))

/-! ### Whole texts -/

/-- The grammar reads a whole text exactly if it is the notation of a pattern. -/
theorem pattern_eq_some_iff : pattern.run text = some (p, rest) ↔
    p.write = text ∧ p.WellFormed ∧ rest = [] := by
  simp only [pattern, StateT.run_seqLeft, Option.bind_eq_bind, Option.bind_eq_some_iff, Prod.exists,
    units_eq_some_iff, atEnd_eq_some_iff, Option.pure_def, Option.some.injEq, Prod.mk.injEq]
  constructor
  · rintro ⟨_, _, ⟨rfl, wellFormed, -⟩, _, _, ⟨rfl, rfl⟩, rfl, rfl⟩
    exact ⟨(List.append_nil _).symm, wellFormed, rfl⟩
  · rintro ⟨rfl, wellFormed, rfl⟩
    exact ⟨p, [], ⟨(List.append_nil _).symm, wellFormed, unit_nil⟩, (), [], ⟨rfl, rfl⟩, rfl, rfl⟩

theorem parse_eq_some_iff {text : String} : parse text = some p ↔
    (p.write = text.toList ∧ p.WellFormed) ∧ p.onlyLoops = false := by
  simp only [parse, StateT.run'_eq, Option.bind_eq_bind, Option.bind_eq_some_iff,
    Option.map_eq_map, Option.map_eq_some_iff, Prod.exists, pattern_eq_some_iff,
    Option.guard_eq_some', Option.pure_def, Option.some.injEq]
  constructor
  · rintro ⟨_, ⟨_, _, ⟨same, wellFormed, -⟩, rfl⟩, _, consumes, rfl⟩
    exact ⟨⟨same, wellFormed⟩, consumes⟩
  · rintro ⟨⟨same, wellFormed⟩, consumes⟩
    exact ⟨p, ⟨p, [], ⟨same, wellFormed, rfl⟩, rfl⟩, (), consumes, rfl⟩

/-- **Reading a text agrees with the grammar**: it gives the pattern that the grammar finds, and an
error if there is none. -/
theorem toOption_read (text : String) : (Pattern.read text).toOption = parse text := by
  ext p
  rw [parse_eq_some_iff, ← readUnits_eq_ok_iff, ← readChars_eq_ok_iff, ← read_eq_ok_iff_readChars]
  cases Pattern.read text with
  | ok q => simp [Except.toOption]
  | error fault => simp [Except.toOption]

/-- An inverted range is not given up in favour of single members. -/
example : parse "[az-a]" = none := by rw [← toOption_read]; rfl

end Pattern.Grammar

end FrontEnd
