import FrontEnd.Proofs.Parser.Reach

/-!
# Sequences are flat

However the parts of a sequence are grouped, running it means to run its leaves from left to right,
and its items are what the leaves contribute, in this order.

## Main Definitions

* `Item`, `Tuple.toList` — values with their types, and a tuple as a list of these
* `Leaf`, `Parser.leaves` — what a sequence consists of in the end
* `Leaf.inTurn` — run leaves one after the other
* `Chain` — one way to group the parts of a chain of sequences

## Main Results

* `Parser.shape_parts` — the value and the items of an expression come out of the same runs
* `Parser.view_parts` — the items of an expression are those of its leaves
* `Parser.sequences_flatten` — both, and that the grouping of a chain does not matter

## Design Notes

**Leaves yield values.**  Leaves are run for their value only, in `Leaf.inTurn`, and what a value
contributes depends on the sort of leaf: one item, or none if the leaf reads to drop.  The second
runs, for items, that expressions have for being parts of sequences do not occur there.

**Types as data.**  Two groupings of the same parts have tuples of different types.  As lists of
values with their types they can be compared.
-/

namespace FrontEnd

/-- A value with its type. -/
abbrev Item := Σ α : Type, α

/-- The values of a tuple one by one. -/
def Tuple.toList : {items : List Type} → Tuple items → List Item
  | [], _ => []
  | α :: _, (a, rest) => ⟨α, a⟩ :: toList rest

theorem Tuple.toList_append {first second : List Type} (t : Tuple first) (u : Tuple second) :
    (t.append u).toList = t.toList ++ u.toList := by
  induction first with
  | nil => rfl
  | cons α first ih => exact congrArg (⟨α, t.1⟩ :: ·) (ih t.2)

variable {κ : Type} {ρ : Type → Type}

/-! ### Leaves -/

/-- An expression with its types. -/
structure Part (κ : Type) (ρ : Type → Type) where
  {items : List Type}
  {α : Type}
  parser : Parser κ ρ items α

/-- A part of a sequence that is no sequence itself. -/
structure Leaf (κ : Type) (ρ : Type → Type) extends Part κ ρ where
  /-- Whether what it contributes is kept. -/
  kept : Bool

/-- The leaf without what it contributes. -/
def Leaf.drop (leaf : Leaf κ ρ) : Leaf κ ρ := { leaf with kept := false }

namespace Parser

/-- What a sequence consists of, from left to right. -/
def leaves : {items : List Type} → {α : Type} → Parser κ ρ items α → List (Leaf κ ρ)
  | _, _, seq p => p.leaves
  | _, _, and p q => p.leaves ++ q.leaves
  | _, _, skip p q => p.leaves ++ q.leaves.map Leaf.drop
  | _, _, p => [⟨⟨p⟩, true⟩]

/-- Whether an expression that is no sequence contributes its value to a sequence. -/
def contributes : {items : List Type} → {α : Type} → Parser κ ρ items α → Bool
  | _, _, ignore _ => false
  | _, _, finish => false
  | _, _, _ => true

end Parser

/-- What a value of a leaf contributes to a sequence. -/
def Leaf.contribution (leaf : Leaf κ ρ) (a : leaf.α) : List Item :=
  if leaf.kept && leaf.parser.contributes then [⟨leaf.α, a⟩] else []

variable {α β : Type}

/-! ### Shapes of outcomes -/

namespace Outcome

/-- Whether a run matches, and the cursor behind it; not what it yields. -/
def shape (x : Outcome α) : Except Fault (Bool × Cursor) :=
  x.map fun (value, c) => (value.isSome, c)

/-- Outcomes of one shape are the same fault, or no match or a match with the same cursor behind
it. -/
theorem shape_eq_cases {x : Outcome α} {y : Outcome β} (same : x.shape = y.shape) :
    (∃ e, x = .error e ∧ y = .error e) ∨ (∃ c, x = .ok (none, c) ∧ y = .ok (none, c)) ∨
      ∃ a b c, x = .ok (some a, c) ∧ y = .ok (some b, c) := by
  rcases x with e | ⟨_ | a, c⟩ <;> rcases y with e' | ⟨_ | b, c'⟩ <;> cases same
  · exact .inl ⟨e, rfl, rfl⟩
  · exact .inr (.inl ⟨c, rfl, rfl⟩)
  · exact .inr (.inr ⟨a, b, c, rfl, rfl⟩)

section Same

variable {x : Outcome α} {y : Outcome β} (same : x.shape = y.shape)
include same

theorem eq_error_of_shape_eq {e : Fault} (fault : x = .error e) : y = .error e := by
  rcases shape_eq_cases same with ⟨e, run, run'⟩ | ⟨c, run, -⟩ | ⟨_, _, c, run, -⟩ <;>
    cases fault.symm.trans run
  exact run'

theorem exists_eq_ok_of_shape_eq {value : Option α} {c : Cursor} (run : x = .ok (value, c)) :
    ∃ value', y = .ok (value', c) ∧ value.isSome = value'.isSome := by
  rcases shape_eq_cases same with ⟨e, other, -⟩ | ⟨c, other, run'⟩ | ⟨a, b, c, other, run'⟩ <;>
    cases run.symm.trans other
  · exact ⟨none, run', rfl⟩
  · exact ⟨some b, run', rfl⟩

end Same

end Outcome

variable [TokenKind κ] {s : TokenStream κ}

namespace Runner

theorem shape_map (r : Runner α) (f : α → β) (c : Cursor) : (r.map f c).shape = (r c).shape := by
  rw [map_apply]
  rcases r c with e | ⟨_ | a, c'⟩ <;> rfl

variable {r : Runner α} {r' : Runner β} {c : Cursor}

theorem shape_pair {γ : Type} (same : (r c).shape = (r' c).shape) (q : Runner γ) :
    (r.pair q c).shape = (r'.pair q c).shape := by
  rw [pair_apply, pair_apply]
  rcases Outcome.shape_eq_cases same with
    ⟨e, run, run'⟩ | ⟨c', run, run'⟩ | ⟨a, b, c', run, run'⟩ <;> rw [run, run']
  · rfl
  · rfl
  · exact (q.shape_map _ c').trans (q.shape_map _ c').symm

theorem shape_attempt (same : (r c).shape = (r' c).shape) :
    (r.attempt s c).shape = (r'.attempt s c).shape := by
  rw [attempt_apply, attempt_apply]
  rcases Outcome.shape_eq_cases same with
    ⟨e, run, run'⟩ | ⟨c', run, run'⟩ | ⟨a, b, c', run, run'⟩ <;> rw [run, run'] <;> rfl

end Runner

variable [DecidableEq κ] {call : {α : Type} → ρ α → Runner α}

/-- **Two runs, one shape.**  An expression is run for its value and for its items alike: it matches
at the same places, and leaves the same cursor behind. -/
theorem Parser.shape_parts {items : List Type} {α : Type} (p : Parser κ ρ items α) (c : Cursor) :
    ((p.meaning s call).value c).shape = ((p.meaning s call).parts c).shape := by
  induction p generalizing c with
  | seq | and | finish => rfl
  | ignore kind =>
    exact (Runner.shape_map (Runner.token s kind) (fun _ => Ignored.mk) c).trans
      (Runner.shape_map (Runner.token s kind) (fun _ => ()) c).symm
  | skip p q ih _ =>
    refine Runner.shape_attempt ?_
    rw [Runner.shape_map, Runner.shape_map]
    exact Runner.shape_pair (ih c) _
  | token | map | tryMap | or | many | optional | separatedBy | rule =>
    exact (Runner.shape_map _ Tuple.single c).symm

/-! ### Running leaves -/

/-- Run leaves one after the other; all have to match. -/
def Leaf.inTurn (s : TokenStream κ) (call : {α : Type} → ρ α → Runner α) :
    List (Leaf κ ρ) → Cursor → Except Fault (Option (List Item) × Cursor)
  | [], c => .ok (some [], c)
  | leaf :: rest, c =>
      ((leaf.parser.meaning s call).value c).bind fun
        | (none, c') => .ok (none, c')
        | (some a, c') =>
            (inTurn s call rest c').map fun (items, c'') =>
              (items.map (leaf.contribution a ++ ·), c'')

namespace Leaf

theorem inTurn_cons (leaf : Leaf κ ρ) (rest : List (Leaf κ ρ)) (c : Cursor) :
    inTurn s call (leaf :: rest) c = ((leaf.parser.meaning s call).value c).bind fun
      | (none, c') => .ok (none, c')
      | (some a, c') =>
          (inTurn s call rest c').map fun (items, c'') =>
            (items.map (leaf.contribution a ++ ·), c'') := rfl

/-- Leaves are run part by part. -/
theorem inTurn_append (front back : List (Leaf κ ρ)) (c : Cursor) :
    inTurn s call (front ++ back) c = (inTurn s call front c).bind fun
      | (none, c') => .ok (none, c')
      | (some items, c') =>
          (inTurn s call back c').map fun (items', c'') => (items'.map (items ++ ·), c'') := by
  induction front generalizing c with
  | nil =>
    show inTurn s call back c = (inTurn s call back c).map _
    rcases inTurn s call back c with e | ⟨_ | items, c'⟩ <;> rfl
  | cons leaf front ih =>
    rw [List.cons_append, inTurn_cons, inTurn_cons]
    rcases (leaf.parser.meaning s call).value c with e | ⟨_ | a, c'⟩
    · rfl
    · rfl
    · show (inTurn s call (front ++ back) c').map _ = ((inTurn s call front c').map _).bind _
      rw [ih]
      rcases inTurn s call front c' with e | ⟨_ | items, c''⟩
      · rfl
      · rfl
      · show ((inTurn s call back c'').map _).map _ = (inTurn s call back c'').map _
        rcases inTurn s call back c'' with e | ⟨_ | items', c₃⟩
        · rfl
        · rfl
        · exact congrArg (fun items => Except.ok (some items, c₃)) (List.append_assoc _ _ _).symm

/-- Leaves that are dropped match as they do otherwise, and contribute nothing. -/
theorem inTurn_drop (leaves : List (Leaf κ ρ)) (c : Cursor) :
    inTurn s call (leaves.map drop) c =
      (inTurn s call leaves c).map fun (items, c') => (items.map fun _ => [], c') := by
  induction leaves generalizing c with
  | nil => rfl
  | cons leaf leaves ih =>
    rw [List.map_cons, inTurn_cons, inTurn_cons]
    show ((leaf.parser.meaning s call).value c).bind _ = _
    rcases (leaf.parser.meaning s call).value c with e | ⟨_ | a, c'⟩
    · rfl
    · rfl
    · show (inTurn s call (leaves.map drop) c').map _ = ((inTurn s call leaves c').map _).map _
      rw [ih]
      rcases inTurn s call leaves c' with e | ⟨_ | items, c''⟩ <;> rfl

end Leaf

/-! ### Sequences -/

/-- Without a match, back to the position of a cursor. -/
def Cursor.backTo (s : TokenStream κ) (c : Cursor) :
    Option (List Item) × Cursor → Option (List Item) × Cursor
  | (none, c') => (none, c'.restore s c.position)
  | (some items, c') => (some items, c')

namespace Outcome

/-- An outcome, with its value seen as items. -/
def view (see : α → List Item) (x : Outcome α) : Except Fault (Option (List Item) × Cursor) :=
  x.map fun (value, c) => (value.map see, c)

variable {x : Outcome α} {c : Cursor}

theorem view_eq_error_iff (see : α → List Item) {e : Fault} :
    x.view see = .error e ↔ x = .error e := by
  rcases x with e' | ⟨_ | a, c'⟩ <;> simp [view, Except.map]

theorem view_eq_none_iff (see : α → List Item) : x.view see = .ok (none, c) ↔ x = .ok (none, c) := by
  rcases x with e' | ⟨_ | a, c'⟩ <;> simp [view, Except.map]

theorem view_eq_some_iff {see : α → List Item} {values : List Item} :
    x.view see = .ok (some values, c) ↔ ∃ a, x = .ok (some a, c) ∧ see a = values := by
  rcases x with e' | ⟨_ | a, c'⟩ <;> simp [view, Except.map]
  exact and_comm

/-- What is not looked at may have any type. -/
theorem view_nil_eq_of_shape {y : Outcome β} (same : x.shape = y.shape) (see : β → List Item) :
    (x.view fun _ => []) = (y.view see).map fun (items, c) => (items.map fun _ => [], c) := by
  rcases shape_eq_cases same with ⟨e, rfl, rfl⟩ | ⟨c', rfl, rfl⟩ | ⟨a, b, c', rfl, rfl⟩ <;> rfl

end Outcome

theorem Runner.view_map (r : Runner α) (f : α → β) (see : β → List Item) (c : Cursor) :
    (r.map f c).view see = (r c).view fun a => see (f a) := by
  rw [map_apply]
  rcases r c with e | ⟨_ | a, c'⟩ <;> rfl

/-- **One after the other.**  If two runs do, each for itself, what some leaves do in turn, then
both together do what all of the leaves do in turn. -/
theorem Runner.view_pair {γ : Type} {r : Runner α} {q : Runner β} {join : α × β → γ}
    {see : α → List Item} {see'' : γ → List Item} (see' : β → List Item)
    (joins : ∀ a b, see'' (join (a, b)) = see a ++ see' b) {front back : List (Leaf κ ρ)}
    {c : Cursor} (first : (r c).view see = (Leaf.inTurn s call front c).map (c.backTo s))
    (second : ∀ a c', r c = .ok (some a, c') →
      (q c').view see' = (Leaf.inTurn s call back c').map (c'.backTo s)) :
    ((((r.pair q).map join).attempt s) c).view see'' =
      (Leaf.inTurn s call (front ++ back) c).map (c.backTo s) := by
  rw [attempt_apply, map_apply, pair_apply, Leaf.inTurn_append]
  rcases turn : Leaf.inTurn s call front c with e | ⟨_ | items, c₁⟩ <;> rw [turn] at first
  · rw [(Outcome.view_eq_error_iff _).1 first]
    rfl
  · rw [(Outcome.view_eq_none_iff _).1 first]
    rfl
  · obtain ⟨a, run, rfl⟩ := Outcome.view_eq_some_iff.1 first
    have second := second a c₁ run
    rw [run]
    show Outcome.view see'' (((q.map _ c₁).bind _).bind _) =
      ((Leaf.inTurn s call back c₁).map _).map _
    rw [map_apply]
    rcases turn' : Leaf.inTurn s call back c₁ with e | ⟨_ | items', c₂⟩ <;> rw [turn'] at second
    · rw [(Outcome.view_eq_error_iff _).1 second]
      rfl
    · rw [(Outcome.view_eq_none_iff _).1 second]
      rfl
    · obtain ⟨b, run', rfl⟩ := Outcome.view_eq_some_iff.1 second
      rw [run']
      exact congrArg (fun items => Except.ok (some items, c₂)) (joins a b)

namespace Parser

variable (rules : Rules κ ρ) (depth : Nat)

/-- A run that does not match is back where it started. -/
theorem eq_restore_of_unmatched {items : List Type} {α : Type} {p : Parser κ ρ items α}
    {c c' : Cursor} (inside : c.position < s.size)
    (run : (p.meaning s (rules.call s depth)).value c = .ok (none, c')) :
    c' = c'.restore s c.position := by
  have backtracks := (p.backtracks_record s (rules.backtracks_recordCall s depth)).value
  rw [← p.erase_record s (rules.erase_recordCall s depth)] at run
  have position := backtracks.back c c' inside run
  rw [Cursor.restore, Nat.min_eq_left (Nat.le_sub_one_of_lt inside), ← position]

/-- An expression that is no sequence contributes what it yields, if anything. -/
theorem view_leaf {items : List Type} {α : Type} {p : Parser κ ρ items α} {c : Cursor}
    (inside : c.position < s.size)
    (parts : ((p.meaning s (rules.call s depth)).parts c).view Tuple.toList =
      ((p.meaning s (rules.call s depth)).value c).view
        (⟨⟨p⟩, true⟩ : Leaf κ ρ).contribution) :
    ((p.meaning s (rules.call s depth)).parts c).view Tuple.toList =
      (Leaf.inTurn s (rules.call s depth) [⟨⟨p⟩, true⟩] c).map (c.backTo s) := by
  rw [parts, Leaf.inTurn_cons]
  rcases run : (p.meaning s (rules.call s depth)).value c with e | ⟨_ | a, c'⟩
  · rfl
  · exact congrArg (fun c' => Except.ok (none, c')) (eq_restore_of_unmatched rules depth inside run)
  · show Except.ok (some _, c') = Except.ok (some (_ ++ []), c')
    rw [List.append_nil]

/-- **The items of an expression are those of its leaves.**  Run as part of a sequence, an
expression does what its leaves do in turn, and goes back to the start if one of them does not
match. -/
theorem view_parts {items : List Type} {α : Type} (p : Parser κ ρ items α) {c : Cursor}
    (inside : c.position < s.size) :
    ((p.meaning s (rules.call s depth)).parts c).view Tuple.toList =
      (Leaf.inTurn s (rules.call s depth) p.leaves c).map (c.backTo s) := by
  induction p generalizing c with
  | token | map | tryMap | or | many | optional | separatedBy | rule =>
    exact view_leaf rules depth inside (Runner.view_map _ Tuple.single Tuple.toList c)
  | ignore kind =>
    refine view_leaf rules depth inside ?_
    exact (Runner.view_map (Runner.token s kind) (fun _ => ()) _ c).trans
      (Runner.view_map (Runner.token s kind) (fun _ => Ignored.mk)
        (⟨⟨.ignore kind⟩, true⟩ : Leaf κ ρ).contribution c).symm
  | finish => exact view_leaf rules depth inside rfl
  | seq p ih => exact ih inside
  | and p q ihp ihq =>
    refine Runner.view_pair Tuple.toList (fun t u => t.toList_append u) (ihp inside)
      fun t c' run => ?_
    exact ihq ((rules.moves_meaning s depth p).2 c t c' inside run).1
  | skip p q ihp ihq =>
    refine Runner.view_pair (fun _ => []) (fun t b => (List.append_nil _).symm) (ihp inside)
      fun t c' run => ?_
    have inside' := ((rules.moves_meaning s depth p).2 c t c' inside run).1
    rw [Outcome.view_nil_eq_of_shape (q.shape_parts c') Tuple.toList, ihq inside', Leaf.inTurn_drop]
    rcases Leaf.inTurn s (rules.call s depth) q.leaves c' with e | ⟨_ | values, c''⟩ <;> rfl

end Parser

/-! ### Grouping -/

/-- A chain of parsers, grouped in some way. -/
inductive Chain (κ : Type) (ρ : Type → Type) : Type 1 where
  | one {items : List Type} {α : Type} (p : Parser κ ρ items α)
  | both (front back : Chain κ ρ)

namespace Chain

omit [DecidableEq κ] [TokenKind κ]

/-- The items of a chain. -/
def items : Chain κ ρ → List Type
  | @one _ _ items _ _ => items
  | both front back => front.items ++ back.items

/-- What a chain yields. -/
def result : Chain κ ρ → Type
  | @one _ _ _ α _ => α
  | both front back => Tuple (front.items ++ back.items)

/-- The chain as one sequence, in its grouping. -/
def parser : (chain : Chain κ ρ) → Parser κ ρ chain.items chain.result
  | one p => p
  | both front back => front.parser.and back.parser

/-- What is chained, from left to right; the grouping is lost. -/
def links : Chain κ ρ → List (Part κ ρ)
  | one p => [⟨p⟩]
  | both front back => front.links ++ back.links

theorem leaves_eq_flatMap (chain : Chain κ ρ) :
    chain.parser.leaves = chain.links.flatMap fun link => link.parser.leaves := by
  induction chain with
  | one p => exact (List.append_nil _).symm
  | both front back ihf ihb =>
    rw [links, List.flatMap_append, ← ihf, ← ihb]
    rfl

end Chain

/-- **Sequences are flat.**  Let expressions be run from a cursor of a stream.  First, an expression
comes to the same end whether it is run for its value or for its items.  Secondly, its items are
there exactly if all of its leaves match from left to right, each from where the one before has
ended, and then they are what the leaves contribute, in this order; if one of them does not match,
the expression is back at the start, and only the furthest mark is theirs.  Thirdly, two groupings
of the same chain of parsers have the same outcome: value, position, and furthest mark. -/
theorem Parser.sequences_flatten (rules : Rules κ ρ) (s : TokenStream κ) (depth : Nat) {c : Cursor}
    (inside : c.position < s.size) :
    let run {items : List Type} {α : Type} (p : Parser κ ρ items α) :=
      p.meaning s (rules.call s depth)
    let inTurn := Leaf.inTurn s (rules.call s depth)
    (∀ {items : List Type} {α : Type} (p : Parser κ ρ items α),
      ((run p).value c).shape = ((run p).parts c).shape) ∧
    (∀ {items : List Type} {α : Type} (p : Parser κ ρ items α),
      (∀ values c', (∃ t, (run p).parts c = .ok (some t, c') ∧ t.toList = values) ↔
        inTurn p.leaves c = .ok (some values, c')) ∧
      (∀ c', (run p).parts c = .ok (none, c') ↔
        ∃ c₁, inTurn p.leaves c = .ok (none, c₁) ∧ c' = ⟨c.position, c₁.furthest⟩) ∧
      ∀ e, (run p).parts c = .error e ↔ inTurn p.leaves c = .error e) ∧
    ∀ front back front' back' : Chain κ ρ,
      (front.both back).links = (front'.both back').links →
        ((run (front.parser.and back.parser)).value c).view Tuple.toList =
          ((run (front'.parser.and back'.parser)).value c).view Tuple.toList := by
  intro run inTurn
  refine ⟨fun p => p.shape_parts c, fun p => ?_, fun front back front' back' same => ?_⟩
  · have parts := p.view_parts rules depth inside
    have start (c₁ : Cursor) : c₁.restore s c.position = ⟨c.position, c₁.furthest⟩ := by
      rw [Cursor.restore, Nat.min_eq_left (Nat.le_sub_one_of_lt inside)]
    refine ⟨fun values c' => ?_, fun c' => ?_, fun e => ?_⟩
    · rw [← Outcome.view_eq_some_iff, parts]
      show (inTurn p.leaves c).map _ = _ ↔ _
      rcases inTurn p.leaves c with e | ⟨_ | values', c₁⟩ <;> simp [Except.map, Cursor.backTo]
    · rw [← Outcome.view_eq_none_iff Tuple.toList, parts]
      show (inTurn p.leaves c).map _ = _ ↔ _
      rcases inTurn p.leaves c with e | ⟨_ | values', c₁⟩ <;>
        simp [Except.map, Cursor.backTo, start, eq_comm]
    · rw [← Outcome.view_eq_error_iff Tuple.toList, parts]
      show (inTurn p.leaves c).map _ = _ ↔ _
      rcases inTurn p.leaves c with e | ⟨_ | values', c₁⟩ <;> simp [Except.map]
  · have leaves : (front.parser.and back.parser).leaves =
        (front'.parser.and back'.parser).leaves :=
      (front.both back).leaves_eq_flatMap.trans
        ((congrArg (List.flatMap _) same).trans (front'.both back').leaves_eq_flatMap.symm)
    have here := (front.parser.and back.parser).view_parts rules depth inside
    have there := (front'.parser.and back'.parser).view_parts rules depth inside
    rw [leaves, ← there] at here
    exact here

/-- A kept token, a dropped one and a repetition.  The first two are grouped in one chain, the last
two in the other one; both have two items, of which the list of tokens is one. -/
theorem sequences_flatten_regrouped :
    let item (kind : UInt32) : Token RuleId := ⟨⟨kind⟩, "", .start⟩
    let s : TokenStream RuleId := .ofTokens [item 1, item 2, item 3, item 3] .start
    let rules : Rules RuleId fun _ => Empty := ⟨0, fun reference => nomatch reference⟩
    let kept : Parser RuleId (fun _ => Empty) _ _ := .token ⟨1⟩
    let dropped : Parser RuleId (fun _ => Empty) _ _ := .ignore ⟨2⟩
    let rest : Parser RuleId (fun _ => Empty) _ _ := .many (.token ⟨3⟩)
    let run {items : List Type} (p : Parser RuleId (fun _ => Empty) items (Tuple items)) :=
      ((p.meaning s (rules.call s 0)).value .start).view Tuple.toList
    Cursor.start.position < s.size ∧
      run ((kept.and dropped).and rest) =
        .ok (some [⟨Token RuleId, item 1⟩, ⟨List (Token RuleId), [item 3, item 3]⟩], ⟨4, 4⟩) ∧
      run (kept.and (dropped.and rest)) = run ((kept.and dropped).and rest) := by
  intro item s rules kept dropped rest run
  have inside : Cursor.start.position < s.size := by decide
  refine ⟨inside, rfl, ?_⟩
  exact (Parser.sequences_flatten rules s 0 inside).2.2 (.one kept)
    (.both (.one dropped) (.one rest)) (.both (.one kept) (.one dropped)) (.one rest) rfl

end FrontEnd
