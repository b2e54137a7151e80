import FrontEnd.Proofs.Parser.Flattening
import FrontEnd.Proofs.Parser.Lookahead

/-!
# Tokens that are read to be rejected

An expression may read a token and reject its value.  Where nothing else can be made of the token,
no run gets past it; but the furthest mark of a run that has tried it stands behind it.

## Main Definitions

* `TokenStream.SameKinds` — two streams have tokens of the same kinds
* `Parser.BlockedAt` — the token at a position can be read by an expression only to be rejected
* `Recorder.HaltsAt` — a run does not get past a position, and comes to the same end as on another
  stream unless it has read the token there

## Main Results

* `Parser.haltsAt_record`, `Rules.haltsAt_recordCall` — blocked expressions and rules halt
* `Rules.run_of_blocked` — where a run from the start ends, and where its furthest mark stands

## Design Notes

**Kinds decide.**  Texts matter to a run only where values are rejected.  So up to a token that is
rejected a run does the same on every stream of the same kinds, as long as nothing is rejected
there.

**One token at a time.**  Only the values of single tokens are rejected: then it depends on a token
alone whether it is.
-/

namespace FrontEnd

variable {κ α β : Type}

/-! ### Recorded runs -/

/-- A run on some stream is `x`; a run from the same place on another one is `y`.  The first run
never gets past position `k`, it reads no token behind the one there, and unless it reads that one,
both runs come to the same end. -/
structure Recorded.HaltsAt (k : Nat) (x y : Recorded κ α) : Prop where
  position_le : ∀ value c, x.outcome = .ok (value, c) → c.position ≤ k
  reached_le : ∀ m ∈ x.moves, m.reached ≤ k + 1
  shape_eq_or : x.outcome.shape = y.outcome.shape ∨ ∃ m ∈ x.moves, m.reached = k + 1

namespace Recorded

variable {k : Nat} {x y : Recorded κ α} {c : Cursor}

/-- Runs without moves that end in the same way. -/
theorem HaltsAt.still {value value' : Option α} (same : value.isSome = value'.isSome)
    (le : c.position ≤ k) : HaltsAt k (.still value c : Recorded κ α) (.still value' c) := by
  refine ⟨?_, fun m mem => absurd mem List.not_mem_nil, .inl ?_⟩
  · intro value c' ended
    cases ended
    exact le
  · exact congrArg (fun matched => Except.ok (matched, c)) same

theorem HaltsAt.fault (e : Fault) :
    HaltsAt k (⟨.error e, []⟩ : Recorded κ α) ⟨.error e, []⟩ := by
  refine ⟨?_, fun m mem => absurd mem List.not_mem_nil, .inl rfl⟩
  intro value c ended
  cases ended

/-- What halts stage by stage halts as a whole. -/
theorem HaltsAt.andThen {next next' : Option α → Cursor → Recorded κ β} (h : HaltsAt k x y)
    (none : ∀ c, c.position ≤ k → HaltsAt k (next none c) (next' none c))
    (some : ∀ a b c, c.position ≤ k → HaltsAt k (next (some a) c) (next' (some b) c)) :
    HaltsAt k (x.andThen next) (y.andThen next') := by
  rcases ended : x.outcome with e | ⟨value, c⟩
  · -- A fault in the first stage is the end of both.
    have run : x.andThen next = ⟨.error e, x.moves⟩ := by rw [Recorded.andThen, ended]
    rw [run]
    refine ⟨fun _ _ ended => (by cases ended), h.reached_le, h.shape_eq_or.imp_left fun same => ?_⟩
    rw [outcome_andThen, Outcome.eq_error_of_shape_eq same ended]
    rfl
  · have le : c.position ≤ k := h.position_le value c ended
    have second {value' : Option α} (same : value.isSome = value'.isSome) :
        HaltsAt k (next value c) (next' value' c) := by
      cases value <;> cases value' <;> cases same
      · exact none c le
      · exact some _ _ c le
    have moves := moves_andThen ended next
    refine ⟨fun value' c' ended' => ?_, fun m mem => ?_, ?_⟩
    · rw [outcome_andThen, ended] at ended'
      exact (second rfl).position_le value' c' ended'
    · rw [moves] at mem
      rcases List.mem_append.1 mem with first | later
      · exact h.reached_le m first
      · exact (second rfl).reached_le m later
    · rw [moves]
      rcases h.shape_eq_or with same | ⟨m, mem, reached⟩
      · obtain ⟨value', ended', matched⟩ := Outcome.exists_eq_ok_of_shape_eq same ended
        rw [outcome_andThen, outcome_andThen, ended, ended']
        exact (second matched).shape_eq_or.imp_right
          (Exists.imp fun m => And.imp_left (List.mem_append_right x.moves))
      · exact .inr ⟨m, List.mem_append_left _ mem, reached⟩

end Recorded

/-! ### Streams of the same kinds -/

section Kinds

variable [TokenKind κ]

/-- Two streams have tokens of the same kinds. -/
def TokenStream.SameKinds (s t : TokenStream κ) : Prop := ∀ i, (s.get i).kind = (t.get i).kind

variable {s t : TokenStream κ}

theorem TokenStream.kind_get (s : TokenStream κ) (i : Nat) :
    (s.get i).kind = (s.tokens.toList.map Token.kind)[i]?.getD endKind := by
  rw [get, List.getElem?_map, Array.getElem?_toList]
  exact (Option.getD_map Token.kind s.endToken s.tokens[i]?).symm

/-- It is enough to compare the kinds of the tokens in turn. -/
theorem TokenStream.sameKinds_of_map_eq
    (h : s.tokens.toList.map Token.kind = t.tokens.toList.map Token.kind) : s.SameKinds t :=
  fun i => by rw [kind_get, kind_get, h]

theorem TokenStream.SameKinds.size_le (h : s.SameKinds t) : s.size ≤ t.size := by
  have last : (t.get (t.size - 1)).kind = endKind :=
    (t.kind_get_eq_end_iff _).2 (by have := t.size_pos; omega)
  rw [← h, s.kind_get_eq_end_iff] at last
  have := t.size_pos
  omega

theorem TokenStream.SameKinds.size_eq (h : s.SameKinds t) : s.size = t.size := by
  have back : t.SameKinds s := fun i => (h i).symm
  exact Nat.le_antisymm h.size_le back.size_le

end Kinds

/-! ### Runs -/

namespace Recorder

/-- From wherever it starts up to position `k`, a run halts there. -/
def HaltsAt (k : Nat) (r r' : Recorder κ α) : Prop :=
  ∀ c, c.position ≤ k → (r c).HaltsAt k (r' c)

variable {k : Nat} {r r' : Recorder κ α} {q q' : Recorder κ β}

/-- Values do not matter. -/
theorem HaltsAt.map (h : r.HaltsAt k r') (f g : α → β) : (r.map f).HaltsAt k (r'.map g) :=
  fun c le => (h c le).andThen (fun _ => .still rfl) fun _ _ _ => .still rfl

theorem HaltsAt.pair (h : r.HaltsAt k r') (h' : q.HaltsAt k q') :
    (r.pair q).HaltsAt k (r'.pair q') :=
  fun c le => (h c le).andThen (fun _ => .still rfl) fun a b => h'.map (a, ·) (b, ·)

variable [TokenKind κ] {s t : TokenStream κ} (same : s.SameKinds t)
include same

/-- Going back leaves everything but the position as it was. -/
theorem haltsAt_attempt {c : Cursor} (le : c.position ≤ k) (h : (r c).HaltsAt k (r' c)) :
    (r.attempt s c).HaltsAt k (r'.attempt t c) := by
  refine h.andThen (fun c₁ _ => ?_) fun _ _ _ => .still rfl
  -- On streams of one size, both runs go back to the same place.
  have back : c₁.restore t c.position = c₁.restore s c.position := by
    rw [Cursor.restore, Cursor.restore, same.size_eq]
  simp only [back]
  exact .still rfl (Nat.le_trans (Nat.min_le_left _ _) le)

theorem HaltsAt.attempt (h : r.HaltsAt k r') : (r.attempt s).HaltsAt k (r'.attempt t) :=
  fun c le => haltsAt_attempt same le (h c le)

theorem HaltsAt.orElse {q q' : Recorder κ α} (h : r.HaltsAt k r') (h' : q.HaltsAt k q') :
    (r.orElse s q).HaltsAt k (r'.orElse t q') :=
  fun c le => (h.attempt same c le).andThen (h'.attempt same) fun _ _ _ => .still rfl

theorem HaltsAt.optional (h : r.HaltsAt k r') : (r.optional s).HaltsAt k (r'.optional t) :=
  fun c le => (h.attempt same c le).andThen (fun _ => .still rfl) fun _ _ _ => .still rfl

theorem HaltsAt.repeatUpTo (h : r.HaltsAt k r') (rounds : Nat) :
    (r.repeatUpTo s rounds).HaltsAt k (r'.repeatUpTo t rounds) := by
  induction rounds with
  | zero => exact fun c le => .still rfl le
  | succ rounds ih =>
    intro c le
    refine (h.attempt same c le).andThen (fun _ => .still rfl) fun a b c₁ le₁ => ?_
    by_cases still : c₁.position = c.position
    · simp only [if_pos still]
      exact .still rfl le₁
    · simp only [if_neg still]
      exact ih.map (a :: ·) (b :: ·) c₁ le₁

theorem HaltsAt.many (h : r.HaltsAt k r') : (r.many s).HaltsAt k (r'.many t) := by
  intro c le
  rw [Recorder.many, Recorder.many, ← same.size_eq]
  exact h.repeatUpTo same _ c le

theorem HaltsAt.separatedBy (h : r.HaltsAt k r') (h' : q.HaltsAt k q') :
    (r.separatedBy s q).HaltsAt k (r'.separatedBy t q') := by
  have later : (((q.pair r).map Prod.snd).many s).HaltsAt k
      (((q'.pair r').map Prod.snd).many t) := ((h'.pair h).map _ _).many same
  exact fun c le => (h.attempt same c le).andThen (fun _ => .still rfl) fun a b =>
    later.map (a :: ·) (b :: ·)

/-! ### Reading -/

variable [DecidableEq κ] {kind : κ}

omit same in
/-- A token of another kind, or the end token, is not read. -/
theorem token_of_ne {c : Cursor} (other : kind = endKind ∨ (c.peek s).kind ≠ kind) :
    token s kind c = .still none c := if_pos other

omit same in
/-- A token of the kind is read. -/
theorem token_of_eq {c : Cursor} (notEnd : kind ≠ endKind) (is : (c.peek s).kind = kind) :
    token s kind c =
      ⟨.ok (some (c.peek s), ⟨c.position + 1, max c.furthest (c.position + 1)⟩),
        [⟨c.peek s, c.position + 1⟩]⟩ := by
  have read : ¬ (kind = endKind ∨ (c.peek s).kind ≠ kind) := by simp [notEnd, is]
  rw [token, if_neg read, advance_of_kind notEnd is]

omit same in
/-- A token whose value is accepted is read like any other. -/
theorem filterMap_token_of_accepted {f : Token κ → Option β} {c : Cursor} {b : β}
    (accepted : f (c.peek s) = some b) :
    (token s kind).filterMap f c = (token s kind).map (fun _ => b) c := by
  by_cases unread : kind = endKind ∨ (c.peek s).kind ≠ kind
  · rw [Recorder.filterMap, Recorder.map, token_of_ne unread]
    rfl
  · obtain ⟨notEnd, is⟩ := not_or.1 unread
    simp only [Recorder.filterMap, Recorder.map, token_of_eq notEnd (Decidable.not_not.1 is),
      Recorded.andThen, Option.bind_some, Option.map_some, accepted]

/-- In front of the position, a token is read on both streams or on none. -/
theorem haltsAt_token_of_lt {c : Cursor} (le : c.position ≤ k)
    (before : (c.peek s).kind = kind → c.position < k) :
    (token s kind c).HaltsAt k (token t kind c) := by
  have peek : (c.peek s).kind = (c.peek t).kind := same c.position
  by_cases unread : kind = endKind ∨ (c.peek s).kind ≠ kind
  · rw [token_of_ne unread, token_of_ne (peek ▸ unread)]
    exact .still rfl le
  · obtain ⟨notEnd, is⟩ := not_or.1 unread
    have is := Decidable.not_not.1 is
    have less : c.position + 1 ≤ k := before is
    rw [token_of_eq notEnd is, token_of_eq notEnd (peek ▸ is)]
    refine ⟨fun value c' ended => ?_, fun m mem => ?_, .inl rfl⟩
    · cases ended
      exact less
    · rw [List.mem_singleton.1 mem]
      exact Nat.le_succ_of_le less

theorem haltsAt_token (other : (s.get k).kind ≠ kind) :
    (token s kind).HaltsAt k (token t kind) :=
  fun _ le => haltsAt_token_of_lt same le fun is =>
    Nat.lt_of_le_of_ne le fun atPosition => other (atPosition ▸ is)

theorem haltsAt_finish : (finish s).HaltsAt k (finish t) := by
  intro c le
  have atEnd : c.atEnd s = c.atEnd t := by
    rw [Cursor.atEnd, Cursor.atEnd, Cursor.peek, Cursor.peek, same]
  rw [finish, finish, atEnd]
  exact .still rfl le

/-- **A token that is rejected** is read, but not passed; the tokens in front of it are accepted. -/
theorem haltsAt_filterMap_token {f : Token κ → Option β} (rejected : f (s.get k) = none)
    (accepted : ∀ i < k, (s.get i).kind = kind → (f (s.get i)).isSome ∧ (f (t.get i)).isSome) :
    (((token s kind).filterMap f).attempt s).HaltsAt k
      (((token t kind).filterMap f).attempt t) := by
  intro c le
  have peek : (c.peek s).kind = (c.peek t).kind := same c.position
  by_cases unread : kind = endKind ∨ (c.peek s).kind ≠ kind
  · refine haltsAt_attempt same le ?_
    rw [Recorder.filterMap, Recorder.filterMap, token_of_ne unread, token_of_ne (peek ▸ unread)]
    exact .still rfl le
  · obtain ⟨notEnd, is⟩ := not_or.1 unread
    have is := Decidable.not_not.1 is
    rcases Nat.lt_or_eq_of_le le with before | atPosition
    · -- What is accepted has some value, and it does not matter which.
      obtain ⟨here, there⟩ := accepted c.position before is
      obtain ⟨a, here⟩ := Option.isSome_iff_exists.1 here
      obtain ⟨b, there⟩ := Option.isSome_iff_exists.1 there
      refine haltsAt_attempt same le ?_
      rw [filterMap_token_of_accepted here, filterMap_token_of_accepted there]
      exact (haltsAt_token_of_lt same le fun _ => before).andThen (fun _ => .still rfl)
        fun _ _ _ => .still rfl
    · have run : ((token s kind).filterMap f).attempt s c =
          ⟨.ok (none, Cursor.restore s c.position
              ⟨c.position + 1, max c.furthest (c.position + 1)⟩),
            [⟨c.peek s, c.position + 1⟩]⟩ := by
        have rejected : f (c.peek s) = none := by rw [Cursor.peek, atPosition, rejected]
        simp only [Recorder.attempt, Recorder.filterMap, token_of_eq notEnd is, Recorded.andThen,
          Recorded.still, Option.bind_some, rejected, List.append_nil]
      rw [run]
      refine ⟨fun value c' ended => ?_, fun m mem => ?_, .inr ⟨_, List.mem_singleton_self _, ?_⟩⟩
      · cases ended
        exact Nat.le_trans (Nat.min_le_left _ _) le
      · rw [List.mem_singleton.1 mem]
        exact Nat.succ_le_succ le
      · exact congrArg (· + 1) atPosition

end Recorder

/-! ### Expressions -/

/-- Both runs of an expression halt. -/
structure Recording.HaltsAt {items : List Type} (k : Nat) (r r' : Recording κ items α) :
    Prop where
  value : r.value.HaltsAt k r'.value
  parts : r.parts.HaltsAt k r'.parts

theorem Recording.HaltsAt.single {k : Nat} {r r' : Recorder κ α} (h : r.HaltsAt k r') :
    (Recording.single r).HaltsAt k (Recording.single r') := ⟨h, h.map _ _⟩

variable [TokenKind κ] {ρ : Type → Type}

/-- The expression reads single tokens, of which `f` rejects the one at position `k`, and no token
in front of it, on either of two streams. -/
def Parser.TestedBy (s t : TokenStream κ) (k : Nat) :
    {items : List Type} → {α : Type} → Parser κ ρ items α → {β : Type} → (α → Option β) → Prop
  | _, _, token kind, _, f => f (s.get k) = none ∧
      ∀ i < k, (s.get i).kind = kind → (f (s.get i)).isSome ∧ (f (t.get i)).isSome
  | _, _, _, _, _ => False

/-- No part of the expression reads the token at position `k`, unless to reject it, and no part
rejects a token in front of it, on either of two streams. -/
def Parser.BlockedAt (s t : TokenStream κ) (k : Nat) :
    {items : List Type} → {α : Type} → Parser κ ρ items α → Prop
  | _, _, token kind => (s.get k).kind ≠ kind
  | _, _, ignore kind => (s.get k).kind ≠ kind
  | _, _, finish => True
  | _, _, seq p => p.BlockedAt s t k
  | _, _, map _ p => p.BlockedAt s t k
  | _, _, tryMap f p => p.TestedBy s t k f
  | _, _, and p q => p.BlockedAt s t k ∧ q.BlockedAt s t k
  | _, _, skip p q => p.BlockedAt s t k ∧ q.BlockedAt s t k
  | _, _, or p q => p.BlockedAt s t k ∧ q.BlockedAt s t k
  | _, _, many p => p.BlockedAt s t k
  | _, _, optional p => p.BlockedAt s t k
  | _, _, separatedBy p separator => p.BlockedAt s t k ∧ separator.BlockedAt s t k
  | _, _, rule _ => True

variable [DecidableEq κ] {s t : TokenStream κ} {k : Nat}

/-- **A blocked expression halts**, if the rules that it refers to do. -/
theorem Parser.haltsAt_record (same : s.SameKinds t)
    {call call' : {α : Type} → ρ α → Recorder κ α}
    (rules : ∀ {α : Type} (reference : ρ α), (call reference).HaltsAt k (call' reference))
    {items : List Type} {α : Type} {p : Parser κ ρ items α} (h : p.BlockedAt s t k) :
    (p.record s call).HaltsAt k (p.record t call') := by
  induction p with
  | token kind => exact .single (Recorder.haltsAt_token same h)
  | ignore kind =>
    have read := Recorder.haltsAt_token (t := t) same h
    exact ⟨read.map _ _, read.map _ _⟩
  | finish => exact ⟨Recorder.haltsAt_finish same, Recorder.haltsAt_finish same⟩
  | seq p ih => exact ⟨(ih h).parts, (ih h).parts⟩
  | map f p ih => exact .single ((ih h).value.map f f)
  | tryMap f p _ =>
    cases p with
    | token kind =>
      exact .single (Recorder.haltsAt_filterMap_token same h.1 h.2)
    | _ => exact h.elim
  | and p q ihp ihq =>
    have both := (ihp h.1).parts.pair (ihq h.2).parts
    exact ⟨(both.map _ _).attempt same, (both.map _ _).attempt same⟩
  | skip p q ihp ihq =>
    have second := (ihq h.2).value
    exact ⟨(((ihp h.1).value.pair second).map _ _).attempt same,
      (((ihp h.1).parts.pair second).map _ _).attempt same⟩
  | or p q ihp ihq => exact .single ((ihp h.1).value.orElse same (ihq h.2).value)
  | many p ih => exact .single ((ih h).value.many same)
  | optional p ih => exact .single ((ih h).value.optional same)
  | separatedBy p separator ihp ihs =>
    exact .single ((ihp h.1).value.separatedBy same (ihs h.2).value)
  | rule reference => exact .single (rules reference)

namespace Rules

variable {rules : Rules κ ρ}

/-- Rules with blocked definitions halt, to whatever depth they are entered. -/
theorem haltsAt_recordCall (same : s.SameKinds t)
    (blocked : ∀ {α : Type} {reference : ρ α} {definition : Definition κ ρ α},
      rules.lookup reference = .ok definition → definition.parser.BlockedAt s t k)
    (depth : Nat) {α : Type} (reference : ρ α) :
    (rules.recordCall s depth reference).HaltsAt k (rules.recordCall t depth reference) := by
  induction depth generalizing α with
  | zero => exact fun c _ => .fault .unbounded
  | succ depth ih =>
    cases found : rules.lookup reference with
    | error e =>
      intro c _
      rw [recordCall, recordCall, found]
      exact .fault e
    | ok definition =>
      rw [recordCall_succ found, recordCall_succ found]
      exact (definition.parser.haltsAt_record same ih (blocked found)).value

/-- **A token that is read to be rejected.**  Let the token at position `k` block the rules.  Then a
run from the start of the stream ends in front of it, and either its furthest mark stands right
behind it, or the run comes to the same end on the other stream of the same kinds. -/
theorem run_of_blocked (same : s.SameKinds t)
    (blocked : ∀ {α : Type} {reference : ρ α} {definition : Definition κ ρ α},
      rules.lookup reference = .ok definition → definition.parser.BlockedAt s t k)
    {items : List Type} {α : Type} {p : Parser κ ρ items α} (h : p.BlockedAt s t k)
    {value : Option α} {c : Cursor} (run : rules.run s p .start = .ok (value, c)) :
    c.position ≤ k ∧
      (c.furthest = k + 1 ∨ (rules.run s p .start).shape = (rules.run t p .start).shape) := by
  have depth : rules.depth t = rules.depth s := by rw [Rules.depth, Rules.depth, same.size_eq]
  have halts := (p.haltsAt_record same
    (haltsAt_recordCall same blocked (rules.depth s)) h).value .start (Nat.zero_le k)
  have back := p.backtracks_record s (rules.backtracks_recordCall s (rules.depth s))
  have there := rules.outcome_record t p .start
  rw [depth] at there
  rw [← there, run, ← run, ← rules.outcome_record]
  rw [← rules.outcome_record] at run
  refine ⟨halts.position_le value c run, halts.shape_eq_or.symm.imp_left ?_⟩
  rintro ⟨m, mem, reached⟩
  have furthest := (back.value.advances .start value c s.size_pos run).furthest
  have far : k + 1 ≤ c.furthest := by
    rw [furthest, ← reached]
    exact reached_le_markAfter mem
  have near : c.furthest < k + 2 := by
    rw [furthest]
    exact markAfter_lt (Nat.succ_pos _) fun m mem => Nat.lt_succ_of_le (halts.reached_le m mem)
  omega

end Rules

end FrontEnd
