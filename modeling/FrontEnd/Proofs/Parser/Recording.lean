import FrontEnd.Parser.Run

/-!
# Recorded runs

A run of a parser expression ends with a cursor, which tells where the run came to but not how.  A
recorded run keeps the moves as well: every token that was read, and the position reached by that.

## Main Definitions

* `Move` — a token that was read, and the position reached by reading it
* `Recorded`, `Recorder` — an outcome with the moves that led to it, and runs that record
* `Parser.record` — what an expression does, recorded
* `Rules.recordCall` — what a rule does, recorded

## Main Results

* `Parser.erase_record`, `Rules.erase_recordCall` — recording does not change the outcome

## Design Notes

**One place records.**  Only reading a token makes a move.  Everything else strings recorded runs
together, by `Recorded.andThen`, and keeps all moves: also those of alternatives that were given up.
-/

namespace FrontEnd

/-- One token was read. -/
structure Move (κ : Type) where
  token : Token κ
  /-- The position behind the token. -/
  reached : Nat

/-- An outcome and the moves that led to it. -/
structure Recorded (κ α : Type) where
  outcome : Outcome α
  moves : List (Move κ)

/-- A recorded run from any cursor. -/
abbrev Recorder (κ α : Type) := Cursor → Recorded κ α

namespace Recorded

variable {κ α β : Type}

/-- An outcome that takes no move. -/
def still (value : Option α) (c : Cursor) : Recorded κ α := ⟨.ok (value, c), []⟩

/-- Go on from the outcome of a recorded run, unless it is a fault. -/
def andThen (x : Recorded κ α) (next : Option α → Cursor → Recorded κ β) : Recorded κ β :=
  match x.outcome with
  | .error e => ⟨.error e, x.moves⟩
  | .ok (value, c) => ⟨(next value c).outcome, x.moves ++ (next value c).moves⟩

theorem outcome_andThen (x : Recorded κ α) (next : Option α → Cursor → Recorded κ β) :
    (x.andThen next).outcome =
      x.outcome.bind fun result => (next result.1 result.2).outcome := by
  unfold andThen
  cases x.outcome with
  | error e => rfl
  | ok result => rfl

theorem moves_andThen {x : Recorded κ α} {value : Option α} {c : Cursor}
    (h : x.outcome = .ok (value, c)) (next : Option α → Cursor → Recorded κ β) :
    (x.andThen next).moves = x.moves ++ (next value c).moves := by
  rw [andThen, h]

/-- What comes out in the end has come out of two stages. -/
theorem exists_of_andThen {x : Recorded κ α} {next : Option α → Cursor → Recorded κ β}
    {value : Option β} {c : Cursor} (h : (x.andThen next).outcome = .ok (value, c)) :
    ∃ value' c', x.outcome = .ok (value', c') ∧ (next value' c').outcome = .ok (value, c) ∧
      (x.andThen next).moves = x.moves ++ (next value' c').moves := by
  rw [outcome_andThen] at h
  cases first : x.outcome with
  | error e =>
    rw [first] at h
    cases h
  | ok result =>
    rw [first] at h
    exact ⟨result.1, result.2, rfl, h, moves_andThen first next⟩

end Recorded

namespace Recorder

variable {κ α β : Type}

/-- The run without the record. -/
def erase (r : Recorder κ α) : Runner α := fun c => (r c).outcome

theorem erase_apply (r : Recorder κ α) (c : Cursor) : r.erase c = (r c).outcome := rfl

/-! ### Running one thing after the other -/

/-- Transform the value of a run. -/
def map (f : α → β) (r : Recorder κ α) : Recorder κ β := fun c =>
  (r c).andThen fun value c' => .still (value.map f) c'

/-- Transform the value of a run, or reject it. -/
def filterMap (f : α → Option β) (r : Recorder κ α) : Recorder κ β := fun c =>
  (r c).andThen fun value c' => .still (value.bind f) c'

/-- Run one after the other; both have to match. -/
def pair (r : Recorder κ α) (q : Recorder κ β) : Recorder κ (α × β) := fun c =>
  (r c).andThen fun value c' =>
    match value with
    | none => .still none c'
    | some a => q.map (fun b => (a, b)) c'

theorem erase_map (f : α → β) (r : Recorder κ α) : (r.map f).erase = r.erase.map f := by
  funext c
  rw [erase_apply, map, Recorded.outcome_andThen, Runner.map, erase_apply]
  cases (r c).outcome with
  | error e => rfl
  | ok result => rfl

theorem erase_filterMap (f : α → Option β) (r : Recorder κ α) :
    (r.filterMap f).erase = r.erase.filterMap f := by
  funext c
  rw [erase_apply, filterMap, Recorded.outcome_andThen, Runner.filterMap, erase_apply]
  cases (r c).outcome with
  | error e => rfl
  | ok result => rfl

theorem erase_pair (r : Recorder κ α) (q : Recorder κ β) :
    (r.pair q).erase = r.erase.pair q.erase := by
  funext c
  rw [erase_apply, pair, Recorded.outcome_andThen, Runner.pair, erase_apply]
  cases (r c).outcome with
  | error e => rfl
  | ok result =>
    obtain ⟨value, c'⟩ := result
    cases value with
    | none => rfl
    | some a => exact congrFun (erase_map (fun b => (a, b)) q) c'

/-- A transformed value comes from a value. -/
theorem exists_of_map {r : Recorder κ α} {f : α → β} {c c' : Cursor} {value : Option β}
    (h : (r.map f c).outcome = .ok (value, c')) :
    ∃ value', (r c).outcome = .ok (value', c') ∧ value = value'.map f ∧
      (r.map f c).moves = (r c).moves := by
  obtain ⟨value', _, first, second, moves⟩ := Recorded.exists_of_andThen h
  cases second
  exact ⟨value', first, rfl, by rw [map, moves, Recorded.still, List.append_nil]⟩

/-- A transformed or rejected value comes from a value. -/
theorem exists_of_filterMap {r : Recorder κ α} {f : α → Option β} {c c' : Cursor} {value : Option β}
    (h : (r.filterMap f c).outcome = .ok (value, c')) :
    ∃ value', (r c).outcome = .ok (value', c') ∧ value = value'.bind f ∧
      (r.filterMap f c).moves = (r c).moves := by
  obtain ⟨value', _, first, second, moves⟩ := Recorded.exists_of_andThen h
  cases second
  exact ⟨value', first, rfl, by rw [filterMap, moves, Recorded.still, List.append_nil]⟩

/-! ### Going back -/

variable [TokenKind κ] {s : TokenStream κ}

/-- Go back to the start if there is no match. -/
def attempt (s : TokenStream κ) (r : Recorder κ α) : Recorder κ α := fun c =>
  (r c).andThen fun value c' =>
    match value with
    | none => .still none (c'.restore s c.position)
    | some a => .still (some a) c'

/-- The first run that matches. -/
def orElse (s : TokenStream κ) (r q : Recorder κ α) : Recorder κ α := fun c =>
  (r.attempt s c).andThen fun value c' =>
    match value with
    | none => q.attempt s c'
    | some a => .still (some a) c'

/-- A run that may fail to match; the result says whether it did. -/
def optional (s : TokenStream κ) (r : Recorder κ α) : Recorder κ (Option α) := fun c =>
  (r.attempt s c).andThen fun value c' => .still (some value) c'

/-- Repeat a run at most the given number of times. -/
def repeatUpTo (s : TokenStream κ) (r : Recorder κ α) : Nat → Recorder κ (List α)
  | 0, c => .still (some []) c
  | rounds + 1, c =>
      (r.attempt s c).andThen fun value c' =>
        match value with
        | none => .still (some []) c'
        | some a =>
            if c'.position = c.position then .still (some [a]) c'
            else (repeatUpTo s r rounds).map (a :: ·) c'

/-- Repeat a run as long as it matches and moves on. -/
def many (s : TokenStream κ) (r : Recorder κ α) : Recorder κ (List α) := fun c =>
  r.repeatUpTo s (s.size - c.position) c

/-- Repeat a run with separators in between. -/
def separatedBy (s : TokenStream κ) (r : Recorder κ α) (separator : Recorder κ β) :
    Recorder κ (List α) := fun c =>
  (r.attempt s c).andThen fun value c' =>
    match value with
    | none => .still (some []) c'
    | some a => (many s ((separator.pair r).map Prod.snd)).map (a :: ·) c'

theorem erase_attempt (r : Recorder κ α) : (r.attempt s).erase = r.erase.attempt s := by
  funext c
  rw [erase_apply, attempt, Recorded.outcome_andThen, Runner.attempt, erase_apply]
  cases (r c).outcome with
  | error e => rfl
  | ok result =>
    obtain ⟨value, c'⟩ := result
    cases value with
    | none => rfl
    | some a => rfl

theorem erase_orElse (r q : Recorder κ α) : (r.orElse s q).erase = r.erase.orElse s q.erase := by
  funext c
  rw [erase_apply, orElse, Recorded.outcome_andThen, Runner.orElse, ← erase_attempt, erase_apply]
  cases (r.attempt s c).outcome with
  | error e => rfl
  | ok result =>
    obtain ⟨value, c'⟩ := result
    cases value with
    | none => exact congrFun (erase_attempt q) c'
    | some a => rfl

theorem erase_optional (r : Recorder κ α) : (r.optional s).erase = r.erase.optional s := by
  funext c
  rw [erase_apply, optional, Recorded.outcome_andThen, Runner.optional, ← erase_attempt,
    erase_apply]
  cases (r.attempt s c).outcome with
  | error e => rfl
  | ok result => rfl

theorem erase_repeatUpTo (r : Recorder κ α) (rounds : Nat) :
    (r.repeatUpTo s rounds).erase = r.erase.repeatUpTo s rounds := by
  induction rounds with
  | zero => rfl
  | succ rounds ih =>
    funext c
    rw [erase_apply, repeatUpTo, Recorded.outcome_andThen, Runner.repeatUpTo, ← erase_attempt,
      erase_apply]
    cases (r.attempt s c).outcome with
    | error e => rfl
    | ok result =>
      obtain ⟨value, c'⟩ := result
      cases value with
      | none => rfl
      | some a =>
        show (if c'.position = c.position then Recorded.still (some [a]) c'
          else (r.repeatUpTo s rounds).map (a :: ·) c').outcome = _
        by_cases still : c'.position = c.position
        · simp only [if_pos still, Recorded.still]
        · simp only [if_neg still]
          rw [← ih]
          exact congrFun (erase_map (a :: ·) (r.repeatUpTo s rounds)) c'

theorem erase_many (r : Recorder κ α) : (r.many s).erase = r.erase.many s := by
  funext c
  exact congrFun (erase_repeatUpTo r (s.size - c.position)) c

theorem erase_separatedBy (r : Recorder κ α) (separator : Recorder κ β) :
    (r.separatedBy s separator).erase = r.erase.separatedBy s separator.erase := by
  funext c
  rw [erase_apply, separatedBy, Recorded.outcome_andThen, Runner.separatedBy, ← erase_attempt,
    erase_apply]
  cases (r.attempt s c).outcome with
  | error e => rfl
  | ok result =>
    obtain ⟨value, c'⟩ := result
    cases value with
    | none => rfl
    | some a =>
      have later : (((separator.pair r).map Prod.snd).many s).erase =
          ((separator.erase.pair r.erase).map Prod.snd).many s := by
        rw [erase_many, erase_map, erase_pair]
      show (((((separator.pair r).map Prod.snd).many s).map (a :: ·)).erase c') = _
      rw [erase_map, later]

/-! ### Reading -/

variable [DecidableEq κ]

/-- One token of a kind; reading it is a move. -/
def token (s : TokenStream κ) (kind : κ) : Recorder κ (Token κ) := fun c =>
  let t := c.peek s
  if kind = endKind ∨ t.kind ≠ kind then .still none c
  else ⟨.ok (some t, c.advance s), [⟨t, (c.advance s).position⟩]⟩

/-- The end of the stream. -/
def finish (s : TokenStream κ) : Recorder κ Unit := fun c =>
  .still (if c.atEnd s then some () else none) c

theorem erase_token (kind : κ) : (token s kind).erase = Runner.token s kind := by
  funext c
  rw [erase_apply, token, Runner.token]
  by_cases rejected : kind = endKind ∨ (c.peek s).kind ≠ kind
  · simp only [if_pos rejected, Recorded.still]
  · simp only [if_neg rejected]

end Recorder

/-! ### Expressions -/

/-- What an expression does, recorded: on its own, and as part of a sequence. -/
structure Recording (κ : Type) (items : List Type) (α : Type) where
  /-- Run for the value. -/
  value : Recorder κ α
  /-- Run for the items. -/
  parts : Recorder κ (Tuple items)

/-- A recorded run whose value is a single item. -/
def Recording.single {κ α : Type} (r : Recorder κ α) : Recording κ [α] α :=
  ⟨r, r.map Tuple.single⟩

/-- The meaning without the record. -/
def Recording.erase {κ : Type} {items : List Type} {α : Type} (r : Recording κ items α) :
    Meaning items α := ⟨r.value.erase, r.parts.erase⟩

theorem Recording.erase_single {κ α : Type} (r : Recorder κ α) :
    (Recording.single r).erase = Meaning.single r.erase := by
  rw [Recording.erase, Recording.single, Recorder.erase_map, Meaning.single]

namespace Parser

variable {κ : Type} [DecidableEq κ] [TokenKind κ] {ρ : Type → Type}

/-- What an expression does on a stream, recorded, when rules are run by `call`. -/
def record (s : TokenStream κ) (call : {α : Type} → ρ α → Recorder κ α) :
    {items : List Type} → {α : Type} → Parser κ ρ items α → Recording κ items α
  | _, _, token kind => .single (Recorder.token s kind)
  | _, _, ignore kind =>
      ⟨(Recorder.token s kind).map fun _ => ⟨⟩, (Recorder.token s kind).map fun _ => ()⟩
  | _, _, finish => ⟨Recorder.finish s, Recorder.finish s⟩
  | _, _, seq p =>
      let run := p.record s call
      ⟨run.parts, run.parts⟩
  | _, _, map f p => .single ((p.record s call).value.map f)
  | _, _, tryMap f p => .single (((p.record s call).value.filterMap f).attempt s)
  | _, _, and p q =>
      let both := (p.record s call).parts.pair (q.record s call).parts
      let run := (both.map fun (a, b) => a.append b).attempt s
      ⟨run, run⟩
  | _, _, skip p q =>
      let first := p.record s call
      let second := (q.record s call).value
      ⟨((first.value.pair second).map Prod.fst).attempt s,
        ((first.parts.pair second).map Prod.fst).attempt s⟩
  | _, _, or p q => .single ((p.record s call).value.orElse s (q.record s call).value)
  | _, _, many p => .single ((p.record s call).value.many s)
  | _, _, optional p => .single ((p.record s call).value.optional s)
  | _, _, separatedBy p separator =>
      .single ((p.record s call).value.separatedBy s (separator.record s call).value)
  | _, _, rule reference => .single (call reference)

/-- **Recording does not change what an expression does.** -/
theorem erase_record (s : TokenStream κ) {call : {α : Type} → ρ α → Recorder κ α}
    {call' : {α : Type} → ρ α → Runner α}
    (same : ∀ {α : Type} (reference : ρ α), (call reference).erase = call' reference)
    {items : List Type} {α : Type} (p : Parser κ ρ items α) :
    (p.record s call).erase = p.meaning s call' := by
  -- In each case the record is erased operation by operation, down to the parts of the expression.
  induction p with
  | token kind => rw [record, meaning, Recording.erase_single, Recorder.erase_token]
  | ignore kind =>
    have dropped {β : Type} (b : β) : ((Recorder.token s kind).map fun _ => b).erase =
        (Runner.token s kind).map fun _ => b := by
      rw [Recorder.erase_map, Recorder.erase_token]
    exact congr (congrArg Meaning.mk (dropped _)) (dropped _)
  | finish => rfl
  | seq p ih =>
    rw [record, meaning, ← ih]
    rfl
  | map f p ih =>
    rw [record, meaning, ← ih, Recording.erase_single, Recorder.erase_map]
    rfl
  | tryMap f p ih =>
    rw [record, meaning, ← ih, Recording.erase_single, Recorder.erase_attempt,
      Recorder.erase_filterMap]
    rfl
  | and p q ihp ihq =>
    rw [record, meaning, ← ihp, ← ihq, Recording.erase, Recorder.erase_attempt,
      Recorder.erase_map, Recorder.erase_pair]
    rfl
  | skip p q ihp ihq =>
    rw [record, meaning, ← ihp, ← ihq, Recording.erase, Recorder.erase_attempt,
      Recorder.erase_map, Recorder.erase_pair, Recorder.erase_attempt, Recorder.erase_map,
      Recorder.erase_pair]
    rfl
  | or p q ihp ihq =>
    rw [record, meaning, ← ihp, ← ihq, Recording.erase_single, Recorder.erase_orElse]
    rfl
  | many p ih =>
    rw [record, meaning, ← ih, Recording.erase_single, Recorder.erase_many]
    rfl
  | optional p ih =>
    rw [record, meaning, ← ih, Recording.erase_single, Recorder.erase_optional]
    rfl
  | separatedBy p separator ihp ihs =>
    rw [record, meaning, ← ihp, ← ihs, Recording.erase_single, Recorder.erase_separatedBy]
    rfl
  | rule reference => rw [record, meaning, Recording.erase_single, same]

end Parser

namespace Rules

variable {κ : Type} [DecidableEq κ] [TokenKind κ] {ρ : Type → Type}

/-- Run a rule, recorded, entering rules at most to the given depth. -/
def recordCall (rules : Rules κ ρ) (s : TokenStream κ) : Nat → {α : Type} → ρ α → Recorder κ α
  | 0, _, _, _ => ⟨.error .unbounded, []⟩
  | depth + 1, _, reference, c =>
      match rules.lookup reference with
      | .error e => ⟨.error e, []⟩
      | .ok definition => (definition.parser.record s (rules.recordCall s depth)).value c

/-- A rule does, one level deeper, what its definition does; so does the record. -/
theorem recordCall_succ {rules : Rules κ ρ} {s : TokenStream κ} {α : Type} {reference : ρ α}
    {definition : Definition κ ρ α} (found : rules.lookup reference = .ok definition)
    (depth : Nat) :
    rules.recordCall s (depth + 1) reference =
      (definition.parser.record s (rules.recordCall s depth)).value := by
  funext c
  rw [recordCall, found]

/-- Recording does not change what a rule does. -/
theorem erase_recordCall (rules : Rules κ ρ) (s : TokenStream κ) (depth : Nat) {α : Type}
    (reference : ρ α) :
    (rules.recordCall s depth reference).erase = rules.call s depth reference := by
  induction depth generalizing α with
  | zero => rfl
  | succ depth ih =>
    funext c
    rw [Recorder.erase_apply, recordCall, call]
    cases rules.lookup reference with
    | error e => rfl
    | ok definition =>
      have same := definition.parser.erase_record s ih
      exact congrFun (congrArg Meaning.value same) c

/-- What an expression does, recorded at the depth of a run. -/
theorem outcome_record (rules : Rules κ ρ) (s : TokenStream κ) {items : List Type} {α : Type}
    (p : Parser κ ρ items α) (c : Cursor) :
    ((p.record s (rules.recordCall s (rules.depth s))).value c).outcome = rules.run s p c :=
  congrFun (congrArg Meaning.value (p.erase_record s (rules.erase_recordCall s (rules.depth s)))) c

end Rules

end FrontEnd
