import FrontEnd.Parser.Run

/-!
# Running expressions forward

To show that a parser reads something, its run has to be followed, together with the failures of the
alternatives that are tried in vain.  This module has one law for each way in which an operation, or
an expression, goes on.

## Main Definitions

* `Runner.Yields` — from one position a run yields a value and ends at another one
* `Runner.Fails` — from a position a run does not match
* `Runner.Repeats` — runs one after the other, each moving on, until one does not match
* `Meaning.Yields`, `Meaning.Fails` — the same for both runs of an expression
* `Parser.refuses`, `Rules.refuses` — what the first token alone tells about a failure

## Design Notes

**Positions only.**  Whether a run matches, and what it yields, does not depend on the furthest
mark.  The laws therefore speak of positions and let the mark become whatever it becomes.  A run
that fails may end anywhere; those who try another alternative go back themselves.
-/

namespace FrontEnd

variable {α β : Type}

namespace Runner

/-- From position `i` a run yields a value and ends at position `j`. -/
def Yields (r : Runner α) (i : Nat) (a : α) (j : Nat) : Prop :=
  ∀ mark, ∃ mark', r ⟨i, mark⟩ = .ok (some a, ⟨j, mark'⟩)

/-- From position `i` a run does not match. -/
def Fails (r : Runner α) (i : Nat) : Prop :=
  ∀ mark, ∃ c, r ⟨i, mark⟩ = .ok (none, c)

variable {r : Runner α} {q : Runner β} {i j k : Nat} {a : α} {b : β}

/-! ### Running one thing after the other -/

theorem Yields.map (h : r.Yields i a j) (f : α → β) : (r.map f).Yields i (f a) j := by
  intro mark
  obtain ⟨mark', run⟩ := h mark
  exact ⟨mark', by rw [Runner.map, run]; rfl⟩

theorem Fails.map (h : r.Fails i) (f : α → β) : (r.map f).Fails i := by
  intro mark
  obtain ⟨c, run⟩ := h mark
  exact ⟨c, by rw [Runner.map, run]; rfl⟩

theorem Yields.filterMap (h : r.Yields i a j) {f : α → Option β} (accepted : f a = some b) :
    (r.filterMap f).Yields i b j := by
  intro mark
  obtain ⟨mark', run⟩ := h mark
  refine ⟨mark', ?_⟩
  rw [Runner.filterMap, run]
  show Except.ok ((some a).bind f, _) = _
  rw [Option.bind_some, accepted]

theorem Fails.filterMap (h : r.Fails i) (f : α → Option β) : (r.filterMap f).Fails i := by
  intro mark
  obtain ⟨c, run⟩ := h mark
  exact ⟨c, by rw [Runner.filterMap, run]; rfl⟩

theorem Yields.pair (h : r.Yields i a k) (h' : q.Yields k b j) :
    (r.pair q).Yields i (a, b) j := by
  intro mark
  obtain ⟨mark', run⟩ := h mark
  obtain ⟨mark'', run'⟩ := h'.map (fun b => (a, b)) mark'
  exact ⟨mark'', by rw [Runner.pair, run]; exact run'⟩

theorem Fails.pair (h : r.Fails i) (q : Runner β) : (r.pair q).Fails i := by
  intro mark
  obtain ⟨c, run⟩ := h mark
  exact ⟨c, by rw [Runner.pair, run]⟩

/-- A pair also fails at its second part. -/
theorem Yields.pair_fails (h : r.Yields i a k) (h' : q.Fails k) : (r.pair q).Fails i := by
  intro mark
  obtain ⟨mark', run⟩ := h mark
  obtain ⟨c, run'⟩ := h'.map (fun b => (a, b)) mark'
  exact ⟨c, by rw [Runner.pair, run]; exact run'⟩

/-! ### Going back -/

variable {κ : Type} [TokenKind κ] {s : TokenStream κ}

theorem Yields.attempt (h : r.Yields i a j) : (r.attempt s).Yields i a j := by
  intro mark
  obtain ⟨mark', run⟩ := h mark
  exact ⟨mark', by rw [Runner.attempt, run]⟩

/-- An attempt in vain leaves the position. -/
theorem Fails.attempt_eq (h : r.Fails i) (inside : i < s.size) (mark : Nat) :
    ∃ mark', r.attempt s ⟨i, mark⟩ = .ok (none, ⟨i, mark'⟩) := by
  obtain ⟨c, run⟩ := h mark
  refine ⟨c.furthest, ?_⟩
  have back : c.restore s i = ⟨i, c.furthest⟩ := by
    rw [Cursor.restore, Nat.min_eq_left (Nat.le_sub_one_of_lt inside)]
  rw [Runner.attempt, run]
  exact congrArg (fun c => Except.ok (none, c)) back

theorem Fails.attempt (h : r.Fails i) : (r.attempt s).Fails i := by
  intro mark
  obtain ⟨c, run⟩ := h mark
  exact ⟨c.restore s i, by rw [Runner.attempt, run]⟩

theorem Yields.orElse_left (h : r.Yields i a j) (q : Runner α) : (r.orElse s q).Yields i a j := by
  intro mark
  obtain ⟨mark', run⟩ := h.attempt (s := s) mark
  exact ⟨mark', by rw [Runner.orElse, run]⟩

theorem Yields.orElse_right {q : Runner α} (h : q.Yields i a j) (failed : r.Fails i)
    (inside : i < s.size) : (r.orElse s q).Yields i a j := by
  intro mark
  obtain ⟨mark', run⟩ := failed.attempt_eq inside mark
  obtain ⟨mark'', run'⟩ := h.attempt (s := s) mark'
  exact ⟨mark'', by rw [Runner.orElse, run]; exact run'⟩

theorem Fails.orElse {q : Runner α} (h : r.Fails i) (h' : q.Fails i) (inside : i < s.size) :
    (r.orElse s q).Fails i := by
  intro mark
  obtain ⟨mark', run⟩ := h.attempt_eq inside mark
  obtain ⟨c, run'⟩ := h'.attempt (s := s) mark'
  exact ⟨c, by rw [Runner.orElse, run]; exact run'⟩

theorem Yields.optional (h : r.Yields i a j) : (r.optional s).Yields i (some a) j := by
  intro mark
  obtain ⟨mark', run⟩ := h.attempt (s := s) mark
  exact ⟨mark', by rw [Runner.optional, run]⟩

theorem Fails.optional (h : r.Fails i) (inside : i < s.size) :
    (r.optional s).Yields i none i := by
  intro mark
  obtain ⟨mark', run⟩ := h.attempt_eq inside mark
  exact ⟨mark', by rw [Runner.optional, run]⟩

/-! ### Repetition -/

/-- Runs one after the other from position `i` to position `j`: each of them moves on inside the
stream, and from `j` there is no match. -/
inductive Repeats (s : TokenStream κ) (r : Runner α) : Nat → List α → Nat → Prop where
  /-- There is no match. -/
  | stop {i : Nat} : r.Fails i → i < s.size → Repeats s r i [] i
  /-- A run moves on, and so it goes. -/
  | more {i k j : Nat} {a : α} {as : List α} : r.Yields i a k → i < k → i < s.size →
      Repeats s r k as j → Repeats s r i (a :: as) j

/-- The rounds of a repetition are enough, if there are as many as positions left. -/
theorem Repeats.repeatUpTo {as : List α} (h : Repeats s r i as j) {rounds : Nat}
    (enough : s.size - i ≤ rounds) : (r.repeatUpTo s rounds).Yields i as j := by
  induction h generalizing rounds with
  | stop failed inside =>
    obtain ⟨rounds, rfl⟩ := Nat.exists_eq_add_one_of_ne_zero (by omega : rounds ≠ 0)
    intro mark
    obtain ⟨mark', run⟩ := failed.attempt_eq inside mark
    exact ⟨mark', by rw [Runner.repeatUpTo, run]⟩
  | @more i k j a as first less inside _ ih =>
    obtain ⟨rounds, rfl⟩ := Nat.exists_eq_add_one_of_ne_zero (by omega : rounds ≠ 0)
    -- A round that moves on leaves fewer positions, so one round fewer is enough from there.
    have later : (r.repeatUpTo s rounds).Yields k as j := ih (by omega)
    intro mark
    obtain ⟨mark', run⟩ := first.attempt (s := s) mark
    obtain ⟨mark'', run'⟩ := later.map _ mark'
    refine ⟨mark'', ?_⟩
    rw [Runner.repeatUpTo, run]
    simp only [if_neg (Nat.ne_of_gt less)]
    exact run'

theorem Repeats.many {as : List α} (h : Repeats s r i as j) : (r.many s).Yields i as j :=
  fun mark => h.repeatUpTo (Nat.le_refl _) mark

/-- Without a first item there are none. -/
theorem Fails.separatedBy (h : r.Fails i) (inside : i < s.size) (separator : Runner β) :
    (r.separatedBy s separator).Yields i [] i := by
  intro mark
  obtain ⟨mark', run⟩ := h.attempt_eq inside mark
  exact ⟨mark', by rw [Runner.separatedBy, run]⟩

/-- Behind a first item there are pairs of a separator and an item. -/
theorem Yields.separatedBy {separator : Runner β} {as : List α} (h : r.Yields i a k)
    (later : Repeats s ((separator.pair r).map Prod.snd) k as j) :
    (r.separatedBy s separator).Yields i (a :: as) j := by
  intro mark
  obtain ⟨mark', run⟩ := h.attempt (s := s) mark
  obtain ⟨mark'', run'⟩ := later.many.map (a :: ·) mark'
  exact ⟨mark'', by rw [Runner.separatedBy, run]; exact run'⟩

/-! ### Reading -/

variable [DecidableEq κ]

theorem yields_token {kind : κ} (same : (s.get i).kind = kind) (inside : i + 1 < s.size) :
    (token s kind).Yields i (s.get i) (i + 1) := by
  intro mark
  have notEnd : kind ≠ endKind := by
    rw [← same, ne_eq, s.kind_get_eq_end_iff]
    omega
  refine ⟨max mark (i + 1), ?_⟩
  have moved : Cursor.advance s ⟨i, mark⟩ = ⟨i + 1, max mark (i + 1)⟩ := by
    rw [Cursor.advance, if_neg]
    rw [Cursor.atEnd_iff]
    exact Nat.not_le_of_lt inside
  rw [token, Cursor.peek, if_neg, moved]
  exact not_or.2 ⟨notEnd, not_not_intro same⟩

theorem fails_token {kind : κ} (other : (s.get i).kind ≠ kind) : (token s kind).Fails i := by
  intro mark
  exact ⟨⟨i, mark⟩, by rw [token, Cursor.peek, if_pos (.inr other)]⟩

theorem yields_finish (last : s.size ≤ i + 1) : (finish s).Yields i () i := by
  intro mark
  have atEnd : Cursor.atEnd s ⟨i, mark⟩ = true := Cursor.atEnd_iff.2 last
  exact ⟨mark, by rw [finish, atEnd]; rfl⟩

end Runner

/-! ### Expressions -/

/-- From position `i` an expression yields a value or, as part of a sequence, its items, and ends at
position `j`. -/
structure Meaning.Yields {items : List Type} (m : Meaning items α) (i : Nat) (a : α)
    (t : Tuple items) (j : Nat) : Prop where
  value : m.value.Yields i a j
  parts : m.parts.Yields i t j

/-- From a position an expression does not match. -/
structure Meaning.Fails {items : List Type} (m : Meaning items α) (i : Nat) : Prop where
  value : m.value.Fails i
  parts : m.parts.Fails i

namespace Meaning

variable {r : Runner α} {i j : Nat} {a : α}

theorem Yields.single (h : r.Yields i a j) : (Meaning.single r).Yields i a (a, ()) j :=
  ⟨h, h.map Tuple.single⟩

theorem Fails.single (h : r.Fails i) : (Meaning.single r).Fails i := ⟨h, h.map Tuple.single⟩

end Meaning

namespace Parser

variable {κ : Type} [DecidableEq κ] [TokenKind κ] {ρ : Type → Type} {s : TokenStream κ}
  {call : {α : Type} → ρ α → Runner α} {items first second : List Type} {i j k : Nat} {a : α}
  {b : β} {t : Tuple first} {u : Tuple second}

/-! ### Expressions that match -/

theorem yields_token {kind : κ} (same : (s.get i).kind = kind) (inside : i + 1 < s.size) :
    ((token kind : Parser κ ρ _ _).meaning s call).Yields i (s.get i) (s.get i, ()) (i + 1) :=
  .single (Runner.yields_token same inside)

theorem yields_ignore {kind : κ} (same : (s.get i).kind = kind) (inside : i + 1 < s.size) :
    ((ignore kind : Parser κ ρ _ _).meaning s call).Yields i ⟨⟩ () (i + 1) := by
  have read := Runner.yields_token same inside
  exact ⟨read.map _, read.map _⟩

theorem yields_finish (last : s.size ≤ i + 1) :
    ((finish : Parser κ ρ _ _).meaning s call).Yields i () () i :=
  ⟨Runner.yields_finish last, Runner.yields_finish last⟩

variable {p : Parser κ ρ first α} {q : Parser κ ρ second β}

theorem yields_seq (h : (p.meaning s call).Yields i a t j) :
    (p.seq.meaning s call).Yields i t t j := ⟨h.parts, h.parts⟩

theorem yields_map (h : (p.meaning s call).Yields i a t j) (f : α → β) :
    ((p.map f).meaning s call).Yields i (f a) (f a, ()) j := .single (h.value.map f)

theorem yields_tryMap (h : (p.meaning s call).Yields i a t j) {f : α → Option β}
    (accepted : f a = some b) : ((p.tryMap f).meaning s call).Yields i b (b, ()) j :=
  .single (h.value.filterMap accepted).attempt

theorem yields_and (h : (p.meaning s call).Yields i a t k)
    (h' : (q.meaning s call).Yields k b u j) :
    ((p.and q).meaning s call).Yields i (t.append u) (t.append u) j := by
  have both := h.parts.pair h'.parts
  exact ⟨(both.map _).attempt, (both.map _).attempt⟩

theorem yields_skip (h : (p.meaning s call).Yields i a t k)
    (h' : (q.meaning s call).Yields k b u j) : ((p.skip q).meaning s call).Yields i a t j :=
  ⟨((h.value.pair h'.value).map Prod.fst).attempt, ((h.parts.pair h'.value).map Prod.fst).attempt⟩

theorem yields_or_left (h : (p.meaning s call).Yields i a t j) (q : Parser κ ρ second α) :
    ((p.or q).meaning s call).Yields i a (a, ()) j := .single (h.value.orElse_left _)

theorem yields_or_right {q : Parser κ ρ second α} (h : (q.meaning s call).Yields i a u j)
    (failed : (p.meaning s call).Fails i) (inside : i < s.size) :
    ((p.or q).meaning s call).Yields i a (a, ()) j :=
  .single (h.value.orElse_right failed.value inside)

theorem yields_many {as : List α} (h : Runner.Repeats s (p.meaning s call).value i as j) :
    (p.many.meaning s call).Yields i as (as, ()) j := .single h.many

theorem yields_optional_some (h : (p.meaning s call).Yields i a t j) :
    (p.optional.meaning s call).Yields i (some a) (some a, ()) j := .single h.value.optional

theorem yields_optional_none (h : (p.meaning s call).Fails i) (inside : i < s.size) :
    (p.optional.meaning s call).Yields i none (none, ()) i := .single (h.value.optional inside)

theorem yields_separatedBy_nil (h : (p.meaning s call).Fails i) (inside : i < s.size)
    (q : Parser κ ρ second β) : ((p.separatedBy q).meaning s call).Yields i [] ([], ()) i :=
  .single (h.value.separatedBy inside _)

theorem yields_separatedBy_cons {as : List α} (h : (p.meaning s call).Yields i a t k)
    (later : Runner.Repeats s
      (((q.meaning s call).value.pair (p.meaning s call).value).map Prod.snd) k as j) :
    ((p.separatedBy q).meaning s call).Yields i (a :: as) (a :: as, ()) j :=
  .single (h.value.separatedBy later)

theorem yields_rule {reference : ρ α} (h : (call reference).Yields i a j) :
    ((rule reference : Parser κ ρ _ _).meaning s call).Yields i a (a, ()) j := .single h

/-! ### Expressions that do not match -/

theorem fails_token {kind : κ} (other : (s.get i).kind ≠ kind) :
    ((token kind : Parser κ ρ _ _).meaning s call).Fails i := .single (Runner.fails_token other)

theorem fails_ignore {kind : κ} (other : (s.get i).kind ≠ kind) :
    ((ignore kind : Parser κ ρ _ _).meaning s call).Fails i := by
  have unread := Runner.fails_token other
  exact ⟨unread.map _, unread.map _⟩

theorem fails_seq (h : (p.meaning s call).Fails i) : (p.seq.meaning s call).Fails i :=
  ⟨h.parts, h.parts⟩

theorem fails_map (h : (p.meaning s call).Fails i) (f : α → β) :
    ((p.map f).meaning s call).Fails i := .single (h.value.map f)

theorem fails_tryMap (h : (p.meaning s call).Fails i) (f : α → Option β) :
    ((p.tryMap f).meaning s call).Fails i := .single (h.value.filterMap f).attempt

theorem fails_and (h : (p.meaning s call).Fails i) (q : Parser κ ρ second β) :
    ((p.and q).meaning s call).Fails i := by
  have both := h.parts.pair (q.meaning s call).parts
  exact ⟨(both.map _).attempt, (both.map _).attempt⟩

theorem fails_skip (h : (p.meaning s call).Fails i) (q : Parser κ ρ second β) :
    ((p.skip q).meaning s call).Fails i :=
  ⟨((h.value.pair _).map _).attempt, ((h.parts.pair _).map _).attempt⟩

/-- An expression also fails at what has to follow it. -/
theorem fails_skip_right (h : (p.meaning s call).Yields i a t k)
    (h' : (q.meaning s call).Fails k) : ((p.skip q).meaning s call).Fails i :=
  ⟨((h.value.pair_fails h'.value).map _).attempt, ((h.parts.pair_fails h'.value).map _).attempt⟩

theorem fails_or {q : Parser κ ρ second α} (h : (p.meaning s call).Fails i)
    (h' : (q.meaning s call).Fails i) (inside : i < s.size) :
    ((p.or q).meaning s call).Fails i := .single (h.value.orElse h'.value inside)

theorem fails_rule {reference : ρ α} (h : (call reference).Fails i) :
    ((rule reference : Parser κ ρ _ _).meaning s call).Fails i := .single h

/-! ### The first token -/

/-- Whether the first token is enough to tell that an expression does not match: in front of a token
of this kind it cannot, as far as the rules in `refused` cannot. -/
def refuses (refused : {α : Type} → ρ α → Bool) (kind : κ) :
    {items : List Type} → {α : Type} → Parser κ ρ items α → Bool
  | _, _, token expected => kind ≠ expected
  | _, _, ignore expected => kind ≠ expected
  | _, _, seq p => p.refuses refused kind
  | _, _, map _ p => p.refuses refused kind
  | _, _, tryMap _ p => p.refuses refused kind
  | _, _, and p _ => p.refuses refused kind
  | _, _, skip p _ => p.refuses refused kind
  | _, _, or p q => p.refuses refused kind && q.refuses refused kind
  | _, _, rule reference => refused reference
  -- The others also match without reading anything.
  | _, _, finish => false
  | _, _, many _ => false
  | _, _, optional _ => false
  | _, _, separatedBy _ _ => false

theorem fails_of_refuses {refused : {α : Type} → ρ α → Bool}
    (h : ∀ {α : Type} (reference : ρ α), refused reference = true → (call reference).Fails i)
    (inside : i < s.size) {items : List Type} {α : Type} {p : Parser κ ρ items α}
    (refusal : p.refuses refused (s.get i).kind = true) : (p.meaning s call).Fails i := by
  induction p with
  | token expected => exact fails_token (of_decide_eq_true refusal)
  | ignore expected => exact fails_ignore (of_decide_eq_true refusal)
  | seq p ih => exact fails_seq (ih refusal)
  | map f p ih => exact fails_map (ih refusal) f
  | tryMap f p ih => exact fails_tryMap (ih refusal) f
  | and p q ih _ => exact fails_and (ih refusal) q
  | skip p q ih _ => exact fails_skip (ih refusal) q
  | or p q ih ih' =>
    obtain ⟨first, second⟩ := Bool.and_eq_true_iff.1 refusal
    exact fails_or (ih first) (ih' second) inside
  | rule reference => exact fails_rule (h reference refusal)
  | finish => cases refusal
  | many p => cases refusal
  | optional p => cases refusal
  | separatedBy p separator => cases refusal

/-- An expression that does not begin with a rule gives up at the first token. -/
theorem fails_of_first {kind : κ} (first : (s.get i).kind = kind) (inside : i < s.size)
    {items : List Type} {α : Type} {p : Parser κ ρ items α}
    (refusal : p.refuses (fun _ => false) kind = true) : (p.meaning s call).Fails i := by
  subst first
  refine fails_of_refuses ?_ inside refusal
  intro α reference no
  cases no

/-- The first token tells which alternative to take. -/
theorem yields_or_of_first {kind : κ} {p : Parser κ ρ first α} {q : Parser κ ρ second α}
    (h : (q.meaning s call).Yields i a u j) (same : (s.get i).kind = kind) (inside : i < s.size)
    (refusal : p.refuses (fun _ => false) kind = true) :
    ((p.or q).meaning s call).Yields i a (a, ()) j :=
  yields_or_right h (fails_of_first same inside refusal) inside

end Parser

namespace Rules

variable {κ : Type} [DecidableEq κ] [TokenKind κ] {ρ : Type → Type}

/-- Whether the first token is enough to tell that a rule does not match, when rules are entered to
the given depth. -/
def refuses (rules : Rules κ ρ) (kind : κ) : Nat → {α : Type} → ρ α → Bool
  | 0, _, _ => false
  | depth + 1, _, reference =>
      match rules.lookup reference with
      | .error _ => false
      | .ok definition => definition.parser.refuses (rules.refuses kind depth) kind

theorem fails_of_refuses {rules : Rules κ ρ} {s : TokenStream κ} {i depth : Nat}
    (inside : i < s.size) {α : Type} {reference : ρ α}
    (refusal : rules.refuses (s.get i).kind depth reference = true) :
    (rules.call s depth reference).Fails i := by
  induction depth generalizing α with
  | zero => cases refusal
  | succ depth ih =>
    rw [refuses] at refusal
    cases found : rules.lookup reference with
    | error e =>
      rw [found] at refusal
      cases refusal
    | ok definition =>
      rw [found] at refusal
      rw [call_succ found]
      exact (Parser.fails_of_refuses (fun _ => ih) inside refusal).value

end Rules

end FrontEnd
