import FrontEnd.Proofs.Parser.Recording
import FrontEnd.Proofs.Parser.Spelling

/-!
# What expressions may read

A run takes the first alternative that matches and repeats as often as it can.  A reading leaves all
of these choices open: it says which tokens may be read as which values by some choice or other.
Whatever a run yields is one of the values that the tokens behind it may be read as.

## Main Definitions

* `Reading` — which tokens may be read as which values, with the operations on readings
* `Parser.readings` — what an expression may read, for its value and for its items
* `Recorder.Follows` — whatever a run yields may be read from the tokens that it has passed
* `Rules.Closed` — readings of rules that cover the readings of their definitions

## Main Results

* `Parser.follows_record` — expressions follow their readings, if rules do
* `Rules.Closed.reads` — what an expression yields, it may be read as

## Design Notes

**Closed, not least.**  Readings of recursive rules could be built up depth by depth.  It is enough
to have some readings at hand that are closed under the definitions: the trees of a language, with
their notation, are such readings.

**Tokens, not positions.**  A reading is about a list of tokens, and `Spelled Eq s i w j` says that
the tokens between two positions of a stream are the list `w`.
-/

namespace FrontEnd

/-- Which values some tokens may be read as. -/
abbrev Reading (κ α : Type) := List (Token κ) → α → Prop

namespace Reading

variable {κ α β : Type}

/-- Transform the value. -/
def map (f : α → β) (R : Reading κ α) : Reading κ β := fun w b => ∃ a, R w a ∧ f a = b

/-- Transform the value, or reject it. -/
def filterMap (f : α → Option β) (R : Reading κ α) : Reading κ β :=
  fun w b => ∃ a, R w a ∧ f a = some b

/-- Read one after the other. -/
def pair (R : Reading κ α) (Q : Reading κ β) : Reading κ (α × β) :=
  fun w both => ∃ u v, w = u ++ v ∧ R u both.1 ∧ Q v both.2

/-- Read one or the other. -/
def orElse (R Q : Reading κ α) : Reading κ α := fun w a => R w a ∨ Q w a

/-- Read something or nothing. -/
def optional (R : Reading κ α) : Reading κ (Option α)
  | w, none => w = []
  | w, some a => R w a

/-- Read any number of times. -/
def many (R : Reading κ α) : Reading κ (List α)
  | w, [] => w = []
  | w, a :: as => ∃ u v, w = u ++ v ∧ R u a ∧ many R v as

/-- Read any number of times, with separators in between. -/
def separatedBy (R : Reading κ α) (Q : Reading κ β) : Reading κ (List α)
  | w, [] => w = []
  | w, a :: as => ∃ u v, w = u ++ v ∧ R u a ∧ ((Q.pair R).map Prod.snd).many v as

/-- Read one token of a kind. -/
def token (kind : κ) : Reading κ (Token κ) := fun w t => w = [t] ∧ t.kind = kind

/-- Read nothing. -/
def finish : Reading κ Unit := fun w _ => w = []

end Reading

/-- What an expression may read: for its value, and as part of a sequence. -/
structure Readings (κ : Type) (items : List Type) (α : Type) where
  /-- Readings for the value. -/
  value : Reading κ α
  /-- Readings for the items. -/
  parts : Reading κ (Tuple items)

/-- Readings whose value is a single item. -/
def Readings.single {κ α : Type} (R : Reading κ α) : Readings κ [α] α := ⟨R, R.map Tuple.single⟩

/-- What an expression may read, if rules may read what the `language` says. -/
def Parser.readings {κ : Type} {ρ : Type → Type}
    (language : {α : Type} → ρ α → Reading κ α) :
    {items : List Type} → {α : Type} → Parser κ ρ items α → Readings κ items α
  | _, _, token kind => .single (Reading.token kind)
  | _, _, ignore kind =>
      ⟨(Reading.token kind).map fun _ => ⟨⟩, (Reading.token kind).map fun _ => ()⟩
  | _, _, finish => ⟨Reading.finish, Reading.finish⟩
  | _, _, seq p =>
      let readings := p.readings language
      ⟨readings.parts, readings.parts⟩
  | _, _, map f p => .single ((p.readings language).value.map f)
  | _, _, tryMap f p => .single ((p.readings language).value.filterMap f)
  | _, _, and p q =>
      let both := (p.readings language).parts.pair (q.readings language).parts
      let readings := both.map fun (a, b) => a.append b
      ⟨readings, readings⟩
  | _, _, skip p q =>
      let first := p.readings language
      let second := (q.readings language).value
      ⟨(first.value.pair second).map Prod.fst, (first.parts.pair second).map Prod.fst⟩
  | _, _, or p q => .single ((p.readings language).value.orElse (q.readings language).value)
  | _, _, many p => .single (p.readings language).value.many
  | _, _, optional p => .single (p.readings language).value.optional
  | _, _, separatedBy p separator =>
      .single ((p.readings language).value.separatedBy (separator.readings language).value)
  | _, _, rule reference => .single (language reference)

variable {κ α β : Type} [TokenKind κ]

/-! ### What runs read -/

namespace Recorder

/-- Whatever a run yields may be read from the tokens between its start and its end. -/
def Follows (s : TokenStream κ) (r : Recorder κ α) (R : Reading κ α) : Prop :=
  ∀ c a c', c.position < s.size → (r c).outcome = .ok (some a, c') →
    ∃ w, Spelled Eq s c.position w c'.position ∧ R w a

variable {s : TokenStream κ} {r : Recorder κ α} {q : Recorder κ β} {R : Reading κ α}
  {Q : Reading κ β}

theorem Follows.map (h : r.Follows s R) (f : α → β) : (r.map f).Follows s (R.map f) := by
  intro c b c' inside run
  obtain ⟨value, run', matched, -⟩ := exists_of_map run
  cases value with
  | none => cases matched
  | some a =>
    cases matched
    obtain ⟨w, passed, read⟩ := h c a c' inside run'
    exact ⟨w, passed, a, read, rfl⟩

theorem Follows.filterMap (h : r.Follows s R) (f : α → Option β) :
    (r.filterMap f).Follows s (R.filterMap f) := by
  intro c b c' inside run
  obtain ⟨value, run', matched, -⟩ := exists_of_filterMap run
  cases value with
  | none => cases matched
  | some a =>
    obtain ⟨w, passed, read⟩ := h c a c' inside run'
    exact ⟨w, passed, a, read, matched.symm⟩

theorem Follows.pair (h : r.Follows s R) (h' : q.Follows s Q) :
    (r.pair q).Follows s (R.pair Q) := by
  intro c both c' inside run
  obtain ⟨value, c₁, first, second, -⟩ := Recorded.exists_of_andThen run
  cases value with
  | none => cases second
  | some a =>
    obtain ⟨u, front, read⟩ := h c a c₁ inside first
    obtain ⟨v, back, b, read', rfl⟩ := h'.map _ c₁ both c' (front.inside inside) second
    exact ⟨u ++ v, spelled_append.2 ⟨_, front, back⟩, u, v, rfl, read, read'⟩

theorem Follows.attempt (h : r.Follows s R) : (r.attempt s).Follows s R := by
  intro c a c' inside run
  obtain ⟨value, c₁, first, second, -⟩ := Recorded.exists_of_andThen run
  cases value with
  | none => cases second
  | some b =>
    cases second
    exact h c a c' inside first

/-- An attempt in vain is back where it started. -/
theorem position_of_attempt {c c' : Cursor} (run : (r.attempt s c).outcome = .ok (none, c'))
    (inside : c.position < s.size) : c'.position = c.position := by
  obtain ⟨value, c₁, first, second, -⟩ := Recorded.exists_of_andThen run
  cases value with
  | none =>
    cases second
    exact Cursor.position_restore inside
  | some a => cases second

theorem Follows.orElse {q : Recorder κ α} {Q : Reading κ α} (h : r.Follows s R)
    (h' : q.Follows s Q) : (r.orElse s q).Follows s (R.orElse Q) := by
  intro c a c' inside run
  obtain ⟨value, c₁, first, second, -⟩ := Recorded.exists_of_andThen run
  cases value with
  | none =>
    have back := position_of_attempt first inside
    obtain ⟨w, passed, read⟩ := h'.attempt c₁ a c' (by rwa [back]) second
    rw [back] at passed
    exact ⟨w, passed, .inr read⟩
  | some b =>
    cases second
    obtain ⟨w, passed, read⟩ := h.attempt c a c' inside first
    exact ⟨w, passed, .inl read⟩

theorem Follows.optional (h : r.Follows s R) : (r.optional s).Follows s R.optional := by
  intro c value c' inside run
  obtain ⟨value, c₁, first, second, -⟩ := Recorded.exists_of_andThen run
  cases second
  cases value with
  | none => exact ⟨[], (position_of_attempt first inside).symm, rfl⟩
  | some a => exact h.attempt c a c' inside first

theorem Follows.repeatUpTo (h : r.Follows s R) (rounds : Nat) :
    (r.repeatUpTo s rounds).Follows s R.many := by
  induction rounds with
  | zero =>
    intro c as c' inside run
    cases run
    exact ⟨[], rfl, rfl⟩
  | succ rounds ih =>
    intro c as c' inside run
    obtain ⟨value, c₁, first, second, -⟩ := Recorded.exists_of_andThen run
    cases value with
    | none =>
      cases second
      exact ⟨[], (position_of_attempt first inside).symm, rfl⟩
    | some a =>
      obtain ⟨u, front, read⟩ := h.attempt c a c₁ inside first
      simp only at second
      by_cases still : c₁.position = c.position
      · rw [if_pos still] at second
        cases second
        exact ⟨u, front, u, [], (List.append_nil u).symm, read, rfl⟩
      · rw [if_neg still] at second
        obtain ⟨v, back, later, reads, rfl⟩ := ih.map _ c₁ as c' (front.inside inside) second
        exact ⟨u ++ v, spelled_append.2 ⟨_, front, back⟩, u, v, rfl, read, reads⟩

theorem Follows.many (h : r.Follows s R) : (r.many s).Follows s R.many :=
  fun c as c' inside run => h.repeatUpTo _ c as c' inside run

theorem Follows.separatedBy (h : r.Follows s R) (h' : q.Follows s Q) :
    (r.separatedBy s q).Follows s (R.separatedBy Q) := by
  intro c as c' inside run
  obtain ⟨value, c₁, first, second, -⟩ := Recorded.exists_of_andThen run
  cases value with
  | none =>
    cases second
    exact ⟨[], (position_of_attempt first inside).symm, rfl⟩
  | some a =>
    obtain ⟨u, front, read⟩ := h.attempt c a c₁ inside first
    have items := (((h'.pair h).map Prod.snd).many).map (a :: ·)
    obtain ⟨v, back, later, reads, rfl⟩ := items c₁ as c' (front.inside inside) second
    exact ⟨u ++ v, spelled_append.2 ⟨_, front, back⟩, u, v, rfl, read, reads⟩

/-- A run that always ends in a fault follows any reading. -/
theorem Follows.fault (h : ∀ c, ∃ e, (r c).outcome = .error e) : r.Follows s R := by
  intro c a c' inside run
  obtain ⟨e, fault⟩ := h c
  rw [fault] at run
  cases run

variable [DecidableEq κ]

theorem follows_token (s : TokenStream κ) (kind : κ) :
    (token s kind).Follows s (Reading.token kind) := by
  intro c t c' inside run
  unfold token at run
  by_cases rejected : kind = endKind ∨ (c.peek s).kind ≠ kind
  · simp only [if_pos rejected] at run
    cases run
  · simp only [if_neg rejected] at run
    cases run
    obtain ⟨notEnd, same⟩ := not_or.1 rejected
    have same := Decidable.not_not.1 same
    have before : c.position + 1 < s.size := by
      refine Nat.lt_of_not_le fun last => notEnd ?_
      rw [← same]
      exact (s.kind_get_eq_end_iff c.position).2 last
    have moved : (c.advance s).position = c.position + 1 := by
      rw [Cursor.advance, if_neg]
      rw [Cursor.atEnd_iff]
      exact Nat.not_le_of_lt before
    exact ⟨[c.peek s], ⟨before, rfl, moved.symm⟩, rfl, same⟩

theorem follows_finish (s : TokenStream κ) : (finish s).Follows s Reading.finish := by
  intro c a c' inside run
  simp only [finish, Recorded.still, Except.ok.injEq, Prod.mk.injEq] at run
  exact ⟨[], congrArg Cursor.position run.2, rfl⟩

end Recorder

/-! ### Expressions -/

/-- Both runs of an expression follow its readings. -/
structure Recording.Follows {items : List Type} (s : TokenStream κ) (r : Recording κ items α)
    (R : Readings κ items α) : Prop where
  value : r.value.Follows s R.value
  parts : r.parts.Follows s R.parts

theorem Recording.Follows.single {s : TokenStream κ} {r : Recorder κ α} {R : Reading κ α}
    (h : r.Follows s R) : (Recording.single r).Follows s (Readings.single R) := ⟨h, h.map _⟩

variable [DecidableEq κ] {ρ : Type → Type} {s : TokenStream κ}
  {language : {α : Type} → ρ α → Reading κ α}

/-- **Every expression follows its readings**, if the rules that it refers to do. -/
theorem Parser.follows_record {call : {α : Type} → ρ α → Recorder κ α}
    (rules : ∀ {α : Type} (reference : ρ α), (call reference).Follows s (language reference))
    {items : List Type} {α : Type} (p : Parser κ ρ items α) :
    (p.record s call).Follows s (p.readings language) := by
  induction p with
  | token kind => exact .single (Recorder.follows_token s kind)
  | ignore kind =>
    have read := Recorder.follows_token s kind
    exact ⟨read.map _, read.map _⟩
  | finish => exact ⟨Recorder.follows_finish s, Recorder.follows_finish s⟩
  | seq p ih => exact ⟨ih.parts, ih.parts⟩
  | map f p ih => exact .single (ih.value.map f)
  | tryMap f p ih => exact .single (ih.value.filterMap f).attempt
  | and p q ihp ihq =>
    have both := (ihp.parts.pair ihq.parts).map fun (a, b) => Tuple.append a b
    exact ⟨both.attempt, both.attempt⟩
  | skip p q ihp ihq =>
    exact ⟨((ihp.value.pair ihq.value).map _).attempt, ((ihp.parts.pair ihq.value).map _).attempt⟩
  | or p q ihp ihq => exact .single (ihp.value.orElse ihq.value)
  | many p ih => exact .single ih.value.many
  | optional p ih => exact .single ih.value.optional
  | separatedBy p separator ihp ihs => exact .single (ihp.value.separatedBy ihs.value)
  | rule reference => exact .single (rules reference)

namespace Rules

/-- What the definition of a rule may read, the rule may read. -/
def Closed (rules : Rules κ ρ) (language : {α : Type} → ρ α → Reading κ α) : Prop :=
  ∀ {α : Type} {reference : ρ α} {definition : Definition κ ρ α},
    rules.lookup reference = .ok definition →
      ∀ w a, (definition.parser.readings language).value w a → language reference w a

variable {rules : Rules κ ρ}


/-- Rules follow their readings, to whatever depth they are entered. -/
theorem Closed.follows_recordCall (closed : rules.Closed language) (s : TokenStream κ)
    (depth : Nat) {α : Type} (reference : ρ α) :
    (rules.recordCall s depth reference).Follows s (language reference) := by
  induction depth generalizing α with
  | zero => exact .fault fun c => ⟨_, rfl⟩
  | succ depth ih =>
    cases found : rules.lookup reference with
    | error e => exact .fault fun c => ⟨e, by rw [recordCall, found]⟩
    | ok definition =>
      rw [recordCall_succ found]
      intro c a c' inside run
      obtain ⟨w, passed, read⟩ :=
        (definition.parser.follows_record ih).value c a c' inside run
      exact ⟨w, passed, closed found w a read⟩

/-- **What an expression yields may be read** from the tokens that its run has passed. -/
theorem Closed.reads (closed : rules.Closed language) {depth : Nat} {items : List Type}
    {α : Type} {p : Parser κ ρ items α} {c c' : Cursor} {a : α} (inside : c.position < s.size)
    (run : (p.meaning s (rules.call s depth)).value c = .ok (some a, c')) :
    ∃ w, Spelled Eq s c.position w c'.position ∧ (p.readings language).value w a := by
  rw [← p.erase_record s (rules.erase_recordCall s depth)] at run
  exact (p.follows_record (closed.follows_recordCall s depth)).value c a c' inside run

end Rules

end FrontEnd
