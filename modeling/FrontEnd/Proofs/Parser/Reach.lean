import FrontEnd.Proofs.Parser.Backtracking
import FrontEnd.Proofs.Parser.Reading

/-!
# Which rules a run reaches, and where

A run of an expression can only enter the rules that the expression refers to.  Some of them it can
enter where it starts; all others only behind the first token that it has read.

## Main Definitions

* `Parser.RefersTo` — all rules that an expression refers to have a property
* `Parser.reads` — an expression that only matches by reading a token
* `Parser.Leads` — all rules that a run may enter before it has read a token have a property
* `Runner.Moves` — where a run that matches ends
* `Runner.Tracks` — from some position two runs do the same, up to faults that are tolerated
* `Rules.SelfContained` — rules of some sort that only refer to rules of this sort

## Main Results

* `Rules.moves_meaning` — an expression that reads ends behind its start
* `Parser.tracks_meaning` — an expression does the same under two ways to call rules, if the two
  agree on the rules it leads with where it starts, and on all of its rules further on
* `Rules.SelfContained.eq_unbounded` — no rule without a definition is entered from a self-contained
  sort of rules

## Design Notes

**The syntax decides.**  `reads` and `Leads` overestimate what a run does: a repetition is taken to
match without reading anything, a rule as well.  For the recursion of a grammar this is enough.

**Faults are tolerated or excluded.**  With the same calls on both sides, tracking says that only
tolerated faults come up; with no fault tolerated, it says that none does.
-/

namespace FrontEnd

variable {κ : Type} {ρ : Type → Type}

namespace Parser

/-- All rules that an expression refers to have a property. -/
def RefersTo (P : {α : Type} → ρ α → Prop) :
    {items : List Type} → {α : Type} → Parser κ ρ items α → Prop
  | _, _, token _ => True
  | _, _, ignore _ => True
  | _, _, finish => True
  | _, _, seq p => p.RefersTo P
  | _, _, map _ p => p.RefersTo P
  | _, _, tryMap _ p => p.RefersTo P
  | _, _, and p q => p.RefersTo P ∧ q.RefersTo P
  | _, _, skip p q => p.RefersTo P ∧ q.RefersTo P
  | _, _, or p q => p.RefersTo P ∧ q.RefersTo P
  | _, _, many p => p.RefersTo P
  | _, _, optional p => p.RefersTo P
  | _, _, separatedBy p separator => p.RefersTo P ∧ separator.RefersTo P
  | _, _, rule reference => P reference

/-- Whether an expression surely reads a token when it matches. -/
def reads : {items : List Type} → {α : Type} → Parser κ ρ items α → Bool
  | _, _, token _ => true
  | _, _, ignore _ => true
  | _, _, finish => false
  | _, _, seq p => p.reads
  | _, _, map _ p => p.reads
  | _, _, tryMap _ p => p.reads
  | _, _, and p q => p.reads || q.reads
  | _, _, skip p q => p.reads || q.reads
  | _, _, or p q => p.reads && q.reads
  | _, _, many _ => false
  | _, _, optional _ => false
  | _, _, separatedBy _ _ => false
  | _, _, rule _ => false

/-- All rules that a run may enter before it has read a token have a property. -/
def Leads (P : {α : Type} → ρ α → Prop) :
    {items : List Type} → {α : Type} → Parser κ ρ items α → Prop
  | _, _, token _ => True
  | _, _, ignore _ => True
  | _, _, finish => True
  | _, _, seq p => p.Leads P
  | _, _, map _ p => p.Leads P
  | _, _, tryMap _ p => p.Leads P
  | _, _, and p q => p.Leads P ∧ (p.reads = false → q.Leads P)
  | _, _, skip p q => p.Leads P ∧ (p.reads = false → q.Leads P)
  | _, _, or p q => p.Leads P ∧ q.Leads P
  | _, _, many p => p.Leads P
  | _, _, optional p => p.Leads P
  | _, _, separatedBy p separator => p.Leads P ∧ (p.reads = false → separator.Leads P)
  | _, _, rule reference => P reference

variable {P Q : {α : Type} → ρ α → Prop} {items : List Type} {α : Type} {p : Parser κ ρ items α}

theorem RefersTo.mono (imp : ∀ {α : Type} (reference : ρ α), P reference → Q reference)
    (h : p.RefersTo P) : p.RefersTo Q := by
  induction p with
  | token | ignore | finish => trivial
  | seq _ ih | map _ _ ih | tryMap _ _ ih | many _ ih | optional _ ih => exact ih h
  | and _ _ ihp ihq | skip _ _ ihp ihq | or _ _ ihp ihq | separatedBy _ _ ihp ihq =>
    exact ⟨ihp h.1, ihq h.2⟩
  | rule reference => exact imp reference h

theorem Leads.mono (imp : ∀ {α : Type} (reference : ρ α), P reference → Q reference)
    (h : p.Leads P) : p.Leads Q := by
  induction p with
  | token | ignore | finish => trivial
  | seq _ ih | map _ _ ih | tryMap _ _ ih | many _ ih | optional _ ih => exact ih h
  | or _ _ ihp ihq => exact ⟨ihp h.1, ihq h.2⟩
  | and _ _ ihp ihq | skip _ _ ihp ihq | separatedBy _ _ ihp ihq =>
    exact ⟨ihp h.1, fun silent => ihq (h.2 silent)⟩
  | rule reference => exact imp reference h

theorem Leads.both (h : p.Leads P) (h' : p.Leads Q) :
    p.Leads fun reference => P reference ∧ Q reference := by
  induction p with
  | token | ignore | finish => trivial
  | seq _ ih | map _ _ ih | tryMap _ _ ih | many _ ih | optional _ ih => exact ih h h'
  | or _ _ ihp ihq => exact ⟨ihp h.1 h'.1, ihq h.2 h'.2⟩
  | and _ _ ihp ihq | skip _ _ ihp ihq | separatedBy _ _ ihp ihq =>
    exact ⟨ihp h.1 h'.1, fun silent => ihq (h.2 silent) (h'.2 silent)⟩
  | rule reference => exact ⟨h, h'⟩

/-- An expression only leads with rules that it refers to. -/
theorem RefersTo.leads (h : p.RefersTo P) : p.Leads P := by
  induction p with
  | token | ignore | finish => trivial
  | seq _ ih | map _ _ ih | tryMap _ _ ih | many _ ih | optional _ ih => exact ih h
  | or _ _ ihp ihq => exact ⟨ihp h.1, ihq h.2⟩
  | and _ _ ihp ihq | skip _ _ ihp ihq | separatedBy _ _ ihp ihq =>
    exact ⟨ihp h.1, fun _ => ihq h.2⟩
  | rule reference => exact h

end Parser

/-! ### Where runs end -/

namespace Reading

variable {α β : Type} {R : Reading κ α} {Q : Reading κ β}

/-- Nothing may be read from no tokens. -/
def Consumes (R : Reading κ α) : Prop := ∀ w a, R w a → w ≠ []

theorem Consumes.map (h : R.Consumes) (f : α → β) : (R.map f).Consumes := by
  rintro w b ⟨a, read, -⟩
  exact h w a read

theorem Consumes.filterMap (h : R.Consumes) (f : α → Option β) : (R.filterMap f).Consumes := by
  rintro w b ⟨a, read, -⟩
  exact h w a read

theorem Consumes.pair (h : R.Consumes ∨ Q.Consumes) : (R.pair Q).Consumes := by
  rintro w both ⟨u, v, rfl, first, second⟩ nil
  obtain ⟨rfl, rfl⟩ := List.append_eq_nil_iff.1 nil
  rcases h with h | h
  · exact h _ _ first rfl
  · exact h _ _ second rfl

theorem Consumes.orElse {Q : Reading κ α} (h : R.Consumes) (h' : Q.Consumes) :
    (R.orElse Q).Consumes := by
  rintro w a (read | read)
  · exact h w a read
  · exact h' w a read

theorem consumes_token (kind : κ) : (Reading.token kind).Consumes := by
  rintro w t ⟨rfl, -⟩
  exact List.cons_ne_nil _ _

end Reading

/-- An expression that reads cannot be read from nothing, whatever its rules may be read from. -/
theorem Parser.consumes_readings (language : {α : Type} → ρ α → Reading κ α) {items : List Type}
    {α : Type} {p : Parser κ ρ items α} (reads : p.reads = true) :
    (p.readings language).value.Consumes ∧ (p.readings language).parts.Consumes := by
  have both {first second : Bool} {A B : Prop} (h : (first || second) = true)
      (left : first = true → A) (right : second = true → B) : A ∨ B := by
    rcases Bool.or_eq_true_iff.1 h with h | h
    · exact .inl (left h)
    · exact .inr (right h)
  induction p with
  | token kind => exact ⟨Reading.consumes_token kind, (Reading.consumes_token kind).map _⟩
  | ignore kind => exact ⟨(Reading.consumes_token kind).map _, (Reading.consumes_token kind).map _⟩
  | finish | many | optional | separatedBy | rule => cases reads
  | seq p ih => exact ⟨(ih reads).2, (ih reads).2⟩
  | map f p ih => exact ⟨(ih reads).1.map _, ((ih reads).1.map _).map _⟩
  | tryMap f p ih => exact ⟨(ih reads).1.filterMap _, ((ih reads).1.filterMap _).map _⟩
  | and p q ihp ihq =>
    have parts := both reads (fun h => (ihp h).2) fun h => (ihq h).2
    exact ⟨(Reading.Consumes.pair parts).map _, (Reading.Consumes.pair parts).map _⟩
  | skip p q ihp ihq =>
    have value := both reads (fun h => (ihp h).1) fun h => (ihq h).1
    have parts := both reads (fun h => (ihp h).2) fun h => (ihq h).1
    exact ⟨(Reading.Consumes.pair value).map _, (Reading.Consumes.pair parts).map _⟩
  | or p q ihp ihq =>
    obtain ⟨left, right⟩ := Bool.and_eq_true_iff.1 reads
    have value := (ihp left).1.orElse (ihq right).1
    exact ⟨value, value.map _⟩

variable [TokenKind κ] {s : TokenStream κ} {α β : Type}

/-- A run that matches ends inside the stream and not in front of its start; if it `reads`, it ends
behind its start. -/
def Runner.Moves (s : TokenStream κ) (reads : Bool) (r : Runner α) : Prop :=
  ∀ c a c', c.position < s.size → r c = .ok (some a, c') →
    c'.position < s.size ∧ c.position ≤ c'.position ∧ (reads = true → c.position < c'.position)

/-- A run that follows readings moves over the tokens that it has read. -/
theorem Recorder.Follows.moves {r : Recorder κ α} {R : Reading κ α} (h : r.Follows s R)
    {reads : Bool} (consumes : reads = true → R.Consumes) : r.erase.Moves s reads := by
  intro c a c' inside run
  obtain ⟨w, passed, read⟩ := h c a c' inside run
  have position := passed.position
  refine ⟨passed.inside inside, by omega, fun reads => ?_⟩
  have nonempty := List.length_pos_iff.2 (consumes reads w a read)
  omega

/-- **An expression that reads moves on**; any other one at least does not move back. -/
theorem Rules.moves_meaning [DecidableEq κ] (rules : Rules κ ρ) (s : TokenStream κ) (depth : Nat)
    {items : List Type} {α : Type} (p : Parser κ ρ items α) :
    (p.meaning s (rules.call s depth)).value.Moves s p.reads ∧
      (p.meaning s (rules.call s depth)).parts.Moves s p.reads := by
  let language {α : Type} (_ : ρ α) : Reading κ α := fun _ _ => True
  have closed : rules.Closed language := fun _ _ _ _ => trivial
  have follows := p.follows_record (closed.follows_recordCall s depth)
  rw [← p.erase_record s (rules.erase_recordCall s depth)]
  exact ⟨follows.value.moves fun reads => (Parser.consumes_readings language reads).1,
    follows.parts.moves fun reads => (Parser.consumes_readings language reads).2⟩

/-! ### Two runs side by side -/

/-- Two outcomes are the same one, and not a fault unless it is tolerated. -/
def Outcome.Agree (tolerated : Fault → Prop) (x x' : Outcome α) : Prop :=
  x = x' ∧ ∀ e, x' = .error e → tolerated e

section Agree

variable {tolerated : Fault → Prop}

theorem Outcome.agree_ok (value : Option α) (c : Cursor) :
    Outcome.Agree tolerated (.ok (value, c)) (.ok (value, c)) :=
  ⟨rfl, fun _ fault => nomatch fault⟩

/-- Outcomes agree if they go on alike from outcomes that agree. -/
theorem Outcome.Agree.bind {x x' : Outcome α} (h : Outcome.Agree tolerated x x')
    {next next' : Option α × Cursor → Outcome β}
    (later : ∀ value c, x' = .ok (value, c) →
      Outcome.Agree tolerated (next (value, c)) (next' (value, c))) :
    Outcome.Agree tolerated (x.bind next) (x'.bind next') := by
  obtain ⟨rfl, faults⟩ := h
  cases x with
  | error e =>
    refine ⟨rfl, ?_⟩
    rintro _ ⟨⟩
    exact faults e rfl
  | ok result => exact later result.1 result.2 rfl

end Agree

/-- What comes out in the end has come out of two stages. -/
theorem Outcome.exists_of_bind {x : Outcome α} {next : Option α × Cursor → Outcome β}
    {result : Option β × Cursor} (h : x.bind next = .ok result) :
    ∃ value c, x = .ok (value, c) ∧ next (value, c) = .ok result := by
  cases x with
  | error e => cases h
  | ok first => exact ⟨first.1, first.2, rfl, h⟩

namespace Runner

variable {tolerated : Fault → Prop} {i : Nat} {r r' : Runner α} {q q' : Runner β}

/-- From a position two runs do the same, and only tolerated faults come up. -/
def Tracks (tolerated : Fault → Prop) (i : Nat) (r r' : Runner α) : Prop :=
  ∀ mark, Outcome.Agree tolerated (r ⟨i, mark⟩) (r' ⟨i, mark⟩)

theorem map_apply (f : α → β) (r : Runner α) (c : Cursor) :
    r.map f c = (r c).bind fun (value, c') => .ok (value.map f, c') := by
  unfold map
  cases r c <;> rfl

theorem filterMap_apply (f : α → Option β) (r : Runner α) (c : Cursor) :
    r.filterMap f c = (r c).bind fun (value, c') => .ok (value.bind f, c') := by
  unfold filterMap
  cases r c <;> rfl

theorem pair_apply (r : Runner α) (q : Runner β) (c : Cursor) :
    r.pair q c = (r c).bind fun
      | (none, c') => .ok (none, c')
      | (some a, c') => q.map (fun b => (a, b)) c' := by
  unfold pair
  rcases r c with e | ⟨value, c'⟩
  · rfl
  · cases value <;> rfl

theorem attempt_apply (r : Runner α) (c : Cursor) :
    r.attempt s c = (r c).bind fun
      | (none, c') => .ok (none, c'.restore s c.position)
      | (some a, c') => .ok (some a, c') := by
  unfold attempt
  rcases r c with e | ⟨value, c'⟩
  · rfl
  · cases value <;> rfl

theorem orElse_apply (r q : Runner α) (c : Cursor) :
    r.orElse s q c = (r.attempt s c).bind fun
      | (none, c') => q.attempt s c'
      | (some a, c') => .ok (some a, c') := by
  unfold orElse
  rcases r.attempt s c with e | ⟨value, c'⟩
  · rfl
  · cases value <;> rfl

theorem optional_apply (r : Runner α) (c : Cursor) :
    r.optional s c = (r.attempt s c).bind fun (value, c') => .ok (some value, c') := by
  unfold optional
  cases r.attempt s c <;> rfl

theorem repeatUpTo_succ_apply (r : Runner α) (rounds : Nat) (c : Cursor) :
    r.repeatUpTo s (rounds + 1) c = (r.attempt s c).bind fun
      | (none, c') => .ok (some [], c')
      | (some a, c') =>
          if c'.position = c.position then .ok (some [a], c')
          else (r.repeatUpTo s rounds).map (a :: ·) c' := by
  rw [repeatUpTo]
  rcases r.attempt s c with e | ⟨value, c'⟩
  · rfl
  · cases value <;> rfl

theorem separatedBy_apply (r : Runner α) (separator : Runner β) (c : Cursor) :
    r.separatedBy s separator c = (r.attempt s c).bind fun
      | (none, c') => .ok (some [], c')
      | (some a, c') => (((separator.pair r).map Prod.snd).many s).map (a :: ·) c' := by
  unfold separatedBy
  rcases r.attempt s c with e | ⟨value, c'⟩
  · rfl
  · cases value <;> rfl

theorem Tracks.map (h : r.Tracks tolerated i r') (f : α → β) :
    (r.map f).Tracks tolerated i (r'.map f) := by
  intro mark
  rw [map_apply, map_apply]
  exact (h mark).bind fun value c _ => Outcome.agree_ok _ c

theorem Tracks.filterMap (h : r.Tracks tolerated i r') (f : α → Option β) :
    (r.filterMap f).Tracks tolerated i (r'.filterMap f) := by
  intro mark
  rw [filterMap_apply, filterMap_apply]
  exact (h mark).bind fun value c _ => Outcome.agree_ok _ c

theorem Tracks.attempt (h : r.Tracks tolerated i r') :
    (r.attempt s).Tracks tolerated i (r'.attempt s) := by
  intro mark
  rw [attempt_apply, attempt_apply]
  refine (h mark).bind fun value c _ => ?_
  cases value with
  | none => exact Outcome.agree_ok _ _
  | some a => exact Outcome.agree_ok _ _

theorem Tracks.optional (h : r.Tracks tolerated i r') :
    (r.optional s).Tracks tolerated i (r'.optional s) := by
  intro mark
  rw [optional_apply, optional_apply]
  exact (h.attempt mark).bind fun value c _ => Outcome.agree_ok _ c

/-- Where a run that may read ends, another one tracks if it does so at the start, unless the first
one reads, and further on. -/
theorem Tracks.behind {reads : Bool} {j : Nat} (here : reads = false → q.Tracks tolerated i q')
    (later : ∀ j, i < j → j < s.size → q.Tracks tolerated j q')
    (moved : j < s.size ∧ i ≤ j ∧ (reads = true → i < j)) : q.Tracks tolerated j q' := by
  obtain ⟨inside, le, lt⟩ := moved
  rcases Nat.lt_or_eq_of_le le with after | rfl
  · exact later j after inside
  · exact here (Bool.eq_false_iff.2 fun reads => Nat.lt_irrefl i (lt reads))

theorem Tracks.pair {reads : Bool} (h : r.Tracks tolerated i r') (moves : r'.Moves s reads)
    (inside : i < s.size) (here : reads = false → q.Tracks tolerated i q')
    (later : ∀ j, i < j → j < s.size → q.Tracks tolerated j q') :
    (r.pair q).Tracks tolerated i (r'.pair q') := by
  intro mark
  rw [pair_apply, pair_apply]
  refine (h mark).bind fun value c run => ?_
  cases value with
  | none => exact Outcome.agree_ok _ _
  | some a =>
    have next := Tracks.behind here later (moves ⟨i, mark⟩ a c inside run)
    exact next.map _ c.furthest

/-- A run that gives up starts over where it was. -/
theorem position_of_attempt {c c' : Cursor} (inside : c.position < s.size)
    (run : r.attempt s c = .ok (none, c')) : c'.position = c.position := by
  rw [attempt_apply] at run
  obtain ⟨value, c₁, -, second⟩ := Outcome.exists_of_bind run
  cases value with
  | none =>
    cases second
    exact Cursor.position_restore inside
  | some a => cases second

theorem Moves.attempt {reads : Bool} (h : r.Moves s reads) : (r.attempt s).Moves s reads := by
  intro c a c' inside run
  rw [attempt_apply] at run
  obtain ⟨value, c₁, first, second⟩ := Outcome.exists_of_bind run
  cases value with
  | none => cases second
  | some a =>
    cases second
    exact h c a c' inside first

theorem Moves.map {reads : Bool} (h : r.Moves s reads) (f : α → β) :
    (r.map f).Moves s reads := by
  intro c b c' inside run
  rw [map_apply] at run
  obtain ⟨value, c₁, first, second⟩ := Outcome.exists_of_bind run
  cases value with
  | none => cases second
  | some a =>
    cases second
    exact h c a c' inside first

theorem Moves.pair {reads reads' : Bool} (h : r.Moves s reads) (h' : q.Moves s reads') :
    (r.pair q).Moves s false := by
  intro c both c' inside run
  rw [pair_apply] at run
  obtain ⟨value, c₁, first, second⟩ := Outcome.exists_of_bind run
  cases value with
  | none => cases second
  | some a =>
    obtain ⟨inside₁, le, -⟩ := h c a c₁ inside first
    obtain ⟨inside₂, le', -⟩ := h'.map (fun b => (a, b)) c₁ both c' inside₁ second
    exact ⟨inside₂, Nat.le_trans le le', fun h => nomatch h⟩

theorem Tracks.orElse {q q' : Runner α} (h : r.Tracks tolerated i r')
    (h' : q.Tracks tolerated i q') (inside : i < s.size) :
    (r.orElse s q).Tracks tolerated i (r'.orElse s q') := by
  intro mark
  rw [orElse_apply, orElse_apply]
  refine (h.attempt mark).bind fun value c run => ?_
  cases value with
  | none =>
    have back : c.position = i := position_of_attempt inside run
    subst back
    exact h'.attempt c.furthest
  | some a => exact Outcome.agree_ok _ _

/-- A repetition tracks where it starts and wherever an item may end. -/
theorem Tracks.repeatUpTo {reads : Bool} (h : r.Tracks tolerated i r')
    (moves : r'.Moves s reads) (inside : i < s.size)
    (later : ∀ j, i < j → j < s.size → r.Tracks tolerated j r') (rounds : Nat) :
    (r.repeatUpTo s rounds).Tracks tolerated i (r'.repeatUpTo s rounds) := by
  induction rounds generalizing i with
  | zero => exact fun mark => Outcome.agree_ok _ _
  | succ rounds ih =>
    intro mark
    rw [repeatUpTo_succ_apply, repeatUpTo_succ_apply]
    refine (h.attempt mark).bind fun value c run => ?_
    cases value with
    | none => exact Outcome.agree_ok _ _
    | some a =>
      obtain ⟨inside', le, -⟩ := moves.attempt ⟨i, mark⟩ a c inside run
      by_cases still : c.position = i
      · simp only [if_pos still]
        exact Outcome.agree_ok _ _
      · simp only [if_neg still]
        have lt : i < c.position := by
          change i ≤ c.position at le
          omega
        have rest := ih (later _ lt inside') inside' fun j after =>
          later j (Nat.lt_trans lt after)
        exact rest.map _ c.furthest

theorem Tracks.many {reads : Bool} (h : r.Tracks tolerated i r') (moves : r'.Moves s reads)
    (inside : i < s.size) (later : ∀ j, i < j → j < s.size → r.Tracks tolerated j r') :
    (r.many s).Tracks tolerated i (r'.many s) :=
  fun mark => h.repeatUpTo moves inside later (s.size - i) mark

theorem Tracks.separatedBy {reads reads' : Bool} (h : r.Tracks tolerated i r')
    (moves : r'.Moves s reads) (moves' : q'.Moves s reads') (inside : i < s.size)
    (here : reads = false → q.Tracks tolerated i q')
    (later : ∀ j, i < j → j < s.size → r.Tracks tolerated j r' ∧ q.Tracks tolerated j q') :
    (r.separatedBy s q).Tracks tolerated i (r'.separatedBy s q') := by
  have item {j : Nat} (le : i ≤ j) (inside : j < s.size) (separator : q.Tracks tolerated j q') :
      ((q.pair r).map Prod.snd).Tracks tolerated j ((q'.pair r').map Prod.snd) := by
    refine (separator.pair moves' inside (fun _ => ?_) fun k after inside =>
      (later k (Nat.lt_of_le_of_lt le after) inside).1).map _
    rcases Nat.lt_or_eq_of_le le with lt | rfl
    · exact (later j lt inside).1
    · exact h
  have step := Moves.map (Moves.pair moves' moves) Prod.snd
  intro mark
  rw [separatedBy_apply, separatedBy_apply]
  refine (h.attempt mark).bind fun value c run => ?_
  cases value with
  | none => exact Outcome.agree_ok _ _
  | some a =>
    have moved := moves.attempt ⟨i, mark⟩ a c inside run
    have separator := Tracks.behind here (fun j after inside => (later j after inside).2) moved
    obtain ⟨inside', le, -⟩ := moved
    have rest := (item le inside' separator).many step inside' fun j after inside =>
      have after : i < j := Nat.lt_of_le_of_lt le after
      item (Nat.le_of_lt after) inside (later j after inside).2
    exact rest.map _ c.furthest

theorem tracks_token [DecidableEq κ] (kind : κ) :
    (token s kind).Tracks tolerated i (token s kind) := by
  intro mark
  refine ⟨rfl, fun e fault => ?_⟩
  unfold token at fault
  by_cases rejected : kind = endKind ∨ (Cursor.peek s ⟨i, mark⟩).kind ≠ kind
  · simp only [if_pos rejected] at fault
    cases fault
  · simp only [if_neg rejected] at fault
    cases fault

theorem tracks_finish [DecidableEq κ] : (finish s).Tracks tolerated i (finish s) :=
  fun _ => Outcome.agree_ok _ _

end Runner

variable [DecidableEq κ]

/-- Both runs of an expression track those of another one. -/
structure Meaning.Tracks (tolerated : Fault → Prop) (i : Nat) {items : List Type}
    (m m' : Meaning items α) : Prop where
  value : m.value.Tracks tolerated i m'.value
  parts : m.parts.Tracks tolerated i m'.parts

theorem Meaning.Tracks.single {tolerated : Fault → Prop} {i : Nat} {r r' : Runner α}
    (h : r.Tracks tolerated i r') :
    (Meaning.single r).Tracks tolerated i (Meaning.single r') := ⟨h, h.map _⟩

/-- **Reach.**  From position `i` an expression does the same whether its rules are run by `call` or
by entering them to a certain depth, if the two agree at `i` on the rules it leads with, and further
on in the stream on all its rules. -/
theorem Parser.tracks_meaning {rules : Rules κ ρ} {depth : Nat} {tolerated : Fault → Prop}
    {call : {α : Type} → ρ α → Runner α} {items : List Type} {α : Type} {p : Parser κ ρ items α}
    {i : Nat} (inside : i < s.size)
    (here : p.Leads fun reference =>
      (call reference).Tracks tolerated i (rules.call s depth reference))
    (later : p.RefersTo fun reference => ∀ j, i < j → j < s.size →
      (call reference).Tracks tolerated j (rules.call s depth reference)) :
    (p.meaning s call).Tracks tolerated i (p.meaning s (rules.call s depth)) := by
  -- Behind position `i`, what an expression leads with is among what it refers to.
  have further {items : List Type} {α : Type} {p : Parser κ ρ items α}
      (ih : ∀ {i}, i < s.size →
        (p.Leads fun reference =>
          (call reference).Tracks tolerated i (rules.call s depth reference)) →
        (p.RefersTo fun reference => ∀ j, i < j → j < s.size →
          (call reference).Tracks tolerated j (rules.call s depth reference)) →
        (p.meaning s call).Tracks tolerated i (p.meaning s (rules.call s depth)))
      {i : Nat}
      (later : p.RefersTo fun reference => ∀ j, i < j → j < s.size →
        (call reference).Tracks tolerated j (rules.call s depth reference))
      (j : Nat) (after : i < j) (inside : j < s.size) :
      (p.meaning s call).Tracks tolerated j (p.meaning s (rules.call s depth)) := by
    refine ih inside ?_ ?_
    · exact (later.mono fun reference tracks => tracks j after inside).leads
    · exact later.mono fun reference tracks k after' => tracks k (Nat.lt_trans after after')
  induction p generalizing i with
  | token kind => exact .single (Runner.tracks_token kind)
  | ignore kind =>
    have read : (Runner.token s kind).Tracks tolerated i (Runner.token s kind) :=
      Runner.tracks_token kind
    exact ⟨read.map _, read.map _⟩
  | finish => exact ⟨Runner.tracks_finish, Runner.tracks_finish⟩
  | seq p ih =>
    have same := ih inside here later
    exact ⟨same.parts, same.parts⟩
  | map f p ih => exact .single ((ih inside here later).value.map f)
  | tryMap f p ih => exact .single ((ih inside here later).value.filterMap f).attempt
  | and p q ihp ihq =>
    have both := (ihp inside here.1 later.1).parts.pair (rules.moves_meaning s depth p).2 inside
      (fun silent => (ihq inside (here.2 silent) later.2).parts)
      fun j after inside => (further ihq later.2 j after inside).parts
    exact ⟨(both.map _).attempt, (both.map _).attempt⟩
  | skip p q ihp ihq =>
    have first := ihp inside here.1 later.1
    have moves := rules.moves_meaning s depth p
    have second (silent : p.reads = false) := (ihq inside (here.2 silent) later.2).value
    have behind (j : Nat) (after : i < j) (inside : j < s.size) :=
      (further ihq later.2 j after inside).value
    exact ⟨((first.value.pair moves.1 inside second behind).map Prod.fst).attempt,
      ((first.parts.pair moves.2 inside second behind).map Prod.fst).attempt⟩
  | or p q ihp ihq =>
    have first := ihp inside here.1 later.1
    have second := ihq inside here.2 later.2
    exact .single (first.value.orElse second.value inside)
  | many p ih =>
    have item := ih inside here later
    exact .single (item.value.many (rules.moves_meaning s depth p).1 inside
      fun j after inside => (further ih later j after inside).value)
  | optional p ih => exact .single (ih inside here later).value.optional
  | separatedBy p separator ihp ihs =>
    have item := ihp inside here.1 later.1
    exact .single (item.value.separatedBy (rules.moves_meaning s depth p).1
      (rules.moves_meaning s depth separator).1 inside
      (fun silent => (ihs inside (here.2 silent) later.2).value)
      fun j after inside => ⟨(further ihp later.1 j after inside).value,
        (further ihs later.2 j after inside).value⟩)
  | rule reference => exact .single here

namespace Rules

/-- References of some sort stand for definitions that only refer to references of this sort. -/
def SelfContained (rules : Rules κ ρ) (own : {α : Type} → ρ α → Prop) : Prop :=
  ∀ {α : Type} (reference : ρ α), own reference →
    ∃ definition, rules.lookup reference = .ok definition ∧ definition.parser.RefersTo own

variable {rules : Rules κ ρ} {own : {α : Type} → ρ α → Prop}

theorem SelfContained.tracks_call (h : rules.SelfContained own) (s : TokenStream κ) (depth : Nat)
    {α : Type} (reference : ρ α) (mem : own reference) {i : Nat} (inside : i < s.size) :
    (rules.call s depth reference).Tracks (· = .unbounded) i (rules.call s depth reference) := by
  induction depth generalizing α i with
  | zero =>
    intro mark
    refine ⟨rfl, ?_⟩
    rintro e ⟨⟩
    rfl
  | succ depth ih =>
    obtain ⟨definition, found, refers⟩ := h reference mem
    rw [call_succ found]
    exact (Parser.tracks_meaning inside
      (refers.leads.mono fun reference mem => ih reference mem inside)
      (refers.mono fun reference mem j _ inside => ih reference mem inside)).value

/-- **Nothing missing.**  An expression that only refers to rules of a self-contained sort comes to
an end or enters rules without end; it never enters a rule that has no definition. -/
theorem SelfContained.eq_unbounded (h : rules.SelfContained own) {s : TokenStream κ} {depth : Nat}
    {items : List Type} {α : Type} {p : Parser κ ρ items α} (refers : p.RefersTo own)
    {c : Cursor} (inside : c.position < s.size) {e : Fault}
    (fault : (p.meaning s (rules.call s depth)).value c = .error e) : e = .unbounded :=
  ((Parser.tracks_meaning inside
    (refers.leads.mono fun reference mem => h.tracks_call s depth reference mem inside)
    (refers.mono fun reference mem _ _ inside =>
      h.tracks_call s depth reference mem inside)).value c.furthest).2 e fault

end Rules

end FrontEnd
