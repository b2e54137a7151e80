import FrontEnd.Proofs.Parser.Lookahead
import FrontEnd.Proofs.Parser.Notation

/-!
# How far runs get

A run that tries one alternative after the other reads many tokens in vain.  Still it never reads a
token that nothing could be made of: all tokens up to any position that it has ever reached begin
something that its expression may read.

## Main Definitions

* `Reading.Begins` — some tokens begin something that may be read
* `Parser.Completable` — tokens of the stream that begin something begin something that is accepted
* `Recorder.Explores` — whatever a run has read, kept or given up, begins something

## Main Results

* `Parser.explores_record` — expressions explore their readings, if rules do
* `Rules.Closed.begins_furthest` — the tokens up to the furthest mark begin something

## Design Notes

**Nothing gets stuck.**  A run that has read a first part goes on with the second one.  What it has
read then only begins something if there is anything at all that the second part may read, so every
rule has to have some reading.  An expression that rejects values may turn down the only thing that
some tokens could have been; `Completable` rules that out for the tokens of the stream at hand.
-/

namespace FrontEnd

variable {κ α β : Type}

/-! ### Beginnings -/

namespace Reading

/-- Some tokens, with more of them behind, may be read. -/
def Begins (R : Reading κ α) (w : List (Token κ)) : Prop := ∃ rest a, R (w ++ rest) a

variable {R : Reading κ α} {Q : Reading κ β} {w u : List (Token κ)} {a : α}

/-- What may be read begins something. -/
theorem begins_of (h : R w a) : R.Begins w := ⟨[], a, by rwa [List.append_nil]⟩

/-- Where something begins, something may be read. -/
theorem Begins.nil (h : R.Begins w) : R.Begins [] := by
  obtain ⟨rest, a, read⟩ := h
  exact ⟨w ++ rest, a, read⟩

theorem Begins.map (h : R.Begins w) (f : α → β) : (R.map f).Begins w := by
  obtain ⟨rest, a, read⟩ := h
  exact ⟨rest, f a, a, read, rfl⟩

/-- Tokens begin a pair if they begin its first part and the second one may be read at all. -/
theorem Begins.pair_left (h : R.Begins w) (h' : Q.Begins []) : (R.pair Q).Begins w := by
  obtain ⟨rest, a, read⟩ := h
  obtain ⟨more, b, read'⟩ := h'
  exact ⟨rest ++ more, (a, b), w ++ rest, more, (List.append_assoc _ _ _).symm, read, read'⟩

theorem Begins.pair_right (h : R u a) (h' : Q.Begins w) : (R.pair Q).Begins (u ++ w) := by
  obtain ⟨rest, b, read⟩ := h'
  exact ⟨rest, (a, b), u, w ++ rest, List.append_assoc _ _ _, h, read⟩

theorem Begins.many (h : R.Begins w) : R.many.Begins w := by
  obtain ⟨rest, a, read⟩ := h
  exact ⟨rest, [a], w ++ rest, [], (List.append_nil _).symm, read, rfl⟩

theorem Begins.many_cons (h : R u a) (h' : R.many.Begins w) : R.many.Begins (u ++ w) := by
  obtain ⟨rest, as, reads⟩ := h'
  exact ⟨rest, a :: as, u, w ++ rest, List.append_assoc _ _ _, h, reads⟩

theorem Begins.separatedBy (h : R.Begins w) : (R.separatedBy Q).Begins w := by
  obtain ⟨rest, a, read⟩ := h
  exact ⟨rest, [a], w ++ rest, [], (List.append_nil _).symm, read, rfl⟩

theorem Begins.separatedBy_cons (h : R u a) (h' : ((Q.pair R).map Prod.snd).many.Begins w) :
    (R.separatedBy Q).Begins (u ++ w) := by
  obtain ⟨rest, as, reads⟩ := h'
  exact ⟨rest, a :: as, u, w ++ rest, List.append_assoc _ _ _, h, reads⟩

end Reading

variable [TokenKind κ] {ρ : Type → Type}

/-- Wherever tokens of the stream begin something that an expression rejects, they also begin
something that it accepts; and so it is for all its parts. -/
def Parser.Completable (s : TokenStream κ) (language : {α : Type} → ρ α → Reading κ α) :
    {items : List Type} → {α : Type} → Parser κ ρ items α → Prop
  | _, _, token _ => True
  | _, _, ignore _ => True
  | _, _, finish => True
  | _, _, seq p => p.Completable s language
  | _, _, map _ p => p.Completable s language
  | _, _, tryMap f p => p.Completable s language ∧ ∀ i w j, Spelled Eq s i w j →
      (p.readings language).value.Begins w → ((p.readings language).value.filterMap f).Begins w
  | _, _, and p q => p.Completable s language ∧ q.Completable s language
  | _, _, skip p q => p.Completable s language ∧ q.Completable s language
  | _, _, or p q => p.Completable s language ∧ q.Completable s language
  | _, _, many p => p.Completable s language
  | _, _, optional p => p.Completable s language
  | _, _, separatedBy p separator => p.Completable s language ∧ separator.Completable s language
  | _, _, rule _ => True

/-- **Every expression may read something**, if all rules may. -/
theorem Parser.begins_nil {s : TokenStream κ} {language : {α : Type} → ρ α → Reading κ α}
    (rules : ∀ {α : Type} (reference : ρ α), (language reference).Begins [])
    {items : List Type} {α : Type} {p : Parser κ ρ items α} (h : p.Completable s language) :
    (p.readings language).value.Begins [] ∧ (p.readings language).parts.Begins [] := by
  have one (kind : κ) : (Reading.token kind).Begins [] :=
    (Reading.begins_of (w := [⟨kind, "", .start⟩]) ⟨rfl, rfl⟩).nil
  induction p with
  | token kind => exact ⟨one kind, (one kind).map _⟩
  | ignore kind => exact ⟨(one kind).map _, (one kind).map _⟩
  | finish => exact ⟨⟨[], (), rfl⟩, ⟨[], (), rfl⟩⟩
  | seq p ih => exact ⟨(ih h).2, (ih h).2⟩
  | map f p ih => exact ⟨(ih h).1.map f, ((ih h).1.map f).map _⟩
  | tryMap f p ih =>
    have accepted := h.2 0 [] 0 rfl (ih h.1).1
    exact ⟨accepted, accepted.map _⟩
  | and p q ihp ihq =>
    have both := (ihp h.1).2.pair_left (ihq h.2).2
    exact ⟨both.map _, both.map _⟩
  | skip p q ihp ihq =>
    exact ⟨((ihp h.1).1.pair_left (ihq h.2).1).map _, ((ihp h.1).2.pair_left (ihq h.2).1).map _⟩
  | or p q ihp ihq =>
    obtain ⟨rest, a, read⟩ := (ihp h.1).1
    have either : ((p.readings language).value.orElse (q.readings language).value).Begins [] :=
      ⟨rest, a, .inl read⟩
    exact ⟨either, either.map _⟩
  | many p ih => exact ⟨⟨[], [], rfl⟩, Reading.Begins.map ⟨[], [], rfl⟩ _⟩
  | optional p ih => exact ⟨⟨[], none, rfl⟩, Reading.Begins.map ⟨[], none, rfl⟩ _⟩
  | separatedBy p separator ihp ihs =>
    exact ⟨⟨[], [], rfl⟩, Reading.Begins.map ⟨[], [], rfl⟩ _⟩
  | rule reference => exact ⟨rules reference, (rules reference).map _⟩

/-! ### What runs have read -/

namespace Recorder

/-- The tokens from the start of a run to any position that it has reached begin something. -/
def Explores (s : TokenStream κ) (r : Recorder κ α) (R : Reading κ α) : Prop :=
  ∀ c value c', c.position < s.size → (r c).outcome = .ok (value, c') → ∀ m ∈ (r c).moves,
    ∃ w, Spelled Eq s c.position w m.reached ∧ R.Begins w

variable {s : TokenStream κ} {r : Recorder κ α} {q : Recorder κ β} {R : Reading κ α}
  {Q : Reading κ β}

theorem Explores.mono {R' : Reading κ α} (h : r.Explores s R)
    (wider : ∀ i w j, Spelled Eq s i w j → R.Begins w → R'.Begins w) : r.Explores s R' := by
  intro c value c' inside run m mem
  obtain ⟨w, passed, begins⟩ := h c value c' inside run m mem
  exact ⟨w, passed, wider _ w _ passed begins⟩

theorem Explores.map (h : r.Explores s R) (f : α → β) : (r.map f).Explores s (R.map f) := by
  intro c value c' inside run m mem
  obtain ⟨value', run', -, moves⟩ := exists_of_map run
  rw [moves] at mem
  obtain ⟨w, passed, begins⟩ := h c value' c' inside run' m mem
  exact ⟨w, passed, begins.map f⟩

/-- A run that rejects values has read no more than it would have read otherwise. -/
theorem Explores.filterMap (h : r.Explores s R) (f : α → Option β)
    (completable : ∀ i w j, Spelled Eq s i w j → R.Begins w → (R.filterMap f).Begins w) :
    (r.filterMap f).Explores s (R.filterMap f) := by
  intro c value c' inside run m mem
  obtain ⟨value', run', -, moves⟩ := exists_of_filterMap run
  rw [moves] at mem
  obtain ⟨w, passed, begins⟩ := h c value' c' inside run' m mem
  exact ⟨w, passed, completable _ w _ passed begins⟩

theorem Explores.pair (h : r.Explores s R) (follows : r.Follows s R) (h' : q.Explores s Q)
    (inhabited : Q.Begins []) : (r.pair q).Explores s (R.pair Q) := by
  intro c value c' inside run m mem
  obtain ⟨value₁, c₁, first, second, moves⟩ := Recorded.exists_of_andThen run
  rw [Recorder.pair, moves] at mem
  rcases List.mem_append.1 mem with mem | mem
  · obtain ⟨w, passed, begins⟩ := h c value₁ c₁ inside first m mem
    exact ⟨w, passed, begins.pair_left inhabited⟩
  · cases value₁ with
    | none => cases mem
    | some a =>
      obtain ⟨u, front, read⟩ := follows c a c₁ inside first
      obtain ⟨value₂, second', -, moves'⟩ := exists_of_map second
      have mem : m ∈ (q c₁).moves := moves' ▸ mem
      obtain ⟨w, passed, begins⟩ := h' c₁ value₂ c' (front.inside inside) second' m mem
      exact ⟨u ++ w, spelled_append.2 ⟨_, front, passed⟩, .pair_right read begins⟩

/-- Going back forgets nothing and adds nothing. -/
theorem Explores.attempt (h : r.Explores s R) : (r.attempt s).Explores s R := by
  intro c value c' inside run m mem
  obtain ⟨value₁, c₁, first, -, moves⟩ := Recorded.exists_of_andThen run
  rw [Recorder.attempt, moves] at mem
  have mem : m ∈ (r c).moves := by
    cases value₁ with
    | none => simpa [Recorded.still] using mem
    | some a => simpa [Recorded.still] using mem
  exact h c value₁ c₁ inside first m mem

theorem Explores.orElse {q : Recorder κ α} {Q : Reading κ α} (h : r.Explores s R)
    (h' : q.Explores s Q) : (r.orElse s q).Explores s (R.orElse Q) := by
  intro c value c' inside run m mem
  obtain ⟨value₁, c₁, first, second, moves⟩ := Recorded.exists_of_andThen run
  rw [Recorder.orElse, moves] at mem
  rcases List.mem_append.1 mem with mem | mem
  · obtain ⟨w, passed, rest, a, read⟩ := h.attempt c value₁ c₁ inside first m mem
    exact ⟨w, passed, rest, a, .inl read⟩
  · cases value₁ with
    | none =>
      -- The first attempt is back at the start, so the second one has read from there as well.
      have back := position_of_attempt first inside
      obtain ⟨w, passed, rest, a, read⟩ :=
        h'.attempt c₁ value c' (by rwa [back]) second m mem
      rw [back] at passed
      exact ⟨w, passed, rest, a, .inr read⟩
    | some a => cases mem

theorem Explores.optional (h : r.Explores s R) : (r.optional s).Explores s R.optional := by
  intro c value c' inside run m mem
  obtain ⟨value₁, c₁, first, -, moves⟩ := Recorded.exists_of_andThen run
  rw [Recorder.optional, moves] at mem
  have mem : m ∈ (r.attempt s c).moves := by simpa [Recorded.still] using mem
  obtain ⟨w, passed, rest, a, read⟩ := h.attempt c value₁ c₁ inside first m mem
  exact ⟨w, passed, rest, some a, read⟩

theorem Explores.repeatUpTo (h : r.Explores s R) (follows : r.Follows s R) (rounds : Nat) :
    (r.repeatUpTo s rounds).Explores s R.many := by
  induction rounds with
  | zero =>
    intro c value c' inside run m mem
    cases mem
  | succ rounds ih =>
    intro c value c' inside run m mem
    obtain ⟨value₁, c₁, first, second, moves⟩ := Recorded.exists_of_andThen run
    rw [Recorder.repeatUpTo, moves] at mem
    rcases List.mem_append.1 mem with mem | mem
    · obtain ⟨w, passed, begins⟩ := h.attempt c value₁ c₁ inside first m mem
      exact ⟨w, passed, begins.many⟩
    · cases value₁ with
      | none => cases mem
      | some a =>
        obtain ⟨u, front, read⟩ := follows.attempt c a c₁ inside first
        simp only at second mem
        by_cases still : c₁.position = c.position
        · rw [if_pos still] at mem
          cases mem
        · rw [if_neg still] at second mem
          obtain ⟨value₂, second', -, moves'⟩ := exists_of_map second
          rw [moves'] at mem
          obtain ⟨w, passed, begins⟩ := ih c₁ value₂ c' (front.inside inside) second' m mem
          exact ⟨u ++ w, spelled_append.2 ⟨_, front, passed⟩, .many_cons read begins⟩

theorem Explores.many (h : r.Explores s R) (follows : r.Follows s R) :
    (r.many s).Explores s R.many :=
  fun c value c' inside run => h.repeatUpTo follows _ c value c' inside run

theorem Explores.separatedBy (h : r.Explores s R) (follows : r.Follows s R)
    (h' : q.Explores s Q) (follows' : q.Follows s Q) (inhabited : R.Begins []) :
    (r.separatedBy s q).Explores s (R.separatedBy Q) := by
  intro c value c' inside run m mem
  obtain ⟨value₁, c₁, first, second, moves⟩ := Recorded.exists_of_andThen run
  rw [Recorder.separatedBy, moves] at mem
  rcases List.mem_append.1 mem with mem | mem
  · obtain ⟨w, passed, begins⟩ := h.attempt c value₁ c₁ inside first m mem
    exact ⟨w, passed, begins.separatedBy⟩
  · cases value₁ with
    | none => cases mem
    | some a =>
      obtain ⟨u, front, read⟩ := follows.attempt c a c₁ inside first
      have items := ((h'.pair follows' h inhabited).map Prod.snd).many
        ((follows'.pair follows).map Prod.snd)
      obtain ⟨value₂, second', -, moves'⟩ := exists_of_map second
      have mem := moves' ▸ mem
      obtain ⟨w, passed, begins⟩ := items c₁ value₂ c' (front.inside inside) second' m mem
      exact ⟨u ++ w, spelled_append.2 ⟨_, front, passed⟩, .separatedBy_cons read begins⟩

/-- A run without moves explores whatever it likes. -/
theorem Explores.still (h : ∀ c, (r c).moves = []) : r.Explores s R := by
  intro c value c' inside run m mem
  rw [h c] at mem
  cases mem

variable [DecidableEq κ]

theorem explores_token (s : TokenStream κ) (kind : κ) :
    (token s kind).Explores s (Reading.token kind) := by
  intro c value c' inside run m mem
  cases value with
  | none =>
    unfold token at run mem
    by_cases rejected : kind = endKind ∨ (c.peek s).kind ≠ kind
    · simp only [if_pos rejected] at mem
      cases mem
    · simp only [if_neg rejected] at run
      cases run
  | some t =>
    -- The only move comes to where the run ends, and there a token has been read.
    obtain ⟨w, passed, read⟩ := follows_token s kind c t c' inside run
    unfold token at run mem
    by_cases rejected : kind = endKind ∨ (c.peek s).kind ≠ kind
    · simp only [if_pos rejected] at run
      cases run
    · simp only [if_neg rejected] at run mem
      cases run
      rw [List.mem_singleton.1 mem]
      exact ⟨w, passed, Reading.begins_of read⟩

end Recorder

/-! ### Expressions -/

/-- Both runs of an expression explore its readings. -/
structure Recording.Explores {items : List Type} (s : TokenStream κ) (r : Recording κ items α)
    (R : Readings κ items α) : Prop where
  value : r.value.Explores s R.value
  parts : r.parts.Explores s R.parts

theorem Recording.Explores.single {s : TokenStream κ} {r : Recorder κ α} {R : Reading κ α}
    (h : r.Explores s R) : (Recording.single r).Explores s (Readings.single R) := ⟨h, h.map _⟩

variable [DecidableEq κ] {s : TokenStream κ} {language : {α : Type} → ρ α → Reading κ α}

/-- **Every expression explores its readings**, if the rules that it refers to do. -/
theorem Parser.explores_record {call : {α : Type} → ρ α → Recorder κ α}
    (follows : ∀ {α : Type} (reference : ρ α), (call reference).Follows s (language reference))
    (rules : ∀ {α : Type} (reference : ρ α), (call reference).Explores s (language reference))
    (inhabited : ∀ {α : Type} (reference : ρ α), (language reference).Begins [])
    {items : List Type} {α : Type} {p : Parser κ ρ items α} (h : p.Completable s language) :
    (p.record s call).Explores s (p.readings language) := by
  have went {items : List Type} {α : Type} (p : Parser κ ρ items α) :
      (p.record s call).Follows s (p.readings language) := p.follows_record follows
  induction p with
  | token kind => exact .single (Recorder.explores_token s kind)
  | ignore kind =>
    have read := Recorder.explores_token s kind
    exact ⟨read.map _, read.map _⟩
  | finish => exact ⟨.still fun _ => rfl, .still fun _ => rfl⟩
  | seq p ih => exact ⟨(ih h).parts, (ih h).parts⟩
  | map f p ih => exact .single ((ih h).value.map f)
  | tryMap f p ih => exact .single ((ih h.1).value.filterMap f h.2).attempt
  | and p q ihp ihq =>
    have both := (ihp h.1).parts.pair (went p).parts (ihq h.2).parts (begins_nil inhabited h.2).2
    exact ⟨(both.map _).attempt, (both.map _).attempt⟩
  | skip p q ihp ihq =>
    have second := (ihq h.2).value
    have something := (begins_nil inhabited h.2).1
    exact ⟨(((ihp h.1).value.pair (went p).value second something).map _).attempt,
      (((ihp h.1).parts.pair (went p).parts second something).map _).attempt⟩
  | or p q ihp ihq => exact .single ((ihp h.1).value.orElse (ihq h.2).value)
  | many p ih => exact .single ((ih h).value.many (went p).value)
  | optional p ih => exact .single (ih h).value.optional
  | separatedBy p separator ihp ihs =>
    exact .single ((ihp h.1).value.separatedBy (went p).value (ihs h.2).value
      (went separator).value (begins_nil inhabited h.1).1)
  | rule reference => exact .single (rules reference)

namespace Rules

variable {rules : Rules κ ρ}

/-- Rules explore their readings, to whatever depth they are entered. -/
theorem Closed.explores_recordCall (closed : rules.Closed language)
    (inhabited : ∀ {α : Type} (reference : ρ α), (language reference).Begins [])
    (completable : ∀ {α : Type} {reference : ρ α} {definition : Definition κ ρ α},
      rules.lookup reference = .ok definition → definition.parser.Completable s language)
    (depth : Nat) {α : Type} (reference : ρ α) :
    (rules.recordCall s depth reference).Explores s (language reference) := by
  induction depth generalizing α with
  | zero => exact .still fun _ => rfl
  | succ depth ih =>
    cases found : rules.lookup reference with
    | error e => exact .still fun c => by rw [recordCall, found]
    | ok definition =>
      rw [recordCall_succ found]
      have explores := (definition.parser.explores_record
        (closed.follows_recordCall s depth) ih inhabited (completable found)).value
      refine explores.mono fun i w j passed begins => ?_
      obtain ⟨rest, a, read⟩ := begins
      exact ⟨rest, a, closed found _ a read⟩

/-- **The furthest mark is within reach.**  Whether a run from the start of a stream matches or not,
the tokens up to its furthest mark begin something that its expression may read. -/
theorem Closed.begins_furthest (closed : rules.Closed language)
    (inhabited : ∀ {α : Type} (reference : ρ α), (language reference).Begins [])
    (completable : ∀ {α : Type} {reference : ρ α} {definition : Definition κ ρ α},
      rules.lookup reference = .ok definition → definition.parser.Completable s language)
    {items : List Type} {α : Type} {p : Parser κ ρ items α} (h : p.Completable s language)
    {value : Option α} {c : Cursor} (run : rules.run s p .start = .ok (value, c)) :
    ∃ w, Spelled Eq s 0 w c.furthest ∧ (p.readings language).value.Begins w := by
  have explores := p.explores_record (closed.follows_recordCall s (rules.depth s))
    (closed.explores_recordCall inhabited completable (rules.depth s)) inhabited h
  have back := p.backtracks_record s (rules.backtracks_recordCall s (rules.depth s))
  rw [← rules.outcome_record] at run
  have furthest := (back.value.advances .start value c s.size_pos run).furthest
  rw [furthest]
  rcases markAfter_eq_or_reached Cursor.start.furthest _ with still | ⟨m, mem, reached⟩
  · -- Nothing has been read at all.
    rw [still]
    exact ⟨[], rfl, (p.begins_nil inhabited h).1⟩
  · rw [← reached]
    exact explores.value .start value c s.size_pos run m mem

end Rules

end FrontEnd
