import FrontEnd.Proofs.Parser.Backtracking

/-!
# How far runs look ahead

A run looks at the token under its cursor before it reads it, and many a token that it looks at is
never read.  Still no run looks past its furthest mark: on another stream that has the same tokens
up to there it makes the same moves and comes to the same end.

## Main Definitions

* `TokenStream.AgreeUpTo` — two streams have the same tokens up to a position
* `Recorded.CarriesOver`, `Recorder.CarriesOver` — a run that has come to an end on one stream comes
  to the same end on another one that agrees with it as far as the run went

## Main Results

* `Parser.carriesOver_record` — every expression carries over, if the rules that it refers to do
* `Rules.carriesOver_recordCall` — rules do, and may be entered deeper on the second stream
* `Parser.meaning_of_carriesOver` — what that says about expressions without the record

## Design Notes

**As far as a run went** is the maximum of its start and of all positions that it reached, whether
or not it went back from there later: `markAfter` of the moves, counted from the start.  Going back
leaves the moves alone, so what has been looked at once stays within this bound.

**Any mark.**  The furthest mark is written but never read.  A run therefore carries over to every
mark at once, and with the stream itself for the second one this says that marks do not matter.

**Rounds.**  The number of rounds that a repetition is given depends on the size of the stream.  It
only has to be large enough, so on both streams it may be taken to be the same.
-/

namespace FrontEnd

variable {κ α β : Type}

/-! ### Marks -/

/-- A mark that was larger from the start stays at least as large. -/
theorem markAfter_max (mark low : Nat) (moves : List (Move κ)) :
    markAfter (max mark low) moves = max mark (markAfter low moves) := by
  induction moves generalizing low with
  | nil => rfl
  | cons m moves ih => rw [markAfter_cons, markAfter_cons, Nat.max_assoc, ih]

/-- What the moves reach does not depend on the mark before. -/
theorem markAfter_eq_max (mark : Nat) (moves : List (Move κ)) :
    markAfter mark moves = max mark (markAfter 0 moves) := by
  rw [← markAfter_max, Nat.max_zero]

theorem markAfter_mono {low high : Nat} (le : low ≤ high) (moves : List (Move κ)) :
    markAfter low moves ≤ markAfter high moves := by
  rw [markAfter_eq_max low, markAfter_eq_max high]
  omega

/-- The mark stays below every bound that it starts below and no move reaches. -/
theorem markAfter_lt {mark bound : Nat} {moves : List (Move κ)} (low : mark < bound)
    (below : ∀ m ∈ moves, m.reached < bound) : markAfter mark moves < bound := by
  induction moves generalizing mark with
  | nil => exact low
  | cons m moves ih =>
    rw [markAfter_cons]
    have first := below m List.mem_cons_self
    exact ih (by omega) fun m' mem => below m' (List.mem_cons_of_mem m mem)

/-- The mark is where it was, or where one of the moves has come to. -/
theorem markAfter_eq_or_reached (mark : Nat) (moves : List (Move κ)) :
    markAfter mark moves = mark ∨ ∃ m ∈ moves, m.reached = markAfter mark moves := by
  induction moves generalizing mark with
  | nil => exact .inl rfl
  | cons m moves ih =>
    rw [markAfter_cons]
    rcases ih (max mark m.reached) with still | ⟨m', mem, reached⟩
    · rw [still]
      rcases Nat.le_total mark m.reached with le | le
      · exact .inr ⟨m, List.mem_cons_self, (Nat.max_eq_right le).symm⟩
      · exact .inl (Nat.max_eq_left le)
    · exact .inr ⟨m', List.mem_cons_of_mem m mem, reached⟩

variable [TokenKind κ]

/-! ### Streams that agree -/

/-- Two streams have the same tokens up to and including a position. -/
def TokenStream.AgreeUpTo (s t : TokenStream κ) (last : Nat) : Prop :=
  ∀ i ≤ last, s.get i = t.get i

instance [DecidableEq κ] (s t : TokenStream κ) (last : Nat) : Decidable (s.AgreeUpTo t last) :=
  inferInstanceAs (Decidable (∀ i ≤ last, s.get i = t.get i))

namespace TokenStream.AgreeUpTo

variable {s t : TokenStream κ} {last i : Nat} {c : Cursor}

theorem mono {first : Nat} (h : s.AgreeUpTo t last) (le : first ≤ last) : s.AgreeUpTo t first :=
  fun i le' => h i (Nat.le_trans le' le)

theorem refl (s : TokenStream κ) (last : Nat) : s.AgreeUpTo s last := fun _ _ => rfl

/-- A stream that begins with the tokens up to a position agrees up to there. -/
theorem of_take {rest : List (Token κ)} (inside : last < s.tokens.size)
    (same : t.tokens.toList = s.tokens.toList.take (last + 1) ++ rest) : s.AgreeUpTo t last := by
  intro i le
  have before : i < s.tokens.toList.length := by
    rw [Array.length_toList]
    omega
  have token : t.tokens[i]? = s.tokens[i]? := by
    rw [← Array.getElem?_toList, same, List.getElem?_append_left, List.getElem?_take_of_lt,
      Array.getElem?_toList]
    · omega
    · rw [List.length_take]
      omega
  rw [TokenStream.get, TokenStream.get, token, Array.getElem?_eq_getElem (by omega)]
  rfl

/-- The second stream does not end before the first one, as far as they agree. -/
theorem lt_size (h : s.AgreeUpTo t last) (le : i ≤ last) (inside : i < s.size) : i < t.size := by
  cases i with
  | zero => exact t.size_pos
  | succ i =>
    -- The token in front of the position is not the end token, in either stream.
    have notEnd : (s.get i).kind ≠ endKind := by
      rw [ne_eq, s.kind_get_eq_end_iff]
      omega
    rw [h i (by omega), ne_eq, t.kind_get_eq_end_iff] at notEnd
    omega

variable [DecidableEq κ]

theorem atEnd (h : s.AgreeUpTo t last) (le : c.position ≤ last) : c.atEnd s = c.atEnd t := by
  rw [Cursor.atEnd, Cursor.atEnd, Cursor.peek, Cursor.peek, h _ le]

end TokenStream.AgreeUpTo

/-! ### Carrying over -/

/-- A run that started at `c` on the stream `s` is `x`; runs that start at the same position of `t`
with any mark are `y`.  If the first one has come to an end, and the streams agree as far as it
went, then the others have come to the same end by the same moves. -/
structure Recorded.CarriesOver (s t : TokenStream κ) (c : Cursor) (x : Recorded κ α)
    (y : Nat → Recorded κ α) : Prop where
  landed : ∀ value c', x.outcome = .ok (value, c') → c'.position ≤ markAfter c.position x.moves
  same : ∀ value c', x.outcome = .ok (value, c') →
    s.AgreeUpTo t (markAfter c.position x.moves) → ∀ mark,
      y mark = ⟨.ok (value, ⟨c'.position, markAfter mark x.moves⟩), x.moves⟩

/-- Wherever it starts, a run on the stream `s` carries over to a run on the stream `t`. -/
def Recorder.CarriesOver (s t : TokenStream κ) (r r' : Recorder κ α) : Prop :=
  ∀ c, c.position < s.size → (r c).CarriesOver s t c fun mark => r' ⟨c.position, mark⟩

namespace Recorded

variable {s t : TokenStream κ} {c c' : Cursor} {x : Recorded κ α} {y y' : Nat → Recorded κ α}

/-- Without moves, the end of the run is all there is to compare. -/
theorem CarriesOver.still {value : Option α} {end' : Nat → Cursor}
    (landed : c'.position ≤ c.position)
    (same : s.AgreeUpTo t c.position → ∀ mark, end' mark = ⟨c'.position, mark⟩) :
    (still value c').CarriesOver s t c fun mark => (still value (end' mark) : Recorded κ α) := by
  refine ⟨?_, ?_⟩
  · intro value' c'' ended
    cases ended
    exact landed
  · intro value' c'' ended agree mark
    cases ended
    rw [same agree mark]
    rfl

/-- A run that stays where it is carries over. -/
theorem CarriesOver.stay (value : Option α) (c : Cursor) :
    (Recorded.still value c).CarriesOver s t c fun mark => .still value ⟨c.position, mark⟩ :=
  .still (Nat.le_refl _) fun _ _ => rfl

/-- Reading one token carries over. -/
theorem CarriesOver.read (t₁ : Token κ) (c : Cursor) (next : Nat) :
    (⟨.ok (some t₁, ⟨next, max c.furthest next⟩), [⟨t₁, next⟩]⟩ : Recorded κ _).CarriesOver s t c
      fun mark => ⟨.ok (some t₁, ⟨next, max mark next⟩), [⟨t₁, next⟩]⟩ := by
  refine ⟨?_, ?_⟩
  · intro value c' ended
    cases ended
    exact Nat.le_max_right _ _
  · intro value c' ended _ mark
    cases ended
    rfl

/-- What carries over stage by stage carries over as a whole. -/
theorem CarriesOver.andThen {next next' : Option α → Cursor → Recorded κ β}
    (h : x.CarriesOver s t c y)
    (h' : ∀ value c₁, x.outcome = .ok (value, c₁) →
      (next value c₁).CarriesOver s t c₁ fun mark => next' value ⟨c₁.position, mark⟩) :
    (x.andThen next).CarriesOver s t c fun mark => (y mark).andThen next' := by
  -- The second stage starts where the first one ended, so it goes no further than both together.
  have within {value : Option α} {c₁ : Cursor} (ended : x.outcome = .ok (value, c₁)) :
      markAfter c₁.position (next value c₁).moves ≤
        markAfter c.position (x.moves ++ (next value c₁).moves) := by
    rw [markAfter_append]
    exact markAfter_mono (h.landed value c₁ ended) _
  refine ⟨?_, ?_⟩
  · intro value c' ended
    obtain ⟨value₁, c₁, first, second, moves⟩ := exists_of_andThen ended
    rw [moves]
    exact Nat.le_trans ((h' value₁ c₁ first).landed value c' second) (within first)
  · intro value c' ended agree mark
    obtain ⟨value₁, c₁, first, second, moves⟩ := exists_of_andThen ended
    rw [moves] at agree ⊢
    have front : s.AgreeUpTo t (markAfter c.position x.moves) := by
      refine agree.mono ?_
      rw [markAfter_append]
      exact le_markAfter _ _
    have first' := h.same value₁ c₁ first front mark
    have second' := (h' value₁ c₁ first).same value c' second (agree.mono (within first))
      (markAfter mark x.moves)
    simp only [Recorded.andThen, first', second', markAfter_append]

/-- Runs only have to be compared on streams that agree where they start. -/
theorem CarriesOver.congr (h : x.CarriesOver s t c y)
    (same : s.AgreeUpTo t c.position → ∀ mark, y' mark = y mark) : x.CarriesOver s t c y' := by
  refine ⟨h.landed, fun value c' ended agree mark => ?_⟩
  rw [same (agree.mono (le_markAfter _ _)) mark]
  exact h.same value c' ended agree mark

omit [TokenKind κ] in
/-- Only what may come out matters for what is done next. -/
theorem andThen_congr {x : Recorded κ α} {next next' : Option α → Cursor → Recorded κ β}
    (same : ∀ value c, x.outcome = .ok (value, c) → next value c = next' value c) :
    x.andThen next = x.andThen next' := by
  unfold andThen
  cases ended : x.outcome with
  | error e => rfl
  | ok result => simp only [same result.1 result.2 ended]

end Recorded

namespace Recorder

variable {s t : TokenStream κ} {r r' : Recorder κ α} {q q' : Recorder κ β}

/-! ### Running one thing after the other -/

theorem CarriesOver.map (h : r.CarriesOver s t r') (f : α → β) :
    (r.map f).CarriesOver s t (r'.map f) :=
  fun c inside => (h c inside).andThen fun value c₁ _ => .stay (value.map f) c₁

theorem CarriesOver.filterMap (h : r.CarriesOver s t r') (f : α → Option β) :
    (r.filterMap f).CarriesOver s t (r'.filterMap f) :=
  fun c inside => (h c inside).andThen fun value c₁ _ => .stay (value.bind f) c₁

theorem CarriesOver.pair (h : r.CarriesOver s t r') (forward : r.Advances s)
    (h' : q.CarriesOver s t q') : (r.pair q).CarriesOver s t (r'.pair q') := by
  intro c inside
  refine (h c inside).andThen fun value c₁ ended => ?_
  cases value with
  | none => exact .stay none c₁
  | some a => exact h'.map _ c₁ (forward c _ c₁ inside ended).inside

/-! ### Going back -/

theorem CarriesOver.attempt (h : r.CarriesOver s t r') (forward : r.Advances s) :
    (r.attempt s).CarriesOver s t (r'.attempt t) := by
  intro c inside
  unfold Recorder.attempt
  dsimp only
  refine (h c inside).andThen fun value c₁ ended => ?_
  have went := forward c value c₁ inside ended
  cases value with
  | none =>
    -- Both runs go back to the start, which lies inside both streams.
    have back : (c₁.restore s c.position).position = c.position := Cursor.position_restore inside
    refine .still (Nat.le_trans (Nat.le_of_eq back) went.le) fun agree mark => ?_
    have inside' := agree.lt_size went.le inside
    rw [back]
    have back' : (Cursor.restore t c.position ⟨c₁.position, mark⟩).position = c.position :=
      Cursor.position_restore inside'
    exact congrArg (Cursor.mk · mark) back'
  | some a => exact .stay (some a) c₁

theorem CarriesOver.orElse {q q' : Recorder κ α} (h : r.CarriesOver s t r')
    (forward : r.Advances s) (h' : q.CarriesOver s t q') (forward' : q.Advances s) :
    (r.orElse s q).CarriesOver s t (r'.orElse t q') := by
  intro c inside
  refine (h.attempt forward c inside).andThen fun value c₁ ended => ?_
  cases value with
  | none =>
    exact h'.attempt forward' c₁ (forward.attempt.advances c none c₁ inside ended).inside
  | some a => exact .stay (some a) c₁

theorem CarriesOver.optional (h : r.CarriesOver s t r') (forward : r.Advances s) :
    (r.optional s).CarriesOver s t (r'.optional t) :=
  fun c inside => (h.attempt forward c inside).andThen fun value c₁ _ => .stay (some value) c₁

/-! ### Repetition -/

/-- What a repetition does behind a round that began at a position: it is over if nothing matched or
nothing was consumed. -/
def onward (s : TokenStream κ) (r : Recorder κ α) (rounds position : Nat) (value : Option α)
    (c' : Cursor) : Recorded κ (List α) :=
  match value with
  | none => .still (some []) c'
  | some a =>
      if c'.position = position then .still (some [a]) c'
      else (r.repeatUpTo s rounds).map (a :: ·) c'

theorem CarriesOver.repeatUpTo (h : r.CarriesOver s t r') (forward : r.Advances s)
    (rounds : Nat) : (r.repeatUpTo s rounds).CarriesOver s t (r'.repeatUpTo t rounds) := by
  induction rounds with
  | zero => exact fun c _ => .stay (some []) c
  | succ rounds ih =>
    intro c inside
    show ((r.attempt s c).andThen (r.onward s rounds c.position)).CarriesOver s t c fun mark =>
      (r'.attempt t ⟨c.position, mark⟩).andThen (r'.onward t rounds c.position)
    refine (h.attempt forward c inside).andThen fun value c₁ ended => ?_
    cases value with
    | none => exact .stay (some []) c₁
    | some a =>
      by_cases still : c₁.position = c.position
      · simp only [onward, if_pos still]
        exact .stay (some [a]) c₁
      · simp only [onward, if_neg still]
        exact ih.map _ c₁ (forward.attempt.advances c _ c₁ inside ended).inside

/-- With as many rounds as positions are left, one more round makes no difference. -/
theorem repeatUpTo_succ_of_enough (forward : r.Advances s) {rounds : Nat} {c : Cursor}
    (inside : c.position < s.size) (enough : s.size - c.position ≤ rounds) :
    r.repeatUpTo s (rounds + 1) c = r.repeatUpTo s rounds c := by
  induction rounds generalizing c with
  | zero => omega
  | succ rounds ih =>
    rw [repeatUpTo, repeatUpTo]
    refine Recorded.andThen_congr fun value c₁ ended => ?_
    have went := forward.attempt.advances c value c₁ inside ended
    cases value with
    | none => rfl
    | some a =>
      by_cases still : c₁.position = c.position
      · simp only [if_pos still]
      · -- The round has moved on, so fewer positions are left.
        have le := went.le
        simp only [if_neg still, Recorder.map, ih went.inside (by omega)]

/-- With rounds to spare, a repetition is what it is. -/
theorem many_eq_repeatUpTo (forward : r.Advances s) {rounds : Nat} {c : Cursor}
    (inside : c.position < s.size) (enough : s.size ≤ rounds) :
    r.many s c = r.repeatUpTo s rounds c := by
  obtain ⟨spare, rfl⟩ := Nat.exists_eq_add_of_le (Nat.le_trans (Nat.sub_le _ c.position) enough)
  clear enough
  induction spare with
  | zero => rfl
  | succ spare ih =>
    rw [ih, ← Nat.add_assoc, repeatUpTo_succ_of_enough forward inside (Nat.le_add_right _ _)]

theorem CarriesOver.many (h : r.CarriesOver s t r') (forward : r.Advances s)
    (forward' : r'.Advances t) : (r.many s).CarriesOver s t (r'.many t) := by
  intro c inside
  rw [many_eq_repeatUpTo forward inside (Nat.le_max_left s.size t.size)]
  refine (h.repeatUpTo forward (max s.size t.size) c inside).congr fun agree mark => ?_
  exact many_eq_repeatUpTo forward' (agree.lt_size (Nat.le_refl _) inside)
    (Nat.le_max_right s.size t.size)

theorem CarriesOver.separatedBy (h : r.CarriesOver s t r') (forward : r.Advances s)
    (forward' : r'.Advances t) {separator separator' : Recorder κ β}
    (h' : separator.CarriesOver s t separator') (ahead : separator.Advances s)
    (ahead' : separator'.Advances t) :
    (r.separatedBy s separator).CarriesOver s t (r'.separatedBy t separator') := by
  have later : (((separator.pair r).map Prod.snd).many s).CarriesOver s t
      (((separator'.pair r').map Prod.snd).many t) :=
    ((h'.pair ahead h).map _).many ((ahead.pair forward).map _) ((ahead'.pair forward').map _)
  intro c inside
  refine (h.attempt forward c inside).andThen fun value c₁ ended => ?_
  cases value with
  | none => exact .stay (some []) c₁
  | some a => exact later.map _ c₁ (forward.attempt.advances c _ c₁ inside ended).inside

/-- A run that always ends in a fault has nothing to carry over. -/
theorem CarriesOver.fault (h : ∀ c, ∃ e, (r c).outcome = .error e) : r.CarriesOver s t r' := by
  intro c inside
  obtain ⟨e, fault⟩ := h c
  refine ⟨?_, ?_⟩
  · intro value c' ended
    rw [fault] at ended
    cases ended
  · intro value c' ended
    rw [fault] at ended
    cases ended

/-! ### Reading -/

variable [DecidableEq κ]

/-- A token that is read is passed, whatever the mark. -/
theorem advance_of_kind {kind : κ} (notEnd : kind ≠ endKind) {c : Cursor}
    (same : (c.peek s).kind = kind) :
    c.advance s = ⟨c.position + 1, max c.furthest (c.position + 1)⟩ := by
  have inside : c.atEnd s = false := by
    rw [Cursor.atEnd, same]
    exact decide_eq_false notEnd
  rw [Cursor.advance, inside]
  rfl

theorem carriesOver_token (s t : TokenStream κ) (kind : κ) :
    (token s kind).CarriesOver s t (token t kind) := by
  intro c inside
  -- Both runs look at the token under the cursor, as far as the streams agree there.
  have peek (agree : s.AgreeUpTo t c.position) (mark : Nat) :
      Cursor.peek t ⟨c.position, mark⟩ = c.peek s := (agree _ (Nat.le_refl _)).symm
  by_cases rejected : kind = endKind ∨ (c.peek s).kind ≠ kind
  · have run : token s kind c = .still none c := by rw [token, if_pos rejected]
    rw [run]
    refine (Recorded.CarriesOver.stay none c).congr fun agree mark => ?_
    rw [token, peek agree, if_pos rejected]
  · obtain ⟨notEnd, same⟩ := not_or.1 rejected
    have same := Decidable.not_not.1 same
    have run : token s kind c =
        ⟨.ok (some (c.peek s), ⟨c.position + 1, max c.furthest (c.position + 1)⟩),
          [⟨c.peek s, c.position + 1⟩]⟩ := by
      rw [token, if_neg rejected, advance_of_kind notEnd same]
    rw [run]
    refine (Recorded.CarriesOver.read _ c _).congr fun agree mark => ?_
    have same' : (Cursor.peek t ⟨c.position, mark⟩).kind = kind := by rw [peek agree, same]
    rw [token, advance_of_kind notEnd same', peek agree, if_neg rejected]

theorem carriesOver_finish (s t : TokenStream κ) : (finish s).CarriesOver s t (finish t) := by
  intro c inside
  refine (Recorded.CarriesOver.stay _ c).congr fun agree mark => ?_
  have atEnd : Cursor.atEnd t ⟨c.position, mark⟩ = c.atEnd s :=
    (agree.atEnd (c := ⟨c.position, mark⟩) (Nat.le_refl _)).symm
  rw [finish, atEnd]

end Recorder

/-! ### Expressions -/

/-- Both runs of an expression carry over. -/
structure Recording.CarriesOver {items : List Type} (s t : TokenStream κ)
    (r r' : Recording κ items α) : Prop where
  value : r.value.CarriesOver s t r'.value
  parts : r.parts.CarriesOver s t r'.parts

theorem Recording.CarriesOver.single {s t : TokenStream κ} {r r' : Recorder κ α}
    (h : r.CarriesOver s t r') : (Recording.single r).CarriesOver s t (Recording.single r') :=
  ⟨h, h.map _⟩

variable [DecidableEq κ] {ρ : Type → Type} {s t : TokenStream κ}

/-- **Every expression carries over**, if the rules that it refers to do. -/
theorem Parser.carriesOver_record {call call' : {α : Type} → ρ α → Recorder κ α}
    (back : ∀ {α : Type} (reference : ρ α), (call reference).Backtracks s)
    (back' : ∀ {α : Type} (reference : ρ α), (call' reference).Backtracks t)
    (rules : ∀ {α : Type} (reference : ρ α),
      (call reference).CarriesOver s t (call' reference))
    {items : List Type} {α : Type} (p : Parser κ ρ items α) :
    (p.record s call).CarriesOver s t (p.record t call') := by
  have ahead {items : List Type} {α : Type} (p : Parser κ ρ items α) :
      (p.record s call).Backtracks s := p.backtracks_record s back
  have ahead' {items : List Type} {α : Type} (p : Parser κ ρ items α) :
      (p.record t call').Backtracks t := p.backtracks_record t back'
  induction p with
  | token kind => exact .single (Recorder.carriesOver_token s t kind)
  | ignore kind =>
    have read := Recorder.carriesOver_token s t kind
    exact ⟨read.map _, read.map _⟩
  | finish => exact ⟨Recorder.carriesOver_finish s t, Recorder.carriesOver_finish s t⟩
  | seq p ih => exact ⟨ih.parts, ih.parts⟩
  | map f p ih => exact .single (ih.value.map f)
  | tryMap f p ih =>
    exact .single ((ih.value.filterMap f).attempt ((ahead p).value.advances.filterMap f))
  | and p q ihp ihq =>
    have first := (ahead p).parts.advances
    have both := ihp.parts.pair first ihq.parts
    have forward := first.pair (ahead q).parts.advances
    exact ⟨(both.map _).attempt (forward.map _), (both.map _).attempt (forward.map _)⟩
  | skip p q ihp ihq =>
    have first := ahead p
    have second := (ahead q).value.advances
    exact ⟨((ihp.value.pair first.value.advances ihq.value).map _).attempt
        ((first.value.advances.pair second).map _),
      ((ihp.parts.pair first.parts.advances ihq.value).map _).attempt
        ((first.parts.advances.pair second).map _)⟩
  | or p q ihp ihq =>
    exact .single (ihp.value.orElse (ahead p).value.advances ihq.value (ahead q).value.advances)
  | many p ih => exact .single (ih.value.many (ahead p).value.advances (ahead' p).value.advances)
  | optional p ih => exact .single (ih.value.optional (ahead p).value.advances)
  | separatedBy p separator ihp ihs =>
    exact .single (ihp.value.separatedBy (ahead p).value.advances (ahead' p).value.advances
      ihs.value (ahead separator).value.advances (ahead' separator).value.advances)
  | rule reference => exact .single (rules reference)

/-- **Rules carry over**, and more depth on the second stream does no harm. -/
theorem Rules.carriesOver_recordCall (rules : Rules κ ρ) (s t : TokenStream κ)
    {depth depth' : Nat} (le : depth ≤ depth') {α : Type} (reference : ρ α) :
    (rules.recordCall s depth reference).CarriesOver s t
      (rules.recordCall t depth' reference) := by
  induction depth generalizing depth' α with
  | zero => exact .fault fun c => ⟨_, rfl⟩
  | succ depth ih =>
    obtain ⟨depth', rfl⟩ := Nat.exists_eq_add_one_of_ne_zero (by omega : depth' ≠ 0)
    cases found : rules.lookup reference with
    | error e => exact .fault fun c => ⟨e, by rw [recordCall, found]⟩
    | ok definition =>
      rw [recordCall_succ found, recordCall_succ found]
      exact (definition.parser.carriesOver_record (rules.backtracks_recordCall s depth)
        (rules.backtracks_recordCall t depth') (ih (Nat.le_of_succ_le_succ le))).value

/-! ### Runs without the record -/

omit [DecidableEq κ] in
/-- A run that carries over ends on the second stream as it did on the first one, if they agree up
to its start and its furthest mark. -/
theorem Recorder.CarriesOver.erase {r r' : Recorder κ α} (h : r.CarriesOver s t r')
    (forward : r.Advances s) {c c' : Cursor} {value : Option α} (inside : c.position < s.size)
    (run : r.erase c = .ok (value, c')) (agree : s.AgreeUpTo t (max c.position c'.furthest)) :
    r'.erase c = .ok (value, c') := by
  have furthest := (forward c value c' inside run).furthest
  have far : markAfter c.position (r c).moves ≤ max c.position c'.furthest := by
    rw [furthest, markAfter_eq_max c.position, markAfter_eq_max c.furthest]
    omega
  have same := (h c inside).same value c' run (agree.mono far) c.furthest
  rw [← furthest] at same
  exact congrArg Recorded.outcome same

/-- What rules do on one stream carries over to another one, so does what expressions do, value and
items alike. -/
theorem Parser.meaning_of_carriesOver {rules : Rules κ ρ} {depth depth' : Nat}
    (carries : ∀ {α : Type} (reference : ρ α),
      (rules.recordCall s depth reference).CarriesOver s t (rules.recordCall t depth' reference))
    {items : List Type} (p : Parser κ ρ items α) {c c' : Cursor} (inside : c.position < s.size)
    (agree : s.AgreeUpTo t (max c.position c'.furthest)) :
    let before := p.meaning s (rules.call s depth)
    let after := p.meaning t (rules.call t depth')
    (∀ value, before.value c = .ok (value, c') → after.value c = .ok (value, c')) ∧
      ∀ parts, before.parts c = .ok (parts, c') → after.parts c = .ok (parts, c') := by
  intro before after
  have back := p.backtracks_record s (rules.backtracks_recordCall s depth)
  have carries := p.carriesOver_record (rules.backtracks_recordCall s depth)
    (rules.backtracks_recordCall t depth') carries
  have erased : (p.record s (rules.recordCall s depth)).erase = before :=
    p.erase_record s (rules.erase_recordCall s depth)
  have erased' : (p.record t (rules.recordCall t depth')).erase = after :=
    p.erase_record t (rules.erase_recordCall t depth')
  rw [← erased, ← erased']
  exact ⟨fun value run => carries.value.erase back.value.advances inside run agree,
    fun parts run => carries.parts.erase back.parts.advances inside run agree⟩

end FrontEnd
