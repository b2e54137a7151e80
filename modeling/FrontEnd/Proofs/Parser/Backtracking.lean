import FrontEnd.Proofs.Parser.Recording

/-!
# What runs do to the cursor

Alternatives are tried one after the other from the same place.  That works because a run that does
not match goes back to where it started, whatever it has read in between, and because the furthest
mark is the only trace that it leaves.

## Main Definitions

* `Forward` — a run went from one cursor to another one by the moves that it recorded
* `Recorder.Advances` — a run never ends in front of its start
* `Recorder.Backtracks` — moreover, a run that does not match ends where it started
* `Contract` — what is promised to whoever runs an expression

## Main Results

* `Parser.backtracks_record` — every expression backtracks, if rules do
* `Rules.backtracks_recordCall` — rules do, to any depth
* `Parser.backtracking_contract` — the promises are kept by every expression

## Design Notes

**The furthest mark is computed from the moves.**  It is the maximum of its old value and all
positions reached.  That it never moves back, covers every move and stays put without moves are
three readings of this one equation, and only the equation is carried through the operations.
-/

namespace FrontEnd

variable {κ α β : Type}

/-! ### Moves -/

/-- The furthest mark after some moves. -/
def markAfter (mark : Nat) (moves : List (Move κ)) : Nat :=
  moves.foldl (fun mark m => max mark m.reached) mark

theorem markAfter_append (mark : Nat) (first second : List (Move κ)) :
    markAfter mark (first ++ second) = markAfter (markAfter mark first) second :=
  List.foldl_append

theorem markAfter_cons (mark : Nat) (m : Move κ) (moves : List (Move κ)) :
    markAfter mark (m :: moves) = markAfter (max mark m.reached) moves := rfl

/-- The mark never moves back. -/
theorem le_markAfter (mark : Nat) (moves : List (Move κ)) : mark ≤ markAfter mark moves := by
  induction moves generalizing mark with
  | nil => exact Nat.le_refl _
  | cons m moves ih =>
    rw [markAfter_cons]
    exact Nat.le_trans (Nat.le_max_left _ _) (ih _)

/-- The mark covers every move. -/
theorem reached_le_markAfter {mark : Nat} {moves : List (Move κ)} {m : Move κ} (mem : m ∈ moves) :
    m.reached ≤ markAfter mark moves := by
  induction moves generalizing mark with
  | nil => simp at mem
  | cons first moves ih =>
    rw [markAfter_cons]
    rcases List.mem_cons.1 mem with rfl | later
    · exact Nat.le_trans (Nat.le_max_right _ _) (le_markAfter _ _)
    · exact ih later

variable [TokenKind κ]

/-- A move reads a token of the stream, which is not the end token, and comes to the position behind
it. -/
def Move.Legal (s : TokenStream κ) (m : Move κ) : Prop :=
  ∃ position, m = ⟨s.get position, position + 1⟩ ∧ position + 1 < s.size

/-- A run led from one cursor to another one by some moves. -/
structure Forward (s : TokenStream κ) (c : Cursor) (moves : List (Move κ)) (c' : Cursor) :
    Prop where
  le : c.position ≤ c'.position
  inside : c'.position < s.size
  legal : ∀ m ∈ moves, m.Legal s
  furthest : c'.furthest = markAfter c.furthest moves

namespace Forward

variable {s : TokenStream κ} {c c' c'' : Cursor} {moves moves' : List (Move κ)}

theorem still (inside : c.position < s.size) : Forward s c [] c :=
  ⟨Nat.le_refl _, inside, by simp, rfl⟩

theorem trans (h : Forward s c moves c') (h' : Forward s c' moves' c'') :
    Forward s c (moves ++ moves') c'' := by
  refine ⟨Nat.le_trans h.le h'.le, h'.inside, ?_, ?_⟩
  · intro m mem
    rcases List.mem_append.1 mem with mem | mem
    · exact h.legal m mem
    · exact h'.legal m mem
  · rw [h'.furthest, h.furthest, markAfter_append]

/-- Going back to the start keeps the mark. -/
theorem restore (h : Forward s c moves c') (inside : c.position < s.size) :
    Forward s c moves (c'.restore s c.position) := by
  have position : (c'.restore s c.position).position = c.position := Cursor.position_restore inside
  exact ⟨Nat.le_of_eq position.symm, by rwa [position], h.legal, h.furthest⟩

end Forward

namespace Recorder

/-- A run never ends in front of its start, and the furthest mark tells how far it went. -/
def Advances (s : TokenStream κ) (r : Recorder κ α) : Prop :=
  ∀ c value c', c.position < s.size → (r c).outcome = .ok (value, c') →
    Forward s c (r c).moves c'

/-- A run that does not match ends where it started. -/
structure Backtracks (s : TokenStream κ) (r : Recorder κ α) : Prop where
  advances : r.Advances s
  back : ∀ c c', c.position < s.size → (r c).outcome = .ok (none, c') →
    c'.position = c.position

variable {s : TokenStream κ} {r : Recorder κ α} {q : Recorder κ β}

/-! ### Operations that leave failure alone -/

theorem Advances.map (h : r.Advances s) (f : α → β) : (r.map f).Advances s := by
  intro c value c' inside run
  obtain ⟨value', run', -, moves⟩ := exists_of_map run
  rw [moves]
  exact h c value' c' inside run'

theorem Backtracks.map (h : r.Backtracks s) (f : α → β) : (r.map f).Backtracks s := by
  refine ⟨h.advances.map f, ?_⟩
  intro c c' inside run
  obtain ⟨value', run', unmatched, -⟩ := exists_of_map run
  cases value' with
  | none => exact h.back c c' inside run'
  | some a => cases unmatched

theorem Advances.filterMap (h : r.Advances s) (f : α → Option β) :
    (r.filterMap f).Advances s := by
  intro c value c' inside run
  obtain ⟨value', run', -, moves⟩ := exists_of_filterMap run
  rw [moves]
  exact h c value' c' inside run'

theorem Advances.pair (h : r.Advances s) (h' : q.Advances s) : (r.pair q).Advances s := by
  intro c value c' inside run
  obtain ⟨value', c₁, first, second, moves⟩ := Recorded.exists_of_andThen run
  rw [Recorder.pair, moves]
  have front := h c value' c₁ inside first
  cases value' with
  | none =>
    cases second
    exact front.trans (.still front.inside)
  | some a => exact front.trans (h'.map _ c₁ value c' front.inside second)

/-! ### Operations that go back -/

/-- **Going back.**  Whatever a run has read, an attempt of it backtracks. -/
theorem Advances.attempt (h : r.Advances s) : (r.attempt s).Backtracks s := by
  refine ⟨?_, ?_⟩
  · intro c value c' inside run
    obtain ⟨value', c₁, first, second, moves⟩ := Recorded.exists_of_andThen run
    rw [Recorder.attempt, moves]
    have front := h c value' c₁ inside first
    cases value' with
    | none =>
      cases second
      have back := front.restore inside
      exact back.trans (.still back.inside)
    | some a =>
      cases second
      exact front.trans (.still front.inside)
  · intro c c' inside run
    obtain ⟨value', c₁, -, second, -⟩ := Recorded.exists_of_andThen run
    cases value' with
    | none =>
      cases second
      exact Cursor.position_restore inside
    | some a => cases second

theorem Backtracks.orElse {r q : Recorder κ α} (h : r.Advances s) (h' : q.Advances s) :
    (r.orElse s q).Backtracks s := by
  refine ⟨?_, ?_⟩
  · intro c value c' inside run
    obtain ⟨value', c₁, first, second, moves⟩ := Recorded.exists_of_andThen run
    rw [Recorder.orElse, moves]
    have front := h.attempt.advances c value' c₁ inside first
    cases value' with
    | none => exact front.trans (h'.attempt.advances c₁ value c' front.inside second)
    | some a =>
      cases second
      exact front.trans (.still front.inside)
  · intro c c' inside run
    obtain ⟨value', c₁, first, second, -⟩ := Recorded.exists_of_andThen run
    have front := h.attempt.advances c value' c₁ inside first
    -- The first attempt is back at the start, so the second one starts and ends there as well.
    cases value' with
    | none => rw [h'.attempt.back c₁ c' front.inside second, h.attempt.back c c₁ inside first]
    | some a => cases second

theorem Backtracks.optional (h : r.Advances s) : (r.optional s).Backtracks s := by
  refine ⟨?_, ?_⟩
  · intro c value c' inside run
    obtain ⟨value', c₁, first, second, moves⟩ := Recorded.exists_of_andThen run
    rw [Recorder.optional, moves]
    have front := h.attempt.advances c value' c₁ inside first
    cases second
    exact front.trans (.still front.inside)
  · intro c c' inside run
    obtain ⟨value', c₁, -, second, -⟩ := Recorded.exists_of_andThen run
    cases second

theorem Advances.repeatUpTo (h : r.Advances s) (rounds : Nat) :
    (r.repeatUpTo s rounds).Advances s := by
  induction rounds with
  | zero =>
    intro c value c' inside run
    cases run
    exact .still inside
  | succ rounds ih =>
    intro c value c' inside run
    obtain ⟨value', c₁, first, second, moves⟩ := Recorded.exists_of_andThen run
    rw [Recorder.repeatUpTo, moves]
    have front := h.attempt.advances c value' c₁ inside first
    cases value' with
    | none =>
      cases second
      exact front.trans (.still front.inside)
    | some a =>
      simp only at second ⊢
      by_cases still : c₁.position = c.position
      · rw [if_pos still] at second ⊢
        cases second
        exact front.trans (.still front.inside)
      · rw [if_neg still] at second ⊢
        exact front.trans (ih.map _ c₁ value c' front.inside second)

/-- A repetition always matches. -/
theorem not_none_of_repeatUpTo {rounds : Nat} {c c' : Cursor} :
    (r.repeatUpTo s rounds c).outcome ≠ .ok (none, c') := by
  intro run
  induction rounds generalizing c with
  | zero => cases run
  | succ rounds ih =>
    obtain ⟨value', c₁, -, second, -⟩ := Recorded.exists_of_andThen run
    cases value' with
    | none => cases second
    | some a =>
      simp only at second
      by_cases still : c₁.position = c.position
      · rw [if_pos still] at second
        cases second
      · rw [if_neg still] at second
        obtain ⟨value, run', unmatched, -⟩ := exists_of_map second
        cases value with
        | none => exact ih run'
        | some as => cases unmatched

theorem Backtracks.many (h : r.Advances s) : (r.many s).Backtracks s := by
  refine ⟨?_, ?_⟩
  · intro c value c' inside run
    exact h.repeatUpTo _ c value c' inside run
  · intro c c' inside run
    exact absurd run not_none_of_repeatUpTo

theorem Backtracks.separatedBy {separator : Recorder κ β} (h : r.Advances s)
    (h' : separator.Advances s) : (r.separatedBy s separator).Backtracks s := by
  have later : (((separator.pair r).map Prod.snd).many s).Backtracks s :=
    .many ((h'.pair h).map Prod.snd)
  refine ⟨?_, ?_⟩
  · intro c value c' inside run
    obtain ⟨value', c₁, first, second, moves⟩ := Recorded.exists_of_andThen run
    rw [Recorder.separatedBy, moves]
    have front := h.attempt.advances c value' c₁ inside first
    cases value' with
    | none =>
      cases second
      exact front.trans (.still front.inside)
    | some a => exact front.trans (later.advances.map _ c₁ value c' front.inside second)
  · intro c c' inside run
    obtain ⟨value', c₁, first, second, -⟩ := Recorded.exists_of_andThen run
    cases value' with
    | none => cases second
    | some a =>
      obtain ⟨value, run', unmatched, -⟩ := exists_of_map second
      cases value with
      | none => exact absurd run' not_none_of_repeatUpTo
      | some as => cases unmatched

/-- A run that always ends in a fault keeps every promise. -/
theorem Backtracks.fault (h : ∀ c, ∃ e, (r c).outcome = .error e) : r.Backtracks s := by
  refine ⟨?_, ?_⟩
  · intro c value c' inside run
    obtain ⟨e, fault⟩ := h c
    rw [fault] at run
    cases run
  · intro c c' inside run
    obtain ⟨e, fault⟩ := h c
    rw [fault] at run
    cases run

/-! ### Operations that read -/

variable [DecidableEq κ]

theorem backtracks_token (s : TokenStream κ) (kind : κ) : (token s kind).Backtracks s := by
  refine ⟨?_, ?_⟩
  · intro c value c' inside run
    unfold token at run ⊢
    by_cases rejected : kind = endKind ∨ (c.peek s).kind ≠ kind
    · simp only [if_pos rejected] at run ⊢
      cases run
      exact .still inside
    · simp only [if_neg rejected] at run ⊢
      cases run
      -- The kind that was asked for is not the end kind, so the cursor does not stand on the end.
      obtain ⟨notEnd, same⟩ := not_or.1 rejected
      rw [ne_eq, Decidable.not_not] at same
      have before : c.position + 1 < s.size := by
        refine Nat.lt_of_not_le fun last => notEnd ?_
        rw [← same]
        exact (s.kind_get_eq_end_iff c.position).2 last
      have moved : c.advance s = ⟨c.position + 1, max c.furthest (c.position + 1)⟩ := by
        rw [Cursor.advance, if_neg]
        rw [Cursor.atEnd_iff]
        omega
      rw [moved]
      refine ⟨Nat.le_succ _, before, ?_, rfl⟩
      intro m mem
      rw [List.mem_singleton.1 mem]
      exact ⟨c.position, rfl, before⟩
  · intro c c' inside run
    unfold token at run
    by_cases rejected : kind = endKind ∨ (c.peek s).kind ≠ kind
    · simp only [if_pos rejected] at run
      cases run
      rfl
    · simp only [if_neg rejected] at run
      cases run

theorem backtracks_finish (s : TokenStream κ) : (finish s).Backtracks s := by
  refine ⟨?_, ?_⟩
  · intro c value c' inside run
    cases run
    exact .still inside
  · intro c c' inside run
    simp only [finish, Recorded.still, Except.ok.injEq, Prod.mk.injEq] at run
    rw [run.2]

end Recorder

/-! ### The contract -/

/-- What is promised about a run from `c` that made some moves and ended at `c'`, with a value or
without. -/
structure Contract (s : TokenStream κ) (c : Cursor) (moves : List (Move κ)) (value : Option α)
    (c' : Cursor) : Prop where
  /-- Without a match the cursor is back where it was. -/
  back : value = none → c'.position = c.position
  /-- With a match it is there or behind. -/
  forward : ∀ a, value = some a → c.position ≤ c'.position
  /-- It never leaves the stream. -/
  inside : c'.position ≤ s.size - 1
  /-- Every move reads the token in front of the position that it reaches. -/
  read : ∀ m ∈ moves, 0 < m.reached ∧ m.token = s.get (m.reached - 1)
  /-- The end token is never read, nor passed. -/
  proper : ∀ m ∈ moves, m.token.kind ≠ endKind ∧ m.reached ≤ s.size - 1
  /-- The furthest mark never moves back. -/
  mark : c.furthest ≤ c'.furthest
  /-- It covers every move. -/
  covers : ∀ m ∈ moves, m.reached ≤ c'.furthest
  /-- Without moves it stays. -/
  unmoved : moves = [] → c'.furthest = c.furthest

theorem Recorder.Backtracks.contract {s : TokenStream κ} {r : Recorder κ α} (h : r.Backtracks s)
    {c c' : Cursor} {value : Option α} (inside : c.position < s.size)
    (run : (r c).outcome = .ok (value, c')) : Contract s c (r c).moves value c' := by
  -- All promises but the first one are read off from where the run went.
  have went := h.advances c value c' inside run
  refine ⟨?_, fun a _ => went.le, Nat.le_sub_one_of_lt went.inside, ?_, ?_, ?_, ?_, ?_⟩
  · rintro rfl
    exact h.back c c' inside run
  · intro m mem
    obtain ⟨position, rfl, -⟩ := went.legal m mem
    exact ⟨Nat.succ_pos _, rfl⟩
  · intro m mem
    obtain ⟨position, rfl, before⟩ := went.legal m mem
    refine ⟨fun isEnd => ?_, Nat.le_sub_one_of_lt before⟩
    exact absurd ((s.kind_get_eq_end_iff position).1 isEnd) (Nat.not_le_of_lt before)
  · rw [went.furthest]
    exact le_markAfter _ _
  · intro m mem
    rw [went.furthest]
    exact reached_le_markAfter mem
  · intro none
    rw [went.furthest, none]
    rfl

/-! ### Expressions -/

/-- Both runs of an expression backtrack. -/
structure Recording.Backtracks {items : List Type} (s : TokenStream κ)
    (r : Recording κ items α) : Prop where
  value : r.value.Backtracks s
  parts : r.parts.Backtracks s

theorem Recording.Backtracks.single {s : TokenStream κ} {r : Recorder κ α}
    (h : r.Backtracks s) : (Recording.single r).Backtracks s := ⟨h, h.map _⟩

variable [DecidableEq κ] {ρ : Type → Type}

/-- **Every expression backtracks**, if the rules that it refers to do. -/
theorem Parser.backtracks_record (s : TokenStream κ) {call : {α : Type} → ρ α → Recorder κ α}
    (rules : ∀ {α : Type} (reference : ρ α), (call reference).Backtracks s)
    {items : List Type} {α : Type} (p : Parser κ ρ items α) : (p.record s call).Backtracks s := by
  induction p with
  | token kind => exact .single (Recorder.backtracks_token s kind)
  | ignore kind =>
    have read := Recorder.backtracks_token s kind
    exact ⟨read.map _, read.map _⟩
  | finish => exact ⟨Recorder.backtracks_finish s, Recorder.backtracks_finish s⟩
  | seq p ih => exact ⟨ih.parts, ih.parts⟩
  | map f p ih => exact .single (ih.value.map f)
  | tryMap f p ih => exact .single (ih.value.advances.filterMap f).attempt
  | and p q ihp ihq =>
    have both := ihp.parts.advances.pair ihq.parts.advances
    exact ⟨(both.map _).attempt, (both.map _).attempt⟩
  | skip p q ihp ihq =>
    exact ⟨((ihp.value.advances.pair ihq.value.advances).map _).attempt,
      ((ihp.parts.advances.pair ihq.value.advances).map _).attempt⟩
  | or p q ihp ihq => exact .single (.orElse ihp.value.advances ihq.value.advances)
  | many p ih => exact .single (.many ih.value.advances)
  | optional p ih => exact .single (.optional ih.value.advances)
  | separatedBy p separator ihp ihs =>
    exact .single (.separatedBy ihp.value.advances ihs.value.advances)
  | rule reference => exact .single (rules reference)

/-- Rules backtrack, to whatever depth they are entered. -/
theorem Rules.backtracks_recordCall (rules : Rules κ ρ) (s : TokenStream κ) (depth : Nat)
    {α : Type} (reference : ρ α) : (rules.recordCall s depth reference).Backtracks s := by
  induction depth generalizing α with
  | zero => exact .fault fun c => ⟨_, rfl⟩
  | succ depth ih =>
    cases found : rules.lookup reference with
    | error e => exact .fault fun c => ⟨e, by rw [recordCall, found]⟩
    | ok definition =>
      rw [recordCall_succ found]
      exact (definition.parser.backtracks_record s ih).value

/-- The end token is neither read nor dropped, not even by an expression that asks for it. -/
theorem Runner.token_endKind (s : TokenStream κ) (c : Cursor) :
    Runner.token s endKind c = .ok (none, c) := by
  rw [token, if_pos (.inl rfl)]

/-- A token that is read has the kind that was asked for, which is not the end kind. -/
theorem Runner.kind_of_token {s : TokenStream κ} {kind : κ} {t : Token κ} {c c' : Cursor}
    (h : Runner.token s kind c = .ok (some t, c')) : t.kind = kind ∧ kind ≠ endKind := by
  unfold token at h
  by_cases rejected : kind = endKind ∨ (c.peek s).kind ≠ kind
  · simp only [if_pos rejected] at h
    cases h
  · simp only [if_neg rejected] at h
    cases h
    obtain ⟨notEnd, same⟩ := not_or.1 rejected
    exact ⟨Decidable.not_not.1 same, notEnd⟩

/-- **The contract of all expressions.**  Let an expression be run from a cursor of a stream, for
its value or for its items, with rules entered to any depth.  Recording its moves does not change
what it does; and if it comes to an end, with a match or without, then its moves and the cursor
behind it keep the contract.  What a token expression yields is never the end token; asking for the
end token, to keep it or to drop it, matches nowhere. -/
theorem Parser.backtracking_contract (rules : Rules κ ρ) (s : TokenStream κ) (depth : Nat)
    {items : List Type} {α : Type} (p : Parser κ ρ items α) {c : Cursor}
    (inside : c.position < s.size) :
    let meaning {items : List Type} {α : Type} (p : Parser κ ρ items α) :=
      p.meaning s (rules.call s depth)
    let recorded := p.record s (rules.recordCall s depth)
    ((recorded.value c).outcome = (meaning p).value c ∧
      ∀ value c', (meaning p).value c = .ok (value, c') →
        Contract s c (recorded.value c).moves value c') ∧
    ((recorded.parts c).outcome = (meaning p).parts c ∧
      ∀ parts c', (meaning p).parts c = .ok (parts, c') →
        Contract s c (recorded.parts c).moves parts c') ∧
    (∀ kind t c', (meaning (.token kind)).value c = .ok (some t, c') →
      t.kind = kind ∧ t.kind ≠ endKind) ∧
    (meaning (.token endKind)).value c = .ok (none, c) ∧
    (meaning (.ignore endKind)).value c = .ok (none, c) := by
  intro meaning recorded
  have backtracks : recorded.Backtracks s :=
    p.backtracks_record s (rules.backtracks_recordCall s depth)
  have same : recorded.erase = meaning p := p.erase_record s (rules.erase_recordCall s depth)
  have value : (recorded.value c).outcome = (meaning p).value c :=
    congrFun (congrArg Meaning.value same) c
  have parts : (recorded.parts c).outcome = (meaning p).parts c :=
    congrFun (congrArg Meaning.parts same) c
  refine ⟨⟨value, fun v c' run => ?_⟩, ⟨parts, fun v c' run => ?_⟩, fun kind t c' run => ?_, ?_, ?_⟩
  · exact backtracks.value.contract inside (value.trans run)
  · exact backtracks.parts.contract inside (parts.trans run)
  · obtain ⟨same, notEnd⟩ := Runner.kind_of_token run
    exact ⟨same, same ▸ notEnd⟩
  · exact Runner.token_endKind s c
  · show ((Runner.token s endKind).map fun _ => Ignored.mk) c = _
    rw [Runner.map, Runner.token_endKind]
    rfl

/-- Of two tokens that are asked for, only the first one is there: the run is back at the start, and
the furthest mark stays behind the token that was read. -/
theorem backtracking_contract_abandoned :
    let s : TokenStream RuleId := .ofTokens [⟨⟨1⟩, "a", .start⟩, ⟨⟨3⟩, "c", .start⟩] .start
    let rules : Rules RuleId fun _ => Empty := ⟨0, fun reference => nomatch reference⟩
    let p : Parser RuleId (fun _ => Empty) _ _ := .and (.token ⟨1⟩) (.token ⟨2⟩)
    (p.meaning s (rules.call s 0)).value .start = .ok (none, ⟨0, 1⟩) ∧
      Contract s .start ((p.record s (rules.recordCall s 0)).value .start).moves
        (none : Option (Tuple [Token RuleId, Token RuleId])) ⟨0, 1⟩ := by
  intro s rules p
  have run : (p.meaning s (rules.call s 0)).value .start = .ok (none, ⟨0, 1⟩) := by rfl
  exact ⟨run, (p.backtracking_contract rules s 0 (c := .start) (by decide)).1.2 _ _ run⟩

end FrontEnd
