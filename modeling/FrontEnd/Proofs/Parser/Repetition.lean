import FrontEnd.Proofs.Parser.Depth
import FrontEnd.Proofs.Parser.Execution
import FrontEnd.Proofs.Parser.Reach

/-!
# Repetitions

A repetition goes on for as long as it can.  It comes to an end because every item but the last one
moves the cursor on, and there are only so many tokens.

## Main Definitions

* `Runner.Settles` — a run that fails or yields from every position, and never moves back
* `Runner.Repeated` — items one behind the other, up to where there is none or one that is empty
* `Runner.Separated` — the same with a separator in front of every item but the first one

## Main Results

* `Runner.Settles.many`, `Runner.Settles.separatedBy` — what the two repetitions of a run do
* `Parser.repetition_greedy` — the same for expressions whose own runs come back

## Design Notes

**No count of rounds.**  The loops count down from the number of positions that are left.
`Repeated` and `Separated` know nothing of that: they say where each item begins and ends, and that
nothing but a failure or an empty item ends the repetition.  That the count is never used up is
what is shown here.

**Three ways to stop.**  Behind a separator there may be no item.  Then the separator is not part
of the repetition either, so both ways of failing end at the position in front of it.
-/

namespace FrontEnd

variable {κ α β : Type} [TokenKind κ]

namespace Runner

/-- From every position of the stream a run fails, or yields a value at that position or behind it,
whatever the mark. -/
def Settles (s : TokenStream κ) (r : Runner α) : Prop :=
  ∀ i < s.size, r.Fails i ∨ ∃ a j, r.Yields i a j ∧ i ≤ j ∧ j < s.size

/-- Runs one behind the other from position `i` to position `j`, as many as there are.  Each of them
starts where the one before has ended. -/
inductive Repeated (r : Runner α) : Nat → List α → Nat → Prop where
  /-- There is no match. -/
  | stop {i : Nat} : r.Fails i → Repeated r i [] i
  /-- A run that consumes nothing is the last one. -/
  | still {i : Nat} {a : α} : r.Yields i a i → Repeated r i [a] i
  /-- A run moves on, and so it goes. -/
  | more {i k j : Nat} {a : α} {as : List α} : r.Yields i a k → i < k → Repeated r k as j →
      Repeated r i (a :: as) j

/-- Runs with a separator in front of each, from position `i` to position `j`, as many as there
are. -/
inductive Followed (r : Runner α) (separator : Runner β) : Nat → List α → Nat → Prop where
  /-- There is no separator. -/
  | noSeparator {i : Nat} : separator.Fails i → Followed r separator i [] i
  /-- There is a separator, which is left alone, as no item follows. -/
  | noItem {i k : Nat} {b : β} : separator.Yields i b k → r.Fails k → Followed r separator i [] i
  /-- A separator and an item that consume nothing are the last ones. -/
  | still {i k : Nat} {b : β} {a : α} : separator.Yields i b k → r.Yields k a i →
      Followed r separator i [a] i
  /-- A separator and an item move on, and so it goes. -/
  | more {i k l j : Nat} {b : β} {a : α} {as : List α} : separator.Yields i b k →
      r.Yields k a l → i < l → Followed r separator l as j → Followed r separator i (a :: as) j

/-- Runs with separators in between, from position `i` to position `j`, as many as there are. -/
inductive Separated (r : Runner α) (separator : Runner β) : Nat → List α → Nat → Prop where
  /-- There is no first item. -/
  | none {i : Nat} : r.Fails i → Separated r separator i [] i
  /-- Behind a first item there are separators with items. -/
  | some {i k j : Nat} {a : α} {as : List α} : r.Yields i a k → Followed r separator k as j →
      Separated r separator i (a :: as) j

variable {s : TokenStream κ} {r : Runner α} {separator : Runner β} {i : Nat}

/-! ### Repetition -/

/-- **The rounds are enough.**  A repetition with as many rounds as there are positions left stops
because there is no further item, or an empty one, and not for want of rounds. -/
theorem Settles.repeatUpTo (h : r.Settles s) (inside : i < s.size) {rounds : Nat}
    (enough : s.size - i ≤ rounds) :
    ∃ as j, (r.repeatUpTo s rounds).Yields i as j ∧ r.Repeated i as j ∧
      as.length ≤ s.size - i ∧ i ≤ j ∧ j < s.size := by
  induction rounds generalizing i with
  | zero => omega
  | succ rounds ih =>
    rcases h i inside with failed | ⟨a, k, yields, le, inside'⟩
    · refine ⟨[], i, fun mark => ?_, .stop failed, Nat.zero_le _, Nat.le_refl _, inside⟩
      obtain ⟨mark', run⟩ := failed.attempt_eq inside mark
      exact ⟨mark', by rw [Runner.repeatUpTo, run]⟩
    · rcases Nat.eq_or_lt_of_le le with rfl | less
      · refine ⟨[a], i, fun mark => ?_, .still yields, ?_, Nat.le_refl _, inside⟩
        · obtain ⟨mark', run⟩ := yields.attempt (s := s) mark
          exact ⟨mark', by rw [Runner.repeatUpTo, run]; exact if_pos rfl⟩
        · rw [List.length_singleton]
          omega
      · -- The item leaves fewer positions, so one round fewer is enough from its end.
        obtain ⟨as, j, later, repeated, few, le', inside''⟩ := ih inside' (by omega)
        refine ⟨a :: as, j, fun mark => ?_, .more yields less repeated, ?_, by omega, inside''⟩
        · obtain ⟨mark', run⟩ := yields.attempt (s := s) mark
          obtain ⟨mark'', run'⟩ := later.map (a :: ·) mark'
          refine ⟨mark'', ?_⟩
          rw [Runner.repeatUpTo, run]
          simp only [if_neg (Nat.ne_of_gt less)]
          exact run'
        · rw [List.length_cons]
          omega

/-- **A repetition always matches**, with all items there are. -/
theorem Settles.many (h : r.Settles s) (inside : i < s.size) :
    ∃ as j, (r.many s).Yields i as j ∧ r.Repeated i as j ∧ as.length ≤ s.size - i ∧
      i ≤ j ∧ j < s.size :=
  h.repeatUpTo inside (Nat.le_refl _)

/-! ### Separators -/

theorem Settles.map (h : r.Settles s) (f : α → β) : (r.map f).Settles s := by
  intro i inside
  rcases h i inside with failed | ⟨a, j, yields, bounds⟩
  · exact .inl (failed.map f)
  · exact .inr ⟨f a, j, yields.map f, bounds⟩

theorem Settles.pair (h : r.Settles s) (h' : separator.Settles s) :
    (r.pair separator).Settles s := by
  intro i inside
  rcases h i inside with failed | ⟨a, k, yields, le, inside'⟩
  · exact .inl (failed.pair separator)
  · rcases h' k inside' with failed | ⟨b, j, yields', le', inside''⟩
    · exact .inl (yields.pair_fails failed)
    · exact .inr ⟨(a, b), j, yields.pair yields', Nat.le_trans le le', inside''⟩

omit [TokenKind κ] in
/-- A run that yields a value at a position yields no other one there. -/
theorem Yields.unique {a a' : α} {j j' : Nat} (h : r.Yields i a j) (h' : r.Yields i a' j') :
    a = a' ∧ j = j' := by
  obtain ⟨mark, run⟩ := h 0
  obtain ⟨mark', run'⟩ := h' 0
  rw [run] at run'
  cases run'
  exact ⟨rfl, rfl⟩

omit [TokenKind κ] in
/-- A run that yields a value at a position does not fail there. -/
theorem Yields.not_fails {a : α} {j : Nat} (h : r.Yields i a j) : ¬ r.Fails i := by
  intro failed
  obtain ⟨mark, run⟩ := h 0
  obtain ⟨c, run'⟩ := failed 0
  rw [run] at run'
  cases run'

/-- What a separator with an item behind it yields, the item yields behind the separator. -/
theorem Settles.exists_of_step (h : r.Settles s) (h' : separator.Settles s) (inside : i < s.size)
    {a : α} {j : Nat} (yields : ((separator.pair r).map Prod.snd).Yields i a j) :
    j < s.size ∧ ∃ b k, separator.Yields i b k ∧ r.Yields k a j := by
  rcases h' i inside with failed | ⟨b, k, read, -, inside'⟩
  · exact absurd ((failed.pair r).map Prod.snd) yields.not_fails
  · rcases h k inside' with failed | ⟨a', j', yields', -, inside''⟩
    · exact absurd ((read.pair_fails failed).map Prod.snd) yields.not_fails
    · obtain ⟨rfl, rfl⟩ := yields.unique ((read.pair yields').map Prod.snd)
      exact ⟨inside'', b, k, read, yields'⟩

/-- Repeated steps of a separator and an item are items with a separator in front of each. -/
theorem Repeated.followed (h : r.Settles s) (h' : separator.Settles s) (inside : i < s.size)
    {as : List α} {j : Nat} (repeated : ((separator.pair r).map Prod.snd).Repeated i as j) :
    r.Followed separator i as j := by
  induction repeated with
  | stop failed =>
    rcases h' _ inside with unread | ⟨b, k, read, -, inside'⟩
    · exact .noSeparator unread
    · rcases h k inside' with unread | ⟨a, j, yields, -⟩
      · exact .noItem read unread
      · exact absurd failed ((read.pair yields).map Prod.snd).not_fails
  | still yields =>
    obtain ⟨-, b, k, read, yields'⟩ := h.exists_of_step h' inside yields
    exact .still read yields'
  | more yields less _ ih =>
    obtain ⟨inside', b, k, read, yields'⟩ := h.exists_of_step h' inside yields
    exact .more read yields' less (ih inside')

/-- **A repetition with separators always matches**, with all items there are. -/
theorem Settles.separatedBy (h : r.Settles s) (h' : separator.Settles s) (inside : i < s.size) :
    ∃ as j, (r.separatedBy s separator).Yields i as j ∧ r.Separated separator i as j ∧
      as.length ≤ s.size - i + 1 ∧ i ≤ j ∧ j < s.size := by
  rcases h i inside with failed | ⟨a, k, yields, le, inside'⟩
  · exact ⟨[], i, failed.separatedBy inside separator, .none failed, Nat.zero_le _,
      Nat.le_refl _, inside⟩
  · obtain ⟨as, j, later, repeated, few, le', inside''⟩ :=
      ((h'.pair h).map Prod.snd).many inside'
    refine ⟨a :: as, j, fun mark => ?_, .some yields (repeated.followed h h' inside'), ?_,
      Nat.le_trans le le', inside''⟩
    · obtain ⟨mark', run⟩ := yields.attempt (s := s) mark
      obtain ⟨mark'', run'⟩ := later.map (a :: ·) mark'
      exact ⟨mark'', by rw [Runner.separatedBy, run]; exact run'⟩
    · rw [List.length_cons]
      omega

/-- Reading a token comes back, with the token or without. -/
theorem exists_token [DecidableEq κ] (s : TokenStream κ) (kind : κ) (c : Cursor) :
    ∃ result, token s kind c = .ok result := by
  unfold token
  by_cases rejected : kind = endKind ∨ (c.peek s).kind ≠ kind
  · exact ⟨_, if_pos rejected⟩
  · exact ⟨_, if_neg rejected⟩

end Runner

/-! ### Expressions -/

variable [DecidableEq κ] {ρ : Type → Type}

/-- **Runs that come back settle.**  If an expression never ends in a fault, what it does at a
position does not depend on the mark, and it never moves back. -/
theorem Parser.settles {rules : Rules κ ρ} {s : TokenStream κ} {depth : Nat} {items : List Type}
    {α : Type} {p : Parser κ ρ items α}
    (returns : ∀ c, c.position < s.size →
      ∃ result, (p.meaning s (rules.call s depth)).value c = .ok result) :
    (p.meaning s (rules.call s depth)).value.Settles s := by
  have moves := (rules.moves_meaning s depth p).1
  have erased := p.erase_record s (rules.erase_recordCall s depth)
  have back {α : Type} (reference : ρ α) := rules.backtracks_recordCall s depth reference
  have carries := (p.carriesOver_record back back fun reference =>
    rules.carriesOver_recordCall s s (Nat.le_refl depth) reference).value
  rw [← erased] at returns moves ⊢
  intro i inside
  obtain ⟨⟨value, c'⟩, run⟩ := returns ⟨i, 0⟩ inside
  -- The run with a mark of zero tells what happens with any mark.
  have same (mark : Nat) := congrArg Recorded.outcome (carries.with_mark inside run mark)
  cases value with
  | none => exact .inl fun mark => ⟨_, same mark⟩
  | some a =>
    obtain ⟨inside', le, -⟩ := moves ⟨i, 0⟩ a c' inside run
    exact .inr ⟨a, c'.position, fun mark => ⟨_, same mark⟩, le, inside'⟩

/-- **Repetitions are greedy.**  Let an expression and a separator never end in a fault.  From every
cursor of a stream, as many of the expression as there are always match.  The items follow one
another from the start to the end of the match; the last one may be empty, and only the last one;
else the expression fails where the match ends.  With separators in between the match is empty if
there is no first item; else there follow separators with items, up to where there is no separator
with an item behind it, or an empty one.  There is at most one item for each token that is left and
one more; with separators, two more. -/
theorem Parser.repetition_greedy (rules : Rules κ ρ) (s : TokenStream κ) (depth : Nat)
    {items items' : List Type} {α β : Type} (p : Parser κ ρ items α)
    (separator : Parser κ ρ items' β)
    (returns : ∀ c, c.position < s.size →
      ∃ result, (p.meaning s (rules.call s depth)).value c = .ok result)
    (returns' : ∀ c, c.position < s.size →
      ∃ result, (separator.meaning s (rules.call s depth)).value c = .ok result)
    {c : Cursor} (inside : c.position < s.size) :
    let run {items : List Type} {α : Type} (p : Parser κ ρ items α) : Runner α :=
      (p.meaning s (rules.call s depth)).value
    let left := s.tokens.size - c.position
    (∃ as c', run p.many c = .ok (some as, c') ∧ as.length ≤ left + 1 ∧
      (run p).Repeated c.position as c'.position) ∧
    ∃ as c', run (p.separatedBy separator) c = .ok (some as, c') ∧ as.length ≤ left + 2 ∧
      (run p).Separated (run separator) c.position as c'.position := by
  intro run left
  have size : s.size = s.tokens.size + 1 := rfl
  have settles : (run p).Settles s := Parser.settles returns
  have settles' : (run separator).Settles s := Parser.settles returns'
  constructor
  · obtain ⟨as, j, yields, repeated, few, -⟩ := settles.many inside
    obtain ⟨mark, result⟩ := yields c.furthest
    exact ⟨as, ⟨j, mark⟩, result, by omega, repeated⟩
  · obtain ⟨as, j, yields, separated, few, -⟩ := settles.separatedBy settles' inside
    obtain ⟨mark, result⟩ := yields c.furthest
    exact ⟨as, ⟨j, mark⟩, result, by omega, separated⟩

/-- Two items with a separator in between, and one more separator: the repetition ends in front of
the last separator, although that has been read. -/
theorem repetition_greedy_trailing :
    let item (text : String) : Token RuleId := ⟨⟨1⟩, text, .start⟩
    let s : TokenStream RuleId :=
      .ofTokens [item "a", ⟨⟨2⟩, ",", .start⟩, item "b", ⟨⟨2⟩, ",", .start⟩] .start
    let rules : Rules RuleId fun _ => Empty := ⟨0, fun reference => nomatch reference⟩
    let run {items : List Type} {α : Type} (p : Parser RuleId (fun _ => Empty) items α) :=
      (p.meaning s (rules.call s 0)).value
    (∀ kind : RuleId, ∀ c, c.position < s.size → ∃ result, run (.token kind) c = .ok result) ∧
      run (.separatedBy (.token ⟨1⟩) (.token ⟨2⟩)) .start = .ok (some [item "a", item "b"], ⟨3, 4⟩) ∧
      (run (.token ⟨1⟩)).Separated (run (.token ⟨2⟩)) 0 [item "a", item "b"] 3 := by
  intro item s rules run
  have returns (kind : RuleId) (c : Cursor) (_ : c.position < s.size) :
      ∃ result, run (.token kind) c = .ok result := Runner.exists_token s kind c
  have result : run (.separatedBy (.token ⟨1⟩) (.token ⟨2⟩)) .start =
      .ok (some [item "a", item "b"], ⟨3, 4⟩) := by rfl
  obtain ⟨-, as, c', result', -, separated⟩ := Parser.repetition_greedy rules s 0
    (.token ⟨1⟩) (.token ⟨2⟩) (returns ⟨1⟩) (returns ⟨2⟩) (c := .start) (by decide)
  cases result.symm.trans result'
  exact ⟨returns, result, separated⟩

end FrontEnd
