import FrontEnd.Grammar.Unexpected
import FrontEnd.Proofs.Parser.Depth

/-!
# What a failed parse is blamed on

A parse that fails is blamed on the furthest token.  Nothing behind that token has been looked at,
so nothing behind it has a part in the failure.

## Main Results

* `Rules.parseAll_eq_ok_iff`, `Rules.parseAll_eq_error_iff` — when a parse succeeds, when it fails,
  and what it is then blamed on
* `Rules.parse_looks_no_further` — what a run and its failure depend on

## Design Notes

**The whole parse, not one alternative.**  Alternatives that were given up count as well: the token
to blame is the furthest one that any of them has come to, and the streams have to agree up to it.
-/

namespace FrontEnd

variable {κ α : Type} [DecidableEq κ] [TokenKind κ]

namespace Rules

variable {ρ : Type → Type} {rules : Rules κ ρ} {items : List Type} {p : Parser κ ρ items α}
  {s t : TokenStream κ}

/-- A run from the start of a stream never ends behind its furthest mark, and the mark stays inside
the stream. -/
theorem run_start_bounds {value : Option α} {c : Cursor}
    (run : rules.run s p .start = .ok (value, c)) :
    c.position ≤ c.furthest ∧ c.furthest < s.size := by
  let recorded := p.record s (rules.recordCall s (rules.depth s))
  have back : recorded.Backtracks s :=
    p.backtracks_record s (rules.backtracks_recordCall s (rules.depth s))
  have carries : recorded.CarriesOver s s recorded :=
    p.carriesOver_record (rules.backtracks_recordCall s _) (rules.backtracks_recordCall s _)
      fun reference => rules.carriesOver_recordCall s s (Nat.le_refl _) reference
  rw [← rules.outcome_record] at run
  have went := back.value.advances .start value c s.size_pos run
  rw [went.furthest]
  refine ⟨(carries.value .start s.size_pos).landed value c run, markAfter_lt s.size_pos ?_⟩
  intro m mem
  obtain ⟨position, rfl, before⟩ := went.legal m mem
  exact before

/-- A parse succeeds if there is a match of the whole stream. -/
theorem parseAll_eq_ok_iff {a : α} :
    rules.parseAll p s = .ok (.ok a) ↔
      ∃ c, rules.run s p .start = .ok (some a, c) ∧ c.atEnd s = true := by
  rw [parseAll]
  cases run : rules.run s p .start with
  | error fault => simp
  | ok result =>
    obtain ⟨value, c⟩ := result
    cases value with
    | none => simp
    | some b =>
      cases atEnd : c.atEnd s with
      | false => simp [atEnd]
      | true => simp [atEnd]

/-- A parse fails if there is no match, or no match of the whole stream. -/
theorem parseAll_eq_error_iff {e : Unexpected κ} :
    rules.parseAll p s = .ok (.error e) ↔
      ∃ value c, rules.run s p .start = .ok (value, c) ∧ (value = none ∨ c.atEnd s = false) ∧
        e = ⟨s.get c.furthest⟩ := by
  rw [parseAll]
  cases run : rules.run s p .start with
  | error fault => simp
  | ok result =>
    obtain ⟨value, c⟩ := result
    cases value with
    | none =>
      constructor
      · intro failed
        cases failed
        exact ⟨none, c, rfl, .inl rfl, rfl⟩
      · rintro ⟨_, _, ⟨⟩, -, rfl⟩
        rfl
    | some a =>
      constructor
      · intro failed
        cases atEnd : c.atEnd s with
        | false =>
          simp only [atEnd] at failed
          cases failed
          exact ⟨some a, c, rfl, .inr atEnd, rfl⟩
        | true =>
          simp only [atEnd] at failed
          cases failed
      · rintro ⟨_, _, ⟨⟩, gaveUp, rfl⟩
        have atEnd := gaveUp.resolve_left (Option.some_ne_none a)
        simp only [atEnd]
        rfl

/-- A run from the start of a stream goes the same way on every stream with the same tokens up to
its furthest mark. -/
theorem Counted.run_of_agreeUpTo (h : rules.Counted) {value : Option α} {c : Cursor}
    (run : rules.run s p .start = .ok (value, c)) (agree : s.AgreeUpTo t c.furthest) :
    rules.run t p .start = .ok (value, c) := by
  refine (h.run_eq_ok_iff p t.size_pos).2 ⟨rules.depth s, ?_⟩
  have far : s.AgreeUpTo t (max Cursor.start.position c.furthest) :=
    agree.mono (Nat.le_of_eq (Nat.zero_max _))
  exact (p.meaning_of_carriesOver (fun reference =>
    rules.carriesOver_recordCall s t (Nat.le_refl _) reference) s.size_pos far).1 value run

/-- A parse that has given up does so, at the same token, on every stream with the same tokens up to
there. -/
theorem Counted.parseAll_of_agreeUpTo (h : rules.Counted) {value : Option α} {c : Cursor}
    (run : rules.run s p .start = .ok (value, c)) (gaveUp : value = none ∨ c.atEnd s = false)
    (agree : s.AgreeUpTo t c.furthest) :
    rules.parseAll p t = .ok (.error ⟨s.get c.furthest⟩) := by
  refine parseAll_eq_error_iff.2 ⟨value, c, h.run_of_agreeUpTo run agree, ?_, ?_⟩
  · rwa [← agree.atEnd (run_start_bounds run).1]
  · rw [agree _ (Nat.le_refl _)]

/-- **A parse looks no further than its furthest token.**  A run from the start of a stream has the
same outcome, with the same cursor behind it, on every stream with the same tokens up to its
furthest mark.  A parse that fails is blamed on the token at the furthest mark, and on every stream
with the same tokens up to that one it fails again and is blamed on it again, whatever follows. -/
theorem Counted.parse_looks_no_further (counted : rules.Counted) (p : Parser κ ρ items α)
    (s : TokenStream κ) :
    (∀ value c, rules.run s p .start = .ok (value, c) →
      ∀ t, s.AgreeUpTo t c.furthest → rules.run t p .start = .ok (value, c)) ∧
    ∀ e, rules.parseAll p s = .ok (.error e) →
      ∃ value c, rules.run s p .start = .ok (value, c) ∧ c.furthest < s.size ∧
        e = ⟨s.get c.furthest⟩ ∧
        ∀ t, s.AgreeUpTo t c.furthest → rules.parseAll p t = .ok (.error e) := by
  refine ⟨fun value c run t agree => counted.run_of_agreeUpTo run agree, fun e failed => ?_⟩
  obtain ⟨value, c, run, gaveUp, rfl⟩ := parseAll_eq_error_iff.1 failed
  exact ⟨value, c, run, (run_start_bounds run).2, rfl, fun t agree =>
    counted.parseAll_of_agreeUpTo run gaveUp agree⟩

end Rules

/-- Nested brackets around a core, as the number of pairs. -/
def nestedBrackets : Rules RuleId (Handle Nat) :=
  Arena.rules ⟨#[⟨"nest", 0, some ⟨.or
    (.map (fun items => items.2.1 + 1)
      (.skip (.and (.token ⟨1⟩) (.rule (.mk 0))) (.token ⟨2⟩) : Parser RuleId (Handle Nat) _ _))
    (.map (fun _ => 0) (.token ⟨0⟩))⟩⟩], #[.built]⟩

/-- Tokens of the given kinds. -/
def bracketTokens (kinds : List UInt32) : TokenStream RuleId :=
  .ofTokens (kinds.map fun kind => ⟨⟨kind⟩, "", .start⟩) .start

/-- Where the second bracket should be closed stands another core.  That is to blame, whatever comes
behind it. -/
theorem parse_looks_no_further_nested :
    nestedBrackets.Counted ∧
      nestedBrackets.parseAll (.rule (.mk 0)) (bracketTokens [1, 1, 0, 2, 0]) =
        .ok (.error ⟨⟨⟨0⟩, "", .start⟩⟩) ∧
      nestedBrackets.parseAll (.rule (.mk 0)) (bracketTokens [1, 1, 0, 2, 0, 2, 2]) =
        .ok (.error ⟨⟨⟨0⟩, "", .start⟩⟩) := by
  have counted : nestedBrackets.Counted := Arena.counted _
  have failed : nestedBrackets.parseAll (.rule (.mk 0)) (bracketTokens [1, 1, 0, 2, 0]) =
      .ok (.error ⟨⟨⟨0⟩, "", .start⟩⟩) := rfl
  have run : nestedBrackets.run (bracketTokens [1, 1, 0, 2, 0]) (.rule (.mk 0)) .start =
      .ok (none, ⟨0, 4⟩) := rfl
  obtain ⟨value, c, run', -, -, again⟩ :=
    (counted.parse_looks_no_further (.rule (.mk 0)) (bracketTokens [1, 1, 0, 2, 0])).2 _ failed
  rw [run] at run'
  cases run'
  exact ⟨counted, failed, again (bracketTokens [1, 1, 0, 2, 0, 2, 2]) (by decide)⟩

end FrontEnd
