import FrontEnd.Proofs.Scanner.Registered

/-!
# Priority among rules

Several rules may match one word.  The rule that was registered first is meant to decide what the
word counts as, and mostly it does; but actions are ranked, not rules, and an action that several
rules share is ranked by the first of them, whether that one matches the word or not.

## Main Definitions

* `Scanner.Earliest` — the first rule of a list that matches a word

## Main Results

* `Scanner.Registered.verdict_eq_earliest_iff` — when exactly the first matching rule decides
* `Scanner.not_earliest_rule_decides` — it does not always
* `Scanner.Registered.verdict_of_nodup` — it does if no two rules share an action

## Design Notes

**The rank of an action may come from elsewhere.**  Let the rules be `x` for a first kind, `a` for
a second one and `[ab]` for the first kind again.  The word `a` is matched by the last two of them;
but the first kind ranks above the second one, owing to a rule that does not match the word.
-/

namespace FrontEnd.Scanner

variable {κ : Type} [DecidableEq κ]

/-- A rule that matches a word, between rules in front of it that do not and the rules behind it. -/
structure Earliest (rules front : List (Rule κ)) (r : Rule κ) (behind : List (Rule κ))
    (word : List Char) : Prop where
  split : rules = front ++ r :: behind
  matched : r.pattern.Matches word
  unmatched : ∀ e ∈ front, ¬ e.pattern.Matches word

omit [DecidableEq κ] in
/-- Where some rule matches, one of them is the earliest. -/
theorem exists_earliest {rules : List (Rule κ)} {word : List Char} (h : Matched rules word) :
    ∃ front r behind, Earliest rules front r behind word := by
  induction rules with
  | nil =>
    obtain ⟨r, mem, -⟩ := h
    simp at mem
  | cons first rules ih =>
    by_cases matched : first.pattern.Matches word
    · exact ⟨[], first, rules, rfl, matched, by simp⟩
    · obtain ⟨r, mem, matched'⟩ := h
      have later : r ∈ rules := by
        rcases List.mem_cons.1 mem with rfl | later
        · exact absurd matched' matched
        · exact later
      obtain ⟨front, r, behind, earliest⟩ := ih ⟨r, later, matched'⟩
      refine ⟨first :: front, r, behind, by rw [earliest.split, List.cons_append],
        earliest.matched, ?_⟩
      intro e mem
      rcases List.mem_cons.1 mem with rfl | mem
      · exact matched
      · exact earliest.unmatched e mem

/-- The action of the earliest matching rule counts exactly if no matching rule behind it has an
action of a smaller rank. -/
theorem Earliest.wins_iff {rules front behind : List (Rule κ)} {r : Rule κ} {word : List Char}
    (h : Earliest rules front r behind word) :
    Wins rules word r.action ↔
      ∀ late ∈ behind, late.pattern.Matches word →
        rank rules r.action ≤ rank rules late.action := by
  have member : r ∈ rules := by simp [h.split]
  constructor
  · intro wins late mem matched
    exact wins.first late (by simp [h.split, mem]) matched
  · intro first
    refine ⟨⟨r, member, rfl, h.matched⟩, fun other mem matched => ?_⟩
    rw [h.split, List.mem_append, List.mem_cons] at mem
    rcases mem with early | rfl | late
    · exact absurd matched (h.unmatched other early)
    · exact Nat.le_refl _
    · exact first other late matched

variable [TokenKind κ]

/-- **When the earliest rule decides.**  The automaton gives a word the action of the earliest rule
that matches it, exactly if no matching rule behind that one has an action that stands first in the
order of registration before the action of the earliest rule does. -/
theorem Registered.verdict_eq_earliest_iff {s : Scanner κ} {rules : List (Rule κ)}
    (h : s.Registered rules) {front behind : List (Rule κ)} {r : Rule κ} {word : List Char}
    (earliest : Earliest rules front r behind word) :
    s.automaton.verdict word = some r.action ↔
      ∀ late ∈ behind, late.pattern.Matches word →
        rank rules r.action ≤ rank rules late.action := by
  rw [h.reflects.verdict_eq_some_iff, earliest.wins_iff]

/-- With the rules `a`, `b` and `[ab]` for three kinds, the word `a` is decided by the first one. -/
theorem verdict_eq_earliest_iff_distinct :
    let rules : List (Rule RuleId) :=
      [⟨.emit ⟨1⟩, .char 'a' .done⟩, ⟨.emit ⟨2⟩, .char 'b' .done⟩,
        ⟨.emit ⟨3⟩, .oneOf [.single 'a', .single 'b'] .done⟩]
    ∃ s, Registered s rules ∧ s.automaton.verdict ['a'] = some (.emit ⟨1⟩) := by
  intro rules
  have a : Pattern.read "a" = .ok (.char 'a' .done) := rfl
  have b : Pattern.read "b" = .ok (.char 'b' .done) := rfl
  have ab : Pattern.read "[ab]" = .ok (.oneOf [.single 'a', .single 'b'] .done) := rfl
  have registered : Registered _ rules :=
    ((Registered.empty.add "A" (by decide) a).add "B" (by decide) b).add "C" (by decide) ab
  have earliest : Earliest rules [] ⟨.emit ⟨1⟩, .char 'a' .done⟩ rules.tail ['a'] :=
    ⟨rfl, by decide +kernel, by simp⟩
  exact ⟨_, registered, (registered.verdict_eq_earliest_iff earliest).2 (by decide +kernel)⟩

/-- **The earliest rule does not always decide**, if actions are shared. -/
theorem not_earliest_rule_decides :
    ¬ ∀ (s : Scanner RuleId) (rules front behind : List (Rule RuleId)) (r : Rule RuleId)
        (word : List Char), s.Registered rules → Earliest rules front r behind word →
          s.automaton.verdict word = some r.action := by
  intro claim
  have x : Pattern.read "x" = .ok (.char 'x' .done) := rfl
  have a : Pattern.read "a" = .ok (.char 'a' .done) := rfl
  have ab : Pattern.read "[ab]" = .ok (.oneOf [.single 'a', .single 'b'] .done) := rfl
  let front : List (Rule RuleId) := [⟨.emit ⟨1⟩, .char 'x' .done⟩]
  let r : Rule RuleId := ⟨.emit ⟨2⟩, .char 'a' .done⟩
  let behind : List (Rule RuleId) := [⟨.emit ⟨1⟩, .oneOf [.single 'a', .single 'b'] .done⟩]
  have registered : Registered _ (front ++ r :: behind) :=
    ((Registered.empty.add "A" (by decide) x).add "B" (by decide) a).add "A" (by decide) ab
  have earliest : Earliest (front ++ r :: behind) front r behind ['a'] :=
    ⟨rfl, by decide +kernel, by decide +kernel⟩
  have decided := claim _ _ _ _ _ _ registered earliest
  exact absurd decided (by decide +kernel)

/-- If no two rules share an action, the earliest matching rule decides. -/
theorem Registered.verdict_of_nodup {s : Scanner κ} {rules : List (Rule κ)}
    (h : s.Registered rules) (distinct : (rules.map Rule.action).Nodup)
    {front behind : List (Rule κ)} {r : Rule κ} {word : List Char}
    (earliest : Earliest rules front r behind word) :
    s.automaton.verdict word = some r.action := by
  rw [h.reflects.verdict_eq_some_iff, earliest.wins_iff]
  intro late mem _
  rw [earliest.split, List.map_append, List.map_cons] at distinct
  have apart := (List.nodup_append.1 distinct).2.2
  -- Neither action occurs in front of its rule, so the ranks are the places of the rules.
  have first : rank rules r.action = front.length := by
    have unshared : r.action ∉ front.map Rule.action := fun shared =>
      apart _ shared _ List.mem_cons_self rfl
    rw [rank, earliest.split, List.map_append, List.map_cons, List.idxOf_append, if_neg unshared,
      List.idxOf_cons_self, List.length_map, Nat.zero_add]
  have unshared : late.action ∉ front.map Rule.action := fun shared =>
    apart _ shared _ (List.mem_cons_of_mem _ (List.mem_map_of_mem mem)) rfl
  rw [first, rank, earliest.split, List.map_append, List.idxOf_append, if_neg unshared,
    List.length_map]
  exact Nat.le_add_left _ _

end FrontEnd.Scanner
