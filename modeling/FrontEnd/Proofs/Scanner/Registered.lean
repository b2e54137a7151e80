import FrontEnd.Proofs.Automaton.Isolation
import FrontEnd.Proofs.Automaton.SubsetConstruction
import FrontEnd.Proofs.Scanner.LongestMatch
import FrontEnd.Proofs.Scanner.Operations

/-!
# The rules of a scanner

A scanner keeps one automaton for all of its rules and a list of actions.  This module recovers the
rules: which words the automaton accepts, and what each of them counts as, is told by the patterns
alone.

## Main Definitions

* `Scanner.Rule` — an action and the pattern that calls for it
* `Scanner.Registered` — a scanner that has been given a list of rules
* `Scanner.Reflects` — automaton and order of a scanner agree with a list of rules
* `Scanner.Matched`, `Scanner.Wins` — whether some rule matches a word, and which action counts

## Main Results

* `Scanner.Registered.reflects` — every registration keeps scanner and rules in agreement
* `Scanner.Registered.after` — in the course of any operations, rules are added and none is lost
* `Scanner.Reflects.verdict_eq_some_iff`, `Scanner.Reflects.verdict_eq_none_iff` — what the
  deterministic automaton says about a word

## Design Notes

**Actions may repeat.**  Several rules may have the same action, for one because a kind is given
several patterns, for another because all ignoring rules share theirs.  The automaton knows actions
only, so what counts is decided by where an action stands first in the order of registration.
-/

namespace FrontEnd

/-- The first value that passes a test is the one that stands first among all that pass it. -/
theorem find?_eq_some_iff_idxOf {α : Type} [DecidableEq α] {l : List α} {p : α → Bool} {a : α} :
    l.find? p = some a ↔ p a = true ∧ a ∈ l ∧ ∀ b ∈ l, p b = true → l.idxOf a ≤ l.idxOf b := by
  induction l with
  | nil => simp
  | cons x l ih =>
    cases passes : p x with
    | true =>
      rw [List.find?_cons_of_pos passes, Option.some.injEq]
      constructor
      · rintro rfl
        exact ⟨passes, List.mem_cons_self, fun b _ _ => by simp⟩
      · rintro ⟨-, -, first⟩
        have := first x List.mem_cons_self passes
        rw [List.idxOf_cons_self, List.idxOf_cons] at this
        by_cases same : x = a
        · exact same
        · rw [beq_eq_false_iff_ne.2 same, cond_false] at this
          omega
    | false =>
      have failing {b : α} (h : p b = true) : x ≠ b := by
        rintro rfl
        simp [passes] at h
      have later {b : α} (h : p b = true) : (x :: l).idxOf b = l.idxOf b + 1 := by
        rw [List.idxOf_cons, beq_eq_false_iff_ne.2 (failing h), cond_false]
      have member {b : α} (h : p b = true) : b ∈ x :: l ↔ b ∈ l := by
        simp [(failing h).symm]
      rw [List.find?_cons_of_neg (by simp [passes]), ih]
      refine and_congr_right fun ha => and_congr (member ha).symm ?_
      constructor
      · intro first b mem hb
        rw [later ha, later hb]
        exact Nat.succ_le_succ (first b ((member hb).1 mem) hb)
      · intro first b mem hb
        have := first b ((member hb).2 mem) hb
        rw [later ha, later hb] at this
        exact Nat.le_of_succ_le_succ this

/-- A rule: what is done with its matches, and the pattern that says what it matches. -/
structure Scanner.Rule (κ : Type) where
  action : Action κ
  pattern : Pattern

namespace Scanner

variable {κ : Type} [DecidableEq κ]

/-! ### Rules -/

/-- Some rule matches a word. -/
def Matched (rules : List (Rule κ)) (word : List Char) : Prop :=
  ∃ r ∈ rules, r.pattern.Matches word

/-- Where an action stands first in the order of registration. -/
def rank (rules : List (Rule κ)) (action : Action κ) : Nat := (rules.map Rule.action).idxOf action

/-- The action that counts for a word: of the actions of all rules that match the word, the one that
stands first in the order of registration. -/
structure Wins (rules : List (Rule κ)) (word : List Char) (action : Action κ) : Prop where
  matched : ∃ r ∈ rules, r.action = action ∧ r.pattern.Matches word
  first : ∀ r ∈ rules, r.pattern.Matches word → rank rules action ≤ rank rules r.action

/-! ### Registration -/

/-- A scanner that has been given the listed rules, in this order; in between, its automaton may
have been built. -/
inductive Registered [TokenKind κ] : Scanner κ → List (Rule κ) → Prop where
  /-- A scanner without rules. -/
  | empty : Registered .empty []
  /-- A rule for a kind has been added. -/
  | addRule {s s' : Scanner κ} {rules : List (Rule κ)} {kind : κ} {name text : String}
      {p : Pattern} : Registered s rules → Pattern.read text = .ok p →
        s.addRule kind name text = .ok s' → Registered s' (rules ++ [⟨.emit kind, p⟩])
  /-- An ignoring rule has been added. -/
  | ignoreRule {s s' : Scanner κ} {rules : List (Rule κ)} {text : String} {p : Pattern} :
      Registered s rules → Pattern.read text = .ok p → s.ignoreRule text = .ok s' →
        Registered s' (rules ++ [⟨.ignore, p⟩])
  /-- The automaton has been built. -/
  | compile {s : Scanner κ} {rules : List (Rule κ)} :
      Registered s rules → Registered s.compile rules

/-- A rule can be added whenever its kind is not the end kind and its pattern can be read. -/
theorem Registered.add [TokenKind κ] {s : Scanner κ} {rules : List (Rule κ)}
    (h : s.Registered rules) {kind : κ} {text : String} {p : Pattern} (name : String)
    (free : kind ≠ endKind) (read : Pattern.read text = .ok p) :
    Registered { s with
      nfa := s.nfa.compile p (.emit kind), order := s.order ++ [.emit kind],
      names := (kind, name) :: s.names, built := none } (rules ++ [⟨.emit kind, p⟩]) :=
  h.addRule read (addRule_eq_ok_iff.2 ⟨free, p, read, rfl⟩)

/-- An ignoring rule can be added whenever its pattern can be read. -/
theorem Registered.ignore [TokenKind κ] {s : Scanner κ} {rules : List (Rule κ)}
    (h : s.Registered rules) {text : String} {p : Pattern} (read : Pattern.read text = .ok p) :
    Registered { s with
      nfa := s.nfa.compile p .ignore, order := s.order ++ [.ignore], built := none }
      (rules ++ [⟨.ignore, p⟩]) :=
  h.ignoreRule read (register_eq_ok_iff.2 ⟨p, read, rfl⟩)

/-- The pattern that a text denotes; nothing at all if it denotes none. -/
def patternOf (text : String) : Pattern := (Pattern.read text).toOption.getD .done

theorem patternOf_of_read {text : String} {p : Pattern} (read : Pattern.read text = .ok p) :
    patternOf text = p := by
  rw [patternOf, read]
  rfl

/-- A list of rules can be added if no kind is the end kind and all patterns can be read. -/
theorem Registered.addRules [TokenKind κ] {s : Scanner κ} {rules : List (Rule κ)}
    (h : s.Registered rules) (listed : List (κ × String × String))
    (readable : ∀ r ∈ listed, r.1 ≠ endKind ∧ Pattern.read r.2.2 = .ok (patternOf r.2.2)) :
    ∃ s', s.addRules listed = (s', .ok ()) ∧
      s'.Registered (rules ++ listed.map fun r => ⟨.emit r.1, patternOf r.2.2⟩) := by
  induction listed generalizing s rules with
  | nil => exact ⟨s, rfl, by rwa [List.map_nil, List.append_nil]⟩
  | cons r listed ih =>
    obtain ⟨kind, name, text⟩ := r
    obtain ⟨⟨free, read⟩, readable⟩ := List.forall_mem_cons.1 readable
    obtain ⟨s₁, added⟩ : ∃ s₁, s.addRule kind name text = .ok s₁ :=
      ⟨_, addRule_eq_ok_iff.2 ⟨free, _, read, rfl⟩⟩
    obtain ⟨s', done, registered⟩ := ih (h.addRule read added) readable
    refine ⟨s', ?_, ?_⟩
    · rw [Scanner.addRules, added]
      exact done
    · rwa [List.append_assoc] at registered

/-! ### Scanner and rules in agreement -/

/-- Automaton and order of a scanner tell what the rules tell, and the deterministic automaton, if
it has been built, is up to date. -/
structure Reflects (s : Scanner κ) (rules : List (Rule κ)) : Prop where
  rooted : s.nfa.Rooted
  order : s.order = rules.map Rule.action
  recognises : ∀ word a,
    s.nfa.Recognises word a ↔ ∃ r ∈ rules, r.action = a ∧ r.pattern.Matches word
  automaton : s.automaton = .determinize s.nfa s.order

theorem reflects_empty [TokenKind κ] : (empty : Scanner κ).Reflects [] := by
  refine ⟨Nfa.rooted_empty, rfl, fun word a => ?_, rfl⟩
  constructor
  · intro recognised
    exact absurd recognised (Nfa.not_recognises_empty word a)
  · rintro ⟨r, mem, -⟩
    simp at mem

/-- A scanner with one more rule: its pattern has been added to the automaton, its action to the
order, and the deterministic automaton has been forgotten. -/
theorem Reflects.append {s s' : Scanner κ} {rules : List (Rule κ)} (h : s.Reflects rules)
    (r : Rule κ) (nfa : s'.nfa = s.nfa.compile r.pattern r.action)
    (order : s'.order = s.order ++ [r.action]) (forgotten : s'.built = none) :
    s'.Reflects (rules ++ [r]) := by
  refine ⟨?_, ?_, fun word a => ?_, ?_⟩
  · rw [nfa]
    exact h.rooted.compile r.pattern r.action
  · rw [order, h.order, List.map_append, List.map_singleton]
  · rw [nfa, Nfa.recognises_compile h.rooted, h.recognises]
    simp only [List.mem_append, List.mem_singleton, or_and_right, exists_or, exists_eq_left,
      eq_comm (a := a)]
  · rw [Scanner.automaton, forgotten, Option.getD_none]

/-- **Registration keeps scanner and rules in agreement.** -/
theorem Registered.reflects [TokenKind κ] {s : Scanner κ} {rules : List (Rule κ)}
    (h : s.Registered rules) : s.Reflects rules := by
  induction h with
  | empty => exact reflects_empty
  | addRule _ read added ih =>
    obtain ⟨-, p, read', rfl⟩ := addRule_eq_ok_iff.1 added
    rw [read] at read'
    cases read'
    exact ih.append _ rfl rfl rfl
  | ignoreRule _ read added ih =>
    obtain ⟨p, read', rfl⟩ := register_eq_ok_iff.1 added
    rw [read] at read'
    cases read'
    exact ih.append _ rfl rfl rfl
  | compile _ ih =>
    exact ⟨ih.rooted, ih.order, ih.recognises, (automaton_compile _).trans ih.automaton⟩

/-- Whatever is asked of a scanner, it keeps its rules and may be given more. -/
theorem preserved_registered [TokenKind κ] (rules : List (Rule κ)) :
    Preserved fun s : Scanner κ => ∃ more, s.Registered (rules ++ more) where
  addRule := by
    rintro s s' kind name text ⟨more, h⟩ added
    obtain ⟨-, p, read, -⟩ := addRule_eq_ok_iff.1 added
    exact ⟨_, List.append_assoc rules _ _ ▸ h.addRule read added⟩
  ignoreRule := by
    rintro s s' text ⟨more, h⟩ added
    obtain ⟨p, read, -⟩ := register_eq_ok_iff.1 added
    exact ⟨_, List.append_assoc rules _ _ ▸ h.ignoreRule read added⟩
  compile := by
    rintro s ⟨more, h⟩
    exact ⟨more, h.compile⟩

/-- In the course of any operations, a scanner is given some more rules. -/
theorem Registered.after [TokenKind κ] {s : Scanner κ} {rules : List (Rule κ)}
    (h : s.Registered rules) (ops : List (Operation κ)) :
    ∃ more, (s.after ops).Registered (rules ++ more) :=
  (preserved_registered rules).after ⟨[], by rwa [List.append_nil]⟩ ops

/-! ### What counts for a word -/

namespace Reflects

variable {s : Scanner κ} {rules : List (Rule κ)}

theorem matched_iff (h : s.Reflects rules) {word : List Char} :
    Matched rules word ↔ ∃ a, s.nfa.Recognises word a := by
  simp only [h.recognises]
  constructor
  · rintro ⟨r, mem, matched⟩
    exact ⟨r.action, r, mem, rfl, matched⟩
  · rintro ⟨_, r, mem, -, matched⟩
    exact ⟨r, mem, matched⟩

/-- The automaton says of a word what counts among the actions that recognise it. -/
theorem verdict_eq (h : s.Reflects rules) (word : List Char) :
    s.automaton.verdict word =
      (rules.map Rule.action).find? fun a => a ∈ s.nfa.acceptsOf (s.nfa.after [Nfa.root] word) := by
  rw [h.automaton, Dfa.verdict, Dfa.accept_run_determinize h.rooted.toProper, h.order]
  rfl

/-- **What the automaton says of a word** is the action that counts for it. -/
theorem verdict_eq_some_iff (h : s.Reflects rules) {word : List Char} {a : Action κ} :
    s.automaton.verdict word = some a ↔ Wins rules word a := by
  rw [h.verdict_eq, find?_eq_some_iff_idxOf]
  simp only [decide_eq_true_eq, Nfa.mem_acceptsOf_after, h.recognises]
  constructor
  · rintro ⟨matched, -, first⟩
    refine ⟨matched, fun r mem matches' => ?_⟩
    exact first r.action (List.mem_map_of_mem mem) ⟨r, mem, rfl, matches'⟩
  · rintro ⟨matched, first⟩
    have member : a ∈ rules.map Rule.action := by
      obtain ⟨r, mem, rfl, -⟩ := matched
      exact List.mem_map_of_mem mem
    refine ⟨matched, member, ?_⟩
    rintro _ - ⟨r', mem', rfl, matches'⟩
    exact first r' mem' matches'

/-- The automaton says nothing of a word exactly if no rule matches it. -/
theorem verdict_eq_none_iff (h : s.Reflects rules) {word : List Char} :
    s.automaton.verdict word = none ↔ ¬ Matched rules word := by
  rw [h.verdict_eq, List.find?_eq_none, h.matched_iff]
  simp only [decide_eq_true_eq, Nfa.mem_acceptsOf_after, not_exists]
  constructor
  · intro none a recognised
    obtain ⟨r, mem, rfl, -⟩ := (h.recognises word a).1 recognised
    exact none r.action (List.mem_map_of_mem mem) recognised
  · intro none a _
    exact none a

end Reflects

end Scanner

end FrontEnd
