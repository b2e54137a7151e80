import FrontEnd.Scanner.Basic

/-!
# What operations do to a scanner

A scanner changes by registrations that succeed and by building its automaton, and by nothing else.
A property that these two keep therefore holds for as long as the scanner lives.

## Main Definitions

* `Scanner.after`, `Scanner.replies` — a scanner after some operations, and its answers to them
* `Scanner.Preserved` — a property that registering a rule and building the automaton keep

## Main Results

* `Scanner.addRule_eq_ok_iff`, `Scanner.cause_of_addRule` — when a rule is added, and why not
* `Scanner.Preserved.perform`, `Scanner.Preserved.after` — what is preserved survives operations

## Design Notes

**Successes decide.**  An operation may fail, or register several rules and fail then.  All of that
comes down to a number of successful registrations, so a property only has to be checked for one.
-/

namespace FrontEnd.Scanner

variable {κ : Type} [DecidableEq κ] [TokenKind κ] {s s' : Scanner κ}

/-! ### One registration -/

section Registration

omit [TokenKind κ] in
/-- A registration succeeds exactly if the pattern can be read; it adds the pattern to the automaton
and the action to the order. -/
theorem register_eq_ok_iff {action : Action κ} {name text : String} :
    s.register action name text = .ok s' ↔
      ∃ p, Pattern.read text = .ok p ∧
        s' = { s with
          nfa := s.nfa.compile p action, order := s.order ++ [action], built := none } := by
  unfold register Nfa.register
  cases read : Pattern.read text with
  | error e => simp [Except.map]
  | ok p => simp [Except.map, eq_comm]

omit [TokenKind κ] in
/-- A registration fails exactly if the pattern cannot be read. -/
theorem register_eq_error_iff {action : Action κ} {name text : String} {e : RuleError} :
    s.register action name text = .error e ↔
      ∃ fault, Pattern.read text = .error fault ∧ e = .invalidPattern name fault := by
  unfold register Nfa.register
  cases read : Pattern.read text with
  | error fault => simp [Except.map, eq_comm]
  | ok p => simp [Except.map]

/-- A rule can be added exactly if its kind is not the end kind and its pattern can be read. -/
theorem addRule_eq_ok_iff {kind : κ} {name text : String} :
    s.addRule kind name text = .ok s' ↔
      kind ≠ endKind ∧ ∃ p, Pattern.read text = .ok p ∧
        s' = { s with
          nfa := s.nfa.compile p (.emit kind), order := s.order ++ [.emit kind],
          names := (kind, name) :: s.names, built := none } := by
  unfold addRule register Nfa.register
  by_cases reserved : kind = endKind
  · simp [reserved]
  · cases read : Pattern.read text with
    | error e => simp [reserved, Except.map]
    | ok p => simp [reserved, Except.map, eq_comm]

/-- A rule that cannot be added claims the end kind or has a pattern that cannot be read. -/
theorem cause_of_addRule {kind : κ} {name text : String} {e : RuleError}
    (h : s.addRule kind name text = .error e) :
    (kind = endKind ∧ e = .reservedKind name) ∨
      ∃ fault, Pattern.read text = .error fault ∧ e = .invalidPattern name fault := by
  rw [addRule] at h
  by_cases reserved : kind = endKind
  · rw [if_pos reserved] at h
    cases h
    exact .inl ⟨reserved, rfl⟩
  · rw [if_neg reserved] at h
    cases registered : s.register (.emit kind) name text with
    | ok s' => simp [registered] at h
    | error e' =>
      simp only [registered, Except.error.injEq] at h
      subst h
      exact .inr (register_eq_error_iff.1 registered)

omit [DecidableEq κ] in
/-- Settling with a failure leaves a scanner as it was. -/
theorem settle_of_failed {result : Except RuleError (Scanner κ)} {e : RuleError}
    (h : (s.settle result).2 = .registered (.error e)) :
    result = .error e ∧ (s.settle result).1 = s := by
  cases result with
  | ok s' => simp [settle] at h
  | error e' =>
    simp only [settle, Reply.registered.injEq, Except.error.injEq] at h
    rw [h]
    exact ⟨rfl, rfl⟩

/-- Of a list of rules that fails, the rules in front of the first one that cannot be added have
been added, and no others. -/
theorem exists_front_of_addRules {rules : List (κ × String × String)} {e : RuleError}
    (h : s.addRules rules = (s', .error e)) :
    ∃ front kind name pattern back, rules = front ++ (kind, name, pattern) :: back ∧
      s.addRules front = (s', .ok ()) ∧ s'.addRule kind name pattern = .error e := by
  induction rules generalizing s with
  | nil => cases h
  | cons rule rest ih =>
    obtain ⟨kind, name, pattern⟩ := rule
    rw [addRules] at h
    cases added : s.addRule kind name pattern with
    | error e' =>
      simp only [added, Prod.mk.injEq, Except.error.injEq] at h
      obtain ⟨rfl, rfl⟩ := h
      exact ⟨[], kind, name, pattern, rest, rfl, rfl, added⟩
    | ok s₁ =>
      simp only [added] at h
      obtain ⟨front, kind', name', pattern', back, rfl, before, failed⟩ := ih h
      refine ⟨(kind, name, pattern) :: front, kind', name', pattern', back, rfl, ?_, failed⟩
      rw [addRules, added]
      exact before

end Registration

/-! ### Many operations -/

/-- A scanner after some operations. -/
def after (s : Scanner κ) (ops : List (Operation κ)) : Scanner κ :=
  ops.foldl (fun s op => (s.perform op).1) s

/-- The answers of a scanner to some operations. -/
def replies (s : Scanner κ) : List (Operation κ) → List (Reply κ)
  | [] => []
  | op :: ops => (s.perform op).2 :: (s.perform op).1.replies ops

theorem after_nil (s : Scanner κ) : s.after [] = s := rfl

theorem after_cons (s : Scanner κ) (op : Operation κ) (ops : List (Operation κ)) :
    s.after (op :: ops) = (s.perform op).1.after ops := rfl

theorem after_append (s : Scanner κ) (first second : List (Operation κ)) :
    s.after (first ++ second) = (s.after first).after second := List.foldl_append

theorem replies_append (s : Scanner κ) (first second : List (Operation κ)) :
    s.replies (first ++ second) = s.replies first ++ (s.after first).replies second := by
  induction first generalizing s with
  | nil => rfl
  | cons op first ih => rw [List.cons_append, replies, replies, ih, after_cons, List.cons_append]

/-! ### Properties that last -/

/-- A property of scanners that every successful registration keeps, and building the automaton. -/
structure Preserved (P : Scanner κ → Prop) : Prop where
  addRule : ∀ s s' kind name pattern, P s → s.addRule kind name pattern = .ok s' → P s'
  ignoreRule : ∀ s s' pattern, P s → s.ignoreRule pattern = .ok s' → P s'
  compile : ∀ s, P s → P s.compile

namespace Preserved

variable {P : Scanner κ → Prop}

theorem addRules (preserved : Preserved P) (h : P s) (rules : List (κ × String × String)) :
    P (s.addRules rules).1 := by
  induction rules generalizing s with
  | nil => exact h
  | cons rule rest ih =>
    obtain ⟨kind, name, pattern⟩ := rule
    rw [Scanner.addRules]
    cases added : s.addRule kind name pattern with
    | error e => exact h
    | ok s' => exact ih (preserved.addRule s s' kind name pattern h added)

/-- **What is preserved survives every operation**, whether it succeeds or fails. -/
theorem perform (preserved : Preserved P) (h : P s) (op : Operation κ) : P (s.perform op).1 := by
  cases op with
  | addRule kind name pattern =>
    rw [Scanner.perform]
    cases added : s.addRule kind name pattern with
    | error e => exact h
    | ok s' => exact preserved.addRule s s' kind name pattern h added
  | ignoreRule pattern =>
    rw [Scanner.perform]
    cases added : s.ignoreRule pattern with
    | error e => exact h
    | ok s' => exact preserved.ignoreRule s s' pattern h added
  | addRules rules => exact preserved.addRules h rules
  | compile => exact preserved.compile s h
  | analyse source file => exact preserved.compile s h
  | tokenize source file => exact preserved.compile s h

/-- What is preserved lasts. -/
theorem after (preserved : Preserved P) (h : P s) (ops : List (Operation κ)) :
    P (s.after ops) := by
  induction ops generalizing s with
  | nil => exact h
  | cons op ops ih => exact ih (preserved.perform h op)

end Preserved

end FrontEnd.Scanner
