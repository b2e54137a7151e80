import FrontEnd.Proofs.Scanner.Operations

/-!
# The life of a scanner

Rules may be registered at any time, registrations may fail, and the automaton is built whenever it
is needed and kept until the next rule comes.  None of that can be seen in the answers: they are
those of a scanner that was only given the rules whose registration succeeded.

## Main Definitions

* `Scanner.forget` — a scanner without its automaton
* `Scanner.Coherent` — the automaton, if it has been built, is that of the rules
* `Scanner.keptOf` — the registrations that succeed in the course of some operations
* `Scanner.Replays` — some registrations all succeed, and make up a scanner

## Main Results

* `Scanner.preserved_coherent` — operations keep the automaton up to date
* `Scanner.replays_keptOf` — the registrations that succeed make up the scanner
* `Scanner.history_leaves_no_trace` — after any life, a scanner answers like a fresh one
* `Scanner.history_leaves_no_trace_failures` — the theorem at a life with failures

## Design Notes

**Forgetting commutes.**  A registration looks at the rules only, and drops the automaton.  So it
makes no difference whether the automaton is forgotten before it, and a history may be replayed
without all operations that only build it.
-/

namespace FrontEnd.Scanner

variable {κ : Type} [DecidableEq κ] [TokenKind κ]

/-! ### What succeeds -/

/-- The rules up to the first whose registration fails, one by one. -/
def keptRules (s : Scanner κ) : List (κ × String × String) → List (Operation κ)
  | [] => []
  | (kind, name, pattern) :: rest =>
      match s.addRule kind name pattern with
      | .ok s' => .addRule kind name pattern :: s'.keptRules rest
      | .error _ => []

/-- The registrations of an operation that succeed, one by one. -/
def kept (s : Scanner κ) : Operation κ → List (Operation κ)
  | .addRule kind name pattern => s.keptRules [(kind, name, pattern)]
  | .ignoreRule pattern =>
      match s.ignoreRule pattern with
      | .ok _ => [.ignoreRule pattern]
      | .error _ => []
  | .addRules rules => s.keptRules rules
  | .compile => []
  | .analyse _ _ => []
  | .tokenize _ _ => []

/-- The registrations that succeed in the course of some operations, one by one. -/
def keptOf (s : Scanner κ) : List (Operation κ) → List (Operation κ)
  | [] => []
  | op :: ops => s.kept op ++ (s.perform op).1.keptOf ops

/-! ### The automaton and the rules -/

section Forget

omit [TokenKind κ]

/-- A scanner without its automaton. -/
def forget (s : Scanner κ) : Scanner κ := { s with built := none }

omit [DecidableEq κ] in
theorem forget_eq_self {s : Scanner κ} (h : s.built = none) : s.forget = s := by
  rw [forget, ← h]

/-- The automaton, if it has been built, is that of the rules. -/
def Coherent (s : Scanner κ) : Prop := ∀ d, s.built = some d → d = .determinize s.nfa s.order

theorem coherent_of_built_eq_none {s : Scanner κ} (h : s.built = none) : s.Coherent := by
  intro d built
  rw [h] at built
  cases built

/-- An automaton that is up to date might as well be built again. -/
theorem Coherent.automaton_forget {s : Scanner κ} (h : s.Coherent) :
    s.forget.automaton = s.automaton := by
  show Dfa.determinize s.nfa s.order = s.automaton
  rw [automaton]
  cases built : s.built with
  | none => rfl
  | some d => exact (h d built).symm

theorem Coherent.compile {s : Scanner κ} (h : s.Coherent) : s.compile.Coherent := by
  intro d built
  obtain rfl := Option.some.inj built
  exact h.automaton_forget.symm

end Forget

/-! ### Registrations -/

section Registration

variable {s s' : Scanner κ}

theorem built_of_addRule {kind : κ} {name pattern : String}
    (h : s.addRule kind name pattern = .ok s') : s'.built = none := by
  obtain ⟨-, p, -, rfl⟩ := addRule_eq_ok_iff.1 h
  rfl

omit [TokenKind κ] in
theorem built_of_ignoreRule {pattern : String} (h : s.ignoreRule pattern = .ok s') :
    s'.built = none := by
  obtain ⟨p, -, rfl⟩ := register_eq_ok_iff.1 h
  rfl

/-- **Operations keep the automaton up to date**: a registration drops it, everything else builds it
from the rules. -/
theorem preserved_coherent : Preserved (Coherent (κ := κ)) where
  addRule _ _ _ _ _ _ added := coherent_of_built_eq_none (built_of_addRule added)
  ignoreRule _ _ _ _ added := coherent_of_built_eq_none (built_of_ignoreRule added)
  compile _ h := h.compile

end Registration

/-! ### Forgetting the automaton -/

section Answers

variable {s : Scanner κ}

theorem addRule_forget (s : Scanner κ) (kind : κ) (name pattern : String) :
    s.forget.addRule kind name pattern = s.addRule kind name pattern := rfl

omit [TokenKind κ] in
theorem ignoreRule_forget (s : Scanner κ) (pattern : String) :
    s.forget.ignoreRule pattern = s.ignoreRule pattern := rfl

theorem result_addRules_forget (s : Scanner κ) (rules : List (κ × String × String)) :
    (s.forget.addRules rules).2 = (s.addRules rules).2 := by
  cases rules with
  | nil => rfl
  | cons rule rest =>
    obtain ⟨kind, name, pattern⟩ := rule
    rw [addRules, addRules, addRule_forget]
    cases s.addRule kind name pattern <;> rfl

omit [TokenKind κ] in
theorem Coherent.scan_forget (h : s.Coherent) (source file : String) :
    s.forget.scan source file = s.scan source file := by
  rw [scan, scan, h.automaton_forget]

/-- **A scanner whose automaton is up to date answers as if it had none.** -/
theorem Coherent.reply_forget (h : s.Coherent) (op : Operation κ) :
    (s.forget.perform op).2 = (s.perform op).2 := by
  cases op with
  | addRule kind name pattern =>
    rw [Scanner.perform, Scanner.perform, addRule_forget]
    cases s.addRule kind name pattern <;> rfl
  | ignoreRule pattern =>
    rw [Scanner.perform, Scanner.perform, ignoreRule_forget]
    cases s.ignoreRule pattern <;> rfl
  | addRules rules => exact congrArg Reply.registered (result_addRules_forget s rules)
  | compile => exact congrArg Reply.compiled h.automaton_forget
  | analyse source file =>
    show Reply.analysed (s.forget.analyse source file) = .analysed (s.analyse source file)
    rw [analyse, analyse, h.scan_forget]
  | tokenize source file =>
    show Reply.tokenized (s.forget.tokenize source file) = .tokenized (s.tokenize source file)
    rw [tokenize, tokenize, h.scan_forget]

end Answers

/-! ### Replaying what succeeded -/

/-- From one scanner, some registrations all succeed and lead to the rules of another. -/
structure Replays (s : Scanner κ) (ops : List (Operation κ)) (s' : Scanner κ) : Prop where
  reached : s.forget.after ops = s'.forget
  accepted : ∀ reply ∈ s.forget.replies ops, reply = .registered (.ok ())

section Replay

variable {s s' s'' : Scanner κ}

/-- Nothing is to be registered if the rules are the same. -/
theorem replays_nil (h : s.forget = s'.forget) : Replays s [] s' :=
  ⟨h, fun _ mem => absurd mem List.not_mem_nil⟩

/-- One registration that succeeds. -/
theorem replays_singleton {op : Operation κ} (h : s.forget.perform op = (s', .registered (.ok ())))
    (forgotten : s'.built = none) : Replays s [op] s' := by
  constructor
  · rw [after_cons, after_nil, h, forget_eq_self forgotten]
  · intro reply mem
    rw [replies, replies, List.mem_singleton] at mem
    rw [mem, h]

theorem Replays.append {first second : List (Operation κ)} (h : Replays s first s')
    (h' : Replays s' second s'') : Replays s (first ++ second) s'' := by
  constructor
  · rw [after_append, h.reached, h'.reached]
  · intro reply mem
    rw [replies_append, List.mem_append, h.reached] at mem
    cases mem with
    | inl before => exact h.accepted reply before
    | inr behind => exact h'.accepted reply behind

/-- What is kept of a list of rules. -/
theorem replays_keptRules (s : Scanner κ) (rules : List (κ × String × String)) :
    Replays s (s.keptRules rules) (s.addRules rules).1 := by
  induction rules generalizing s with
  | nil => exact replays_nil rfl
  | cons rule rest ih =>
    obtain ⟨kind, name, pattern⟩ := rule
    rw [keptRules, addRules]
    cases added : s.addRule kind name pattern with
    | error e => exact replays_nil rfl
    | ok s' =>
      have performed : s.forget.perform (.addRule kind name pattern) =
          (s', .registered (.ok ())) := by
        rw [perform, addRule_forget, added, settle]
      exact (replays_singleton performed (built_of_addRule added)).append (ih s')

/-- Adding one rule is adding a list of one rule. -/
theorem addRules_singleton (s : Scanner κ) (kind : κ) (name pattern : String) :
    (s.addRules [(kind, name, pattern)]).1 = (s.perform (.addRule kind name pattern)).1 := by
  rw [perform, addRules]
  cases s.addRule kind name pattern <;> rfl

/-- What is kept of one operation. -/
theorem replays_kept (s : Scanner κ) (op : Operation κ) :
    Replays s (s.kept op) (s.perform op).1 := by
  cases op with
  | addRule kind name pattern =>
    rw [← addRules_singleton]
    exact replays_keptRules s _
  | ignoreRule pattern =>
    rw [kept, perform]
    cases added : s.ignoreRule pattern with
    | error e => exact replays_nil rfl
    | ok s' =>
      have performed : s.forget.perform (.ignoreRule pattern) = (s', .registered (.ok ())) := by
        rw [perform, ignoreRule_forget, added, settle]
      exact replays_singleton performed (built_of_ignoreRule added)
  | addRules rules => exact replays_keptRules s rules
  | compile => exact replays_nil rfl
  | analyse source file => exact replays_nil rfl
  | tokenize source file => exact replays_nil rfl

/-- **The registrations that succeed make up the scanner.** -/
theorem replays_keptOf (s : Scanner κ) (ops : List (Operation κ)) :
    Replays s (s.keptOf ops) (s.after ops) := by
  induction ops generalizing s with
  | nil => exact replays_nil rfl
  | cons op ops ih => exact (replays_kept s op).append (ih (s.perform op).1)

end Replay

/-! ### The life of a scanner -/

/-- **A history leaves no trace.**  After any operations, the automaton that is kept is that of the
rules.  A registration that fails changes nothing; of a list of rules that fails, exactly those in
front of the failing one are taken.  A fresh scanner accepts all registrations that succeeded, gets
the same rules from them, and gives the same answer to whatever is asked next. -/
theorem history_leaves_no_trace (ops : List (Operation κ)) :
    let s := (empty : Scanner κ).after ops
    let fresh := (empty : Scanner κ).after ((empty : Scanner κ).keptOf ops)
    (∀ d, s.built = some d → d = .determinize s.nfa s.order) ∧
      (∀ kind name pattern e,
        (s.perform (.addRule kind name pattern)).2 = .registered (.error e) →
          (s.perform (.addRule kind name pattern)).1 = s ∧
            ((kind = endKind ∧ e = .reservedKind name) ∨
              ∃ fault, Pattern.read pattern = .error fault ∧ e = .invalidPattern name fault)) ∧
      (∀ pattern e, (s.perform (.ignoreRule pattern)).2 = .registered (.error e) →
        (s.perform (.ignoreRule pattern)).1 = s ∧
          ∃ fault, Pattern.read pattern = .error fault ∧ e = .invalidPattern ignoredName fault) ∧
      (∀ rules e, (s.perform (.addRules rules)).2 = .registered (.error e) →
        ∃ front kind name pattern back, rules = front ++ (kind, name, pattern) :: back ∧
          s.perform (.addRules front) =
            ((s.perform (.addRules rules)).1, .registered (.ok ())) ∧
          (s.perform (.addRules rules)).1.addRule kind name pattern = .error e) ∧
      (∀ reply ∈ (empty : Scanner κ).replies ((empty : Scanner κ).keptOf ops),
        reply = .registered (.ok ())) ∧
      fresh = { s with built := none } ∧
      ∀ op, (s.perform op).2 = (fresh.perform op).2 := by
  intro s fresh
  have coherent : s.Coherent := preserved_coherent.after (coherent_of_built_eq_none rfl) ops
  have replayed : Replays empty ((empty : Scanner κ).keptOf ops) s := replays_keptOf empty ops
  have same : fresh = s.forget := replayed.reached
  refine ⟨coherent, ?_, ?_, ?_, replayed.accepted, same, fun op => ?_⟩
  · intro kind name pattern e failed
    obtain ⟨refused, unchanged⟩ := settle_of_failed failed
    exact ⟨unchanged, cause_of_addRule refused⟩
  · intro pattern e failed
    obtain ⟨refused, unchanged⟩ := settle_of_failed failed
    exact ⟨unchanged, register_eq_error_iff.1 refused⟩
  · intro rules e failed
    have result : (s.addRules rules).2 = .error e := Reply.registered.inj failed
    obtain ⟨front, kind, name, pattern, back, split, before, refused⟩ :=
      exists_front_of_addRules (Prod.ext rfl result)
    refine ⟨front, kind, name, pattern, back, split, ?_, refused⟩
    rw [perform, before]
    rfl
  · rw [same]
    exact (coherent.reply_forget op).symm

/-- Two rules are registered, around them an end kind, an unclosed group and a failing list, and the
automaton is built twice. -/
def troubled : List (Operation RuleId) :=
  [.addRule ⟨0⟩ "A" "a", .compile, .addRule endKind "B" "b", .ignoreRule "(",
    .addRules [(⟨1⟩, "B", "b"), (⟨2⟩, "C", "("), (⟨3⟩, "D", "d")], .analyse "ab" "f"]

/-- Of a troubled life, the two rules that could be registered are left; the automaton has been
built; and one more unclosed group changes nothing. -/
theorem history_leaves_no_trace_failures :
    (empty : Scanner RuleId).keptOf troubled =
        [.addRule ⟨0⟩ "A" "a", .addRule ⟨1⟩ "B" "b"] ∧
      ((empty : Scanner RuleId).after troubled).isCompiled = true ∧
      (((empty : Scanner RuleId).after troubled).perform (.ignoreRule "(")).1 =
        (empty : Scanner RuleId).after troubled ∧
      ∀ op, (((empty : Scanner RuleId).after troubled).perform op).2 =
        (((empty : Scanner RuleId).after
          [.addRule ⟨0⟩ "A" "a", .addRule ⟨1⟩ "B" "b"]).perform op).2 := by
  have kept : (empty : Scanner RuleId).keptOf troubled =
      [.addRule ⟨0⟩ "A" "a", .addRule ⟨1⟩ "B" "b"] := rfl
  have failed : ∃ e, (((empty : Scanner RuleId).after troubled).perform (.ignoreRule "(")).2 =
      .registered (.error e) := ⟨_, rfl⟩
  obtain ⟨e, failed⟩ := failed
  have ⟨_, _, ignoring, _, _, _, answers⟩ :=
    history_leaves_no_trace troubled
  refine ⟨kept, rfl, (ignoring "(" e failed).1, fun op => ?_⟩
  rw [answers op, kept]

end FrontEnd.Scanner
