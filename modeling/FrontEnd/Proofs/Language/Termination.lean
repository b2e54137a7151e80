import FrontEnd.Language.Draft
import FrontEnd.Proofs.Parser.Termination

/-!
# Parsing programs comes to an end

The grammar of the language, drafted in an arena, finds all its rules, and its recursion uses up the
stream.  So whatever the tokens are, a parse ends with a program or with an unexpected token.

## Main Definitions

* `Language.Drafted` — the handles of the rules of the language
* `Language.rank` — the height of a rule among those that it may enter without reading a token

## Main Results

* `Language.draftGrammar_eq` — the grammar can be drafted
* `Language.call_drafted` — a rule does the same in the arena as among the productions
* `Language.ranked_drafted` — before it has read a token, a rule enters rules of a lower rank only
* `Language.parse_returns` — a parse ends, without entering a rule twice at the same place
-/

namespace FrontEnd

variable {κ : Type} {ρ ρ' : Type → Type}

/-! ### Expressions with replaced references -/

namespace Parser

variable {image : {α : Type} → ρ α → Parser κ ρ' [α] α} {items : List Type} {α : Type}
  {P : {α : Type} → ρ' α → Prop}

theorem refersTo_refer (refers : ∀ {α : Type} (reference : ρ α), (image reference).RefersTo P)
    (p : Parser κ ρ items α) : (p.refer image).RefersTo P := by
  induction p with
  | token | ignore | finish => trivial
  | seq _ ih | map _ _ ih | tryMap _ _ ih | many _ ih | optional _ ih => exact ih
  | and _ _ ihp ihq | skip _ _ ihp ihq | or _ _ ihp ihq | separatedBy _ _ ihp ihq =>
    exact ⟨ihp, ihq⟩
  | rule reference => exact refers reference

theorem reads_refer (silent : ∀ {α : Type} (reference : ρ α), (image reference).reads = false)
    (p : Parser κ ρ items α) : (p.refer image).reads = p.reads := by
  induction p with
  | token | ignore | finish | many | optional | separatedBy => rfl
  | seq _ ih | map _ _ ih | tryMap _ _ ih => exact ih
  | and _ _ ihp ihq | skip _ _ ihp ihq | or _ _ ihp ihq => rw [refer, reads, reads, ihp, ihq]
  | rule reference => exact silent reference

theorem leads_refer (silent : ∀ {α : Type} (reference : ρ α), (image reference).reads = false)
    {p : Parser κ ρ items α} (leads : p.Leads fun reference => (image reference).Leads P) :
    (p.refer image).Leads P := by
  induction p with
  | token | ignore | finish => trivial
  | seq _ ih | map _ _ ih | tryMap _ _ ih | many _ ih | optional _ ih => exact ih leads
  | or _ _ ihp ihq => exact ⟨ihp leads.1, ihq leads.2⟩
  | and p _ ihp ihq | skip p _ ihp ihq | separatedBy p _ ihp ihq =>
    refine ⟨ihp leads.1, fun still => ihq (leads.2 ?_)⟩
    rwa [reads_refer silent] at still
  | rule reference => exact leads

/-- An expression does the same when references are replaced by expressions that do the same. -/
theorem meaning_refer [DecidableEq κ] [TokenKind κ] {s : TokenStream κ}
    {call : {α : Type} → ρ' α → Runner α} {call' : {α : Type} → ρ α → Runner α}
    (same : ∀ {α : Type} (reference : ρ α),
      (image reference).meaning s call = .single (call' reference))
    (p : Parser κ ρ items α) : (p.refer image).meaning s call = p.meaning s call' := by
  induction p with
  | token | ignore | finish => rfl
  | seq _ ih | map _ _ ih | tryMap _ _ ih | many _ ih | optional _ ih =>
    rw [refer, meaning, meaning, ih]
  | and _ _ ihp ihq | skip _ _ ihp ihq | or _ _ ihp ihq | separatedBy _ _ ihp ihq =>
    rw [refer, meaning, meaning, ihp, ihq]
  | rule reference => exact same reference

end Parser

/-- Transforming a value and back does nothing. -/
theorem Runner.map_map_eq {α β : Type} (r : Runner α) {f : α → β} {g : β → α}
    (back : ∀ a, g (f a) = a) : (r.map f).map g = r := by
  funext c
  rw [map_apply, map_apply]
  rcases r c with e | ⟨value, c'⟩
  · rfl
  · cases value with
    | none => rfl
    | some a => exact congrArg (fun a => Except.ok (some a, c')) (back a)

/-- If a run yields the transformed values of another one, a parse does so too. -/
theorem Rules.parseAll_map [DecidableEq κ] [TokenKind κ] {rules : Rules κ ρ} {rules' : Rules κ ρ'}
    {s : TokenStream κ} {items items' : List Type} {α β : Type} {p : Parser κ ρ items α}
    {p' : Parser κ ρ' items' β} {f : α → β} (same : rules'.run s p' = (rules.run s p).map f) :
    rules'.parseAll p' s = (rules.parseAll p s).map fun result => result.map f := by
  rw [parseAll, parseAll, same, Runner.map_apply]
  rcases rules.run s p .start with e | ⟨value, c⟩
  · rfl
  · cases value with
    | none => rfl
    | some a =>
      change Except.ok (if c.atEnd s then .ok (f a) else .error _) = Except.ok (Except.map f _)
      cases c.atEnd s <;> rfl

/-- A run that comes to an end decides a parse. -/
theorem Rules.exists_parseAll [DecidableEq κ] [TokenKind κ] {rules : Rules κ ρ}
    {s : TokenStream κ} {items : List Type} {α : Type} {p : Parser κ ρ items α}
    {result : Option α × Cursor} (run : rules.run s p .start = .ok result) :
    ∃ parsed, rules.parseAll p s = .ok parsed := by
  rw [parseAll, run]
  obtain ⟨value, c⟩ := result
  cases value with
  | none => exact ⟨_, rfl⟩
  | some a => exact ⟨_, rfl⟩

namespace Language

/-! ### The drafted grammar -/

/-- The arena of the drafted grammar. -/
def drafted : Arena Kind Tree :=
  ⟨#[⟨"expression", 0, some Rule.expression.entry⟩, ⟨"term", 0, some Rule.term.entry⟩,
    ⟨"factor", 0, some Rule.factor.entry⟩, ⟨"body", 0, some Rule.body.entry⟩,
    ⟨"program", 0, some Rule.program.entry⟩], #[.built]⟩

/-- **The grammar can be drafted**: every rule is defined once, and none is left out. -/
theorem draftGrammar_eq :
    draftGrammar = .ok (drafted, ⟨0, ⟨Parser.rule (Handle.mk Rule.program.slot)⟩⟩) := rfl

theorem lookup_drafted {α : Type} (rule : Rule α) :
    drafted.rules.lookup (Handle.mk rule.slot) = .ok rule.entry := by
  cases rule <;> rfl

/-- **The arena runs the productions.** -/
theorem call_drafted (s : TokenStream Kind) (depth : Nat) {α : Type} (rule : Rule α) :
    drafted.rules.call s depth (Handle.mk rule.slot) =
      (productions.call s depth rule).map rule.wrap := by
  induction depth generalizing α with
  | zero => rfl
  | succ depth ih =>
    have same {β : Type} (next : Rule β) :
        next.handle.meaning s (drafted.rules.call s depth) =
          .single (productions.call s depth next) := by
      have back : (drafted.rules.call s depth (Handle.mk next.slot)).map next.unwrap =
          productions.call s depth next := by
        rw [ih, Runner.map_map_eq _ next.unwrap_wrap]
      exact congrArg Meaning.single back
    rw [Rules.call_succ (lookup_drafted rule), call_succ]
    have body := rule.definition.parser.meaning_refer same
    exact congrArg (fun m => m.value.map rule.wrap) body

/-! ### The ranking -/

/-- The number behind a handle. -/
def slotOf : {α : Type} → Handle Tree α → Nat
  | _, .mk n => n

/-- The handles of the rules of the language. -/
def Drafted : {α : Type} → Handle Tree α → Prop
  | _, .mk n => ∃ α, ∃ rule : Rule α, rule.slot = n

/-- The rank of a rule, by its number: terms begin with factors, and expressions with terms. -/
def rank : Nat → Nat
  | 0 => 2
  | 1 => 1
  | 2 => 0
  | n => n

/-- Before it has read a token, a rule only enters rules of a lower rank. -/
theorem leads_definition {α : Type} (rule : Rule α) :
    rule.definition.parser.Leads fun next => rank next.slot < rank rule.slot := by
  cases rule with
  | expression =>
    simp [Rule.definition, Phrase.expression, Phrase.sumOperator, Phrase.sign, Parser.Leads,
      Parser.reads, Rule.slot, rank]
  | term =>
    simp [Rule.definition, Phrase.term, Phrase.productOperator, Phrase.sign, Parser.Leads,
      Parser.reads, Rule.slot, rank]
  | factor =>
    simp [Rule.definition, Phrase.factor, Phrase.group, Phrase.call, Phrase.negation, Phrase.name,
      Phrase.number, Parser.Leads, Parser.reads]
  | body =>
    simp [Rule.definition, Phrase.body, Parser.Leads, Parser.reads]
  | program =>
    simp [Rule.definition, Phrase.program, Phrase.function, Phrase.name, Parser.Leads,
      Parser.reads]

theorem ranked_drafted : drafted.rules.Ranked Drafted slotOf rank ruleNames.length where
  low := by
    rintro _ ⟨_⟩ ⟨α, rule, rfl⟩
    cases rule <;> decide
  enters := by
    rintro _ ⟨_⟩ ⟨α, rule, rfl⟩
    refine ⟨rule.entry, lookup_drafted rule, ?_, ?_⟩
    · have refers {β : Type} (next : Rule β) : next.handle.RefersTo Drafted := ⟨β, next, rfl⟩
      exact Parser.refersTo_refer refers rule.definition.parser
    · exact Parser.leads_refer (fun next => rfl) (leads_definition rule)

/-! ### Parsing -/

/-- The arena reads a stream as the productions do. -/
theorem parseAll_drafted (s : TokenStream Kind) :
    drafted.rules.parseAll (Parser.rule (Handle.mk Rule.program.slot)) s =
      (parseStream s).map fun result => result.map Rule.program.wrap :=
  Rules.parseAll_map (call_drafted s (productions.depth s) .program)

/-- From every position each rule comes to an end, and is not entered again before a token has been
read. -/
theorem exists_guardedCall_drafted (s : TokenStream Kind) {α : Type} (rule : Rule α) {c : Cursor}
    (inside : c.position < s.size) :
    ∃ result, drafted.rules.guardedCall slotOf s (drafted.rules.depth s) []
        (Handle.mk rule.slot) c = .ok result ∧
      drafted.rules.call s (drafted.rules.depth s) (Handle.mk rule.slot) c = .ok result :=
  have mem : Drafted (Handle.mk rule.slot) := ⟨α, rule, rfl⟩
  ranked_drafted.exists_guardedCall (Nat.le_refl _) s mem inside

theorem exists_parseStream (s : TokenStream Kind) : ∃ result, parseStream s = .ok result := by
  have inside : Cursor.start.position < s.size := s.size_pos
  obtain ⟨⟨tree, c⟩, -, run⟩ := exists_guardedCall_drafted s .program inside
  rw [call_drafted, Runner.map_apply] at run
  obtain ⟨value, c', run, -⟩ := Outcome.exists_of_bind run
  have run : productions.run s (.rule .program) .start = .ok (value, c') := run
  exact Rules.exists_parseAll run

/-- **Parsing returns.**  The grammar of the language can be drafted, and whatever the tokens are, a
parse with it ends with a program or an unexpected token.  From every position of the stream each
rule comes to an end, and between two nested entries of a rule a token is read. -/
theorem parse_returns (s : TokenStream Kind) :
    ∃ arena grammar, draftGrammar = .ok (arena, grammar) ∧
      (∃ result : Except (Unexpected Kind) Program, parseStream s = .ok result ∧
        arena.rules.parseAll grammar.top.parser s = .ok (result.map Tree.program)) ∧
      ∀ {α : Type} (rule : Rule α) (c : Cursor), c.position < s.size →
        ∃ result : Option Tree × Cursor,
          arena.rules.guardedCall slotOf s (arena.rules.depth s) [] (Handle.mk rule.slot) c =
            .ok result ∧
          arena.rules.call s (arena.rules.depth s) (Handle.mk rule.slot) c = .ok result := by
  obtain ⟨result, parsed⟩ := exists_parseStream s
  refine ⟨drafted, _, draftGrammar_eq, ⟨result, parsed, ?_⟩,
    fun rule c inside => exists_guardedCall_drafted s rule inside⟩
  have same := parseAll_drafted s
  rw [parsed] at same
  exact same

end Language

end FrontEnd
