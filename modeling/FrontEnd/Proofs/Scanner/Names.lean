import FrontEnd.Processing.Basic
import FrontEnd.Proofs.Scanner.History
import FrontEnd.Proofs.Scanner.Places
import FrontEnd.Proofs.Scanner.Registered

/-!
# Tokens and their names

A scanner keeps the names of kinds apart from its rules, and the stream of a source drops tokens of
the end kind.  Neither is ever felt: every token that a scan shows was emitted by a rule, no rule
emits the end kind, and whoever registered the rule has named its kind.

## Main Definitions

* `Scanner.lastName` — the name that the last of some registrations gives to a kind
* `Scanner.Named` — every kind that a rule emits is a proper one and has a name

## Main Results

* `Scanner.preserved_named` — whatever is asked of a scanner, its kinds are named
* `Scanner.nameOf_after` — the name of a kind after any life
* `Scanner.Reflects.emit_mem_order` — what a scan shows was emitted by a rule
* `Scanner.tokenize_keeps_and_names` — the stream of a source, after any life

## Design Notes

**The order of registration links the stores.**  Rules are known to the automaton by their actions,
names are kept by kind; both grow with the order, and only by registrations that succeed.
-/

namespace FrontEnd

/-! ### Pieces and spans -/

/-- Every piece that has been cut off was due at some text. -/
theorem Cuts.exists_next_of_mem {α : Type} {next : List Char → List Char → α → Prop}
    {text last : List Char} {pieces : List (List Char × α)} (h : Cuts next text pieces last)
    {word : List Char} {a : α} (mem : (word, a) ∈ pieces) : ∃ text', next text' word a := by
  induction h with
  | stop text => cases mem
  | piece taken _ ih =>
    rcases List.mem_cons.1 mem with same | later
    · cases same
      exact ⟨_, taken⟩
    · exact ih later

/-- Every span is that of a piece. -/
theorem mem_of_mem_layout {α : Type} {place : Location} {pieces : List (List Char × α)}
    {x : Span α} (mem : x ∈ layout place pieces) : (x.text, x.accept) ∈ pieces := by
  induction pieces generalizing place with
  | nil => cases mem
  | cons piece pieces ih =>
    rcases List.mem_cons.1 mem with rfl | later
    · exact List.mem_cons_self
    · exact List.mem_cons_of_mem _ (ih later)

/-- A stream of proper tokens holds all of them. -/
theorem TokenStream.tokens_ofTokens {κ : Type} [DecidableEq κ] [TokenKind κ]
    {tokens : List (Token κ)} (proper : ∀ t ∈ tokens, t.kind ≠ endKind) (finish : Location) :
    (ofTokens tokens finish).tokens.toList = tokens :=
  List.filter_eq_self.2 fun t mem => decide_eq_true (proper t mem)

/-- Behind them stands the end token. -/
theorem TokenStream.toList_ofTokens {κ : Type} [DecidableEq κ] [TokenKind κ]
    {tokens : List (Token κ)} (proper : ∀ t ∈ tokens, t.kind ≠ endKind) (finish : Location) :
    (ofTokens tokens finish).toList = tokens ++ [(ofTokens tokens finish).endToken] := by
  rw [toList, tokens_ofTokens proper]

namespace Scanner

variable {κ : Type} [DecidableEq κ]

/-! ### The names of kinds -/

/-- The name that a registration gives to a kind. -/
def nameIn (kind : κ) : Operation κ → Option String
  | .addRule kind' name _ => if kind = kind' then some name else none
  | .ignoreRule _ => none
  | .addRules _ => none
  | .compile => none
  | .analyse _ _ => none
  | .tokenize _ _ => none

/-- The name that the last of some registrations of a kind gives to it. -/
def lastName (registrations : List (Operation κ)) (kind : κ) : Option String :=
  (registrations.filterMap (nameIn kind)).getLast?

theorem lastName_append (front back : List (Operation κ)) (kind : κ) :
    lastName (front ++ back) kind = (lastName back kind).or (lastName front kind) := by
  rw [lastName, List.filterMap_append, List.getLast?_append]
  rfl

theorem lastName_singleton (kind kind' : κ) (name pattern : String) :
    lastName [.addRule kind' name pattern] kind = if kind = kind' then some name else none := by
  by_cases same : kind = kind'
  · simp [lastName, nameIn, same]
  · simp [lastName, nameIn, same]

variable [TokenKind κ] {s s' : Scanner κ}

/-- A rule that is added names its kind and no other. -/
theorem nameOf_of_addRule {kind : κ} {name pattern : String}
    (h : s.addRule kind name pattern = .ok s') (kind' : κ) :
    s'.nameOf kind' = if kind' = kind then some name else s.nameOf kind' := by
  obtain ⟨-, p, -, rfl⟩ := addRule_eq_ok_iff.1 h
  rw [nameOf, List.lookup_cons]
  by_cases same : kind' = kind
  · simp [same]
  · rw [beq_false_of_ne same, if_neg same]
    rfl

/-- After a list of rules, a kind has the name that the last of those kept gave to it, or else the
name from before. -/
theorem nameOf_addRules (s : Scanner κ) (rules : List (κ × String × String)) (kind : κ) :
    (s.addRules rules).1.nameOf kind =
      (lastName (s.keptRules rules) kind).or (s.nameOf kind) := by
  induction rules generalizing s with
  | nil => rfl
  | cons rule rest ih =>
    obtain ⟨kind', name, pattern⟩ := rule
    rw [addRules, keptRules]
    cases added : s.addRule kind' name pattern with
    | error e => rfl
    | ok s' =>
      show (s'.addRules rest).1.nameOf kind =
        (lastName ([.addRule kind' name pattern] ++ s'.keptRules rest) kind).or _
      rw [ih, nameOf_of_addRule added, lastName_append, lastName_singleton, Option.or_assoc]
      by_cases same : kind = kind'
      · simp [same]
      · simp [same]

/-- One operation names the kinds of the registrations that are kept of it. -/
theorem nameOf_perform (s : Scanner κ) (op : Operation κ) (kind : κ) :
    (s.perform op).1.nameOf kind = (lastName (s.kept op) kind).or (s.nameOf kind) := by
  cases op with
  | addRule kind' name pattern =>
    rw [← addRules_singleton]
    exact nameOf_addRules s _ kind
  | ignoreRule pattern =>
    rw [kept, perform]
    cases added : s.ignoreRule pattern with
    | error e => rfl
    | ok s' =>
      obtain ⟨p, -, rfl⟩ := register_eq_ok_iff.1 added
      rfl
  | addRules rules => exact nameOf_addRules s rules kind
  | compile => rfl
  | analyse source file => rfl
  | tokenize source file => rfl

/-- **The name of a kind** is the one that the last successful registration of it gave, or else the
name from before. -/
theorem nameOf_after (s : Scanner κ) (ops : List (Operation κ)) (kind : κ) :
    (s.after ops).nameOf kind = (lastName (s.keptOf ops) kind).or (s.nameOf kind) := by
  induction ops generalizing s with
  | nil => rfl
  | cons op ops ih =>
    rw [after_cons, ih, nameOf_perform, keptOf, lastName_append, Option.or_assoc]

/-! ### Rules name their kinds -/

/-- The end kind has its name, and every kind that a rule emits is another one and has a name. -/
structure Named (s : Scanner κ) : Prop where
  finish : s.nameOf endKind = some "END"
  emitted : ∀ kind, .emit kind ∈ s.order → kind ≠ endKind ∧ ∃ name, s.nameOf kind = some name

theorem named_empty : (empty : Scanner κ).Named where
  finish := by simp [nameOf, empty]
  emitted _ mem := absurd mem List.not_mem_nil

/-- **Operations keep kinds named**: a rule that is added names its kind, an ignoring rule has
none. -/
theorem preserved_named : Preserved (Named (κ := κ)) where
  addRule s s' kind name pattern named added := by
    obtain ⟨notEnd, p, -, same⟩ := addRule_eq_ok_iff.1 added
    have names := nameOf_of_addRule added
    refine ⟨?_, fun kind' mem => ?_⟩
    · rw [names, if_neg (Ne.symm notEnd)]
      exact named.finish
    · rw [names]
      by_cases latest : kind' = kind
      · rw [latest, if_pos rfl]
        exact ⟨notEnd, name, rfl⟩
      · rw [if_neg latest]
        rw [same] at mem
        rcases List.mem_append.1 mem with before | added
        · exact named.emitted kind' before
        · exact absurd (Action.emit.inj (List.mem_singleton.1 added)) latest
  ignoreRule s s' pattern named added := by
    obtain ⟨p, -, rfl⟩ := register_eq_ok_iff.1 added
    refine ⟨named.finish, fun kind mem => ?_⟩
    rcases List.mem_append.1 mem with before | added
    · exact named.emitted kind before
    · cases List.mem_singleton.1 added
  compile _ named := ⟨named.finish, named.emitted⟩

/-! ### What a scan shows -/

variable {source file : String}

omit [TokenKind κ] in
/-- A token that a scan shows has been emitted by a rule. -/
theorem Reflects.emit_mem_order {rules : List (Rule κ)} (h : s.Reflects rules)
    {tokens : List (Token κ)} {last : Location}
    (scanned : s.scan source file = .ok (tokens, last)) {t : Token κ} (mem : t ∈ tokens) :
    .emit t.kind ∈ s.order := by
  rw [scan] at scanned
  cases cut : s.automaton.spans 0 .start source.toList with
  | error e => simp [cut] at scanned
  | ok result =>
    obtain ⟨spans, behind⟩ := result
    simp only [cut, Except.ok.injEq, Prod.mk.injEq] at scanned
    obtain ⟨rfl, -⟩ := scanned
    obtain ⟨pieces, cuts, rfl, -⟩ := Dfa.spans_eq_ok_iff.1 cut
    obtain ⟨x, member, shown⟩ := List.mem_filterMap.1 mem
    -- The span of the token is a longest match, and what it counts as is the action of a rule.
    obtain ⟨_, taken⟩ := cuts.exists_next_of_mem (mem_of_mem_layout member)
    obtain ⟨⟨r, listed, action, -⟩, -⟩ := h.verdict_eq_some_iff.1 taken.verdict
    have emits : x.accept = .emit t.kind := by
      rw [tokenOf] at shown
      cases accept : x.accept with
      | ignore => simp [accept] at shown
      | emit kind =>
        simp only [accept, Option.some.injEq] at shown
        rw [← shown]
    rw [h.order, ← emits, ← action]
    exact List.mem_map_of_mem listed

/-- After any life, a token that a scan shows has a proper kind with a name. -/
theorem named_of_scan (ops : List (Operation κ)) {tokens : List (Token κ)} {last : Location}
    (scanned : ((empty : Scanner κ).after ops).scan source file = .ok (tokens, last)) {t : Token κ}
    (mem : t ∈ tokens) :
    t.kind ≠ endKind ∧ ∃ name, ((empty : Scanner κ).after ops).nameOf t.kind = some name := by
  obtain ⟨rules, registered⟩ := Registered.empty.after ops
  have named : ((empty : Scanner κ).after ops).Named := preserved_named.after named_empty ops
  exact named.emitted t.kind (registered.reflects.emit_mem_order scanned mem)

/-- **A stream keeps every token, and every token has a name.**  After any operations, failed ones
included, a source has a stream exactly if it can be analysed, and fails with the same error
otherwise.  The stream holds the tokens of the analysis and behind them one end token, the only
token of its kind.  Listings show each token under the name of its kind and never make up for a
missing one: the end token is called `END`, and any other kind has the name from the last successful
registration of a rule for it. -/
theorem tokenize_keeps_and_names (ops : List (Operation κ)) (source file : String) :
    let s := (empty : Scanner κ).after ops
    let registrations := (empty : Scanner κ).keptOf ops
    (∀ e, s.tokenize source file = .error e ↔ s.analyse source file = .error e) ∧
      (∀ tokens, s.analyse source file = .ok tokens ↔
        ∃ stream, s.tokenize source file = .ok stream ∧
          stream.toList = tokens ++ [stream.endToken]) ∧
      ∀ stream, s.tokenize source file = .ok stream →
        stream.endToken.kind = endKind ∧
        (∀ tokens, stream.toList = tokens ++ [stream.endToken] → ∀ t ∈ tokens, t.kind ≠ endKind) ∧
        ∀ t ∈ stream.toList,
          s.nameOf t.kind = some (Processing.kindName s t) ∧
          (t.kind = endKind → Processing.kindName s t = "END") ∧
          (t.kind ≠ endKind → lastName registrations t.kind = some (Processing.kindName s t)) := by
  intro s registrations
  have named : s.Named := preserved_named.after named_empty ops
  have names (kind : κ) (notEnd : kind ≠ endKind) :
      s.nameOf kind = lastName registrations kind := by
    have fresh : (empty : Scanner κ).nameOf kind = none := by simp [nameOf, empty, notEnd]
    rw [nameOf_after, fresh, Option.or_none]
  cases scanned : s.scan source file with
  | error e =>
    have failed : s.tokenize source file = .error e := by rw [tokenize, scanned]
    have failed' : s.analyse source file = .error e := by rw [analyse, scanned]
    simp [failed, failed']
  | ok result =>
    obtain ⟨tokens, last⟩ := result
    have tokenized : s.tokenize source file = .ok (.ofTokens tokens last) := by
      rw [tokenize, scanned]
    have analysed : s.analyse source file = .ok tokens := by rw [analyse, scanned]
    have shown {t : Token κ} (mem : t ∈ tokens) := named_of_scan ops scanned mem
    have whole := TokenStream.toList_ofTokens (fun t mem => (shown mem).1) last
    refine ⟨by simp [tokenized, analysed], fun tokens' => ?_, fun stream same => ?_⟩
    · simp only [tokenized, analysed, Except.ok.injEq, exists_eq_left', whole,
        List.append_cancel_right_eq]
    · rw [tokenized] at same
      obtain rfl := Except.ok.inj same
      refine ⟨rfl, fun tokens' same t mem => ?_, fun t mem => ?_⟩
      · rw [whole, List.append_cancel_right_eq] at same
        exact (shown (same ▸ mem)).1
      · have some_name : ∃ name, s.nameOf t.kind = some name := by
          rw [whole] at mem
          rcases List.mem_append.1 mem with proper | last
          · exact (shown proper).2
          · rw [List.mem_singleton.1 last]
            exact ⟨_, named.finish⟩
        obtain ⟨name, called⟩ := some_name
        have listed : Processing.kindName s t = name := by rw [Processing.kindName, called]; rfl
        refine ⟨by rw [called, listed], fun isEnd => ?_, fun notEnd => ?_⟩
        · rw [isEnd, named.finish] at called
          rw [listed, ← Option.some.inj called]
        · rw [listed, ← names t.kind notEnd, called]

/-- A kind that is registered twice, under two names, and registrations that fail: one claims the
end kind, one of a list has an unclosed group. -/
def renamed : List (Operation RuleId) :=
  [.addRule ⟨0⟩ "A" "a", .addRule endKind "B" "b", .ignoreRule " ",
    .addRules [(⟨0⟩, "LETTER", "b"), (⟨0⟩, "C", "(")]]

/-- Both letters go by the name that was given last, and the end by its own. -/
theorem tokenize_keeps_and_names_renamed :
    let s := (empty : Scanner RuleId).after renamed
    ∃ stream, s.tokenize "a b" "f" = .ok stream ∧
      stream.toList =
        [⟨⟨0⟩, "a", ⟨0, 1, 1, 1⟩⟩, ⟨⟨0⟩, "b", ⟨2, 1, 3, 1⟩⟩, ⟨endKind, "", ⟨3, 1, 4, 0⟩⟩] ∧
      s.nameOf ⟨0⟩ = some "LETTER" ∧ s.nameOf endKind = some "END" := by
  intro s
  have scanned : s.scan "a b" "f" =
      .ok ([⟨⟨0⟩, "a", ⟨0, 1, 1, 1⟩⟩, ⟨⟨0⟩, "b", ⟨2, 1, 3, 1⟩⟩], ⟨3, 1, 4, 0⟩) := by
    decide +kernel
  have tokenized : s.tokenize "a b" "f" =
      .ok (.ofTokens [⟨⟨0⟩, "a", ⟨0, 1, 1, 1⟩⟩, ⟨⟨0⟩, "b", ⟨2, 1, 3, 1⟩⟩] ⟨3, 1, 4, 0⟩) := by
    rw [tokenize, scanned]
  obtain ⟨-, -, named⟩ := tokenize_keeps_and_names renamed "a b" "f"
  obtain ⟨-, -, names⟩ := named _ tokenized
  have kept : lastName ((empty : Scanner RuleId).keptOf renamed) ⟨0⟩ = some "LETTER" := rfl
  obtain ⟨letter, -, last⟩ := names ⟨⟨0⟩, "a", ⟨0, 1, 1, 1⟩⟩ List.mem_cons_self
  obtain ⟨finish, isEnd, -⟩ := names ⟨endKind, "", ⟨3, 1, 4, 0⟩⟩ (by decide)
  refine ⟨_, tokenized, rfl, ?_, ?_⟩
  · rw [letter, ← last (by decide), kept]
  · rw [finish, isEnd rfl]

end Scanner

end FrontEnd
