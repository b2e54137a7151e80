import FrontEnd.Proofs.Scanner.Names
import FrontEnd.RuleFile.Basic

/-!
# The kinds of a rule file

A rule file names its rules, and a scanner wants kinds.  Which kind a name stands for is decided
while the rules are registered, one after the other, and registration may fail at any of them.

## Main Definitions

* `NamedRule.Readable`, `NamedRule.fault` — whether a rule can be registered, and why not
* `Entry` — a registration: a named pattern, and what is done with its matches
* `Scanner.addEach` — register entries up to the first that fails
* `RuleFile.names` — the distinct names of a rule file
* `RuleFile.entries` — the registrations that a rule file asks for

## Main Results

* `Scanner.addEach_eq` — registration fails with the first pattern that cannot be read
* `Scanner.Registered.foldl_added` — entries become rules of the scanner
* `RuleFile.build_eq` — a rule file is built by registering its entries
* `RuleFile.kindOf_eq_iff` — the kind of a name is the one with its number
* `RuleFile.build_numbers_names` — when a file can be built, and which kinds its names have

## Design Notes

**Numbers never change.**  The names met so far are a front of all distinct names.  So the number
that a name is given when its rule is registered is its place among all of them, whatever comes
later, and the entries of a file can be told beforehand.

**There are fewer names than kinds.**  The last kind is the end kind, and numbers wrap around behind
it.  With as many distinct names as there are kinds, some rule would be given the end kind.
-/

namespace FrontEnd

open Scanner

namespace NamedRule

/-- The pattern of the rule can be read. -/
def Readable (rule : NamedRule) : Prop := ∃ p, Pattern.read rule.pattern = .ok p

/-- Why the rule cannot be registered, if its pattern cannot be read. -/
def fault (rule : NamedRule) : Option RuleError :=
  match Pattern.read rule.pattern with
  | .ok _ => none
  | .error e => some (.invalidPattern rule.name e)

theorem fault_eq_none_iff {rule : NamedRule} : rule.fault = none ↔ rule.Readable := by
  unfold fault Readable
  cases Pattern.read rule.pattern <;> simp

theorem fault_eq_some_iff {rule : NamedRule} {e : RuleError} :
    rule.fault = some e ↔
      ∃ error, Pattern.read rule.pattern = .error error ∧
        e = .invalidPattern rule.name error := by
  unfold fault
  cases Pattern.read rule.pattern <;> simp [eq_comm]

/-- The pattern of a rule that can be read is the one that has been read. -/
theorem Readable.matches_iff {rule : NamedRule} (readable : rule.Readable) {word : List Char} :
    (patternOf rule.pattern).Matches word ↔
      ∃ p, Pattern.read rule.pattern = .ok p ∧ p.Matches word := by
  obtain ⟨p, read⟩ := readable
  simp [patternOf_of_read read, read]

end NamedRule

/-- A registration: a named pattern, and what is done with its matches. -/
structure Entry (κ : Type) extends NamedRule where
  action : Action κ

/-- The rule of a scanner that an entry asks for. -/
def Entry.rule {κ : Type} (entry : Entry κ) : Scanner.Rule κ :=
  ⟨entry.action, patternOf entry.pattern⟩

/-! ### Registering entries -/

namespace Scanner

variable {κ : Type} [DecidableEq κ] [TokenKind κ] {s s' : Scanner κ}

/-- Register an entry. -/
def add (s : Scanner κ) (entry : Entry κ) : Except RuleError (Scanner κ) :=
  match entry.action with
  | .emit kind => s.addRule kind entry.name entry.pattern
  | .ignore => s.register .ignore entry.name entry.pattern

/-- Register entries one after the other, up to the first that fails. -/
def addEach (s : Scanner κ) (entries : List (Entry κ)) : Except RuleError (Scanner κ) :=
  entries.foldlM add s

/-- The scanner with one more entry. -/
def added (s : Scanner κ) (entry : Entry κ) : Scanner κ where
  nfa := s.nfa.compile (patternOf entry.pattern) entry.action
  order := s.order ++ [entry.action]
  names :=
    match entry.action with
    | .emit kind => (kind, entry.name) :: s.names
    | .ignore => s.names
  built := none

/-- An entry for a proper kind is registered exactly if its pattern can be read. -/
theorem add_eq {entry : Entry κ} (proper : entry.action ≠ .emit endKind) :
    s.add entry = entry.fault.elim (.ok (s.added entry)) .error := by
  obtain ⟨⟨name, text⟩, action⟩ := entry
  unfold add added addRule register Nfa.register NamedRule.fault patternOf
  cases action with
  | ignore => cases Pattern.read text <;> rfl
  | emit kind =>
    have free : kind ≠ endKind := fun same => proper (congrArg Action.emit same)
    cases Pattern.read text <;> simp [Except.map, Except.toOption, free]

/-- **Registration fails with the first pattern that cannot be read**, and only then. -/
theorem addEach_eq {entries : List (Entry κ)}
    (proper : ∀ entry ∈ entries, entry.action ≠ .emit endKind) :
    s.addEach entries =
      (entries.findSome? fun entry => entry.fault).elim (.ok (entries.foldl added s)) .error := by
  induction entries generalizing s with
  | nil => rfl
  | cons entry entries ih =>
    obtain ⟨first, later⟩ := List.forall_mem_cons.1 proper
    rw [addEach, List.foldlM_cons, add_eq first, List.findSome?_cons, List.foldl_cons]
    cases entry.fault with
    | some e => rfl
    | none =>
      show (s.added entry).addEach entries = _
      rw [ih later]

/-- Entries that can be read are rules that have been given. -/
theorem Registered.foldl_added {rules : List (Rule κ)} (h : s.Registered rules)
    {entries : List (Entry κ)} (proper : ∀ entry ∈ entries, entry.action ≠ .emit endKind)
    (readable : ∀ entry ∈ entries, entry.Readable) :
    (entries.foldl added s).Registered (rules ++ entries.map Entry.rule) := by
  induction entries generalizing s rules with
  | nil => rwa [List.map_nil, List.append_nil]
  | cons entry entries ih =>
    obtain ⟨first, later⟩ := List.forall_mem_cons.1 proper
    obtain ⟨⟨p, read⟩, readable⟩ := List.forall_mem_cons.1 readable
    have same := patternOf_of_read read
    have step : (s.added entry).Registered (rules ++ [entry.rule]) := by
      obtain ⟨⟨name, text⟩, action⟩ := entry
      rw [Entry.rule, same, added, same]
      cases action with
      | ignore => exact h.ignore read
      | emit kind => exact h.add name (fun same => first (congrArg Action.emit same)) read
    rw [List.foldl_cons, List.map_cons, List.append_cons]
    exact ih step later readable

omit [TokenKind κ] in
/-- A kind that no entry is for keeps its name. -/
theorem nameOf_foldl_added_of_forall {entries : List (Entry κ)} {kind : κ}
    (none : ∀ entry ∈ entries, entry.action ≠ .emit kind) :
    (entries.foldl added s).nameOf kind = s.nameOf kind := by
  induction entries generalizing s with
  | nil => rfl
  | cons entry entries ih =>
    obtain ⟨first, later⟩ := List.forall_mem_cons.1 none
    rw [List.foldl_cons, ih later]
    obtain ⟨⟨name, text⟩, action⟩ := entry
    unfold nameOf added
    cases action with
    | ignore => rfl
    | emit kind' =>
      have other : kind ≠ kind' := fun same => first (congrArg Action.emit same.symm)
      rw [List.lookup_cons, beq_false_of_ne other]

omit [TokenKind κ] in
/-- A kind that entries are for has the name of one of them. -/
theorem exists_nameOf_foldl_added {entries : List (Entry κ)} {kind : κ} {entry : Entry κ}
    (mem : entry ∈ entries) (emits : entry.action = .emit kind) :
    ∃ entry ∈ entries, entry.action = .emit kind ∧
      (entries.foldl added s).nameOf kind = some entry.name := by
  induction entries generalizing s entry with
  | nil => cases mem
  | cons first later ih =>
    rw [List.foldl_cons]
    by_cases again : ∃ entry ∈ later, entry.action = .emit kind
    · obtain ⟨entry', mem', emits'⟩ := again
      obtain ⟨named, listed, same, called⟩ := ih (s := s.added first) mem' emits'
      exact ⟨named, List.mem_cons_of_mem first listed, same, called⟩
    · -- The last entry for the kind is the first one in the list.
      have none : ∀ entry ∈ later, entry.action ≠ .emit kind := by simpa using again
      obtain rfl : entry = first := by
        rcases List.mem_cons.1 mem with same | behind
        · exact same
        · exact absurd emits (none entry behind)
      refine ⟨entry, List.mem_cons_self, emits, ?_⟩
      obtain ⟨⟨name, text⟩, action⟩ := entry
      subst emits
      rw [nameOf_foldl_added_of_forall none, nameOf, added, List.lookup_cons_self]

end Scanner

/-! ### The entries of a rule file -/

namespace RuleFile

/-- The distinct names of a rule file, in the order in which they first appear. -/
def names (file : RuleFile) : List String := (file.rules.map NamedRule.name).eraseDups

/-- The registrations that a rule file asks for: first the patterns to ignore, then the rules, each
for the kind that has the number of its name. -/
def entries (file : RuleFile) : List (Entry RuleId) :=
  file.ignore.map (fun text => ⟨⟨ignoredName, text⟩, .ignore⟩) ++
    file.rules.map fun rule => ⟨rule, .emit (kindOf file.names rule.name)⟩

/-- All named patterns of a rule file, in the order in which they are registered. -/
def listed (file : RuleFile) : List NamedRule :=
  file.ignore.map (fun text => ⟨ignoredName, text⟩) ++ file.rules

theorem map_entries (file : RuleFile) : file.entries.map Entry.toNamedRule = file.listed := by
  unfold entries listed
  rw [List.map_append, List.map_map, List.map_map]
  exact congrArg _ (List.map_id file.rules)

/-! #### Names -/

variable {known names : List String}

theorem mem_noteName (known : List String) (name : String) : name ∈ noteName known name := by
  unfold noteName
  split
  · assumption
  · exact List.mem_append_right known List.mem_cons_self

theorem prefix_noteName (known : List String) (name : String) : known <+: noteName known name := by
  unfold noteName
  split
  · exact List.prefix_rfl
  · exact List.prefix_append known [name]

/-- Names that are met are put behind the known ones. -/
theorem prefix_foldl_noteName (known names : List String) :
    known <+: names.foldl noteName known := by
  induction names generalizing known with
  | nil => exact List.prefix_rfl
  | cons name names ih => exact (prefix_noteName known name).trans (ih _)

theorem nodup_foldl_noteName (distinct : known.Nodup) (names : List String) :
    (names.foldl noteName known).Nodup := by
  induction names generalizing known with
  | nil => exact distinct
  | cons name names ih =>
    refine ih ?_
    unfold noteName
    split
    · exact distinct
    · next new =>
      rw [← List.concat_eq_append]
      exact distinct.concat new

/-- The names met in a list are its distinct names, apart from those that were known. -/
theorem foldl_noteName (known names : List String) :
    names.foldl noteName known = known ++ (names.removeAll known).eraseDups := by
  induction names generalizing known with
  | nil => simp [List.removeAll]
  | cons name names ih =>
    rw [List.foldl_cons, ih]
    by_cases old : name ∈ known
    · simp [noteName, old, List.removeAll]
    · have first : (name :: names).removeAll known = name :: names.removeAll known := by
        simp [List.removeAll, old]
      have later : names.removeAll (known ++ [name]) =
          (names.removeAll known).filter fun other => !other == name := by
        unfold List.removeAll
        rw [List.filter_filter]
        exact List.filter_congr fun other _ => by simp [Bool.and_comm, Bool.beq_eq_decide_eq]
      rw [noteName, if_neg old, first, later, List.eraseDups_cons, List.append_assoc]
      rfl

variable {file : RuleFile}

theorem names_eq (file : RuleFile) :
    file.names = (file.rules.map NamedRule.name).foldl noteName [] := by
  rw [foldl_noteName, List.nil_append, RuleFile.names, List.removeAll_nil]

theorem nodup_names (file : RuleFile) : file.names.Nodup := by
  rw [names_eq]
  exact nodup_foldl_noteName .nil _

theorem mem_names {name : String} : name ∈ file.names ↔ ∃ rule ∈ file.rules, rule.name = name := by
  rw [RuleFile.names, List.mem_eraseDups, List.mem_map]

/-! #### Building -/

theorem addIgnored_eq (s : Scanner RuleId) (texts : List String) :
    addIgnored s texts = s.addEach (texts.map fun text => ⟨⟨ignoredName, text⟩, .ignore⟩) := by
  induction texts generalizing s with
  | nil => rfl
  | cons text texts ih =>
    rw [addIgnored, List.map_cons, addEach, List.foldlM_cons]
    show _ = (s.ignoreRule text).bind fun s' => s'.addEach _
    cases s.ignoreRule text with
    | error e => rfl
    | ok s' => exact ih s'

/-- A number is given to a name once and for all. -/
theorem addNamed_eq (s : Scanner RuleId) (known : List String) (rules : List NamedRule) :
    addNamed s known rules =
      s.addEach (rules.map fun rule =>
        ⟨rule, .emit (kindOf ((rules.map NamedRule.name).foldl noteName known) rule.name)⟩) := by
  induction rules generalizing s known with
  | nil => rfl
  | cons rule rules ih =>
    -- The names known once the rule has been met are a front of all names.
    have number : kindOf (noteName known rule.name) rule.name =
        kindOf (((rule :: rules).map NamedRule.name).foldl noteName known) rule.name := by
      obtain ⟨more, whole⟩ :=
        prefix_foldl_noteName (noteName known rule.name) (rules.map NamedRule.name)
      rw [List.map_cons, List.foldl_cons, ← whole, kindOf, kindOf,
        List.idxOf_append_of_mem (mem_noteName known rule.name)]
    rw [addNamed, number]
    show _ = (s.addRule _ rule.name rule.pattern).bind fun s' => s'.addEach _
    cases s.addRule _ rule.name rule.pattern with
    | error e => rfl
    | ok s' => exact ih s' _

/-- **A rule file is built by registering its entries.** -/
theorem build_eq (file : RuleFile) :
    file.build = ((Scanner.empty : Scanner RuleId).addEach file.entries).mapError .rule := by
  rw [build, entries, addEach, List.foldlM_append, names_eq]
  show _ = ((Scanner.empty.addEach _).bind fun s => s.addEach _).mapError Error.rule
  rw [← addIgnored_eq]
  cases addIgnored Scanner.empty file.ignore with
  | error e => rfl
  | ok s =>
    simp only [addNamed_eq]
    show _ = (s.addEach _).mapError Error.rule
    generalize s.addEach _ = made
    cases made <;> rfl

/-! #### Kinds -/

section Few

variable (few : file.names.length < UInt32.size - 1)
include few

/-- The number of a name is its place among the distinct names. -/
theorem toNat_kindOf {name : String} (mem : name ∈ file.names) :
    (kindOf file.names name).index.toNat = file.names.idxOf name := by
  have inside := List.idxOf_lt_length_iff.2 mem
  rw [kindOf, UInt32.toNat_ofNat_of_lt' (by omega)]

/-- **The kind of a name is the one with its number.** -/
theorem kindOf_eq_iff {name : String} (mem : name ∈ file.names) {id : RuleId} :
    kindOf file.names name = id ↔ file.names[id.index.toNat]? = some name := by
  constructor
  · rintro rfl
    rw [toNat_kindOf few mem, List.getElem?_idxOf mem]
  · intro found
    obtain ⟨inside, rfl⟩ := List.getElem?_eq_some_iff.1 found
    rw [kindOf, (nodup_names file).idxOf_getElem, UInt32.ofNat_toNat]

/-- No name has the end kind. -/
theorem proper_entries : ∀ entry ∈ file.entries, entry.action ≠ .emit endKind := by
  intro entry mem
  rcases List.mem_append.1 mem with ignored | named
  · obtain ⟨text, -, rfl⟩ := List.mem_map.1 ignored
    rintro ⟨⟩
  · obtain ⟨rule, listed, rfl⟩ := List.mem_map.1 named
    intro same
    have name : rule.name ∈ file.names := mem_names.2 ⟨rule, listed, rfl⟩
    have found := (kindOf_eq_iff few name).1 (Action.emit.inj same)
    obtain ⟨inside, -⟩ := List.getElem?_eq_some_iff.1 found
    exact absurd inside (Nat.not_lt.2 (Nat.le_of_lt few))

/-- An entry is for a kind exactly if it is a rule whose name has the number of the kind. -/
theorem exists_entry_iff {id : RuleId} {P : NamedRule → Prop} :
    (∃ entry ∈ file.entries, entry.action = .emit id ∧ P entry.toNamedRule) ↔
      ∃ rule ∈ file.rules, file.names[id.index.toNat]? = some rule.name ∧ P rule := by
  simp only [entries, List.mem_append, List.mem_map, or_and_right, exists_or]
  constructor
  · rintro (⟨entry, ⟨text, -, rfl⟩, emits, -⟩ | ⟨entry, ⟨rule, listed, rfl⟩, emits, holds⟩)
    · cases emits
    · exact ⟨rule, listed, (kindOf_eq_iff few (mem_names.2 ⟨rule, listed, rfl⟩)).1
        (Action.emit.inj emits), holds⟩
  · rintro ⟨rule, listed, found, holds⟩
    exact .inr ⟨_, ⟨rule, listed, rfl⟩, congrArg Action.emit
      ((kindOf_eq_iff few (mem_names.2 ⟨rule, listed, rfl⟩)).2 found), holds⟩

/-- The names of kinds once all entries have been registered. -/
theorem nameOf_entries {id : RuleId} (notEnd : id ≠ endKind) :
    (file.entries.foldl added Scanner.empty).nameOf id = file.names[id.index.toNat]? := by
  cases found : file.names[id.index.toNat]? with
  | none =>
    have fresh : (Scanner.empty : Scanner RuleId).nameOf id = none := by
      simp [nameOf, Scanner.empty, notEnd]
    rw [nameOf_foldl_added_of_forall, fresh]
    intro entry mem emits
    obtain ⟨rule, -, some, -⟩ := (exists_entry_iff few (P := fun _ => True)).1
      ⟨entry, mem, emits, trivial⟩
    cases found.symm.trans some
  | some name =>
    obtain ⟨rule, listed, rfl⟩ := mem_names.1 (List.mem_of_getElem? found)
    obtain ⟨entry, mem, emits, -⟩ := (exists_entry_iff few (P := fun _ => True)).2
      ⟨rule, listed, found, trivial⟩
    -- The name may have been given by another entry, but that is for the same number.
    obtain ⟨named, member, same, called⟩ :=
      exists_nameOf_foldl_added (s := Scanner.empty) mem emits
    obtain ⟨rule', -, found', rfl⟩ := (exists_entry_iff few (P := (· = named.toNamedRule))).1
      ⟨named, member, same, rfl⟩
    rw [called, ← found', found]

/-- The end keeps its name. -/
theorem nameOf_endKind :
    (file.entries.foldl added Scanner.empty).nameOf endKind = some "END" := by
  rw [nameOf_foldl_added_of_forall (proper_entries few)]
  simp [nameOf, Scanner.empty]

/-- A rule file is built up to the first pattern that cannot be read. -/
theorem build_eq_elim :
    file.build = (file.listed.findSome? NamedRule.fault).elim
      (.ok (file.entries.foldl added .empty)) fun e => .error (.rule e) := by
  have first : file.entries.findSome? (fun entry => entry.fault) =
      file.listed.findSome? NamedRule.fault := by
    rw [← map_entries, List.findSome?_map]
    rfl
  rw [build_eq, addEach_eq (proper_entries few), first]
  cases file.listed.findSome? NamedRule.fault <;> rfl

/-- A rule file that can be built yields the scanner with all its entries, which can be read. -/
theorem eq_of_build_eq_ok {s : Scanner RuleId} (built : file.build = .ok s) :
    s = file.entries.foldl added .empty ∧ ∀ entry ∈ file.entries, entry.Readable := by
  rw [build_eq_elim few] at built
  cases failing : file.listed.findSome? NamedRule.fault with
  | some e => simp [failing] at built
  | none =>
    rw [failing] at built
    refine ⟨(Except.ok.inj built).symm, fun entry mem => ?_⟩
    rw [← map_entries] at failing
    exact NamedRule.fault_eq_none_iff.1
      (List.findSome?_eq_none_iff.1 failing _ (List.mem_map_of_mem mem))

/-- Its rules are the entries. -/
theorem registered_of_build_eq_ok {s : Scanner RuleId} (built : file.build = .ok s) :
    s.Registered (file.entries.map Entry.rule) := by
  obtain ⟨rfl, readable⟩ := eq_of_build_eq_ok few built
  exact Registered.empty.foldl_added (proper_entries few) readable

/-- A word is recognised for what an entry does that has a pattern with this word. -/
theorem recognises_iff_of_build_eq_ok {s : Scanner RuleId} (built : file.build = .ok s)
    {word : List Char} {action : Action RuleId} :
    s.nfa.Recognises word action ↔
      ∃ entry ∈ file.entries, entry.action = action ∧
        ∃ p, Pattern.read entry.pattern = .ok p ∧ p.Matches word := by
  rw [(registered_of_build_eq_ok few built).reflects.recognises]
  simp only [List.mem_map, exists_exists_and_eq_and]
  refine exists_congr fun entry => and_congr_right fun mem => and_congr_right fun _ => ?_
  exact ((eq_of_build_eq_ok few built).2 entry mem).matches_iff

end Few

/-- **The kinds of a rule file are its names.**  A rule file with fewer distinct names than there
are kinds can be built exactly if all its patterns can be read.  Otherwise the error is that of the
first pattern that cannot, in the order of registration, under the name of its rule.  Once built,
the scanner has as many rules as there are patterns, in their order, and every kind goes by the name
that has its number: kind `n` by the distinct name number `n`, the end by its own name, and any
other kind by none.  The matches of a rule count for the kind of its name, and no rule is given the
end kind. -/
theorem build_numbers_names (file : RuleFile) (few : file.names.length < UInt32.size - 1) :
    ((∃ s, file.build = .ok s) ↔ ∀ rule ∈ file.listed, rule.Readable) ∧
      (∀ e, file.build = .error e ↔
        ∃ front rule back fault, file.listed = front ++ rule :: back ∧
          (∀ earlier ∈ front, earlier.Readable) ∧ Pattern.read rule.pattern = .error fault ∧
          e = .rule (.invalidPattern rule.name fault)) ∧
      (∀ rule ∈ file.rules, kindOf file.names rule.name ≠ endKind) ∧
      ∀ s, file.build = .ok s →
        s.ruleCount = file.ignore.length + file.rules.length ∧
        s.order = file.ignore.map (fun _ => Action.ignore) ++
          file.rules.map (fun rule => Action.emit (kindOf file.names rule.name)) ∧
        s.nameOf endKind = some "END" ∧
        (∀ id, id ≠ endKind → s.nameOf id = file.names[id.index.toNat]?) ∧
        (∀ word, s.nfa.Recognises word .ignore ↔
          ∃ text ∈ file.ignore, ∃ p, Pattern.read text = .ok p ∧ p.Matches word) ∧
        ∀ word id, s.nfa.Recognises word (.emit id) ↔
          ∃ rule ∈ file.rules, file.names[id.index.toNat]? = some rule.name ∧
            ∃ p, Pattern.read rule.pattern = .ok p ∧ p.Matches word := by
  have decided := build_eq_elim few
  have proper := proper_entries few
  refine ⟨?_, fun e => ?_, fun rule listed => ?_, fun s built => ?_⟩
  · simp only [← NamedRule.fault_eq_none_iff, ← List.findSome?_eq_none_iff, decided]
    cases file.listed.findSome? NamedRule.fault <;> simp
  · have first : file.build = .error e ↔
        ∃ error, file.listed.findSome? NamedRule.fault = some error ∧ e = .rule error := by
      rw [decided]
      cases file.listed.findSome? NamedRule.fault <;> simp [eq_comm]
    simp only [first, List.findSome?_eq_some_iff, NamedRule.fault_eq_some_iff,
      NamedRule.fault_eq_none_iff]
    constructor
    · rintro ⟨_, ⟨front, rule, back, split, ⟨fault, unread, rfl⟩, readable⟩, rfl⟩
      exact ⟨front, rule, back, fault, split, readable, unread, rfl⟩
    · rintro ⟨front, rule, back, fault, split, readable, unread, rfl⟩
      exact ⟨_, ⟨front, rule, back, split, ⟨fault, unread, rfl⟩, readable⟩, rfl⟩
  · intro same
    exact proper ⟨rule, .emit (kindOf file.names rule.name)⟩
      (List.mem_append_right _ (List.mem_map_of_mem listed)) (congrArg Action.emit same)
  · have order : s.order = (file.entries.map Entry.rule).map Rule.action :=
      (registered_of_build_eq_ok few built).reflects.order
    rw [List.map_map, entries, List.map_append, List.map_map, List.map_map] at order
    have recognised (word : List Char) (action : Action RuleId) :=
      @recognises_iff_of_build_eq_ok _ few _ built word action
    refine ⟨?_, order, ?_, fun id notEnd => ?_, fun word => ?_, fun word id => ?_⟩
    · rw [ruleCount, order, List.length_append, List.length_map, List.length_map]
    · rw [(eq_of_build_eq_ok few built).1, nameOf_endKind few]
    · rw [(eq_of_build_eq_ok few built).1, nameOf_entries few notEnd]
    · rw [recognised]
      simp [entries, or_and_right, exists_or]
    · rw [recognised]
      exact exists_entry_iff few (P := fun rule =>
        ∃ p, Pattern.read rule.pattern = .ok p ∧ p.Matches word)

/-- Two names, the first of them for two patterns, and behind them the given rules. -/
def twoNames (more : List NamedRule) : RuleFile where
  ignore := [" "]
  rules := [⟨"A", "a"⟩, ⟨"B", "b"⟩, ⟨"A", "[c-e]"⟩] ++ more

/-- The kinds are `0` and `1`, and `d` counts for the first of them.  With two more rules that
cannot be read, the first of these is blamed. -/
theorem build_numbers_names_twoNames :
    (∃ s, (twoNames []).build = .ok s ∧ s.ruleCount = 4 ∧ s.nameOf ⟨1⟩ = some "B" ∧
      s.nameOf ⟨2⟩ = none ∧ s.nameOf endKind = some "END" ∧
      s.nfa.Recognises ['d'] (.emit ⟨0⟩)) ∧
    (twoNames [⟨"C", "("⟩, ⟨"D", "[]"⟩]).build =
      .error (.rule (.invalidPattern "C" ⟨"(", 1, .openGroup⟩)) := by
  have a : Pattern.read "a" = .ok (.char 'a' .done) := rfl
  have b : Pattern.read "b" = .ok (.char 'b' .done) := rfl
  have letters : Pattern.read "[c-e]" = .ok (.oneOf [.range 'c' 'e'] .done) := rfl
  have blank : Pattern.read " " = .ok (.char ' ' .done) := rfl
  have readable : ∀ rule ∈ (twoNames []).listed, rule.Readable := by
    simp [twoNames, listed, NamedRule.Readable, a, b, letters, blank]
  constructor
  · have few : (twoNames []).names.length < UInt32.size - 1 := by decide
    obtain ⟨built, -, -, shown⟩ := build_numbers_names (twoNames []) few
    obtain ⟨s, done⟩ := built.2 readable
    obtain ⟨count, -, last, names, -, words⟩ := shown s done
    refine ⟨s, done, count, names _ (by decide), names _ (by decide), last, ?_⟩
    exact (words ['d'] ⟨0⟩).2 ⟨⟨"A", "[c-e]"⟩, by decide, by decide, _, letters, by decide +kernel⟩
  · have few : (twoNames [⟨"C", "("⟩, ⟨"D", "[]"⟩]).names.length < UInt32.size - 1 := by decide
    obtain ⟨-, failed, -⟩ := build_numbers_names (twoNames [⟨"C", "("⟩, ⟨"D", "[]"⟩]) few
    exact (failed _).2 ⟨(twoNames []).listed, _, [⟨"D", "[]"⟩], _, rfl, readable, rfl, rfl⟩

end RuleFile

end FrontEnd
