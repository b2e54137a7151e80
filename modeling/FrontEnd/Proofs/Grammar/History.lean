import FrontEnd.Grammar.Operation
import Mathlib.Logic.Basic

/-!
# The history of an arena

The drafts of an arena come and go, and so do the grammars built from them.  The events so far tell
which rules there are, how they have been defined, and which drafts are left.

## Main Definitions

* `Arena.Event`, `Arena.History` — operations with their replies, and the arenas they lead to
* `Arena.Alive`, `Arena.Live` — a draft or its grammar, or a rule, is still there
* `Arena.Declared`, `Arena.Defined`, `Arena.Built` — what has happened to rules and drafts
* `Arena.Mirrors` — what a history says about the slots and the drafts of its arena
* `Arena.map`, `Arena.Event.map` — the same arena, and the same event, with other definitions

## Main Results

* `Arena.define_eq_ok_iff`, `Arena.effect_of_define`, `Arena.build_cases` — what definitions and
  builds do to an arena
* `Arena.History.mirrors` — a history tells how slots and drafts are
* `Arena.History.map` — a history does not depend on the values of the rules

## Design Notes

**Events, not states.**  Whether a rule lives and how it is defined is read off the events alone:
which draft has declared it, which definition has succeeded, and whether the draft or its grammar
has ended since.

**Definitions are carried along.**  No operation runs a definition or looks into it.  So a history
stays one when all definitions are replaced, even by definitions of other values.

**Most events are quiet.**  Only beginning, declaring and defining change what there is.  Every
other event at most changes the standing of one draft.
-/

namespace FrontEnd.Arena

variable {κ ν : Type}

/-! ### Histories -/

/-- An operation and what came of it. -/
structure Event (κ ν : Type) where
  operation : Operation κ ν
  reply : Reply κ ν

/-- The events that lead from an arena without drafts to another one. -/
inductive History : List (Event κ ν) → Arena κ ν → Prop where
  | empty : History [] .empty
  | perform {events : List (Event κ ν)} {a : Arena κ ν} (before : History events a)
      (op : Operation κ ν) (allowed : a.Allowed op) :
      History (events ++ [⟨op, (a.perform op).2⟩]) (a.perform op).1

/-- After an event, neither a draft nor a grammar built from it is left. -/
def Event.Ends (d : Nat) : Event κ ν → Prop
  | ⟨.drop d', _⟩ => d' = d
  | ⟨.dropBuilt d', _⟩ => d' = d
  | ⟨.build d' _, .built (.error _)⟩ => d' = d
  | _ => False

/-- An event that neither begins a draft nor declares or defines a rule. -/
def Event.Quiet : Event κ ν → Prop
  | ⟨.begin, _⟩ => False
  | ⟨.declare _ _, _⟩ => False
  | ⟨.define _ _ _, .defined (.ok ())⟩ => False
  | _ => True

/-- Of two declarations, the first one gives the smaller number. -/
def Event.NumbersBefore (e e' : Event κ ν) : Prop :=
  ∀ n d name n' d' name', e = ⟨.declare d name, .declared n⟩ →
    e' = ⟨.declare d' name', .declared n'⟩ → n < n'

section Events

variable (events : List (Event κ ν))

/-- A draft has begun. -/
def Begun (d : Nat) : Prop := ⟨.begin, .begun d⟩ ∈ events

/-- A draft, or the grammar built from it, has ended. -/
def Ended (d : Nat) : Prop := ∃ e ∈ events, e.Ends d

/-- A draft, or the grammar built from it, is still there. -/
def Alive (d : Nat) : Prop := Begun events d ∧ ¬Ended events d

/-- A rule has been declared in a draft. -/
def Declared (n d : Nat) (name : String) : Prop := ⟨.declare d name, .declared n⟩ ∈ events

/-- A rule has been defined. -/
def Defined (n : Nat) (definition : Definition κ (Handle ν) ν) : Prop :=
  ∃ through, ⟨.define through n definition, .defined (.ok ())⟩ ∈ events

/-- A draft has been turned into a grammar. -/
def Built (d : Nat) (top : Definition κ (Handle ν) ν) : Prop :=
  ⟨.build d top, .built (.ok ⟨d, top⟩)⟩ ∈ events

/-- The draft that has declared a rule, or the grammar built from it, is still there. -/
def Live (n : Nat) : Prop := ∃ d name, Declared events n d name ∧ Alive events d

/-- A handle of a rule that a draft has declared. -/
def Owns (d : Nat) : {α : Type} → Handle ν α → Prop
  | _, .mk n => ∃ name, Declared events n d name

end Events

/-- The draft and the name of a declared rule. -/
def declaration? (a : Arena κ ν) (n : Nat) : Option (Nat × String) :=
  a.slots[n]?.map fun slot => (slot.draft, slot.name)

/-- The definition that a rule has been given. -/
def definition? (a : Arena κ ν) (n : Nat) : Option (Definition κ (Handle ν) ν) :=
  a.slots[n]?.bind Slot.definition

/-- What a history says about the slots and the drafts of its arena. -/
structure Mirrors (events : List (Event κ ν)) (a : Arena κ ν) : Prop where
  declared : ∀ n d name, a.declaration? n = some (d, name) ↔ Declared events n d name
  defined : ∀ n x, a.definition? n = some x ↔ Defined events n x
  begun : ∀ d, d < a.drafts.size ↔ Begun events d
  ended : ∀ d, a.drafts[d]? = some .dropped ↔ Ended events d
  /-- A draft that has been turned into a grammar is used up. -/
  built : ∀ d top, Built events d top →
    a.drafts[d]? = some .built ∨ a.drafts[d]? = some .dropped
  /-- All rules of a grammar are defined. -/
  complete : ∀ n d name, Declared events n d name → a.drafts[d]? = some .built →
    ∃ x, Defined events n x
  /-- Rules are numbered in the order of their declaration. -/
  ordered : events.Pairwise Event.NumbersBefore

/-! ### One more event -/

section Snoc

variable {events : List (Event κ ν)} {e : Event κ ν} {n d : Nat} {name : String}
  {definition top : Definition κ (Handle ν) ν}

@[simp] theorem begun_snoc : Begun (events ++ [e]) d ↔ Begun events d ∨ e = ⟨.begin, .begun d⟩ := by
  simp [Begun, eq_comm]

@[simp] theorem ended_snoc : Ended (events ++ [e]) d ↔ Ended events d ∨ e.Ends d := by
  simp [Ended, or_and_right, exists_or]

@[simp] theorem declared_snoc :
    Declared (events ++ [e]) n d name ↔
      Declared events n d name ∨ e = ⟨.declare d name, .declared n⟩ := by
  simp [Declared, eq_comm]

@[simp] theorem defined_snoc :
    Defined (events ++ [e]) n definition ↔
      Defined events n definition ∨
        ∃ through, e = ⟨.define through n definition, .defined (.ok ())⟩ := by
  simp [Defined, exists_or, eq_comm]

@[simp] theorem built_snoc :
    Built (events ++ [e]) d top ↔
      Built events d top ∨ e = ⟨.build d top, .built (.ok ⟨d, top⟩)⟩ := by
  simp [Built, eq_comm]

theorem pairwise_snoc (ordered : events.Pairwise Event.NumbersBefore)
    (last : ∀ e' ∈ events, e'.NumbersBefore e) :
    (events ++ [e]).Pairwise Event.NumbersBefore := by
  refine List.pairwise_append.2 ⟨ordered, List.pairwise_singleton _ _, ?_⟩
  rintro e' before _ (_ | _)
  · exact last e' before
  · contradiction

end Snoc

/-! ### What an operation changes -/

section Effects

variable {a a' : Arena κ ν} {n d : Nat} {name : String}

@[simp] theorem declaration?_begin (a : Arena κ ν) : a.begin.declaration? = a.declaration? := rfl

@[simp] theorem definition?_begin (a : Arena κ ν) : a.begin.definition? = a.definition? := rfl

/-- Only the new draft stands as one. -/
theorem drafts_begin_eq_some_iff {standing : Standing} (other : standing ≠ .drafting) :
    a.begin.drafts[d]? = some standing ↔ a.drafts[d]? = some standing := by
  rw [begin, Array.getElem?_push]
  by_cases new : d = a.drafts.size
  · rw [if_pos new, new, Array.getElem?_eq_none (Nat.le_refl _)]
    simp [other.symm]
  · rw [if_neg new]

@[simp] theorem drafts_declare (a : Arena κ ν) (d : Nat) (name : String) :
    (a.declare d name).drafts = a.drafts := rfl

theorem declaration?_declare (a : Arena κ ν) (d : Nat) (name : String) (n : Nat) :
    (a.declare d name).declaration? n =
      if n = a.slots.size then some (d, name) else a.declaration? n := by
  rw [declaration?, declaration?, declare, Array.getElem?_push]
  split <;> rfl

@[simp] theorem definition?_declare (a : Arena κ ν) (d : Nat) (name : String) (n : Nat) :
    (a.declare d name).definition? n = a.definition? n := by
  rw [definition?, definition?, declare, Array.getElem?_push]
  split
  · rename_i new
    rw [new, Array.getElem?_eq_none (Nat.le_refl _)]
    rfl
  · rfl

/-- A rule that has been declared has a slot. -/
theorem lt_size_slots (h : a.declaration? n = some (d, name)) : n < a.slots.size := by
  refine Nat.lt_of_not_le fun beyond => ?_
  rw [declaration?, Array.getElem?_eq_none beyond] at h
  cases h

/-- A rule is behind its handle exactly as long as the draft that has declared it stands. -/
theorem slot?_eq_some_iff {slot : Slot κ ν} :
    a.slot? n = some slot ↔ a.slots[n]? = some slot ∧ a.stands slot.draft = true := by
  rw [slot?, Option.filter_eq_some_iff]

theorem views_of_slot? {slot : Slot κ ν} (h : a.slot? n = some slot) :
    a.definition? n = slot.definition ∧ a.declaration? n = some (slot.draft, slot.name) := by
  have found := (slot?_eq_some_iff.1 h).1
  exact ⟨by rw [definition?, found]; rfl, by rw [declaration?, found]; rfl⟩

/-- Marking a draft changes its standing only. -/
theorem drafts_mark {old : Standing} (found : a.drafts[d]? = some old)
    (standing : Standing) (d' : Nat) :
    (a.mark d standing).drafts[d']? = if d = d' then some standing else a.drafts[d']? := by
  rw [mark, Array.getElem?_modify]
  split
  · rename_i same
    rw [← same, found]
    rfl
  · rfl

@[simp] theorem size_drafts_mark (a : Arena κ ν) (d : Nat) (standing : Standing) :
    (a.mark d standing).drafts.size = a.drafts.size :=
  Array.size_modify

@[simp] theorem declaration?_mark (a : Arena κ ν) (d : Nat) (standing : Standing) :
    (a.mark d standing).declaration? = a.declaration? := rfl

@[simp] theorem definition?_mark (a : Arena κ ν) (d : Nat) (standing : Standing) :
    (a.mark d standing).definition? = a.definition? := rfl

/-- A definition that succeeds is the first one of a rule that stands. -/
theorem define_eq_ok_iff {x : Definition κ (Handle ν) ν} :
    a.define n x = .ok a' ↔ (∃ slot, a.slot? n = some slot ∧ slot.definition = none) ∧
      a' = { a with slots := a.slots.modify n fun slot => { slot with definition := some x } } := by
  rw [define]
  cases a.slot? n with
  | none => simp
  | some slot =>
    cases given : slot.definition with
    | none => simp [given, eq_comm]
    | some y => simp [given]

/-- A definition that succeeds changes the definition of this rule and nothing else. -/
theorem effect_of_define {x : Definition κ (Handle ν) ν} (h : a.define n x = .ok a') :
    a.definition? n = none ∧ a'.drafts = a.drafts ∧ a'.declaration? = a.declaration? ∧
      ∀ m, a'.definition? m = if n = m then some x else a.definition? m := by
  obtain ⟨⟨slot, here, undefined⟩, rfl⟩ := define_eq_ok_iff.1 h
  have found := (slot?_eq_some_iff.1 here).1
  refine ⟨by rw [definition?, found]; exact undefined, rfl, ?_, ?_⟩
  · funext m
    rw [declaration?, declaration?, Array.getElem?_modify]
    split
    · rw [Option.map_map]
      rfl
    · rfl
  · intro m
    rw [definition?, definition?, Array.getElem?_modify]
    split
    · rename_i same
      rw [← same, found]
      rfl
    · rfl

theorem declaration?_eq_some_iff :
    a.declaration? n = some (d, name) ↔
      ∃ slot, a.slots[n]? = some slot ∧ slot.draft = d ∧ slot.name = name := by
  simp [declaration?]

/-- Building goes by the first rule of the draft that is not defined. -/
theorem build_cases (a : Arena κ ν) (d : Nat) :
    (a.build d = (a.mark d .built, .ok ()) ∧
      ∀ n name, a.declaration? n = some (d, name) → ∃ x, a.definition? n = some x) ∨
    ∃ n name, a.build d = (a.mark d .dropped, .error (.undefined name)) ∧
      a.declaration? n = some (d, name) ∧ a.definition? n = none ∧
      ∀ m < n, ∀ name', a.declaration? m = some (d, name') → ∃ x, a.definition? m = some x := by
  have view {n : Nat} (slot : Slot κ ν) (found : a.slots[n]? = some slot) :
      a.definition? n = slot.definition := by rw [definition?, found]; rfl
  rw [build, slotsOf, List.find?_filter]
  cases first : a.slots.toList.find? fun slot =>
      decide (decide (slot.draft = d) = true ∧ slot.definition.isNone = true) with
  | none =>
    refine .inl ⟨rfl, fun n name declared => ?_⟩
    obtain ⟨slot, found, own, -⟩ := declaration?_eq_some_iff.1 declared
    have member : slot ∈ a.slots.toList := Array.mem_toList_iff.2 (Array.mem_of_getElem? found)
    have given := List.find?_eq_none.1 first slot member
    rw [view slot found]
    refine Option.ne_none_iff_exists'.1 ?_
    simpa [own] using given
  | some slot =>
    obtain ⟨this, n, bound, found, before⟩ := List.find?_eq_some_iff_getElem.1 first
    obtain ⟨own, undefined⟩ := of_decide_eq_true this
    have found : a.slots[n]? = some slot := by
      rw [← found, Array.getElem_toList, Array.getElem?_eq_getElem]
    refine .inr ⟨n, slot.name, rfl, ?_, ?_, fun m lt name' declared => ?_⟩
    · exact declaration?_eq_some_iff.2 ⟨slot, found, of_decide_eq_true own, rfl⟩
    · rw [view slot found]
      exact Option.isNone_iff_eq_none.1 undefined
    · obtain ⟨slot', found', own', -⟩ := declaration?_eq_some_iff.1 declared
      obtain ⟨bound', same⟩ := Array.getElem?_eq_some_iff.1 found'
      have given := before m lt
      rw [Array.getElem_toList, same] at given
      rw [view slot' found']
      refine Option.ne_none_iff_exists'.1 ?_
      simpa [own'] using given

end Effects

namespace Mirrors

variable {events : List (Event κ ν)} {a a' : Arena κ ν}

theorem empty : Mirrors ([] : List (Event κ ν)) .empty where
  declared n d name := by simp [declaration?, Arena.empty, Declared]
  defined n x := by simp [definition?, Arena.empty, Defined]
  begun d := by simp [Arena.empty, Begun]
  ended d := by simp [Arena.empty, Ended]
  built d top built := by simp [Built] at built
  complete n d name declared := by simp [Declared] at declared
  ordered := .nil

theorem begin (h : Mirrors events a) :
    Mirrors (events ++ [⟨.begin, .begun a.drafts.size⟩]) a.begin where
  declared n d name := by simpa using h.declared n d name
  defined n x := by simpa using h.defined n x
  begun d := by
    simp only [begun_snoc, ← h.begun, Event.mk.injEq, Reply.begun.injEq, true_and]
    rw [Arena.begin, Array.size_push]
    omega
  ended d := by
    rw [drafts_begin_eq_some_iff (by decide : Standing.dropped ≠ .drafting), h.ended, ended_snoc]
    exact (or_iff_left id).symm
  built d top built := by
    rw [drafts_begin_eq_some_iff (by decide : Standing.built ≠ .drafting),
      drafts_begin_eq_some_iff (by decide : Standing.dropped ≠ .drafting)]
    exact h.built d top (by simpa using built)
  complete n d name declared built := by
    rw [drafts_begin_eq_some_iff (by decide : Standing.built ≠ .drafting)] at built
    simpa using h.complete n d name (by simpa using declared) built
  ordered := pairwise_snoc h.ordered fun e' _ => by
    rintro n d name n' d' name' - ⟨⟩

theorem declare (h : Mirrors events a) (d : Nat) (name : String)
    (drafting : a.drafts[d]? = some .drafting) :
    Mirrors (events ++ [⟨.declare d name, .declared a.slots.size⟩]) (a.declare d name) where
  declared n d' name' := by
    have old (earlier : a.declaration? n = some (d', name')) : n < a.slots.size :=
      lt_size_slots earlier
    rw [declaration?_declare, declared_snoc, ← h.declared, Event.mk.injEq]
    grind
  defined n x := by simpa using h.defined n x
  begun d := by simpa using h.begun d
  ended d := by simpa [Event.Ends] using h.ended d
  built d top built := h.built d top (by simpa using built)
  complete n d' name' declared built := by
    have other : (⟨.declare d name, .declared a.slots.size⟩ : Event κ ν) ≠
        ⟨.declare d' name', .declared n⟩ := by
      rintro ⟨⟩
      rw [drafts_declare, drafting] at built
      cases built
    have earlier := (declared_snoc.1 declared).resolve_right other
    simpa using h.complete n d' name' earlier built
  ordered := pairwise_snoc h.ordered fun e' mem => by
    rintro n d name n' d' name' rfl ⟨⟩
    exact lt_size_slots ((h.declared n d name).2 mem)

theorem define (h : Mirrors events a) {n : Nat} {x : Definition κ (Handle ν) ν}
    (defined : a.define n x = .ok a') (through : Nat) :
    Mirrors (events ++ [⟨.define through n x, .defined (.ok ())⟩]) a' := by
  obtain ⟨undefined, drafts, declarations, definitions⟩ := effect_of_define defined
  refine ⟨?_, ?_, ?_, ?_, ?_, ?_, ?_⟩
  · intro m d name
    rw [declarations]
    simpa using h.declared m d name
  · intro m y
    have same : (∃ t, (⟨.define through n x, .defined (.ok ())⟩ : Event κ ν) =
        ⟨.define t m y, .defined (.ok ())⟩) ↔ n = m ∧ x = y := by simp
    rw [definitions, defined_snoc, ← h.defined, same]
    grind
  · intro d
    rw [drafts]
    simpa using h.begun d
  · intro d
    rw [drafts]
    simpa [Event.Ends] using h.ended d
  · intro d top built
    rw [drafts]
    exact h.built d top (by simpa using built)
  · intro m d name declared built
    rw [drafts] at built
    obtain ⟨y, earlier⟩ := h.complete m d name (by simpa using declared) built
    exact ⟨y, defined_snoc.2 (.inl earlier)⟩
  · refine pairwise_snoc h.ordered fun e' _ => ?_
    rintro n d name n' d' name' - ⟨⟩

/-- A quiet event leaves rules as they are. -/
theorem quiet (h : Mirrors events a) {e : Event κ ν} (quiet : e.Quiet) (slots : a'.slots = a.slots)
    (size : a'.drafts.size = a.drafts.size)
    (ended : ∀ d, a'.drafts[d]? = some .dropped ↔ Ended events d ∨ e.Ends d)
    (built : ∀ d top, Built (events ++ [e]) d top →
      a'.drafts[d]? = some .built ∨ a'.drafts[d]? = some .dropped)
    (complete : ∀ d, a'.drafts[d]? = some .built → a.drafts[d]? = some .built ∨
      ∀ n name, Declared events n d name → ∃ x, Defined events n x) :
    Mirrors (events ++ [e]) a' := by
  have declarations (n d : Nat) (name : String) :
      Declared (events ++ [e]) n d name ↔ Declared events n d name := by
    refine declared_snoc.trans (or_iff_left ?_)
    rintro rfl
    exact quiet
  have definitions (n : Nat) (x : Definition κ (Handle ν) ν) :
      Defined (events ++ [e]) n x ↔ Defined events n x := by
    refine defined_snoc.trans (or_iff_left ?_)
    rintro ⟨through, rfl⟩
    exact quiet
  refine ⟨?_, ?_, ?_, ?_, built, ?_, ?_⟩
  · intro n d name
    rw [declarations, ← h.declared, declaration?, slots]
    rfl
  · intro n x
    rw [definitions, ← h.defined, definition?, slots]
    rfl
  · intro d
    rw [size, h.begun, begun_snoc]
    refine (or_iff_left ?_).symm
    rintro rfl
    exact quiet
  · exact fun d => (ended d).trans ended_snoc.symm
  · intro n d name declared standing
    have declared := (declarations n d name).1 declared
    obtain ⟨x, defined⟩ := (complete d standing).elim (h.complete n d name declared)
      fun complete => complete n name declared
    exact ⟨x, (definitions n x).2 defined⟩
  · refine pairwise_snoc h.ordered fun e' _ => ?_
    rintro n d name n' d' name' - rfl
    exact quiet.elim

/-- A definition that fails changes nothing. -/
theorem refuse (h : Mirrors events a) (through n : Nat) (x : Definition κ (Handle ν) ν)
    (e : GrammarError) : Mirrors (events ++ [⟨.define through n x, .defined (.error e)⟩]) a := by
  refine h.quiet trivial rfl rfl ?_ ?_ fun _ => .inl
  · exact fun d => (h.ended d).trans (or_iff_left id).symm
  · exact fun d top built => h.built d top (by simpa using built)

/-- The standing of a draft that has not ended changes. -/
theorem mark (h : Mirrors events a) {d : Nat} {old standing : Standing} {e : Event κ ν}
    (found : a.drafts[d]? = some old) (there : old ≠ .dropped) (quiet : e.Quiet)
    (used : standing ≠ .drafting) (ends : ∀ d', e.Ends d' ↔ standing = .dropped ∧ d = d')
    (builds : ∀ d' top, e = ⟨.build d' top, .built (.ok ⟨d', top⟩)⟩ → d = d')
    (complete : standing = .built → ∀ n name, Declared events n d name → ∃ x, Defined events n x) :
    Mirrors (events ++ [e]) (a.mark d standing) := by
  have drafts := drafts_mark found standing
  refine h.quiet quiet rfl (size_drafts_mark a d standing) ?_ ?_ ?_
  · intro d'
    rw [drafts, ends, ← h.ended]
    by_cases same : d = d'
    · subst same
      simp [found, there]
    · simp [same]
  · intro d' top built
    have marked : some standing = some .built ∨ some standing = some .dropped := by
      cases standing with
      | drafting => exact absurd rfl used
      | built => exact .inl rfl
      | dropped => exact .inr rfl
    rw [drafts]
    by_cases same : d = d'
    · rwa [if_pos same]
    · rw [if_neg same]
      refine h.built d' top ((built_snoc.1 built).resolve_right ?_)
      rintro rfl
      exact same (builds d' top rfl)
  · intro d' standing'
    rw [drafts] at standing'
    by_cases same : d = d'
    · subst same
      rw [if_pos rfl, Option.some.injEq] at standing'
      exact .inr (complete standing')
    · rw [if_neg same] at standing'
      exact .inl standing'

/-- An event at which a draft ends, or its grammar. -/
theorem leave (h : Mirrors events a) {d : Nat} {old : Standing} {e : Event κ ν}
    (found : a.drafts[d]? = some old) (there : old ≠ .dropped) (quiet : e.Quiet)
    (ends : ∀ d', e.Ends d' ↔ d = d')
    (unbuilt : ∀ d' top, e ≠ ⟨.build d' top, .built (.ok ⟨d', top⟩)⟩) :
    Mirrors (events ++ [e]) (a.mark d .dropped) := by
  refine h.mark found there quiet (by decide) (fun d' => ?_) ?_ (fun built => ?_)
  · rw [ends, and_iff_right rfl]
  · exact fun d' top same => absurd same (unbuilt d' top)
  · cases built

end Mirrors

variable {events : List (Event κ ν)} {a : Arena κ ν}

/-- **A history tells how slots and drafts are.** -/
theorem History.mirrors (h : History events a) : Mirrors events a := by
  induction h with
  | empty => exact .empty
  | @perform events a _ op allowed ih =>
    cases op with
    | begin => exact ih.begin
    | declare d name => exact ih.declare d name allowed
    | define through n x =>
      rw [Arena.perform]
      cases defined : a.define n x with
      | ok a' => exact ih.define defined through
      | error e => exact ih.refuse through n x e
    | build d top =>
      have drafting : a.drafts[d]? = some .drafting := allowed
      rw [Arena.perform]
      rcases a.build_cases d with ⟨built, complete⟩ | ⟨n, name, failed, -⟩
      · rw [built]
        refine ih.mark drafting nofun trivial nofun ?_ ?_ ?_
        · exact fun d' => ⟨False.elim, fun h => nomatch h.1⟩
        · rintro d' top' ⟨⟩
          rfl
        · intro _ n name declared
          obtain ⟨x, defined⟩ := complete n name ((ih.declared n d name).2 declared)
          exact ⟨x, (ih.defined n x).1 defined⟩
      · rw [failed]
        exact ih.leave drafting (by decide) trivial (fun _ => Iff.rfl) (by simp)
    | drop d =>
      have drafting : a.drafts[d]? = some .drafting := allowed
      rw [Arena.perform, drop, if_pos drafting]
      exact ih.leave drafting (by decide) trivial (fun _ => Iff.rfl) (by simp)
    | dropBuilt d =>
      have standing : a.drafts[d]? = some .built := allowed
      rw [Arena.perform, dropBuilt, if_pos standing]
      exact ih.leave standing (by decide) trivial (fun _ => Iff.rfl) (by simp)

/-! ### Other values -/

section Values

variable {μ : Type} (f : Definition κ (Handle ν) ν → Definition κ (Handle μ) μ)

/-- The same slot, with another definition if it has one. -/
def mapSlot (slot : Slot κ ν) : Slot κ μ := ⟨slot.name, slot.draft, slot.definition.map f⟩

/-- The same arena with other definitions. -/
def map (a : Arena κ ν) : Arena κ μ := ⟨a.slots.map (mapSlot f), a.drafts⟩

/-- The same operation with other definitions. -/
def Operation.map : Operation κ ν → Operation κ μ
  | .begin => .begin
  | .declare draft name => .declare draft name
  | .define through number definition => .define through number (f definition)
  | .build draft top => .build draft (f top)
  | .drop draft => .drop draft
  | .dropBuilt draft => .dropBuilt draft

/-- The same reply with other definitions. -/
def Reply.map : Reply κ ν → Reply κ μ
  | .begun draft => .begun draft
  | .declared number => .declared number
  | .defined result => .defined result
  | .built result => .built (result.map fun grammar => ⟨grammar.draft, f grammar.top⟩)
  | .dropped => .dropped

/-- The same event with other definitions. -/
def Event.map (e : Event κ ν) : Event κ μ := ⟨e.operation.map f, e.reply.map f⟩

variable {f}

theorem slot?_map (n : Nat) : (a.map f).slot? n = (a.slot? n).map (mapSlot f) := by
  rw [slot?, slot?, map, Array.getElem?_map, Option.filter_map]
  rfl

theorem define_map (n : Nat) (x : Definition κ (Handle ν) ν) :
    (a.map f).define n (f x) = (a.define n x).map (Arena.map f) := by
  rw [define, define, slot?_map]
  cases a.slot? n with
  | none => rfl
  | some slot =>
    cases given : slot.definition with
    | some y => simp [mapSlot, given, Except.map]
    | none =>
      simp only [Option.map_some, mapSlot, given, Option.map_none, Except.map, map]
      congr 2
      refine Array.ext_getElem? fun number => ?_
      rw [Array.getElem?_modify, Array.getElem?_map, Array.getElem?_map, Array.getElem?_modify]
      split
      · rw [Option.map_map, Option.map_map]
        rfl
      · rfl

theorem slotsOf_map (d : Nat) : (a.map f).slotsOf d = (a.slotsOf d).map (mapSlot f) := by
  rw [slotsOf, slotsOf, map, Array.toList_map, List.filter_map]
  rfl

theorem build_map (d : Nat) : (a.map f).build d = ((a.build d).1.map f, (a.build d).2) := by
  rw [build, build, slotsOf_map, List.find?_map]
  have same : (fun slot : Slot κ μ => slot.definition.isNone) ∘ mapSlot f =
      fun slot : Slot κ ν => slot.definition.isNone := by
    funext slot
    exact Option.isNone_map
  rw [same]
  cases (a.slotsOf d).find? fun slot => slot.definition.isNone with
  | none => rfl
  | some slot => rfl

/-- An operation has the same effect with other definitions. -/
theorem perform_map (op : Operation κ ν) :
    (a.map f).perform (op.map f) = ((a.perform op).1.map f, (a.perform op).2.map f) := by
  cases op with
  | begin => rfl
  | declare draft name =>
    simp [perform, Operation.map, Reply.map, declare, map, mapSlot]
  | define through n x =>
    simp only [perform, Operation.map, define_map]
    cases a.define n x with
    | ok a' => rfl
    | error e => rfl
  | build d top =>
    rw [Operation.map, perform, perform, build_map]
    obtain ⟨a', result⟩ := a.build d
    cases result with
    | ok _ => rfl
    | error e => rfl
  | drop d =>
    rw [Operation.map, perform, perform, drop, drop, apply_ite (Arena.map f)]
    rfl
  | dropBuilt d =>
    rw [Operation.map, perform, perform, dropBuilt, dropBuilt, apply_ite (Arena.map f)]
    rfl

/-- **A history does not depend on the values of the rules.**  With other definitions, of whatever
values, the same operations are allowed and come to the same: numbers, names and errors stay as they
are, and so do the standings of the drafts. -/
theorem History.map (h : History events a) : History (events.map (Event.map f)) (a.map f) := by
  induction h with
  | empty =>
    have same : (Arena.empty : Arena κ ν).map f = .empty := by simp [Arena.map, Arena.empty]
    rw [same, List.map_nil]
    exact .empty
  | @perform events a _ op allowed ih =>
    have allowed' : (a.map f).Allowed (op.map f) := by
      cases op with
      | begin => trivial
      | declare | define | build | drop | dropBuilt => exact allowed
    have next := ih.perform (op.map f) allowed'
    rw [perform_map] at next
    rwa [List.map_append, List.map_singleton, Event.map]

end Values

end FrontEnd.Arena
