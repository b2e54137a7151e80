import FrontEnd.Proofs.Grammar.History
import FrontEnd.Proofs.Parser.Reach

/-!
# Rules are assigned once

What a handle means at some moment can be told from what has happened until then.

## Main Definitions

* `Arena.Event.Assigns` — the definition of a rule succeeds
* `Arena.SingleAssignment` — what a history says about handles, definitions and grammars

## Main Results

* `Arena.Mirrors.nameOf_iff`, `Arena.Mirrors.isDefined_iff`, `Arena.Mirrors.lookup_iff` — what a
  handle reports, and what it stands for
* `Arena.History.build_fails` — what is left of a draft that cannot be turned into a grammar
* `Arena.History.single_assignment` — all of it, for every history

## Design Notes

**Handles mean what they were given, or nothing.**  A handle stands for the one definition of its
rule, as long as the owner of the rule is there.  A grammar whose expressions only mention its own
handles therefore finds every rule that it enters.
-/

namespace FrontEnd.Arena

variable {κ ν : Type} {events : List (Event κ ν)} {a : Arena κ ν}

/-! ### What handles mean -/

theorem stands_iff {d : Nat} :
    a.stands d = true ↔ a.drafts[d]? = some .drafting ∨ a.drafts[d]? = some .built := by
  unfold stands
  split <;> simp_all

namespace Mirrors

variable {n d : Nat} {name : String} {slot : Slot κ ν}

theorem stands_iff (h : Mirrors events a) : a.stands d = true ↔ Alive events d := by
  rw [Arena.stands_iff, Alive, ← h.begun, ← h.ended]
  rcases standing : a.drafts[d]? with _ | standing'
  · have beyond := Array.getElem?_eq_none_iff.1 standing
    simp only [reduceCtorEq, or_self, not_false_eq_true, and_true, false_iff]
    omega
  · have inside := (Array.getElem?_eq_some_iff.1 standing).1
    cases standing' <;> simp [inside]

/-- A rule that is behind its handle is there as its history says. -/
theorem of_slot? (h : Mirrors events a) (here : a.slot? n = some slot) :
    Declared events n slot.draft slot.name ∧ Alive events slot.draft ∧
      ∀ x, slot.definition = some x ↔ Defined events n x := by
  have stands := (slot?_eq_some_iff.1 here).2
  obtain ⟨definition, declaration⟩ := views_of_slot? here
  refine ⟨(h.declared _ _ _).1 declaration, h.stands_iff.1 stands, fun x => ?_⟩
  rw [← h.defined, definition]

/-- A rule is behind its handle while its draft, or the grammar built from it, is alive. -/
theorem exists_slot? (h : Mirrors events a) (declared : Declared events n d name)
    (alive : Alive events d) : ∃ slot, a.slot? n = some slot ∧ slot.name = name := by
  obtain ⟨slot, found, rfl, rfl⟩ := declaration?_eq_some_iff.1 ((h.declared n d name).2 declared)
  exact ⟨slot, slot?_eq_some_iff.2 ⟨found, h.stands_iff.2 alive⟩, rfl⟩

theorem exists_slot?_of_live (h : Mirrors events a) (live : Live events n) :
    ∃ slot, a.slot? n = some slot := by
  obtain ⟨d, name, declared, alive⟩ := live
  obtain ⟨slot, here, -⟩ := h.exists_slot? declared alive
  exact ⟨slot, here⟩

theorem live_of_slot? (h : Mirrors events a) (here : a.slot? n = some slot) : Live events n :=
  have ⟨declared, alive, _⟩ := h.of_slot? here
  ⟨slot.draft, slot.name, declared, alive⟩

theorem slot?_of_not_live (h : Mirrors events a) (gone : ¬Live events n) : a.slot? n = none :=
  Option.eq_none_iff_forall_ne_some.2 fun _ here => gone (h.live_of_slot? here)

theorem nameOf_iff (h : Mirrors events a) :
    a.nameOf n = some name ↔ ∃ d, Declared events n d name ∧ Alive events d := by
  rw [nameOf, Option.map_eq_some_iff]
  constructor
  · rintro ⟨slot, here, rfl⟩
    obtain ⟨declared, alive, -⟩ := h.of_slot? here
    exact ⟨slot.draft, declared, alive⟩
  · rintro ⟨d, declared, alive⟩
    exact h.exists_slot? declared alive

theorem isDefined_iff (h : Mirrors events a) :
    a.isDefined n = true ↔ Live events n ∧ ∃ x, Defined events n x := by
  rw [isDefined, Option.isSome_iff_exists]
  constructor
  · rintro ⟨x, given⟩
    obtain ⟨slot, here, given⟩ := Option.bind_eq_some_iff.1 given
    exact ⟨h.live_of_slot? here, x, ((h.of_slot? here).2.2 x).1 given⟩
  · rintro ⟨live, x, defined⟩
    obtain ⟨slot, here⟩ := h.exists_slot?_of_live live
    exact ⟨x, Option.bind_eq_some_iff.2 ⟨slot, here, ((h.of_slot? here).2.2 x).2 defined⟩⟩

theorem lookup_iff (h : Mirrors events a) {x : Definition κ (Handle ν) ν} :
    a.lookup (.mk n) = .ok x ↔ Live events n ∧ Defined events n x := by
  rw [lookup]
  constructor
  · intro found
    cases here : a.slot? n with
    | none => simp [here] at found
    | some slot =>
      refine ⟨h.live_of_slot? here, ((h.of_slot? here).2.2 x).1 ?_⟩
      cases given : slot.definition with
      | none => simp [here, given] at found
      | some y => simpa [here, given] using found
  · rintro ⟨live, defined⟩
    obtain ⟨slot, here⟩ := h.exists_slot?_of_live live
    have given := ((h.of_slot? here).2.2 x).2 defined
    simp [here, given]

/-- A handle whose owner is gone is detached. -/
theorem detached (h : Mirrors events a) (gone : ¬Live events n) :
    a.nameOf n = none ∧ a.isDefined n = false ∧ a.lookup (.mk n) = .error .detached ∧
      ∀ through x, a.perform (.define through n x) = (a, .defined (.error .detached)) := by
  have none := h.slot?_of_not_live gone
  refine ⟨?_, ?_, ?_, fun through x => ?_⟩
  · rw [nameOf, none, Option.map_none]
  · rw [isDefined, none, Option.bind_none, Option.isSome_none]
  · rw [lookup, none]
  · rw [perform, Arena.define, none]

/-- The first definition of a rule that lives succeeds. -/
theorem define_first (h : Mirrors events a) {x : Definition κ (Handle ν) ν}
    (live : Live events n) (first : ∀ y, ¬Defined events n y) : ∃ a', a.define n x = .ok a' := by
  obtain ⟨slot, here⟩ := h.exists_slot?_of_live live
  refine ⟨_, define_eq_ok_iff.2 ⟨⟨slot, here, ?_⟩, rfl⟩⟩
  exact Option.eq_none_iff_forall_ne_some.2 fun y given =>
    first y (((h.of_slot? here).2.2 y).1 given)

/-- A definition that succeeds gives a meaning to its own handle and to no other one. -/
theorem after_define (h : Mirrors events a) {a' : Arena κ ν} {x : Definition κ (Handle ν) ν}
    (defined : a.define n x = .ok a') :
    a'.lookup (.mk n) = .ok x ∧ a'.drafts = a.drafts ∧ (∀ m, a'.nameOf m = a.nameOf m) ∧
      ∀ m ≠ n, a'.lookup (.mk m) = a.lookup (.mk m) := by
  have after := h.define defined 0
  have alive (d : Nat) :
      Alive (events ++ [⟨.define 0 n x, .defined (.ok ())⟩]) d ↔ Alive events d := by
    simp [Alive, Event.Ends]
  obtain ⟨⟨slot, here, -⟩, same⟩ := define_eq_ok_iff.1 defined
  obtain ⟨d, name, declared, living⟩ := h.live_of_slot? here
  refine ⟨?_, (effect_of_define defined).2.1, fun m => ?_, fun m other => ?_⟩
  · refine after.lookup_iff.2 ⟨⟨d, name, ?_, (alive d).2 living⟩, ?_⟩
    · exact declared_snoc.2 (.inl declared)
    · exact defined_snoc.2 (.inr ⟨0, rfl⟩)
  · ext name
    simp only [after.nameOf_iff, h.nameOf_iff, alive, declared_snoc, Event.mk.injEq, reduceCtorEq,
      false_and, or_false]
  · have slot : a'.slot? m = a.slot? m := by
      rw [same, Arena.slot?, Arena.slot?, Array.getElem?_modify, if_neg other.symm]
      rfl
    rw [lookup, lookup, slot]

/-- A later definition is refused. -/
theorem define_again (h : Mirrors events a) {x y : Definition κ (Handle ν) ν}
    (live : Live events n) (defined : Defined events n y) :
    ∃ name, a.nameOf n = some name ∧ a.define n x = .error (.alreadyDefined name) := by
  obtain ⟨slot, here⟩ := h.exists_slot?_of_live live
  have given := ((h.of_slot? here).2.2 y).2 defined
  refine ⟨slot.name, by rw [nameOf, here, Option.map_some], ?_⟩
  rw [Arena.define]
  simp [here, given]

/-- A draft is turned into a grammar exactly if all its rules are defined. -/
theorem build_iff (h : Mirrors events a) {top : Definition κ (Handle ν) ν} :
    (a.perform (.build d top)).2 = .built (.ok ⟨d, top⟩) ↔
      ∀ n name, Declared events n d name → ∃ x, Defined events n x := by
  simp only [← h.declared, ← h.defined]
  rcases a.build_cases d with ⟨built, complete⟩ | ⟨n, name, failed, declared, undefined, -⟩
  · rw [perform, built]
    exact iff_of_true rfl complete
  · rw [perform, failed]
    refine iff_of_false (fun reply => by cases reply) fun complete => ?_
    obtain ⟨x, defined⟩ := complete n name declared
    rw [undefined] at defined
    cases defined

/-- The rules of a grammar that is alive can be entered. -/
theorem exists_lookup (h : Mirrors events a) {top : Definition κ (Handle ν) ν}
    (built : Built events d top) (alive : Alive events d) (declared : Declared events n d name) :
    ∃ x, Defined events n x ∧ a.lookup (.mk n) = .ok x := by
  have standing : a.drafts[d]? = some .built :=
    (h.built d top built).resolve_right fun dropped => alive.2 ((h.ended d).1 dropped)
  obtain ⟨x, defined⟩ := h.complete n d name declared standing
  exact ⟨x, defined, h.lookup_iff.2 ⟨⟨d, name, declared, alive⟩, defined⟩⟩

end Mirrors

/-! ### Single assignment -/

/-- The definition of one rule succeeds. -/
def Event.Assigns (n : Nat) (e : Event κ ν) : Prop :=
  ∃ through x, e = ⟨.define through n x, .defined (.ok ())⟩

/-- What a history says about handles, definitions and grammars. -/
structure SingleAssignment [DecidableEq κ] [TokenKind κ] (events : List (Event κ ν))
    (a : Arena κ ν) : Prop where
  /-- A handle reports its name exactly while the draft that has declared it, or the grammar built
  from that draft, is alive. -/
  nameOf_iff : ∀ n name, a.nameOf n = some name ↔ ∃ d, Declared events n d name ∧ Alive events d
  /-- For as long it reports whether it has been defined. -/
  isDefined_iff : ∀ n, a.isDefined n = true ↔ Live events n ∧ ∃ x, Defined events n x
  /-- It is entered by the definition it was given, and never by another one. -/
  lookup_iff : ∀ n x, a.lookup (.mk n) = .ok x ↔ Live events n ∧ Defined events n x
  /-- No rule is ever assigned twice. -/
  assigned_once : ∀ n, events.Pairwise fun e e' => ¬(e.Assigns n ∧ e'.Assigns n)
  /-- The first definition of a rule that lives succeeds, through any draft; no other handle is
  affected. -/
  define_first : ∀ through n x, Live events n → (∀ y, ¬Defined events n y) →
    (a.perform (.define through n x)).2 = .defined (.ok ()) ∧
      let a' := (a.perform (.define through n x)).1
      a'.lookup (.mk n) = .ok x ∧ a'.drafts = a.drafts ∧
        (∀ m, a'.nameOf m = a.nameOf m) ∧ ∀ m ≠ n, a'.lookup (.mk m) = a.lookup (.mk m)
  /-- Every later one is refused with the name of the rule and changes nothing. -/
  define_again : ∀ through n x y, Live events n → Defined events n y →
    ∃ name, a.nameOf n = some name ∧
      a.perform (.define through n x) = (a, .defined (.error (.alreadyDefined name)))
  /-- A rule whose owner is gone is not defined, and nothing changes. -/
  define_detached : ∀ through n x, ¬Live events n →
    a.perform (.define through n x) = (a, .defined (.error .detached))
  /-- A draft is turned into a grammar exactly if all its rules are defined. -/
  build_iff : ∀ d top, (a.perform (.build d top)).2 = .built (.ok ⟨d, top⟩) ↔
    ∀ n name, Declared events n d name → ∃ x, Defined events n x
  /-- Otherwise the first rule in the order of declaration that is not defined is named, and all
  handles of the draft are detached. -/
  build_fails : ∀ d top, a.Allowed (.build d top) →
    (∃ n name, Declared events n d name ∧ ∀ x, ¬Defined events n x) →
    ∃ front n name back, events = front ++ ⟨.declare d name, .declared n⟩ :: back ∧
      (∀ x, ¬Defined events n x) ∧
      (∀ m name', Declared front m d name' → ∃ x, Defined events m x) ∧
      (a.perform (.build d top)).2 = .built (.error (.undefined name)) ∧
      let a' := (a.perform (.build d top)).1
      ∀ m name', Declared events m d name' →
        a'.nameOf m = none ∧ a'.isDefined m = false ∧ a'.lookup (.mk m) = .error .detached ∧
          ∀ through x, a'.perform (.define through m x) = (a', .defined (.error .detached))
  /-- A grammar that only mentions handles of its own draft never enters a rule that is not defined
  or detached, as long as it is alive. -/
  no_panic : ∀ d top, Built events d top → Alive events d →
    top.parser.RefersTo (Owns events d) →
    (∀ n name x, Declared events n d name → Defined events n x →
      x.parser.RefersTo (Owns events d)) →
    ∀ (s : TokenStream κ) (depth : Nat) (c : Cursor), c.position < s.size →
      ∀ e, (top.parser.meaning s (a.rules.call s depth)).value c = .error e → e = .unbounded

/-- Along a history no rule is assigned twice. -/
theorem History.assigned_once (h : History events a) (n : Nat) :
    events.Pairwise fun e e' => ¬(e.Assigns n ∧ e'.Assigns n) := by
  induction h with
  | empty => exact .nil
  | @perform events a before op _ ih =>
    refine List.pairwise_append.2 ⟨ih, List.pairwise_singleton _ _, ?_⟩
    rintro e mem _ (_ | _)
    · rintro ⟨⟨through, x, rfl⟩, through', x', same⟩
      have given : a.definition? n = some x := (before.mirrors.defined n x).2 ⟨through, mem⟩
      obtain ⟨rfl, reply⟩ := Event.mk.inj same
      rw [Arena.perform] at reply
      cases defined : a.define n x' with
      | error e => simp [defined] at reply
      | ok a' =>
        obtain ⟨undefined, -⟩ := effect_of_define defined
        rw [given] at undefined
        cases undefined
    · contradiction

/-- A build that fails names the first rule that is not defined, and detaches all rules of the
draft. -/
theorem History.build_fails (h : History events a) {d n : Nat} {name : String}
    {top : Definition κ (Handle ν) ν} (allowed : a.Allowed (.build d top))
    (declared : Declared events n d name) (undefined : ∀ x, ¬Defined events n x) :
    ∃ front n name back, events = front ++ ⟨.declare d name, .declared n⟩ :: back ∧
      (∀ x, ¬Defined events n x) ∧
      (∀ m name', Declared front m d name' → ∃ x, Defined events m x) ∧
      (a.perform (.build d top)).2 = .built (.error (.undefined name)) ∧
      let a' := (a.perform (.build d top)).1
      ∀ m name', Declared events m d name' →
        a'.nameOf m = none ∧ a'.isDefined m = false ∧ a'.lookup (.mk m) = .error .detached ∧
          ∀ through x, a'.perform (.define through m x) = (a', .defined (.error .detached)) := by
  have mirrors := h.mirrors
  have after := (h.perform _ allowed).mirrors
  rcases a.build_cases d with ⟨-, complete⟩ | ⟨n, name, failed, declared, undefined, earlier⟩
  · obtain ⟨x, defined⟩ := complete n name ((mirrors.declared n d name).2 declared)
    exact absurd ((mirrors.defined n x).1 defined) (undefined x)
  · have reply : (a.perform (.build d top)).2 = .built (.error (.undefined name)) := by
      rw [Arena.perform, failed]
    obtain ⟨front, back, split⟩ := List.append_of_mem ((mirrors.declared n d name).1 declared)
    refine ⟨front, n, name, back, split, fun x defined => ?_, fun m name' before => ?_, reply,
      fun m name' own => after.detached ?_⟩
    · rw [← mirrors.defined, undefined] at defined
      cases defined
    · have ordered := mirrors.ordered
      rw [split] at ordered
      have lt : m < n := (List.pairwise_append.1 ordered).2.2 _ before _ List.mem_cons_self
        m d name' n d name rfl rfl
      have own : Declared events m d name' := by
        rw [split]
        exact List.mem_append_left _ before
      obtain ⟨x, defined⟩ := earlier m lt name' ((mirrors.declared m d name').2 own)
      exact ⟨x, (mirrors.defined m x).1 defined⟩
    · rintro ⟨d', name'', own', -, there⟩
      have own := (after.declared m d name').2 (declared_snoc.2 (.inl own))
      have own' := (after.declared m d' name'').2 own'
      rw [own, Option.some.injEq, Prod.mk.injEq] at own'
      refine there (ended_snoc.2 (.inr ?_))
      rw [reply, own'.1]
      rfl

variable [DecidableEq κ] [TokenKind κ]

/-- **Single assignment.**  What a handle means, what becomes of definitions and builds, and that a
grammar finds all its rules, is told by what has happened to drafts and rules. -/
theorem History.single_assignment (h : History events a) : SingleAssignment events a := by
  have mirrors := h.mirrors
  refine ⟨fun n name => mirrors.nameOf_iff, fun n => mirrors.isDefined_iff,
    fun n x => mirrors.lookup_iff, h.assigned_once, ?_, ?_, ?_, ?_, ?_, ?_⟩
  · intro through n x live first
    obtain ⟨a', defined⟩ := mirrors.define_first (x := x) live first
    rw [Arena.perform, defined]
    exact ⟨rfl, mirrors.after_define defined⟩
  · intro through n x y live defined
    obtain ⟨name, named, refused⟩ := mirrors.define_again (x := x) live defined
    refine ⟨name, named, ?_⟩
    rw [Arena.perform, refused]
  · exact fun through n x gone => (mirrors.detached gone).2.2.2 through x
  · exact fun d top => mirrors.build_iff
  · rintro d top allowed ⟨n, name, declared, undefined⟩
    exact h.build_fails allowed declared undefined
  · intro d top built alive refers closed s depth c inside e fault
    have contained : a.rules.SelfContained (Owns events d) := by
      rintro _ ⟨n⟩ ⟨name, declared⟩
      obtain ⟨x, defined, found⟩ := mirrors.exists_lookup built alive declared
      exact ⟨x, found, closed n name x declared defined⟩
    exact contained.eq_unbounded refers inside fault

/-- A rule that nests: a token, maybe followed by the rule itself. -/
def nesting : Definition RuleId (Handle Unit) Unit :=
  ⟨((Parser.ignore ⟨1⟩).and (Parser.rule (Handle.mk 0)).optional).map fun _ => ()⟩

/-- Two drafts declare a rule each.  The first rule is defined through the second draft, the second
rule not at all. -/
def twoDrafts : List (Event RuleId Unit) :=
  [⟨.begin, .begun 0⟩, ⟨.begin, .begun 1⟩, ⟨.declare 0 "a", .declared 0⟩,
    ⟨.declare 1 "b", .declared 1⟩, ⟨.define 1 0 nesting, .defined (.ok ())⟩,
    ⟨.define 0 0 nesting, .defined (.error (.alreadyDefined "a"))⟩,
    ⟨.build 1 nesting, .built (.error (.undefined "b"))⟩,
    ⟨.build 0 nesting, .built (.ok ⟨0, nesting⟩)⟩]

/-- What the two drafts have come to. -/
def afterTwoDrafts : Arena RuleId Unit :=
  ⟨#[⟨"a", 0, some nesting⟩, ⟨"b", 1, none⟩], #[.built, .dropped]⟩

theorem history_twoDrafts : History twoDrafts afterTwoDrafts := by
  have start : History ([] : List (Event RuleId Unit)) .empty := .empty
  have declared := (((start.perform .begin trivial).perform .begin trivial).perform
    (.declare 0 "a") rfl).perform (.declare 1 "b") rfl
  have defined := (declared.perform (.define 1 0 nesting) rfl).perform (.define 0 0 nesting) rfl
  exact (defined.perform (.build 1 nesting) rfl).perform (.build 0 nesting) rfl

/-- The rule of the failed draft is gone, and the grammar of the other one finds its rule. -/
theorem single_assignment_twoDrafts :
    SingleAssignment twoDrafts afterTwoDrafts ∧ Live twoDrafts 0 ∧ ¬Live twoDrafts 1 ∧
      ∀ (s : TokenStream RuleId) (depth : Nat) (e : Fault),
        (nesting.parser.meaning s (afterTwoDrafts.rules.call s depth)).value .start = .error e →
          e = .unbounded := by
  have assigned := History.single_assignment history_twoDrafts
  have declared : Declared twoDrafts 0 0 "a" := by simp [Declared, twoDrafts]
  have alive : Alive twoDrafts 0 := by simp [Alive, Begun, Ended, Event.Ends, twoDrafts]
  have refers : nesting.parser.RefersTo (Owns twoDrafts 0) := ⟨trivial, "a", declared⟩
  refine ⟨assigned, ⟨0, "a", declared, alive⟩, ?_, fun s depth => ?_⟩
  · rintro ⟨d, name, declared, alive⟩
    have named := (assigned.nameOf_iff 1 name).2 ⟨d, declared, alive⟩
    cases named
  · refine assigned.no_panic 0 nesting ?_ alive refers ?_ s depth .start s.size_pos
    · simp [Built, twoDrafts]
    · rintro n name x - ⟨through, defined⟩
      obtain ⟨-, -, rfl⟩ : through = 1 ∧ n = 0 ∧ x = nesting := by
        simpa [twoDrafts] using defined
      exact refers

end FrontEnd.Arena
