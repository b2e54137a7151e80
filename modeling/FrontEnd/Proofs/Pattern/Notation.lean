import FrontEnd.Pattern.Reader
import Mathlib.Data.List.Chain

/-!
# The notation of patterns

Reading and writing are inverse to each other on the patterns that have a notation of their own:
nothing that was read is lost, and every such pattern is read from what is written for it.

## Main Definitions

* `ClassItem.WellFormed`, `ClassItem.Readable`, `Pattern.WellFormed` — an entry, a class and a
  pattern that their notation denotes
* `Reader.Takes` — a text takes the reader from one state to another one
* `Reader.written` — the text that the reader has read
* `Bracket.Settled`, `Reader.Settled` — what the reader has read is well-formed

## Main Results

* `Reader.takes_write` — the notation of a well-formed pattern takes the reader past the pattern
* `Reader.Settled.step` — a character is added to what was read, and that stays well-formed
* `Pattern.read_eq_ok_iff` — the patterns that are read from a text

## Design Notes

**A dash has three roles.**  Between two members it makes a range, elsewhere in a class it is a
member, and outside of classes it is a character like any other.  A class has a notation exactly if
no dash comes into another role than its own: behind a single member, a dash makes a range unless
the class ends there.

**While a class is read, its last member is not settled.**  A dash behind it may still turn it into
the start of a range.  So the entries up to a pending member may follow one another without any
exception, and the exception for a dash at the end is made only when the class is closed.
-/

namespace FrontEnd

/-! ### Patterns with a notation -/

namespace ClassItem

/-- No member is a closing bracket, and no range is inverted. -/
def WellFormed : ClassItem → Prop
  | single c => c ≠ ']'
  | range first last => first ≠ ']' ∧ last ≠ ']' ∧ first ≤ last

/-- The entry begins with a dash. -/
def Dashed (item : ClassItem) : Prop := item.write.head? = some '-'

/-- A class that its notation denotes. -/
structure Readable (items : List ClassItem) : Prop where
  /-- There is a member. -/
  ne_nil : items ≠ []
  /-- Every entry is well-formed. -/
  entries : ∀ item ∈ items, item.WellFormed
  /-- What follows a single member does not begin with a dash, except for a dash at the end. -/
  undashed : ∀ front c next rest, items = front ++ single c :: next :: rest → next.Dashed →
    next = single '-' ∧ rest = []

/-- An entry begins with a member. -/
theorem WellFormed.write_eq_cons {item : ClassItem} (h : item.WellFormed) :
    ∃ c text, item.write = c :: text ∧ c ≠ ']' := by
  cases item with
  | single c => exact ⟨c, [], rfl, h⟩
  | range first last => exact ⟨first, ['-', last], rfl, h.1⟩

/-- A class that can be read is an entry with others behind it, if any, that can be read as well.
If the entry is a single member, what follows does not begin with a dash, except at the end. -/
theorem readable_cons {item : ClassItem} {items : List ClassItem} :
    Readable (item :: items) ↔ item.WellFormed ∧ (items ≠ [] → Readable items) ∧
      ∀ c next rest, item = single c → items = next :: rest → next.Dashed →
        next = single '-' ∧ rest = [] := by
  constructor
  · rintro ⟨-, entries, undashed⟩
    obtain ⟨first, others⟩ := List.forall_mem_cons.1 entries
    refine ⟨first, fun some => ⟨some, others, fun front c next rest split => ?_⟩, ?_⟩
    · exact undashed (item :: front) c next rest (by rw [split, List.cons_append])
    · rintro c next rest rfl rfl
      exact undashed [] c next rest rfl
  · rintro ⟨first, others, undashed⟩
    refine ⟨List.cons_ne_nil item items, List.forall_mem_cons.2 ⟨first, fun other mem => ?_⟩, ?_⟩
    · exact (others (List.ne_nil_of_mem mem)).entries other mem
    · intro front c next rest split
      cases front with
      | nil =>
        obtain ⟨rfl, rfl⟩ := List.cons.inj split
        exact undashed c next rest rfl rfl
      | cons _ front =>
        obtain ⟨-, rfl⟩ := List.cons.inj split
        exact (others (by simp)).undashed front c next rest rfl

end ClassItem

/-- A pattern that its notation denotes: outside of classes no character is a bracket or a
parenthesis, and all classes can be read. -/
def Pattern.WellFormed : Pattern → Prop
  | done => True
  | char c rest => c ∉ ['[', ']', '(', ')'] ∧ rest.WellFormed
  | oneOf items rest => ClassItem.Readable items ∧ rest.WellFormed
  | loop body rest => body.WellFormed ∧ rest.WellFormed

theorem Pattern.wellFormed_append {p q : Pattern} :
    (p ++ q).WellFormed ↔ p.WellFormed ∧ q.WellFormed := by
  induction p with
  | done => simp [WellFormed]
  | char c rest ih => rw [char_append, WellFormed, WellFormed, ih, and_assoc]
  | oneOf items rest ih => rw [oneOf_append, WellFormed, WellFormed, ih, and_assoc]
  | loop body rest _ ih => rw [loop_append, WellFormed, WellFormed, ih, and_assoc]

/-! ### Reading what is written -/

namespace Reader

/-- A text takes the reader from one state to another one, wherever the text begins. -/
def Takes (r : Reader) (text : List Char) (r' : Reader) : Prop :=
  ∀ position, r.run position text = .ok r'

/-- What follows a text is read in the state that the text leads to. -/
theorem run_append {r r' : Reader} {position : Nat} {front : List Char}
    (h : r.run position front = .ok r') (back : List Char) :
    r.run position (front ++ back) = r'.run (position + front.length) back := by
  induction front generalizing r position with
  | nil =>
    cases h
    rfl
  | cons c front ih =>
    rw [run] at h
    rw [List.cons_append, run]
    cases first : r.step position c with
    | error fault => simp [first] at h
    | ok r₁ =>
      rw [first] at h
      rw [List.length_cons, Nat.add_comm front.length 1, ← Nat.add_assoc]
      exact ih h

theorem Takes.nil (r : Reader) : r.Takes [] r := fun _ => rfl

theorem Takes.append {r r' r'' : Reader} {front back : List Char} (first : r.Takes front r')
    (rest : r'.Takes back r'') : r.Takes (front ++ back) r'' := by
  intro position
  rw [run_append (first position)]
  exact rest _

theorem Takes.cons {r r' r'' : Reader} {c : Char} {text : List Char}
    (first : ∀ position, r.step position c = .ok r') (rest : r'.Takes text r'') :
    r.Takes (c :: text) r'' := by
  intro position
  rw [run, first]
  exact rest (position + 1)

theorem Takes.single {r r' : Reader} {c : Char} (h : ∀ position, r.step position c = .ok r') :
    r.Takes [c] r' := .cons h (.nil r')

/-- A character inside a class is read by the class. -/
theorem step_bracket {outer : List Pattern} {current : Pattern} {b b' : Bracket} {c : Char}
    (member : c ≠ ']') {position : Nat} (h : b.step position c = .ok b') :
    (⟨outer, current, some b⟩ : Reader).step position c = .ok ⟨outer, current, some b'⟩ := by
  simp [step, stepBracket, member, h]

/-- A member that makes no range of what is pending becomes pending itself. -/
theorem step_member {b : Bracket} {c : Char} (pending : ∀ a, b.tail ≠ .dash a)
    (apart : ∀ a, b.tail = .member a → c ≠ '-') (position : Nat) :
    b.step position c = .ok ⟨b.items, .member c⟩ := by
  obtain ⟨settled, tail⟩ := b
  cases tail with
  | fresh => rfl
  | member a => simp [Bracket.step, Bracket.items, apart a rfl]
  | dash a => exact absurd rfl (pending a)
  | range => rfl

section Entries

variable (outer : List Pattern) (current : Pattern)

/-- An entry of a class is read as it stands, unless its dash makes a range of what is pending.  A
dash behind a pending member is read, too, but it stays pending with the member. -/
theorem takes_entry {b : Bracket} (pending : ∀ c, b.tail ≠ .dash c) {item : ClassItem}
    (wellFormed : item.WellFormed)
    (undashed : ∀ c, b.tail = .member c → item.Dashed → item = .single '-') :
    ∃ b' : Bracket, b'.items = b.items ++ [item] ∧ b'.tail ≠ .fresh ∧
      (∀ c, b'.tail = .dash c → b.tail = .member c ∧ item = .single '-') ∧
      (⟨outer, current, some b⟩ : Reader).Takes item.write ⟨outer, current, some b'⟩ := by
  cases item with
  | single c =>
    by_cases joined : c = '-' ∧ ∃ a, b.tail = .member a
    · obtain ⟨rfl, a, tail⟩ := joined
      refine ⟨⟨b.settled, .dash a⟩, by simp [Bracket.items, tail], by simp, ?_, ?_⟩
      · rintro _ ⟨⟩
        exact ⟨tail, rfl⟩
      · exact .single fun position => step_bracket (by decide) (by simp [Bracket.step, tail])
    · have apart (a : Char) (tail : b.tail = .member a) : c ≠ '-' :=
        fun dash => joined ⟨dash, a, tail⟩
      exact ⟨⟨b.items, .member c⟩, rfl, by simp, by simp,
        .single fun position => step_bracket wellFormed (step_member pending apart position)⟩
  | range first last =>
    obtain ⟨firstMember, lastMember, le⟩ := wellFormed
    have apart (a : Char) (tail : b.tail = .member a) : first ≠ '-' := by
      rintro rfl
      cases undashed a tail rfl
    have dash (position : Nat) :
        (⟨outer, current, some ⟨b.items, .member first⟩⟩ : Reader).step position '-' =
          .ok ⟨outer, current, some ⟨b.items, .dash first⟩⟩ :=
      step_bracket (by decide) (by simp [Bracket.step])
    refine ⟨⟨b.items ++ [.range first last], .range⟩, rfl, by simp, by simp, ?_⟩
    refine .cons (fun position => step_bracket firstMember (step_member pending apart position)) ?_
    refine .cons dash ?_
    exact .single fun position => step_bracket lastMember (by simp [Bracket.step, le])

/-- The entries of a class and its closing bracket are read as they stand, if no dash comes into
another role. -/
theorem takes_class {b : Bracket} {items : List ClassItem} (some : b.tail = .fresh → items ≠ [])
    (pending : ∀ c, b.tail = .dash c → items = [])
    (wellFormed : ∀ item ∈ items, item.WellFormed)
    (undashed : ∀ front c next rest, b.items ++ items = front ++ .single c :: next :: rest →
      next.Dashed → next = .single '-' ∧ rest = []) :
    (⟨outer, current, .some b⟩ : Reader).Takes (items.flatMap ClassItem.write ++ [']'])
      ⟨outer, current ++ .oneOf (b.items ++ items) .done, none⟩ := by
  induction items generalizing b with
  | nil =>
    have nonempty : b.tail ≠ .fresh := fun fresh => some fresh rfl
    rw [List.append_nil]
    exact .single fun position => by simp [step, stepBracket, nonempty]
  | cons item items ih =>
    have first : ∀ c, b.tail ≠ .dash c := fun c tail => by simpa using pending c tail
    have role (c : Char) (tail : b.tail = .member c) (dashed : item.Dashed) :
        item = .single '-' ∧ items = [] :=
      undashed b.settled c item items (by simp [Bracket.items, tail]) dashed
    obtain ⟨b', read, nonempty, last, taken⟩ := takes_entry outer current first
      (wellFormed item List.mem_cons_self) fun c tail dashed => (role c tail dashed).1
    rw [List.flatMap_cons, List.append_assoc]
    refine taken.append ?_
    have whole : b'.items ++ items = b.items ++ item :: items := by
      rw [read, List.append_assoc, List.singleton_append]
    rw [← whole]
    refine ih (fun fresh => absurd fresh nonempty) (fun c tail => ?_)
      (fun item mem => wellFormed item (List.mem_cons_of_mem _ mem)) (whole ▸ undashed)
    obtain ⟨tail, rfl⟩ := last c tail
    exact (role c tail rfl).2

end Entries

/-- **The notation of a well-formed pattern takes the reader past the pattern.** -/
theorem takes_write {p : Pattern} (h : p.WellFormed) (outer : List Pattern) (current : Pattern) :
    (⟨outer, current, none⟩ : Reader).Takes p.write ⟨outer, current ++ p, none⟩ := by
  induction p generalizing outer current with
  | done =>
    rw [Pattern.append_done]
    exact .nil _
  | char c rest ih =>
    obtain ⟨plain, h⟩ := h
    have next := ih h outer (current ++ .char c .done)
    rw [Pattern.append_assoc, Pattern.char_append, Pattern.done_append] at next
    refine .cons (fun position => ?_) next
    simp only [List.mem_cons, List.not_mem_nil, not_or] at plain
    simp [step, stepUnit, plain]
  | oneOf items rest ih =>
    obtain ⟨readable, h⟩ := h
    have next := ih h outer (current ++ .oneOf items .done)
    rw [Pattern.append_assoc, Pattern.oneOf_append, Pattern.done_append] at next
    have inside := takes_class outer current (b := .start) (fun _ => readable.ne_nil)
      (by simp [Bracket.start]) readable.entries readable.undashed
    rw [Pattern.write, List.append_cons]
    exact .cons (fun position => rfl) (inside.append next)
  | loop body rest ihBody ihRest =>
    obtain ⟨hBody, h⟩ := h
    have next := ihRest h outer (current ++ .loop body .done)
    rw [Pattern.append_assoc, Pattern.loop_append, Pattern.done_append] at next
    have inside := ihBody hBody (current :: outer) .done
    rw [Pattern.done_append] at inside
    rw [Pattern.write]
    exact .cons (fun position => rfl) (inside.append (.cons (fun position => rfl) next))

end Reader

/-! ### Writing what was read -/

/-- What was written of the last entry of a class. -/
def Bracket.Tail.written : Bracket.Tail → List Char
  | .fresh => []
  | .member c => [c]
  | .dash c => [c, '-']
  | .range => []

/-- What was written of a class. -/
def Bracket.written (b : Bracket) : List Char :=
  '[' :: b.settled.flatMap ClassItem.write ++ b.tail.written

/-- What was written up to the innermost open group, its parenthesis included. -/
def Reader.writtenBefore : List Pattern → List Char
  | [] => []
  | before :: outer => writtenBefore outer ++ before.write ++ ['(']

/-- What was written. -/
def Reader.written (r : Reader) : List Char :=
  writtenBefore r.outer ++ r.current.write ++ (r.bracket.elim [] Bracket.written)

/-- An entry may stand behind another one: the dash that it begins with makes no range. -/
def ClassItem.MayFollow (item next : ClassItem) : Prop := (∃ c, item = single c) → ¬ next.Dashed

/-- The entries of a class, if no more than one member is pending. -/
def Bracket.pending (b : Bracket) : List ClassItem :=
  match b.tail with
  | .fresh => b.settled
  | .member c => b.settled ++ [.single c]
  | .dash c => b.settled ++ [.single c]
  | .range => b.settled

/-- The entries that were read, with a pending member, are well-formed and may follow one
another. -/
structure Bracket.Settled (b : Bracket) : Prop where
  entries : ∀ item ∈ b.pending, item.WellFormed
  chain : b.pending.IsChain ClassItem.MayFollow
  fresh : b.tail = .fresh → b.settled = []
  range : b.tail = .range → ∃ front first last, b.settled = front ++ [.range first last]

/-- All that was read is well-formed. -/
structure Reader.Settled (r : Reader) : Prop where
  outer : ∀ p ∈ r.outer, p.WellFormed
  current : r.current.WellFormed
  bracket : ∀ b ∈ r.bracket, b.Settled

namespace Bracket

theorem settled_start : start.Settled :=
  ⟨by simp [start, pending], by simp [start, pending], fun _ => rfl, by simp [start]⟩

/-- An entry may be put behind entries whose last one it may follow. -/
theorem chain_concat {items : List ClassItem} {item : ClassItem}
    (chain : items.IsChain ClassItem.MayFollow)
    (last : ∀ before ∈ items.getLast?, before.MayFollow item) :
    (items ++ [item]).IsChain ClassItem.MayFollow := by
  refine List.isChain_append.2 ⟨chain, List.isChain_singleton item, ?_⟩
  simpa using last

/-- Reading a character adds it to what was written and keeps the entries well-formed. -/
theorem Settled.step {b b' : Bracket} (h : b.Settled) {position : Nat} {c : Char}
    (member : c ≠ ']') (read : b.step position c = .ok b') :
    b'.Settled ∧ b'.written = b.written ++ [c] := by
  obtain ⟨settled, tail⟩ := b
  obtain ⟨entries, chain, fresh, range⟩ := h
  have single : (ClassItem.single c).WellFormed := member
  cases tail with
  | fresh =>
    cases read
    cases fresh rfl
    exact ⟨⟨by simpa [pending] using single, by simp [pending], by simp, by simp⟩, rfl⟩
  | member a =>
    simp only [pending] at entries chain
    simp only [Bracket.step] at read
    split at read
    · next dash =>
      cases read
      cases dash
      exact ⟨⟨entries, chain, by simp, by simp⟩, by simp [written, Tail.written]⟩
    · next noDash =>
      cases read
      have follows : (ClassItem.single a).MayFollow (.single c) := by
        rintro - ⟨⟩
        exact noDash rfl
      refine ⟨⟨?_, chain_concat chain (by simpa using follows), by simp, by simp⟩,
        by simp [written, Tail.written]⟩
      exact List.forall_mem_append.2 ⟨entries, by simpa using single⟩
  | dash a =>
    simp only [pending] at entries chain
    simp only [Bracket.step] at read
    split at read
    · next le =>
      cases read
      obtain ⟨entries, last⟩ := List.forall_mem_append.1 entries
      have range : (ClassItem.range a c).WellFormed :=
        ⟨last (.single a) List.mem_cons_self, member, le⟩
      -- The range begins with the character that was the single member before.
      have chain' : (settled ++ [ClassItem.range a c]).IsChain ClassItem.MayFollow := by
        obtain ⟨front, -, follows⟩ := List.isChain_append.1 chain
        exact chain_concat front fun before mem => follows before mem (.single a) rfl
      refine ⟨⟨List.forall_mem_append.2 ⟨entries, by simpa using range⟩, chain', by simp, ?_⟩,
        by simp [written, Tail.written]⟩
      exact fun _ => ⟨settled, a, c, rfl⟩
    · cases read
  | range =>
    cases read
    obtain ⟨front, first, last, rfl⟩ := range rfl
    have follows : (ClassItem.range first last).MayFollow (.single c) := by
      rintro ⟨_, ⟨⟩⟩
    refine ⟨⟨?_, chain_concat chain (by simpa using follows), by simp, by simp⟩,
      by simp [written, Tail.written]⟩
    exact List.forall_mem_append.2 ⟨entries, by simpa using single⟩

/-- Entries that may follow one another leave no dash in another role. -/
theorem undashed_of_chain {items : List ClassItem} (h : items.IsChain ClassItem.MayFollow)
    {front rest : List ClassItem} {c : Char} {next : ClassItem}
    (split : items = front ++ .single c :: next :: rest) : ¬ next.Dashed := by
  rw [split, List.isChain_append_cons_cons] at h
  exact h.2.1 ⟨c, rfl⟩

/-- The entries of a class that may be closed can be read again from what was written. -/
theorem Settled.readable {b : Bracket} (h : b.Settled) (nonempty : b.tail ≠ .fresh) :
    ClassItem.Readable b.items ∧ '[' :: b.items.flatMap ClassItem.write = b.written := by
  obtain ⟨settled, tail⟩ := b
  obtain ⟨entries, chain, -, range⟩ := h
  cases tail with
  | fresh => exact absurd rfl nonempty
  | member a =>
    refine ⟨⟨by simp [items], entries, ?_⟩, by simp [items, written, Tail.written]⟩
    exact fun front c next rest split dashed => absurd dashed (undashed_of_chain chain split)
  | dash a =>
    simp only [pending] at entries chain
    have closed : settled ++ [.single a, .single '-'] =
        settled ++ [ClassItem.single a] ++ [.single '-'] := by simp
    refine ⟨⟨by simp [items], ?_, ?_⟩, by simp [items, written, Tail.written]⟩
    · simp only [items, closed]
      exact List.forall_mem_append.2 ⟨entries, by simp [ClassItem.WellFormed]⟩
    · intro front c next rest split dashed
      simp only [items, closed] at split
      -- Only the last two entries need the exception.
      rcases List.eq_nil_or_concat rest with rfl | ⟨rest, last, rfl⟩
      · have same := congrArg List.getLast? split
        simp at same
        exact ⟨same.symm, rfl⟩
      · have inner : settled ++ [ClassItem.single a] = front ++ .single c :: next :: rest := by
          rw [List.concat_eq_append, ← List.cons_append, ← List.cons_append, ← List.append_assoc]
            at split
          exact (List.append_inj' split rfl).1
        exact absurd dashed (undashed_of_chain chain inner)
  | range =>
    obtain ⟨front, first, last, rfl⟩ := range rfl
    refine ⟨⟨by simp [items], entries, ?_⟩, by simp [items, written, Tail.written]⟩
    exact fun front c next rest split dashed => absurd dashed (undashed_of_chain chain split)

end Bracket

namespace Reader

theorem settled_start : start.Settled := by
  refine ⟨by simp [start], trivial, by simp [start]⟩

/-- Outside of classes, reading a character adds it to what was written. -/
theorem Settled.stepUnit {outer : List Pattern} {current : Pattern} {r' : Reader}
    (h : (⟨outer, current, none⟩ : Reader).Settled) {position : Nat} {c : Char}
    (read : (⟨outer, current, none⟩ : Reader).stepUnit position c = .ok r') :
    r'.Settled ∧ r'.written = (⟨outer, current, none⟩ : Reader).written ++ [c] := by
  obtain ⟨outerOk, currentOk, -⟩ := h
  unfold Reader.stepUnit at read
  split at read
  · next opening =>
    cases read
    cases opening
    refine ⟨⟨outerOk, currentOk, by simpa using Bracket.settled_start⟩, ?_⟩
    simp [written, Bracket.written, Bracket.start, Bracket.Tail.written]
  split at read
  · next opening =>
    cases read
    cases opening
    refine ⟨⟨List.forall_mem_cons.2 ⟨currentOk, outerOk⟩, trivial, by simp⟩, ?_⟩
    simp [written, writtenBefore]
  split at read
  · cases read
  split at read
  · next closing =>
    cases closing
    cases outer with
    | nil => cases read
    | cons before outer =>
      cases read
      obtain ⟨beforeOk, outerOk⟩ := List.forall_mem_cons.1 outerOk
      refine ⟨⟨outerOk, ?_, by simp⟩, by simp [written, writtenBefore, Pattern.write]⟩
      exact Pattern.wellFormed_append.2 ⟨beforeOk, currentOk, trivial⟩
  · next notOpen notGroup notClose notEnd =>
    cases read
    refine ⟨⟨outerOk, ?_, by simp⟩, by simp [written, Pattern.write]⟩
    refine Pattern.wellFormed_append.2 ⟨currentOk, ?_, trivial⟩
    simp [notOpen, notGroup, notClose, notEnd]

/-- Inside a class, reading a character adds it to what was written. -/
theorem Settled.stepBracket {outer : List Pattern} {current : Pattern} {b : Bracket} {r' : Reader}
    (h : (⟨outer, current, some b⟩ : Reader).Settled) {position : Nat} {c : Char}
    (read : (⟨outer, current, some b⟩ : Reader).stepBracket position b c = .ok r') :
    r'.Settled ∧ r'.written = (⟨outer, current, some b⟩ : Reader).written ++ [c] := by
  obtain ⟨outerOk, currentOk, bracketOk⟩ := h
  have settled : b.Settled := bracketOk b rfl
  unfold Reader.stepBracket at read
  split at read
  · next closing =>
    cases closing
    split at read
    · cases read
    · next nonempty =>
      cases read
      obtain ⟨readable, same⟩ := settled.readable nonempty
      refine ⟨⟨outerOk, Pattern.wellFormed_append.2 ⟨currentOk, readable, trivial⟩, by simp⟩, ?_⟩
      simp [written, Pattern.write, ← same]
  · next member =>
    cases inner : b.step position c with
    | error fault =>
      rw [inner] at read
      cases read
    | ok b' =>
      rw [inner] at read
      cases read
      obtain ⟨settled', same⟩ := settled.step member inner
      exact ⟨⟨outerOk, currentOk, by simpa using settled'⟩, by simp [written, same]⟩

/-- **Reading a character adds it to what was written**, and what was read stays well-formed. -/
theorem Settled.step {r r' : Reader} (h : r.Settled) {position : Nat} {c : Char}
    (read : r.step position c = .ok r') : r'.Settled ∧ r'.written = r.written ++ [c] := by
  obtain ⟨outer, current, bracket⟩ := r
  cases bracket with
  | none => exact h.stepUnit read
  | some b => exact h.stepBracket read

/-- Reading a text adds it to what was written. -/
theorem Settled.run {r r' : Reader} (h : r.Settled) {position : Nat} {text : List Char}
    (read : r.run position text = .ok r') : r'.Settled ∧ r'.written = r.written ++ text := by
  induction text generalizing r position with
  | nil =>
    cases read
    exact ⟨h, by simp⟩
  | cons c text ih =>
    rw [Reader.run] at read
    cases first : r.step position c with
    | error fault => simp [first] at read
    | ok r₁ =>
      rw [first] at read
      obtain ⟨h₁, same₁⟩ := h.step first
      obtain ⟨h', same⟩ := ih h₁ read
      exact ⟨h', by rw [same, same₁, List.append_assoc, List.singleton_append]⟩

end Reader

/-! ### Both directions -/

namespace Pattern

/-- The units of a text are well-formed, and the text is what is written for them. -/
theorem readUnits_eq_ok_iff {text : List Char} {p : Pattern} :
    readUnits text = .ok p ↔ p.write = text ∧ p.WellFormed := by
  constructor
  · intro read
    rw [readUnits] at read
    cases ran : Reader.start.run 0 text with
    | error fault => simp [ran] at read
    | ok r =>
      rw [ran] at read
      obtain ⟨settled, same⟩ := Reader.settled_start.run ran
      obtain ⟨outer, current, bracket⟩ := r
      cases bracket with
      | some b => cases read
      | none =>
        cases outer with
        | cons before outer => cases read
        | nil =>
          cases read
          exact ⟨by simpa [Reader.written, Reader.writtenBefore, Reader.start] using same,
            settled.current⟩
  · rintro ⟨rfl, wellFormed⟩
    rw [readUnits, Reader.start, Reader.takes_write wellFormed [] .done 0]
    rfl

theorem readChars_eq_ok_iff {text : List Char} {p : Pattern} :
    readChars text = .ok p ↔ readUnits text = .ok p ∧ p.onlyLoops = false := by
  rw [readChars]
  cases read : readUnits text with
  | error fault => simp
  | ok q =>
    by_cases loops : q.onlyLoops
    · simp only [loops, if_true, Except.ok.injEq]
      constructor
      · rintro ⟨⟩
      · rintro ⟨rfl, consumes⟩
        rw [loops] at consumes
        cases consumes
    · simp only [loops, Except.ok.injEq]
      constructor
      · rintro ⟨⟩
        exact ⟨rfl, by simpa using loops⟩
      · rintro ⟨rfl, -⟩
        rfl

theorem read_eq_ok_iff_readChars {text : String} {p : Pattern} :
    read text = .ok p ↔ readChars text.toList = .ok p := by
  rw [read]
  cases readChars text.toList with
  | error fault => simp
  | ok q => simp

/-- **Reading accepts exactly the notation of patterns, and loses nothing.**  A text is read as a
pattern if and only if it is what is written for the pattern, the pattern is well-formed, and some
unit at its top is not a group. -/
theorem read_eq_ok_iff {text : String} {p : Pattern} :
    read text = .ok p ↔ String.ofList p.write = text ∧ p.WellFormed ∧ p.onlyLoops = false := by
  rw [read_eq_ok_iff_readChars, readChars_eq_ok_iff, readUnits_eq_ok_iff, and_assoc]
  refine and_congr_left fun _ => ?_
  constructor
  · intro same
    rw [same, String.ofList_toList]
  · rintro rfl
    rw [String.toList_ofList]

/-- A range takes its dash first; what is left over are members. -/
example : read "[a-b-c]" = .ok (.oneOf [.range 'a' 'b', .single '-', .single 'c'] .done) := rfl

/-- A dash between two dashes makes a range of them. -/
example : read "[---]" = .ok (.oneOf [.range '-' '-'] .done) := rfl

end Pattern

end FrontEnd
